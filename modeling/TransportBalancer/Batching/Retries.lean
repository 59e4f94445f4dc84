/-
  File:      TransportBalancer/Batching/Retries.lean
  Subject:   WHAT A CHUNK SENDS TO THE INNER SERVICE, whatever it replies: which requests, how
             often, in how many calls, and when the rejection callback is called.

  * `RetrySchedule` -- the schedule of a chunk and of the tasks it has spawned;
  * `call_point`, `matched_before_last`, `spawned_out`, `rejections_due` -- what the course protocol
    says at the points of a trace;
  * **`retries_scheduled`** -- every trace keeps to the schedule: no request that was answered is
    sent again, and none more than `max_missing_retries + 1` times.
-/
import TransportBalancer.Batching.Routing

namespace TransportBalancer.Batching

open Interaction KeyedList

/-! ## 1. The schedule -/

/-- The packets a trace has sent to the inner service. -/
def packets (tr : Trace BatchSig) : List RequestPacket :=
  tr.filterMap fun
    | ⟨.innerCall packet, _⟩ => some packet
    | _ => none

/-- The ids of the responses of some replies. -/
def replyIds (replies : List RpcResult) : List Id :=
  replies.flatMap fun
    | .ok packet => (replyResponses packet).map Response.id
    | .error _ => []

/-- The ids the replies to the batches of a trace have answered. -/
def answeredIds (tr : Trace BatchSig) : List Id := replyIds (batchReplies tr)

/-- The tasks a chunk has spawned, each with what it has done so far. -/
structure SpawnedTraces (config : RunningConfig) (display : TransportError → String)
    (tr : Trace BatchSig) (tasks : List (SpawnedTask × Trace BatchSig)) : Prop where
  spawned : tasks.map Prod.fst = spawns tr
  steps : ∀ x ∈ tasks, ∃ q, Steps (x.1.program config.toBatchingConfig display) x.2 q

/-- The packets sent by the tasks of a chunk. -/
def taskPackets (tasks : List (SpawnedTask × Trace BatchSig)) : List RequestPacket :=
  tasks.flatMap fun x => packets x.2

/-- The flush loop sends off a list of requests as a chunk. -/
def FlushedChunk (config : RunningConfig) (pending : List PendingRequest) : Prop :=
  ∃ tr q, Steps (flushTurn config) tr q ∧ (⟨.spawn (.chunk pending), ()⟩ : Event BatchSig) ∈ tr

/-- The callback is not to be called next, and nothing is being handed out. -/
def Decided : Program BatchSig Unit → Prop
  | .ret _ => True
  | .op e _ => e.handsOut = false ∧ e ≠ .onBatchRejection

/-- **The schedule of a chunk** with its spawned tasks. A call that never returns is covered too:
    the trace in which it returns is one that begins the same. -/
structure RetrySchedule (config : RunningConfig) (pending : List PendingRequest)
    (tr : Trace BatchSig) (q : Program BatchSig Unit)
    (tasks : List (SpawnedTask × Trace BatchSig)) : Prop where
  /-- No id is sent more than `max_missing_retries + 1` times, -/
  often : ∀ id, (packets tr ++ taskPackets tasks).countP (fun packet =>
    decide (id ∈ packet.requests.map SerializedRequest.id)) ≤ config.maxMissingRetries + 1
  /-- and none more than once as a single request, by the tasks. -/
  once : ∃ entries : List PendingRequest, (ids entries).Nodup ∧
    (taskPackets tasks).Sublist (entries.map fun p => .single p.request)
  /-- A batch carries the requests not answered yet, the last of each id, unchanged. -/
  carries : ∀ tr₁ packet reply tr₂, tr = tr₁ ++ ⟨.innerCall packet, reply⟩ :: tr₂ →
    ∃ reqs, packet = .batch reqs ∧ reqs.Perm (requestsOf
      ((survivors pending).filter fun p => p.request.id ∉ answeredIds tr₁))
  /-- Each batch is smaller than those before it. -/
  shrinks : ∀ tr₁ packet reply tr₂ packet' reply' tr₃,
    tr = tr₁ ++ ⟨.innerCall packet, reply⟩ :: (tr₂ ++ ⟨.innerCall packet', reply'⟩ :: tr₃) →
      packet'.requests.length < packet.requests.length
  /-- What a reply to a batch has answered is not sent again, -/
  answered : ∀ tr₁ packet reply tr₂, tr = tr₁ ++ ⟨.innerCall packet, .ok reply⟩ :: tr₂ →
    ∀ response ∈ replyResponses reply, ∀ packet' ∈ packets tr₂ ++ taskPackets tasks,
      response.id ∉ packet'.requests.map SerializedRequest.id
  /-- nor is anything after a request has gone to a task of its own, but by the tasks; -/
  alone : ∀ tr₁ task tr₂, tr = tr₁ ++ ⟨.spawn task, ()⟩ :: tr₂ → packets tr₂ = []
  /-- after an error nothing is sent at all. -/
  failed : ∀ tr₁ packet err tr₂, tr = tr₁ ++ ⟨.innerCall packet, .error err⟩ :: tr₂ →
    packets tr₂ = [] ∧ tasks = []
  /-- No packet is empty, nor larger than the chunk, -/
  sizes : ∀ packet ∈ packets tr ++ taskPackets tasks,
    1 ≤ packet.requests.length ∧ packet.requests.length ≤ pending.length
  /-- whose size the flush loop bounds. -/
  capped : FlushedChunk config pending → ∀ packet ∈ packets tr ++ taskPackets tasks,
    packet.requests.length ≤ config.maxBatchSize
  /-- All in all as many calls as there may be retries and as there are ids. -/
  total : (packets tr ++ taskPackets tasks).length ≤
    config.maxMissingRetries + (ids pending).dedup.length
  /-- The callback is called once at most, -/
  rejectedOnce : rejections tr ≤ 1
  /-- only for a reply without a response to any outstanding request, -/
  rejected : rejections tr = 1 → config.onBatchRejection = true ∧
    ∃ tr₁ reqs packet tr₂, tr = tr₁ ++ ⟨.innerCall (.batch reqs), .ok packet⟩ :: tr₂ ∧
      ∀ request ∈ reqs, request.id ∉ (replyResponses packet).map Response.id
  /-- and for such a reply it is called before anything else is. -/
  rejects : Decided q → config.onBatchRejection = true →
    ∀ tr₁ reqs packet tr₂, tr = tr₁ ++ ⟨.innerCall (.batch reqs), .ok packet⟩ :: tr₂ →
      (∀ request ∈ reqs, request.id ∉ (replyResponses packet).map Response.id) →
        rejections tr = 1

/-! ## 2. Outstanding requests -/

section Course

theorem remaining_sublist (entries : List PendingRequest) (reply : RpcResult) :
    (remaining entries reply).Sublist entries := by
  cases reply with
  | ok packet => exact List.filter_sublist
  | error err => exact List.nil_sublist _

theorem outstandingAfter_sublist (entries : List PendingRequest) (replies : List RpcResult) :
    (outstandingAfter entries replies).Sublist entries := by
  induction replies using List.reverseRecOn with
  | nil => exact .refl _
  | append_singleton replies reply ih =>
    rw [outstandingAfter_append]
    exact (remaining_sublist _ reply).trans ih

theorem replyIds_append (replies : List RpcResult) (packet : ResponsePacket) :
    replyIds (replies ++ [.ok packet]) =
      replyIds replies ++ (replyResponses packet).map Response.id := by
  simp [replyIds]

/-- What is outstanding has not been answered. -/
theorem outstandingAfter_subset {entries : List PendingRequest} {replies : List RpcResult} :
    outstandingAfter entries replies ⊆
      entries.filter fun p => p.request.id ∉ replyIds replies := by
  induction replies using List.reverseRecOn with
  | nil =>
    intro p hp
    exact List.mem_filter.mpr ⟨hp, by simp [replyIds]⟩
  | append_singleton replies reply ih =>
    rw [outstandingAfter_append]
    intro p hp
    have hbefore := List.mem_filter.mp (ih ((remaining_sublist _ reply).subset hp))
    refine List.mem_filter.mpr ⟨hbefore.1, ?_⟩
    cases reply with
    | ok packet =>
      have hnot := (List.mem_filter.mp hp).2
      simp only [replyIds_append, decide_eq_true_eq, List.mem_append, not_or] at hbefore hnot ⊢
      exact ⟨hbefore.2, hnot⟩
    | error err => exact absurd hp List.not_mem_nil

/-- While no call has failed, all that was not answered is outstanding. -/
theorem outstandingAfter_eq {entries : List PendingRequest} {replies : List RpcResult}
    (h : AllMatched entries replies) : outstandingAfter entries replies =
      entries.filter fun p => p.request.id ∉ replyIds replies := by
  induction replies using List.reverseRecOn with
  | nil => exact (List.filter_eq_self.mpr fun _ _ => by simp [replyIds]).symm
  | append_singleton replies reply ih =>
    obtain ⟨hbefore, hlast, _⟩ := allMatched_append.mp h
    rw [outstandingAfter_append, ih hbefore]
    cases reply with
    | ok packet =>
      rw [replyIds_append]
      refine (List.filter_filter).trans (List.filter_congr fun p _ => ?_)
      rw [← Bool.decide_and, decide_eq_decide, List.mem_append, not_or, and_comm]
    | error err => exact hlast.elim

/-- After a failed call nothing is. -/
theorem outstandingAfter_error {entries : List PendingRequest} {replies : List RpcResult}
    {err : TransportError} (h : .error err ∈ replies) : outstandingAfter entries replies = [] := by
  obtain ⟨before, after, rfl⟩ := List.append_of_mem h
  have hnone : outstandingAfter entries (before ++ .error err :: after) =
      outstandingAfter [] after := by
    unfold outstandingAfter
    rw [List.foldl_append]
    rfl
  rw [hnone]
  exact List.sublist_nil.mp (outstandingAfter_sublist [] after)

theorem outstandingAfter_shrinks {entries : List PendingRequest} {reply : RpcResult}
    {replies : List RpcResult} (h : AllMatched entries (reply :: replies)) :
    (outstandingAfter entries (reply :: replies)).length < entries.length :=
  ((outstandingAfter_sublist (remaining entries reply) replies).length_le).trans_lt
    (remaining_length_lt h.1)

end Course

/-! ## 3. The points of a trace -/

section Points

variable {config : RunningConfig} {display : TransportError → String}
  {pending : List PendingRequest} {tr : Trace BatchSig} {q : Program BatchSig Unit}

@[simp] theorem packets_append (tr tr' : Trace BatchSig) :
    packets (tr ++ tr') = packets tr ++ packets tr' := List.filterMap_append

theorem mem_packets {packet : RequestPacket} : packet ∈ packets tr ↔
    ∃ tr₁ reply tr₂, tr = tr₁ ++ ⟨.innerCall packet, reply⟩ :: tr₂ := by
  constructor
  · intro h
    obtain ⟨⟨e, r⟩, hev, heq⟩ := List.mem_filterMap.mp h
    cases e with
    | innerCall packet' =>
      cases heq
      obtain ⟨tr₁, tr₂, hsplit⟩ := List.append_of_mem hev
      exact ⟨tr₁, r, tr₂, hsplit⟩
    | _ => cases heq
  · intro h
    obtain ⟨tr₁, reply, tr₂, rfl⟩ := h
    rw [packets_append]
    exact List.mem_append_right _ (List.mem_cons_self)

/-- Where a reply came in. -/
theorem split_of_replies {replies more : List RpcResult} {reply : RpcResult}
    (h : batchReplies tr = replies ++ reply :: more) : ∃ tr₁ reqs tr₂,
      tr = tr₁ ++ ⟨.innerCall (.batch reqs), reply⟩ :: tr₂ ∧ batchReplies tr₁ = replies := by
  obtain ⟨before, after, rfl, hbefore, hafter⟩ := List.filterMap_eq_append_iff.mp h
  obtain ⟨quiet, ⟨e, r⟩, rest, rfl, hquiet, hev, _⟩ := List.filterMap_eq_cons_iff.mp hafter
  cases e with
  | innerCall packet =>
    cases packet with
    | single => cases hev
    | batch reqs =>
      cases hev
      refine ⟨before ++ quiet, reqs, rest, (List.append_assoc _ _ _).symm, ?_⟩
      have hnone : batchReplies quiet = [] := List.filterMap_eq_nil_iff.mpr hquiet
      rw [batchReplies_append, hnone, List.append_nil]
      exact hbefore
  | _ => cases hev

/-- The replies of a trace, split at a batch call. -/
theorem batchReplies_split (tr₁ tr₂ : Trace BatchSig) (reqs : List SerializedRequest)
    (reply : RpcResult) : batchReplies (tr₁ ++ ⟨.innerCall (.batch reqs), reply⟩ :: tr₂) =
      batchReplies tr₁ ++ reply :: batchReplies tr₂ := by
  rw [batchReplies_append]
  rfl

theorem stillOut_sublist (tr : Trace BatchSig) : (stillOut pending tr).Sublist pending :=
  (outstandingAfter_sublist _ _).trans (lasts_sublist _ pending)

/-- What is outstanding after a reply was not answered by it, and the reply was no error. -/
theorem stillOut_after {tr₁ tr₂ : Trace BatchSig} {reqs : List SerializedRequest}
    {reply : RpcResult} {p : PendingRequest}
    (hp : p ∈ stillOut pending (tr₁ ++ ⟨.innerCall (.batch reqs), reply⟩ :: tr₂)) :
    ∃ packet, reply = .ok packet ∧ p.request.id ∉ (replyResponses packet).map Response.id := by
  unfold stillOut at hp
  rw [batchReplies_split] at hp
  cases reply with
  | ok packet =>
    have hnot := (List.mem_filter.mp (outstandingAfter_subset hp)).2
    rw [decide_eq_true_eq] at hnot
    refine ⟨packet, rfl, fun hid => hnot ?_⟩
    exact List.mem_flatMap.mpr ⟨.ok packet, List.mem_append_right _ List.mem_cons_self, hid⟩
  | error err =>
    rw [outstandingAfter_error (List.mem_append_right _ List.mem_cons_self)] at hp
    exact absurd hp List.not_mem_nil

/-- **What is known at an inner call.** -/
theorem call_point {tr₁ tr₂ : Trace BatchSig} {packet : RequestPacket} {reply : RpcResult}
    (hs : Steps (sendBatchWithRetry config.toBatchingConfig display pending)
      (tr₁ ++ ⟨.innerCall packet, reply⟩ :: tr₂) q)
    (horders : MapOrders (tr₁ ++ ⟨.innerCall packet, reply⟩ :: tr₂)) :
    MayCall config.toBatchingConfig display pending tr₁ packet := by
  exact sendBatchWithRetry_follows.performed_record hs horders.before

/-- Every reply but the last has matched, and there were not too many before it. -/
theorem matched_before_last
    (hs : Steps (sendBatchWithRetry config.toBatchingConfig display pending) tr q)
    (horders : MapOrders tr) {replies : List RpcResult} {reply : RpcResult}
    {more : List RpcResult} (h : batchReplies tr = replies ++ reply :: more) :
    AllMatched (survivors pending) replies ∧ replies.length < config.maxMissingRetries := by
  obtain ⟨tr₁, reqs, tr₂, rfl, rfl⟩ := split_of_replies h
  have hmay := call_point hs horders
  exact ⟨hmay.matched, hmay.few⟩

/-- A chunk makes as many batch calls as there are retries, at most. -/
theorem replies_few (hs : Steps (sendBatchWithRetry config.toBatchingConfig display pending) tr q)
    (horders : MapOrders tr) : (batchReplies tr).length ≤ config.maxMissingRetries := by
  rcases List.eq_nil_or_concat' (batchReplies tr) with hnil | ⟨replies, reply, hlast⟩
  · rw [hnil]
    exact Nat.zero_le _
  · have hfew := (matched_before_last hs horders hlast).2
    rw [hlast, List.length_append]
    exact hfew

/-- All packets of a chunk itself are batches. -/
theorem packets_length
    (hs : Steps (sendBatchWithRetry config.toBatchingConfig display pending) tr q)
    (horders : MapOrders tr) : (packets tr).length = (batchReplies tr).length := by
  induction tr using List.reverseRecOn generalizing q with
  | nil => rfl
  | append_singleton before ev ih =>
    obtain ⟨k, hbefore, _⟩ := steps_before hs
    rw [packets_append, batchReplies_append, List.length_append, List.length_append,
      ih hbefore horders.before]
    obtain ⟨e, r⟩ := ev
    cases e with
    | innerCall packet =>
      obtain ⟨reqs, rfl, _⟩ := (call_point hs horders).carries
      rfl
    | _ => rfl

/-- **Tasks are spawned for outstanding requests**, each for another one. -/
theorem spawned_out (hs : Steps (sendBatchWithRetry config.toBatchingConfig display pending) tr q)
    (horders : MapOrders tr) :
    ((spawns tr).flatMap SpawnedTask.entries).Subperm (stillOut pending tr) := by
  induction tr using List.reverseRecOn generalizing q with
  | nil => exact List.nil_subperm
  | append_singleton before ev ih =>
    obtain ⟨k, hbefore, _⟩ := steps_before hs
    have horders' := horders.before
    have hok := sendBatchWithRetry_follows.head_record hbefore horders'
    have hprev := ih hbefore horders'
    obtain ⟨e, r⟩ := ev
    cases e with
    | spawn task =>
      obtain ⟨_, hreplies, _, hspawns⟩ := after_spawn before task rfl
      unfold stillOut
      rw [hspawns, hreplies]
      exact hok.out
    | innerCall packet =>
      have hnone : spawns (before ++ [⟨.innerCall packet, r⟩]) = [] := by
        rw [spawns_append, hok.unspawned]
        rfl
      rw [hnone]
      exact List.nil_subperm
    | iterate | send | onBatchRejection | newSemaphore =>
      unfold stillOut
      rw [spawns_append, batchReplies_append]
      simpa [spawns, batchReplies, stillOut] using hprev
    | _ => exact hok.elim

/-- Each of them sends one request. -/
theorem spawned_single
    (hs : Steps (sendBatchWithRetry config.toBatchingConfig display pending) tr q)
    (horders : MapOrders tr) {task : SpawnedTask} (h : task ∈ spawns tr) :
    ∃ semaphore p, task = .individual semaphore p := by
  obtain ⟨⟨e, r⟩, hev, heq⟩ := List.mem_filterMap.mp h
  cases e with
  | spawn task' =>
    cases heq
    obtain ⟨tr₁, tr₂, rfl⟩ := List.append_of_mem hev
    exact (sendBatchWithRetry_follows.performed_record hs horders.before).single
  | _ => cases heq

/-- A task of the fall-back sends its request once. -/
theorem individual_packets {semaphore : Nat} {p : PendingRequest} {tr : Trace BatchSig}
    {q : Program BatchSig Unit} (hs : Steps (sendIndividually semaphore p) tr q) :
    (packets tr).Sublist [.single p.request] := by
  have hfollows : (sendIndividually semaphore p).Follows (historyProtocol fun h (e : BatchOp) =>
      ∀ packet, e = .innerCall packet → packet = .single p.request ∧ packets h = []) []
        fun _ _ => True := by
    refine ⟨nofun, fun _ _ => ⟨fun packet heq => ?_, fun _ _ => ⟨nofun, fun _ _ => ⟨nofun,
      fun _ _ => trivial⟩⟩⟩⟩
    cases heq
    exact ⟨rfl, rfl⟩
  induction tr using List.reverseRecOn generalizing q with
  | nil => exact List.nil_sublist _
  | append_singleton before ev ih =>
    obtain ⟨q', hbefore, hafter⟩ := steps_append_iff.mp hs
    cases hafter with
    | step e r k _ =>
      have hok := hfollows.head_history hbefore
      cases e with
      | innerCall packet =>
        obtain ⟨rfl, hnone⟩ := hok packet rfl
        rw [packets_append, hnone]
        exact .refl _
      | _ =>
        rw [packets_append]
        show (packets before ++ []).Sublist _
        rw [List.append_nil]
        exact ih hbefore

/-- **The tasks of a chunk** send the requests they were spawned for, each once. -/
theorem taskPackets_sublist {tasks : List (SpawnedTask × Trace BatchSig)}
    (hsteps : ∀ x ∈ tasks, ∃ q, Steps (x.1.program config.toBatchingConfig display) x.2 q)
    (hsingle : ∀ task ∈ tasks.map Prod.fst, ∃ semaphore p, task = .individual semaphore p) :
    (taskPackets tasks).Sublist (((tasks.map Prod.fst).flatMap SpawnedTask.entries).map fun p =>
      RequestPacket.single p.request) := by
  induction tasks with
  | nil => exact .refl _
  | cons x rest ih =>
    obtain ⟨task, tr⟩ := x
    obtain ⟨semaphore, p, rfl⟩ := hsingle _ List.mem_cons_self
    obtain ⟨q, hs⟩ := hsteps _ List.mem_cons_self
    have hrest := ih (fun x hx => hsteps x (List.mem_cons_of_mem _ hx))
      fun task htask => hsingle task (List.mem_cons_of_mem _ htask)
    exact (individual_packets hs).append hrest

/-- The callback is never called before it is due. -/
theorem rejections_due
    (hs : Steps (sendBatchWithRetry config.toBatchingConfig display pending) tr q)
    (horders : MapOrders tr) :
    rejections tr ≤ callbacksDue config.toBatchingConfig pending tr := by
  induction tr using List.reverseRecOn generalizing q with
  | nil => exact Nat.le_refl _
  | append_singleton before ev ih =>
    obtain ⟨k, hbefore, _⟩ := steps_before hs
    have horders' := horders.before
    have hok := sendBatchWithRetry_follows.head_record hbefore horders'
    have hprev := ih hbefore horders'
    obtain ⟨e, r⟩ := ev
    cases e with
    | onBatchRejection =>
      obtain ⟨_, hreplies, hrejections, _⟩ := after_onBatchRejection before rfl
      unfold callbacksDue at hok ⊢
      rw [hrejections, hreplies]
      exact hok.2.2.le
    | innerCall packet =>
      obtain ⟨reqs, rfl, _⟩ := hok.carries
      obtain ⟨_, hreplies, hrejections, _⟩ := after_reply before reqs r rfl
      unfold callbacksDue at hprev ⊢
      rw [hrejections, hreplies, rejectionsDue_append]
      exact hprev.trans (Nat.le_add_right _ _)
    | iterate | send | spawn | newSemaphore =>
      unfold callbacksDue at hprev ⊢
      rw [rejections_append, batchReplies_append]
      simpa [rejections, batchReplies] using hprev
    | _ => exact hok.elim

/-- Before anything else is called it has been called as often as it is due. -/
theorem rejections_of_decided
    (hs : Steps (sendBatchWithRetry config.toBatchingConfig display pending) tr q)
    (horders : MapOrders tr) (hdecided : Decided q) :
    rejections tr = callbacksDue config.toBatchingConfig pending tr := by
  cases q with
  | ret a => exact (sendBatchWithRetry_follows.runs_record hs horders).standing.rejected
  | op e k =>
    have hok := sendBatchWithRetry_follows.head_record hs horders
    cases e with
    | send | iterate => cases hdecided.1
    | innerCall | spawn => exact hok.standing.rejected
    | onBatchRejection => exact absurd rfl hdecided.2
    | newSemaphore => exact hok.1.rejected
    | _ => exact hok.elim

/-- **The callback is due once at most**, for the last reply. -/
theorem callbacksDue_eq
    (hs : Steps (sendBatchWithRetry config.toBatchingConfig display pending) tr q)
    (horders : MapOrders tr) {replies : List RpcResult} {reply : RpcResult}
    (h : batchReplies tr = replies ++ [reply]) :
    callbacksDue config.toBatchingConfig pending tr =
      if config.onBatchRejection = true ∧
        Rejects (outstandingAfter (survivors pending) replies) reply then 1 else 0 := by
  unfold callbacksDue
  rw [h, rejectionsDue_append,
    rejectionsDue_of_allMatched _ (matched_before_last hs horders h).1, Nat.zero_add]

/-- Whether a reply rejects a batch can be read off the packet. -/
theorem rejects_iff {tr₁ : Trace BatchSig} {reqs : List SerializedRequest}
    (hreqs : reqs.Perm (requestsOf (stillOut pending tr₁))) (packet : ResponsePacket) :
    Rejects (stillOut pending tr₁) (.ok packet) ↔
      ∀ request ∈ reqs, request.id ∉ (replyResponses packet).map Response.id := by
  have hmem : ∀ request, request ∈ reqs ↔ ∃ p ∈ stillOut pending tr₁, p.request = request :=
    fun request => hreqs.mem_iff.trans List.mem_map
  constructor
  · intro h request hrequest
    obtain ⟨p, hp, rfl⟩ := (hmem request).mp hrequest
    exact h p hp
  · intro h p hp
    exact h p.request ((hmem _).mpr ⟨p, hp, rfl⟩)

/-- The ids of the outstanding requests are distinct. -/
theorem stillOut_nodup (tr : Trace BatchSig) : (ids (stillOut pending tr)).Nodup :=
  (lasts_nodup _ pending).sublist ((outstandingAfter_sublist _ _).map _)

theorem stillOut_length_le (tr : Trace BatchSig) :
    (stillOut pending tr).length ≤ (ids pending).dedup.length := by
  have hlength : (survivors pending).length = (ids pending).dedup.length := by
    rw [ids, ← map_lasts, List.length_map]
    rfl
  rw [← hlength]
  exact (outstandingAfter_sublist _ _).length_le

/-- What a batch call carries. -/
theorem packet_requests {tr₁ : Trace BatchSig} {packet : RequestPacket}
    (hmay : MayCall config.toBatchingConfig display pending tr₁ packet) :
    packet.requests ≠ [] ∧ packet.requests.Perm (requestsOf (stillOut pending tr₁)) := by
  obtain ⟨reqs, rfl, hne, hperm⟩ := hmay.carries
  exact ⟨hne, hperm⟩

theorem packet_ids {tr₁ : Trace BatchSig} {packet : RequestPacket}
    (hmay : MayCall config.toBatchingConfig display pending tr₁ packet) :
    packet.requests.map SerializedRequest.id ⊆ ids (stillOut pending tr₁) := by
  intro id hid
  have hperm := (packet_requests hmay).2.map SerializedRequest.id
  rw [requestsOf, List.map_map] at hperm
  exact hperm.subset hid

/-- The flush loop sends off chunks that fit a batch. -/
theorem flushedChunk_length (h : FlushedChunk config pending) :
    pending.length ≤ config.maxBatchSize := by
  obtain ⟨tr, q, hs, hmem⟩ := h
  have hdispatch : ∀ fuel remaining h, (dispatch config fuel remaining).Follows
      (historyProtocol fun _ (e : BatchOp) =>
        ∀ task, e = .spawn task → task.entries.length ≤ config.maxBatchSize) h
      fun _ _ => True := by
    intro fuel
    induction fuel with
    | zero => exact fun _ _ => trivial
    | succ fuel ih =>
      intro remaining h
      unfold dispatch
      split
      · trivial
      · refine ⟨fun task heq => ?_, fun _ _ => ih _ _⟩
        cases heq
        rw [chunkTask_entries, List.length_take]
        exact (Nat.min_le_left _ _).trans (Nat.min_le_right _ _)
  have hfollows : (flushTurn config).Follows (historyProtocol fun _ (e : BatchOp) =>
      ∀ task, e = .spawn task → task.entries.length ≤ config.maxBatchSize) []
      fun _ _ => True := by
    have hother : ∀ e : BatchOp, (∀ task, e ≠ .spawn task) →
        ∀ task, e = .spawn task → task.entries.length ≤ config.maxBatchSize :=
      fun _ hne task heq => absurd heq (hne task)
    refine ⟨hother _ fun _ => BatchOp.noConfusion, fun up _ => ?_⟩
    cases up with
    | false => trivial
    | true =>
      exact ⟨hother _ fun _ => BatchOp.noConfusion, fun since _ =>
        ⟨hother _ fun _ => BatchOp.noConfusion, fun _ _ =>
          ⟨hother _ fun _ => BatchOp.noConfusion, fun batch _ =>
            ⟨hother _ fun _ => BatchOp.noConfusion, fun _ _ =>
              (hdispatch batch.length batch _).bind fun _ _ _ => trivial⟩⟩⟩⟩
  obtain ⟨tr₁, tr₂, rfl⟩ := List.append_of_mem hmem
  exact hfollows.performed hs (Protocol.admitted_of_free (fun _ _ _ => trivial) _ _) _ rfl

end Points

/-! ## 4. The schedule is kept -/

section Schedule

variable {config : RunningConfig} {display : TransportError → String}
  {pending : List PendingRequest} {tr : Trace BatchSig} {q : Program BatchSig Unit}
  {tasks : List (SpawnedTask × Trace BatchSig)}

/-- What the tasks of a chunk have sent: some of the outstanding requests, each once. -/
theorem taskPackets_out
    (hs : Steps (sendBatchWithRetry config.toBatchingConfig display pending) tr q)
    (horders : MapOrders tr) (htasks : SpawnedTraces config display tr tasks) :
    ∃ entries : List PendingRequest, (ids entries).Nodup ∧ entries ⊆ stillOut pending tr ∧
      entries.length ≤ (stillOut pending tr).length ∧
      (taskPackets tasks).Sublist (entries.map fun p => .single p.request) := by
  have hout := spawned_out hs horders
  refine ⟨(spawns tr).flatMap SpawnedTask.entries, ?_, hout.subset, hout.length_le, ?_⟩
  · obtain ⟨l, hperm, hsub⟩ := hout
    exact (ids_perm hperm).nodup_iff.mp ((stillOut_nodup tr).sublist (hsub.map _))
  · rw [← htasks.spawned]
    refine taskPackets_sublist htasks.steps fun task htask => ?_
    rw [htasks.spawned] at htask
    exact spawned_single hs horders htask

/-- After a reply nobody asks again for what it answered. -/
theorem answered_not_sent
    (hs : Steps (sendBatchWithRetry config.toBatchingConfig display pending) tr q)
    (horders : MapOrders tr) (htasks : SpawnedTraces config display tr tasks)
    {tr₁ tr₂ : Trace BatchSig} {packet : RequestPacket} {reply : ResponsePacket}
    (hsplit : tr = tr₁ ++ ⟨.innerCall packet, .ok reply⟩ :: tr₂) {response : Response}
    (hresponse : response ∈ replyResponses reply) {packet' : RequestPacket}
    (hpacket' : packet' ∈ packets tr₂ ++ taskPackets tasks) :
    response.id ∉ packet'.requests.map SerializedRequest.id := by
  have hanswered : ∀ tr', response.id ∉ ids (stillOut pending
      (tr₁ ++ ⟨.innerCall packet, .ok reply⟩ :: tr')) := by
    intro tr' hmem
    subst hsplit
    obtain ⟨reqs, rfl, _⟩ := (call_point hs horders).carries
    obtain ⟨p, hp, hid⟩ := List.mem_map.mp hmem
    obtain ⟨packet, heq, hnot⟩ := stillOut_after hp
    cases heq
    rw [hid] at hnot
    exact hnot (List.mem_map_of_mem hresponse)
  rcases List.mem_append.mp hpacket' with hmem | hmem
  · obtain ⟨tr₃, reply', tr₄, rfl⟩ := mem_packets.mp hmem
    have hwhole : tr = (tr₁ ++ ⟨.innerCall packet, .ok reply⟩ :: tr₃) ++
        ⟨.innerCall packet', reply'⟩ :: tr₄ := by
      rw [hsplit, List.append_assoc, List.cons_append]
    rw [hwhole] at hs horders
    exact fun hid => hanswered tr₃ (packet_ids (call_point hs horders) hid)
  · obtain ⟨entries, _, hout, _, hsub⟩ := taskPackets_out hs horders htasks
    obtain ⟨p, hp, rfl⟩ := List.mem_map.mp (hsub.subset hmem)
    intro hid
    have hid' : response.id = p.request.id := List.mem_singleton.mp hid
    refine hanswered tr₂ ?_
    rw [← hsplit, hid']
    exact List.mem_map_of_mem (hout hp)

/-- After a batch call the next one carries less. -/
theorem batches_shrink {tr₁ tr₂ tr₃ : Trace BatchSig} {packet packet' : RequestPacket}
    {reply reply' : RpcResult}
    (hs : Steps (sendBatchWithRetry config.toBatchingConfig display pending)
      (tr₁ ++ ⟨.innerCall packet, reply⟩ :: (tr₂ ++ ⟨.innerCall packet', reply'⟩ :: tr₃)) q)
    (horders : MapOrders
      (tr₁ ++ ⟨.innerCall packet, reply⟩ :: (tr₂ ++ ⟨.innerCall packet', reply'⟩ :: tr₃))) :
    packet'.requests.length < packet.requests.length := by
  have hmay := call_point hs horders
  rw [← List.cons_append, ← List.append_assoc] at hs horders
  have hmay' := call_point hs horders
  obtain ⟨reqs, rfl, _⟩ := hmay.carries
  have hmatched := hmay'.matched
  have hlength' := (packet_requests hmay').2.length_eq
  unfold stillOut at hlength'
  rw [batchReplies_split] at hmatched hlength'
  have hout : ∀ entries, outstandingAfter entries (batchReplies tr₁ ++ reply :: batchReplies tr₂) =
      outstandingAfter (outstandingAfter entries (batchReplies tr₁)) (reply :: batchReplies tr₂) :=
    fun entries => List.foldl_append
  have hless := outstandingAfter_shrinks (allMatched_append.mp hmatched).2
  have hlength := (packet_requests hmay).2.length_eq
  rw [requestsOf, List.length_map] at hlength hlength'
  rw [hlength, hlength', hout]
  exact hless

/-- After a failed call nothing is outstanding, and nothing more is sent. -/
theorem nothing_after_error
    (hs : Steps (sendBatchWithRetry config.toBatchingConfig display pending) tr q)
    (horders : MapOrders tr) (htasks : SpawnedTraces config display tr tasks)
    {tr₁ tr₂ : Trace BatchSig} {packet : RequestPacket} {err : TransportError}
    (hsplit : tr = tr₁ ++ ⟨.innerCall packet, .error err⟩ :: tr₂) :
    packets tr₂ = [] ∧ tasks = [] := by
  subst hsplit
  obtain ⟨reqs, rfl, _⟩ := (call_point hs horders).carries
  constructor
  · rw [List.eq_nil_iff_forall_not_mem]
    intro packet' hmem
    obtain ⟨tr₃, reply', tr₄, rfl⟩ := mem_packets.mp hmem
    rw [← List.cons_append, ← List.append_assoc] at hs horders
    have hmatched := (call_point hs horders).matched
    rw [batchReplies_split] at hmatched
    exact (allMatched_append.mp hmatched).2.1.elim
  · have hnone : stillOut pending (tr₁ ++ ⟨.innerCall (.batch reqs), .error err⟩ :: tr₂) = [] := by
      rw [List.eq_nil_iff_forall_not_mem]
      intro p hp
      obtain ⟨packet, heq, _⟩ := stillOut_after hp
      cases heq
    have hout := spawned_out hs horders
    rw [hnone] at hout
    rw [List.eq_nil_iff_forall_not_mem]
    intro x hx
    have htask : x.1 ∈ spawns (tr₁ ++ ⟨.innerCall (.batch reqs), .error err⟩ :: tr₂) := by
      rw [← htasks.spawned]
      exact List.mem_map_of_mem hx
    obtain ⟨semaphore, p, hsingle⟩ := spawned_single hs horders htask
    refine List.not_mem_nil (hout.subset (List.mem_flatMap.mpr ⟨x.1, htask, ?_⟩) : p ∈ [])
    rw [hsingle]
    exact List.mem_singleton_self p

/-- After a task has been spawned the chunk calls no more. -/
theorem nothing_after_spawn {tr₁ tr₂ : Trace BatchSig} {task : SpawnedTask}
    (hs : Steps (sendBatchWithRetry config.toBatchingConfig display pending)
      (tr₁ ++ ⟨.spawn task, ()⟩ :: tr₂) q)
    (horders : MapOrders (tr₁ ++ ⟨.spawn task, ()⟩ :: tr₂)) : packets tr₂ = [] := by
  rw [List.eq_nil_iff_forall_not_mem]
  intro packet hmem
  obtain ⟨tr₃, reply, tr₄, rfl⟩ := mem_packets.mp hmem
  rw [← List.cons_append, ← List.append_assoc] at hs horders
  have hnone := (call_point hs horders).unspawned
  rw [spawns_append] at hnone
  exact absurd (List.append_eq_nil_iff.mp hnone).2 (List.cons_ne_nil _ _)

/-- Every packet carries some of the outstanding requests of some point. -/
theorem packet_size
    (hs : Steps (sendBatchWithRetry config.toBatchingConfig display pending) tr q)
    (horders : MapOrders tr) (htasks : SpawnedTraces config display tr tasks)
    {packet : RequestPacket} (hpacket : packet ∈ packets tr ++ taskPackets tasks) :
    1 ≤ packet.requests.length ∧ packet.requests.length ≤ pending.length := by
  have hle : ∀ tr', (stillOut pending tr').length ≤ pending.length := fun tr' =>
    (stillOut_sublist tr').length_le
  rcases List.mem_append.mp hpacket with hmem | hmem
  · obtain ⟨tr₁, reply, tr₂, rfl⟩ := mem_packets.mp hmem
    obtain ⟨hne, hperm⟩ := packet_requests (call_point hs horders)
    refine ⟨List.length_pos_iff.mpr hne, ?_⟩
    rw [hperm.length_eq, requestsOf, List.length_map]
    exact hle tr₁
  · obtain ⟨entries, _, hout, _, hsub⟩ := taskPackets_out hs horders htasks
    obtain ⟨p, hp, rfl⟩ := List.mem_map.mp (hsub.subset hmem)
    exact ⟨Nat.le_refl _, (List.length_pos_of_mem (hout hp)).trans_le (hle tr)⟩

/-- An id is sent by one of the tasks at most. -/
theorem count_taskPackets (hs : Steps (sendBatchWithRetry config.toBatchingConfig display pending)
      tr q) (horders : MapOrders tr) (htasks : SpawnedTraces config display tr tasks) (id : Id) :
    (taskPackets tasks).countP (fun packet =>
      decide (id ∈ packet.requests.map SerializedRequest.id)) ≤ 1 := by
  obtain ⟨entries, hnodup, _, _, hsub⟩ := taskPackets_out hs horders htasks
  refine (hsub.countP_le).trans ?_
  have hcount : (entries.map fun p => RequestPacket.single p.request).countP (fun packet =>
      decide (id ∈ packet.requests.map SerializedRequest.id)) = (ids entries).count id := by
    unfold ids
    rw [List.countP_map, List.count, List.countP_map]
    refine List.countP_congr fun p _ => ?_
    simp only [Function.comp_apply, RequestPacket.requests, List.map_cons, List.map_nil,
      List.mem_singleton, decide_eq_true_eq, beq_iff_eq]
    exact eq_comm
  rw [hcount]
  exact List.nodup_iff_count_le_one.mp hnodup id

theorem rejections_le_one
    (hs : Steps (sendBatchWithRetry config.toBatchingConfig display pending) tr q)
    (horders : MapOrders tr) : rejections tr ≤ 1 := by
  refine (rejections_due hs horders).trans ?_
  rcases List.eq_nil_or_concat' (batchReplies tr) with hnil | ⟨replies, reply, hlast⟩
  · unfold callbacksDue
    rw [hnil]
    exact Nat.zero_le _
  · rw [callbacksDue_eq hs horders hlast]
    split <;> omega

/-- The callback is called for a reply that answers no request of its batch. -/
theorem rejections_only
    (hs : Steps (sendBatchWithRetry config.toBatchingConfig display pending) tr q)
    (horders : MapOrders tr) (hcalled : rejections tr = 1) :
    config.onBatchRejection = true ∧
      ∃ tr₁ reqs packet tr₂, tr = tr₁ ++ ⟨.innerCall (.batch reqs), .ok packet⟩ :: tr₂ ∧
        ∀ request ∈ reqs, request.id ∉ (replyResponses packet).map Response.id := by
  have hdue := rejections_due hs horders
  rcases List.eq_nil_or_concat' (batchReplies tr) with hnil | ⟨replies, reply, hlast⟩
  · unfold callbacksDue at hdue
    rw [hnil, hcalled] at hdue
    exact absurd hdue (by simp [rejectionsDue])
  · rw [hcalled, callbacksDue_eq hs horders hlast] at hdue
    split at hdue
    · rename_i hrejects
      obtain ⟨hcallback, hrejects⟩ := hrejects
      obtain ⟨tr₁, reqs, tr₂, rfl, rfl⟩ := split_of_replies hlast
      cases reply with
      | ok packet =>
        obtain ⟨_, heq, _, hperm⟩ := (call_point hs horders).carries
        cases heq
        exact ⟨hcallback, tr₁, reqs, packet, tr₂, rfl, (rejects_iff hperm packet).mp hrejects⟩
      | error err => exact hrejects.elim
    · exact absurd hdue (by omega)

/-- For such a reply it is due, and no other reply comes in after it. -/
theorem callback_due
    (hs : Steps (sendBatchWithRetry config.toBatchingConfig display pending) tr q)
    (horders : MapOrders tr) (hcallback : config.onBatchRejection = true)
    {tr₁ tr₂ : Trace BatchSig} {reqs : List SerializedRequest} {packet : ResponsePacket}
    (hsplit : tr = tr₁ ++ ⟨.innerCall (.batch reqs), .ok packet⟩ :: tr₂)
    (hrejects : ∀ request ∈ reqs, request.id ∉ (replyResponses packet).map Response.id) :
    callbacksDue config.toBatchingConfig pending tr = 1 := by
  subst hsplit
  obtain ⟨_, heq, _, hperm⟩ := (call_point hs horders).carries
  cases heq
  have hrejects' := (rejects_iff hperm packet).mpr hrejects
  have hreplies := batchReplies_split tr₁ tr₂ reqs (.ok packet)
  rcases List.eq_nil_or_concat' (batchReplies tr₂) with hnil | ⟨more, reply, hlast⟩
  · rw [hnil] at hreplies
    rw [callbacksDue_eq hs horders hreplies]
    exact if_pos ⟨hcallback, hrejects'⟩
  · rw [hlast, ← List.cons_append, ← List.append_assoc] at hreplies
    have hmatched := (matched_before_last hs horders hreplies).1
    exact absurd hrejects' (not_rejects_of_matches (allMatched_append.mp hmatched).2.1)

/-- **RETRIES ARE SCHEDULED.** Every trace of `send_batch_with_retry`, on any list of requests, with
    any number of retries and whatever the inner service replies, and whatever its spawned tasks
    have done meanwhile, keeps to the schedule. -/
theorem retries_scheduled
    (hs : Steps (sendBatchWithRetry config.toBatchingConfig display pending) tr q)
    (horders : MapOrders tr) (htasks : SpawnedTraces config display tr tasks) :
    RetrySchedule config pending tr q tasks := by
  have hout := taskPackets_out hs horders htasks
  have hbatches : (packets tr).length ≤ config.maxMissingRetries :=
    (packets_length hs horders).trans_le (replies_few hs horders)
  refine ⟨fun id => ?_, ?_, ?_, ?_, ?_, ?_, ?_, fun packet => packet_size hs horders htasks, ?_, ?_,
    ?_, ?_, ?_⟩
  · rw [List.countP_append]
    exact Nat.add_le_add (List.countP_le_length.trans hbatches)
      (count_taskPackets hs horders htasks id)
  · obtain ⟨entries, hnodup, _, _, hsub⟩ := hout
    exact ⟨entries, hnodup, hsub⟩
  · intro tr₁ packet reply tr₂ hsplit
    subst hsplit
    have hmay := call_point hs horders
    obtain ⟨reqs, heq, _, hperm⟩ := hmay.carries
    rw [stillOut, outstandingAfter_eq hmay.matched] at hperm
    exact ⟨reqs, heq, hperm⟩
  · intro tr₁ packet reply tr₂ packet' reply' tr₃ hsplit
    subst hsplit
    exact batches_shrink hs horders
  · intro tr₁ packet reply tr₂ hsplit response hresponse packet' hpacket'
    exact answered_not_sent hs horders htasks hsplit hresponse hpacket'
  · intro tr₁ task tr₂ hsplit
    subst hsplit
    exact nothing_after_spawn hs horders
  · intro tr₁ packet err tr₂ hsplit
    exact nothing_after_error hs horders htasks hsplit
  · intro hflushed packet hpacket
    exact (packet_size hs horders htasks hpacket).2.trans (flushedChunk_length hflushed)
  · obtain ⟨entries, _, _, hlength, hsub⟩ := hout
    have htasks' := hsub.length_le
    have hall : (stillOut pending tr).length ≤ (ids pending).dedup.length := stillOut_length_le tr
    rw [List.length_map] at htasks'
    rw [List.length_append]
    omega
  · exact rejections_le_one hs horders
  · exact rejections_only hs horders
  · intro hdecided hcallback tr₁ reqs packet tr₂ hsplit hrejects
    rw [rejections_of_decided hs horders hdecided]
    exact callback_due hs horders hcallback hsplit hrejects

end Schedule

/-! ## 5. A partial reply and a request of its own -/

section Example

def oneRetryRunning : RunningConfig := ⟨oneRetry, by decide⟩

/-- The task of the request that the batch did not answer. -/
def crossedTask : SpawnedTask × Trace BatchSig :=
  (.individual 0 ⟨⟨.number 2, "c"⟩, 2⟩,
    [⟨.acquire 0, ()⟩, ⟨.innerCall (.single ⟨.number 2, "c"⟩), .error backendGone⟩,
      ⟨.send ⟨⟨.number 2, "c"⟩, 2⟩ (.error backendGone), ()⟩, ⟨.release 0, ()⟩])

theorem crossedTask_spawned :
    SpawnedTraces oneRetryRunning (fun _ => "") crossedRun [crossedTask] where
  spawned := rfl
  steps := by
    intro x hx
    rw [List.mem_singleton.mp hx]
    exact ⟨.ret (), .step _ _ _ (.step _ _ _ (.step _ _ _ (.step _ _ _ (.refl _))))⟩

theorem retries_scheduled_crossed :
    RetrySchedule oneRetryRunning crossed crossedRun (.ret ()) [crossedTask] :=
  retries_scheduled crossedRun_steps crossedRun_orders crossedTask_spawned

end Example

end TransportBalancer.Batching
