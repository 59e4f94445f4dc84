/-
  File:      TransportBalancer/Batching/FirstBatch.lean
  Subject:   THE FIRST BATCH OF A CHUNK with distinct ids: it carries all requests, a request goes
             alone only after a batch reply was without it, and a batch that is answered in full
             is the only call.

  * `BatchedFirst` -- what a trace of the chunk and those of its tasks keep to;
  * `spawn_after_reply` -- with a retry to spare, no task is spawned before a batch reply;
  * **`batched_first_iff`** -- every trace keeps to it exactly when `max_missing_retries` is not 0.
    Where it is 0 the first attempt is the last one too, and goes out individually.
-/
import TransportBalancer.Batching.Retries

namespace TransportBalancer.Batching

open Interaction KeyedList

/-! ## 1. A batch first -/

/-- Every batch of a trace got a reply with a response for each of its requests. -/
def FullyAnswered (tr : Trace BatchSig) : Prop :=
  ∀ tr₁ reqs reply tr₂, tr = tr₁ ++ ⟨.innerCall (.batch reqs), reply⟩ :: tr₂ →
    ∃ packet, reply = .ok packet ∧
      ∀ request ∈ reqs, request.id ∈ (replyResponses packet).map Response.id

/-- **A chunk is sent as a batch first.** Every beginning of a trace is a trace, so that what holds
    of the packets at all points holds of their order. -/
structure BatchedFirst (pending : List PendingRequest) (tr : Trace BatchSig)
    (q : Program BatchSig Unit) (tasks : List (SpawnedTask × Trace BatchSig)) : Prop where
  /-- The first call of the chunk is a batch of all its requests, -/
  first : ∀ packet ∈ (packets tr).head?,
    ∃ reqs, packet = .batch reqs ∧ reqs.Perm (requestsOf pending)
  /-- made before any task calls, and before the end. -/
  made : taskPackets tasks ≠ [] ∨ q = .ret () → packets tr ≠ []
  /-- A request is sent alone only after a batch with it got a reply without it. -/
  alone : ∀ request, .single request ∈ packets tr ++ taskPackets tasks →
    ∃ tr₁ reqs packet tr₂, tr = tr₁ ++ ⟨.innerCall (.batch reqs), .ok packet⟩ :: tr₂ ∧
      request ∈ reqs ∧ request.id ∉ (replyResponses packet).map Response.id
  /-- If every batch is answered in full, there is one call in all. -/
  complete : FullyAnswered tr → (packets tr ++ taskPackets tasks).length ≤ 1 ∧
    (q = .ret () → (packets tr ++ taskPackets tasks).length = 1)

/-! ## 2. Spawning -/

section Spawning

variable {config : BatchingConfig} {display : TransportError → String}

/-- Tasks are spawned after a batch reply only. -/
def lateSpawns : Protocol BatchSig (Trace BatchSig) :=
  historyProtocol fun h e => ∀ task, e = .spawn task → batchReplies h ≠ []

/-- Once there was one, anything goes. -/
theorem follows_of_reply {α : Type} (p : Program BatchSig α) {h : Trace BatchSig}
    (hreply : batchReplies h ≠ []) : p.Follows lateSpawns h fun _ _ => True := by
  induction p generalizing h with
  | ret a => trivial
  | op e k ih =>
    refine ⟨fun _ _ => hreply, fun r _ => ih r ?_⟩
    show batchReplies (h ++ [⟨e, r⟩]) ≠ []
    rw [batchReplies_append]
    exact List.append_ne_nil_of_left_ne_nil hreply _

theorem insertAll_spawns (rest : List PendingRequest) (o : Outstanding) (h : Trace BatchSig) :
    (insertAll rest o).Follows lateSpawns h fun _ _ => True := by
  induction rest generalizing o h with
  | nil => trivial
  | cons p rest ih =>
    unfold insertAll
    split
    · exact ⟨fun _ => BatchOp.noConfusion, fun _ _ => ih _ _⟩
    · exact ih _ _

/-- The first attempt sends a batch, unless it is the last one too. -/
theorem sendBatchWithRetry_spawns (hretry : 1 ≤ config.maxMissingRetries)
    (pending : List PendingRequest) :
    (sendBatchWithRetry config display pending).Follows lateSpawns [] fun _ _ => True := by
  refine (insertAll_spawns pending .empty []).bind fun h o _ => ?_
  unfold attempts
  split
  · trivial
  · split
    · omega
    · refine ⟨fun _ => BatchOp.noConfusion, fun order _ => ⟨fun _ => BatchOp.noConfusion,
        fun reply _ => follows_of_reply _ ?_⟩⟩
      show batchReplies (_ ++ [⟨.innerCall (.batch _), reply⟩]) ≠ []
      rw [batchReplies_append]
      exact List.append_ne_nil_of_right_ne_nil _ (List.cons_ne_nil _ _)

/-- **A task is spawned after a batch reply.** -/
theorem spawn_after_reply (hretry : 1 ≤ config.maxMissingRetries) {pending : List PendingRequest}
    {tr : Trace BatchSig} {q : Program BatchSig Unit}
    (hs : Steps (sendBatchWithRetry config display pending) tr q) (hspawned : spawns tr ≠ []) :
    batchReplies tr ≠ [] := by
  obtain ⟨task, htask⟩ := List.exists_mem_of_ne_nil _ hspawned
  obtain ⟨⟨e, r⟩, hev, heq⟩ := List.mem_filterMap.mp htask
  cases e with
  | spawn task' =>
    obtain ⟨tr₁, tr₂, rfl⟩ := List.append_of_mem hev
    obtain ⟨k, hbefore, _⟩ := steps_before hs
    have hreply := (sendBatchWithRetry_spawns hretry pending).head_history hbefore task' rfl
    rw [batchReplies_append]
    exact List.append_ne_nil_of_left_ne_nil hreply _
  | _ => cases heq

end Spawning

/-! ## 3. Distinct ids -/

section Distinct

variable {config : RunningConfig} {display : TransportError → String}
  {pending : List PendingRequest} {tr : Trace BatchSig} {q : Program BatchSig Unit}
  {tasks : List (SpawnedTask × Trace BatchSig)}

/-- Before any reply the whole chunk is outstanding. -/
theorem stillOut_of_no_reply (hids : (ids pending).Nodup) (hnone : batchReplies tr = []) :
    stillOut pending tr = pending := by
  unfold stillOut
  rw [hnone]
  exact lasts_of_nodup _ hids

theorem packets_eq_nil_iff
    (hs : Steps (sendBatchWithRetry config.toBatchingConfig display pending) tr q)
    (horders : MapOrders tr) : packets tr = [] ↔ batchReplies tr = [] := by
  rw [← List.length_eq_zero_iff, packets_length hs horders, List.length_eq_zero_iff]

/-- **The first call** comes before any reply, so it carries the whole chunk. -/
theorem first_call
    (hs : Steps (sendBatchWithRetry config.toBatchingConfig display pending) tr q)
    (horders : MapOrders tr) (hids : (ids pending).Nodup) (hreply : batchReplies tr ≠ []) :
    ∃ tr₁ reqs reply tr₂, tr = tr₁ ++ ⟨.innerCall (.batch reqs), reply⟩ :: tr₂ ∧
      batchReplies tr₁ = [] ∧ packets tr₁ = [] ∧ reqs.Perm (requestsOf pending) := by
  obtain ⟨reply, more, hreplies⟩ := List.exists_cons_of_ne_nil hreply
  rw [← List.nil_append (reply :: more)] at hreplies
  obtain ⟨tr₁, reqs, tr₂, rfl, hnone⟩ := split_of_replies hreplies
  obtain ⟨k, hbefore, _⟩ := steps_before hs
  have hquiet := (packets_eq_nil_iff hbefore horders.before).mpr hnone
  obtain ⟨_, heq, _, hcarries⟩ := (call_point hs horders).carries
  cases heq
  rw [stillOut_of_no_reply hids hnone] at hcarries
  exact ⟨tr₁, reqs, reply, tr₂, rfl, hnone, hquiet, hcarries⟩

/-- A request that a task sends was in the chunk, is outstanding, and so was not answered. -/
theorem single_outstanding
    (hs : Steps (sendBatchWithRetry config.toBatchingConfig display pending) tr q)
    (horders : MapOrders tr) (htasks : SpawnedTraces config display tr tasks)
    {request : SerializedRequest} (hsingle : .single request ∈ packets tr ++ taskPackets tasks) :
    ∃ p ∈ stillOut pending tr, p.request = request := by
  rcases List.mem_append.mp hsingle with hmem | hmem
  · obtain ⟨tr₁, reply, tr₂, rfl⟩ := mem_packets.mp hmem
    obtain ⟨reqs, heq, _⟩ := (call_point hs horders).carries
    cases heq
  · obtain ⟨entries, _, hout, _, hsub⟩ := taskPackets_out hs horders htasks
    obtain ⟨p, hp, heq⟩ := List.mem_map.mp (hsub.subset hmem)
    cases heq
    exact ⟨p, hout hp, rfl⟩

/-- Where a task has called, one was spawned. -/
theorem spawned_of_taskPackets (htasks : SpawnedTraces config display tr tasks)
    (hcalled : taskPackets tasks ≠ []) : spawns tr ≠ [] := by
  rw [← htasks.spawned]
  intro hnone
  rw [List.map_eq_nil_iff] at hnone
  subst hnone
  exact hcalled rfl

/-- A chunk ends with a task for each request that is left, so without a reply it has some. -/
theorem spawned_of_ended
    (hs : Steps (sendBatchWithRetry config.toBatchingConfig display pending) tr (.ret ()))
    (horders : MapOrders tr) (hids : (ids pending).Nodup) (hsome : pending ≠ [])
    (hnone : batchReplies tr = []) : spawns tr ≠ [] := by
  have hspawned := (sendBatchWithRetry_follows.runs_record hs horders).spawned
  rw [stillOut_of_no_reply hids hnone] at hspawned
  intro hempty
  rw [hempty] at hspawned
  exact hsome (List.nil_perm.mp hspawned)

/-- **The first batch has been sent** before a task calls, and before the end. -/
theorem batch_made (hretry : 1 ≤ config.maxMissingRetries)
    (hs : Steps (sendBatchWithRetry config.toBatchingConfig display pending) tr q)
    (horders : MapOrders tr) (htasks : SpawnedTraces config display tr tasks)
    (hids : (ids pending).Nodup) (hsome : pending ≠ [])
    (hlate : taskPackets tasks ≠ [] ∨ q = .ret ()) : batchReplies tr ≠ [] := by
  rcases hlate with hcalled | rfl
  · exact spawn_after_reply hretry hs (spawned_of_taskPackets htasks hcalled)
  · intro hnone
    exact spawn_after_reply hretry hs (spawned_of_ended hs horders hids hsome hnone) hnone

/-- A request sent alone was in the first batch, and the reply was without it. -/
theorem missing_first (hretry : 1 ≤ config.maxMissingRetries)
    (hs : Steps (sendBatchWithRetry config.toBatchingConfig display pending) tr q)
    (horders : MapOrders tr) (htasks : SpawnedTraces config display tr tasks)
    (hids : (ids pending).Nodup) {request : SerializedRequest}
    (hsingle : .single request ∈ packets tr ++ taskPackets tasks) :
    ∃ tr₁ reqs packet tr₂, tr = tr₁ ++ ⟨.innerCall (.batch reqs), .ok packet⟩ :: tr₂ ∧
      request ∈ reqs ∧ request.id ∉ (replyResponses packet).map Response.id := by
  obtain ⟨p, hp, rfl⟩ := single_outstanding hs horders htasks hsingle
  have hreply : batchReplies tr ≠ [] := by
    intro hnone
    have hcalled := (packets_eq_nil_iff hs horders).mpr hnone
    rw [hcalled, List.nil_append] at hsingle
    exact spawn_after_reply hretry hs
      (spawned_of_taskPackets htasks (List.ne_nil_of_mem hsingle)) hnone
  obtain ⟨tr₁, reqs, reply, tr₂, rfl, _, _, hcarries⟩ := first_call hs horders hids hreply
  have hchunk := (stillOut_sublist _).subset hp
  obtain ⟨packet, rfl, hnot⟩ := stillOut_after hp
  exact ⟨tr₁, reqs, packet, tr₂, rfl, hcarries.mem_iff.mpr (List.mem_map_of_mem hchunk), hnot⟩

/-- After a first reply with a response for each request nothing is outstanding. -/
theorem stillOut_of_complete {reqs : List SerializedRequest}
    {packet : ResponsePacket} (hcarries : reqs.Perm (requestsOf pending))
    (hfull : ∀ request ∈ reqs, request.id ∈ (replyResponses packet).map Response.id)
    (tr₁ tr₂ : Trace BatchSig) :
    stillOut pending (tr₁ ++ ⟨.innerCall (.batch reqs), .ok packet⟩ :: tr₂) = [] := by
  rw [List.eq_nil_iff_forall_not_mem]
  intro p hp
  have hchunk := (stillOut_sublist _).subset hp
  obtain ⟨_, heq, hnot⟩ := stillOut_after hp
  cases heq
  exact hnot (hfull p.request (hcarries.mem_iff.mpr (List.mem_map_of_mem hchunk)))

/-- **So it is the only call** of the chunk and its tasks. -/
theorem only_call (htasks : SpawnedTraces config display tr tasks)
    {tr₁ tr₂ : Trace BatchSig} {reqs : List SerializedRequest} {packet : ResponsePacket}
    (hsplit : tr = tr₁ ++ ⟨.innerCall (.batch reqs), .ok packet⟩ :: tr₂)
    (hs : Steps (sendBatchWithRetry config.toBatchingConfig display pending) tr q)
    (horders : MapOrders tr) (hcarries : reqs.Perm (requestsOf pending))
    (hfull : ∀ request ∈ reqs, request.id ∈ (replyResponses packet).map Response.id) :
    packets tr₂ = [] ∧ taskPackets tasks = [] := by
  have hnone := stillOut_of_complete hcarries hfull tr₁
  constructor
  · rw [List.eq_nil_iff_forall_not_mem]
    intro packet' hmem
    obtain ⟨tr₃, reply', tr₄, rfl⟩ := mem_packets.mp hmem
    subst hsplit
    rw [← List.cons_append, ← List.append_assoc] at hs horders
    obtain ⟨hne, hperm⟩ := packet_requests (call_point hs horders)
    rw [hnone tr₃] at hperm
    exact hne hperm.eq_nil
  · obtain ⟨entries, _, hout, _, hsub⟩ := taskPackets_out hs horders htasks
    rw [hsplit, hnone tr₂] at hout
    rw [List.subset_nil.mp hout] at hsub
    exact List.sublist_nil.mp hsub

/-- If all batches are answered in full, there is one call, made before the end. -/
theorem one_call (hretry : 1 ≤ config.maxMissingRetries)
    (hs : Steps (sendBatchWithRetry config.toBatchingConfig display pending) tr q)
    (horders : MapOrders tr) (htasks : SpawnedTraces config display tr tasks)
    (hids : (ids pending).Nodup) (hsome : pending ≠ []) (hfull : FullyAnswered tr) :
    (packets tr ++ taskPackets tasks).length ≤ 1 ∧
      (q = .ret () → (packets tr ++ taskPackets tasks).length = 1) := by
  by_cases hreply : batchReplies tr = []
  · have hmade := batch_made hretry hs horders htasks hids hsome
    have hcalled : taskPackets tasks = [] :=
      Classical.byContradiction fun hne => hmade (.inl hne) hreply
    rw [(packets_eq_nil_iff hs horders).mpr hreply, hcalled]
    exact ⟨Nat.zero_le _, fun hend => absurd hreply (hmade (.inr hend))⟩
  · obtain ⟨tr₁, reqs, reply, tr₂, hsplit, _, hquiet, hcarries⟩ :=
      first_call hs horders hids hreply
    obtain ⟨packet, rfl, hanswers⟩ := hfull tr₁ reqs reply tr₂ hsplit
    obtain ⟨hafter, htask⟩ := only_call htasks hsplit hs horders hcarries hanswers
    have hone : packets tr = [.batch reqs] := by
      rw [hsplit, packets_append, hquiet]
      exact congrArg (RequestPacket.batch reqs :: ·) hafter
    rw [hone, htask]
    exact ⟨Nat.le_refl _, fun _ => rfl⟩

/-- **With a retry to spare, every chunk is sent as a batch first.** -/
theorem batched_first (hretry : 1 ≤ config.maxMissingRetries)
    (hs : Steps (sendBatchWithRetry config.toBatchingConfig display pending) tr q)
    (horders : MapOrders tr) (htasks : SpawnedTraces config display tr tasks)
    (hids : (ids pending).Nodup) (hsome : pending ≠ []) : BatchedFirst pending tr q tasks where
  first := by
    intro packet hfirst
    have hreply : batchReplies tr ≠ [] := by
      intro hnone
      rw [(packets_eq_nil_iff hs horders).mpr hnone] at hfirst
      exact absurd hfirst (Option.not_mem_none _)
    obtain ⟨tr₁, reqs, reply, tr₂, rfl, _, hquiet, hcarries⟩ := first_call hs horders hids hreply
    rw [packets_append, hquiet] at hfirst
    cases Option.some.inj hfirst
    exact ⟨reqs, rfl, hcarries⟩
  made := fun hlate hnone => batch_made hretry hs horders htasks hids hsome hlate
    ((packets_eq_nil_iff hs horders).mp hnone)
  alone := fun _ hsingle => missing_first hretry hs horders htasks hids hsingle
  complete := one_call hretry hs horders htasks hids hsome

end Distinct

/-! ## 4. No retries -/

section NoRetries

variable {config : BatchingConfig} {display : TransportError → String}

/-- An event in which the map keeps to its entries. -/
def OrderedEvent (ev : Event BatchSig) : Prop := MapOrder ev.op ev.ans

theorem insertAll_may (rest : List PendingRequest) (o : Outstanding) :
    ∃ o', (insertAll rest o).May OrderedEvent o' := by
  induction rest generalizing o with
  | nil => exact ⟨o, Program.may_ret o⟩
  | cons p rest ih =>
    unfold insertAll
    split
    · rename_i prev o' _
      exact (ih o').imp fun _ hrest => .op () trivial hrest
    · rename_i o' _
      exact ih o'

theorem spawnAll_may (semaphore : Nat) (entries : List PendingRequest) :
    (spawnAll semaphore entries).May OrderedEvent () := by
  induction entries with
  | nil => exact Program.may_ret ()
  | cons p rest ih => exact .op () trivial ih

theorem fallBack_may (o : Outstanding) : (fallBack o).May OrderedEvent () :=
  .op (0 : Nat) trivial (.op o.values (List.Perm.refl _) (spawnAll_may 0 o.values))

/-- Where the first attempt is the last one, a chunk comes to its end without any reply. -/
theorem sendBatchWithRetry_may (hzero : config.maxMissingRetries = 0)
    (display : TransportError → String) (pending : List PendingRequest) :
    (sendBatchWithRetry config display pending).May OrderedEvent () := by
  obtain ⟨o, hinsert⟩ := insertAll_may pending .empty
  refine hinsert.bind ?_
  unfold attempts
  split
  · exact Program.may_ret ()
  · rw [if_pos hzero.symm]
    exact fallBack_may o

/-- Tasks that have not begun. -/
theorem unbegun_traces (config : RunningConfig) (tr : Trace BatchSig) :
    SpawnedTraces config display tr ((spawns tr).map fun task => (task, [])) where
  spawned := by
    rw [List.map_map]
    exact List.map_id _
  steps := by
    intro x hx
    obtain ⟨task, _, rfl⟩ := List.mem_map.mp hx
    exact ⟨_, .refl _⟩

/-- **Without retries no batch is ever sent**: a chunk that has ended has a task of its own for
    the last request of each id. -/
theorem alone_without_retries {config : RunningConfig} {pending : List PendingRequest}
    {tr : Trace BatchSig} {q : Program BatchSig Unit} (hzero : config.maxMissingRetries = 0)
    (hs : Steps (sendBatchWithRetry config.toBatchingConfig display pending) tr q)
    (horders : MapOrders tr) : packets tr = [] ∧
      (q = .ret () → ((spawns tr).flatMap SpawnedTask.entries).Perm (survivors pending)) := by
  have hfew := replies_few hs horders
  rw [hzero, Nat.le_zero, List.length_eq_zero_iff] at hfew
  refine ⟨(packets_eq_nil_iff hs horders).mpr hfew, ?_⟩
  rintro rfl
  have hspawned := (sendBatchWithRetry_follows.runs_record hs horders).spawned
  unfold stillOut at hspawned
  rwa [hfew] at hspawned

end NoRetries

/-! ## 5. When a batch comes first -/

/-- **A BATCH FIRST**, exactly where `max_missing_retries` is at least 1: every trace of a chunk of
    two or more requests with distinct ids and of its tasks, whatever the inner service replies and
    in whatever order the map yields its entries. -/
theorem batched_first_iff (config : RunningConfig) (display : TransportError → String)
    (pending : List PendingRequest) (hlen : 2 ≤ pending.length) (hids : (ids pending).Nodup) :
    (∀ tr q tasks, Steps (sendBatchWithRetry config.toBatchingConfig display pending) tr q →
      MapOrders tr → SpawnedTraces config display tr tasks → BatchedFirst pending tr q tasks) ↔
    1 ≤ config.maxMissingRetries := by
  constructor
  · intro hfirst
    refine Nat.one_le_iff_ne_zero.mpr fun hzero => ?_
    obtain ⟨tr, hrun, horders⟩ := sendBatchWithRetry_may hzero display pending
    have hmade := (hfirst tr _ _ hrun horders (unbegun_traces config tr)).made (.inr rfl)
    exact hmade (alone_without_retries hzero hrun horders).1
  · intro hretry tr q tasks hs horders htasks
    exact batched_first hretry hs horders htasks hids (List.ne_nil_of_length_pos (by omega))

section Example

/-- Two requests with distinct ids. -/
def pairChunk : List PendingRequest := [⟨⟨.number 1, "a"⟩, 0⟩, ⟨⟨.number 2, "b"⟩, 1⟩]

/-- With one retry: both in one batch, and both answered. -/
def pairRun : Trace BatchSig :=
  [⟨.iterate pairChunk.reverse, pairChunk⟩,
    ⟨.innerCall (.batch (requestsOf pairChunk)),
      .ok (.batch [⟨.number 2, .success "y"⟩, ⟨.number 1, .success "x"⟩])⟩,
    ⟨.send ⟨⟨.number 2, "b"⟩, 1⟩ (.ok (.single ⟨.number 2, .success "y"⟩)), ()⟩,
    ⟨.send ⟨⟨.number 1, "a"⟩, 0⟩ (.ok (.single ⟨.number 1, .success "x"⟩)), ()⟩]

theorem pairRun_steps :
    Steps (sendBatchWithRetry oneRetry (fun _ => "") pairChunk) pairRun (.ret ()) :=
  .step _ _ _ (.step _ _ _ (.step _ _ _ (.step _ _ _ (.refl _))))

theorem pairRun_orders : MapOrders pairRun := by
  intro ev hev
  simp only [pairRun, List.mem_cons, List.not_mem_nil, or_false] at hev
  rcases hev with rfl | rfl | rfl | rfl
  · exact (List.reverse_perm _).symm
  all_goals trivial

theorem batched_first_pair : BatchedFirst pairChunk pairRun (.ret ()) [] :=
  (batched_first_iff oneRetryRunning (fun _ => "") pairChunk (by decide) (by decide)).mpr
    (by decide) pairRun (.ret ()) [] pairRun_steps pairRun_orders
    ⟨rfl, fun _ h => absurd h List.not_mem_nil⟩

/-- No retries. -/
def noRetriesRunning : RunningConfig :=
  ⟨{ BatchingConfig.default with maxMissingRetries := 0 }, by decide⟩

/-- Without retries each gets a task at once. -/
def apartRun : Trace BatchSig :=
  [⟨.newSemaphore 10, (0 : Nat)⟩, ⟨.iterate pairChunk.reverse, pairChunk⟩,
    ⟨.spawn (.individual 0 ⟨⟨.number 1, "a"⟩, 0⟩), ()⟩,
    ⟨.spawn (.individual 0 ⟨⟨.number 2, "b"⟩, 1⟩), ()⟩]

/-- Both tasks, up to their calls. -/
def apartTasks : List (SpawnedTask × Trace BatchSig) :=
  pairChunk.map fun p => (.individual 0 p, [⟨.acquire 0, ()⟩,
    ⟨.innerCall (.single p.request), .ok (.single ⟨p.request.id, .success "x"⟩)⟩])

/-- Two calls and no batch, though no reply was without anything. -/
theorem apart_without_retries :
    Steps (sendBatchWithRetry noRetriesRunning.toBatchingConfig (fun _ => "") pairChunk) apartRun
      (.ret ()) ∧ MapOrders apartRun ∧
    SpawnedTraces noRetriesRunning (fun _ => "") apartRun apartTasks ∧
    packets apartRun ++ taskPackets apartTasks =
      [.single ⟨.number 1, "a"⟩, .single ⟨.number 2, "b"⟩] ∧
    FullyAnswered apartRun ∧ ¬ BatchedFirst pairChunk apartRun (.ret ()) apartTasks := by
  refine ⟨.step _ _ _ (.step _ _ _ (.step _ _ _ (.step _ _ _ (.refl _)))), ?_, ⟨rfl, ?_⟩, rfl, ?_,
    fun h => h.made (.inr rfl) rfl⟩
  · intro ev hev
    simp only [apartRun, List.mem_cons, List.not_mem_nil, or_false] at hev
    rcases hev with rfl | rfl | rfl | rfl
    · trivial
    · exact (List.reverse_perm _).symm
    all_goals trivial
  · intro x hx
    obtain ⟨p, _, rfl⟩ := List.mem_map.mp hx
    exact ⟨_, .step _ _ _ (.step _ _ _ (.refl _))⟩
  · intro tr₁ reqs reply tr₂ hsplit
    have hnone := congrArg batchReplies hsplit
    rw [batchReplies_split] at hnone
    exact absurd hnone.symm (List.append_ne_nil_of_right_ne_nil _ (List.cons_ne_nil _ _))

end Example

end TransportBalancer.Batching
