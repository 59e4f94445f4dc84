/-
  File:      TransportBalancer/Batching/Chunk.lean
  Subject:   THE COURSE OF A CHUNK, read off the replies to its batch calls alone: who receives
             what, who stays outstanding, when the rejection callback is due. No order of the map
             and no response order occurs in it.

  * `survivors`, `superseded` -- the last request of each id, and those before it;
  * `handed`, `remaining`, `chunkSends`, `rejectionsDue` -- what the replies decide;
  * `chunkProtocol` -- what `send_batch_with_retry` may do at each point, by the course;
  * **`sendBatchWithRetry_follows`** -- it keeps to it, and spawns exactly what stays outstanding.
-/
import TransportBalancer.Batching.Answers
import TransportBalancer.Batching.Errors
import TransportBalancer.Lib.Keyed

namespace TransportBalancer.Batching

open Interaction KeyedList

/-! ## 1. The course of a chunk -/

/-- What is sent on whose channel. -/
abbrev Delivery := PendingRequest × RpcResult

/-- The requests that stay in the map: the last of each id. -/
def survivors (pending : List PendingRequest) : List PendingRequest :=
  lasts (fun p => p.request.id) pending

/-- The requests whose id comes again. -/
def superseded (pending : List PendingRequest) : List PendingRequest :=
  earlier (fun p => p.request.id) pending

/-- Each entry whose id occurs in a reply gets the first response with it. -/
def delivered (entries : List PendingRequest) (responses : List Response) : List Delivery :=
  entries.filterMap fun p =>
    (responses.find? fun r => r.id = p.request.id).map fun r => (p, .ok (.single r))

/-- The entries whose id does not occur. -/
def unanswered (entries : List PendingRequest) (responses : List Response) : List PendingRequest :=
  entries.filter fun p => p.request.id ∉ responses.map Response.id

/-- All entries fail with one error. -/
def failures (err : TransportError) (entries : List PendingRequest) : List Delivery :=
  entries.map fun p => (p, .error err)

section Course

variable (display : TransportError → String)

/-- What a reply to a batch hands to the outstanding requests. -/
def handed (entries : List PendingRequest) : RpcResult → List Delivery
  | .ok packet => delivered entries (replyResponses packet)
  | .error err => failures (batchError display err) entries

/-- The requests a reply leaves outstanding. -/
def remaining (entries : List PendingRequest) : RpcResult → List PendingRequest
  | .ok packet => unanswered entries (replyResponses packet)
  | .error _ => []

/-- The requests some replies leave outstanding. -/
def outstandingAfter (entries : List PendingRequest) (replies : List RpcResult) :
    List PendingRequest :=
  replies.foldl remaining entries

/-- What the replies to the batches of a chunk hand out. -/
def routes : List PendingRequest → List RpcResult → List Delivery
  | _, [] => []
  | entries, reply :: replies =>
    handed display entries reply ++ routes (remaining entries reply) replies

/-- All that is sent in the batch stages of a chunk. -/
def chunkSends (pending : List PendingRequest) (replies : List RpcResult) : List Delivery :=
  failures duplicateIdError (superseded pending) ++ routes display (survivors pending) replies

end Course

/-- A reply answers one of the outstanding requests. -/
def Matches (entries : List PendingRequest) : RpcResult → Prop
  | .ok packet => ∃ p ∈ entries, p.request.id ∈ (replyResponses packet).map Response.id
  | .error _ => False

/-- A reply rejects the batch: it is no error, but answers none of them. -/
def Rejects (entries : List PendingRequest) : RpcResult → Prop
  | .ok packet => ∀ p ∈ entries, p.request.id ∉ (replyResponses packet).map Response.id
  | .error _ => False

instance (entries : List PendingRequest) (reply : RpcResult) : Decidable (Rejects entries reply) :=
  match reply with
  | .ok _ => inferInstanceAs (Decidable (∀ p ∈ entries, _ ∉ _))
  | .error _ => inferInstanceAs (Decidable False)

/-- Every reply so far answered some of the requests that were outstanding then. -/
def AllMatched : List PendingRequest → List RpcResult → Prop
  | _, [] => True
  | entries, reply :: replies =>
    Matches entries reply ∧ AllMatched (remaining entries reply) replies

/-- How often the replies make `on_batch_rejection` due. -/
def rejectionsDue (config : BatchingConfig) : List PendingRequest → List RpcResult → Nat
  | _, [] => 0
  | entries, reply :: replies =>
    (if config.onBatchRejection = true ∧ Rejects entries reply then 1 else 0) +
      rejectionsDue config (remaining entries reply) replies

@[simp] theorem outstandingAfter_append (entries : List PendingRequest)
    (replies : List RpcResult) (reply : RpcResult) :
    outstandingAfter entries (replies ++ [reply]) =
      remaining (outstandingAfter entries replies) reply := by
  simp [outstandingAfter]

theorem routes_append (display : TransportError → String) (entries : List PendingRequest)
    (replies : List RpcResult) (reply : RpcResult) :
    routes display entries (replies ++ [reply]) =
      routes display entries replies ++
        handed display (outstandingAfter entries replies) reply := by
  induction replies generalizing entries with
  | nil => exact List.append_nil _
  | cons first rest ih =>
    rw [List.cons_append, routes, ih, routes, List.append_assoc]
    rfl

theorem chunkSends_append (display : TransportError → String) (pending : List PendingRequest)
    (replies : List RpcResult) (reply : RpcResult) :
    chunkSends display pending (replies ++ [reply]) =
      chunkSends display pending replies ++
        handed display (outstandingAfter (survivors pending) replies) reply := by
  unfold chunkSends
  rw [routes_append, List.append_assoc]

theorem allMatched_append {entries : List PendingRequest} {replies more : List RpcResult} :
    AllMatched entries (replies ++ more) ↔
      AllMatched entries replies ∧ AllMatched (outstandingAfter entries replies) more := by
  induction replies generalizing entries with
  | nil => exact ⟨fun h => ⟨trivial, h⟩, And.right⟩
  | cons first rest ih =>
    rw [List.cons_append, AllMatched, ih, AllMatched, and_assoc]
    rfl

theorem rejectionsDue_append (config : BatchingConfig) (entries : List PendingRequest)
    (replies : List RpcResult) (reply : RpcResult) :
    rejectionsDue config entries (replies ++ [reply]) = rejectionsDue config entries replies +
      if config.onBatchRejection = true ∧ Rejects (outstandingAfter entries replies) reply
        then 1 else 0 := by
  induction replies generalizing entries with
  | nil => exact Nat.add_comm _ _
  | cons first rest ih =>
    rw [List.cons_append, rejectionsDue, ih, rejectionsDue, Nat.add_assoc]
    rfl

theorem not_rejects_of_matches {entries : List PendingRequest} {reply : RpcResult}
    (h : Matches entries reply) : ¬ Rejects entries reply := by
  cases reply with
  | ok packet =>
    obtain ⟨p, hp, hid⟩ := h
    exact fun hrejects => hrejects p hp hid
  | error err => exact h.elim

/-- While every reply matches, the callback is not due. -/
theorem rejectionsDue_of_allMatched (config : BatchingConfig) {entries : List PendingRequest}
    {replies : List RpcResult} (h : AllMatched entries replies) :
    rejectionsDue config entries replies = 0 := by
  induction replies generalizing entries with
  | nil => rfl
  | cons reply rest ih =>
    obtain ⟨hmatches, hrest⟩ := h
    rw [rejectionsDue, ih hrest, if_neg fun h => not_rejects_of_matches hmatches h.2]

theorem matches_or_rejects (entries : List PendingRequest) (packet : ResponsePacket) :
    Matches entries (.ok packet) ∨ Rejects entries (.ok packet) := by
  by_cases h : ∃ p ∈ entries, p.request.id ∈ (replyResponses packet).map Response.id
  · exact Or.inl h
  · exact Or.inr fun p hp hid => h ⟨p, hp, hid⟩

/-- A reply that rejects leaves all of them outstanding. -/
theorem remaining_of_rejects {entries : List PendingRequest} {packet : ResponsePacket}
    (h : Rejects entries (.ok packet)) : remaining entries (.ok packet) = entries :=
  List.filter_eq_self.mpr fun p hp => decide_eq_true (h p hp)

/-- A reply that matches leaves fewer requests outstanding. -/
theorem remaining_length_lt {entries : List PendingRequest} {reply : RpcResult}
    (h : Matches entries reply) : (remaining entries reply).length < entries.length := by
  cases reply with
  | ok packet =>
    obtain ⟨p, hp, hid⟩ := h
    exact List.length_filter_lt_length_iff_exists.mpr ⟨p, hp, by simpa using hid⟩
  | error err => exact h.elim

theorem delivered_perm {entries entries' : List PendingRequest} (h : entries.Perm entries')
    (responses : List Response) :
    (delivered entries responses).Perm (delivered entries' responses) :=
  h.filterMap _

theorem handed_perm (display : TransportError → String) {entries entries' : List PendingRequest}
    (h : entries.Perm entries') (reply : RpcResult) :
    (handed display entries reply).Perm (handed display entries' reply) := by
  cases reply with
  | ok packet => exact delivered_perm h _
  | error err => exact h.map _

theorem unanswered_perm {entries entries' : List PendingRequest} (h : entries.Perm entries')
    (responses : List Response) :
    (unanswered entries responses).Perm (unanswered entries' responses) :=
  h.filter _

/-- A response with a foreign id is passed over, -/
theorem delivered_foreign {entries : List PendingRequest} {response : Response}
    (h : response.id ∉ ids entries) (rest : List Response) :
    delivered entries (response :: rest) = delivered entries rest := by
  refine List.filterMap_congr fun p hp => ?_
  have hne : response.id ≠ p.request.id := fun e => h (e ▸ List.mem_map_of_mem hp)
  rw [List.find?_cons_of_neg (by simpa using hne)]

/-- and leaves as many outstanding. -/
theorem unanswered_foreign {entries : List PendingRequest} {response : Response}
    (h : response.id ∉ ids entries) (rest : List Response) :
    unanswered entries (response :: rest) = unanswered entries rest := by
  refine List.filter_congr fun p hp => ?_
  have hne : p.request.id ≠ response.id := fun e => h (e ▸ List.mem_map_of_mem hp)
  simp [hne]

/-- A response with the id of an entry is handed to it, if no other entry has the id. -/
theorem delivered_own {p : PendingRequest} {entries : List PendingRequest} {response : Response}
    (hp : p.request.id = response.id) (h : response.id ∉ ids entries) (rest : List Response) :
    delivered (p :: entries) (response :: rest) =
      (p, .ok (.single response)) :: delivered entries rest := by
  rw [← delivered_foreign h rest]
  unfold delivered
  rw [List.filterMap_cons, List.find?_cons_of_pos (by simpa using hp.symm)]
  rfl

theorem unanswered_own {p : PendingRequest} {entries : List PendingRequest} {response : Response}
    (hp : p.request.id = response.id) (h : response.id ∉ ids entries) (rest : List Response) :
    unanswered (p :: entries) (response :: rest) = unanswered entries rest := by
  rw [← unanswered_foreign h rest]
  exact List.filter_cons_of_neg (by simp [hp])

/-! ## 2. What a trace shows -/

/-- The replies to the batch calls of a trace. -/
def batchReplies (tr : Trace BatchSig) : List RpcResult :=
  tr.filterMap fun
    | ⟨.innerCall (.batch _), reply⟩ => some reply
    | _ => none

/-- What a trace has sent. -/
def sends (tr : Trace BatchSig) : List Delivery :=
  tr.filterMap fun
    | ⟨.send p result, _⟩ => some (p, result)
    | _ => none

/-- The tasks a trace has spawned. -/
def spawns (tr : Trace BatchSig) : List SpawnedTask :=
  tr.filterMap fun
    | ⟨.spawn task, _⟩ => some task
    | _ => none

/-- How often a trace has called `on_batch_rejection`. -/
def rejections (tr : Trace BatchSig) : Nat :=
  tr.countP fun
    | ⟨.onBatchRejection, _⟩ => true
    | _ => false

@[simp] theorem batchReplies_append (tr tr' : Trace BatchSig) :
    batchReplies (tr ++ tr') = batchReplies tr ++ batchReplies tr' := List.filterMap_append

@[simp] theorem sends_append (tr tr' : Trace BatchSig) :
    sends (tr ++ tr') = sends tr ++ sends tr' := List.filterMap_append

@[simp] theorem spawns_append (tr tr' : Trace BatchSig) :
    spawns (tr ++ tr') = spawns tr ++ spawns tr' := List.filterMap_append

@[simp] theorem rejections_append (tr tr' : Trace BatchSig) :
    rejections (tr ++ tr') = rejections tr + rejections tr' := List.countP_append

/-- A `HashMap` yields its entries, in some order. -/
def MapOrder : (e : BatchOp) → BatchSig.Ans e → Prop
  | .iterate entries, order => order.Perm entries
  | _, _ => True

/-- Every iteration of a trace does. -/
def MapOrders (tr : Trace BatchSig) : Prop := ∀ ev ∈ tr, MapOrder ev.op ev.ans

/-- So does every beginning of it. -/
theorem MapOrders.before {tr more : Trace BatchSig} (h : MapOrders (tr ++ more)) : MapOrders tr :=
  fun ev hev => h ev (List.mem_append_left _ hev)

/-- From one point to the next nothing was called or spawned. -/
structure SameCalls (h h' : Trace BatchSig) : Prop where
  replies : batchReplies h' = batchReplies h
  spawns : spawns h' = spawns h
  rejections : rejections h' = rejections h

theorem SameCalls.refl (h : Trace BatchSig) : SameCalls h h := ⟨rfl, rfl, rfl⟩

theorem SameCalls.trans {h h' h'' : Trace BatchSig} (hfirst : SameCalls h h')
    (hrest : SameCalls h' h'') : SameCalls h h'' :=
  ⟨hrest.replies.trans hfirst.replies, hrest.spawns.trans hfirst.spawns,
    hrest.rejections.trans hfirst.rejections⟩

/-- An event that is no call and no spawn. -/
theorem sameCalls_quiet (h : Trace BatchSig) (ev : Event BatchSig)
    (hreply : batchReplies [ev] = []) (hspawn : spawns [ev] = []) (hreject : rejections [ev] = 0) :
    SameCalls h (h ++ [ev]) where
  replies := by rw [batchReplies_append, hreply, List.append_nil]
  spawns := by rw [spawns_append, hspawn, List.append_nil]
  rejections := by rw [rejections_append, hreject, Nat.add_zero]

/-- A spawn, and nothing else of it. -/
theorem after_spawn (h : Trace BatchSig) (task : SpawnedTask) {h' : Trace BatchSig}
    (hh : h' = h ++ [⟨.spawn task, ()⟩]) : sends h' = sends h ∧
      batchReplies h' = batchReplies h ∧ rejections h' = rejections h ∧
      spawns h' = spawns h ++ [task] := by
  subst hh
  exact ⟨(sends_append h _).trans (List.append_nil _),
    (batchReplies_append h _).trans (List.append_nil _), rejections_append h _, spawns_append h _⟩

/-- The reply to a batch call, and nothing else of it. -/
theorem after_reply (h : Trace BatchSig) (reqs : List SerializedRequest) (reply : RpcResult)
    {h' : Trace BatchSig} (hh : h' = h ++ [⟨.innerCall (.batch reqs), reply⟩]) :
    sends h' = sends h ∧ batchReplies h' = batchReplies h ++ [reply] ∧
      rejections h' = rejections h ∧ spawns h' = spawns h := by
  subst hh
  exact ⟨(sends_append h _).trans (List.append_nil _), batchReplies_append h _,
    rejections_append h _, (spawns_append h _).trans (List.append_nil _)⟩

/-- A call of the callback, and nothing else of it. -/
theorem after_onBatchRejection (h : Trace BatchSig) {h' : Trace BatchSig}
    (hh : h' = h ++ [⟨.onBatchRejection, ()⟩]) : sends h' = sends h ∧
      batchReplies h' = batchReplies h ∧ rejections h' = rejections h + 1 ∧
      spawns h' = spawns h := by
  subst hh
  exact ⟨(sends_append h _).trans (List.append_nil _),
    (batchReplies_append h _).trans (List.append_nil _), rejections_append h _,
    (spawns_append h _).trans (List.append_nil _)⟩

/-! ## 3. The map -/

namespace Outstanding

variable (o : Outstanding)

theorem remove_ids (id : Id) : id ∉ ids (o.remove id).2.values := by
  have hkeys : ids (o.remove id).2.values = o.map.keys.erase id :=
    (o.remove id).2.values_eq_keys.trans (AList.keys_erase id o.map)
  rw [hkeys]
  exact o.map.keys_nodup.not_mem_erase

theorem remove_filter (id : Id) (f : PendingRequest → Bool) :
    (o.values.filter f).Perm
      ((o.remove id).1.toList.filter f ++ (o.remove id).2.values.filter f) := by
  rw [← List.filter_append]
  exact (o.remove_perm id).filter f

/-- `remove` takes out the entry with the id -/
theorem remove_found (id : Id) :
    (o.remove id).1.toList.Perm (o.values.filter fun p => p.request.id = id) := by
  refine List.Perm.symm ((o.remove_filter id _).trans (.of_eq ?_))
  have hother : (o.remove id).2.values.filter (fun p => p.request.id = id) = [] :=
    filter_key_eq_nil _ (o.remove_ids id)
  rw [hother, List.append_nil, List.filter_eq_self]
  intro p hp
  exact decide_eq_true (remove_id (Option.mem_toList.mp hp))

/-- and leaves the others. -/
theorem remove_rest (id : Id) :
    (o.remove id).2.values.Perm (o.values.filter fun p => p.request.id ≠ id) := by
  refine List.Perm.symm ((o.remove_filter id _).trans (.of_eq ?_))
  have hfound : (o.remove id).1.toList.filter (fun p => p.request.id ≠ id) = [] := by
    rw [List.filter_eq_nil_iff]
    intro p hp hne
    exact of_decide_eq_true hne (remove_id (Option.mem_toList.mp hp))
  rw [hfound, List.nil_append, List.filter_eq_self]
  intro p hp
  refine decide_eq_true fun hid => o.remove_ids id ?_
  subst hid
  exact List.mem_map_of_mem hp

/-- `insert` puts its entry in the place of the one with the id. -/
theorem insert_values (p : PendingRequest) :
    (o.insert p).2.values.Perm (p :: o.values.filter fun q => q.request.id ≠ p.request.id) := by
  have hvalues : (o.insert p).2.values = p :: (o.remove p.request.id).2.values := by
    show (o.map.insert p.request.id p).entries.map Sigma.snd = _
    rw [AList.entries_insert]
    rfl
  rw [hvalues]
  exact (o.remove_rest p.request.id).cons p

theorem insert_pushed_out (p : PendingRequest) :
    (o.insert p).1.toList.Perm (o.values.filter fun q => q.request.id = p.request.id) :=
  o.remove_found p.request.id

end Outstanding

/-! ## 4. The protocol -/

section Protocol

variable (config : BatchingConfig) (display : TransportError → String)
  (pending : List PendingRequest)

/-- Who is still outstanding at a point of a trace. -/
def stillOut (h : Trace BatchSig) : List PendingRequest :=
  outstandingAfter (survivors pending) (batchReplies h)

/-- Some deliveries are what is due and not sent yet. -/
def Due (h : Trace BatchSig) (deliveries : List Delivery) : Prop :=
  (sends h ++ deliveries).Perm (chunkSends display pending (batchReplies h))

/-- How often the callback is due at a point of a trace. -/
def callbacksDue (h : Trace BatchSig) : Nat :=
  rejectionsDue config (survivors pending) (batchReplies h)

/-- **All that is due has been done.** -/
structure Standing (h : Trace BatchSig) : Prop where
  sent : Due display pending h []
  rejected : rejections h = callbacksDue config pending h

/-- **A batch call**: while every reply matched, for all that is outstanding. -/
structure MayCall (h : Trace BatchSig) (packet : RequestPacket) : Prop where
  standing : Standing config display pending h
  unspawned : spawns h = []
  few : (batchReplies h).length < config.maxMissingRetries
  matched : AllMatched (survivors pending) (batchReplies h)
  carries : ∃ reqs, packet = .batch reqs ∧ reqs ≠ [] ∧
    reqs.Perm (requestsOf (stillOut pending h))

/-- **A spawned task**: one for a request that is outstanding. -/
structure MaySpawn (h : Trace BatchSig) (task : SpawnedTask) : Prop where
  standing : Standing config display pending h
  single : ∃ semaphore p, task = .individual semaphore p
  out : ((spawns h ++ [task]).flatMap SpawnedTask.entries).Subperm (stillOut pending h)

/-- **The course protocol** of a chunk. -/
def chunkProtocol : Protocol BatchSig (Trace BatchSig) :=
  recordProtocol MapOrder fun h e =>
    match e with
    | .send p result =>
      (sends h ++ [(p, result)]).Subperm (chunkSends display pending (batchReplies h))
    | .iterate _ => True
    | .innerCall packet => MayCall config display pending h packet
    | .onBatchRejection => Due display pending h [] ∧ spawns h = [] ∧
        rejections h + 1 = callbacksDue config pending h
    | .newSemaphore _ => Standing config display pending h ∧ spawns h = []
    | .spawn task => MaySpawn config display pending h task
    | _ => False

/-- How a chunk ends: all that is outstanding has a task of its own. -/
structure Finished (h : Trace BatchSig) : Prop where
  standing : Standing config display pending h
  spawned : ((spawns h).flatMap SpawnedTask.entries).Perm (stillOut pending h)

variable {config display pending}

theorem Due.head {h : Trace BatchSig} {p : PendingRequest} {result : RpcResult}
    {rest : List Delivery} (hdue : Due display pending h ((p, result) :: rest)) :
    (sends h ++ [(p, result)]).Subperm (chunkSends display pending (batchReplies h)) := by
  refine List.Subperm.trans (List.Sublist.subperm ?_) hdue.subperm
  exact (List.Sublist.refl _).append (List.singleton_sublist.mpr List.mem_cons_self)

/-- After a send the rest is due. -/
theorem Due.send {h : Trace BatchSig} {p : PendingRequest} {result : RpcResult}
    {rest : List Delivery} (hdue : Due display pending h ((p, result) :: rest)) :
    Due display pending (h ++ [⟨.send p result, ()⟩]) rest := by
  unfold Due
  rw [sends_append, (sameCalls_quiet h ⟨.send p result, ()⟩ rfl rfl rfl).replies, List.append_assoc]
  exact hdue

theorem Due.perm {h : Trace BatchSig} {deliveries deliveries' : List Delivery}
    (hdue : Due display pending h deliveries) (hp : deliveries.Perm deliveries') :
    Due display pending h deliveries' :=
  (hp.symm.append_left _).trans hdue

theorem Due.iterate {h : Trace BatchSig} {deliveries : List Delivery}
    (hdue : Due display pending h deliveries) (entries order : List PendingRequest) :
    Due display pending (h ++ [⟨.iterate entries, order⟩]) deliveries := by
  have hnone : sends [(⟨.iterate entries, order⟩ : Event BatchSig)] = [] := rfl
  have hsame := sameCalls_quiet h ⟨.iterate entries, order⟩ rfl rfl rfl
  unfold Due
  rw [sends_append, hsame.replies, hnone, List.append_nil]
  exact hdue

end Protocol

/-! ## 5. The loops -/

section Loops

variable {config : BatchingConfig} {display : TransportError → String}
  {pending : List PendingRequest}

/-- **The loop that builds the map**: every entry pushed out fails, and the last of each id stays.
    -/
theorem insertAll_follows (rest : List PendingRequest) (o : Outstanding) (h : Trace BatchSig)
    (hdue : Due display pending h
      (failures duplicateIdError (superseded (o.values ++ rest))))
    (hstay : (survivors (o.values ++ rest)).Perm (survivors pending)) :
    (insertAll rest o).Follows (chunkProtocol config display pending) h fun h' o' =>
      SameCalls h h' ∧ Due display pending h' [] ∧ o'.values.Perm (survivors pending) := by
  induction rest generalizing o h with
  | nil =>
    rw [List.append_nil] at hdue hstay
    rw [superseded, earlier_of_nodup _ o.ids_nodup] at hdue
    rw [survivors, lasts_of_nodup _ o.ids_nodup] at hstay
    exact ⟨.refl h, hdue, hstay⟩
  | cons p rest ih =>
    -- the entry takes its id over: the one pushed out is due to fail, and the others stay
    have hdue' : Due display pending h (failures duplicateIdError (o.insert p).1.toList ++
        failures duplicateIdError (superseded ((o.insert p).2.values ++ rest))) := by
      refine hdue.perm ?_
      rw [failures, failures, failures, ← List.map_append]
      refine List.Perm.map _ ((earlier_overwrite _ o.ids_nodup p rest).trans ?_)
      refine List.Perm.append (o.insert_pushed_out p).symm ?_
      exact earlier_append_perm _ (o.insert_values p).symm (nodup_overwrite _ o.ids_nodup p) rest
    have hstay' : (survivors ((o.insert p).2.values ++ rest)).Perm (survivors pending) := by
      refine List.Perm.trans (List.Perm.symm ?_) hstay
      refine (lasts_overwrite _ o.ids_nodup p rest).trans ?_
      exact lasts_append_perm _ (o.insert_values p).symm (nodup_overwrite _ o.ids_nodup p) rest
    unfold insertAll
    split
    · rename_i prev o' hinsert
      rw [hinsert] at hdue' hstay'
      refine ⟨hdue'.head, fun _ _ => (ih o' _ hdue'.send hstay').mono fun h' o'' hend => ?_⟩
      exact ⟨(sameCalls_quiet h _ rfl rfl rfl).trans hend.1, hend.2⟩
    · rename_i o' hinsert
      rw [hinsert] at hdue' hstay'
      exact ih o' h hdue' hstay'

/-- **The loop over a reply**: each entry whose id occurs gets the first response with it, and the
    others stay. -/
theorem matchResponses_follows (responses : List Response) (o : Outstanding)
    (h : Trace BatchSig) (hdue : Due display pending h (delivered o.values responses)) :
    (matchResponses responses o).Follows (chunkProtocol config display pending) h fun h' o' =>
      SameCalls h h' ∧ Due display pending h' [] ∧
        o'.values.Perm (unanswered o.values responses) := by
  induction responses generalizing o h with
  | nil =>
    have hnone : delivered o.values [] = [] := List.filterMap_eq_nil_iff.mpr fun _ _ => rfl
    rw [hnone] at hdue
    exact ⟨.refl h, hdue, .of_eq (List.filter_eq_self.mpr fun _ _ => rfl).symm⟩
  | cons response rest ih =>
    have hperm := o.remove_perm response.id
    have hother := o.remove_ids response.id
    unfold matchResponses
    split
    · rename_i p o' hremove
      rw [hremove] at hperm hother
      have hp : p.request.id = response.id := Outstanding.remove_id (congrArg Prod.fst hremove)
      have hdue' := hdue.perm (delivered_perm hperm _)
      rw [Option.toList_some, List.singleton_append, delivered_own hp hother] at hdue'
      refine ⟨hdue'.head, fun _ _ => (ih o' _ hdue'.send).mono fun h' o'' hend => ?_⟩
      obtain ⟨hsends, hsent, hrest⟩ := hend
      refine ⟨(sameCalls_quiet h _ rfl rfl rfl).trans hsends, hsent, hrest.trans ?_⟩
      rw [← unanswered_own hp hother]
      exact (unanswered_perm hperm _).symm
    · rename_i o' hremove
      rw [hremove] at hperm hother
      have hdue' := hdue.perm (delivered_perm hperm _)
      rw [Option.toList_none, List.nil_append, delivered_foreign hother] at hdue'
      refine (ih o' h hdue').mono fun h' o'' hend => ⟨hend.1, hend.2.1, hend.2.2.trans ?_⟩
      rw [← unanswered_foreign hother]
      exact (unanswered_perm hperm _).symm

/-- The loop that fails every entry. -/
theorem failAll_follows (msg : String) (entries : List PendingRequest) (h : Trace BatchSig)
    (hdue : Due display pending h (failures (customStr msg) entries)) :
    (failAll msg entries).Follows (chunkProtocol config display pending) h fun h' _ =>
      SameCalls h h' ∧ Due display pending h' [] := by
  induction entries generalizing h with
  | nil => exact ⟨.refl h, hdue⟩
  | cons p rest ih =>
    refine ⟨hdue.head, fun _ _ => (ih _ hdue.send).mono fun h' _ hend => ?_⟩
    exact ⟨(sameCalls_quiet h _ rfl rfl rfl).trans hend.1, hend.2⟩

/-- What stands still stands where nothing was sent, replied or rejected since. -/
theorem Standing.quiet {h h' : Trace BatchSig} (hstanding : Standing config display pending h)
    (hsends : sends h' = sends h) (hreplies : batchReplies h' = batchReplies h)
    (hrejections : rejections h' = rejections h) : Standing config display pending h' := by
  refine ⟨?_, ?_⟩
  · unfold Due
    rw [hreplies, hsends]
    exact hstanding.sent
  · unfold callbacksDue
    rw [hreplies, hrejections]
    exact hstanding.rejected

/-- The loop that spawns the tasks. -/
theorem spawnAll_follows (semaphore : Nat) (entries : List PendingRequest) (h : Trace BatchSig)
    (hstanding : Standing config display pending h)
    (hout : ((spawns h).flatMap SpawnedTask.entries ++ entries).Perm (stillOut pending h)) :
    (spawnAll semaphore entries).Follows (chunkProtocol config display pending) h fun h' _ =>
      Finished config display pending h' := by
  induction entries generalizing h with
  | nil =>
    rw [List.append_nil] at hout
    exact ⟨hstanding, hout⟩
  | cons p rest ih =>
    refine ⟨⟨hstanding, ⟨semaphore, p, rfl⟩, ?_⟩, fun _ _ => ?_⟩
    · refine List.Subperm.trans (List.Sublist.subperm ?_) hout.subperm
      rw [List.flatMap_append]
      exact (List.Sublist.refl _).append (List.singleton_sublist.mpr List.mem_cons_self)
    · generalize hh : (chunkProtocol config display pending).next _ _ _ = h'
      obtain ⟨hsends, hreplies, hrejections, hspawns⟩ :=
        after_spawn h (.individual semaphore p) hh.symm
      refine ih h' (hstanding.quiet hsends hreplies hrejections) ?_
      unfold stillOut
      rw [hspawns, hreplies, List.flatMap_append, List.append_assoc]
      exact hout

/-- The individual fall-back takes over all that is outstanding. -/
theorem fallBack_follows (o : Outstanding) (h : Trace BatchSig)
    (hstanding : Standing config display pending h) (hspawns : spawns h = [])
    (ho : o.values.Perm (stillOut pending h)) :
    (fallBack o).Follows (chunkProtocol config display pending) h fun h' _ =>
      Finished config display pending h' := by
  refine ⟨⟨hstanding, hspawns⟩, fun semaphore _ => ⟨trivial, fun order horder => ?_⟩⟩
  have hperm : order.Perm o.values := horder
  generalize hh : (chunkProtocol config display pending).next _ _ order = h'
  have hsame : SameCalls h h' := by
    rw [← hh]
    exact (sameCalls_quiet h _ rfl rfl rfl).trans (sameCalls_quiet _ _ rfl rfl rfl)
  have hsends : sends h' = sends h := by
    rw [← hh]
    simp [chunkProtocol, recordProtocol, sends]
  refine spawnAll_follows semaphore order h' ?_ ?_
  · exact hstanding.quiet hsends hsame.replies hsame.rejections
  · unfold stillOut
    rw [hsame.spawns, hsame.replies, hspawns]
    exact hperm.trans ho

/-- Where the loop over the attempts stands: before an attempt every reply has matched, and the map
    holds what is outstanding. -/
structure Attempting (config : BatchingConfig) (display : TransportError → String)
    (pending : List PendingRequest) (h : Trace BatchSig) (attempt : Nat) (o : Outstanding) :
    Prop where
  standing : Standing config display pending h
  unspawned : spawns h = []
  calls : (batchReplies h).length = attempt
  within : attempt ≤ config.maxMissingRetries
  matched : AllMatched (survivors pending) (batchReplies h)
  out : o.values.Perm (stillOut pending h)

theorem Attempting.iterate {h : Trace BatchSig} {attempt : Nat} {o : Outstanding}
    (hat : Attempting config display pending h attempt o) (entries order : List PendingRequest) :
    Attempting config display pending (h ++ [⟨.iterate entries, order⟩]) attempt o := by
  have hsame := sameCalls_quiet h ⟨.iterate entries, order⟩ rfl rfl rfl
  have hsends : sends (h ++ [⟨.iterate entries, order⟩]) = sends h := by simp [sends]
  refine ⟨hat.standing.quiet hsends hsame.replies hsame.rejections, ?_, ?_, hat.within, ?_, ?_⟩
  · exact hsame.spawns.trans hat.unspawned
  · rw [hsame.replies]
    exact hat.calls
  · rw [hsame.replies]
    exact hat.matched
  · unfold stillOut
    rw [hsame.replies]
    exact hat.out

/-- An attempt that is not the last sends a batch. -/
theorem Attempting.mayCall {h : Trace BatchSig} {attempt : Nat} {o : Outstanding}
    (hat : Attempting config display pending h attempt o) (hsome : o.values ≠ [])
    (hlast : attempt ≠ config.maxMissingRetries) {order : List PendingRequest}
    (horder : order.Perm o.values) :
    MayCall config display pending h (.batch (order.map PendingRequest.request)) where
  standing := hat.standing
  unspawned := hat.unspawned
  few := by
    have := hat.within
    rw [hat.calls]
    omega
  matched := hat.matched
  carries := by
    refine ⟨_, rfl, ?_, (horder.trans hat.out).map _⟩
    intro hnil
    rw [List.map_eq_nil_iff] at hnil
    rw [hnil] at horder
    exact hsome (List.nil_perm.mp horder)

/-- A reply comes in: what it hands out is due. -/
theorem Attempting.due {h h' : Trace BatchSig} {attempt : Nat} {o : Outstanding}
    {reply : RpcResult} (hat : Attempting config display pending h attempt o)
    (hsends : sends h' = sends h) (hreplies : batchReplies h' = batchReplies h ++ [reply]) :
    Due display pending h' (handed display o.values reply) := by
  have hsent := hat.standing.sent
  unfold Due at hsent ⊢
  rw [List.append_nil] at hsent
  rw [hsends, hreplies, chunkSends_append]
  exact hsent.append (handed_perm display hat.out reply)

/-- Whether the callback is due after a reply. -/
theorem Attempting.callbacks {h h' : Trace BatchSig} {attempt : Nat} {o : Outstanding}
    {reply : RpcResult} (hat : Attempting config display pending h attempt o)
    (hreplies : batchReplies h' = batchReplies h ++ [reply])
    (hrejections : rejections h' = rejections h) :
    callbacksDue config pending h' = rejections h' +
      if config.onBatchRejection = true ∧ Rejects (stillOut pending h) reply then 1 else 0 := by
  unfold callbacksDue
  rw [hreplies, rejectionsDue_append, hrejections, hat.standing.rejected]
  rfl

/-- **A reply has been handled**: everything due was sent, and the map holds what it left. -/
structure Handled (config : BatchingConfig) (display : TransportError → String)
    (pending : List PendingRequest) (h h' : Trace BatchSig) (reply : RpcResult) : Prop where
  replies : batchReplies h' = batchReplies h ++ [reply]
  rejections : rejections h' = rejections h
  unspawned : spawns h' = []
  sent : Due display pending h' []

/-- Unless the reply rejects the batch, no more is due. -/
theorem Handled.standing {h h' : Trace BatchSig} {attempt : Nat} {o : Outstanding}
    {reply : RpcResult} (hhandled : Handled config display pending h h' reply)
    (hat : Attempting config display pending h attempt o)
    (haccepts : ¬ (config.onBatchRejection = true ∧ Rejects (stillOut pending h) reply)) :
    Standing config display pending h' := by
  refine ⟨hhandled.sent, ?_⟩
  rw [hat.callbacks hhandled.replies hhandled.rejections, if_neg haccepts]
  rfl

theorem Handled.stillOut {h h' : Trace BatchSig} {reply : RpcResult}
    (hhandled : Handled config display pending h h' reply) :
    stillOut pending h' = remaining (stillOut pending h) reply := by
  unfold Batching.stillOut
  rw [hhandled.replies, outstandingAfter_append]

/-- The map shrinks where the reply matches, -/
theorem Handled.matches_of_lt {h h' : Trace BatchSig} {attempt : Nat} {o o' : Outstanding}
    {packet : ResponsePacket} (hhandled : Handled config display pending h h' (.ok packet))
    (hat : Attempting config display pending h attempt o)
    (ho' : o'.values.Perm (Batching.stillOut pending h'))
    (hless : o'.values.length < o.values.length) :
    Matches (Batching.stillOut pending h) (.ok packet) := by
  refine (matches_or_rejects _ packet).resolve_right fun hrejects => ?_
  have hlength := hat.out.length_eq
  have hlength' := ho'.length_eq
  rw [hhandled.stillOut, remaining_of_rejects hrejects] at hlength'
  omega

/-- and only there. -/
theorem Handled.rejects_of_le {h h' : Trace BatchSig} {attempt : Nat} {o o' : Outstanding}
    {packet : ResponsePacket} (hhandled : Handled config display pending h h' (.ok packet))
    (hat : Attempting config display pending h attempt o)
    (ho' : o'.values.Perm (Batching.stillOut pending h'))
    (hle : o.values.length ≤ o'.values.length) :
    Rejects (Batching.stillOut pending h) (.ok packet) := by
  refine (matches_or_rejects _ packet).resolve_left fun hmatches => ?_
  have hlength := hat.out.length_eq
  have hlength' := ho'.length_eq
  have hless := remaining_length_lt hmatches
  rw [hhandled.stillOut] at hlength'
  omega

/-- A reply that matches: the next attempt. -/
theorem Attempting.next {h h' : Trace BatchSig} {attempt : Nat} {o o' : Outstanding}
    {reply : RpcResult} (hat : Attempting config display pending h attempt o)
    (hhandled : Handled config display pending h h' reply)
    (hlast : attempt ≠ config.maxMissingRetries)
    (hmatches : Matches (stillOut pending h) reply)
    (ho' : o'.values.Perm (stillOut pending h')) :
    Attempting config display pending h' (attempt + 1) o' where
  standing := hhandled.standing hat fun hdue => not_rejects_of_matches hmatches hdue.2
  unspawned := hhandled.unspawned
  calls := by
    rw [hhandled.replies, List.length_append, hat.calls]
    rfl
  within := by
    have := hat.within
    omega
  matched := by
    rw [hhandled.replies, allMatched_append]
    exact ⟨hat.matched, hmatches, trivial⟩
  out := ho'

/-- A reply that rejects the batch makes the callback due, and all goes to the fall-back. -/
theorem rejected_follows {h h' : Trace BatchSig} {attempt : Nat} {o o' : Outstanding}
    {packet : ResponsePacket} (hat : Attempting config display pending h attempt o)
    (hhandled : Handled config display pending h h' (.ok packet))
    (hrejects : Rejects (stillOut pending h) (.ok packet))
    (ho' : o'.values.Perm (stillOut pending h')) :
    (rejectBatch config >>= fun _ => fallBack o').Follows (chunkProtocol config display pending) h'
      fun h'' _ => Finished config display pending h'' := by
  refine rejectBatch_rule (fun hcallback => ?_) fun hnone => ?_
  · have hcallbacks := hat.callbacks hhandled.replies hhandled.rejections
    rw [if_pos ⟨hcallback, hrejects⟩] at hcallbacks
    refine ⟨⟨hhandled.sent, hhandled.unspawned, hcallbacks.symm⟩, fun _ _ => ?_⟩
    generalize hh : (chunkProtocol config display pending).next _ _ _ = h''
    obtain ⟨hsends, hreplies, hrejections, hspawns⟩ := after_onBatchRejection h' hh.symm
    refine fallBack_follows o' h'' ⟨?_, ?_⟩ (hspawns.trans hhandled.unspawned) ?_
    · unfold Due
      rw [hsends, hreplies]
      exact hhandled.sent
    · unfold callbacksDue at hcallbacks ⊢
      rw [hrejections, hreplies, hcallbacks]
    · unfold stillOut
      rw [hreplies]
      exact ho'
  · have hstanding := hhandled.standing hat fun hdue => hnone hdue.1
    exact fallBack_follows o' h' hstanding hhandled.unspawned ho'

/-- The map is empty at an attempt: the chunk is finished. -/
theorem Attempting.finished {h : Trace BatchSig} {attempt : Nat} {o : Outstanding}
    (hat : Attempting config display pending h attempt o) (hempty : o.values = []) :
    Finished config display pending h := by
  have hout := hat.out
  rw [hempty] at hout
  refine ⟨hat.standing, ?_⟩
  rw [hat.unspawned]
  exact hout

/-- **The loop over the attempts** keeps to the course. -/
theorem attempts_follows (o : Outstanding) (h : Trace BatchSig)
    (hat : Attempting config display pending h 0 o) :
    (attempts config display (config.maxMissingRetries + 1) 0 o).Follows
      (chunkProtocol config display pending) h fun h' _ => Finished config display pending h' := by
  refine attempts_rule (I := fun attempt o h => Attempting config display pending h attempt o)
    (Q := Finished config display pending) (fun attempt o h hat hempty => hat.finished hempty)
    (fun o h hat => fallBack_follows o h hat.standing hat.unspawned hat.out)
    (fun attempt o h hat hsome hattempt => ⟨trivial, fun order horder => ?_⟩) _ (Nat.zero_add _) hat
  have hlast := Nat.ne_of_lt hattempt
  generalize hh₁ : (chunkProtocol config display pending).next h _ order = h₁
  have hat₁ : Attempting config display pending h₁ attempt o := hh₁ ▸ hat.iterate _ _
  refine ⟨hat₁.mayCall hsome hlast horder, fun reply _ => ?_⟩
  generalize hh : (chunkProtocol config display pending).next _ _ reply = h'
  obtain ⟨hsends, hreplies, hrejections, hspawns⟩ := after_reply h₁ _ reply hh.symm
  have hdue := hat₁.due hsends hreplies
  have hhandled : ∀ h'', SameCalls h' h'' → Due display pending h'' [] →
      Handled config display pending h₁ h'' reply := fun h'' hsame hsent =>
    ⟨hsame.replies.trans hreplies, hsame.rejections.trans hrejections,
      hsame.spawns.trans (hspawns.trans hat₁.unspawned), hsent⟩
  cases reply with
  | ok packet =>
    refine (matchResponses_follows _ o h' hdue).mono fun h'' o' hend => ?_
    have hhandled := hhandled h'' hend.1 hend.2.1
    have ho' : o'.values.Perm (stillOut pending h'') := by
      rw [hhandled.stillOut]
      exact hend.2.2.trans (unanswered_perm hat₁.out _)
    refine ⟨fun hless => ?_, fun hle => ?_⟩
    · exact hat₁.next hhandled hlast (hhandled.matches_of_lt hat₁ ho' hless) ho'
    · exact rejected_follows hat₁ hhandled (hhandled.rejects_of_le hat₁ ho' hle) ho'
  | error err =>
    refine ⟨trivial, fun order' horder' => ?_⟩
    have hperm : (failures (batchError display err) order').Perm
        (handed display o.values (.error err)) := List.Perm.map _ horder'
    refine (failAll_follows _ order' _ ((hdue.perm hperm.symm).iterate _ order')).mono ?_
    intro h'' _ hend
    have hhandled := hhandled h'' ((sameCalls_quiet h' _ rfl rfl rfl).trans hend.1) hend.2
    refine ⟨hhandled.standing hat₁ fun hdue => hdue.2.elim, ?_⟩
    rw [hhandled.unspawned, hhandled.stillOut]
    exact .refl _

/-- **`send_batch_with_retry` keeps to the course of its chunk**, and ends with a task of its own
    for every request that is still outstanding. -/
theorem sendBatchWithRetry_follows :
    (sendBatchWithRetry config display pending).Follows (chunkProtocol config display pending) []
      fun h _ => Finished config display pending h := by
  have hdue : Due display pending []
      (failures duplicateIdError (superseded (Outstanding.empty.values ++ pending))) := by
    show (failures duplicateIdError (superseded pending)).Perm (_ ++ routes display _ [])
    rw [routes, List.append_nil]
  refine (insertAll_follows pending .empty [] hdue (.refl _)).bind fun h o hend => ?_
  obtain ⟨hsame, hsent, hout⟩ := hend
  have hreplies : batchReplies h = [] := hsame.replies
  refine attempts_follows o h ⟨⟨hsent, ?_⟩, hsame.spawns, ?_, Nat.zero_le _, ?_, ?_⟩
  · unfold callbacksDue
    rw [hreplies]
    exact hsame.rejections
  · rw [hreplies]
    rfl
  · rw [hreplies]
    trivial
  · unfold stillOut
    rw [hreplies]
    exact hout

end Loops

end TransportBalancer.Batching
