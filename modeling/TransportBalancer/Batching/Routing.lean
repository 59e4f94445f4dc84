/-
  File:      TransportBalancer/Batching/Routing.lean
  Subject:   WHO RECEIVES WHAT in the batch stages of a chunk, for every list of requests and every
             reply: ids may repeat on both sides, and replies may carry null and foreign ones.

  * `RoutedById` -- what a trace of `send_batch_with_retry` has sent, from first to last;
  * **`routed_by_id`** -- every trace is so: no caller receives a response with a foreign id, and
    with distinct ids neither the order of a reply nor that of the map matters.
-/
import TransportBalancer.Batching.Chunk

namespace TransportBalancer.Batching

open Interaction KeyedList

/-! ## 1. Routing -/

/-- The effects of the loops that hand results out. -/
def BatchOp.handsOut : BatchOp → Bool
  | .send _ _ | .iterate _ => true
  | _ => false

/-- Nothing is being handed out: what comes next is something else. -/
def HandedOut : Program BatchSig Unit → Prop
  | .ret _ => True
  | .op e _ => e.handsOut = false

/-- **What a trace of a chunk has sent.** Up to the next batch call a trace shows all that one
    reply hands out; every beginning of a trace is a trace. -/
structure RoutedById (display : TransportError → String) (pending : List PendingRequest)
    (tr : Trace BatchSig) (q : Program BatchSig Unit) : Prop where
  /-- Of the requests sharing an id the last survives, -/
  last : ∀ id, (survivors pending).filter (fun p => p.request.id = id) =
    (pending.filter fun p => p.request.id = id).getLast?.toList
  /-- and the earlier ones do not. -/
  earlier : ∀ id, (superseded pending).filter (fun p => p.request.id = id) =
    (pending.filter fun p => p.request.id = id).dropLast
  /-- These fail at once, and nothing else is sent before the first reply. -/
  first : HandedOut q → batchReplies tr = [] →
    (sends tr).Perm (failures duplicateIdError (superseded pending))
  /-- A batch carries what is outstanding. -/
  carries : ∀ tr₁ reqs reply tr₂, tr = tr₁ ++ ⟨.innerCall (.batch reqs), reply⟩ :: tr₂ →
    reqs.Perm (requestsOf (stillOut pending tr₁))
  /-- A reply gives each outstanding request the first response with its id, and is used for
      nothing else; the requests whose id does not occur stay outstanding. -/
  each : ∀ tr₁ reqs packet tr₂, tr = tr₁ ++ ⟨.innerCall (.batch reqs), .ok packet⟩ :: tr₂ →
    batchReplies tr₂ = [] →
      (HandedOut q → (sends tr₂).Perm (delivered (stillOut pending tr₁) (replyResponses packet))) ∧
      stillOut pending tr = unanswered (stillOut pending tr₁) (replyResponses packet)
  /-- Nobody receives a response with another id. -/
  own : ∀ p packet, (p, .ok packet) ∈ sends tr →
    ∃ response, packet = .single response ∧ response.id = p.request.id
  /-- What is outstanding in the end goes on, each request on its own. -/
  left : q = .ret () → ((spawns tr).flatMap SpawnedTask.entries).Perm (stillOut pending tr)

/-- Two replies that differ in the order of responses with distinct ids only. -/
def SameReply : RpcResult → RpcResult → Prop
  | .ok packet, .ok packet' => (replyResponses packet).Perm (replyResponses packet') ∧
      ((replyResponses packet).map Response.id).Nodup
  | .error err, .error err' => err = err'
  | _, _ => False

/-! ## 2. The order of a reply -/

section Order

variable {display : TransportError → String}

theorem delivered_same {entries entries' : List PendingRequest}
    {responses responses' : List Response}
    (hentries : entries.Perm entries') (hperm : responses.Perm responses')
    (hids : (responses.map Response.id).Nodup) :
    (delivered entries responses).Perm (delivered entries' responses') := by
  refine (delivered_perm hentries responses).trans (.of_eq (List.filterMap_congr fun p _ => ?_))
  rw [find?_of_perm Response.id hperm hids]

theorem unanswered_same {entries entries' : List PendingRequest}
    {responses responses' : List Response} (hentries : entries.Perm entries')
    (hperm : responses.Perm responses') :
    (unanswered entries responses).Perm (unanswered entries' responses') := by
  refine (unanswered_perm hentries responses).trans (.of_eq (List.filter_congr fun p _ => ?_))
  rw [decide_eq_decide, (hperm.map Response.id).mem_iff]

/-- **The course does not depend on the order of replies** with distinct ids. -/
theorem routes_same {replies replies' : List RpcResult}
    (h : List.Forall₂ SameReply replies replies') {entries entries' : List PendingRequest}
    (hentries : entries.Perm entries') :
    (routes display entries replies).Perm (routes display entries' replies') := by
  induction h generalizing entries entries' with
  | nil => exact .refl _
  | @cons reply reply' rest rest' hsame _ ih =>
    cases reply with
    | ok packet =>
      cases reply' with
      | ok packet' =>
        obtain ⟨hperm, hids⟩ := hsame
        exact (delivered_same hentries hperm hids).append (ih (unanswered_same hentries hperm))
      | error err' => exact hsame.elim
    | error err =>
      cases reply' with
      | ok packet' => exact hsame.elim
      | error err' =>
        obtain rfl := hsame
        exact (handed_perm display hentries (.error err)).append (ih (.refl _))

end Order

/-! ## 3. Every trace -/

section Traces

variable {config : BatchingConfig} {display : TransportError → String}
  {pending : List PendingRequest} {tr : Trace BatchSig} {q : Program BatchSig Unit}

/-- Before anything but handing out goes on, all that is due has been sent. -/
theorem sent_of_handedOut (hs : Steps (sendBatchWithRetry config display pending) tr q)
    (horders : MapOrders tr) (hhanded : HandedOut q) : Due display pending tr [] := by
  cases q with
  | ret a =>
    exact (sendBatchWithRetry_follows.runs_record hs horders).standing.sent
  | op e k =>
    have hok := sendBatchWithRetry_follows.head_record hs horders
    cases e with
    | send | iterate => cases hhanded
    | innerCall => exact hok.standing.sent
    | onBatchRejection => exact hok.1
    | newSemaphore => exact hok.1.sent
    | spawn => exact hok.standing.sent
    | _ => exact hok.elim

/-- A trace up to an effect: the program is about to perform it. -/
theorem steps_before {tr₁ tr₂ : Trace BatchSig} {ev : Event BatchSig}
    (hs : Steps (sendBatchWithRetry config display pending) (tr₁ ++ ev :: tr₂) q) :
    ∃ k, Steps (sendBatchWithRetry config display pending) tr₁ (.op ev.op k) ∧
      Steps (k ev.ans) tr₂ q := by
  obtain ⟨q', hbefore, hafter⟩ := steps_append_iff.mp hs
  cases hafter with
  | step e r k hrest => exact ⟨k, hbefore, hrest⟩

/-- More replies make more due. -/
theorem chunkSends_subperm (replies more : List RpcResult) :
    (chunkSends display pending replies).Subperm
      (chunkSends display pending (replies ++ more)) := by
  induction more using List.reverseRecOn with
  | nil => rw [List.append_nil]
  | append_singleton more reply ih =>
    refine ih.trans ?_
    rw [← List.append_assoc, chunkSends_append]
    exact (List.sublist_append_left _ _).subperm

/-- Nothing is sent that is not due. -/
theorem sent_due (hs : Steps (sendBatchWithRetry config display pending) tr q)
    (horders : MapOrders tr) :
    (sends tr).Subperm (chunkSends display pending (batchReplies tr)) := by
  induction tr using List.reverseRecOn generalizing q with
  | nil => exact List.nil_subperm
  | append_singleton before ev ih =>
    obtain ⟨k, hbefore, _⟩ := steps_before hs
    have horders' := horders.before
    have hprev := ih hbefore horders'
    rw [batchReplies_append]
    by_cases hsend : sends [ev] = []
    · rw [sends_append, hsend, List.append_nil]
      exact hprev.trans (chunkSends_subperm _ _)
    · obtain ⟨e, r⟩ := ev
      cases e with
      | send p result =>
        have hok := sendBatchWithRetry_follows.head_record hbefore horders'
        rw [sends_append]
        exact List.Subperm.trans hok (chunkSends_subperm _ _)
      | _ => exact absurd rfl hsend

theorem delivered_own_id {entries : List PendingRequest} {responses : List Response}
    {p : PendingRequest} {result : RpcResult} (h : (p, result) ∈ delivered entries responses) :
    ∃ response, result = .ok (.single response) ∧ response.id = p.request.id := by
  obtain ⟨p', _, hfound⟩ := List.mem_filterMap.mp h
  obtain ⟨response, hresponse, heq⟩ := Option.map_eq_some_iff.mp hfound
  cases heq
  exact ⟨response, rfl, by simpa using List.find?_some hresponse⟩

/-- Every response that is due goes to the request with its id. -/
theorem chunkSends_own {replies : List RpcResult} {p : PendingRequest} {packet : ResponsePacket}
    (h : (p, .ok packet) ∈ chunkSends display pending replies) :
    ∃ response, packet = .single response ∧ response.id = p.request.id := by
  have hfailures : ∀ err entries, (p, .ok packet) ∉ failures err entries := by
    intro err entries hmem
    obtain ⟨_, _, heq⟩ := List.mem_map.mp hmem
    cases heq
  have hroutes : ∀ replies entries, (p, .ok packet) ∈ routes display entries replies →
      ∃ response, packet = .single response ∧ response.id = p.request.id := by
    intro replies
    induction replies with
    | nil => exact fun _ hmem => absurd hmem List.not_mem_nil
    | cons reply rest ih =>
      intro entries hmem
      rcases List.mem_append.mp hmem with hmem | hmem
      · cases reply with
        | ok packet' =>
          obtain ⟨response, heq, hid⟩ := delivered_own_id hmem
          exact ⟨response, Except.ok.inj heq, hid⟩
        | error err => exact absurd hmem (hfailures _ _)
      · exact ih _ hmem
  exact (List.mem_append.mp h).elim (fun h => absurd h (hfailures _ _)) (hroutes _ _)

/-- **What one reply hands out.** -/
theorem reply_hands {tr₁ tr₂ : Trace BatchSig} {reqs : List SerializedRequest} {reply : RpcResult}
    (hs : Steps (sendBatchWithRetry config display pending)
      (tr₁ ++ ⟨.innerCall (.batch reqs), reply⟩ :: tr₂) q)
    (horders : MapOrders (tr₁ ++ ⟨.innerCall (.batch reqs), reply⟩ :: tr₂))
    (hnext : batchReplies tr₂ = []) (hhanded : HandedOut q) :
    (sends tr₂).Perm (handed display (stillOut pending tr₁) reply) := by
  have hreplies : batchReplies (tr₁ ++ ⟨.innerCall (.batch reqs), reply⟩ :: tr₂) =
      batchReplies tr₁ ++ [reply] := by
    rw [batchReplies_append, ← List.singleton_append, batchReplies_append, hnext]
    rfl
  have hsends : sends (tr₁ ++ ⟨.innerCall (.batch reqs), reply⟩ :: tr₂) =
      sends tr₁ ++ sends tr₂ := by
    rw [sends_append, ← List.singleton_append, sends_append]
    rfl
  obtain ⟨k, hbefore, _⟩ := steps_before hs
  have hsent := sent_of_handedOut hs horders hhanded
  have hsent₁ := sent_of_handedOut hbefore horders.before rfl
  unfold Due at hsent hsent₁
  rw [List.append_nil] at hsent hsent₁
  rw [hreplies, hsends, chunkSends_append] at hsent
  exact (List.perm_append_left_iff _).mp (hsent.trans (hsent₁.symm.append_right _))

/-- **ROUTING BY ID.** Every trace of `send_batch_with_retry`, on any list of requests and whatever
    the inner service replies, has sent what `RoutedById` says; and where two traces saw the same
    replies, up to the order of responses with distinct ids, every caller received the same. -/
theorem routed_by_id (hs : Steps (sendBatchWithRetry config display pending) tr q)
    (horders : MapOrders tr) :
    RoutedById display pending tr q ∧
      ∀ tr' q', Steps (sendBatchWithRetry config display pending) tr' q' → MapOrders tr' →
        HandedOut q → HandedOut q' → List.Forall₂ SameReply (batchReplies tr) (batchReplies tr') →
          (sends tr).Perm (sends tr') := by
  refine ⟨⟨filter_lasts _ pending, filter_earlier _ pending, fun hhanded hnone => ?_, ?_, ?_,
    fun p packet hsent => ?_, fun hend => ?_⟩, fun tr' q' hs' horders' hhanded hhanded' hsame => ?_⟩
  · have hsent := sent_of_handedOut hs horders hhanded
    unfold Due chunkSends at hsent
    rwa [hnone, routes, List.append_nil, List.append_nil] at hsent
  · intro tr₁ reqs reply tr₂ hsplit
    subst hsplit
    have hok := sendBatchWithRetry_follows.performed_record hs horders.before
    obtain ⟨reqs', heq, _, hperm⟩ := hok.carries
    cases heq
    exact hperm
  · intro tr₁ reqs packet tr₂ hsplit hnext
    subst hsplit
    refine ⟨reply_hands hs horders hnext, ?_⟩
    unfold stillOut
    rw [batchReplies_append, ← List.singleton_append, batchReplies_append, hnext]
    exact outstandingAfter_append _ _ _
  · exact chunkSends_own ((sent_due hs horders).subset hsent)
  · subst hend
    exact (sendBatchWithRetry_follows.runs_record hs horders).spawned
  · have hsent := sent_of_handedOut hs horders hhanded
    have hsent' := sent_of_handedOut hs' horders' hhanded'
    unfold Due at hsent hsent'
    rw [List.append_nil] at hsent hsent'
    exact hsent.trans (((routes_same hsame (.refl _)).append_left _).trans hsent'.symm)

end Traces

/-! ## 4. A reply with repeated, null and foreign ids -/

section Example

/-- Two requests with id 1 and one with id 2. -/
def crossed : List PendingRequest :=
  [⟨⟨.number 1, "a"⟩, 0⟩, ⟨⟨.number 1, "b"⟩, 1⟩, ⟨⟨.number 2, "c"⟩, 2⟩]

/-- A null id, a foreign one, and id 1 twice. -/
def crossedReply : List Response :=
  [⟨.none, .failure "x"⟩, ⟨.number 7, .success "y"⟩, ⟨.number 1, .success "first"⟩,
    ⟨.number 1, .success "second"⟩]

/-- The first request fails at once, the second gets the first response with its id, and the third
    goes on alone. -/
def crossedRun : Trace BatchSig :=
  [⟨.send ⟨⟨.number 1, "a"⟩, 0⟩ (.error duplicateIdError), ()⟩,
    ⟨.iterate [⟨⟨.number 2, "c"⟩, 2⟩, ⟨⟨.number 1, "b"⟩, 1⟩],
      [⟨⟨.number 2, "c"⟩, 2⟩, ⟨⟨.number 1, "b"⟩, 1⟩]⟩,
    ⟨.innerCall (.batch [⟨.number 2, "c"⟩, ⟨.number 1, "b"⟩]), .ok (.batch crossedReply)⟩,
    ⟨.send ⟨⟨.number 1, "b"⟩, 1⟩ (.ok (.single ⟨.number 1, .success "first"⟩)), ()⟩,
    ⟨.newSemaphore 10, (0 : Nat)⟩,
    ⟨.iterate [⟨⟨.number 2, "c"⟩, 2⟩], [⟨⟨.number 2, "c"⟩, 2⟩]⟩,
    ⟨.spawn (.individual 0 ⟨⟨.number 2, "c"⟩, 2⟩), ()⟩]

/-- One retry, and no callback. -/
def oneRetry : BatchingConfig := { BatchingConfig.default with maxMissingRetries := 1 }

theorem crossedRun_steps : Steps (sendBatchWithRetry oneRetry (fun _ => "") crossed) crossedRun
    (.ret ()) :=
  .step _ _ _ (.step _ _ _ (.step _ _ _ (.step _ _ _ (.step _ _ _ (.step _ _ _
    (.step _ _ _ (.refl _)))))))

theorem crossedRun_orders : MapOrders crossedRun := by
  intro ev hev
  simp only [crossedRun, List.mem_cons, List.not_mem_nil, or_false] at hev
  rcases hev with rfl | rfl | rfl | rfl | rfl | rfl | rfl
  all_goals first | trivial | exact List.Perm.refl _

theorem routed_by_id_crossed : RoutedById (fun _ => "") crossed crossedRun (.ret ()) :=
  (routed_by_id crossedRun_steps crossedRun_orders).1

end Example

end TransportBalancer.Batching
