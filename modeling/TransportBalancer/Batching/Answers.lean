/-
  File:      TransportBalancer/Batching/Answers.lean
  Subject:   WHAT CALLERS RECEIVE over an inner service that answers truthfully, but may drop,
             reorder and repeat the responses to a batch and add foreign ones.

  * `Truthful` -- such an inner service, for the responses `f` of the requests;
  * `workerTask_answers` -- over it a spawned task sends `f` of a request on the request's channel
    and nothing else;
  * `answers_true` -- so does every task of every reachable pool, as long as the ids are distinct;
  * **`caller_direct`** -- a caller that returns has what the requests sent alone would give.
-/
import TransportBalancer.Batching.Callers

namespace TransportBalancer.Batching

open Interaction TaskPool

/-- The ids of some entries. -/
def ids (entries : List PendingRequest) : List Id := entries.map fun p => p.request.id

/-- **The inner service**: a single request gets its response; a batch gets responses of its
    requests, as many of them and in whatever order and shape, and responses to ids that are not in
    it. -/
structure Truthful (f : SerializedRequest → Response) (b : BatchingTransport) : Prop where
  id : ∀ r, (f r).id = r.id
  single : ∀ {r result}, b.inner (.single r) result → result = .ok (.single (f r))
  batch : ∀ {rs result}, b.inner (.batch rs) result → ∃ packet, result = .ok packet ∧
    ∀ resp ∈ replyResponses packet, (∃ r ∈ rs, resp = f r) ∨ resp.id ∉ rs.map SerializedRequest.id

/-- What the requests of a packet, each sent alone, give: a batch in the caller's own order. -/
def directReply (f : SerializedRequest → Response) : RequestPacket → RpcResult
  | .single r => .ok (.single (f r))
  | .batch rs => .ok (.batch (rs.map f))

/-! ## 1. The programs -/

section Programs

variable (f : SerializedRequest → Response) (b : BatchingTransport)

/-- **The answer protocol** of the flush task and the spawned tasks: a request is answered with its
    response, and entries spawned together have distinct ids, if those drained together have. -/
def answerProtocol : Protocol BatchSig Unit where
  ok _ e :=
    match e with
    | .send p result => result = .ok (.single (f p.request))
    | .spawn task => (ids task.entries).Nodup
    | _ => True
  admits _ e r :=
    match e, r with
    | .drain, batch => (ids batch).Nodup
    | .iterate entries, order => order.Perm entries
    | .innerCall packet, result => b.inner packet result
    | _, _ => True
  next _ _ _ := ()

variable {f b}

theorem ids_perm {l l' : List PendingRequest} (h : l.Perm l') : (ids l).Perm (ids l') := h.map _

/-- With distinct ids the map takes every entry in. -/
theorem insertAll_answers (pending : List PendingRequest) (o : Outstanding)
    (h : (ids (pending ++ o.values)).Nodup) :
    (insertAll pending o).Follows (answerProtocol f b) () fun _ _ => True := by
  induction pending generalizing o with
  | nil => trivial
  | cons p rest ih =>
    have hfresh : (o.insert p).1 = none := by
      rw [Option.eq_none_iff_forall_not_mem]
      intro prev hprev
      have hremove : (o.remove p.request.id).1 = some prev := hprev
      have hmem : prev ∈ o.values := by
        rw [(o.remove_perm p.request.id).mem_iff, hremove]
        exact List.mem_cons_self
      have hnot : p.request.id ∉ ids (rest ++ o.values) := (List.nodup_cons.mp h).1
      rw [← Outstanding.remove_id hremove] at hnot
      exact hnot (List.mem_map_of_mem (List.mem_append_right rest hmem))
    have hperm : (rest ++ (o.insert p).2.values).Perm (p :: rest ++ o.values) := by
      have := o.insert_perm p
      rw [hfresh] at this
      exact (this.symm.append_left rest).trans List.perm_middle
    unfold insertAll
    split
    · rename_i prev o' hinsert
      rw [hinsert] at hfresh
      cases hfresh
    · rename_i o' hinsert
      rw [hinsert] at hperm
      exact ih o' ((ids_perm hperm).nodup_iff.mpr h)

theorem spawnAll_answers (semaphore : Nat) (entries : List PendingRequest) :
    (spawnAll semaphore entries).Follows (answerProtocol f b) () fun _ _ => True := by
  induction entries with
  | nil => trivial
  | cons p rest ih => exact ⟨List.nodup_singleton _, fun _ _ => ih⟩

theorem fallBack_answers (o : Outstanding) :
    (fallBack o).Follows (answerProtocol f b) () fun _ _ => True :=
  ⟨trivial, fun _ _ => ⟨trivial, fun _ _ => spawnAll_answers _ _⟩⟩

/-- Matching a reply whose responses, where they name an entry, are that entry's. -/
theorem matchResponses_answers (responses : List Response) (o : Outstanding)
    (h : ∀ resp ∈ responses, ∀ p ∈ o.values, p.request.id = resp.id → resp = f p.request) :
    (matchResponses responses o).Follows (answerProtocol f b) () fun _ _ => True := by
  induction responses generalizing o with
  | nil => trivial
  | cons response rest ih =>
    have hperm := o.remove_perm response.id
    have hrest : ∀ resp ∈ rest, ∀ p ∈ (o.remove response.id).2.values,
        p.request.id = resp.id → resp = f p.request := fun resp hresp p hp =>
      h resp (List.mem_cons_of_mem _ hresp) p (hperm.mem_iff.mpr (List.mem_append_right _ hp))
    unfold matchResponses
    split
    · rename_i p o' hremove
      rw [hremove] at hrest hperm
      have hp : p ∈ o.values := hperm.mem_iff.mpr List.mem_cons_self
      have hid : p.request.id = response.id := Outstanding.remove_id (congrArg Prod.fst hremove)
      refine ⟨?_, fun _ _ => ih o' hrest⟩
      show Except.ok (ResponsePacket.single response) = .ok (.single (f p.request))
      rw [h response List.mem_cons_self p hp hid]
    · rename_i o' hremove
      rw [hremove] at hrest
      exact ih o' hrest

/-- Entries of a map are told apart by their ids. -/
theorem Outstanding.eq_of_id {o : Outstanding} {p q : PendingRequest} (hp : p ∈ o.values)
    (hq : q ∈ o.values) (h : p.request.id = q.request.id) : p = q :=
  List.inj_on_of_nodup_map o.ids_nodup hp hq h

/-- A truthful reply to the requests of a map answers each of them with its own response. -/
theorem truthful_responses (hb : Truthful f b) {o : Outstanding} {order : List PendingRequest}
    (horder : order.Perm o.values) {packet : ResponsePacket}
    (hpacket : ∀ resp ∈ replyResponses packet,
      (∃ r ∈ order.map PendingRequest.request, resp = f r) ∨
        resp.id ∉ (order.map PendingRequest.request).map SerializedRequest.id) :
    ∀ resp ∈ replyResponses packet, ∀ p ∈ o.values, p.request.id = resp.id →
      resp = f p.request := by
  intro resp hresp p hp hid
  rcases hpacket resp hresp with ⟨r, hr, rfl⟩ | hforeign
  · obtain ⟨q, hq, rfl⟩ := List.mem_map.mp hr
    rw [hb.id] at hid
    rw [Outstanding.eq_of_id hp (horder.mem_iff.mp hq) hid]
  · refine absurd ?_ hforeign
    rw [← hid, List.map_map]
    exact List.mem_map_of_mem (f := SerializedRequest.id ∘ PendingRequest.request)
      (horder.mem_iff.mpr hp)

/-- **The loop over the attempts** sends true answers only. -/
theorem attempts_answers (hb : Truthful f b) (o : Outstanding) :
    (attempts b.config.toBatchingConfig b.display (b.config.maxMissingRetries + 1) 0 o).Follows
      (answerProtocol f b) () fun _ _ => True := by
  refine attempts_rule (I := fun _ _ _ => True) (Q := fun _ => True) (fun _ _ _ _ _ => trivial)
    (fun o _ _ => fallBack_answers o) (fun attempt o _ _ _ _ => ?_) _ (Nat.zero_add _) trivial
  refine ⟨trivial, fun order horder => ⟨trivial, fun reply hreply => ?_⟩⟩
  obtain ⟨packet, rfl, hpacket⟩ := hb.batch hreply
  refine (matchResponses_answers _ o (truthful_responses hb horder hpacket)).mono ?_
  intro _ o' _
  refine ⟨fun _ => trivial, fun _ =>
    rejectBatch_rule (fun _ => ⟨trivial, fun _ _ => ?_⟩) fun _ => ?_⟩
  · exact fallBack_answers o'
  · exact fallBack_answers o'

theorem sendSingle_answers (hb : Truthful f b) (p : PendingRequest) :
    (sendSingle p).Follows (answerProtocol f b) () fun _ _ => True :=
  ⟨trivial, fun _ hresult => ⟨hb.single hresult, fun _ _ => trivial⟩⟩

/-- **A spawned task** whose entries have distinct ids sends true answers only. -/
theorem workerTask_answers (hb : Truthful f b) {task : SpawnedTask}
    (h : (ids task.entries).Nodup) :
    (workerTask b task).rest.Follows (answerProtocol f b) () fun _ _ => True := by
  have hprogram : (task.program b.config.toBatchingConfig b.display).Follows (answerProtocol f b) ()
      fun _ _ => True := by
    cases task with
    | single p => exact sendSingle_answers hb p
    | chunk pending =>
      refine (insertAll_answers pending .empty ?_).bind fun _ o _ => attempts_answers hb o
      rw [show Outstanding.empty.values = [] from rfl, List.append_nil]
      exact h
    | individual semaphore p =>
      exact ⟨trivial, fun _ _ => (sendSingle_answers hb p).bind fun _ _ _ =>
        ⟨trivial, fun _ _ => trivial⟩⟩
  exact hprogram.bind fun _ _ _ => trivial

theorem dispatch_answers (config : RunningConfig) (fuel : Nat) : ∀ remaining : List PendingRequest,
    (ids remaining).Nodup →
      (dispatch config fuel remaining).Follows (answerProtocol f b) () fun _ _ => True := by
  induction fuel with
  | zero => exact fun _ _ => trivial
  | succ fuel ih =>
    intro remaining h
    unfold dispatch
    split
    · trivial
    · refine ⟨?_, fun _ _ => ih _ (h.sublist ((List.drop_sublist _ _).map _))⟩
      show (ids (chunkTask _).entries).Nodup
      rw [chunkTask_entries]
      exact h.sublist ((List.take_sublist _ _).map _)

theorem flushProgram_answers :
    (flushProgram b).Follows (answerProtocol f b) () fun _ _ => True := by
  refine ⟨trivial, fun up _ => ?_⟩
  cases up with
  | false => trivial
  | true =>
    refine ⟨trivial, fun since _ => ⟨trivial, fun _ _ => ⟨trivial, fun batch hbatch =>
      ⟨trivial, fun _ _ => ?_⟩⟩⟩⟩
    have hturn : (dispatch b.config batch.length batch >>= fun _ => .ret Turn.again).Follows
        (answerProtocol f b) () fun _ _ => True :=
      (dispatch_answers b.config batch.length batch hbatch).bind fun _ _ _ => trivial
    exact hturn.bind fun _ _ _ => trivial

end Programs

/-! ## 2. Every task answers truly -/

section Tasks

variable {f : SerializedRequest → Response} {b : BatchingTransport}
  {p p' : Pool BatchingShared BatchTask}

/-- Entries with distinct ids had distinct ids before a step. -/
theorem ids_before {w : Actor} (hs : (batchSystem b).Step p w p')
    (h : (ids p'.shared.entries).Nodup) : (ids p.shared.entries).Nodup :=
  h.sublist ((step_grows hs).entries.sublist.map _)

/-- What is in the queue has distinct ids, if everything pushed has. -/
theorem ids_pending (hr : (batchSystem b).Reachable (BatchStart b) p)
    (h : (ids p.shared.entries).Nodup) : (ids p.shared.pending).Nodup := by
  have hsub : p.shared.pending.Subperm p.shared.entries := by
    rw [List.subperm_ext_iff]
    intro q _
    have := entries_conserved hr q
    unfold BatchingShared.settled at this
    omega
  obtain ⟨l, hperm, hsublist⟩ := hsub
  exact (ids_perm hperm).nodup_iff.mp (h.sublist (hsublist.map _))

/-- The flush task or a spawned task, doing what the answer protocol allows. -/
def BatchTask.AnswersTruly (f : SerializedRequest → Response) (b : BatchingTransport)
    (t : BatchTask) : Prop :=
  t.kind.isCaller = false → t.rest.Follows (answerProtocol f b) () fun _ _ => True

theorem answersTruly_step (hb : Truthful f b) (hr : (batchSystem b).Reachable (BatchStart b) p)
    (hids : (ids p.shared.entries).Nodup) {s' : BatchingShared} {t t' : BatchTask}
    {new : List BatchTask} (hmem : t ∈ p.tasks) (ht : t.AnswersTruly f b)
    (hs : t.Step b p.shared s' t' new) :
    t'.AnswersTruly f b ∧ ∀ n ∈ new, n.AnswersTruly f b := by
  cases hs with
  | @effect e k r _ hrest heff =>
    refine ⟨fun hkind => ?_, fun n hn => ?_⟩
    · rw [isCaller_next] at hkind
      have hfollows := ht hkind
      rw [hrest] at hfollows
      refine hfollows.2 r ?_
      cases e with
      | drain =>
        obtain ⟨rfl, _⟩ := heff
        exact ids_pending hr hids
      | iterate | innerCall => exact heff.1
      | _ => trivial
    · cases e with
      | spawn task =>
        rw [List.mem_singleton.mp hn]
        cases hkind : t.kind.isCaller with
        | true => cases caller_op hr hmem hkind hrest
        | false =>
          have hfollows := ht hkind
          rw [hrest] at hfollows
          exact fun _ => workerTask_answers hb hfollows.1
      | _ => exact absurd hn List.not_mem_nil
  | turn hkind hrest => exact ⟨fun _ => flushProgram_answers, nofun⟩
  | cancel hkind _ _ =>
    refine ⟨fun hcaller => ?_, nofun⟩
    rw [hkind] at hcaller
    cases hcaller

/-- The flush task and the spawned tasks of every reachable pool answer truly. -/
theorem tasks_answerTruly (hb : Truthful f b) (hr : (batchSystem b).Reachable (BatchStart b) p)
    (hids : (ids p.shared.entries).Nodup) : ∀ t ∈ p.tasks, t.AnswersTruly f b := by
  have hall := System.Reachable.localInv (Y := batchSystem b)
    (I := fun s t => (ids s.entries).Nodup → t.AnswersTruly f b) (fun p hp t ht _ => ?_)
    (fun hr hs hmem ht hact => ?_) (fun _ ha _ => ?_)
    (fun hr hs hu hids => hu (ids_before hs hids)) hr
  · exact fun t ht => hall t ht hids
  · rw [hp.only_flush ht]
    exact fun _ => flushProgram_answers
  · have hstep := fun hids => answersTruly_step hb hr (ids_before hs hids) hmem
      (ht (ids_before hs hids)) hact
    exact ⟨fun hids => (hstep hids).1, fun n hn hids => (hstep hids).2 n hn⟩
  · obtain ⟨_, _, packet, rfl⟩ := ha
    exact nofun

/-- **Every answer sent is the response of the request** whose channel it is sent on. -/
theorem answers_true (hb : Truthful f b) (hr : (batchSystem b).Reachable (BatchStart b) p)
    (hids : (ids p.shared.entries).Nodup) :
    ∀ a ∈ p.shared.answers, a.2 = .ok (.single (f a.1.request)) := by
  induction hr with
  | start hp =>
    rw [hp.answers]
    exact nofun
  | step hr hs ih =>
    have hbefore := ids_before hs hids
    have htruly := tasks_answerTruly hb hr hbefore
    have hold := ih hbefore
    cases hs with
    | @act s s' l r new t t' h =>
      rcases answers_step h with hsame | ⟨q, result, k, hrest, hnew⟩
      · rw [hsame]
        exact hold
      · have hmem : t ∈ l ++ t :: r := by simp
        have hkind : t.kind.isCaller = false := by
          by_contra hcaller
          cases caller_op hr hmem (by simpa using hcaller) hrest
        have hfollows := htruly t hmem hkind
        rw [hrest] at hfollows
        intro a ha
        rw [hnew] at ha
        rcases List.mem_append.mp ha with ha | ha
        · exact hold a ha
        · rw [List.mem_singleton.mp ha]
          exact hfollows.1
    | @env s s' ts h =>
      cases h with
      | tick | cloned => exact hold
      | dropped =>
        show ∀ a ∈ s.dropShared.answers, _
        rw [dropShared_answers]
        exact hold
    | arrive h =>
      obtain ⟨_, rfl, _⟩ := h
      exact hold

end Tasks

/-! ## 3. Callers -/

section Callers

variable {f : SerializedRequest → Response} {b : BatchingTransport}
  {p : Pool BatchingShared BatchTask}

/-- How a caller ends: with the direct reply, unless it is cancelled. -/
def EndsDirect (f : SerializedRequest → Response) (packet : RequestPacket) (x : TaskEnd) : Prop :=
  x = .cancelled ∨ x = .returned (directReply f packet)

/-- What becomes of a packet whose requests all get their responses. -/
theorem packetResult_direct {packet : RequestPacket} {result : RpcResult}
    (h : PacketResult (fun request result => result = .ok (.single (f request))) packet result) :
    result = directReply f packet := by
  cases packet with
  | single request => exact h
  | batch requests =>
    cases h with
    | failed _ _ herr => cases herr
    | @all replies hreplies =>
      show (.ok (.batch _) : RpcResult) = .ok (.batch (requests.map f))
      congr 2
      induction hreplies with
      | nil => rfl
      | cons hreply _ ih =>
        obtain rfl := Except.ok.inj hreply
        exact congrArg (_ :: ·) ih

/-- **A caller that returns has the direct reply**, in every reachable pool with distinct ids. -/
theorem caller_direct (hb : Truthful f b) (hr : (batchSystem b).Reachable (BatchStart b) p)
    (hids : (ids p.shared.entries).Nodup) {t : BatchTask} (ht : t ∈ p.tasks)
    {packet : RequestPacket} {receivers : List Channel} (hkind : t.kind = .caller packet receivers)
    {x : TaskEnd} (hrest : t.rest = .ret x) : EndsDirect f packet x := by
  rcases caller_ends_sourced hr ht hkind hrest with hcancelled | ⟨result, rfl, _⟩
  · exact Or.inl hcancelled
  · have hresult : PacketResult (fun request result => result = .ok (.single (f request))) packet
        result := caller_packetResult hr ht hkind hrest (answers_true hb hr hids)
    exact Or.inr (congrArg TaskEnd.returned (packetResult_direct hresult))

end Callers

end TransportBalancer.Batching
