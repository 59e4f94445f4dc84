/-
  File:      TransportBalancer/Batching/Callers.lean
  Subject:   WHAT A CALLER RETURNS: the answer to its one request, or of a batch every reply in the
             order of the requests, or the error of the first of them that has one.

  * `Collected` -- what becomes of a batch, given what its members are answered with;
  * `callerSources` -- a caller returns what it has received on the channels of its own entries;
  * **`caller_result`** -- in every reachable pool, what a caller has returned is made up of the
    answers to its entries.
-/
import TransportBalancer.Batching.Requests

namespace TransportBalancer.Batching

open Interaction TaskPool

/-! ## 1. What becomes of a packet -/

/-- The requests of some entries. -/
def requestsOf (entries : List PendingRequest) : List SerializedRequest :=
  entries.map PendingRequest.request

/-- **What becomes of a batch**, its members being answered as `A` says: every reply, in the order
    of the members, or the error of the first one that has one. -/
inductive Collected {ι : Type} (A : ι → RpcResult → Prop) (members : List ι) : RpcResult → Prop
  | all {replies : List ResponsePacket} :
      List.Forall₂ (fun member reply => A member (.ok reply)) members replies →
        Collected A members (.ok (.batch (replies.flatMap replyResponses)))
  | failed {before after : List ι} {member : ι} {replies : List ResponsePacket}
      {err : TransportError} :
      members = before ++ member :: after →
        List.Forall₂ (fun member reply => A member (.ok reply)) before replies →
          A member (.error err) → Collected A members (.error err)

/-- What becomes of a packet. -/
def PacketResult (A : SerializedRequest → RpcResult → Prop) : RequestPacket → RpcResult → Prop
  | .single request => A request
  | .batch requests => Collected A requests

/-- What becomes of the entries of a packet. -/
def EntriesResult (A : PendingRequest → RpcResult → Prop) (packet : RequestPacket)
    (entries : List PendingRequest) (result : RpcResult) : Prop :=
  match packet with
  | .single _ => ∃ q, entries = [q] ∧ A q result
  | .batch _ => Collected A entries result

theorem Collected.map {ι κ : Type} {A : ι → RpcResult → Prop} {B : κ → RpcResult → Prop}
    {f : ι → κ} (himp : ∀ member result, A member result → B (f member) result) {members : List ι}
    {result : RpcResult} (h : Collected A members result) :
    Collected B (members.map f) result := by
  cases h with
  | all hreplies =>
    exact .all (List.forall₂_map_left_iff.mpr (hreplies.imp fun _ _ h => himp _ _ h))
  | failed hsplit hbefore herr =>
    refine .failed (by rw [hsplit, List.map_append, List.map_cons])
      (List.forall₂_map_left_iff.mpr (hbefore.imp fun _ _ h => himp _ _ h)) (himp _ _ herr)

/-- What becomes of the entries becomes of their requests. -/
theorem EntriesResult.packet {A : PendingRequest → RpcResult → Prop}
    {B : SerializedRequest → RpcResult → Prop} (himp : ∀ q result, A q result → B q.request result)
    {packet : RequestPacket} {entries : List PendingRequest} {result : RpcResult}
    (hrequests : requestsOf entries = packet.requests)
    (h : EntriesResult A packet entries result) : PacketResult B packet result := by
  cases packet with
  | single request =>
    obtain ⟨q, rfl, ha⟩ := h
    obtain rfl : q.request = request := (List.cons.inj hrequests).1
    exact himp q result ha
  | batch requests =>
    obtain rfl : entries.map PendingRequest.request = requests := hrequests
    exact Collected.map himp h

theorem replied_of_mem {A : PendingRequest → RpcResult → Prop} {entries : List PendingRequest}
    {replies : List ResponsePacket}
    (h : List.Forall₂ (fun q reply => A q (.ok reply)) entries replies) {x : PendingRequest}
    (hx : x ∈ entries) : ∃ reply, A x (.ok reply) := by
  obtain ⟨i, hi, rfl⟩ := List.getElem_of_mem hx
  exact ⟨_, h.get hi (h.length_eq ▸ hi)⟩

/-- **An error** is that of the first entry that fails, -/
theorem EntriesResult.first_failed {A : PendingRequest → RpcResult → Prop} {packet : RequestPacket}
    {entries : List PendingRequest} {err : TransportError}
    (h : EntriesResult A packet entries (.error err)) : ∃ before q after,
      entries = before ++ q :: after ∧ (∀ x ∈ before, ∃ reply, A x (.ok reply)) ∧
        A q (.error err) := by
  cases packet with
  | single =>
    obtain ⟨q, rfl, ha⟩ := h
    exact ⟨[], q, [], rfl, nofun, ha⟩
  | batch =>
    cases h with
    | @failed before after q replies _ hsplit hbefore herr =>
      exact ⟨before, q, after, hsplit, fun _ => replied_of_mem hbefore, herr⟩

/-- and there is none only if every entry was answered. -/
theorem EntriesResult.all_answered {A : PendingRequest → RpcResult → Prop} {packet : RequestPacket}
    {entries : List PendingRequest} {response : ResponsePacket}
    (h : EntriesResult A packet entries (.ok response)) :
    ∀ x ∈ entries, ∃ reply, A x (.ok reply) := by
  intro x hx
  cases packet with
  | single =>
    obtain ⟨q, rfl, ha⟩ := h
    exact ⟨response, List.mem_singleton.mp hx ▸ ha⟩
  | batch =>
    cases h with
    | all hreplies => exact replied_of_mem hreplies hx

/-! ## 2. The program of a caller -/

section Program

variable {A : PendingRequest → RpcResult → Prop}

/-- **What a caller relies on**: on the channel of an entry of its own it receives an answer to that
    entry. -/
def callerSources (A : PendingRequest → RpcResult → Prop) (packet : RequestPacket) :
    Protocol BatchSig (List PendingRequest) where
  ok _ e :=
    match e with
    | .enqueue requests => requests = packet.requests
    | _ => True
  admits own e r :=
    match e, r with
    | .awaitResponse rx, answer =>
      ∀ q ∈ own, q.tx = rx → ∃ result, answer = some result ∧ A q result
    | _, _ => True
  next own e r :=
    match e, r with
    | .enqueue requests, first => BatchingShared.entriesFrom first requests
    | _, _ => own

/-- How a caller ends: with what becomes of its entries, unless it is cancelled. -/
def EndsSourced (A : PendingRequest → RpcResult → Prop) (packet : RequestPacket)
    (own : List PendingRequest) (x : TaskEnd) : Prop :=
  x = .cancelled ∨ ∃ result, x = .returned result ∧ requestsOf own = packet.requests ∧
    EntriesResult A packet own result

theorem requestsOf_entriesFrom (first : Channel) (requests : List SerializedRequest) :
    requestsOf (BatchingShared.entriesFrom first requests) = requests := by
  induction requests generalizing first with
  | nil => rfl
  | cons request rest ih => exact congrArg (request :: ·) (ih (first + 1))

/-- The loop over the receivers, when those before have brought `replies`. -/
theorem collectResponses_sources (packet : RequestPacket) (own : List PendingRequest) :
    ∀ (before : List PendingRequest) (rest : List SerializedRequest)
      (replies : List ResponsePacket) (first : Channel),
      List.Forall₂ (fun q reply => A q (.ok reply)) before replies →
      own = before ++ BatchingShared.entriesFrom first rest →
      (collectResponses (List.range' first rest.length) (replies.flatMap replyResponses)).Follows
        (callerSources A packet) own fun own' result => own' = own ∧ Collected A own result := by
  intro before rest
  induction rest generalizing before with
  | nil =>
    intro replies first hbefore hown
    obtain rfl : own = before := hown.trans (List.append_nil _)
    exact ⟨rfl, .all hbefore⟩
  | cons request rest ih =>
    intro replies first hbefore hown
    refine ⟨trivial, fun answer hanswer => ?_⟩
    have hmem : (⟨request, first⟩ : PendingRequest) ∈ own :=
      hown ▸ List.mem_append_right _ List.mem_cons_self
    obtain ⟨result, rfl, ha⟩ := hanswer ⟨request, first⟩ hmem rfl
    cases result with
    | error err => exact ⟨rfl, .failed hown hbefore ha⟩
    | ok reply =>
      have hnext := ih (before ++ [⟨request, first⟩]) (replies ++ [reply]) (first + 1)
        (List.rel_append hbefore (.cons ha .nil)) (by rw [hown, List.append_assoc]; rfl)
      rw [List.flatMap_append, List.flatMap_singleton] at hnext
      cases reply <;> exact hnext

/-- **A caller** whose entries are answered as `A` says returns what becomes of them. -/
theorem callerTask_sources (packet : RequestPacket) (own : List PendingRequest) :
    (callerTask packet).rest.Follows (callerSources A packet) own
      fun own x => EndsSourced A packet own x := by
  have hcall : (call packet).Follows (callerSources A packet) own
      fun own result => requestsOf own = packet.requests ∧ EntriesResult A packet own result := by
    refine ⟨rfl, fun first _ => ⟨trivial, fun _ _ => ?_⟩⟩
    have hreceive : (receive packet first).Follows (callerSources A packet)
        (BatchingShared.entriesFrom first packet.requests) fun own result =>
          own = BatchingShared.entriesFrom first packet.requests ∧
            EntriesResult A packet own result := by
      cases packet with
      | single request =>
        refine ⟨trivial, fun answer hanswer => ?_⟩
        obtain ⟨result, rfl, ha⟩ := hanswer ⟨request, first⟩ List.mem_cons_self rfl
        exact ⟨rfl, _, rfl, ha⟩
      | batch requests =>
        refine (collectResponses_sources _ _ [] requests [] first .nil rfl).mono fun own' _ h => ?_
        obtain ⟨rfl, hcollected⟩ := h
        exact ⟨rfl, hcollected⟩
    refine hreceive.bind fun own _ h => ⟨trivial, fun _ _ => ?_⟩
    obtain ⟨rfl, hresult⟩ := h
    exact ⟨requestsOf_entriesFrom first packet.requests, hresult⟩
  exact hcall.bind fun _ result h => Or.inr ⟨result, rfl, h⟩

end Program

/-! ## 3. Callers of a reachable pool -/

section Callers

variable {b : BatchingTransport} {p p' : Pool BatchingShared BatchTask}

/-- **A caller relying on its own entries**, whatever `A` allows what has been answered so far. -/
def BatchTask.ReceivesSourced (s : BatchingShared) (t : BatchTask) : Prop :=
  ∀ packet receivers, t.kind = .caller packet receivers →
    ∀ A : PendingRequest → RpcResult → Prop, (∀ a ∈ s.answers, A a.1 a.2) →
      t.rest.Follows (callerSources A packet) t.kind.entries fun own x => EndsSourced A packet own x

/-- What a waiting caller hears on the channel of an entry of its own is that entry's answer. -/
theorem awaited_answer (hr : (batchSystem b).Reachable (BatchStart b) p) {t : BatchTask}
    (ht : t ∈ p.tasks) {rx : Channel} {k : Option RpcResult → Program BatchSig TaskEnd}
    (hrest : t.rest = .op (.awaitResponse rx) k) {answer : Option RpcResult} {s' : BatchingShared}
    (heff : Effect b p.shared (.awaitResponse rx) answer s') :
    ∀ q ∈ t.kind.entries, q.tx = rx →
      ∃ result, answer = some result ∧ (q, result) ∈ p.shared.answers := by
  intro q hq htx
  have hown : q ∈ p.shared.entries := (mem_entries_iff hr).mpr ⟨t, ht, hq⟩
  obtain ⟨_, ⟨q', result, hanswer, rfl, rfl⟩ | ⟨q', hdropped, rfl, rfl⟩⟩ := heff
  · have hpushed := mem_entries_of_settled hr (settled_of_answer hanswer)
    obtain rfl := (channels_ok hr).inj hown hpushed htx
    exact ⟨result, rfl, hanswer⟩
  · -- its `Arc` keeps the queue alive
    have hpushed := mem_entries_of_settled hr (settled_of_dropped hdropped)
    obtain rfl := (channels_ok hr).inj hown hpushed htx
    rw [dropped_cancelled hr ht hq hdropped] at hrest
    cases hrest

theorem receivesSourced_step (hr : (batchSystem b).Reachable (BatchStart b) p) {w : Actor}
    (hs : (batchSystem b).Step p w p') {t t' : BatchTask} {new : List BatchTask} (ht : t ∈ p.tasks)
    (hreceives : t.ReceivesSourced p.shared) (hact : t.Step b p.shared p'.shared t' new) :
    t'.ReceivesSourced p'.shared ∧ ∀ n ∈ new, n.ReceivesSourced p'.shared := by
  have hgrow := (step_grows hs).answers
  generalize p'.shared = s' at hact hgrow ⊢
  refine ⟨fun packet receivers hkind A hA => ?_, fun n hn packet receivers hkind => ?_⟩
  · have hA' : ∀ a ∈ p.shared.answers, A a.1 a.2 := fun a ha => hA a (hgrow ha)
    cases hact with
    | @effect e k r _ hrest heff =>
      have hcaller : t.kind.isCaller = true := by
        rw [← isCaller_next t.kind e r]
        exact congrArg TaskKind.isCaller hkind
      obtain ⟨packet', receivers', hbefore⟩ := caller_kind hcaller
      have hfollows := hreceives packet' receivers' hbefore A hA'
      rw [hrest] at hfollows
      obtain ⟨hok, hgo⟩ := hfollows
      have hop := caller_op hr ht hcaller hrest
      cases e with
      | enqueue requests =>
        simp only [hbefore, TaskKind.next] at hkind
        cases hkind
        obtain rfl := hok
        have hent : (TaskKind.caller packet (List.range' r packet.requests.length)).entries =
            BatchingShared.entriesFrom r packet.requests := (entriesFrom_eq _ _).symm
        simp only [hbefore, TaskKind.next]
        rw [hent]
        exact hgo r trivial
      | awaitResponse rx =>
        obtain rfl : packet' = packet := by
          simp only [hbefore, TaskKind.next] at hkind
          cases hkind
          rfl
        refine hgo r fun q hq htx => ?_
        obtain ⟨result, rfl, hanswer⟩ := awaited_answer hr ht hrest heff q hq htx
        exact ⟨result, rfl, hA' _ hanswer⟩
      | notifyOne | dropShared =>
        obtain rfl : packet' = packet := by
          simp only [hbefore, TaskKind.next] at hkind
          cases hkind
          rfl
        exact hgo r trivial
      | _ => cases hop
    | turn hflush =>
      rw [hflush] at hkind
      cases hkind
    | cancel => exact Or.inl rfl
  · obtain ⟨task, rfl, _⟩ := new_workers hact n hn
    cases hkind

/-- Every caller of a reachable pool relies on its own entries. -/
theorem callers_receiveSourced (hr : (batchSystem b).Reachable (BatchStart b) p) :
    ∀ t ∈ p.tasks, t.ReceivesSourced p.shared := by
  refine System.Reachable.localInv (I := fun s t => t.ReceivesSourced s) (fun p hp t ht => ?_)
    (fun hr hs ht hreceives hact => receivesSourced_step hr hs ht hreceives hact) (fun _ ha => ?_)
    (fun _ hs hreceives packet receivers hkind A hA =>
      hreceives packet receivers hkind A fun a ha => hA a ((step_grows hs).answers ha)) hr
  · rw [hp.only_flush ht]
    exact nofun
  · obtain ⟨_, _, packet, rfl⟩ := ha
    intro packet' receivers' hkind
    cases hkind
    exact fun _ _ => callerTask_sources packet _

/-- A caller that has ended was cancelled, or has returned what becomes of its entries by the
    answers they were given. -/
theorem caller_ends_sourced (hr : (batchSystem b).Reachable (BatchStart b) p) {t : BatchTask}
    (ht : t ∈ p.tasks) {packet : RequestPacket} {receivers : List Channel} {x : TaskEnd}
    (hkind : t.kind = .caller packet receivers) (hrest : t.rest = .ret x) :
    EndsSourced (fun q result => (q, result) ∈ p.shared.answers) packet t.kind.entries x := by
  have hends := callers_receiveSourced hr t ht packet receivers hkind
    (fun q result => (q, result) ∈ p.shared.answers) fun _ ha => ha
  rw [hrest] at hends
  exact hends

/-- **WHAT A CALLER RETURNS**: in every reachable pool, what becomes of its entries by the answers
    they were given. -/
theorem caller_result (hr : (batchSystem b).Reachable (BatchStart b) p) {t : BatchTask}
    (ht : t ∈ p.tasks) {packet : RequestPacket} {receivers : List Channel} {result : RpcResult}
    (hkind : t.kind = .caller packet receivers) (hrest : t.rest = .ret (.returned result)) :
    requestsOf t.kind.entries = packet.requests ∧
      EntriesResult (fun q result => (q, result) ∈ p.shared.answers) packet t.kind.entries
        result := by
  rcases caller_ends_sourced hr ht hkind hrest with h | ⟨result', h, hresult⟩
  · cases h
  · obtain rfl := TaskEnd.returned.inj h
    exact hresult

/-- So does every property that all answers have, for the requests of the packet. -/
theorem caller_packetResult (hr : (batchSystem b).Reachable (BatchStart b) p) {t : BatchTask}
    (ht : t ∈ p.tasks) {packet : RequestPacket} {receivers : List Channel} {result : RpcResult}
    (hkind : t.kind = .caller packet receivers) (hrest : t.rest = .ret (.returned result))
    {A : SerializedRequest → RpcResult → Prop} (hA : ∀ a ∈ p.shared.answers, A a.1.request a.2) :
    PacketResult A packet result := by
  obtain ⟨hrequests, hresult⟩ := caller_result hr ht hkind hrest
  exact hresult.packet (fun q result ha => hA (q, result) ha) hrequests

end Callers

end TransportBalancer.Batching
