/-
  File:      TransportBalancer/Batching/Histories.lean
  Subject:   WHAT A SPAWNED TASK HAS DONE: every spawned task of a reachable pool stands after some
             trace of its program, so that what holds of all traces holds of all tasks.

  * `History`, `worker_history` -- the trace of a spawned task, and that there is one;
  * `History.step` -- a step of the task extends it;
  * `chunk_owned` -- what a chunk has sent, spawned and still owns is what it was given;
  * **`packet_owned`** -- an inner call carries the requests of the entries its task owns.
-/
import Mathlib.Data.Multiset.MapFold
import TransportBalancer.Batching.Routing

namespace TransportBalancer.Batching

open Interaction TaskPool KeyedList

/-! ## 1. Histories -/

/-- **What a spawned task has done so far.** -/
structure History (b : BatchingTransport) (task : SpawnedTask) (tr : Trace BatchSig)
    (t : BatchTask) : Prop where
  kind : t.kind = .worker task
  steps : Steps (workerTask b task).rest tr t.rest
  orders : MapOrders tr
  ledger : t.ledger = serviceLedger.after (.owning task.entries) tr

section Histories

variable {b : BatchingTransport} {p p' q : Pool BatchingShared BatchTask} {task : SpawnedTask}
  {tr : Trace BatchSig} {t t' : BatchTask}

theorem history_nil (b : BatchingTransport) (task : SpawnedTask) :
    History b task [] (workerTask b task) :=
  ⟨rfl, .refl _, fun _ hev => absurd hev List.not_mem_nil, rfl⟩

/-- A history is one of the program proper. -/
theorem History.program (h : History b task tr t) :
    ∃ q, Steps (task.program b.config.toBatchingConfig b.display) tr q ∧
      t.rest = q >>= fun _ => .ret .finished :=
  steps_map h.steps

/-- What a task with a history is about to do, its program is about to do. -/
theorem History.program_op (h : History b task tr t) {e : BatchOp}
    {k : BatchSig.Ans e → Program BatchSig TaskEnd} (hrest : t.rest = .op e k) :
    ∃ k', Steps (task.program b.config.toBatchingConfig b.display) tr (.op e k') := by
  obtain ⟨q, hs, hq⟩ := h.program
  cases q with
  | ret a =>
    rw [hrest] at hq
    cases hq
  | op e' k' =>
    rw [hrest] at hq
    obtain rfl := (Program.op.inj hq).1
    exact ⟨k', hs⟩

/-- An effect extends the history. -/
theorem History.effect (h : History b task tr t) {s s' : BatchingShared} {e : BatchOp}
    {r : BatchSig.Ans e} {k : BatchSig.Ans e → Program BatchSig TaskEnd} (hrest : t.rest = .op e k)
    (heff : Effect b s e r s') :
    History b task (tr ++ [⟨e, r⟩]) ⟨t.kind.next e r, k r, t.ledger.next e r⟩ where
  kind := by
    rw [h.kind]
    cases e <;> rfl
  steps := by
    have hlast := Steps.step (S := BatchSig) e r k (.refl (k r))
    rw [← hrest] at hlast
    exact steps_append h.steps hlast
  orders ev hev := by
    rcases List.mem_append.mp hev with hev | hev
    · exact h.orders ev hev
    · rw [List.mem_singleton.mp hev]
      cases e with
      | iterate => exact heff.1
      | _ => exact trivial
  ledger := by
    rw [Protocol.after_append, ← h.ledger]
    rfl

/-- **A step of a spawned task** is one more effect of its program. -/
theorem History.step (h : History b task tr t) {s s' : BatchingShared} {new : List BatchTask}
    (hs : t.Step b s s' t' new) : ∃ (e : BatchOp) (r : BatchSig.Ans e)
      (k : BatchSig.Ans e → Program BatchSig TaskEnd), t.rest = .op e k ∧ Effect b s e r s' ∧
      t'.ledger = t.ledger.next e r ∧ History b task (tr ++ [⟨e, r⟩]) t' := by
  cases hs with
  | @effect e k r _ hrest heff => exact ⟨e, r, k, hrest, heff, rfl, h.effect hrest heff⟩
  | turn hkind =>
    rw [h.kind] at hkind
    cases hkind
  | cancel hkind =>
    rw [h.kind] at hkind
    cases hkind

/-- **Every spawned task of a reachable pool has a history.** -/
theorem worker_history (hr : (batchSystem b).Reachable (BatchStart b) p) :
    ∀ t ∈ p.tasks, ∀ task, t.kind = .worker task → ∃ tr, History b task tr t := by
  refine System.Reachable.localInv (Y := batchSystem b)
    (I := fun _ t => ∀ task, t.kind = .worker task → ∃ tr, History b task tr t)
    (fun p hp t ht task hkind => ?_) (fun {p p' w t t' new} hr hs _ ht hact => ⟨?_, ?_⟩)
    (fun _ ha task hkind => ?_) (fun _ _ hu => hu) hr
  · rw [hp.only_flush ht] at hkind
    cases hkind
  · intro task hkind
    have hbefore : t.kind = .worker task := by
      cases hwas : t.kind with
      | worker task' => rw [← worker_stays hact hwas, hkind]
      | caller packet receivers =>
        obtain ⟨receivers', hcaller⟩ := caller_stays hact hwas
        rw [hkind] at hcaller
        cases hcaller
      | flush =>
        have hflush := (flush_stays hact).mpr hwas
        rw [hkind] at hflush
        cases hflush
    obtain ⟨tr, htr⟩ := ht task hbefore
    obtain ⟨e, r, k, _, _, _, hnext⟩ := htr.step hact
    exact ⟨_, hnext⟩
  · intro n hn task hkind
    obtain ⟨task', rfl, _⟩ := new_workers hact n hn
    cases hkind
    exact ⟨[], history_nil b task⟩
  · obtain ⟨_, _, packet, rfl⟩ := ha
    cases hkind

end Histories

/-! ## 2. What a chunk still owns -/

section Owned

variable {config : BatchingConfig} {display : TransportError → String}
  {pending : List PendingRequest} {tr : Trace BatchSig} {q : Program BatchSig Unit}

theorem ledger_admitted (horders : MapOrders tr) (l : Ledger) : serviceLedger.Admitted l tr := by
  induction tr generalizing l with
  | nil => trivial
  | cons ev tr ih =>
    refine ⟨?_, ih (fun e he => horders e (List.mem_cons_of_mem _ he)) _⟩
    obtain ⟨e, r⟩ := ev
    have hmap := horders _ List.mem_cons_self
    cases e with
    | iterate => exact hmap
    | _ => trivial

/-- The entries a trace has sent on or spawned tasks for. -/
def gone (tr : Trace BatchSig) : List PendingRequest :=
  (sends tr).map Prod.fst ++ (spawns tr).flatMap SpawnedTask.entries

theorem gone_append (tr tr' : Trace BatchSig) :
    (gone (tr ++ tr')).Perm (gone tr ++ gone tr') := by
  unfold gone
  rw [sends_append, spawns_append, List.map_append, List.flatMap_append, List.append_assoc,
    List.append_assoc]
  refine List.Perm.append_left _ ?_
  rw [← List.append_assoc, ← List.append_assoc]
  exact List.perm_append_comm.append_right _

/-- **What a chunk owns and what is gone** is what it was given. -/
theorem chunk_owned (hs : Steps (sendBatchWithRetry config display pending) tr q)
    (horders : MapOrders tr) :
    (serviceLedger.after (.owning pending) tr).owned + (gone tr : Multiset PendingRequest) =
      (pending : Multiset PendingRequest) := by
  induction tr using List.reverseRecOn generalizing q with
  | nil => exact Multiset.add_zero _
  | append_singleton before ev ih =>
    obtain ⟨k, hbefore, _⟩ := steps_before hs
    have horders' := horders.before
    have hprev := ih hbefore horders'
    have hcourse := sendBatchWithRetry_follows.head_record hbefore horders'
    have hledger := (sendBatchWithRetry_ledger config display pending).head hbefore
      (ledger_admitted horders' _)
    rw [Protocol.after_append, Multiset.coe_eq_coe.mpr (gone_append before [ev]),
      ← Multiset.coe_add]
    generalize serviceLedger.after (.owning pending) before = l at hprev hledger ⊢
    obtain ⟨e, r⟩ := ev
    cases e with
    | send p result =>
      show l.owned.erase p + (_ + ({p} : Multiset PendingRequest)) = _
      have hmem : p ∈ l.owned := hledger
      rw [← hprev, ← Multiset.cons_erase hmem, Multiset.erase_cons_head, ← Multiset.singleton_add,
        Multiset.add_comm (gone before : Multiset PendingRequest) {p}, ← Multiset.add_assoc,
        Multiset.add_comm (l.owned.erase p)]
    | spawn task =>
      show l.owned - (task.entries : Multiset PendingRequest) + (_ +
        (gone [⟨.spawn task, r⟩] : Multiset PendingRequest)) = _
      have hle : (task.entries : Multiset PendingRequest) ≤ l.owned := hledger
      have hgone : gone [⟨.spawn task, r⟩] = task.entries := by simp [gone, sends, spawns]
      rw [hgone, ← hprev, Multiset.add_comm _ (task.entries : Multiset PendingRequest),
        ← Multiset.add_assoc, Multiset.sub_add_cancel hle]
    | innerCall | iterate | onBatchRejection | newSemaphore =>
      show l.owned + (_ + (0 : Multiset PendingRequest)) = _
      rw [Multiset.add_zero]
      exact hprev
    | _ => exact hcourse.elim

theorem delivered_unanswered (entries : List PendingRequest) (responses : List Response) :
    ((delivered entries responses).map Prod.fst ++ unanswered entries responses).Perm entries := by
  induction entries with
  | nil => exact .refl _
  | cons p rest ih =>
    unfold delivered unanswered at ih ⊢
    rw [List.filterMap_cons, List.filter_cons]
    by_cases hid : p.request.id ∈ responses.map Response.id
    · obtain ⟨response, hresponse, hsame⟩ := List.mem_map.mp hid
      cases hfind : responses.find? fun r => r.id = p.request.id with
      | none =>
        rw [List.find?_eq_none] at hfind
        exact absurd (decide_eq_true hsame) (hfind response hresponse)
      | some found =>
        rw [if_neg (by simpa using hid)]
        exact ih.cons p
    · have hnone : (responses.find? fun r => r.id = p.request.id) = none := by
        rw [List.find?_eq_none]
        intro response hresponse hsame
        exact hid (of_decide_eq_true hsame ▸ List.mem_map_of_mem hresponse)
      rw [hnone, if_pos (by simpa using hid)]
      exact List.perm_middle.trans (ih.cons p)

/-- What is due and what is outstanding are all of the chunk. -/
theorem course_complete (display : TransportError → String) (pending : List PendingRequest)
    (replies : List RpcResult) :
    ((chunkSends display pending replies).map Prod.fst ++
      outstandingAfter (survivors pending) replies).Perm pending := by
  have hfailures : ∀ err entries, (failures err entries).map Prod.fst = entries := by
    intro err entries
    rw [failures, List.map_map]
    exact List.map_id _
  have hhanded : ∀ entries reply, ((handed display entries reply).map Prod.fst ++
      remaining entries reply).Perm entries := by
    intro entries reply
    cases reply with
    | ok packet => exact delivered_unanswered entries _
    | error err =>
      show ((failures _ entries).map Prod.fst ++ []).Perm entries
      rw [List.append_nil, hfailures]
  have hroutes : ∀ entries, ((routes display entries replies).map Prod.fst ++
      outstandingAfter entries replies).Perm entries := by
    induction replies with
    | nil => exact fun entries => .refl _
    | cons reply rest ih =>
      intro entries
      rw [routes, List.map_append, List.append_assoc]
      exact ((ih (remaining entries reply)).append_left _).trans (hhanded entries reply)
  unfold chunkSends
  rw [List.map_append, hfailures, List.append_assoc]
  exact ((hroutes (survivors pending)).append_left _).trans (perm_earlier_lasts _ pending)

/-- **While nothing was spawned, what a chunk owns is what is outstanding**, once everything due
    has been sent. -/
theorem owned_eq_stillOut (hs : Steps (sendBatchWithRetry config display pending) tr q)
    (horders : MapOrders tr) (hdue : Due display pending tr []) (hspawns : spawns tr = []) :
    (serviceLedger.after (.owning pending) tr).owned =
      (stillOut pending tr : Multiset PendingRequest) := by
  have howned := chunk_owned hs horders
  have hcourse := course_complete display pending (batchReplies tr)
  unfold Due at hdue
  rw [List.append_nil] at hdue
  have hgone : gone tr = (sends tr).map Prod.fst := by
    unfold gone
    rw [hspawns]
    exact List.append_nil _
  have hall := Multiset.coe_eq_coe.mpr (((hdue.map Prod.fst).append_right _).trans hcourse)
  rw [← Multiset.coe_add, Multiset.add_comm] at hall
  rw [hgone] at howned
  exact Multiset.add_left_inj.mp (howned.trans hall.symm)

end Owned

/-! ## 3. Single requests -/

section Singles

variable {tr : Trace BatchSig} {p : PendingRequest}

/-- The results of the inner calls of a trace. -/
def innerResults (tr : Trace BatchSig) : List RpcResult :=
  tr.filterMap fun
    | ⟨.innerCall _, result⟩ => some result
    | _ => none

/-- Nothing but a permit was acquired. -/
def OnlyAcquires (tr : Trace BatchSig) : Prop := ∀ ev ∈ tr, ∃ semaphore, ev.op = .acquire semaphore

theorem innerResults_of_acquires (h : OnlyAcquires tr) : innerResults tr = [] := by
  refine List.filterMap_eq_nil_iff.mpr fun ev hev => ?_
  obtain ⟨semaphore, hop⟩ := h ev hev
  obtain ⟨e, r⟩ := ev
  obtain rfl := hop
  rfl

/-- Then a task owns what it was given. -/
theorem owned_of_acquires {l : Ledger} (h : OnlyAcquires tr) :
    (serviceLedger.after l tr).owned = l.owned := by
  induction tr generalizing l with
  | nil => rfl
  | cons ev tr ih =>
    rw [Protocol.after_cons, ih fun e he => h e (List.mem_cons_of_mem _ he)]
    obtain ⟨semaphore, hop⟩ := h ev List.mem_cons_self
    obtain ⟨e, r⟩ := ev
    obtain rfl := hop
    rfl

/-- What a task for one request may do after a trace: one call, and then its result is sent. -/
def singleProtocol (p : PendingRequest) : Protocol BatchSig (Trace BatchSig) :=
  recordProtocol MapOrder fun h e =>
    match e with
    | .innerCall packet => packet = .single p.request ∧ OnlyAcquires h
    | .send q result => q = p ∧ innerResults h = [result]
    | .acquire _ | .release _ => True
    | _ => False

theorem sendSingle_follows {h : Trace BatchSig} (hacquires : OnlyAcquires h) :
    (sendSingle p).Follows (singleProtocol p) h fun _ _ => True := by
  refine ⟨⟨rfl, hacquires⟩, fun result _ => ⟨⟨rfl, ?_⟩, fun _ _ => trivial⟩⟩
  show innerResults (h ++ [_]) = [result]
  have hnone := innerResults_of_acquires hacquires
  unfold innerResults at hnone ⊢
  rw [List.filterMap_append, hnone]
  rfl

theorem sendIndividually_follows (semaphore : Nat) :
    (sendIndividually semaphore p).Follows (singleProtocol p) [] fun _ _ => True := by
  refine ⟨trivial, fun _ _ => (sendSingle_follows ?_).bind fun _ _ _ => ⟨trivial, fun _ _ =>
    trivial⟩⟩
  intro ev hev
  rw [List.mem_singleton.mp hev]
  exact ⟨semaphore, rfl⟩

end Singles

/-! ## 4. Inner calls -/

section Calls

variable {b : BatchingTransport} {task : SpawnedTask} {tr : Trace BatchSig} {t : BatchTask}

/-- The two kinds of spawned tasks: a chunk, and a task for one request. -/
theorem worker_cases (config : BatchingConfig) (display : TransportError → String)
    (task : SpawnedTask) : (∃ pending, task = .chunk pending) ∨ ∃ p, task.entries = [p] ∧
      (task.program config display).Follows (singleProtocol p) [] fun _ _ => True := by
  cases task with
  | single p => exact Or.inr ⟨p, rfl, sendSingle_follows (List.forall_mem_nil _)⟩
  | individual semaphore p => exact Or.inr ⟨p, rfl, sendIndividually_follows semaphore⟩
  | chunk pending => exact Or.inl ⟨pending, rfl⟩

/-- **An inner call carries the requests its task owns.** -/
theorem packet_owned (h : History b task tr t) {packet : RequestPacket}
    {k : RpcResult → Program BatchSig TaskEnd} (hrest : t.rest = .op (.innerCall packet) k) :
    t.ledger.owned.map PendingRequest.request = (packet.requests : Multiset SerializedRequest) := by
  obtain ⟨k', hs⟩ := h.program_op hrest
  rcases worker_cases b.config.toBatchingConfig b.display task with ⟨pending, rfl⟩ |
    ⟨p, hentries, hfollows⟩
  · have hmay : MayCall b.config.toBatchingConfig b.display pending tr packet :=
      sendBatchWithRetry_follows.head_record hs h.orders
    obtain ⟨reqs, rfl, _, hperm⟩ := hmay.carries
    have howned := owned_eq_stillOut hs h.orders hmay.standing.sent hmay.unspawned
    rw [h.ledger]
    show Multiset.map _ (serviceLedger.after (.owning pending) tr).owned = _
    rw [howned]
    exact (Multiset.coe_eq_coe.mpr hperm).symm
  · obtain ⟨rfl, hacquires⟩ := hfollows.head_record hs h.orders
    rw [h.ledger, owned_of_acquires hacquires, hentries]
    rfl

end Calls

end TransportBalancer.Batching
