/-
  File:      TransportBalancer/Batching/Ledger.lean
  Subject:   WHAT THE TASKS OF A BATCHING TRANSPORT OWN. Every program moves, sends on or hands over
             the entries it owns, gives back its `Arc` and its permits, and ends owning nothing.

  * `ledgerProtocol` -- what a task must own to send, spawn, acquire or release;
  * `sendBatchWithRetry_ledger` -- a chunk: colliding ids, matched and missing responses,
    rejections, errors and both fall-backs, whatever the inner service answers;
  * `callerTask_ledger`, `flushProgram_ledger`, `workerTask_ledger` -- the three kinds of tasks;
  * **`batchTask_ok`** -- on every reachable pool every task keeps its ledger.
-/
import TransportBalancer.Batching.System

namespace TransportBalancer.Batching

open Interaction TaskPool

/-! ## 1. Programs keep their ledgers -/

/-- The ledger of a task that owns entries and nothing else. -/
def Ledger.owning (owned : Multiset PendingRequest) : Ledger := ⟨owned, 0, 0⟩

/-- The ledger of a caller. -/
def Ledger.oneArc : Ledger := ⟨0, 1, 0⟩

/-- **The ledger protocol**: a task sends on and moves out only entries it owns; only a caller
    queues, notifies and waits for answers, owning its `Arc` and nothing else; a permit is acquired
    by a task without one. -/
def ledgerProtocol (caller : Bool) : Protocol BatchSig Ledger where
  ok l e :=
    match e with
    | .enqueue _ | .notifyOne | .awaitResponse _ => caller = true ∧ l = .oneArc
    | .spawn task => (task.entries : Multiset PendingRequest) ≤ l.owned
    | .send p _ => p ∈ l.owned
    | .dropShared => 0 < l.arcs
    | .newSemaphore permits => permits = individualFallbackConcurrency
    | .acquire _ => l.permits = 0
    | .release semaphore => l.permits = {semaphore}
    | _ => True
  admits _ e r :=
    match e, r with
    | .iterate entries, order => order.Perm entries
    | _, _ => True
  next l e r := l.next e r

/-- The ledger protocol of the flush task and the spawned tasks. -/
abbrev serviceLedger : Protocol BatchSig Ledger := ledgerProtocol false

/-- The ledger protocol of callers. -/
abbrev callerLedger : Protocol BatchSig Ledger := ledgerProtocol true

section Ledgers

variable {α : Type}

/-- The order of what a task owns does not matter. -/
theorem owning_perm {l l' : List PendingRequest} (h : l.Perm l') :
    Ledger.owning (l : Multiset PendingRequest) = .owning l' :=
  congrArg Ledger.owning (Multiset.coe_eq_coe.mpr h)

/-- Sending uses up one owned entry. -/
theorem send_ledger {p : PendingRequest} {l : List PendingRequest} {result : RpcResult}
    {k : Unit → Program BatchSig α} {Q : Ledger → α → Prop}
    (h : (k ()).Follows serviceLedger (.owning l) Q) :
    (Program.op (.send p result) k : Program BatchSig α).Follows serviceLedger
      (.owning (p :: l : List PendingRequest)) Q := by
  refine ⟨Multiset.mem_cons_self p l, fun r _ => ?_⟩
  have e : serviceLedger.next (.owning (p :: l : List PendingRequest)) (.send p result) r =
      .owning l := Ledger.ext (Multiset.erase_cons_head p l) rfl rfl
  rw [e]
  exact h

/-- Spawning moves the task's entries out. -/
theorem spawn_ledger {task : SpawnedTask} {l : List PendingRequest}
    {k : Unit → Program BatchSig α} {Q : Ledger → α → Prop}
    (h : (k ()).Follows serviceLedger (.owning l) Q) :
    (Program.op (.spawn task) k : Program BatchSig α).Follows serviceLedger
      (.owning (task.entries ++ l : List PendingRequest)) Q := by
  refine ⟨Multiset.coe_le.mpr (List.sublist_append_left _ _).subperm, fun r _ => ?_⟩
  have hsub : ((task.entries ++ l : List PendingRequest) : Multiset PendingRequest) -
      (task.entries : Multiset PendingRequest) = l := by
    rw [← Multiset.coe_add, Multiset.add_comm, Multiset.add_sub_cancel_right]
  have e : serviceLedger.next (.owning (task.entries ++ l : List PendingRequest)) (.spawn task) r =
      .owning l := Ledger.ext hsub rfl rfl
  rw [e]
  exact h

theorem sendSingle_ledger (p : PendingRequest) (permits : Multiset Nat) :
    (sendSingle p).Follows serviceLedger ⟨{p}, 0, permits⟩ fun l _ => l = ⟨0, 0, permits⟩ :=
  ⟨trivial, fun _ _ => ⟨Multiset.mem_singleton_self p, fun _ _ =>
    Ledger.ext (Multiset.erase_singleton p) rfl rfl⟩⟩

theorem sendIndividually_ledger (semaphore : Nat) (p : PendingRequest) :
    (sendIndividually semaphore p).Follows serviceLedger (.owning {p}) fun l _ => l = .nothing := by
  refine ⟨rfl, fun _ _ => (sendSingle_ledger p (semaphore ::ₘ 0)).bind ?_⟩
  intro l _ heq
  obtain rfl := heq
  exact ⟨rfl, fun _ _ => Ledger.ext rfl rfl (Multiset.erase_cons_head semaphore 0)⟩

/-- Building the map: what it does not take in it fails. -/
theorem insertAll_ledger (pending : List PendingRequest) (o : Outstanding) :
    (insertAll pending o).Follows serviceLedger
      (.owning (pending ++ o.values : List PendingRequest)) fun l o' => l = .owning o'.values := by
  induction pending generalizing o with
  | nil => exact rfl
  | cons p rest ih =>
    have hperm : (p :: rest ++ o.values).Perm
        ((o.insert p).1.toList ++ (rest ++ (o.insert p).2.values)) := by
      refine List.perm_middle.symm.trans (((o.insert_perm p).append_left rest).trans ?_)
      rw [← List.append_assoc, ← List.append_assoc]
      exact List.perm_append_comm.append_right _
    rw [owning_perm hperm]
    unfold insertAll
    split
    · rename_i prev o' h
      rw [h]
      exact send_ledger (ih o')
    · rename_i o' h
      rw [h]
      exact ih o'

/-- Spawning one task for each entry moves all of them out. -/
theorem spawnAll_ledger (semaphore : Nat) (entries : List PendingRequest) :
    (spawnAll semaphore entries).Follows serviceLedger (.owning entries)
      fun l _ => l = .nothing := by
  induction entries with
  | nil => exact rfl
  | cons p rest ih => exact @spawn_ledger _ (.individual semaphore p) rest _ _ ih

theorem fallBack_ledger (o : Outstanding) :
    (fallBack o).Follows serviceLedger (.owning o.values) fun l _ => l = .nothing := by
  refine ⟨rfl, fun semaphore _ => ⟨trivial, fun entries hentries => ?_⟩⟩
  show (spawnAll semaphore entries).Follows serviceLedger (.owning o.values) _
  rw [← owning_perm hentries]
  exact spawnAll_ledger semaphore entries

/-- Matching a reply: an answered entry leaves the map and is used up. -/
theorem matchResponses_ledger (responses : List Response) (o : Outstanding) :
    (matchResponses responses o).Follows serviceLedger (.owning o.values)
      fun l o' => l = .owning o'.values := by
  induction responses generalizing o with
  | nil => exact rfl
  | cons response rest ih =>
    rw [owning_perm (o.remove_perm response.id)]
    unfold matchResponses
    split
    · rename_i p o' h
      rw [h]
      exact send_ledger (ih o')
    · rename_i o' h
      rw [h]
      exact ih o'

theorem failAll_ledger (msg : String) (entries : List PendingRequest) :
    (failAll msg entries).Follows serviceLedger (.owning entries) fun l _ => l = .nothing := by
  induction entries with
  | nil => exact rfl
  | cons p rest ih => exact send_ledger ih

/-- **THE LOOP INVARIANT OF A CHUNK**: it owns the entries of its map, and every way out of the loop
    sends on or moves out all of them. -/
theorem attempts_ledger (config : BatchingConfig) (display : TransportError → String)
    (o : Outstanding) :
    (attempts config display (config.maxMissingRetries + 1) 0 o).Follows serviceLedger
      (.owning o.values) fun l _ => l = .nothing := by
  refine attempts_rule (I := fun _ o l => l = Ledger.owning o.values)
    (Q := fun l => l = Ledger.nothing) ?_ ?_ ?_ _ (Nat.zero_add _) rfl
  · rintro _ o _ rfl hempty
    rw [hempty]
    rfl
  · rintro o _ rfl
    exact fallBack_ledger o
  · rintro attempt o _ rfl _ _
    refine ⟨trivial, fun entries _ => ⟨trivial, fun reply _ => ?_⟩⟩
    cases reply with
    | ok resp =>
      refine (matchResponses_ledger (replyResponses resp) o).mono ?_
      rintro _ o' rfl
      refine ⟨fun _ => rfl, fun _ =>
        rejectBatch_rule (fun _ => ⟨trivial, fun _ _ => ?_⟩) fun _ => ?_⟩
      · exact fallBack_ledger o'
      · exact fallBack_ledger o'
    | error err =>
      refine ⟨trivial, fun entries hentries => ?_⟩
      show (failAll _ entries).Follows serviceLedger (.owning o.values) _
      rw [← owning_perm hentries]
      exact failAll_ledger _ entries

theorem sendBatchWithRetry_ledger (config : BatchingConfig) (display : TransportError → String)
    (pending : List PendingRequest) :
    (sendBatchWithRetry config display pending).Follows serviceLedger (.owning pending)
      fun l _ => l = .nothing := by
  have hinsert := insertAll_ledger pending .empty
  rw [show (Outstanding.empty).values = [] from rfl, List.append_nil] at hinsert
  refine hinsert.bind ?_
  intro l o heq
  obtain rfl := heq
  exact attempts_ledger config display o

/-- **A spawned task** starts with the entries moved into it and ends owning nothing. -/
theorem workerTask_ledger (b : BatchingTransport) (task : SpawnedTask) :
    (workerTask b task).rest.Follows serviceLedger (.owning task.entries)
      fun l _ => l = .nothing := by
  have hprogram : (task.program b.config.toBatchingConfig b.display).Follows serviceLedger
      (.owning task.entries) fun l _ => l = .nothing := by
    cases task with
    | single p => exact sendSingle_ledger p 0
    | chunk pending => exact sendBatchWithRetry_ledger _ _ pending
    | individual semaphore p => exact sendIndividually_ledger semaphore p
  exact hprogram.bind fun _ _ h => h

theorem chunkTask_entries (chunk : List PendingRequest) : (chunkTask chunk).entries = chunk := by
  match chunk with
  | [] | [_] | _ :: _ :: _ => rfl

/-- The chunks of a drained queue are all of it. -/
theorem dispatch_ledger (config : RunningConfig) (fuel : Nat) :
    ∀ remaining : List PendingRequest, remaining.length ≤ fuel →
      (dispatch config fuel remaining).Follows serviceLedger (.owning remaining)
        fun l _ => l = .nothing := by
  induction fuel with
  | zero =>
    intro remaining h
    rw [List.length_eq_zero_iff.mp (Nat.le_zero.mp h)]
    exact rfl
  | succ fuel ih =>
    intro remaining h
    unfold dispatch
    split
    · rename_i hempty
      rw [hempty]
      exact rfl
    · rename_i hne
      have hpos := config.maxBatchSize_pos
      have hlen := List.length_pos_iff.mpr hne
      have hsplit : Ledger.owning (remaining : Multiset PendingRequest) = .owning
          ((chunkTask (remaining.take (min remaining.length config.maxBatchSize))).entries ++
            remaining.drop (min remaining.length config.maxBatchSize) : List PendingRequest) := by
        rw [chunkTask_entries, List.take_append_drop]
      rw [hsplit]
      refine spawn_ledger (ih _ ?_)
      rw [List.length_drop]
      omega

/-- **A turn of the flush loop** starts and ends owning nothing. -/
theorem flushProgram_ledger (b : BatchingTransport) :
    (flushProgram b).Follows serviceLedger .nothing fun l _ => l = .nothing := by
  have hturn : (flushTurn b.config).Follows serviceLedger .nothing fun l _ => l = .nothing := by
    refine ⟨trivial, fun up _ => ?_⟩
    cases up with
    | false => exact rfl
    | true =>
      refine ⟨trivial, fun since _ => ⟨trivial, fun _ _ => ⟨trivial, fun batch _ => ?_⟩⟩⟩
      refine ⟨Nat.one_pos, fun _ _ => ?_⟩
      have e : (⟨0 + (batch : Multiset PendingRequest), 0, 0⟩ : Ledger) = .owning batch :=
        Ledger.ext (Multiset.zero_add _) rfl rfl
      show (dispatch b.config batch.length batch >>= fun _ => pure Turn.again).Follows serviceLedger
        (⟨0 + (batch : Multiset PendingRequest), 0, 0⟩ : Ledger) _
      rw [e]
      exact (dispatch_ledger b.config batch.length batch (Nat.le_refl _)).bind fun _ _ h => h
  exact hturn.bind fun _ _ h => h

/-- **A caller** owns its `Arc` while it queues and waits, and gives it back at the end. -/
theorem callerTask_ledger (packet : RequestPacket) :
    (callerTask packet).rest.Follows callerLedger .oneArc fun l _ => l = .nothing := by
  have hcollect : ∀ receivers responses, (collectResponses receivers responses).Follows
      callerLedger .oneArc fun l _ => l = .oneArc := by
    intro receivers
    induction receivers with
    | nil => exact fun _ => rfl
    | cons rx receivers ih =>
      intro responses
      refine ⟨⟨rfl, rfl⟩, fun answer _ => ?_⟩
      rcases answer with _ | (_ | (_ | _))
      · exact rfl
      · exact rfl
      · exact ih _
      · exact ih _
  have hreceive : ∀ first, (receive packet first).Follows callerLedger .oneArc
      fun l _ => l = .oneArc := by
    intro first
    cases packet with
    | single => exact ⟨⟨rfl, rfl⟩, fun _ _ => rfl⟩
    | batch => exact hcollect _ _
  have hcall : (call packet).Follows callerLedger .oneArc fun l _ => l = .nothing := by
    refine ⟨⟨rfl, rfl⟩, fun first _ => ⟨⟨rfl, rfl⟩, fun _ _ => ?_⟩⟩
    refine (hreceive first).bind ?_
    intro l result heq
    obtain rfl := heq
    exact ⟨Nat.one_pos, fun _ _ => rfl⟩
  exact hcall.bind fun _ _ h => h

end Ledgers

/-! ## 2. Tasks keep their ledgers -/

def TaskKind.isCaller : TaskKind → Bool
  | .caller _ _ => true
  | _ => false

theorem caller_kind {kind : TaskKind} (h : kind.isCaller = true) :
    ∃ packet receivers, kind = .caller packet receivers := by
  cases kind with
  | caller packet receivers => exact ⟨packet, receivers, rfl⟩
  | flush | worker => cases h

@[simp] theorem isCaller_next (kind : TaskKind) (e : BatchOp) (r : BatchSig.Ans e) :
    (kind.next e r).isCaller = kind.isCaller := by
  cases e <;> cases kind <;> rfl

/-- **The task invariant**: the rest of its program keeps the ledger protocol from its ledger and
    ends owning nothing. -/
def BatchTask.Ok (t : BatchTask) : Prop :=
  t.rest.Follows (ledgerProtocol t.kind.isCaller) t.ledger fun l _ => l = .nothing

theorem iterate_admitted {b : BatchingTransport} {s s' : BatchingShared} {e : BatchOp}
    {r : BatchSig.Ans e} (h : Effect b s e r s') (caller : Bool) (l : Ledger) :
    (ledgerProtocol caller).admits l e r := by
  cases e with
  | iterate => exact h.1
  | _ => exact trivial

theorem droppable_ledger {e : BatchOp} (he : e.droppable = true) {caller : Bool} {l : Ledger}
    (h : (ledgerProtocol caller).ok l e) : caller = true ∧ l = .oneArc := by
  cases e with
  | enqueue | awaitResponse => exact h
  | _ => cases he

theorem batchTask_ok_step {b : BatchingTransport} {s s' : BatchingShared} {t t' : BatchTask}
    {new : List BatchTask} (ht : t.Ok) (hs : t.Step b s s' t' new) :
    t'.Ok ∧ ∀ n ∈ new, n.Ok := by
  unfold BatchTask.Ok at ht
  cases hs with
  | @effect e k r _ hrest heff =>
    rw [hrest] at ht
    refine ⟨?_, fun n hn => ?_⟩
    · unfold BatchTask.Ok
      rw [isCaller_next]
      exact ht.2 r (iterate_admitted heff _ _)
    · cases e with
      | spawn task =>
        rw [List.mem_singleton.mp hn]
        exact workerTask_ledger b task
      | _ => exact absurd hn List.not_mem_nil
  | turn hkind hrest =>
    rw [hrest] at ht
    refine ⟨?_, nofun⟩
    unfold BatchTask.Ok
    rw [hkind, show t.ledger = .nothing from ht]
    exact flushProgram_ledger b
  | cancel hkind hrest hdrop =>
    rw [hrest] at ht
    refine ⟨?_, nofun⟩
    show ({ t.ledger with arcs := t.ledger.arcs - 1 } : Ledger) = .nothing
    rw [(droppable_ledger hdrop ht.1).2]
    rfl

/-- **On every reachable pool every task keeps its ledger.** -/
theorem batchTask_ok {b : BatchingTransport} {p : Pool BatchingShared BatchTask}
    (hr : (batchSystem b).Reachable (BatchStart b) p) : ∀ t ∈ p.tasks, t.Ok := by
  refine System.Reachable.taskInv (fun p hp t ht => ?_) batchTask_ok_step (fun ha => ?_) hr
  · rw [hp.only_flush ht]
    exact flushProgram_ledger b
  · obtain ⟨_, _, packet, rfl⟩ := ha
    exact callerTask_ledger packet

end TransportBalancer.Batching
