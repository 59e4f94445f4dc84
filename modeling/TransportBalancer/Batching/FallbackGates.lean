/-
  File:      TransportBalancer/Batching/FallbackGates.lean
  Subject:   HOW MANY CALLS THE INDIVIDUAL FALL-BACK HAS IN FLIGHT: each chunk that falls back makes
             a gate of its own, and the calls under one gate are limited.

  * `fallbackGate` -- the gate of a fall-back call in flight; **`gate_limits`** -- so many under
    one gate;
  * `gateProtocol`, `sendBatchWithRetry_gates` -- a chunk makes at most one gate and sends all its
    fall-back through it;
  * `LoggedTask`, `loggedBatch` -- the tasks with what they have done, so that a gate has an owner;
  * **`fallback_limited`** -- the limit holds for each chunk, and for the transport as often as
    chunks have fallen back; `fallbacks_add_up` -- and no better.
-/
import Mathlib.Algebra.BigOperators.Ring.List
import Mathlib.Algebra.Ring.Nat
import TransportBalancer.Batching.Budgets
import TransportBalancer.Batching.Histories
import TransportBalancer.Batching.Schedule

namespace TransportBalancer.Batching

open Interaction TaskPool

/-! ## 1. Calls under a gate -/

/-- **The gate of a fall-back call in flight**: the task has its permit and waits for the reply of
    the inner service. -/
def BatchTask.fallbackGate (t : BatchTask) : Option Nat :=
  match t.kind, t.rest with
  | .worker (.individual gate _), .op (.innerCall _) _ => some gate
  | _, _ => none

/-- One for a fall-back call in flight. -/
def BatchTask.fallbackCalls (t : BatchTask) : Nat := if t.fallbackGate.isSome then 1 else 0

/-- One for a fall-back call in flight under one of the gates. -/
def BatchTask.callsUnder (gates : List Nat) (t : BatchTask) : Nat :=
  if ∃ gate ∈ gates, t.fallbackGate = some gate then 1 else 0

theorem fallbackGate_eq_some {t : BatchTask} {gate : Nat} (h : t.fallbackGate = some gate) :
    ∃ p packet k, t.kind = .worker (.individual gate p) ∧ t.rest = .op (.innerCall packet) k := by
  unfold BatchTask.fallbackGate at h
  split at h
  · rename_i gate' p packet k hkind hrest
    cases h
    exact ⟨p, packet, k, hkind, hrest⟩
  · cases h

/-- A call is made with the permit of the gate in hand. -/
def permitFirst (gate : Nat) : Protocol BatchSig Ledger where
  ok l e :=
    match e with
    | .innerCall _ => gate ∈ l.permits
    | _ => True
  admits _ _ _ := True
  next l e r := l.next e r

theorem sendIndividually_permit (gate : Nat) (p : PendingRequest) (l : Ledger) :
    (sendIndividually gate p).Follows (permitFirst gate) l fun _ _ => True :=
  ⟨trivial, fun _ _ => ⟨Multiset.mem_cons_self gate l.permits, fun _ _ => ⟨trivial, fun _ _ =>
    ⟨trivial, fun _ _ => trivial⟩⟩⟩⟩

section Gates

variable {b : BatchingTransport} {p : Pool BatchingShared BatchTask}

theorem permit_held (hr : (batchSystem b).Reachable (BatchStart b) p) {t : BatchTask}
    (ht : t ∈ p.tasks) {gate : Nat} (h : t.fallbackGate = some gate) : gate ∈ t.ledger.permits := by
  obtain ⟨q, packet, k, hkind, hrest⟩ := fallbackGate_eq_some h
  obtain ⟨tr, hhistory⟩ := worker_history hr t ht _ hkind
  obtain ⟨k', hs⟩ := hhistory.program_op hrest
  rw [hhistory.ledger]
  exact (sendIndividually_permit gate q _).head hs
    (Protocol.admitted_of_free (fun _ _ _ => trivial) tr _)

/-- **At most `INDIVIDUAL_FALLBACK_CONCURRENCY` calls are in flight under one gate.** -/
theorem gate_limits (hr : (batchSystem b).Reachable (BatchStart b) p) (gate : Nat) :
    p.total (BatchTask.callsUnder [gate]) ≤ individualFallbackConcurrency := by
  have hpermits := permits_conserved hr gate
  have hheld : p.total (BatchTask.callsUnder [gate]) ≤
      p.total fun t => t.ledger.permits.count gate := by
    refine total_mono fun t ht => ?_
    unfold BatchTask.callsUnder
    split
    · rename_i h
      obtain ⟨_, hgate, hcall⟩ := h
      rw [List.mem_singleton.mp hgate] at hcall
      exact Multiset.count_pos.mpr (permit_held hr ht hcall)
    · exact Nat.zero_le _
  have hcapacity : p.shared.capacity gate ≤ individualFallbackConcurrency := by
    unfold BatchingShared.capacity
    split
    · exact Nat.le_refl _
    · exact Nat.zero_le _
  omega

end Gates

/-! ## 2. The gates of a task -/

/-- The gates a trace has made. -/
def gatesOf (tr : Trace BatchSig) : List Nat :=
  tr.filterMap fun
    | ⟨.newSemaphore _, gate⟩ => some gate
    | _ => none

@[simp] theorem gatesOf_append (tr tr' : Trace BatchSig) :
    gatesOf (tr ++ tr') = gatesOf tr ++ gatesOf tr' := List.filterMap_append

def SpawnedTask.isChunk : SpawnedTask → Bool
  | .chunk _ => true
  | _ => false

def TaskKind.isChunk : TaskKind → Bool
  | .worker task => task.isChunk
  | _ => false

/-- **Gates**: only a chunk makes one, and only one; a fall-back task is spawned under a gate the
    task has made. -/
def gateProtocol (chunk : Bool) : Protocol BatchSig (List Nat) where
  ok gates e :=
    match e with
    | .newSemaphore _ => chunk = true ∧ gates = []
    | .spawn task => ∀ gate p, task = .individual gate p → gate ∈ gates
    | _ => True
  admits _ _ _ := True
  next gates e r := gates ++ gatesOf [⟨e, r⟩]

/-- The effects that make a gate or spawn a task. -/
def BatchOp.onGates : BatchOp → Bool
  | .newSemaphore _ | .spawn _ => true
  | _ => false

/-- A program that does neither. -/
abbrev KeepsGates {α : Type} (p : Program BatchSig α) : Prop :=
  p.Performs fun e : BatchOp => e.onGates = false

section Programs

variable {chunk : Bool} {gates : List Nat} {α : Type}

/-- What does neither keeps the gates. -/
theorem quiet_gates {p : Program BatchSig α} (h : KeepsGates p) :
    p.Follows (gateProtocol chunk) gates fun gates' _ => gates' = gates := by
  refine Program.Performs.follows (fun e he => ?_) (fun e r he => ?_) h
  · cases e with
    | newSemaphore | spawn => cases he
    | _ => exact trivial
  · cases e with
    | newSemaphore | spawn => cases he
    | _ => exact List.append_nil gates

theorem insertAll_quiet (pending : List PendingRequest) (o : Outstanding) :
    KeepsGates (insertAll pending o) := by
  induction pending generalizing o with
  | nil => exact trivial
  | cons p rest ih =>
    unfold insertAll
    split
    · exact ⟨rfl, fun _ _ => ih _⟩
    · exact ih _

theorem matchResponses_quiet (responses : List Response) (o : Outstanding) :
    KeepsGates (matchResponses responses o) := by
  induction responses generalizing o with
  | nil => exact trivial
  | cons response rest ih =>
    unfold matchResponses
    split
    · exact ⟨rfl, fun _ _ => ih _⟩
    · exact ih _

theorem failAll_quiet (msg : String) (entries : List PendingRequest) :
    KeepsGates (failAll msg entries) := by
  induction entries with
  | nil => exact trivial
  | cons p rest ih => exact ⟨rfl, fun _ _ => ih⟩

theorem spawnAll_gates {gate : Nat} (hgate : gate ∈ gates) (entries : List PendingRequest) :
    (spawnAll gate entries).Follows (gateProtocol chunk) gates fun _ _ => True := by
  induction entries with
  | nil => exact trivial
  | cons p rest ih =>
    refine ⟨fun gate' p' h => ?_, fun _ _ => ?_⟩
    · cases h
      exact hgate
    · rw [show (gateProtocol chunk).next gates (.spawn (.individual gate p)) _ = gates from
        List.append_nil gates]
      exact ih

/-- **The fall-back makes one gate** and spawns all its tasks under it. -/
theorem fallBack_gates (o : Outstanding) :
    (fallBack o).Follows (gateProtocol true) [] fun _ _ => True :=
  ⟨⟨rfl, rfl⟩, fun gate _ => ⟨trivial, fun entries _ =>
    spawnAll_gates (List.mem_singleton_self gate) entries⟩⟩

/-- **The loop over the attempts** makes no gate before it falls back. -/
theorem attempts_gates (config : BatchingConfig) (display : TransportError → String)
    (o : Outstanding) : (attempts config display (config.maxMissingRetries + 1) 0 o).Follows
      (gateProtocol true) [] fun _ _ => True := by
  refine attempts_rule (I := fun _ _ gates => gates = []) (Q := fun _ => True)
    (fun _ _ _ _ _ => trivial) ?_ ?_ _ (Nat.zero_add _) rfl
  · rintro o _ rfl
    exact fallBack_gates o
  · rintro attempt o _ rfl _ _
    refine ⟨trivial, fun entries _ => ⟨trivial, fun reply _ => ?_⟩⟩
    cases reply with
    | ok resp =>
      refine (quiet_gates (matchResponses_quiet (replyResponses resp) o)).mono ?_
      rintro _ o' rfl
      refine ⟨fun _ => rfl, fun _ =>
        rejectBatch_rule (fun _ => ⟨trivial, fun _ _ => ?_⟩) fun _ => ?_⟩
      · exact fallBack_gates o'
      · exact fallBack_gates o'
    | error err =>
      exact ⟨trivial, fun entries _ =>
        (quiet_gates (failAll_quiet _ entries)).mono fun _ _ _ => trivial⟩

/-- **Every spawned task** keeps to the protocol, from no gate on. -/
theorem workerTask_gates (b : BatchingTransport) (task : SpawnedTask) :
    (workerTask b task).rest.Follows (gateProtocol task.isChunk) [] fun _ _ => True := by
  have hprogram : (task.program b.config.toBatchingConfig b.display).Follows
      (gateProtocol task.isChunk) [] fun _ _ => True := by
    cases task with
    | single p => exact ⟨trivial, fun _ _ => ⟨trivial, fun _ _ => trivial⟩⟩
    | individual gate p =>
      exact ⟨trivial, fun _ _ => ⟨trivial, fun _ _ => ⟨trivial, fun _ _ => ⟨trivial, fun _ _ =>
        trivial⟩⟩⟩⟩
    | chunk pending =>
      refine (quiet_gates (insertAll_quiet pending .empty)).bind ?_
      rintro _ o rfl
      exact attempts_gates _ _ o
  exact hprogram.bind fun _ _ _ => trivial

theorem dispatch_gates (config : RunningConfig) (fuel : Nat) :
    ∀ remaining, (dispatch config fuel remaining).Follows (gateProtocol chunk) gates
      fun _ _ => True := by
  induction fuel with
  | zero => exact fun _ => trivial
  | succ fuel ih =>
    intro remaining
    unfold dispatch
    split
    · exact trivial
    · refine ⟨fun gate p h => ?_, fun _ _ => ?_⟩
      · -- a chunk of one goes as a `single`
        unfold chunkTask at h
        split at h <;> cases h
      · rw [show (gateProtocol chunk).next gates (.spawn _) _ = gates from List.append_nil gates]
        exact ih _

theorem flushProgram_gates (b : BatchingTransport) :
    (flushProgram b).Follows (gateProtocol chunk) gates fun _ _ => True := by
  have hturn : (flushTurn b.config).Follows (gateProtocol chunk) gates fun _ _ => True := by
    refine ⟨trivial, fun up _ => ?_⟩
    cases up with
    | false => exact trivial
    | true =>
      exact ⟨trivial, fun _ _ => ⟨trivial, fun _ _ => ⟨trivial, fun batch _ => ⟨trivial, fun _ _ =>
        (dispatch_gates b.config batch.length batch).bind fun _ _ _ => trivial⟩⟩⟩⟩
  exact hturn.bind fun _ _ _ => trivial

theorem callerTask_gates (packet : RequestPacket) :
    (callerTask packet).rest.Follows (gateProtocol chunk) gates fun _ _ => True := by
  have hcollect : ∀ receivers responses, KeepsGates (collectResponses receivers responses) := by
    intro receivers
    induction receivers with
    | nil => exact fun _ => trivial
    | cons rx receivers ih =>
      intro responses
      refine ⟨rfl, fun answer _ => ?_⟩
      rcases answer with _ | (_ | (_ | _))
      · exact trivial
      · exact trivial
      · exact ih _
      · exact ih _
  have hreceive : ∀ first, KeepsGates (receive packet first) := by
    intro first
    cases packet with
    | single => exact ⟨rfl, fun _ _ => trivial⟩
    | batch => exact hcollect _ _
  have hcall : KeepsGates (call packet) :=
    ⟨rfl, fun first _ => ⟨rfl, fun _ _ => (hreceive first).bind fun _ => ⟨rfl, fun _ _ =>
      trivial⟩⟩⟩
  exact (quiet_gates hcall).bind fun _ _ _ => trivial

end Programs

/-! ## 3. Tasks with their gates -/

/-- A task with what it has done. -/
structure LoggedTask where
  task : BatchTask
  done : Trace BatchSig

/-- The gates it has made. -/
def LoggedTask.gates (t : LoggedTask) : List Nat := gatesOf t.done

/-- A step of a task, recorded. -/
inductive LoggedTask.Step (b : BatchingTransport) (s : BatchingShared) (t : LoggedTask) :
    BatchingShared → LoggedTask → List LoggedTask → Prop where
  | effect {e : BatchOp} {k : BatchSig.Ans e → Program BatchSig TaskEnd} (r : BatchSig.Ans e)
      {s' : BatchingShared} (hrest : t.task.rest = .op e k) (heff : Effect b s e r s') :
      Step b s t s' ⟨⟨t.task.kind.next e r, k r, t.task.ledger.next e r⟩, t.done ++ [⟨e, r⟩]⟩
        ((spawned b e).map fun n => ⟨n, []⟩)
  | turn (hkind : t.task.kind = .flush) (hrest : t.task.rest = .ret (.turn .again)) :
      Step b s t s ⟨{ t.task with rest := flushProgram b }, t.done⟩ []
  | cancel {packet : RequestPacket} {receivers : List Channel} {e : BatchOp}
      {k : BatchSig.Ans e → Program BatchSig TaskEnd}
      (hkind : t.task.kind = .caller packet receivers) (hrest : t.task.rest = .op e k)
      (hdrop : e.droppable = true) :
      Step b s t s.dropShared ⟨⟨t.task.kind, .ret .cancelled,
        { t.task.ledger with arcs := t.task.ledger.arcs - 1 }⟩, t.done⟩ []

/-- **The tasks of a batching transport, with what they have done.** -/
def loggedBatch (b : BatchingTransport) : System BatchingShared LoggedTask where
  act s t s' t' new := t.Step b s s' t' new
  env s s' := Around s s'
  arrive s s' t := 0 < s.handles ∧ s' = { s with strong := s.strong + 1 } ∧
    ∃ packet, t = ⟨callerTask packet, []⟩

/-- The pool without what the tasks have done. -/
def unlogged (p : Pool BatchingShared LoggedTask) : Pool BatchingShared BatchTask :=
  p.map LoggedTask.task

/-- A transport just made. -/
structure LoggedStart (b : BatchingTransport) (p : Pool BatchingShared LoggedTask) : Prop where
  start : BatchStart b (unlogged p)
  fresh : ∀ t ∈ p.tasks, t.done = []

section Logs

variable {b : BatchingTransport} {p p' : Pool BatchingShared LoggedTask}

theorem LoggedTask.Step.unlogged {s s' : BatchingShared} {t t' : LoggedTask}
    {new : List LoggedTask} (h : t.Step b s s' t' new) :
    t.task.Step b s s' t'.task (new.map LoggedTask.task) := by
  cases h with
  | effect r hrest heff =>
    have h := BatchTask.Step.effect r hrest heff
    rw [List.map_map, show LoggedTask.task ∘ (fun n => (⟨n, []⟩ : LoggedTask)) = id from rfl,
      List.map_id]
    exact h
  | turn hkind hrest => exact .turn hkind hrest
  | cancel hkind hrest hdrop => exact .cancel hkind hrest hdrop

/-- Without the records a reachable pool is reachable, -/
theorem unlogged_reachable (hr : (loggedBatch b).Reachable (LoggedStart b) p) :
    (batchSystem b).Reachable (BatchStart b) (unlogged p) := by
  refine System.Reachable.map (Y := batchSystem b) (g := LoggedTask.task)
    (fun p hp => hp.start) (fun h => LoggedTask.Step.unlogged h) (fun h => h) ?_ hr
  rintro s s' _ ⟨hhandles, rfl, packet, rfl⟩
  exact ⟨hhandles, rfl, packet, rfl⟩

/-- and every reachable pool has its records. -/
theorem logged_reachable {p : Pool BatchingShared BatchTask}
    (hr : (batchSystem b).Reachable (BatchStart b) p) :
    ∃ p', (loggedBatch b).Reachable (LoggedStart b) p' ∧ unlogged p' = p := by
  refine System.Reachable.lift (g := LoggedTask.task) (fun p hp => ?_) ?_ (fun h => h) ?_ hr
  · have hmap : (Pool.mk p.shared [⟨flushTask b, []⟩]).map LoggedTask.task = p := by
      obtain ⟨s, tasks⟩ := p
      obtain rfl := hp.tasks
      rfl
    refine ⟨⟨p.shared, [⟨flushTask b, []⟩]⟩, ⟨?_, fun t ht => ?_⟩, hmap⟩
    · rw [unlogged, hmap]
      exact hp
    · rw [List.mem_singleton.mp ht]
  · intro s t s' u new h
    cases h with
    | @effect e k r _ hrest heff =>
      refine ⟨_, _, .effect r hrest heff, rfl, ?_⟩
      rw [List.map_map]
      exact List.map_id _
    | turn hkind hrest => exact ⟨_, _, .turn hkind hrest, rfl, rfl⟩
    | cancel hkind hrest hdrop => exact ⟨_, _, .cancel hkind hrest hdrop, rfl, rfl⟩
  · rintro s s' _ ⟨hhandles, rfl, packet, rfl⟩
    exact ⟨⟨callerTask packet, []⟩, ⟨hhandles, rfl, packet, rfl⟩, rfl⟩

/-- **What a task keeps**: it follows the protocol from the gates it has made, these are at most
    one, and only a chunk has any. -/
structure LoggedTask.Ok (t : LoggedTask) : Prop where
  follows : t.task.rest.Follows (gateProtocol t.task.kind.isChunk) t.gates fun _ _ => True
  once : t.gates.length ≤ 1
  chunk : t.gates ≠ [] → t.task.kind.isChunk = true

theorem isChunk_next (kind : TaskKind) (e : BatchOp) (r : BatchSig.Ans e) :
    (kind.next e r).isChunk = kind.isChunk := by
  cases e <;> cases kind <;> rfl

theorem loggedTask_fresh {t : BatchTask}
    (h : t.rest.Follows (gateProtocol t.kind.isChunk) [] fun _ _ => True) :
    (⟨t, []⟩ : LoggedTask).Ok :=
  ⟨h, Nat.zero_le _, fun hne => absurd rfl hne⟩

/-- An effect adds the gate it makes, if it makes one. -/
theorem gates_effect (t : LoggedTask) (t' : BatchTask) (ev : Event BatchSig) :
    (⟨t', t.done ++ [ev]⟩ : LoggedTask).gates = t.gates ++ gatesOf [ev] :=
  gatesOf_append t.done [ev]

theorem loggedTask_ok_step {s s' : BatchingShared} {t t' : LoggedTask} {new : List LoggedTask}
    (ht : t.Ok) (hs : t.Step b s s' t' new) : t'.Ok ∧ ∀ n ∈ new, n.Ok := by
  obtain ⟨hfollows, honce, hchunk⟩ := ht
  cases hs with
  | @effect e k r _ hrest heff =>
    rw [hrest] at hfollows
    obtain ⟨hok, hgo⟩ := hfollows
    refine ⟨⟨?_, ?_, ?_⟩, fun n hn => ?_⟩
    · rw [gates_effect, isChunk_next]
      exact hgo r trivial
    · rw [gates_effect]
      cases e with
      | newSemaphore permits =>
        obtain ⟨_, hnone⟩ := hok
        rw [hnone]
        exact Nat.le_refl 1
      | _ => rwa [show gatesOf [_] = [] from rfl, List.append_nil]
    · rw [gates_effect]
      intro hne
      show (t.task.kind.next e r).isChunk = true
      rw [isChunk_next]
      cases e with
      | newSemaphore permits => exact hok.1
      | _ =>
        rw [show gatesOf [_] = [] from rfl, List.append_nil] at hne
        exact hchunk hne
    · obtain ⟨u, hu, rfl⟩ := List.mem_map.mp hn
      cases e with
      | spawn task =>
        rw [List.mem_singleton.mp hu]
        exact loggedTask_fresh (workerTask_gates b task)
      | _ => exact absurd hu List.not_mem_nil
  | turn hkind hrest => exact ⟨⟨flushProgram_gates b, honce, hchunk⟩, nofun⟩
  | cancel hkind hrest hdrop => exact ⟨⟨trivial, honce, hchunk⟩, nofun⟩

theorem loggedTask_ok (hr : (loggedBatch b).Reachable (LoggedStart b) p) :
    ∀ t ∈ p.tasks, t.Ok := by
  refine System.Reachable.taskInv (fun p hp t ht => ?_) loggedTask_ok_step (fun ha => ?_) hr
  · have htask : t.task = flushTask b := hp.start.only_flush (List.mem_map_of_mem ht)
    obtain ⟨task, done⟩ := t
    obtain rfl := htask
    obtain rfl := hp.fresh _ ht
    exact loggedTask_fresh (flushProgram_gates b)
  · obtain ⟨_, _, packet, rfl⟩ := ha
    exact loggedTask_fresh (callerTask_gates packet)

/-- No gate is forgotten, -/
theorem gates_grow {s s' : BatchingShared} {t t' : LoggedTask} {new : List LoggedTask}
    (hs : t.Step b s s' t' new) : t.gates ⊆ t'.gates := by
  cases hs with
  | effect r hrest heff =>
    rw [gates_effect]
    exact List.subset_append_left _ _
  | turn | cancel => exact List.Subset.refl _

/-- nor its maker. -/
theorem gate_kept {w : Actor} (hs : (loggedBatch b).Step p w p') {gate : Nat}
    (h : ∃ c ∈ p.tasks, gate ∈ c.gates) : ∃ c ∈ p'.tasks, gate ∈ c.gates := by
  obtain ⟨c, hc, hgate⟩ := h
  obtain ⟨i, hi⟩ := List.mem_iff_getElem?.mp hc
  rcases step_task_at hs hi with ⟨_, c', new, hact, hi', _⟩ | ⟨_, hi'⟩
  · exact ⟨c', List.mem_of_getElem? hi', gates_grow hact hgate⟩
  · exact ⟨c, List.mem_of_getElem? hi', hgate⟩

theorem next_worker {kind : TaskKind} {e : BatchOp} {r : BatchSig.Ans e} {task : SpawnedTask}
    (h : kind.next e r = .worker task) : kind = .worker task := by
  cases kind <;> cases e <;> first | exact h | cases h

/-- **Every fall-back task is under a gate that some task has made.** -/
theorem gate_owned (hr : (loggedBatch b).Reachable (LoggedStart b) p) :
    ∀ t ∈ p.tasks, ∀ gate q, t.task.kind = .worker (.individual gate q) →
      ∃ c ∈ p.tasks, gate ∈ c.gates := by
  induction hr with
  | start hp =>
    intro t ht gate q hkind
    rw [hp.start.only_flush (List.mem_map_of_mem ht)] at hkind
    cases hkind
  | step hr hs ih =>
    intro u hu gate q hkind
    have hs' := hs
    cases hs with
    | @act s s' l r new t t' h =>
      simp only [List.mem_append, List.mem_cons] at hu
      rcases hu with hu | rfl | hu | hu
      · exact gate_kept hs' (ih u (by simp [hu]) gate q hkind)
      · have hwas : t.task.kind = .worker (.individual gate q) := by
          cases h with
          | effect r hrest heff => exact next_worker hkind
          | turn | cancel => exact hkind
        exact gate_kept hs' (ih t (by simp) gate q hwas)
      · exact gate_kept hs' (ih u (by simp [hu]) gate q hkind)
      · -- a new one is spawned under a gate of its parent
        have hok := loggedTask_ok hr t (by simp)
        have hgate : gate ∈ t.gates := by
          cases h with
          | @effect e k _ _ hrest heff =>
            obtain ⟨v, hv, rfl⟩ := List.mem_map.mp hu
            cases e with
            | spawn task =>
              rw [List.mem_singleton.mp hv] at hkind
              cases hkind
              have hfollows := hok.follows
              rw [hrest] at hfollows
              exact hfollows.1 gate q rfl
            | _ => exact absurd hv List.not_mem_nil
          | turn | cancel => exact absurd hu List.not_mem_nil
        exact ⟨t', by simp, gates_grow h hgate⟩
    | env h => exact gate_kept hs' (ih u hu gate q hkind)
    | arrive h =>
      rcases List.mem_append.mp hu with hu | hu
      · exact gate_kept hs' (ih u hu gate q hkind)
      · obtain ⟨_, _, packet, rfl⟩ := h
        rw [List.mem_singleton.mp hu] at hkind
        cases hkind

/-- One for a task that has made a gate: a chunk that has fallen back. -/
def LoggedTask.fallenBack (t : LoggedTask) : Nat := if t.gates = [] then 0 else 1

@[simp] theorem total_unlogged (w : BatchTask → Nat) (p : Pool BatchingShared LoggedTask) :
    (unlogged p).total w = p.total fun t => w t.task := by
  unfold Pool.total unlogged Pool.map
  rw [List.map_map]
  rfl

/-- The calls under the gates of one task. -/
theorem task_limits (hr : (loggedBatch b).Reachable (LoggedStart b) p) {c : LoggedTask}
    (hc : c ∈ p.tasks) : (p.total fun t => t.task.callsUnder c.gates) ≤
      individualFallbackConcurrency * c.fallenBack := by
  have honce := (loggedTask_ok hr c hc).once
  unfold LoggedTask.fallenBack
  match hgates : c.gates with
  | [] =>
    have hzero : (p.total fun t => t.task.callsUnder []) = 0 := by
      refine List.sum_eq_zero fun n hn => ?_
      obtain ⟨t, _, rfl⟩ := List.mem_map.mp hn
      exact if_neg fun h => List.not_mem_nil h.choose_spec.1
    rw [hzero]
    exact Nat.zero_le _
  | [gate] =>
    rw [← total_unlogged]
    exact gate_limits (unlogged_reachable hr) gate
  | _ :: _ :: _ =>
    rw [hgates] at honce
    simp at honce

/-- **THE FALL-BACK IS LIMITED FOR EACH CHUNK.** In every reachable state at most
    `INDIVIDUAL_FALLBACK_CONCURRENCY` calls are in flight under the gate of a chunk, each fall-back
    call is under the gate of a chunk, and so in all there are at most so many for each chunk that
    has fallen back. -/
theorem fallback_limited (hr : (loggedBatch b).Reachable (LoggedStart b) p) :
    (∀ c ∈ p.tasks, (p.total fun t => t.task.callsUnder c.gates) ≤
      individualFallbackConcurrency) ∧
    (∀ t ∈ p.tasks, ∀ gate, t.task.fallbackGate = some gate →
      ∃ c ∈ p.tasks, c.task.kind.isChunk = true ∧ gate ∈ c.gates) ∧
    (p.total fun t => t.task.fallbackCalls) ≤
      individualFallbackConcurrency * p.total LoggedTask.fallenBack := by
  have howned : ∀ t ∈ p.tasks, ∀ gate, t.task.fallbackGate = some gate →
      ∃ c ∈ p.tasks, c.task.kind.isChunk = true ∧ gate ∈ c.gates := by
    intro t ht gate h
    obtain ⟨q, _, _, hkind, _⟩ := fallbackGate_eq_some h
    obtain ⟨c, hc, hgate⟩ := gate_owned hr t ht gate q hkind
    exact ⟨c, hc, (loggedTask_ok hr c hc).chunk (List.ne_nil_of_mem hgate), hgate⟩
  refine ⟨fun c hc => (task_limits hr hc).trans ?_, howned, ?_⟩
  · unfold LoggedTask.fallenBack
    split <;> omega
  · have hcovered : ∀ t ∈ p.tasks, t.task.fallbackCalls ≤
        p.total fun c => t.task.callsUnder c.gates := by
      intro t ht
      unfold BatchTask.fallbackCalls
      split
      · rename_i h
        obtain ⟨gate, hgate⟩ := Option.isSome_iff_exists.mp h
        obtain ⟨c, hc, _, hmem⟩ := howned t ht gate hgate
        have hone : t.task.callsUnder c.gates = 1 := if_pos ⟨gate, hmem, hgate⟩
        rw [← hone]
        exact List.single_le_sum (fun _ _ => Nat.zero_le _) _
          (List.mem_map_of_mem (f := fun c : LoggedTask => t.task.callsUnder c.gates) hc)
      · exact Nat.zero_le _
    have hchunks := total_mono (p := p) (v := fun c => p.total fun t => t.task.callsUnder c.gates)
      (w := fun c => individualFallbackConcurrency * c.fallenBack) fun c hc => task_limits hr hc
    have hmul : (p.total fun c => individualFallbackConcurrency * c.fallenBack) =
        individualFallbackConcurrency * p.total LoggedTask.fallenBack := by
      unfold Pool.total
      rw [List.sum_map_mul_left]
    rw [← hmul]
    exact (total_le_of_covered (w := fun c t => t.task.callsUnder c.gates) hcovered).trans hchunks

end Logs

/-! ## 4. Two chunks at once -/

section Example

/-- A provider that refuses batches, as a whole. -/
def noBatches : RequestPacket → Option RpcResult
  | .batch _ => some (.ok (.single ⟨.none, .failure "batch requests are not supported"⟩))
  | .single _ => none

/-- A transport over it, six requests a batch. -/
def sixAtOnce : BatchingTransport where
  config := ⟨{ BatchingConfig.default with maxBatchSize := 6 }, by decide⟩
  inner packet result := noBatches packet = some result
  display _ := ""

/-- Twelve requests are flushed in two chunks; both are refused and fall back. -/
def fallbackSchedule : List Move :=
  [.call (.batch ((List.range 12).map fun n => ⟨.number n.toUInt64, ""⟩))] ++
    [1, 1, 0, 0].map Move.task ++ [.clock 1000000] ++ List.replicate 5 (.task 0) ++
    List.replicate 10 (.task 2) ++ List.replicate 10 (.task 3) ++
    (List.range' 4 12).map Move.task

/-- **The limits of two chunks add up**: twelve fall-back calls are in flight. -/
theorem fallbacks_add_up : ∃ p, (batchSystem sixAtOnce).Reachable (BatchStart sixAtOnce) p ∧
    p.total BatchTask.fallbackCalls = 12 ∧
    individualFallbackConcurrency < p.total BatchTask.fallbackCalls := by
  have hreply : sixAtOnce.MayReply noBatches := fun _ _ h => h
  obtain ⟨p, hr, hp⟩ := observed_reachable hreply fallbackSchedule
    (Pool.total BatchTask.fallbackCalls) (a := 12) (by decide +kernel)
  exact ⟨p, hr, hp, by rw [hp]; decide⟩

/-- They are limited all the same, ten to a chunk. -/
theorem fallback_limited_twelve : ∃ p, (loggedBatch sixAtOnce).Reachable (LoggedStart sixAtOnce) p ∧
    (p.total fun t => t.task.fallbackCalls) = 12 ∧
    (∀ c ∈ p.tasks, (p.total fun t => t.task.callsUnder c.gates) ≤ 10) ∧
    12 ≤ 10 * p.total LoggedTask.fallenBack := by
  have hreply : sixAtOnce.MayReply noBatches := fun _ _ h => h
  obtain ⟨p, hr, hp⟩ := observed_reachable hreply fallbackSchedule
    (Pool.total BatchTask.fallbackCalls) (a := 12) (by decide +kernel)
  obtain ⟨p', hr', rfl⟩ := logged_reachable hr
  rw [total_unlogged] at hp
  obtain ⟨heach, _, hall⟩ := fallback_limited hr'
  rw [hp] at hall
  exact ⟨p', hr', hp, heach, hall⟩

end Example

end TransportBalancer.Batching
