/-
  File:      TransportBalancer/Batching/FlushStages.lean
  Subject:   THE FLUSH LOOP AS A STATE MACHINE. Between two effects the flush task is in one of a
             few stages, and the stage says what it does next and what it owns.

  * `FlushStage`, `flushStages` -- the stages and the protocol that moves between them;
  * `flushProgram_stages` -- a turn of the loop goes through them and ends where it may;
  * **`FlushAt.step`** -- a step of the flush task is a step of the machine.
-/
import TransportBalancer.Batching.Ledger

namespace TransportBalancer.Batching

open Interaction TaskPool

/-! ## 1. The machine -/

/-- Where the flush task is: before `upgrade`, after one that failed, before and in the wait,
    before the drain, holding what it has drained, and sending off what is left of it. -/
inductive FlushStage where
  | start
  | stopped
  | upgraded
  | waiting (since : Nat)
  | woken
  | holding (batch : List PendingRequest)
  | dispatching (remaining : List PendingRequest)

/-- What the flush task owns at a stage. -/
def FlushStage.ledger : FlushStage → Ledger
  | .start | .stopped => .nothing
  | .upgraded | .waiting _ | .woken => .oneArc
  | .holding batch => ⟨batch, 1, 0⟩
  | .dispatching remaining => .owning remaining

/-- The next chunk of what is left. -/
def nextChunk (config : RunningConfig) (remaining : List PendingRequest) : List PendingRequest :=
  remaining.take (min remaining.length config.maxBatchSize)

/-- **The stages as a protocol**: each allows one effect. -/
def flushStages (config : RunningConfig) : Protocol BatchSig FlushStage where
  ok g e :=
    match g, e with
    | .start, .upgrade | .upgraded, .beginWait | .woken, .drain | .holding _, .dropShared => True
    | .waiting since, .waitNotified since' => since' = since
    | .dispatching remaining, .spawn task =>
      remaining ≠ [] ∧ task = chunkTask (nextChunk config remaining)
    | _, _ => False
  admits _ _ _ := True
  next g e r :=
    match g, e, r with
    | .start, .upgrade, up => if up = true then .upgraded else .stopped
    | .upgraded, .beginWait, since => .waiting since
    | .waiting _, .waitNotified _, _ => .woken
    | .woken, .drain, batch => .holding batch
    | .holding batch, .dropShared, _ => .dispatching batch
    | .dispatching remaining, .spawn task, _ => .dispatching (remaining.drop task.entries.length)
    | g, _, _ => g

/-- A turn ends with everything sent off, or with a failed `upgrade`. -/
def TurnEnds (g : FlushStage) (x : TaskEnd) : Prop :=
  (x = .turn .again ∧ g = .dispatching []) ∨ (x = .turn .stop ∧ g = .stopped)

theorem nextChunk_length (config : RunningConfig) (remaining : List PendingRequest) :
    (nextChunk config remaining).length = min remaining.length config.maxBatchSize := by
  unfold nextChunk
  rw [List.length_take]
  omega

/-- A chunk of something left is not empty. -/
theorem nextChunk_ne_nil (config : RunningConfig) {remaining : List PendingRequest}
    (h : remaining ≠ []) : nextChunk config remaining ≠ [] := by
  have hpos := config.maxBatchSize_pos
  have hlen := List.length_pos_iff.mpr h
  rw [← List.length_pos_iff, nextChunk_length]
  omega

theorem dispatch_stages (config : RunningConfig) (fuel : Nat) :
    ∀ remaining : List PendingRequest, remaining.length ≤ fuel →
      (dispatch config fuel remaining).Follows (flushStages config) (.dispatching remaining)
        fun g _ => g = .dispatching [] := by
  induction fuel with
  | zero =>
    intro remaining h
    rw [List.length_eq_zero_iff.mp (Nat.le_zero.mp h)]
    exact rfl
  | succ fuel ih =>
    intro remaining h
    unfold dispatch
    split
    · rename_i hempty
      rw [hempty]
      exact rfl
    · rename_i hne
      have hpos := config.maxBatchSize_pos
      have hlen := List.length_pos_iff.mpr hne
      refine ⟨⟨hne, rfl⟩, fun _ _ => ?_⟩
      show (dispatch config fuel _).Follows _ (FlushStage.dispatching (remaining.drop
        (chunkTask (nextChunk config remaining)).entries.length)) _
      rw [chunkTask_entries, nextChunk_length]
      refine ih _ ?_
      rw [List.length_drop]
      omega

/-- **A turn of the flush loop** goes through the stages. -/
theorem flushProgram_stages (b : BatchingTransport) :
    (flushProgram b).Follows (flushStages b.config) .start TurnEnds := by
  refine ⟨trivial, fun up _ => ?_⟩
  cases up with
  | false => exact Or.inr ⟨rfl, rfl⟩
  | true =>
    refine ⟨trivial, fun since _ => ⟨rfl, fun _ _ => ⟨trivial, fun batch _ =>
      ⟨trivial, fun _ _ => ?_⟩⟩⟩⟩
    have hdispatch := dispatch_stages b.config batch.length batch (Nat.le_refl _)
    have hturn : (dispatch b.config batch.length batch >>= fun _ => .ret Turn.again).Follows
        (flushStages b.config) (.dispatching batch) fun g t => t = .again ∧ g = .dispatching [] :=
      hdispatch.bind fun _ _ h => ⟨rfl, h⟩
    refine hturn.bind ?_
    intro g t h
    obtain ⟨rfl, rfl⟩ := h
    exact Or.inl ⟨rfl, rfl⟩

/-! ## 2. The flush task -/

/-- The flush task is at a stage. -/
structure FlushAt (b : BatchingTransport) (t : BatchTask) (g : FlushStage) : Prop where
  kind : t.kind = .flush
  follows : t.rest.Follows (flushStages b.config) g TurnEnds
  ledger : t.ledger = g.ledger

theorem flushTask_at (b : BatchingTransport) : FlushAt b (flushTask b) .start :=
  ⟨rfl, flushProgram_stages b, rfl⟩

/-- **What a step of the flush task does.** -/
inductive FlushMove (b : BatchingTransport) (s : BatchingShared) :
    FlushStage → BatchingShared → FlushStage → List BatchTask → Prop where
  | upgrade (h : 0 < s.strong) :
      FlushMove b s .start { s with strong := s.strong + 1 } .upgraded []
  | stop (h : s.strong = 0) : FlushMove b s .start s .stopped []
  | beginWait : FlushMove b s .upgraded { s with notify := s.notify.poll } (.waiting s.clock) []
  | notified {since : Nat} (h : s.notify.waiter = .delivered) :
      FlushMove b s (.waiting since) { s with notify := s.notify.wake } .woken []
  | timeout {since : Nat} (h : since + b.config.flushInterval.nanos ≤ s.clock) :
      FlushMove b s (.waiting since) { s with notify := s.notify.abandon } .woken []
  | drain : FlushMove b s .woken { s with pending := [] } (.holding s.pending) []
  | dropShared {batch : List PendingRequest} :
      FlushMove b s (.holding batch) s.dropShared (.dispatching batch) []
  | spawn {remaining : List PendingRequest} (h : remaining ≠ []) :
      FlushMove b s (.dispatching remaining) s
        (.dispatching (remaining.drop (nextChunk b.config remaining).length))
        [workerTask b (chunkTask (nextChunk b.config remaining))]
  | again : FlushMove b s (.dispatching []) s .start []

/-- The loop stops only with no `Arc` left. -/
theorem FlushMove.stopped {b : BatchingTransport} {s s' : BatchingShared} {g : FlushStage}
    {new : List BatchTask} (h : FlushMove b s g s' .stopped new) : s'.strong = 0 := by
  cases h with
  | stop h => exact h

theorem owning_drop (config : RunningConfig) (remaining : List PendingRequest) :
    (remaining : Multiset PendingRequest) - (nextChunk config remaining : Multiset PendingRequest) =
      (remaining.drop (nextChunk config remaining).length : List PendingRequest) := by
  have hsplit : (remaining : Multiset PendingRequest) = (nextChunk config remaining :
      Multiset PendingRequest) + (remaining.drop (nextChunk config remaining).length :
        List PendingRequest) := by
    rw [Multiset.coe_add, nextChunk_length, nextChunk, List.take_append_drop]
  rw [hsplit, Multiset.add_comm, Multiset.add_sub_cancel_right]

/-- An effect moves the ledger as it moves the stage. -/
theorem stage_ledger {config : RunningConfig} {g : FlushStage} {e : BatchOp}
    (hok : (flushStages config).ok g e) (r : BatchSig.Ans e) :
    g.ledger.next e r = ((flushStages config).next g e r).ledger := by
  cases g <;> cases e <;> try exact hok.elim
  · cases r <;> rfl
  · rfl
  · rfl
  · exact Ledger.ext (Multiset.zero_add _) rfl rfl
  · rfl
  · obtain ⟨_, rfl⟩ := hok
    simp only [flushStages, chunkTask_entries]
    refine Ledger.ext ?_ rfl rfl
    simp only [FlushStage.ledger, Ledger.owning, Ledger.next, chunkTask_entries]
    exact owning_drop _ _

/-- **A step of the flush task is a step of the machine.** -/
theorem FlushAt.step {b : BatchingTransport} {s s' : BatchingShared} {t t' : BatchTask}
    {new : List BatchTask} {g : FlushStage} (h : FlushAt b t g) (hs : t.Step b s s' t' new) :
    ∃ g', FlushMove b s g s' g' new ∧ FlushAt b t' g' := by
  cases hs with
  | @effect e k r _ hrest heff =>
    have hfollows := h.follows
    rw [hrest] at hfollows
    obtain ⟨hok, hgo⟩ := hfollows
    have hkind : t.kind.next e r = .flush := by
      rw [h.kind]
      cases e <;> rfl
    refine ⟨(flushStages b.config).next g e r, ?_, hkind, hgo r trivial, ?_⟩
    · cases g <;> cases e <;> try exact hok.elim
      · rcases heff with ⟨hpos, rfl, rfl⟩ | ⟨hzero, rfl, rfl⟩
        · exact .upgrade hpos
        · exact .stop hzero
      · obtain ⟨rfl, rfl⟩ := heff
        exact .beginWait
      · obtain rfl := hok
        rcases heff with ⟨hn, rfl⟩ | ⟨hle, rfl⟩
        · exact .notified hn
        · exact .timeout hle
      · obtain ⟨rfl, rfl⟩ := heff
        exact .drain
      · obtain rfl := heff
        exact .dropShared
      · obtain rfl := heff
        obtain ⟨hne, rfl⟩ := hok
        have hmove := FlushMove.spawn (b := b) (s := s') hne
        simpa only [flushStages, chunkTask_entries, spawned] using hmove
    · show t.ledger.next e r = _
      rw [h.ledger]
      exact stage_ledger hok r
  | turn _ hrest =>
    have hfollows := h.follows
    rw [hrest] at hfollows
    rcases hfollows with ⟨_, rfl⟩ | ⟨hstop, _⟩
    · exact ⟨.start, .again, h.kind, flushProgram_stages b, h.ledger⟩
    · cases hstop
  | cancel hcaller => rw [h.kind] at hcaller; cases hcaller

end TransportBalancer.Batching
