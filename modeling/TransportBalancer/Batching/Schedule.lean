/-
  File:      TransportBalancer/Batching/Schedule.lean
  Subject:   RUNS ON A SCHEDULE: the batching system, executable. An inner service that answers as a
             function says, a `HashMap` that yields its entries in the order it holds them, and a
             list of moves.

  * `perform_effect` -- an effect computed is one of those the system allows;
  * **`play_run`**, `observed_reachable` -- a schedule that can be played is a run, and ends in a
    reachable pool.
-/
import TransportBalancer.Batching.System

namespace TransportBalancer.Batching

open Interaction TaskPool

section Schedule

variable (b : BatchingTransport) (reply : RequestPacket → Option RpcResult)

/-- The inner service may answer so (`none`: no answer is looked at). -/
def BatchingTransport.MayReply : Prop :=
  ∀ packet result, reply packet = some result → b.inner packet result

/-- What the oneshot channel of a receiver holds: an answer, or nothing ever after. -/
def BatchingShared.received (s : BatchingShared) (rx : Channel) : Option (Option RpcResult) :=
  match s.answers.find? fun a => a.1.tx = rx with
  | some a => some (some a.2)
  | none => if ∃ p ∈ s.dropped, p.tx = rx then some none else none

/-- One effect computed; `none` where it blocks. -/
def perform (s : BatchingShared) : (e : BatchOp) → Option (BatchSig.Ans e × BatchingShared)
  | .enqueue requests => some (s.nextChannel, s.enqueue b.config requests)
  | .notifyOne => some ((), { s with notify := s.notify.notifyOne })
  | .awaitResponse rx => (s.received rx).map fun answer => (answer, s)
  | .upgrade =>
    if 0 < s.strong then some (true, { s with strong := s.strong + 1 }) else some (false, s)
  | .dropShared => some ((), s.dropShared)
  | .beginWait => some (s.clock, { s with notify := s.notify.poll })
  | .waitNotified since =>
    if s.notify.waiter = .delivered then some ((), { s with notify := s.notify.wake })
    else if since + b.config.flushInterval.nanos ≤ s.clock then
      some ((), { s with notify := s.notify.abandon })
    else none
  | .drain => some (s.pending, { s with pending := [] })
  | .spawn _ => some ((), s)
  | .innerCall packet =>
    (reply packet).map fun result => (result, { s with calls := s.calls ++ [packet] })
  | .iterate entries => some (entries, s)
  | .send p result => some ((), { s with answers := s.answers ++ [(p, result)] })
  | .onBatchRejection => some ((), { s with rejections := s.rejections + 1 })
  | .newSemaphore permits => some (s.semaphores.length,
      { s with semaphores := s.semaphores ++ [permits] })
  | .acquire semaphore =>
    match s.semaphores[semaphore]? with
    | some (free + 1) => some ((), { s with semaphores := s.semaphores.set semaphore free })
    | _ => none
  | .release semaphore =>
    (s.semaphores[semaphore]?).map fun free =>
      ((), { s with semaphores := s.semaphores.set semaphore (free + 1) })

/-- What happens next: a task takes a step, a future is dropped, a call arrives, time passes. -/
inductive Move where
  | task (i : Nat)
  | cancel (i : Nat)
  | call (packet : RequestPacket)
  | clock (now : Nat)
  | dropClone

/-- The step of the task at a position. -/
def moveTask (p : Pool BatchingShared BatchTask) (i : Nat) :
    Option (Pool BatchingShared BatchTask) :=
  match p.tasks[i]? with
  | none => none
  | some ⟨.flush, .ret (.turn .again), ledger⟩ =>
    some ⟨p.shared, p.tasks.set i ⟨.flush, flushProgram b, ledger⟩⟩
  | some ⟨_, .ret _, _⟩ => none
  | some ⟨kind, .op e k, ledger⟩ =>
    (perform b reply p.shared e).map fun (r, s') =>
      ⟨s', p.tasks.set i ⟨kind.next e r, k r, ledger.next e r⟩ ++ spawned b e⟩

/-- The future of the caller at a position is dropped. -/
def moveCancel (p : Pool BatchingShared BatchTask) (i : Nat) :
    Option (Pool BatchingShared BatchTask) :=
  match p.tasks[i]? with
  | some ⟨.caller packet receivers, .op e _, ledger⟩ =>
    if e.droppable = true then
      some ⟨p.shared.dropShared, p.tasks.set i
        ⟨.caller packet receivers, .ret .cancelled, { ledger with arcs := ledger.arcs - 1 }⟩⟩
    else none
  | _ => none

def move (p : Pool BatchingShared BatchTask) : Move → Option (Pool BatchingShared BatchTask)
  | .task i => moveTask b reply p i
  | .cancel i => moveCancel p i
  | .call packet =>
    if 0 < p.shared.handles then
      some ⟨{ p.shared with strong := p.shared.strong + 1 }, p.tasks ++ [callerTask packet]⟩
    else none
  | .clock now =>
    if p.shared.clock ≤ now then some ⟨{ p.shared with clock := now }, p.tasks⟩ else none
  | .dropClone =>
    if 0 < p.shared.handles then
      some ⟨{ p.shared.dropShared with handles := p.shared.handles - 1 }, p.tasks⟩
    else none

/-- A list of moves, one after the other. -/
def play : List Move → Pool BatchingShared BatchTask → Option (Pool BatchingShared BatchTask)
  | [], p => some p
  | m :: ms, p => (move b reply p m).bind (play ms)

variable {b reply} {p p' : Pool BatchingShared BatchTask}

theorem received_sound {s : BatchingShared} {rx : Channel} {answer : Option RpcResult}
    (h : s.received rx = some answer) :
    (∃ p result, (p, result) ∈ s.answers ∧ p.tx = rx ∧ answer = some result) ∨
      ∃ p ∈ s.dropped, p.tx = rx ∧ answer = none := by
  unfold BatchingShared.received at h
  split at h
  · rename_i a hfind
    cases h
    exact Or.inl ⟨a.1, a.2, List.mem_of_find?_eq_some hfind,
      by simpa using List.find?_some hfind, rfl⟩
  · split at h
    · rename_i hdropped
      cases h
      obtain ⟨p, hp, e⟩ := hdropped
      exact Or.inr ⟨p, hp, e, rfl⟩
    · cases h

/-- **What is computed is allowed.** -/
theorem perform_effect (hreply : b.MayReply reply) {s s' : BatchingShared}
    {e : BatchOp} {r : BatchSig.Ans e} (h : perform b reply s e = some (r, s')) :
    Effect b s e r s' := by
  cases e with
  | awaitResponse rx =>
    obtain ⟨answer, hanswer, e⟩ := Option.map_eq_some_iff.mp h
    cases e
    exact ⟨rfl, received_sound hanswer⟩
  | upgrade =>
    simp only [perform] at h
    split at h
    · cases h
      exact Or.inl ⟨‹_›, rfl, rfl⟩
    · cases h
      exact Or.inr ⟨by omega, rfl, rfl⟩
  | waitNotified since =>
    simp only [perform] at h
    split at h
    · cases h
      exact Or.inl ⟨‹_›, rfl⟩
    · split at h
      · cases h
        exact Or.inr ⟨‹_›, rfl⟩
      · cases h
  | innerCall packet =>
    obtain ⟨_, hresult, e⟩ := Option.map_eq_some_iff.mp h
    cases e
    exact ⟨hreply packet _ hresult, rfl⟩
  | iterate entries =>
    cases h
    exact ⟨.refl _, rfl⟩
  | acquire semaphore =>
    simp only [perform] at h
    split at h
    · rename_i free hfree
      cases h
      exact ⟨free, hfree, rfl⟩
    · cases h
  | release semaphore =>
    obtain ⟨free, hfree, e⟩ := Option.map_eq_some_iff.mp h
    cases e
    exact ⟨free, hfree, rfl⟩
  | enqueue | beginWait | drain | newSemaphore =>
    cases h
    exact ⟨rfl, rfl⟩
  | notifyOne | dropShared | spawn | send | onBatchRejection =>
    cases h
    rfl

theorem move_step (hreply : b.MayReply reply) {m : Move}
    (h : move b reply p m = some p') : ∃ w, (batchSystem b).Step p w p' := by
  cases m with
  | task i =>
    change moveTask b reply p i = some p' at h
    unfold moveTask at h
    split at h
    · cases h
    · rename_i ledger ht
      cases h
      have hs := System.Step.at (Y := batchSystem b) ht (.turn rfl rfl)
      rw [List.append_nil] at hs
      exact ⟨_, hs⟩
    · cases h
    · rename_i kind e k ledger ht
      obtain ⟨⟨r, s'⟩, hperform, e'⟩ := Option.map_eq_some_iff.mp h
      cases e'
      exact ⟨_, .at ht (.effect r rfl (perform_effect hreply hperform))⟩
  | cancel i =>
    change moveCancel p i = some p' at h
    unfold moveCancel at h
    split at h
    · rename_i packet receivers e k ledger ht
      split at h
      · rename_i hdrop
        cases h
        have hs := System.Step.at (Y := batchSystem b) ht (.cancel rfl rfl hdrop)
        rw [List.append_nil] at hs
        exact ⟨_, hs⟩
      · cases h
    · cases h
  | call packet =>
    simp only [move] at h
    split at h
    · cases h
      exact ⟨_, .arrive ⟨‹_›, rfl, packet, rfl⟩⟩
    · cases h
  | clock now =>
    simp only [move] at h
    split at h
    · cases h
      exact ⟨_, .env (.tick now ‹_›)⟩
    · cases h
  | dropClone =>
    simp only [move] at h
    split at h
    · cases h
      exact ⟨_, .env (.dropped ‹_›)⟩
    · cases h

/-- **A schedule that can be played** is a run of the system, -/
theorem play_run (hreply : b.MayReply reply) {ms : List Move} (h : play b reply ms p = some p') :
    ∃ vs, (batchSystem b).Run p vs p' := by
  induction ms generalizing p with
  | nil =>
    cases h
    exact ⟨[], .refl⟩
  | cons m ms ih =>
    obtain ⟨q, hm, hrest⟩ := Option.bind_eq_some_iff.mp h
    obtain ⟨w, hs⟩ := move_step hreply hm
    obtain ⟨vs, hrun⟩ := ih hrest
    exact ⟨(p, w) :: vs, hrun.cons hs⟩

/-- and ends in a reachable pool. -/
theorem play_reachable (hreply : b.MayReply reply) {ms : List Move}
    (hp : (batchSystem b).Reachable (BatchStart b) p) (h : play b reply ms p = some p') :
    (batchSystem b).Reachable (BatchStart b) p' := by
  obtain ⟨_, hrun⟩ := play_run hreply h
  exact hp.run hrun

/-- A transport just made, with one clone. -/
def freshPool (b : BatchingTransport) : Pool BatchingShared BatchTask where
  shared := {
    clock := 0, handles := 1, strong := 1, pending := [], notify := .new, nextChannel := 0,
    pushed := [], answers := [], dropped := [], semaphores := [], calls := [], rejections := 0 }
  tasks := [flushTask b]

theorem freshPool_start (b : BatchingTransport) : BatchStart b (freshPool b) :=
  ⟨rfl, rfl, rfl, rfl, rfl, rfl, rfl, rfl, rfl⟩

/-- What is observed at the end of a schedule is observed in a reachable pool. -/
theorem observed_reachable (hreply : b.MayReply reply) (ms : List Move) {α : Type}
    (f : Pool BatchingShared BatchTask → α) {a : α}
    (h : (play b reply ms (freshPool b)).map f = some a) :
    ∃ p, (batchSystem b).Reachable (BatchStart b) p ∧ f p = a := by
  obtain ⟨p, hp, ha⟩ := Option.map_eq_some_iff.mp h
  exact ⟨p, play_reachable hreply (.start (freshPool_start b)) hp, ha⟩

end Schedule

end TransportBalancer.Batching
