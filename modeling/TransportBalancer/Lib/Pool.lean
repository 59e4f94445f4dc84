/-
  File:      TransportBalancer/Lib/Pool.lean
  Subject:   TASK POOLS: any number of tasks over one shared state, one step of one task at a time.

  A `System` says what one step of one task does to the shared state and to the task (it may
  spawn more), how the environment moves the shared state, and which new tasks may arrive. The
  tasks of a `Pool` keep their position, so a position names a task for good.

  * `System.Step`, `System.Reachable`, `System.Run` -- interleavings: every order of steps, a run
    with the list of pools it left and who moved there;
  * **`System.Reachable.inv`** -- the rely/guarantee rule: an invariant `J` of the shared state
    and a local assertion `I` of each task, kept by the acting task and stable under the others;
  * `System.Reachable.taskInv`, `System.Reachable.localInv` -- the same for assertions of a task by
    itself, and for those that rest on facts of reachable pools;
  * `Pool.total` and its step lemmas -- sums over all tasks (what is held somewhere);
    `System.Reachable.accounted` -- a counter against what the tasks have called for;
    `System.Reachable.budgeted` -- what is used up, against what was granted;
  * `System.Run.simulated` -- an abstract machine that matches every step matches every run;
  * `System.Step.at`, `step_task_at` -- a step at a position, and what it leaves of the others;
  * `System.Reachable.map`, `System.Reachable.lift` -- history variables: tasks that carry more, and
    nothing reachable lost or gained by it.
-/
import Mathlib.Algebra.BigOperators.Group.Multiset.Basic
import Mathlib.Algebra.GroupWithZero.Nat
import Mathlib.Algebra.Order.BigOperators.Group.List
import Mathlib.Algebra.Order.Group.Nat
import Mathlib.Data.List.Basic
import Mathlib.Data.List.Forall2
import Mathlib.Data.Nat.ModEq
import Mathlib.Logic.Relation
import Mathlib.Tactic.Common

namespace TaskPool

/-- What the tasks (`τ`), the environment and arrivals do to a shared state (`σ`). -/
structure System (σ τ : Type) where
  /-- One step of one task: shared state and task before, shared state, task and spawned tasks
      after. -/
  act : σ → τ → σ → τ → List τ → Prop
  /-- A step of the environment. -/
  env : σ → σ → Prop
  /-- A new task arrives. -/
  arrive : σ → σ → τ → Prop

/-- A shared state and the tasks over it, oldest first. -/
structure Pool (σ τ : Type) where
  shared : σ
  tasks : List τ

/-- Who takes a step. -/
inductive Actor where
  | task (i : Nat)
  | env
  | arrival
  deriving DecidableEq, Repr

variable {σ τ : Type}

/-- **One step of the pool**, with its actor. -/
inductive System.Step (Y : System σ τ) : Pool σ τ → Actor → Pool σ τ → Prop where
  | act {s s' : σ} {l r new : List τ} {t t' : τ} (h : Y.act s t s' t' new) :
      Step Y ⟨s, l ++ t :: r⟩ (.task l.length) ⟨s', l ++ t' :: (r ++ new)⟩
  | env {s s' : σ} {ts : List τ} (h : Y.env s s') : Step Y ⟨s, ts⟩ .env ⟨s', ts⟩
  | arrive {s s' : σ} {ts : List τ} {t : τ} (h : Y.arrive s s' t) :
      Step Y ⟨s, ts⟩ .arrival ⟨s', ts ++ [t]⟩

/-- The pools reachable from a start. -/
inductive System.Reachable (Y : System σ τ) (start : Pool σ τ → Prop) : Pool σ τ → Prop where
  | start {p : Pool σ τ} (h : start p) : Reachable Y start p
  | step {p p' : Pool σ τ} {w : Actor} (h : Reachable Y start p) (hs : Y.Step p w p') :
      Reachable Y start p'

/-- **A run from `p`**, with the pools it left and their actors, oldest first. -/
inductive System.Run (Y : System σ τ) (p : Pool σ τ) :
    List (Pool σ τ × Actor) → Pool σ τ → Prop where
  | refl : Run Y p [] p
  | step {vs : List (Pool σ τ × Actor)} {q q' : Pool σ τ} {w : Actor} (h : Run Y p vs q)
      (hs : Y.Step q w q') : Run Y p (vs ++ [(q, w)]) q'

/-! ## 1. Runs -/

section Runs

variable {Y : System σ τ} {start : Pool σ τ → Prop}

theorem System.Reachable.run {p q : Pool σ τ} {vs : List (Pool σ τ × Actor)}
    (h : Y.Reachable start p) (hr : Y.Run p vs q) : Y.Reachable start q := by
  induction hr with
  | refl => exact h
  | step _ hs ih => exact .step ih hs

/-- What is reachable is reached by a run. -/
theorem System.Reachable.from_start {q : Pool σ τ} (h : Y.Reachable start q) :
    ∃ p vs, start p ∧ Y.Run p vs q := by
  induction h with
  | start h => exact ⟨_, [], h, .refl⟩
  | step _ hs ih =>
    obtain ⟨p, vs, hp, hr⟩ := ih
    exact ⟨p, _, hp, .step hr hs⟩

/-- A run with one more step before it. -/
theorem System.Run.cons {p p' q : Pool σ τ} {w : Actor} {vs : List (Pool σ τ × Actor)}
    (hs : Y.Step p w p') (hr : Y.Run p' vs q) : Y.Run p ((p, w) :: vs) q := by
  induction hr with
  | refl => exact .step .refl hs
  | step _ hs' ih => exact .step ih hs'

/-- After a pool it left, a run goes on to a pool it left later or to its last one. -/
theorem System.Run.next {p q : Pool σ τ} {vs : List (Pool σ τ × Actor)} (hr : Y.Run p vs q)
    {x : Pool σ τ × Actor} (hx : x ∈ vs) :
    ∃ q', Y.Step x.1 x.2 q' ∧ (q' ∈ vs.map Prod.fst ∨ q' = q) := by
  induction hr with
  | refl => exact absurd hx List.not_mem_nil
  | @step vs q q' w _ hs ih =>
    rcases List.mem_append.mp hx with hx | hx
    · obtain ⟨q'', hs', h⟩ := ih hx
      refine ⟨q'', hs', Or.inl ?_⟩
      rw [List.map_append]
      rcases h with h | rfl
      · exact List.mem_append_left _ h
      · exact List.mem_append_right _ (by simp)
    · rw [List.mem_singleton.mp hx]
      exact ⟨q', hs, Or.inr rfl⟩

end Runs

/-! ## 2. One step, seen from a position -/

/-- The task at a position takes a step. -/
theorem System.Step.at {Y : System σ τ} {p : Pool σ τ} {i : Nat} {t t' : τ} {s' : σ}
    {new : List τ} (ht : p.tasks[i]? = some t) (h : Y.act p.shared t s' t' new) :
    Y.Step p (.task i) ⟨s', p.tasks.set i t' ++ new⟩ := by
  obtain ⟨s, ts⟩ := p
  obtain ⟨hi, rfl⟩ := List.getElem?_eq_some_iff.mp ht
  have hstep := System.Step.act (l := ts.take i) (r := ts.drop (i + 1)) h
  rw [List.length_take_of_le (Nat.le_of_lt hi)] at hstep
  rw [List.set_eq_take_append_cons_drop, if_pos hi, List.append_assoc, List.cons_append]
  rw [← List.drop_eq_getElem_cons hi, List.take_append_drop] at hstep
  exact hstep

/-- **A step changes the task that acts and no other**: a task at a position either acts, or is
    there unchanged after the step. -/
theorem step_task_at {Y : System σ τ} {p p' : Pool σ τ} {w : Actor} (hs : Y.Step p w p') {i : Nat}
    {t : τ} (ht : p.tasks[i]? = some t) :
    (w = .task i ∧ ∃ t' new, Y.act p.shared t p'.shared t' new ∧ p'.tasks[i]? = some t' ∧
        p'.tasks.length = p.tasks.length + new.length) ∨
      (w ≠ .task i ∧ p'.tasks[i]? = some t) := by
  cases hs with
  | @act s s' l r new u u' h =>
    rcases Nat.lt_trichotomy i l.length with hi | rfl | hi
    · refine Or.inr ⟨fun e => ?_, ?_⟩
      · cases e
        exact absurd hi (Nat.lt_irrefl _)
      · simp only [List.getElem?_append_left hi] at ht ⊢
        exact ht
    · have e : u = t := by simpa using ht
      subst e
      exact Or.inl ⟨rfl, u', new, h, by simp, by simp; omega⟩
    · refine Or.inr ⟨fun e => ?_, ?_⟩
      · cases e
        exact absurd hi (Nat.lt_irrefl _)
      · obtain ⟨j, rfl⟩ : ∃ j, i = l.length + (j + 1) := ⟨i - l.length - 1, by omega⟩
        simp only [List.getElem?_append_right (Nat.le_add_right _ _), Nat.add_sub_cancel_left,
          List.getElem?_cons_succ] at ht ⊢
        rw [List.getElem?_append_left (List.getElem?_eq_some_iff.mp ht).1]
        exact ht
  | env h => exact Or.inr ⟨nofun, ht⟩
  | arrive h =>
    refine Or.inr ⟨nofun, ?_⟩
    rw [List.getElem?_append_left (List.getElem?_eq_some_iff.mp ht).1]
    exact ht

/-! ## 3. The rely/guarantee rule -/

/-- **THE INVARIANT RULE.** `J` is kept of the shared state and `I` of every task, if the acting
    task keeps both for itself and its children, and what it does leaves `I` of any other task
    alone (`hstable`); likewise for the environment and for arrivals. -/
theorem System.Reachable.inv {Y : System σ τ} {start : Pool σ τ → Prop} {J : σ → Prop}
    {I : σ → τ → Prop}
    (hstart : ∀ p, start p → J p.shared ∧ ∀ t ∈ p.tasks, I p.shared t)
    (hact : ∀ {s t s' t' new}, J s → I s t → Y.act s t s' t' new →
      J s' ∧ I s' t' ∧ ∀ n ∈ new, I s' n)
    (hstable : ∀ {s t s' t' new u}, J s → I s t → Y.act s t s' t' new → I s u → I s' u)
    (henv : ∀ {s s'}, J s → Y.env s s' → J s' ∧ ∀ u, I s u → I s' u)
    (harrive : ∀ {s s' t}, J s → Y.arrive s s' t → J s' ∧ I s' t ∧ ∀ u, I s u → I s' u)
    {p : Pool σ τ} (hr : Y.Reachable start p) : J p.shared ∧ ∀ t ∈ p.tasks, I p.shared t := by
  induction hr with
  | start h => exact hstart _ h
  | step _ hs ih =>
    obtain ⟨hJ, hI⟩ := ih
    cases hs with
    | @act s s' l r new t t' h =>
      have ht : I s t := hI t (by simp)
      obtain ⟨hJ', ht', hn⟩ := hact hJ ht h
      refine ⟨hJ', fun u hu => ?_⟩
      have hother : ∀ v ∈ l ++ t :: r, I s' v := fun v hv => hstable hJ ht h (hI v hv)
      simp only [List.mem_append, List.mem_cons] at hu
      rcases hu with hu | rfl | hu | hu
      · exact hother u (by simp [hu])
      · exact ht'
      · exact hother u (by simp [hu])
      · exact hn u hu
    | env h =>
      obtain ⟨hJ', hI'⟩ := henv hJ h
      exact ⟨hJ', fun u hu => hI' u (hI u hu)⟩
    | arrive h =>
      obtain ⟨hJ', ht, hI'⟩ := harrive hJ h
      refine ⟨hJ', fun u hu => ?_⟩
      rcases List.mem_append.mp hu with hu | hu
      · exact hI' u (hI u hu)
      · rw [List.mem_singleton.mp hu]
        exact ht

/-- **THE TASK INVARIANT RULE**, for an assertion of a task by itself: what acts keeps it for itself
    and its children. -/
theorem System.Reachable.taskInv {Y : System σ τ} {start : Pool σ τ → Prop} {I : τ → Prop}
    (hstart : ∀ p, start p → ∀ t ∈ p.tasks, I t)
    (hact : ∀ {s t s' t' new}, I t → Y.act s t s' t' new → I t' ∧ ∀ n ∈ new, I n)
    (harrive : ∀ {s s' t}, Y.arrive s s' t → I t) {p : Pool σ τ} (hr : Y.Reachable start p) :
    ∀ t ∈ p.tasks, I t :=
  (System.Reachable.inv (J := fun _ => True) (I := fun _ => I) (fun p hp => ⟨trivial, hstart p hp⟩)
    (fun _ ht hs => ⟨trivial, hact ht hs⟩) (fun _ _ _ hu => hu) (fun _ _ => ⟨trivial, fun _ hu => hu⟩)
    (fun _ ha => ⟨trivial, harrive ha, fun _ hu => hu⟩) hr).2

/-- **THE LOCAL INVARIANT RULE**, for an assertion `I` of each task that rests on what is already
    known of reachable pools: the acting task keeps it, and a step leaves it alone elsewhere. -/
theorem System.Reachable.localInv {Y : System σ τ} {start : Pool σ τ → Prop} {I : σ → τ → Prop}
    (hstart : ∀ p, start p → ∀ t ∈ p.tasks, I p.shared t)
    (hact : ∀ {p p' w t t' new}, Y.Reachable start p → Y.Step p w p' → t ∈ p.tasks →
      I p.shared t → Y.act p.shared t p'.shared t' new →
      I p'.shared t' ∧ ∀ n ∈ new, I p'.shared n)
    (harrive : ∀ {p s' t}, Y.Reachable start p → Y.arrive p.shared s' t → I s' t)
    (hstable : ∀ {p p' w u}, Y.Reachable start p → Y.Step p w p' → I p.shared u → I p'.shared u)
    {p : Pool σ τ} (hr : Y.Reachable start p) : ∀ t ∈ p.tasks, I p.shared t := by
  induction hr with
  | start h => exact hstart _ h
  | step hr hs ih =>
    intro u hu
    cases hs with
    | @act s s' l r new t t' h =>
      have hs := System.Step.act (l := l) (r := r) h
      obtain ⟨ht', hn⟩ := hact hr hs (by simp) (ih t (by simp)) h
      simp only [List.mem_append, List.mem_cons] at hu
      rcases hu with hu | rfl | hu | hu
      · exact hstable hr hs (ih u (by simp [hu]))
      · exact ht'
      · exact hstable hr hs (ih u (by simp [hu]))
      · exact hn u hu
    | env h => exact hstable hr (.env h) (ih u hu)
    | arrive h =>
      rcases List.mem_append.mp hu with hu | hu
      · exact hstable hr (.arrive h) (ih u hu)
      · rw [List.mem_singleton.mp hu]
        exact harrive hr h

/-! ## 4. Sums over the tasks -/

/-- The sum of a weight over all tasks. -/
def Pool.total (w : τ → Nat) (p : Pool σ τ) : Nat := (p.tasks.map w).sum

@[simp] theorem total_mk (w : τ → Nat) (s : σ) (ts : List τ) :
    (Pool.mk s ts).total w = (ts.map w).sum := rfl

/-- The total splits at the acting task. -/
theorem total_split (w : τ → Nat) (s : σ) (l r : List τ) (t : τ) :
    (Pool.mk s (l ++ t :: r)).total w = (l.map w).sum + w t + (r.map w).sum := by
  simp [Nat.add_assoc]

/-- The total after a step splits at the acting task, with the spawned tasks at the end. -/
theorem total_split_new (w : τ → Nat) (s : σ) (l r new : List τ) (t : τ) :
    (Pool.mk s (l ++ t :: (r ++ new))).total w =
      (l.map w).sum + w t + (r.map w).sum + (new.map w).sum := by
  simp [Nat.add_assoc]

/-- Two tasks at different positions both count. -/
theorem total_two (w : τ → Nat) {p : Pool σ τ} {i j : Nat} {t u : τ} (hij : i ≠ j)
    (ht : p.tasks[i]? = some t) (hu : p.tasks[j]? = some u) : w t + w u ≤ p.total w := by
  obtain ⟨hi, rfl⟩ := List.getElem?_eq_some_iff.mp ht
  have hsplit := List.take_append_drop i p.tasks
  rw [List.drop_eq_getElem_cons hi] at hsplit
  have hmem : u ∈ p.tasks.take i ∨ u ∈ p.tasks.drop (i + 1) := by
    rcases Nat.lt_or_gt_of_ne hij with hlt | hlt
    · refine Or.inr (List.mem_of_getElem? (i := j - (i + 1)) ?_)
      rw [List.getElem?_drop, Nat.add_sub_cancel' hlt]
      exact hu
    · refine Or.inl (List.mem_of_getElem? (i := j) ?_)
      rw [List.getElem?_take_of_lt hlt]
      exact hu
  have hle : ∀ l : List τ, u ∈ l → w u ≤ (l.map w).sum := fun l hl =>
    List.single_le_sum (fun _ _ => Nat.zero_le _) _ (List.mem_map_of_mem hl)
  have hsum := congrArg (fun l : List τ => (l.map w).sum) hsplit
  simp only [List.map_append, List.map_cons, List.sum_append, List.sum_cons] at hsum
  unfold Pool.total
  rcases hmem with hmem | hmem
  · have := hle _ hmem
    omega
  · have := hle _ hmem
    omega

theorem total_add (v w : τ → Nat) (p : Pool σ τ) :
    (p.total fun t => v t + w t) = p.total v + p.total w :=
  List.sum_map_add

theorem total_mono {v w : τ → Nat} {p : Pool σ τ} (h : ∀ t ∈ p.tasks, v t ≤ w t) :
    p.total v ≤ p.total w :=
  List.sum_le_sum h

/-- How many tasks a predicate holds of. -/
theorem countP_eq_total (P : τ → Bool) (p : Pool σ τ) :
    p.tasks.countP P = p.total fun t => if P t = true then 1 else 0 := by
  unfold Pool.total
  induction p.tasks with
  | nil => rfl
  | cons t ts ih => rw [List.countP_cons, ih, List.map_cons, List.sum_cons, Nat.add_comm]

/-- What every task counts for is counted by the tasks that answer for it. -/
theorem total_le_of_covered {v : τ → Nat} {w : τ → τ → Nat} {p : Pool σ τ}
    (h : ∀ t ∈ p.tasks, v t ≤ p.total fun c => w c t) :
    p.total v ≤ p.total fun c => p.total (w c) := by
  have hswap := Multiset.sum_map_sum_map (f := w) (p.tasks : Multiset τ) (p.tasks : Multiset τ)
  simp only [Multiset.map_coe, Multiset.sum_coe] at hswap
  unfold Pool.total
  rw [hswap]
  exact total_mono h

/-- **THE ACCOUNTING RULE.** A counter `f` (up to wrapping at `m`) that each acting task moves by as
    much as it pays off: what it owes and what it has called for. Then in every reachable pool the
    counter, with what is still owed, is all that was called for. -/
theorem System.Reachable.accounted {Y : System σ τ} {start : Pool σ τ → Prop} {m : Nat}
    {f : σ → Nat} {owed called : τ → Nat}
    (hstart : ∀ p, start p → f p.shared + p.total owed ≡ p.total called [MOD m])
    (hact : ∀ {p : Pool σ τ} {s' t t'} {new : List τ}, Y.Reachable start p → t ∈ p.tasks →
      Y.act p.shared t s' t' new → new = [] ∧ ∃ n, f s' ≡ f p.shared + n [MOD m] ∧
        n + owed t' + called t = owed t + called t')
    (henv : ∀ {s s'}, Y.env s s' → f s' = f s)
    (harrive : ∀ {s s' t}, Y.arrive s s' t → f s' = f s ∧ owed t = called t)
    {p : Pool σ τ} (hr : Y.Reachable start p) :
    f p.shared + p.total owed ≡ p.total called [MOD m] := by
  induction hr with
  | start h => exact hstart _ h
  | step hr hs ih =>
    cases hs with
    | @act s s' l r new t t' h =>
      obtain ⟨rfl, n, hmove, hpaid⟩ := hact hr (by simp) h
      rw [total_split, total_split] at ih
      rw [List.append_nil, total_split, total_split]
      dsimp only at hmove ih ⊢
      refine Nat.ModEq.add_right_cancel' (called t) ?_
      calc f s' + ((l.map owed).sum + owed t' + (r.map owed).sum) + called t
          ≡ f s + n + ((l.map owed).sum + owed t' + (r.map owed).sum) + called t [MOD m] :=
            (hmove.add_right _).add_right _
        _ = f s + ((l.map owed).sum + owed t + (r.map owed).sum) + called t' := by omega
        _ ≡ (l.map called).sum + called t + (r.map called).sum + called t' [MOD m] :=
            ih.add_right _
        _ = (l.map called).sum + called t' + (r.map called).sum + called t := by omega
    | env h =>
      rw [total_mk, total_mk] at ih ⊢
      dsimp only at ih ⊢
      rw [henv h]
      exact ih
    | arrive h =>
      obtain ⟨hsame, heq⟩ := harrive h
      rw [total_mk, total_mk] at ih ⊢
      dsimp only at ih ⊢
      rw [List.map_append, List.map_append, List.sum_append, List.sum_append, hsame,
        ← Nat.add_assoc]
      simp only [List.map_cons, List.map_nil, List.sum_singleton, heq]
      exact ih.add_right _

/-- **THE BUDGET RULE.** Every task has a budget (`Has`: any number that is enough), what a step
    uses up is paid for out of the budget of the acting task or by what the step grants that task.
    Then in every reachable pool no more has been used than the tasks were granted. -/
theorem System.Reachable.budgeted {Y : System σ τ} {start : Pool σ τ → Prop} {Has : Nat → τ → Prop}
    {used : σ → Nat} {granted : τ → Nat}
    (hstart : ∀ p, start p →
      ∃ ns, List.Forall₂ Has ns p.tasks ∧ used p.shared + ns.sum ≤ p.total granted)
    (hact : ∀ {p : Pool σ τ} {s' t t'} {new : List τ} {n}, Y.Reachable start p → t ∈ p.tasks →
      Has n t → Y.act p.shared t s' t' new → ∃ n' ns, Has n' t' ∧ List.Forall₂ Has ns new ∧
        used s' + n' + ns.sum + granted t ≤ used p.shared + n + granted t')
    (henv : ∀ {s s'}, Y.env s s' → used s' ≤ used s)
    (harrive : ∀ {s s' t}, Y.arrive s s' t → ∃ n, Has n t ∧ used s' + n ≤ used s + granted t)
    {p : Pool σ τ} (hr : Y.Reachable start p) :
    ∃ ns, List.Forall₂ Has ns p.tasks ∧ used p.shared + ns.sum ≤ p.total granted := by
  induction hr with
  | start h => exact hstart _ h
  | step hr hs ih =>
    obtain ⟨ns, hns, hle⟩ := ih
    cases hs with
    | @act s s' l r new t t' h =>
      have hl := List.forall₂_take_append ns l (t :: r) hns
      obtain ⟨n, nr, hn, hnr, hdrop⟩ :=
        List.forall₂_cons_right_iff.mp (List.forall₂_drop_append ns l (t :: r) hns)
      obtain ⟨n', new', hn', hnew, hpaid⟩ := hact hr (by simp) hn h
      refine ⟨ns.take l.length ++ n' :: (nr ++ new'),
        List.rel_append hl (.cons hn' (List.rel_append hnr hnew)), ?_⟩
      rw [← List.take_append_drop l.length ns, hdrop, total_split] at hle
      rw [total_split_new]
      simp only [List.sum_append, List.sum_cons] at hle hpaid ⊢
      omega
    | env h =>
      exact ⟨ns, hns, (Nat.add_le_add_right (henv h) _).trans hle⟩
    | arrive h =>
      obtain ⟨n, hn, hgrant⟩ := harrive h
      refine ⟨ns ++ [n], List.rel_append hns (.cons hn .nil), ?_⟩
      rw [total_mk] at hle ⊢
      rw [List.sum_append, List.sum_singleton, List.map_append, List.sum_append]
      simp only [List.map_cons, List.map_nil, List.sum_singleton] at hle ⊢
      omega

/-- **THE SIMULATION RULE.** If every step from a reachable pool is matched, from each abstract state
    that stands for the pool, by an abstract step or by none, then every run from a reachable pool
    is matched by abstract steps. -/
theorem System.Run.simulated {α : Type} {Y : System σ τ} {start : Pool σ τ → Prop}
    {R : Pool σ τ → α → Prop} {step : α → α → Prop}
    (hstep : ∀ {p p' : Pool σ τ} {w a}, Y.Reachable start p → R p a → Y.Step p w p' →
      ∃ a', R p' a' ∧ Relation.ReflGen step a a')
    {p q : Pool σ τ} {vs : List (Pool σ τ × Actor)} {a : α} (hp : Y.Reachable start p)
    (h : R p a) (hr : Y.Run p vs q) : ∃ a', R q a' ∧ Relation.ReflTransGen step a a' := by
  induction hr with
  | refl => exact ⟨a, h, .refl⟩
  | step hr hs ih =>
    obtain ⟨a', hrel, hmatched⟩ := ih
    obtain ⟨a'', hrel', hlast⟩ := hstep (hp.run hr) hrel hs
    exact ⟨a'', hrel', hmatched.trans hlast.to_reflTransGen⟩

/-! ## 5. History variables -/

section Histories

variable {τ' : Type} {Y : System σ τ} {Y' : System σ τ'} {start : Pool σ τ → Prop}
  {start' : Pool σ τ' → Prop}

/-- A pool with less in its tasks. -/
def Pool.map (g : τ' → τ) (p : Pool σ τ') : Pool σ τ := ⟨p.shared, p.tasks.map g⟩

/-- **Tasks that carry more** do nothing that they could not do without it, -/
theorem System.Reachable.map {g : τ' → τ} (hstart : ∀ p, start' p → start (p.map g))
    (hact : ∀ {s t s' t' new}, Y'.act s t s' t' new → Y.act s (g t) s' (g t') (new.map g))
    (henv : ∀ {s s'}, Y'.env s s' → Y.env s s')
    (harrive : ∀ {s s' t}, Y'.arrive s s' t → Y.arrive s s' (g t)) {p : Pool σ τ'}
    (hr : Y'.Reachable start' p) : Y.Reachable start (p.map g) := by
  induction hr with
  | start h => exact .start (hstart _ h)
  | step _ hs ih =>
    cases hs with
    | @act s s' l r new t t' h =>
      have hs := System.Step.act (l := l.map g) (r := r.map g) (hact h)
      unfold Pool.map at ih ⊢
      simp only [List.map_append, List.map_cons] at ih ⊢
      exact ih.step hs
    | env h => exact ih.step (.env (henv h))
    | arrive h =>
      unfold Pool.map at ih ⊢
      rw [List.map_append]
      exact ih.step (.arrive (harrive h))

/-- and whatever tasks can do, they can do carrying more. -/
theorem System.Reachable.lift {g : τ' → τ} (hstart : ∀ p, start p → ∃ p', start' p' ∧ p'.map g = p)
    (hact : ∀ {s t s' u new}, Y.act s (g t) s' u new →
      ∃ t' new', Y'.act s t s' t' new' ∧ g t' = u ∧ new'.map g = new)
    (henv : ∀ {s s'}, Y.env s s' → Y'.env s s')
    (harrive : ∀ {s s' u}, Y.arrive s s' u → ∃ t, Y'.arrive s s' t ∧ g t = u) {p : Pool σ τ}
    (hr : Y.Reachable start p) : ∃ p', Y'.Reachable start' p' ∧ p'.map g = p := by
  induction hr with
  | start h =>
    obtain ⟨p', hp', rfl⟩ := hstart _ h
    exact ⟨p', .start hp', rfl⟩
  | step _ hs ih =>
    obtain ⟨⟨s₀, tasks⟩, hr', heq⟩ := ih
    unfold Pool.map at heq ⊢
    cases hs with
    | @act s s' l r new u u' h =>
      obtain ⟨rfl, htasks⟩ := Pool.mk.inj heq
      obtain ⟨l', tr, rfl, rfl, htr⟩ := List.map_eq_append_iff.mp htasks
      obtain ⟨t, r', rfl, rfl, rfl⟩ := List.map_eq_cons_iff.mp htr
      obtain ⟨t', new', hstep, rfl, rfl⟩ := hact h
      exact ⟨_, hr'.step (.act hstep), by simp⟩
    | env h =>
      obtain ⟨rfl, rfl⟩ := Pool.mk.inj heq
      exact ⟨_, hr'.step (.env (henv h)), rfl⟩
    | arrive h =>
      obtain ⟨rfl, rfl⟩ := Pool.mk.inj heq
      obtain ⟨t, harrived, rfl⟩ := harrive h
      exact ⟨_, hr'.step (.arrive harrived), by simp⟩

end Histories

end TaskPool
