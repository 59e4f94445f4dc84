/-
  File:      TransportBalancer/Lib/Path.lean
  Subject:   INFINITE RUNS OF A TASK POOL, and what holds of them in the end.

  * `System.Path` -- an infinite run, with its actors; `Path.stays`: a task that does not act stays
    as it is;
  * `potential`, `potential_act` -- a worth of each task and a weight of the shared state;
  * **`Path.settles`** -- a potential that never rises is constant from some point on;
  * **`WeaklyFair.acts`** -- on a weakly fair run a task that could go on, left as it is, acts.
-/
import Mathlib.Order.Nat
import TransportBalancer.Lib.Pool

namespace TaskPool

variable {σ τ : Type}

/-- **An infinite run**: the pools and who takes the step from each. -/
structure System.Path (Y : System σ τ) where
  pool : Nat → Pool σ τ
  actor : Nat → Actor
  step : ∀ n, Y.Step (pool n) (actor n) (pool (n + 1))

section Paths

variable {Y : System σ τ} {start : Pool σ τ → Prop} (run : Y.Path)

/-! ## 1. Tasks along a run -/

theorem System.Path.reachable (h : Y.Reachable start (run.pool 0)) :
    ∀ n, Y.Reachable start (run.pool n)
  | 0 => h
  | n + 1 => .step (reachable h n) (run.step n)

/-- What a step keeps holds from where it holds on. -/
theorem System.Path.keeps {P : Pool σ τ → Prop} {n : Nat} (h : P (run.pool n))
    (hstep : ∀ k, n ≤ k → P (run.pool k) → P (run.pool (k + 1))) {m : Nat} (hm : n ≤ m) :
    P (run.pool m) := by
  induction m, hm using Nat.le_induction with
  | base => exact h
  | succ k hk ih => exact hstep k hk ih

/-- **A task that does not act stays as it is.** -/
theorem System.Path.stays {n m i : Nat} {t : τ} (ht : (run.pool n).tasks[i]? = some t)
    (hm : n ≤ m) (hidle : ∀ k, n ≤ k → k < m → run.actor k ≠ .task i) :
    (run.pool m).tasks[i]? = some t := by
  induction m, hm using Nat.le_induction with
  | base => exact ht
  | succ k hk ih =>
    rcases step_task_at (run.step k) (ih fun j hj hjk => hidle j hj (Nat.lt_succ_of_lt hjk)) with
      ⟨hact, _⟩ | ⟨_, hsame⟩
    · exact absurd hact (hidle k hk (Nat.lt_succ_self k))
    · exact hsame

/-- A task that acts at some point from `n` on acts for a first time. -/
theorem System.Path.firstAct {n i : Nat} (h : ∃ m, n ≤ m ∧ run.actor m = .task i) :
    ∃ m, n ≤ m ∧ run.actor m = .task i ∧ ∀ k, n ≤ k → k < m → run.actor k ≠ .task i := by
  classical
  refine ⟨Nat.find h, (Nat.find_spec h).1, (Nat.find_spec h).2, fun k hk hlt hact => ?_⟩
  exact Nat.find_min h hlt ⟨hk, hact⟩

/-- **Weak fairness**, for what it means that a task can go on: a task that can from some point on
    acts. -/
def System.Path.WeaklyFair (go : σ → τ → Prop) : Prop :=
  ∀ n i, (∀ m, n ≤ m → ∃ t, (run.pool m).tasks[i]? = some t ∧ go (run.pool m).shared t) →
    ∃ m, n ≤ m ∧ run.actor m = .task i

variable {run}

/-- **A task that could go on from some point on, left as it is, acts**, and is then as it was. -/
theorem System.Path.WeaklyFair.acts {go : σ → τ → Prop} (hfair : run.WeaklyFair go) {n i : Nat}
    {t : τ} (ht : (run.pool n).tasks[i]? = some t)
    (hgo : ∃ k, n ≤ k ∧ ∀ m, k ≤ m → go (run.pool m).shared t) :
    ∃ m, n ≤ m ∧ run.actor m = .task i ∧ (run.pool m).tasks[i]? = some t := by
  have hacts : ∃ m, n ≤ m ∧ run.actor m = .task i := by
    by_contra hnever
    obtain ⟨k, hk, hgo⟩ := hgo
    have hstays : ∀ m, n ≤ m → (run.pool m).tasks[i]? = some t := fun m hm =>
      run.stays ht hm fun j hj _ hact => hnever ⟨j, hj, hact⟩
    obtain ⟨m, hm, hact⟩ := hfair k i fun m hm => ⟨t, hstays m (hk.trans hm), hgo m hm⟩
    exact hnever ⟨m, hk.trans hm, hact⟩
  obtain ⟨m, hm, hact, hfirst⟩ := run.firstAct hacts
  exact ⟨m, hm, hact, run.stays ht hm hfirst⟩

variable (run)

/-! ## 2. Potentials -/

/-- What the tasks are worth together, and the weight of the shared state. -/
def potential (worth : τ → Nat) (weight : σ → Nat) (p : Pool σ τ) : Nat :=
  p.total worth + weight p.shared

/-- A step of a task changes the potential by what it changes in its own worth, in that of the
    tasks it spawns, and in the weight. -/
theorem potential_act (worth : τ → Nat) (weight : σ → Nat) {s s' : σ} {l r new : List τ} {t t' : τ}
    {k : Nat} (h : worth t' + (new.map worth).sum + weight s' + k ≤ worth t + weight s) :
    potential worth weight ⟨s', l ++ t' :: (r ++ new)⟩ + k ≤
      potential worth weight ⟨s, l ++ t :: r⟩ := by
  unfold potential
  rw [total_split_new, total_split]
  simp only
  omega

/-- **A potential that never rises** from `n` on is constant in the end. -/
theorem System.Path.settles (V : Pool σ τ → Nat) {n : Nat}
    (h : ∀ m, n ≤ m → V (run.pool (m + 1)) ≤ V (run.pool m)) :
    ∃ m, n ≤ m ∧ ∀ k, m ≤ k → V (run.pool (k + 1)) = V (run.pool k) := by
  -- from where it is least
  classical
  have hne : ∃ v m, n ≤ m ∧ V (run.pool m) = v := ⟨_, n, Nat.le_refl n, rfl⟩
  obtain ⟨m, hm, hleast⟩ := Nat.find_spec hne
  have hmin : ∀ k, n ≤ k → V (run.pool m) ≤ V (run.pool k) := fun k hk => by
    rw [hleast]
    exact Nat.find_min' hne ⟨k, hk, rfl⟩
  have hconst : ∀ k, m ≤ k → V (run.pool k) = V (run.pool m) := by
    intro k hk
    induction k, hk using Nat.le_induction with
    | base => rfl
    | succ k hk ih =>
      exact Nat.le_antisymm (ih ▸ h k (hm.trans hk)) (hmin (k + 1) (by omega))
  exact ⟨m, hm, fun k hk => by rw [hconst k hk, hconst (k + 1) (by omega)]⟩

end Paths

end TaskPool
