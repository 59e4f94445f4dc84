/-
  File:      TransportBalancer/Lib/Means.lean
  Subject:   THE FLOOR OF A WEIGHTED MEAN, in `Nat`.

  * `weightedMean` -- the weighted sum over the sum of the weights, rounded down;
  * `le_weightedMean`, `weightedMean_le` -- it lies between any two bounds of the values;
  * `weightedMean_eq_iff` -- it reaches an upper bound only if every value does.
-/
import Mathlib.Algebra.BigOperators.Group.List.Basic
import Mathlib.Algebra.Order.BigOperators.Group.List
import Mathlib.Algebra.BigOperators.Ring.List
import Mathlib.Algebra.Order.Group.Nat
import Mathlib.Algebra.Order.Ring.Nat

namespace Means

variable {α : Type} (w d : α → Nat)

/-- The sum of the weighted values. -/
def weightedSum (xs : List α) : Nat := (xs.map fun x => w x * d x).sum

/-- The sum of the weights. -/
def weightSum (xs : List α) : Nat := (xs.map w).sum

/-- The weighted mean, rounded down. -/
def weightedMean (xs : List α) : Nat := weightedSum w d xs / weightSum w xs

@[simp] theorem weightedSum_nil : weightedSum w d [] = 0 := rfl

@[simp] theorem weightSum_nil : weightSum w [] = 0 := rfl

@[simp] theorem weightedSum_cons (x : α) (xs : List α) :
    weightedSum w d (x :: xs) = w x * d x + weightedSum w d xs := rfl

@[simp] theorem weightSum_cons (x : α) (xs : List α) :
    weightSum w (x :: xs) = w x + weightSum w xs := rfl

variable {w d}

theorem weightSum_pos {xs : List α} (hne : xs ≠ []) (hw : ∀ x ∈ xs, 0 < w x) :
    0 < weightSum w xs := by
  obtain ⟨x, xs, rfl⟩ := List.exists_cons_of_ne_nil hne
  rw [weightSum_cons]
  exact Nat.add_pos_left (hw x List.mem_cons_self) _

/-- A value with a positive weight is within the weighted sum. -/
theorem le_weightedSum {xs : List α} {x : α} (hx : x ∈ xs) (hw : 0 < w x) :
    d x ≤ weightedSum w d xs :=
  calc d x ≤ w x * d x := Nat.le_mul_of_pos_left _ hw
    _ ≤ weightedSum w d xs :=
      List.single_le_sum (fun _ _ => Nat.zero_le _) _ (List.mem_map_of_mem hx)

/-- A lower bound of the values, weighted. -/
theorem mul_le_weightedSum {xs : List α} {m : Nat} (hd : ∀ x ∈ xs, m ≤ d x) :
    m * weightSum w xs ≤ weightedSum w d xs := by
  induction xs with
  | nil => simp
  | cons x xs ih =>
    obtain ⟨hx, hxs⟩ := List.forall_mem_cons.mp hd
    rw [weightSum_cons, weightedSum_cons, Nat.mul_add, Nat.mul_comm m]
    exact Nat.add_le_add (Nat.mul_le_mul_left _ hx) (ih hxs)

/-- What the weighted sum lacks to an upper bound of the values. -/
theorem weightedSum_add_lack {xs : List α} {m : Nat} (hd : ∀ x ∈ xs, d x ≤ m) :
    weightedSum w d xs + weightedSum w (fun x => m - d x) xs = m * weightSum w xs := by
  induction xs with
  | nil => simp
  | cons x xs ih =>
    obtain ⟨hx, hxs⟩ := List.forall_mem_cons.mp hd
    have hhead : w x * d x + w x * (m - d x) = m * w x := by
      rw [← Nat.mul_add, Nat.add_sub_cancel' hx, Nat.mul_comm]
    have htail := ih hxs
    simp only [weightSum_cons, weightedSum_cons, Nat.mul_add]
    omega

theorem le_weightedMean {xs : List α} (hne : xs ≠ []) (hw : ∀ x ∈ xs, 0 < w x) {m : Nat}
    (hd : ∀ x ∈ xs, m ≤ d x) : m ≤ weightedMean w d xs :=
  (Nat.le_div_iff_mul_le (weightSum_pos hne hw)).mpr (mul_le_weightedSum hd)

theorem weightedMean_le {xs : List α} {m : Nat} (hd : ∀ x ∈ xs, d x ≤ m) :
    weightedMean w d xs ≤ m := by
  have hlack := weightedSum_add_lack (w := w) hd
  refine Nat.div_le_of_le_mul ?_
  rw [Nat.mul_comm]
  omega

/-- **The mean reaches an upper bound of the values** only if every value does. -/
theorem weightedMean_eq_iff {xs : List α} (hne : xs ≠ []) (hw : ∀ x ∈ xs, 0 < w x) {m : Nat}
    (hd : ∀ x ∈ xs, d x ≤ m) : weightedMean w d xs = m ↔ ∀ x ∈ xs, d x = m := by
  constructor
  · intro h x hx
    have hlack := weightedSum_add_lack (w := w) hd
    have hreach : m * weightSum w xs ≤ weightedSum w d xs :=
      (Nat.le_div_iff_mul_le (weightSum_pos hne hw)).mp (Nat.le_of_eq h.symm)
    have hx0 : m - d x ≤ weightedSum w (fun x => m - d x) xs :=
      le_weightedSum (d := fun x => m - d x) hx (hw x hx)
    have hdx := hd x hx
    omega
  · intro h
    exact Nat.le_antisymm (weightedMean_le hd)
      (le_weightedMean hne hw fun x hx => Nat.le_of_eq (h x hx).symm)

end Means
