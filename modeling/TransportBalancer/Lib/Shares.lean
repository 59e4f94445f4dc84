/-
  File:      TransportBalancer/Lib/Shares.lean
  Subject:   WEIGHTED SHARES OF A CYCLE. Positions of a cycle are dealt to the entries of a list of
             weights in order: entry `i` owns as many consecutive positions as it weighs.

  * `runningSums` -- where the share of each entry ends;
  * `owner` -- whose share a position falls into, and `owner_eq_iff`: the interval it means;
  * **`count_owner_window`** -- in any window as long as the cycle, aligned or not, an entry owns
    as many positions as it weighs; `countP_owner_window`: and so do some entries together;
  * `countP_slide`, `owner_next` -- the next window and the next position.
-/
import Mathlib.Data.Nat.Periodic
import Mathlib.Tactic.Common

namespace WeightedShares

/-- The sums of the weights so far, on top of `base`. -/
def runningSums (base : Nat) : List Nat → List Nat
  | [] => []
  | w :: ws => (base + w) :: runningSums (base + w) ws

@[simp] theorem runningSums_length (base : Nat) (ws : List Nat) :
    (runningSums base ws).length = ws.length := by
  induction ws generalizing base with
  | nil => rfl
  | cons w ws ih => exact congrArg Nat.succ (ih (base + w))

theorem runningSums_append (base : Nat) (ws vs : List Nat) :
    runningSums base (ws ++ vs) = runningSums base ws ++ runningSums (base + ws.sum) vs := by
  induction ws generalizing base with
  | nil => rfl
  | cons w ws ih =>
    rw [List.cons_append, runningSums, ih, List.sum_cons, ← Nat.add_assoc]
    rfl

/-- The first entry whose share ends after the position. -/
def owner (base : Nat) (ws : List Nat) (position : Nat) : Nat :=
  (runningSums base ws).findIdx fun s => decide (position < s)

/-- **The share of an entry is an interval.** -/
theorem owner_eq_iff {ws : List Nat} {base i position : Nat} (hi : i < ws.length)
    (hbase : base ≤ position) :
    owner base ws position = i ↔
      base + (ws.take i).sum ≤ position ∧ position < base + (ws.take (i + 1)).sum := by
  induction ws generalizing base i with
  | nil => exact absurd hi (Nat.not_lt_zero i)
  | cons w ws ih =>
    unfold owner runningSums
    rw [List.findIdx_cons]
    by_cases hfirst : position < base + w
    · cases i with
      | zero => simp [hfirst, hbase]
      | succ i =>
        simp only [hfirst, decide_true, cond_true, List.take_succ_cons, List.sum_cons]
        omega
    · cases i with
      | zero => simp [hfirst]
      | succ i =>
        have ih := @ih (base + w) i (Nat.lt_of_succ_lt_succ hi) (by omega)
        unfold owner at ih
        simp only [hfirst, decide_false, cond_false, List.take_succ_cons, List.sum_cons]
        rw [Nat.succ_inj, ih]
        omega

/-- Every position of the cycle has an owner. -/
theorem owner_lt {ws : List Nat} {base position : Nat} (hbase : base ≤ position)
    (h : position < base + ws.sum) : owner base ws position < ws.length := by
  unfold owner
  rw [← runningSums_length base ws]
  refine List.findIdx_lt_length_of_exists ?_
  induction ws generalizing base with
  | nil => exact absurd h (Nat.not_lt.mpr hbase)
  | cons w ws ih =>
    by_cases hfirst : position < base + w
    · exact ⟨base + w, List.mem_cons_self, decide_eq_true hfirst⟩
    · rw [List.sum_cons, ← Nat.add_assoc] at h
      obtain ⟨s, hs, hpast⟩ := ih (Nat.le_of_not_lt hfirst) h
      exact ⟨s, List.mem_cons_of_mem _ hs, hpast⟩

theorem sum_take_le (ws : List Nat) (i : Nat) : (ws.take i).sum ≤ ws.sum :=
  (List.take_sublist i ws).sum_le_sum fun _ _ => Nat.zero_le _

/-- **In one cycle an entry owns as many positions as it weighs.** -/
theorem count_owner {ws : List Nat} {i : Nat} (hi : i < ws.length) :
    ws.sum.count (fun position => owner 0 ws position = i) = ws[i] := by
  have htake : (ws.take (i + 1)).sum = (ws.take i).sum + ws[i] := List.sum_take_succ ws i hi
  have hle : (ws.take (i + 1)).sum ≤ ws.sum := sum_take_le ws _
  rw [Nat.count_eq_card_filter_range]
  have hshare : (Finset.range ws.sum).filter (fun position => owner 0 ws position = i) =
      Finset.Ico (ws.take i).sum ((ws.take i).sum + ws[i]) := by
    ext position
    rw [Finset.mem_filter, Finset.mem_range, Finset.mem_Ico,
      owner_eq_iff hi (Nat.zero_le position)]
    omega
  rw [hshare, Nat.card_Ico]
  omega

/-- **In any window as long as the cycle** an entry owns as many positions as it weighs. -/
theorem count_owner_window {ws : List Nat} {i : Nat} (hi : i < ws.length) (start : Nat) :
    (List.range' start ws.sum).countP (fun n => decide (owner 0 ws (n % ws.sum) = i)) = ws[i] := by
  have hperiodic : Function.Periodic (fun n => owner 0 ws (n % ws.sum) = i) ws.sum := by
    intro n
    simp only [Nat.add_mod_right]
  have hwindow := Nat.filter_multiset_Ico_card_eq_of_periodic start ws.sum _ hperiodic
  have hmod : ws.sum.count (fun n => owner 0 ws (n % ws.sum) = i) =
      ws.sum.count (fun n => owner 0 ws n = i) := by
    rw [Nat.count_eq_card_filter_range, Nat.count_eq_card_filter_range]
    congr 1
    refine Finset.filter_congr fun n hn => ?_
    rw [Nat.mod_eq_of_lt (Finset.mem_range.mp hn)]
  rw [hmod, count_owner hi, ← Multiset.countP_eq_card_filter] at hwindow
  rw [← hwindow]
  show _ = Multiset.countP _ (List.range' start (start + ws.sum - start) : Multiset Nat)
  rw [Nat.add_sub_cancel_left, Multiset.coe_countP]

/-- **In any window as long as the cycle** some entries together own as many positions as they
    weigh together. -/
theorem countP_owner_window {ws : List Nat} (hpos : 0 < ws.sum) (p : Nat → Bool) (start : Nat) :
    (List.range' start ws.sum).countP (fun n => p (owner 0 ws (n % ws.sum))) =
      ∑ k ∈ (Finset.range ws.length).filter (fun k => p k = true), ws.getD k 0 := by
  have hfibers : ∀ positions : List Nat,
      positions.countP (fun n => p (owner 0 ws (n % ws.sum))) =
        ∑ k ∈ (Finset.range ws.length).filter (fun k => p k = true),
          positions.countP fun n => decide (owner 0 ws (n % ws.sum) = k) := by
    intro positions
    induction positions with
    | nil => simp
    | cons n positions ih =>
      have howner : owner 0 ws (n % ws.sum) < ws.length :=
        owner_lt (Nat.zero_le _) (by rw [Nat.zero_add]; exact Nat.mod_lt _ hpos)
      simp only [List.countP_cons, Finset.sum_add_distrib, decide_eq_true_eq, Finset.sum_ite_eq,
        Finset.mem_filter, Finset.mem_range, howner, true_and]
      rw [ih]
  rw [hfibers]
  refine Finset.sum_congr rfl fun k hk => ?_
  have hk := Finset.mem_range.mp (Finset.mem_filter.mp hk).1
  rw [count_owner_window hk, List.getD_eq_getElem?_getD, List.getElem?_eq_getElem hk]
  rfl

/-- **A window moved by one position** loses its first position and gains the one behind it. -/
theorem countP_slide (p : Nat → Bool) (start n : Nat) :
    (List.range' start n).countP p + (p (start + n)).toNat =
      (List.range' (start + 1) n).countP p + (p start).toNat := by
  have hback : (List.range' start (n + 1)).countP p =
      (List.range' start n).countP p + (p (start + n)).toNat := by
    rw [List.range'_concat, List.countP_append, List.countP_singleton, Nat.one_mul]
    cases p (start + n) <;> rfl
  have hfront : (List.range' start (n + 1)).countP p =
      (List.range' (start + 1) n).countP p + (p start).toNat := by
    rw [List.range'_succ, List.countP_cons]
    cases p start <;> rfl
  rw [← hback, hfront]

/-- **The next position** has the same owner, or the next one in the order of the entries, around
    their end; the latter right behind the share. -/
theorem owner_next {ws : List Nat} (hpos : ∀ w ∈ ws, 0 < w) {position k : Nat}
    (h : position < ws.sum) (hk : owner 0 ws position = k) :
    (position + 1 < (ws.take (k + 1)).sum ∧ owner 0 ws ((position + 1) % ws.sum) = k) ∨
      (position + 1 = (ws.take (k + 1)).sum ∧
        owner 0 ws ((position + 1) % ws.sum) = (k + 1) % ws.length) := by
  have hlt : k < ws.length := hk ▸ owner_lt (Nat.zero_le _) (by rwa [Nat.zero_add])
  obtain ⟨hfrom, hto⟩ := (owner_eq_iff hlt (Nat.zero_le _)).mp hk
  rw [Nat.zero_add] at hfrom hto
  by_cases hinside : position + 1 < (ws.take (k + 1)).sum
  · left
    have hcycle : position + 1 < ws.sum :=
      Nat.lt_of_lt_of_le hinside (sum_take_le ws _)
    rw [Nat.mod_eq_of_lt hcycle, owner_eq_iff hlt (Nat.zero_le _)]
    exact ⟨hinside, by omega⟩
  · have hend : position + 1 = (ws.take (k + 1)).sum := by omega
    refine Or.inr ⟨hend, ?_⟩
    by_cases hlast : k + 1 < ws.length
    · have hnext : (ws.take (k + 1 + 1)).sum = (ws.take (k + 1)).sum + ws[k + 1] :=
        List.sum_take_succ ws (k + 1) hlast
      have hweight := hpos ws[k + 1] (List.getElem_mem hlast)
      have hle : (ws.take (k + 1 + 1)).sum ≤ ws.sum := sum_take_le ws _
      rw [Nat.mod_eq_of_lt (by omega), Nat.mod_eq_of_lt hlast,
        owner_eq_iff hlast (Nat.zero_le _)]
      omega
    · have hall : ws.take (k + 1) = ws := List.take_of_length_le (by omega)
      rw [hend, hall, Nat.mod_self, show k + 1 = ws.length by omega, Nat.mod_self,
        owner_eq_iff (by omega) (Nat.zero_le _)]
      have hfirst := hpos ws[0] (List.getElem_mem (by omega))
      have htake : (ws.take (0 + 1)).sum = (ws.take 0).sum + ws[0] :=
        List.sum_take_succ ws 0 (by omega)
      rw [htake]
      exact ⟨Nat.le_refl _, by simpa using hfirst⟩

end WeightedShares
