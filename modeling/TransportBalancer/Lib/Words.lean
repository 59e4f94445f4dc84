/-
  File:      TransportBalancer/Lib/Words.lean
  Subject:   Saturating arithmetic of machine words, read in `Nat`.

  Each operation comes with the lemma that says what it is on `toNat`; with them a goal about
  words becomes one about numbers, for `omega`.
-/
import Mathlib.Algebra.GroupWithZero.Nat
import Mathlib.Tactic.Common

namespace MachineWord

/-! ## 1. 32 bits -/

/-- `u32::saturating_sub`. -/
def satSub32 (a b : UInt32) : UInt32 := if b ≤ a then a - b else 0

/-- `u32::saturating_add`. -/
def satAdd32 (a b : UInt32) : UInt32 := if a.toNat + b.toNat < 2 ^ 32 then a + b else -1

@[simp] theorem toNat_satSub32 (a b : UInt32) : (satSub32 a b).toNat = a.toNat - b.toNat := by
  unfold satSub32
  split
  · rename_i h
    exact UInt32.toNat_sub_of_le a b h
  · rename_i h
    rw [UInt32.le_iff_toNat_le] at h
    simp
    omega

theorem satSub32_le (a b : UInt32) : satSub32 a b ≤ a := by
  rw [UInt32.le_iff_toNat_le, toNat_satSub32]
  exact Nat.sub_le _ _

@[simp] theorem toNat_satAdd32 (a b : UInt32) :
    (satAdd32 a b).toNat = min (a.toNat + b.toNat) (2 ^ 32 - 1) := by
  unfold satAdd32
  split
  · rename_i h
    rw [UInt32.toNat_add, Nat.mod_eq_of_lt h]
    omega
  · have e : (-1 : UInt32).toNat = 2 ^ 32 - 1 := rfl
    rw [e]
    omega

@[simp] theorem toNat_min32 (a b : UInt32) : (min a b).toNat = min a.toNat b.toNat := by
  show (if a ≤ b then a else b).toNat = _
  by_cases h : a ≤ b
  · rw [if_pos h, Nat.min_eq_left (UInt32.le_iff_toNat_le.mp h)]
  · rw [if_neg h, Nat.min_eq_right (by rw [UInt32.le_iff_toNat_le] at h; omega)]

theorem eq_zero_iff32 {a : UInt32} : a = 0 ↔ a.toNat = 0 :=
  ⟨fun h => by rw [h]; rfl, fun h => UInt32.toNat_inj.mp h⟩

theorem pos_iff32 {a : UInt32} : 0 < a ↔ 0 < a.toNat := UInt32.lt_iff_toNat_lt

/-! ## 2. 64 bits -/

/-- `u64::saturating_sub`. -/
def satSub64 (a b : UInt64) : UInt64 := if b ≤ a then a - b else 0

@[simp] theorem toNat_satSub64 (a b : UInt64) : (satSub64 a b).toNat = a.toNat - b.toNat := by
  unfold satSub64
  split
  · rename_i h
    exact UInt64.toNat_sub_of_le a b h
  · rename_i h
    rw [UInt64.le_iff_toNat_le] at h
    simp
    omega

@[simp] theorem toNat_max64 (a b : UInt64) : (max a b).toNat = max a.toNat b.toNat := by
  show (if a ≤ b then b else a).toNat = _
  by_cases h : a ≤ b
  · rw [if_pos h, Nat.max_eq_right (UInt64.le_iff_toNat_le.mp h)]
  · rw [if_neg h, Nat.max_eq_left (by rw [UInt64.le_iff_toNat_le] at h; omega)]

theorem eq_zero_iff64 {a : UInt64} : a = 0 ↔ a.toNat = 0 :=
  ⟨fun h => by rw [h]; rfl, fun h => UInt64.toNat_inj.mp h⟩

theorem pos_iff64 {a : UInt64} : 0 < a ↔ 0 < a.toNat := UInt64.lt_iff_toNat_lt

end MachineWord
