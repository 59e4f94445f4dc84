/-
  File:      TransportBalancer/Lib/Segments.lean
  Subject:   A TEXT CUT AT A SEPARATOR, read from its end.

  * `Behind` -- a suffix that stands directly behind a separator, with so many separators in it;
  * **`Behind.unique`**, `exists_behind` -- there is exactly one in a text with more of them;
  * `Behind.prepend` -- a text put in front does not change it;
  * `behind_joined` -- in a text joined from segments it is the last segments, joined.
-/
import Mathlib.Algebra.GroupWithZero.Nat
import Mathlib.Data.List.DropRight
import Mathlib.Tactic.Common

namespace Segments

variable {α : Type} [DecidableEq α] {sep : α}

/-- **The suffix behind a separator** that holds `n` more of them. -/
structure Behind (sep : α) (n : Nat) (text suffix : List α) : Prop where
  split : ∃ front, text = front ++ sep :: suffix
  count : suffix.count sep = n

/-- A separator further on has fewer behind it. -/
theorem count_lt_of_append {front back suffix : List α} (h : sep :: suffix = front ++ sep :: back)
    (hne : front ≠ []) : back.count sep < suffix.count sep := by
  cases front with
  | nil => exact absurd rfl hne
  | cons x front =>
    rw [List.cons_append] at h
    injection h with _ htail
    rw [htail, List.count_append, List.count_cons_self]
    omega

/-- **There is at most one.** -/
theorem Behind.unique {n : Nat} {text suffix suffix' : List α} (h : Behind sep n text suffix)
    (h' : Behind sep n text suffix') : suffix = suffix' := by
  obtain ⟨front, hfront⟩ := h.split
  obtain ⟨front', hfront'⟩ := h'.split
  rw [hfront] at hfront'
  have hcount := h.count.trans h'.count.symm
  rcases List.append_eq_append_iff.mp hfront' with ⟨between, _, hsplit⟩ | ⟨between, _, hsplit⟩
  · by_cases hne : between = []
    · subst hne
      injection hsplit
    · have := count_lt_of_append hsplit hne
      omega
  · by_cases hne : between = []
    · subst hne
      injection hsplit with _ htail
      exact htail.symm
    · have := count_lt_of_append hsplit hne
      omega

/-- There is one, if the text has more separators. -/
theorem exists_behind {n : Nat} {text : List α} (h : n < text.count sep) :
    ∃ suffix, Behind sep n text suffix := by
  induction text with
  | nil => exact absurd h (Nat.not_lt_zero n)
  | cons x text ih =>
    by_cases hn : n < text.count sep
    · obtain ⟨suffix, ⟨front, hfront⟩, hcount⟩ := ih hn
      exact ⟨suffix, ⟨x :: front, by rw [hfront, List.cons_append]⟩, hcount⟩
    · by_cases hx : x = sep
      · subst hx
        rw [List.count_cons_self] at h
        exact ⟨text, ⟨[], rfl⟩, by omega⟩
      · rw [List.count_cons_of_ne hx] at h
        exact absurd h hn

/-- **A text put in front** leaves it what it was. -/
theorem Behind.prepend {n : Nat} {text suffix : List α} (h : Behind sep n text suffix)
    (front : List α) : Behind sep n (front ++ text) suffix := by
  obtain ⟨front', rfl⟩ := h.split
  exact ⟨⟨front ++ front', by rw [List.append_assoc]⟩, h.count⟩

/-! ## 1. Segments -/

/-- Segments with the separator between them. -/
abbrev joined (sep : α) (segments : List (List α)) : List α := [sep].intercalate segments

omit [DecidableEq α] in
theorem joined_append {front back : List (List α)} (hfront : front ≠ []) (hback : back ≠ []) :
    joined sep (front ++ back) = joined sep front ++ sep :: joined sep back := by
  induction front with
  | nil => exact absurd rfl hfront
  | cons segment front ih =>
    cases front with
    | nil =>
      cases back with
      | nil => exact absurd rfl hback
      | cons => simp [joined]
    | cons next front =>
      have hnext := ih (List.cons_ne_nil _ _)
      simp only [joined, List.cons_append, List.intercalate_cons_cons, List.append_assoc] at hnext ⊢
      rw [hnext]

/-- There is a separator between any two segments and nowhere else. -/
theorem count_joined {segments : List (List α)} (h : ∀ segment ∈ segments, sep ∉ segment) :
    (joined sep segments).count sep = segments.length - 1 := by
  induction segments with
  | nil => rfl
  | cons segment segments ih =>
    have hsegment := List.count_eq_zero_of_not_mem (h segment List.mem_cons_self)
    cases segments with
    | nil => simpa [joined] using hsegment
    | cons next segments =>
      rw [show segment :: next :: segments = [segment] ++ next :: segments from rfl,
        joined_append (List.cons_ne_nil _ _) (List.cons_ne_nil _ _), List.count_append,
        List.count_cons_self, ih fun s hs => h s (List.mem_cons_of_mem _ hs)]
      simp [joined, hsegment]

/-- **The last segments**, joined, are the suffix behind a separator. -/
theorem behind_joined {n : Nat} {segments : List (List α)}
    (h : ∀ segment ∈ segments, sep ∉ segment) (hn : n + 1 < segments.length) :
    Behind sep n (joined sep segments) (joined sep (segments.rtake (n + 1))) := by
  have hcut := List.take_append_drop (segments.length - (n + 1)) segments
  have hlast : (segments.rtake (n + 1)).length = n + 1 := by
    rw [List.rtake, List.length_drop]
    omega
  constructor
  · refine ⟨joined sep (segments.take (segments.length - (n + 1))), ?_⟩
    rw [← joined_append]
    · exact congrArg _ hcut.symm
    · exact List.ne_nil_of_length_pos (by rw [List.length_take]; omega)
    · exact List.ne_nil_of_length_pos (by omega)
  · have hfree : ∀ segment ∈ segments.rtake (n + 1), sep ∉ segment :=
      fun segment hs => h segment (List.mem_of_mem_drop hs)
    rw [count_joined hfree, hlast]
    rfl

end Segments
