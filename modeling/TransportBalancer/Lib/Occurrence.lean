/-
  File:      TransportBalancer/Lib/Occurrence.lean
  Subject:   WHERE A PATTERN OCCURS IN A TEXT that is put behind another one.

  * `Apart` -- a pattern does not occur in the text in front, nor begins at its end;
  * **`Apart.append_iff`** -- behind such a text it occurs exactly where it did before;
  * `apart_of_end` -- it suffices to look at how the text in front ends, if one element of the
    pattern does not occur there;
  * `Apart.append_left_iff`, `infix_around_iff` -- the same in front of a text, and around an
    element that the pattern does not hold.
-/
import Mathlib.Algebra.GroupWithZero.Nat
import Mathlib.Data.List.Infix
import Mathlib.Tactic.Common

namespace Occurrence

variable {α : Type}

/-- No non-empty beginning of the pattern ends the text. -/
def NotBegun (pat front : List α) : Prop :=
  ∀ k < pat.length, ¬ pat.take (k + 1) <:+ front

instance [DecidableEq α] (pat front : List α) : Decidable (NotBegun pat front) :=
  inferInstanceAs (Decidable (∀ k < pat.length, _))

/-- The pattern does not occur in the text in front, nor begins at its end. -/
structure Apart (pat front : List α) : Prop where
  absent : ¬ pat <:+: front
  notBegun : NotBegun pat front

/-- **Putting a text in front** does not make a pattern occur that is apart from it. -/
theorem Apart.append_iff {pat front : List α} (h : Apart pat front) (text : List α) :
    pat <:+: front ++ text ↔ pat <:+: text := by
  constructor
  · intro hoccurs
    rcases List.infix_append_iff_ne_nil.mp hoccurs with hfront | htext |
      ⟨l, l', hl, _, rfl, hend, _⟩
    · exact absurd hfront h.absent
    · exact htext
    · -- a beginning of the pattern would end the text in front
      have hpos : 0 < l.length := List.length_pos_iff.mpr hl
      refine absurd ?_ (h.notBegun (l.length - 1) (by rw [List.length_append]; omega))
      rw [Nat.sub_add_cancel hpos, List.take_left]
      exact hend
  · exact List.infix_append_of_infix_right

/-- **Looking at the end of the text in front suffices**, if an element of the pattern does not
    occur in it and the pattern does not contain that end. -/
theorem apart_of_end {pat front last : List α} {a : α} (ha : a ∈ pat) (hfront : a ∉ front ++ last)
    (hlast : NotBegun pat last) (hnot : ¬ last <:+: pat) : Apart pat (front ++ last) where
  absent := fun hoccurs => hfront (hoccurs.subset ha)
  notBegun := by
    intro k hk hend
    rcases List.suffix_or_suffix_of_suffix hend (List.suffix_append front last) with h | h
    · exact hlast k hk h
    · exact hnot (h.isInfix.trans (List.take_prefix _ _).isInfix)

/-- **Putting a text behind** does not make a pattern occur that is apart from it, read backwards. -/
theorem Apart.append_left_iff {pat back : List α} (h : Apart pat.reverse back.reverse)
    (text : List α) : pat <:+: text ++ back ↔ pat <:+: text := by
  rw [← List.reverse_infix, List.reverse_append, h.append_iff, List.reverse_infix]

/-- **A pattern occurs on one side** of an element that it does not hold. -/
theorem infix_around_iff {pat : List α} {a : α} (ha : a ∉ pat) (front back : List α) :
    pat <:+: front ++ a :: back ↔ pat <:+: front ∨ pat <:+: back := by
  have hempty : ∀ l, l <+: a :: back → a ∉ l → l = [] := by
    intro l hl hnot
    cases l with
    | nil => rfl
    | cons b l =>
      obtain ⟨rfl, _⟩ := List.cons_prefix_cons.mp hl
      exact absurd List.mem_cons_self hnot
  constructor
  · intro hoccurs
    rcases List.infix_append_iff_ne_nil.mp hoccurs with hfront | hback | ⟨l, l', _, hl', rfl, _, h⟩
    · exact Or.inl hfront
    · rcases List.infix_cons_iff.mp hback with hprefix | hback
      · rw [hempty pat hprefix ha]
        exact Or.inl (List.nil_infix)
      · exact Or.inr hback
    · exact absurd (hempty l' h fun hmem => ha (List.mem_append_right _ hmem)) hl'
  · intro h
    rcases h with h | h
    · exact List.infix_append_of_infix_left h
    · exact List.infix_append_of_infix_right (List.infix_cons h)

end Occurrence
