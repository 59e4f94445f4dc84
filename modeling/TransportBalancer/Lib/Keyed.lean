/-
  File:      TransportBalancer/Lib/Keyed.lean
  Subject:   LISTS WITH KEYS: which elements a map built from a list keeps, and what looking a key
             up in a list finds.

  * `lasts` -- the last element of each key, what stays when later elements overwrite earlier ones;
    `earlier` -- the elements that are overwritten;
  * `filter_lasts`, `filter_earlier` -- both, read off key by key;
  * `lasts_append`, `earlier_append` -- the two of a list whose front part has distinct keys: one
    step of the overwriting;
  * `find?_of_perm` -- with distinct keys a look-up does not depend on the order.
-/
import Mathlib.Algebra.GroupWithZero.Nat
import Mathlib.Data.List.Dedup
import Mathlib.Data.List.Perm.Basic
import Mathlib.Tactic.Common

namespace KeyedList

variable {α κ : Type} [DecidableEq κ] (key : α → κ)

/-! ## 1. What is overwritten and what stays -/

/-- The last element of each key. -/
def lasts (l : List α) : List α := l.pwFilter fun a b => key a ≠ key b

/-- The elements whose key comes again. -/
def earlier : List α → List α
  | [] => []
  | a :: l => if key a ∈ l.map key then a :: earlier l else earlier l

@[simp] theorem lasts_nil : lasts key [] = [] := rfl

@[simp] theorem earlier_nil : earlier key [] = [] := rfl

theorem lasts_cons (a : α) (l : List α) :
    lasts key (a :: l) = if key a ∈ l.map key then lasts key l else a :: lasts key l := by
  have hall : (∀ b ∈ lasts key l, key a ≠ key b) ↔ key a ∉ l.map key := by
    unfold lasts
    rw [List.forall_mem_pwFilter]
    · simp only [List.mem_map, not_exists, not_and]
      exact ⟨fun h b hb e => h b hb e.symm, fun h b hb e => h b hb e.symm⟩
    · intro x y z hxz
      by_cases hxy : key x = key y
      · exact Or.inr (hxy ▸ hxz)
      · exact Or.inl hxy
  split
  · rename_i h
    exact List.pwFilter_cons_of_neg fun hne => hall.mp hne h
  · rename_i h
    exact List.pwFilter_cons_of_pos (hall.mpr h)

theorem earlier_cons (a : α) (l : List α) :
    earlier key (a :: l) = if key a ∈ l.map key then a :: earlier key l else earlier key l := rfl

theorem lasts_sublist (l : List α) : (lasts key l).Sublist l := List.pwFilter_sublist l

theorem lasts_nodup (l : List α) : ((lasts key l).map key).Nodup :=
  List.pairwise_map.mpr (List.pairwise_pwFilter l)

/-- Each element stays or is overwritten. -/
theorem perm_earlier_lasts (l : List α) : (earlier key l ++ lasts key l).Perm l := by
  induction l with
  | nil => exact .refl _
  | cons a l ih =>
    rw [lasts_cons, earlier_cons]
    split
    · exact ih.cons a
    · exact List.perm_middle.trans (ih.cons a)

/-- One element of each key stays. -/
theorem map_lasts (l : List α) : (lasts key l).map key = (l.map key).dedup := by
  induction l with
  | nil => rfl
  | cons a l ih =>
    rw [lasts_cons, List.map_cons, List.dedup_cons]
    split
    · exact ih
    · rw [List.map_cons, ih]

/-- A list with distinct keys stays as it is. -/
theorem lasts_of_nodup {l : List α} (h : (l.map key).Nodup) : lasts key l = l :=
  List.pwFilter_eq_self.mpr (List.pairwise_map.mp h)

theorem earlier_of_nodup {l : List α} (h : (l.map key).Nodup) : earlier key l = [] := by
  have hlength := (perm_earlier_lasts key l).length_eq
  rw [lasts_of_nodup key h, List.length_append] at hlength
  exact List.length_eq_zero_iff.mp (by omega)

theorem filter_key_cons_self (a : α) (l : List α) :
    (a :: l).filter (fun b => key b = key a) = a :: l.filter fun b => key b = key a :=
  List.filter_cons_of_pos (decide_eq_true rfl)

theorem filter_key_cons_ne {a : α} {k : κ} (h : key a ≠ k) (l : List α) :
    (a :: l).filter (fun b => key b = k) = l.filter fun b => key b = k :=
  List.filter_cons_of_neg (by simpa using h)

theorem filter_key_eq_nil {l : List α} {k : κ} (h : k ∉ l.map key) :
    l.filter (fun a => key a = k) = [] := by
  rw [List.filter_eq_nil_iff]
  intro a ha e
  exact h (of_decide_eq_true e ▸ List.mem_map_of_mem ha)

theorem filter_key_ne_nil {l : List α} {k : κ} (h : k ∈ l.map key) :
    l.filter (fun a => key a = k) ≠ [] := by
  obtain ⟨a, ha, rfl⟩ := List.mem_map.mp h
  exact List.ne_nil_of_mem (List.mem_filter.mpr ⟨ha, decide_eq_true rfl⟩)

/-- **Of each key the last element stays**, -/
theorem filter_lasts (l : List α) (k : κ) :
    (lasts key l).filter (fun a => key a = k) =
      (l.filter fun a => key a = k).getLast?.toList := by
  induction l with
  | nil => rfl
  | cons a l ih =>
    rw [lasts_cons]
    by_cases hk : key a = k
    · subst hk
      rw [filter_key_cons_self]
      split
      · rename_i hmem
        obtain ⟨b, rest, hbs⟩ := List.exists_cons_of_ne_nil (filter_key_ne_nil key hmem)
        rw [ih, hbs, List.getLast?_cons_cons]
      · rename_i hmem
        rw [filter_key_cons_self, ih, filter_key_eq_nil key hmem]
        rfl
    · rw [filter_key_cons_ne key hk]
      split
      · exact ih
      · rw [filter_key_cons_ne key hk]
        exact ih

/-- **and all before it are overwritten.** -/
theorem filter_earlier (l : List α) (k : κ) :
    (earlier key l).filter (fun a => key a = k) = (l.filter fun a => key a = k).dropLast := by
  induction l with
  | nil => rfl
  | cons a l ih =>
    rw [earlier_cons]
    by_cases hk : key a = k
    · subst hk
      rw [filter_key_cons_self]
      split
      · rename_i hmem
        rw [filter_key_cons_self, ih,
          List.dropLast_cons_of_ne_nil (filter_key_ne_nil key hmem)]
      · rename_i hmem
        rw [ih, filter_key_eq_nil key hmem]
        rfl
    · rw [filter_key_cons_ne key hk]
      split
      · rw [filter_key_cons_ne key hk]
        exact ih
      · exact ih

/-- Behind a front part with distinct keys: it stays where its keys do not come again, -/
theorem lasts_append {l : List α} (h : (l.map key).Nodup) (m : List α) :
    lasts key (l ++ m) = l.filter (fun a => key a ∉ m.map key) ++ lasts key m := by
  induction l with
  | nil => rfl
  | cons a l ih =>
    obtain ⟨hnot, hrest⟩ := List.nodup_cons.mp h
    rw [List.cons_append, lasts_cons, List.filter_cons, ih hrest, List.map_append]
    by_cases ha : key a ∈ m.map key
    · rw [if_pos (List.mem_append_right _ ha), if_neg (by simpa using ha)]
    · rw [if_neg (fun hmem => (List.mem_append.mp hmem).elim hnot ha), if_pos (by simpa using ha)]
      rfl

/-- and is overwritten where they do. -/
theorem earlier_append {l : List α} (h : (l.map key).Nodup) (m : List α) :
    earlier key (l ++ m) = l.filter (fun a => key a ∈ m.map key) ++ earlier key m := by
  induction l with
  | nil => rfl
  | cons a l ih =>
    obtain ⟨hnot, hrest⟩ := List.nodup_cons.mp h
    rw [List.cons_append, earlier_cons, List.filter_cons, ih hrest, List.map_append]
    by_cases ha : key a ∈ m.map key
    · rw [if_pos (List.mem_append_right _ ha), if_pos (by simpa using ha)]
      rfl
    · rw [if_neg (fun hmem => (List.mem_append.mp hmem).elim hnot ha), if_neg (by simpa using ha)]

/-- The front part up to its order: what is overwritten, -/
theorem earlier_append_perm {l l' : List α} (hp : l.Perm l') (h : (l.map key).Nodup) (m : List α) :
    (earlier key (l ++ m)).Perm (earlier key (l' ++ m)) := by
  rw [earlier_append key h, earlier_append key ((hp.map key).nodup_iff.mp h)]
  exact (hp.filter _).append_right _

/-- and what stays. -/
theorem lasts_append_perm {l l' : List α} (hp : l.Perm l') (h : (l.map key).Nodup) (m : List α) :
    (lasts key (l ++ m)).Perm (lasts key (l' ++ m)) := by
  rw [lasts_append key h, lasts_append key ((hp.map key).nodup_iff.mp h)]
  exact (hp.filter _).append_right _

theorem nodup_overwrite {l : List α} (h : (l.map key).Nodup) (a : α) :
    ((a :: l.filter fun b => key b ≠ key a).map key).Nodup := by
  refine List.nodup_cons.mpr ⟨fun hmem => ?_, h.sublist (List.filter_sublist.map _)⟩
  obtain ⟨b, hb, hkey⟩ := List.mem_map.mp hmem
  exact of_decide_eq_true (List.mem_filter.mp hb).2 hkey

/-- **One step of the overwriting**: a new element goes in front and takes its key over, -/
theorem earlier_overwrite {l : List α} (h : (l.map key).Nodup) (a : α) (m : List α) :
    (earlier key (l ++ a :: m)).Perm
      (l.filter (fun b => key b = key a) ++
        earlier key (a :: l.filter (fun b => key b ≠ key a) ++ m)) := by
  have hnew := nodup_overwrite key h a
  rw [earlier_append key h, earlier_append key hnew, earlier_cons, ← List.append_assoc]
  have hsplit : (l.filter fun b => key b ∈ (a :: m).map key).Perm
      (l.filter (fun b => key b = key a) ++
        (l.filter fun b => key b ≠ key a).filter fun b => key b ∈ m.map key) := by
    refine (List.filter_append_perm (fun b => decide (key b = key a)) _).symm.trans ?_
    rw [List.filter_filter, List.filter_filter, List.filter_filter]
    refine List.Perm.append (.of_eq (List.filter_congr fun b _ => ?_))
      (.of_eq (List.filter_congr fun b _ => ?_))
    · by_cases hb : key b = key a <;> simp [hb]
    · by_cases hb : key b = key a <;> simp [hb]
  rw [List.filter_cons]
  split
  · rename_i ha
    rw [if_pos (by simpa using ha)]
    refine (hsplit.append_right _).trans ?_
    rw [List.append_assoc, List.append_assoc]
    exact List.perm_middle.append_left _
  · rename_i ha
    rw [if_neg (by simpa using ha)]
    exact hsplit.append_right _

/-- and what stays in the end is the same. -/
theorem lasts_overwrite {l : List α} (h : (l.map key).Nodup) (a : α) (m : List α) :
    (lasts key (l ++ a :: m)).Perm
      (lasts key (a :: l.filter (fun b => key b ≠ key a) ++ m)) := by
  have hnew := nodup_overwrite key h a
  rw [lasts_append key h, lasts_append key hnew, lasts_cons]
  have hsame : l.filter (fun b => key b ∉ (a :: m).map key) =
      (l.filter fun b => key b ≠ key a).filter fun b => key b ∉ m.map key := by
    rw [List.filter_filter]
    refine List.filter_congr fun b _ => ?_
    by_cases hb : key b = key a <;> simp [hb]
  rw [hsame, List.filter_cons]
  split
  · rename_i ha
    rw [if_neg (by simpa using ha)]
  · rename_i ha
    rw [if_pos (by simpa using ha)]
    exact List.perm_middle

/-! ## 2. Looking a key up -/

/-- With distinct keys a look-up finds the element with the key. -/
theorem find?_eq_some_iff {l : List α} (h : (l.map key).Nodup) {k : κ} {a : α} :
    l.find? (fun b => key b = k) = some a ↔ a ∈ l ∧ key a = k := by
  constructor
  · intro hfind
    exact ⟨List.mem_of_find?_eq_some hfind, by simpa using List.find?_some hfind⟩
  · intro ha
    obtain ⟨hmem, rfl⟩ := ha
    cases hfind : l.find? fun b => key b = key a with
    | none =>
      rw [List.find?_eq_none] at hfind
      exact absurd (decide_eq_true rfl) (hfind a hmem)
    | some b =>
      have hkey : key b = key a := by simpa using List.find?_some hfind
      rw [List.inj_on_of_nodup_map h (List.mem_of_find?_eq_some hfind) hmem hkey]

/-- **and does not depend on the order.** -/
theorem find?_of_perm {l m : List α} (hp : l.Perm m) (h : (l.map key).Nodup) (k : κ) :
    l.find? (fun b => key b = k) = m.find? (fun b => key b = k) := by
  have hm : (m.map key).Nodup := (hp.map key).nodup_iff.mp h
  refine Option.ext fun a => ?_
  show l.find? _ = some a ↔ m.find? _ = some a
  rw [find?_eq_some_iff key h, find?_eq_some_iff key hm, hp.mem_iff]

end KeyedList
