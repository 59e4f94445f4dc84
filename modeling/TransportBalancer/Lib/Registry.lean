/-
  File:      TransportBalancer/Lib/Registry.lean
  Subject:   A REGISTRY: values created on demand, one a key, with the default in force at the
             creation.

  A value is named by the place of its creation, so two creations are two values even with the
  same content. The map and the log of creations are kept apart; that the map finds exactly what
  was created is carried by the structure.

  * `Registry` -- the map, the log and the default;
  * `lookup`, `getOrCreate`, `setDefault` -- the operations;
  * `Extends` -- nothing created is lost; **`Extends.lookup`**: then no entry is replaced;
  * **`created_nodup`**, `lookup_inj` -- one creation a key, one key a value;
  * `ensure` -- get or create for a list of keys; `ensure_eq_self_iff` -- when that changes nothing.
-/
import Mathlib.Data.List.AList
import Mathlib.Tactic.Common

namespace OnDemand

/-- **A registry**: `entries` maps a key to the place of its value in `created`. -/
structure Registry (K C : Type) [DecidableEq K] where
  entries : AList fun _ : K => Nat
  created : List (K × C)
  default : C
  exact : ∀ key ref, entries.lookup key = some ref ↔ ∃ config, created[ref]? = some (key, config)

namespace Registry

variable {K C : Type} [DecidableEq K]

/-- Nothing has been created. -/
def empty (default : C) : Registry K C := ⟨∅, [], default, fun key ref => by simp⟩

/-- The value of a key. -/
def lookup (r : Registry K C) (key : K) : Option Nat := r.entries.lookup key

/-- A new default, for the values still to create. -/
def setDefault (r : Registry K C) (config : C) : Registry K C := { r with default := config }

theorem lookup_eq_some {r : Registry K C} {key : K} {ref : Nat} :
    r.lookup key = some ref ↔ ∃ config, r.created[ref]? = some (key, config) := r.exact key ref

/-- One more value, for a key without an entry. -/
def create (r : Registry K C) (key : K) (h : r.lookup key = none) : Registry K C where
  entries := r.entries.insert key r.created.length
  created := r.created ++ [(key, r.default)]
  default := r.default
  exact key' ref := by
    by_cases hlt : ref < r.created.length
    · rw [List.getElem?_append_left hlt, ← r.exact key' ref]
      by_cases hkey : key' = key
      · subst hkey
        have hne : r.created.length ≠ ref := (Nat.ne_of_lt hlt).symm
        have hnone : r.entries.lookup key' = none := h
        rw [AList.lookup_insert, hnone]
        simp [hne]
      · rw [AList.lookup_insert_ne hkey]
    · have hnone : ∀ k : K, r.entries.lookup k ≠ some ref := by
        intro k hk
        obtain ⟨config, hc⟩ := (r.exact k ref).mp hk
        exact hlt (List.getElem?_eq_some_iff.mp hc).1
      by_cases href : ref = r.created.length
      · subst href
        by_cases hkey : key' = key
        · subst hkey
          simp [AList.lookup_insert]
        · rw [AList.lookup_insert_ne hkey]
          simp [hnone, Ne.symm hkey]
      · have hout : (r.created ++ [(key, r.default)])[ref]? = none :=
          List.getElem?_eq_none (by simp; omega)
        rw [hout]
        by_cases hkey : key' = key
        · subst hkey
          rw [AList.lookup_insert]
          simp [Ne.symm href]
        · rw [AList.lookup_insert_ne hkey]
          simp [hnone]

/-- **Get or create**: the value of the key, created if it has none. -/
def getOrCreate (r : Registry K C) (key : K) : Nat × Registry K C :=
  match h : r.lookup key with
  | some ref => (ref, r)
  | none => (r.created.length, r.create key h)

theorem getOrCreate_found {r : Registry K C} {key : K} {ref : Nat} (h : r.lookup key = some ref) :
    r.getOrCreate key = (ref, r) := by
  unfold getOrCreate
  split
  · rename_i ref' h'
    rw [h] at h'
    cases h'
    rfl
  · rename_i h'
    rw [h] at h'
    cases h'

theorem getOrCreate_new {r : Registry K C} {key : K} (h : r.lookup key = none) :
    r.getOrCreate key = (r.created.length, r.create key h) := by
  unfold getOrCreate
  split
  · rename_i ref' h'
    rw [h] at h'
    cases h'
  · rfl

/-- What was got or created is what the key has from then on. -/
theorem lookup_getOrCreate (r : Registry K C) (key : K) :
    (r.getOrCreate key).2.lookup key = some (r.getOrCreate key).1 := by
  cases h : r.lookup key with
  | some ref =>
    rw [getOrCreate_found h]
    exact h
  | none =>
    rw [getOrCreate_new h]
    exact AList.lookup_insert r.entries

/-- It creates nothing, or the value of a key that had none, under the default. -/
theorem created_getOrCreate (r : Registry K C) (key : K) :
    (r.getOrCreate key).2.created = r.created ∨ r.lookup key = none ∧
      (r.getOrCreate key).2.created = r.created ++ [(key, r.default)] := by
  cases h : r.lookup key with
  | some ref =>
    rw [getOrCreate_found h]
    exact Or.inl rfl
  | none =>
    rw [getOrCreate_new h]
    exact Or.inr ⟨rfl, rfl⟩

/-! ## 1. What stays -/

/-- Everything that was created is still there, in its place. -/
def Extends (r r' : Registry K C) : Prop := r.created <+: r'.created

theorem Extends.refl (r : Registry K C) : r.Extends r := List.prefix_refl _

theorem Extends.trans {r r' r'' : Registry K C} (h : r.Extends r') (h' : r'.Extends r'') :
    r.Extends r'' := List.IsPrefix.trans h h'

theorem Extends.created {r r' : Registry K C} (h : r.Extends r') {ref : Nat} {entry : K × C}
    (he : r.created[ref]? = some entry) : r'.created[ref]? = some entry := by
  obtain ⟨new, hnew⟩ := h
  rw [← hnew, List.getElem?_append_left (List.getElem?_eq_some_iff.mp he).1]
  exact he

/-- **No entry is replaced or removed** where nothing created is lost. -/
theorem Extends.lookup {r r' : Registry K C} (h : r.Extends r') {key : K} {ref : Nat}
    (hl : r.lookup key = some ref) : r'.lookup key = some ref := by
  obtain ⟨config, hc⟩ := lookup_eq_some.mp hl
  exact lookup_eq_some.mpr ⟨config, h.created hc⟩

theorem extends_getOrCreate (r : Registry K C) (key : K) : r.Extends (r.getOrCreate key).2 := by
  unfold Extends
  rcases r.created_getOrCreate key with h | ⟨_, h⟩
  · exact h.symm ▸ List.prefix_refl _
  · exact h.symm ▸ List.prefix_append _ _

/-! ## 2. One value a key, one key a value -/

/-- Distinct keys have distinct values. -/
theorem lookup_inj {r : Registry K C} {key key' : K} {ref : Nat} (h : r.lookup key = some ref)
    (h' : r.lookup key' = some ref) : key = key' := by
  obtain ⟨config, hc⟩ := lookup_eq_some.mp h
  obtain ⟨config', hc'⟩ := lookup_eq_some.mp h'
  rw [hc] at hc'
  cases hc'
  rfl

/-- Two values share their place exactly when their keys are one. -/
theorem lookup_eq_iff {r : Registry K C} {key key' : K} {ref ref' : Nat}
    (h : r.lookup key = some ref) (h' : r.lookup key' = some ref') : ref = ref' ↔ key = key' := by
  constructor
  · intro e
    subst e
    exact lookup_inj h h'
  · intro e
    subst e
    rw [h] at h'
    exact Option.some.inj h'

/-- **For each key at most one value was ever created.** -/
theorem created_nodup (r : Registry K C) : (r.created.map Prod.fst).Nodup := by
  rw [List.nodup_iff_getElem?_ne_getElem?]
  intro i j hij hj heq
  rw [List.length_map] at hj
  have hi : i < r.created.length := Nat.lt_trans hij hj
  rw [List.getElem?_map, List.getElem?_map, List.getElem?_eq_getElem hi,
    List.getElem?_eq_getElem hj] at heq
  have hkey : r.created[i].1 = r.created[j].1 := Option.some.inj heq
  have hentry : ∀ k (hk : k < r.created.length), r.lookup r.created[k].1 = some k := fun k hk =>
    lookup_eq_some.mpr ⟨r.created[k].2, List.getElem?_eq_getElem hk⟩
  have := hentry i hi
  rw [hkey, hentry j hj] at this
  exact Nat.ne_of_lt hij (Option.some.inj this).symm

/-! ## 3. A list of keys -/

/-- Get or create the value of each key. -/
def ensure (r : Registry K C) (keys : List K) : Registry K C :=
  keys.foldl (fun r key => (r.getOrCreate key).2) r

theorem getOrCreate_isSome_iff (r : Registry K C) (key key' : K) :
    ((r.getOrCreate key).2.lookup key').isSome ↔ (r.lookup key').isSome ∨ key' = key := by
  by_cases hkey : key' = key
  · subst hkey
    simp [lookup_getOrCreate]
  · cases h : r.lookup key with
    | some ref => simp [getOrCreate_found h, hkey]
    | none =>
      rw [getOrCreate_new h]
      show ((r.entries.insert key _).lookup key').isSome ↔ _
      rw [AList.lookup_insert_ne hkey]
      simp [hkey, lookup]

theorem getOrCreate_default (r : Registry K C) (key : K) :
    (r.getOrCreate key).2.default = r.default := by
  cases h : r.lookup key with
  | some ref => rw [getOrCreate_found h]
  | none =>
    rw [getOrCreate_new h]
    rfl

theorem ensure_default (r : Registry K C) (keys : List K) :
    (r.ensure keys).default = r.default := by
  induction keys generalizing r with
  | nil => rfl
  | cons key keys ih => exact (ih _).trans (r.getOrCreate_default key)

/-- **The keys of a list are there, and those that were.** -/
theorem ensure_isSome_iff (r : Registry K C) (keys : List K) (key : K) :
    ((r.ensure keys).lookup key).isSome ↔ (r.lookup key).isSome ∨ key ∈ keys := by
  induction keys generalizing r with
  | nil => simp [ensure]
  | cons key' keys ih =>
    have := ih (r.getOrCreate key').2
    rw [getOrCreate_isSome_iff, or_assoc, ← List.mem_cons] at this
    exact this

/-- What is created has the default. -/
theorem ensure_created (r : Registry K C) (keys : List K) :
    ∃ new, (r.ensure keys).created = r.created ++ new ∧ ∀ entry ∈ new, entry.2 = r.default := by
  induction keys generalizing r with
  | nil => exact ⟨[], by simp [ensure], nofun⟩
  | cons key keys ih =>
    obtain ⟨new, hnew, hdefault⟩ := ih (r.getOrCreate key).2
    rw [getOrCreate_default] at hdefault
    rcases r.created_getOrCreate key with hkept | ⟨_, hcreated⟩
    · exact ⟨new, by rw [← hkept]; exact hnew, hdefault⟩
    · refine ⟨(key, r.default) :: new, ?_, List.forall_mem_cons.mpr ⟨rfl, hdefault⟩⟩
      rw [hcreated, List.append_assoc] at hnew
      exact hnew

/-- **Nothing changes** exactly when every key is there already. -/
theorem ensure_eq_self_iff (r : Registry K C) (keys : List K) :
    r.ensure keys = r ↔ ∀ key ∈ keys, (r.lookup key).isSome := by
  constructor
  · intro h key hkey
    have := (r.ensure_isSome_iff keys key).mpr (Or.inr hkey)
    rwa [h] at this
  · intro h
    induction keys generalizing r with
    | nil => rfl
    | cons key keys ih =>
      obtain ⟨ref, href⟩ := Option.isSome_iff_exists.mp (h key List.mem_cons_self)
      have hsame : (r.getOrCreate key).2 = r := by rw [getOrCreate_found href]
      show ((r.getOrCreate key).2).ensure keys = r
      rw [hsame]
      exact ih r fun key' hkey' => h key' (List.mem_cons_of_mem _ hkey')

end Registry

end OnDemand
