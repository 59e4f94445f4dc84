/-
  File:      TransportBalancer/Throttle/Domain.lean
  Subject:   THE RATE-LIMIT GROUP OF A HOST (`extract_rate_limit_domain`), with the byte offsets
             the source computes: a slice off a character boundary, or an offset below zero, is
             a panic and not a shorter string.

  * `extractRateLimitDomain` -- the function of the source;
  * `rsplitOnce_cases`, `sliceFrom_append` -- what its pieces and its slice are;
  * **`extract_few`**, **`extract_behind`** -- its value, by the number of dots in the host;
  * **`suffix_exact`** -- it never panics, and the group is the suffix behind the last dot but one.
-/
import TransportBalancer.Lib.Segments

namespace TransportBalancer

open Segments

/-- The length of a text in UTF-8 bytes. -/
def utf8Len (cs : List Char) : Nat := (cs.map Char.utf8Size).sum

/-- `&s[start..]`: `none` where the source panics, off a character boundary or past the end. -/
def sliceFrom : List Char → Nat → Option (List Char)
  | cs, 0 => some cs
  | [], _ + 1 => none
  | c :: cs, start + 1 =>
    if c.utf8Size ≤ start + 1 then sliceFrom cs (start + 1 - c.utf8Size) else none

/-- The text before and after the last occurrence of a separator. -/
def rsplitOnce (sep : Char) : List Char → Option (List Char × List Char)
  | [] => none
  | c :: cs =>
    match rsplitOnce sep cs with
    | some (before, after) => some (c :: before, after)
    | none => if c = sep then some ([], cs) else none

/-- `str::rsplitn`: at most `n` pieces, cut at the separator from the right. -/
def rsplitn (sep : Char) : Nat → List Char → List (List Char)
  | 0, _ => []
  | 1, cs => [cs]
  | n + 2, cs =>
    match rsplitOnce sep cs with
    | some (before, after) => after :: rsplitn sep (n + 1) before
    | none => [cs]

/-- `extract_rate_limit_domain`; `none` is a panic. -/
def extractRateLimitDomain (host : String) : Option String :=
  match rsplitn '.' 3 host.toList with
  | tld :: sld :: _ =>
    let used := utf8Len tld + 1 + utf8Len sld
    if used ≤ utf8Len host.toList then
      (sliceFrom host.toList (utf8Len host.toList - used)).map String.ofList
    else none
  | _ => some host

example : extractRateLimitDomain "arb-mainnet.g.alchemy.com" = some "alchemy.com" := by decide

/-! ## 1. Pieces and slices -/

theorem utf8Len_append (cs cs' : List Char) : utf8Len (cs ++ cs') = utf8Len cs + utf8Len cs' := by
  unfold utf8Len
  rw [List.map_append, List.sum_append]

/-- A slice behind a text of that many bytes starts on a character boundary. -/
theorem sliceFrom_append (front back : List Char) :
    sliceFrom (front ++ back) (utf8Len front) = some back := by
  induction front with
  | nil => cases back <;> rfl
  | cons c front ih =>
    have hlen : utf8Len (c :: front) = c.utf8Size + utf8Len front := utf8Len_append [c] front
    have hpos := c.utf8Size_pos
    obtain ⟨start, hstart⟩ := Nat.exists_eq_add_one.mpr (show 0 < utf8Len (c :: front) by omega)
    rw [hstart, List.cons_append]
    unfold sliceFrom
    rw [if_pos (by omega), show start + 1 - c.utf8Size = utf8Len front by omega, ih]

/-- A text without the separator is not cut; any other one is cut at its last separator. -/
theorem rsplitOnce_cases (sep : Char) (cs : List Char) :
    (rsplitOnce sep cs = none ∧ sep ∉ cs) ∨ ∃ before after,
      rsplitOnce sep cs = some (before, after) ∧ cs = before ++ sep :: after ∧ sep ∉ after := by
  induction cs with
  | nil => exact Or.inl ⟨rfl, List.not_mem_nil⟩
  | cons c cs ih =>
    unfold rsplitOnce
    rcases ih with ⟨hnone, hfree⟩ | ⟨before, after, hsome, hcut, hfree⟩
    · rw [hnone]
      by_cases hc : c = sep
      · exact Or.inr ⟨[], cs, by simp [hc], by rw [hc]; rfl, hfree⟩
      · exact Or.inl ⟨by simp [hc], by simp [Ne.symm hc, hfree]⟩
    · rw [hsome]
      exact Or.inr ⟨c :: before, after, rfl, by rw [hcut]; rfl, hfree⟩

theorem rsplitn_one_piece {sep : Char} {cs : List Char} (h : sep ∉ cs) (n : Nat) :
    rsplitn sep (n + 1) cs = [cs] := by
  cases n with
  | zero => rfl
  | succ n =>
    unfold rsplitn
    rcases rsplitOnce_cases sep cs with ⟨hnone, _⟩ | ⟨before, after, _, hcut, _⟩
    · rw [hnone]
    · exact absurd (by rw [hcut]; simp) h

/-- The last piece is what stands behind the last separator. -/
theorem rsplitn_cut {sep : Char} {before after : List Char} (h : sep ∉ after) (n : Nat) :
    rsplitn sep (n + 2) (before ++ sep :: after) = after :: rsplitn sep (n + 1) before := by
  have hlast : Behind sep 0 (before ++ sep :: after) after :=
    ⟨⟨before, rfl⟩, List.count_eq_zero_of_not_mem h⟩
  rw [rsplitn.eq_def]
  rcases rsplitOnce_cases sep (before ++ sep :: after) with
    ⟨_, hfree⟩ | ⟨before', after', hsome, hcut, hfree⟩
  · exact absurd (by simp) hfree
  · obtain rfl := hlast.unique ⟨⟨before', hcut⟩, List.count_eq_zero_of_not_mem hfree⟩
    obtain rfl := List.append_cancel_right hcut
    simp only [hsome]

/-! ## 2. The group of a host -/

/-- Two pieces at the end of a host are cut off with the dot between them. -/
theorem extract_pieces {host : String} {front sld tld : List Char} {more : List (List Char)}
    (hpieces : rsplitn '.' 3 host.toList = tld :: sld :: more)
    (hcut : host.toList = front ++ (sld ++ '.' :: tld)) :
    extractRateLimitDomain host = some (String.ofList (sld ++ '.' :: tld)) := by
  have hused : utf8Len tld + 1 + utf8Len sld = utf8Len (sld ++ '.' :: tld) := by
    rw [utf8Len_append, show utf8Len ('.' :: tld) = 1 + utf8Len tld from utf8Len_append ['.'] tld]
    omega
  have hlen : utf8Len host.toList = utf8Len front + utf8Len (sld ++ '.' :: tld) := by
    rw [hcut, utf8Len_append]
  unfold extractRateLimitDomain
  rw [hpieces]
  show (if _ then _ else _) = _
  rw [hused, if_pos (by omega), hlen, Nat.add_sub_cancel, hcut, sliceFrom_append]
  rfl

/-- **A host with at most one dot** is its own group. -/
theorem extract_few {host : String} (h : host.toList.count '.' ≤ 1) :
    extractRateLimitDomain host = some host := by
  rcases rsplitOnce_cases '.' host.toList with ⟨_, hfree⟩ | ⟨before, after, _, hcut, hfree⟩
  · unfold extractRateLimitDomain
    rw [rsplitn_one_piece hfree]
  · have hbefore : '.' ∉ before := by
      rw [hcut, List.count_append, List.count_cons_self] at h
      exact List.count_eq_zero.mp (by omega)
    have hpieces : rsplitn '.' 3 host.toList = after :: before :: [] := by
      rw [hcut, rsplitn_cut hfree, rsplitn_one_piece hbefore]
    have hall : host.toList = [] ++ (before ++ '.' :: after) := hcut
    rw [extract_pieces hpieces hall, ← hcut, String.ofList_toList]

/-- **Any other host** has the group behind its last dot but one. -/
theorem extract_behind {host : String} {group : List Char} (h : Behind '.' 1 host.toList group) :
    extractRateLimitDomain host = some (String.ofList group) := by
  obtain ⟨⟨front, hhost⟩, hcount⟩ := h
  rcases rsplitOnce_cases '.' group with ⟨_, hfree⟩ | ⟨sld, tld, _, rfl, hfree⟩
  · rw [List.count_eq_zero_of_not_mem hfree] at hcount
    cases hcount
  · have hsld : '.' ∉ sld := by
      rw [List.count_append, List.count_cons_self] at hcount
      exact List.count_eq_zero.mp (by omega)
    have hpieces : rsplitn '.' 3 host.toList = tld :: sld :: [front] := by
      rw [hhost, show front ++ '.' :: (sld ++ '.' :: tld) = (front ++ '.' :: sld) ++ '.' :: tld by
        simp, rsplitn_cut hfree, rsplitn_cut hsld]
      rfl
    refine extract_pieces hpieces (show _ = (front ++ ['.']) ++ (sld ++ '.' :: tld) from ?_)
    rw [hhost, List.append_assoc]
    rfl

/-- The extraction never panics. -/
theorem extract_total (host : String) : ∃ group, extractRateLimitDomain host = some group := by
  by_cases hfew : host.toList.count '.' ≤ 1
  · exact ⟨host, extract_few hfew⟩
  · obtain ⟨group, hgroup⟩ := exists_behind (Nat.lt_of_not_le hfew)
    exact ⟨_, extract_behind hgroup⟩

/-- Text behind a dot, read in strings. -/
theorem behind_iff {n : Nat} {host suffix : String} :
    Behind '.' n host.toList suffix.toList ↔
      (∃ front, host = front ++ "." ++ suffix) ∧ suffix.toList.count '.' = n := by
  constructor
  · rintro ⟨⟨front, hfront⟩, hcount⟩
    refine ⟨⟨String.ofList front, ?_⟩, hcount⟩
    rw [← String.toList_inj, hfront]
    simp
  · rintro ⟨⟨front, rfl⟩, hcount⟩
    exact ⟨⟨front.toList, by simp⟩, hcount⟩

/-- **THE GROUP OF A HOST IS AN EXACT SUFFIX.** The extraction never panics. A host with at most
    one dot is its own group; any other one has the only suffix that holds one dot and stands
    behind one. A group is its own group, and subdomains of a host with a dot have its group. -/
theorem suffix_exact (host : String) : ∃ group, extractRateLimitDomain host = some group ∧
    (∃ front, host = front ++ group) ∧
    (host.toList.count '.' ≤ 1 → group = host) ∧
    (2 ≤ host.toList.count '.' → ∀ suffix,
      (∃ front, host = front ++ "." ++ suffix) ∧ suffix.toList.count '.' = 1 ↔ suffix = group) ∧
    extractRateLimitDomain group = some group ∧
    ('.' ∈ host.toList → ∀ front, extractRateLimitDomain (front ++ "." ++ host) = some group) := by
  by_cases hfew : host.toList.count '.' ≤ 1
  · refine ⟨host, extract_few hfew, ⟨"", by simp⟩, fun _ => rfl, fun h => absurd h (by omega),
      extract_few hfew, fun hdot front => ?_⟩
    have hone : host.toList.count '.' = 1 :=
      Nat.le_antisymm hfew (List.count_pos_iff.mpr hdot)
    rw [extract_behind (behind_iff.mpr ⟨⟨front, rfl⟩, hone⟩), String.ofList_toList]
  · obtain ⟨group, hgroup⟩ : ∃ group, Behind '.' 1 host.toList group :=
      exists_behind (Nat.lt_of_not_le hfew)
    have hbehind : Behind '.' 1 host.toList (String.ofList group).toList := by
      rwa [String.toList_ofList]
    obtain ⟨⟨front, hfront⟩, hcount⟩ := behind_iff.mp hbehind
    refine ⟨String.ofList group, extract_behind hgroup, ⟨front ++ ".", hfront⟩,
      fun h => absurd h hfew, fun _ suffix => ⟨fun h => ?_, ?_⟩, extract_few (by omega),
      fun _ front => ?_⟩
    · exact String.toList_inj.mp ((behind_iff.mpr h).unique hbehind)
    · rintro rfl
      exact behind_iff.mp hbehind
    · refine extract_behind ?_
      rw [String.toList_append]
      exact hgroup.prepend _

/-- Empty labels and text of several bytes. -/
theorem suffix_exact_bytes : ∃ group, extractRateLimitDomain "é.ü..ß" = some group ∧
    group = ".ß" ∧ extractRateLimitDomain ("x" ++ "." ++ "é.ü..ß") = some group := by
  obtain ⟨group, hgroup, _, _, hsuffix, _, hfront⟩ := suffix_exact "é.ü..ß"
  exact ⟨group, hgroup, ((hsuffix (by decide) ".ß").mp ⟨⟨"é.ü", by decide⟩, by decide⟩).symm,
    hfront (by decide) "x"⟩

end TransportBalancer
