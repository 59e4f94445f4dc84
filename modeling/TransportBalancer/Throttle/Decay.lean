/-
  File:      TransportBalancer/Throttle/Decay.lean
  Subject:   TIME DECAY OVER A RUN OF READS. `pre_request_delay` writes the decayed level back
             but leaves the timestamp, so every later read drops the same intervals again.

  * `readsAt` -- a run of reads (`pre_request_delay` calls, whoever makes them) at given clock
    values, and `readsAt_eq`, its closed form: the level falls by the SUM of what the single
    reads found;
  * `AtMostOneLevelPerInterval` -- what the documentation promises: at no time is the level
    lower than one level for each interval elapsed since the rate limit;
  * **`decay_matches_elapsed_iff`** -- exactly the runs that keep the promise: no read follows
    another that already found an interval elapsed, until so many have elapsed that level zero
    is due anyway;
  * **`one_read_decays_exactly_iff`** -- when a single read leaves what the elapsed intervals leave:
    an interval of zero panics, and a quotient of 2^32 or more loses its high bits.
-/
import Mathlib.Algebra.Order.BigOperators.Group.List
import Mathlib.Algebra.Order.Group.Nat
import TransportBalancer.Throttle.State

namespace TransportBalancer

open Interaction MachineWord

/-! ## 1. Runs of reads -/

/-- One `pre_request_delay` call at clock value `now`. -/
def readAt (config : ThrottleConfig) (s : DomainThrottleState) (now : UInt64) :
    Option DomainThrottleState :=
  ((preRequestDelay config).eval (atomicHandler now) s).map Prod.snd

/-- A run of `pre_request_delay` calls at the given clock values, oldest first. -/
def readsAt (config : ThrottleConfig) (s : DomainThrottleState) (times : List UInt64) :
    Option DomainThrottleState :=
  times.foldlM (readAt config) s

/-- The whole intervals elapsed between two clock values. -/
def intervalsElapsed (config : ThrottleConfig) (since now : UInt64) : Nat :=
  (now.toNat - since.toNat) / config.decayIntervalMs.toNat

/-- What one read drops: the elapsed intervals through the cast to `u32`. -/
theorem toNat_decayable (config : ThrottleConfig) (now last : UInt64) :
    (decayable config now last).toNat = intervalsElapsed config last now % 2 ^ 32 := by
  unfold decayable intervalsElapsed
  rw [UInt64.toNat_toUInt32, UInt64.toNat_div, toNat_satSub64]

theorem intervalsElapsed_mono (config : ThrottleConfig) (since : UInt64) {t t' : UInt64}
    (h : t ≤ t') : intervalsElapsed config since t ≤ intervalsElapsed config since t' :=
  Nat.div_le_div_right (Nat.sub_le_sub_right (UInt64.le_iff_toNat_le.mp h) _)

theorem readAt_eq {config : ThrottleConfig} (hD : config.decayIntervalMs ≠ 0)
    (s : DomainThrottleState) (now : UInt64) :
    readAt config s now = some { s with backoffLevel := levelAfterRead config now s } := by
  unfold readAt
  rw [preRequestDelay_eval hD]
  rfl

/-- The sum of what the reads of a run drop. -/
def droppedBy (config : ThrottleConfig) (last : UInt64) (times : List UInt64) : Nat :=
  (times.map fun t => (decayable config t last).toNat).sum

/-- **A run of reads** always returns, moves nothing but the level, and lowers the level by the sum
    of the single drops (by nothing at all while no timestamp is set). -/
theorem readsAt_eq {config : ThrottleConfig} (hD : config.decayIntervalMs ≠ 0)
    (times : List UInt64) (s : DomainThrottleState) :
    ∃ level, readsAt config s times = some { s with backoffLevel := level } ∧
      level.toNat = s.backoffLevel.toNat -
        (if 0 < s.lastRateLimitAt then droppedBy config s.lastRateLimitAt times else 0) := by
  induction times generalizing s with
  | nil => exact ⟨s.backoffLevel, rfl, by simp [droppedBy]⟩
  | cons t times ih =>
    obtain ⟨level, hrun, hlevel⟩ := ih { s with backoffLevel := levelAfterRead config t s }
    refine ⟨level, ?_, ?_⟩
    · unfold readsAt at hrun ⊢
      rw [List.foldlM_cons, readAt_eq hD]
      exact hrun
    · rw [hlevel]
      by_cases hl : 0 < s.lastRateLimitAt
      · simp only [if_pos hl, levelAfterRead, toNat_decayBy, droppedBy, List.map_cons,
          List.sum_cons]
        omega
      · simp only [if_neg hl, levelAfterRead]

/-! ## 2. The promise and when it is kept -/

/-- **At most one level per elapsed interval**, at every moment of a run of reads after a rate
    limit at `since`: after any part of the run, at any time not before its last read, the stored
    level is at least the level the rate limit left minus the intervals elapsed. -/
def AtMostOneLevelPerInterval (config : ThrottleConfig) (s : DomainThrottleState) (since : UInt64)
    (times : List UInt64) : Prop :=
  ∀ done, done <+: times → ∀ now : UInt64, since ≤ now → (∀ t ∈ done, t ≤ now) →
    ∃ s', readsAt config s done = some s' ∧
      s.backoffLevel.toNat - intervalsElapsed config since now ≤ s'.backoffLevel.toNat

/-- **No read drops an interval twice**: a read either comes when the level is due to be zero, or
    no earlier read of the run found an interval elapsed. Without a timestamp nothing decays. -/
def NoIntervalDroppedTwice (config : ThrottleConfig) (s : DomainThrottleState) (since : UInt64)
    (times : List UInt64) : Prop :=
  since = 0 ∨ ∀ earlier t later, times = earlier ++ t :: later →
    s.backoffLevel.toNat ≤ intervalsElapsed config since t ∨
      ∀ u ∈ earlier, intervalsElapsed config since u = 0

section Sums

variable (config : ThrottleConfig) (since : UInt64)

theorem droppedBy_eq_zero {times : List UInt64}
    (h : ∀ t ∈ times, intervalsElapsed config since t = 0) : droppedBy config since times = 0 := by
  unfold droppedBy
  refine List.sum_eq_zero fun x hx => ?_
  obtain ⟨t, ht, rfl⟩ := List.mem_map.mp hx
  rw [toNat_decayable, h t ht, Nat.zero_mod]

theorem droppedBy_append (xs ys : List UInt64) :
    droppedBy config since (xs ++ ys) = droppedBy config since xs + droppedBy config since ys := by
  simp [droppedBy]

/-- Where the intervals still fit 32 bits, a read drops at least what it found. -/
theorem le_droppedBy {times : List UInt64} {t : UInt64} (ht : t ∈ times)
    (hlt : intervalsElapsed config since t < 2 ^ 32) :
    intervalsElapsed config since t ≤ droppedBy config since times := by
  have e : intervalsElapsed config since t = (decayable config t since).toNat := by
    rw [toNat_decayable, Nat.mod_eq_of_lt hlt]
  rw [e]
  exact List.single_le_sum (fun _ _ => Nat.zero_le _) _
    (List.mem_map_of_mem (f := fun t => (decayable config t since).toNat) ht)

end Sums

/-- The promise, read on the sums: each part of the run drops no more than has elapsed, unless the
    level is due to be zero. -/
theorem atMostOneLevelPerInterval_iff {config : ThrottleConfig} (hD : config.decayIntervalMs ≠ 0)
    {s : DomainThrottleState} {since : UInt64} (hs : s.lastRateLimitAt = since)
    (h0 : 0 < since) {times : List UInt64} :
    AtMostOneLevelPerInterval config s since times ↔
      ∀ done, done <+: times → ∀ now : UInt64, since ≤ now → (∀ t ∈ done, t ≤ now) →
        s.backoffLevel.toNat - intervalsElapsed config since now ≤
          s.backoffLevel.toNat - droppedBy config since done := by
  refine forall₂_congr fun done _ => forall₃_congr fun now _ _ => ?_
  obtain ⟨level, hrun, hlevel⟩ := readsAt_eq hD done s
  rw [hs, if_pos h0] at hlevel
  rw [hrun, ← hlevel]
  constructor
  · intro h
    obtain ⟨s', hs', h⟩ := h
    cases hs'
    exact h
  · intro h
    exact ⟨_, rfl, h⟩

/-- **THE DECAY LAW.** For the state a `record_rate_limit` at `since` leaves and every run of reads
    at non-decreasing times, the level stays within one level per elapsed interval if and only if
    no read drops an interval twice. -/
theorem decay_matches_elapsed_iff {config : ThrottleConfig} (hD : config.decayIntervalMs ≠ 0)
    {s₀ s : DomainThrottleState} {since : UInt64}
    (hs : (recordRateLimit config).eval (atomicHandler since) s₀ = some ((), s))
    {times : List UInt64} (hmono : (since :: times).Pairwise (· ≤ ·)) :
    AtMostOneLevelPerInterval config s since times ↔
      NoIntervalDroppedTwice config s since times := by
  have hlast : s.lastRateLimitAt = since := by
    rw [recordRateLimit, recordEscalation_eval] at hs
    cases hs
    rfl
  obtain ⟨hsince, hsorted⟩ := List.pairwise_cons.mp hmono
  by_cases h0 : 0 < since
  · rw [atMostOneLevelPerInterval_iff hD hlast h0]
    have hL := s.backoffLevel.toNat_lt
    constructor
    · -- a read after one that found an interval, with the level not yet due to be zero, would
      -- drop that interval again: the part of the run up to it breaks the promise
      intro h
      refine Or.inr fun earlier t later e => ?_
      by_contra hc
      obtain ⟨hlt, u, hu, hne⟩ : intervalsElapsed config since t < s.backoffLevel.toNat ∧
          ∃ u ∈ earlier, intervalsElapsed config since u ≠ 0 := by
        push Not at hc
        exact hc
      subst e
      have hle : ∀ x ∈ earlier ++ [t], x ≤ t := by
        intro x hx
        rcases List.mem_append.mp hx with hx | hx
        · exact (List.pairwise_append.mp hsorted).2.2 x hx t List.mem_cons_self
        · exact UInt64.le_of_eq (List.mem_singleton.mp hx)
      have hbad := h (earlier ++ [t]) ⟨later, by simp⟩ t (hsince t (by simp)) hle
      have hut := intervalsElapsed_mono config since (hle u (List.mem_append_left _ hu))
      have h1 := le_droppedBy config since hu (by omega)
      have h2 := le_droppedBy config since (List.mem_singleton_self t) (by omega)
      rw [droppedBy_append] at hbad
      omega
    · -- only the last read of the part may have found intervals, and it drops no more than it
      -- found
      intro hcase done hdone now hnow hle
      rcases hcase with h | h
      · rw [h] at h0
        exact absurd h0 (by decide)
      · rcases List.eq_nil_or_concat done with rfl | ⟨earlier, t, rfl⟩
        · simp [droppedBy]
        · obtain ⟨later, e⟩ := hdone
          have htn := intervalsElapsed_mono config since (hle t (by simp))
          rcases h earlier t later (by rw [← e]; simp) with hdue | hzero
          · omega
          · have hone : droppedBy config since [t] ≤ intervalsElapsed config since t := by
              simp only [droppedBy, List.map_cons, List.map_nil, List.sum_cons, List.sum_nil,
                toNat_decayable]
              exact Nat.mod_le _ _
            rw [List.concat_eq_append, droppedBy_append, droppedBy_eq_zero config since hzero]
            omega
  · have hz : since = 0 := by
      rw [eq_zero_iff64]
      rw [pos_iff64] at h0
      omega
    refine iff_of_true (fun done _ now _ _ => ?_) (Or.inl hz)
    obtain ⟨level, hrun, hlevel⟩ := readsAt_eq hD done s
    rw [hlast, if_neg h0] at hlevel
    exact ⟨_, hrun, by show _ ≤ level.toNat; omega⟩

/-- The law at a rate limit that leaves level 3, read twice before the first interval is over and
    once after 25 seconds. -/
theorem decay_matches_elapsed_three_reads :
    NoIntervalDroppedTwice .default
        { DomainThrottleState.fresh with
          lastRateLimitAt := 1000000, totalRateLimits := 1, backoffLevel := 3 }
        1000000 [1004000, 1009999, 1025000] ∧
      AtMostOneLevelPerInterval .default
        { DomainThrottleState.fresh with
          lastRateLimitAt := 1000000, totalRateLimits := 1, backoffLevel := 3 }
        1000000 [1004000, 1009999, 1025000] := by
  have hlaw := @decay_matches_elapsed_iff .default (by decide)
    { DomainThrottleState.fresh with backoffLevel := 2 } _ 1000000 rfl
    [1004000, 1009999, 1025000] (by decide)
  refine ⟨?_, hlaw.mpr ?_⟩
  all_goals
    refine Or.inr fun earlier t later e => Or.inr fun u hu => ?_
    -- what comes before another read is one of the first two
    have hfirst : u ∈ ([1004000, 1009999, 1025000] : List UInt64).dropLast := by
      rw [e, List.dropLast_append_of_ne_nil (List.cons_ne_nil _ _)]
      exact List.mem_append_left _ hu
    simp only [List.dropLast, List.mem_cons, List.not_mem_nil, or_false] at hfirst
    rcases hfirst with rfl | rfl <;> decide

/-- **The promise is broken by a second read.** Three rate limits leave level 3; after 25 seconds of
    the default 10 second interval two levels are due, and two reads at that moment drop three. -/
theorem second_read_decays_again :
    ¬ ∀ (config : ThrottleConfig) (s₀ s : DomainThrottleState) (since : UInt64)
        (times : List UInt64), config.decayIntervalMs ≠ 0 →
        (recordRateLimit config).eval (atomicHandler since) s₀ = some ((), s) →
        (since :: times).Pairwise (· ≤ ·) → AtMostOneLevelPerInterval config s since times := by
  intro h
  obtain ⟨s', hs', hle⟩ := h .default { DomainThrottleState.fresh with backoffLevel := 2 }
    { DomainThrottleState.fresh with
      lastRateLimitAt := 1000000, totalRateLimits := 1, backoffLevel := 3 }
    1000000 [1025000, 1025000] (by decide) rfl (by decide)
    [1025000, 1025000] (List.prefix_refl _) 1025000 (by decide) (by simp)
  obtain ⟨level, hrun, hlevel⟩ := @readsAt_eq .default (by decide) [1025000, 1025000]
    { DomainThrottleState.fresh with
      lastRateLimitAt := 1000000, totalRateLimits := 1, backoffLevel := 3 }
  rw [hrun] at hs'
  cases hs'
  have hzero : level.toNat = 0 := hlevel.trans (by decide)
  have hdue : intervalsElapsed .default 1000000 1025000 = 2 := by decide
  have h3 : (3 : UInt32).toNat = 3 := rfl
  rw [hdue, h3] at hle
  exact absurd (hle.trans_eq hzero) (by decide)

/-! ## 3. One read, for every configuration -/

/-- The level the elapsed intervals leave: one dropped for each, computed without a bound. -/
def levelDue (config : ThrottleConfig) (s : DomainThrottleState) (now : UInt64) : Nat :=
  s.backoffLevel.toNat -
    min s.backoffLevel.toNat (intervalsElapsed config s.lastRateLimitAt now)

/-- **A read decays exactly**: it returns, and leaves the level the elapsed intervals leave. -/
def ReadDecaysExactly (config : ThrottleConfig) (s : DomainThrottleState) (now : UInt64) : Prop :=
  ∃ s', readAt config s now = some s' ∧ s'.backoffLevel.toNat = levelDue config s now

/-- **The interval divides and its quotient survives the cast**: the interval is not zero, and the
    number of intervals fits 32 bits or its low 32 bits still empty the level. -/
def QuotientFits (config : ThrottleConfig) (s : DomainThrottleState) (now : UInt64) : Prop :=
  config.decayIntervalMs ≠ 0 ∧
    (intervalsElapsed config s.lastRateLimitAt now < 2 ^ 32 ∨
      s.backoffLevel.toNat ≤ intervalsElapsed config s.lastRateLimitAt now % 2 ^ 32)

theorem levelDue_antitone (config : ThrottleConfig) (s : DomainThrottleState) {t t' : UInt64}
    (h : t ≤ t') : levelDue config s t' ≤ levelDue config s t := by
  have hmono := intervalsElapsed_mono config s.lastRateLimitAt h
  unfold levelDue
  omega

theorem readDecaysExactly_iff {config : ThrottleConfig} {s : DomainThrottleState}
    (hlevel : 1 ≤ s.backoffLevel) (hlast : 0 < s.lastRateLimitAt) (now : UInt64) :
    ReadDecaysExactly config s now ↔ QuotientFits config s now := by
  have hpos : 1 ≤ s.backoffLevel.toNat := UInt32.le_iff_toNat_le.mp hlevel
  unfold ReadDecaysExactly QuotientFits
  by_cases hD : config.decayIntervalMs = 0
  · -- the division panics before anything is written
    have hnone : readAt config s now = none := by
      have hne : s.backoffLevel ≠ 0 := by
        rw [Ne, eq_zero_iff32]
        omega
      unfold readAt
      rw [preRequestDelay_zero_interval hD now hne hlast]
      rfl
    rw [hnone]
    exact iff_of_false (fun ⟨_, h, _⟩ => Option.noConfusion rfl (heq_of_eq h)) fun h => h.1 hD
  · rw [readAt_eq hD]
    have hleft : (levelAfterRead config now s).toNat =
        s.backoffLevel.toNat - intervalsElapsed config s.lastRateLimitAt now % 2 ^ 32 := by
      unfold levelAfterRead
      rw [if_pos hlast, toNat_decayBy, toNat_decayable]
    have hL := s.backoffLevel.toNat_lt
    unfold levelDue
    constructor
    · intro h
      obtain ⟨s', hs', hlevel'⟩ := h
      cases hs'
      refine ⟨hD, ?_⟩
      rw [hleft] at hlevel'
      omega
    · intro h
      refine ⟨_, rfl, ?_⟩
      rw [hleft]
      omega

/-- **ONE READ DECAYS EXACTLY** if and only if the interval is not zero and the quotient survives
    the cast to `u32`; and among clock values for which it does, a later one leaves no higher
    level. -/
theorem one_read_decays_exactly_iff {config : ThrottleConfig} {s : DomainThrottleState}
    (hlevel : 1 ≤ s.backoffLevel) (hlast : 0 < s.lastRateLimitAt) (now : UInt64) :
    (ReadDecaysExactly config s now ↔ QuotientFits config s now) ∧
      ∀ later s₁ s₂, now ≤ later → QuotientFits config s now → QuotientFits config s later →
        readAt config s now = some s₁ → readAt config s later = some s₂ →
        s₂.backoffLevel ≤ s₁.backoffLevel := by
  refine ⟨readDecaysExactly_iff hlevel hlast now, fun later s₁ s₂ hle hfits hfits' h₁ h₂ => ?_⟩
  obtain ⟨s₁', h₁', hdue⟩ := (readDecaysExactly_iff hlevel hlast now).mpr hfits
  obtain ⟨s₂', h₂', hdue'⟩ := (readDecaysExactly_iff hlevel hlast later).mpr hfits'
  cases h₁.symm.trans h₁'
  cases h₂.symm.trans h₂'
  rw [UInt32.le_iff_toNat_le, hdue, hdue']
  exact levelDue_antitone config s hle

/-- Level 3 at 1000000, read after 25 and after 35 seconds of the default 10 second interval. -/
theorem one_read_decays_exactly_default :
    ReadDecaysExactly .default
        { DomainThrottleState.fresh with lastRateLimitAt := 1000000, backoffLevel := 3 } 1025000 ∧
      ∀ s₁ s₂,
        readAt .default { DomainThrottleState.fresh with
          lastRateLimitAt := 1000000, backoffLevel := 3 } 1025000 = some s₁ →
        readAt .default { DomainThrottleState.fresh with
          lastRateLimitAt := 1000000, backoffLevel := 3 } 1035000 = some s₂ →
        s₂.backoffLevel ≤ s₁.backoffLevel := by
  have h := @one_read_decays_exactly_iff .default
    { DomainThrottleState.fresh with lastRateLimitAt := 1000000, backoffLevel := 3 }
    (by decide) (by decide) 1025000
  have hfits : ∀ now : UInt64, now = 1025000 ∨ now = 1035000 → QuotientFits .default
      { DomainThrottleState.fresh with lastRateLimitAt := 1000000, backoffLevel := 3 } now := by
    intro now hnow
    rcases hnow with rfl | rfl
    · exact ⟨by decide, Or.inl (by decide)⟩
    · exact ⟨by decide, Or.inl (by decide)⟩
  exact ⟨h.1.mpr (hfits _ (Or.inl rfl)), fun s₁ s₂ => h.2 1035000 s₁ s₂ (by decide)
    (hfits _ (Or.inl rfl)) (hfits _ (Or.inr rfl))⟩

/-- **A long quiet period drops nothing.** After 2^32 milliseconds (fifty days) of an interval of
    one millisecond the quotient is 2^32 and its cast is 0: level 1 stays, with no interval left
    to explain it. -/
theorem quiet_period_decays_nothing :
    ¬ ∀ (config : ThrottleConfig) (s : DomainThrottleState) (now : UInt64), 1 ≤ s.backoffLevel →
        0 < s.lastRateLimitAt → ReadDecaysExactly config s now := by
  intro h
  have hexact := h { ThrottleConfig.default with decayIntervalMs := 1 }
    { DomainThrottleState.fresh with lastRateLimitAt := 1000000, backoffLevel := 1 } 4295967296
    (by decide) (by decide)
  have hfits := (readDecaysExactly_iff (by decide) (by decide) _).mp hexact
  rcases hfits.2 with hsmall | hlow
  · exact absurd hsmall (by decide)
  · exact absurd hlow (by decide)

/-- **The configurations that decay exactly at every clock value**: those whose interval is not zero
    and divides the rest of the clock's range into fewer than 2^32 pieces. -/
theorem always_decays_exactly_iff {config : ThrottleConfig} {s : DomainThrottleState}
    (hlevel : 1 ≤ s.backoffLevel) (hlast : 0 < s.lastRateLimitAt) :
    (∀ now, ReadDecaysExactly config s now) ↔ config.decayIntervalMs ≠ 0 ∧
      (2 ^ 64 - 1 - s.lastRateLimitAt.toNat) / config.decayIntervalMs.toNat < 2 ^ 32 := by
  have hpos : 1 ≤ s.backoffLevel.toNat := UInt32.le_iff_toNat_le.mp hlevel
  have hlastlt := s.lastRateLimitAt.toNat_lt
  simp only [readDecaysExactly_iff hlevel hlast]
  constructor
  · intro h
    refine ⟨(h 0).1, ?_⟩
    by_contra hlarge
    have hD : 0 < config.decayIntervalMs.toNat := by
      have hne := (h 0).1
      rw [Ne, eq_zero_iff64] at hne
      omega
    -- exactly 2^32 intervals after the rate limit nothing is left of the quotient
    have hroom : 2 ^ 32 * config.decayIntervalMs.toNat ≤ 2 ^ 64 - 1 - s.lastRateLimitAt.toNat :=
      (Nat.le_div_iff_mul_le hD).mp (Nat.le_of_not_lt hlarge)
    let now := UInt64.ofNat (s.lastRateLimitAt.toNat + 2 ^ 32 * config.decayIntervalMs.toNat)
    have hnow : now.toNat = s.lastRateLimitAt.toNat + 2 ^ 32 * config.decayIntervalMs.toNat := by
      unfold now
      rw [UInt64.toNat_ofNat', Nat.mod_eq_of_lt (by omega)]
    have hq : intervalsElapsed config s.lastRateLimitAt now = 2 ^ 32 := by
      unfold intervalsElapsed
      rw [hnow, Nat.add_sub_cancel_left, Nat.mul_div_cancel _ hD]
    have hfits := (h now).2
    rw [hq] at hfits
    omega
  · intro h now
    refine ⟨h.1, Or.inl (Nat.lt_of_le_of_lt (Nat.div_le_div_right ?_) h.2)⟩
    have hnow := now.toNat_lt
    omega

end TransportBalancer
