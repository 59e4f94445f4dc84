/-
  File:      TransportBalancer/Throttle/Backoff.lean
  Subject:   THE TWO AGGREGATES OVER THE REGISTERED DOMAINS (`max_domain_backoff`,
             `weighted_domain_backoff`), run alone while no decay is due.

  * `weightedSums_eval` -- the loop of the weighted backoff: the two sums, or a panic where one
    leaves 64 bits;
  * **`weighted_mean_iff`** -- it is the weighted mean of the delays if and only if the exact sums
    fit 64 bits;
  * **`cold_start_iff`** -- without a success it agrees with the maximum if and only if all delays
    are the same: the documented fallback is a plain mean.
-/
import TransportBalancer.Lib.Means
import TransportBalancer.Throttle.Registered

namespace TransportBalancer

open Interaction MachineWord Means

/-! ## 1. Reads while no decay is due -/

section Delays

variable (configOf : String → ThrottleConfig) (states : String → DomainThrottleState)

/-- No decay is due on any of the domains, each at its clock value. -/
def NoDecayDue (clock : String → UInt64) (domains : List String) : Prop :=
  ∀ domain ∈ domains, ¬ DecayDue (configOf domain) (clock domain) (states domain)

/-- The delay of a domain. -/
def delayNow (domain : String) : Duration :=
  if (states domain).backoffLevel = 0 then Duration.zero
  else delayOfLevel (configOf domain) (states domain).backoffLevel

/-- The delay of a domain in whole milliseconds. -/
def delayMillis (domain : String) : Nat := (delayNow configOf states domain).asMillis

/-- The weight of a domain. -/
def domainWeight (domain : String) : Nat := max (states domain).totalSuccesses.toNat 1

variable {configOf states} {clock : String → UInt64} {domains : List String}

theorem domainWeight_pos (domain : String) : 0 < domainWeight states domain :=
  Nat.lt_of_lt_of_le Nat.zero_lt_one (Nat.le_max_right _ _)

theorem delay_onDomain_eval {domain : String}
    (h : ¬ DecayDue (configOf domain) (clock domain) (states domain)) :
    (onDomain domain (preRequestDelay (configOf domain))).eval (domainHandler clock) states =
      some (delayNow configOf states domain, states) := by
  rw [onDomain_eval, preRequestDelay_not_due h, Option.map_some, Function.update_eq_self]
  rfl

theorem domainDelays_eval (h : NoDecayDue configOf states clock domains) :
    (domainDelays configOf domains).eval (domainHandler clock) states =
      some (domains.map (delayNow configOf states), states) := by
  induction domains with
  | nil => rfl
  | cons domain rest ih =>
    obtain ⟨hhere, hrest⟩ := List.forall_mem_cons.mp h
    rw [domainDelays, Program.eval_bind, delay_onDomain_eval hhere, Option.bind_some,
      Program.eval_bind, ih hrest]
    rfl

/-- **`max_domain_backoff`, run alone**: the largest delay, zero without domains. -/
theorem maxDomainBackoff_eval (h : NoDecayDue configOf states clock domains) :
    (maxDomainBackoff configOf domains).eval (domainHandler clock) states =
      some ((domains.map (delayNow configOf states)).max?.getD Duration.zero, states) := by
  unfold maxDomainBackoff
  rw [Program.eval_bind, domainDelays_eval h]
  rfl

/-- The largest delay of some domains is the delay of one and bounds all. -/
theorem max_delay_spec (hne : domains ≠ []) : ∃ worst ∈ domains,
    (domains.map (delayNow configOf states)).max?.getD Duration.zero =
        delayNow configOf states worst ∧
      ∀ domain ∈ domains, delayNow configOf states domain ≤ delayNow configOf states worst := by
  cases hmax : (domains.map (delayNow configOf states)).max? with
  | none => exact absurd (List.map_eq_nil_iff.mp (List.max?_eq_none_iff.mp hmax)) hne
  | some delay =>
    obtain ⟨hmem, hall⟩ := List.max?_eq_some_iff.mp hmax
    obtain ⟨worst, hworst, rfl⟩ := List.mem_map.mp hmem
    exact ⟨worst, hworst, rfl, fun domain hdomain => hall _ (List.mem_map_of_mem hdomain)⟩

/-! ## 2. The loop of the weighted backoff -/

/-- A delay in milliseconds, cut to 64 bits as the cast `as u64` does. -/
def castMillis (configOf : String → ThrottleConfig) (states : String → DomainThrottleState)
    (domain : String) : Nat := delayMillis configOf states domain % 2 ^ 64

theorem checkedMul64_fits (domain : String) {a b : UInt64} (h : a.toNat * b.toNat < 2 ^ 64) :
    (onDomain domain (checkedMul64 a b)).eval (domainHandler clock) states =
      some (a * b, states) := by
  rw [onDomain_eval, checkedMul64, if_pos h]
  show some (_, Function.update states domain (states domain)) = _
  rw [Function.update_eq_self]

theorem checkedMul64_overflows (domain : String) {a b : UInt64}
    (h : ¬ a.toNat * b.toNat < 2 ^ 64) :
    (onDomain domain (checkedMul64 a b)).eval (domainHandler clock) states = none := by
  rw [onDomain_eval, checkedMul64, if_neg h]
  rfl

theorem checkedAdd64_fits (domain : String) {a b : UInt64} (h : a.toNat + b.toNat < 2 ^ 64) :
    (onDomain domain (checkedAdd64 a b)).eval (domainHandler clock) states =
      some (a + b, states) := by
  rw [onDomain_eval, checkedAdd64, if_pos h]
  show some (_, Function.update states domain (states domain)) = _
  rw [Function.update_eq_self]

theorem checkedAdd64_overflows (domain : String) {a b : UInt64}
    (h : ¬ a.toNat + b.toNat < 2 ^ 64) :
    (onDomain domain (checkedAdd64 a b)).eval (domainHandler clock) states = none := by
  rw [onDomain_eval, checkedAdd64, if_neg h]
  rfl

/-- **The loop**: both sums grow by those of the domains; it panics if one leaves 64 bits. -/
theorem weightedSums_eval (h : NoDecayDue configOf states clock domains)
    (totalWeight weightedDelay : UInt64) :
    (weightedSums configOf totalWeight weightedDelay domains).eval (domainHandler clock) states =
      if weightedDelay.toNat + weightedSum (domainWeight states) (castMillis configOf states)
            domains < 2 ^ 64 ∧
          totalWeight.toNat + weightSum (domainWeight states) domains < 2 ^ 64 then
        some ((.ofNat (totalWeight.toNat + weightSum (domainWeight states) domains),
          .ofNat (weightedDelay.toNat +
            weightedSum (domainWeight states) (castMillis configOf states) domains)), states)
      else none := by
  induction domains generalizing totalWeight weightedDelay with
  | nil =>
    rw [weightedSum_nil, weightSum_nil, Nat.add_zero, Nat.add_zero,
      if_pos ⟨weightedDelay.toNat_lt, totalWeight.toNat_lt⟩, UInt64.ofNat_toNat,
      UInt64.ofNat_toNat]
    rfl
  | cons domain rest ih =>
    obtain ⟨hhere, hrest⟩ := List.forall_mem_cons.mp h
    have hweight : (max (states domain).totalSuccesses 1).toNat = domainWeight states domain :=
      toNat_max64 _ _
    have hcast : (UInt64.ofNat (delayNow configOf states domain).asMillis).toNat =
        castMillis configOf states domain := UInt64.toNat_ofNat'
    rw [weightedSums, Program.eval_bind, load64_onDomain_eval, Option.bind_some,
      Program.eval_bind, delay_onDomain_eval hhere, Option.bind_some, Program.eval_bind,
      weightedSum_cons, weightSum_cons]
    dsimp only [DomainThrottleState.get64]
    generalize UInt64.ofNat (delayNow configOf states domain).asMillis = millis at hcast ⊢
    generalize max (states domain).totalSuccesses 1 = weight at hweight ⊢
    rw [← hcast, ← hweight]
    by_cases hmul : millis.toNat * weight.toNat < 2 ^ 64
    · have hprod : (millis * weight).toNat = weight.toNat * millis.toNat := by
        rw [UInt64.toNat_mul, Nat.mod_eq_of_lt hmul, Nat.mul_comm]
      rw [checkedMul64_fits domain hmul, Option.bind_some, Program.eval_bind]
      dsimp only
      by_cases hadd : weightedDelay.toNat + (millis * weight).toNat < 2 ^ 64
      · rw [checkedAdd64_fits domain hadd, Option.bind_some, Program.eval_bind]
        dsimp only
        by_cases htotal : totalWeight.toNat + weight.toNat < 2 ^ 64
        · rw [checkedAdd64_fits domain htotal, Option.bind_some, ih hrest, UInt64.toNat_add,
            UInt64.toNat_add, Nat.mod_eq_of_lt hadd, Nat.mod_eq_of_lt htotal, hprod,
            Nat.add_assoc, Nat.add_assoc]
        · rw [checkedAdd64_overflows domain htotal, if_neg (by omega)]
          rfl
      · rw [checkedAdd64_overflows domain hadd, if_neg (by omega)]
        rfl
    · rw [Nat.mul_comm] at hmul
      rw [checkedMul64_overflows domain (by rw [Nat.mul_comm]; exact hmul), if_neg (by omega)]
      rfl

/-- **`weighted_domain_backoff`, run alone**: the mean of the cast delays in whole milliseconds
    (zero without domains), a panic where a sum leaves 64 bits. -/
theorem weightedDomainBackoff_eval (h : NoDecayDue configOf states clock domains) :
    (weightedDomainBackoff configOf domains).eval (domainHandler clock) states =
      if weightedSum (domainWeight states) (castMillis configOf states) domains < 2 ^ 64 ∧
          weightSum (domainWeight states) domains < 2 ^ 64 then
        some (.fromMillis (.ofNat (weightedMean (domainWeight states)
          (castMillis configOf states) domains)), states)
      else none := by
  unfold weightedDomainBackoff weightedMean
  rw [Program.eval_bind, weightedSums_eval h, UInt64.toNat_zero, Nat.zero_add, Nat.zero_add]
  by_cases hfits : weightedSum (domainWeight states) (castMillis configOf states) domains <
      2 ^ 64 ∧ weightSum (domainWeight states) domains < 2 ^ 64
  · rw [if_pos hfits, if_pos hfits, Option.bind_some]
    dsimp only
    by_cases hzero : UInt64.ofNat (weightSum (domainWeight states) domains) = 0
    · -- only an empty registry has no weight
      have hnone : weightSum (domainWeight states) domains = 0 := by
        rw [eq_zero_iff64, UInt64.toNat_ofNat', Nat.mod_eq_of_lt hfits.2] at hzero
        exact hzero
      rw [if_pos hzero, hnone, Nat.div_zero]
      rfl
    · have hquot : UInt64.ofNat (weightedSum (domainWeight states) (castMillis configOf states)
            domains) / UInt64.ofNat (weightSum (domainWeight states) domains) =
          UInt64.ofNat (weightedSum (domainWeight states) (castMillis configOf states) domains /
            weightSum (domainWeight states) domains) := by
        rw [← UInt64.toNat_inj, UInt64.toNat_div, UInt64.toNat_ofNat', UInt64.toNat_ofNat',
          UInt64.toNat_ofNat', Nat.mod_eq_of_lt hfits.1, Nat.mod_eq_of_lt hfits.2,
          Nat.mod_eq_of_lt (Nat.lt_of_le_of_lt (Nat.div_le_self _ _) hfits.1)]
      rw [if_neg hzero, hquot]
      rfl
  · rw [if_neg hfits, if_neg hfits]
    rfl

end Delays

/-! ## 3. The weighted mean -/

section Mean

variable (configOf : String → ThrottleConfig) (clock : String → UInt64)
  (states : String → DomainThrottleState) (domains : List String)

/-- **A true weighted mean**: the call returns the floor of the exact quotient, no delay is cut by
    the cast, and the result lies between a smallest and a largest delay, so not above what
    `max_domain_backoff` returns. -/
def TrueWeightedMean : Prop :=
  ∃ mean : UInt64,
    (weightedDomainBackoff configOf domains).eval (domainHandler clock) states =
        some (.fromMillis mean, states) ∧
      mean.toNat = weightedMean (domainWeight states) (delayMillis configOf states) domains ∧
      (∀ domain ∈ domains, delayMillis configOf states domain < 2 ^ 64) ∧
      (∃ least ∈ domains, delayMillis configOf states least ≤ mean.toNat) ∧
      (∃ largest ∈ domains, mean.toNat ≤ delayMillis configOf states largest) ∧
      ∃ worst, (maxDomainBackoff configOf domains).eval (domainHandler clock) states =
          some (worst, states) ∧ Duration.fromMillis mean ≤ worst

/-- **The exact sums fit**: the weighted delays and the weights, each below 2^64. -/
def SumsFit : Prop :=
  weightedSum (domainWeight states) (delayMillis configOf states) domains < 2 ^ 64 ∧
    weightSum (domainWeight states) domains < 2 ^ 64

variable {configOf clock states domains}

/-- Delays that fit are left alone by the cast. -/
theorem weightedSum_castMillis
    (h : ∀ domain ∈ domains, delayMillis configOf states domain < 2 ^ 64) :
    weightedSum (domainWeight states) (castMillis configOf states) domains =
      weightedSum (domainWeight states) (delayMillis configOf states) domains := by
  unfold weightedSum
  congr 1
  refine List.map_congr_left fun domain hdomain => ?_
  rw [castMillis, Nat.mod_eq_of_lt (h domain hdomain)]

theorem delayMillis_lt_of_sum
    (h : weightedSum (domainWeight states) (delayMillis configOf states) domains < 2 ^ 64)
    {domain : String} (hdomain : domain ∈ domains) :
    delayMillis configOf states domain < 2 ^ 64 :=
  Nat.lt_of_le_of_lt (le_weightedSum hdomain (domainWeight_pos domain)) h

/-- The smallest of the delays bounds the mean from below. -/
theorem exists_delay_le_mean (hne : domains ≠ []) : ∃ least ∈ domains,
    delayMillis configOf states least ≤
      weightedMean (domainWeight states) (delayMillis configOf states) domains := by
  by_contra hc
  push Not at hc
  obtain ⟨domain, hdomain⟩ := List.exists_mem_of_ne_nil domains hne
  have habove : weightedMean (domainWeight states) (delayMillis configOf states) domains + 1 ≤
      weightedMean (domainWeight states) (delayMillis configOf states) domains :=
    le_weightedMean hne (fun x _ => domainWeight_pos x) fun x hx => Nat.succ_le_of_lt (hc x hx)
  omega

theorem sumsFit_of_trueMean (hdue : NoDecayDue configOf states clock domains)
    (h : TrueWeightedMean configOf clock states domains) : SumsFit configOf states domains := by
  obtain ⟨mean, heval, _, hcast, _⟩ := h
  rw [weightedDomainBackoff_eval hdue, weightedSum_castMillis hcast] at heval
  by_contra hc
  unfold SumsFit at hc
  rw [if_neg hc] at heval
  cases heval

theorem trueMean_of_sumsFit (hne : domains ≠ []) (hdue : NoDecayDue configOf states clock domains)
    (h : SumsFit configOf states domains) : TrueWeightedMean configOf clock states domains := by
  have hcast : ∀ domain ∈ domains, delayMillis configOf states domain < 2 ^ 64 :=
    fun _ hdomain => delayMillis_lt_of_sum h.1 hdomain
  obtain ⟨worst, hworst, hmax, hall⟩ := @max_delay_spec configOf states domains hne
  have hbelow : weightedMean (domainWeight states) (delayMillis configOf states) domains ≤
      delayMillis configOf states worst :=
    weightedMean_le fun domain hdomain => Duration.asMillis_mono (hall domain hdomain)
  have hmean : (UInt64.ofNat (weightedMean (domainWeight states) (castMillis configOf states)
      domains)).toNat =
        weightedMean (domainWeight states) (delayMillis configOf states) domains := by
    unfold weightedMean at hbelow ⊢
    rw [weightedSum_castMillis hcast, UInt64.toNat_ofNat',
      Nat.mod_eq_of_lt (Nat.lt_of_le_of_lt hbelow (hcast worst hworst))]
  unfold TrueWeightedMean
  rw [weightedDomainBackoff_eval hdue, maxDomainBackoff_eval hdue]
  refine ⟨.ofNat (weightedMean (domainWeight states) (castMillis configOf states) domains), ?_,
    hmean, hcast, ?_, ⟨worst, hworst, by rw [hmean]; exact hbelow⟩, _, rfl, ?_⟩
  · rw [weightedSum_castMillis hcast]
    exact if_pos h
  · rw [hmean]
    exact exists_delay_le_mean hne
  · rw [hmax]
    refine Duration.fromMillis_le ?_
    rw [hmean]
    exact hbelow

/-- **THE WEIGHTED BACKOFF IS A TRUE MEAN** if and only if the exact sums fit 64 bits, for every
    non-empty registry, every configuration and every traffic, while no decay is due. -/
theorem weighted_mean_iff (hne : domains ≠ []) (hdue : NoDecayDue configOf states clock domains) :
    TrueWeightedMean configOf clock states domains ↔ SumsFit configOf states domains :=
  ⟨sumsFit_of_trueMean hdue, trueMean_of_sumsFit hne hdue⟩

/-- A domain limited at 1000000. -/
def limitedAt (level : UInt32) (successes : UInt64) : DomainThrottleState :=
  { DomainThrottleState.fresh with
    lastRateLimitAt := 1000000, backoffLevel := level, totalSuccesses := successes }

/-- Without an interval since the rate limits nothing is due. -/
theorem limitedAt_not_due {configOf : String → ThrottleConfig} {domains : List String}
    (hD : ∀ domain, 0 < (configOf domain).decayIntervalMs.toNat) (levels : String → UInt32)
    (successes : String → UInt64) :
    NoDecayDue configOf (fun domain => limitedAt (levels domain) (successes domain))
      (fun _ => 1000000) domains := by
  intro domain _ hdue
  have hpos := hD domain
  have hpassed := hdue.2.2
  simp only [limitedAt, Nat.sub_self] at hpassed
  omega

/-- A healthy domain with 999 successes next to one at level 5 with a single success. -/
theorem weighted_mean_diluted :
    TrueWeightedMean (fun _ => .default) (fun _ => 1000000)
      (fun domain => limitedAt (if domain = "alchemy.com" then 0 else 5)
        (if domain = "alchemy.com" then 999 else 1)) ["alchemy.com", "drpc.org"] :=
  (weighted_mean_iff (by decide) (limitedAt_not_due (fun _ => by decide) _ _)).mpr
    ⟨by decide +kernel, by decide +kernel⟩

/-- A table whose level 1 waits 2^63 milliseconds. -/
def foreverTable : ThrottleConfig :=
  { ThrottleConfig.default with
    maxBackoffLevel := 1, backoffTable := [Duration.zero, .fromMillis 9223372036854775808] }

/-- **The product overflows** for one domain at that level with two successes: the sum would be
    2^64, so the call panics (without overflow checks it adds up to zero). -/
theorem weighted_mean_overflows :
    ¬ ∀ (configOf : String → ThrottleConfig) (clock : String → UInt64)
        (states : String → DomainThrottleState) (domains : List String), domains ≠ [] →
        NoDecayDue configOf states clock domains →
        TrueWeightedMean configOf clock states domains := by
  intro h
  have hdue : NoDecayDue (fun _ => foreverTable) (fun _ => limitedAt 1 2) (fun _ => 1000000)
      ["alchemy.com"] := limitedAt_not_due (fun _ => by decide) (fun _ => 1) fun _ => 2
  have hfits := sumsFit_of_trueMean hdue
    (h (fun _ => foreverTable) (fun _ => 1000000) _ ["alchemy.com"] (by decide) hdue)
  exact absurd hfits.1 (by decide +kernel)

end Mean

/-! ## 4. The cold start -/

section ColdStart

variable (configOf : String → ThrottleConfig) (states : String → DomainThrottleState)
  (domains : List String)

/-- **Both aggregates agree** in whole milliseconds, each with its own clock readings. -/
def AggregatesAgree (clock clock' : String → UInt64) : Prop :=
  ∃ mean worst, (weightedDomainBackoff configOf domains).eval (domainHandler clock) states =
        some (mean, states) ∧
    (maxDomainBackoff configOf domains).eval (domainHandler clock') states =
        some (worst, states) ∧ mean.asMillis = worst.asMillis

/-- **A uniform registry**: all delays are the same in whole milliseconds, their sum fits 64 bits,
    and so does the number of domains. -/
def UniformDelays : Prop :=
  (∀ x ∈ domains, ∀ y ∈ domains, delayMillis configOf states x = delayMillis configOf states y) ∧
    (domains.map (delayMillis configOf states)).sum < 2 ^ 64 ∧ domains.length < 2 ^ 64

variable {configOf states domains} {clock clock' : String → UInt64}

/-- Without a success every domain weighs one. -/
theorem cold_sums (hcold : ∀ domain ∈ domains, (states domain).totalSuccesses = 0)
    (d : String → Nat) :
    weightSum (domainWeight states) domains = domains.length ∧
      weightedSum (domainWeight states) d domains = (domains.map d).sum := by
  have hone : ∀ domain ∈ domains, domainWeight states domain = 1 := by
    intro domain hdomain
    unfold domainWeight
    rw [hcold domain hdomain]
    rfl
  unfold weightSum weightedSum
  rw [List.map_congr_left hone]
  refine ⟨by simp, congrArg List.sum (List.map_congr_left fun domain hdomain => ?_)⟩
  rw [hone domain hdomain, Nat.one_mul]

/-- Nothing to average: both aggregates are zero. -/
theorem agree_nil : AggregatesAgree configOf states [] clock clock' := by
  refine ⟨Duration.zero, Duration.zero, ?_, rfl, rfl⟩
  unfold weightedDomainBackoff
  rw [Program.eval_bind]
  rfl

theorem uniform_of_agree (hcold : ∀ domain ∈ domains, (states domain).totalSuccesses = 0)
    (hdue : NoDecayDue configOf states clock domains)
    (hdue' : NoDecayDue configOf states clock' domains)
    (h : AggregatesAgree configOf states domains clock clock') :
    UniformDelays configOf states domains := by
  by_cases hne : domains = []
  · subst hne
    exact ⟨by simp, by simp, by simp⟩
  · obtain ⟨hweights, _⟩ := cold_sums hcold fun _ => 0
    obtain ⟨worst, hworst, hmax, hall⟩ := @max_delay_spec configOf states domains hne
    obtain ⟨mean, worst', heval, hworst', hsame⟩ := h
    rw [maxDomainBackoff_eval hdue', hmax] at hworst'
    cases hworst'
    rw [weightedDomainBackoff_eval hdue] at heval
    by_cases hfits : weightedSum (domainWeight states) (castMillis configOf states) domains <
        2 ^ 64 ∧ weightSum (domainWeight states) domains < 2 ^ 64
    · rw [if_pos hfits] at heval
      cases heval
      have hle : ∀ domain ∈ domains,
          delayMillis configOf states domain ≤ delayMillis configOf states worst :=
        fun domain hdomain => Duration.asMillis_mono (hall domain hdomain)
      have hmean : weightedMean (domainWeight states) (castMillis configOf states) domains =
          delayMillis configOf states worst := by
        have hlt : weightedMean (domainWeight states) (castMillis configOf states) domains <
            2 ^ 64 := Nat.lt_of_le_of_lt (Nat.div_le_self _ _) hfits.1
        rw [Duration.asMillis_fromMillis, UInt64.toNat_ofNat', Nat.mod_eq_of_lt hlt] at hsame
        exact hsame
      -- a mean that reaches the largest delay leaves no smaller one, cast or not
      have hreach := (weightedMean_eq_iff hne (fun x _ => domainWeight_pos x)
        fun domain hdomain => (Nat.mod_le _ _).trans (hle domain hdomain)).mp hmean
      have heq : ∀ domain ∈ domains, delayMillis configOf states domain =
          delayMillis configOf states worst ∧ delayMillis configOf states domain < 2 ^ 64 := by
        intro domain hdomain
        have hcut : castMillis configOf states domain < 2 ^ 64 := Nat.mod_lt _ (by decide)
        have hdown : castMillis configOf states domain ≤ delayMillis configOf states domain :=
          Nat.mod_le _ _
        have hup := hle domain hdomain
        have hr := hreach domain hdomain
        omega
      refine ⟨fun x hx y hy => (heq x hx).1.trans (heq y hy).1.symm, ?_, hweights ▸ hfits.2⟩
      rw [← (cold_sums hcold (delayMillis configOf states)).2,
        ← weightedSum_castMillis fun domain hdomain => (heq domain hdomain).2]
      exact hfits.1
    · rw [if_neg hfits] at heval
      cases heval

theorem agree_of_uniform (hcold : ∀ domain ∈ domains, (states domain).totalSuccesses = 0)
    (hdue : NoDecayDue configOf states clock domains)
    (hdue' : NoDecayDue configOf states clock' domains)
    (h : UniformDelays configOf states domains) :
    AggregatesAgree configOf states domains clock clock' := by
  by_cases hne : domains = []
  · subst hne
    exact agree_nil
  · obtain ⟨hsame, hsum, hlength⟩ := h
    obtain ⟨worst, hworst, hmax, hall⟩ := @max_delay_spec configOf states domains hne
    rw [← (cold_sums hcold (delayMillis configOf states)).2] at hsum
    rw [← (cold_sums hcold (delayMillis configOf states)).1] at hlength
    have hcast : ∀ domain ∈ domains, delayMillis configOf states domain < 2 ^ 64 :=
      fun _ hdomain => delayMillis_lt_of_sum hsum hdomain
    have hmean : weightedMean (domainWeight states) (castMillis configOf states) domains =
        delayMillis configOf states worst := by
      refine (weightedMean_eq_iff hne (fun x _ => domainWeight_pos x) fun domain hdomain =>
        (Nat.mod_le _ _).trans (Duration.asMillis_mono (hall domain hdomain))).mpr
          fun domain hdomain => ?_
      exact (Nat.mod_eq_of_lt (hcast domain hdomain)).trans (hsame domain hdomain worst hworst)
    unfold AggregatesAgree
    rw [weightedDomainBackoff_eval hdue, maxDomainBackoff_eval hdue', hmax,
      weightedSum_castMillis hcast, if_pos ⟨hsum, hlength⟩, hmean]
    refine ⟨_, _, rfl, rfl, ?_⟩
    rw [Duration.asMillis_fromMillis, UInt64.toNat_ofNat',
      Nat.mod_eq_of_lt (hcast worst hworst)]
    rfl

/-- **THE COLD START FALLS BACK TO THE MAXIMUM** if and only if the registry is uniform: without a
    success every weight is one and the result is the plain mean. -/
theorem cold_start_iff (hcold : ∀ domain ∈ domains, (states domain).totalSuccesses = 0)
    (hdue : NoDecayDue configOf states clock domains)
    (hdue' : NoDecayDue configOf states clock' domains) :
    AggregatesAgree configOf states domains clock clock' ↔
      UniformDelays configOf states domains :=
  ⟨uniform_of_agree hcold hdue hdue', agree_of_uniform hcold hdue hdue'⟩

/-- Two domains at level 1 without a success. -/
theorem cold_start_uniform :
    AggregatesAgree (fun _ => .default) (fun _ => limitedAt 1 0) ["alchemy.com", "drpc.org"]
      (fun _ => 1000000) fun _ => 1000000 :=
  (cold_start_iff (fun _ _ => rfl)
    (limitedAt_not_due (fun _ => by decide) (fun _ => 1) fun _ => 0)
    (limitedAt_not_due (fun _ => by decide) (fun _ => 1) fun _ => 0)).mpr
      ⟨fun _ _ _ _ => rfl, by decide +kernel, by decide⟩

/-- **The cold start is a plain mean**: before any success a healthy domain halves the two seconds
    of one at level 5, where the maximum is two seconds. -/
theorem cold_start_averages :
    ¬ ∀ (configOf : String → ThrottleConfig) (states : String → DomainThrottleState)
        (domains : List String) (clock clock' : String → UInt64),
        (∀ domain ∈ domains, (states domain).totalSuccesses = 0) →
        NoDecayDue configOf states clock domains → NoDecayDue configOf states clock' domains →
        AggregatesAgree configOf states domains clock clock' := by
  intro h
  have hdue : NoDecayDue (fun _ => .default)
      (fun domain => limitedAt (if domain = "alchemy.com" then 0 else 5) 0) (fun _ => 1000000)
      ["alchemy.com", "drpc.org"] :=
    limitedAt_not_due (fun _ => by decide) (fun domain => if domain = "alchemy.com" then 0 else 5)
      fun _ => 0
  have huniform := uniform_of_agree (fun _ _ => rfl) hdue hdue
    (h _ _ ["alchemy.com", "drpc.org"] _ _ (fun _ _ => rfl) hdue hdue)
  have hsame := huniform.1 "alchemy.com" (by decide) "drpc.org" (by decide)
  exact absurd hsame (by decide +kernel)

end ColdStart

end TransportBalancer
