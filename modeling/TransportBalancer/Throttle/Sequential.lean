/-
  File:      TransportBalancer/Throttle/Sequential.lean
  Subject:   RECOVERY IN A SEQUENTIAL RUN: the operations on a domain state one after another,
             each at its clock value, with nobody interfering.

  * `callAt`, `runCalls` -- an operation run alone, and a run of them;
  * `DecayDue` -- a read would decay (or divide by a zero interval);
  * `Recovering` -- the level and the streak after some successes, in closed form;
  * **`exact_recovery`** -- after a rate limit at level `L`, `m` successes leave the level at
    `L - m / R` and the streak at `m % R`, whatever reads come between while no decay is due.
-/
import TransportBalancer.Throttle.Decay
import TransportBalancer.Throttle.Escalation

namespace TransportBalancer

open Interaction MachineWord

/-! ## 1. Sequential runs -/

/-- An operation, run alone at a clock value. -/
def callAt (config : ThrottleConfig) (s : DomainThrottleState) (call : ThrottleCall)
    (now : UInt64) : Option DomainThrottleState :=
  ((call.program config).eval (atomicHandler now) s).map Prod.snd

/-- A sequential run: the operations one after another, each at its clock value. -/
def runCalls (config : ThrottleConfig) (s : DomainThrottleState)
    (calls : List (ThrottleCall × UInt64)) : Option DomainThrottleState :=
  calls.foldlM (fun s c => callAt config s c.1 c.2) s

/-- The number of successes of a run. -/
def successes (calls : List (ThrottleCall × UInt64)) : Nat :=
  calls.countP fun c => c.1 == .success

section Calls

variable (config : ThrottleConfig) (s : DomainThrottleState)

theorem runCalls_concat (calls : List (ThrottleCall × UInt64)) (call : ThrottleCall)
    (now : UInt64) : runCalls config s (calls ++ [(call, now)]) =
      (runCalls config s calls).bind fun s' => callAt config s' call now := by
  unfold runCalls
  rw [List.foldlM_append]
  congr 1
  funext s'
  exact bind_pure _

theorem callAt_escalates {call : ThrottleCall} (h : call.escalates = true) (now : UInt64) :
    callAt config s call now = some { s with
      lastRateLimitAt := now
      consecutiveSuccesses := 0
      totalRateLimits := s.totalRateLimits + 1
      backoffLevel := escalate config.maxBackoffLevel s.backoffLevel } := by
  cases call with
  | rateLimit | batchRejection => rfl
  | success | delay => exact absurd h (by decide)

theorem callAt_delay (now : UInt64) : callAt config s .delay now = readAt config s now := by
  unfold callAt ThrottleCall.program readAt
  rw [Program.eval_bind]
  cases (preRequestDelay config).eval (atomicHandler now) s with
  | none => rfl
  | some x => rfl

end Calls

/-! ## 2. Reads that decay nothing -/

/-- **A decay is due**: there is a level and a timestamp, and an interval has passed since. -/
def DecayDue (config : ThrottleConfig) (now : UInt64) (s : DomainThrottleState) : Prop :=
  0 < s.backoffLevel ∧ 0 < s.lastRateLimitAt ∧
    config.decayIntervalMs.toNat ≤ now.toNat - s.lastRateLimitAt.toNat

/-- A clock value less than an interval past the timestamp drops nothing. -/
theorem decayable_eq_zero {config : ThrottleConfig} {now last : UInt64}
    (h : now.toNat < last.toNat + config.decayIntervalMs.toNat) :
    decayable config now last = 0 := by
  have e : satSub64 now last / config.decayIntervalMs = 0 := by
    rw [eq_zero_iff64, UInt64.toNat_div, toNat_satSub64]
    exact Nat.div_eq_zero_iff.mpr (by omega)
  unfold decayable
  rw [e]
  rfl

/-- **A read with no decay due** returns the table entry of the level and writes nothing. -/
theorem preRequestDelay_not_due {config : ThrottleConfig} {now : UInt64} {s : DomainThrottleState}
    (h : ¬ DecayDue config now s) :
    (preRequestDelay config).eval (atomicHandler now) s =
      some (if s.backoffLevel = 0 then Duration.zero else delayOfLevel config s.backoffLevel, s) := by
  unfold DecayDue at h
  rw [pos_iff32, pos_iff64] at h
  by_cases h0 : s.backoffLevel = 0
  · unfold preRequestDelay
    simp only [load32_bind, Program.eval_op, atomicHandler, Option.bind_some,
      DomainThrottleState.get32_backoffLevel, if_pos h0]
    rfl
  · have hlevel : 0 < s.backoffLevel.toNat := by
      rw [eq_zero_iff32] at h0
      omega
    by_cases hlast : 0 < s.lastRateLimitAt
    · have hlast' := pos_iff64.mp hlast
      have hD : config.decayIntervalMs ≠ 0 := by
        rw [Ne, eq_zero_iff64]
        omega
      have hkept : levelAfterRead config now s = s.backoffLevel := by
        unfold levelAfterRead
        rw [if_pos hlast, decayable_eq_zero (by omega), decayBy_zero_left]
      rw [preRequestDelay_eval hD, hkept]
    · unfold preRequestDelay decayStep
      simp only [load32_bind, load64_bind, Program.eval_op, atomicHandler, Option.bind_some,
        DomainThrottleState.get32_backoffLevel, DomainThrottleState.get64_lastRateLimitAt,
        if_neg h0, if_neg hlast, pure_bind]
      rfl

theorem callAt_delay_not_due {config : ThrottleConfig} {now : UInt64} {s : DomainThrottleState}
    (h : ¬ DecayDue config now s) : callAt config s .delay now = some s := by
  rw [callAt_delay]
  unfold readAt
  rw [preRequestDelay_not_due h]
  rfl

/-! ## 3. The closed form -/

/-- **The recovery from level `start` after `m` successes**: a level dropped for each whole
    threshold, the streak what is left of `m`, cleared for good once the level is zero. -/
structure Recovering (config : ThrottleConfig) (start m : Nat) (s : DomainThrottleState) :
    Prop where
  level : s.backoffLevel.toNat = start - min start (m / config.recoveryThreshold.toNat)
  streak : s.consecutiveSuccesses.toNat =
    if 0 < s.backoffLevel then m % config.recoveryThreshold.toNat else 0

theorem recovering_start (config : ThrottleConfig) {s : DomainThrottleState}
    (h : s.consecutiveSuccesses = 0) : Recovering config s.backoffLevel.toNat 0 s := by
  refine ⟨by simp, ?_⟩
  rw [h, Nat.zero_mod, ite_self]
  rfl

/-- **One success** carries the closed form from `m` to `m + 1`; the counter does not overflow. -/
theorem recovering_success {config : ThrottleConfig} (hR : 1 ≤ config.recoveryThreshold)
    {start m : Nat} {s : DomainThrottleState} (h : Recovering config start m s) (now : UInt64) :
    ∃ s', callAt config s .success now = some s' ∧ Recovering config start (m + 1) s' := by
  have hpos : 0 < config.recoveryThreshold.toNat := UInt32.le_iff_toNat_le.mp hR
  have hfits := config.recoveryThreshold.toNat_lt
  have hone : (1 : UInt32).toNat = 1 := rfl
  have hlt := Nat.mod_lt m hpos
  unfold callAt
  rw [show ThrottleCall.success.program config = recordSuccess config from rfl,
    recordSuccess_eval]
  by_cases h0 : s.backoffLevel = 0
  · -- at level zero nothing moves: `start` thresholds are paid already
    rw [if_pos h0]
    refine ⟨_, rfl, ?_, ?_⟩
    · have hle := Nat.div_le_div_right (c := config.recoveryThreshold.toNat) (Nat.le_add_right m 1)
      have hlevel := h.level
      show s.backoffLevel.toNat = _
      rw [eq_zero_iff32.mp h0] at hlevel ⊢
      omega
    · have hstreak := h.streak
      have hzero : ¬ 0 < s.backoffLevel := by
        rw [h0]
        decide
      rw [if_neg hzero] at hstreak
      exact hstreak.trans (if_neg hzero).symm
  · have hlevel : 0 < s.backoffLevel := by
      rw [pos_iff32]
      rw [eq_zero_iff32] at h0
      omega
    have hstreak := h.streak
    rw [if_pos hlevel] at hstreak
    have hroom : s.consecutiveSuccesses.toNat + 1 < 2 ^ 32 := by omega
    have hnext : (s.consecutiveSuccesses + 1).toNat =
        m % config.recoveryThreshold.toNat + 1 := by
      rw [UInt32.toNat_add, hone, Nat.mod_eq_of_lt hroom, hstreak]
    rw [if_neg h0, if_pos hroom]
    have hdiv := Nat.div_add_mod m config.recoveryThreshold.toNat
    by_cases hreached : config.recoveryThreshold ≤ s.consecutiveSuccesses + 1
    · -- the threshold is reached: the streak is whole, one more level is paid for
      rw [if_pos hreached]
      rw [UInt32.le_iff_toNat_le, hnext] at hreached
      have hwhole : m + 1 =
          config.recoveryThreshold.toNat * (m / config.recoveryThreshold.toNat + 1) := by
        rw [Nat.mul_add, Nat.mul_one]
        omega
      refine ⟨_, rfl, ?_, ?_⟩
      · have hprev := h.level
        rw [pos_iff32] at hlevel
        show (satSub32 s.backoffLevel 1).toNat = _
        rw [toNat_satSub32, hone, hwhole, Nat.mul_div_cancel_left _ hpos]
        omega
      · show (0 : UInt32).toNat = _
        rw [hwhole, Nat.mul_mod_right, ite_self]
        rfl
    · rw [if_neg hreached]
      rw [UInt32.le_iff_toNat_le, hnext] at hreached
      have hmod : (m + 1) % config.recoveryThreshold.toNat =
          m % config.recoveryThreshold.toNat + 1 := by
        rw [← hdiv, Nat.add_assoc, Nat.mul_add_mod, Nat.mod_eq_of_lt (by omega), hdiv]
      have hquot : (m + 1) / config.recoveryThreshold.toNat =
          m / config.recoveryThreshold.toNat :=
        Nat.succ_div_of_mod_ne_zero (by omega)
      refine ⟨_, rfl, ?_, ?_⟩
      · show s.backoffLevel.toNat = _
        rw [h.level, hquot]
      · show (s.consecutiveSuccesses + 1).toNat = _
        rw [hnext, hmod]
        exact (if_pos hlevel).symm

/-- **Successes and idle reads**: every operation of the run is a `record_success`, or a
    `pre_request_delay` that finds no decay due. -/
def OnlyRecovers (config : ThrottleConfig) (s : DomainThrottleState)
    (calls : List (ThrottleCall × UInt64)) : Prop :=
  ∀ done call now rest, calls = done ++ (call, now) :: rest → call = .success ∨
    call = .delay ∧ ∀ s', runCalls config s done = some s' → ¬ DecayDue config now s'

/-- **The closed form over a run**, from a state with a clear streak. -/
theorem recovering_run {config : ThrottleConfig} (hR : 1 ≤ config.recoveryThreshold)
    {s : DomainThrottleState} (hclear : s.consecutiveSuccesses = 0)
    (calls : List (ThrottleCall × UInt64)) (hcalls : OnlyRecovers config s calls) :
    ∃ s', runCalls config s calls = some s' ∧
      Recovering config s.backoffLevel.toNat (successes calls) s' := by
  induction calls using List.reverseRecOn with
  | nil => exact ⟨s, rfl, recovering_start config hclear⟩
  | append_singleton calls last ih =>
    obtain ⟨call, now⟩ := last
    obtain ⟨s', hrun, hs'⟩ := ih fun done call' now' rest h =>
      hcalls done call' now' (rest ++ [(call, now)]) (by rw [h]; simp)
    rw [runCalls_concat, hrun, Option.bind_some]
    rcases hcalls calls call now [] rfl with rfl | ⟨rfl, hidle⟩
    · obtain ⟨s'', hcall, hs''⟩ := recovering_success hR hs' now
      refine ⟨s'', hcall, ?_⟩
      unfold successes at hs'' ⊢
      rw [List.countP_append]
      exact hs''
    · refine ⟨s', callAt_delay_not_due (hidle s' hrun), ?_⟩
      unfold successes at hs' ⊢
      rw [List.countP_append]
      exact hs'

/-- **EXACT RECOVERY.** Let a rate limit or a batch rejection find any state and leave it at some
    level. After any run of successes and reads with no decay due, the level and the streak are the
    closed form of the number of successes (no operation of the run panics), and another rate limit
    clears the streak and raises the level by one up to the maximum. -/
theorem exact_recovery {config : ThrottleConfig} (hR : 1 ≤ config.recoveryThreshold)
    {s₀ s : DomainThrottleState} {call : ThrottleCall} (hcall : call.escalates = true)
    {since : UInt64} (hs : callAt config s₀ call since = some s)
    {calls : List (ThrottleCall × UInt64)} (hcalls : OnlyRecovers config s calls) :
    ∃ s', runCalls config s calls = some s' ∧
      s'.backoffLevel.toNat = s.backoffLevel.toNat -
        min s.backoffLevel.toNat (successes calls / config.recoveryThreshold.toNat) ∧
      s'.consecutiveSuccesses.toNat =
        (if 0 < s'.backoffLevel then successes calls % config.recoveryThreshold.toNat else 0) ∧
      ∀ (again : ThrottleCall) now, again.escalates = true →
        ∃ s'', callAt config s' again now = some s'' ∧ s''.consecutiveSuccesses = 0 ∧
          s''.backoffLevel.toNat =
            min (s'.backoffLevel.toNat + 1) config.maxBackoffLevel.toNat := by
  have hclear : s.consecutiveSuccesses = 0 := by
    rw [callAt_escalates config s₀ hcall] at hs
    cases hs
    rfl
  obtain ⟨s', hrun, hlevel, hstreak⟩ := recovering_run hR hclear calls hcalls
  refine ⟨s', hrun, hlevel, hstreak, fun again now hagain => ?_⟩
  exact ⟨_, callAt_escalates config s' hagain now, rfl, toNat_escalate _ _⟩

/-- Level 2 with a streak of 4 is limited again, to level 3; of two successes with threshold 2 and a
    read after five seconds between them, the second drops a level. -/
theorem exact_recovery_two_successes :
    ∃ s', runCalls { ThrottleConfig.default with recoveryThreshold := 2 }
        { DomainThrottleState.fresh with
          lastRateLimitAt := 1000000, totalRateLimits := 1, backoffLevel := 3 }
        [(.success, 1001000), (.delay, 1005000), (.success, 1006000)] = some s' ∧
      s'.backoffLevel.toNat = 2 ∧ s'.consecutiveSuccesses.toNat = 0 := by
  obtain ⟨s', hrun, hlevel, hstreak, _⟩ :=
    @exact_recovery { ThrottleConfig.default with recoveryThreshold := 2 } (by decide)
      { DomainThrottleState.fresh with backoffLevel := 2, consecutiveSuccesses := 4 }
      { DomainThrottleState.fresh with
        lastRateLimitAt := 1000000, totalRateLimits := 1, backoffLevel := 3 }
      .batchRejection rfl 1000000 rfl
      [(.success, 1001000), (.delay, 1005000), (.success, 1006000)] (by
        intro done call now rest h
        rcases done with _ | ⟨c₁, _ | ⟨c₂, _ | ⟨c₃, done⟩⟩⟩
        · cases h
          exact Or.inl rfl
        · cases h
          refine Or.inr ⟨rfl, fun s' hs' hdue => ?_⟩
          cases hs'
          exact absurd hdue.2.2 (by decide)
        · cases h
          exact Or.inl rfl
        · simp at h)
  refine ⟨s', hrun, hlevel.trans (by decide), hstreak.trans ?_⟩
  exact ite_self _

end TransportBalancer
