/-
  File:      TransportBalancer/Balancer/Backoff.lean
  Subject:   THE SLEEPS BETWEEN THE ROUNDS of a call: doubled after each, capped after the doubling.

  * `cappedDoubling` -- the law: the initial backoff doubled for each round before, at most the
    maximum;
  * `FollowsDoublingLaw` -- every sleep of every call of a transport obeys it, and the doubling never
    panics;
  * `failing_rounds_reached` -- if all endpoints keep failing, every round is reached;
  * **`doubling_law_iff`** -- exactly the configurations for which the law holds: the cap does not
    reach the first sleep, and the doubling comes before the cap.
-/
import TransportBalancer.Balancer.HealthyFirst

namespace TransportBalancer

open Interaction

/-! ## 1. The law -/

/-- The sleep before the next round, if the effect is one. -/
def CallOp.backoff? : CallOp → Option Duration
  | .sleep .betweenRounds d => some d
  | _ => none

/-- The sleeps between the rounds of a trace, oldest first. -/
def backoffSleeps (tr : Trace CallSig) : List Duration := tr.filterMap fun ev => ev.op.backoff?

/-- **The capped doubling law**, in nanoseconds, for the sleep after `k` others. -/
def cappedDoubling (config : BalancerConfig) (k : Nat) : Nat :=
  min (config.initialBackoff.nanos * 2 ^ k) config.maxBackoff.nanos

/-- **Every call of the transport follows the law**: the sleeps are those of the law, so none
    exceeds the maximum and they do not decrease, and the doubling does not overflow. -/
def FollowsDoublingLaw (t : LoadBalancedTransport) : Prop :=
  ∀ (wire : RequestPacket → Option Nat) (req : RequestPacket) (tr : Trace CallSig)
    (q : Program CallSig RpcResult), Steps (call wire t req) tr q →
    (∀ k d, (backoffSleeps tr)[k]? = some d → d.nanos = cappedDoubling t.config k) ∧
    (∀ d ∈ backoffSleeps tr, d ≤ t.config.maxBackoff) ∧
    (backoffSleeps tr).Pairwise (· ≤ ·) ∧
    ∀ k, q ≠ .op (.panic "overflow when multiplying duration by scalar") k

/-- **The law fits the configuration**: there are no retry rounds, or the initial backoff is within
    the maximum and the last sleep can be doubled. -/
def DoublingFits (config : BalancerConfig) : Prop :=
  config.maxRetryRounds.toNat = 0 ∨ (config.initialBackoff ≤ config.maxBackoff ∧
    cappedDoubling config (config.maxRetryRounds.toNat - 1) * 2 < nanosLimit)

theorem cappedDoubling_mono (config : BalancerConfig) {j k : Nat} (h : j ≤ k) :
    cappedDoubling config j ≤ cappedDoubling config k := by
  unfold cappedDoubling
  have hpow : 2 ^ j ≤ 2 ^ k := Nat.pow_le_pow_right (by decide) h
  have hmul := Nat.mul_le_mul_left config.initialBackoff.nanos hpow
  omega

/-- Doubling and capping leads from one sleep of the law to the next. -/
theorem cappedDoubling_succ (config : BalancerConfig) (k : Nat) :
    min (cappedDoubling config k * 2) config.maxBackoff.nanos = cappedDoubling config (k + 1) := by
  unfold cappedDoubling
  rw [Nat.pow_succ, ← Nat.mul_assoc]
  omega

theorem cappedDoubling_zero {config : BalancerConfig}
    (h : config.initialBackoff ≤ config.maxBackoff) :
    cappedDoubling config 0 = config.initialBackoff.nanos := by
  unfold cappedDoubling
  rw [Nat.pow_zero, Nat.mul_one, Nat.min_eq_left h]

/-! ## 2. A fitting configuration follows the law -/

section Protocols

variable (t : LoadBalancedTransport) (req : RequestPacket) (bytes : Nat)

/-- Effects within a round. -/
def CallOp.InRound : CallOp → Prop
  | .panic _ | .fetchAddCounter => False
  | .sleep site _ => site ≠ .betweenRounds
  | _ => True

theorem inRound_of_free {e : CallOp} (h : e.Free) : e.InRound := by
  cases e with
  | panic | fetchAddCounter => exact h
  | sleep => exact h
  | _ => trivial

theorem lookAhead_inRound (start : Nat) (later : List Nat) :
    (hasUnthrottledEligibleAlternative t bytes start later).Performs CallOp.InRound := by
  induction later with
  | nil => exact trivial
  | cons nextAttempt later ih =>
    unfold hasUnthrottledEligibleAlternative
    dsimp only
    split
    · rw [CallOp.perform_bind]
      refine ⟨trivial, fun d _ => ?_⟩
      dsimp only
      split
      · exact trivial
      · exact ih
    · exact ih

theorem sendTo_inRound (idx attempt : Nat) :
    (sendTo t req idx attempt).Performs CallOp.InRound := by
  have hdrop : ∀ out : RpcResult ⊕ TransportError,
      (dropPermit t idx >>= fun _ => pure out).Performs CallOp.InRound :=
    fun out => ((dropPermit_free t idx).mono fun _ => inRound_of_free).bind fun _ => trivial
  unfold sendTo
  rw [CallOp.perform_bind]
  refine ⟨trivial, fun reply _ => ?_⟩
  cases reply with
  | ok resp => exact ⟨trivial, fun _ _ => hdrop _⟩
  | error err =>
    dsimp only
    split
    · exact ((recordFailure_free t idx attempt err).mono fun _ => inRound_of_free).bind
        fun _ => hdrop _
    · exact hdrop _

theorem acquirePermit_inRound (idx : Nat) : (acquirePermit t idx).Performs CallOp.InRound := by
  unfold acquirePermit
  split
  · exact ⟨trivial, fun _ _ => trivial⟩
  · exact trivial

theorem attemptAt_inRound (start attempt : Nat) (later : List Nat) :
    (attemptAt t req bytes start attempt later).Performs CallOp.InRound := by
  unfold attemptAt
  refine ⟨trivial, fun d _ => ?_⟩
  refine (lookAhead_inRound t bytes start later).bind fun alternative => ?_
  split
  · exact ⟨trivial, fun _ _ => trivial⟩
  · refine ((applyDomainDelay_free d).mono fun _ => inRound_of_free).bind fun _ => ?_
    refine (acquirePermit_inRound t _).bind fun granted => ?_
    split
    · refine (sendTo_inRound t req _ attempt).bind fun outcome => ?_
      cases outcome <;> exact trivial
    · exact trivial

theorem attemptLoop_inRound (start : Nat) (todo : List Nat) (lastErr : Option TransportError) :
    (attemptLoop t req bytes start todo lastErr).Performs CallOp.InRound :=
  attemptLoop_keeps (I := fun _ => True)
    (fun attempt _ later _ _ => attemptAt_inRound t req bytes start attempt later) trivial

/-- **The protocol of the sleeps**: each obeys the law after those before it, and the doubling does
    not overflow. -/
def backoffProtocol (config : BalancerConfig) : Protocol CallSig (List Duration) where
  ok ds e :=
    match e with
    | .sleep .betweenRounds d => d.nanos = cappedDoubling config ds.length
    | .panic msg => msg ≠ "overflow when multiplying duration by scalar"
    | _ => True
  admits _ _ _ := True
  next ds e _ := ds ++ e.backoff?.toList

theorem backoffProtocol_after (config : BalancerConfig) (tr : Trace CallSig) (ds : List Duration) :
    (backoffProtocol config).after ds tr = ds ++ backoffSleeps tr := by
  induction tr generalizing ds with
  | nil => exact (List.append_nil _).symm
  | cons ev tr ih =>
    rw [Protocol.after_cons, ih]
    unfold backoffProtocol backoffSleeps
    rw [List.filterMap_cons, List.append_assoc]
    cases ev.op.backoff? <;> rfl

theorem inRound_follows {α : Type} {p : Program CallSig α} (h : p.Performs CallOp.InRound)
    (ds : List Duration) :
    p.Follows (backoffProtocol t.config) ds fun ds' _ => ds' = ds := by
  refine h.follows (fun e he => ?_) fun e r he => ?_
  · cases e with
    | panic | fetchAddCounter => exact he.elim
    | sleep site => cases site <;> first | exact absurd rfl he | trivial
    | _ => trivial
  · cases e with
    | panic | fetchAddCounter => exact he.elim
    | sleep site => cases site <;> first | exact absurd rfl he | exact List.append_nil _
    | _ => exact List.append_nil _

/-- The sleep before a round and the doubling after it, for a sleep of the law that can be
    doubled. -/
theorem backOff_law {round : Nat} {backoff : Duration} {ds : List Duration}
    (hfits : 0 < round → backoff.nanos = cappedDoubling t.config ds.length ∧
      backoff.nanos * 2 < nanosLimit) :
    (backOff t round backoff).Follows (backoffProtocol t.config) ds fun ds' backoff' =>
      if 0 < round then ds' = ds ++ [backoff] ∧
        backoff'.nanos = cappedDoubling t.config (ds.length + 1)
      else ds' = ds ∧ backoff' = backoff := by
  refine backOff_rule (fun hround => ?_) fun hround => ?_
  · rw [if_neg (by omega)]
    exact ⟨rfl, rfl⟩
  · obtain ⟨hlaw, hdouble⟩ := hfits hround
    refine ⟨hlaw, fun _ _ => ?_⟩
    unfold Duration.checkedMul
    rw [dif_pos hdouble]
    dsimp only
    rw [if_pos hround]
    refine ⟨rfl, ?_⟩
    have hmin : ∀ a b : Duration, (min a b).nanos = min a.nanos b.nanos := fun a b =>
      (Monotone.map_min (fun _ _ h => h : Monotone Duration.nanos))
    rw [hmin, ← cappedDoubling_succ, ← hlaw]

end Protocols

section Law

variable {t : LoadBalancedTransport} {req : RequestPacket} {bytes : Nat}

/-- **Before round `round`** the sleeps so far are one fewer, and the backoff kept is the next of
    the law, if there is a retry round to come. -/
structure BackoffKept (config : BalancerConfig) (round : Nat) (backoff : Duration)
    (ds : List Duration) : Prop where
  slept : ds.length = round - 1
  next : 0 < config.maxRetryRounds.toNat → backoff.nanos = cappedDoubling config ds.length

/-- **A round keeps to the law.** -/
theorem oneRound_law (hdouble : 0 < t.config.maxRetryRounds.toNat →
      cappedDoubling t.config (t.config.maxRetryRounds.toNat - 1) * 2 < nanosLimit)
    {round : Nat} {backoff : Duration} {ds : List Duration}
    (hround : round ≤ t.config.maxRetryRounds.toNat) (h : BackoffKept t.config round backoff ds) :
    (oneRound t req bytes round backoff).Follows (backoffProtocol t.config) ds
      (RoundEnd.Leaves (backoffProtocol t.config) (BackoffKept t.config (round + 1))
        (fun _ _ => True) (round = t.config.maxRetryRounds.toNat)) := by
  have hfits : 0 < round → backoff.nanos = cappedDoubling t.config ds.length ∧
      backoff.nanos * 2 < nanosLimit := by
    intro hpos
    have hlaw := h.next (by omega)
    have hlen := h.slept
    refine ⟨hlaw, Nat.lt_of_le_of_lt (Nat.mul_le_mul_right 2 ?_) (hdouble (by omega))⟩
    rw [hlaw]
    exact cappedDoubling_mono t.config (by omega)
  refine oneRound_rule (M := fun ds' backoff' => BackoffKept t.config (round + 1) backoff' ds')
    ((backOff_law t hfits).mono fun ds' backoff' hnext => ?_)
    fun ds' backoff' h' => ⟨trivial, fun tick _ => ?_⟩
  · by_cases hpos : 0 < round
    · rw [if_pos hpos] at hnext
      obtain ⟨rfl, hb⟩ := hnext
      have hlen : (ds ++ [backoff]).length = ds.length + 1 := List.length_append
      refine ⟨?_, fun _ => ?_⟩
      · rw [hlen, h.slept]
        omega
      · rw [hlen]
        exact hb
    · rw [if_neg hpos] at hnext
      obtain ⟨rfl, rfl⟩ := hnext
      exact ⟨h.slept.trans (by omega), h.next⟩
  · rw [show (backoffProtocol t.config).next ds' .fetchAddCounter tick = ds' from
      List.append_nil ds']
    refine (inRound_follows t (attemptLoop_inRound t req bytes _ _ none) ds').mono ?_
    intro ds'' outcome heq
    subst heq
    cases outcome with
    | returned result => exact trivial
    | exhausted lastErr =>
      refine ⟨fun _ => ?_, fun _ => h'⟩
      cases lastErr with
      | some err => exact trivial
      | none => exact fun heq => absurd heq (by decide)

theorem call_law (hfits : DoublingFits t.config) (wire : RequestPacket → Option Nat) :
    (call wire t req).Follows (backoffProtocol t.config) [] fun _ _ => True := by
  refine call_rule (I := BackoffKept t.config)
    (fun round backoff ds hround h => oneRound_law (fun hpos => ?_) hround h) ⟨rfl, fun hpos => ?_⟩
    trivial
  · exact (hfits.resolve_left (Nat.ne_of_gt hpos)).2
  · exact (cappedDoubling_zero (hfits.resolve_left (Nat.ne_of_gt hpos)).1).symm

/-- One effect keeps the sleeps those of the law. -/
theorem law_next (ds : List Duration) (e : CallOp) (r : CallSig.Ans e)
    (h : ∀ k d, ds[k]? = some d → d.nanos = cappedDoubling t.config k)
    (hok : (backoffProtocol t.config).ok ds e) (_ : (backoffProtocol t.config).admits ds e r) :
    ∀ k d, ((backoffProtocol t.config).next ds e r)[k]? = some d →
      d.nanos = cappedDoubling t.config k := by
  intro k d hk
  cases hb : e.backoff? with
  | none =>
    have hsame : (backoffProtocol t.config).next ds e r = ds := by
      unfold backoffProtocol
      dsimp only
      rw [hb]
      exact List.append_nil ds
    rw [hsame] at hk
    exact h k d hk
  | some d' =>
    obtain rfl : e = .sleep .betweenRounds d' := by
      cases e with
      | sleep site => cases site <;> first | cases hb; rfl | cases hb
      | _ => cases hb
    have hnext : (ds ++ [d'])[k]? = some d := hk
    rw [List.getElem?_append] at hnext
    by_cases hlt : k < ds.length
    · rw [if_pos hlt] at hnext
      exact h k d hnext
    · rw [if_neg hlt] at hnext
      rw [List.getElem?_singleton] at hnext
      obtain ⟨hzero, heq⟩ := Option.ite_none_right_eq_some.mp hnext
      obtain rfl : k = ds.length := by omega
      cases heq
      exact hok

/-- **A fitting configuration follows the law.** -/
theorem law_of_fits (hfits : DoublingFits t.config) : FollowsDoublingLaw t := by
  intro wire req tr q hs
  have hfollows := @call_law t req hfits wire
  have hadmitted : (backoffProtocol t.config).Admitted [] tr :=
    Protocol.admitted_of_free (fun _ _ _ => trivial) tr []
  have hlaw : ∀ k d, (backoffSleeps tr)[k]? = some d → d.nanos = cappedDoubling t.config k := by
    have hinv := hfollows.invariant law_next hs hadmitted (by simp)
    rw [backoffProtocol_after] at hinv
    exact hinv
  refine ⟨hlaw, fun d hd => ?_, ?_, fun k heq => ?_⟩
  · obtain ⟨k, hk⟩ := List.mem_iff_getElem?.mp hd
    show d.nanos ≤ t.config.maxBackoff.nanos
    rw [hlaw k d hk]
    exact Nat.min_le_right _ _
  · rw [List.pairwise_iff_getElem]
    intro i j hi hj hij
    show (backoffSleeps tr)[i].nanos ≤ (backoffSleeps tr)[j].nanos
    rw [hlaw i _ (List.getElem?_eq_getElem hi), hlaw j _ (List.getElem?_eq_getElem hj)]
    exact cappedDoubling_mono t.config (Nat.le_of_lt hij)
  · subst heq
    exact hfollows.head hs hadmitted rfl

end Law

/-! ## 3. Every round is reached -/

section Failing

variable (t : LoadBalancedTransport) (req : RequestPacket) (bytes : Nat)

/-- The effect is no sleep between rounds. -/
def NoBackoff (ev : Event CallSig) : Prop := ev.op.backoff? = none

theorem backoffSleeps_eq_nil {tr : Trace CallSig} (h : ∀ ev ∈ tr, NoBackoff ev) :
    backoffSleeps tr = [] := List.filterMap_eq_nil_iff.mpr h

/-- Where no domain is throttled, the look-ahead finds an alternative only below the threshold, and
    so no endpoint is skipped. -/
theorem lookAhead_may {ok : Event CallSig → Prop}
    (hok : ∀ idx, ok ⟨.preRequestDelay idx, Duration.zero⟩) (start : Nat) (later : List Nat) :
    ∃ found, (hasUnthrottledEligibleAlternative t bytes start later).May ok found ∧
      ¬ (Duration.zero ≥ t.config.heavyThrottleThreshold ∧ found = true) := by
  induction later with
  | nil => exact ⟨false, Program.may_ret false, fun h => Bool.noConfusion h.2⟩
  | cons nextAttempt later ih =>
    obtain ⟨found, hmay, hstay⟩ := ih
    unfold hasUnthrottledEligibleAlternative
    dsimp only
    by_cases hacc : t.endpointAcceptsRequest (rotated t start nextAttempt) bytes = true
    · rw [if_pos hacc, CallOp.perform_bind]
      by_cases hlt : Duration.zero < t.config.heavyThrottleThreshold
      · refine ⟨true, .op Duration.zero (hok _) ?_, fun h => absurd hlt (not_lt.mpr h.1)⟩
        rw [if_pos hlt]
        exact Program.may_ret true
      · refine ⟨found, .op Duration.zero (hok _) ?_, hstay⟩
        rw [if_neg hlt]
        exact hmay
    · rw [if_neg hacc]
      exact ⟨found, hmay, hstay⟩

theorem acquirePermit_may {ok : Event CallSig → Prop} {idx : Nat}
    (hok : ok ⟨.acquireOwned idx, .permit⟩) : (acquirePermit t idx).May ok true := by
  unfold acquirePermit
  split
  · exact .op GateAnswer.permit hok (Program.may_ret _)
  · exact Program.may_ret true

theorem dropPermit_may (idx : Nat) : (dropPermit t idx).May NoBackoff () := by
  unfold dropPermit
  split
  · exact .op () rfl (Program.may_ret ())
  · exact Program.may_ret ()

/-- An endpoint whose backend is gone. -/
theorem sendTo_may (idx attempt : Nat) :
    (sendTo t req idx attempt).May NoBackoff (.inr backendGone) := by
  unfold sendTo
  rw [CallOp.perform_bind]
  refine .op (Except.error backendGone) rfl ?_
  exact (Program.may_ret ()).bind ((dropPermit_may t idx).bind (Program.may_ret _))

/-- **A round may fail**: every endpoint it accepts answers that its backend is gone. -/
theorem attemptLoop_may (start : Nat) (todo : List Nat) (lastErr : Option TransportError) :
    ∃ lastErr', (attemptLoop t req bytes start todo lastErr).May NoBackoff
      (.exhausted lastErr') := by
  induction todo generalizing lastErr with
  | nil => exact ⟨lastErr, Program.may_ret _⟩
  | cons attempt later ih =>
    unfold attemptLoop
    dsimp only
    by_cases hacc : t.endpointAcceptsRequest (rotated t start attempt) bytes = true
    · rw [if_pos hacc, CallOp.perform_bind]
      obtain ⟨found, hlook, hstay⟩ := @lookAhead_may t bytes NoBackoff (fun _ => rfl) start later
      obtain ⟨lastErr', hrest⟩ := ih (some backendGone)
      refine ⟨lastErr', .op Duration.zero rfl (hlook.bind ?_)⟩
      rw [if_neg hstay]
      refine (Program.may_ret ()).bind ((@acquirePermit_may t NoBackoff _ rfl).bind ?_)
      exact (sendTo_may t req _ attempt).bind hrest
    · rw [if_neg hacc]
      exact ih lastErr

/-- A failing round leads to the next one. -/
theorem round_may_fail {left round : Nat} {backoff backoff' : Duration} {tr : Trace CallSig}
    (hback : Runs (backOff t round backoff) tr backoff')
    (hne : round ≠ t.config.maxRetryRounds.toNat) :
    ∃ tr', (∀ ev ∈ tr', NoBackoff ev) ∧
      Steps (retryRounds t req bytes (left + 1) round backoff) (tr ++ tr')
        (retryRounds t req bytes left (round + 1) backoff') := by
  obtain ⟨lastErr, tr', hrun, hok⟩ := attemptLoop_may t req bytes (t.endpointOfTick 0)
    (List.range t.numEndpoints) none
  refine ⟨⟨.fetchAddCounter, (0 : UInt64)⟩ :: tr', List.forall_mem_cons.mpr ⟨rfl, hok⟩, ?_⟩
  rw [retryRounds]
  refine steps_bind hback ?_
  unfold selectEndpoint
  rw [bind_assoc, CallOp.perform_bind]
  refine .step _ _ _ ?_
  rw [pure_bind, ← List.append_nil tr']
  refine steps_bind hrun ?_
  dsimp only
  rw [if_neg hne]
  exact .refl _

/-- The sleep before a retry round, with a backoff that can be doubled. -/
theorem backOff_runs {round : Nat} {backoff twice : Duration}
    (h : backoff.checkedMul 2 = some twice) :
    Runs (backOff t (round + 1) backoff) [⟨.sleep .betweenRounds backoff, ()⟩]
      (min twice t.config.maxBackoff) := by
  unfold backOff
  rw [if_pos (Nat.succ_pos round), CallOp.perform_bind]
  refine .step _ _ _ ?_
  unfold doubled
  rw [h]
  exact .refl _

/-- A backoff that cannot be doubled. -/
theorem doubling_panics {left round : Nat} {backoff : Duration}
    (h : backoff.checkedMul 2 = none) :
    ∃ k, Steps (retryRounds t req bytes (left + 1) (round + 1) backoff)
      [⟨.sleep .betweenRounds backoff, ()⟩]
      (.op (.panic "overflow when multiplying duration by scalar") k) := by
  rw [retryRounds]
  unfold backOff
  rw [if_pos (Nat.succ_pos round), CallOp.perform_bind, Program.op_bind]
  simp only [doubled, h, CallOp.throw_bind]
  exact ⟨_, .step _ _ _ (.refl _)⟩

/-- **Every round is reached**: as long as the doubling does not overflow, a call to endpoints that
    all keep failing comes to retry round `k + 1` after `k` sleeps. -/
theorem failing_rounds_reached {wire : RequestPacket → Option Nat}
    (hacc : eligible t (requestBytes wire req) ≠ [])
    (hquiet : ∀ tr q, Steps (call wire t req) tr q →
      ∀ k, q ≠ .op (.panic "overflow when multiplying duration by scalar") k) (k : Nat) :
    ∀ left, k + 1 + left = t.config.maxRetryRounds.toNat → ∃ tr backoff,
      Steps (call wire t req) tr
        (retryRounds t req (requestBytes wire req) (left + 1) (k + 1) backoff) ∧
      (backoffSleeps tr).length = k ∧ (k = 0 → backoff = t.config.initialBackoff) := by
  have hcall : call wire t req = retryRounds t req (requestBytes wire req)
      (t.config.maxRetryRounds.toNat + 1) 0 t.config.initialBackoff := by
    unfold call
    dsimp only
    rw [if_pos ((any_accepts_iff t _).mpr hacc)]
  induction k with
  | zero =>
    intro left hleft
    have hfirst : Runs (backOff t 0 t.config.initialBackoff) [] t.config.initialBackoff := .refl _
    obtain ⟨tr, hok, hs⟩ := @round_may_fail t req (requestBytes wire req) (left + 1) 0 _ _ _ hfirst
      (by omega)
    refine ⟨tr, t.config.initialBackoff, ?_, by rw [backoffSleeps_eq_nil hok]; rfl, fun _ => rfl⟩
    rw [hcall, ← hleft, show 0 + 1 + left + 1 = left + 1 + 1 by omega]
    exact hs
  | succ k ih =>
    intro left hleft
    obtain ⟨tr, backoff, hs, hlen, _⟩ := ih (left + 1) (by omega)
    cases hdouble : backoff.checkedMul 2 with
    | none =>
      obtain ⟨rest, hpanic⟩ := @doubling_panics t req (requestBytes wire req) (left + 1) k _ hdouble
      exact absurd rfl (hquiet _ _ (steps_append hs hpanic) rest)
    | some twice =>
      obtain ⟨tr', hok, hs'⟩ := @round_may_fail t req (requestBytes wire req) (left + 1) (k + 1) _ _
        _ (backOff_runs t hdouble) (by omega)
      refine ⟨_, _, steps_append hs hs', ?_, fun h => absurd h (Nat.succ_ne_zero k)⟩
      unfold backoffSleeps at hlen ⊢
      rw [List.filterMap_append, List.filterMap_append, List.length_append, List.length_append,
        hlen, show tr'.filterMap (fun ev => ev.op.backoff?) = [] from backoffSleeps_eq_nil hok]
      rfl

end Failing

/-! ## 4. Exactly when the law holds -/

section Exactly

variable {t : LoadBalancedTransport}

/-- A request of no bytes is accepted everywhere. -/
theorem eligible_zero_bytes (t : LoadBalancedTransport) : eligible t 0 ≠ [] := by
  have hacc : t.endpointAcceptsRequest 0 0 = true := by
    unfold LoadBalancedTransport.endpointAcceptsRequest
    cases t.endpointRequestCaps.getD 0 none with
    | none => rfl
    | some limit => exact decide_eq_true (Nat.zero_le limit)
  exact List.ne_nil_of_mem (List.mem_filter.mpr ⟨List.mem_range.mpr t.numEndpoints_pos, hacc⟩)

/-- What a reached retry round sleeps next is the next of the sleeps. -/
theorem next_sleep {wire : RequestPacket → Option Nat} {req : RequestPacket} {left round : Nat}
    {backoff : Duration} {tr : Trace CallSig} (h : FollowsDoublingLaw t)
    (hs : Steps (call wire t req) tr
      (retryRounds t req (requestBytes wire req) (left + 1) (round + 1) backoff)) :
    backoff.nanos = cappedDoubling t.config (backoffSleeps tr).length := by
  have hsleep : ∃ q, Steps (retryRounds t req (requestBytes wire req) (left + 1) (round + 1)
      backoff) [⟨.sleep .betweenRounds backoff, ()⟩] q := by
    rw [retryRounds]
    unfold backOff
    rw [if_pos (Nat.succ_pos round), CallOp.perform_bind, Program.op_bind]
    exact ⟨_, .step _ _ _ (.refl _)⟩
  obtain ⟨q, hq⟩ := hsleep
  refine (h wire req _ q (steps_append hs hq)).1 _ backoff ?_
  unfold backoffSleeps
  rw [List.filterMap_append]
  exact List.getElem?_concat_length

/-- **A transport that follows the law has a fitting configuration.** -/
theorem fits_of_law (h : FollowsDoublingLaw t) : DoublingFits t.config := by
  by_cases h0 : t.config.maxRetryRounds.toNat = 0
  · exact Or.inl h0
  · have hquiet : ∀ tr q, Steps (call (fun _ => some 0) t smallRequest) tr q →
        ∀ k, q ≠ .op (.panic "overflow when multiplying duration by scalar") k :=
      fun tr q hs => (h (fun _ => some 0) smallRequest tr q hs).2.2.2
    have hacc : eligible t (requestBytes (fun _ => some 0) smallRequest) ≠ [] :=
      eligible_zero_bytes t
    refine Or.inr ⟨?_, ?_⟩
    · -- the first sleep is the initial backoff itself
      obtain ⟨tr, backoff, hs, hlen, hinit⟩ := failing_rounds_reached t smallRequest hacc hquiet 0
        (t.config.maxRetryRounds.toNat - 1) (by omega)
      have hlaw := next_sleep h hs
      rw [hinit rfl, hlen, cappedDoubling, Nat.pow_zero, Nat.mul_one] at hlaw
      show t.config.initialBackoff.nanos ≤ t.config.maxBackoff.nanos
      omega
    · -- the last sleep is doubled as well, though nothing sleeps that long
      obtain ⟨tr, backoff, hs, hlen, _⟩ := failing_rounds_reached t smallRequest hacc hquiet
        (t.config.maxRetryRounds.toNat - 1) 0 (by omega)
      have hlaw := next_sleep h hs
      rw [hlen] at hlaw
      rw [← hlaw]
      by_contra hover
      have hnone : backoff.checkedMul 2 = none := by
        unfold Duration.checkedMul
        exact dif_neg hover
      obtain ⟨k, hpanic⟩ := @doubling_panics t smallRequest _ 0 _ _ hnone
      exact hquiet _ _ (steps_append hs hpanic) k rfl

/-- **THE CAPPED DOUBLING LAW HOLDS** of every call of a transport if and only if its configuration
    has no retry rounds, or an initial backoff within the maximum and a last sleep that can be
    doubled. -/
theorem doubling_law_iff (t : LoadBalancedTransport) :
    FollowsDoublingLaw t ↔ DoublingFits t.config :=
  ⟨fits_of_law, law_of_fits⟩

/-- The default configuration fits. -/
example : DoublingFits BalancerConfig.default := Or.inr ⟨by decide, by decide⟩

/-- Two endpoints, one retry round, and an initial backoff of ten seconds above the maximum of
    four. -/
def impatientPair : LoadBalancedTransport :=
  { pairTransport with
    config := { BalancerConfig.default with
      maxRetryRounds := 1, initialBackoff := .fromMillis 10000 } }

/-- **The first sleep is not capped**: with an initial backoff above the maximum, a call that fails
    over once sleeps longer than the maximum. -/
theorem first_sleep_uncapped :
    ¬ ∀ t : LoadBalancedTransport, FollowsDoublingLaw t := by
  intro h
  rcases fits_of_law (h impatientPair) with hnone | ⟨hle, _⟩
  · exact absurd hnone (by decide)
  · exact absurd hle (by decide)

end Exactly

end TransportBalancer
