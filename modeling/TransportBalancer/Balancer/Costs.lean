/-
  File:      TransportBalancer/Balancer/Costs.lean
  Subject:   WHAT A CALL COSTS AT MOST, the prices of its effects being given: so many attempts a
             round, so many rounds, and the sleeps between them.

  * `Prices` -- bounds of the prices: of the two sleeps of an attempt, and of everything else;
  * `attemptAt_costs`, `attemptLoop_costs`, `retryRounds_costs` -- the bodies and the loops;
  * **`call_costs`** -- a call keeps within the backoffs between its rounds and, for each round, the
    attempts at the eligible endpoints.
-/
import TransportBalancer.Balancer.Rounds
import TransportBalancer.Lib.Charge

namespace TransportBalancer

open Interaction

/-- The backoff slept before round `k + 1`, in nanoseconds, whatever the configuration: capped only
    after the first doubling. -/
def backoffBefore (config : BalancerConfig) : Nat → Nat
  | 0 => config.initialBackoff.nanos
  | k + 1 => min (backoffBefore config k * 2) config.maxBackoff.nanos

/-- The effect is a sleep. -/
def CallOp.isSleep : CallOp → Bool
  | .sleep _ _ => true
  | _ => false

/-- **Bounds of the prices** of the effects of a call: `domain` and `failover` for the sleeps of an
    attempt, `between` for a backoff of so many nanoseconds, `other` for what is no sleep. -/
structure Prices (t : LoadBalancedTransport) (admits : (e : CallOp) → CallSig.Ans e → Prop)
    (price : CallOp → Nat) (other domain failover : Nat) (between : Nat → Nat) : Prop where
  other : ∀ e : CallOp, e.isSleep = false → price e ≤ other
  panic : ∀ msg, price (.panic msg) = 0
  domain : ∀ idx delay, admits (.preRequestDelay idx) delay →
    price (.sleep .domainDelay delay) ≤ domain
  failover : price (.sleep .rateLimitFailover t.config.rateLimitFailoverDelay) ≤ failover
  between : ∀ d, price (.sleep .betweenRounds d) ≤ between d.nanos

section Costs

variable {t : LoadBalancedTransport} (req : RequestPacket) (bytes : Nat)
  {admits : (e : CallOp) → CallSig.Ans e → Prop} {price : CallOp → Nat}
  {other domain failover : Nat} {between : Nat → Nat}
  (hprices : Prices t admits price other domain failover between)

include hprices

/-- A panic is free. -/
theorem throw_costs {α : Type} {Q : α → Prop} (msg : String) :
    (CallOp.throw msg : Program CallSig α).Costs admits price 0 Q :=
  ⟨Nat.le_of_eq (hprices.panic msg), fun r => Empty.elim r⟩

/-- An effect that is no sleep. -/
theorem perform_costs {α : Type} {e : CallOp} (he : e.isSleep = false)
    {k : CallSig.Ans e → Program CallSig α} {n : Nat} {Q : α → Prop}
    (h : ∀ r, admits e r → (k r).Costs admits price n Q) :
    (Program.op e k : Program CallSig α).Costs admits price (other + n) Q :=
  .op (hprices.other e he) h

theorem lookAhead_costs (start : Nat) (later : List Nat) :
    (hasUnthrottledEligibleAlternative t bytes start later).Costs admits price
      (other * later.length) fun _ => True := by
  induction later with
  | nil => exact trivial
  | cons nextAttempt later ih =>
    rw [List.length_cons, Nat.mul_succ, Nat.add_comm]
    unfold hasUnthrottledEligibleAlternative
    dsimp only
    split
    · rw [CallOp.perform_bind]
      refine perform_costs hprices rfl fun delay _ => ?_
      split
      · exact trivial
      · exact ih
    · exact ih.le (Nat.le_add_left _ _)

theorem applyDomainDelay_costs {idx : Nat} {delay : Duration}
    (h : admits (.preRequestDelay idx) delay) :
    (applyDomainDelay delay).Costs admits price domain fun _ => True := by
  unfold applyDomainDelay
  split
  · exact trivial
  · exact ⟨hprices.domain idx delay h, fun _ _ => trivial⟩

theorem acquirePermit_costs (idx : Nat) :
    (acquirePermit t idx).Costs admits price other fun _ => True := by
  unfold acquirePermit
  split
  · exact perform_costs (n := 0) hprices rfl fun _ _ => trivial
  · exact trivial

theorem dropPermit_costs (idx : Nat) :
    (dropPermit t idx).Costs admits price other fun _ => True := by
  unfold dropPermit
  split
  · exact perform_costs (n := 0) hprices rfl fun _ _ => trivial
  · exact trivial

theorem recordFailure_costs (idx attempt : Nat) (err : TransportError) :
    (recordFailure t idx attempt err).Costs admits price (other + failover) fun _ => True := by
  have hsleep : (if isRateLimit err = true ∧ attempt < t.numEndpoints - 1 then
      CallOp.perform (.sleep .rateLimitFailover t.config.rateLimitFailoverDelay)
      else pure ()).Costs admits price failover fun _ => True := by
    split
    · exact ⟨hprices.failover, fun _ _ => trivial⟩
    · exact trivial
  unfold recordFailure
  dsimp only
  split
  · exact perform_costs hprices rfl fun _ _ => hsleep
  · exact hsleep.le (Nat.le_add_left _ _)

/-- The inner call, what is recorded of it, and the sleep before the next endpoint. -/
theorem sendTo_costs (idx attempt : Nat) :
    (sendTo t req idx attempt).Costs admits price (other * 3 + failover) fun _ => True := by
  have hdrop : ∀ out : RpcResult ⊕ TransportError,
      (dropPermit t idx >>= fun _ => (pure out : Program CallSig _)).Costs admits price (other + 0)
        fun _ => True := fun out => (dropPermit_costs hprices idx).bind fun _ _ => trivial
  have hsum : other * 3 + failover = other + (other + failover + (other + 0)) := by omega
  rw [hsum]
  unfold sendTo
  rw [CallOp.perform_bind]
  refine perform_costs hprices rfl fun reply _ => ?_
  cases reply with
  | ok resp =>
    refine (perform_costs hprices rfl fun _ _ => hdrop _).le ?_
    omega
  | error err =>
    dsimp only
    split
    · exact (recordFailure_costs hprices idx attempt err).bind fun _ _ => hdrop _
    · refine (hdrop _).le ?_
      omega

/-- **One attempt**: the readings, a skip or the sleep, the gate and the inner call. -/
theorem attemptAt_costs (start attempt : Nat) (later : List Nat) :
    (attemptAt t req bytes start attempt later).Costs admits price
      (other * (later.length + 5) + domain + failover) fun _ => True := by
  have hsum : other * (later.length + 5) + domain + failover =
      other + (other * later.length + (domain + (other + (other * 3 + failover + 0)))) := by
    rw [Nat.mul_add]
    omega
  rw [hsum]
  unfold attemptAt
  dsimp only
  rw [CallOp.perform_bind]
  refine perform_costs hprices rfl fun delay hdelay => ?_
  refine (lookAhead_costs bytes hprices start later).bind fun alternative _ => ?_
  split
  · rw [CallOp.perform_bind]
    refine Program.Costs.le (perform_costs (n := 0) hprices rfl fun _ _ => trivial) ?_
    omega
  · refine (applyDomainDelay_costs hprices hdelay).bind fun _ _ => ?_
    refine (acquirePermit_costs hprices _).bind fun granted _ => ?_
    cases granted with
    | false => exact trivial
    | true =>
      refine (sendTo_costs req hprices _ attempt).bind fun outcome _ => ?_
      cases outcome <;> exact trivial

/-- What an attempt costs, whichever it is. -/
def attemptPrice (t : LoadBalancedTransport) (other domain failover : Nat) : Nat :=
  other * (t.numEndpoints + 4) + domain + failover

/-- **The attempts of a round**, those at endpoints that accept the request. -/
theorem attemptLoop_costs (start : Nat) (todo : List Nat) (htodo : todo.length ≤ t.numEndpoints)
    (lastErr : Option TransportError) :
    (attemptLoop t req bytes start todo lastErr).Costs admits price
      ((eligibleOf t bytes start todo).length * attemptPrice t other domain failover)
      fun _ => True := by
  induction todo generalizing lastErr with
  | nil => exact trivial
  | cons attempt later ih =>
    rw [List.length_cons] at htodo
    have hlater := ih (Nat.le_of_succ_le htodo)
    by_cases hacc : t.endpointAcceptsRequest (rotated t start attempt) bytes = true
    · rw [attemptLoop_of_accepts t req bytes hacc, eligibleOf_cons_of_accepts t bytes hacc,
        List.length_cons, Nat.succ_mul, Nat.add_comm]
      have hfits : other * (later.length + 5) + domain + failover ≤
          attemptPrice t other domain failover := by
        have hmul := Nat.mul_le_mul_left other (show later.length + 5 ≤ t.numEndpoints + 4 by omega)
        unfold attemptPrice
        omega
      refine ((attemptAt_costs req bytes hprices start attempt later).le hfits).bind fun out _ => ?_
      cases out with
      | skipped | failed => exact hlater _
      | returned => exact trivial
    · rw [attemptLoop_of_not_accepts t req bytes hacc,
        eligibleOf_cons_of_not_accepts t bytes hacc]
      exact hlater lastErr

/-- The backoff before a round, if it is not the first; a doubling that overflows ends the call. -/
theorem backOff_costs {round : Nat} {backoff : Duration}
    (h : backoff.nanos = backoffBefore t.config (round - 1)) :
    (backOff t round backoff).Costs admits price
      (if 0 < round then between (backoffBefore t.config (round - 1)) else 0)
      fun backoff' => backoff'.nanos = backoffBefore t.config round := by
  unfold backOff
  split
  · rename_i hround
    obtain ⟨before, rfl⟩ : ∃ before, round = before + 1 := ⟨round - 1, by omega⟩
    rw [CallOp.perform_bind, ← h]
    refine Program.Costs.op (n := 0) (hprices.between backoff) fun _ _ => ?_
    unfold doubled
    split
    · rename_i twice htwice
      rw [pure_bind]
      refine .ret ?_
      unfold Duration.checkedMul at htwice
      split at htwice
      · cases htwice
        have hmono : Monotone Duration.nanos := fun _ _ h => h
        rw [hmono.map_min]
        dsimp only
        rw [h]
        rfl
      · cases htwice
    · rw [CallOp.throw_bind]
      exact throw_costs hprices _
  · rename_i hround
    obtain rfl : round = 0 := Nat.eq_zero_of_not_pos hround
    exact h

/-- What a round costs without the backoff before it: the tick, and its attempts. -/
def roundPrice (t : LoadBalancedTransport) (bytes other domain failover : Nat) : Nat :=
  other + (eligible t bytes).length * attemptPrice t other domain failover

theorem oneRound_costs {round : Nat} {backoff : Duration}
    (h : backoff.nanos = backoffBefore t.config (round - 1)) :
    (oneRound t req bytes round backoff).Costs admits price
      ((if 0 < round then between (backoffBefore t.config (round - 1)) else 0) +
        roundPrice t bytes other domain failover)
      fun out => out.1.nanos = backoffBefore t.config round := by
  unfold oneRound
  refine (backOff_costs hprices h).bind fun backoff' hbackoff => ?_
  unfold selectEndpoint roundPrice
  rw [bind_assoc, CallOp.perform_bind]
  refine perform_costs hprices rfl fun tick _ => ?_
  simp only [pure_bind]
  have hlength : (eligibleOf t bytes (t.endpointOfTick tick) (List.range t.numEndpoints)).length =
      (eligible t bytes).length := (eligibleRotation_perm t bytes _).length_eq
  rw [← hlength]
  exact (attemptLoop_costs req bytes hprices _ _ (Nat.le_of_eq List.length_range) none).bind
    (m := 0) fun _ _ => .ret hbackoff

/-- What the rounds from `round` on cost, `left` of them. -/
def roundsPrice (t : LoadBalancedTransport) (bytes other domain failover : Nat)
    (between : Nat → Nat) : (left round : Nat) → Nat
  | 0, _ => 0
  | left + 1, round =>
    (if 0 < round then between (backoffBefore t.config (round - 1)) else 0) +
      roundPrice t bytes other domain failover +
      roundsPrice t bytes other domain failover between left (round + 1)

theorem retryRounds_costs (left : Nat) {round : Nat} {backoff : Duration}
    (h : backoff.nanos = backoffBefore t.config (round - 1)) :
    (retryRounds t req bytes left round backoff).Costs admits price
      (roundsPrice t bytes other domain failover between left round) fun _ => True := by
  induction left generalizing round backoff with
  | zero => exact throw_costs hprices _
  | succ left ih =>
    rw [retryRounds_succ]
    refine (oneRound_costs req bytes hprices h).bind fun out hout => ?_
    obtain ⟨backoff', outcome⟩ := out
    cases outcome with
    | returned result => exact trivial
    | exhausted lastErr =>
      dsimp only
      split
      · cases lastErr with
        | some err => exact trivial
        | none => exact (throw_costs hprices _).le (Nat.zero_le _)
      · exact ih hout

end Costs

/-- **What a call costs**: its rounds, and the backoffs between them. -/
def callPrice (t : LoadBalancedTransport) (bytes other domain failover : Nat)
    (between : Nat → Nat) : Nat :=
  (t.config.maxRetryRounds.toNat + 1) * roundPrice t bytes other domain failover +
    ((List.range t.config.maxRetryRounds.toNat).map fun k =>
      between (backoffBefore t.config k)).sum

theorem roundsPrice_eq (t : LoadBalancedTransport) (bytes other domain failover : Nat)
    (between : Nat → Nat) (left round : Nat) :
    roundsPrice t bytes other domain failover between left (round + 1) =
      left * roundPrice t bytes other domain failover +
        ((List.range' round left).map fun k => between (backoffBefore t.config k)).sum := by
  induction left generalizing round with
  | zero => exact (Nat.zero_mul _).symm
  | succ left ih =>
    rw [roundsPrice, ih, if_pos (Nat.succ_pos round), Nat.add_sub_cancel, List.range'_succ,
      List.map_cons, List.sum_cons, Nat.succ_mul]
    omega

/-- **A CALL COSTS NO MORE THAN THAT**, whatever is answered. -/
theorem call_costs {t : LoadBalancedTransport} {admits : (e : CallOp) → CallSig.Ans e → Prop}
    {price : CallOp → Nat} {other domain failover : Nat} {between : Nat → Nat}
    (hprices : Prices t admits price other domain failover between)
    (wire : RequestPacket → Option Nat) (req : RequestPacket) :
    (call wire t req).Costs admits price
      (callPrice t (requestBytes wire req) other domain failover between) fun _ => True := by
  unfold call
  dsimp only
  split
  · refine (retryRounds_costs req (requestBytes wire req) hprices _ rfl).le (Nat.le_of_eq ?_)
    rw [roundsPrice, if_neg (Nat.lt_irrefl 0), Nat.zero_add, roundsPrice_eq, callPrice,
      Nat.succ_mul, List.range_eq_range']
    omega
  · exact trivial

end TransportBalancer
