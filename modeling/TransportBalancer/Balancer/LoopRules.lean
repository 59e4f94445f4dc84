/-
  File:      TransportBalancer/Balancer/LoopRules.lean
  Subject:   PROOF RULES FOR THE TWO LOOPS OF A CALL, whatever protocol it is to keep.

  * `attemptAt`, `oneRound` -- the bodies of the loop over the attempts and of the loop over the
    rounds; `attemptLoop_of_accepts`, `retryRounds_succ` -- the loops in terms of them;
  * **`attemptLoop_rule`**, **`call_rule`** -- an invariant that the body keeps carries the loop to
    its postcondition;
  * `attemptLoop_keeps`, `call_keeps` -- the rules for an invariant that does not change.
-/
import TransportBalancer.Balancer.Call

namespace TransportBalancer

open Interaction

/-! ## 1. The bodies of the loops -/

/-- How one attempt ends: with `continue` before or after the inner call, or with `return`. -/
inductive AttemptEnd where
  | skipped
  | failed (err : TransportError)
  | returned (result : RpcResult)

section Bodies

variable (t : LoadBalancedTransport) (req : RequestPacket) (requestBytes : Nat)

/-- **One attempt**, at an endpoint that accepts the request. -/
def attemptAt (startIdx attempt : Nat) (later : List Nat) : Program CallSig AttemptEnd := do
  let idx := rotated t startIdx attempt
  let delay ← CallOp.perform (.preRequestDelay idx)
  let alternative ← hasUnthrottledEligibleAlternative t requestBytes startIdx later
  if delay ≥ t.config.heavyThrottleThreshold ∧ alternative = true then
    CallOp.perform (.recordSkip idx)
    return .skipped
  else
    applyDomainDelay delay
    if ← acquirePermit t idx then
      match ← sendTo t req idx attempt with
      | .inl result => return .returned result
      | .inr err => return .failed err
    else return .returned (.error backendGone)

theorem attemptLoop_of_accepts {startIdx attempt : Nat}
    (hacc : t.endpointAcceptsRequest (rotated t startIdx attempt) requestBytes = true)
    (later : List Nat) (lastErr : Option TransportError) :
    attemptLoop t req requestBytes startIdx (attempt :: later) lastErr =
      attemptAt t req requestBytes startIdx attempt later >>= fun out =>
        match out with
        | .skipped => attemptLoop t req requestBytes startIdx later lastErr
        | .failed err => attemptLoop t req requestBytes startIdx later (some err)
        | .returned result => pure (.returned result) := by
  rw [attemptLoop, attemptAt]
  dsimp only
  rw [if_pos hacc]
  simp only [bind_assoc]
  congr 1
  funext delay
  congr 1
  funext alternative
  split
  · rfl
  · simp only [bind_assoc]
    congr 1
    funext _
    congr 1
    funext granted
    cases granted with
    | false => rfl
    | true =>
      simp only [if_true, bind_assoc]
      congr 1
      funext outcome
      cases outcome <;> rfl

theorem attemptLoop_of_not_accepts {startIdx attempt : Nat}
    (hacc : ¬ t.endpointAcceptsRequest (rotated t startIdx attempt) requestBytes = true)
    (later : List Nat) (lastErr : Option TransportError) :
    attemptLoop t req requestBytes startIdx (attempt :: later) lastErr =
      attemptLoop t req requestBytes startIdx later lastErr := by
  rw [attemptLoop]
  exact if_neg hacc

/-- **One round**: the backoff kept for the next one, and how the attempts end. -/
def oneRound (round : Nat) (backoff : Duration) : Program CallSig (Duration × RoundEnd) := do
  let backoff ← backOff t round backoff
  let startIdx ← selectEndpoint t
  let outcome ← attemptLoop t req requestBytes startIdx (List.range t.numEndpoints) none
  return (backoff, outcome)

theorem retryRounds_succ (left round : Nat) (backoff : Duration) :
    retryRounds t req requestBytes (left + 1) round backoff =
      oneRound t req requestBytes round backoff >>= fun out =>
        match out with
        | (_, .returned result) => pure result
        | (backoff, .exhausted lastErr) =>
          if round = t.config.maxRetryRounds.toNat then
            match lastErr with
            | some err => pure (.error err)
            | none => CallOp.throw "at least one endpoint was tried"
          else retryRounds t req requestBytes left (round + 1) backoff := by
  rw [retryRounds, oneRound]
  simp only [bind_assoc, pure_bind]
  congr 1
  funext backoff'
  congr 1
  funext startIdx
  congr 1
  funext outcome
  cases outcome <;> rfl

end Bodies

/-! ## 2. The loop over the attempts -/

section Attempts

variable {Γ : Type} {P : Protocol CallSig Γ} {t : LoadBalancedTransport} {req : RequestPacket}
  {bytes start : Nat}

/-- What one attempt has to leave: the invariant of those still to make, by the last error then
    kept, or the postcondition of the loop. -/
def AttemptEnd.Leaves (I : Option TransportError → Γ → Prop) (Q : Γ → RoundEnd → Prop)
    (lastErr : Option TransportError) (γ : Γ) : AttemptEnd → Prop
  | .skipped => I lastErr γ
  | .failed err => I (some err) γ
  | .returned result => Q γ (.returned result)

/-- **THE RULE OF A ROUND**: an invariant of the attempts still to make, the last error and the
    ghost state, which every attempt keeps and every endpoint that does not accept the request
    too. -/
theorem attemptLoop_rule {I : List Nat → Option TransportError → Γ → Prop} {Q : Γ → RoundEnd → Prop}
    (hend : ∀ lastErr γ, I [] lastErr γ → Q γ (.exhausted lastErr))
    (hpass : ∀ attempt later lastErr γ, I (attempt :: later) lastErr γ →
      ¬ t.endpointAcceptsRequest (rotated t start attempt) bytes = true → I later lastErr γ)
    (hattempt : ∀ attempt later lastErr γ, I (attempt :: later) lastErr γ →
      t.endpointAcceptsRequest (rotated t start attempt) bytes = true →
      (attemptAt t req bytes start attempt later).Follows P γ
        (AttemptEnd.Leaves (I later) Q lastErr))
    (todo : List Nat) {lastErr : Option TransportError} {γ : Γ} (h : I todo lastErr γ) :
    (attemptLoop t req bytes start todo lastErr).Follows P γ Q := by
  induction todo generalizing lastErr γ with
  | nil => exact hend lastErr γ h
  | cons attempt later ih =>
    by_cases hacc : t.endpointAcceptsRequest (rotated t start attempt) bytes = true
    · rw [attemptLoop_of_accepts t req bytes hacc]
      refine (hattempt attempt later lastErr γ h hacc).bind fun γ' out hout => ?_
      cases out with
      | skipped => exact ih hout
      | failed err => exact ih hout
      | returned result => exact hout
    · rw [attemptLoop_of_not_accepts t req bytes hacc]
      exact ih (hpass attempt later lastErr γ h hacc)

/-- The rule for an invariant of the ghost state alone. -/
theorem attemptLoop_keeps {I : Γ → Prop} {todo : List Nat}
    (hattempt : ∀ attempt ∈ todo, ∀ later γ, I γ →
      (attemptAt t req bytes start attempt later).Follows P γ fun γ' _ => I γ')
    {lastErr : Option TransportError} {γ : Γ} (h : I γ) :
    (attemptLoop t req bytes start todo lastErr).Follows P γ fun γ' _ => I γ' := by
  refine attemptLoop_rule (I := fun todo' _ γ => (∀ attempt ∈ todo', attempt ∈ todo) ∧ I γ)
    (fun _ _ h => h.2) (fun attempt later lastErr γ h _ => ?_)
    (fun attempt later lastErr γ h _ => ?_) todo ⟨fun _ h => h, h⟩
  · exact ⟨fun a ha => h.1 a (List.mem_cons_of_mem _ ha), h.2⟩
  · refine (hattempt attempt (h.1 _ List.mem_cons_self) later γ h.2).mono fun γ' out hout => ?_
    cases out with
    | skipped | failed => exact ⟨fun a ha => h.1 a (List.mem_cons_of_mem _ ha), hout⟩
    | returned result => exact hout

end Attempts

/-! ## 3. The loop over the rounds -/

section Rounds

variable {Γ : Type} {P : Protocol CallSig Γ} {t : LoadBalancedTransport} {req : RequestPacket}
  {bytes : Nat}

/-- The sleep before a later round, and the doubling after it. -/
theorem backOff_rule {round : Nat} {backoff : Duration} {γ : Γ} {Q : Γ → Duration → Prop}
    (hfirst : round = 0 → Q γ backoff)
    (hsleep : 0 < round → P.ok γ (.sleep .betweenRounds backoff) ∧
      ∀ r, P.admits γ (.sleep .betweenRounds backoff) r →
        match backoff.checkedMul 2 with
        | some twice =>
          Q (P.next γ (.sleep .betweenRounds backoff) r) (min twice t.config.maxBackoff)
        | none => P.ok (P.next γ (.sleep .betweenRounds backoff) r)
          (.panic "overflow when multiplying duration by scalar")) :
    (backOff t round backoff).Follows P γ Q := by
  unfold backOff
  split
  · rename_i hround
    rw [CallOp.perform_bind]
    refine ⟨(hsleep hround).1, fun r hr => ?_⟩
    have hdouble := (hsleep hround).2 r hr
    unfold doubled
    split
    · rename_i twice htwice
      rw [htwice] at hdouble
      exact hdouble
    · rename_i hover
      rw [hover] at hdouble
      rw [CallOp.throw_bind]
      exact ⟨hdouble, fun r => Empty.elim r⟩
  · rename_i hround
    exact hfirst (Nat.eq_zero_of_not_pos hround)

/-- One round: the back-off, the selection of its first endpoint, the attempts from there. -/
theorem oneRound_rule {round : Nat} {backoff : Duration} {γ : Γ} {M : Γ → Duration → Prop}
    {Q : Γ → Duration × RoundEnd → Prop} (hback : (backOff t round backoff).Follows P γ M)
    (hattempts : ∀ γ' backoff', M γ' backoff' → P.ok γ' .fetchAddCounter ∧
      ∀ tick, P.admits γ' .fetchAddCounter tick →
        (attemptLoop t req bytes (t.endpointOfTick tick) (List.range t.numEndpoints) none).Follows P
          (P.next γ' .fetchAddCounter tick) fun γ'' outcome => Q γ'' (backoff', outcome)) :
    (oneRound t req bytes round backoff).Follows P γ Q := by
  unfold oneRound
  refine hback.bind fun γ' backoff' h => ?_
  unfold selectEndpoint
  rw [bind_assoc, CallOp.perform_bind]
  refine ⟨(hattempts γ' backoff' h).1, fun tick htick => ?_⟩
  simp only [pure_bind]
  exact ((hattempts γ' backoff' h).2 tick htick).bind fun _ _ h => h

/-- What round `round` has to leave: the invariant of the next one, or the postcondition of the
    call. -/
def RoundEnd.Leaves (P : Protocol CallSig Γ) (I : Duration → Γ → Prop) (Q : Γ → RpcResult → Prop)
    (isLast : Prop) (γ : Γ) : Duration × RoundEnd → Prop
  | (_, .returned result) => Q γ result
  | (backoff, .exhausted lastErr) =>
    (isLast → match lastErr with
      | some err => Q γ (.error err)
      | none => P.ok γ (.panic "at least one endpoint was tried")) ∧
    (¬ isLast → I backoff γ)

/-- One round, and those after it. -/
theorem retryRounds_step {I : Duration → Γ → Prop} {Q : Γ → RpcResult → Prop}
    {left round : Nat} {backoff : Duration} {γ : Γ}
    (hround : (oneRound t req bytes round backoff).Follows P γ
      (RoundEnd.Leaves P I Q (round = t.config.maxRetryRounds.toNat)))
    (hnext : round ≠ t.config.maxRetryRounds.toNat → ∀ backoff' γ', I backoff' γ' →
      (retryRounds t req bytes left (round + 1) backoff').Follows P γ' Q) :
    (retryRounds t req bytes (left + 1) round backoff).Follows P γ Q := by
  rw [retryRounds_succ]
  refine hround.bind fun γ' out hout => ?_
  obtain ⟨backoff', outcome⟩ := out
  cases outcome with
  | returned result => exact hout
  | exhausted lastErr =>
    dsimp only
    split
    · rename_i hlast
      have hend := hout.1 hlast
      cases lastErr with
      | some err => exact hend
      | none => exact ⟨hend, fun r => Empty.elim r⟩
    · rename_i hlast
      exact hnext hlast backoff' γ' (hout.2 hlast)

/-- **THE RULE OF THE ROUNDS**: an invariant of the number of the round to come, the backoff kept
    for it and the ghost state, which every round keeps. The loop always ends in one of its
    rounds. -/
theorem retryRounds_rule {I : Nat → Duration → Γ → Prop} {Q : Γ → RpcResult → Prop}
    (hround : ∀ round backoff γ, round ≤ t.config.maxRetryRounds.toNat → I round backoff γ →
      (oneRound t req bytes round backoff).Follows P γ (RoundEnd.Leaves P (I (round + 1)) Q
        (round = t.config.maxRetryRounds.toNat)))
    (left : Nat) {round : Nat} {backoff : Duration} {γ : Γ}
    (hleft : round + left = t.config.maxRetryRounds.toNat) (h : I round backoff γ) :
    (retryRounds t req bytes (left + 1) round backoff).Follows P γ Q := by
  have hthis := hround round backoff γ (by omega) h
  induction left generalizing round backoff γ with
  | zero => exact retryRounds_step hthis fun hne => absurd hleft hne
  | succ left ih =>
    refine retryRounds_step hthis fun _ backoff' γ' h' => ?_
    exact ih (by omega) h' (hround (round + 1) backoff' γ' (by omega) h')

/-- **THE RULE OF A CALL**: the rule of the rounds, from the first one; a request that no endpoint
    accepts does nothing. -/
theorem call_rule {wire : RequestPacket → Option Nat} {I : Nat → Duration → Γ → Prop}
    {Q : Γ → RpcResult → Prop}
    (hround : ∀ round backoff γ, round ≤ t.config.maxRetryRounds.toNat → I round backoff γ →
      (oneRound t req (requestBytes wire req) round backoff).Follows P γ
        (RoundEnd.Leaves P (I (round + 1)) Q (round = t.config.maxRetryRounds.toNat)))
    {γ : Γ} (h : I 0 t.config.initialBackoff γ) (hlocal : Q γ (.error sizeLimitError)) :
    (call wire t req).Follows P γ Q := by
  unfold call
  dsimp only
  split
  · exact retryRounds_rule hround _ (Nat.zero_add _) h
  · exact hlocal

/-- The rule for an invariant of the ghost state alone: `I` holds between the rounds and `R start`
    between the attempts of one that starts there. -/
theorem call_keeps {wire : RequestPacket → Option Nat} {I : Γ → Prop} {R : Nat → Γ → Prop}
    (hpanic : ∀ msg γ, I γ → P.ok γ (.panic msg))
    (hsleep : ∀ backoff γ, I γ → P.ok γ (.sleep .betweenRounds backoff) ∧
      ∀ r, P.admits γ (.sleep .betweenRounds backoff) r →
        I (P.next γ (.sleep .betweenRounds backoff) r))
    (hselect : ∀ γ, I γ → P.ok γ .fetchAddCounter ∧
      ∀ tick, P.admits γ .fetchAddCounter tick →
        R (t.endpointOfTick tick) (P.next γ .fetchAddCounter tick))
    (hattempt : ∀ start attempt later γ, attempt < t.numEndpoints → R start γ →
      (attemptAt t req (requestBytes wire req) start attempt later).Follows P γ
        fun γ' _ => R start γ')
    (hround : ∀ start γ, R start γ → I γ) {γ : Γ} (h : I γ) :
    (call wire t req).Follows P γ fun γ' _ => I γ' := by
  refine call_rule (I := fun _ _ => I) (fun round backoff γ _ h => ?_) h h
  refine oneRound_rule (M := fun γ' _ => I γ') (backOff_rule (fun _ => h) fun _ => ?_) ?_
  · refine ⟨(hsleep backoff γ h).1, fun r hr => ?_⟩
    have hslept := (hsleep backoff γ h).2 r hr
    split
    · exact hslept
    · exact hpanic _ _ hslept
  · refine fun γ' backoff' h' => ⟨(hselect γ' h').1, fun tick htick => ?_⟩
    refine (attemptLoop_keeps (fun attempt ha later γ => hattempt _ attempt later γ
      (List.mem_range.mp ha)) ((hselect γ' h').2 tick htick)).mono fun γ'' outcome h'' => ?_
    have hend := hround _ _ h''
    cases outcome with
    | returned result => exact hend
    | exhausted lastErr =>
      refine ⟨fun _ => ?_, fun _ => hend⟩
      cases lastErr with
      | some err => exact hend
      | none => exact hpanic _ _ hend

end Rounds

end TransportBalancer
