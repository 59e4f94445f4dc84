/-
  File:      TransportBalancer/Balancer/Call.lean
  Subject:   ONE BALANCED CALL (`LoadBalancedTransport::call`), as a program over its effects: the
             round-robin counter, throttle readings and records, sleeps, gates and inner calls.

  * `isRetryable`, `isRateLimit` -- the classification of errors;
  * `CallSig` -- the effects; what they answer is left to the environment, so every throttle
    reading, gate and endpoint outcome is possible at every point;
  * `attemptLoop`, `retryRounds`, `call` -- the two nested loops, with every `continue`, `return`
    and `?`, and with the permit dropped where its scope ends.
-/
import TransportBalancer.Balancer.Transport

namespace TransportBalancer

open Interaction

/-! ## 1. Classification of errors -/

/-- `is_retryable`. -/
def isRetryable : TransportError → Bool
  | .transport (.httpError status _) =>
    status = 413 || status = 429 || status = 502 || status = 503 || status = 504
  | .transport .backendGone => true
  | .transport (.custom msg) =>
    containsText msg "timed out" || containsText msg "connection" ||
      containsText msg "429 Too Many Requests"
  | _ => false

/-- `is_rate_limit`. -/
def isRateLimit : TransportError → Bool
  | .transport (.httpError status _) => status = 429
  | .transport (.custom msg) => containsText msg "429 Too Many Requests"
  | _ => false

/-- **A rate limit is retryable**, whatever the error. -/
theorem retryable_of_rateLimit (err : TransportError) (h : isRateLimit err = true) :
    isRetryable err = true := by
  cases err with
  | transport kind =>
    cases kind with
    | httpError status body =>
      unfold isRateLimit at h
      unfold isRetryable
      simp [of_decide_eq_true h]
    | custom msg =>
      unfold isRateLimit at h
      unfold isRetryable
      simp [h]
    | _ => exact absurd h Bool.false_ne_true
  | _ => exact absurd h Bool.false_ne_true

/-! ## 2. Effects -/

/-- The three places where a call sleeps. -/
inductive SleepSite where
  | betweenRounds
  | domainDelay
  | rateLimitFailover
  deriving DecidableEq, Repr

/-- What `acquire_owned` answers. -/
inductive GateAnswer where
  | permit
  | closed
  deriving DecidableEq, Repr

/-- The effects of a call. Throttle operations act on the domain state of the named endpoint;
    `dropPermit` is the end of a held permit's scope. -/
inductive CallOp where
  | panic (msg : String)
  | fetchAddCounter
  | preRequestDelay (idx : Nat)
  | recordSkip (idx : Nat)
  | recordSuccess (idx : Nat)
  | recordRateLimit (idx : Nat)
  | sleep (site : SleepSite) (delay : Duration)
  | acquireOwned (idx : Nat)
  | dropPermit (idx : Nat)
  | send (idx : Nat) (req : RequestPacket)

abbrev CallSig : Signature where
  Op := CallOp
  Ans
    | .panic _ => Empty
    | .fetchAddCounter => UInt64
    | .preRequestDelay _ => Duration
    | .recordSkip _ | .recordSuccess _ | .recordRateLimit _ => Unit
    | .sleep _ _ => Unit
    | .acquireOwned _ => GateAnswer
    | .dropPermit _ => Unit
    | .send _ _ => RpcResult

namespace CallOp

/-- A program that panics. -/
def throw {α : Type} (msg : String) : Program CallSig α := .op (.panic msg) nofun

/-- Perform an effect and answer what it answers. -/
def perform (e : CallOp) : Program CallSig (CallSig.Ans e) := .op e .ret

@[simp] theorem throw_bind {α β : Type} (msg : String) (f : α → Program CallSig β) :
    (throw msg >>= f) = throw msg := by
  unfold throw
  rw [Program.op_bind]
  congr 1
  funext x
  exact Empty.elim x

@[simp] theorem perform_bind {α : Type} (e : CallOp) (f : CallSig.Ans e → Program CallSig α) :
    (e.perform >>= f) = .op e f := rfl

end CallOp

/-! ## 3. One round -/

/-- How the attempts of a round end: with `return`, or with the loop run to its end. -/
inductive RoundEnd where
  | returned (result : RpcResult)
  | exhausted (lastErr : Option TransportError)

/-- `duration * 2`, which panics on overflow. -/
def doubled (d : Duration) : Program CallSig Duration :=
  match d.checkedMul 2 with
  | some d => return d
  | none => CallOp.throw "overflow when multiplying duration by scalar"

section Calls

variable (t : LoadBalancedTransport) (req : RequestPacket) (requestBytes : Nat)

/-- `select_endpoint`. -/
def selectEndpoint : Program CallSig Nat := do
  let tick ← CallOp.perform .fetchAddCounter
  return t.endpointOfTick tick

/-- The endpoint of an attempt: rotation order from the start of the round. -/
def rotated (startIdx attempt : Nat) : Nat := (startIdx + attempt) % t.numEndpoints

/-- The look-ahead `any` over the attempts that follow: it reads the throttle of each eligible
    endpoint until one is below the threshold. -/
def hasUnthrottledEligibleAlternative (startIdx : Nat) : List Nat → Program CallSig Bool
  | [] => return false
  | nextAttempt :: later =>
    let nextIdx := rotated t startIdx nextAttempt
    if t.endpointAcceptsRequest nextIdx requestBytes then do
      let delay ← CallOp.perform (.preRequestDelay nextIdx)
      if delay < t.config.heavyThrottleThreshold then return true
      else hasUnthrottledEligibleAlternative startIdx later
    else hasUnthrottledEligibleAlternative startIdx later

/-- The domain-level backoff before sending. -/
def applyDomainDelay (delay : Duration) : Program CallSig Unit :=
  if delay.isZero = true then return ()
  else CallOp.perform (.sleep .domainDelay delay)

/-- The gate of an endpoint, if it has one; `false` when it has been closed. -/
def acquirePermit (idx : Nat) : Program CallSig Bool :=
  match t.inFlightLimit idx with
  | some _ => do
    let answer ← CallOp.perform (.acquireOwned idx)
    return decide (answer = .permit)
  | none => return true

/-- The end of the scope of `_permit`. -/
def dropPermit (idx : Nat) : Program CallSig Unit :=
  match t.inFlightLimit idx with
  | some _ => CallOp.perform (.dropPermit idx)
  | none => return ()

/-- What a retryable error leaves behind: a rate limit is recorded, and unless the attempt was the
    last of the round the call sleeps, its permit still held. -/
def recordFailure (idx attempt : Nat) (err : TransportError) : Program CallSig Unit := do
  let rateLimited := isRateLimit err
  if rateLimited = true then
    CallOp.perform (.recordRateLimit idx)
  if rateLimited = true ∧ attempt < t.numEndpoints - 1 then
    CallOp.perform (.sleep .rateLimitFailover t.config.rateLimitFailoverDelay)

/-- The inner call to an endpoint, up to the end of the permit's scope: the result to return, or the
    error to fail over with. -/
def sendTo (idx attempt : Nat) : Program CallSig (RpcResult ⊕ TransportError) := do
  match ← CallOp.perform (.send idx req) with
  | .ok resp =>
    CallOp.perform (.recordSuccess idx)
    dropPermit t idx
    return .inl (.ok resp)
  | .error err =>
    if isRetryable err = true then
      recordFailure t idx attempt err
      dropPermit t idx
      return .inr err
    else
      dropPermit t idx
      return .inl (.error err)

/-- The loop over the attempts of one round: those still to make, oldest first. -/
def attemptLoop (startIdx : Nat) : List Nat → Option TransportError → Program CallSig RoundEnd
  | [], lastErr => return .exhausted lastErr
  | attempt :: later, lastErr =>
    let idx := rotated t startIdx attempt
    if t.endpointAcceptsRequest idx requestBytes then do
      let delay ← CallOp.perform (.preRequestDelay idx)
      let alternative ← hasUnthrottledEligibleAlternative t requestBytes startIdx later
      if delay ≥ t.config.heavyThrottleThreshold ∧ alternative = true then
        CallOp.perform (.recordSkip idx)
        attemptLoop startIdx later lastErr
      else
        applyDomainDelay delay
        if ← acquirePermit t idx then
          match ← sendTo t req idx attempt with
          | .inl result => return .returned result
          | .inr err => attemptLoop startIdx later (some err)
        else return .returned (.error backendGone)
    else attemptLoop startIdx later lastErr

/-! ## 4. The call -/

/-- The backoff before a round, and the next one. -/
def backOff (round : Nat) (backoff : Duration) : Program CallSig Duration :=
  if 0 < round then do
    CallOp.perform (.sleep .betweenRounds backoff)
    let twice ← doubled backoff
    return min twice t.config.maxBackoff
  else return backoff

/-- The rounds from `round` on, at most `left` of them. -/
def retryRounds : (left round : Nat) → Duration → Program CallSig RpcResult
  | 0, _, _ => CallOp.throw "internal error: entered unreachable code: retry loop always returns"
  | left + 1, round, backoff => do
    let backoff ← backOff t round backoff
    let startIdx ← selectEndpoint t
    match ← attemptLoop t req requestBytes startIdx (List.range t.numEndpoints) none with
    | .returned result => return result
    | .exhausted lastErr =>
      if round = t.config.maxRetryRounds.toNat then
        match lastErr with
        | some err => return .error err
        | none => CallOp.throw "at least one endpoint was tried"
      else retryRounds left (round + 1) backoff

end Calls

/-- The local error of a request that no endpoint accepts. -/
def sizeLimitError : TransportError :=
  customStr "JSON-RPC request exceeds every configured endpoint size limit"

/-- The size of a serialized request: `usize::MAX` when it does not serialize. -/
def requestBytes (wire : RequestPacket → Option Nat) (req : RequestPacket) : Nat :=
  (wire req).getD (2 ^ 64 - 1)

/-- **`LoadBalancedTransport::call`**; `wire` is the serialized length of a packet. -/
def call (wire : RequestPacket → Option Nat) (t : LoadBalancedTransport) (req : RequestPacket) :
    Program CallSig RpcResult :=
  let bytes := requestBytes wire req
  if (List.range t.numEndpoints).any fun idx => t.endpointAcceptsRequest idx bytes then
    retryRounds t req bytes (t.config.maxRetryRounds.toNat + 1) 0 t.config.initialBackoff
  else return .error sizeLimitError

end TransportBalancer
