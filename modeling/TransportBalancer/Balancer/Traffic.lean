/-
  File:      TransportBalancer/Balancer/Traffic.lean
  Subject:   WHAT A CALL HEARS OF ITS ENDPOINTS, and that it records this before anything else.

  * `trafficOf` -- the replies of endpoints and the readings that decide to skip one;
    `callTraffic` -- those of a trace, and what the last effect has left to record;
  * `recordsAtOnce` -- traffic is recorded by the next effect and nothing else is;
  * **`call_records`** -- every call keeps to this, whatever it is answered.
-/
import TransportBalancer.Balancer.Rounds
import TransportBalancer.Throttle.Records

namespace TransportBalancer

open Interaction

/-! ## 1. The traffic of a call -/

/-- Traffic at an endpoint of a transport. -/
structure EndpointTraffic where
  kind : Traffic
  idx : Nat
  deriving DecidableEq, Repr

/-- What an effect of a call tells of an endpoint, with the throttle readings since the last visit
    before it: an `Ok` reply, a rate limit, or the reading that decides to skip an endpoint, one
    below the threshold in the look-ahead of an endpoint that has reached it. -/
def trafficOf (t : LoadBalancedTransport) (readings : List (Nat × Duration)) :
    (e : CallOp) → CallSig.Ans e → Option EndpointTraffic
  | .send idx _, .ok _ => some ⟨.okReply, idx⟩
  | .send idx _, .error err => if isRateLimit err = true then some ⟨.rateLimitReply, idx⟩ else none
  | .preRequestDelay _, delay =>
    match readings with
    | (idx, own) :: _ =>
      if t.config.heavyThrottleThreshold ≤ own ∧ delay < t.config.heavyThrottleThreshold then
        some ⟨.skipDecision, idx⟩
      else none
    | [] => none
  | _, _ => none

/-- The traffic of a trace, oldest first, with its log, and what the last effect has left to
    record. -/
structure CallTraffic where
  log : CallLog
  all : List EndpointTraffic
  due : Option EndpointTraffic

def CallTraffic.empty : CallTraffic := ⟨.empty, [], none⟩

def CallTraffic.next (t : LoadBalancedTransport) (b : CallTraffic) (e : CallOp)
    (r : CallSig.Ans e) : CallTraffic :=
  ⟨b.log.next t e r, b.all ++ (trafficOf t b.log.readings e r).toList,
    trafficOf t b.log.readings e r⟩

/-- **The traffic of a trace.** -/
def callTraffic (t : LoadBalancedTransport) (tr : Trace CallSig) : CallTraffic :=
  tr.foldl (fun b ev => b.next t ev.op ev.ans) .empty

theorem callTraffic_concat (t : LoadBalancedTransport) (tr : Trace CallSig) (e : CallOp)
    (r : CallSig.Ans e) : callTraffic t (tr ++ [⟨e, r⟩]) = (callTraffic t tr).next t e r := by
  unfold callTraffic
  rw [List.foldl_append]
  rfl

/-- The traffic a reply is. -/
def replyTraffic : Nat × RpcResult → Option EndpointTraffic
  | (idx, .ok _) => some ⟨.okReply, idx⟩
  | (idx, .error err) => if isRateLimit err = true then some ⟨.rateLimitReply, idx⟩ else none

/-- **The replies of the traffic are those of the inner calls.** -/
theorem replies_callTraffic (t : LoadBalancedTransport) (tr : Trace CallSig) :
    ((callTraffic t tr).all.filter fun x => x.kind ≠ .skipDecision) =
      (innerCalls tr).filterMap replyTraffic := by
  induction tr using List.reverseRecOn with
  | nil => rfl
  | append_singleton tr ev ih =>
    obtain ⟨e, r⟩ := ev
    rw [callTraffic_concat, CallTraffic.next, List.filter_append, ih]
    unfold innerCalls
    rw [List.filterMap_append, List.filterMap_append]
    congr 1
    cases e with
    | send idx req =>
      cases r with
      | ok resp => rfl
      | error err =>
        by_cases hlimit : isRateLimit err = true <;> simp [trafficOf, replyTraffic, hlimit]
    | preRequestDelay idx =>
      simp only [trafficOf]
      split
      · split <;> simp
      · rfl
    | _ => rfl

/-- The traffic an effect of a call records. -/
def CallOp.recorded? : CallOp → Option EndpointTraffic
  | .recordSuccess idx => some ⟨.okReply, idx⟩
  | .recordRateLimit idx => some ⟨.rateLimitReply, idx⟩
  | .recordSkip idx => some ⟨.skipDecision, idx⟩
  | _ => none

/-! ## 2. A call records its traffic at once -/

/-- **Traffic is recorded by the next effect**, and nothing else is. -/
def recordsAtOnce (t : LoadBalancedTransport) : Protocol CallSig CallTraffic where
  ok b e := e.recorded? = b.due
  admits _ _ _ := True
  next b e r := b.next t e r

/-- Nothing is due, and no reading has been made since the last visit. -/
structure CallTraffic.Settled (b : CallTraffic) : Prop where
  due : b.due = none
  readings : b.log.readings = []

section Follow

variable (t : LoadBalancedTransport) (req : RequestPacket) (bytes : Nat)

/-- **The look-ahead** leaves a skip to record exactly if it finds an alternative to an endpoint
    that has reached the threshold. -/
theorem lookAhead_records (start idx : Nat) (own : Duration) (later : List Nat)
    (b : CallTraffic) (hdue : b.due = none)
    (hread : ∃ ahead, b.log.readings = (idx, own) :: ahead) :
    (hasUnthrottledEligibleAlternative t bytes start later).Follows (recordsAtOnce t) b
      fun b' found => b'.due = if t.config.heavyThrottleThreshold ≤ own ∧ found = true then
        some ⟨.skipDecision, idx⟩ else none := by
  induction later generalizing b with
  | nil => exact hdue.trans (by simp)
  | cons nextAttempt later ih =>
    unfold hasUnthrottledEligibleAlternative
    dsimp only
    split
    · rw [CallOp.perform_bind]
      refine ⟨hdue.symm, fun delay _ => ?_⟩
      obtain ⟨ahead, hahead⟩ := hread
      have hnext : ((recordsAtOnce t).next b (.preRequestDelay (rotated t start nextAttempt))
          delay).due = if t.config.heavyThrottleThreshold ≤ own ∧
            delay < t.config.heavyThrottleThreshold then some ⟨.skipDecision, idx⟩ else none := by
        simp only [recordsAtOnce, CallTraffic.next, trafficOf, hahead]
      dsimp only
      split
      · rename_i hlight
        refine hnext.trans ?_
        simp [hlight]
      · rename_i hheavy
        refine ih _ ?_ ⟨ahead ++ [(rotated t start nextAttempt, delay)], ?_⟩
        · rw [hnext, if_neg fun h => hheavy h.2]
        · simp [recordsAtOnce, CallTraffic.next, CallLog.next, hahead]
    · exact ih b hdue hread

theorem dropPermit_records {α : Type} {idx : Nat} {a : α} {b : CallTraffic} (hb : b.Settled) :
    (dropPermit t idx >>= fun _ => (pure a : Program CallSig α)).Follows (recordsAtOnce t) b
      fun b' _ => b'.Settled := by
  unfold dropPermit
  split
  · exact ⟨hb.due.symm, fun _ _ => ⟨rfl, hb.readings⟩⟩
  · exact hb

theorem applyDomainDelay_records (delay : Duration) {b : CallTraffic} (hdue : b.due = none) :
    (applyDomainDelay delay).Follows (recordsAtOnce t) b fun b' _ => b'.due = none := by
  unfold applyDomainDelay
  split
  · exact hdue
  · exact ⟨hdue.symm, fun _ _ => rfl⟩

theorem acquirePermit_records (idx : Nat) {b : CallTraffic} (hdue : b.due = none) :
    (acquirePermit t idx).Follows (recordsAtOnce t) b fun b' granted =>
      b'.due = none ∧ (granted = false → b'.Settled) := by
  unfold acquirePermit
  split
  · refine ⟨hdue.symm, fun answer _ => ?_⟩
    cases answer with
    | permit => exact ⟨rfl, nofun⟩
    | closed => exact ⟨rfl, fun _ => ⟨rfl, visit_readings _ _⟩⟩
  · exact ⟨hdue, nofun⟩

/-- **A reply is recorded before anything else**: an `Ok` as a success, a rate limit as such. -/
theorem sendTo_records (idx attempt : Nat) {b : CallTraffic} (hdue : b.due = none) :
    (sendTo t req idx attempt).Follows (recordsAtOnce t) b fun b' _ => b'.Settled := by
  unfold sendTo
  rw [CallOp.perform_bind]
  refine ⟨hdue.symm, fun reply _ => ?_⟩
  have hread : (b.log.next t (.send idx req) reply).readings = [] := visit_readings _ _
  cases reply with
  | ok resp => exact ⟨rfl, fun _ _ => dropPermit_records t ⟨rfl, hread⟩⟩
  | error err =>
    dsimp only
    have hother : ¬ isRateLimit err = true →
        ((recordsAtOnce t).next b (.send idx req) (Except.error err : RpcResult)).Settled :=
      fun h => ⟨if_neg h, hread⟩
    split
    · -- a retryable error: the record of a rate limit, then the sleep before the next endpoint
      refine Program.Follows.bind (R := fun b' _ => b'.Settled) ?_ fun _ _ hb =>
        dropPermit_records t hb
      have hsleep : ∀ b' : CallTraffic, b'.Settled →
          (if isRateLimit err = true ∧ attempt < t.numEndpoints - 1 then
            CallOp.perform (.sleep .rateLimitFailover t.config.rateLimitFailoverDelay)
            else pure ()).Follows (recordsAtOnce t) b' fun b' _ => b'.Settled := by
        intro b' hb
        split
        · exact ⟨hb.due.symm, fun _ _ => ⟨rfl, hb.readings⟩⟩
        · exact hb
      unfold recordFailure
      dsimp only
      by_cases hlimit : isRateLimit err = true
      · rw [if_pos hlimit, CallOp.perform_bind]
        exact ⟨(if_pos hlimit).symm, fun _ _ => hsleep _ ⟨rfl, hread⟩⟩
      · rw [if_neg hlimit]
        exact hsleep _ (hother hlimit)
    · rename_i hfinal
      exact dropPermit_records t (hother fun h => hfinal (retryable_of_rateLimit err h))

/-- **One attempt** settles what it hears. -/
theorem attemptAt_records (start attempt : Nat) (later : List Nat) {b : CallTraffic}
    (hb : b.Settled) :
    (attemptAt t req bytes start attempt later).Follows (recordsAtOnce t) b
      fun b' _ => b'.Settled := by
  unfold attemptAt
  dsimp only
  rw [CallOp.perform_bind]
  refine ⟨hb.due.symm, fun own _ => ?_⟩
  have hfirst : trafficOf t b.log.readings (.preRequestDelay (rotated t start attempt)) own =
      none := by
    rw [hb.readings]
    rfl
  refine (lookAhead_records t bytes start (rotated t start attempt) own later _ hfirst
    ⟨[], ?_⟩).bind ?_
  · simp [recordsAtOnce, CallTraffic.next, CallLog.next, hb.readings]
  · intro b' alternative hdue
    split
    · rename_i hskip
      rw [CallOp.perform_bind]
      exact ⟨(hdue.trans (if_pos hskip)).symm, fun _ _ => ⟨rfl, visit_readings _ _⟩⟩
    · rename_i hskip
      rw [if_neg hskip] at hdue
      refine (applyDomainDelay_records t own hdue).bind fun b' _ hdue => ?_
      refine (acquirePermit_records t _ hdue).bind fun b' granted h => ?_
      cases granted with
      | false => exact h.2 rfl
      | true =>
        refine (sendTo_records t req _ attempt h.1).bind fun b' outcome hb' => ?_
        cases outcome <;> exact hb'

/-- **Every call records its traffic at once**, and ends with nothing due. -/
theorem call_records (wire : RequestPacket → Option Nat) :
    (call wire t req).Follows (recordsAtOnce t) .empty fun b _ => b.due = none := by
  refine (call_keeps (I := CallTraffic.Settled) (R := fun _ b => b.Settled)
    (fun _ b hb => hb.due.symm) (fun _ b hb => ⟨hb.due.symm, fun _ _ => ⟨rfl, hb.readings⟩⟩)
    (fun b hb => ⟨hb.due.symm, fun _ _ => ⟨rfl, rfl⟩⟩)
    (fun start attempt later b _ hb => attemptAt_records t req _ start attempt later hb)
    (fun _ _ hb => hb) ⟨rfl, rfl⟩).mono fun b _ hb => hb.due

end Follow

end TransportBalancer
