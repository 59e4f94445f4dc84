/-
  File:      TransportBalancer/Balancer/Rounds.lean
  Subject:   WHAT A CALL DOES, ROUND BY ROUND, under any throttle readings and endpoint outcomes.

  The trace of a call is read as a log of rounds, and a round as a list of visits: an endpoint is
  skipped (with the readings that led to it), attempted (with its reply), or its gate is closed.

  * `callLog`, `reached_callLog` -- the log of a trace, which misses and adds nothing;
  * `RoundLog.Failed`, `callProtocol` -- a round after which the call goes on, and when each effect
    of a call may come;
  * `FailedSoFar`, `attemptAt_follows` -- the loop invariant of a round: the last eligible endpoint
    of a rotation is never skipped;
  * **`call_follows`** -- a call keeps to its protocol and ends as `CallOutcome` says.
-/
import Mathlib.Data.List.Nodup
import Mathlib.Data.List.Perm.Subperm
import Mathlib.Data.Nat.ModEq
import TransportBalancer.Balancer.LoopRules

namespace TransportBalancer

open Interaction

/-! ## 1. The log of a call -/

/-- What happened to one endpoint in one round. -/
inductive Visit where
  | skipped (idx : Nat) (readings : List (Nat × Duration))
  | gateClosed (idx : Nat)
  | attempted (idx : Nat) (reply : RpcResult)

def Visit.idx : Visit → Nat
  | .skipped idx _ | .gateClosed idx | .attempted idx _ => idx

/-- The inner call of a visit: the endpoint and its reply. -/
def Visit.attempt? : Visit → Option (Nat × RpcResult)
  | .attempted idx reply => some (idx, reply)
  | _ => none

/-- The endpoint was reached: attempted, or stopped at by its closed gate. -/
def Visit.reached : Visit → Bool
  | .skipped _ _ => false
  | _ => true

/-- One round: the endpoint it starts at and its visits, oldest first. -/
structure RoundLog where
  start : Nat
  visits : List Visit

/-- The inner calls of a round. -/
def RoundLog.attempts (r : RoundLog) : List (Nat × RpcResult) := r.visits.filterMap Visit.attempt?

/-- The rounds, newest first, and the throttle readings since the last visit. -/
structure CallLog where
  rounds : List RoundLog
  readings : List (Nat × Duration)

def CallLog.empty : CallLog := ⟨[], []⟩

/-- Add a visit to the newest round. -/
def CallLog.visit (log : CallLog) (v : Visit) : CallLog :=
  match log.rounds with
  | [] => ⟨[⟨0, [v]⟩], []⟩
  | r :: past => ⟨{ r with visits := r.visits ++ [v] } :: past, []⟩

theorem CallLog.visit_rounds {log : CallLog} {start : Nat} {visits : List Visit}
    {past : List RoundLog} (h : log.rounds = ⟨start, visits⟩ :: past) (v : Visit) :
    (log.visit v).rounds = ⟨start, visits ++ [v]⟩ :: past := by
  obtain ⟨rounds, readings⟩ := log
  dsimp only at h
  subst h
  rfl

@[simp] theorem visit_readings (log : CallLog) (v : Visit) : (log.visit v).readings = [] := by
  unfold CallLog.visit
  split <;> rfl

/-- The log after one more effect with its answer. -/
def CallLog.next (t : LoadBalancedTransport) (log : CallLog) :
    (e : CallOp) → CallSig.Ans e → CallLog
  | .fetchAddCounter, tick => ⟨⟨t.endpointOfTick tick, []⟩ :: log.rounds, []⟩
  | .preRequestDelay idx, delay => { log with readings := log.readings ++ [(idx, delay)] }
  | .recordSkip idx, _ => log.visit (.skipped idx log.readings)
  | .acquireOwned idx, .closed => log.visit (.gateClosed idx)
  | .send idx _, reply => log.visit (.attempted idx reply)
  | _, _ => log

/-- **The log of a trace.** -/
def callLog (t : LoadBalancedTransport) (tr : Trace CallSig) : CallLog :=
  tr.foldl (fun log ev => log.next t ev.op ev.ans) .empty

/-- The visits of a log, oldest first. -/
def CallLog.visits (log : CallLog) : List Visit := log.rounds.reverse.flatMap RoundLog.visits

/-- The inner calls of a trace, oldest first. -/
def innerCalls (tr : Trace CallSig) : List (Nat × RpcResult) :=
  tr.filterMap fun ev =>
    match ev with
    | ⟨.send idx _, reply⟩ => some (idx, reply)
    | _ => none

/-- The visit an effect amounts to by itself (a skip is known only with the readings before it). -/
def reachedBy : Event CallSig → Option Visit
  | ⟨.send idx _, reply⟩ => some (.attempted idx reply)
  | ⟨.acquireOwned idx, .closed⟩ => some (.gateClosed idx)
  | _ => none

@[simp] theorem visits_visit (log : CallLog) (v : Visit) :
    (log.visit v).visits = log.visits ++ [v] := by
  obtain ⟨rounds, readings⟩ := log
  cases rounds with
  | nil => rfl
  | cons r past => simp [CallLog.visit, CallLog.visits]

/-- **The log misses no visit and adds none.** -/
theorem reached_callLog (t : LoadBalancedTransport) (tr : Trace CallSig) :
    (callLog t tr).visits.filter Visit.reached = tr.filterMap reachedBy := by
  suffices h : ∀ log : CallLog,
      (tr.foldl (fun log ev => log.next t ev.op ev.ans) log).visits.filter Visit.reached =
        log.visits.filter Visit.reached ++ tr.filterMap reachedBy by
    exact h .empty
  induction tr with
  | nil => exact fun log => (List.append_nil _).symm
  | cons ev tr ih =>
    intro log
    obtain ⟨e, r⟩ := ev
    have hev : (log.next t e r).visits.filter Visit.reached =
        log.visits.filter Visit.reached ++ (reachedBy ⟨e, r⟩).toList := by
      cases e with
      | recordSkip => simp [CallLog.next, reachedBy, Visit.reached]
      | send => simp [CallLog.next, reachedBy, Visit.reached]
      | acquireOwned idx =>
        cases r with
        | closed => simp [CallLog.next, reachedBy, Visit.reached]
        | permit => exact (List.append_nil _).symm
      | fetchAddCounter => simp [CallLog.next, CallLog.visits, reachedBy]
      | panic | preRequestDelay | recordSuccess | recordRateLimit | sleep | dropPermit =>
        exact (List.append_nil _).symm
    rw [List.foldl_cons, ih, hev, List.append_assoc]
    congr 1
    rw [List.filterMap_cons]
    cases reachedBy ⟨e, r⟩ <;> rfl

/-- The inner calls of a trace are those of its log. -/
theorem innerCalls_eq (t : LoadBalancedTransport) (tr : Trace CallSig) :
    innerCalls tr = (callLog t tr).rounds.reverse.flatMap RoundLog.attempts := by
  have h : innerCalls tr = (tr.filterMap reachedBy).filterMap Visit.attempt? := by
    rw [List.filterMap_filterMap]
    unfold innerCalls
    congr 1
    funext ⟨e, r⟩
    cases e with
    | acquireOwned => cases r <;> rfl
    | _ => rfl
  rw [h, ← reached_callLog t, List.filterMap_filter]
  unfold CallLog.visits
  rw [List.filterMap_flatMap]
  congr 1
  funext r
  unfold RoundLog.attempts
  congr 1
  funext v
  cases v <;> rfl

/-- A closed gate in the log is a closed gate in the trace. -/
theorem gateClosed_mem_callLog {t : LoadBalancedTransport} {tr : Trace CallSig} {idx : Nat} :
    .gateClosed idx ∈ (callLog t tr).visits ↔
      (⟨.acquireOwned idx, .closed⟩ : Event CallSig) ∈ tr := by
  have h : .gateClosed idx ∈ (callLog t tr).visits ↔
      .gateClosed idx ∈ (callLog t tr).visits.filter Visit.reached := by
    simp [Visit.reached]
  rw [h, reached_callLog, List.mem_filterMap]
  constructor
  · intro h
    obtain ⟨⟨e, r⟩, hmem, hev⟩ := h
    cases e with
    | acquireOwned i =>
      cases r with
      | closed =>
        cases hev
        exact hmem
      | permit => cases hev
    | _ => cases hev
  · exact fun hmem => ⟨_, hmem, rfl⟩

/-! ## 2. Rotation -/

section Rotation

variable (t : LoadBalancedTransport) (bytes : Nat)

/-- The endpoints in rotation order from a start. -/
def rotation (start : Nat) : List Nat := (List.range t.numEndpoints).map (rotated t start)

/-- The endpoints of a rotation that accept the request. -/
def eligibleRotation (start : Nat) : List Nat :=
  (rotation t start).filter fun idx => t.endpointAcceptsRequest idx bytes

/-- The endpoints that accept the request. -/
def eligible : List Nat :=
  (List.range t.numEndpoints).filter fun idx => t.endpointAcceptsRequest idx bytes

theorem rotated_lt (start attempt : Nat) : rotated t start attempt < t.numEndpoints :=
  Nat.mod_lt _ t.numEndpoints_pos

theorem rotated_injOn {start a b : Nat} (ha : a < t.numEndpoints) (hb : b < t.numEndpoints)
    (h : rotated t start a = rotated t start b) : a = b := by
  have hmod : a ≡ b [MOD t.numEndpoints] := Nat.ModEq.add_left_cancel' start h
  exact hmod.eq_of_lt_of_lt ha hb

theorem rotation_nodup (start : Nat) : (rotation t start).Nodup := by
  refine List.Nodup.map_on (fun a ha b hb h => ?_) List.nodup_range
  exact rotated_injOn t (List.mem_range.mp ha) (List.mem_range.mp hb) h

/-- **A rotation visits every endpoint once.** -/
theorem rotation_perm (start : Nat) : (rotation t start).Perm (List.range t.numEndpoints) := by
  refine (List.subperm_of_subset (rotation_nodup t start) fun idx h => ?_).perm_of_length_le
    (by simp [rotation])
  obtain ⟨a, _, rfl⟩ := List.mem_map.mp h
  exact List.mem_range.mpr (rotated_lt t start a)

theorem eligibleRotation_perm (start : Nat) :
    (eligibleRotation t bytes start).Perm (eligible t bytes) :=
  (rotation_perm t start).filter _

theorem eligibleRotation_nodup (start : Nat) : (eligibleRotation t bytes start).Nodup :=
  (rotation_nodup t start).filter _

/-- An endpoint has its turn once. -/
theorem not_mem_before {start idx : Nat} {before after : List Nat}
    (h : eligibleRotation t bytes start = before ++ idx :: after) : idx ∉ before := by
  have hnodup := eligibleRotation_nodup t bytes start
  rw [h, List.nodup_middle] at hnodup
  exact fun hmem => (List.nodup_cons.mp hnodup).1 (List.mem_append_left _ hmem)

end Rotation

/-! ## 3. Failed rounds -/

/-- A reply that ends the call. -/
def FinalReply : RpcResult → Prop
  | .ok _ => True
  | .error err => isRetryable err = false

section Specs

variable (t : LoadBalancedTransport) (bytes : Nat)

/-- **Why an endpoint is skipped**: its own reading has reached the threshold, and a reading of an
    eligible endpoint later in the rotation is below it. -/
def SkipJustified (start idx : Nat) (readings : List (Nat × Duration)) : Prop :=
  ∃ delay ahead other delay', readings = (idx, delay) :: ahead ∧
    t.config.heavyThrottleThreshold ≤ delay ∧ (other, delay') ∈ ahead ∧
    delay' < t.config.heavyThrottleThreshold ∧ [idx, other].Sublist (eligibleRotation t bytes start)

/-- A visit after which the round goes on: a justified skip or a retryable error. -/
def Visit.Failed (start : Nat) : Visit → Prop
  | .skipped idx readings => SkipJustified t bytes start idx readings
  | .gateClosed _ => False
  | .attempted _ reply => ¬ FinalReply reply

/-- The error of the last attempt among some visits. -/
def lastError (visits : List Visit) : Option TransportError :=
  (visits.filterMap Visit.attempt?).getLast?.bind fun call =>
    match call.2 with
    | .ok _ => none
    | .error err => some err

/-- The visits so far are those of the rotation, and all of them failed. -/
structure RoundLog.Running (r : RoundLog) : Prop where
  order : r.visits.map Visit.idx <+: eligibleRotation t bytes r.start
  failed : ∀ v ∈ r.visits, v.Failed t bytes r.start

/-- **A failed round**: every eligible endpoint was visited in rotation order, each was skipped for
    a reason or answered a retryable error, and at least one was attempted. -/
structure RoundLog.Failed (r : RoundLog) : Prop where
  order : r.visits.map Visit.idx = eligibleRotation t bytes r.start
  failed : ∀ v ∈ r.visits, v.Failed t bytes r.start
  attempted : ∃ err, lastError r.visits = some err

/-- A round that may have come to its end: all its visits but the last failed. -/
structure RoundLog.Ordered (r : RoundLog) : Prop where
  order : r.visits.map Visit.idx <+: eligibleRotation t bytes r.start
  failed : ∀ v ∈ r.visits.dropLast, v.Failed t bytes r.start

/-- **What holds of the log at every point of a call**: the rounds before the newest one failed, the
    newest is in order, and there are no more rounds than configured. -/
structure CallLog.Ok (log : CallLog) : Prop where
  past : ∀ r ∈ log.rounds.tail, r.Failed t bytes
  newest : ∀ r ∈ log.rounds.head?, r.Ordered t bytes
  bounded : log.rounds.length ≤ t.config.maxRetryRounds.toNat + 1

/-- The newest round is running and `idx` is next in its rotation. -/
def CallLog.Next (log : CallLog) (idx : Nat) : Prop :=
  ∃ r past, log.rounds = r :: past ∧ (∀ v ∈ r.visits, v.Failed t bytes r.start) ∧
    r.visits.map Visit.idx ++ [idx] <+: eligibleRotation t bytes r.start

/-- **The protocol of a call**: when each effect may come. Throttle readings, records and sleeps are
    free; the environment may answer anything. -/
def callProtocol (req : RequestPacket) : Protocol CallSig CallLog where
  ok log e :=
    match e with
    | .panic msg => msg = "overflow when multiplying duration by scalar"
    | .fetchAddCounter => log.rounds.length ≤ t.config.maxRetryRounds.toNat ∧
        ∀ r ∈ log.rounds, r.Failed t bytes
    | .recordSkip idx => log.Next t bytes idx ∧
        ∀ r ∈ log.rounds.head?, SkipJustified t bytes r.start idx log.readings
    | .acquireOwned idx => log.Next t bytes idx
    | .send idx req' => req' = req ∧ log.Next t bytes idx
    | _ => True
  admits _ _ _ := True
  next log e r := log.next t e r

end Specs

section Invariant

variable {t : LoadBalancedTransport} {bytes : Nat}

theorem RoundLog.Failed.running {r : RoundLog} (h : r.Failed t bytes) : r.Running t bytes :=
  ⟨h.order ▸ List.prefix_refl _, h.failed⟩

theorem RoundLog.Running.ordered {r : RoundLog} (h : r.Running t bytes) : r.Ordered t bytes :=
  ⟨h.order, fun v hv => h.failed v (List.dropLast_subset _ hv)⟩

theorem ok_empty : CallLog.empty.Ok t bytes := ⟨nofun, nofun, Nat.zero_le _⟩

/-- Whatever happens at the next endpoint of the rotation, the log stays in order. -/
theorem ok_visit {log : CallLog} (h : log.Ok t bytes) {v : Visit} (hv : log.Next t bytes v.idx) :
    (log.visit v).Ok t bytes := by
  obtain ⟨r, past, hr, hfailed, horder⟩ := hv
  obtain ⟨rounds, readings⟩ := log
  subst hr
  refine ⟨h.past, fun r' hr' => ?_, h.bounded⟩
  cases hr'
  exact ⟨by simpa using horder, fun v hv => hfailed v (by simpa using hv)⟩

theorem ok_next {req : RequestPacket} (log : CallLog) (e : CallOp) (r : CallSig.Ans e)
    (h : log.Ok t bytes) (he : (callProtocol t bytes req).ok log e) :
    (log.next t e r).Ok t bytes := by
  cases e with
  | panic => exact r.elim
  | fetchAddCounter =>
    exact ⟨he.2, fun r' hr' => by cases hr'; exact ⟨List.nil_prefix, nofun⟩,
      Nat.succ_le_succ he.1⟩
  | preRequestDelay => exact ⟨h.past, h.newest, h.bounded⟩
  | recordSkip idx => exact ok_visit h he.1
  | acquireOwned idx =>
    cases r with
    | closed => exact ok_visit h he
    | permit => exact h
  | send idx req' => exact ok_visit h he.2
  | recordSuccess | recordRateLimit | sleep | dropPermit => exact h

end Invariant

/-! ## 4. The call keeps to its protocol -/

section Follow

variable (t : LoadBalancedTransport) (req : RequestPacket) (bytes : Nat)

/-- The endpoints of some attempts that accept the request. -/
def eligibleOf (start : Nat) (attempts : List Nat) : List Nat :=
  (attempts.map (rotated t start)).filter fun idx => t.endpointAcceptsRequest idx bytes

theorem eligibleOf_append (start : Nat) (xs ys : List Nat) :
    eligibleOf t bytes start (xs ++ ys) =
      eligibleOf t bytes start xs ++ eligibleOf t bytes start ys := by
  simp [eligibleOf]

theorem eligibleOf_cons_of_accepts {start attempt : Nat} {later : List Nat}
    (h : t.endpointAcceptsRequest (rotated t start attempt) bytes = true) :
    eligibleOf t bytes start (attempt :: later) =
      rotated t start attempt :: eligibleOf t bytes start later := by
  simp [eligibleOf, h]

theorem eligibleOf_cons_of_not_accepts {start attempt : Nat} {later : List Nat}
    (h : ¬ t.endpointAcceptsRequest (rotated t start attempt) bytes = true) :
    eligibleOf t bytes start (attempt :: later) = eligibleOf t bytes start later := by
  simp [eligibleOf, h]

/-- Where an eligible attempt stands in the rotation. -/
theorem eligibleRotation_split {start attempt : Nat} {done later : List Nat}
    (hdone : done ++ attempt :: later = List.range t.numEndpoints)
    (h : t.endpointAcceptsRequest (rotated t start attempt) bytes = true) :
    eligibleRotation t bytes start = eligibleOf t bytes start done ++
      rotated t start attempt :: eligibleOf t bytes start later := by
  rw [← eligibleOf_cons_of_accepts t bytes h, ← eligibleOf_append, hdone]
  rfl

/-- **The look-ahead** only reads; it answers `true` on a reading below the threshold of an
    eligible endpoint among those still to come. -/
theorem lookAhead_follows (start : Nat) (later : List Nat) (log : CallLog) :
    (hasUnthrottledEligibleAlternative t bytes start later).Follows (callProtocol t bytes req) log
      fun log' found => ∃ ahead, log' = { log with readings := log.readings ++ ahead } ∧
        (found = true → ∃ other delay', (other, delay') ∈ ahead ∧
          delay' < t.config.heavyThrottleThreshold ∧ other ∈ eligibleOf t bytes start later) := by
  induction later generalizing log with
  | nil => exact ⟨[], by simp, nofun⟩
  | cons nextAttempt later ih =>
    unfold hasUnthrottledEligibleAlternative
    dsimp only
    split
    · rename_i hacc
      rw [CallOp.perform_bind]
      refine ⟨trivial, fun delay _ => ?_⟩
      dsimp only
      rw [eligibleOf_cons_of_accepts t bytes hacc]
      split
      · rename_i hlt
        exact ⟨[(rotated t start nextAttempt, delay)], rfl, fun _ =>
          ⟨_, delay, List.mem_singleton_self _, hlt, List.mem_cons_self⟩⟩
      · refine (ih _).mono ?_
        intro log' found h
        obtain ⟨ahead, rfl, hfound⟩ := h
        refine ⟨(rotated t start nextAttempt, delay) :: ahead, by simp [callProtocol, CallLog.next],
          fun h => ?_⟩
        obtain ⟨other, delay', hmem, hlt, hother⟩ := hfound h
        exact ⟨other, delay', List.mem_cons_of_mem _ hmem, hlt, List.mem_cons_of_mem _ hother⟩
    · rename_i hacc
      rw [eligibleOf_cons_of_not_accepts t bytes hacc]
      exact ih log

theorem dropPermit_follows {α : Type} {idx : Nat} {log : CallLog} {k : Unit → Program CallSig α}
    {Q : CallLog → α → Prop} (h : (k ()).Follows (callProtocol t bytes req) log Q) :
    (dropPermit t idx >>= k).Follows (callProtocol t bytes req) log Q := by
  unfold dropPermit
  split
  · exact ⟨trivial, fun _ _ => h⟩
  · exact h

theorem applyDomainDelay_follows (delay : Duration) (log : CallLog) :
    (applyDomainDelay delay).Follows (callProtocol t bytes req) log fun log' _ => log' = log := by
  unfold applyDomainDelay
  split
  · exact rfl
  · exact ⟨trivial, fun _ _ => rfl⟩

theorem acquirePermit_follows {idx : Nat} {log : CallLog} (h : log.Next t bytes idx) :
    (acquirePermit t idx).Follows (callProtocol t bytes req) log fun log' granted =>
      log' = if granted = true then log else log.visit (.gateClosed idx) := by
  unfold acquirePermit
  split
  · refine ⟨h, fun answer _ => ?_⟩
    cases answer <;> exact rfl
  · exact rfl

theorem recordFailure_follows (idx attempt : Nat) (err : TransportError) (log : CallLog) :
    (recordFailure t idx attempt err).Follows (callProtocol t bytes req) log
      fun log' _ => log' = log := by
  have hsleep : (if isRateLimit err = true ∧ attempt < t.numEndpoints - 1 then
      CallOp.perform (.sleep .rateLimitFailover t.config.rateLimitFailoverDelay)
      else pure ()).Follows (callProtocol t bytes req) log fun log' _ => log' = log := by
    split
    · exact ⟨trivial, fun _ _ => rfl⟩
    · exact rfl
  unfold recordFailure
  dsimp only
  split
  · exact ⟨trivial, fun _ _ => hsleep⟩
  · exact hsleep

/-- **An inner call** adds one attempt to the log; its reply is passed on exactly if it is final. -/
theorem sendTo_follows {idx : Nat} (attempt : Nat) {log : CallLog} (h : log.Next t bytes idx) :
    (sendTo t req idx attempt).Follows (callProtocol t bytes req) log fun log' out =>
      match out with
      | .inl result => log' = log.visit (.attempted idx result) ∧ FinalReply result
      | .inr err => log' = log.visit (.attempted idx (.error err)) ∧ isRetryable err = true := by
  unfold sendTo
  rw [CallOp.perform_bind]
  refine ⟨⟨rfl, h⟩, fun reply _ => ?_⟩
  cases reply with
  | ok resp =>
    refine ⟨trivial, fun _ _ => dropPermit_follows t req bytes ?_⟩
    exact ⟨rfl, trivial⟩
  | error err =>
    dsimp only
    split
    · rename_i hretry
      refine (recordFailure_follows t req bytes idx attempt err _).bind ?_
      intro log' _ heq
      obtain rfl := heq
      exact dropPermit_follows t req bytes ⟨rfl, hretry⟩
    · rename_i hfinal
      exact dropPermit_follows t req bytes ⟨rfl, by simpa [FinalReply] using hfinal⟩

/-- How a round ends a call: its last visit got the result as a final reply, or a closed gate. -/
def RoundLog.EndsWith (r : RoundLog) (result : RpcResult) : Prop :=
  ∃ visits v, r.visits = visits ++ [v] ∧
    ((∃ idx, v = .attempted idx result ∧ FinalReply result) ∨
      ((∃ idx, v = .gateClosed idx) ∧ result = .error backendGone))

/-- What the attempts of a round leave. -/
def RoundOutcome (past : List RoundLog) (log : CallLog) : RoundEnd → Prop
  | .exhausted lastErr =>
    ∃ r, log.rounds = r :: past ∧ r.Failed t bytes ∧ lastErr = lastError r.visits
  | .returned result => ∃ r, log.rounds = r :: past ∧ r.EndsWith result

theorem lastError_append_skipped (visits : List Visit) (idx : Nat)
    (readings : List (Nat × Duration)) :
    lastError (visits ++ [.skipped idx readings]) = lastError visits := by
  simp [lastError, Visit.attempt?]

theorem lastError_append_attempted (visits : List Visit) (idx : Nat) (err : TransportError) :
    lastError (visits ++ [.attempted idx (.error err)]) = some err := by
  simp [lastError, Visit.attempt?]

/-- **The attempts of a round so far**: with those of `done` made, the eligible endpoints among them
    have been visited in rotation order. -/
structure RoundSoFar (start : Nat) (past : List RoundLog) (done : List Nat) (visits : List Visit)
    (todo : List Nat) (log : CallLog) : Prop where
  rounds : log.rounds = ⟨start, visits⟩ :: past
  attempts : done ++ todo = List.range t.numEndpoints
  order : visits.map Visit.idx = eligibleOf t bytes start done

section SoFar

variable {t bytes} {start attempt : Nat} {past : List RoundLog} {done later : List Nat}
  {visits : List Visit} {log : CallLog}

theorem RoundSoFar.begins {tick : UInt64} (log : CallLog) :
    RoundSoFar t bytes (t.endpointOfTick tick) log.rounds [] [] (List.range t.numEndpoints)
      (log.next t .fetchAddCounter tick) := ⟨rfl, rfl, rfl⟩

theorem RoundSoFar.complete (h : RoundSoFar t bytes start past done visits [] log) :
    visits.map Visit.idx = eligibleRotation t bytes start := by
  have hdone := h.attempts
  rw [List.append_nil] at hdone
  rw [h.order, hdone]
  rfl

theorem RoundSoFar.passed (h : RoundSoFar t bytes start past done visits (attempt :: later) log)
    (hacc : ¬ t.endpointAcceptsRequest (rotated t start attempt) bytes = true) :
    RoundSoFar t bytes start past (done ++ [attempt]) visits later log := by
  refine ⟨h.rounds, by simpa using h.attempts, ?_⟩
  rw [eligibleOf_append, eligibleOf_cons_of_not_accepts t bytes hacc, h.order]
  exact (List.append_nil _).symm

theorem RoundSoFar.visited (h : RoundSoFar t bytes start past done visits (attempt :: later) log)
    (hacc : t.endpointAcceptsRequest (rotated t start attempt) bytes = true) {v : Visit}
    (hv : v.idx = rotated t start attempt) :
    RoundSoFar t bytes start past (done ++ [attempt]) (visits ++ [v]) later (log.visit v) := by
  refine ⟨CallLog.visit_rounds h.rounds v, by simpa using h.attempts, ?_⟩
  rw [eligibleOf_append, eligibleOf_cons_of_accepts t bytes hacc, List.map_append, h.order,
    List.map_cons, List.map_nil, hv]
  rfl

/-- Reading the throttle changes nothing of it. -/
theorem RoundSoFar.read (h : RoundSoFar t bytes start past done visits (attempt :: later) log)
    {log' : CallLog} (hlog : log'.rounds = log.rounds) :
    RoundSoFar t bytes start past done visits (attempt :: later) log' :=
  ⟨hlog.trans h.rounds, h.attempts, h.order⟩

end SoFar

/-- **THE LOOP INVARIANT OF A ROUND.** The visits of the attempts made have all failed, the last
    error is kept, and an error is kept or an eligible endpoint is still to come. -/
structure FailedSoFar (start : Nat) (past : List RoundLog) (done : List Nat) (visits : List Visit)
    (todo : List Nat) (lastErr : Option TransportError) (log : CallLog) : Prop
    extends RoundSoFar t bytes start past done visits todo log where
  settled : log.readings = []
  failed : ∀ v ∈ visits, v.Failed t bytes start
  last : lastErr = lastError visits
  toCome : (∃ err, lastErr = some err) ∨ eligibleOf t bytes start todo ≠ []

/-- The next endpoint in the rotation. -/
theorem FailedSoFar.next {start attempt : Nat} {past : List RoundLog} {done later : List Nat}
    {visits : List Visit} {lastErr : Option TransportError} {log log' : CallLog}
    (h : FailedSoFar t bytes start past done visits (attempt :: later) lastErr log)
    (hacc : t.endpointAcceptsRequest (rotated t start attempt) bytes = true)
    (hlog : log'.rounds = log.rounds) : log'.Next t bytes (rotated t start attempt) := by
  refine ⟨_, past, hlog.trans h.rounds, h.failed, ?_⟩
  rw [eligibleRotation_split t bytes h.attempts hacc, h.order, List.prefix_append_right_inj]
  exact List.cons_prefix_cons.mpr ⟨rfl, List.nil_prefix⟩

/-- What the attempts of `todo` begin with. -/
def BeforeAttempts (start : Nat) (past : List RoundLog) (todo : List Nat)
    (lastErr : Option TransportError) (log : CallLog) : Prop :=
  ∃ done visits, FailedSoFar t bytes start past done visits todo lastErr log

/-- **One attempt keeps the invariant.** The last eligible endpoint is never skipped: its look-ahead
    has nothing to find. -/
theorem attemptAt_follows {start attempt : Nat} {past : List RoundLog} {later : List Nat}
    {lastErr : Option TransportError} {log : CallLog}
    (h : BeforeAttempts t bytes start past (attempt :: later) lastErr log)
    (hacc : t.endpointAcceptsRequest (rotated t start attempt) bytes = true) :
    (attemptAt t req bytes start attempt later).Follows (callProtocol t bytes req) log
      (AttemptEnd.Leaves (BeforeAttempts t bytes start past later) (RoundOutcome t bytes past)
        lastErr) := by
  obtain ⟨done, visits, h⟩ := h
  unfold attemptAt
  dsimp only
  rw [CallOp.perform_bind]
  refine ⟨trivial, fun delay _ => ?_⟩
  refine (lookAhead_follows t req bytes start later _).bind ?_
  intro log' alternative hlook
  obtain ⟨ahead, hlog, halt⟩ := hlook
  have hrounds : log'.rounds = log.rounds := by
    rw [hlog]
    rfl
  have hreadings : log'.readings = (rotated t start attempt, delay) :: ahead := by
    rw [hlog]
    show log.readings ++ [(rotated t start attempt, delay)] ++ ahead = _
    rw [h.settled]
    rfl
  split
  · rename_i hskip
    obtain ⟨other, delay', hmem, hlt, hother⟩ := halt hskip.2
    have hjust : SkipJustified t bytes start (rotated t start attempt) log'.readings := by
      refine ⟨delay, ahead, other, delay', hreadings, hskip.1, hmem, hlt, ?_⟩
      rw [eligibleRotation_split t bytes h.attempts hacc]
      exact ((List.singleton_sublist.mpr hother).cons_cons _).trans
        (List.sublist_append_right _ _)
    rw [CallOp.perform_bind]
    refine ⟨⟨h.next t bytes hacc hrounds, fun r hr => ?_⟩, fun _ _ => ?_⟩
    · rw [hrounds, h.rounds] at hr
      cases hr
      exact hjust
    · refine ⟨_, _, (h.read hrounds).visited hacc rfl, visit_readings _ _, ?_, ?_,
        Or.inr (List.ne_nil_of_mem hother)⟩
      · exact List.forall_mem_append.mpr ⟨h.failed, List.forall_mem_singleton.mpr hjust⟩
      · exact h.last.trans (lastError_append_skipped _ _ _).symm
  · refine (applyDomainDelay_follows t req bytes delay _).bind ?_
    intro log'' _ heq
    obtain rfl := heq
    have hnext := h.next t bytes hacc hrounds
    have hvisit : ∀ v, (log''.visit v).rounds = ⟨start, visits ++ [v]⟩ :: past :=
      CallLog.visit_rounds (hrounds.trans h.rounds)
    refine (acquirePermit_follows t req bytes hnext).bind ?_
    intro log' granted heq
    obtain rfl := heq
    cases granted with
    | false => exact ⟨_, hvisit _, visits, _, rfl, Or.inr ⟨⟨_, rfl⟩, rfl⟩⟩
    | true =>
      refine (sendTo_follows t req bytes attempt hnext).bind ?_
      intro log' outcome hout
      rcases outcome with result | err
      · obtain ⟨rfl, hfinal⟩ := hout
        exact ⟨_, hvisit _, visits, _, rfl, Or.inl ⟨_, rfl, hfinal⟩⟩
      · obtain ⟨rfl, hretry⟩ := hout
        refine ⟨_, _, (h.read hrounds).visited hacc rfl, visit_readings _ _, ?_, ?_,
          Or.inl ⟨err, rfl⟩⟩
        · refine List.forall_mem_append.mpr ⟨h.failed, List.forall_mem_singleton.mpr ?_⟩
          simp [Visit.Failed, FinalReply, hretry]
        · exact (lastError_append_attempted _ _ _).symm

/-- **The attempts of a round** follow the protocol and complete the round. -/
theorem attemptLoop_follows {start : Nat} {past : List RoundLog} {todo : List Nat}
    {lastErr : Option TransportError} {log : CallLog}
    (h : BeforeAttempts t bytes start past todo lastErr log) :
    (attemptLoop t req bytes start todo lastErr).Follows (callProtocol t bytes req) log
      (RoundOutcome t bytes past) := by
  refine attemptLoop_rule (I := BeforeAttempts t bytes start past) (fun lastErr log h => ?_)
    (fun attempt later lastErr log h hacc => ?_)
    (fun attempt later lastErr log h hacc => attemptAt_follows t req bytes h hacc) todo h
  · obtain ⟨done, visits, h⟩ := h
    refine ⟨⟨start, visits⟩, h.rounds, ⟨h.complete, h.failed, ?_⟩, h.last⟩
    rcases h.toCome with ⟨err, herr⟩ | hnone
    · exact ⟨err, h.last.symm.trans herr⟩
    · exact absurd rfl hnone
  · obtain ⟨done, visits, h⟩ := h
    refine ⟨done ++ [attempt], visits, h.passed hacc, h.settled, h.failed, h.last, ?_⟩
    rw [← eligibleOf_cons_of_not_accepts t bytes hacc]
    exact h.toCome

theorem backOff_follows (round : Nat) (backoff : Duration) (log : CallLog) :
    (backOff t round backoff).Follows (callProtocol t bytes req) log fun log' _ => log' = log := by
  refine backOff_rule (fun _ => rfl) fun _ => ⟨trivial, fun _ _ => ?_⟩
  split
  · exact rfl
  · exact rfl

/-- How a call ends: all rounds before the newest failed, and the newest ended the call, or it
    failed too, was the last one allowed, and its last error is the result. -/
def CallOutcome (log : CallLog) (result : RpcResult) : Prop :=
  ∃ r past, log.rounds = r :: past ∧
    (r.EndsWith result ∨
      (r.Failed t bytes ∧ log.rounds.length = t.config.maxRetryRounds.toNat + 1 ∧
        ∃ err, lastError r.visits = some err ∧ result = .error err))

/-- **THE LOOP INVARIANT OF THE CALL**: the rounds made have all failed. -/
def RoundsFailed (round : Nat) (log : CallLog) : Prop :=
  log.rounds.length = round ∧ ∀ r ∈ log.rounds, r.Failed t bytes

/-- **One round keeps the invariant**, or ends the call. -/
theorem oneRound_follows (hacc : eligible t bytes ≠ []) {round : Nat} (backoff : Duration)
    {log : CallLog} (hround : round ≤ t.config.maxRetryRounds.toNat)
    (h : RoundsFailed t bytes round log) :
    (oneRound t req bytes round backoff).Follows (callProtocol t bytes req) log
      (RoundEnd.Leaves (callProtocol t bytes req) (fun _ => RoundsFailed t bytes (round + 1))
        (CallOutcome t bytes) (round = t.config.maxRetryRounds.toNat)) := by
  refine oneRound_rule (backOff_follows t req bytes round backoff log) ?_
  intro log' backoff' heq
  obtain rfl := heq
  refine ⟨⟨by rw [h.1]; exact hround, h.2⟩, fun tick _ => ?_⟩
  have hsome : eligibleOf t bytes (t.endpointOfTick tick) (List.range t.numEndpoints) ≠ [] := by
    intro h
    have hperm := eligibleRotation_perm t bytes (t.endpointOfTick tick)
    rw [show eligibleRotation t bytes _ = [] from h] at hperm
    exact hacc hperm.nil_eq.symm
  refine (attemptLoop_follows t req bytes ⟨[], [], RoundSoFar.begins log', rfl, nofun, rfl,
    Or.inr hsome⟩).mono ?_
  intro log'' outcome hout
  rcases outcome with result | lastErr
  · obtain ⟨r, hr, hend⟩ := hout
    exact ⟨r, _, hr, Or.inl hend⟩
  · obtain ⟨r, hr, hrf, rfl⟩ := hout
    obtain ⟨err, herr⟩ := hrf.attempted
    have hlen : log''.rounds.length = round + 1 := by rw [hr, List.length_cons, h.1]
    refine ⟨fun hlastRound => ?_, fun _ => ⟨hlen, ?_⟩⟩
    · rw [herr]
      exact ⟨r, _, hr, Or.inr ⟨hrf, hlen.trans (congrArg (· + 1) hlastRound), err, herr, rfl⟩⟩
    · rw [hr]
      exact List.forall_mem_cons.mpr ⟨hrf, h.2⟩

theorem any_accepts_iff :
    ((List.range t.numEndpoints).any fun idx => t.endpointAcceptsRequest idx bytes) = true ↔
      eligible t bytes ≠ [] := by
  rw [List.any_eq_true, Ne, eligible, List.filter_eq_nil_iff]
  push Not
  exact Iff.rfl

/-- **A call with an eligible endpoint follows the protocol.** -/
theorem call_follows (wire : RequestPacket → Option Nat)
    (hacc : eligible t (requestBytes wire req) ≠ []) :
    (call wire t req).Follows (callProtocol t (requestBytes wire req) req) .empty
      (CallOutcome t (requestBytes wire req)) := by
  unfold call
  dsimp only
  rw [if_pos ((any_accepts_iff t _).mpr hacc)]
  exact retryRounds_rule (I := fun round _ => RoundsFailed t _ round)
    (fun round backoff log hround h => oneRound_follows t req _ hacc backoff hround h) _
    (Nat.zero_add _) ⟨rfl, nofun⟩

/-- **A call no endpoint accepts** does nothing at all. -/
theorem call_eq_of_not_accepted (wire : RequestPacket → Option Nat)
    (hacc : eligible t (requestBytes wire req) = []) :
    call wire t req = .ret (.error sizeLimitError) := by
  unfold call
  dsimp only
  rw [if_neg fun h => (any_accepts_iff t _).mp h hacc]
  rfl

end Follow

end TransportBalancer
