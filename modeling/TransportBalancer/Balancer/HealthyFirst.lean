/-
  File:      TransportBalancer/Balancer/HealthyFirst.lean
  Subject:   WHO GIVES WAY IN A ROUND whose throttle readings stay fixed.

  * `givesWay` -- an endpoint at or over the threshold with one below it still ahead in the rotation;
  * `fixedProtocol` -- in such a round exactly these endpoints are skipped;
  * `HealthyFirst` -- what follows for the order of the attempts and the recorded skips;
  * **`healthy_endpoints_first`** -- every round of every call is of this kind;
  * `heavier_endpoint_first` -- among heavily throttled endpoints the rotation decides, not the
    delay.
-/
import TransportBalancer.Balancer.Outcome
import TransportBalancer.Throttle.Records

namespace TransportBalancer

open Interaction

/-! ## 1. Giving way -/

/-- What comes after an entry. -/
def aheadOf (xs : List Nat) (x : Nat) : List Nat := xs.drop (xs.idxOf x + 1)

theorem aheadOf_append_cons {xs ys : List Nat} {x : Nat} (h : x ∉ xs) :
    aheadOf (xs ++ x :: ys) x = ys := by
  unfold aheadOf
  rw [List.idxOf_append_of_notMem h, List.idxOf_cons_self, Nat.add_zero, ← List.drop_drop,
    List.drop_left]
  rfl

section Rounds

variable (t : LoadBalancedTransport) (bytes : Nat) (delay : Nat → Duration)

/-- **The endpoint gives way**: its delay has reached the threshold, and an endpoint that comes
    later in the rotation is below it. -/
def givesWay (rotation : List Nat) (idx : Nat) : Bool :=
  decide (t.config.heavyThrottleThreshold ≤ delay idx) &&
    (aheadOf rotation idx).any fun other => decide (delay other < t.config.heavyThrottleThreshold)

theorem givesWay_iff {before ahead : List Nat} {idx : Nat} (h : idx ∉ before) :
    givesWay t delay (before ++ idx :: ahead) idx = true ↔
      t.config.heavyThrottleThreshold ≤ delay idx ∧
        ∃ other ∈ ahead, delay other < t.config.heavyThrottleThreshold := by
  unfold givesWay
  rw [aheadOf_append_cons h]
  simp

/-- **The readings of round `n`** (counted from one) are all the same for each endpoint. -/
def ReadingsFixed (tr : Trace CallSig) (n : Nat) : Prop :=
  ∀ tr₁ idx d tr₂, tr = tr₁ ++ (⟨.preRequestDelay idx, d⟩ : Event CallSig) :: tr₂ →
    (callLog t tr₁).rounds.length = n → d = delay idx

/-- The effects a round with fixed readings may have: it skips who gives way, turns to the others,
    and the call sleeps before the next round only when this one has come to its end. -/
def RoundAllows (r : RoundLog) : CallOp → Prop
  | .recordSkip idx => givesWay t delay (eligibleRotation t bytes r.start) idx = true
  | .acquireOwned idx | .send idx _ =>
    givesWay t delay (eligibleRotation t bytes r.start) idx = false
  | .sleep .betweenRounds _ => r.visits.map Visit.idx = eligibleRotation t bytes r.start
  | _ => True

/-- **The protocol of a call whose round `n` has fixed readings.** -/
def fixedProtocol (n : Nat) : Protocol CallSig CallLog where
  ok log e := log.rounds.length = n → ∀ r ∈ log.rounds.head?, RoundAllows t bytes delay r e
  admits log e r :=
    match e, r with
    | .preRequestDelay idx, d => log.rounds.length = n → d = delay idx
    | _, _ => True
  next log e r := log.next t e r

variable {t bytes delay}

theorem fixedProtocol_admitted {tr : Trace CallSig} {n : Nat} (h : ReadingsFixed t delay tr n) :
    (fixedProtocol t bytes delay n).Admitted .empty tr := by
  suffices hrest : ∀ done todo, tr = done ++ todo →
      (fixedProtocol t bytes delay n).Admitted (callLog t done) todo from hrest [] tr rfl
  intro done todo
  induction todo generalizing done with
  | nil => exact fun _ => trivial
  | cons ev todo ih =>
    intro htr
    refine ⟨?_, ?_⟩
    · obtain ⟨e, r⟩ := ev
      cases e with
      | preRequestDelay idx => exact h done idx r todo htr
      | _ => trivial
    · have hnext := ih (done ++ [ev]) (by rw [htr, List.append_assoc]; rfl)
      unfold callLog at hnext
      rw [List.foldl_append] at hnext
      exact hnext

/-! ## 2. The call keeps to the protocol -/

variable (t bytes delay) (req : RequestPacket) (n : Nat)

/-- **The look-ahead** with fixed readings finds an endpoint below the threshold exactly if there is
    one among the eligible ones to come. -/
theorem lookAhead_fixed (start : Nat) (later : List Nat) (log : CallLog) :
    (hasUnthrottledEligibleAlternative t bytes start later).Follows (fixedProtocol t bytes delay n)
      log fun log' found => log'.rounds = log.rounds ∧ (log.rounds.length = n →
        (found = true ↔ ∃ other ∈ eligibleOf t bytes start later,
          delay other < t.config.heavyThrottleThreshold)) := by
  induction later generalizing log with
  | nil =>
    refine ⟨rfl, fun _ => ?_⟩
    simp [eligibleOf]
  | cons nextAttempt later ih =>
    unfold hasUnthrottledEligibleAlternative
    dsimp only
    by_cases hacc : t.endpointAcceptsRequest (rotated t start nextAttempt) bytes = true
    · rw [if_pos hacc, CallOp.perform_bind, eligibleOf_cons_of_accepts t bytes hacc]
      refine ⟨fun _ _ _ => trivial, fun d hd => ?_⟩
      dsimp only
      by_cases hlt : d < t.config.heavyThrottleThreshold
      · rw [if_pos hlt]
        refine ⟨rfl, fun hn => iff_of_true rfl ⟨_, List.mem_cons_self, ?_⟩⟩
        rw [← hd hn]
        exact hlt
      · rw [if_neg hlt]
        refine (ih _).mono fun log' found h => ⟨h.1, fun hn => (h.2 hn).trans ?_⟩
        rw [hd hn] at hlt
        constructor
        · intro h
          obtain ⟨other, hmem, hother⟩ := h
          exact ⟨other, List.mem_cons_of_mem _ hmem, hother⟩
        · intro h
          obtain ⟨other, hmem, hother⟩ := h
          rcases List.mem_cons.mp hmem with rfl | hmem
          · exact absurd hother hlt
          · exact ⟨other, hmem, hother⟩
    · rw [if_neg hacc, eligibleOf_cons_of_not_accepts t bytes hacc]
      exact ih log

/-- Records, sleeps within a round and dropped permits. -/
def CallOp.Free : CallOp → Prop
  | .recordSuccess _ | .recordRateLimit _ | .dropPermit _ => True
  | .sleep site _ => site ≠ .betweenRounds
  | _ => False

theorem free_follows {α : Type} {p : Program CallSig α} (h : p.Performs CallOp.Free)
    (log : CallLog) : p.Follows (fixedProtocol t bytes delay n) log fun log' _ => log' = log := by
  refine h.follows (fun e he _ r _ => ?_) fun e r he => ?_
  · cases e with
    | sleep site => cases site <;> first | exact absurd rfl he | trivial
    | recordSuccess | recordRateLimit | dropPermit => trivial
    | _ => exact he.elim
  · cases e with
    | sleep | recordSuccess | recordRateLimit | dropPermit => rfl
    | _ => exact he.elim

theorem applyDomainDelay_free (d : Duration) : (applyDomainDelay d).Performs CallOp.Free := by
  unfold applyDomainDelay
  split
  · exact trivial
  · exact ⟨SleepSite.noConfusion, fun _ _ => trivial⟩

theorem dropPermit_free (idx : Nat) : (dropPermit t idx).Performs CallOp.Free := by
  unfold dropPermit
  split
  · exact ⟨trivial, fun _ _ => trivial⟩
  · exact trivial

theorem recordFailure_free (idx attempt : Nat) (err : TransportError) :
    (recordFailure t idx attempt err).Performs CallOp.Free := by
  have hsleep : (if isRateLimit err = true ∧ attempt < t.numEndpoints - 1 then
      CallOp.perform (.sleep .rateLimitFailover t.config.rateLimitFailoverDelay)
      else pure ()).Performs CallOp.Free := by
    split
    · exact ⟨SleepSite.noConfusion, fun _ _ => trivial⟩
    · exact trivial
  unfold recordFailure
  dsimp only
  split
  · exact ⟨trivial, fun _ _ => hsleep⟩
  · exact hsleep

/-- An inner call to an endpoint that does not give way. -/
theorem sendTo_fixed {idx : Nat} (attempt : Nat) {log : CallLog}
    (h : log.rounds.length = n → ∀ r ∈ log.rounds.head?,
      givesWay t delay (eligibleRotation t bytes r.start) idx = false) :
    (sendTo t req idx attempt).Follows (fixedProtocol t bytes delay n) log
      fun log' _ => ∃ reply, log' = log.visit (.attempted idx reply) := by
  have hdrop : ∀ (out : RpcResult ⊕ TransportError) reply,
      (dropPermit t idx >>= fun _ => pure out).Follows (fixedProtocol t bytes delay n)
        (log.visit (.attempted idx reply))
        fun log' _ => ∃ reply, log' = log.visit (.attempted idx reply) :=
    fun out reply => (free_follows t bytes delay n (dropPermit_free t idx) _).bind
      fun log' _ heq => ⟨reply, heq⟩
  unfold sendTo
  rw [CallOp.perform_bind]
  refine ⟨h, fun reply _ => ?_⟩
  cases reply with
  | ok resp => exact ⟨fun _ _ _ => trivial, fun _ _ => hdrop _ _⟩
  | error err =>
    dsimp only
    split
    · refine (free_follows t bytes delay n (recordFailure_free t idx attempt err) _).bind ?_
      intro log' _ heq
      subst heq
      exact hdrop _ _
    · exact hdrop _ _

/-- The gate of an endpoint that does not give way. -/
theorem acquirePermit_fixed {idx : Nat} {log : CallLog}
    (h : log.rounds.length = n → ∀ r ∈ log.rounds.head?,
      givesWay t delay (eligibleRotation t bytes r.start) idx = false) :
    (acquirePermit t idx).Follows (fixedProtocol t bytes delay n) log fun log' granted =>
      log' = if granted = true then log else log.visit (.gateClosed idx) := by
  unfold acquirePermit
  split
  · refine ⟨h, fun answer _ => ?_⟩
    cases answer <;> exact rfl
  · exact rfl

/-- How the attempts of a round end: if the loop has run to its end, all eligible endpoints have
    been visited. -/
def RoundComplete (log : CallLog) : RoundEnd → Prop
  | .exhausted _ => ∀ r ∈ log.rounds.head?, r.visits.map Visit.idx = eligibleRotation t bytes r.start
  | .returned _ => True

/-- **One attempt** with fixed readings: the endpoint is skipped exactly if it gives way. -/
theorem attemptAt_fixed {start attempt : Nat} {past : List RoundLog} {done later : List Nat}
    {visits : List Visit} {log : CallLog} (lastErr : Option TransportError)
    (h : RoundSoFar t bytes start past done visits (attempt :: later) log)
    (hacc : t.endpointAcceptsRequest (rotated t start attempt) bytes = true) :
    (attemptAt t req bytes start attempt later).Follows (fixedProtocol t bytes delay n) log
      (AttemptEnd.Leaves (fun _ log' => ∃ visits',
        RoundSoFar t bytes start past (done ++ [attempt]) visits' later log')
        (RoundComplete t bytes) lastErr) := by
  have hrotation := eligibleRotation_split t bytes h.attempts hacc
  unfold attemptAt
  dsimp only
  rw [CallOp.perform_bind]
  refine ⟨fun _ _ _ => trivial, fun d hd => ?_⟩
  refine (lookAhead_fixed t bytes delay n start later _).bind ?_
  intro log' alternative hlook
  obtain ⟨hlog', hfound⟩ := hlook
  have h' := h.read hlog'
  have hgives : log'.rounds.length = n → (givesWay t delay (eligibleRotation t bytes start)
      (rotated t start attempt) = true ↔
        t.config.heavyThrottleThreshold ≤ d ∧ alternative = true) := by
    intro hn
    have hn' : log.rounds.length = n := (congrArg List.length hlog').symm.trans hn
    rw [hrotation, givesWay_iff t delay (not_mem_before t bytes hrotation), hd hn']
    exact and_congr_right fun _ => (hfound hn').symm
  by_cases hskip : d ≥ t.config.heavyThrottleThreshold ∧ alternative = true
  · rw [if_pos hskip, CallOp.perform_bind]
    refine ⟨fun hn r hr => ?_, fun _ _ => ⟨_, h'.visited hacc rfl⟩⟩
    rw [h'.rounds] at hr
    cases hr
    exact (hgives hn).mpr hskip
  · rw [if_neg hskip]
    have hturn : log'.rounds.length = n → ∀ r ∈ log'.rounds.head?,
        givesWay t delay (eligibleRotation t bytes r.start) (rotated t start attempt) =
          false := by
      intro hn r hr
      rw [h'.rounds] at hr
      cases hr
      rw [← Bool.not_eq_true, hgives hn]
      exact hskip
    refine (free_follows t bytes delay n (applyDomainDelay_free d) _).bind ?_
    intro log'' _ heq
    subst heq
    refine (acquirePermit_fixed t bytes delay n hturn).bind ?_
    intro log'' granted heq
    subst heq
    cases granted with
    | false => exact trivial
    | true =>
      refine (sendTo_fixed t bytes delay req n attempt hturn).bind ?_
      intro log'' outcome hout
      obtain ⟨reply, rfl⟩ := hout
      cases outcome with
      | inl result => exact trivial
      | inr err => exact ⟨_, h'.visited hacc rfl⟩

/-- **The loop of a round** with fixed readings: if it runs to its end, all eligible endpoints have
    been visited. -/
theorem attemptLoop_fixed {start : Nat} {past : List RoundLog} {todo : List Nat}
    {lastErr : Option TransportError} {log : CallLog}
    (h : ∃ done visits, RoundSoFar t bytes start past done visits todo log) :
    (attemptLoop t req bytes start todo lastErr).Follows (fixedProtocol t bytes delay n) log
      (RoundComplete t bytes) := by
  refine attemptLoop_rule
    (I := fun todo _ log => ∃ done visits, RoundSoFar t bytes start past done visits todo log)
    (fun _ log h r hr => ?_) (fun attempt later _ log h hacc => ?_)
    (fun attempt later lastErr log h hacc => ?_) todo h
  · obtain ⟨done, visits, h⟩ := h
    rw [h.rounds] at hr
    cases hr
    exact h.complete
  · obtain ⟨done, visits, h⟩ := h
    exact ⟨_, _, h.passed hacc⟩
  · obtain ⟨done, visits, h⟩ := h
    refine (attemptAt_fixed t bytes delay req n lastErr h hacc).mono fun _ out hout => ?_
    cases out with
    | skipped | failed => exact ⟨_, hout⟩
    | returned result => exact hout

/-- **The call keeps to the protocol**: before a later round the newest has come to its end. -/
theorem call_fixed (wire : RequestPacket → Option Nat) :
    (call wire t req).Follows (fixedProtocol t (requestBytes wire req) delay n) .empty
      fun _ _ => True := by
  refine call_rule (I := fun round _ log => 0 < round → ∀ r ∈ log.rounds.head?,
      r.visits.map Visit.idx = eligibleRotation t (requestBytes wire req) r.start)
    (fun round backoff log _ hcomplete => ?_) (fun h => absurd h (Nat.lt_irrefl 0)) trivial
  refine oneRound_rule (M := fun log' _ => log' = log)
    (backOff_rule (fun _ => rfl) fun hround => ?_)
    fun log' backoff' heq => ⟨fun _ _ _ => trivial, fun tick _ => ?_⟩
  · refine ⟨fun _ r hr => hcomplete hround r hr, fun _ _ => ?_⟩
    split
    · exact rfl
    · exact fun _ _ _ => trivial
  · refine (attemptLoop_fixed t _ delay req n ⟨[], [], RoundSoFar.begins log'⟩).mono ?_
    intro log'' outcome hout
    cases outcome with
    | returned result => exact trivial
    | exhausted lastErr =>
      refine ⟨fun _ => ?_, fun _ _ => hout⟩
      cases lastErr with
      | some err => exact trivial
      | none => exact fun _ _ _ => trivial

end Rounds

/-! ## 3. The visits of a round with fixed readings -/

section Visits

variable {t : LoadBalancedTransport} {bytes : Nat} {delay : Nat → Duration}

/-- The endpoint a visit skips. -/
def Visit.skip? : Visit → Option Nat
  | .skipped idx _ => some idx
  | _ => none

/-- The endpoints a round skips. -/
def RoundLog.skips (r : RoundLog) : List Nat := r.visits.filterMap Visit.skip?

/-- The `record_skip` calls of a trace, oldest first. -/
def recordedSkips (tr : Trace CallSig) : List Nat :=
  tr.filterMap fun ev =>
    match ev with
    | ⟨.recordSkip idx, _⟩ => some idx
    | _ => none

/-- **The log misses no recorded skip and adds none.** -/
theorem recordedSkips_eq (t : LoadBalancedTransport) (tr : Trace CallSig) :
    recordedSkips tr = (callLog t tr).rounds.reverse.flatMap RoundLog.skips := by
  have hskips : ∀ log : CallLog,
      log.rounds.reverse.flatMap RoundLog.skips = log.visits.filterMap Visit.skip? := by
    intro log
    unfold CallLog.visits
    rw [List.filterMap_flatMap]
    rfl
  rw [hskips]
  suffices h : ∀ log : CallLog,
      (tr.foldl (fun log ev => log.next t ev.op ev.ans) log).visits.filterMap Visit.skip? =
        log.visits.filterMap Visit.skip? ++ recordedSkips tr by
    exact (h .empty).symm
  induction tr with
  | nil => exact fun log => (List.append_nil _).symm
  | cons ev tr ih =>
    intro log
    obtain ⟨e, r⟩ := ev
    have hev : (log.next t e r).visits.filterMap Visit.skip? =
        log.visits.filterMap Visit.skip? ++ recordedSkips [⟨e, r⟩] := by
      cases e with
      | recordSkip | send => simp [CallLog.next, recordedSkips, Visit.skip?]
      | acquireOwned idx =>
        cases r with
        | closed => simp [CallLog.next, recordedSkips, Visit.skip?]
        | permit => exact (List.append_nil _).symm
      | fetchAddCounter => simp [CallLog.next, CallLog.visits, recordedSkips]
      | panic | preRequestDelay | recordSuccess | recordRateLimit | sleep | dropPermit =>
        exact (List.append_nil _).symm
    have hsplit : recordedSkips (⟨e, r⟩ :: tr) = recordedSkips [⟨e, r⟩] ++ recordedSkips tr := by
      unfold recordedSkips
      rw [← List.filterMap_append]
      rfl
    rw [List.foldl_cons, ih, hev, List.append_assoc, hsplit]

variable (t bytes delay) in
/-- **As the readings call for**: in round `n` those who give way are skipped and the others are
    turned to. -/
def AsPlanned (n : Nat) (log : CallLog) : Prop :=
  ∀ later r earlier, log.rounds = later ++ r :: earlier → earlier.length + 1 = n →
    ∀ v ∈ r.visits, v.reached = !givesWay t delay (eligibleRotation t bytes r.start) v.idx

theorem asPlanned_visit {n : Nat} {log : CallLog} {v : Visit} (h : AsPlanned t bytes delay n log)
    (hne : log.rounds ≠ []) (hv : log.rounds.length = n → ∀ r ∈ log.rounds.head?,
      v.reached = !givesWay t delay (eligibleRotation t bytes r.start) v.idx) :
    AsPlanned t bytes delay n (log.visit v) := by
  obtain ⟨rounds, readings⟩ := log
  obtain ⟨r₀, past, rfl⟩ := List.exists_cons_of_ne_nil hne
  intro later r earlier hrounds hn w hw
  cases later with
  | nil =>
    obtain ⟨rfl, rfl⟩ := List.cons.inj hrounds
    rcases List.mem_append.mp hw with hw | hw
    · exact h [] r₀ past rfl hn w hw
    · obtain rfl := List.mem_singleton.mp hw
      exact hv hn r₀ rfl
  | cons r' later =>
    obtain ⟨-, rfl⟩ := List.cons.inj hrounds
    exact h (r₀ :: later) r earlier rfl hn w hw

/-- One effect keeps the visits as planned, where both protocols allow it. -/
theorem asPlanned_next {req : RequestPacket} {n : Nat} {log : CallLog} (e : CallOp)
    (r : CallSig.Ans e) (h : AsPlanned t bytes delay n log)
    (hcall : (callProtocol t bytes req).ok log e)
    (hfixed : (fixedProtocol t bytes delay n).ok log e) :
    AsPlanned t bytes delay n (log.next t e r) := by
  have hnext : ∀ {idx}, log.Next t bytes idx → log.rounds ≠ [] := by
    intro idx hnext
    obtain ⟨r, past, hrounds, _⟩ := hnext
    rw [hrounds]
    exact List.cons_ne_nil _ _
  cases e with
  | fetchAddCounter =>
    intro later r' earlier hrounds hn v hv
    cases later with
    | nil =>
      obtain ⟨rfl, rfl⟩ := List.cons.inj hrounds
      exact absurd hv List.not_mem_nil
    | cons r'' later =>
      obtain ⟨-, hrounds⟩ := List.cons.inj hrounds
      exact h later r' earlier hrounds hn v hv
  | recordSkip idx =>
    exact asPlanned_visit h (hnext hcall.1) fun hn r' hr' => by
      rw [show (Visit.skipped idx log.readings).idx = idx from rfl, hfixed hn r' hr']
      rfl
  | acquireOwned idx =>
    cases r with
    | closed =>
      exact asPlanned_visit h (hnext hcall) fun hn r' hr' => by
        rw [show (Visit.gateClosed idx).idx = idx from rfl, hfixed hn r' hr']
        rfl
    | permit => exact h
  | send idx req' =>
    exact asPlanned_visit h (hnext hcall.2) fun hn r' hr' => by
      rw [show (Visit.attempted idx r).idx = idx from rfl, hfixed hn r' hr']
      rfl
  | panic => exact Empty.elim r
  | preRequestDelay | recordSuccess | recordRateLimit | sleep | dropPermit => exact h

/-- A round only grows, and the rounds before it stay. -/
theorem rounds_grow (t : LoadBalancedTransport) (tr : Trace CallSig) : ∀ {log : CallLog}
    {later : List RoundLog} {r : RoundLog} {earlier : List RoundLog},
    log.rounds = later ++ r :: earlier → ∃ later' r',
      (tr.foldl (fun log ev => log.next t ev.op ev.ans) log).rounds = later' ++ r' :: earlier ∧
        r'.start = r.start ∧ r.visits <+: r'.visits := by
  induction tr with
  | nil => exact fun h => ⟨_, _, h, rfl, List.prefix_refl _⟩
  | cons ev tr ih =>
    intro log later r earlier h
    obtain ⟨e, a⟩ := ev
    have hvisit : ∀ v, ∃ later' r', (log.visit v).rounds = later' ++ r' :: earlier ∧
        r'.start = r.start ∧ r.visits <+: r'.visits := by
      intro v
      obtain ⟨rounds, readings⟩ := log
      dsimp only at h
      subst h
      cases later with
      | nil => exact ⟨[], _, rfl, rfl, List.prefix_append _ _⟩
      | cons r' later => exact ⟨_ :: later, r, rfl, rfl, List.prefix_refl _⟩
    have hone : ∃ later' r', (log.next t e a).rounds = later' ++ r' :: earlier ∧
        r'.start = r.start ∧ r.visits <+: r'.visits := by
      cases e with
      | fetchAddCounter => exact ⟨_ :: later, r, by rw [List.cons_append, ← h]; rfl, rfl,
          List.prefix_refl _⟩
      | recordSkip | send => exact hvisit _
      | acquireOwned idx =>
        cases a with
        | closed => exact hvisit _
        | permit => exact ⟨later, r, h, rfl, List.prefix_refl _⟩
      | panic | preRequestDelay | recordSuccess | recordRateLimit | sleep | dropPermit =>
        exact ⟨later, r, h, rfl, List.prefix_refl _⟩
    obtain ⟨later₁, r₁, h₁, hstart₁, hpre₁⟩ := hone
    obtain ⟨later₂, r₂, h₂, hstart₂, hpre₂⟩ := ih h₁
    exact ⟨later₂, r₂, h₂, hstart₂.trans hstart₁, hpre₁.trans hpre₂⟩

end Visits

/-! ## 4. Healthy endpoints first -/

section HealthyFirst

variable (t : LoadBalancedTransport) (bytes : Nat) (delay : Nat → Duration)

/-- The visit ends the call. -/
def Visit.Ends : Visit → Prop
  | .skipped _ _ => False
  | .gateClosed _ => True
  | .attempted _ reply => FinalReply reply

/-- The round turned to the endpoint: it was attempted, or the call ended at its closed gate. -/
def RoundLog.TurnsTo (r : RoundLog) (idx : Nat) : Prop :=
  ∃ v ∈ r.visits, v.idx = idx ∧ v.reached = true

/-- The call ended at an endpoint that comes earlier in the rotation. -/
def RoundLog.EndedBefore (r : RoundLog) (idx : Nat) : Prop :=
  ∃ visits v, r.visits = visits ++ [v] ∧ v.Ends ∧
    [v.idx, idx].Sublist (eligibleRotation t bytes r.start)

/-- **Round `n` is over**: the call sleeps before the next one, or has returned. -/
def RoundOver (tr : Trace CallSig) (q : Program CallSig RpcResult) (n : Nat) : Prop :=
  (∃ tr₁ d tr₂, tr = tr₁ ++ (⟨.sleep .betweenRounds d, ()⟩ : Event CallSig) :: tr₂ ∧
    (callLog t tr₁).rounds.length = n) ∨ ∃ result, q = .ret result

/-- **Healthy endpoints first**, in one round. -/
structure HealthyFirst (r : RoundLog) (ended : Prop) : Prop where
  /-- An endpoint at or over the threshold is turned to only after every eligible endpoint below it
      was attempted and failed. -/
  heavyLast : ∀ before v after, r.visits = before ++ v :: after → v.reached = true →
    t.config.heavyThrottleThreshold ≤ delay v.idx → ∀ other ∈ eligible t bytes,
      delay other < t.config.heavyThrottleThreshold →
        ∃ err, .attempted other (.error err) ∈ before ∧ isRetryable err = true
  /-- Every eligible endpoint below the threshold is attempted. -/
  healthyAttempted : ended → ∀ idx ∈ eligible t bytes,
    delay idx < t.config.heavyThrottleThreshold → r.TurnsTo idx ∨ r.EndedBefore t bytes idx
  /-- If there is none, every eligible endpoint is. -/
  allAttempted : ended →
    (∀ other ∈ eligible t bytes, t.config.heavyThrottleThreshold ≤ delay other) →
    ∀ idx ∈ eligible t bytes, r.TurnsTo idx ∨ r.EndedBefore t bytes idx
  once : (r.visits.map Visit.idx).Nodup
  /-- The skips recorded are one for each endpoint visited that gives way. -/
  skips : r.skips =
    (r.visits.map Visit.idx).filter (givesWay t delay (eligibleRotation t bytes r.start))

variable {t bytes delay}

/-- Who gives way has an eligible endpoint below the threshold ahead. -/
theorem exists_of_givesWay {start idx : Nat}
    (h : givesWay t delay (eligibleRotation t bytes start) idx = true) :
    t.config.heavyThrottleThreshold ≤ delay idx ∧
      ∃ other ∈ eligible t bytes, delay other < t.config.heavyThrottleThreshold := by
  unfold givesWay at h
  rw [Bool.and_eq_true, decide_eq_true_eq, List.any_eq_true] at h
  obtain ⟨hheavy, other, hmem, hlight⟩ := h
  exact ⟨hheavy, other, (eligibleRotation_perm t bytes start).subset (List.drop_subset _ _ hmem),
    of_decide_eq_true hlight⟩

section Round

variable {r : RoundLog} (horder : r.visits.map Visit.idx <+: eligibleRotation t bytes r.start)
  (hfailed : ∀ v ∈ r.visits.dropLast, v.Failed t bytes r.start)
  (hplan : ∀ v ∈ r.visits,
    v.reached = !givesWay t delay (eligibleRotation t bytes r.start) v.idx)

include horder hfailed hplan

/-- A heavily throttled endpoint is turned to after the others. -/
theorem heavy_turns_last {before after : List Visit} {v : Visit}
    (hv : r.visits = before ++ v :: after) (hreached : v.reached = true)
    (hheavy : t.config.heavyThrottleThreshold ≤ delay v.idx) {other : Nat}
    (hother : other ∈ eligible t bytes)
    (hlight : delay other < t.config.heavyThrottleThreshold) :
    ∃ err, .attempted other (.error err) ∈ before ∧ isRetryable err = true := by
  obtain ⟨rest, hrest⟩ := horder
  rw [hv, List.map_append, List.map_cons, List.append_assoc, List.cons_append] at hrest
  have hfresh := not_mem_before t bytes hrest.symm
  have hstay : givesWay t delay (eligibleRotation t bytes r.start) v.idx = false := by
    have hv' := hplan v (hv ▸ by simp)
    rw [hreached] at hv'
    exact Bool.not_eq_true' _ |>.mp hv'.symm
  rw [← Bool.not_eq_true, ← hrest, givesWay_iff t delay hfresh] at hstay
  have hmem : other ∈ eligibleRotation t bytes r.start :=
    (eligibleRotation_perm t bytes r.start).symm.subset hother
  rw [← hrest] at hmem
  rcases List.mem_append.mp hmem with hmem | hmem
  · obtain ⟨w, hw, rfl⟩ := List.mem_map.mp hmem
    -- it was visited before, does not give way, and the round went on after it
    have hw' := hplan w (hv ▸ by simp [hw])
    have hwf := hfailed w (by
      rw [hv, List.dropLast_append_of_ne_nil (List.cons_ne_nil _ _)]
      exact List.mem_append_left _ hw)
    have hwlight : givesWay t delay (eligibleRotation t bytes r.start) w.idx = false := by
      rw [← Bool.not_eq_true]
      exact fun h => absurd hlight (not_lt.mpr (exists_of_givesWay h).1)
    rw [hwlight] at hw'
    cases w with
    | skipped => cases hw'
    | gateClosed => exact hwf.elim
    | attempted idx reply =>
      obtain ⟨err, rfl, hretry⟩ := not_finalReply_iff.mp hwf
      exact ⟨err, hw, hretry⟩
  · rcases List.mem_cons.mp hmem with rfl | hmem
    · exact absurd hlight (not_lt.mpr hheavy)
    · exact absurd ⟨hheavy, other, hmem, hlight⟩ hstay

omit hfailed in
/-- In a round that has come to its end or ended the call, an endpoint that does not give way was
    turned to. -/
theorem turns_to (hover : r.visits.map Visit.idx = eligibleRotation t bytes r.start ∨
      ∃ visits v, r.visits = visits ++ [v] ∧ v.Ends) {idx : Nat} (hidx : idx ∈ eligible t bytes)
    (hstay : givesWay t delay (eligibleRotation t bytes r.start) idx = false) :
    r.TurnsTo idx ∨ r.EndedBefore t bytes idx := by
  have hmem : idx ∈ eligibleRotation t bytes r.start :=
    (eligibleRotation_perm t bytes r.start).symm.subset hidx
  by_cases hvisited : idx ∈ r.visits.map Visit.idx
  · obtain ⟨v, hv, rfl⟩ := List.mem_map.mp hvisited
    refine Or.inl ⟨v, hv, rfl, ?_⟩
    rw [hplan v hv, hstay]
    rfl
  · rcases hover with hall | ⟨visits, v, hv, hends⟩
    · exact absurd (hall ▸ hmem) hvisited
    · obtain ⟨rest, hrest⟩ := horder
      refine Or.inr ⟨visits, v, hv, hends, ?_⟩
      rw [← hrest] at hmem ⊢
      have hidx := (List.mem_append.mp hmem).resolve_left hvisited
      have hlast : [v.idx].Sublist (r.visits.map Visit.idx) := by
        rw [hv, List.map_append]
        exact List.sublist_append_right _ _
      exact hlast.append (List.singleton_sublist.mpr hidx)

omit horder hfailed in
/-- The endpoints skipped are those visited that give way. -/
theorem skips_eq : r.skips =
    (r.visits.map Visit.idx).filter (givesWay t delay (eligibleRotation t bytes r.start)) := by
  unfold RoundLog.skips
  generalize givesWay t delay (eligibleRotation t bytes r.start) = gives at hplan ⊢
  generalize r.visits = visits at hplan ⊢
  induction visits with
  | nil => rfl
  | cons v visits ih =>
    obtain ⟨hv, hvisits⟩ := List.forall_mem_cons.mp hplan
    rw [List.filterMap_cons, List.map_cons, ih hvisits]
    cases v with
    | skipped idx readings =>
      have hgives : gives idx = true := by simpa [Visit.reached, Visit.idx] using hv
      exact (List.filter_cons_of_pos hgives).symm
    | gateClosed idx | attempted idx =>
      have hgives : gives idx = false := by simpa [Visit.reached, Visit.idx] using hv
      exact (List.filter_cons_of_neg (Bool.not_eq_true _ ▸ hgives)).symm

end Round

end HealthyFirst

section Calls

variable {wire : RequestPacket → Option Nat} {t : LoadBalancedTransport} {req : RequestPacket}
  {delay : Nat → Duration} {tr : Trace CallSig} {q : Program CallSig RpcResult}

/-- **The visits of round `n` are as its readings call for**, at every point of a call. -/
theorem call_as_planned {n : Nat} (hs : Steps (call wire t req) tr q)
    (hfixed : ReadingsFixed t delay tr n) :
    AsPlanned t (requestBytes wire req) delay n (callLog t tr) := by
  induction tr using List.reverseRecOn generalizing q with
  | nil =>
    intro later r earlier h
    simp [callLog, CallLog.empty] at h
  | append_singleton tr ev ih =>
    obtain ⟨q', hs', _⟩ := steps_append_iff.mp hs
    have hbefore : ReadingsFixed t delay tr n := fun tr₁ idx d tr₂ htr hn =>
      hfixed tr₁ idx d (tr₂ ++ [ev]) (by rw [htr]; simp) hn
    have hlog : callLog t (tr ++ [ev]) = (callLog t tr).next t ev.op ev.ans := by
      unfold callLog
      rw [List.foldl_append]
      rfl
    rw [hlog]
    exact asPlanned_next ev.op ev.ans (ih hs' hbefore) (call_performed hs)
      ((call_fixed t delay req n wire).performed hs (fixedProtocol_admitted hbefore))

/-- A round that is over has visited all eligible endpoints or ended the call. -/
theorem round_over {later earlier : List RoundLog} {r : RoundLog}
    (hs : Steps (call wire t req) tr q) (hround : (callLog t tr).rounds = later ++ r :: earlier)
    (hfixed : ReadingsFixed t delay tr (earlier.length + 1))
    (hover : RoundOver t tr q (earlier.length + 1)) :
    r.visits.map Visit.idx = eligibleRotation t (requestBytes wire req) r.start ∨
      ∃ visits v, r.visits = visits ++ [v] ∧ v.Ends := by
  have hok := callLog_ok hs
  rcases hover with ⟨tr₁, d, tr₂, rfl, hn⟩ | ⟨result, rfl⟩
  · -- before that sleep the round had come to its end, and it has only grown since
    have hbefore : ReadingsFixed t delay tr₁ (earlier.length + 1) := fun tr₃ idx d' tr₄ htr hn =>
      hfixed tr₃ idx d' (tr₄ ++ ⟨.sleep .betweenRounds d, ()⟩ :: tr₂) (by rw [htr]; simp) hn
    have hallowed := (call_fixed t delay req (earlier.length + 1) wire).performed hs
      (fixedProtocol_admitted hbefore) hn
    obtain ⟨r₁, earlier₁, h₁⟩ : ∃ r₁ earlier₁, (callLog t tr₁).rounds = r₁ :: earlier₁ :=
      List.exists_cons_of_length_eq_add_one hn
    have hhead : (callLog t tr₁).rounds.head? = some r₁ := by
      rw [h₁]
      rfl
    have hcomplete : r₁.visits.map Visit.idx =
        eligibleRotation t (requestBytes wire req) r₁.start := hallowed r₁ hhead
    obtain ⟨later', r', hr', hstart, hpre⟩ := rounds_grow t (⟨.sleep .betweenRounds d, ()⟩ :: tr₂)
      (show (callLog t tr₁).rounds = [] ++ r₁ :: earlier₁ from h₁)
    have hsame : later' ++ r' :: earlier₁ = later ++ r :: earlier := by
      rw [← hr', ← hround]
      unfold callLog
      rw [List.foldl_append]
    have hlen : earlier₁.length = earlier.length := by
      rw [h₁, List.length_cons] at hn
      omega
    obtain ⟨rfl, rfl⟩ := List.cons.inj (List.append_inj_right' hsame (by simp [hlen]))
    refine Or.inl ((hok.order (hround ▸ by simp)).eq_of_length_le ?_)
    rw [hstart, ← hcomplete, List.length_map, List.length_map]
    exact hpre.length_le
  · have hacc : eligible t (requestBytes wire req) ≠ [] := by
      intro hnone
      obtain ⟨rfl, _⟩ := steps_of_not_accepted hnone hs
      simp [callLog, CallLog.empty] at hround
    cases later with
    | nil =>
      obtain ⟨r', past, hr', hend⟩ := call_outcome_of_runs hacc hs
      obtain ⟨rfl, rfl⟩ := List.cons.inj (hround.symm.trans hr')
      rcases hend with ⟨visits, v, hv, ⟨idx, rfl, hfinal⟩ | ⟨⟨idx, rfl⟩, _⟩⟩ | ⟨hf, _⟩
      · exact Or.inr ⟨visits, _, hv, hfinal⟩
      · exact Or.inr ⟨visits, _, hv, trivial⟩
      · exact Or.inl hf.order
    | cons r' later =>
      exact Or.inl (hok.past r (by rw [hround]; simp)).order

/-- A skip recorded adds one to `total_skips` of the domain, and moves nothing else of it. -/
theorem recordSkip_eval (now : UInt64) (s : DomainThrottleState) :
    recordSkip.eval (atomicHandler now) s = some ((), { s with totalSkips := s.totalSkips + 1 }) :=
  rfl

/-- **HEALTHY ENDPOINTS FIRST**, in every round of every call in which the throttle readings of each
    endpoint stay the same, for any start, size caps and outcomes; and the skips recorded by the
    call are those of its rounds, each counted once in `total_skips`, alone as among other
    threads. -/
theorem healthy_endpoints_first (hs : Steps (call wire t req) tr q) :
    (recordedSkips tr = (callLog t tr).rounds.reverse.flatMap RoundLog.skips ∧
      Counts (some .skipDecision) recordSkip ∧ ∀ now s, recordSkip.eval (atomicHandler now) s =
        some ((), { s with totalSkips := s.totalSkips + 1 })) ∧
    ∀ later r earlier, (callLog t tr).rounds = later ++ r :: earlier → ∀ delay,
      ReadingsFixed t delay tr (earlier.length + 1) →
      HealthyFirst t (requestBytes wire req) delay r (RoundOver t tr q (earlier.length + 1)) := by
  refine ⟨⟨recordedSkips_eq t tr, recordSkip_counts, recordSkip_eval⟩,
    fun later r earlier hround delay hfixed => ?_⟩
  have hok := callLog_ok hs
  have hmem : r ∈ (callLog t tr).rounds := by simp [hround]
  have horder := hok.order hmem
  have hplan := call_as_planned hs hfixed later r earlier hround rfl
  have hfailed := (hok.ordered hmem).failed
  refine ⟨fun before v after hv hreached hheavy other hother hlight =>
    heavy_turns_last horder hfailed hplan hv hreached hheavy hother hlight,
    fun hover idx hidx hlight => ?_, fun hover hnone idx hidx => ?_,
    (eligibleRotation_nodup t _ r.start).sublist horder.sublist, skips_eq hplan⟩
  · refine turns_to horder hplan (round_over hs hround hfixed hover) hidx ?_
    rw [← Bool.not_eq_true]
    exact fun h => absurd hlight (not_lt.mpr (exists_of_givesWay h).1)
  · refine turns_to horder hplan (round_over hs hround hfixed hover) hidx ?_
    rw [← Bool.not_eq_true]
    intro h
    obtain ⟨_, other, hother, hlight⟩ := exists_of_givesWay h
    exact absurd hlight (not_lt.mpr (hnone other hother))

end Calls

/-! ## 5. Two throttled endpoints -/

section Examples

/-- A trace whose readings are all those of `delay`. -/
def readsOnly (delay : Nat → Duration) (tr : Trace CallSig) : Bool :=
  tr.all fun ev =>
    match ev with
    | ⟨.preRequestDelay idx, d⟩ => decide (d = delay idx)
    | _ => true

theorem readingsFixed_of_readsOnly {t : LoadBalancedTransport} {delay : Nat → Duration}
    {tr : Trace CallSig} (h : readsOnly delay tr = true) (n : Nat) :
    ReadingsFixed t delay tr n := by
  intro tr₁ idx d tr₂ htr _
  unfold readsOnly at h
  rw [List.all_eq_true] at h
  exact of_decide_eq_true (h ⟨.preRequestDelay idx, d⟩ (by rw [htr]; simp))

/-- In the masked run endpoint 0 gives way to endpoint 1, and one skip is recorded. -/
theorem healthy_endpoints_first_masked : ∃ r,
    (callLog pairTransport maskedRun).rounds = [r] ∧ r.visits.map Visit.idx = [0, 1] ∧
      HealthyFirst pairTransport 100
        (fun idx => if idx = 0 then .fromMillis 2000 else Duration.zero) r
        (RoundOver pairTransport maskedRun (.ret (.error serviceUnavailable)) 1) :=
  ⟨_, rfl, rfl, (healthy_endpoints_first maskedRun_runs).2 [] _ [] rfl _
    (readingsFixed_of_readsOnly (by decide) 1)⟩

/-- Both domains are heavily throttled, endpoint 0 with two seconds and endpoint 1 with one; the
    rotation starts at endpoint 0. -/
def heavierRun : Trace CallSig :=
  [⟨.fetchAddCounter, (0 : UInt64)⟩, ⟨.preRequestDelay 0, Duration.fromMillis 2000⟩,
    ⟨.preRequestDelay 1, Duration.fromMillis 1000⟩,
    ⟨.sleep .domainDelay (.fromMillis 2000), ()⟩,
    ⟨.send 0 smallRequest, .error serviceUnavailable⟩,
    ⟨.preRequestDelay 1, Duration.fromMillis 1000⟩,
    ⟨.sleep .domainDelay (.fromMillis 1000), ()⟩,
    ⟨.send 1 smallRequest, .error serviceUnavailable⟩]

theorem heavierRun_runs : Runs (call hundredBytes pairTransport smallRequest) heavierRun
    (.error serviceUnavailable) :=
  .step _ _ _ (.step _ _ _ (.step _ _ _ (.step _ _ _ (.step _ _ _ (.step _ _ _ (.step _ _ _
    (.step _ _ _ (.refl _))))))))

/-- **The heavier endpoint goes first** where the rotation starts at it: endpoint 1 has the smaller
    delay and was not attempted before. -/
theorem heavier_endpoint_first :
    ¬ ∀ (t : LoadBalancedTransport) (wire : RequestPacket → Option Nat) (req : RequestPacket)
        (tr : Trace CallSig) (q : Program CallSig RpcResult), t.Built →
        Steps (call wire t req) tr q → ∀ later r earlier,
        (callLog t tr).rounds = later ++ r :: earlier → ∀ delay,
        ReadingsFixed t delay tr (earlier.length + 1) → ∀ before idx reply after,
        r.visits = before ++ .attempted idx reply :: after →
        t.config.heavyThrottleThreshold ≤ delay idx →
        ∀ other ∈ eligible t (requestBytes wire req), delay other < delay idx →
          ∃ err, .attempted other (.error err) ∈ before ∧ isRetryable err = true := by
  intro h
  obtain ⟨err, hmem, _⟩ := h pairTransport hundredBytes smallRequest heavierRun _
    pairTransport_built heavierRun_runs [] _ [] rfl
    (fun idx => .fromMillis (if idx = 0 then 2000 else 1000))
    (readingsFixed_of_readsOnly (by decide) 1) [] 0 _ _ rfl (by decide) 1 (by decide) (by decide)
  exact absurd hmem List.not_mem_nil

end Examples

end TransportBalancer
