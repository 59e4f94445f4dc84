/-
  File:      TransportBalancer/Balancer/Availability.lean
  Subject:   ONE ENDPOINT THAT WORKS IS ENOUGH: a call that may use one, of a domain nobody has
             rate-limited, is served in its first round, whatever the other endpoints answer and
             whatever other calls do to their domains.

  * `retryProtocol`, `call_retries` -- a call sleeps between its rounds only when all those it has
    made failed;
  * `none_failed` -- no round of a call fails that meets a working endpoint without delay;
  * **`working_endpoint_suffices`** -- every call of a reachable pool that may use such an endpoint
    is served at once.
-/
import TransportBalancer.Balancer.Backoff
import TransportBalancer.Balancer.Isolation

namespace TransportBalancer

open Interaction TaskPool

/-! ## 1. The sleeps between the rounds -/

section Retries

variable (t : LoadBalancedTransport) (req : RequestPacket) (bytes : Nat)

/-- **The protocol of a call and its retries**: there have been rounds before a sleep between the
    rounds, and all of them failed. -/
def retryProtocol : Protocol CallSig CallLog where
  ok log e := (callProtocol t bytes req).ok log e ∧
    (e.backoff?.isSome → log.rounds ≠ [] ∧ ∀ r ∈ log.rounds, r.Failed t bytes)
  admits := (callProtocol t bytes req).admits
  next := (callProtocol t bytes req).next

/-- Within a round nothing more is asked. -/
theorem retryProtocol_inRound {log : CallLog} {e : CallOp} (he : e.InRound)
    (hok : (callProtocol t bytes req).ok log e) : (retryProtocol t req bytes).ok log e := by
  refine ⟨hok, fun hsleep => ?_⟩
  cases e with
  | sleep site d =>
    cases site with
    | betweenRounds => exact absurd rfl he
    | domainDelay | rateLimitFailover => cases hsleep
  | _ => cases hsleep

/-- **One round** sleeps after failed rounds only, and leaves a failed one behind or ends the
    call. -/
theorem oneRound_retries (hacc : eligible t bytes ≠ []) {round : Nat} (backoff : Duration)
    {log : CallLog} (hround : round ≤ t.config.maxRetryRounds.toNat)
    (h : RoundsFailed t bytes round log) :
    (oneRound t req bytes round backoff).Follows (retryProtocol t req bytes) log
      (RoundEnd.Leaves (retryProtocol t req bytes) (fun _ => RoundsFailed t bytes (round + 1))
        (fun _ _ => True) (round = t.config.maxRetryRounds.toNat)) := by
  refine oneRound_rule (M := fun log' _ => log' = log)
    (backOff_rule (fun _ => rfl) fun hpos => ⟨⟨trivial, fun _ => ⟨?_, h.2⟩⟩, fun _ _ => ?_⟩) ?_
  · intro hnone
    have hlen := h.1
    rw [hnone] at hlen
    exact absurd hlen.symm (Nat.ne_of_gt hpos)
  · split
    · exact rfl
    · exact ⟨rfl, nofun⟩
  · rintro log' backoff' rfl
    refine ⟨⟨⟨by rw [h.1]; exact hround, h.2⟩, nofun⟩, fun tick _ => ?_⟩
    have hbegins : BeforeAttempts t bytes (t.endpointOfTick tick) log'.rounds
        (List.range t.numEndpoints) none (log'.next t .fetchAddCounter tick) := by
      refine ⟨[], [], RoundSoFar.begins log', rfl, nofun, rfl, Or.inr fun hnone => ?_⟩
      have hperm := eligibleRotation_perm t bytes (t.endpointOfTick tick)
      rw [show eligibleRotation t bytes _ = [] from hnone] at hperm
      exact hacc hperm.nil_eq.symm
    have hattempts : (attemptLoop t req bytes (t.endpointOfTick tick) (List.range t.numEndpoints)
        none).Follows (retryProtocol t req bytes) (log'.next t .fetchAddCounter tick)
          (RoundOutcome t bytes log'.rounds) :=
      (attemptLoop_inRound t req bytes _ _ none).stricter
        (fun _ _ => retryProtocol_inRound t req bytes) rfl rfl
        (attemptLoop_follows t req bytes hbegins)
    refine hattempts.mono fun log'' outcome hout => ?_
    cases outcome with
    | returned result => exact trivial
    | exhausted lastErr =>
      obtain ⟨r, hr, hrf, rfl⟩ := hout
      obtain ⟨err, herr⟩ := hrf.attempted
      refine ⟨fun _ => ?_, fun _ => ⟨?_, ?_⟩⟩
      · rw [herr]
        exact trivial
      · rw [hr, List.length_cons, h.1]
      · rw [hr]
        exact List.forall_mem_cons.mpr ⟨hrf, h.2⟩

/-- **Every call with an eligible endpoint** sleeps between its rounds only when they failed. -/
theorem call_retries (wire : RequestPacket → Option Nat)
    (hacc : eligible t (requestBytes wire req) ≠ []) :
    (call wire t req).Follows (retryProtocol t req (requestBytes wire req)) .empty
      fun _ _ => True :=
  call_rule (I := fun round _ => RoundsFailed t _ round)
    (fun _ backoff _ hround h => oneRound_retries t req _ hacc backoff hround h) ⟨rfl, nofun⟩
    trivial

end Retries

/-! ## 2. A working endpoint -/

section Calls

variable {wire : RequestPacket → Option Nat} {t : LoadBalancedTransport} {req : RequestPacket}
  {tr : Trace CallSig} {q : Program CallSig RpcResult} {idx : Nat}

/-- **The endpoint works for the call**: it accepts the request, and so far it cost no delay and
    gave only final replies. -/
structure WorksFor (t : LoadBalancedTransport) (bytes : Nat) (tr : Trace CallSig) (idx : Nat) :
    Prop where
  accepts : idx ∈ eligible t bytes
  undelayed : ∀ delay, (⟨.preRequestDelay idx, delay⟩ : Event CallSig) ∈ tr →
    delay = Duration.zero
  final : ∀ reply, (idx, reply) ∈ innerCalls tr → FinalReply reply

/-- It did so from the start. -/
theorem WorksFor.before {bytes : Nat} {tr₁ tr₂ : Trace CallSig}
    (h : WorksFor t bytes (tr₁ ++ tr₂) idx) : WorksFor t bytes tr₁ idx := by
  refine ⟨h.accepts, fun delay hmem => h.undelayed delay (List.mem_append_left _ hmem),
    fun reply hmem => h.final reply ?_⟩
  unfold innerCalls at hmem ⊢
  rw [List.filterMap_append]
  exact List.mem_append_left _ hmem

/-- A skipped endpoint has had a positive reading. -/
theorem skip_read (hs : Steps (call wire t req) tr q) {readings : List (Nat × Duration)}
    (hskip : .skipped idx readings ∈ (callLog t tr).visits) :
    ∃ delay, (⟨.preRequestDelay idx, delay⟩ : Event CallSig) ∈ tr ∧ delay ≠ Duration.zero := by
  have hrecorded : idx ∈ recordedSkips tr := by
    rw [recordedSkips_eq t tr]
    obtain ⟨r, hr, hv⟩ := mem_visits.mp hskip
    exact List.mem_flatMap.mpr ⟨r, List.mem_reverse.mpr hr,
      List.mem_filterMap.mpr ⟨_, hv, rfl⟩⟩
  obtain ⟨⟨e, r⟩, hev, he⟩ := List.mem_filterMap.mp hrecorded
  cases e with
  | recordSkip i =>
    cases he
    obtain ⟨tr₁, tr₂, rfl⟩ := List.append_of_mem hev
    have hdue := (call_records t req wire).performed hs
      (Protocol.admitted_of_free (fun _ _ _ => trivial) _ _)
    obtain ⟨delay, hread, hpos⟩ := skipped_read t tr₁ (due_mem_all t tr₁ hdue.symm)
    exact ⟨delay, List.mem_append_left _ hread, hpos⟩
  | _ => cases he

/-- **No round fails** of a call with a working endpoint: it has its turn in every round that
    comes to its end. -/
theorem none_failed (hs : Steps (call wire t req) tr q)
    (hworks : WorksFor t (requestBytes wire req) tr idx) {r : RoundLog}
    (hr : r ∈ (callLog t tr).rounds) : ¬ r.Failed t (requestBytes wire req) := by
  intro hf
  have hturn : idx ∈ r.visits.map Visit.idx := by
    rw [hf.order]
    exact (eligibleRotation_perm t _ r.start).symm.subset hworks.accepts
  obtain ⟨v, hv, rfl⟩ := List.mem_map.mp hturn
  cases v with
  | skipped i readings =>
    obtain ⟨delay, hread, hpos⟩ := skip_read hs (mem_visits.mpr ⟨r, hr, hv⟩)
    exact hpos (hworks.undelayed delay hread)
  | gateClosed i => exact hf.failed _ hv
  | attempted i reply =>
    refine hf.failed _ hv (hworks.final reply ?_)
    rw [innerCalls_eq t]
    exact List.mem_flatMap.mpr ⟨r, List.mem_reverse.mpr hr, mem_attempts.mpr hv⟩

/-- **It makes one round**, -/
theorem rounds_le_one (hs : Steps (call wire t req) tr q)
    (hworks : WorksFor t (requestBytes wire req) tr idx) :
    (callLog t tr).rounds.length ≤ 1 := by
  have hpast := (callLog_ok hs).past
  have hnone := fun r => none_failed hs hworks (r := r)
  cases hrounds : (callLog t tr).rounds with
  | nil => exact Nat.zero_le 1
  | cons r past =>
    rw [hrounds] at hpast hnone
    cases past with
    | nil => exact Nat.le_refl 1
    | cons r' past =>
      exact absurd (hpast r' List.mem_cons_self)
        (hnone r' (List.mem_cons_of_mem _ List.mem_cons_self))

/-- sleeps before no other, -/
theorem never_backs_off (hs : Steps (call wire t req) tr q)
    (hworks : WorksFor t (requestBytes wire req) tr idx) : backoffSleeps tr = [] := by
  refine backoffSleeps_eq_nil fun ev hev => ?_
  obtain ⟨tr₁, tr₂, rfl⟩ := List.append_of_mem hev
  obtain ⟨q₁, hs₁, _⟩ := steps_append_iff.mp hs
  have hperformed := (call_retries t req wire (List.ne_nil_of_mem hworks.accepts)).performed hs
    (Protocol.admitted_of_free (fun _ _ _ => trivial) _ _)
  refine Option.not_isSome_iff_eq_none.mp fun hsleep => ?_
  obtain ⟨hsome, hfailed⟩ := hperformed.2 hsleep
  obtain ⟨r, hr⟩ := List.exists_mem_of_ne_nil _ hsome
  exact none_failed hs₁ hworks.before hr (hfailed r hr)

/-- and returns a final reply, if no gate is closed. -/
theorem returns_final {result : RpcResult} (hs : Runs (call wire t req) tr result)
    (hworks : WorksFor t (requestBytes wire req) tr idx) :
    (∃ other, (other, result) ∈ innerCalls tr ∧ FinalReply result) ∨
      ∃ gate, (⟨.acquireOwned gate, .closed⟩ : Event CallSig) ∈ tr := by
  obtain ⟨r, past, hr, ⟨visits, v, hv, ⟨other, rfl, hfinal⟩ | ⟨⟨gate, rfl⟩, _⟩⟩ | ⟨hf, _⟩⟩ :=
    call_outcome_of_runs (List.ne_nil_of_mem hworks.accepts) hs
  · refine Or.inl ⟨other, ?_, hfinal⟩
    rw [innerCalls_eq t]
    exact List.mem_flatMap.mpr ⟨r, List.mem_reverse.mpr (hr ▸ List.mem_cons_self),
      mem_attempts.mpr (hv ▸ by simp)⟩
  · exact Or.inr ⟨gate, gateClosed_mem_callLog.mp
      (mem_visits.mpr ⟨r, hr ▸ List.mem_cons_self, hv ▸ by simp⟩)⟩
  · exact absurd hf (none_failed hs hworks (hr ▸ List.mem_cons_self))

end Calls

/-! ## 3. Reachable pools -/

/-- **The call is served at once.** -/
structure BalancedCall.ServedAtOnce (c : BalancedCall) : Prop where
  /-- It makes one round, -/
  rounds : (callLog c.transport c.trace).rounds.length ≤ 1
  /-- sleeps before no other, -/
  awake : backoffSleeps c.trace = []
  /-- and returns a final reply of an endpoint, if no gate is closed. -/
  result : ∀ result, c.stage = .between (.ret result) →
    (∃ idx, (idx, result) ∈ innerCalls c.trace ∧ FinalReply result) ∨
      ∃ gate, (⟨.acquireOwned gate, .closed⟩ : Event CallSig) ∈ c.trace

/-- **ONE WORKING ENDPOINT SUFFICES.** In every reachable pool: a call that may use an endpoint of a
    domain without a rate limit, which gave it only final replies, is served at once. -/
theorem working_endpoint_suffices {wire : RequestPacket → Option Nat}
    {configOf : DomainRef → ThrottleConfig} {transports : LoadBalancedTransport → Prop}
    {q : Pool DomainStates TrafficTask} {ref : DomainRef} {c : BalancedCall} {idx : Nat}
    (hq : (trafficSystem wire configOf transports).Reachable TrafficStart q)
    (hnone : q.total (TrafficTask.called .rateLimitReply ref) = 0) (hc : .call c ∈ q.tasks)
    (href : c.transport.endpointThrottles[idx]? = some ref)
    (haccepts : idx ∈ eligible c.transport (requestBytes wire c.req))
    (hfinal : ∀ reply, (idx, reply) ∈ innerCalls c.trace → FinalReply reply) :
    c.ServedAtOnce := by
  have hok : c.Ok wire transports := traffic_ok hq _ hc
  have hcalm : c.CalmAt ref := (calmAt_of_unlimited hq hnone).2 _ hc
  have hworks : WorksFor c.transport (requestBytes wire c.req) c.trace idx :=
    ⟨haccepts, fun delay hmem => hcalm.had idx delay hmem href, hfinal⟩
  obtain ⟨rest, hs⟩ := call_traced hok
  exact ⟨rounds_le_one hs hworks, never_backs_off hs hworks,
    fun result hstage => returns_final (hok.between hstage) hworks⟩

/-- Endpoint 0 is unavailable, endpoint 1 of another domain serves the call. -/
theorem working_endpoint_suffices_pair : ∃ q c, (trafficSystem hundredBytes (fun _ => .default)
    (fun t => t = impatientPair)).Reachable TrafficStart q ∧ .call c ∈ q.tasks ∧
      (0, .error serviceUnavailable) ∈ innerCalls c.trace ∧
      c.stage = .between (.ret (.ok (.batch []))) ∧ c.ServedAtOnce := by
  have h₀ : (trafficSystem hundredBytes (fun _ => .default)
      (fun t => t = impatientPair)).Reachable TrafficStart ⟨fun _ => .fresh, []⟩ :=
    .start ⟨rfl, fun _ => rfl⟩
  have h₁ := h₀.step (.arrive ⟨rfl, Or.inl ⟨impatientPair, smallRequest, rfl, rfl⟩⟩)
  have h₂ := h₁.step (.at (i := 0) rfl ⟨.call (.effect (0 : UInt64) rfl rfl), rfl⟩)
  -- the reading of endpoint 0, and that of endpoint 1 in the look-ahead
  have h₃ := h₂.step (.at (i := 0) rfl ⟨.call (.start rfl rfl rfl), rfl⟩)
  have h₄ := h₃.step (.at (i := 0) rfl ⟨.call (.atomic rfl (.atomic 1 rfl rfl)), rfl⟩)
  have h₅ := h₄.step (.at (i := 0) rfl ⟨.call (.finish rfl rfl), rfl⟩)
  have h₆ := h₅.step (.at (i := 0) rfl ⟨.call (.start rfl rfl rfl), rfl⟩)
  have h₇ := h₆.step (.at (i := 0) rfl ⟨.call (.atomic rfl (.atomic 1 rfl rfl)), rfl⟩)
  have h₈ := h₇.step (.at (i := 0) rfl ⟨.call (.finish rfl rfl), rfl⟩)
  have h₉ := h₈.step (.at (i := 0) rfl
    ⟨.call (.effect (Except.error serviceUnavailable : RpcResult) rfl rfl), rfl⟩)
  have h₁₀ := h₉.step (.at (i := 0) rfl ⟨.call (.start rfl rfl rfl), rfl⟩)
  have h₁₁ := h₁₀.step (.at (i := 0) rfl ⟨.call (.atomic rfl (.atomic 1 rfl rfl)), rfl⟩)
  have h₁₂ := h₁₁.step (.at (i := 0) rfl ⟨.call (.finish rfl rfl), rfl⟩)
  have h₁₃ := h₁₂.step (.at (i := 0) rfl
    ⟨.call (.effect (Except.ok (.batch []) : RpcResult) rfl rfl), rfl⟩)
  have h₁₄ := h₁₃.step (.at (i := 0) rfl ⟨.call (.start rfl rfl rfl), rfl⟩)
  have h₁₅ := h₁₄.step (.at (i := 0) rfl ⟨.call (.atomic rfl (.atomic 1 rfl rfl)), rfl⟩)
  have h₁₆ := h₁₅.step (.at (i := 0) rfl ⟨.call (.atomic rfl (.atomic 1 rfl rfl)), rfl⟩)
  have h₁₇ := h₁₆.step (.at (i := 0) rfl ⟨.call (.finish rfl rfl), rfl⟩)
  refine ⟨_, _, h₁₇, List.mem_cons_self, List.mem_cons_self, rfl, ?_⟩
  refine working_endpoint_suffices h₁₇ (by rfl) List.mem_cons_self
    (show impatientPair.endpointThrottles[1]? = some 1 from rfl) (by decide) fun reply hmem => ?_
  rcases List.mem_cons.mp hmem with h | h
  · cases h
  · cases List.mem_singleton.mp h
    exact trivial

end TransportBalancer
