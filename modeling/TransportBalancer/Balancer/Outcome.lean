/-
  File:      TransportBalancer/Balancer/Outcome.lean
  Subject:   WHAT A BALANCED CALL MAKES OF ITS ENDPOINTS, for any throttle readings, gate answers
             and endpoint outcomes, read off its log of rounds.

  * **`every_round_attempts`** -- every round that ends has attempted an eligible endpoint, so the
    two internal panics are never reached;
  * **`call_outcome`** -- which inner calls a call makes, how many, and what it returns;
  * **`retryable_failure_accounts_for_all`** -- after a retryable failure every eligible endpoint
    was attempted, or was skipped for a reason in every round;
  * `pairTransport`, `masked_endpoint_never_attempted` -- the second alternative is a real one: an
    alternative that keeps failing hides a throttled endpoint for the whole call.
-/
import Mathlib.Algebra.Order.BigOperators.Group.List
import Mathlib.Algebra.Order.Group.Nat
import TransportBalancer.Balancer.Rounds

namespace TransportBalancer

open Interaction

section Logs

variable {t : LoadBalancedTransport} {bytes : Nat}

/-! ## 1. Reading the log -/

theorem CallLog.Ok.ordered {log : CallLog} (h : log.Ok t bytes) {r : RoundLog}
    (hr : r ∈ log.rounds) : r.Ordered t bytes := by
  obtain ⟨rounds, readings⟩ := log
  cases rounds with
  | nil => exact absurd hr List.not_mem_nil
  | cons r' past =>
    rcases List.mem_cons.mp hr with rfl | hr
    · exact h.newest r rfl
    · exact (h.past r hr).running.ordered

theorem CallLog.Ok.order {log : CallLog} (h : log.Ok t bytes) {r : RoundLog}
    (hr : r ∈ log.rounds) : r.visits.map Visit.idx <+: eligibleRotation t bytes r.start :=
  (h.ordered hr).order

theorem attempts_sublist (r : RoundLog) :
    (r.attempts.map Prod.fst).Sublist (r.visits.map Visit.idx) := by
  unfold RoundLog.attempts
  induction r.visits with
  | nil => exact .slnil
  | cons v visits ih =>
    cases v with
    | attempted idx reply => exact ih.cons_cons idx
    | skipped idx | gateClosed idx => exact ih.cons idx

theorem mem_attempts {r : RoundLog} {idx : Nat} {reply : RpcResult} :
    (idx, reply) ∈ r.attempts ↔ .attempted idx reply ∈ r.visits := by
  unfold RoundLog.attempts
  rw [List.mem_filterMap]
  constructor
  · intro h
    obtain ⟨v, hv, h⟩ := h
    cases v with
    | attempted => cases h; exact hv
    | skipped | gateClosed => cases h
  · exact fun h => ⟨_, h, rfl⟩

theorem mem_visits {log : CallLog} {v : Visit} :
    v ∈ log.visits ↔ ∃ r ∈ log.rounds, v ∈ r.visits := by
  simp [CallLog.visits]

/-- A visit goes to an endpoint that accepts the request. -/
theorem CallLog.Ok.visit_eligible {log : CallLog} (h : log.Ok t bytes) {r : RoundLog}
    (hr : r ∈ log.rounds) {v : Visit} (hv : v ∈ r.visits) : v.idx ∈ eligible t bytes :=
  (eligibleRotation_perm t bytes r.start).subset
    ((h.order hr).subset (List.mem_map_of_mem hv))

/-- The last attempt of a round with a last error. -/
theorem attempts_of_lastError {r : RoundLog} {err : TransportError}
    (h : lastError r.visits = some err) : ∃ init idx, r.attempts = init ++ [(idx, .error err)] := by
  obtain ⟨⟨idx, reply⟩, hlast, hreply⟩ := Option.bind_eq_some_iff.mp h
  obtain ⟨init, hinit⟩ := List.getLast?_eq_some_iff.mp hlast
  cases reply with
  | ok => cases hreply
  | error err' =>
    cases hreply
    exact ⟨init, idx, hinit⟩

theorem RoundLog.Failed.attempts {r : RoundLog} (h : r.Failed t bytes) :
    ∀ call ∈ r.attempts, ¬ FinalReply call.2 :=
  fun _ hc => h.failed _ (mem_attempts.mp hc)

/-- **Only the last inner call can have a final reply.** -/
theorem CallLog.Ok.split {log : CallLog} (h : log.Ok t bytes) :
    ∃ before last, log.rounds.reverse.flatMap RoundLog.attempts = before ++ last ∧
      last.length ≤ 1 ∧ ∀ call ∈ before, ¬ FinalReply call.2 := by
  obtain ⟨rounds, readings⟩ := log
  cases rounds with
  | nil => exact ⟨[], [], rfl, Nat.zero_le _, nofun⟩
  | cons r past =>
    have hpast : ∀ call ∈ past.reverse.flatMap RoundLog.attempts, ¬ FinalReply call.2 := by
      intro call hc
      obtain ⟨r', hr', hc⟩ := List.mem_flatMap.mp hc
      exact (h.past r' (List.mem_reverse.mp hr')).attempts call hc
    rcases List.eq_nil_or_concat r.visits with hnil | ⟨init, v, hv⟩
    · refine ⟨past.reverse.flatMap RoundLog.attempts, [], ?_, Nat.zero_le _, hpast⟩
      simp [RoundLog.attempts, hnil]
    · rw [List.concat_eq_append] at hv
      refine ⟨past.reverse.flatMap RoundLog.attempts ++ init.filterMap Visit.attempt?,
        [v].filterMap Visit.attempt?, ?_, List.length_filterMap_le _ _, ?_⟩
      · simp [RoundLog.attempts, hv]
      · refine List.forall_mem_append.mpr ⟨hpast, fun call hc => ?_⟩
        have hfailed := (h.newest r rfl).failed
        rw [hv, List.dropLast_concat] at hfailed
        exact hfailed _ (mem_attempts (r := ⟨r.start, init⟩).mp hc)

/-- A round calls no endpoint twice, so a log holds few calls. -/
theorem CallLog.Ok.attempts_le {log : CallLog} (h : log.Ok t bytes) :
    (log.rounds.reverse.flatMap RoundLog.attempts).length ≤
      (eligible t bytes).length * (1 + t.config.maxRetryRounds.toNat) := by
  have hround : ∀ r ∈ log.rounds.reverse, r.attempts.length ≤ (eligible t bytes).length := by
    intro r hr
    have h1 := (attempts_sublist r).length_le
    have h2 := (h.order (List.mem_reverse.mp hr)).length_le
    rw [(eligibleRotation_perm t bytes r.start).length_eq] at h2
    simp only [List.length_map] at h1 h2
    omega
  have hlen : log.rounds.reverse.length ≤ 1 + t.config.maxRetryRounds.toNat := by
    rw [List.length_reverse]
    exact (Nat.add_comm _ 1) ▸ h.bounded
  calc (log.rounds.reverse.flatMap RoundLog.attempts).length
      = (log.rounds.reverse.map fun r => r.attempts.length).sum := List.length_flatMap
    _ ≤ log.rounds.reverse.length * (eligible t bytes).length := by
      rw [← List.length_map fun r : RoundLog => r.attempts.length]
      refine List.sum_le_card_nsmul _ _ fun n hn => ?_
      obtain ⟨r, hr, rfl⟩ := List.mem_map.mp hn
      exact hround r hr
    _ ≤ (1 + t.config.maxRetryRounds.toNat) * (eligible t bytes).length :=
      Nat.mul_le_mul_right _ hlen
    _ = _ := Nat.mul_comm _ _

end Logs

/-! ## 2. The log of a call -/

section Calls

variable {wire : RequestPacket → Option Nat} {t : LoadBalancedTransport} {req : RequestPacket}
  {tr : Trace CallSig} {q : Program CallSig RpcResult}

theorem callProtocol_admitted {bytes : Nat} (tr : Trace CallSig) (log : CallLog) :
    (callProtocol t bytes req).Admitted log tr :=
  Protocol.admitted_of_free (fun _ _ _ => trivial) tr log

theorem steps_of_not_accepted (hacc : eligible t (requestBytes wire req) = [])
    (hs : Steps (call wire t req) tr q) : tr = [] ∧ q = .ret (.error sizeLimitError) := by
  rw [call_eq_of_not_accepted t req wire hacc] at hs
  exact steps_ret.mp hs

/-- **The log is in order at every point of a call.** -/
theorem callLog_ok (hs : Steps (call wire t req) tr q) :
    (callLog t tr).Ok t (requestBytes wire req) := by
  by_cases hacc : eligible t (requestBytes wire req) = []
  · obtain ⟨rfl, _⟩ := steps_of_not_accepted hacc hs
    exact ok_empty
  · exact (call_follows t req wire hacc).invariant (fun log e r h he _ => ok_next log e r h he) hs
      (callProtocol_admitted tr _) ok_empty

/-- Where an effect came in a call, the protocol allowed it. -/
theorem call_performed {tr' : Trace CallSig} {ev : Event CallSig}
    (hs : Steps (call wire t req) (tr ++ ev :: tr') q) :
    (callProtocol t (requestBytes wire req) req).ok (callLog t tr) ev.op := by
  by_cases hacc : eligible t (requestBytes wire req) = []
  · exact absurd (steps_of_not_accepted hacc hs).1 (by simp)
  · exact (call_follows t req wire hacc).performed hs (callProtocol_admitted tr _)

/-- **After a final reply there is no further inner call.** -/
theorem final_only_last (hs : Steps (call wire t req) tr q) :
    ∀ call ∈ (innerCalls tr).dropLast, ¬ FinalReply call.2 := by
  obtain ⟨before, last, hsplit, hlen, hbefore⟩ := (callLog_ok hs).split
  rw [innerCalls_eq t tr, hsplit]
  intro call hmem
  cases last with
  | nil =>
    rw [List.append_nil] at hmem
    exact hbefore call (List.dropLast_subset _ hmem)
  | cons c rest =>
    obtain rfl : rest = [] :=
      List.length_eq_zero_iff.mp (Nat.le_zero.mp (Nat.le_of_succ_le_succ hlen))
    rw [List.dropLast_concat] at hmem
    exact hbefore call hmem

/-- How a call that returns ends. -/
theorem call_outcome_of_runs {result : RpcResult} (hacc : eligible t (requestBytes wire req) ≠ [])
    (hs : Runs (call wire t req) tr result) :
    CallOutcome t (requestBytes wire req) (callLog t tr) result :=
  (call_follows t req wire hacc).runs hs (callProtocol_admitted tr _)

/-- The only panic of a call is the overflow of the backoff doubling. -/
theorem call_panics_only_on_overflow {msg : String} {k : Empty → Program CallSig RpcResult}
    (hs : Steps (call wire t req) tr (.op (.panic msg) k)) :
    msg = "overflow when multiplying duration by scalar" := by
  by_cases hacc : eligible t (requestBytes wire req) = []
  · cases (steps_of_not_accepted hacc hs).2
  · exact (call_follows t req wire hacc).head hs (callProtocol_admitted tr _)

/-! ## 3. A run with a masked endpoint -/

/-- Two endpoints of different providers with the default weight, no size cap and no gate. -/
def pairBuilder : LoadBalancedTransportBuilder :=
  { builderWithEndpoints [.new ⟨some "eth.one.com", "http://eth.one.com/"⟩ .default,
      .new ⟨some "eth.two.com", "http://eth.two.com/"⟩ .default] with
    config := { BalancerConfig.default with maxRetryRounds := 0 } }

/-- The transport they make over fresh registries. -/
def pairTransport : LoadBalancedTransport where
  endpoints := [⟨0, ⟨some "eth.one.com", "http://eth.one.com/"⟩⟩,
    ⟨1, ⟨some "eth.two.com", "http://eth.two.com/"⟩⟩]
  endpointThrottles := [0, 1]
  endpointRequestCaps := [none, none]
  endpointInFlight := [none, none]
  cumulativeWeights := [100, 200]
  totalWeight := 200
  throttles_length := rfl
  caps_length := rfl
  inFlight_length := rfl
  weights_length := rfl
  caps_pos := by simp
  inFlight_pos := by simp
  increasing := by decide
  total_last := rfl
  config := { BalancerConfig.default with maxRetryRounds := 0 }
  nonempty := by simp

/-- The steps on the registries that make it. -/
def pairBuild : Trace ProcessSig :=
  [⟨.readClient "one.com", none⟩, ⟨.insertClient "one.com", (0 : Nat)⟩,
    ⟨.readDomain "one.com", none⟩, ⟨.insertDomain "one.com", (0 : Nat)⟩,
    ⟨.readClient "two.com", none⟩, ⟨.insertClient "two.com", (1 : Nat)⟩,
    ⟨.readDomain "two.com", none⟩, ⟨.insertDomain "two.com", (1 : Nat)⟩]

theorem pairBuild_runs : Runs (build pairBuilder) pairBuild pairTransport :=
  .step _ _ _ (.step _ _ _ (.step _ _ _ (.step _ _ _ (.step _ _ _ (.step _ _ _
    (.step _ _ _ (.step _ _ _ (.refl _))))))))

theorem pairTransport_built : pairTransport.Built := ⟨pairBuilder, pairBuild, pairBuild_runs⟩

/-- A request of 100 bytes. -/
def smallRequest : RequestPacket := .single ⟨.number 1, "eth_blockNumber"⟩

def hundredBytes (_ : RequestPacket) : Option Nat := some 100

/-- The error an unavailable endpoint answers. -/
def serviceUnavailable : TransportError := .transport (.httpError 503 "")

/-- The rotation starts at endpoint 0, whose domain is at its highest level (two seconds); endpoint
    1 is not throttled and unavailable. -/
def maskedRun : Trace CallSig :=
  [⟨.fetchAddCounter, (0 : UInt64)⟩, ⟨.preRequestDelay 0, Duration.fromMillis 2000⟩,
    ⟨.preRequestDelay 1, Duration.zero⟩, ⟨.recordSkip 0, ()⟩,
    ⟨.preRequestDelay 1, Duration.zero⟩, ⟨.send 1 smallRequest, .error serviceUnavailable⟩]

theorem maskedRun_runs : Runs (call hundredBytes pairTransport smallRequest) maskedRun
    (.error serviceUnavailable) :=
  .step _ _ _ (.step _ _ _ (.step _ _ _ (.step _ _ _ (.step _ _ _ (.step _ _ _ (.refl _))))))

/-! ## 4. Every round attempts an endpoint -/

theorem RoundLog.Failed.attempts_some {bytes : Nat} {r : RoundLog} (h : r.Failed t bytes) :
    ∃ idx reply, (idx, reply) ∈ r.attempts ∧ idx ∈ eligible t bytes := by
  obtain ⟨err, herr⟩ := h.attempted
  obtain ⟨init, idx, hatt⟩ := attempts_of_lastError herr
  have hmem : (idx, .error err) ∈ r.attempts := hatt ▸ by simp
  exact ⟨idx, _, hmem, (eligibleRotation_perm t bytes r.start).subset
    (h.order ▸ List.mem_map_of_mem (mem_attempts.mp hmem))⟩

/-- **THE FAILOVER LOOP ALWAYS HAS AN ERROR TO RETURN.** For a request some endpoint accepts, under
    any answers of the environment: neither internal panic is ever due; every round that has ended
    attempted an eligible endpoint; and so did the last round of a call that returns (or the
    gate it was waiting at was closed). -/
theorem every_round_attempts
    (hacc : ∃ idx < t.numEndpoints, t.endpointAcceptsRequest idx (requestBytes wire req) = true)
    (hs : Steps (call wire t req) tr q) :
    (∀ msg k, q = .op (.panic msg) k → msg ≠ "at least one endpoint was tried" ∧
      msg ≠ "internal error: entered unreachable code: retry loop always returns") ∧
    (∀ r ∈ (callLog t tr).rounds.tail,
      ∃ idx reply, (idx, reply) ∈ r.attempts ∧ idx ∈ eligible t (requestBytes wire req)) ∧
    (∀ result, q = .ret result → ∃ r past, (callLog t tr).rounds = r :: past ∧
      ((∃ idx reply, (idx, reply) ∈ r.attempts ∧ idx ∈ eligible t (requestBytes wire req)) ∨
        ∃ idx, .gateClosed idx ∈ r.visits)) := by
  obtain ⟨idx, hidx, hacc⟩ := hacc
  have hne : eligible t (requestBytes wire req) ≠ [] :=
    List.ne_nil_of_mem (List.mem_filter.mpr ⟨List.mem_range.mpr hidx, hacc⟩)
  have hok := callLog_ok hs
  refine ⟨?_, fun r hr => (hok.past r hr).attempts_some, ?_⟩
  · intro msg k heq
    obtain rfl := heq
    rw [call_panics_only_on_overflow hs]
    exact ⟨by decide, by decide⟩
  · intro result heq
    obtain rfl := heq
    obtain ⟨r, past, hr, ⟨visits, v, hv, ⟨idx, rfl, _⟩ | ⟨⟨idx, rfl⟩, _⟩⟩ | ⟨hf, _⟩⟩ :=
      call_outcome_of_runs hne hs
    · have hmem : .attempted idx result ∈ r.visits := hv ▸ by simp
      exact ⟨r, past, hr, Or.inl ⟨idx, result, mem_attempts.mpr hmem,
        hok.visit_eligible (hr ▸ List.mem_cons_self) hmem⟩⟩
    · exact ⟨r, past, hr, Or.inr ⟨idx, hv ▸ by simp⟩⟩
    · exact ⟨r, past, hr, Or.inl hf.attempts_some⟩

/-- The masked run attempts endpoint 1. -/
theorem masked_round_attempts : ∃ r past, (callLog pairTransport maskedRun).rounds = r :: past ∧
    ((∃ idx reply, (idx, reply) ∈ r.attempts ∧ idx ∈ eligible pairTransport 100) ∨
      ∃ idx, .gateClosed idx ∈ r.visits) :=
  (every_round_attempts ⟨0, by decide, by decide⟩ maskedRun_runs).2.2 _ rfl

/-! ## 5. The exact outcome -/

/-- **What a call does**, at any point `q` of it with the effects `tr` behind. -/
structure ExactOutcome (t : LoadBalancedTransport) (req : RequestPacket) (bytes : Nat)
    (tr : Trace CallSig) (q : Program CallSig RpcResult) : Prop where
  /-- Every inner call carries the request itself to an endpoint that accepts it. -/
  accepted : ∀ idx req' reply, (⟨.send idx req', reply⟩ : Event CallSig) ∈ tr →
    idx ∈ eligible t bytes ∧ req' = req
  /-- The inner calls are those of the rounds, in order. -/
  grouped : innerCalls tr = (callLog t tr).rounds.reverse.flatMap RoundLog.attempts
  /-- A round goes through its endpoints in rotation order from its start. -/
  inRotation : ∀ r ∈ (callLog t tr).rounds,
    (r.attempts.map Prod.fst).Sublist (rotation t r.start)
  /-- A round calls no endpoint twice. -/
  atMostOnce : ∀ r ∈ (callLog t tr).rounds, (r.attempts.map Prod.fst).Nodup
  bounded : (innerCalls tr).length ≤
    (eligible t bytes).length * (1 + t.config.maxRetryRounds.toNat)
  /-- After a final reply there is no further inner call. -/
  finalEnds : ∀ call ∈ (innerCalls tr).dropLast, ¬ FinalReply call.2
  /-- The call fails to return only where the backoff doubling overflows. -/
  noPanic : ∀ msg k, q = .op (.panic msg) k → msg = "overflow when multiplying duration by scalar"
  /-- The result is the last reply: a final one, or the last of the last of all rounds. -/
  result : ∀ result, q = .ret result → eligible t bytes ≠ [] →
    ∃ before idx, innerCalls tr = before ++ [(idx, result)] ∧
      (FinalReply result ∨
        ((callLog t tr).rounds.length = t.config.maxRetryRounds.toNat + 1 ∧
          (∀ r ∈ (callLog t tr).rounds, r.Failed t bytes) ∧
          ∃ r ∈ (callLog t tr).rounds.head?, r.attempts.getLast? = some (idx, result)))
  /-- A request no endpoint accepts costs nothing. -/
  refused : eligible t bytes = [] → tr = [] ∧ q = .ret (.error sizeLimitError)

/-- **EXACT OUTCOME OF A CALL**, under any throttle readings and endpoint outcomes, as long as no
    gate is found closed. -/
theorem call_outcome (hopen : ∀ idx, (⟨.acquireOwned idx, .closed⟩ : Event CallSig) ∉ tr)
    (hs : Steps (call wire t req) tr q) : ExactOutcome t req (requestBytes wire req) tr q := by
  have hok := callLog_ok hs
  have hcalls := innerCalls_eq t tr
  refine ⟨fun idx req' reply hmem => ?_, hcalls, fun r hr => ?_, fun r hr => ?_, ?_, ?_, ?_, ?_, ?_⟩
  · obtain ⟨tr₁, tr₂, rfl⟩ := List.append_of_mem hmem
    obtain ⟨rfl, r, past, _, _, hnext⟩ := call_performed hs
    exact ⟨(eligibleRotation_perm t _ r.start).subset (hnext.subset (by simp)), rfl⟩
  · exact (attempts_sublist r).trans ((hok.order hr).sublist.trans List.filter_sublist)
  · exact (eligibleRotation_nodup t _ r.start).sublist
      ((attempts_sublist r).trans (hok.order hr).sublist)
  · rw [hcalls]
    exact hok.attempts_le
  · exact final_only_last hs
  · intro msg k heq
    obtain rfl := heq
    exact call_panics_only_on_overflow hs
  · intro result heq hne
    obtain rfl := heq
    obtain ⟨r, past, hr, hend⟩ := call_outcome_of_runs hne hs
    have hmine : innerCalls tr = past.reverse.flatMap RoundLog.attempts ++ r.attempts := by
      rw [hcalls, hr]
      simp
    rcases hend with ⟨visits, v, hv, ⟨idx, rfl, hfinal⟩ | ⟨⟨idx, rfl⟩, _⟩⟩ |
      ⟨hf, hlen, err, herr, rfl⟩
    · refine ⟨past.reverse.flatMap RoundLog.attempts ++ visits.filterMap Visit.attempt?, idx, ?_,
        Or.inl hfinal⟩
      rw [hmine, List.append_assoc]
      congr 1
      unfold RoundLog.attempts
      rw [hv, List.filterMap_append]
      rfl
    · refine absurd (gateClosed_mem_callLog.mp (mem_visits.mpr ⟨r, hr ▸ List.mem_cons_self, ?_⟩))
        (hopen idx)
      rw [hv]
      simp
    · obtain ⟨init, idx, hatt⟩ := attempts_of_lastError herr
      refine ⟨past.reverse.flatMap RoundLog.attempts ++ init, idx, ?_, Or.inr ⟨hlen, ?_, r, ?_, ?_⟩⟩
      · rw [hmine, hatt, List.append_assoc]
      · rw [hr]
        refine List.forall_mem_cons.mpr ⟨hf, fun r' hr' => hok.past r' ?_⟩
        rw [hr]
        exact hr'
      · rw [hr]
        rfl
      · rw [hatt, List.getLast?_concat]
  · exact fun hnone => steps_of_not_accepted hnone hs

/-- The exact outcome of the masked run. -/
theorem masked_call_outcome : ExactOutcome pairTransport smallRequest 100 maskedRun
    (.ret (.error serviceUnavailable)) :=
  call_outcome (by simp [maskedRun]) maskedRun_runs

/-! ## 6. What a retryable failure says -/

/-- The error is the last thing a call heard: an endpoint answered it, and no gate was found closed
    after that. -/
def ProducedByEndpoint (tr : Trace CallSig) (err : TransportError) : Prop :=
  ∃ idx req tr₁ tr₂, tr = tr₁ ++ ⟨.send idx req, .error err⟩ :: tr₂ ∧
    ∀ idx, (⟨.acquireOwned idx, .closed⟩ : Event CallSig) ∉ tr₂

theorem not_finalReply_iff {reply : RpcResult} :
    ¬ FinalReply reply ↔ ∃ err, reply = .error err ∧ isRetryable err = true := by
  cases reply <;> simp [FinalReply]

/-- No inner call follows a closed gate. -/
theorem not_closed_before_send {tr₁ tr₂ : Trace CallSig} {idx gate : Nat} {req' : RequestPacket}
    {reply : RpcResult} (hs : Steps (call wire t req) (tr₁ ++ ⟨.send idx req', reply⟩ :: tr₂) q) :
    (⟨.acquireOwned gate, .closed⟩ : Event CallSig) ∉ tr₁ := by
  intro hclosed
  obtain ⟨_, hs₁, _⟩ := steps_append_iff.mp hs
  obtain ⟨_, r, past, hr, hfailed, _⟩ := call_performed hs
  have hpast := (callLog_ok hs₁).past
  obtain ⟨r', hr', hv⟩ := mem_visits.mp (gateClosed_mem_callLog.mpr hclosed)
  rw [hr] at hr' hpast
  rcases List.mem_cons.mp hr' with rfl | hr'
  · exact hfailed _ hv
  · exact (hpast r' hr').failed _ hv

/-- **WHAT A RETRYABLE FAILURE SAYS.** If a call returns a retryable error that an endpoint
    produced, then every inner call was answered with a retryable error, all rounds were made, and
    every eligible endpoint was attempted, or in every round it was skipped: its own reading had
    reached the threshold, and that of an eligible endpoint later in the rotation was below it. -/
theorem retryable_failure_accounts_for_all {err : TransportError}
    (hs : Runs (call wire t req) tr (.error err)) (hretry : isRetryable err = true)
    (hprod : ProducedByEndpoint tr err) :
    (∀ c ∈ innerCalls tr, ∃ e, c.2 = .error e ∧ isRetryable e = true) ∧
    (callLog t tr).rounds.length = t.config.maxRetryRounds.toNat + 1 ∧
    ∀ idx ∈ eligible t (requestBytes wire req), (∃ reply, (idx, reply) ∈ innerCalls tr) ∨
      ∀ r ∈ (callLog t tr).rounds, ∃ readings, .skipped idx readings ∈ r.visits ∧
        SkipJustified t (requestBytes wire req) r.start idx readings := by
  have hne : eligible t (requestBytes wire req) ≠ [] := by
    intro hnone
    obtain ⟨_, _, _, _, htr, _⟩ := hprod
    exact absurd (htr.symm.trans (steps_of_not_accepted hnone hs).1) (by simp)
  obtain ⟨r, past, hr, ⟨visits, v, hv, ⟨_, rfl, hfinal⟩ | ⟨⟨gate, rfl⟩, _⟩⟩ | ⟨hf, hlen, _⟩⟩ :=
    call_outcome_of_runs hne hs
  · exact absurd (show isRetryable err = false from hfinal) (by simp [hretry])
  · -- the closed gate would have to come before the reply
    exfalso
    have hclosed : (⟨.acquireOwned gate, .closed⟩ : Event CallSig) ∈ tr :=
      gateClosed_mem_callLog.mp (mem_visits.mpr ⟨r, hr ▸ List.mem_cons_self, hv ▸ by simp⟩)
    obtain ⟨idx, req', tr₁, tr₂, rfl, hopen⟩ := hprod
    rcases List.mem_append.mp hclosed with h | h
    · exact not_closed_before_send hs h
    · rcases List.mem_cons.mp h with h | h
      · cases h
      · exact hopen gate h
  · have hall : ∀ r' ∈ (callLog t tr).rounds, r'.Failed t (requestBytes wire req) := by
      have hpast := (callLog_ok hs).past
      rw [hr] at hpast ⊢
      exact List.forall_mem_cons.mpr ⟨hf, hpast⟩
    refine ⟨fun c hc => ?_, hlen, fun idx hidx => ?_⟩
    · rw [innerCalls_eq t, List.mem_flatMap] at hc
      obtain ⟨r', hr', hc⟩ := hc
      exact not_finalReply_iff.mp ((hall r' (List.mem_reverse.mp hr')).attempts c hc)
    · by_cases hcalled : ∃ reply, (idx, reply) ∈ innerCalls tr
      · exact Or.inl hcalled
      · refine Or.inr fun r' hr' => ?_
        have hmem : idx ∈ r'.visits.map Visit.idx := by
          rw [(hall r' hr').order]
          exact (eligibleRotation_perm t _ r'.start).symm.subset hidx
        obtain ⟨v, hv, rfl⟩ := List.mem_map.mp hmem
        cases v with
        | skipped i readings => exact ⟨readings, hv, (hall r' hr').failed _ hv⟩
        | gateClosed i => exact ((hall r' hr').failed _ hv).elim
        | attempted i reply =>
          refine absurd ⟨reply, ?_⟩ hcalled
          rw [innerCalls_eq t]
          exact List.mem_flatMap.mpr ⟨r', List.mem_reverse.mpr hr', mem_attempts.mpr hv⟩

end Calls

theorem masked_produced : ProducedByEndpoint maskedRun serviceUnavailable :=
  ⟨1, smallRequest, maskedRun.take 5, [], rfl, nofun⟩

/-- In the masked run endpoint 0 was skipped in every round. -/
theorem masked_failure_accounts : (∃ reply, (0, reply) ∈ innerCalls maskedRun) ∨
    ∀ r ∈ (callLog pairTransport maskedRun).rounds, ∃ readings,
      .skipped 0 readings ∈ r.visits ∧ SkipJustified pairTransport 100 r.start 0 readings :=
  (retryable_failure_accounts_for_all maskedRun_runs (by decide) masked_produced).2.2 0 (by decide)

/-- **A retryable failure with an endpoint never attempted**: the throttled endpoint 0 gives way to
    endpoint 1, whose failure the caller gets. -/
theorem masked_endpoint_never_attempted :
    ¬ ∀ (t : LoadBalancedTransport) (wire : RequestPacket → Option Nat) (req : RequestPacket)
        (tr : Trace CallSig) (err : TransportError), t.Built →
        Runs (call wire t req) tr (.error err) → isRetryable err = true →
        ProducedByEndpoint tr err → ∀ idx ∈ eligible t (requestBytes wire req),
          ∃ e, (idx, .error e) ∈ innerCalls tr ∧ isRetryable e = true := by
  intro h
  obtain ⟨e, hmem, _⟩ := h pairTransport hundredBytes smallRequest maskedRun serviceUnavailable
    pairTransport_built maskedRun_runs (by decide) masked_produced 0 (by decide)
  have hcalls : innerCalls maskedRun = [(1, .error serviceUnavailable)] := rfl
  rw [hcalls] at hmem
  exact absurd (congrArg Prod.fst (List.mem_singleton.mp hmem)) (by simp)

end TransportBalancer
