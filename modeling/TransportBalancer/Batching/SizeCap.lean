/-
  File:      TransportBalancer/Batching/SizeCap.lean
  Subject:   BATCHES AGAINST SIZE CAPS: a batching transport over a balanced one. The flush task
             groups by count only, the balanced call weighs the packet as sent, so a chunk can be
             refused whose requests would all have been accepted alone.

  * `overBalancer` -- the inner service is a run of the balanced `call`;
  * **`size_limit_only_for_batches`** -- a caller whose requests fit alone gets the local size-limit
    error for a batch with one of them only, and wrapped;
  * `requests_refused_together` -- and it does get it.
-/
import TransportBalancer.Balancer.Outcome
import TransportBalancer.Batching.Answers
import TransportBalancer.Batching.Errors

namespace TransportBalancer.Batching

open Interaction TaskPool

/-! ## 1. The balanced transport as an inner service -/

/-- What endpoints may answer to packets. -/
abbrev EndpointService := Nat → RequestPacket → RpcResult → Prop

section Balanced

variable (wire : RequestPacket → Option Nat) (t : LoadBalancedTransport)
  (endpoint : EndpointService)

/-- Some endpoint's cap accepts a packet. -/
def Accepted (packet : RequestPacket) : Prop :=
  ∃ idx < t.numEndpoints, t.endpointAcceptsRequest idx (requestBytes wire packet) = true

/-- **An inner call**: a run of the balanced `call`, with any throttle readings and gates. -/
def BalancedReply (packet : RequestPacket) (result : RpcResult) : Prop :=
  ∃ tr, Runs (TransportBalancer.call wire t packet) tr result ∧
    ∀ idx req reply, (⟨.send idx req, reply⟩ : Event CallSig) ∈ tr → endpoint idx req reply

/-- An error that was not raised by the size check: an endpoint's, or that of a closed gate. -/
def RaisedBehindCaps (packet : RequestPacket) (err : TransportError) : Prop :=
  (∃ idx, endpoint idx packet (.error err)) ∨ err = backendGone

variable {wire t endpoint} {packet : RequestPacket}

theorem eligible_of_accepted (h : Accepted wire t packet) :
    eligible t (requestBytes wire packet) ≠ [] := by
  obtain ⟨idx, hidx, haccepts⟩ := h
  exact List.ne_nil_of_mem (List.mem_filter.mpr ⟨List.mem_range.mpr hidx, haccepts⟩)

theorem eligible_of_not_accepted (h : ¬ Accepted wire t packet) :
    eligible t (requestBytes wire packet) = [] :=
  List.filter_eq_nil_iff.mpr fun idx hidx haccepts => h ⟨idx, List.mem_range.mp hidx, haccepts⟩

/-- An inner call of the balanced transport carries the packet. -/
theorem send_of_innerCall {tr : Trace CallSig} {q : Program CallSig RpcResult}
    (hs : Steps (TransportBalancer.call wire t packet) tr q) {idx : Nat} {reply : RpcResult}
    (h : (idx, reply) ∈ innerCalls tr) : (⟨.send idx packet, reply⟩ : Event CallSig) ∈ tr := by
  obtain ⟨⟨e, r⟩, hev, heq⟩ := List.mem_filterMap.mp h
  cases e with
  | send idx' req =>
    cases heq
    obtain ⟨tr₁, tr₂, rfl⟩ := List.append_of_mem hev
    obtain ⟨rfl, _⟩ := call_performed hs
    exact hev
  | _ => cases heq

/-- **Where an error of a balanced call comes from**: the size check, or behind the caps. -/
theorem balancedReply_error {err : TransportError}
    (h : BalancedReply wire t endpoint packet (.error err)) :
    (¬ Accepted wire t packet ∧ err = sizeLimitError) ∨ RaisedBehindCaps endpoint packet err := by
  obtain ⟨tr, hruns, hanswers⟩ := h
  by_cases hacc : Accepted wire t packet
  · right
    have hsent : ∀ r ∈ (callLog t tr).rounds, ∀ idx, (idx, .error err) ∈ r.attempts →
        RaisedBehindCaps endpoint packet err := fun r hr idx hcall =>
      Or.inl ⟨idx, hanswers idx packet _ (send_of_innerCall hruns (by
        rw [innerCalls_eq t]
        exact List.mem_flatMap.mpr ⟨r, List.mem_reverse.mpr hr, hcall⟩))⟩
    obtain ⟨r, past, hr, ⟨visits, v, hv, ⟨idx, rfl, _⟩ | ⟨_, hgone⟩⟩ | ⟨_, _, err', hlast, herr⟩⟩ :=
      call_outcome_of_runs (eligible_of_accepted hacc) hruns
    · exact hsent r (hr ▸ List.mem_cons_self) idx (mem_attempts.mpr (hv ▸ by simp))
    · exact Or.inr (Except.error.inj hgone)
    · cases herr
      obtain ⟨init, idx, hattempts⟩ := attempts_of_lastError hlast
      exact hsent r (hr ▸ List.mem_cons_self) idx (hattempts ▸ by simp)
  · obtain ⟨_, hret⟩ := steps_of_not_accepted (eligible_of_not_accepted hacc) hruns
    cases hret
    exact Or.inl ⟨hacc, rfl⟩

/-- A packet that no cap accepts is refused at once. -/
theorem balancedReply_refused (h : ¬ Accepted wire t packet) :
    BalancedReply wire t endpoint packet (.error sizeLimitError) := by
  refine ⟨[], ?_, nofun⟩
  rw [call_eq_of_not_accepted t packet wire (eligible_of_not_accepted h)]
  exact .refl _

end Balanced

/-- **A batching transport over a balanced one.** -/
def overBalancer (config : RunningConfig) (display : TransportError → String)
    (wire : RequestPacket → Option Nat) (t : LoadBalancedTransport) (endpoint : EndpointService) :
    BatchingTransport where
  config := config
  inner := BalancedReply wire t endpoint
  display := display

/-! ## 2. Who gets the size-limit error -/

/-- The errors that say that a size limit was exceeded: bare, and of a failed batch. -/
def SaysSizeLimit (display : TransportError → String) (err : TransportError) : Prop :=
  err = sizeLimitError ∨ err = batchError display sizeLimitError

theorem duplicateIdError_not_sizeLimit (display : TransportError → String) :
    ¬ SaysSizeLimit display duplicateIdError := by
  have hmsg : ∀ {a b : String}, customStr a = customStr b → a = b := fun h =>
    TransportErrorKind.custom.inj (TransportError.transport.inj h)
  intro h
  rcases h with h | h
  · exact absurd (hmsg h) (by decide)
  · have hfirst : "duplicate request ID in batch".toList.head? =
        ("batch request failed: " ++ display sizeLimitError).toList.head? :=
      congrArg (fun s : String => s.toList.head?) (hmsg h)
    have hkept : "batch request failed: ".toList.head? = some 'b' := by decide
    rw [String.toList_append, List.head?_append, hkept, Option.some_or] at hfirst
    exact absurd hfirst (by decide)

section Callers

variable {config : RunningConfig} {display : TransportError → String}
  {wire : RequestPacket → Option Nat} {t : LoadBalancedTransport} {endpoint : EndpointService}
  {p : Pool BatchingShared BatchTask}

/-- A packet sent for a request: some of the queued requests, not more than fit a batch. -/
structure SentFor (config : RunningConfig) (s : BatchingShared) (request : SerializedRequest)
    (sent : RequestPacket) : Prop where
  made : sent ∈ s.calls
  carries : request ∈ sent.requests
  queued : sent.requests ⊆ requestsOf s.entries
  few : sent.requests.length ≤ config.maxBatchSize

/-- **ONLY BATCHES ARE REFUSED.** If every request of a caller, sent alone, is accepted by some
    endpoint's cap, and the caller returns an error that says that a size limit was exceeded, then
    the error is that of a batch with one of its requests that no cap accepts as a whole, unless
    it was raised behind the caps. -/
theorem size_limit_only_for_batches
    (hr : (batchSystem (overBalancer config display wire t endpoint)).Reachable
      (BatchStart (overBalancer config display wire t endpoint)) p)
    {task : BatchTask} (htask : task ∈ p.tasks) {packet : RequestPacket} {receivers : List Channel}
    (hkind : task.kind = .caller packet receivers)
    (hfits : ∀ request ∈ packet.requests, Accepted wire t (.single request))
    {err : TransportError} (hrest : task.rest = .ret (.returned (.error err)))
    (hlimit : SaysSizeLimit display err) :
    ∃ request ∈ packet.requests, ∃ sent, SentFor config p.shared request sent ∧
      (((∃ requests, sent = .batch requests) ∧ ¬ Accepted wire t sent ∧
          err = batchError display sizeLimitError) ∨
        ∃ cause, RaisedBehindCaps endpoint sent cause ∧
          (err = cause ∨ err = batchError display cause)) := by
  obtain ⟨request, hrequest, hexplained⟩ := caller_error hr htask hkind hrest
  refine ⟨request, hrequest, ?_⟩
  rcases hexplained with rfl | hfailed | ⟨requests, cause, hfailed, hmem, rfl⟩
  · exact absurd hlimit (duplicateIdError_not_sizeLimit display)
  · -- sent alone, it was accepted
    refine ⟨.single request, ⟨hfailed.made, List.mem_singleton_self request, hfailed.queued,
      hfailed.few⟩, Or.inr ⟨err, ?_, Or.inl rfl⟩⟩
    exact (balancedReply_error hfailed.failed).resolve_left fun h => h.1 (hfits request hrequest)
  · refine ⟨.batch requests, ⟨hfailed.made, hmem, hfailed.queued, hfailed.few⟩, ?_⟩
    rcases balancedReply_error hfailed.failed with ⟨hrefused, rfl⟩ | hbehind
    · exact Or.inl ⟨⟨requests, rfl⟩, hrefused, rfl⟩
    · exact Or.inr ⟨cause, hbehind, Or.inr rfl⟩

end Callers

/-! ## 3. Two requests that fit alone but not together -/

/-- The length of a packet as JSON: a batch is its requests with commas, in brackets. -/
def jsonBytes : RequestPacket → Option Nat
  | .single r => some r.request.utf8ByteSize
  | .batch rs => some ((rs.map fun r => r.request.utf8ByteSize).sum + (rs.length - 1) + 2)

/-- Two endpoints that take ten bytes each. -/
def cappedTransport : LoadBalancedTransport :=
  { pairTransport with
    endpointRequestCaps := [some 10, some 10]
    caps_length := rfl
    caps_pos := fun limit h => by
      rcases List.mem_pair.mp h with h | h
      all_goals
        cases h
        exact Nat.succ_pos 9 }

theorem cappedTransport_built : cappedTransport.Built := by
  refine ⟨{ pairBuilder with
    endpoints := pairBuilder.endpoints.map fun endpoint =>
      { endpoint with maxRequestBytes := some 10 } }, [⟨.readClient "one.com", none⟩,
    ⟨.insertClient "one.com", (0 : Nat)⟩, ⟨.readDomain "one.com", none⟩,
    ⟨.insertDomain "one.com", (0 : Nat)⟩, ⟨.readClient "two.com", none⟩,
    ⟨.insertClient "two.com", (1 : Nat)⟩, ⟨.readDomain "two.com", none⟩,
    ⟨.insertDomain "two.com", (1 : Nat)⟩], ?_⟩
  exact .step _ _ _ (.step _ _ _ (.step _ _ _ (.step _ _ _ (.step _ _ _ (.step _ _ _
    (.step _ _ _ (.step _ _ _ (.refl _))))))))

/-- The text of a custom error. -/
def customText : TransportError → String
  | .transport (.custom msg) => msg
  | _ => ""

/-- The default configuration over these endpoints, which answer no errors. -/
def cappedBatching : BatchingTransport :=
  overBalancer .default customText jsonBytes cappedTransport
    fun _ _ reply => ∃ resp, reply = .ok resp

/-- Two requests of eight bytes. -/
def firstRequest : SerializedRequest := ⟨.number 1, "\x7b\"id\":1\x7d"⟩

def secondRequest : SerializedRequest := ⟨.number 2, "\x7b\"id\":2\x7d"⟩

theorem firstRequest_accepted : Accepted jsonBytes cappedTransport (.single firstRequest) :=
  ⟨0, by decide, by decide⟩

theorem secondBoth_refused :
    ¬ Accepted jsonBytes cappedTransport (.batch [secondRequest, firstRequest]) := by
  unfold Accepted
  decide

/-- The answer to the one packet that is sent. -/
def refusal (packet : RequestPacket) : Option RpcResult :=
  if packet = .batch [secondRequest, firstRequest] then some (.error sizeLimitError) else none

theorem refusal_mayReply : cappedBatching.MayReply refusal := by
  intro packet result h
  unfold refusal at h
  split at h
  · rename_i hpacket
    cases h
    rw [hpacket]
    exact balancedReply_refused secondBoth_refused
  · cases h

/-- Both requests are queued, drained together and refused together; both callers return. -/
def refusedSchedule : List Move :=
  [.call (.single firstRequest), .call (.single secondRequest)] ++
    [1, 1, 2, 2, 0, 0, 0, 0, 0, 0, 3, 3, 3, 3, 3, 1, 1, 2, 2].map Move.task

/-- The packet and the error of a caller that has returned one. -/
def BatchTask.failed? (t : BatchTask) : Option (RequestPacket × TransportError) :=
  match t with
  | ⟨.caller packet _, .ret (.returned (.error err)), _⟩ => some (packet, err)
  | _ => none

theorem failed_iff {t : BatchTask} {packet : RequestPacket} {err : TransportError}
    (h : t.failed? = some (packet, err)) :
    (∃ receivers, t.kind = .caller packet receivers) ∧ t.rest = .ret (.returned (.error err)) := by
  unfold BatchTask.failed? at h
  split at h
  · cases h
    exact ⟨⟨_, rfl⟩, rfl⟩
  · cases h

theorem refused_reachable : ∃ p, (batchSystem cappedBatching).Reachable
    (BatchStart cappedBatching) p ∧ (ids p.shared.entries).Nodup ∧ ∃ t ∈ p.tasks,
      t.failed? = some (.single firstRequest, batchError customText sizeLimitError) := by
  obtain ⟨p, hr, hp⟩ := observed_reachable refusal_mayReply refusedSchedule
    (fun p => decide ((ids p.shared.entries).Nodup ∧ ∃ t ∈ p.tasks,
      t.failed? = some (.single firstRequest, batchError customText sizeLimitError))) (a := true)
    (by decide)
  obtain ⟨hids, ht⟩ := of_decide_eq_true hp
  exact ⟨p, hr, hids, ht⟩

/-- The first request was refused in a batch with it. -/
theorem first_request_refused : ∃ p, (batchSystem cappedBatching).Reachable
    (BatchStart cappedBatching) p ∧ ∃ request ∈ [firstRequest], ∃ sent,
      SentFor cappedBatching.config p.shared request sent ∧
        (∃ requests, sent = .batch requests) ∧ ¬ Accepted jsonBytes cappedTransport sent := by
  obtain ⟨p, hr, _, task, htask, hfailed⟩ := refused_reachable
  obtain ⟨⟨receivers, hkind⟩, hrest⟩ := failed_iff hfailed
  have hfits : ∀ request ∈ (RequestPacket.single firstRequest).requests,
      Accepted jsonBytes cappedTransport (.single request) :=
    List.forall_mem_singleton.mpr firstRequest_accepted
  obtain ⟨request, hrequest, sent, hsent, ⟨hbatch, hrefused, _⟩ | ⟨cause, hbehind, hlimit⟩⟩ :=
    size_limit_only_for_batches hr htask hkind hfits hrest (Or.inr rfl)
  · exact ⟨p, hr, request, hrequest, sent, hsent, hbatch, hrefused⟩
  · -- the endpoints answer no errors, and a closed gate says something else
    rcases hbehind with ⟨_, _, hok⟩ | rfl
    · cases hok
    · exact absurd hlimit (by decide)

/-- **Two requests that fit alone fail together**: the callers get the size-limit error, from a
    transport whose endpoints accept either request and answer no errors. -/
theorem requests_refused_together :
    ¬ ∀ (config : RunningConfig) (display : TransportError → String)
        (wire : RequestPacket → Option Nat) (t : LoadBalancedTransport) (endpoint : EndpointService)
        (p : Pool BatchingShared BatchTask), t.Built →
        (∀ idx req err, ¬ endpoint idx req (.error err)) →
        (batchSystem (overBalancer config display wire t endpoint)).Reachable
          (BatchStart (overBalancer config display wire t endpoint)) p →
        (ids p.shared.entries).Nodup → ∀ task ∈ p.tasks, ∀ request receivers,
          task.kind = .caller (.single request) receivers → Accepted wire t (.single request) →
            ∀ err, task.rest = .ret (.returned (.error err)) → ¬ SaysSizeLimit display err := by
  intro h
  obtain ⟨p, hr, hids, task, htask, hfailed⟩ := refused_reachable
  obtain ⟨⟨receivers, hkind⟩, hrest⟩ := failed_iff hfailed
  exact h _ _ _ _ _ p cappedTransport_built (fun _ _ _ => nofun) hr hids task htask firstRequest
    receivers hkind firstRequest_accepted _ hrest (Or.inr rfl)

end TransportBalancer.Batching
