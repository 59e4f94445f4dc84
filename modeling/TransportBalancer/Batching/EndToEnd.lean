/-
  File:      TransportBalancer/Batching/EndToEnd.lean
  Subject:   THE WHOLE STACK: a batching transport over a balanced one. Every caller returns, and
             what it returns for a request an endpoint has answered, unless it is an error that
             one of the two transports raises itself.

  * `StackReply` -- what the balanced transport may reply to a packet;
  * `balanced_responsive` -- it replies to every packet if the endpoints do and the backoff can be
    doubled;
  * **`stack_serves`** -- on a fair run every caller ends, with a result that has its source in the
    replies of endpoints.
-/
import TransportBalancer.Balancer.Backoff
import TransportBalancer.Batching.Completion
import TransportBalancer.Batching.Provenance
import TransportBalancer.Batching.SizeCap

namespace TransportBalancer.Batching

open Interaction TaskPool

/-! ## 1. The balanced transport below -/

section Below

variable (wire : RequestPacket → Option Nat) (t : LoadBalancedTransport)
  (endpoint : EndpointService) (packet : RequestPacket)

/-- **What the balanced transport may reply to a packet**: what an endpoint whose cap accepts it
    answers, the size-limit error if there is none, or the error of a closed gate. -/
inductive StackReply : RpcResult → Prop
  | answered {idx : Nat} {result : RpcResult} :
      idx < t.numEndpoints → t.endpointAcceptsRequest idx (requestBytes wire packet) = true →
        endpoint idx packet result → StackReply result
  | refused : ¬ Accepted wire t packet → StackReply (.error sizeLimitError)
  | gone : StackReply (.error backendGone)

variable {wire t endpoint packet}

/-- **A balanced call returns what an endpoint answered**, or an error of its own. -/
theorem stackReply_of_balanced {result : RpcResult}
    (h : BalancedReply wire t endpoint packet result) :
    StackReply wire t endpoint packet result := by
  obtain ⟨tr, hruns, hanswers⟩ := h
  by_cases hacc : Accepted wire t packet
  · -- an attempt of the log is an answer of an endpoint that accepts the packet
    have hsent : ∀ r ∈ (callLog t tr).rounds, ∀ idx reply, (idx, reply) ∈ r.attempts →
        StackReply wire t endpoint packet reply := by
      intro r hr idx reply hcall
      have hmem := (callLog_ok hruns).visit_eligible hr (mem_attempts.mp hcall)
      obtain ⟨hidx, haccepts⟩ := List.mem_filter.mp hmem
      refine .answered (List.mem_range.mp hidx) haccepts (hanswers idx packet reply ?_)
      refine send_of_innerCall hruns ?_
      rw [innerCalls_eq t]
      exact List.mem_flatMap.mpr ⟨r, List.mem_reverse.mpr hr, hcall⟩
    obtain ⟨r, past, hr, ⟨visits, v, hv, ⟨idx, rfl, _⟩ | ⟨_, rfl⟩⟩ | ⟨_, _, err, hlast, rfl⟩⟩ :=
      call_outcome_of_runs (eligible_of_accepted hacc) hruns
    · exact hsent r (hr ▸ List.mem_cons_self) idx result (mem_attempts.mpr (hv ▸ by simp))
    · exact .gone
    · obtain ⟨init, idx, hattempts⟩ := attempts_of_lastError hlast
      exact hsent r (hr ▸ List.mem_cons_self) idx _ (hattempts ▸ by simp)
  · obtain ⟨_, hret⟩ := steps_of_not_accepted (eligible_of_not_accepted hacc) hruns
    cases hret
    exact .refused hacc

/-- What a request sent to an endpoint brought back, the endpoint has answered. -/
def AnsweredBy (endpoint : EndpointService) (ev : Event CallSig) : Prop :=
  match ev with
  | ⟨.send idx req, reply⟩ => endpoint idx req reply
  | _ => True

/-- **Every packet gets a reply** if the endpoints answer every packet and the backoff between the
    rounds can be doubled. -/
theorem balanced_responsive (hfits : DoublingFits t.config)
    (hanswers : ∀ idx packet, ∃ reply, endpoint idx packet reply) :
    ∃ result, BalancedReply wire t endpoint packet result := by
  have hgo : ∀ tr e k, Steps (TransportBalancer.call wire t packet) tr (.op e k) →
      ∃ r, AnsweredBy endpoint ⟨e, r⟩ := by
    intro tr e k hs
    cases e with
    | send idx req => exact hanswers idx req
    | panic msg =>
      obtain rfl := call_panics_only_on_overflow hs
      exact absurd rfl ((law_of_fits hfits wire packet tr _ hs).2.2.2 k)
    | fetchAddCounter => exact ⟨(0 : UInt64), trivial⟩
    | preRequestDelay => exact ⟨Duration.zero, trivial⟩
    | acquireOwned => exact ⟨GateAnswer.permit, trivial⟩
    | recordSkip | recordSuccess | recordRateLimit | sleep | dropPermit => exact ⟨(), trivial⟩
  obtain ⟨result, tr, hruns, hok⟩ := Program.may_of_answerable hgo
  exact ⟨result, tr, hruns, fun _ _ _ h => hok _ h⟩

end Below

/-! ## 2. The stack -/

section Stack

variable {config : RunningConfig} {display : TransportError → String}
  {wire : RequestPacket → Option Nat} {t : LoadBalancedTransport} {endpoint : EndpointService}

/-- **What the stack may answer a request with**, after all that has been called and queued. -/
def StackSourced (display : TransportError → String) (wire : RequestPacket → Option Nat)
    (t : LoadBalancedTransport) (endpoint : EndpointService) (s : BatchingShared) :
    SerializedRequest → RpcResult → Prop :=
  Source display (fun packet result => packet ∈ s.calls ∧ StackReply wire t endpoint packet result)
    (Clash s.entries)

theorem stackSourced_of_sourced {s : BatchingShared} {request : SerializedRequest}
    {result : RpcResult}
    (h : s.Sourced (overBalancer config display wire t endpoint) request result) :
    StackSourced display wire t endpoint s request result :=
  Source.mono h (fun _ _ h => ⟨h.1, stackReply_of_balanced h.2⟩) fun _ h => h

/-- **THE STACK SERVES EVERY CALLER.** On every fair run of a batching transport over a balanced one
    whose endpoints answer every packet, whatever they answer, every caller ends; unless it is
    cancelled it has returned, for each of its requests in its own order, a result that has its
    source in a reply of the stack below. -/
theorem stack_serves {run : (batchSystem (overBalancer config display wire t endpoint)).Path}
    (hfits : DoublingFits t.config)
    (hanswers : ∀ idx packet, ∃ reply, endpoint idx packet reply)
    (hstart : BatchStart (overBalancer config display wire t endpoint) (run.pool 0))
    (hfair : Fair run) {n i : Nat} {task : BatchTask} (htask : (run.pool n).tasks[i]? = some task)
    {packet : RequestPacket} {receivers : List Channel}
    (hkind : task.kind = .caller packet receivers) :
    ∃ m, n ≤ m ∧ ∃ task', (run.pool m).tasks[i]? = some task' ∧
      (task'.rest = .ret .cancelled ∨ ∃ result, task'.rest = .ret (.returned result) ∧
        PacketResult (StackSourced display wire t endpoint (run.pool m).shared) packet result) := by
  obtain ⟨m, hm, task', receivers', htask', hkind', x, hx⟩ :=
    caller_ends (fun _ => balanced_responsive hfits hanswers) hstart hfair htask hkind
  refine ⟨m, hm, task', htask', ?_⟩
  have hr := run.reachable (.start hstart) m
  have hmem := List.mem_of_getElem? htask'
  rcases caller_ends_sourced hr hmem hkind' hx with rfl | ⟨result, rfl, _⟩
  · exact Or.inl hx
  · exact Or.inr ⟨result, hx, caller_packetResult hr hmem hkind' hx
      fun a ha => stackSourced_of_sourced (answers_sourced hr a ha)⟩

/-- Both requests are refused together, and the transport shuts down. -/
def refusedToTheEnd : List Move := refusedSchedule ++ [.dropClone, .task 0, .task 0]

/-- Two requests that fit alone: the first is answered with the error of the batch of both. -/
theorem stack_serves_refused : ∃ run : (batchSystem cappedBatching).Path, ∃ m task,
    (run.pool m).tasks[1]? = some task ∧ ∃ result, task.rest = .ret (.returned result) ∧
      StackSourced customText jsonBytes cappedTransport (fun _ _ reply => ∃ resp, reply = .ok resp)
        (run.pool m).shared firstRequest result := by
  obtain ⟨p, hr, hp⟩ := observed_reachable refusal_mayReply refusedToTheEnd
    (fun p => decide ((∀ t ∈ p.tasks, t.ended = true) ∧ (p.tasks[1]?).map BatchTask.failed? =
      some (some (.single firstRequest, batchError customText sizeLimitError)))) (a := true)
    (by decide)
  obtain ⟨hended, hfirst⟩ := of_decide_eq_true hp
  obtain ⟨task, htask, hfailed⟩ := Option.map_eq_some_iff.mp hfirst
  obtain ⟨⟨receivers, hkind⟩, hrest⟩ := failed_iff hfailed
  obtain ⟨run, hstart, hfair, n, hlast⟩ := exists_fair_run hr hended
  have hn : run.pool n = p := hlast 0
  obtain ⟨m, hm, task', htask', hserved⟩ := stack_serves (Or.inr ⟨by decide, by decide⟩)
    (fun _ _ => ⟨.ok (.batch []), _, rfl⟩) hstart hfair (n := n) (i := 1) (hn ▸ htask) hkind
  -- nothing happens after it
  obtain ⟨k, rfl⟩ := Nat.exists_eq_add_of_le hm
  have hsame : task' = task := by
    rw [hlast k] at htask'
    exact Option.some.inj (htask'.symm.trans htask)
  subst hsame
  rcases hserved with hcancelled | ⟨result, hresult, hsourced⟩
  · rw [hrest] at hcancelled
    cases hcancelled
  · exact ⟨run, _, task', htask', result, hresult, hsourced⟩

end Stack

end TransportBalancer.Batching
