/-
  File:      TransportBalancer/Balancer/GateWaits.lean
  Subject:   WHEN A GATE BLOCKS. A call waits at a full gate; the permits it waits for are held for
             requests outstanding at the endpoint, or by calls that have had their reply.

  * `TracedCall`, `tracedGates` -- the calls with what they have done so far; nothing else changes
    (`untraced_reachable`, `traced_reachable`);
  * `GateOk` -- where in a call a permit is held, and what is known of a failover sleep;
  * **`gate_blocks_when_full`** -- if no gated endpoint answers with a rate limit before the last
    attempt of a round, a gate that blocks has all its permits with outstanding requests.
-/
import TransportBalancer.Balancer.Gates
import TransportBalancer.Balancer.Rounds

namespace TransportBalancer

open Interaction TaskPool

/-! ## 1. Calls with their traces -/

/-- A call and what it has done so far. -/
structure TracedCall where
  call : CallTask
  trace : Trace CallSig

/-- A step of the call, recorded. -/
inductive TracedCall.Step (s : GateState) (c : TracedCall) : GateState → TracedCall → Prop where
  | effect {e : CallOp} {k : CallSig.Ans e → Program CallSig RpcResult} (r : CallSig.Ans e)
      {s' : GateState} {held' : List Nat} (hrest : c.call.rest = some (.op e k))
      (hgate : gateStep s c.call.held e r = some (s', held')) :
      Step s c s' ⟨⟨some (k r), held'⟩, c.trace ++ [⟨e, r⟩]⟩
  | drop {e : CallOp} {k : CallSig.Ans e → Program CallSig RpcResult}
      (hrest : c.call.rest = some (.op e k)) :
      Step s c (s.giveBack c.call.held) ⟨⟨none, []⟩, c.trace⟩

/-- The calls on clones of one transport, with their traces. -/
def tracedGates (wire : RequestPacket → Option Nat) (t : LoadBalancedTransport) :
    System GateState TracedCall where
  act s c s' c' new := c.Step s s' c' ∧ new = []
  env _ _ := False
  arrive s s' c := s' = s ∧ ∃ req, c = ⟨⟨some (call wire t req), []⟩, []⟩

/-- The pool without the traces. -/
def untraced (p : Pool GateState TracedCall) : Pool GateState CallTask :=
  ⟨p.shared, p.tasks.map TracedCall.call⟩

def TracedStart (t : LoadBalancedTransport) (p : Pool GateState TracedCall) : Prop :=
  GatesStart t (untraced p)

section Traces

variable {wire : RequestPacket → Option Nat} {t : LoadBalancedTransport}

theorem TracedCall.Step.untraced {s s' : GateState} {c c' : TracedCall} (h : c.Step s s' c') :
    c.call.Step s s' c'.call := by
  cases h with
  | effect r hrest hgate => exact .effect r hrest hgate
  | drop hrest => exact .drop hrest

/-- **Traces add nothing**: without them a reachable pool is reachable, -/
theorem untraced_reachable {p : Pool GateState TracedCall}
    (hr : (tracedGates wire t).Reachable (TracedStart t) p) :
    (gateSystem wire t).Reachable (GatesStart t) (untraced p) := by
  refine System.Reachable.map (Y := gateSystem wire t) (g := TracedCall.call) (fun _ hp => hp)
    (fun h => ?_) (fun h => h) ?_ hr
  · obtain ⟨hstep, rfl⟩ := h
    exact ⟨hstep.untraced, rfl⟩
  · rintro s s' _ ⟨rfl, req, rfl⟩
    exact ⟨rfl, req, rfl⟩

/-- and every reachable pool has its traces. -/
theorem traced_reachable {p : Pool GateState CallTask}
    (hr : (gateSystem wire t).Reachable (GatesStart t) p) :
    ∃ p', (tracedGates wire t).Reachable (TracedStart t) p' ∧ untraced p' = p := by
  refine System.Reachable.lift (g := TracedCall.call) (fun p hp => ?_) ?_ (fun h => h) ?_ hr
  · have hmap : untraced ⟨p.shared, []⟩ = p := by
      obtain ⟨s, tasks⟩ := p
      obtain rfl := hp.1
      rfl
    exact ⟨⟨p.shared, []⟩, by rw [TracedStart, hmap]; exact hp, hmap⟩
  · intro s c s' d new h
    obtain ⟨hstep, rfl⟩ := h
    cases hstep with
    | effect r hrest hgate => exact ⟨_, [], ⟨.effect r hrest hgate, rfl⟩, rfl, rfl⟩
    | drop hrest => exact ⟨_, [], ⟨.drop hrest, rfl⟩, rfl, rfl⟩
  · rintro s s' _ ⟨rfl, req, rfl⟩
    exact ⟨⟨⟨some (call wire t req), []⟩, []⟩, ⟨rfl, req, rfl⟩, rfl⟩

end Traces

/-! ## 2. Where in a call a permit is held -/

section Protocol

variable (t : LoadBalancedTransport)

/-- The permits held after a trace. -/
def heldAfter (tr : Trace CallSig) : List Nat := (permitProtocol t).after [] tr

/-- Where the round of a trace has started. -/
def roundStart (tr : Trace CallSig) : Nat :=
  tr.foldl (fun start ev =>
    match ev with
    | ⟨.fetchAddCounter, tick⟩ => t.endpointOfTick tick
    | _ => start) 0

/-- The endpoint of the last attempt of that round. -/
def lastOfRound (tr : Trace CallSig) : Nat := rotated t (roundStart t tr) (t.numEndpoints - 1)

/-- A rate limit has just been recorded that was not the last attempt's. -/
def FailingOver (tr : Trace CallSig) : Prop :=
  ∃ before idx req err, tr = before ++ [⟨.send idx req, .error err⟩, ⟨.recordRateLimit idx, ()⟩] ∧
    isRateLimit err = true ∧ idx ≠ lastOfRound t before

/-- **The gate protocol**: a call sends with the permit of its endpoint, if that has a gate; it
    handles the reply with it; it sleeps with it where it fails over after a rate limit; otherwise
    it has none. -/
def GateOk (tr : Trace CallSig) : CallOp → Prop
  | .send idx _ => heldAfter t tr = scopePermits t idx
  | .sleep .rateLimitFailover _ => FailingOver t tr
  | .recordSuccess _ | .recordRateLimit _ | .dropPermit _ => True
  | _ => heldAfter t tr = []

def gateProtocol : Protocol CallSig (Trace CallSig) :=
  recordProtocol (fun _ _ => True) (GateOk t)

/-- What a trace leaves: the permits held and the start of the round. -/
structure Holding (held : List Nat) (start : Nat) (tr : Trace CallSig) : Prop where
  held : heldAfter t tr = held
  start : roundStart t tr = start

/-- The effects that leave both alone. -/
def CallOp.keepsHolding : CallOp → Bool
  | .acquireOwned _ | .dropPermit _ | .fetchAddCounter => false
  | _ => true

variable {t} {held : List Nat} {start : Nat} {tr : Trace CallSig}

theorem heldAfter_append (tr : Trace CallSig) (e : CallOp) (r : CallSig.Ans e) :
    heldAfter t (tr ++ [⟨e, r⟩]) = (permitProtocol t).next (heldAfter t tr) e r := by
  unfold heldAfter
  rw [Protocol.after_append]
  rfl

theorem Holding.quiet (h : Holding t held start tr) {e : CallOp} (r : CallSig.Ans e)
    (he : e.keepsHolding = true) : Holding t held start (tr ++ [⟨e, r⟩]) := by
  refine ⟨?_, ?_⟩
  · rw [heldAfter_append, h.held]
    cases e with
    | acquireOwned | dropPermit | fetchAddCounter => cases he
    | _ => rfl
  · unfold roundStart
    rw [List.foldl_append]
    cases e with
    | acquireOwned | dropPermit | fetchAddCounter => cases he
    | _ => exact h.start

theorem Holding.tick (h : Holding t held start tr) (tick : UInt64) :
    Holding t held (t.endpointOfTick tick) (tr ++ [⟨.fetchAddCounter, tick⟩]) := by
  refine ⟨?_, ?_⟩
  · rw [heldAfter_append, h.held]
    rfl
  · unfold roundStart
    rw [List.foldl_append]
    rfl

theorem Holding.acquired (h : Holding t [] start tr) (idx : Nat) :
    Holding t [idx] start (tr ++ [⟨.acquireOwned idx, .permit⟩]) := by
  refine ⟨?_, ?_⟩
  · rw [heldAfter_append, h.held]
    rfl
  · unfold roundStart
    rw [List.foldl_append]
    exact h.start

theorem Holding.refused (h : Holding t held start tr) (idx : Nat) :
    Holding t held start (tr ++ [⟨.acquireOwned idx, .closed⟩]) := by
  refine ⟨?_, ?_⟩
  · rw [heldAfter_append, h.held]
    rfl
  · unfold roundStart
    rw [List.foldl_append]
    exact h.start

theorem Holding.dropped {idx : Nat} (h : Holding t [idx] start tr) :
    Holding t [] start (tr ++ [⟨.dropPermit idx, ()⟩]) := by
  refine ⟨?_, ?_⟩
  · rw [heldAfter_append, h.held]
    exact List.erase_cons_head idx []
  · unfold roundStart
    rw [List.foldl_append]
    exact h.start

section Calls

variable (req : RequestPacket) (bytes : Nat)

/-- A protocol step that keeps what is held. -/
theorem quiet_follows {α : Type} {e : CallOp} {k : CallSig.Ans e → Program CallSig α}
    {Q : Trace CallSig → α → Prop} (h : Holding t held start tr) (he : e.keepsHolding = true)
    (hok : GateOk t tr e) (hk : ∀ r tr', Holding t held start tr' →
      (k r).Follows (gateProtocol t) tr' Q) :
    (Program.op e k).Follows (gateProtocol t) tr Q :=
  ⟨hok, fun r _ => hk r _ (h.quiet r he)⟩

theorem lookAhead_gated (startIdx : Nat) (later : List Nat) (h : Holding t [] start tr) :
    (hasUnthrottledEligibleAlternative t bytes startIdx later).Follows (gateProtocol t) tr
      fun tr' _ => Holding t [] start tr' := by
  induction later generalizing tr with
  | nil => exact h
  | cons nextAttempt later ih =>
    unfold hasUnthrottledEligibleAlternative
    dsimp only
    split
    · rw [CallOp.perform_bind]
      refine quiet_follows h rfl h.held fun delay tr' h' => ?_
      split
      · exact h'
      · exact ih h'
    · exact ih h

theorem acquirePermit_gated (idx : Nat) (h : Holding t [] start tr) :
    (acquirePermit t idx).Follows (gateProtocol t) tr fun tr' granted =>
      Holding t (if granted = true then scopePermits t idx else []) start tr' := by
  unfold acquirePermit scopePermits
  split
  · rename_i limit hlimit
    rw [hlimit]
    refine ⟨h.held, fun answer _ => ?_⟩
    cases answer with
    | permit => exact h.acquired idx
    | closed => exact h.refused idx
  · rename_i hlimit
    simp only [hlimit, pure, Program.follows_ret]
    exact h

theorem dropPermit_gated {α : Type} (idx : Nat) (out : α)
    (h : Holding t (scopePermits t idx) start tr) :
    (dropPermit t idx >>= fun _ => (pure out : Program CallSig α)).Follows (gateProtocol t) tr
      fun tr' _ => Holding t [] start tr' := by
  unfold dropPermit scopePermits at *
  split
  · rename_i limit hlimit
    rw [hlimit] at h
    exact ⟨trivial, fun _ _ => h.dropped⟩
  · rename_i hlimit
    rw [hlimit] at h
    exact h

/-- **What a retryable error leaves behind**: the call sleeps only after a rate limit that was not
    the last attempt's. -/
theorem recordFailure_gated {attempt : Nat} (hattempt : attempt < t.numEndpoints)
    (err : TransportError) {before : Trace CallSig}
    (h : Holding t (scopePermits t (rotated t start attempt)) start before) :
    (recordFailure t (rotated t start attempt) attempt err).Follows (gateProtocol t)
      (before ++ [⟨.send (rotated t start attempt) req, .error err⟩])
      fun tr' _ => Holding t (scopePermits t (rotated t start attempt)) start tr' := by
  have hsent := h.quiet (e := .send (rotated t start attempt) req) (Except.error err) rfl
  unfold recordFailure
  dsimp only
  split
  · rename_i hlimited
    rw [CallOp.perform_bind]
    refine ⟨trivial, fun _ _ => ?_⟩
    have hrecorded := hsent.quiet (e := .recordRateLimit (rotated t start attempt)) () rfl
    split
    · rename_i hlast
      refine ⟨⟨before, rotated t start attempt, req, err, ?_, hlimited, fun hsame => ?_⟩,
        fun _ _ => hrecorded.quiet (e := .sleep .rateLimitFailover _) () rfl⟩
      · exact List.append_assoc _ _ _
      · -- a rotation visits every endpoint once
        have hpos := t.numEndpoints_pos
        rw [lastOfRound, h.start] at hsame
        have := rotated_injOn t hattempt (by omega) hsame
        omega
    · exact hrecorded
  · rename_i hlimited
    rw [if_neg fun h => hlimited h.1]
    exact hsent

/-- **The scope of `_permit`.** -/
theorem sendTo_gated {attempt : Nat} (hattempt : attempt < t.numEndpoints)
    (h : Holding t (scopePermits t (rotated t start attempt)) start tr) :
    (sendTo t req (rotated t start attempt) attempt).Follows (gateProtocol t) tr
      fun tr' _ => Holding t [] start tr' := by
  unfold sendTo
  rw [CallOp.perform_bind]
  refine ⟨h.held, fun reply _ => ?_⟩
  have hsent := h.quiet (e := .send (rotated t start attempt) req) reply rfl
  cases reply with
  | ok resp =>
    refine quiet_follows hsent rfl trivial fun _ tr' h' => ?_
    exact dropPermit_gated _ _ h'
  | error err =>
    dsimp only
    split
    · exact (recordFailure_gated req hattempt err h).bind fun tr' _ h' => dropPermit_gated _ _ h'
    · exact dropPermit_gated _ _ hsent

/-- **One attempt** begins and ends with no permit. -/
theorem attemptAt_gated {startIdx attempt : Nat} (hattempt : attempt < t.numEndpoints)
    (later : List Nat) (h : Holding t [] startIdx tr) :
    (attemptAt t req bytes startIdx attempt later).Follows (gateProtocol t) tr
      fun tr' _ => Holding t [] startIdx tr' := by
  unfold attemptAt
  dsimp only
  rw [CallOp.perform_bind]
  refine quiet_follows h rfl h.held fun delay tr' h' => ?_
  refine (lookAhead_gated bytes startIdx later h').bind fun tr' alternative h' => ?_
  split
  · exact quiet_follows h' rfl h'.held fun _ _ h' => h'
  · have hdelay : (applyDomainDelay delay).Follows (gateProtocol t) tr'
        fun tr' _ => Holding t [] startIdx tr' := by
      unfold applyDomainDelay
      split
      · exact h'
      · exact quiet_follows h' rfl h'.held fun _ _ h' => h'
    refine hdelay.bind fun tr' _ h' => ?_
    refine (acquirePermit_gated _ h').bind fun tr' granted h' => ?_
    cases granted with
    | false => exact h'
    | true =>
      refine (sendTo_gated req hattempt h').bind fun tr' outcome h' => ?_
      cases outcome <;> exact h'

/-- **Every call keeps the gate protocol.** -/
theorem call_gated (wire : RequestPacket → Option Nat) :
    (call wire t req).Follows (gateProtocol t) [] fun tr _ => heldAfter t tr = [] := by
  refine (call_keeps (I := fun tr => ∃ start, Holding t [] start tr)
    (R := fun start tr => Holding t [] start tr) ?_ ?_ ?_ ?_ (fun start _ h => ⟨start, h⟩)
    ⟨0, rfl, rfl⟩).mono fun tr _ h => ?_
  · rintro msg tr ⟨start, h⟩
    exact h.held
  · rintro backoff tr ⟨start, h⟩
    exact ⟨h.held, fun r _ => ⟨start, h.quiet (e := .sleep .betweenRounds backoff) r rfl⟩⟩
  · rintro tr ⟨start, h⟩
    exact ⟨h.held, fun tick _ => h.tick tick⟩
  · exact fun start attempt later tr hattempt h => attemptAt_gated req _ hattempt later h
  · obtain ⟨start, h⟩ := h
    exact h.held

end Calls

end Protocol

/-! ## 3. Blocked calls -/

/-- The effects of a call within the poll that has received a reply: it awaits nothing. -/
def CallOp.handlesReply : CallOp → Bool
  | .recordSuccess _ | .recordRateLimit _ | .dropPermit _ => true
  | _ => false

/-- The call is within the poll that has received its reply. -/
def CallTask.Handling (c : CallTask) : Prop :=
  ∃ e k, c.rest = some (.op e k) ∧ e.handlesReply = true

/-- The call has its reply and sleeps before it fails over. -/
def CallTask.FailsOver (c : CallTask) : Prop :=
  ∃ d k, c.rest = some (.op (.sleep .rateLimitFailover d) k)

/-- The call waits at a gate without a free permit. -/
def CallTask.BlockedAt (s : GateState) (c : CallTask) (idx : Nat) : Prop :=
  c.WaitsAt idx ∧ s.free idx = 0

/-- **The branch that sleeps with a permit is not taken**: a rate limit from an endpoint with a gate
    answers the last attempt of its round. -/
def LimitedLast (t : LoadBalancedTransport) (tr : Trace CallSig) : Prop :=
  ∀ before idx req err after, tr = before ++ ⟨.send idx req, .error err⟩ :: after →
    (t.inFlightLimit idx).isSome = true → isRateLimit err = true → idx = lastOfRound t before

/-- **A gate is really full**: its permits are those of calls with a request outstanding there. -/
structure ReallyFull (p : Pool GateState CallTask) (idx limit : Nat) : Prop where
  /-- As many permits as the limit are held, -/
  held : p.total (fun c => c.held.count idx) = limit
  /-- each for a request that is outstanding or whose reply is being handled; -/
  requests : ∀ c ∈ p.tasks, idx ∈ c.held → c.outstandingAt idx = true ∨ c.Handling
  /-- outside of such a poll that many requests are outstanding; -/
  outstanding : (∀ c ∈ p.tasks, ¬ c.Handling) →
    p.total (fun c => if c.outstandingAt idx then 1 else 0) = limit
  /-- and no call that holds one sleeps. -/
  awake : ∀ c ∈ p.tasks, idx ∈ c.held → ¬ c.FailsOver

section Pools

variable {wire : RequestPacket → Option Nat} {t : LoadBalancedTransport}

/-- What is known of a call by its trace. -/
def TracedCall.Ok (wire : RequestPacket → Option Nat) (t : LoadBalancedTransport)
    (c : TracedCall) : Prop :=
  ∀ rest, c.call.rest = some rest →
    (∃ req, Steps (TransportBalancer.call wire t req) c.trace rest) ∧
      c.call.held = heldAfter t c.trace

theorem tracedCall_ok {p : Pool GateState TracedCall}
    (hr : (tracedGates wire t).Reachable (TracedStart t) p) : ∀ c ∈ p.tasks, c.Ok wire t := by
  refine System.Reachable.taskInv (fun p hp c hc => ?_) (fun {s c s' c' new} hc hs => ?_)
    (fun ha => ?_) hr
  · have hnone : p.tasks = [] := List.map_eq_nil_iff.mp hp.1
    rw [hnone] at hc
    exact absurd hc List.not_mem_nil
  · obtain ⟨hs, rfl⟩ := hs
    refine ⟨fun rest hrest' => ?_, nofun⟩
    cases hs with
    | @effect e k r s' held' hrest hgate =>
      cases hrest'
      obtain ⟨⟨req, hsteps⟩, hheld⟩ := hc _ hrest
      have hnext := Steps.step (S := CallSig) e r k (.refl (k r))
      refine ⟨⟨req, steps_append hsteps hnext⟩, ?_⟩
      rw [heldAfter_append, ← hheld]
      exact gateStep_held hgate
    | drop => cases hrest'
  · obtain ⟨_, req, rfl⟩ := ha
    intro rest hrest
    cases hrest
    exact ⟨⟨req, .refl _⟩, rfl⟩

/-- **What a call with a permit does**: its request is outstanding there, or its reply is being
    handled, or it sleeps after a rate limit that did not answer the last attempt. -/
theorem holder_cases {p : Pool GateState TracedCall}
    (hr : (tracedGates wire t).Reachable (TracedStart t) p) {c : TracedCall} (hc : c ∈ p.tasks)
    {idx : Nat} (hidx : idx ∈ c.call.held) :
    c.call.outstandingAt idx = true ∨ c.call.Handling ∨ c.call.FailsOver ∧
      ¬ LimitedLast t c.trace := by
  have hcall := callTask_ok (untraced_reachable hr) c.call (List.mem_map_of_mem hc)
  cases hrest : c.call.rest with
  | none =>
    rw [hcall.dropped hrest] at hidx
    exact absurd hidx List.not_mem_nil
  | some rest =>
    obtain ⟨⟨req, hsteps⟩, hheld⟩ := tracedCall_ok hr c hc rest hrest
    cases rest with
    | ret result =>
      rw [held_of_ended hcall (Or.inr ⟨result, hrest⟩)] at hidx
      exact absurd hidx List.not_mem_nil
    | op e k =>
      have hok : GateOk t c.trace e :=
        (call_gated req wire).head_record hsteps fun _ _ => trivial
      have hnone : heldAfter t c.trace ≠ [] := by
        rw [← hheld]
        exact List.ne_nil_of_mem hidx
      have hscope : ∀ i, heldAfter t c.trace = scopePermits t i →
          idx = i ∧ (t.inFlightLimit i).isSome = true := by
        intro i hi
        rw [hheld, hi] at hidx
        unfold scopePermits at hidx
        split at hidx
        · exact ⟨List.mem_singleton.mp hidx, ‹_›⟩
        · exact absurd hidx List.not_mem_nil
      cases e with
      | send i packet =>
        obtain ⟨rfl, _⟩ := hscope i hok
        refine Or.inl ?_
        unfold CallTask.outstandingAt
        rw [hrest]
        exact beq_self_eq_true idx
      | recordSuccess | recordRateLimit | dropPermit =>
        exact Or.inr (Or.inl ⟨_, k, hrest, rfl⟩)
      | sleep site d =>
        cases site with
        | betweenRounds | domainDelay => exact absurd hok hnone
        | rateLimitFailover =>
          refine Or.inr (Or.inr ⟨⟨d, k, hrest⟩, fun hlast => ?_⟩)
          obtain ⟨before, i, packet, err, htrace, hlimited, hnot⟩ := hok
          have hbefore : GateOk t before (.send i packet) := by
            rw [htrace] at hsteps
            exact (call_gated req wire).performed_record hsteps fun _ _ => trivial
          have hsame : heldAfter t c.trace = scopePermits t i := by
            rw [htrace, List.append_cons, heldAfter_append, heldAfter_append]
            exact hbefore
          obtain ⟨rfl, hgate⟩ := hscope i hsame
          exact hnot (hlast before idx packet err _ htrace hgate hlimited)
      | _ => exact absurd hok hnone

/-- **A GATE BLOCKS ONLY WHEN IT IS REALLY FULL**, in every reachable pool, if every rate limit from
    an endpoint with a gate has answered the last attempt of a round. -/
theorem gate_blocks_when_full {p : Pool GateState TracedCall}
    (hr : (tracedGates wire t).Reachable (TracedStart t) p)
    (hlast : ∀ c ∈ p.tasks, LimitedLast t c.trace) {idx limit : Nat}
    (hlimit : t.inFlightLimit idx = some limit) {c : TracedCall} (hc : c ∈ p.tasks)
    (hblocked : c.call.BlockedAt p.shared idx) :
    c.call.held = [] ∧ ReallyFull (untraced p) idx limit := by
  have hr' := untraced_reachable hr
  have hok := callTask_ok hr'
  have hheld : (untraced p).total (fun c => c.held.count idx) = limit := by
    have hconserved := permits_conserved hr' hlimit
    have hfree : (untraced p).shared.free idx = 0 := hblocked.2
    omega
  have hcases : ∀ c ∈ p.tasks, idx ∈ c.call.held →
      c.call.outstandingAt idx = true ∨ c.call.Handling := fun c hc hidx =>
    (holder_cases hr hc hidx).imp_right fun h => h.resolve_right fun h => h.2 (hlast c hc)
  refine ⟨held_of_waitsAt (hok _ (List.mem_map_of_mem hc)) hblocked.1, hheld, ?_, ?_, ?_⟩
  · intro d hd hidx
    obtain ⟨c, hc, rfl⟩ := List.mem_map.mp hd
    exact hcases c hc hidx
  · intro hawaits
    rw [← hheld]
    refine congrArg List.sum (List.map_congr_left fun d hd => ?_)
    split
    · rename_i hout
      rw [held_of_outstandingAt (hok d hd) hlimit hout]
      simp
    · rename_i hout
      refine (List.count_eq_zero.mpr fun hidx => ?_).symm
      obtain ⟨c, hc, rfl⟩ := List.mem_map.mp hd
      exact (hcases c hc hidx).elim hout (hawaits _ hd)
  · intro d hd hidx hsleeps
    obtain ⟨c, hc, rfl⟩ := List.mem_map.mp hd
    obtain ⟨delay, k, hrest⟩ := hsleeps
    rcases hcases c hc hidx with hout | ⟨e, k', hrest', he⟩
    · unfold CallTask.outstandingAt at hout
      rw [hrest] at hout
      cases hout
    · cases hrest.symm.trans hrest'
      cases he

end Pools

/-! ## 4. Two calls at a gate for one -/

section Example

/-- Two endpoints, the first of which takes one request at a time. -/
def gatedPair : LoadBalancedTransport where
  toEndpointTable :=
    (EndpointTable.empty.push ⟨0, ⟨some "eth.one.com", "http://eth.one.com/"⟩⟩ 0 none (some 1) 100
      (by decide) (by simp) (by simp)).push ⟨1, ⟨some "eth.two.com", "http://eth.two.com/"⟩⟩ 1 none
        none 200 (by decide) (by simp) (by simp)
  config := .default
  nonempty := by simp [EndpointTable.push]

/-- Its gates before any call. -/
def pairGates : GateState := ⟨fun idx => if idx = 0 then 1 else 0⟩

theorem pairGates_start (p : Pool GateState TracedCall) (hp : p = ⟨pairGates, []⟩) :
    TracedStart gatedPair p := by
  subst hp
  refine ⟨rfl, fun idx limit h => ?_⟩
  match idx with
  | 0 => exact Option.some.inj h
  | 1 => cases h
  | idx + 2 => cases h

theorem limitedLast_of_unsent {t : LoadBalancedTransport} {tr : Trace CallSig}
    (h : ∀ ev ∈ tr, ∀ idx req, ev.op ≠ .send idx req) : LimitedLast t tr := by
  intro before idx req err after htrace
  exact absurd rfl (h ⟨.send idx req, .error err⟩ (by rw [htrace]; simp) idx req)

/-- Both calls go to the first endpoint. One is about to send and the other one blocks; then the
    first is answered with a rate limit, and sleeps. -/
theorem pair_runs : (∃ p c d, (tracedGates (fun _ => some 100) gatedPair).Reachable
      (TracedStart gatedPair) p ∧ p.tasks = [c, d] ∧ d.call.BlockedAt p.shared 0 ∧
        LimitedLast gatedPair c.trace ∧ LimitedLast gatedPair d.trace) ∧
    ∃ p c d, (tracedGates (fun _ => some 100) gatedPair).Reachable (TracedStart gatedPair) p ∧
      p.tasks = [c, d] ∧ d.call.BlockedAt p.shared 0 ∧ c.call.FailsOver ∧ c.call.held = [0] := by
  have h₀ : (tracedGates (fun _ => some 100) gatedPair).Reachable (TracedStart gatedPair)
      ⟨pairGates, []⟩ := .start (pairGates_start _ rfl)
  have h₁ := h₀.step (.arrive ⟨rfl, .batch [], rfl⟩)
  have h₂ := h₁.step (.arrive ⟨rfl, .batch [], rfl⟩)
  have h₃ := h₂.step (.at (i := 0) rfl ⟨.effect (0 : UInt64) rfl rfl, rfl⟩)
  have h₄ := h₃.step (.at (i := 0) rfl ⟨.effect Duration.zero rfl rfl, rfl⟩)
  have h₅ := h₄.step (.at (i := 0) rfl ⟨.effect Duration.zero rfl rfl, rfl⟩)
  have h₆ := h₅.step (.at (i := 0) rfl ⟨.effect GateAnswer.permit rfl rfl, rfl⟩)
  have h₇ := h₆.step (.at (i := 1) rfl ⟨.effect (1 : UInt64) rfl rfl, rfl⟩)
  have h₈ := h₇.step (.at (i := 1) rfl ⟨.effect Duration.zero rfl rfl, rfl⟩)
  have hblocked := h₈.step (.at (i := 1) rfl ⟨.effect Duration.zero rfl rfl, rfl⟩)
  have hlimited := hblocked.step (.at (i := 0) rfl
    ⟨.effect (Except.error (.transport (.httpError 429 "")) : RpcResult) rfl rfl, rfl⟩)
  have hasleep := hlimited.step (.at (i := 0) rfl ⟨.effect () rfl rfl, rfl⟩)
  exact ⟨⟨_, _, _, hblocked, rfl, ⟨⟨_, rfl⟩, rfl⟩, limitedLast_of_unsent (by simp),
      limitedLast_of_unsent (by simp)⟩,
    _, _, _, hasleep, rfl, ⟨⟨_, rfl⟩, rfl⟩, ⟨_, _, rfl⟩, rfl⟩

/-- **A gate blocks without a request outstanding**: its permit is held by a call that sleeps. -/
theorem gate_blocks_asleep : ∃ p c d,
    (gateSystem (fun _ => some 100) gatedPair).Reachable (GatesStart gatedPair) p ∧
      gatedPair.inFlightLimit 0 = some 1 ∧ p.tasks = [c, d] ∧ d.BlockedAt p.shared 0 ∧
      c.FailsOver ∧ c.held = [0] ∧ p.total (fun c => if c.outstandingAt 0 then 1 else 0) = 0 := by
  obtain ⟨p, c, d, hr, htasks, hblocked, hsleeps, hheld⟩ := pair_runs.2
  have htasks' : (untraced p).tasks = [c.call, d.call] := by
    unfold untraced
    rw [htasks]
    rfl
  refine ⟨untraced p, c.call, d.call, untraced_reachable hr, rfl, htasks', hblocked, hsleeps,
    hheld, ?_⟩
  obtain ⟨delay, k, hrest⟩ := hsleeps
  obtain ⟨⟨k', hrest'⟩, _⟩ := hblocked
  unfold Pool.total CallTask.outstandingAt
  simp [htasks', hrest, hrest']

theorem gate_blocks_when_full_pair : ∃ p c d,
    (tracedGates (fun _ => some 100) gatedPair).Reachable (TracedStart gatedPair) p ∧
      p.tasks = [c, d] ∧ d.call.held = [] ∧ ReallyFull (untraced p) 0 1 := by
  obtain ⟨p, c, d, hr, htasks, hblocked, hc, hd⟩ := pair_runs.1
  have hlast : ∀ x ∈ p.tasks, LimitedLast gatedPair x.trace := by
    rw [htasks]
    exact List.forall_mem_cons.mpr ⟨hc, List.forall_mem_singleton.mpr hd⟩
  have hlimit : gatedPair.inFlightLimit 0 = some 1 := rfl
  exact ⟨p, c, d, hr, htasks,
    gate_blocks_when_full hr hlast hlimit (by rw [htasks]; simp) hblocked⟩

end Example

end TransportBalancer
