/-
  File:      TransportBalancer/Balancer/Accounting.lean
  Subject:   THROTTLE ACCOUNTING: the counters of a domain against the traffic of all calls of all
             transports with endpoints there, and of external callers, under any interleaving of
             their atomic steps.

  * `BalancedCall`, `trafficSystem` -- calls over the domain states: a record is made step by step
    and never cut short, a call may be cancelled wherever it awaits;
  * `call_step_accounts` -- a step of a call moves a counter by what it pays off;
  * `counter_accounts` -- counter and records due make up the traffic;
  * **`accounts_match`** -- with no record due, each counter is the traffic of its domain; nothing
    but a record moves the books.
-/
import TransportBalancer.Balancer.Registries
import TransportBalancer.Balancer.Traffic

namespace TransportBalancer

open Interaction TaskPool OnDemand

/-! ## 1. Calls over the domain states -/

/-- The states of the registered domains. -/
abbrev DomainStates := DomainRef → DomainThrottleState

/-- An operation on a domain state under way: what it records, the steps it has taken, and the
    program it has left. -/
structure StateOp (α : Type) where
  ref : DomainRef
  traffic : Option Traffic
  done : Trace AtomicSig
  rest : Program AtomicSig α

/-- One atomic step, at any clock value. -/
inductive StateOp.Step {α : Type} (s : DomainStates) (o : StateOp α) :
    DomainStates → StateOp α → Prop where
  | atomic (now : UInt64) {e : AtomicOp} {k : AtomicSig.Ans e → Program AtomicSig α}
      {r : AtomicSig.Ans e} {st : DomainThrottleState} (hrest : o.rest = .op e k)
      (h : atomicHandler now e (s o.ref) = some (r, st)) :
      Step s o (Function.update s o.ref st) { o with done := o.done ++ [⟨e, r⟩], rest := k r }

/-- It has not returned. -/
def StateOp.underWay {α : Type} (o : StateOp α) : Bool :=
  match o.rest with
  | .ret _ => false
  | .op _ _ => true

/-- Its next step is a panic. -/
def StateOp.Panics {α : Type} (o : StateOp α) : Prop := ∃ msg k, o.rest = .op (.panic msg) k

/-- The operation on the domain state of an endpoint that an effect of a call is. -/
def CallOp.stateOp? :
    (e : CallOp) → Option (Nat × (ThrottleConfig → Program AtomicSig (CallSig.Ans e)))
  | .preRequestDelay idx => some (idx, TransportBalancer.preRequestDelay)
  | .recordSkip idx => some (idx, fun _ => TransportBalancer.recordSkip)
  | .recordSuccess idx => some (idx, TransportBalancer.recordSuccess)
  | .recordRateLimit idx => some (idx, TransportBalancer.recordRateLimit)
  | _ => none

/-- The call may be suspended at the effect. -/
def CallOp.awaits : CallOp → Bool
  | .sleep _ _ | .acquireOwned _ | .send _ _ => true
  | _ => false

/-- Where a call is: between two effects, within an operation on a domain state, or gone (its future
    has been dropped, or a panic has unwound it). -/
inductive CallStage where
  | between (rest : Program CallSig RpcResult)
  | within (e : CallOp) (op : StateOp (CallSig.Ans e))
      (k : CallSig.Ans e → Program CallSig RpcResult)
  | gone

/-- A call of a transport, with the effects it has completed. -/
structure BalancedCall where
  transport : LoadBalancedTransport
  req : RequestPacket
  trace : Trace CallSig
  stage : CallStage

/-- **One step of a call.** Its future can be dropped before it is first polled and wherever it
    awaits; the operations on a domain state await nothing. (Indices are below the number of
    endpoints, where the throttles have an entry.) -/
inductive BalancedCall.Step (configOf : DomainRef → ThrottleConfig) (s : DomainStates)
    (c : BalancedCall) : DomainStates → BalancedCall → Prop where
  | effect {e : CallOp} {k : CallSig.Ans e → Program CallSig RpcResult} (r : CallSig.Ans e)
      (hstage : c.stage = .between (.op e k)) (hop : e.stateOp? = none) :
      Step configOf s c s { c with trace := c.trace ++ [⟨e, r⟩], stage := .between (k r) }
  | start {e : CallOp} {k : CallSig.Ans e → Program CallSig RpcResult} {idx : Nat}
      {p : ThrottleConfig → Program AtomicSig (CallSig.Ans e)} {ref : DomainRef}
      (hstage : c.stage = .between (.op e k)) (hop : e.stateOp? = some (idx, p))
      (href : c.transport.endpointThrottles[idx]? = some ref) :
      Step configOf s c s { c with
        stage := .within e ⟨ref, e.recorded?.map EndpointTraffic.kind, [], p (configOf ref)⟩ k }
  | atomic {e : CallOp} {o o' : StateOp (CallSig.Ans e)}
      {k : CallSig.Ans e → Program CallSig RpcResult} {s' : DomainStates}
      (hstage : c.stage = .within e o k) (h : o.Step s s' o') :
      Step configOf s c s' { c with stage := .within e o' k }
  | finish {e : CallOp} {o : StateOp (CallSig.Ans e)}
      {k : CallSig.Ans e → Program CallSig RpcResult} {r : CallSig.Ans e}
      (hstage : c.stage = .within e o k) (hrest : o.rest = .ret r) :
      Step configOf s c s { c with trace := c.trace ++ [⟨e, r⟩], stage := .between (k r) }
  | panic {msg : String} {k : Empty → Program CallSig RpcResult}
      (hstage : c.stage = .between (.op (.panic msg) k)) :
      Step configOf s c s { c with stage := .gone }
  | unwind {e : CallOp} {o : StateOp (CallSig.Ans e)}
      {k : CallSig.Ans e → Program CallSig RpcResult} (hstage : c.stage = .within e o k)
      (h : o.Panics) :
      Step configOf s c s { c with stage := .gone }
  | cancel {e : CallOp} {k : CallSig.Ans e → Program CallSig RpcResult}
      (hstage : c.stage = .between (.op e k)) (h : e.awaits = true ∨ c.trace = []) :
      Step configOf s c s { c with stage := .gone }

/-- A public operation on a domain state, called from outside; `op` is none once a panic has unwound
    it. -/
structure ExternalCall where
  ref : DomainRef
  call : ThrottleCall
  op : Option (StateOp Unit)

/-- It has not ended. -/
def ExternalCall.underWay (x : ExternalCall) : Bool := x.op.any StateOp.underWay

/-- It begins. -/
def ExternalCall.start (configOf : DomainRef → ThrottleConfig) (ref : DomainRef)
    (call : ThrottleCall) : ExternalCall :=
  ⟨ref, call, some ⟨ref, call.traffic, [], call.program (configOf ref)⟩⟩

/-- One of its steps. -/
inductive ExternalCall.Step (s : DomainStates) (x : ExternalCall) :
    DomainStates → ExternalCall → Prop where
  | atomic {o o' : StateOp Unit} {s' : DomainStates} (hop : x.op = some o) (h : o.Step s s' o') :
      Step s x s' { x with op := some o' }
  | unwind {o : StateOp Unit} (hop : x.op = some o) (h : o.Panics) :
      Step s x s { x with op := none }

/-- Who acts on the domain states. -/
inductive TrafficTask where
  | call (c : BalancedCall)
  | external (x : ExternalCall)

inductive TrafficTask.Step (configOf : DomainRef → ThrottleConfig) (s : DomainStates) :
    TrafficTask → DomainStates → TrafficTask → Prop where
  | call {c c' : BalancedCall} {s' : DomainStates} (h : c.Step configOf s s' c') :
      Step configOf s (.call c) s' (.call c')
  | external {x x' : ExternalCall} {s' : DomainStates} (h : x.Step s s' x') :
      Step configOf s (.external x) s' (.external x')

/-- **Any number of calls** on any of the transports, and any number of external operations (the
    observers of the registry read and decay as `delay` does). -/
def trafficSystem (wire : RequestPacket → Option Nat) (configOf : DomainRef → ThrottleConfig)
    (transports : LoadBalancedTransport → Prop) : System DomainStates TrafficTask where
  act s t s' t' new := t.Step configOf s s' t' ∧ new = []
  env _ _ := False
  arrive s s' t := s' = s ∧
    ((∃ transport req, transports transport ∧
        t = .call ⟨transport, req, [], .between (call wire transport req)⟩) ∨
      ∃ ref call, t = .external (.start configOf ref call))

/-- Fresh states and nobody acting. -/
def TrafficStart (p : Pool DomainStates TrafficTask) : Prop :=
  p.tasks = [] ∧ ∀ ref, p.shared ref = .fresh

/-! ## 2. What is owed to the books -/

/-- What an operation still has to count. -/
def StateOp.due {α : Type} (o : StateOp α) : Option Traffic :=
  (countProtocol o.traffic).after o.traffic o.done

/-- What it still has to count on a domain state. -/
def StateOp.owed {α : Type} (kind : Traffic) (ref : DomainRef) (o : StateOp α) : Nat :=
  if o.ref = ref then owes o.due kind else 0

/-- The traffic the call has heard of, and what it has to record of it. -/
def BalancedCall.traffic (c : BalancedCall) : CallTraffic := callTraffic c.transport c.trace

/-- The traffic is of the kind, and at an endpoint with this domain state. -/
def EndpointTraffic.isAt (t : LoadBalancedTransport) (kind : Traffic) (ref : DomainRef)
    (x : EndpointTraffic) : Bool :=
  decide (x.kind = kind ∧ t.endpointThrottles[x.idx]? = some ref)

/-- The traffic of a kind that a task has called to be counted on a domain state. -/
def TrafficTask.called (kind : Traffic) (ref : DomainRef) : TrafficTask → Nat
  | .call c => c.traffic.all.countP (EndpointTraffic.isAt c.transport kind ref)
  | .external x => if x.ref = ref ∧ x.call.traffic = some kind then 1 else 0

def BalancedCall.owed (kind : Traffic) (ref : DomainRef) (c : BalancedCall) : Nat :=
  match c.stage with
  | .between _ => c.traffic.due.toList.countP (EndpointTraffic.isAt c.transport kind ref)
  | .within _ o _ => o.owed kind ref
  | .gone => 0

/-- What it still owes of that. -/
def TrafficTask.owed (kind : Traffic) (ref : DomainRef) : TrafficTask → Nat
  | .call c => c.owed kind ref
  | .external x => (x.op.map (StateOp.owed kind ref)).getD 0

/-- An operation keeps to what it records. -/
def StateOp.Ok {α : Type} (o : StateOp α) : Prop :=
  o.rest.Follows (countProtocol o.traffic) o.due fun due _ => due = none

/-- **What is known of a call**: it has taken steps of its program and no others, and within an
    operation on a domain state, this is the one the program is at. -/
structure BalancedCall.Ok (wire : RequestPacket → Option Nat)
    (transports : LoadBalancedTransport → Prop) (c : BalancedCall) : Prop where
  available : transports c.transport
  between : ∀ {rest}, c.stage = .between rest →
    Steps (TransportBalancer.call wire c.transport c.req) c.trace rest
  within : ∀ {e o k}, c.stage = .within e o k →
    Steps (TransportBalancer.call wire c.transport c.req) c.trace (.op e k) ∧ o.Ok ∧
      o.traffic = e.recorded?.map EndpointTraffic.kind ∧
      ∀ x, e.recorded? = some x → c.transport.endpointThrottles[x.idx]? = some o.ref
  gone : c.stage = .gone →
    ∃ e k, Steps (TransportBalancer.call wire c.transport c.req) c.trace (.op e k)

/-- What is known of an external call. -/
def ExternalCall.Ok (x : ExternalCall) : Prop :=
  ∀ o, x.op = some o → o.Ok ∧ o.ref = x.ref ∧ o.traffic = x.call.traffic

def TrafficTask.Ok (wire : RequestPacket → Option Nat)
    (transports : LoadBalancedTransport → Prop) : TrafficTask → Prop
  | .call c => c.Ok wire transports
  | .external x => x.Ok

/-! ## 3. Operations -/

section Operations

variable {α : Type} {o o' : StateOp α} {s s' : DomainStates}

theorem stateOp_start_ok {traffic : Option Traffic} {p : Program AtomicSig α} (h : Counts traffic p)
    (ref : DomainRef) : (⟨ref, traffic, [], p⟩ : StateOp α).Ok := h

theorem stateOp_due_concat (o : StateOp α) (e : AtomicOp) (r : AtomicSig.Ans e)
    (rest : Program AtomicSig α) :
    ({ o with done := o.done ++ [⟨e, r⟩], rest := rest } : StateOp α).due =
      (countProtocol o.traffic).next o.due e r := by
  unfold StateOp.due
  rw [Protocol.after_append]
  rfl

theorem stateOp_step_same (h : o.Step s s' o') : o'.ref = o.ref ∧ o'.traffic = o.traffic := by
  cases h
  exact ⟨rfl, rfl⟩

theorem stateOp_step_ok (ho : o.Ok) (h : o.Step s s' o') : o'.Ok := by
  cases h with
  | @atomic _ e k r st hrest hstep =>
    unfold StateOp.Ok at ho ⊢
    rw [hrest] at ho
    rw [stateOp_due_concat]
    exact ho.2 r trivial

/-- It owes nothing once it has returned or is about to panic, -/
theorem stateOp_returned {r : α} (ho : o.Ok) (hrest : o.rest = .ret r) : o.due = none := by
  unfold StateOp.Ok at ho
  rw [hrest] at ho
  exact ho

theorem stateOp_panics (ho : o.Ok) (h : o.Panics) : o.due = none := by
  obtain ⟨msg, k, hrest⟩ := h
  unfold StateOp.Ok at ho
  rw [hrest] at ho
  exact ho.1

theorem owed_of_due_none (hdue : o.due = none) (kind : Traffic) (ref : DomainRef) :
    o.owed kind ref = 0 := by
  unfold StateOp.owed owes
  rw [hdue]
  simp

/-- and never anything but what it records. -/
theorem stateOp_due_cases (o : StateOp α) : o.due = o.traffic ∨ o.due = none := by
  unfold StateOp.due
  suffices h : ∀ (tr : Trace AtomicSig) (due : Option Traffic), due = o.traffic ∨ due = none →
      (countProtocol o.traffic).after due tr = o.traffic ∨
        (countProtocol o.traffic).after due tr = none from h _ _ (Or.inl rfl)
  intro tr
  induction tr with
  | nil => exact fun _ h => h
  | cons ev tr ih =>
    intro due h
    refine ih _ ?_
    obtain ⟨e, r⟩ := ev
    cases e with
    | fetchAdd64 => exact Or.inr rfl
    | _ => exact h

/-- **An atomic step pays off** what it counts. -/
theorem stateOp_step_counts (ho : o.Ok) (h : o.Step s s' o') (kind : Traffic) (ref : DomainRef) :
    ∃ n, ((s' ref).get64 kind.counter).toNat ≡ ((s ref).get64 kind.counter).toNat + n
        [MOD 2 ^ 64] ∧ n + o'.owed kind ref = o.owed kind ref := by
  cases h with
  | @atomic _ e k r st hrest hstep =>
    unfold StateOp.owed
    rw [stateOp_due_concat]
    dsimp only
    by_cases href : o.ref = ref
    · subst href
      rw [Function.update_self, if_pos rfl, if_pos rfl]
      unfold StateOp.Ok at ho
      rw [hrest] at ho
      exact counts_step ho.1 hstep kind
    · rw [Function.update_of_ne (Ne.symm href), if_neg href, if_neg href]
      exact ⟨0, Nat.ModEq.refl _, rfl⟩

/-- **Only a record of the domain moves its books.** -/
theorem stateOp_step_books (ho : o.Ok) (h : o.Step s s' o') {ref : DomainRef}
    (hbooks : ¬ SameBooks (s ref) (s' ref)) : o.ref = ref ∧ ∃ kind, o.traffic = some kind := by
  cases h with
  | @atomic _ e k r st hrest hstep =>
    by_cases href : o.ref = ref
    · subst href
      refine ⟨rfl, Option.ne_none_iff_exists'.mp fun htraffic => hbooks ?_⟩
      rw [Function.update_self]
      unfold StateOp.Ok at ho
      rw [hrest, htraffic] at ho
      exact sameBooks_step ho.1 hstep
    · refine absurd ?_ hbooks
      rw [Function.update_of_ne (Ne.symm href)]
      exact .refl _

end Operations

/-! ## 4. Calls -/

theorem recorded_of_stateOp_none {e : CallOp} (h : e.stateOp? = none) : e.recorded? = none := by
  cases e <;> first | rfl | cases h

theorem recorded_of_awaits {e : CallOp} (h : e.awaits = true) : e.recorded? = none := by
  cases e <;> first | rfl | cases h

/-- The operation that an effect is records what the effect does, at its endpoint. -/
theorem stateOp_records {e : CallOp} {idx : Nat}
    {p : ThrottleConfig → Program AtomicSig (CallSig.Ans e)} (h : e.stateOp? = some (idx, p))
    (config : ThrottleConfig) : Counts (e.recorded?.map EndpointTraffic.kind) (p config) ∧
      ∀ x, e.recorded? = some x → x.idx = idx := by
  cases e with
  | preRequestDelay =>
    cases h
    exact ⟨preRequestDelay_counts config, nofun⟩
  | recordSkip =>
    cases h
    exact ⟨recordSkip_counts, fun x hx => by cases hx; rfl⟩
  | recordSuccess =>
    cases h
    exact ⟨recordSuccess_counts config, fun x hx => by cases hx; rfl⟩
  | recordRateLimit =>
    cases h
    exact ⟨recordEscalation_counts config, fun x hx => by cases hx; rfl⟩
  | _ => cases h

section Calls

variable {wire : RequestPacket → Option Nat} {configOf : DomainRef → ThrottleConfig}
  {transports : LoadBalancedTransport → Prop} {s s' : DomainStates} {c c' : BalancedCall}

theorem call_start_ok {transport : LoadBalancedTransport} (h : transports transport)
    (req : RequestPacket) : (⟨transport, req, [], .between (call wire transport req)⟩ :
      BalancedCall).Ok wire transports :=
  ⟨h, fun h => by cases h; exact .refl _, nofun, nofun⟩

theorem call_step_ok (hc : c.Ok wire transports) (h : c.Step configOf s s' c') :
    c'.Ok wire transports := by
  cases h with
  | effect r hstage hop =>
    have hs := steps_append (hc.between hstage) (.step _ r _ (.refl _))
    exact ⟨hc.available, fun h => by cases h; exact hs, nofun, nofun⟩
  | start hstage hop href =>
    obtain ⟨hcounts, hidx⟩ := stateOp_records hop (configOf _)
    refine ⟨hc.available, nofun, fun h => ?_, nofun⟩
    cases h
    refine ⟨hc.between hstage, stateOp_start_ok hcounts _, rfl, fun x hx => ?_⟩
    rw [hidx x hx]
    exact href
  | atomic hstage hstep =>
    obtain ⟨hs, hop, htraffic, href⟩ := hc.within hstage
    obtain ⟨href', htraffic'⟩ := stateOp_step_same hstep
    refine ⟨hc.available, nofun, fun h => ?_, nofun⟩
    cases h
    exact ⟨hs, stateOp_step_ok hop hstep, htraffic'.trans htraffic,
      fun x hx => href' ▸ href x hx⟩
  | @finish e o k r hstage hrest =>
    have hs := steps_append (hc.within hstage).1 (.step _ r _ (.refl _))
    exact ⟨hc.available, fun h => by cases h; exact hs, nofun, nofun⟩
  | panic hstage => exact ⟨hc.available, nofun, nofun, fun _ => ⟨_, _, hc.between hstage⟩⟩
  | unwind hstage => exact ⟨hc.available, nofun, nofun, fun _ => ⟨_, _, (hc.within hstage).1⟩⟩
  | cancel hstage => exact ⟨hc.available, nofun, nofun, fun _ => ⟨_, _, hc.between hstage⟩⟩

/-- A call has taken steps of its program. -/
theorem call_traced (hc : c.Ok wire transports) :
    ∃ rest, Steps (call wire c.transport c.req) c.trace rest := by
  cases hstage : c.stage with
  | between rest => exact ⟨rest, hc.between hstage⟩
  | within e o k => exact ⟨_, (hc.within hstage).1⟩
  | gone =>
    obtain ⟨e, k, hs⟩ := hc.gone hstage
    exact ⟨_, hs⟩

/-- At an effect, what is due is what the effect records. -/
theorem due_eq_recorded {e : CallOp} {k : CallSig.Ans e → Program CallSig RpcResult}
    (hs : Steps (call wire c.transport c.req) c.trace (.op e k)) :
    c.traffic.due = e.recorded? :=
  ((call_records c.transport c.req wire).head hs
    (Protocol.admitted_of_free (fun _ _ _ => trivial) _ _)).symm

theorem owed_between {rest : Program CallSig RpcResult} (hstage : c.stage = .between rest)
    (kind : Traffic) (ref : DomainRef) : c.owed kind ref =
      c.traffic.due.toList.countP (EndpointTraffic.isAt c.transport kind ref) := by
  unfold BalancedCall.owed
  rw [hstage]

theorem owed_within {e : CallOp} {o : StateOp (CallSig.Ans e)}
    {k : CallSig.Ans e → Program CallSig RpcResult} (hstage : c.stage = .within e o k)
    (kind : Traffic) (ref : DomainRef) : c.owed kind ref = o.owed kind ref := by
  unfold BalancedCall.owed
  rw [hstage]

/-- A call about to do what records nothing owes nothing. -/
theorem owed_of_unrecorded (hc : c.Ok wire transports) {e : CallOp}
    {k : CallSig.Ans e → Program CallSig RpcResult} (hstage : c.stage = .between (.op e k))
    (he : e.recorded? = none) (kind : Traffic) (ref : DomainRef) : c.owed kind ref = 0 := by
  rw [owed_between hstage, due_eq_recorded (hc.between hstage), he]
  rfl

/-- What was due is what the operation that begins has to count. -/
theorem owed_start (hc : c.Ok wire transports) {e : CallOp}
    {k : CallSig.Ans e → Program CallSig RpcResult} (hstage : c.stage = .between (.op e k))
    {idx : Nat} {p : ThrottleConfig → Program AtomicSig (CallSig.Ans e)}
    (hop : e.stateOp? = some (idx, p)) {r : DomainRef}
    (href : c.transport.endpointThrottles[idx]? = some r) (kind : Traffic) (ref : DomainRef)
    (config : ThrottleConfig) : StateOp.owed kind ref
      ⟨r, e.recorded?.map EndpointTraffic.kind, [], p config⟩ = c.owed kind ref := by
  obtain ⟨_, hidx⟩ := stateOp_records hop config
  rw [owed_between hstage, due_eq_recorded (hc.between hstage)]
  unfold StateOp.owed StateOp.due owes
  dsimp only
  cases hrec : e.recorded? with
  | none => simp
  | some x =>
    rw [← hidx x hrec] at href
    simp only [Protocol.after_nil, Option.map_some, Option.some.injEq, Option.toList_some,
      List.countP_singleton, EndpointTraffic.isAt, href, decide_eq_true_eq]
    by_cases hr : r = ref <;> by_cases hk : x.kind = kind <;> simp [hr, hk]

/-- One more effect adds its traffic to what is called for, and leaves it to be recorded. -/
theorem called_concat (e : CallOp) (r : CallSig.Ans e) (rest : Program CallSig RpcResult)
    (kind : Traffic) (ref : DomainRef) :
    (TrafficTask.call { c with trace := c.trace ++ [⟨e, r⟩], stage := .between rest }).called
        kind ref = (TrafficTask.call c).called kind ref +
      BalancedCall.owed kind ref
        { c with trace := c.trace ++ [⟨e, r⟩], stage := .between rest } := by
  unfold TrafficTask.called BalancedCall.owed BalancedCall.traffic
  dsimp only
  rw [callTraffic_concat]
  exact List.countP_append

/-- **A STEP OF A CALL** moves a counter by what it pays off. -/
theorem call_step_accounts (hc : c.Ok wire transports) (h : c.Step configOf s s' c')
    (kind : Traffic) (ref : DomainRef) :
    ∃ n, ((s' ref).get64 kind.counter).toNat ≡ ((s ref).get64 kind.counter).toNat + n
        [MOD 2 ^ 64] ∧
      n + c'.owed kind ref + (TrafficTask.call c).called kind ref =
        c.owed kind ref + (TrafficTask.call c').called kind ref := by
  -- a step that leaves the states and comes from a call that owes nothing
  have hidle : ∀ {c' : BalancedCall}, c.owed kind ref = 0 →
      c'.owed kind ref + (TrafficTask.call c).called kind ref =
        (TrafficTask.call c').called kind ref →
      ∃ n, ((s ref).get64 kind.counter).toNat ≡ ((s ref).get64 kind.counter).toNat + n
          [MOD 2 ^ 64] ∧ n + c'.owed kind ref + (TrafficTask.call c).called kind ref =
        c.owed kind ref + (TrafficTask.call c').called kind ref := by
    intro c' howed hcalled
    exact ⟨0, Nat.ModEq.refl _, by omega⟩
  cases h with
  | @effect e k r hstage hop =>
    refine hidle (owed_of_unrecorded hc hstage (recorded_of_stateOp_none hop) kind ref) ?_
    rw [called_concat, Nat.add_comm]
  | @start e k idx p r hstage hop href =>
    refine ⟨0, Nat.ModEq.refl _, ?_⟩
    rw [← owed_start hc hstage hop href kind ref (configOf r), Nat.zero_add]
    rfl
  | @atomic e o o' k s' hstage hstep =>
    obtain ⟨n, hmove, hpaid⟩ := stateOp_step_counts (hc.within hstage).2.1 hstep kind ref
    refine ⟨n, hmove, ?_⟩
    rw [owed_within hstage, ← hpaid]
    rfl
  | @finish e o k r hstage hrest =>
    have hdue := stateOp_returned (hc.within hstage).2.1 hrest
    refine hidle ((owed_within hstage kind ref).trans (owed_of_due_none hdue kind ref)) ?_
    rw [called_concat, Nat.add_comm]
  | panic hstage => exact hidle (owed_of_unrecorded hc hstage rfl kind ref) (Nat.zero_add _)
  | @unwind e o k hstage hpanics =>
    have hdue := stateOp_panics (hc.within hstage).2.1 hpanics
    exact hidle ((owed_within hstage kind ref).trans (owed_of_due_none hdue kind ref))
      (Nat.zero_add _)
  | cancel hstage hcancel =>
    rcases hcancel with hawaits | hempty
    · exact hidle (owed_of_unrecorded hc hstage (recorded_of_awaits hawaits) kind ref)
        (Nat.zero_add _)
    · have hdue : c.traffic.due = none := by
        unfold BalancedCall.traffic
        rw [hempty]
        rfl
      refine hidle ?_ (Nat.zero_add _)
      rw [owed_between hstage, hdue]
      rfl

end Calls

/-! ## 5. External calls -/

section Externals

variable {s s' : DomainStates} {x x' : ExternalCall}

theorem external_start_ok (configOf : DomainRef → ThrottleConfig) (ref : DomainRef)
    (call : ThrottleCall) : (ExternalCall.start configOf ref call).Ok := by
  intro o ho
  cases ho
  exact ⟨stateOp_start_ok (program_counts _ call) ref, rfl, rfl⟩

theorem external_step_ok (hx : x.Ok) (h : x.Step s s' x') : x'.Ok := by
  cases h with
  | atomic hop hstep =>
    obtain ⟨hok, href, htraffic⟩ := hx _ hop
    obtain ⟨href', htraffic'⟩ := stateOp_step_same hstep
    intro o ho
    cases ho
    exact ⟨stateOp_step_ok hok hstep, href'.trans href, htraffic'.trans htraffic⟩
  | unwind => exact nofun

/-- **A step of an external call**, likewise. -/
theorem external_step_accounts (hx : x.Ok) (h : x.Step s s' x') (kind : Traffic)
    (ref : DomainRef) :
    ∃ n, ((s' ref).get64 kind.counter).toNat ≡ ((s ref).get64 kind.counter).toNat + n
        [MOD 2 ^ 64] ∧
      n + (TrafficTask.external x').owed kind ref + (TrafficTask.external x).called kind ref =
        (TrafficTask.external x).owed kind ref + (TrafficTask.external x').called kind ref := by
  cases h with
  | @atomic o o' s' hop hstep =>
    obtain ⟨n, hmove, hpaid⟩ := stateOp_step_counts (hx _ hop).1 hstep kind ref
    have howed : (TrafficTask.external x).owed kind ref = o.owed kind ref := by
      unfold TrafficTask.owed
      dsimp only
      rw [hop]
      rfl
    refine ⟨n, hmove, ?_⟩
    rw [howed, ← hpaid]
    rfl
  | @unwind o hop hpanics =>
    have howed : (TrafficTask.external x).owed kind ref = 0 := by
      unfold TrafficTask.owed
      dsimp only
      rw [hop]
      exact owed_of_due_none (stateOp_panics (hx _ hop).1 hpanics) kind ref
    refine ⟨0, Nat.ModEq.refl _, ?_⟩
    rw [howed]
    rfl

end Externals

/-! ## 6. Every interleaving -/

section Pools

variable {wire : RequestPacket → Option Nat} {configOf : DomainRef → ThrottleConfig}
  {transports : LoadBalancedTransport → Prop} {p : Pool DomainStates TrafficTask}

theorem traffic_step_ok {s s' : DomainStates} {t t' : TrafficTask} (ht : t.Ok wire transports)
    (h : t.Step configOf s s' t') : t'.Ok wire transports := by
  cases h with
  | call h => exact call_step_ok ht h
  | external h => exact external_step_ok ht h

/-- **On every reachable pool every task keeps to its program.** -/
theorem traffic_ok (hr : (trafficSystem wire configOf transports).Reachable TrafficStart p) :
    ∀ t ∈ p.tasks, t.Ok wire transports := by
  refine System.Reachable.taskInv (fun p hp t ht => ?_) (fun ht hs => ?_) (fun ha => ?_) hr
  · rw [hp.1] at ht
    exact absurd ht List.not_mem_nil
  · obtain ⟨hs, rfl⟩ := hs
    exact ⟨traffic_step_ok ht hs, nofun⟩
  · obtain ⟨_, ⟨transport, req, h, rfl⟩ | ⟨ref, call, rfl⟩⟩ := ha
    · exact call_start_ok h req
    · exact external_start_ok configOf ref call

/-- **Counter and records due make up the traffic**, up to wrapping, in every reachable pool. -/
theorem counter_accounts (hr : (trafficSystem wire configOf transports).Reachable TrafficStart p)
    (kind : Traffic) (ref : DomainRef) :
    ((p.shared ref).get64 kind.counter).toNat + p.total (TrafficTask.owed kind ref) ≡
      p.total (TrafficTask.called kind ref) [MOD 2 ^ 64] := by
  refine System.Reachable.accounted (f := fun s : DomainStates =>
    ((s ref).get64 kind.counter).toNat) (fun p hp => ?_) (fun {p s' t t' new} hr ht h => ?_)
    (fun (he : False) => he.elim) (fun {s s' t} ha => ?_) hr
  · unfold Pool.total
    rw [hp.1, hp.2]
    cases kind <;> exact Nat.ModEq.refl _
  · obtain ⟨h, rfl⟩ := h
    refine ⟨rfl, ?_⟩
    have hok := traffic_ok hr t ht
    cases h with
    | call h => exact call_step_accounts hok h kind ref
    | external h => exact external_step_accounts hok h kind ref
  · obtain ⟨rfl, ⟨transport, req, _, rfl⟩ | ⟨ref', call, rfl⟩⟩ := ha
    · exact ⟨rfl, rfl⟩
    · refine ⟨rfl, ?_⟩
      unfold TrafficTask.owed TrafficTask.called ExternalCall.start StateOp.owed StateOp.due owes
      simp only [Option.map_some, Option.getD_some, Protocol.after_nil]
      by_cases href : ref' = ref <;> by_cases hkind : call.traffic = some kind <;>
        simp [href, hkind]

/-- **A record is under way**: a call is between the traffic and the end of its record, or an
    external record has not ended. -/
def TrafficTask.Recording (kind : Traffic) (ref : DomainRef) : TrafficTask → Prop
  | .call c => c.stage ≠ .gone ∧ ∃ idx, c.traffic.due = some ⟨kind, idx⟩ ∧
      c.transport.endpointThrottles[idx]? = some ref
  | .external x => x.ref = ref ∧ x.call.traffic = some kind ∧ x.underWay = true

theorem underWay_of_due {x : ExternalCall} {o : StateOp Unit} (hx : x.op = some o) (ho : o.Ok)
    (hdue : o.due ≠ none) : x.underWay = true := by
  unfold ExternalCall.underWay StateOp.underWay
  rw [hx, Option.any_some]
  cases hrest : o.rest with
  | ret r => exact absurd (stateOp_returned ho hrest) hdue
  | op e k => rfl

/-- Within an operation that records, the call is recording. -/
theorem recording_within {c : BalancedCall} (hc : c.Ok wire transports) {e : CallOp}
    {o : StateOp (CallSig.Ans e)} {k : CallSig.Ans e → Program CallSig RpcResult}
    (hstage : c.stage = .within e o k) {kind : Traffic} (htraffic : o.traffic = some kind) :
    (TrafficTask.call c).Recording kind o.ref := by
  obtain ⟨hs, _, hrec, href⟩ := hc.within hstage
  rw [htraffic] at hrec
  obtain ⟨⟨kind, idx⟩, hx, rfl⟩ := Option.map_eq_some_iff.mp hrec.symm
  exact ⟨by rw [hstage]; exact nofun, idx, (due_eq_recorded hs).trans hx, href _ hx⟩

/-- **What records nothing owes nothing.** -/
theorem owed_of_not_recording {t : TrafficTask} (ht : t.Ok wire transports) {kind : Traffic}
    {ref : DomainRef} (h : ¬ t.Recording kind ref) : t.owed kind ref = 0 := by
  have hop : ∀ {α : Type} (o : StateOp α), o.owed kind ref ≠ 0 →
      o.ref = ref ∧ o.traffic = some kind ∧ o.due ≠ none := by
    intro α o howed
    unfold StateOp.owed owes at howed
    split at howed
    · rename_i href
      split at howed
      · rename_i hdue
        have hne : o.due ≠ none := by
          rw [hdue]
          exact nofun
        exact ⟨href, ((stateOp_due_cases o).resolve_right hne).symm.trans hdue, hne⟩
      · exact absurd rfl howed
    · exact absurd rfl howed
  by_contra howed
  refine h ?_
  cases t with
  | call c =>
    unfold TrafficTask.owed BalancedCall.owed at howed
    dsimp only at howed
    split at howed
    · rename_i rest hstage
      obtain ⟨x, hx, hat⟩ := List.countP_pos_iff.mp (Nat.pos_of_ne_zero howed)
      obtain ⟨hkind, href⟩ := of_decide_eq_true hat
      subst hkind
      exact ⟨by rw [hstage]; exact nofun, x.idx, Option.mem_toList.mp hx, href⟩
    · rename_i hstage
      obtain ⟨rfl, htraffic, _⟩ := hop _ howed
      exact recording_within ht hstage htraffic
    · exact absurd rfl howed
  | external x =>
    cases hx : x.op with
    | none =>
      unfold TrafficTask.owed at howed
      dsimp only at howed
      rw [hx] at howed
      exact absurd rfl howed
    | some o =>
      obtain ⟨hok, href, htraffic⟩ := ht o hx
      unfold TrafficTask.owed at howed
      dsimp only at howed
      rw [hx] at howed
      obtain ⟨rfl, hkind, hdue⟩ := hop o howed
      exact ⟨href.symm, htraffic.symm.trans hkind, underWay_of_due hx hok hdue⟩

theorem external_owed_le (x : ExternalCall) (kind : Traffic) (ref : DomainRef) :
    (TrafficTask.external x).owed kind ref ≤ 1 := by
  unfold TrafficTask.owed
  dsimp only
  cases x.op with
  | none => exact Nat.zero_le 1
  | some o =>
    rw [Option.map_some, Option.getD_some]
    unfold StateOp.owed owes
    split
    · split
      · exact Nat.le_refl 1
      · exact Nat.zero_le 1
    · exact Nat.zero_le 1

/-- **Only a record of a domain moves its books.** -/
theorem recording_of_moved {s s' : DomainStates} {t t' : TrafficTask} (ht : t.Ok wire transports)
    (h : t.Step configOf s s' t') {ref : DomainRef} (hbooks : ¬ SameBooks (s ref) (s' ref)) :
    ∃ kind, t.Recording kind ref := by
  cases h with
  | call h =>
    cases h with
    | atomic hstage hstep =>
      obtain ⟨rfl, kind, htraffic⟩ := stateOp_step_books (ht.within hstage).2.1 hstep hbooks
      exact ⟨kind, recording_within ht hstage htraffic⟩
    | effect | start | finish | panic | unwind | cancel => exact absurd (.refl _) hbooks
  | external h =>
    cases h with
    | @atomic o o' s' hop hstep =>
      obtain ⟨hok, href, htraffic⟩ := ht _ hop
      obtain ⟨rfl, kind, hkind⟩ := stateOp_step_books hok hstep hbooks
      refine ⟨kind, href.symm, htraffic.symm.trans hkind, ?_⟩
      cases hstep with
      | atomic _ hrest =>
        unfold ExternalCall.underWay StateOp.underWay
        rw [hop, Option.any_some, hrest]
    | unwind => exact absurd (.refl _) hbooks

end Pools

/-! ## 7. The traffic of a domain -/

/-- The domain key of an endpoint of a transport. -/
def LoadBalancedTransport.domainOf (t : LoadBalancedTransport) (idx : Nat) : Option String :=
  t.endpoints[idx]?.bind fun http => extractRateLimitDomain (http.url.host.getD "unknown")

/-- The transport has been built. -/
def BuiltIn (p : Pool ProcessState ProcessTask) (t : LoadBalancedTransport) : Prop :=
  ∃ task ∈ p.tasks, ∃ b, task.call = .build b ∧ task.rest = some (.ret (.transport t))

/-- **The endpoints of a domain are those with its state.** -/
theorem throttle_iff_domain {p : Pool ProcessState ProcessTask}
    (hr : processes.Reachable ProcessStart p) {domain : String} {ref : DomainRef}
    (hholds : throttleView.Holds p.shared domain ref) {t : LoadBalancedTransport}
    (hb : BuiltIn p t) (idx : Nat) :
    t.endpointThrottles[idx]? = some ref ↔ t.domainOf idx = some domain := by
  obtain ⟨task, htask, b, hcall, hres⟩ := hb
  have hanswered := answered_reachable hr htask hres
  rw [hcall] at hanswered
  have hurls := (build_carries (build_runs hr htask hcall hres)).1.urls
  unfold LoadBalancedTransport.domainOf
  cases he : b.endpoints[idx]? with
  | none =>
    have hlen := congrArg List.length hurls
    rw [List.length_map, List.length_map] at hlen
    have hle := List.getElem?_eq_none_iff.mp he
    rw [List.getElem?_eq_none (t.throttles_length ▸ hlen ▸ hle),
      List.getElem?_eq_none (hlen ▸ hle)]
    exact iff_of_false nofun nofun
  | some endpoint =>
    obtain ⟨throttle, http, hthrottle, hhttp, ⟨domain', hkey, hl⟩, _⟩ := built_entries hanswered he
    have hurl := congrArg (fun urls : List Url => urls[idx]?) hurls
    simp only [List.getElem?_map, hhttp, he, Option.map_some, Option.some.injEq] at hurl
    rw [hthrottle, hhttp, Option.bind_some, hurl]
    unfold EndpointConfig.domainKey at hkey
    rw [hkey, Option.some.injEq, Option.some.injEq]
    exact Registry.lookup_eq_iff hl hholds

/-- What a call has heard of the endpoints of a domain. -/
def TrafficTask.heard (kind : Traffic) (domain : String) : TrafficTask → Nat
  | .call c =>
    c.traffic.all.countP fun x => x.kind = kind ∧ c.transport.domainOf x.idx = some domain
  | .external _ => 0

/-- What an external call reports of a domain, -/
def TrafficTask.reported (kind : Traffic) (ref : DomainRef) : TrafficTask → Nat
  | .call _ => 0
  | .external x => if x.ref = ref ∧ x.call.traffic = some kind then 1 else 0

/-- and what it has reported by its end. -/
def TrafficTask.ended (kind : Traffic) (ref : DomainRef) : TrafficTask → Nat
  | .call _ => 0
  | .external x =>
    if x.underWay = true then 0 else (TrafficTask.external x).reported kind ref

/-- **The books of a domain match its traffic.** -/
structure BooksMatch (Y : System DomainStates TrafficTask) (wire : RequestPacket → Option Nat)
    (domain : String) (ref : DomainRef) (q : Pool DomainStates TrafficTask) : Prop where
  /-- While no call is recording traffic of a kind, its counter is, up to wrapping, what the calls
      have heard and so many of the external reports: all that have ended, none that has not
      begun. -/
  counted : ∀ kind, (∀ c, .call c ∈ q.tasks → ¬ (TrafficTask.call c).Recording kind ref) →
    ∃ reports, (q.shared ref).get64 kind.counter =
        UInt64.ofNat (q.total (TrafficTask.heard kind domain) + reports) ∧
      q.total (TrafficTask.ended kind ref) ≤ reports ∧
      reports ≤ q.total (TrafficTask.reported kind ref)
  /-- So with no external record under way either, all of them. -/
  settled : ∀ kind, (∀ task ∈ q.tasks, ¬ task.Recording kind ref) →
    (q.shared ref).get64 kind.counter =
      UInt64.ofNat (q.total (TrafficTask.heard kind domain) +
        q.total (TrafficTask.reported kind ref))
  /-- A step that moves the books is a step of such a record. -/
  moved : ∀ {w q'}, Y.Step q w q' → ¬ SameBooks (q.shared ref) (q'.shared ref) →
    ∃ i task kind, w = .task i ∧ q.tasks[i]? = some task ∧ task.Recording kind ref
  /-- After an error that is no rate limit nothing is recorded, -/
  failed : ∀ c, .call c ∈ q.tasks → ∀ tr idx req err,
    c.trace = tr ++ [⟨.send idx req, .error err⟩] → isRateLimit err = false →
      ∀ kind, ¬ (TrafficTask.call c).Recording kind ref
  /-- and a call with a request too large for every endpoint has ended where it began. -/
  rejected : ∀ c, .call c ∈ q.tasks → eligible c.transport (requestBytes wire c.req) = [] →
    c.trace = [] ∧ c.stage = .between (.ret (.error sizeLimitError))

section Domains

variable {p : Pool ProcessState ProcessTask} {domain : String} {ref : DomainRef}
  {wire : RequestPacket → Option Nat} {configOf : DomainRef → ThrottleConfig}
  {q : Pool DomainStates TrafficTask}

/-- What is called for is what calls have heard and external calls report. -/
theorem called_eq (hp : processes.Reachable ProcessStart p)
    (hholds : throttleView.Holds p.shared domain ref) {task : TrafficTask}
    (hok : task.Ok wire (BuiltIn p)) (kind : Traffic) :
    task.called kind ref = task.heard kind domain + task.reported kind ref := by
  cases task with
  | call c =>
    refine List.countP_congr fun x _ => ?_
    unfold EndpointTraffic.isAt
    rw [decide_eq_true_eq, decide_eq_true_eq,
      throttle_iff_domain hp hholds (BalancedCall.Ok.available hok) x.idx]
  | external x => exact (Nat.zero_add _).symm

/-- A call that no endpoint accepts. -/
theorem rejected_stays {transports : LoadBalancedTransport → Prop} {c : BalancedCall}
    (hc : c.Ok wire transports) (hnone : eligible c.transport (requestBytes wire c.req) = []) :
    c.trace = [] ∧ c.stage = .between (.ret (.error sizeLimitError)) := by
  have hsteps : ∀ {rest}, Steps (call wire c.transport c.req) c.trace rest →
      c.trace = [] ∧ rest = .ret (.error sizeLimitError) := by
    intro rest hs
    rw [call_eq_of_not_accepted c.transport c.req wire hnone] at hs
    exact steps_ret.mp hs
  cases hstage : c.stage with
  | between rest =>
    obtain ⟨htrace, rfl⟩ := hsteps (hc.between hstage)
    exact ⟨htrace, rfl⟩
  | within e o k => exact nomatch (hsteps (hc.within hstage).1).2
  | gone =>
    obtain ⟨e, k, hs⟩ := hc.gone hstage
    exact nomatch (hsteps hs).2

/-- What an external call owes it reports, and has not ended. -/
theorem ended_add_owed_le {task : TrafficTask} (hok : task.Ok wire (BuiltIn p)) {kind : Traffic}
    (hquiet : ∀ c, task = .call c → ¬ task.Recording kind ref) :
    task.ended kind ref + task.owed kind ref ≤ task.reported kind ref := by
  cases task with
  | call c => exact Nat.le_of_eq ((Nat.zero_add _).trans (owed_of_not_recording hok (hquiet c rfl)))
  | external x =>
    unfold TrafficTask.ended
    dsimp only
    by_cases hrec : (TrafficTask.external x).Recording kind ref
    · obtain ⟨href, hkind, hway⟩ := hrec
      rw [if_pos hway, Nat.zero_add]
      unfold TrafficTask.reported
      dsimp only
      rw [if_pos ⟨href, hkind⟩]
      exact external_owed_le x kind ref
    · rw [owed_of_not_recording hok hrec, Nat.add_zero]
      split
      · exact Nat.zero_le _
      · exact Nat.le_refl _

theorem ended_of_not_recording {task : TrafficTask} {kind : Traffic}
    (h : ¬ task.Recording kind ref) : task.ended kind ref = task.reported kind ref := by
  cases task with
  | call c => rfl
  | external x =>
    unfold TrafficTask.ended
    dsimp only
    split
    · rename_i hway
      exact (if_neg fun hmatch => h ⟨hmatch.1, hmatch.2, hway⟩).symm
    · rfl

/-- **While no call is recording**, a counter is what calls have heard and so many reports. -/
theorem counter_between (hp : processes.Reachable ProcessStart p)
    (hholds : throttleView.Holds p.shared domain ref)
    (hq : (trafficSystem wire configOf (BuiltIn p)).Reachable TrafficStart q) {kind : Traffic}
    (hquiet : ∀ c, .call c ∈ q.tasks → ¬ (TrafficTask.call c).Recording kind ref) :
    ∃ reports, (q.shared ref).get64 kind.counter =
        UInt64.ofNat (q.total (TrafficTask.heard kind domain) + reports) ∧
      q.total (TrafficTask.ended kind ref) ≤ reports ∧
      reports ≤ q.total (TrafficTask.reported kind ref) := by
  have hok := traffic_ok hq
  have hcalled : q.total (TrafficTask.called kind ref) =
      q.total (TrafficTask.heard kind domain) + q.total (TrafficTask.reported kind ref) := by
    rw [← total_add]
    exact congrArg List.sum (List.map_congr_left fun task htask =>
      called_eq hp hholds (hok task htask) kind)
  have howed : q.total (TrafficTask.ended kind ref) + q.total (TrafficTask.owed kind ref) ≤
      q.total (TrafficTask.reported kind ref) := by
    rw [← total_add]
    exact total_mono fun task htask => ended_add_owed_le (hok task htask) fun c hc =>
      hc ▸ hquiet c (hc ▸ htask)
  refine ⟨q.total (TrafficTask.reported kind ref) - q.total (TrafficTask.owed kind ref), ?_,
    by omega, Nat.sub_le _ _⟩
  have haccounts := counter_accounts hq kind ref
  rw [hcalled, show q.total (TrafficTask.heard kind domain) +
      q.total (TrafficTask.reported kind ref) = q.total (TrafficTask.heard kind domain) +
        (q.total (TrafficTask.reported kind ref) - q.total (TrafficTask.owed kind ref)) +
          q.total (TrafficTask.owed kind ref) by omega] at haccounts
  refine UInt64.toNat_inj.mp ?_
  rw [UInt64.toNat_ofNat']
  exact (Nat.mod_eq_of_lt (UInt64.toNat_lt _)).symm.trans (haccounts.add_right_cancel' _)

/-- **THROTTLE ACCOUNTING MATCHES THE TRAFFIC.** Of a registered domain, in every reachable pool of
    calls on built transports and of external calls. -/
theorem accounts_match (hp : processes.Reachable ProcessStart p)
    (hholds : throttleView.Holds p.shared domain ref)
    (hq : (trafficSystem wire configOf (BuiltIn p)).Reachable TrafficStart q) :
    BooksMatch (trafficSystem wire configOf (BuiltIn p)) wire domain ref q := by
  have hok := traffic_ok hq
  refine ⟨fun kind => counter_between hp hholds hq, fun kind hquiet => ?_,
    fun {w q'} hs hbooks => ?_, ?_, fun c hc hnone => rejected_stays (hok _ hc) hnone⟩
  · obtain ⟨reports, hcount, hleast, hmost⟩ := counter_between hp hholds hq fun c hc =>
      hquiet (.call c) hc
    have hended : q.total (TrafficTask.ended kind ref) = q.total (TrafficTask.reported kind ref) :=
      congrArg List.sum (List.map_congr_left fun task htask =>
        ended_of_not_recording (hquiet task htask))
    rw [hcount, show reports = q.total (TrafficTask.reported kind ref) by omega]
  · cases hs with
    | @act s s' l r new t t' h =>
      obtain ⟨kind, hrec⟩ := recording_of_moved (hok t (by simp)) h.1 hbooks
      exact ⟨l.length, t, kind, rfl, by simp, hrec⟩
    | env h => exact h.elim
    | arrive h =>
      obtain ⟨rfl, _⟩ := h
      exact absurd (.refl _) hbooks
  · intro c _ tr idx req err htrace hother kind hrec
    obtain ⟨_, i, hdue, _⟩ := hrec
    unfold BalancedCall.traffic at hdue
    rw [htrace, callTraffic_concat] at hdue
    have hnone : trafficOf c.transport (callTraffic c.transport tr).log.readings (.send idx req)
        (.error err) = none := if_neg (by rw [hother]; exact Bool.false_ne_true)
    exact nomatch hnone.symm.trans hdue

end Domains

/-- One endpoint, as its builder is given it and as it is built. -/
def oneHost : LoadBalancedTransportBuilder :=
  builderWithEndpoints [.new ⟨some "lb.drpc.org", "https://lb.drpc.org/"⟩ ⟨50⟩]

theorem pos_of_unlimited (k : Nat) (h : none = some k) : 0 < k := nomatch h

def oneEndpoint : LoadBalancedTransport where
  toEndpointTable := EndpointTable.empty.push ⟨0, ⟨some "lb.drpc.org", "https://lb.drpc.org/"⟩⟩ 0
    none none 50 (by decide) pos_of_unlimited pos_of_unlimited
  config := .default
  nonempty := List.cons_ne_nil _ _

/-- A call gets an `Ok` reply and records it while an external rate limit is recorded, too. -/
theorem accounts_match_one : ∃ p q, processes.Reachable ProcessStart p ∧
    (trafficSystem (fun _ => some 100) (fun _ => .default) (BuiltIn p)).Reachable TrafficStart q ∧
    (q.shared 0).totalSuccesses = 1 ∧ (q.shared 0).totalRateLimits = 1 ∧
    q.total (TrafficTask.heard .okReply "drpc.org") = 1 ∧
    BooksMatch (trafficSystem (fun _ => some 100) (fun _ => .default) (BuiltIn p))
      (fun _ => some 100) "drpc.org" 0 q := by
  obtain ⟨s, heval, hholds⟩ : ∃ s, (build oneHost).eval processHandler .initial =
      some (oneEndpoint, s) ∧ s.throttles.lookup "drpc.org" = some 0 := ⟨_, rfl, rfl⟩
  obtain ⟨vs, tr, hbuilt⟩ := build_alone heval
  have hstart : ProcessStart ⟨.initial, []⟩ := ⟨⟨_, _, rfl⟩, rfl⟩
  have hp := (System.Reachable.start hstart).run hbuilt
  have h₀ : (trafficSystem (fun _ => some 100) (fun _ => .default)
      (BuiltIn ⟨s, [⟨.build oneHost, tr, some (.ret (.transport oneEndpoint))⟩]⟩)).Reachable
        TrafficStart ⟨fun _ => .fresh, []⟩ := .start ⟨rfl, fun _ => rfl⟩
  have h₁ := h₀.step (.arrive ⟨rfl, Or.inl ⟨oneEndpoint, .batch [],
    ⟨_, List.mem_singleton_self _, oneHost, rfl, rfl⟩, rfl⟩⟩)
  have h₂ := h₁.step (.arrive ⟨rfl, Or.inr ⟨0, .rateLimit, rfl⟩⟩)
  -- the counter, a reading of the fresh state, and the request with its reply
  have h₃ := h₂.step (.at (i := 0) rfl ⟨.call (.effect (0 : UInt64) rfl rfl), rfl⟩)
  have h₄ := h₃.step (.at (i := 0) rfl ⟨.call (.start rfl rfl rfl), rfl⟩)
  have h₅ := h₄.step (.at (i := 0) rfl ⟨.call (.atomic rfl (.atomic 1 rfl rfl)), rfl⟩)
  have h₆ := h₅.step (.at (i := 0) rfl ⟨.call (.finish rfl rfl), rfl⟩)
  have h₇ := h₆.step (.at (i := 0) rfl
    ⟨.call (.effect (Except.ok (.batch []) : RpcResult) rfl rfl), rfl⟩)
  -- the two records, in turns
  have h₈ := h₇.step (.at (i := 0) rfl ⟨.call (.start rfl rfl rfl), rfl⟩)
  have h₉ := h₈.step (.at (i := 1) rfl ⟨.external (.atomic rfl (.atomic 1 rfl rfl)), rfl⟩)
  have h₁₀ := h₉.step (.at (i := 1) rfl ⟨.external (.atomic rfl (.atomic 1 rfl rfl)), rfl⟩)
  have h₁₁ := h₁₀.step (.at (i := 0) rfl ⟨.call (.atomic rfl (.atomic 1 rfl rfl)), rfl⟩)
  have h₁₂ := h₁₁.step (.at (i := 1) rfl ⟨.external (.atomic rfl (.atomic 1 rfl rfl)), rfl⟩)
  have h₁₃ := h₁₂.step (.at (i := 1) rfl ⟨.external (.atomic rfl (.atomic 1 rfl rfl)), rfl⟩)
  have h₁₄ := h₁₃.step (.at (i := 0) rfl ⟨.call (.atomic rfl (.atomic 1 rfl rfl)), rfl⟩)
  have h₁₅ := h₁₄.step (.at (i := 0) rfl ⟨.call (.finish rfl rfl), rfl⟩)
  have h₁₆ := h₁₅.step (.at (i := 1) rfl ⟨.external (.atomic rfl (.atomic 1 rfl rfl)), rfl⟩)
  exact ⟨_, _, hp, h₁₆, rfl, rfl, rfl, accounts_match hp hholds h₁₆⟩

end TransportBalancer
