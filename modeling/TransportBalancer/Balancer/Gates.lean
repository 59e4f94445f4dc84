/-
  File:      TransportBalancer/Balancer/Gates.lean
  Subject:   THE IN-FLIGHT GATES under any number of concurrent calls on clones of one transport.

  A call is the rest of its program and the permits it holds. A gate's free permits are shared.
  Acquiring takes a free permit, the end of `_permit`'s scope gives it back, and so does dropping
  the call's future at any point.

  * `permitProtocol` -- where in a call each permit may be taken, held and given back;
  * `permits_conserved` -- free permits and permits held by calls under way make up the limit;
  * **`gates_hold`** -- never more requests outstanding than the limit, no permit lost or doubled,
    at most one held, none while waiting, hence no cycle of waiting calls.
-/
import Mathlib.Logic.Relation
import TransportBalancer.Balancer.LoopRules
import TransportBalancer.Lib.Pool

namespace TransportBalancer

open Interaction TaskPool

/-! ## 1. Calls and gates -/

/-- A call: its program from here on (`none` once its future has been dropped) and the endpoints
    whose permits it holds. -/
structure CallTask where
  rest : Option (Program CallSig RpcResult)
  held : List Nat

/-- The free permits of each endpoint's gate. -/
structure GateState where
  free : Nat → Nat

/-- The permits `held` go back to their gates. -/
def GateState.giveBack (s : GateState) (held : List Nat) : GateState :=
  ⟨fun idx => s.free idx + held.count idx⟩

/-- What an effect of a call does to the gates and to the permits it holds, once it is answered.
    `acquire_owned` is answered with a permit only when one is free. -/
def gateStep (s : GateState) (held : List Nat) : (e : CallOp) → CallSig.Ans e →
    Option (GateState × List Nat)
  | .acquireOwned idx, .permit =>
    if 0 < s.free idx then
      some (⟨fun i => if i = idx then s.free i - 1 else s.free i⟩, idx :: held)
    else none
  | .dropPermit idx, _ =>
    if idx ∈ held then some (s.giveBack [idx], held.erase idx) else none
  | _, _ => some (s, held)

/-- One step of a call: an effect with any answer, or its future is dropped (by its caller at an
    await point, elsewhere by a panic that unwinds it) and its permits with it. -/
inductive CallTask.Step (s : GateState) (c : CallTask) : GateState → CallTask → Prop where
  | effect {e : CallOp} {k : CallSig.Ans e → Program CallSig RpcResult} (r : CallSig.Ans e)
      {s' : GateState} {held' : List Nat} (hrest : c.rest = some (.op e k))
      (hgate : gateStep s c.held e r = some (s', held')) : Step s c s' ⟨some (k r), held'⟩
  | drop {e : CallOp} {k : CallSig.Ans e → Program CallSig RpcResult}
      (hrest : c.rest = some (.op e k)) : Step s c (s.giveBack c.held) ⟨none, []⟩

/-- **The calls on clones of one transport.** -/
def gateSystem (wire : RequestPacket → Option Nat) (t : LoadBalancedTransport) :
    System GateState CallTask where
  act s c s' c' new := c.Step s s' c' ∧ new = []
  env _ _ := False
  arrive s s' c := s' = s ∧ ∃ req, c = ⟨some (call wire t req), []⟩

/-- No calls, and every gate with the permits it was built with. -/
def GatesStart (t : LoadBalancedTransport) (p : Pool GateState CallTask) : Prop :=
  p.tasks = [] ∧ ∀ idx limit, t.inFlightLimit idx = some limit → p.shared.free idx = limit

/-! ## 2. Permits in the program of a call -/

/-- **The permit protocol**: a call asks for a permit and sleeps between rounds with none; it sends
    with the permit of the endpoint it sends to, if that has a gate; it drops what it holds. -/
def permitProtocol (t : LoadBalancedTransport) : Protocol CallSig (List Nat) where
  ok held e :=
    match e with
    | .acquireOwned _ | .sleep .betweenRounds _ => held = []
    | .dropPermit idx => held = [idx]
    | .send idx _ => (t.inFlightLimit idx).isSome = true → held = [idx]
    | _ => True
  admits _ _ _ := True
  next held e r :=
    match e, r with
    | .acquireOwned idx, .permit => idx :: held
    | .dropPermit idx, _ => held.erase idx
    | _, _ => held

section Protocol

variable (t : LoadBalancedTransport) (req : RequestPacket) (bytes : Nat)

/-- The permits held within the scope of `_permit` for an endpoint. -/
def scopePermits (idx : Nat) : List Nat := if (t.inFlightLimit idx).isSome then [idx] else []

theorem lookAhead_permits (startIdx : Nat) (later : List Nat) :
    (hasUnthrottledEligibleAlternative t bytes startIdx later).Follows (permitProtocol t) []
      fun held _ => held = [] := by
  induction later with
  | nil => exact rfl
  | cons nextAttempt later ih =>
    unfold hasUnthrottledEligibleAlternative
    dsimp only
    split
    · rw [CallOp.perform_bind]
      refine ⟨trivial, fun delay _ => ?_⟩
      dsimp only
      split
      · exact rfl
      · exact ih
    · exact ih

theorem acquirePermit_permits (idx : Nat) :
    (acquirePermit t idx).Follows (permitProtocol t) [] fun held granted =>
      held = if granted = true then scopePermits t idx else [] := by
  unfold acquirePermit scopePermits
  split
  · rename_i limit hlimit
    rw [hlimit]
    refine ⟨rfl, fun answer _ => ?_⟩
    cases answer <;> exact rfl
  · rename_i hlimit
    simp [hlimit]

theorem dropPermit_permits (idx : Nat) :
    (dropPermit t idx).Follows (permitProtocol t) (scopePermits t idx) fun held _ => held = [] := by
  unfold dropPermit scopePermits
  split
  · rename_i limit hlimit
    rw [hlimit]
    exact ⟨rfl, fun _ _ => List.erase_cons_head idx []⟩
  · rename_i hlimit
    simp [hlimit]

/-- **The scope of `_permit`**: on every way out of it the permit is dropped. -/
theorem sendTo_permits (idx attempt : Nat) :
    (sendTo t req idx attempt).Follows (permitProtocol t) (scopePermits t idx)
      fun held _ => held = [] := by
  have hdrop : ∀ out, (dropPermit t idx >>= fun _ => (pure out : Program CallSig
      (RpcResult ⊕ TransportError))).Follows (permitProtocol t) (scopePermits t idx)
        fun held _ => held = [] :=
    fun out => (dropPermit_permits t idx).bind fun _ _ h => h
  have hfailure : ∀ err, (recordFailure t idx attempt err).Follows (permitProtocol t)
      (scopePermits t idx) fun held _ => held = scopePermits t idx := by
    intro err
    have hsleep : (if isRateLimit err = true ∧ attempt < t.numEndpoints - 1 then
        CallOp.perform (.sleep .rateLimitFailover t.config.rateLimitFailoverDelay)
        else pure ()).Follows (permitProtocol t) (scopePermits t idx)
          fun held _ => held = scopePermits t idx := by
      split
      · exact ⟨trivial, fun _ _ => rfl⟩
      · exact rfl
    unfold recordFailure
    dsimp only
    split
    · exact ⟨trivial, fun _ _ => hsleep⟩
    · exact hsleep
  unfold sendTo
  rw [CallOp.perform_bind]
  refine ⟨fun h => by simp [scopePermits, h], fun reply _ => ?_⟩
  cases reply with
  | ok resp => exact ⟨trivial, fun _ _ => hdrop _⟩
  | error err =>
    dsimp only
    split
    · refine (hfailure err).bind ?_
      intro held _ heq
      obtain rfl := heq
      exact hdrop _
    · exact hdrop _

/-- **One attempt** begins and ends with no permit. -/
theorem attemptAt_permits (startIdx attempt : Nat) (later : List Nat) :
    (attemptAt t req bytes startIdx attempt later).Follows (permitProtocol t) []
      fun held _ => held = [] := by
  unfold attemptAt
  dsimp only
  rw [CallOp.perform_bind]
  refine ⟨trivial, fun delay _ => ?_⟩
  refine (lookAhead_permits t bytes startIdx later).bind ?_
  intro held alternative heq
  obtain rfl := heq
  split
  · exact ⟨trivial, fun _ _ => rfl⟩
  · have hdelay : (applyDomainDelay delay).Follows (permitProtocol t) []
        fun held _ => held = [] := by
      unfold applyDomainDelay
      split
      · exact rfl
      · exact ⟨trivial, fun _ _ => rfl⟩
    refine hdelay.bind ?_
    intro held _ heq
    obtain rfl := heq
    refine (acquirePermit_permits t _).bind ?_
    intro held granted heq
    obtain rfl := heq
    cases granted with
    | false => exact rfl
    | true =>
      refine (sendTo_permits t req _ attempt).bind ?_
      intro held outcome heq
      cases outcome <;> exact heq

/-- **Every call keeps the permit protocol** and ends with no permit. -/
theorem call_permits (wire : RequestPacket → Option Nat) :
    (call wire t req).Follows (permitProtocol t) [] fun held _ => held = [] := by
  refine call_keeps (I := fun held => held = []) (R := fun _ held => held = [])
    (fun _ _ _ => trivial) (fun _ held hheld => ⟨hheld, fun _ _ => hheld⟩)
    (fun held hheld => ⟨trivial, fun _ _ => hheld⟩) (fun start attempt later held _ hheld => ?_)
    (fun _ _ hheld => hheld) rfl
  obtain rfl := hheld
  exact attemptAt_permits t req _ start attempt later

end Protocol

/-! ## 3. The invariants -/

/-- **The invariant of a call**: the rest of its program keeps the permit protocol from the permits
    it holds, which are one at most, and a call that has ended holds none. -/
structure CallTask.Ok (t : LoadBalancedTransport) (c : CallTask) : Prop where
  follows : ∀ rest, c.rest = some rest →
    rest.Follows (permitProtocol t) c.held fun held _ => held = []
  dropped : c.rest = none → c.held = []
  atMostOne : c.held.length ≤ 1

/-- The gates move as the permit protocol says. -/
theorem gateStep_held {s s' : GateState} {held held' : List Nat} {t : LoadBalancedTransport}
    {e : CallOp} {r : CallSig.Ans e} (h : gateStep s held e r = some (s', held')) :
    held' = (permitProtocol t).next held e r := by
  cases e with
  | acquireOwned idx =>
    cases r with
    | permit =>
      simp only [gateStep] at h
      split at h
      · cases h
        rfl
      · cases h
    | closed => cases h; rfl
  | dropPermit idx =>
    simp only [gateStep] at h
    split at h
    · cases h
      rfl
    · cases h
  | panic | fetchAddCounter | preRequestDelay | recordSkip | recordSuccess | recordRateLimit | sleep
  | send => cases h; rfl

theorem permitProtocol_next_length {t : LoadBalancedTransport} {held : List Nat} {e : CallOp}
    {r : CallSig.Ans e} (hok : (permitProtocol t).ok held e) (h : held.length ≤ 1) :
    ((permitProtocol t).next held e r).length ≤ 1 := by
  cases e with
  | acquireOwned idx =>
    cases show held = [] from hok
    cases r <;> simp [permitProtocol]
  | dropPermit idx => exact (List.length_erase_le).trans h
  | panic | fetchAddCounter | preRequestDelay | recordSkip | recordSuccess | recordRateLimit | sleep
  | send => exact h

theorem callTask_ok_step {t : LoadBalancedTransport} {s s' : GateState} {c c' : CallTask}
    (hc : c.Ok t) (hs : c.Step s s' c') : c'.Ok t := by
  cases hs with
  | effect r hrest hgate =>
    obtain rfl := gateStep_held (t := t) hgate
    obtain ⟨hok, hnext⟩ := hc.follows _ hrest
    exact ⟨fun rest h => by cases h; exact hnext r trivial, nofun,
      permitProtocol_next_length hok hc.atMostOne⟩
  | drop => exact ⟨nofun, fun _ => rfl, Nat.zero_le _⟩

/-- **On every reachable pool every call keeps to its program.** -/
theorem callTask_ok {wire : RequestPacket → Option Nat} {t : LoadBalancedTransport}
    {p : Pool GateState CallTask} (hr : (gateSystem wire t).Reachable (GatesStart t) p) :
    ∀ c ∈ p.tasks, c.Ok t := by
  refine System.Reachable.taskInv (fun p hp c hc => ?_) (fun hc hs => ?_) (fun ha => ?_) hr
  · rw [hp.1] at hc
    exact absurd hc List.not_mem_nil
  · obtain ⟨hs, rfl⟩ := hs
    exact ⟨callTask_ok_step hc hs, nofun⟩
  · obtain ⟨_, req, rfl⟩ := ha
    exact ⟨fun rest h => by cases h; exact call_permits t req wire, nofun, Nat.zero_le _⟩

/-- A step moves permits between a gate and the call and changes their number nowhere. -/
theorem callStep_conserves {s s' : GateState} {c c' : CallTask} (hs : c.Step s s' c') (idx : Nat) :
    s'.free idx + c'.held.count idx = s.free idx + c.held.count idx := by
  cases hs with
  | @effect e k r s' held' hrest hgate =>
    cases e with
    | acquireOwned i =>
      cases r with
      | permit =>
        simp only [gateStep] at hgate
        split at hgate
        · rename_i hfree
          cases hgate
          by_cases h : idx = i
          · subst h
            simp only [if_pos, List.count_cons_self]
            omega
          · simp only [if_neg h, List.count_cons_of_ne (Ne.symm h)]
        · cases hgate
      | closed => cases hgate; rfl
    | dropPermit i =>
      simp only [gateStep] at hgate
      split at hgate
      · rename_i hmem
        cases hgate
        have hperm := (List.perm_cons_erase hmem).count_eq idx
        simp only [GateState.giveBack, List.count_cons, List.count_nil] at hperm ⊢
        omega
      · cases hgate
    | panic | fetchAddCounter | preRequestDelay | recordSkip | recordSuccess | recordRateLimit
    | sleep | send => cases hgate; rfl
  | drop => simp [GateState.giveBack]

/-- **Free permits and permits held make up the limit**, in every reachable pool. -/
theorem permits_conserved {wire : RequestPacket → Option Nat} {t : LoadBalancedTransport}
    {p : Pool GateState CallTask} (hr : (gateSystem wire t).Reachable (GatesStart t) p)
    {idx limit : Nat} (hlimit : t.inFlightLimit idx = some limit) :
    p.shared.free idx + p.total (fun c => c.held.count idx) = limit := by
  induction hr with
  | start hp =>
    unfold Pool.total
    rw [hp.1, hp.2 idx limit hlimit]
    rfl
  | step _ hs ih =>
    cases hs with
    | act h =>
      obtain ⟨hstep, rfl⟩ := h
      have hmove := callStep_conserves hstep idx
      rw [total_split] at ih
      rw [total_split_new, List.map_nil, List.sum_nil]
      simp only at ih ⊢
      omega
    | env h => exact h.elim
    | arrive h =>
      obtain ⟨rfl, req, rfl⟩ := h
      simpa using ih

/-! ## 4. What the gates guarantee -/

/-- The call has a request outstanding at an endpoint. -/
def CallTask.outstandingAt (idx : Nat) (c : CallTask) : Bool :=
  match c.rest with
  | some (.op (.send i _) _) => i == idx
  | _ => false

/-- The call waits at an endpoint's gate. -/
def CallTask.WaitsAt (c : CallTask) (idx : Nat) : Prop :=
  ∃ k, c.rest = some (.op (.acquireOwned idx) k)

/-- The call sleeps between two rounds. -/
def CallTask.BacksOff (c : CallTask) : Prop :=
  ∃ d k, c.rest = some (.op (.sleep .betweenRounds d) k)

/-- The call has returned, or its future was dropped. -/
def CallTask.Ended (c : CallTask) : Prop := c.rest = none ∨ ∃ result, c.rest = some (.ret result)

/-- Call `i` waits at a gate of which call `j` holds a permit. -/
def WaitsFor (p : Pool GateState CallTask) (i j : Nat) : Prop :=
  ∃ c d idx, p.tasks[i]? = some c ∧ p.tasks[j]? = some d ∧ c.WaitsAt idx ∧ idx ∈ d.held

/-- **The guarantees of the gates.** -/
structure GatesHold (t : LoadBalancedTransport) (p : Pool GateState CallTask) : Prop where
  /-- No more requests outstanding at an endpoint than its limit. -/
  bounded : ∀ idx limit, t.inFlightLimit idx = some limit →
    p.total (fun c => if c.outstandingAt idx then 1 else 0) ≤ limit
  conserved : ∀ idx limit, t.inFlightLimit idx = some limit →
    p.shared.free idx + p.total (fun c => c.held.count idx) = limit
  /-- The permits held are held by calls under way: none has leaked. -/
  noLeak : ∀ c ∈ p.tasks, c.Ended → c.held = []
  atMostOne : ∀ c ∈ p.tasks, c.held.length ≤ 1
  noneWaiting : ∀ c ∈ p.tasks, (∃ idx, c.WaitsAt idx) ∨ c.BacksOff → c.held = []
  /-- No call waits for itself through others. -/
  acyclic : ∀ i, ¬ Relation.TransGen (WaitsFor p) i i

theorem held_of_outstandingAt {t : LoadBalancedTransport} {c : CallTask} (hc : c.Ok t)
    {idx limit : Nat} (hlimit : t.inFlightLimit idx = some limit)
    (h : c.outstandingAt idx = true) : c.held = [idx] := by
  unfold CallTask.outstandingAt at h
  split at h
  · rename_i i req k hrest
    cases eq_of_beq h
    exact (hc.follows _ hrest).1 (by rw [hlimit]; rfl)
  · cases h

theorem held_of_waitsAt {t : LoadBalancedTransport} {c : CallTask} (hc : c.Ok t) {idx : Nat}
    (h : c.WaitsAt idx) : c.held = [] := by
  obtain ⟨k, hrest⟩ := h
  exact (hc.follows _ hrest).1

theorem held_of_backsOff {t : LoadBalancedTransport} {c : CallTask} (hc : c.Ok t)
    (h : c.BacksOff) : c.held = [] := by
  obtain ⟨d, k, hrest⟩ := h
  exact (hc.follows _ hrest).1

theorem held_of_ended {t : LoadBalancedTransport} {c : CallTask} (hc : c.Ok t) (h : c.Ended) :
    c.held = [] := by
  rcases h with h | ⟨result, hrest⟩
  · exact hc.dropped h
  · exact hc.follows _ hrest

/-- **THE GATES HOLD** in every reachable pool of calls, whatever the endpoints answer and whichever
    futures are dropped. -/
theorem gates_hold {wire : RequestPacket → Option Nat} {t : LoadBalancedTransport}
    {p : Pool GateState CallTask} (hr : (gateSystem wire t).Reachable (GatesStart t) p) :
    GatesHold t p := by
  have hok := callTask_ok hr
  refine ⟨fun idx limit hlimit => ?_, fun idx limit => permits_conserved hr,
    fun c hc => held_of_ended (hok c hc), fun c hc => (hok c hc).atMostOne, fun c hc h => ?_,
    fun i hcycle => ?_⟩
  · have hle : p.total (fun c => if c.outstandingAt idx then 1 else 0) ≤
        p.total (fun c => c.held.count idx) := by
      refine total_mono fun c hc => ?_
      split
      · rename_i h
        rw [held_of_outstandingAt (hok c hc) hlimit h]
        simp
      · exact Nat.zero_le _
    have := permits_conserved hr hlimit
    omega
  · rcases h with ⟨idx, h⟩ | h
    · exact held_of_waitsAt (hok c hc) h
    · exact held_of_backsOff (hok c hc) h
  · -- a call on a cycle waits, so it holds nothing, and yet somebody waits for what it holds
    obtain ⟨_, ⟨c, _, _, hi, _, hwait, _⟩, _⟩ := Relation.TransGen.head'_iff.mp hcycle
    obtain ⟨_, _, ⟨_, d, idx, _, hi', _, hheld⟩⟩ := Relation.TransGen.tail'_iff.mp hcycle
    cases hi.symm.trans hi'
    rw [held_of_waitsAt (hok c (List.mem_of_getElem? hi)) hwait] at hheld
    exact absurd hheld List.not_mem_nil

/-- One endpoint that takes one request at a time. -/
def gatedTransport : LoadBalancedTransport where
  endpoints := [⟨0, ⟨some "eth.one.com", "http://eth.one.com/"⟩⟩]
  endpointThrottles := [0]
  endpointRequestCaps := [none]
  endpointInFlight := [some 1]
  cumulativeWeights := [100]
  totalWeight := 100
  throttles_length := rfl
  caps_length := rfl
  inFlight_length := rfl
  weights_length := rfl
  caps_pos := by simp
  inFlight_pos := by simp
  increasing := by decide
  total_last := rfl
  config := .default
  nonempty := by simp

/-- Two calls, one with its request outstanding and one waiting at the gate. -/
theorem gates_hold_of_two_calls : ∃ p c d, GatesHold gatedTransport p ∧ p.tasks = [c, d] ∧
    c.outstandingAt 0 = true ∧ d.WaitsAt 0 := by
  have h₀ : (gateSystem (fun _ => some 100) gatedTransport).Reachable (GatesStart gatedTransport)
      ⟨⟨fun idx => if idx = 0 then 1 else 0⟩, []⟩ := by
    refine .start ⟨rfl, fun idx limit h => ?_⟩
    cases idx with
    | zero => exact Option.some.inj h
    | succ idx => cases h
  have h₁ := h₀.step (.arrive ⟨rfl, .batch [], rfl⟩)
  have h₂ := h₁.step (.arrive ⟨rfl, .batch [], rfl⟩)
  have h₃ := h₂.step (.at (i := 0) rfl ⟨.effect (0 : UInt64) rfl rfl, rfl⟩)
  have h₄ := h₃.step (.at (i := 0) rfl ⟨.effect Duration.zero rfl rfl, rfl⟩)
  have h₅ := h₄.step (.at (i := 0) rfl ⟨.effect GateAnswer.permit rfl rfl, rfl⟩)
  have h₆ := h₅.step (.at (i := 1) rfl ⟨.effect (1 : UInt64) rfl rfl, rfl⟩)
  have h₇ := h₆.step (.at (i := 1) rfl ⟨.effect Duration.zero rfl rfl, rfl⟩)
  exact ⟨_, _, _, gates_hold h₇, rfl, rfl, _, rfl⟩

end TransportBalancer
