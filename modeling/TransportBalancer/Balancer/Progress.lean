/-
  File:      TransportBalancer/Balancer/Progress.lean
  Subject:   THE CALLS OF A TRANSPORT COME TO AN END, any number of them over its in-flight gates:
             they do not deadlock, and there is a bound on the steps they take.

  A call that waits at a gate holds no permit, so whoever holds one there is not waiting; a call
  that is not waiting can go on, whatever it is answered.

  * `CallOp.AtGate` -- a call asks for permits of endpoints that have a gate, and of no others;
  * `waiting_or_going` -- a call that has not ended can go on, or waits for one that can;
  * `call_step_bound` -- the steps of one call;
  * **`calls_complete`** -- both, on every run.
-/
import TransportBalancer.Balancer.Costs
import TransportBalancer.Balancer.Gates
import TransportBalancer.Balancer.HealthyFirst

namespace TransportBalancer

open Interaction TaskPool

/-! ## 1. Which gates a call waits at -/

section Asking

variable (t : LoadBalancedTransport) (req : RequestPacket) (bytes : Nat)

/-- A permit asked for is one of an endpoint that has a gate. -/
def CallOp.AtGate : CallOp → Prop
  | .acquireOwned idx => (t.inFlightLimit idx).isSome = true
  | _ => True

theorem lookAhead_atGate (start : Nat) (later : List Nat) :
    (hasUnthrottledEligibleAlternative t bytes start later).Performs (CallOp.AtGate t) := by
  induction later with
  | nil => exact trivial
  | cons nextAttempt later ih =>
    unfold hasUnthrottledEligibleAlternative
    dsimp only
    split
    · rw [CallOp.perform_bind]
      refine ⟨trivial, fun delay _ => ?_⟩
      dsimp only
      split
      · exact trivial
      · exact ih
    · exact ih

theorem dropPermit_atGate (idx : Nat) : (dropPermit t idx).Performs (CallOp.AtGate t) := by
  unfold dropPermit
  split
  · exact ⟨trivial, fun _ _ => trivial⟩
  · exact trivial

theorem acquirePermit_atGate (idx : Nat) :
    (acquirePermit t idx).Performs (CallOp.AtGate t) := by
  unfold acquirePermit
  split
  · rename_i limit hlimit
    refine ⟨?_, fun _ _ => trivial⟩
    show (t.inFlightLimit idx).isSome = true
    rw [hlimit]
    rfl
  · exact trivial

theorem sendTo_atGate (idx attempt : Nat) :
    (sendTo t req idx attempt).Performs (CallOp.AtGate t) := by
  have hfree : ∀ e : CallOp, e.Free → e.AtGate t := fun e he => by
    cases e with
    | acquireOwned => exact he.elim
    | _ => trivial
  have hdrop : ∀ out : RpcResult ⊕ TransportError,
      (dropPermit t idx >>= fun _ => pure out).Performs (CallOp.AtGate t) :=
    fun out => (dropPermit_atGate t idx).bind fun _ => trivial
  unfold sendTo
  rw [CallOp.perform_bind]
  refine ⟨trivial, fun reply _ => ?_⟩
  cases reply with
  | ok resp => exact ⟨trivial, fun _ _ => hdrop _⟩
  | error err =>
    dsimp only
    split
    · exact ((recordFailure_free t idx attempt err).mono hfree).bind fun _ => hdrop _
    · exact hdrop _

theorem attemptAt_atGate (start attempt : Nat) (later : List Nat) :
    (attemptAt t req bytes start attempt later).Performs (CallOp.AtGate t) := by
  unfold attemptAt
  refine ⟨trivial, fun delay _ => ?_⟩
  refine (lookAhead_atGate t bytes start later).bind fun alternative => ?_
  split
  · exact ⟨trivial, fun _ _ => trivial⟩
  · have hdelay : (applyDomainDelay delay).Performs (CallOp.AtGate t) := by
      unfold applyDomainDelay
      split
      · exact trivial
      · exact ⟨trivial, fun _ _ => trivial⟩
    refine hdelay.bind fun _ => (acquirePermit_atGate t _).bind fun granted => ?_
    split
    · refine (sendTo_atGate t req _ attempt).bind fun outcome => ?_
      cases outcome <;> exact trivial
    · exact trivial

/-- **A call asks at gates only.** -/
theorem call_atGate (wire : RequestPacket → Option Nat) :
    (call wire t req).Performs (CallOp.AtGate t) :=
  call_keeps (I := fun _ => True) (R := fun _ _ => True) (fun _ _ _ => trivial)
    (fun _ _ _ => ⟨trivial, fun _ _ => trivial⟩) (fun _ _ => ⟨trivial, fun _ _ => trivial⟩)
    (fun start attempt later _ _ _ => attemptAt_atGate t req _ start attempt later)
    (fun _ _ _ => trivial) trivial

end Asking

/-! ## 2. No deadlock -/

/-- The answer is not that of a gate that has been closed. -/
def CallOp.granted : (e : CallOp) → CallSig.Ans e → Bool
  | .acquireOwned _, .closed => false
  | _, _ => true

/-- **The call can go on**: it is answered, and not by a closed gate, or it unwinds from a panic. -/
inductive CallTask.GoesOn (s : GateState) (c : CallTask) : Prop where
  | answered {e : CallOp} {k : CallSig.Ans e → Program CallSig RpcResult} (r : CallSig.Ans e)
      (hrest : c.rest = some (.op e k)) (hgranted : e.granted r = true)
      (hgate : (gateStep s c.held e r).isSome = true) : GoesOn s c
  | unwinds {msg : String} {k : Empty → Program CallSig RpcResult}
      (hrest : c.rest = some (.op (.panic msg) k)) : GoesOn s c

section Pools

variable {wire : RequestPacket → Option Nat} {t : LoadBalancedTransport}
  {p : Pool GateState CallTask}

/-- Every call of a reachable pool asks at gates only. -/
theorem calls_atGate (hr : (gateSystem wire t).Reachable (GatesStart t) p) :
    ∀ c ∈ p.tasks, ∀ rest, c.rest = some rest → rest.Performs (CallOp.AtGate t) := by
  refine System.Reachable.taskInv (I := fun c => ∀ rest, c.rest = some rest →
    rest.Performs (CallOp.AtGate t)) (fun p hp c hc => ?_) (fun hc hs => ?_) (fun ha => ?_) hr
  · rw [hp.1] at hc
    exact absurd hc List.not_mem_nil
  · obtain ⟨hs, rfl⟩ := hs
    refine ⟨fun rest hrest' => ?_, nofun⟩
    cases hs with
    | effect r hrest hgate =>
      cases hrest'
      exact (hc _ hrest).2 r trivial
    | drop => cases hrest'
  · obtain ⟨_, req, rfl⟩ := ha
    intro rest hrest
    cases hrest
    exact call_atGate t req wire

/-- What does not wait at a gate can go on. -/
theorem goesOn_of_not_waiting {s : GateState} {c : CallTask} (hc : c.Ok t) {e : CallOp}
    {k : CallSig.Ans e → Program CallSig RpcResult} (hrest : c.rest = some (.op e k))
    (he : ∀ idx, e ≠ .acquireOwned idx) : c.GoesOn s := by
  have hok := (hc.follows _ hrest).1
  cases e with
  | panic => exact .unwinds hrest
  | acquireOwned idx => exact absurd rfl (he idx)
  | fetchAddCounter => exact .answered (0 : UInt64) hrest rfl rfl
  | preRequestDelay => exact .answered Duration.zero hrest rfl rfl
  | recordSkip | recordSuccess | recordRateLimit | sleep => exact .answered () hrest rfl rfl
  | send => exact .answered (Except.error backendGone) hrest rfl rfl
  | dropPermit idx =>
    refine .answered () hrest rfl ?_
    have hheld : c.held = [idx] := hok
    show (if idx ∈ c.held then some (s.giveBack [idx], c.held.erase idx) else none).isSome = true
    rw [if_pos (by rw [hheld]; exact List.mem_singleton_self idx)]
    rfl

/-- **Whoever holds a permit can go on**: it has not ended, and it does not wait. -/
theorem holder_goesOn {s : GateState} {c : CallTask} (hc : c.Ok t) {idx : Nat}
    (hidx : idx ∈ c.held) : c.GoesOn s := by
  have hheld : c.held ≠ [] := List.ne_nil_of_mem hidx
  cases hrest : c.rest with
  | none => exact absurd (hc.dropped hrest) hheld
  | some rest =>
    cases rest with
    | ret result => exact absurd (held_of_ended hc (Or.inr ⟨result, hrest⟩)) hheld
    | op e k =>
      refine goesOn_of_not_waiting hc hrest fun idx' he => ?_
      subst he
      exact hheld (held_of_waitsAt hc ⟨k, hrest⟩)

/-- A gate has been built with a permit at least. -/
theorem inFlightLimit_pos {idx limit : Nat} (h : t.inFlightLimit idx = some limit) : 0 < limit := by
  refine t.inFlight_pos limit ?_
  unfold LoadBalancedTransport.inFlightLimit at h
  rw [List.getD_eq_getElem?_getD] at h
  cases hget : t.endpointInFlight[idx]? with
  | none =>
    rw [hget] at h
    cases h
  | some entry =>
    rw [hget] at h
    obtain rfl : entry = some limit := h
    exact List.mem_of_getElem? hget

/-- The call waits at a gate of which another holds a permit. -/
def CallTask.WaitsOn (c d : CallTask) : Prop := ∃ idx, c.WaitsAt idx ∧ idx ∈ d.held

/-- **A call that has not ended can go on, or waits for one that can.** -/
theorem waiting_or_going (hr : (gateSystem wire t).Reachable (GatesStart t) p) {c : CallTask}
    (hc : c ∈ p.tasks) : c.Ended ∨ c.GoesOn p.shared ∨
      ∃ d ∈ p.tasks, c.WaitsOn d ∧ d.GoesOn p.shared := by
  have hok := callTask_ok hr
  cases hrest : c.rest with
  | none => exact Or.inl (Or.inl hrest)
  | some rest =>
    cases rest with
    | ret result => exact Or.inl (Or.inr ⟨result, hrest⟩)
    | op e k =>
      by_cases he : ∃ idx, e = .acquireOwned idx
      · obtain ⟨idx, rfl⟩ := he
        have hgate : (t.inFlightLimit idx).isSome = true := (calls_atGate hr c hc _ hrest).1
        obtain ⟨limit, hlimit⟩ := Option.isSome_iff_exists.mp hgate
        have hconserved := permits_conserved hr hlimit
        by_cases hfree : 0 < p.shared.free idx
        · refine Or.inr (Or.inl (.answered GateAnswer.permit hrest rfl ?_))
          show (if 0 < p.shared.free idx then _ else none : Option _).isSome = true
          rw [if_pos hfree]
          rfl
        · -- the gate is at its limit, so somebody holds one of its permits
          have hpos : 0 < limit := inFlightLimit_pos hlimit
          obtain ⟨d, hd, hheld⟩ : ∃ d ∈ p.tasks, idx ∈ d.held := by
            by_contra hnone
            have hzero : p.total (fun c => c.held.count idx) = 0 := by
              refine List.sum_eq_zero fun n hn => ?_
              obtain ⟨d, hd, rfl⟩ := List.mem_map.mp hn
              exact List.count_eq_zero.mpr fun hmem => hnone ⟨d, hd, hmem⟩
            omega
          exact Or.inr (Or.inr ⟨d, hd, ⟨idx, ⟨k, hrest⟩, hheld⟩, holder_goesOn (hok d hd) hheld⟩)
      · exact Or.inr (Or.inl (goesOn_of_not_waiting (hok c hc) hrest fun idx h => he ⟨idx, h⟩))

end Pools

/-! ## 3. Bounded runs -/

section Bounds

variable {wire : RequestPacket → Option Nat} {t : LoadBalancedTransport}

/-- A step for every effect but a panic, which is none. -/
def stepPrice : CallOp → Nat
  | .panic _ => 0
  | _ => 1

/-- **The steps of one call**, at most: for each round a tick and, for each endpoint, the readings
    of all and six effects more, the sleeps between the rounds, and the end of its future. -/
def callSteps (t : LoadBalancedTransport) : Nat :=
  (t.config.maxRetryRounds.toNat + 1) * (1 + t.numEndpoints * (t.numEndpoints + 6)) +
    t.config.maxRetryRounds.toNat + 1

theorem stepPrices (t : LoadBalancedTransport) :
    Prices t (fun _ _ => True) stepPrice 1 1 1 fun _ => 1 where
  other e _ := by cases e <;> simp [stepPrice]
  panic _ := rfl
  domain _ _ _ := Nat.le_refl 1
  failover := Nat.le_refl 1
  between _ := Nat.le_refl 1

/-- The steps a call may still take, the end of its future being one. -/
def CallTask.Steps (n : Nat) (c : CallTask) : Prop :=
  ∀ rest, c.rest = some rest → ∃ m, m + 1 ≤ n ∧
    rest.Costs (fun _ _ => True) stepPrice m fun _ => True

/-- **One call takes so many steps.** -/
theorem call_step_bound (req : RequestPacket) :
    (call wire t req).Costs (fun _ _ => True) stepPrice (callSteps t - 1) fun _ => True := by
  refine (call_costs (stepPrices t) wire req).le ?_
  have heligible : (eligible t (requestBytes wire req)).length ≤ t.numEndpoints :=
    (List.length_filter_le _ _).trans_eq List.length_range
  have hround : roundPrice t (requestBytes wire req) 1 1 1 ≤
      1 + t.numEndpoints * (t.numEndpoints + 6) := by
    unfold roundPrice attemptPrice
    have hmul := Nat.mul_le_mul_right (1 * (t.numEndpoints + 4) + 1 + 1) heligible
    rw [show 1 * (t.numEndpoints + 4) + 1 + 1 = t.numEndpoints + 6 by omega] at hmul ⊢
    omega
  have hrounds := Nat.mul_le_mul_left (t.config.maxRetryRounds.toNat + 1) hround
  have hbetween : ((List.range t.config.maxRetryRounds.toNat).map fun _ => 1).sum =
      t.config.maxRetryRounds.toNat := by simp
  unfold callPrice callSteps
  rw [hbetween]
  omega

/-- A step of a call is paid for. -/
theorem call_step_paid {s s' : GateState} {c c' : CallTask} {n : Nat} (hc : c.Steps n)
    (hs : c.Step s s' c') : ∃ n', c'.Steps n' ∧ n' + 1 ≤ n := by
  cases hs with
  | @effect e k r s' held' hrest hgate =>
    obtain ⟨m, hm, hcosts⟩ := hc _ hrest
    have hprice : stepPrice e = 1 := by
      cases e with
      | panic => exact Empty.elim r
      | _ => rfl
    have hpaid : stepPrice e ≤ m := hcosts.1
    refine ⟨m - stepPrice e + 1, fun rest hrest' => ⟨m - stepPrice e, Nat.le_refl _, ?_⟩, by omega⟩
    cases hrest'
    exact hcosts.2 r trivial
  | drop hrest =>
    obtain ⟨m, hm, _⟩ := hc _ hrest
    exact ⟨0, nofun, by omega⟩

/-- **THE CALLS OF A TRANSPORT COMPLETE.** On every run, whatever the endpoints answer: the steps
    taken are at most `callSteps` for each call that has arrived, and a call that has not ended can
    go on or waits, at a gate, for one that can. -/
theorem calls_complete {p q : Pool GateState CallTask} {vs : List (Pool GateState CallTask × Actor)}
    (hp : GatesStart t p) (hrun : (gateSystem wire t).Run p vs q) :
    taskSteps vs ≤ callSteps t * arrivals vs ∧ ∀ c ∈ q.tasks, c.Ended ∨ c.GoesOn q.shared ∨
      ∃ d ∈ q.tasks, c.WaitsOn d ∧ d.GoesOn q.shared := by
  refine ⟨?_, fun c hc => waiting_or_going ((System.Reachable.start hp).run hrun) hc⟩
  have hnone : List.Forall₂ CallTask.Steps [] p.tasks := by
    rw [hp.1]
    exact .nil
  have hpaid := System.Run.paid (Y := gateSystem wire t) CallTask.Steps (callSteps t)
    (fun _ _ hc ⟨hs, hnew⟩ => ?_) (fun ⟨_, req, hc⟩ => ?_) (System.Reachable.start hp) hrun hnone
  · obtain ⟨ms, _, hle⟩ := hpaid
    rw [List.sum_nil, Nat.zero_add] at hle
    exact (Nat.le_add_right _ _).trans hle
  · subst hnew
    obtain ⟨n', hn', hpaid⟩ := call_step_paid hc hs
    exact ⟨n', [], hn', .nil, hpaid⟩
  · subst hc
    refine ⟨callSteps t, fun rest hrest => ?_, Nat.le_refl _⟩
    cases hrest
    exact ⟨callSteps t - 1, Nat.le_refl _, call_step_bound req⟩

end Bounds

/-- Two calls over one permit, the second waiting for the first. -/
theorem calls_complete_of_two : ∃ p q vs, GatesStart gatedTransport p ∧
    (gateSystem (fun _ => some 100) gatedTransport).Run p vs q ∧ arrivals vs = 2 ∧
      (∃ c d, q.tasks = [c, d] ∧ d.WaitsOn c) ∧ taskSteps vs ≤ callSteps gatedTransport * 2 ∧
      ∀ c ∈ q.tasks, c.Ended ∨ c.GoesOn q.shared ∨
        ∃ d ∈ q.tasks, c.WaitsOn d ∧ d.GoesOn q.shared := by
  have hp : GatesStart gatedTransport ⟨⟨fun idx => if idx = 0 then 1 else 0⟩, []⟩ := by
    refine ⟨rfl, fun idx limit h => ?_⟩
    cases idx with
    | zero => exact Option.some.inj h
    | succ idx => cases h
  have h₁ := (System.Run.refl (Y := gateSystem (fun _ => some 100) gatedTransport)
    (p := ⟨⟨fun idx => if idx = 0 then 1 else 0⟩, []⟩)).step (.arrive ⟨rfl, .batch [], rfl⟩)
  have h₂ := h₁.step (.arrive ⟨rfl, .batch [], rfl⟩)
  have h₃ := h₂.step (.at (i := 0) rfl ⟨.effect (0 : UInt64) rfl rfl, rfl⟩)
  have h₄ := h₃.step (.at (i := 0) rfl ⟨.effect Duration.zero rfl rfl, rfl⟩)
  have h₅ := h₄.step (.at (i := 0) rfl ⟨.effect GateAnswer.permit rfl rfl, rfl⟩)
  have h₆ := h₅.step (.at (i := 1) rfl ⟨.effect (1 : UInt64) rfl rfl, rfl⟩)
  have h₇ := h₆.step (.at (i := 1) rfl ⟨.effect Duration.zero rfl rfl, rfl⟩)
  obtain ⟨hsteps, hgo⟩ := calls_complete hp h₇
  exact ⟨_, _, _, hp, h₇, rfl, ⟨_, _, rfl, 0, ⟨_, rfl⟩, List.mem_cons_self⟩, hsteps, hgo⟩

end TransportBalancer
