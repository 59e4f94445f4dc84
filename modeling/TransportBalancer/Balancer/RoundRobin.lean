/-
  File:      TransportBalancer/Balancer/RoundRobin.lean
  Subject:   WEIGHTED ROUND-ROBIN (`select_endpoint`). The counter hands out ticks, one to each
             `fetch_add` of any call, and the cumulative weights deal the ticks to the endpoints.

  * `build_weights` -- `build` makes the running sums of the weights;
  * `counterSystem`, `run_ticks` -- calls on clones over one counter: the ticks a run hands out are
    consecutive, whoever takes them;
  * **`round_robin_exact`** -- in every stretch of a run in which the total weight of ticks is
    handed out, every endpoint is selected as often as it weighs.
-/
import TransportBalancer.Balancer.Outcome
import TransportBalancer.Lib.Pool
import TransportBalancer.Lib.Shares

namespace TransportBalancer

open Interaction TaskPool WeightedShares

/-! ## 1. The weights of a built transport -/

/-- The weights of the endpoints, in order. -/
def weights (configs : List EndpointConfig) : List Nat :=
  configs.map fun endpoint => endpoint.weight.value.toNat

/-- The cumulative weights are the running sums of some weights. -/
structure EndpointTable.Weighs (table : EndpointTable) (ws : List Nat) : Prop where
  sums : table.cumulativeWeights.map UInt64.toNat = runningSums 0 ws
  total : table.totalWeight.toNat = ws.sum

/-- **`build` makes the running sums of the weights** and their total. -/
theorem build_weights {b : LoadBalancedTransportBuilder} {tr : Trace ProcessSig}
    {t : LoadBalancedTransport} (hr : Runs (build b) tr t) :
    t.toEndpointTable.Weighs (weights b.endpoints) := by
  refine (build_ensures (R := fun table configs => table.Weighs (weights configs)) ?_ ⟨rfl, rfl⟩
    hr).1
  intro table done endpoint client throttle total htotal hcap hlimit h hsum
  have hmore : weights (done ++ [endpoint]) = weights done ++ [endpoint.weight.value.toNat] := by
    simp [weights]
  rw [hmore]
  constructor
  · rw [runningSums_append, Nat.zero_add, ← h.sums, ← h.total]
    show (table.cumulativeWeights ++ [total]).map UInt64.toNat = _
    rw [List.map_append, List.map_singleton, hsum]
    rfl
  · rw [List.sum_append, List.sum_singleton, ← h.total]
    exact hsum

/-- The endpoint of a tick owns the tick's place in the cycle. -/
theorem endpointOfTick_eq {b : LoadBalancedTransportBuilder} {tr : Trace ProcessSig}
    {t : LoadBalancedTransport} (hr : Runs (build b) tr t) (tick : UInt64) :
    t.endpointOfTick tick =
      owner 0 (weights b.endpoints) (tick.toNat % (weights b.endpoints).sum) := by
  have hsums := (build_weights hr).sums
  have htotal := (build_weights hr).total
  unfold LoadBalancedTransport.endpointOfTick partitionPoint owner
  rw [← hsums, List.findIdx_map, ← htotal, ← UInt64.toNat_mod]
  dsimp only
  congr 1
  funext w
  show (!decide (w ≤ tick % t.totalWeight)) = decide ((tick % t.totalWeight).toNat < w.toNat)
  rw [← decide_not, decide_eq_decide, UInt64.le_iff_toNat_le]
  exact Nat.not_le

/-! ## 2. Calls over one counter -/

/-- The shared counter, and the ticks it has handed out, oldest first. -/
structure CounterState where
  counter : UInt64
  ticks : List UInt64

/-- What an effect of a call does to the counter. -/
def counterStep (s : CounterState) : (e : CallOp) → CallSig.Ans e → CounterState → Prop
  | .fetchAddCounter, tick, s' =>
    tick = s.counter ∧ s' = ⟨s.counter + 1, s.ticks ++ [s.counter]⟩
  | _, _, s' => s' = s

/-- **The calls on clones of one transport**, over its counter: a call takes an effect with any
    answer (the counter's for a tick), or its future is dropped. -/
def counterSystem (wire : RequestPacket → Option Nat) (t : LoadBalancedTransport) :
    System CounterState (Option (Program CallSig RpcResult)) where
  act s c s' c' new := ((∃ e k r, c = some (.op e k) ∧ counterStep s e r s' ∧ c' = some (k r)) ∨
    (c.isSome = true ∧ s' = s ∧ c' = none)) ∧ new = []
  env _ _ := False
  arrive s s' c := s' = s ∧ ∃ req, c = some (call wire t req)

/-- The numbers a counter at `first` hands out in `n` steps. -/
def ticksFrom (first n : Nat) : List Nat := (List.range' first n).map fun tick => tick % 2 ^ 64

theorem counterStep_cases {s s' : CounterState} {e : CallOp} {r : CallSig.Ans e}
    (h : counterStep s e r s') :
    s' = s ∨ s' = ⟨s.counter + 1, s.ticks ++ [s.counter]⟩ := by
  cases e with
  | fetchAddCounter => exact Or.inr h.2
  | _ => exact Or.inl h

/-- **Ticks are consecutive**, however the calls of a run take them. -/
theorem run_ticks {wire : RequestPacket → Option Nat} {t : LoadBalancedTransport}
    {p q : Pool CounterState (Option (Program CallSig RpcResult))}
    {vs : List (Pool CounterState (Option (Program CallSig RpcResult)) × Actor)}
    (hrun : (counterSystem wire t).Run p vs q) :
    ∃ ticks, q.shared.ticks = p.shared.ticks ++ ticks ∧
      ticks.map UInt64.toNat = ticksFrom p.shared.counter.toNat ticks.length ∧
      q.shared.counter.toNat = (p.shared.counter.toNat + ticks.length) % 2 ^ 64 := by
  induction hrun with
  | refl =>
    refine ⟨[], (List.append_nil _).symm, rfl, ?_⟩
    exact (Nat.mod_eq_of_lt p.shared.counter.toNat_lt).symm
  | @step vs q q' w _ hs ih =>
    obtain ⟨ticks, hticks, hvalues, hcounter⟩ := ih
    have hmove : q'.shared = q.shared ∨
        q'.shared = ⟨q.shared.counter + 1, q.shared.ticks ++ [q.shared.counter]⟩ := by
      cases hs with
      | act h =>
        rcases h.1 with ⟨e, k, r, _, hstep, _⟩ | ⟨_, hsame, _⟩
        · exact counterStep_cases hstep
        · exact Or.inl hsame
      | env h => exact h.elim
      | arrive h => exact Or.inl h.1
    rcases hmove with hsame | hnext
    · rw [hsame]
      exact ⟨ticks, hticks, hvalues, hcounter⟩
    · refine ⟨ticks ++ [q.shared.counter], ?_, ?_, ?_⟩
      · rw [hnext, hticks, List.append_assoc]
      · rw [List.map_append, hvalues, List.length_append, List.map_singleton, hcounter]
        simp [ticksFrom, List.range'_concat]
      · rw [hnext]
        show (q.shared.counter + 1).toNat = _
        rw [UInt64.toNat_add, hcounter, List.length_append]
        show (_ + 1) % 2 ^ 64 = (_ + (_ + 1)) % 2 ^ 64
        omega

/-! ## 3. Exactness -/

/-- **Exact weighted round-robin** for endpoints of some weights. -/
structure RoundRobinExact (t : LoadBalancedTransport) (ws : List Nat) : Prop where
  increasing : t.cumulativeWeights.Pairwise (· < ·)
  last : t.cumulativeWeights.getLast? = some t.totalWeight
  total : t.totalWeight.toNat = ws.sum
  inRange : ∀ tick, t.endpointOfTick tick < t.numEndpoints
  /-- In a stretch of a run that hands out one cycle of ticks, not across the end of the counter,
      an endpoint is selected as often as it weighs. -/
  window : ∀ wire p vs q ticks, (counterSystem wire t).Run p vs q →
    q.shared.ticks = p.shared.ticks ++ ticks → ticks.length = t.totalWeight.toNat →
    p.shared.counter.toNat + t.totalWeight.toNat ≤ 2 ^ 64 →
    ∀ i w, ws[i]? = some w → (ticks.map t.endpointOfTick).count i = w

/-- **WEIGHTED ROUND-ROBIN IS EXACT** for every transport `build` returns. -/
theorem round_robin_exact {b : LoadBalancedTransportBuilder} {tr : Trace ProcessSig}
    {t : LoadBalancedTransport} (hr : Runs (build b) tr t) :
    RoundRobinExact t (weights b.endpoints) := by
  have hsums := (build_weights hr).sums
  have htotal := (build_weights hr).total
  obtain ⟨hfirst, hincreasing⟩ := List.pairwise_cons.mp t.increasing
  have hlength : (weights b.endpoints).length = t.numEndpoints := by
    rw [← runningSums_length 0, ← hsums, List.length_map, t.weights_length]
    rfl
  have hne : t.cumulativeWeights ≠ [] := by
    intro hnil
    have := t.numEndpoints_pos
    rw [← hlength, ← runningSums_length 0, ← hsums, hnil] at this
    exact absurd this (Nat.lt_irrefl 0)
  have hlast : t.cumulativeWeights.getLast? = some t.totalWeight := by
    rw [← t.total_last, List.getLast?_cons_of_ne_nil hne]
  have hpos : 0 < (weights b.endpoints).sum := by
    rw [← htotal]
    exact UInt64.lt_iff_toNat_lt.mp (hfirst _ (List.mem_of_getLast? hlast))
  refine ⟨hincreasing, hlast, htotal, fun tick => ?_, ?_⟩
  · rw [endpointOfTick_eq hr, ← hlength]
    refine owner_lt (Nat.zero_le _) ?_
    rw [Nat.zero_add]
    exact Nat.mod_lt _ hpos
  · intro wire p vs q ticks hrun hticks hcycle hwrap i w hw
    obtain ⟨ticks', hticks', hvalues, _⟩ := run_ticks hrun
    obtain rfl := List.append_cancel_left (hticks.symm.trans hticks')
    obtain ⟨hi, rfl⟩ := List.getElem?_eq_some_iff.mp hw
    -- before the end of the counter its values are consecutive numbers
    have hconsecutive : ticks.map UInt64.toNat =
        List.range' p.shared.counter.toNat (weights b.endpoints).sum := by
      rw [hvalues, hcycle, ← htotal, ticksFrom]
      refine (List.map_congr_left fun tick htick => ?_).trans (List.map_id' _)
      have := List.mem_range'_1.mp htick
      exact Nat.mod_eq_of_lt (by omega)
    rw [← count_owner_window hi p.shared.counter.toNat, ← hconsecutive, List.countP_map,
      List.count, List.countP_map]
    refine List.countP_congr fun tick _ => ?_
    simp [endpointOfTick_eq hr]

/-- Two endpoints of the default weight take turns of a hundred ticks. -/
theorem round_robin_exact_pair : RoundRobinExact pairTransport [100, 100] :=
  round_robin_exact pairBuild_runs

end TransportBalancer
