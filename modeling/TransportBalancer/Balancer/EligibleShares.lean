/-
  File:      TransportBalancer/Balancer/EligibleShares.lean
  Subject:   WHOSE SHARE GOES WHERE when some endpoints are too small for a request. The weighted
             pick knows no size caps; a pick that cannot take the request walks on in list order.

  * `nextEligible` -- where a pick ends up;
  * `FirstAttempt`, `SelectionWindow` -- calls with consecutive first-round selections and no domain
    throttled, and the endpoints they attempt first;
  * `window_count` -- an eligible endpoint gets its own weight and that of the endpoints too small
    for the request directly before it;
  * **`eligible_shares_iff`** -- so the shares are proportional to the weights exactly if these
    additions are, and across the end of the counter exactly if the cycle divides its range, too.
-/
import Mathlib.Algebra.Order.BigOperators.Group.Finset
import Mathlib.Algebra.BigOperators.Ring.Finset
import TransportBalancer.Balancer.Backoff
import TransportBalancer.Balancer.RoundRobin

namespace TransportBalancer

open Interaction TaskPool WeightedShares

/-! ## 1. Where a pick ends up -/

section Picks

variable (t : LoadBalancedTransport) (bytes : Nat)

/-- **The first endpoint that accepts the request**, in list order from the one picked. -/
def nextEligible (idx : Nat) : Option Nat := (eligibleRotation t bytes idx).head?

/-- A rotation and the one that starts at the next endpoint. -/
theorem rotation_next {start : Nat} (h : start < t.numEndpoints) :
    ∃ others, rotation t start = start :: others ∧
      rotation t ((start + 1) % t.numEndpoints) = others ++ [start] := by
  obtain ⟨n, hn⟩ : ∃ n, t.numEndpoints = n + 1 := ⟨_, (Nat.sub_one_add_one_eq_of_pos
    t.numEndpoints_pos).symm⟩
  refine ⟨(List.range n).map fun attempt => rotated t start (attempt + 1), ?_, ?_⟩
  · unfold rotation
    rw [hn, List.range_succ_eq_map, List.map_cons, List.map_map]
    unfold rotated
    rw [Nat.add_zero, Nat.mod_eq_of_lt h]
    rfl
  · unfold rotation
    rw [hn, List.range_succ, List.map_append, List.map_singleton, ← hn]
    unfold rotated
    congr 1
    · refine List.map_congr_left fun attempt _ => ?_
      rw [Nat.mod_add_mod]
      congr 1
      omega
    · rw [Nat.mod_add_mod, show start + 1 + n = start + t.numEndpoints by omega,
        Nat.add_mod_right, Nat.mod_eq_of_lt h]

/-- The eligible endpoints of both. -/
theorem eligibleRotation_next {start : Nat} (h : start < t.numEndpoints) :
    ∃ others, start ∉ others ∧
      eligibleRotation t bytes start =
        (if t.endpointAcceptsRequest start bytes = true then [start] else []) ++ others ∧
      eligibleRotation t bytes ((start + 1) % t.numEndpoints) =
        others ++ if t.endpointAcceptsRequest start bytes = true then [start] else [] := by
  obtain ⟨others, hrotation, hnext⟩ := rotation_next t h
  have hfresh : start ∉ others := by
    have hnodup := rotation_nodup t start
    rw [hrotation] at hnodup
    exact (List.nodup_cons.mp hnodup).1
  have hself : [start].filter (fun idx => t.endpointAcceptsRequest idx bytes) =
      if t.endpointAcceptsRequest start bytes = true then [start] else [] := by
    rw [List.filter_singleton]
    cases t.endpointAcceptsRequest start bytes <;> rfl
  refine ⟨others.filter fun idx => t.endpointAcceptsRequest idx bytes,
    fun hmem => hfresh (List.mem_filter.mp hmem).1, ?_, ?_⟩
  · unfold eligibleRotation
    rw [hrotation, ← hself, ← List.filter_append]
    rfl
  · unfold eligibleRotation
    rw [hnext, ← hself, ← List.filter_append]

variable {t bytes}

theorem nextEligible_of_accepts {idx : Nat} (h : idx < t.numEndpoints)
    (hacc : t.endpointAcceptsRequest idx bytes = true) : nextEligible t bytes idx = some idx := by
  obtain ⟨others, _, hrotation, _⟩ := eligibleRotation_next t bytes h
  unfold nextEligible
  rw [hrotation, if_pos hacc]
  rfl

/-- An endpoint too small for the request hands its picks to the next one. -/
theorem nextEligible_of_not_accepts {idx : Nat} (h : idx < t.numEndpoints)
    (hacc : ¬ t.endpointAcceptsRequest idx bytes = true) :
    nextEligible t bytes idx = nextEligible t bytes ((idx + 1) % t.numEndpoints) := by
  obtain ⟨others, _, hrotation, hnext⟩ := eligibleRotation_next t bytes h
  unfold nextEligible
  rw [hrotation, hnext, if_neg hacc, List.nil_append, List.append_nil]

/-- Behind one eligible endpoint comes another, if there is one. -/
theorem nextEligible_behind {i j : Nat} (hi : i ∈ eligible t bytes) (hj : j ∈ eligible t bytes)
    (hne : j ≠ i) : nextEligible t bytes ((i + 1) % t.numEndpoints) ≠ some i := by
  obtain ⟨hlt, hacc⟩ := List.mem_filter.mp hi
  obtain ⟨others, hfresh, hrotation, hnext⟩ :=
    eligibleRotation_next t bytes (List.mem_range.mp hlt)
  rw [if_pos hacc] at hrotation hnext
  have hother : j ∈ others := by
    have hmem := (eligibleRotation_perm t bytes i).symm.subset hj
    rw [hrotation] at hmem
    exact (List.mem_cons.mp hmem).resolve_left hne
  obtain ⟨first, rest, rfl⟩ := List.exists_cons_of_ne_nil (List.ne_nil_of_mem hother)
  unfold nextEligible
  rw [hnext]
  intro h
  exact hfresh (Option.some.inj h ▸ List.mem_cons_self)

theorem nextEligible_mem {idx i : Nat} (h : nextEligible t bytes idx = some i) :
    i ∈ eligible t bytes :=
  (eligibleRotation_perm t bytes idx).subset (List.mem_of_mem_head? h)

theorem nextEligible_isSome (hacc : eligible t bytes ≠ []) (idx : Nat) :
    ∃ i, nextEligible t bytes idx = some i := by
  unfold nextEligible
  rw [← Option.isSome_iff_exists, List.isSome_head?]
  exact fun hnil => hacc (List.nil_perm.mp (hnil ▸ eligibleRotation_perm t bytes idx))

end Picks

/-! ## 2. First attempts -/

section FirstAttempts

variable {t : LoadBalancedTransport} {bytes : Nat}

/-- **A call with the first-round selection `tick` first attempts endpoint `idx`**: a call for a
    request of that size, up to its first inner call, which reads of no throttling on the way. -/
def FirstAttempt (t : LoadBalancedTransport) (bytes : Nat) (tick : UInt64) (idx : Nat) : Prop :=
  ∃ (wire : RequestPacket → Option Nat) (req : RequestPacket) (tr : Trace CallSig)
    (reply : RpcResult) (q : Program CallSig RpcResult), requestBytes wire req = bytes ∧
    innerCalls tr = [] ∧ readsOnly (fun _ => Duration.zero) tr = true ∧
    Steps (call wire t req)
      (((⟨.fetchAddCounter, tick⟩ : Event CallSig) :: tr) ++ [⟨.send idx req, reply⟩]) q

/-- Where no domain is throttled nobody gives way, so that a running round without attempts has
    visited nobody. -/
theorem visits_eq_nil {r : RoundLog} (hfailed : ∀ v ∈ r.visits, v.Failed t bytes r.start)
    (hplan : ∀ v ∈ r.visits, v.reached =
      !givesWay t (fun _ => Duration.zero) (eligibleRotation t bytes r.start) v.idx)
    (hnone : r.attempts = []) : r.visits = [] := by
  rw [List.eq_nil_iff_forall_not_mem]
  intro v hv
  cases v with
  | skipped idx readings =>
    have hgives := hplan _ hv
    rw [Visit.reached, eq_comm, Bool.not_eq_false'] at hgives
    obtain ⟨hheavy, other, _, hlight⟩ := exists_of_givesWay hgives
    exact absurd hlight (not_lt.mpr hheavy)
  | gateClosed idx => exact hfailed _ hv
  | attempted idx reply =>
    have hmem := mem_attempts.mpr hv
    rw [hnone] at hmem
    exact absurd hmem List.not_mem_nil

/-- **It is the first eligible endpoint from the one picked.** -/
theorem nextEligible_of_firstAttempt {tick : UInt64} {idx : Nat}
    (h : FirstAttempt t bytes tick idx) :
    nextEligible t bytes (t.endpointOfTick tick) = some idx := by
  obtain ⟨wire, req, tr, reply, q, rfl, hcalls, hreads, hs⟩ := h
  obtain ⟨q', hs', _⟩ := steps_append_iff.mp hs
  obtain ⟨r, past, hrounds, hfailed, horder⟩ := (call_performed hs).2
  have hok := callLog_ok hs'
  have hnone : ∀ r' ∈ (callLog t (⟨.fetchAddCounter, tick⟩ :: tr)).rounds, r'.attempts = [] := by
    have hall := innerCalls_eq t (⟨.fetchAddCounter, tick⟩ :: tr)
    rw [show innerCalls (⟨.fetchAddCounter, tick⟩ :: tr) = [] from hcalls] at hall
    exact fun r' hr' => List.flatMap_eq_nil_iff.mp hall.symm r' (List.mem_reverse.mpr hr')
  -- a round before this one would have attempted an endpoint
  obtain rfl : past = [] := by
    cases past with
    | nil => rfl
    | cons r' past =>
      obtain ⟨_, _, hmem, _⟩ := (hok.past r' (by rw [hrounds]; simp)).attempts_some
      rw [hnone r' (by rw [hrounds]; simp)] at hmem
      exact absurd hmem List.not_mem_nil
  obtain ⟨later, r', hgrown, hstart, _⟩ := rounds_grow t tr (show
    ((CallLog.empty).next t .fetchAddCounter tick).rounds =
      [] ++ (⟨t.endpointOfTick tick, []⟩ : RoundLog) :: [] from rfl)
  obtain rfl : r = r' := by
    have hsame : [r] = later ++ [r'] := hrounds.symm.trans hgrown
    cases later with
    | nil => exact (List.cons.inj hsame).1
    | cons r'' later => exact absurd (List.cons.inj hsame).2 (by simp)
  have hplan := call_as_planned hs' (readingsFixed_of_readsOnly
    (show readsOnly (fun _ => Duration.zero) (⟨.fetchAddCounter, tick⟩ :: tr) = true from hreads) 1)
    [] r [] hrounds rfl
  have hvisits := visits_eq_nil hfailed hplan (hnone r (by rw [hrounds]; simp))
  rw [hvisits, hstart] at horder
  obtain ⟨rest, hrest⟩ := horder
  unfold nextEligible
  rw [← hrest]
  rfl

/-- An event on the way to a first attempt. -/
def OnTheWay (ev : Event CallSig) : Prop :=
  innerCalls [ev] = [] ∧ readsOnly (fun _ => Duration.zero) [ev] = true

theorem onTheWay_trace {tr : Trace CallSig} (h : ∀ ev ∈ tr, OnTheWay ev) :
    innerCalls tr = [] ∧ readsOnly (fun _ => Duration.zero) tr = true := by
  induction tr with
  | nil => exact ⟨rfl, rfl⟩
  | cons ev tr ih =>
    obtain ⟨⟨hcalls, hreads⟩, hrest⟩ := List.forall_mem_cons.mp h
    obtain ⟨hcalls', hreads'⟩ := ih hrest
    unfold innerCalls at hcalls hcalls' ⊢
    unfold readsOnly at hreads hreads' ⊢
    rw [← List.singleton_append, List.filterMap_append, List.all_append, hcalls, hcalls', hreads,
      hreads']
    exact ⟨rfl, rfl⟩

/-- **The loop comes to the first eligible endpoint** among the attempts to make. -/
theorem attemptLoop_comes_to (req : RequestPacket) {start idx : Nat} (todo : List Nat)
    (h : (eligibleOf t bytes start todo).head? = some idx) :
    ∃ tr, (∀ ev ∈ tr, OnTheWay ev) ∧ ∃ q, Steps (attemptLoop t req bytes start todo none)
      (tr ++ [⟨.send idx req, .error backendGone⟩]) q := by
  induction todo with
  | nil => cases h
  | cons attempt later ih =>
    unfold attemptLoop
    dsimp only
    by_cases hacc : t.endpointAcceptsRequest (rotated t start attempt) bytes = true
    · rw [eligibleOf_cons_of_accepts t bytes hacc] at h
      obtain rfl := Option.some.inj h
      rw [if_pos hacc, CallOp.perform_bind]
      obtain ⟨found, ⟨ahead, hlook, hahead⟩, hstay⟩ :=
        @lookAhead_may t bytes OnTheWay (fun _ => ⟨rfl, rfl⟩) start later
      obtain ⟨entry, hgate, hentry⟩ :=
        @acquirePermit_may t OnTheWay (rotated t start attempt) ⟨rfl, rfl⟩
      refine ⟨⟨.preRequestDelay (rotated t start attempt), Duration.zero⟩ :: (ahead ++ entry),
        List.forall_mem_cons.mpr ⟨⟨rfl, rfl⟩, List.forall_mem_append.mpr ⟨hahead, hentry⟩⟩, ?_⟩
      rw [List.cons_append, List.append_assoc]
      refine Exists.imp (fun _ h => .step _ _ _ (steps_bind hlook h)) ?_
      rw [if_neg hstay]
      refine Exists.imp (fun _ h => @steps_bind _ _ _ (applyDomainDelay Duration.zero) _ [] _ () _
        (.refl _) (steps_bind hgate h)) ?_
      unfold sendTo
      exact ⟨_, .step _ _ _ (.refl _)⟩
    · rw [eligibleOf_cons_of_not_accepts t bytes hacc] at h
      rw [if_neg hacc]
      exact ih h

/-- **Every selection has its first attempt.** -/
theorem firstAttempt_of_nextEligible {tick : UInt64} {idx : Nat}
    (h : nextEligible t bytes (t.endpointOfTick tick) = some idx) :
    FirstAttempt t bytes tick idx := by
  obtain ⟨tr, hway, q, hs⟩ := attemptLoop_comes_to smallRequest (List.range t.numEndpoints) h
  obtain ⟨hcalls, hreads⟩ := onTheWay_trace hway
  have hcall : call (fun _ => some bytes) t smallRequest = retryRounds t smallRequest bytes
      (t.config.maxRetryRounds.toNat + 1) 0 t.config.initialBackoff :=
    if_pos ((any_accepts_iff t _).mpr (List.ne_nil_of_mem (nextEligible_mem h)))
  have hsteps : ∃ q, Steps (call (fun _ => some bytes) t smallRequest)
      (((⟨.fetchAddCounter, tick⟩ : Event CallSig) :: tr) ++
        [⟨.send idx smallRequest, .error backendGone⟩]) q := by
    rw [hcall]
    unfold retryRounds selectEndpoint
    exact ⟨_, .step _ _ _ (Steps.bind hs _)⟩
  obtain ⟨q, hsteps⟩ := hsteps
  exact ⟨_, smallRequest, tr, _, q, rfl, hcalls, hreads, hsteps⟩

end FirstAttempts

/-! ## 3. Windows -/

section Windows

variable {t : LoadBalancedTransport} {bytes : Nat}

/-- **A window of consecutive first-round selections**, as long as the cycle, over a counter at
    `first`: the endpoints its calls attempt first. -/
structure SelectionWindow (t : LoadBalancedTransport) (bytes : Nat) (first : UInt64)
    (attempts : List Nat) : Prop where
  length : attempts.length = t.totalWeight.toNat
  attempted : ∀ k idx, attempts[k]? = some idx →
    FirstAttempt t bytes (first + UInt64.ofNat k) idx

theorem ofNat_add_toNat (s k : Nat) :
    (UInt64.ofNat s + UInt64.ofNat k).toNat = (s + k) % 2 ^ 64 := by
  rw [← UInt64.ofNat_add, UInt64.toNat_ofNat']

/-- **The calls of a run make a window**, whichever clones they are made on, when a cycle of ticks
    is handed out to their first rounds. -/
theorem selectionWindow_of_run {wire : RequestPacket → Option Nat}
    {p q : Pool CounterState (Option (Program CallSig RpcResult))}
    {vs : List (Pool CounterState (Option (Program CallSig RpcResult)) × Actor)}
    {ticks : List UInt64} {attempts : List Nat} (hrun : (counterSystem wire t).Run p vs q)
    (hticks : q.shared.ticks = p.shared.ticks ++ ticks)
    (hcycle : ticks.length = t.totalWeight.toNat)
    (hattempts : List.Forall₂ (FirstAttempt t bytes) ticks attempts) :
    SelectionWindow t bytes p.shared.counter attempts := by
  obtain ⟨ticks', hticks', hvalues, _⟩ := run_ticks hrun
  obtain rfl := List.append_cancel_left (hticks.symm.trans hticks')
  refine ⟨hattempts.length_eq.symm.trans hcycle, fun k idx hk => ?_⟩
  obtain ⟨hlt, rfl⟩ := List.getElem?_eq_some_iff.mp hk
  have hlt' : k < ticks.length := hattempts.length_eq ▸ hlt
  have htick : ticks[k] = p.shared.counter + UInt64.ofNat k := by
    have hvalue := congrArg (fun xs : List Nat => xs[k]?) hvalues
    unfold ticksFrom at hvalue
    simp only [List.getElem?_map, List.getElem?_eq_getElem hlt', List.getElem?_range', hlt',
      Option.map_some, Nat.one_mul, Option.some.injEq] at hvalue
    rw [← UInt64.toNat_inj, hvalue, ← ofNat_add_toNat, UInt64.ofNat_toNat]
  rw [← htick]
  exact (List.forall₂_iff_get.mp hattempts).2 k hlt' hlt

/-- The shares of the window are as the weights. -/
structure Proportional (t : LoadBalancedTransport) (ws : List Nat) (bytes : Nat)
    (attempts : List Nat) : Prop where
  shares : ∀ i ∈ eligible t bytes, ∀ j ∈ eligible t bytes,
    attempts.count i * ws.getD j 0 = attempts.count j * ws.getD i 0
  others : ∀ i, i ∉ eligible t bytes → attempts.count i = 0

/-- The weight of the endpoints too small for the request that come directly before an endpoint in
    list order, around the end of the list. -/
def weightBefore (t : LoadBalancedTransport) (ws : List Nat) (bytes i : Nat) : Nat :=
  ∑ k ∈ (Finset.range t.numEndpoints).filter fun k =>
    t.endpointAcceptsRequest k bytes = false ∧ nextEligible t bytes k = some i, ws.getD k 0

/-- **The weights before the eligible endpoints are as their own.** -/
def NeighboursProportional (t : LoadBalancedTransport) (ws : List Nat) (bytes : Nat) : Prop :=
  ∀ i ∈ eligible t bytes, ∀ j ∈ eligible t bytes,
    weightBefore t ws bytes i * ws.getD j 0 = weightBefore t ws bytes j * ws.getD i 0

instance (t : LoadBalancedTransport) (ws : List Nat) (bytes : Nat) :
    Decidable (NeighboursProportional t ws bytes) :=
  inferInstanceAs (Decidable (∀ i ∈ eligible t bytes, ∀ j ∈ eligible t bytes, _ = _))

/-- The endpoint a counter value comes to. -/
def comesTo (t : LoadBalancedTransport) (ws : List Nat) (bytes n : Nat) : Option Nat :=
  nextEligible t bytes (owner 0 ws (n % ws.sum))

theorem comesTo_congr {ws : List Nat} {n m : Nat} (h : n % ws.sum = m % ws.sum) :
    comesTo t ws bytes n = comesTo t ws bytes m := by
  unfold comesTo
  rw [h]

/-- **The picks that come to an eligible endpoint** are its own and those of the endpoints too small
    for the request directly before it. -/
theorem weight_of_picks {ws : List Nat} {i : Nat} (hi : i ∈ eligible t bytes) :
    ∑ k ∈ (Finset.range t.numEndpoints).filter (fun k => nextEligible t bytes k = some i),
      ws.getD k 0 = ws.getD i 0 + weightBefore t ws bytes i := by
  obtain ⟨hlt, hacc⟩ := List.mem_filter.mp hi
  have hlt := List.mem_range.mp hlt
  have hsplit : (Finset.range t.numEndpoints).filter (fun k => nextEligible t bytes k = some i) =
      insert i ((Finset.range t.numEndpoints).filter fun k =>
        t.endpointAcceptsRequest k bytes = false ∧ nextEligible t bytes k = some i) := by
    ext k
    simp only [Finset.mem_insert, Finset.mem_filter, Finset.mem_range]
    constructor
    · intro h
      obtain ⟨hk, hnext⟩ := h
      by_cases hacck : t.endpointAcceptsRequest k bytes = true
      · rw [nextEligible_of_accepts hk hacck] at hnext
        exact Or.inl (Option.some.inj hnext)
      · exact Or.inr ⟨hk, Bool.not_eq_true _ ▸ hacck, hnext⟩
    · intro h
      rcases h with rfl | ⟨hk, _, hnext⟩
      · exact ⟨hlt, nextEligible_of_accepts hlt hacc⟩
      · exact ⟨hk, hnext⟩
  rw [hsplit, Finset.sum_insert (by simp [hacc])]
  rfl

end Windows

/-! ## 4. The shares of a window -/

section Built

variable {b : LoadBalancedTransportBuilder} {tr : Trace ProcessSig} {t : LoadBalancedTransport}
  {bytes : Nat} (hr : Runs (build b) tr t)

include hr

/-- **`build` accepts positive weights only.** -/
theorem build_weights_pos : ∀ w ∈ weights b.endpoints, 0 < w := by
  refine (build_ensures (R := fun _ configs => ∀ w ∈ weights configs, 0 < w) ?_
    (fun w hw => absurd hw List.not_mem_nil) hr).1
  intro table done endpoint client throttle total htotal hcap hlimit h hsum
  have hpos := UInt64.lt_iff_toNat_lt.mp htotal
  unfold weights at h ⊢
  have hweight : 0 < endpoint.weight.value.toNat := by omega
  rw [List.map_append, List.map_singleton, List.forall_mem_append]
  exact ⟨h, List.forall_mem_singleton.mpr hweight⟩

theorem weights_length : (weights b.endpoints).length = t.numEndpoints := by
  rw [← runningSums_length 0, ← (build_weights hr).sums, List.length_map, t.weights_length]
  rfl

theorem weights_sum_pos : 0 < (weights b.endpoints).sum := by
  have hne : weights b.endpoints ≠ [] := by
    rw [← List.length_pos_iff, weights_length hr]
    exact t.numEndpoints_pos
  obtain ⟨w, ws, hws⟩ := List.exists_cons_of_ne_nil hne
  have hw := build_weights_pos hr w (by rw [hws]; exact List.mem_cons_self)
  rw [hws, List.sum_cons]
  exact Nat.add_pos_left hw _

theorem weight_pos {i : Nat} (hi : i ∈ eligible t bytes) : 0 < (weights b.endpoints).getD i 0 := by
  have hlt : i < (weights b.endpoints).length := by
    rw [weights_length hr]
    exact List.mem_range.mp (List.mem_filter.mp hi).1
  rw [List.getD_eq_getElem?_getD, List.getElem?_eq_getElem hlt]
  exact build_weights_pos hr _ (List.getElem_mem hlt)

theorem nextEligible_tick (s : Nat) :
    nextEligible t bytes (t.endpointOfTick (UInt64.ofNat s)) =
      comesTo t (weights b.endpoints) bytes (s % 2 ^ 64) := by
  rw [endpointOfTick_eq hr, UInt64.toNat_ofNat']
  rfl

/-- The first attempts of a window. -/
theorem window_attempts {s : Nat} {attempts : List Nat}
    (h : SelectionWindow t bytes (UInt64.ofNat s) attempts) :
    attempts.map some = (List.range' s t.totalWeight.toNat).map fun n =>
      comesTo t (weights b.endpoints) bytes (n % 2 ^ 64) := by
  refine List.ext_getElem (by simp [h.length]) fun k hk hk' => ?_
  rw [List.length_map] at hk
  have hattempt := nextEligible_of_firstAttempt
    (h.attempted k attempts[k] (List.getElem?_eq_getElem hk))
  rw [← UInt64.ofNat_add, nextEligible_tick hr] at hattempt
  simpa using hattempt.symm

/-- How often a window attempts an endpoint. -/
theorem window_countP {s : Nat} {attempts : List Nat}
    (h : SelectionWindow t bytes (UInt64.ofNat s) attempts) (i : Nat) :
    attempts.count i = (List.range' s t.totalWeight.toNat).countP fun n =>
      decide (comesTo t (weights b.endpoints) bytes (n % 2 ^ 64) = some i) := by
  rw [← List.count_map_of_injective attempts some (Option.some_injective Nat),
    window_attempts hr h, List.count, List.countP_map]
  refine List.countP_congr fun n _ => ?_
  simp

omit hr in
/-- **There is a window from every counter value**, for a request that some endpoint accepts. -/
theorem exists_window (hacc : eligible t bytes ≠ []) (s : Nat) :
    ∃ attempts, SelectionWindow t bytes (UInt64.ofNat s) attempts := by
  refine ⟨(List.range t.totalWeight.toNat).map fun k =>
    (nextEligible t bytes (t.endpointOfTick (UInt64.ofNat s + UInt64.ofNat k))).getD 0,
    by simp, fun k idx hk => firstAttempt_of_nextEligible ?_⟩
  obtain ⟨i, hi⟩ := nextEligible_isSome hacc
    (t.endpointOfTick (UInt64.ofNat s + UInt64.ofNat k))
  obtain ⟨hlt, hidx⟩ := List.getElem?_eq_some_iff.mp hk
  rw [List.getElem_map, List.getElem_range, hi] at hidx
  rw [hi]
  exact congrArg some hidx

/-- The window is not cut: it ends before the counter does, or whole cycles make up the range of
    the counter. -/
def Uncut (t : LoadBalancedTransport) (s : Nat) : Prop :=
  s + t.totalWeight.toNat ≤ 2 ^ 64 ∨ t.totalWeight.toNat ∣ 2 ^ 64

/-- **What an endpoint gets in an uncut window**: the weight of the picks that come to it. -/
theorem window_picks {s : Nat} {attempts : List Nat}
    (h : SelectionWindow t bytes (UInt64.ofNat s) attempts) (huncut : Uncut t s) (i : Nat) :
    attempts.count i = ∑ k ∈ (Finset.range t.numEndpoints).filter
      (fun k => nextEligible t bytes k = some i), (weights b.endpoints).getD k 0 := by
  have htotal := (build_weights hr).total
  have hcount := countP_owner_window (weights_sum_pos hr)
    (fun k => decide (nextEligible t bytes k = some i)) s
  simp only [decide_eq_true_eq] at hcount
  rw [window_countP hr h, ← weights_length hr, ← hcount, htotal]
  refine List.countP_congr fun n hn => ?_
  have hsame : n % 2 ^ 64 % (weights b.endpoints).sum = n % (weights b.endpoints).sum := by
    rcases huncut with hrange | hdvd
    · have := List.mem_range'_1.mp hn
      rw [Nat.mod_eq_of_lt (show n < 2 ^ 64 by omega)]
    · exact Nat.mod_mod_of_dvd n (htotal ▸ hdvd)
  rw [comesTo_congr hsame]
  rfl

theorem window_count {s : Nat} {attempts : List Nat}
    (h : SelectionWindow t bytes (UInt64.ofNat s) attempts) (huncut : Uncut t s) {i : Nat}
    (hi : i ∈ eligible t bytes) :
    attempts.count i = (weights b.endpoints).getD i 0 +
      weightBefore t (weights b.endpoints) bytes i :=
  (window_picks hr h huncut i).trans (weight_of_picks hi)

/-- An endpoint too small for the request gets nothing, in any window. -/
theorem window_others {s : Nat} {attempts : List Nat}
    (h : SelectionWindow t bytes (UInt64.ofNat s) attempts) {i : Nat}
    (hi : i ∉ eligible t bytes) : attempts.count i = 0 := by
  rw [window_countP hr h, List.countP_eq_zero]
  exact fun n _ hn => hi (nextEligible_mem (of_decide_eq_true hn))

/-- **An uncut window is fair exactly if the weights before the eligible endpoints are as their
    own.** -/
theorem uncut_proportional_iff {s : Nat} {attempts : List Nat}
    (h : SelectionWindow t bytes (UInt64.ofNat s) attempts) (huncut : Uncut t s) :
    Proportional t (weights b.endpoints) bytes attempts ↔
      NeighboursProportional t (weights b.endpoints) bytes := by
  have hpair : ∀ i ∈ eligible t bytes, ∀ j ∈ eligible t bytes,
      (attempts.count i * (weights b.endpoints).getD j 0 =
          attempts.count j * (weights b.endpoints).getD i 0 ↔
        weightBefore t (weights b.endpoints) bytes i * (weights b.endpoints).getD j 0 =
          weightBefore t (weights b.endpoints) bytes j * (weights b.endpoints).getD i 0) := by
    intro i hi j hj
    rw [window_count hr h huncut hi, window_count hr h huncut hj, Nat.add_mul, Nat.add_mul,
      Nat.mul_comm ((weights b.endpoints).getD i 0)]
    exact Nat.add_left_cancel_iff
  constructor
  · exact fun hfair i hi j hj => (hpair i hi j hj).mp (hfair.shares i hi j hj)
  · exact fun hfit => ⟨fun i hi j hj => (hpair i hi j hj).mpr (hfit i hi j hj),
      fun i hi => window_others hr h hi⟩

end Built

/-! ## 5. Across the end of the counter -/

section Wrap

variable {b : LoadBalancedTransportBuilder} {tr : Trace ProcessSig} {t : LoadBalancedTransport}
  {bytes : Nat} (hr : Runs (build b) tr t) (hacc : eligible t bytes ≠ [])

include hr hacc

/-- **Fair windows repeat**: the selection behind a window comes to the endpoint its first one comes
    to, or one of two windows in a row gives one endpoint too little and another too much. -/
theorem selections_repeat (hfair : ∀ s attempts, SelectionWindow t bytes (UInt64.ofNat s) attempts →
      Proportional t (weights b.endpoints) bytes attempts) (s : Nat) :
    comesTo t (weights b.endpoints) bytes (s % 2 ^ 64) =
      comesTo t (weights b.endpoints) bytes ((s + t.totalWeight.toNat) % 2 ^ 64) := by
  obtain ⟨i, hi⟩ : ∃ i, comesTo t (weights b.endpoints) bytes (s % 2 ^ 64) = some i :=
    nextEligible_isSome hacc _
  obtain ⟨j, hj⟩ : ∃ j, comesTo t (weights b.endpoints) bytes
      ((s + t.totalWeight.toNat) % 2 ^ 64) = some j := nextEligible_isSome hacc _
  by_cases hne : i = j
  · rw [hi, hj, hne]
  · obtain ⟨now, hnow⟩ := exists_window hacc s
    obtain ⟨later, hlater⟩ := exists_window hacc (s + 1)
    have hslide : ∀ k, now.count k + (decide (some j = some k)).toNat =
        later.count k + (decide (some i = some k)).toNat := by
      intro k
      rw [window_countP hr hnow, window_countP hr hlater, ← hi, ← hj]
      exact countP_slide (fun n => decide (comesTo t (weights b.endpoints) bytes (n % 2 ^ 64) =
        some k)) s t.totalWeight.toNat
    have hloses := hslide i
    have hgains := hslide j
    simp only [Option.some.injEq, hne, Ne.symm hne, decide_true, decide_false, Bool.toNat_true,
      Bool.toNat_false, Nat.add_zero] at hloses hgains
    have hfirst := (hfair s now hnow).shares i (nextEligible_mem hi) j (nextEligible_mem hj)
    have hsecond := (hfair (s + 1) later hlater).shares i (nextEligible_mem hi) j
      (nextEligible_mem hj)
    have hweight := weight_pos hr (nextEligible_mem hi)
    rw [hloses, Nat.add_mul, hsecond, ← hgains, Nat.add_mul] at hfirst
    omega

omit hacc in
/-- **Where the picks that come to an endpoint end**, if there is another: with the last one of its
    own. -/
theorem picks_end_iff {i j : Nat} (hi : i ∈ eligible t bytes) (hj : j ∈ eligible t bytes)
    (hne : j ≠ i) (n : Nat) :
    comesTo t (weights b.endpoints) bytes n = some i ∧
        comesTo t (weights b.endpoints) bytes (n + 1) ≠ some i ↔
      n % (weights b.endpoints).sum + 1 = ((weights b.endpoints).take (i + 1)).sum := by
  have hlen := weights_length hr
  have hweights := build_weights_pos hr
  have hp : n % (weights b.endpoints).sum < (weights b.endpoints).sum :=
    Nat.mod_lt _ (weights_sum_pos hr)
  generalize weights b.endpoints = ws at *
  obtain ⟨hlt, hacci⟩ := List.mem_filter.mp hi
  have hlt : i < ws.length := hlen ▸ List.mem_range.mp hlt
  have hk : owner 0 ws (n % ws.sum) < t.numEndpoints :=
    hlen ▸ owner_lt (Nat.zero_le _) (by rwa [Nat.zero_add])
  unfold comesTo
  rw [← Nat.mod_add_mod]
  constructor
  · intro h
    obtain ⟨hfound, hbehind⟩ := h
    by_cases hacck : t.endpointAcceptsRequest (owner 0 ws (n % ws.sum)) bytes = true
    · rw [nextEligible_of_accepts hk hacck] at hfound
      obtain ⟨_, hsame⟩ | ⟨hat, _⟩ := owner_next hweights hp (Option.some.inj hfound)
      · rw [hsame, nextEligible_of_accepts (hlen ▸ hlt) hacci] at hbehind
        exact absurd rfl hbehind
      · exact hat
    · -- a pick that comes to it from an endpoint before it is not the last one
      obtain ⟨_, hsame⟩ | ⟨_, hnext⟩ := owner_next hweights hp rfl
      · rw [hsame] at hbehind
        exact absurd hfound hbehind
      · rw [hnext, hlen, ← nextEligible_of_not_accepts hk hacck] at hbehind
        exact absurd hfound hbehind
  · intro h
    have htake : (ws.take (i + 1)).sum = (ws.take i).sum + ws[i] := List.sum_take_succ ws i hlt
    have hown := hweights ws[i] (List.getElem_mem hlt)
    have howner : owner 0 ws (n % ws.sum) = i := (owner_eq_iff hlt (Nat.zero_le _)).mpr (by omega)
    refine ⟨by rw [howner]; exact nextEligible_of_accepts (hlen ▸ hlt) hacci, ?_⟩
    obtain ⟨hinside, _⟩ | ⟨_, hnext⟩ := owner_next hweights hp howner
    · omega
    · rw [hnext, hlen]
      exact nextEligible_behind hi hj hne

/-- **Fair windows leave no remainder**: if several endpoints are eligible, whole cycles make up the
    range of the counter. -/
theorem dvd_of_fair (hfair : ∀ s attempts, SelectionWindow t bytes (UInt64.ofNat s) attempts →
      Proportional t (weights b.endpoints) bytes attempts) {i j : Nat}
    (hi : i ∈ eligible t bytes) (hj : j ∈ eligible t bytes) (hne : j ≠ i) :
    t.totalWeight.toNat ∣ 2 ^ 64 := by
  have htotal := (build_weights hr).total
  have hle : (weights b.endpoints).sum ≤ 2 ^ 64 := htotal ▸ t.totalWeight.toNat_lt.le
  have hpos := weights_sum_pos hr
  have hrepeat := selections_repeat hr hacc hfair
  have hends := picks_end_iff hr hi hj hne
  have hweights := build_weights_pos hr
  have hlt : i < (weights b.endpoints).length :=
    weights_length hr ▸ List.mem_range.mp (List.mem_filter.mp hi).1
  generalize weights b.endpoints = ws at *
  -- selections as far apart as the counter reaches come to the same endpoint
  have hshift : ∀ x, comesTo t ws bytes x = comesTo t ws bytes (x + 2 ^ 64) := by
    intro x
    have hx : x % ws.sum < ws.sum := Nat.mod_lt _ hpos
    have h := hrepeat (2 ^ 64 - ws.sum + x % ws.sum)
    rw [htotal, show 2 ^ 64 - ws.sum + x % ws.sum + ws.sum = x % ws.sum + 2 ^ 64 by omega,
      Nat.add_mod_right, Nat.mod_eq_of_lt (a := 2 ^ 64 - ws.sum + x % ws.sum) (by omega),
      Nat.mod_eq_of_lt (a := x % ws.sum) (by omega)] at h
    rw [← comesTo_congr (Nat.mod_mod x ws.sum), ← h]
    refine comesTo_congr ?_
    rw [← Nat.add_mod_right _ ws.sum,
      show 2 ^ 64 - ws.sum + x % ws.sum + ws.sum = x % ws.sum + 2 ^ 64 by omega, Nat.mod_add_mod]
  -- so where the picks of endpoint `i` end, they end again
  have hcycle := sum_take_le ws (i + 1)
  have htake : (ws.take (i + 1)).sum = (ws.take i).sum + ws[i] := List.sum_take_succ ws i hlt
  have hown := hweights ws[i] (List.getElem_mem hlt)
  obtain ⟨e, he⟩ : ∃ e, e + 1 = (ws.take (i + 1)).sum := ⟨(ws.take (i + 1)).sum - 1, by omega⟩
  have hlast := (hends e).mpr (by rw [Nat.mod_eq_of_lt (by omega), he])
  rw [hshift e, hshift (e + 1), show e + 1 + 2 ^ 64 = e + 2 ^ 64 + 1 by omega, hends] at hlast
  rw [htotal, ← Nat.modEq_zero_iff_dvd]
  refine Nat.ModEq.add_left_cancel' e ?_
  show (e + 2 ^ 64) % ws.sum = (e + 0) % ws.sum
  rw [Nat.add_zero, Nat.mod_eq_of_lt (a := e) (by omega)]
  omega

end Wrap

/-! ## 6. Exactly when the shares are as the weights -/

/-- **WEIGHTS ARE RESPECTED AMONG ELIGIBLE ENDPOINTS** in every window of first-round selections
    that does not reach across the end of the counter if and only if the weights of the endpoints
    too small for the request, each counted for the eligible one behind it, are as the weights
    of the eligible ones; and in every window at all if and only if, besides, whole cycles make up
    the range of the counter or only one endpoint is eligible. -/
theorem eligible_shares_iff {b : LoadBalancedTransportBuilder} {tr : Trace ProcessSig}
    {t : LoadBalancedTransport} {bytes : Nat} (hr : Runs (build b) tr t)
    (hacc : eligible t bytes ≠ []) :
    ((∀ first attempts, SelectionWindow t bytes first attempts →
        first.toNat + t.totalWeight.toNat ≤ 2 ^ 64 →
          Proportional t (weights b.endpoints) bytes attempts) ↔
      NeighboursProportional t (weights b.endpoints) bytes) ∧
    ((∀ first attempts, SelectionWindow t bytes first attempts →
        Proportional t (weights b.endpoints) bytes attempts) ↔
      NeighboursProportional t (weights b.endpoints) bytes ∧
        (t.totalWeight.toNat ∣ 2 ^ 64 ∨ (eligible t bytes).length = 1)) := by
  have hstart : 0 + t.totalWeight.toNat ≤ 2 ^ 64 := by
    rw [Nat.zero_add]
    exact t.totalWeight.toNat_lt.le
  obtain ⟨fresh, hfresh⟩ := exists_window hacc 0
  have hwhole := uncut_proportional_iff hr hfresh (Or.inl hstart)
  refine ⟨⟨fun h => hwhole.mp (h _ fresh hfresh hstart), fun h first attempts hwindow hrange => ?_⟩,
    ⟨fun h => ⟨hwhole.mp (h _ fresh hfresh), ?_⟩, fun h first attempts hwindow => ?_⟩⟩
  · rw [← UInt64.ofNat_toNat (x := first)] at hwindow
    exact (uncut_proportional_iff hr hwindow (Or.inl hrange)).mpr h
  · by_cases hone : (eligible t bytes).length = 1
    · exact Or.inr hone
    · left
      obtain ⟨i, j, rest, hsome⟩ : ∃ i j rest, eligible t bytes = i :: j :: rest := by
        match hall : eligible t bytes with
        | [] => exact absurd hall hacc
        | [i] => rw [hall] at hone; exact absurd rfl hone
        | i :: j :: rest => exact ⟨i, j, rest, rfl⟩
      have hnodup : (eligible t bytes).Nodup := List.nodup_range.filter _
      rw [hsome, List.nodup_cons, List.mem_cons, not_or] at hnodup
      exact dvd_of_fair hr hacc (fun s => h (UInt64.ofNat s)) (by rw [hsome]; simp)
        (by rw [hsome]; simp) (Ne.symm hnodup.1.1)
  · obtain ⟨hfit, hdvd | hone⟩ := h
    · rw [← UInt64.ofNat_toNat (x := first)] at hwindow
      exact (uncut_proportional_iff hr hwindow (Or.inr hdvd)).mpr hfit
    · obtain ⟨i, honly⟩ := List.length_eq_one_iff.mp hone
      rw [← UInt64.ofNat_toNat (x := first)] at hwindow
      refine ⟨fun j hj k hk => ?_, fun j hj => window_others hr hwindow hj⟩
      rw [honly, List.mem_singleton] at hj hk
      rw [hj, hk]

/-- Four endpoints of weight one; the second and the fourth take no more than 99 bytes. -/
def quartetBuilder : LoadBalancedTransportBuilder :=
  builderWithEndpoints [.new ⟨some "eth.one.com", "http://eth.one.com/"⟩ ⟨1⟩,
    { EndpointConfig.new ⟨some "eth.two.com", "http://eth.two.com/"⟩ ⟨1⟩ with
      maxRequestBytes := some 99 },
    .new ⟨some "eth.three.com", "http://eth.three.com/"⟩ ⟨1⟩,
    { EndpointConfig.new ⟨some "eth.four.com", "http://eth.four.com/"⟩ ⟨1⟩ with
      maxRequestBytes := some 99 }]

def quartetTransport : LoadBalancedTransport where
  endpoints := [⟨0, ⟨some "eth.one.com", "http://eth.one.com/"⟩⟩,
    ⟨1, ⟨some "eth.two.com", "http://eth.two.com/"⟩⟩,
    ⟨2, ⟨some "eth.three.com", "http://eth.three.com/"⟩⟩,
    ⟨3, ⟨some "eth.four.com", "http://eth.four.com/"⟩⟩]
  endpointThrottles := [0, 1, 2, 3]
  endpointRequestCaps := [none, some 99, none, some 99]
  endpointInFlight := [none, none, none, none]
  cumulativeWeights := [1, 2, 3, 4]
  totalWeight := 4
  throttles_length := rfl
  caps_length := rfl
  inFlight_length := rfl
  weights_length := rfl
  caps_pos := by simp
  inFlight_pos := by simp
  increasing := by decide
  total_last := rfl
  config := .default
  nonempty := by simp

theorem quartetBuild_runs : Runs (build quartetBuilder)
    [⟨.readClient "one.com", none⟩, ⟨.insertClient "one.com", (0 : Nat)⟩,
      ⟨.readDomain "one.com", none⟩, ⟨.insertDomain "one.com", (0 : Nat)⟩,
      ⟨.readClient "two.com", none⟩, ⟨.insertClient "two.com", (1 : Nat)⟩,
      ⟨.readDomain "two.com", none⟩, ⟨.insertDomain "two.com", (1 : Nat)⟩,
      ⟨.readClient "three.com", none⟩, ⟨.insertClient "three.com", (2 : Nat)⟩,
      ⟨.readDomain "three.com", none⟩, ⟨.insertDomain "three.com", (2 : Nat)⟩,
      ⟨.readClient "four.com", none⟩, ⟨.insertClient "four.com", (3 : Nat)⟩,
      ⟨.readDomain "four.com", none⟩, ⟨.insertDomain "four.com", (3 : Nat)⟩] quartetTransport :=
  .step _ _ _ (.step _ _ _ (.step _ _ _ (.step _ _ _ (.step _ _ _ (.step _ _ _
    (.step _ _ _ (.step _ _ _ (.step _ _ _ (.step _ _ _ (.step _ _ _ (.step _ _ _
      (.step _ _ _ (.step _ _ _ (.step _ _ _ (.step _ _ _ (.refl _))))))))))))))))

/-- Where each small endpoint comes before another large one, a large request is shared fairly in
    every window. -/
theorem eligible_shares_quartet : eligible quartetTransport 100 = [0, 2] ∧
    NeighboursProportional quartetTransport [1, 1, 1, 1] 100 ∧
    ∀ first attempts, SelectionWindow quartetTransport 100 first attempts →
      Proportional quartetTransport [1, 1, 1, 1] 100 attempts :=
  ⟨by decide, by decide, (eligible_shares_iff quartetBuild_runs (by decide)).2.mpr
    ⟨by decide, Or.inl (by decide)⟩⟩

/-- Three endpoints of weight one; the second takes no more than 99 bytes. -/
def trioBuilder : LoadBalancedTransportBuilder :=
  builderWithEndpoints [.new ⟨some "eth.one.com", "http://eth.one.com/"⟩ ⟨1⟩,
    { EndpointConfig.new ⟨some "eth.two.com", "http://eth.two.com/"⟩ ⟨1⟩ with
      maxRequestBytes := some 99 },
    .new ⟨some "eth.three.com", "http://eth.three.com/"⟩ ⟨1⟩]

def trioTransport : LoadBalancedTransport where
  endpoints := [⟨0, ⟨some "eth.one.com", "http://eth.one.com/"⟩⟩,
    ⟨1, ⟨some "eth.two.com", "http://eth.two.com/"⟩⟩,
    ⟨2, ⟨some "eth.three.com", "http://eth.three.com/"⟩⟩]
  endpointThrottles := [0, 1, 2]
  endpointRequestCaps := [none, some 99, none]
  endpointInFlight := [none, none, none]
  cumulativeWeights := [1, 2, 3]
  totalWeight := 3
  throttles_length := rfl
  caps_length := rfl
  inFlight_length := rfl
  weights_length := rfl
  caps_pos := by simp
  inFlight_pos := by simp
  increasing := by decide
  total_last := rfl
  config := .default
  nonempty := by simp

theorem trioBuild_runs : Runs (build trioBuilder)
    [⟨.readClient "one.com", none⟩, ⟨.insertClient "one.com", (0 : Nat)⟩,
      ⟨.readDomain "one.com", none⟩, ⟨.insertDomain "one.com", (0 : Nat)⟩,
      ⟨.readClient "two.com", none⟩, ⟨.insertClient "two.com", (1 : Nat)⟩,
      ⟨.readDomain "two.com", none⟩, ⟨.insertDomain "two.com", (1 : Nat)⟩,
      ⟨.readClient "three.com", none⟩, ⟨.insertClient "three.com", (2 : Nat)⟩,
      ⟨.readDomain "three.com", none⟩, ⟨.insertDomain "three.com", (2 : Nat)⟩] trioTransport :=
  .step _ _ _ (.step _ _ _ (.step _ _ _ (.step _ _ _ (.step _ _ _ (.step _ _ _
    (.step _ _ _ (.step _ _ _ (.step _ _ _ (.step _ _ _ (.step _ _ _ (.step _ _ _
      (.refl _))))))))))))

/-- **The neighbour takes it all**: three calls of a hundred bytes on a fresh transport, the second
    of them picked for the endpoint that is too small for it, go to the endpoints 0, 2 and 2. -/
theorem neighbour_takes_share :
    ¬ ∀ (b : LoadBalancedTransportBuilder) (tr : Trace ProcessSig) (t : LoadBalancedTransport)
        (bytes : Nat), Runs (build b) tr t → eligible t bytes ≠ [] →
        ∀ first attempts, SelectionWindow t bytes first attempts →
          first.toNat + t.totalWeight.toNat ≤ 2 ^ 64 →
            Proportional t (weights b.endpoints) bytes attempts := by
  intro h
  have hwindow : SelectionWindow trioTransport 100 0 [0, 2, 2] := by
    refine ⟨rfl, fun k idx hk => firstAttempt_of_nextEligible ?_⟩
    match k, hk with
    | 0, hk => rw [← hk]; decide
    | 1, hk => rw [← hk]; decide
    | 2, hk => rw [← hk]; decide
  have hfair := h trioBuilder _ trioTransport 100 trioBuild_runs (by decide) 0 [0, 2, 2] hwindow
    (by decide)
  exact absurd (hfair.shares 0 (by decide) 2 (by decide)) (by decide)

end TransportBalancer
