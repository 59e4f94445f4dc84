/-
  File:      TransportBalancer/Throttle/Registered.lean
  Subject:   THE REGISTERED DOMAINS, one operation at a time: what an observer returns and leaves
             when nobody interferes, each domain visited at its own clock value.

  * `domainHandler` -- the atomic steps on the states of all domains;
  * `SequentialState` -- the states a sequential run of clients and observers reaches;
  * `throttleSnapshot_visits` -- a snapshot is one visit of each domain, in the order of the map;
  * **`snapshots_consistent_iff`** -- when the snapshots show their domains as they are left: the
    level is loaded before the read that may decay it.
-/
import TransportBalancer.Throttle.Observers
import TransportBalancer.Throttle.Sequential

namespace TransportBalancer

open Interaction MachineWord

/-! ## 1. Operations run alone -/

/-- What an atomic step does to the states of the domains; the steps on a domain all find the same
    clock value. -/
def domainHandler (clock : String → UInt64) : Handler DomainSig (String → DomainThrottleState)
  | (domain, e), states => (atomicHandler (clock domain) e (states domain)).map fun x =>
      (x.1, Function.update states domain x.2)

/-- **An operation on a domain, run alone**, is the operation on its state. -/
theorem onDomain_eval {α : Type} (clock : String → UInt64) (domain : String)
    (p : Program AtomicSig α) (states : String → DomainThrottleState) :
    (onDomain domain p).eval (domainHandler clock) states =
      (p.eval (atomicHandler (clock domain)) (states domain)).map fun x =>
        (x.1, Function.update states domain x.2) := by
  unfold onDomain
  induction p generalizing states with
  | ret a =>
    show some (a, states) = some (a, Function.update states domain (states domain))
    rw [Function.update_eq_self]
  | op e k ih =>
    unfold Program.expand
    rw [Program.op_bind, Program.eval_op, Program.eval_op]
    unfold domainHandler
    dsimp only
    cases atomicHandler (clock domain) e (states domain) with
    | none => rfl
    | some x =>
      simp only [Option.map_some, Option.bind_some, Program.ret_bind]
      have hih := ih x.1 (Function.update states domain x.2)
      rw [Function.update_self] at hih
      simp only [Function.update_idem] at hih
      exact hih

/-! ## 2. Sequential runs of clients and observers -/

section Runs

variable (configOf : String → ThrottleConfig)

/-- **The states of a sequential run**: from fresh states, calls, recorded skips and observers one
    after another, each when the one before has returned. -/
inductive SequentialState : (String → DomainThrottleState) → Prop where
  | fresh : SequentialState fun _ => .fresh
  | call {states states' : String → DomainThrottleState} {clock : String → UInt64}
      {e : ThrottleSig.Op} {r : ThrottleSig.Ans e} : SequentialState states →
      (callProgram configOf e).eval (domainHandler clock) states = some (r, states') →
      SequentialState states'
  | skip {states states' : String → DomainThrottleState} {clock : String → UInt64}
      {domain : String} : SequentialState states →
      (onDomain domain recordSkip).eval (domainHandler clock) states = some ((), states') →
      SequentialState states'
  | observe {states states' : String → DomainThrottleState} {clock : String → UInt64}
      {observer : Observer} {seen : Observation} : SequentialState states →
      (observer.program configOf).eval (domainHandler clock) states = some (seen, states') →
      SequentialState states'

/-- The levels are within the maxima of their domains. -/
def LevelsBounded (states : String → DomainThrottleState) : Prop :=
  ∀ domain, (states domain).backoffLevel ≤ (configOf domain).maxBackoffLevel

variable {configOf} {states : String → DomainThrottleState}

/-- A domain state with a level within the maximum keeps the bound. -/
theorem LevelsBounded.update (h : LevelsBounded configOf states) {domain : String}
    {s : DomainThrottleState} (hs : s.backoffLevel ≤ (configOf domain).maxBackoffLevel) :
    LevelsBounded configOf (Function.update states domain s) := by
  intro other
  by_cases hother : other = domain
  · subst hother
    rw [Function.update_self]
    exact hs
  · rw [Function.update_of_ne hother]
    exact h other

/-- An observer's step does not raise a level. -/
theorem observes_level_le {e : AtomicOp} (he : e.Observes) {now : UInt64}
    {s s' : DomainThrottleState} {r : AtomicSig.Ans e} (h : atomicHandler now e s = some (r, s')) :
    s'.backoffLevel ≤ s.backoffLevel := by
  obtain rfl | ⟨n, rfl, rfl⟩ := observes_cases he h
  · exact UInt32.le_refl _
  · exact decayBy_le n _

theorem LevelsBounded.observed {α : Type} (h : LevelsBounded configOf states)
    {p : Program DomainSig α} (hp : p.Performs ObservesDomain) {clock : String → UInt64} {a : α}
    {states' : String → DomainThrottleState}
    (he : p.eval (domainHandler clock) states = some (a, states')) :
    LevelsBounded configOf states' := by
  refine hp.eval_inv (fun e s r s' hok hs hstep => ?_) h he
  obtain ⟨domain, e⟩ := e
  obtain ⟨⟨r', t⟩, hatomic, hx⟩ := Option.map_eq_some_iff.mp hstep
  cases hx
  exact hs.update (UInt32.le_trans (observes_level_le hok hatomic) (hs domain))

/-- The calls leave the level of their domain within the maximum. -/
theorem callAt_level_le {config : ThrottleConfig} {s s' : DomainThrottleState}
    {call : ThrottleCall} {now : UInt64} (h : callAt config s call now = some s')
    (hs : s.backoffLevel ≤ config.maxBackoffLevel) : s'.backoffLevel ≤ config.maxBackoffLevel := by
  cases call with
  | rateLimit | batchRejection =>
    rw [callAt_escalates config s rfl] at h
    cases h
    exact escalate_le _ _
  | success =>
    unfold callAt at h
    rw [show ThrottleCall.success.program config = recordSuccess config from rfl,
      recordSuccess_eval] at h
    split at h
    · cases h
      exact hs
    · split at h
      · split at h
        · cases h
          exact UInt32.le_trans (satSub32_le _ 1) hs
        · cases h
          exact hs
      · cases h
  | delay =>
    rw [callAt_delay] at h
    obtain ⟨⟨delay, t⟩, heval, ht⟩ := Option.map_eq_some_iff.mp h
    cases ht
    refine (preRequestDelay_observes config).eval_inv (I := fun s : DomainThrottleState =>
      s.backoffLevel ≤ config.maxBackoffLevel) (fun e s r s' hok hs hstep => ?_) hs heval
    exact UInt32.le_trans (observes_level_le hok hstep) hs

/-- **The levels are bounded** in every state a sequential run reaches. -/
theorem levels_bounded (h : SequentialState configOf states) : LevelsBounded configOf states := by
  induction h with
  | fresh =>
    intro domain
    rw [UInt32.le_iff_toNat_le]
    exact Nat.zero_le _
  | @call states states' clock e r hr he ih =>
    obtain ⟨domain, call⟩ := e
    have hcall : ∃ s', callAt (configOf domain) (states domain) call (clock domain) = some s' ∧
        states' = Function.update states domain s' := by
      unfold callAt
      cases call with
      | rateLimit | batchRejection | success =>
        rw [callProgram, onDomain_eval] at he
        obtain ⟨⟨r', s'⟩, heval, hx⟩ := Option.map_eq_some_iff.mp he
        cases hx
        exact ⟨s', Option.map_eq_some_iff.mpr ⟨_, heval, rfl⟩, rfl⟩
      | delay =>
        rw [callProgram, onDomain_eval] at he
        obtain ⟨⟨r', s'⟩, heval, hx⟩ := Option.map_eq_some_iff.mp he
        cases hx
        refine ⟨s', ?_, rfl⟩
        rw [ThrottleCall.program, Program.eval_bind, heval]
        rfl
    obtain ⟨s', hs', rfl⟩ := hcall
    exact ih.update (callAt_level_le hs' (ih domain))
  | @skip states states' clock domain hr he ih =>
    rw [onDomain_eval] at he
    cases he
    exact ih.update (ih domain)
  | observe hr he ih => exact ih.observed (observer_observes _ _) he

end Runs

/-! ## 3. A snapshot is one visit of each domain -/

section Snapshots

variable (configOf : String → ThrottleConfig) (clock : String → UInt64)

/-- What a visit puts into the snapshot: the level found before the read, the rest after it. -/
def snapshotOf (domain : String) (before after : DomainThrottleState) (delay : Duration) :
    DomainThrottleSnapshot :=
  ⟨domain, before.backoffLevel, .ofNat delay.asMillis, after.totalRateLimits,
    after.totalSuccesses, after.totalSkips⟩

theorem load64_onDomain_eval (domain : String) (c : Cell64)
    (states : String → DomainThrottleState) :
    (onDomain domain (load64 c)).eval (domainHandler clock) states =
      some ((states domain).get64 c, states) := by
  rw [onDomain_eval]
  show some (_, Function.update states domain (states domain)) = _
  rw [Function.update_eq_self]

theorem load32_onDomain_eval (domain : String) (c : Cell32)
    (states : String → DomainThrottleState) :
    (onDomain domain (load32 c)).eval (domainHandler clock) states =
      some ((states domain).get32 c, states) := by
  rw [onDomain_eval]
  show some (_, Function.update states domain (states domain)) = _
  rw [Function.update_eq_self]

theorem throttleSnapshot_cons_eval (domain : String) (rest : List String)
    (states : String → DomainThrottleState) :
    (throttleSnapshot configOf (domain :: rest)).eval (domainHandler clock) states =
      ((preRequestDelay (configOf domain)).eval (atomicHandler (clock domain))
        (states domain)).bind fun x =>
          ((throttleSnapshot configOf rest).eval (domainHandler clock)
            (Function.update states domain x.2)).map fun y =>
              (snapshotOf domain (states domain) x.2 x.1 :: y.1, y.2) := by
  rw [throttleSnapshot, Program.eval_bind, load32_onDomain_eval, Option.bind_some,
    Program.eval_bind, onDomain_eval]
  cases (preRequestDelay (configOf domain)).eval (atomicHandler (clock domain))
    (states domain) with
  | none => rfl
  | some x =>
    simp only [Option.map_some, Option.bind_some, Program.eval_bind, load64_onDomain_eval,
      Function.update_self]
    cases (throttleSnapshot configOf rest).eval (domainHandler clock)
      (Function.update states domain x.2) with
    | none => rfl
    | some y => rfl

/-- **A snapshot reads each domain once**, in the order of the map, and leaves the others alone. -/
theorem throttleSnapshot_visits {domains : List String} (hkeys : domains.Nodup) :
    ∀ {states states' : String → DomainThrottleState} {snaps : List DomainThrottleSnapshot},
      (throttleSnapshot configOf domains).eval (domainHandler clock) states =
        some (snaps, states') →
      ∃ delay : String → Duration,
        (∀ domain ∈ domains, (preRequestDelay (configOf domain)).eval
          (atomicHandler (clock domain)) (states domain) =
            some (delay domain, states' domain)) ∧
        snaps = domains.map (fun domain =>
          snapshotOf domain (states domain) (states' domain) (delay domain)) ∧
        ∀ domain, domain ∉ domains → states' domain = states domain := by
  induction domains with
  | nil =>
    intro states states' snaps h
    cases h
    exact ⟨fun _ => Duration.zero, fun _ h => absurd h List.not_mem_nil, rfl, fun _ _ => rfl⟩
  | cons domain rest ih =>
    intro states after snaps h
    obtain ⟨hnew, hkeys⟩ := List.nodup_cons.mp hkeys
    rw [throttleSnapshot_cons_eval] at h
    obtain ⟨⟨d, s'⟩, hread, h⟩ := Option.bind_eq_some_iff.mp h
    obtain ⟨⟨snaps', after'⟩, hrest, hx⟩ := Option.map_eq_some_iff.mp h
    obtain ⟨rfl, rfl⟩ := Prod.mk.inj hx
    obtain ⟨delay, hreads, hsnaps, hothers⟩ := ih hkeys hrest
    dsimp only at hreads hsnaps hothers ⊢
    have hhere : after' domain = s' := by
      rw [hothers domain hnew, Function.update_self]
    -- the later visits find their domains as the snapshot found them
    have hne : ∀ other ∈ rest, other ≠ domain := fun other hother e => hnew (e ▸ hother)
    refine ⟨Function.update delay domain d, ?_, ?_, fun other hother => ?_⟩
    · rw [List.forall_mem_cons, Function.update_self, hhere]
      refine ⟨hread, fun other hother => ?_⟩
      have h := hreads other hother
      rw [Function.update_of_ne (hne other hother)] at h ⊢
      exact h
    · rw [List.map_cons, Function.update_self, hhere, hsnaps]
      congr 1
      refine List.map_congr_left fun other hother => ?_
      rw [Function.update_of_ne (hne other hother), Function.update_of_ne (hne other hother)]
    · rw [List.mem_cons, not_or] at hother
      rw [hothers other hother.2, Function.update_of_ne hother.1]

/-! ## 4. Consistent snapshots -/

/-- The entry of a level in the backoff table, the built-in two seconds beyond its end. -/
def tableEntry (config : ThrottleConfig) (level : UInt32) : Duration :=
  config.backoffTable.getD level.toNat (.fromMillis 2000)

/-- **The snapshot describes one moment**: its delay is the entry of its level, and the level is
    the one stored when the snapshot has been taken. -/
def SnapshotConsistent (states' : String → DomainThrottleState) (snap : DomainThrottleSnapshot) :
    Prop :=
  snap.delayMs.toNat = (tableEntry (configOf snap.domain) snap.backoffLevel).asMillis ∧
    (states' snap.domain).backoffLevel = snap.backoffLevel

/-- **Nothing to decay at the visit**: at level zero the table starts with a delay under a
    millisecond; at a positive level no timestamp is set or no interval is counted since, and the
    entry of the level fits 64 bits of milliseconds. -/
def Settled (config : ThrottleConfig) (now : UInt64) (s : DomainThrottleState) : Prop :=
  if s.backoffLevel = 0 then (tableEntry config 0).asMillis = 0
  else (s.lastRateLimitAt = 0 ∨ decayable config now s.lastRateLimitAt = 0) ∧
    (tableEntry config s.backoffLevel).asMillis < 2 ^ 64

variable {configOf clock}

theorem delayOfLevel_eq_tableEntry {config : ThrottleConfig} {level : UInt32}
    (h : level ≤ config.maxBackoffLevel) : delayOfLevel config level = tableEntry config level := by
  have hmin : min level config.maxBackoffLevel = level := if_pos h
  unfold delayOfLevel tableEntry
  rw [hmin]

/-- **One visit is consistent** exactly if it finds nothing to decay. -/
theorem visit_consistent_iff {domain : String} {states states' : String → DomainThrottleState}
    {delay : Duration}
    (hlevel : (states domain).backoffLevel ≤ (configOf domain).maxBackoffLevel)
    (hread : (preRequestDelay (configOf domain)).eval (atomicHandler (clock domain))
      (states domain) = some (delay, states' domain)) :
    SnapshotConsistent configOf states'
        (snapshotOf domain (states domain) (states' domain) delay) ↔
      Settled (configOf domain) (clock domain) (states domain) := by
  unfold SnapshotConsistent snapshotOf Settled
  dsimp only
  generalize hs : states domain = s at *
  generalize configOf domain = config at *
  generalize states' domain = s' at *
  rw [UInt64.toNat_ofNat']
  by_cases h0 : s.backoffLevel = 0
  · have hidle : ¬ DecayDue config (clock domain) s := by
      intro hdue
      rw [DecayDue, h0] at hdue
      exact absurd hdue.1 (by decide)
    rw [preRequestDelay_not_due hidle, if_pos h0] at hread
    cases hread
    rw [if_pos h0, h0]
    exact ⟨fun h => h.1.symm, fun h => ⟨h.symm, rfl⟩⟩
  · rw [if_neg h0]
    have hfits : ∀ n : Nat, n % 2 ^ 64 = n ↔ n < 2 ^ 64 := fun n =>
      ⟨fun h => h ▸ Nat.mod_lt _ (by decide), Nat.mod_eq_of_lt⟩
    by_cases hlast : 0 < s.lastRateLimitAt
    · have hset : s.lastRateLimitAt ≠ 0 := by
        rw [Ne, eq_zero_iff64]
        rw [pos_iff64] at hlast
        omega
      by_cases hD : config.decayIntervalMs = 0
      · rw [preRequestDelay_zero_interval hD _ h0 hlast] at hread
        cases hread
      · rw [preRequestDelay_eval hD, if_neg h0] at hread
        cases hread
        unfold levelAfterRead
        rw [if_pos hlast]
        by_cases hd : decayable config (clock domain) s.lastRateLimitAt = 0
        · rw [hd, decayBy_zero_left, delayOfLevel_eq_tableEntry hlevel, hfits]
          exact ⟨fun h => ⟨Or.inr rfl, h.1⟩, fun h => ⟨h.2, rfl⟩⟩
        · -- the read drops levels after the snapshot has taken the old one
          refine iff_of_false (fun h => ?_) fun h => h.1.elim hset hd
          have hsame := UInt32.toNat_inj.mpr h.2
          rw [toNat_decayBy] at hsame
          rw [eq_zero_iff32] at h0 hd
          omega
    · have hidle : ¬ DecayDue config (clock domain) s := fun hdue => hlast hdue.2.1
      have hunset : s.lastRateLimitAt = 0 := by
        rw [eq_zero_iff64]
        rw [pos_iff64] at hlast
        omega
      rw [preRequestDelay_not_due hidle, if_neg h0] at hread
      cases hread
      rw [delayOfLevel_eq_tableEntry hlevel, hfits]
      exact ⟨fun h => ⟨Or.inl hunset, h.1⟩, fun h => ⟨h.2, rfl⟩⟩

/-- **SNAPSHOTS ARE CONSISTENT** if and only if no visit finds anything to decay, for the states a
    sequential run reaches, every clock and every order of the registered domains. -/
theorem snapshots_consistent_iff {states states' : String → DomainThrottleState}
    (hrun : SequentialState configOf states) {domains : List String} (hkeys : domains.Nodup)
    {snaps : List DomainThrottleSnapshot}
    (hsnap : (throttleSnapshot configOf domains).eval (domainHandler clock) states =
      some (snaps, states')) :
    (∀ snap ∈ snaps, SnapshotConsistent configOf states' snap) ↔
      ∀ domain ∈ domains, Settled (configOf domain) (clock domain) (states domain) := by
  obtain ⟨delay, hreads, rfl, _⟩ := throttleSnapshot_visits configOf clock hkeys hsnap
  rw [List.forall_mem_map]
  exact forall₂_congr fun domain hdomain =>
    visit_consistent_iff (levels_bounded hrun domain) (hreads domain hdomain)

end Snapshots

/-! ## 5. A snapshot while a decay is due -/

section Example

/-- Three rate limits of a fresh domain at 1000000. -/
def limitedStates : String → DomainThrottleState :=
  Function.update (fun _ => .fresh) "alchemy.com"
    { DomainThrottleState.fresh with
      lastRateLimitAt := 1000000, totalRateLimits := 3, backoffLevel := 3 }

theorem limitedStates_sequential : SequentialState (fun _ => .default) limitedStates := by
  have hlimit : ∀ s : DomainThrottleState,
      SequentialState (fun _ => .default) (Function.update (fun _ => .fresh) "alchemy.com" s) →
      SequentialState (fun _ => .default) (Function.update (fun _ => .fresh) "alchemy.com"
        { s with
          lastRateLimitAt := 1000000
          consecutiveSuccesses := 0
          totalRateLimits := s.totalRateLimits + 1
          backoffLevel := escalate 5 s.backoffLevel }) := by
    intro s h
    refine @SequentialState.call _ _ _ (fun _ => 1000000) ("alchemy.com", .rateLimit) () h ?_
    rw [callProgram, onDomain_eval, Function.update_self]
    simp only [recordRateLimit, recordEscalation_eval, Option.map_some, Function.update_idem]
    rfl
  have hfresh : SequentialState (fun _ => .default)
      (Function.update (fun _ => .fresh) "alchemy.com" .fresh) := by
    rw [Function.update_eq_self]
    exact .fresh
  exact hlimit _ (hlimit _ (hlimit _ hfresh))

/-- The levels a snapshot at `now` stores and reports. -/
def levelsSeen (now : UInt64) : Option (List (UInt32 × UInt32)) :=
  ((throttleSnapshot (fun _ => .default) ["alchemy.com"]).eval (domainHandler fun _ => now)
    limitedStates).map fun x =>
      x.1.map fun snap => ((x.2 snap.domain).backoffLevel, snap.backoffLevel)

/-- A snapshot before the first interval is over is consistent. -/
theorem snapshots_consistent_early :
    ∃ snaps states', (throttleSnapshot (fun _ => .default) ["alchemy.com"]).eval
        (domainHandler fun _ => 1005000) limitedStates = some (snaps, states') ∧ snaps ≠ [] ∧
      ∀ snap ∈ snaps, SnapshotConsistent (fun _ => .default) states' snap := by
  have hlevels : levelsSeen 1005000 = some [(3, 3)] := by decide +kernel
  obtain ⟨⟨snaps, states'⟩, hsnap, hmap⟩ := Option.map_eq_some_iff.mp hlevels
  refine ⟨snaps, states', hsnap, fun e => ?_, ?_⟩
  · rw [e] at hmap
    cases hmap
  · refine (snapshots_consistent_iff limitedStates_sequential (by decide) hsnap).mpr ?_
    rw [List.forall_mem_singleton]
    exact ⟨Or.inr (by decide +kernel), by decide +kernel⟩

/-- **A snapshot shows two moments** when a decay is due: after 25 seconds it reports level 3 with
    the delay of level 1, which is the level it leaves. -/
theorem snapshot_shows_two_moments :
    ¬ ∀ (configOf : String → ThrottleConfig) (clock : String → UInt64)
        (states states' : String → DomainThrottleState) (domains : List String)
        (snaps : List DomainThrottleSnapshot), SequentialState configOf states → domains.Nodup →
        (throttleSnapshot configOf domains).eval (domainHandler clock) states =
          some (snaps, states') →
        ∀ snap ∈ snaps, SnapshotConsistent configOf states' snap := by
  intro h
  have hlevels : levelsSeen 1025000 = some [(1, 3)] := by decide +kernel
  obtain ⟨⟨snaps, states'⟩, hsnap, hmap⟩ := Option.map_eq_some_iff.mp hlevels
  obtain ⟨snap, hone, hpair⟩ := List.map_eq_singleton_iff.mp hmap
  have hsnaps : snaps = [snap] := hone
  have hconsistent := h _ _ limitedStates states' ["alchemy.com"] snaps limitedStates_sequential
    (by decide) hsnap snap (hsnaps ▸ List.mem_singleton_self snap)
  have hstored := congrArg Prod.fst hpair
  have hreported := congrArg Prod.snd hpair
  exact absurd (hstored.symm.trans (hconsistent.2.trans hreported)) (by decide)

end Example

end TransportBalancer
