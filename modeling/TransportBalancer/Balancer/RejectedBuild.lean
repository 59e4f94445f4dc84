/-
  File:      TransportBalancer/Balancer/RejectedBuild.lean
  Subject:   WHAT A REJECTED BUILD LEAVES BEHIND in the process-wide registries.

  `build` sets the defaults first, asserts each endpoint right before it registers it and makes its
  gate right after, so a build that stops leaves what was done before.

  * `Rejected` -- the builders on which `build` panics; `registeredFrom` -- the endpoints registered
    before that;
  * `addEndpoints_exec` -- the loop, run alone; **`build_exec`** -- the state `build` leaves;
  * **`rejected_build_leaves`** -- defaults set, the domains in front registered (and that of the
    endpoint whose gate cannot be made), nothing else; when that is nothing.
-/
import TransportBalancer.Balancer.Registries

namespace TransportBalancer

open Interaction TaskPool OnDemand

/-! ## 1. Rejected builders -/

/-- An endpoint that an assertion of `build` rejects, in front of its registration. -/
def EndpointConfig.Faulty (endpoint : EndpointConfig) : Prop :=
  endpoint.weight.value = 0 ∨ endpoint.maxRequestBytes = some 0 ∨ endpoint.maxInFlight = some 0

/-- An endpoint whose gate cannot be made, behind its registration. -/
def EndpointConfig.Overfull (endpoint : EndpointConfig) : Prop :=
  ∃ k, endpoint.maxInFlight = some k ∧ maxPermits < k

instance (endpoint : EndpointConfig) : Decidable endpoint.Faulty :=
  inferInstanceAs (Decidable (_ ∨ _ ∨ _))

theorem overfull_iff {endpoint : EndpointConfig} :
    endpoint.Overfull ↔ ¬ ∀ k, endpoint.maxInFlight = some k → k ≤ maxPermits := by
  unfold EndpointConfig.Overfull
  push Not
  exact Iff.rfl

instance (endpoint : EndpointConfig) : Decidable endpoint.Overfull :=
  decidable_of_iff _ overfull_iff.symm

/-- The endpoints the loop of `build` registers before it stops, from a total weight on. -/
def registeredFrom : Nat → List EndpointConfig → List EndpointConfig
  | _, [] => []
  | total, endpoint :: rest =>
    if ¬ endpoint.Faulty ∧ total + endpoint.weight.value.toNat < 2 ^ 64 then
      if endpoint.Overfull then [endpoint]
      else endpoint :: registeredFrom (total + endpoint.weight.value.toNat) rest
    else []

/-- The sum of all weights. -/
def totalOf (endpoints : List EndpointConfig) : Nat :=
  (endpoints.map fun endpoint => endpoint.weight.value.toNat).sum

/-- The endpoints at one of which the loop stops, from a total weight on. -/
def StopsFrom (total : Nat) (endpoints : List EndpointConfig) : Prop :=
  (∃ endpoint ∈ endpoints, endpoint.Faulty ∨ endpoint.Overfull) ∨
    2 ^ 64 ≤ total + totalOf endpoints

/-- **The builders on which `build` panics.** -/
def LoadBalancedTransportBuilder.Rejected (b : LoadBalancedTransportBuilder) : Prop :=
  b.endpoints = [] ∨ (∃ endpoint ∈ b.endpoints, endpoint.Faulty ∨ endpoint.Overfull) ∨
    2 ^ 64 ≤ totalOf b.endpoints

theorem total_cons (total : Nat) (endpoint : EndpointConfig) (rest : List EndpointConfig) :
    total + totalOf (endpoint :: rest) = total + endpoint.weight.value.toNat + totalOf rest := by
  simp only [totalOf, List.map_cons, List.sum_cons]
  omega

/-- It stops at an endpoint that fails it, -/
theorem stopsFrom_here {total : Nat} {endpoint : EndpointConfig} {rest : List EndpointConfig}
    (h : ¬ (¬ endpoint.Faulty ∧ total + endpoint.weight.value.toNat < 2 ^ 64) ∨
      endpoint.Overfull) : StopsFrom total (endpoint :: rest) := by
  unfold StopsFrom
  rcases h with h | h
  · by_cases hfaulty : endpoint.Faulty
    · exact Or.inl ⟨endpoint, List.mem_cons_self, Or.inl hfaulty⟩
    · have hsum : ¬ total + endpoint.weight.value.toNat < 2 ^ 64 := fun hsum => h ⟨hfaulty, hsum⟩
      rw [total_cons]
      exact Or.inr (by omega)
  · exact Or.inl ⟨endpoint, List.mem_cons_self, Or.inr h⟩

/-- or at one behind it. -/
theorem stopsFrom_cons_iff {total : Nat} {endpoint : EndpointConfig} {rest : List EndpointConfig}
    (hfaulty : ¬ endpoint.Faulty) (hfull : ¬ endpoint.Overfull) :
    StopsFrom total (endpoint :: rest) ↔
      StopsFrom (total + endpoint.weight.value.toNat) rest := by
  unfold StopsFrom
  rw [total_cons, List.exists_mem_cons_iff]
  simp only [hfaulty, hfull, or_self, false_or]

/-! ## 2. The loop, run alone -/

/-- The registries with the domains of endpoints in them. -/
def ProcessState.registered (s : ProcessState) (endpoints : List EndpointConfig) : ProcessState :=
  ⟨s.throttles.ensure (endpoints.filterMap EndpointConfig.domainKey),
    s.clients.ensure (endpoints.filterMap EndpointConfig.domainKey)⟩

/-- The cache of `build` holds what the registry does. -/
def CacheHeld (cache : List (String × DomainRef)) (s : ProcessState) : Prop :=
  ∀ {domain throttle}, cache.lookup domain = some throttle →
    s.throttles.lookup domain = some throttle

theorem sharedClientForDomain_exec (domain : String) (s : ProcessState) :
    (sharedClientForDomain domain).exec processHandler s =
      (⟨s.throttles, (s.clients.getOrCreate domain).2⟩,
        some (s.clients.getOrCreate domain).1) := by
  have hread : processHandler (.readClient domain) s = some (s.clients.lookup domain, s) := rfl
  unfold sharedClientForDomain
  rw [Program.exec_op hread]
  cases h : s.clients.lookup domain with
  | some client =>
    rw [Registry.getOrCreate_found h]
    rfl
  | none => rfl

theorem domainThrottle_exec (domain : String) (s : ProcessState) :
    (domainThrottle domain).exec processHandler s =
      (⟨(s.throttles.getOrCreate domain).2, s.clients⟩,
        some (s.throttles.getOrCreate domain).1) := by
  have hread : processHandler (.readDomain domain) s = some (s.throttles.lookup domain, s) := rfl
  unfold domainThrottle
  rw [Program.exec_op hread]
  cases h : s.throttles.lookup domain with
  | some state =>
    rw [Registry.getOrCreate_found h]
    rfl
  | none => rfl

/-- A cached domain is in the registry already. -/
theorem cachedThrottle_exec {cache : List (String × DomainRef)} {s : ProcessState}
    (h : CacheHeld cache s) (domain : String) :
    ∃ entry, (cachedThrottle cache domain).exec processHandler s =
        (⟨(s.throttles.getOrCreate domain).2, s.clients⟩, some entry) ∧
      CacheHeld entry.2 ⟨(s.throttles.getOrCreate domain).2, s.clients⟩ := by
  unfold cachedThrottle
  split
  · rename_i throttle hcached
    have hsame : (s.throttles.getOrCreate domain).2 = s.throttles := by
      rw [Registry.getOrCreate_found (h hcached)]
    rw [hsame]
    exact ⟨(throttle, cache), rfl, h⟩
  · refine ⟨((s.throttles.getOrCreate domain).1,
      (domain, (s.throttles.getOrCreate domain).1) :: cache), ?_, ?_⟩
    · rw [Program.exec_bind_some (domainThrottle_exec domain s)]
      rfl
    · intro domain' throttle hl
      rw [List.lookup_cons] at hl
      split at hl
      · rename_i hkey
        cases hl
        rw [beq_iff_eq.mp hkey]
        exact s.throttles.lookup_getOrCreate domain
      · exact (s.throttles.extends_getOrCreate domain).lookup (h hl)

theorem endpointDomain_exec (endpoint : EndpointConfig) (s : ProcessState) :
    ∃ domain, endpoint.domainKey = some domain ∧
      (endpointDomain endpoint.url).exec processHandler s = (s, some domain) := by
  obtain ⟨domain, h⟩ := extract_total (endpoint.url.host.getD "unknown")
  refine ⟨domain, h, ?_⟩
  unfold endpointDomain
  rw [h]
  rfl

/-- One more endpoint that is registered. -/
theorem registered_cons {s : ProcessState} {endpoint : EndpointConfig} {domain : String}
    (h : endpoint.domainKey = some domain) (endpoints : List EndpointConfig) :
    s.registered (endpoint :: endpoints) = ProcessState.registered
      ⟨(s.throttles.getOrCreate domain).2, (s.clients.getOrCreate domain).2⟩ endpoints := by
  unfold ProcessState.registered
  rw [List.filterMap_cons_some h]
  rfl

/-- What the loop leaves, from a total weight on: the endpoints it came to are registered, and it
    returns unless it stops at one of them. -/
structure LoopLeaves {α : Type} (s : ProcessState) (total : Nat) (rest : List EndpointConfig)
    (x : ProcessState × Option α) : Prop where
  state : x.1 = s.registered (registeredFrom total rest)
  stops : x.2 = none ↔ StopsFrom total rest

/-- An optional bound that is not positive where it is set is zero. -/
theorem some_zero {bound : Option Nat} (h : ¬ ∀ n, bound = some n → 0 < n) : bound = some 0 := by
  cases bound with
  | none => exact absurd nofun h
  | some n =>
    have hn : n = 0 := by
      by_contra hne
      exact h fun m hm => by
        cases hm
        exact Nat.pos_of_ne_zero hne
    rw [hn]

/-- A failing assertion leaves the state as it is: the endpoint is not registered. -/
theorem loopLeaves_panic {α : Type} (msg : String) (s : ProcessState) {total : Nat}
    {endpoint : EndpointConfig} {rest : List EndpointConfig}
    (h : ¬ (¬ endpoint.Faulty ∧ total + endpoint.weight.value.toNat < 2 ^ 64)) :
    LoopLeaves s total (endpoint :: rest)
      ((buildPanic msg : Program ProcessSig α).exec processHandler s) := by
  refine ⟨?_, fun _ => stopsFrom_here (Or.inl h), fun _ => rfl⟩
  rw [registeredFrom, if_neg h]
  rfl

section Endpoint

variable {s s₁ : ProcessState} {endpoint : EndpointConfig} {rest : List EndpointConfig}
  {total : Nat}

/-- A gate that cannot be made leaves its endpoint registered. -/
theorem loopLeaves_overfull {α : Type} (msg : String) (hfaulty : ¬ endpoint.Faulty)
    (hsum : total + endpoint.weight.value.toNat < 2 ^ 64) (hfull : endpoint.Overfull)
    (hs : s.registered [endpoint] = s₁) :
    LoopLeaves s total (endpoint :: rest)
      ((buildPanic msg : Program ProcessSig α).exec processHandler s₁) := by
  refine ⟨?_, fun _ => stopsFrom_here (Or.inr hfull), fun _ => rfl⟩
  rw [registeredFrom, if_pos ⟨hfaulty, hsum⟩, if_pos hfull, hs]
  rfl

/-- The loop over one endpoint more, that has been registered. -/
theorem LoopLeaves.cons {α β : Type} {p : Program ProcessSig α} (hfaulty : ¬ endpoint.Faulty)
    (hsum : total + endpoint.weight.value.toNat < 2 ^ 64) (hfull : ¬ endpoint.Overfull)
    (h : LoopLeaves s₁ (total + endpoint.weight.value.toNat) rest (p.exec processHandler s₁))
    (hs : ∀ endpoints, s.registered (endpoint :: endpoints) = s₁.registered endpoints)
    (g : α → β) :
    LoopLeaves s total (endpoint :: rest)
      ((p >>= fun a => .ret (g a)).exec processHandler s₁) := by
  rw [Program.exec_map]
  refine ⟨?_, ?_⟩
  · rw [registeredFrom, if_pos ⟨hfaulty, hsum⟩, if_neg hfull, hs]
    exact h.state
  · rw [Option.map_eq_none_iff, h.stops, stopsFrom_cons_iff hfaulty hfull]

end Endpoint

/-- **The loop of `build`** registers the endpoints it comes to. -/
theorem addEndpoints_exec (rest : List EndpointConfig) :
    ∀ (cache : List (String × DomainRef)) (table : EndpointTable) (s : ProcessState),
      CacheHeld cache s → LoopLeaves s table.totalWeight.toNat rest
        ((addEndpoints cache table rest).exec processHandler s) := by
  induction rest with
  | nil =>
    intro cache table s _
    refine ⟨rfl, nofun, fun h => ?_⟩
    rcases h with ⟨_, hnone, _⟩ | hover
    · exact absurd hnone List.not_mem_nil
    · exact absurd hover (Nat.not_le.mpr table.totalWeight.toNat_lt)
  | cons endpoint rest ih =>
    intro cache table s hcache
    unfold addEndpoints
    split
    · split
      · split
        · split
          · rename_i hw hcap hlimit hsum
            have hgood : ¬ endpoint.Faulty := by
              rintro (h | h | h)
              · rw [h] at hw
                exact absurd hw (by decide)
              · exact absurd (hcap 0 h) (Nat.lt_irrefl 0)
              · exact absurd (hlimit 0 h) (Nat.lt_irrefl 0)
            have htotal : (table.totalWeight + endpoint.weight.value.toUInt64).toNat =
                table.totalWeight.toNat + endpoint.weight.value.toNat := by
              rw [UInt64.toNat_add, UInt32.toNat_toUInt64, Nat.mod_eq_of_lt hsum]
            obtain ⟨domain, hkey, hdomain⟩ := endpointDomain_exec endpoint s
            have hclient := sharedClientForDomain_exec domain s
            obtain ⟨⟨throttle, cache'⟩, hthrottle, hcache'⟩ := cachedThrottle_exec (s := ⟨s.throttles,
              (s.clients.getOrCreate domain).2⟩) hcache domain
            rw [Program.exec_bind_some hdomain, Program.exec_bind_some hclient,
              Program.exec_bind_some hthrottle]
            dsimp only
            split
            · rename_i hpermits
              have hloop := ih cache' (table.push ⟨(s.clients.getOrCreate domain).1, endpoint.url⟩
                throttle endpoint.maxRequestBytes endpoint.maxInFlight
                (table.totalWeight + endpoint.weight.value.toUInt64) (totalWeight_lt hw hsum) hcap
                hlimit) _ hcache'
              rw [show (table.push _ _ _ _ _ _ _ _).totalWeight.toNat = _ from htotal] at hloop
              exact hloop.cons hgood hsum (fun h => overfull_iff.mp h hpermits)
                (registered_cons hkey) _
            · rename_i hpermits
              exact loopLeaves_overfull _ hgood hsum (overfull_iff.mpr hpermits)
                (registered_cons hkey [])
          · rename_i hsum
            exact loopLeaves_panic _ s fun h => hsum h.2
        · rename_i hlimit
          exact loopLeaves_panic _ s fun h => h.1 (Or.inr (Or.inr (some_zero hlimit)))
      · rename_i hcap
        exact loopLeaves_panic _ s fun h => h.1 (Or.inr (Or.inl (some_zero hcap)))
    · rename_i hw
      have hzero : endpoint.weight.value = 0 :=
        by_contra fun hne => hw (UInt32.pos_iff_ne_zero.mpr hne)
      exact loopLeaves_panic _ s fun h => h.1 (Or.inl hzero)

/-! ## 3. The build, run alone -/

/-- The registries with the defaults that the builder gives. -/
def ProcessState.withDefaults (s : ProcessState) (b : LoadBalancedTransportBuilder) :
    ProcessState :=
  ⟨s.throttles.setDefault (b.throttleConfig.getD s.throttles.default),
    s.clients.setDefault (b.httpClientConfig.getD s.clients.default)⟩

theorem applyGlobalConfigs_exec (b : LoadBalancedTransportBuilder) (s : ProcessState) :
    (applyGlobalConfigs b).exec processHandler s = (s.withDefaults b, some ()) := by
  unfold applyGlobalConfigs ProcessState.withDefaults
  cases b.throttleConfig <;> cases b.httpClientConfig <;> rfl

/-- **What `build` leaves, run alone**: the defaults set, the endpoints it came to registered. It
    panics exactly on the rejected builders. -/
theorem build_exec (b : LoadBalancedTransportBuilder) (s : ProcessState) :
    ((build b).exec processHandler s).1 =
        (s.withDefaults b).registered (registeredFrom 0 b.endpoints) ∧
      (((build b).exec processHandler s).2 = none ↔ b.Rejected) := by
  unfold build
  rw [Program.exec_bind_some (applyGlobalConfigs_exec b s)]
  split
  · rename_i hempty
    rw [hempty]
    exact ⟨rfl, fun _ => Or.inl hempty, fun _ => rfl⟩
  · rename_i hsome
    obtain ⟨hstate, hstops⟩ := addEndpoints_exec b.endpoints [] .empty (s.withDefaults b) nofun
    simp only [Program.pure_eq_ret, Program.exec_map]
    refine ⟨hstate, ?_⟩
    rw [Option.map_eq_none_iff, hstops]
    show StopsFrom 0 b.endpoints ↔ _
    unfold StopsFrom
    rw [Nat.zero_add]
    exact ⟨Or.inr, fun h => h.resolve_left hsome⟩

/-! ## 4. What is left -/

/-- The keys a rejected build registers: those of the endpoints in front of the one it stops at, and
    of that one if it is its gate that cannot be made. -/
def LoadBalancedTransportBuilder.addedKeys (b : LoadBalancedTransportBuilder) : List String :=
  (registeredFrom 0 b.endpoints).filterMap EndpointConfig.domainKey

/-- **What a rejected build leaves behind**: the defaults it was given, an entry for each key of
    `addedKeys`, of those defaults where it is new; all else is as before. -/
structure RejectedLeaves (b : LoadBalancedTransportBuilder) (s s' : ProcessState) : Prop where
  throttleDefault : s'.throttles.default = b.throttleConfig.getD s.throttles.default
  clientDefault : s'.clients.default = b.httpClientConfig.getD s.clients.default
  domains : ∀ domain, (s'.throttles.lookup domain).isSome ↔
    (s.throttles.lookup domain).isSome ∨ domain ∈ b.addedKeys
  clients : ∀ domain, (s'.clients.lookup domain).isSome ↔
    (s.clients.lookup domain).isSome ∨ domain ∈ b.addedKeys
  domainsKept : ∃ new, s'.throttles.created = s.throttles.created ++ new ∧
    ∀ entry ∈ new, entry.2 = s'.throttles.default
  clientsKept : ∃ new, s'.clients.created = s.clients.created ++ new ∧
    ∀ entry ∈ new, entry.2 = s'.clients.default

/-- **A build that would leave no trace**: no new default, and no new key. -/
structure LoadBalancedTransportBuilder.Silent (b : LoadBalancedTransportBuilder)
    (s : ProcessState) : Prop where
  throttleDefault : ∀ config, b.throttleConfig = some config → config = s.throttles.default
  clientDefault : ∀ config, b.httpClientConfig = some config → config = s.clients.default
  keys : ∀ domain ∈ b.addedKeys,
    (s.throttles.lookup domain).isSome ∧ (s.clients.lookup domain).isSome

theorem getD_eq_iff {α : Type} {config : Option α} {default : α} :
    config.getD default = default ↔ ∀ c, config = some c → c = default := by
  cases config <;> simp

/-- A default and keys that are there already leave a registry as it is. -/
theorem ensure_setDefault_eq_iff {C : Type} {r : Registry String C} {config : Option C}
    {keys : List String} :
    (r.setDefault (config.getD r.default)).ensure keys = r ↔
      (∀ c, config = some c → c = r.default) ∧ ∀ key ∈ keys, (r.lookup key).isSome := by
  constructor
  · intro h
    have hdefault := congrArg Registry.default h
    rw [Registry.ensure_default] at hdefault
    refine ⟨getD_eq_iff.mp hdefault, fun key hkey => ?_⟩
    rw [← h, Registry.ensure_isSome_iff]
    exact Or.inr hkey
  · rintro ⟨hdefault, hkeys⟩
    rw [getD_eq_iff.mpr hdefault]
    exact (r.ensure_eq_self_iff keys).mpr hkeys

theorem rejectedLeaves (b : LoadBalancedTransportBuilder) (s : ProcessState) :
    RejectedLeaves b s ((s.withDefaults b).registered (registeredFrom 0 b.endpoints)) where
  throttleDefault := Registry.ensure_default _ _
  clientDefault := Registry.ensure_default _ _
  domains domain := Registry.ensure_isSome_iff _ _ domain
  clients domain := Registry.ensure_isSome_iff _ _ domain
  domainsKept := by
    obtain ⟨new, hnew, hdefault⟩ := Registry.ensure_created (s.withDefaults b).throttles b.addedKeys
    exact ⟨new, hnew, fun entry h => (hdefault entry h).trans (Registry.ensure_default _ _).symm⟩
  clientsKept := by
    obtain ⟨new, hnew, hdefault⟩ := Registry.ensure_created (s.withDefaults b).clients b.addedKeys
    exact ⟨new, hnew, fun entry h => (hdefault entry h).trans (Registry.ensure_default _ _).symm⟩

theorem unchanged_iff_silent (b : LoadBalancedTransportBuilder) (s : ProcessState) :
    (s.withDefaults b).registered (registeredFrom 0 b.endpoints) = s ↔ b.Silent s := by
  have hsplit : ∀ throttles clients, (⟨throttles, clients⟩ : ProcessState) = s ↔
      throttles = s.throttles ∧ clients = s.clients := by
    intro throttles clients
    cases s
    exact ProcessState.mk.injEq .. ▸ Iff.rfl
  unfold ProcessState.registered
  rw [hsplit]
  show (s.throttles.setDefault _).ensure b.addedKeys = _ ∧
    (s.clients.setDefault _).ensure b.addedKeys = _ ↔ _
  rw [ensure_setDefault_eq_iff, ensure_setDefault_eq_iff]
  exact ⟨fun h => ⟨h.1.1, h.2.1, fun domain hd => ⟨h.1.2 domain hd, h.2.2 domain hd⟩⟩,
    fun h => ⟨⟨h.throttleDefault, fun domain hd => (h.keys domain hd).1⟩, h.clientDefault,
      fun domain hd => (h.keys domain hd).2⟩⟩

/-- A call that panics when it runs alone from a pool on. -/
theorem panic_alone {p₀ p : Pool ProcessState ProcessTask}
    {vs : List (Pool ProcessState ProcessTask × Actor)} (hr : processes.Run p₀ vs p) {i : Nat}
    {t : ProcessTask} (ht : p.tasks[i]? = some t) {rest : Program ProcessSig ProcessResult}
    (hrest : t.rest = some rest) {s' : ProcessState}
    (h : rest.exec processHandler p.shared = (s', none)) :
    ∃ vs' tr, processes.Run p₀ vs' ⟨s', p.tasks.set i ⟨t.call, tr, none⟩⟩ := by
  induction rest generalizing vs p t with
  | ret a => cases h
  | op e k ih =>
    cases hstep : processHandler e p.shared with
    | none =>
      rw [Program.exec_crash hstep] at h
      cases h
      cases e with
      | panic msg =>
        have hpanic := hr.step (System.Step.at ht ⟨.panic hrest, rfl⟩)
        rw [List.append_nil] at hpanic
        exact ⟨_, t.done, hpanic⟩
      | setDefaultThrottleConfig | setDefaultHttpClientConfig | readClient | insertClient
        | readDomain | insertDomain => cases hstep
    | some x =>
      obtain ⟨r, s₁⟩ := x
      rw [Program.exec_op hstep] at h
      have hnext := hr.step (System.Step.at ht ⟨.effect hrest hstep, rfl⟩)
      rw [List.append_nil] at hnext
      have ht' : (p.tasks.set i ⟨t.call, t.done ++ [⟨e, r⟩], some (k r)⟩)[i]? =
          some ⟨t.call, t.done ++ [⟨e, r⟩], some (k r)⟩ :=
        List.getElem?_set_self (List.getElem?_eq_some_iff.mp ht).1
      obtain ⟨vs', tr, hdone⟩ := ih r hnext ht' rfl h
      rw [List.set_set] at hdone
      exact ⟨vs', tr, hdone⟩

/-- **A REJECTED BUILD LEAVES THE DEFAULTS AND THE ENDPOINTS IT CAME TO.** From any state of the
    registries `build`, run alone, panics exactly on the rejected builders, and leaves what
    `RejectedLeaves` says; that is the state before the call exactly for a silent builder. -/
theorem rejected_build_leaves (b : LoadBalancedTransportBuilder) (s : ProcessState) :
    (((build b).exec processHandler s).2 = none ↔ b.Rejected) ∧
    (b.Rejected → ∃ s', (build b).exec processHandler s = (s', none) ∧ RejectedLeaves b s s' ∧
      (s' = s ↔ b.Silent s) ∧
      ∃ vs tr, processes.Run ⟨s, []⟩ vs ⟨s', [⟨.build b, tr, none⟩]⟩) := by
  obtain ⟨hstate, hpanics⟩ := build_exec b s
  refine ⟨hpanics, fun hrejected => ?_⟩
  have hexec : (build b).exec processHandler s =
      ((s.withDefaults b).registered (registeredFrom 0 b.endpoints), none) :=
    Prod.ext hstate (hpanics.mpr hrejected)
  have hcall : (ProcessCall.build b).program.exec processHandler s =
      ((s.withDefaults b).registered (registeredFrom 0 b.endpoints), none) :=
    Program.exec_bind_none hexec
  exact ⟨_, hexec, rejectedLeaves b s, unchanged_iff_silent b s,
    panic_alone (System.Run.refl.step (arrives ⟨s, []⟩ (.build b))) (i := 0) rfl rfl hcall⟩

/-- A builder with a new default and an endpoint in front of one without a weight. -/
def halfValid : LoadBalancedTransportBuilder where
  endpoints := [.new ⟨some "lb.drpc.org", "https://lb.drpc.org/"⟩ ⟨50⟩,
    .new ⟨some "arb.alchemy.com", "https://arb.alchemy.com/"⟩ ⟨0⟩]
  config := .default
  throttleConfig := some { ThrottleConfig.default with recoveryThreshold := 3 }
  httpClientConfig := none

/-- **It panics with the default changed and a domain registered**, which the next build finds. -/
theorem half_valid_registers : halfValid.Rejected ∧
    ∃ s', (build halfValid).exec processHandler .initial = (s', none) ∧
      s'.throttles.default.recoveryThreshold = 3 ∧
      ProcessState.initial.throttles.default.recoveryThreshold = 5 ∧
      s'.throttles.lookup "drpc.org" = some 0 ∧ s'.clients.lookup "drpc.org" = some 0 ∧
      ProcessState.initial.throttles.lookup "drpc.org" = none ∧
      ProcessState.initial.clients.lookup "drpc.org" = none ∧ s' ≠ .initial := by
  have hrun : ((build halfValid).exec processHandler .initial).2.isNone = true := by
    decide +kernel
  have hstate : (((build halfValid).exec processHandler .initial).1.throttles.lookup "drpc.org",
      ((build halfValid).exec processHandler .initial).1.clients.lookup "drpc.org",
      ((build halfValid).exec processHandler .initial).1.throttles.default.recoveryThreshold) =
        (some 0, some 0, 3) := by
    decide +kernel
  generalize (build halfValid).exec processHandler .initial = x at hrun hstate
  obtain ⟨s', result⟩ := x
  obtain ⟨hdomain, hrest⟩ := Prod.mk.inj hstate
  obtain ⟨hclient, hthreshold⟩ := Prod.mk.inj hrest
  refine ⟨Or.inr (Or.inl (by decide)), s', Prod.ext rfl (Option.isNone_iff_eq_none.mp hrun),
    hthreshold, rfl, hdomain, hclient, rfl, rfl, ?_⟩
  rintro rfl
  cases hdomain

end TransportBalancer
