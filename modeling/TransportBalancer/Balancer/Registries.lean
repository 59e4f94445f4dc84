/-
  File:      TransportBalancer/Balancer/Registries.lean
  Subject:   THE PROCESS-WIDE REGISTRIES under any interleaving of calls (throttle.rs,
             client_pool.rs): one state and one client a domain key, for ever.

  * `processHandler` -- what one lock-protected section does to the two registries;
  * `processes` -- any number of calls, one section of one call at a time;
  * `Answered` -- what a call has been told is what the registries hold;
  * `OncePerKey` -- what a run keeps of a registry; **`one_state_per_key`** -- both registries keep
    it, and endpoints of built transports share exactly by their domain key.
-/
import TransportBalancer.Lib.Pool
import TransportBalancer.Lib.Registry
import TransportBalancer.Balancer.Transport
import Mathlib.Data.List.Forall2

namespace TransportBalancer

open Interaction TaskPool OnDemand

/-! ## 1. The registries -/

/-- `ThrottleRegistry` and `ClientRegistry`. A poisoned lock is entered like any other. -/
structure ProcessState where
  throttles : Registry String ThrottleConfig
  clients : Registry String HttpClientConfig

/-- What one lock-protected section answers and leaves. -/
def processHandler : Handler ProcessSig ProcessState
  | .panic _, _ => none
  | .setDefaultThrottleConfig config, s =>
    some ((), { s with throttles := s.throttles.setDefault config })
  | .setDefaultHttpClientConfig config, s =>
    some ((), { s with clients := s.clients.setDefault config })
  | .readClient domain, s => some (s.clients.lookup domain, s)
  | .insertClient domain, s =>
    some ((s.clients.getOrCreate domain).1,
      { s with clients := (s.clients.getOrCreate domain).2 })
  | .readDomain domain, s => some (s.throttles.lookup domain, s)
  | .insertDomain domain, s =>
    some ((s.throttles.getOrCreate domain).1,
      { s with throttles := (s.throttles.getOrCreate domain).2 })

/-- What another thread has inserted since is found under the write lock. -/
theorem insertDomain_found {s : ProcessState} {domain : String} {state : DomainRef}
    (h : s.throttles.lookup domain = some state) :
    processHandler (.insertDomain domain) s = some (state, s) := by
  unfold processHandler
  simp only [Registry.getOrCreate_found h]

/-! ## 2. Calls -/

/-- A call into the registries. -/
inductive ProcessCall where
  | domainThrottle (domain : String)
  | sharedClientForDomain (domain : String)
  | setDefaultThrottleConfig (config : ThrottleConfig)
  | setDefaultHttpClientConfig (config : HttpClientConfig)
  | build (b : LoadBalancedTransportBuilder)

/-- What a call returns. -/
inductive ProcessResult where
  | throttle (state : DomainRef)
  | client (client : ClientRef)
  | unit
  | transport (t : LoadBalancedTransport)

/-- The program of a call. -/
def ProcessCall.program : ProcessCall → Program ProcessSig ProcessResult
  | .domainThrottle domain => do return .throttle (← TransportBalancer.domainThrottle domain)
  | .sharedClientForDomain domain => do
    return .client (← TransportBalancer.sharedClientForDomain domain)
  | .setDefaultThrottleConfig config => .op (.setDefaultThrottleConfig config) fun _ => .ret .unit
  | .setDefaultHttpClientConfig config =>
    .op (.setDefaultHttpClientConfig config) fun _ => .ret .unit
  | .build b => do return .transport (← TransportBalancer.build b)

/-- A call on its way: what it has performed and what it still has to do, nothing after a panic. -/
structure ProcessTask where
  call : ProcessCall
  done : Trace ProcessSig
  rest : Option (Program ProcessSig ProcessResult)

/-- A step of a call. A client that cannot be built is a panic inside the write lock: nothing is
    inserted. -/
inductive ProcessTask.Step (s : ProcessState) (t : ProcessTask) :
    ProcessState → ProcessTask → Prop where
  | effect {e : ProcessOp} {k : ProcessSig.Ans e → Program ProcessSig ProcessResult}
      {r : ProcessSig.Ans e} {s' : ProcessState} (hrest : t.rest = some (.op e k))
      (h : processHandler e s = some (r, s')) :
      Step s t s' ⟨t.call, t.done ++ [⟨e, r⟩], some (k r)⟩
  | panic {msg : String} {k : Empty → Program ProcessSig ProcessResult}
      (hrest : t.rest = some (.op (.panic msg) k)) : Step s t s ⟨t.call, t.done, none⟩
  | clientPanic {domain : String} {k : ClientRef → Program ProcessSig ProcessResult}
      (hrest : t.rest = some (.op (.insertClient domain) k))
      (h : s.clients.lookup domain = none) : Step s t s ⟨t.call, t.done, none⟩

/-- **Any number of calls**, arriving at any time. -/
def processes : System ProcessState ProcessTask where
  act s t s' t' new := t.Step s s' t' ∧ new = []
  env _ _ := False
  arrive s s' t := s' = s ∧ ∃ call : ProcessCall, t = ⟨call, [], some call.program⟩

/-- The start: empty registries, with any default. -/
def ProcessStart (p : Pool ProcessState ProcessTask) : Prop :=
  (∃ throttle client, p.shared = ⟨.empty throttle, .empty client⟩) ∧ p.tasks = []

/-! ## 3. What a section tells -/

/-- The domain a section tells the state of. -/
def throttleTold : Event ProcessSig → Option (String × DomainRef)
  | ⟨.readDomain domain, found⟩ => found.map (Prod.mk domain)
  | ⟨.insertDomain domain, state⟩ => some (domain, state)
  | _ => none

/-- The domain a section tells the client of. -/
def clientTold : Event ProcessSig → Option (String × ClientRef)
  | ⟨.readClient domain, found⟩ => found.map (Prod.mk domain)
  | ⟨.insertClient domain, client⟩ => some (domain, client)
  | _ => none

/-- A section leaves the throttle registry as it was, up to the default, or creates one state. -/
theorem throttles_cases {e : ProcessOp} {s s' : ProcessState} {r : ProcessSig.Ans e}
    (h : processHandler e s = some (r, s')) :
    s'.throttles.created = s.throttles.created ∨
      ∃ domain, e = .insertDomain domain ∧ s.throttles.lookup domain = none ∧
        s'.throttles.created = s.throttles.created ++ [(domain, s.throttles.default)] := by
  cases e with
  | panic => cases h
  | insertDomain domain =>
    cases h
    exact (s.throttles.created_getOrCreate domain).imp_right fun h => ⟨domain, rfl, h⟩
  | setDefaultThrottleConfig | setDefaultHttpClientConfig | readClient | insertClient
    | readDomain =>
    cases h
    exact Or.inl rfl

/-- Likewise the client registry. -/
theorem clients_cases {e : ProcessOp} {s s' : ProcessState} {r : ProcessSig.Ans e}
    (h : processHandler e s = some (r, s')) :
    s'.clients.created = s.clients.created ∨
      ∃ domain, e = .insertClient domain ∧ s.clients.lookup domain = none ∧
        s'.clients.created = s.clients.created ++ [(domain, s.clients.default)] := by
  cases e with
  | panic => cases h
  | insertClient domain =>
    cases h
    exact (s.clients.created_getOrCreate domain).imp_right fun h => ⟨domain, rfl, h⟩
  | setDefaultThrottleConfig | setDefaultHttpClientConfig | readClient | readDomain
    | insertDomain =>
    cases h
    exact Or.inl rfl

/-- The default throttle configuration a section sets. -/
def throttleSet : ProcessOp → Option ThrottleConfig
  | .setDefaultThrottleConfig config => some config
  | _ => none

/-- The default client configuration a section sets. -/
def clientSet : ProcessOp → Option HttpClientConfig
  | .setDefaultHttpClientConfig config => some config
  | _ => none

/-- **A section leaves the default it sets**, or the one there was. -/
theorem throttles_default {e : ProcessOp} {s s' : ProcessState} {r : ProcessSig.Ans e}
    (h : processHandler e s = some (r, s')) :
    s'.throttles.default = (throttleSet e).getD s.throttles.default := by
  cases e with
  | panic => cases h
  | insertDomain domain =>
    cases h
    exact s.throttles.getOrCreate_default domain
  | setDefaultThrottleConfig | setDefaultHttpClientConfig | readClient | insertClient
    | readDomain =>
    cases h
    rfl

theorem clients_default {e : ProcessOp} {s s' : ProcessState} {r : ProcessSig.Ans e}
    (h : processHandler e s = some (r, s')) :
    s'.clients.default = (clientSet e).getD s.clients.default := by
  cases e with
  | panic => cases h
  | insertClient domain =>
    cases h
    exact s.clients.getOrCreate_default domain
  | setDefaultThrottleConfig | setDefaultHttpClientConfig | readClient | readDomain
    | insertDomain =>
    cases h
    rfl

/-- **A section tells what the registry holds when it ends.** -/
theorem throttleTold_holds {e : ProcessOp} {s s' : ProcessState} {r : ProcessSig.Ans e}
    (h : processHandler e s = some (r, s')) {domain : String} {state : DomainRef}
    (ht : throttleTold ⟨e, r⟩ = some (domain, state)) :
    s'.throttles.lookup domain = some state := by
  cases e with
  | panic => cases h
  | readDomain d =>
    cases h
    unfold throttleTold at ht
    obtain ⟨ref, href, heq⟩ := Option.map_eq_some_iff.mp ht
    cases heq
    exact href
  | insertDomain d =>
    cases h
    cases ht
    exact Registry.lookup_getOrCreate _ _
  | setDefaultThrottleConfig | setDefaultHttpClientConfig | readClient | insertClient => cases ht

theorem clientTold_holds {e : ProcessOp} {s s' : ProcessState} {r : ProcessSig.Ans e}
    (h : processHandler e s = some (r, s')) {domain : String} {client : ClientRef}
    (ht : clientTold ⟨e, r⟩ = some (domain, client)) :
    s'.clients.lookup domain = some client := by
  cases e with
  | panic => cases h
  | readClient d =>
    cases h
    unfold clientTold at ht
    obtain ⟨ref, href, heq⟩ := Option.map_eq_some_iff.mp ht
    cases heq
    exact href
  | insertClient d =>
    cases h
    cases ht
    exact Registry.lookup_getOrCreate _ _
  | setDefaultThrottleConfig | setDefaultHttpClientConfig | readDomain | insertDomain => cases ht

/-- **One of the two registries**: where it is, the section that inserts into it, the default that
    sections set, and what sections tell of it. -/
structure RegistryView (C : Type) where
  registry : ProcessState → Registry String C
  insert : String → ProcessOp
  sets : ProcessOp → Option C
  told : Event ProcessSig → Option (String × Nat)
  effect : ∀ {e s s'} {r : ProcessSig.Ans e}, processHandler e s = some (r, s') →
    (registry s').created = (registry s).created ∨
      ∃ domain, e = insert domain ∧ (registry s).lookup domain = none ∧
        (registry s').created = (registry s).created ++ [(domain, (registry s).default)]
  defaults : ∀ {e s s'} {r : ProcessSig.Ans e}, processHandler e s = some (r, s') →
    (registry s').default = (sets e).getD (registry s).default
  panicsUnset : ∀ msg, sets (.panic msg) = none
  insertsUnset : ∀ domain, sets (.insertClient domain) = none
  holds : ∀ {e s s'} {r : ProcessSig.Ans e}, processHandler e s = some (r, s') →
    ∀ {domain ref}, told ⟨e, r⟩ = some (domain, ref) → (registry s').lookup domain = some ref

/-- The registry of `throttle.rs`. -/
def throttleView : RegistryView ThrottleConfig where
  registry := ProcessState.throttles
  insert := .insertDomain
  sets := throttleSet
  told := throttleTold
  effect := throttles_cases
  defaults := throttles_default
  panicsUnset _ := rfl
  insertsUnset _ := rfl
  holds := throttleTold_holds

/-- The registry of `client_pool.rs`. -/
def clientView : RegistryView HttpClientConfig where
  registry := ProcessState.clients
  insert := .insertClient
  sets := clientSet
  told := clientTold
  effect := clients_cases
  defaults := clients_default
  panicsUnset _ := rfl
  insertsUnset _ := rfl
  holds := clientTold_holds

/-- What a registry holds. -/
def RegistryView.Holds {C : Type} (V : RegistryView C) (s : ProcessState) (domain : String)
    (ref : Nat) : Prop := (V.registry s).lookup domain = some ref

/-- What a trace has been told of a registry. -/
def RegistryView.Told {C : Type} (V : RegistryView C) (tr : Trace ProcessSig) (domain : String)
    (ref : Nat) : Prop := (domain, ref) ∈ tr.filterMap V.told

section Views

variable {C : Type} {V : RegistryView C}

theorem RegistryView.Told.mono {tr tr' : Trace ProcessSig} {domain : String} {ref : Nat}
    (h : tr <+: tr') (ht : V.Told tr domain ref) : V.Told tr' domain ref :=
  (h.filterMap V.told).subset ht

theorem RegistryView.told_last {tr : Trace ProcessSig} {ev : Event ProcessSig} {domain : String}
    {ref : Nat} (h : V.told ev = some (domain, ref)) : V.Told (tr ++ [ev]) domain ref := by
  unfold RegistryView.Told
  rw [List.filterMap_append]
  exact List.mem_append_right _ (List.mem_filterMap.mpr ⟨ev, List.mem_singleton_self ev, h⟩)

theorem RegistryView.told_concat {tr : Trace ProcessSig} {ev : Event ProcessSig} {domain : String}
    {ref : Nat} (h : V.Told (tr ++ [ev]) domain ref) :
    V.Told tr domain ref ∨ V.told ev = some (domain, ref) := by
  unfold RegistryView.Told at h
  rw [List.filterMap_append] at h
  rcases List.mem_append.mp h with h | h
  · exact Or.inl h
  · obtain ⟨ev', hmem, hev⟩ := List.mem_filterMap.mp h
    rw [List.mem_singleton.mp hmem] at hev
    exact Or.inr hev

/-- A section at which a thread finds no entry under the write lock and creates one. -/
structure RegistryView.Creates (V : RegistryView C) (p : Pool ProcessState ProcessTask) (i : Nat)
    (domain : String) (p' : Pool ProcessState ProcessTask) : Prop where
  step : processes.Step p (.task i) p'
  inserts : ∃ t k, p.tasks[i]? = some t ∧ t.rest = some (.op (V.insert domain) k)
  missing : (V.registry p.shared).lookup domain = none
  created : (V.registry p'.shared).created =
    (V.registry p.shared).created ++ [(domain, (V.registry p.shared).default)]

/-- **A step creates nothing**, or what its thread inserts, under the default it finds there. -/
theorem RegistryView.step_cases {p p' : Pool ProcessState ProcessTask} {w : Actor}
    (hs : processes.Step p w p') :
    (V.registry p'.shared).created = (V.registry p.shared).created ∨
      ∃ i domain, w = .task i ∧ V.Creates p i domain p' := by
  cases hs with
  | @act s s' l r new t t' h =>
    have hs : processes.Step ⟨s, l ++ t :: r⟩ (.task l.length) ⟨s', l ++ t' :: (r ++ new)⟩ := .act h
    cases h.1 with
    | @effect e k r' _ hrest heffect =>
      rcases V.effect heffect with heq | ⟨domain, he, hmiss, heq⟩
      · exact Or.inl heq
      · subst he
        exact Or.inr ⟨l.length, domain, rfl, hs, ⟨t, k, by simp, hrest⟩, hmiss, heq⟩
    | panic => exact Or.inl rfl
    | clientPanic => exact Or.inl rfl
  | env h => exact h.elim
  | arrive h =>
    obtain ⟨rfl, _⟩ := h
    exact Or.inl rfl

/-- No step loses what was created, -/
theorem RegistryView.step_extends {p p' : Pool ProcessState ProcessTask} {w : Actor}
    (hs : processes.Step p w p') : (V.registry p.shared).Extends (V.registry p'.shared) := by
  unfold Registry.Extends
  rcases V.step_cases hs with heq | ⟨_, _, _, h⟩
  · rw [heq]
  · rw [h.created]
    exact List.prefix_append _ _

/-- nor does a run, from any pool it left. -/
theorem RegistryView.run_extends {p₀ p : Pool ProcessState ProcessTask}
    {vs : List (Pool ProcessState ProcessTask × Actor)} (hr : processes.Run p₀ vs p) :
    ∀ x ∈ vs, (V.registry x.1.shared).Extends (V.registry p.shared) := by
  induction hr with
  | refl => exact fun _ hx => absurd hx List.not_mem_nil
  | step _ hs ih =>
    intro x hx
    rcases List.mem_append.mp hx with hx | hx
    · exact (ih x hx).trans (V.step_extends hs)
    · rw [List.mem_singleton.mp hx]
      exact V.step_extends hs

/-- The section a call is about to perform. -/
def ProcessTask.next? (t : ProcessTask) : Option ProcessOp :=
  match t.rest with
  | some (.op e _) => some e
  | _ => none

/-- The default that a step of a run sets, if it sets one. -/
def RegistryView.setBy (V : RegistryView C) : Pool ProcessState ProcessTask × Actor → Option C
  | (p, .task i) => (p.tasks[i]?.bind ProcessTask.next?).bind V.sets
  | _ => none

/-- **The default set last** in a run from a pool with the default `config`. -/
def RegistryView.lastSet (V : RegistryView C) (vs : List (Pool ProcessState ProcessTask × Actor))
    (config : C) : C :=
  (vs.filterMap V.setBy).getLast?.getD config

theorem RegistryView.lastSet_concat (vs : List (Pool ProcessState ProcessTask × Actor))
    (x : Pool ProcessState ProcessTask × Actor) (config : C) :
    V.lastSet (vs ++ [x]) config = (V.setBy x).getD (V.lastSet vs config) := by
  unfold RegistryView.lastSet
  rw [List.filterMap_append]
  cases h : V.setBy x with
  | none => simp [h]
  | some c => simp [h]

/-- A step leaves the default it sets, or the one there was, -/
theorem RegistryView.step_default {p p' : Pool ProcessState ProcessTask} {w : Actor}
    (hs : processes.Step p w p') : (V.registry p'.shared).default =
      (V.setBy (p, w)).getD (V.registry p.shared).default := by
  cases hs with
  | @act s s' l r new t t' h =>
    have hacts : V.setBy (⟨s, l ++ t :: r⟩, .task l.length) = t.next?.bind V.sets := by
      simp [RegistryView.setBy]
    rw [hacts]
    cases h.1 with
    | @effect e k r' _ hrest heffect =>
      have hnext : t.next? = some e := by rw [ProcessTask.next?, hrest]
      rw [hnext]
      exact V.defaults heffect
    | @panic msg k hrest =>
      have hnext : t.next? = some (.panic msg) := by rw [ProcessTask.next?, hrest]
      rw [hnext, Option.bind_some, V.panicsUnset]
      rfl
    | @clientPanic domain k hrest _ =>
      have hnext : t.next? = some (.insertClient domain) := by rw [ProcessTask.next?, hrest]
      rw [hnext, Option.bind_some, V.insertsUnset]
      rfl
  | env h => exact h.elim
  | arrive h =>
    obtain ⟨rfl, _⟩ := h
    rfl

/-- and a run the one set last. -/
theorem RegistryView.run_default {p₀ p : Pool ProcessState ProcessTask}
    {vs : List (Pool ProcessState ProcessTask × Actor)} (hr : processes.Run p₀ vs p) :
    (V.registry p.shared).default = V.lastSet vs (V.registry p₀.shared).default := by
  induction hr with
  | refl => rfl
  | step _ hs ih => rw [V.step_default hs, V.lastSet_concat, ih]

/-- **Where an entry comes from**: some step of the run created it, under the default in force
    there. -/
theorem RegistryView.run_created {p₀ p : Pool ProcessState ProcessTask}
    {vs : List (Pool ProcessState ProcessTask × Actor)}
    (hempty : (V.registry p₀.shared).created = []) (hr : processes.Run p₀ vs p) {ref : Nat}
    {domain : String} {config : C}
    (h : (V.registry p.shared).created[ref]? = some (domain, config)) :
    ∃ vs₁ q i q' vs₂, vs = vs₁ ++ (q, .task i) :: vs₂ ∧ processes.Run p₀ vs₁ q ∧
      V.Creates q i domain q' ∧ processes.Run q' vs₂ p ∧
      (V.registry q.shared).created.length = ref ∧ (V.registry q.shared).default = config := by
  induction hr with
  | refl =>
    rw [hempty] at h
    cases h
  | @step vs q q' w hr hs ih =>
    rcases V.step_cases hs with heq | ⟨i, d, rfl, hc⟩
    · rw [heq] at h
      obtain ⟨vs₁, q₁, i, q₂, vs₂, rfl, hr₁, hc, hr₂, hplace⟩ := ih h
      exact ⟨vs₁, q₁, i, q₂, vs₂ ++ [(q, w)], by simp, hr₁, hc, hr₂.step hs, hplace⟩
    · rw [hc.created] at h
      by_cases hlt : ref < (V.registry q.shared).created.length
      · rw [List.getElem?_append_left hlt] at h
        obtain ⟨vs₁, q₁, i', q₂, vs₂, rfl, hr₁, hc, hr₂, hplace⟩ := ih h
        exact ⟨vs₁, q₁, i', q₂, vs₂ ++ [(q, .task i)], by simp, hr₁, hc, hr₂.step hs, hplace⟩
      · have hlen : ref < (V.registry q.shared).created.length + 1 := by
          have := (List.getElem?_eq_some_iff.mp h).1
          simpa using this
        have href : (V.registry q.shared).created.length = ref := by omega
        subst href
        rw [List.getElem?_concat_length] at h
        cases h
        exact ⟨vs, q, i, q', [], rfl, hr, hc, .refl, rfl, rfl⟩

end Views

/-! ## 4. What a run keeps of a registry -/

/-- **One entry a key, for ever**, along a run to `p` that left the pools `vs`. -/
structure OncePerKey {C : Type} (V : RegistryView C) (p₀ : Pool ProcessState ProcessTask)
    (vs : List (Pool ProcessState ProcessTask × Actor)) (p : Pool ProcessState ProcessTask) :
    Prop where
  /-- No key was ever given a second one. -/
  once : ((V.registry p.shared).created.map Prod.fst).Nodup
  distinct : ∀ {domain domain' ref}, V.Holds p.shared domain ref → V.Holds p.shared domain' ref →
    domain = domain'
  /-- What was there in any earlier pool is there, -/
  kept : ∀ x ∈ vs, ∀ {domain ref}, V.Holds x.1.shared domain ref → V.Holds p.shared domain ref
  /-- with the configuration it had. -/
  keptConfig : ∀ x ∈ vs, ∀ {ref : Nat} {entry : String × C},
    (V.registry x.1.shared).created[ref]? = some entry →
      (V.registry p.shared).created[ref]? = some entry
  /-- The configuration is the default the inserting thread found under the write lock: the one set
      last before that, or the one at the start. -/
  configured : ∀ {ref domain config},
    (V.registry p.shared).created[ref]? = some (domain, config) →
      ∃ vs₁ q i q' vs₂, vs = vs₁ ++ (q, .task i) :: vs₂ ∧ processes.Run p₀ vs₁ q ∧
        V.Creates q i domain q' ∧ processes.Run q' vs₂ p ∧
        (V.registry q.shared).created.length = ref ∧ (V.registry q.shared).default = config ∧
        V.lastSet vs₁ (V.registry p₀.shared).default = config

theorem oncePerKey {C : Type} {V : RegistryView C} {p₀ p : Pool ProcessState ProcessTask}
    {vs : List (Pool ProcessState ProcessTask × Actor)}
    (hempty : (V.registry p₀.shared).created = []) (hr : processes.Run p₀ vs p) :
    OncePerKey V p₀ vs p where
  once := Registry.created_nodup _
  distinct := Registry.lookup_inj
  kept x hx _ _ h := (RegistryView.run_extends hr x hx).lookup h
  keptConfig x hx _ _ h := (RegistryView.run_extends hr x hx).created h
  configured h := by
    obtain ⟨vs₁, q, i, q', vs₂, hvs, hr₁, hcreates, hr₂, hplace, hconfig⟩ :=
      V.run_created hempty hr h
    exact ⟨vs₁, q, i, q', vs₂, hvs, hr₁, hcreates, hr₂, hplace, hconfig,
      (V.run_default hr₁).symm.trans hconfig⟩

/-! ## 5. What calls are told -/

/-- The domain key of an endpoint. -/
def EndpointConfig.domainKey (endpoint : EndpointConfig) : Option String :=
  extractRateLimitDomain (endpoint.url.host.getD "unknown")

/-- The entry of an endpoint is the one of its domain key. -/
def KeyedBy (of : String → Nat → Prop) (endpoint : EndpointConfig) (ref : Nat) : Prop :=
  ∃ domain, endpoint.domainKey = some domain ∧ of domain ref

/-- **What a call returns** is what `throttleOf` and `clientOf` say of the domains it is about. -/
def ProcessCall.Answered (throttleOf clientOf : String → Nat → Prop) :
    ProcessCall → ProcessResult → Prop
  | .domainThrottle domain, .throttle state => throttleOf domain state
  | .sharedClientForDomain domain, .client client => clientOf domain client
  | .setDefaultThrottleConfig _, .unit | .setDefaultHttpClientConfig _, .unit => True
  | .build b, .transport t => b.endpoints.Forall₂ (KeyedBy throttleOf) t.endpointThrottles ∧
      b.endpoints.Forall₂ (KeyedBy clientOf) (t.endpoints.map HttpTransport.client)
  | _, _ => False

theorem KeyedBy.mono {of of' : String → Nat → Prop} (h : ∀ {domain ref}, of domain ref →
    of' domain ref) {endpoint : EndpointConfig} {ref : Nat} (hk : KeyedBy of endpoint ref) :
    KeyedBy of' endpoint ref := by
  obtain ⟨domain, hd, ho⟩ := hk
  exact ⟨domain, hd, h ho⟩

theorem ProcessCall.Answered.mono {throttleOf throttleOf' clientOf clientOf' : String → Nat → Prop}
    (ht : ∀ {domain ref}, throttleOf domain ref → throttleOf' domain ref)
    (hc : ∀ {domain ref}, clientOf domain ref → clientOf' domain ref) {call : ProcessCall}
    {result : ProcessResult} (h : call.Answered throttleOf clientOf result) :
    call.Answered throttleOf' clientOf' result := by
  cases call <;> cases result
  all_goals first
    | exact ht h
    | exact hc h
    | exact ⟨h.1.imp fun _ _ => KeyedBy.mono ht, h.2.imp fun _ _ => KeyedBy.mono hc⟩
    | exact h

/-- The protocol that records what a call performs. -/
abbrev recorded : Protocol ProcessSig (Trace ProcessSig) := historyProtocol fun _ _ => True

/-- `domain_throttle` returns what it was told of its domain. -/
theorem domainThrottle_follows (domain : String) (tr : Trace ProcessSig) :
    (domainThrottle domain).Follows recorded tr fun tr state =>
      throttleView.Told tr domain state := by
  refine ⟨trivial, fun found _ => ?_⟩
  cases found with
  | some state => exact RegistryView.told_last rfl
  | none => exact ⟨trivial, fun state _ => RegistryView.told_last rfl⟩

/-- Likewise `shared_client_for_domain`. -/
theorem sharedClientForDomain_follows (domain : String) (tr : Trace ProcessSig) :
    (sharedClientForDomain domain).Follows recorded tr fun tr client =>
      clientView.Told tr domain client := by
  refine ⟨trivial, fun found _ => ?_⟩
  cases found with
  | some client => exact RegistryView.told_last rfl
  | none => exact ⟨trivial, fun client _ => RegistryView.told_last rfl⟩

/-- The cache of `build` holds what was told. -/
def CacheTold (tr : Trace ProcessSig) (cache : List (String × DomainRef)) : Prop :=
  ∀ {domain throttle}, cache.lookup domain = some throttle → throttleView.Told tr domain throttle

theorem cachedThrottle_follows {cache : List (String × DomainRef)} {tr : Trace ProcessSig}
    (h : CacheTold tr cache) (domain : String) :
    (cachedThrottle cache domain).Follows recorded tr fun tr entry =>
      throttleView.Told tr domain entry.1 ∧ CacheTold tr entry.2 := by
  unfold cachedThrottle
  split
  · rename_i throttle hc
    exact ⟨h hc, h⟩
  · refine (domainThrottle_follows domain tr).grown.bind fun tr' throttle hd => ?_
    obtain ⟨hgrown, htold⟩ := hd
    refine ⟨htold, fun {d t} hl => ?_⟩
    rw [List.lookup_cons] at hl
    split at hl
    · rename_i hkey
      cases hl
      rw [beq_iff_eq.mp hkey]
      exact htold
    · exact (h hl).mono hgrown

/-- What the loop of `build` keeps: each endpoint added has the entries of its domain key. -/
structure Keyed (tr : Trace ProcessSig) (cache : List (String × DomainRef)) (table : EndpointTable)
    (done : List EndpointConfig) : Prop where
  cache : CacheTold tr cache
  throttles : done.Forall₂ (KeyedBy (throttleView.Told tr)) table.endpointThrottles
  clients : done.Forall₂ (KeyedBy (clientView.Told tr)) (table.endpoints.map HttpTransport.client)

theorem endpointDomain_follows (endpoint : EndpointConfig) (tr : Trace ProcessSig) :
    (endpointDomain endpoint.url).Follows recorded tr fun tr' domain =>
      endpoint.domainKey = some domain ∧ tr' = tr := by
  unfold endpointDomain
  split
  · rename_i domain h
    exact ⟨h, rfl⟩
  · exact buildPanic_follows _ trivial _

/-- One more endpoint. -/
theorem keyed_push {tr : Trace ProcessSig} {cache : List (String × DomainRef)}
    {table : EndpointTable} {done : List EndpointConfig} (endpoint : EndpointConfig)
    (total : UInt64) (htotal : table.totalWeight < total)
    (hcap : ∀ bytes, endpoint.maxRequestBytes = some bytes → 0 < bytes)
    (hlimit : ∀ k, endpoint.maxInFlight = some k → 0 < k) (h : Keyed tr cache table done) :
    (endpointDomain endpoint.url).Follows recorded tr fun tr domain =>
      (sharedClientForDomain domain).Follows recorded tr fun tr client =>
        (cachedThrottle cache domain).Follows recorded tr fun tr entry =>
          Keyed tr entry.2 (table.push ⟨client, endpoint.url⟩ entry.1 endpoint.maxRequestBytes
            endpoint.maxInFlight total htotal hcap hlimit) (done ++ [endpoint]) := by
  refine (endpointDomain_follows endpoint tr).mono fun tr₁ domain hd => ?_
  obtain ⟨hkey, rfl⟩ := hd
  refine (sharedClientForDomain_follows domain tr₁).grown.mono fun tr₂ client hc => ?_
  obtain ⟨hgrown, hclient⟩ := hc
  have hcache : CacheTold tr₂ cache := fun hl => (h.cache hl).mono hgrown
  refine (cachedThrottle_follows hcache domain).grown.mono fun tr₃ entry he => ?_
  obtain ⟨hgrown', hthrottle, hcache'⟩ := he
  have hall := hgrown.trans hgrown'
  refine ⟨hcache', ?_, ?_⟩
  · exact List.rel_append (h.throttles.imp fun _ _ => KeyedBy.mono (.mono hall))
      (.cons ⟨domain, hkey, hthrottle⟩ .nil)
  · unfold EndpointTable.push
    rw [List.map_append]
    exact List.rel_append (h.clients.imp fun _ _ => KeyedBy.mono (.mono hall))
      (.cons ⟨domain, hkey, hclient.mono hgrown'⟩ .nil)

/-- **What a call returns is what it was told.** -/
theorem program_follows (call : ProcessCall) :
    call.program.Follows recorded [] fun tr result =>
      call.Answered (throttleView.Told tr) (clientView.Told tr) result := by
  cases call with
  | domainThrottle domain => exact (domainThrottle_follows domain []).bind fun _ _ h => h
  | sharedClientForDomain domain =>
    exact (sharedClientForDomain_follows domain []).bind fun _ _ h => h
  | setDefaultThrottleConfig | setDefaultHttpClientConfig => exact ⟨trivial, fun _ _ => trivial⟩
  | build b =>
    have hglobal : (applyGlobalConfigs b).Follows recorded [] fun _ _ => True :=
      Program.follows_of_free (fun _ _ => trivial) _ _
    have hloop := addEndpoints_follows (P := recorded) (R := Keyed) (fun _ _ => trivial)
      (fun tr cache table done endpoint total htotal hcap hlimit h _ =>
        keyed_push endpoint total htotal hcap hlimit h) b.endpoints
    refine Program.Follows.bind (R := fun tr t =>
      ProcessCall.Answered (throttleView.Told tr) (clientView.Told tr) (.build b) (.transport t))
      ?_ fun _ _ h => h
    unfold build
    refine hglobal.bind fun tr _ _ => ?_
    split
    · exact buildPanic_follows _ trivial _
    · refine (hloop tr [] .empty [] ⟨nofun, .nil, .nil⟩).bind fun tr' full h => ?_
      obtain ⟨cache, hk⟩ := h
      exact ⟨hk.throttles, hk.clients⟩

/-! ## 6. Every interleaving -/

theorem arrives (p : Pool ProcessState ProcessTask) (call : ProcessCall) :
    processes.Step p .arrival ⟨p.shared, p.tasks ++ [⟨call, [], some call.program⟩]⟩ :=
  .arrive ⟨rfl, call, rfl⟩

/-- A call that runs alone from a pool on is a run. -/
theorem run_alone {p₀ p : Pool ProcessState ProcessTask}
    {vs : List (Pool ProcessState ProcessTask × Actor)} (hr : processes.Run p₀ vs p) {i : Nat}
    {t : ProcessTask} (ht : p.tasks[i]? = some t) {rest : Program ProcessSig ProcessResult}
    (hrest : t.rest = some rest) {result : ProcessResult} {s' : ProcessState}
    (h : rest.eval processHandler p.shared = some (result, s')) :
    ∃ vs' tr, processes.Run p₀ vs' ⟨s', p.tasks.set i ⟨t.call, tr, some (.ret result)⟩⟩ := by
  induction rest generalizing vs p t with
  | ret a =>
    cases h
    obtain ⟨call, done, rest⟩ := t
    cases hrest
    refine ⟨vs, done, ?_⟩
    obtain ⟨hi, hget⟩ := List.getElem?_eq_some_iff.mp ht
    rw [← hget, List.set_getElem_self]
    exact hr
  | op e k ih =>
    rw [Program.eval_op] at h
    obtain ⟨⟨r, s₁⟩, heffect, hrun⟩ := Option.bind_eq_some_iff.mp h
    have hstep := hr.step (System.Step.at ht ⟨.effect hrest heffect, rfl⟩)
    rw [List.append_nil] at hstep
    have ht' : (p.tasks.set i ⟨t.call, t.done ++ [⟨e, r⟩], some (k r)⟩)[i]? =
        some ⟨t.call, t.done ++ [⟨e, r⟩], some (k r)⟩ :=
      List.getElem?_set_self (List.getElem?_eq_some_iff.mp ht).1
    obtain ⟨vs', tr, hdone⟩ := ih r hstep ht' rfl hrun
    rw [List.set_set] at hdone
    exact ⟨vs', tr, hdone⟩

theorem eval_build {b : LoadBalancedTransportBuilder} {s s' : ProcessState}
    {transport : LoadBalancedTransport}
    (h : (build b).eval processHandler s = some (transport, s')) :
    (ProcessCall.build b).program.eval processHandler s = some (.transport transport, s') := by
  unfold ProcessCall.program
  rw [Program.eval_bind, h]
  rfl

/-- A transport built alone. -/
theorem build_alone {b : LoadBalancedTransportBuilder} {s s' : ProcessState}
    {transport : LoadBalancedTransport}
    (h : (build b).eval processHandler s = some (transport, s')) :
    ∃ vs tr, processes.Run ⟨s, []⟩ vs ⟨s', [⟨.build b, tr, some (.ret (.transport transport))⟩]⟩ :=
  run_alone (System.Run.refl.step (arrives ⟨s, []⟩ (.build b))) (i := 0) rfl rfl (eval_build h)

/-- A call has taken steps of its program and no others. -/
theorem steps_reachable {p : Pool ProcessState ProcessTask}
    (hr : processes.Reachable ProcessStart p) :
    ∀ t ∈ p.tasks, ∀ rest, t.rest = some rest → Steps t.call.program t.done rest := by
  refine System.Reachable.taskInv (fun p hp t ht => ?_) (fun ht hs => ?_) (fun ha => ?_) hr
  · rw [hp.2] at ht
    exact absurd ht List.not_mem_nil
  · obtain ⟨hs, rfl⟩ := hs
    refine ⟨fun rest hrest => ?_, nofun⟩
    cases hs with
    | effect hrest' =>
      cases hrest
      exact steps_append (ht _ hrest') (.step _ _ _ (.refl _))
    | panic | clientPanic => cases hrest
  · obtain ⟨_, call, rfl⟩ := ha
    intro rest hrest
    cases hrest
    exact .refl _

/-- **The defaults a call sets**, in order. -/
def ProcessCall.settings : ProcessCall → Trace ProcessSig
  | .setDefaultThrottleConfig config => [⟨.setDefaultThrottleConfig config, ()⟩]
  | .setDefaultHttpClientConfig config => [⟨.setDefaultHttpClientConfig config, ()⟩]
  | .build b =>
    (b.throttleConfig.map fun config => ⟨.setDefaultThrottleConfig config, ()⟩).toList ++
      (b.httpClientConfig.map fun config => ⟨.setDefaultHttpClientConfig config, ()⟩).toList
  | _ => []

/-- It has set all of them, or the next one is what it is about to set. -/
def ProcessCall.SetsFirst (call : ProcessCall) (tr : Trace ProcessSig)
    (rest : Program ProcessSig ProcessResult) : Prop :=
  call.settings <+: tr ∨ ∃ ev k, tr ++ [ev] <+: call.settings ∧ rest = .op ev.op k

/-- **A call sets its defaults before anything else.** -/
theorem settings_first {call : ProcessCall} {tr : Trace ProcessSig}
    {rest : Program ProcessSig ProcessResult} (hs : Steps call.program tr rest) :
    call.SetsFirst tr rest := by
  -- one setting, and two of them
  have hone : ∀ {e : ProcessOp} {k : ProcessSig.Ans e → Program ProcessSig ProcessResult}
      {r : ProcessSig.Ans e}, (∀ r' : ProcessSig.Ans e, r' = r) → call.settings = [⟨e, r⟩] →
      Steps (.op e k) tr rest → call.SetsFirst tr rest := by
    intro e k r hunit hset hs
    cases hs with
    | refl => exact Or.inr ⟨⟨e, r⟩, k, hset ▸ List.prefix_refl _, rfl⟩
    | step e r' k _ =>
      obtain rfl := hunit r'
      exact Or.inl (hset ▸ List.prefix_append [_] _)
  cases call with
  | domainThrottle | sharedClientForDomain => exact Or.inl List.nil_prefix
  | setDefaultThrottleConfig | setDefaultHttpClientConfig => exact hone (fun _ => rfl) rfl hs
  | build b =>
    obtain ⟨endpoints, config, throttle, client⟩ := b
    cases throttle with
    | none =>
      cases client with
      | none => exact Or.inl List.nil_prefix
      | some client => exact hone (fun _ => rfl) rfl hs
    | some throttle =>
      cases client with
      | none => exact hone (fun _ => rfl) rfl hs
      | some client =>
        cases hs with
        | refl => exact Or.inr ⟨_, _, ⟨[_], rfl⟩, rfl⟩
        | step e r k hs =>
          cases hs with
          | refl => exact Or.inr ⟨_, _, List.prefix_refl _, rfl⟩
          | step e r k _ => exact Or.inl ⟨_, rfl⟩

/-- A transport that a call has returned comes from a run of `build`. -/
theorem build_runs {p : Pool ProcessState ProcessTask} (hr : processes.Reachable ProcessStart p)
    {t : ProcessTask} (ht : t ∈ p.tasks) {b : LoadBalancedTransportBuilder}
    (hcall : t.call = .build b) {transport : LoadBalancedTransport}
    (hres : t.rest = some (.ret (.transport transport))) : Runs (build b) t.done transport := by
  have hs := steps_reachable hr t ht _ hres
  rw [hcall] at hs
  obtain ⟨q, hq, heq⟩ := steps_map (p := build b) (g := ProcessResult.transport) hs
  cases q with
  | ret a =>
    cases heq
    exact hq
  | op e k => cases heq

/-- A call has been told what the registries hold, and will return what it has been told. -/
structure TaskOk (s : ProcessState) (t : ProcessTask) : Prop where
  throttles : ∀ {domain ref}, throttleView.Told t.done domain ref →
    throttleView.Holds s domain ref
  clients : ∀ {domain ref}, clientView.Told t.done domain ref → clientView.Holds s domain ref
  follows : ∀ {rest}, t.rest = some rest → rest.Follows recorded t.done fun tr result =>
    t.call.Answered (throttleView.Told tr) (clientView.Told tr) result

/-- A step of the call keeps it. -/
theorem taskOk_step {s s' : ProcessState} {t t' : ProcessTask}
    (hthrottles : s.throttles.Extends s'.throttles) (hclients : s.clients.Extends s'.clients)
    (h : TaskOk s t) (hs : t.Step s s' t') : TaskOk s' t' := by
  cases hs with
  | @effect e k r s' hrest heffect =>
    refine ⟨fun ht => ?_, fun hc => ?_, fun hr => ?_⟩
    · rcases RegistryView.told_concat ht with ht | ht
      · exact hthrottles.lookup (h.throttles ht)
      · exact throttleView.holds heffect ht
    · rcases RegistryView.told_concat hc with hc | hc
      · exact hclients.lookup (h.clients hc)
      · exact clientView.holds heffect hc
    · cases hr
      exact (h.follows hrest).2 r trivial
  | panic =>
    exact ⟨fun ht => hthrottles.lookup (h.throttles ht),
      fun hc => hclients.lookup (h.clients hc), nofun⟩
  | clientPanic =>
    exact ⟨fun ht => hthrottles.lookup (h.throttles ht),
      fun hc => hclients.lookup (h.clients hc), nofun⟩

/-- So does a step of any other. -/
theorem taskOk_stable {p p' : Pool ProcessState ProcessTask} {w : Actor} {t : ProcessTask}
    (hs : processes.Step p w p') (h : TaskOk p.shared t) : TaskOk p'.shared t where
  throttles ht := (throttleView.step_extends hs).lookup (h.throttles ht)
  clients hc := (clientView.step_extends hs).lookup (h.clients hc)
  follows hr := h.follows hr

theorem taskOk_reachable {p : Pool ProcessState ProcessTask}
    (hr : processes.Reachable ProcessStart p) : ∀ t ∈ p.tasks, TaskOk p.shared t := by
  refine System.Reachable.localInv ?_ ?_ ?_ (fun _ hs h => taskOk_stable hs h) hr
  · intro p hp t ht
    rw [hp.2] at ht
    cases ht
  · intro p p' w t t' new _ hs _ h hact
    obtain ⟨hstep, rfl⟩ := hact
    exact ⟨taskOk_step (throttleView.step_extends hs) (clientView.step_extends hs) h hstep, nofun⟩
  · intro p s' t _ harrive
    obtain ⟨_, call, rfl⟩ := harrive
    refine ⟨nofun, nofun, fun hrest => ?_⟩
    cases hrest
    exact program_follows call

/-- A call that has returned was answered from the registries. -/
theorem answered_reachable {p : Pool ProcessState ProcessTask}
    (hr : processes.Reachable ProcessStart p) {t : ProcessTask} (ht : t ∈ p.tasks)
    {result : ProcessResult} (hres : t.rest = some (.ret result)) :
    t.call.Answered (throttleView.Holds p.shared) (clientView.Holds p.shared) result := by
  have hok := taskOk_reachable hr t ht
  exact ProcessCall.Answered.mono hok.throttles hok.clients (hok.follows hres)

/-- Two entries are one exactly when the keys of their endpoints are. -/
theorem keyed_eq_iff {C : Type} {V : RegistryView C} {s : ProcessState}
    {endpoint endpoint' : EndpointConfig} {ref ref' : Nat} (h : KeyedBy (V.Holds s) endpoint ref)
    (h' : KeyedBy (V.Holds s) endpoint' ref') :
    ref = ref' ↔ endpoint.domainKey = endpoint'.domainKey := by
  obtain ⟨domain, hd, hl⟩ := h
  obtain ⟨domain', hd', hl'⟩ := h'
  rw [hd, hd', Registry.lookup_eq_iff hl hl', Option.some.injEq]

/-- The entry beside an element. -/
theorem forall₂_entry {α β : Type} {R : α → β → Prop} {l : List α} {l' : List β}
    (h : l.Forall₂ R l') {i : Nat} {a : α} (ha : l[i]? = some a) :
    ∃ b, l'[i]? = some b ∧ R a b := by
  obtain ⟨hi, rfl⟩ := List.getElem?_eq_some_iff.mp ha
  have hi' : i < l'.length := h.length_eq ▸ hi
  exact ⟨l'[i], List.getElem?_eq_getElem hi', h.get hi hi'⟩

/-- **Built transports share by domain key**: two endpoints have one throttle state, and one
    client, exactly when their hosts have one rate-limit domain. -/
def SharedByKey (p : Pool ProcessState ProcessTask) : Prop :=
  ∀ t ∈ p.tasks, ∀ t' ∈ p.tasks, ∀ b b' transport transport', t.call = .build b →
    t'.call = .build b' → t.rest = some (.ret (.transport transport)) →
    t'.rest = some (.ret (.transport transport')) →
    ∀ (i j : Nat) (endpoint endpoint' : EndpointConfig),
    b.endpoints[i]? = some endpoint → b'.endpoints[j]? = some endpoint' →
    ∃ (throttle throttle' : DomainRef) (http http' : HttpTransport),
      transport.endpointThrottles[i]? = some throttle ∧
      transport'.endpointThrottles[j]? = some throttle' ∧
      transport.endpoints[i]? = some http ∧ transport'.endpoints[j]? = some http' ∧
      (throttle = throttle' ↔ endpoint.domainKey = endpoint'.domainKey) ∧
      (http.client = http'.client ↔ endpoint.domainKey = endpoint'.domainKey)

/-- What a built transport has for an endpoint. -/
theorem built_entries {throttleOf clientOf : String → Nat → Prop} {b : LoadBalancedTransportBuilder}
    {transport : LoadBalancedTransport}
    (h : ProcessCall.Answered throttleOf clientOf (.build b) (.transport transport)) {i : Nat}
    {endpoint : EndpointConfig} (he : b.endpoints[i]? = some endpoint) :
    ∃ throttle http, transport.endpointThrottles[i]? = some throttle ∧
      transport.endpoints[i]? = some http ∧ KeyedBy throttleOf endpoint throttle ∧
      KeyedBy clientOf endpoint http.client := by
  obtain ⟨throttle, hthrottle, hkey⟩ := forall₂_entry h.1 he
  obtain ⟨client, hclient, hkey'⟩ := forall₂_entry h.2 he
  rw [List.getElem?_map] at hclient
  obtain ⟨http, hhttp, rfl⟩ := Option.map_eq_some_iff.mp hclient
  exact ⟨throttle, http, hthrottle, hhttp, hkey, hkey'⟩

theorem sharedByKey_reachable {p : Pool ProcessState ProcessTask}
    (hr : processes.Reachable ProcessStart p) : SharedByKey p := by
  intro t ht t' ht' b b' transport transport' hcall hcall' hres hres' i j endpoint endpoint' he he'
  have hb := answered_reachable hr ht hres
  have hb' := answered_reachable hr ht' hres'
  rw [hcall] at hb
  rw [hcall'] at hb'
  obtain ⟨throttle, http, hthrottle, hhttp, hkey, hclient⟩ := built_entries hb he
  obtain ⟨throttle', http', hthrottle', hhttp', hkey', hclient'⟩ := built_entries hb' he'
  exact ⟨throttle, throttle', http, http', hthrottle, hthrottle', hhttp, hhttp',
    keyed_eq_iff hkey hkey', keyed_eq_iff hclient hclient'⟩

/-- **ONE STATE AND ONE CLIENT A DOMAIN, FOR EVER.** In every interleaving of calls, each registry
    gets at most one entry a key and keeps it, with the default set last before that; a call sets
    its defaults first; every call is answered with the entry of its key, and built transports share
    by domain key. -/
theorem one_state_per_key {p₀ p : Pool ProcessState ProcessTask}
    {vs : List (Pool ProcessState ProcessTask × Actor)} (hstart : ProcessStart p₀)
    (hr : processes.Run p₀ vs p) :
    OncePerKey throttleView p₀ vs p ∧ OncePerKey clientView p₀ vs p ∧
      (∀ t ∈ p.tasks, ∀ rest, t.rest = some rest → t.call.SetsFirst t.done rest) ∧
      (∀ t ∈ p.tasks, ∀ result, t.rest = some (.ret result) →
        t.call.Answered (throttleView.Holds p.shared) (clientView.Holds p.shared) result) ∧
      SharedByKey p := by
  have hreach : processes.Reachable ProcessStart p := (System.Reachable.start hstart).run hr
  obtain ⟨⟨throttle, client, hshared⟩, _⟩ := hstart
  refine ⟨oncePerKey ?_ hr, oncePerKey ?_ hr, ?_, ?_, sharedByKey_reachable hreach⟩
  · rw [hshared]
    rfl
  · rw [hshared]
    rfl
  · exact fun t ht rest hrest => settings_first (steps_reachable hreach t ht rest hrest)
  · exact fun t ht result hres => answered_reachable hreach ht hres

/-- The registries before the first call. -/
def ProcessState.initial : ProcessState := ⟨.empty .default, .empty .default⟩

/-- Two hosts of one domain and one of another. -/
def threeHosts : LoadBalancedTransportBuilder :=
  builderWithEndpoints [.new ⟨some "arb.alchemy.com", "https://arb.alchemy.com/"⟩ ⟨100⟩,
    .new ⟨some "base.alchemy.com", "https://base.alchemy.com/"⟩ ⟨100⟩,
    .new ⟨some "lb.drpc.org", "https://lb.drpc.org/"⟩ ⟨50⟩]

/-- A configuration other than the default. -/
def quickRecovery : ThrottleConfig := { ThrottleConfig.default with recoveryThreshold := 3 }

/-- A thread misses on the read lock, another sets the default, a third builds its transport, and
    the first then inserts. -/
theorem one_state_per_key_race : ∃ vs p tr tr' transport,
    processes.Run ⟨.initial, []⟩ vs p ∧
    p.tasks = [⟨.domainThrottle "alchemy.com", tr, some (.ret (.throttle 0))⟩,
      ⟨.setDefaultThrottleConfig quickRecovery, [⟨.setDefaultThrottleConfig quickRecovery, ()⟩],
        some (.ret .unit)⟩,
      ⟨.build threeHosts, tr', some (.ret (.transport transport))⟩] ∧
    transport.endpointThrottles = [0, 0, 1] ∧
    (p.shared.throttles.created.map fun x => (x.1, x.2.recoveryThreshold)) =
      [("alchemy.com", 3), ("drpc.org", 3)] ∧
    OncePerKey throttleView ⟨.initial, []⟩ vs p ∧ OncePerKey clientView ⟨.initial, []⟩ vs p ∧
    SharedByKey p := by
  have hbuild : (((build threeHosts).eval processHandler
      ⟨(Registry.empty .default).setDefault quickRecovery, .empty .default⟩).map fun x =>
      (x.1.endpointThrottles, x.2.throttles.lookup "alchemy.com",
        x.2.throttles.created.map fun x => (x.1, x.2.recoveryThreshold))) =
      some ([0, 0, 1], some 0, [("alchemy.com", 3), ("drpc.org", 3)]) := by
    decide +kernel
  obtain ⟨⟨transport, s⟩, heval, hx⟩ := Option.map_eq_some_iff.mp hbuild
  obtain ⟨hthrottles, hx⟩ := Prod.mk.inj hx
  obtain ⟨hfound, hcreated⟩ := Prod.mk.inj hx
  -- the first thread is past its fast path when the default is set and the build starts
  have harrived := ((System.Run.refl.step
    (arrives ⟨.initial, []⟩ (.domainThrottle "alchemy.com"))).step
      (arrives _ (.setDefaultThrottleConfig quickRecovery))).step (arrives _ (.build threeHosts))
  have hmiss := harrived.step (System.Step.at (i := 0) rfl ⟨.effect rfl rfl, rfl⟩)
  have hset := hmiss.step (System.Step.at (i := 1) rfl ⟨.effect rfl rfl, rfl⟩)
  obtain ⟨vs₁, hmissed⟩ : ∃ vs, processes.Run ⟨.initial, []⟩ vs
      ⟨⟨(Registry.empty .default).setDefault quickRecovery, .empty .default⟩,
      [⟨.domainThrottle "alchemy.com", [⟨.readDomain "alchemy.com", none⟩],
        some (.op (.insertDomain "alchemy.com") fun state => .ret (.throttle state))⟩,
      ⟨.setDefaultThrottleConfig quickRecovery, [⟨.setDefaultThrottleConfig quickRecovery, ()⟩],
        some (.ret .unit)⟩,
      ⟨.build threeHosts, [], some (ProcessCall.build threeHosts).program⟩]⟩ := ⟨_, hset⟩
  obtain ⟨vs₂, tr, hbuilt⟩ := run_alone hmissed (i := 2) rfl rfl (eval_build heval)
  have hdone := hbuilt.step
    (System.Step.at (i := 0) rfl ⟨.effect rfl (insertDomain_found hfound), rfl⟩)
  obtain ⟨honce, honce', _, _, hshared⟩ := one_state_per_key ⟨⟨_, _, rfl⟩, rfl⟩ hdone
  exact ⟨_, _, _, _, transport, hdone, rfl, hthrottles, hcreated, honce, honce', hshared⟩

end TransportBalancer
