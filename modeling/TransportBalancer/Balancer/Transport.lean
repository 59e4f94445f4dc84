/-
  File:      TransportBalancer/Balancer/Transport.lean
  Subject:   BUILDING A BALANCED TRANSPORT (`LoadBalancedTransportBuilder::build`).

  The vectors a transport is made of are one structure that carries what the loop of `build`
  keeps: they have one entry an endpoint, caps and limits are positive, the cumulative weights
  increase up to the total. A `LoadBalancedTransport` cannot be had without these facts.

  * `ProcessSig` -- the process-wide registries, one lock-protected section a step;
  * `build` -- the constructor, with its panics;
  * `LoadBalancedTransport.Built` -- some run of `build` returned it.
-/
import TransportBalancer.Lib.Program
import TransportBalancer.Throttle.Domain
import TransportBalancer.Throttle.State

namespace TransportBalancer

open Interaction

/-! ## 1. Configuration -/

/-- A URL, cut down to its host and its text. -/
structure Url where
  host : Option String
  text : String
  deriving DecidableEq, Repr

/-- `Weight`. -/
structure Weight where
  value : UInt32
  deriving DecidableEq, Repr

/-- `Weight::default`. -/
def Weight.default : Weight := ⟨100⟩

/-- `EndpointConfig`. -/
structure EndpointConfig where
  url : Url
  weight : Weight
  maxRequestBytes : Option Nat
  maxInFlight : Option Nat
  deriving DecidableEq, Repr

/-- `EndpointConfig::new`. -/
def EndpointConfig.new (url : Url) (weight : Weight) : EndpointConfig := ⟨url, weight, none, none⟩

/-- `BalancerConfig`. -/
structure BalancerConfig where
  maxRetryRounds : UInt32
  initialBackoff : Duration
  maxBackoff : Duration
  rateLimitFailoverDelay : Duration
  heavyThrottleThreshold : Duration

/-- `BalancerConfig::default`. -/
def BalancerConfig.default : BalancerConfig where
  maxRetryRounds := 3
  initialBackoff := .fromMillis 100
  maxBackoff := .fromMillis 4000
  rateLimitFailoverDelay := .fromMillis 75
  heavyThrottleThreshold := .fromMillis 500

/-- `HttpClientConfig`. -/
structure HttpClientConfig where
  poolMaxIdlePerHost : Nat
  poolIdleTimeout : Duration
  tcpKeepalive : Duration
  connectTimeout : Duration
  requestTimeout : Duration
  gzip : Bool

/-- `HttpClientConfig::default`. -/
def HttpClientConfig.default : HttpClientConfig where
  poolMaxIdlePerHost := 8
  poolIdleTimeout := .fromMillis 90000
  tcpKeepalive := .fromMillis 30000
  connectTimeout := .fromMillis 10000
  requestTimeout := .fromMillis 30000
  gzip := false

/-- `LoadBalancedTransportBuilder`. -/
structure LoadBalancedTransportBuilder where
  endpoints : List EndpointConfig
  config : BalancerConfig
  throttleConfig : Option ThrottleConfig
  httpClientConfig : Option HttpClientConfig

/-- `LoadBalancedTransport::builder_with_endpoints`. -/
def builderWithEndpoints (endpoints : List EndpointConfig) : LoadBalancedTransportBuilder :=
  ⟨endpoints, .default, none, none⟩

/-! ## 2. The process-wide registries -/

/-- The identity of a registered `DomainThrottleState`. -/
abbrev DomainRef := Nat

/-- The identity of a pooled client. -/
abbrev ClientRef := Nat

/-- One lock-protected section on a registry, or a panic. -/
inductive ProcessOp where
  | panic (msg : String)
  | setDefaultThrottleConfig (config : ThrottleConfig)
  | setDefaultHttpClientConfig (config : HttpClientConfig)
  | readClient (domain : String)
  | insertClient (domain : String)
  | readDomain (domain : String)
  | insertDomain (domain : String)

abbrev ProcessSig : Signature where
  Op := ProcessOp
  Ans
    | .panic _ => Empty
    | .setDefaultThrottleConfig _ | .setDefaultHttpClientConfig _ => Unit
    | .readClient _ => Option ClientRef
    | .insertClient _ => ClientRef
    | .readDomain _ => Option DomainRef
    | .insertDomain _ => DomainRef

/-- A panic of the constructor. -/
def buildPanic {α : Type} (msg : String) : Program ProcessSig α := .op (.panic msg) nofun

/-- `domain_throttle`: a look-up under the read lock, then an insertion under the write lock. -/
def domainThrottle (domain : String) : Program ProcessSig DomainRef :=
  .op (.readDomain domain) fun found =>
    match found with
    | some state => .ret state
    | none => .op (.insertDomain domain) .ret

/-- `shared_client_for_domain`. -/
def sharedClientForDomain (domain : String) : Program ProcessSig ClientRef :=
  .op (.readClient domain) fun found =>
    match found with
    | some client => .ret client
    | none => .op (.insertClient domain) .ret

/-! ## 3. The transport -/

/-- `Http<reqwest::Client>`. -/
structure HttpTransport where
  client : ClientRef
  url : Url
  deriving DecidableEq, Repr

/-- The vectors of a transport, one entry an endpoint, with the facts the builder keeps. -/
structure EndpointTable where
  endpoints : List HttpTransport
  endpointThrottles : List DomainRef
  endpointRequestCaps : List (Option Nat)
  endpointInFlight : List (Option Nat)
  cumulativeWeights : List UInt64
  totalWeight : UInt64
  throttles_length : endpointThrottles.length = endpoints.length
  caps_length : endpointRequestCaps.length = endpoints.length
  inFlight_length : endpointInFlight.length = endpoints.length
  weights_length : cumulativeWeights.length = endpoints.length
  caps_pos : ∀ limit, some limit ∈ endpointRequestCaps → 0 < limit
  inFlight_pos : ∀ limit, some limit ∈ endpointInFlight → 0 < limit
  increasing : (0 :: cumulativeWeights).Pairwise (· < ·)
  total_last : (0 :: cumulativeWeights).getLast? = some totalWeight

/-- An increasing list is bounded by its last entry. -/
theorem le_last_of_increasing {ws : List UInt64} {last : UInt64} (h : ws.Pairwise (· < ·))
    (hlast : ws.getLast? = some last) {w : UInt64} (hw : w ∈ ws) : w ≤ last := by
  obtain ⟨init, rfl⟩ := List.getLast?_eq_some_iff.mp hlast
  rcases List.mem_append.mp hw with hw | hw
  · exact UInt64.le_of_lt ((List.pairwise_append.mp h).2.2 w hw last (List.mem_singleton_self _))
  · exact UInt64.le_of_eq (List.mem_singleton.mp hw)

/-- The empty vectors. -/
def EndpointTable.empty : EndpointTable :=
  ⟨[], [], [], [], [], 0, rfl, rfl, rfl, rfl, nofun, nofun, by decide, rfl⟩

/-- One more endpoint, of positive weight, cap and limit. -/
def EndpointTable.push (table : EndpointTable) (transport : HttpTransport) (throttle : DomainRef)
    (cap limit : Option Nat) (total : UInt64) (htotal : table.totalWeight < total)
    (hcap : ∀ bytes, cap = some bytes → 0 < bytes) (hlimit : ∀ k, limit = some k → 0 < k) :
    EndpointTable where
  endpoints := table.endpoints ++ [transport]
  endpointThrottles := table.endpointThrottles ++ [throttle]
  endpointRequestCaps := table.endpointRequestCaps ++ [cap]
  endpointInFlight := table.endpointInFlight ++ [limit]
  cumulativeWeights := table.cumulativeWeights ++ [total]
  totalWeight := total
  throttles_length := by simp [table.throttles_length]
  caps_length := by simp [table.caps_length]
  inFlight_length := by simp [table.inFlight_length]
  weights_length := by simp [table.weights_length]
  caps_pos bytes h := by
    rcases List.mem_append.mp h with h | h
    · exact table.caps_pos bytes h
    · exact hcap bytes (List.mem_singleton.mp h).symm
  inFlight_pos k h := by
    rcases List.mem_append.mp h with h | h
    · exact table.inFlight_pos k h
    · exact hlimit k (List.mem_singleton.mp h).symm
  increasing := by
    rw [← List.cons_append, List.pairwise_append]
    refine ⟨table.increasing, List.pairwise_singleton _ _, fun w hw t ht => ?_⟩
    rw [List.mem_singleton.mp ht]
    exact UInt64.lt_of_le_of_lt (le_last_of_increasing table.increasing table.total_last hw) htotal
  total_last := by rw [← List.cons_append, List.getLast?_concat]

/-- `LoadBalancedTransport` (its counter lives in the shared state). -/
structure LoadBalancedTransport extends EndpointTable where
  config : BalancerConfig
  nonempty : endpoints ≠ []

/-! ## 4. The builder -/

/-- The domain key of a URL in `build`. -/
def endpointDomain (url : Url) : Program ProcessSig String :=
  match extractRateLimitDomain (url.host.getD "unknown") with
  | some domain => .ret domain
  | none => buildPanic "byte index is not a char boundary"

/-- `throttles_by_domain.entry(domain).or_insert_with(|| domain_throttle(&domain))`. -/
def cachedThrottle (throttlesByDomain : List (String × DomainRef)) (domain : String) :
    Program ProcessSig (DomainRef × List (String × DomainRef)) :=
  match throttlesByDomain.lookup domain with
  | some throttle => .ret (throttle, throttlesByDomain)
  | none => do
    let throttle ← domainThrottle domain
    return (throttle, (domain, throttle) :: throttlesByDomain)

theorem totalWeight_lt {total : UInt64} {weight : UInt32} (hw : 0 < weight)
    (h : total.toNat + weight.toNat < 2 ^ 64) : total < total + weight.toUInt64 := by
  rw [UInt64.lt_iff_toNat_lt, UInt64.toNat_add, UInt32.toNat_toUInt64, Nat.mod_eq_of_lt h]
  have := UInt32.lt_iff_toNat_lt.mp hw
  exact Nat.lt_add_of_pos_right this

/-- `Semaphore::MAX_PERMITS`, that is `usize::MAX >> 3` (a `usize` of 64 bits): with more permits
    `Semaphore::new` panics. -/
def maxPermits : Nat := 2 ^ 61 - 1

/-- The vectors with `n` endpoints. -/
abbrev EndpointTable.OfLength (n : Nat) := { table : EndpointTable // table.endpoints.length = n }

/-- The loop of `build`, over the endpoints still to add. -/
def addEndpoints (throttlesByDomain : List (String × DomainRef)) (table : EndpointTable) :
    (rest : List EndpointConfig) →
      Program ProcessSig (EndpointTable.OfLength (table.endpoints.length + rest.length))
  | [] => .ret ⟨table, rfl⟩
  | endpoint :: rest =>
    if hw : 0 < endpoint.weight.value then
      if hcap : ∀ bytes, endpoint.maxRequestBytes = some bytes → 0 < bytes then
        if hlimit : ∀ k, endpoint.maxInFlight = some k → 0 < k then
          if hsum : table.totalWeight.toNat + endpoint.weight.value.toNat < 2 ^ 64 then do
            let domain ← endpointDomain endpoint.url
            let client ← sharedClientForDomain domain
            let (throttle, throttlesByDomain) ← cachedThrottle throttlesByDomain domain
            -- the gate is made last, when the domain is registered already
            if ∀ k, endpoint.maxInFlight = some k → k ≤ maxPermits then do
              let table' := table.push ⟨client, endpoint.url⟩ throttle endpoint.maxRequestBytes
                endpoint.maxInFlight (table.totalWeight + endpoint.weight.value.toUInt64)
                (totalWeight_lt hw hsum) hcap hlimit
              let full ← addEndpoints throttlesByDomain table' rest
              return ⟨full.val, full.property.trans (by simp [table', EndpointTable.push]; omega)⟩
            else
              buildPanic
                "a semaphore may not have more than MAX_PERMITS permits (2305843009213693951)"
          else buildPanic "total endpoint weight exceeds u64::MAX"
        else buildPanic "endpoint max_in_flight must be > 0 when set"
      else buildPanic "endpoint max_request_bytes must be > 0 when set"
    else buildPanic "endpoint weight must be > 0"

/-- The defaults `build` sets before it looks at the endpoints. -/
def applyGlobalConfigs (b : LoadBalancedTransportBuilder) : Program ProcessSig Unit := do
  match b.throttleConfig with
  | some config => .op (.setDefaultThrottleConfig config) .ret
  | none => pure ()
  match b.httpClientConfig with
  | some config => .op (.setDefaultHttpClientConfig config) .ret
  | none => pure ()

/-- `LoadBalancedTransportBuilder::build`. -/
def build (b : LoadBalancedTransportBuilder) : Program ProcessSig LoadBalancedTransport := do
  applyGlobalConfigs b
  if h : b.endpoints = [] then
    buildPanic "at least one endpoint required"
  else
    let table ← addEndpoints [] .empty b.endpoints
    return { table.val with
      config := b.config
      nonempty := fun e => h (List.length_eq_zero_iff.mp (by
        simpa [e, EndpointTable.empty] using table.property.symm)) }

/-- **The transports `build` returns**, from any state of the registries. -/
def LoadBalancedTransport.Built (t : LoadBalancedTransport) : Prop := ∃ b tr, Runs (build b) tr t

/-- The vectors carry what the endpoints `configs` ask for. -/
structure EndpointTable.Carries (table : EndpointTable) (configs : List EndpointConfig) : Prop where
  urls : table.endpoints.map HttpTransport.url = configs.map EndpointConfig.url
  caps : table.endpointRequestCaps = configs.map EndpointConfig.maxRequestBytes
  limits : table.endpointInFlight = configs.map EndpointConfig.maxInFlight

theorem buildPanic_follows {α Γ : Type} {P : Protocol ProcessSig Γ} {γ : Γ} (msg : String)
    (hpanic : P.ok γ (.panic msg)) (Q : Γ → α → Prop) : (buildPanic msg).Follows P γ Q :=
  ⟨hpanic, nofun⟩

/-- **The rule of the loop**: what the loop keeps while it adds one endpoint holds at its end. -/
theorem addEndpoints_follows {Γ : Type} {P : Protocol ProcessSig Γ}
    (hpanic : ∀ γ msg, P.ok γ (.panic msg))
    {R : Γ → List (String × DomainRef) → EndpointTable → List EndpointConfig → Prop}
    (hadd : ∀ γ cache table done endpoint total htotal hcap hlimit, R γ cache table done →
      total.toNat = table.totalWeight.toNat + endpoint.weight.value.toNat →
      (endpointDomain endpoint.url).Follows P γ fun γ domain =>
        (sharedClientForDomain domain).Follows P γ fun γ client =>
          (cachedThrottle cache domain).Follows P γ fun γ entry =>
            R γ entry.2 (table.push ⟨client, endpoint.url⟩ entry.1 endpoint.maxRequestBytes
              endpoint.maxInFlight total htotal hcap hlimit) (done ++ [endpoint]))
    (rest : List EndpointConfig) : ∀ γ cache table done, R γ cache table done →
      (addEndpoints cache table rest).Follows P γ fun γ full =>
        ∃ cache, R γ cache full.val (done ++ rest) := by
  induction rest with
  | nil =>
    intro γ cache table done h
    rw [List.append_nil]
    exact ⟨cache, h⟩
  | cons endpoint rest ih =>
    intro γ cache table done h
    unfold addEndpoints
    split
    · split
      · split
        · split
          · rename_i hw hcap hlimit hsum
            have htotal : (table.totalWeight + endpoint.weight.value.toUInt64).toNat =
                table.totalWeight.toNat + endpoint.weight.value.toNat := by
              rw [UInt64.toNat_add, UInt32.toNat_toUInt64, Nat.mod_eq_of_lt hsum]
            refine (hadd γ cache table done endpoint _ (totalWeight_lt hw hsum) hcap hlimit h
              htotal).bind fun γ domain hclient => ?_
            refine hclient.bind fun γ client hthrottle => ?_
            refine hthrottle.bind fun γ entry hentry => ?_
            obtain ⟨throttle, cache'⟩ := entry
            dsimp only
            split
            · refine (ih γ cache' _ (done ++ [endpoint]) hentry).bind fun γ full hfull => ?_
              rw [List.append_assoc] at hfull
              exact hfull
            · exact buildPanic_follows _ (hpanic γ _) _
          · exact buildPanic_follows _ (hpanic γ _) _
        · exact buildPanic_follows _ (hpanic γ _) _
      · exact buildPanic_follows _ (hpanic γ _) _
    · exact buildPanic_follows _ (hpanic γ _) _

/-- The registry steps for one endpoint, under any answers. -/
theorem registry_ensures (url : Url) (cache : List (String × DomainRef)) :
    (endpointDomain url).Ensures fun domain => (sharedClientForDomain domain).Ensures fun _ =>
      (cachedThrottle cache domain).Ensures fun _ => True := by
  have hthrottle : ∀ domain, (cachedThrottle cache domain).Ensures fun _ => True := by
    intro domain
    unfold cachedThrottle
    split
    · exact trivial
    · refine ⟨trivial, fun found _ => ?_⟩
      cases found with
      | some => exact trivial
      | none => exact ⟨trivial, fun _ _ => trivial⟩
  unfold endpointDomain
  split
  · refine ⟨trivial, fun found _ => ?_⟩
    cases found with
    | some => exact hthrottle _
    | none => exact ⟨trivial, fun _ _ => hthrottle _⟩
  · exact buildPanic_follows _ trivial _

/-- **The rule of `build`**, for what looks at no answer of the registries: what adding one endpoint
    keeps holds of a built transport. -/
theorem build_ensures {R : EndpointTable → List EndpointConfig → Prop}
    (hadd : ∀ table done (endpoint : EndpointConfig) client throttle total htotal hcap hlimit,
      R table done → total.toNat = table.totalWeight.toNat + endpoint.weight.value.toNat →
        R (table.push ⟨client, endpoint.url⟩ throttle endpoint.maxRequestBytes endpoint.maxInFlight
          total htotal hcap hlimit) (done ++ [endpoint]))
    (hempty : R .empty []) {b : LoadBalancedTransportBuilder} {tr : Trace ProcessSig}
    {t : LoadBalancedTransport} (hr : Runs (build b) tr t) :
    R t.toEndpointTable b.endpoints ∧ t.config = b.config := by
  refine Program.Ensures.runs (Q := fun t : LoadBalancedTransport =>
    R t.toEndpointTable b.endpoints ∧ t.config = b.config) ?_ hr
  have hglobal : (applyGlobalConfigs b).Ensures fun _ => True :=
    Program.follows_of_free (fun _ _ => trivial) _ _
  have hloop := addEndpoints_follows (P := anyProtocol) (R := fun _ _ => R) (fun _ _ => trivial)
    (fun _ cache table done endpoint total htotal hcap hlimit h hsum =>
      (registry_ensures endpoint.url cache).mono fun _ _ hclient =>
        hclient.mono fun _ client hthrottle => hthrottle.mono fun _ entry _ =>
          hadd table done endpoint client entry.1 total htotal hcap hlimit h hsum)
    b.endpoints () [] .empty [] hempty
  unfold build
  refine hglobal.bind fun _ _ => ?_
  split
  · exact buildPanic_follows _ trivial _
  · exact hloop.bind fun _ _ h => ⟨h.elim fun _ h => h, rfl⟩

/-- **A built transport is what was configured**: its endpoints with their caps and limits, in
    order, and the configuration of the builder. -/
theorem build_carries {b : LoadBalancedTransportBuilder} {tr : Trace ProcessSig}
    {t : LoadBalancedTransport} (hr : Runs (build b) tr t) :
    t.toEndpointTable.Carries b.endpoints ∧ t.config = b.config := by
  refine build_ensures (R := EndpointTable.Carries) ?_ ⟨rfl, rfl, rfl⟩ hr
  intro table done endpoint client throttle total htotal hcap hlimit h _
  exact ⟨by simp [EndpointTable.push, h.urls], by simp [EndpointTable.push, h.caps],
    by simp [EndpointTable.push, h.limits]⟩

/-! ## 5. Endpoints of a transport -/

/-- `partition_point`: the index of the first entry past the predicate. -/
def partitionPoint {α : Type} (p : α → Bool) (xs : List α) : Nat := xs.findIdx fun x => !p x

namespace LoadBalancedTransport

/-- `this.endpoints.len()`. -/
def numEndpoints (t : LoadBalancedTransport) : Nat := t.endpoints.length

theorem numEndpoints_pos (t : LoadBalancedTransport) : 0 < t.numEndpoints :=
  List.length_pos_iff.mpr t.nonempty

/-- `endpoint_accepts_request` (indices are below the number of endpoints, where the caps have an
    entry). -/
def endpointAcceptsRequest (t : LoadBalancedTransport) (index requestBytes : Nat) : Bool :=
  (t.endpointRequestCaps.getD index none).all fun limit => decide (requestBytes ≤ limit)

/-- The permits of the endpoint's in-flight gate, `none` without a gate. -/
def inFlightLimit (t : LoadBalancedTransport) (index : Nat) : Option Nat :=
  t.endpointInFlight.getD index none

/-- `select_endpoint` once the counter has answered `tick`. -/
def endpointOfTick (t : LoadBalancedTransport) (tick : UInt64) : Nat :=
  let bucket := tick % t.totalWeight
  partitionPoint (fun w => decide (w ≤ bucket)) t.cumulativeWeights

/-- An endpoint of a built transport has the cap and the gate it was configured with. -/
theorem built_endpoint {b : LoadBalancedTransportBuilder} {tr : Trace ProcessSig}
    {t : LoadBalancedTransport} (hr : Runs (build b) tr t) {index : Nat} {endpoint : EndpointConfig}
    (h : b.endpoints[index]? = some endpoint) :
    t.inFlightLimit index = endpoint.maxInFlight ∧ ∀ requestBytes,
      t.endpointAcceptsRequest index requestBytes =
        endpoint.maxRequestBytes.all fun limit => decide (requestBytes ≤ limit) := by
  obtain ⟨hcarries, _⟩ := build_carries hr
  unfold inFlightLimit endpointAcceptsRequest
  simp [hcarries.caps, hcarries.limits, h]

end LoadBalancedTransport

end TransportBalancer
