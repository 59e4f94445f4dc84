/-
  File:      TransportBalancer/Throttle/Observers.lean
  Subject:   OBSERVING THE THROTTLE (`throttle_snapshot`, `log_throttle_summary`,
             `max_domain_backoff`, `weighted_domain_backoff`) next to the calls that record and
             read. The observers go through `pre_request_delay`, which writes the decayed level.

  * `Observer.program` -- the four observers over the registered domains;
  * `World`, `Turn` -- clients and observers over the domain states, one atomic step of one of them
    at a time, each with its clock reading;
  * `visit_unchanged_iff` -- when a visit writes nothing; `undisturbed` -- no observer decays a
    positive level;
  * **`observers_unnoticed`** -- then every client goes the same way as without observers, for any
    order of steps; `observed_delay_differs`: else it may not.
-/
import TransportBalancer.Throttle.Threads

namespace TransportBalancer

open Interaction MachineWord

/-! ## 1. Operations on registered domains -/

/-- Atomic steps on the states of the registered domains. -/
abbrev DomainSig : Signature where
  Op := String × AtomicOp
  Ans e := AtomicSig.Ans e.2

/-- An operation on the state of one domain. -/
def onDomain {α : Type} (domain : String) (p : Program AtomicSig α) : Program DomainSig α :=
  p.expand fun e => .op (domain, e) .ret

/-- The calls that record and read, each on a domain; a read answers its delay. -/
abbrev ThrottleSig : Signature where
  Op := String × ThrottleCall
  Ans
    | (_, .delay) => Duration
    | (_, .rateLimit) | (_, .batchRejection) | (_, .success) => Unit

section Registry

variable (configOf : String → ThrottleConfig)

/-- The operation a call makes. -/
def callProgram : (e : ThrottleSig.Op) → Program DomainSig (ThrottleSig.Ans e)
  | (domain, .rateLimit) => onDomain domain (recordRateLimit (configOf domain))
  | (domain, .batchRejection) => onDomain domain (recordBatchRejection (configOf domain))
  | (domain, .success) => onDomain domain (recordSuccess (configOf domain))
  | (domain, .delay) => onDomain domain (preRequestDelay (configOf domain))

/-! ## 2. The observers -/

/-- `DomainThrottleSnapshot`. -/
structure DomainThrottleSnapshot where
  domain : String
  backoffLevel : UInt32
  delayMs : UInt64
  totalRateLimits : UInt64
  totalSuccesses : UInt64
  totalSkips : UInt64

/-- `throttle_snapshot`, over the registered domains in the order the map yields them. -/
def throttleSnapshot : List String → Program DomainSig (List DomainThrottleSnapshot)
  | [] => return []
  | domain :: rest => do
    let backoffLevel ← onDomain domain (load32 .backoffLevel)
    let delay ← onDomain domain (preRequestDelay (configOf domain))
    let totalRateLimits ← onDomain domain (load64 .totalRateLimits)
    let totalSuccesses ← onDomain domain (load64 .totalSuccesses)
    let totalSkips ← onDomain domain (load64 .totalSkips)
    let snaps ← throttleSnapshot rest
    return ⟨domain, backoffLevel, .ofNat delay.asMillis, totalRateLimits, totalSuccesses,
      totalSkips⟩ :: snaps

/-- A line of the summary. -/
inductive SummaryLine where
  | status (snap : DomainThrottleSnapshot)
  | healthy (domain : String) (totalOk : UInt64)

/-- `log_throttle_summary`, with the lines it logs. -/
def logThrottleSummary (domains : List String) : Program DomainSig (List SummaryLine) := do
  let snaps ← throttleSnapshot configOf domains
  return snaps.map fun snap =>
    if 0 < snap.totalRateLimits ∨ 0 < snap.backoffLevel then .status snap
    else .healthy snap.domain snap.totalSuccesses

/-- The delays of the domains. -/
def domainDelays : List String → Program DomainSig (List Duration)
  | [] => return []
  | domain :: rest => do
    let delay ← onDomain domain (preRequestDelay (configOf domain))
    let delays ← domainDelays rest
    return delay :: delays

/-- `max_domain_backoff`. -/
def maxDomainBackoff (domains : List String) : Program DomainSig Duration := do
  let delays ← domainDelays configOf domains
  return delays.max?.getD Duration.zero

/-- `a * b`, which panics on overflow (with overflow checks; without them it wraps). -/
def checkedMul64 (a b : UInt64) : Program AtomicSig UInt64 :=
  if a.toNat * b.toNat < 2 ^ 64 then return a * b
  else throwPanic "attempt to multiply with overflow"

/-- `a + b`, likewise. -/
def checkedAdd64 (a b : UInt64) : Program AtomicSig UInt64 :=
  if a.toNat + b.toNat < 2 ^ 64 then return a + b
  else throwPanic "attempt to add with overflow"

/-- The loop of `weighted_domain_backoff`, with its two sums. -/
def weightedSums (totalWeight weightedDelay : UInt64) :
    List String → Program DomainSig (UInt64 × UInt64)
  | [] => return (totalWeight, weightedDelay)
  | domain :: rest => do
    let successes ← onDomain domain (load64 .totalSuccesses)
    let delay ← onDomain domain (preRequestDelay (configOf domain))
    let weight := max successes 1
    let weighted ← onDomain domain (checkedMul64 (.ofNat delay.asMillis) weight)
    let weightedDelay ← onDomain domain (checkedAdd64 weightedDelay weighted)
    let totalWeight ← onDomain domain (checkedAdd64 totalWeight weight)
    weightedSums totalWeight weightedDelay rest

/-- `weighted_domain_backoff`. -/
def weightedDomainBackoff (domains : List String) : Program DomainSig Duration := do
  let (totalWeight, weightedDelay) ← weightedSums configOf 0 0 domains
  return if totalWeight = 0 then Duration.zero else .fromMillis (weightedDelay / totalWeight)

/-- An observer call, with the order in which it visits the registered domains. -/
inductive Observer where
  | throttleSnapshot (domains : List String)
  | logThrottleSummary (domains : List String)
  | maxDomainBackoff (domains : List String)
  | weightedDomainBackoff (domains : List String)

/-- What an observer returns or logs. -/
inductive Observation where
  | snapshot (snaps : List DomainThrottleSnapshot)
  | summary (lines : List SummaryLine)
  | backoff (delay : Duration)

/-- The program of an observer. -/
def Observer.program : Observer → Program DomainSig Observation
  | .throttleSnapshot domains => do
    return .snapshot (← TransportBalancer.throttleSnapshot configOf domains)
  | .logThrottleSummary domains => do
    return .summary (← TransportBalancer.logThrottleSummary configOf domains)
  | .maxDomainBackoff domains => do
    return .backoff (← TransportBalancer.maxDomainBackoff configOf domains)
  | .weightedDomainBackoff domains => do
    return .backoff (← TransportBalancer.weightedDomainBackoff configOf domains)

end Registry

/-! ## 3. Clients and observers -/

/-- The states of the domains, and what each client and each observer still has to do. -/
structure World (α : Type) where
  states : String → DomainThrottleState
  clients : List (Program DomainSig α)
  observers : List (Program DomainSig Observation)

/-- Who takes the next atomic step, and what the clock reads then. -/
inductive Turn where
  | client (i : Nat) (now : UInt64)
  | observer (j : Nat) (now : UInt64)

/-- The turn is a client's. -/
def Turn.isClient : Turn → Bool
  | .client _ _ => true
  | .observer _ _ => false

/-- One atomic step of a program; none once it has ended or panics. -/
def atomicStep {α : Type} (now : UInt64) (states : String → DomainThrottleState) :
    Program DomainSig α → Option ((String → DomainThrottleState) × Program DomainSig α)
  | .ret _ => none
  | .op e k => (atomicHandler now e.2 (states e.1)).map fun x =>
      (Function.update states e.1 x.2, k x.1)

/-- The clients are any programs over the calls: what they do next may rest on the delays read. -/
def World.start {α : Type} (configOf : String → ThrottleConfig)
    (states : String → DomainThrottleState) (clients : List (Program ThrottleSig α))
    (observers : List Observer) : World α :=
  ⟨states, clients.map fun p => p.expand (callProgram configOf),
    observers.map (Observer.program configOf)⟩

/-- One turn. -/
def World.turn {α : Type} (w : World α) : Turn → World α
  | .client i now =>
    match w.clients[i]?.bind (atomicStep now w.states) with
    | some (states, rest) => { w with states := states, clients := w.clients.set i rest }
    | none => w
  | .observer j now =>
    match w.observers[j]?.bind (atomicStep now w.states) with
    | some (states, rest) => { w with states := states, observers := w.observers.set j rest }
    | none => w

/-- A run of turns. -/
def World.play {α : Type} (w : World α) (turns : List Turn) : World α := turns.foldl World.turn w

/-- The turn is an observer's decaying `fetch_update`, on a positive level. -/
def World.decays {α : Type} (w : World α) : Turn → Bool
  | .client _ _ => false
  | .observer j _ =>
    match w.observers[j]? with
    | some (.op (domain, .fetchUpdate32 .backoffLevel _) _) =>
      decide (0 < (w.states domain).backoffLevel)
    | _ => false

/-- **No observer decays a positive level** in the run. -/
def World.undisturbed {α : Type} : World α → List Turn → Bool
  | _, [] => true
  | w, t :: turns => !w.decays t && (w.turn t).undisturbed turns

/-! ## 4. What an observer can do -/

/-- An observer reads, or decays the level. -/
def AtomicOp.Observes : AtomicOp → Prop
  | .panic _ | .nowMillis | .load32 _ | .load64 _ => True
  | .fetchUpdate32 .backoffLevel f => ∃ n, f = decayBy n
  | _ => False

/-- The atomic steps of an observer. -/
abbrev ObservesDomain (e : DomainSig.Op) : Prop := e.2.Observes

theorem throwPanic_observes {α : Type} (msg : String) :
    (throwPanic msg : Program AtomicSig α).Performs AtomicOp.Observes :=
  ⟨trivial, fun x _ => Empty.elim x⟩

theorem checkedMul64_observes (a b : UInt64) : (checkedMul64 a b).Performs AtomicOp.Observes := by
  unfold checkedMul64
  split
  · exact trivial
  · exact throwPanic_observes _

theorem checkedAdd64_observes (a b : UInt64) : (checkedAdd64 a b).Performs AtomicOp.Observes := by
  unfold checkedAdd64
  split
  · exact trivial
  · exact throwPanic_observes _

theorem decayStep_observes (config : ThrottleConfig) (lastRl : UInt64) :
    (decayStep config lastRl).Performs AtomicOp.Observes := by
  unfold decayStep
  by_cases hlast : 0 < lastRl
  · rw [if_pos hlast, nowMillis_bind]
    refine ⟨trivial, fun now _ => ?_⟩
    unfold checkedDiv64
    dsimp only
    by_cases hD : config.decayIntervalMs = 0
    · rw [if_pos hD, throwPanic_bind]
      exact throwPanic_observes _
    · rw [if_neg hD, pure_bind]
      split
      · exact ⟨⟨_, rfl⟩, fun _ _ => trivial⟩
      · exact trivial
  · rw [if_neg hlast]
    exact trivial

theorem preRequestDelay_observes (config : ThrottleConfig) :
    (preRequestDelay config).Performs AtomicOp.Observes := by
  unfold preRequestDelay
  rw [load32_bind]
  refine ⟨trivial, fun level _ => ?_⟩
  dsimp only
  by_cases h0 : level = 0
  · rw [if_pos h0]
    exact trivial
  · rw [if_neg h0, load64_bind]
    refine ⟨trivial, fun lastRl _ => ?_⟩
    exact (decayStep_observes config lastRl).bind fun _ => ⟨trivial, fun _ _ => trivial⟩

theorem onDomain_observes {α : Type} (domain : String) {p : Program AtomicSig α}
    (h : p.Performs AtomicOp.Observes) : (onDomain domain p).Performs ObservesDomain := by
  refine Program.Performs.expand (fun e he => ?_) h
  exact ⟨he, fun _ _ => trivial⟩

/-- **A visit leaves the state** exactly if the level is zero, no timestamp is set, or no interval
    has elapsed since. -/
theorem visit_unchanged_iff {config : ThrottleConfig} (hD : config.decayIntervalMs ≠ 0)
    (now : UInt64) (s : DomainThrottleState) :
    (∃ delay, (preRequestDelay config).eval (atomicHandler now) s = some (delay, s)) ↔
      s.backoffLevel = 0 ∨ s.lastRateLimitAt = 0 ∨
        decayable config now s.lastRateLimitAt = 0 := by
  have hlevel : (∃ delay, (preRequestDelay config).eval (atomicHandler now) s = some (delay, s)) ↔
      levelAfterRead config now s = s.backoffLevel := by
    rw [preRequestDelay_eval hD]
    constructor
    · intro h
      obtain ⟨delay, heq⟩ := h
      exact congrArg DomainThrottleState.backoffLevel (Prod.mk.inj (Option.some.inj heq)).2
    · intro h
      rw [h]
      exact ⟨_, rfl⟩
  rw [hlevel]
  unfold levelAfterRead
  by_cases hlast : 0 < s.lastRateLimitAt
  · rw [if_pos hlast, ← UInt32.toNat_inj, toNat_decayBy, eq_zero_iff32, eq_zero_iff64,
      eq_zero_iff32]
    rw [pos_iff64] at hlast
    omega
  · rw [if_neg hlast]
    rw [pos_iff64] at hlast
    exact iff_of_true rfl (Or.inr (Or.inl (eq_zero_iff64.mpr (by omega))))

section Observers

variable (configOf : String → ThrottleConfig)

theorem delay_observes (domain : String) :
    (onDomain domain (preRequestDelay (configOf domain))).Performs ObservesDomain :=
  onDomain_observes domain (preRequestDelay_observes _)

theorem load_observes (domain : String) (c : Cell64) :
    (onDomain domain (load64 c)).Performs ObservesDomain := ⟨trivial, fun _ _ => trivial⟩

theorem throttleSnapshot_observes (domains : List String) :
    (throttleSnapshot configOf domains).Performs ObservesDomain := by
  induction domains with
  | nil => exact trivial
  | cons domain rest ih =>
    have hlevel : (onDomain domain (load32 .backoffLevel)).Performs ObservesDomain :=
      ⟨trivial, fun _ _ => trivial⟩
    refine hlevel.bind fun _ => ?_
    refine (delay_observes configOf domain).bind fun _ => ?_
    refine (load_observes domain _).bind fun _ => (load_observes domain _).bind fun _ => ?_
    exact (load_observes domain _).bind fun _ => ih.bind fun _ => trivial

theorem domainDelays_observes (domains : List String) :
    (domainDelays configOf domains).Performs ObservesDomain := by
  induction domains with
  | nil => exact trivial
  | cons domain rest ih =>
    exact (delay_observes configOf domain).bind fun _ => ih.bind fun _ => trivial

theorem weightedSums_observes (domains : List String) : ∀ totalWeight weightedDelay,
    (weightedSums configOf totalWeight weightedDelay domains).Performs ObservesDomain := by
  induction domains with
  | nil => exact fun _ _ => trivial
  | cons domain rest ih =>
    intro totalWeight weightedDelay
    refine (load_observes domain _).bind fun _ => (delay_observes configOf domain).bind fun _ => ?_
    refine (onDomain_observes domain (checkedMul64_observes _ _)).bind fun _ => ?_
    refine (onDomain_observes domain (checkedAdd64_observes _ _)).bind fun _ => ?_
    exact (onDomain_observes domain (checkedAdd64_observes _ _)).bind fun _ => ih _ _

/-- **An observer only reads and decays.** -/
theorem observer_observes (observer : Observer) :
    (observer.program configOf).Performs ObservesDomain := by
  cases observer with
  | throttleSnapshot domains =>
    exact (throttleSnapshot_observes configOf domains).bind fun _ => trivial
  | logThrottleSummary domains =>
    have h : (logThrottleSummary configOf domains).Performs ObservesDomain :=
      (throttleSnapshot_observes configOf domains).bind fun _ => trivial
    exact h.bind fun _ => trivial
  | maxDomainBackoff domains =>
    have h : (maxDomainBackoff configOf domains).Performs ObservesDomain :=
      (domainDelays_observes configOf domains).bind fun _ => trivial
    exact h.bind fun _ => trivial
  | weightedDomainBackoff domains =>
    have h : (weightedDomainBackoff configOf domains).Performs ObservesDomain :=
      (weightedSums_observes configOf domains 0 0).bind fun _ => trivial
    exact h.bind fun _ => trivial

end Observers

/-! ## 5. Runs with and without observers -/

section Runs

variable {α : Type} {w w' : World α}

/-- The world of a run with observers against the one of the same run without. -/
structure Unnoticed (w w' : World α) : Prop where
  states : w.states = w'.states
  clients : w.clients = w'.clients
  observes : ∀ p ∈ w.observers, p.Performs ObservesDomain

/-- **What an observer's step does**: it leaves the state, or decays its level. -/
theorem observes_cases {e : AtomicOp} (he : e.Observes) {now : UInt64}
    {s s' : DomainThrottleState} {r : AtomicSig.Ans e}
    (h : atomicHandler now e s = some (r, s')) :
    s' = s ∨ ∃ n, e = .fetchUpdate32 .backoffLevel (decayBy n) ∧
      s' = { s with backoffLevel := decayBy n s.backoffLevel } := by
  cases e with
  | panic => cases h
  | nowMillis | load32 | load64 =>
    cases h
    exact Or.inl rfl
  | store32 | store64 | fetchAdd32 | fetchAdd64 => exact he.elim
  | fetchUpdate32 c f =>
    cases c with
    | consecutiveSuccesses => exact he.elim
    | backoffLevel =>
      obtain ⟨n, rfl⟩ := he
      cases h
      exact Or.inr ⟨n, rfl, rfl⟩

/-- A step that reads, or decays a level of zero, leaves the state. -/
theorem observes_effect {e : AtomicOp} (he : e.Observes) {now : UInt64}
    {s s' : DomainThrottleState} {r : AtomicSig.Ans e} (h : atomicHandler now e s = some (r, s'))
    (hzero : ∀ f, e = .fetchUpdate32 .backoffLevel f → s.backoffLevel = 0) : s' = s := by
  obtain rfl | ⟨n, rfl, rfl⟩ := observes_cases he h
  · rfl
  · have hlevel := hzero _ rfl
    rw [hlevel, decayBy_zero_right, ← hlevel]

/-- An observer's turn that decays no positive level changes nothing. -/
theorem Unnoticed.observer {j : Nat} {now : UInt64} (h : Unnoticed w w')
    (hquiet : w.decays (.observer j now) = false) : Unnoticed (w.turn (.observer j now)) w' := by
  unfold World.turn
  dsimp only
  split
  · rename_i states rest hstep
    obtain ⟨p, hp, hstep⟩ := Option.bind_eq_some_iff.mp hstep
    cases p with
    | ret => cases hstep
    | op e k =>
      obtain ⟨domain, e⟩ := e
      obtain ⟨⟨r, s'⟩, heffect, hx⟩ := Option.map_eq_some_iff.mp hstep
      cases hx
      have hobserves := h.observes _ (List.mem_of_getElem? hp)
      have hsame : s' = w.states domain := by
        refine observes_effect hobserves.1 heffect fun f he => ?_
        subst he
        unfold World.decays at hquiet
        dsimp only at hquiet
        rw [hp] at hquiet
        have := of_decide_eq_false hquiet
        rw [pos_iff32] at this
        rw [eq_zero_iff32]
        omega
      refine ⟨?_, h.clients, fun q hq => ?_⟩
      · rw [hsame, Function.update_eq_self]
        exact h.states
      · rcases List.mem_or_eq_of_mem_set hq with hq | rfl
        · exact h.observes q hq
        · exact hobserves.2 r trivial
  · exact h

/-- A client's turn is the same in both. -/
theorem Unnoticed.client {i : Nat} {now : UInt64} (h : Unnoticed w w') :
    Unnoticed (w.turn (.client i now)) (w'.turn (.client i now)) := by
  unfold World.turn
  dsimp only
  rw [← h.states, ← h.clients]
  split
  · exact ⟨rfl, rfl, h.observes⟩
  · exact ⟨h.states, h.clients, h.observes⟩

/-- **A run without a decay by an observer** is the run of its clients' turns alone. -/
theorem Unnoticed.play (turns : List Turn) : ∀ {w w' : World α}, Unnoticed w w' →
    w.undisturbed turns = true →
    Unnoticed (w.play turns) (w'.play (turns.filter Turn.isClient)) := by
  induction turns with
  | nil => exact fun h _ => h
  | cons t turns ih =>
    intro w w' h hquiet
    unfold World.undisturbed at hquiet
    rw [Bool.and_eq_true, Bool.not_eq_true'] at hquiet
    obtain ⟨hturn, hrest⟩ := hquiet
    cases t with
    | client i now => exact ih h.client hrest
    | observer j now => exact ih (h.observer hturn) hrest

/-- **OBSERVERS GO UNNOTICED** in every run in which none of them decays a positive level: every
    client has read the same delays, returned the same and goes on the same way as in the run of
    the same turns without observers. -/
theorem observers_unnoticed (configOf : String → ThrottleConfig)
    (states : String → DomainThrottleState) (clients : List (Program ThrottleSig α))
    (observers : List Observer) (turns : List Turn)
    (hquiet : (World.start configOf states clients observers).undisturbed turns = true) :
    ((World.start configOf states clients observers).play turns).clients =
        ((World.start configOf states clients []).play (turns.filter Turn.isClient)).clients ∧
      ((World.start configOf states clients observers).play turns).states =
        ((World.start configOf states clients []).play (turns.filter Turn.isClient)).states := by
  have hstart : Unnoticed (World.start configOf states clients observers)
      (World.start configOf states clients []) := by
    refine ⟨rfl, rfl, fun p hp => ?_⟩
    obtain ⟨observer, _, rfl⟩ := List.mem_map.mp hp
    exact observer_observes configOf observer
  have hsame := Unnoticed.play turns hstart hquiet
  exact ⟨hsame.clients, hsame.states⟩

end Runs

/-! ## 6. A snapshot between the rate limits and the read -/

section Example

/-- Three rate limits of a domain, then a read. -/
def limitedReader (domain : String) : Program ThrottleSig Duration := do
  let _ ← Program.perform (S := ThrottleSig) (domain, .rateLimit)
  let _ ← Program.perform (S := ThrottleSig) (domain, .rateLimit)
  let _ ← Program.perform (S := ThrottleSig) (domain, .rateLimit)
  Program.perform (S := ThrottleSig) (domain, .delay)

/-- That client on a fresh domain, with observers. -/
def limitedWorld (observers : List Observer) : World Duration :=
  .start (fun _ => .default) (fun _ => .fresh) [limitedReader "alchemy.com"] observers

/-- The rate limits at 1000000, all of the observer at `seen`, the read at 1025000. -/
def watchedAt (seen : UInt64) : List Turn :=
  List.replicate 15 (.client 0 1000000) ++ List.replicate 9 (.observer 0 seen) ++
    List.replicate 5 (.client 0 1025000)

/-- The nanoseconds of the delays the clients have returned. -/
def World.delays (w : World Duration) : List (Option Nat) :=
  w.clients.map fun p =>
    match p with
    | .ret delay => some delay.nanos
    | .op _ _ => none

/-- A snapshot before the first interval is over: the read finds 50 ms, as it does without it. -/
theorem observers_unnoticed_early :
    ((limitedWorld [.throttleSnapshot ["alchemy.com"]]).play (watchedAt 1005000)).clients =
        ((limitedWorld []).play ((watchedAt 1005000).filter Turn.isClient)).clients ∧
      ((limitedWorld []).play ((watchedAt 1005000).filter Turn.isClient)).delays =
        [some 50000000] :=
  ⟨(observers_unnoticed _ _ _ _ _ (by decide +kernel)).1, by decide +kernel⟩

/-- **A snapshot is noticed** once an interval is over: it drops the two levels due, and the read
    drops them again and finds no delay. -/
theorem observed_delay_differs :
    ¬ ∀ (configOf : String → ThrottleConfig) (states : String → DomainThrottleState)
        (clients : List (Program ThrottleSig Duration)) (observers : List Observer)
        (turns : List Turn),
        ((World.start configOf states clients observers).play turns).delays =
          ((World.start configOf states clients []).play (turns.filter Turn.isClient)).delays := by
  intro h
  have hseen : ((limitedWorld [.throttleSnapshot ["alchemy.com"]]).play
      (watchedAt 1025000)).delays = [some 0] := by decide +kernel
  have hunseen : ((limitedWorld []).play ((watchedAt 1025000).filter Turn.isClient)).delays =
      [some 50000000] := by decide +kernel
  have hsame := hseen.symm.trans ((h _ _ _ _ (watchedAt 1025000)).trans hunseen)
  exact absurd hsame (by decide)

end Example

end TransportBalancer
