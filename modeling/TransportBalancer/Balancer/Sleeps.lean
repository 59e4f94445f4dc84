/-
  File:      TransportBalancer/Balancer/Sleeps.lean
  Subject:   HOW LONG A CALL SLEEPS AT MOST, whatever other calls do to the domain states and
             whatever its endpoints answer.

  * `preRequestDelay_reading` -- a reading is zero or a delay of the domain's configuration, at
    whatever level other threads leave the state;
  * `tasks_readWithin` -- so are the readings of every call of a reachable pool;
  * **`asleep_at_most`** -- a call sleeps the longest delay and the fail-over delay for each of its
    attempts, and the backoffs between its rounds, no longer.
-/
import TransportBalancer.Balancer.Accounting
import TransportBalancer.Balancer.Costs

namespace TransportBalancer

open Interaction TaskPool

/-! ## 1. Readings -/

/-- A reading is within the longest delay. -/
def WithinDelay (longest : Nat) : (e : CallOp) → CallSig.Ans e → Prop
  | .preRequestDelay _, delay => delay.nanos ≤ longest
  | _, _ => True

/-- **A reading is zero or a delay of the configuration**, whatever is loaded. -/
theorem preRequestDelay_reading (config : ThrottleConfig) :
    (preRequestDelay config).Ensures fun delay =>
      delay = Duration.zero ∨ ∃ level, delay = delayOfLevel config level := by
  have hlast : ∀ u : Unit, (do
      let level ← load32 .backoffLevel
      return delayOfLevel config level).Ensures fun delay =>
        delay = Duration.zero ∨ ∃ level, delay = delayOfLevel config level :=
    fun _ => ⟨trivial, fun level _ => Or.inr ⟨level, rfl⟩⟩
  unfold preRequestDelay
  rw [load32_bind]
  refine ⟨trivial, fun level _ => ?_⟩
  dsimp only
  split
  · exact Or.inl rfl
  · rw [load64_bind]
    exact ⟨trivial, fun lastRl _ => (Program.follows_of_free (fun _ _ => trivial) _ _).bind
      fun _ u _ => hlast u⟩

/-- The operation on a domain state that an effect is answers within the longest delay. -/
theorem stateOp_within {config : ThrottleConfig} {longest : Nat}
    (hlongest : ∀ level, (delayOfLevel config level).nanos ≤ longest) {e : CallOp} {idx : Nat}
    {p : ThrottleConfig → Program AtomicSig (CallSig.Ans e)} (h : e.stateOp? = some (idx, p)) :
    (p config).Ensures (WithinDelay longest e) := by
  cases e with
  | preRequestDelay =>
    cases h
    refine (preRequestDelay_reading config).mono fun _ delay hdelay => ?_
    rcases hdelay with rfl | ⟨level, rfl⟩
    · exact Nat.zero_le longest
    · exact hlongest level
  | recordSkip | recordSuccess | recordRateLimit =>
    cases h
    exact Program.follows_of_free (fun _ _ => trivial) _ _
  | _ => cases h

section Calls

variable {wire : RequestPacket → Option Nat} {configOf : DomainRef → ThrottleConfig}
  {transports : LoadBalancedTransport → Prop} {q : Pool DomainStates TrafficTask}
  {s s' : DomainStates} {c c' : BalancedCall} {longest : Nat}

/-- The delays of the domains of a transport are within the longest. -/
def DelaysWithin (configOf : DomainRef → ThrottleConfig) (longest : Nat)
    (t : LoadBalancedTransport) : Prop :=
  ∀ ref ∈ t.endpointThrottles, ∀ level, (delayOfLevel (configOf ref) level).nanos ≤ longest

/-- **The readings of a call**, had and under way, are within the longest delay. -/
structure BalancedCall.ReadsWithin (longest : Nat) (c : BalancedCall) : Prop where
  had : ∀ ev ∈ c.trace, WithinDelay longest ev.op ev.ans
  underWay : ∀ {e o k}, c.stage = .within e o k → o.rest.Ensures (WithinDelay longest e)

theorem readsWithin_step (hlongest : DelaysWithin configOf longest c.transport)
    (hc : c.ReadsWithin longest) (h : c.Step configOf s s' c') : c'.ReadsWithin longest := by
  cases h with
  | @effect e k r hstage hop =>
    refine ⟨fun ev hev => ?_, nofun⟩
    rcases List.mem_append.mp hev with hev | hev
    · exact hc.had ev hev
    · rw [List.mem_singleton.mp hev]
      cases e with
      | preRequestDelay => cases hop
      | _ => trivial
  | start hstage hop href =>
    refine ⟨hc.had, fun h => ?_⟩
    cases h
    exact stateOp_within (hlongest _ (List.mem_of_getElem? href)) hop
  | atomic hstage hstep =>
    have hway := hc.underWay hstage
    refine ⟨hc.had, fun h => ?_⟩
    cases h
    cases hstep with
    | atomic now hrest heff =>
      rw [hrest] at hway
      exact hway.2 _ trivial
  | finish hstage hrest =>
    have hway := hc.underWay hstage
    rw [hrest] at hway
    refine ⟨fun ev hev => ?_, nofun⟩
    rcases List.mem_append.mp hev with hev | hev
    · exact hc.had ev hev
    · rw [List.mem_singleton.mp hev]
      exact hway
  | panic | unwind | cancel => exact ⟨hc.had, nofun⟩

/-- **Every call of a reachable pool reads within the longest delay** of its domains. -/
theorem tasks_readWithin (hq : (trafficSystem wire configOf transports).Reachable TrafficStart q) :
    ∀ t ∈ q.tasks, ∀ c, t = .call c →
      ∀ longest, DelaysWithin configOf longest c.transport → c.ReadsWithin longest := by
  refine System.Reachable.taskInv (I := fun t => ∀ c, t = .call c →
    ∀ longest, DelaysWithin configOf longest c.transport → c.ReadsWithin longest)
    (fun p hp t ht => ?_) (fun ht hs => ?_) (fun ha => ?_) hq
  · rw [hp.1] at ht
    exact absurd ht List.not_mem_nil
  · obtain ⟨hs, rfl⟩ := hs
    refine ⟨fun c' hc' longest hlongest => ?_, nofun⟩
    subst hc'
    cases hs with
    | @call c _ s' h =>
      have hsame : c'.transport = c.transport := by cases h <;> rfl
      rw [hsame] at hlongest
      exact readsWithin_step hlongest (ht c rfl longest hlongest) h
  · obtain ⟨_, ⟨transport, req, _, rfl⟩ | ⟨ref, call, rfl⟩⟩ := ha
    · intro c hc longest _
      cases hc
      exact ⟨nofun, nofun⟩
    · exact nofun

/-! ## 2. The sleeps of a call -/

/-- A sleep costs its time. -/
def sleepPrice : CallOp → Nat
  | .sleep _ d => d.nanos
  | _ => 0

/-- **The time a call has slept**, in nanoseconds. -/
def BalancedCall.asleep (c : BalancedCall) : Nat := traceCost sleepPrice c.trace

theorem sleepPrices (t : LoadBalancedTransport) (longest : Nat) :
    Prices t (WithinDelay longest) sleepPrice 0 longest
      t.config.rateLimitFailoverDelay.nanos id where
  other e he := by
    cases e with
    | sleep => cases he
    | _ => exact Nat.le_refl 0
  panic _ := rfl
  domain _ _ h := h
  failover := Nat.le_refl _
  between _ := Nat.le_refl _

/-- **HOW LONG A CALL SLEEPS AT MOST.** In every reachable pool: for each round and each endpoint
    that accepts the request the longest delay of its domains and the fail-over delay, and the
    backoffs between the rounds. -/
theorem asleep_at_most (hq : (trafficSystem wire configOf transports).Reachable TrafficStart q)
    (hc : .call c ∈ q.tasks) (hlongest : DelaysWithin configOf longest c.transport) :
    c.asleep ≤ (c.transport.config.maxRetryRounds.toNat + 1) *
        ((eligible c.transport (requestBytes wire c.req)).length *
          (longest + c.transport.config.rateLimitFailoverDelay.nanos)) +
      ((List.range c.transport.config.maxRetryRounds.toNat).map
        (backoffBefore c.transport.config)).sum := by
  obtain ⟨rest, hs⟩ := call_traced (traffic_ok hq _ hc)
  obtain ⟨left, hleft, _⟩ := (call_costs (sleepPrices c.transport longest) wire c.req).steps hs
    (tasks_readWithin hq _ hc c rfl longest hlongest).had
  unfold callPrice roundPrice attemptPrice at hleft
  simp only [Nat.zero_mul, Nat.zero_add, id] at hleft
  have hbackoffs : (fun k => backoffBefore c.transport.config k) =
      backoffBefore c.transport.config := rfl
  rw [hbackoffs] at hleft
  unfold BalancedCall.asleep
  omega

end Calls

/-- A delay is an entry of the table, or two seconds beyond its end. -/
theorem delayOfLevel_le {config : ThrottleConfig} {longest : Nat}
    (htable : ∀ d ∈ config.backoffTable, d.nanos ≤ longest) (hbeyond : 2 * 10 ^ 9 ≤ longest)
    (level : UInt32) : (delayOfLevel config level).nanos ≤ longest := by
  unfold delayOfLevel
  dsimp only
  rw [List.getD_eq_getElem?_getD]
  cases hget : config.backoffTable[(min level config.maxBackoffLevel).toNat]? with
  | none => exact hbeyond
  | some d => exact htable d (List.mem_of_getElem? hget)

/-- After a rate limit elsewhere a call sleeps the fifty milliseconds of the first level. -/
theorem asleep_at_most_one : ∃ q c, (trafficSystem (fun _ => some 100) (fun _ => .default)
    (fun t => t = oneEndpoint)).Reachable TrafficStart q ∧ .call c ∈ q.tasks ∧
      c.transport = oneEndpoint ∧ c.asleep = 50 * 10 ^ 6 ∧
      c.asleep ≤ (c.transport.config.maxRetryRounds.toNat + 1) *
          ((eligible c.transport (requestBytes (fun _ => some 100) c.req)).length *
            (2 * 10 ^ 9 + c.transport.config.rateLimitFailoverDelay.nanos)) +
        ((List.range c.transport.config.maxRetryRounds.toNat).map
          (backoffBefore c.transport.config)).sum := by
  have h₀ : (trafficSystem (fun _ => some 100) (fun _ => .default)
      (fun t => t = oneEndpoint)).Reachable TrafficStart ⟨fun _ => .fresh, []⟩ :=
    .start ⟨rfl, fun _ => rfl⟩
  have h₁ := h₀.step (.arrive ⟨rfl, Or.inr ⟨0, .rateLimit, rfl⟩⟩)
  have h₂ := h₁.step (.at (i := 0) rfl ⟨.external (.atomic rfl (.atomic 1 rfl rfl)), rfl⟩)
  have h₃ := h₂.step (.at (i := 0) rfl ⟨.external (.atomic rfl (.atomic 1 rfl rfl)), rfl⟩)
  have h₄ := h₃.step (.at (i := 0) rfl ⟨.external (.atomic rfl (.atomic 1 rfl rfl)), rfl⟩)
  have h₅ := h₄.step (.at (i := 0) rfl ⟨.external (.atomic rfl (.atomic 1 rfl rfl)), rfl⟩)
  have h₆ := h₅.step (.at (i := 0) rfl ⟨.external (.atomic rfl (.atomic 1 rfl rfl)), rfl⟩)
  -- the call: the counter, a reading at the first level, and the sleep
  have h₇ := h₆.step (.arrive ⟨rfl, Or.inl ⟨oneEndpoint, .batch [], rfl, rfl⟩⟩)
  have h₈ := h₇.step (.at (i := 1) rfl ⟨.call (.effect (0 : UInt64) rfl rfl), rfl⟩)
  have h₉ := h₈.step (.at (i := 1) rfl ⟨.call (.start rfl rfl rfl), rfl⟩)
  have h₁₀ := h₉.step (.at (i := 1) rfl ⟨.call (.atomic rfl (.atomic 1 rfl rfl)), rfl⟩)
  have h₁₁ := h₁₀.step (.at (i := 1) rfl ⟨.call (.atomic rfl (.atomic 1 rfl rfl)), rfl⟩)
  have h₁₂ := h₁₁.step (.at (i := 1) rfl ⟨.call (.atomic rfl (.atomic 1 rfl rfl)), rfl⟩)
  have h₁₃ := h₁₂.step (.at (i := 1) rfl ⟨.call (.atomic rfl (.atomic 1 rfl rfl)), rfl⟩)
  have h₁₄ := h₁₃.step (.at (i := 1) rfl ⟨.call (.finish rfl rfl), rfl⟩)
  have h₁₅ := h₁₄.step (.at (i := 1) rfl ⟨.call (.effect () rfl rfl), rfl⟩)
  refine ⟨_, _, h₁₅, List.mem_cons_of_mem _ List.mem_cons_self, rfl, rfl, ?_⟩
  exact asleep_at_most h₁₅ (List.mem_cons_of_mem _ List.mem_cons_self) fun ref _ =>
    delayOfLevel_le (by decide) (by decide)

end TransportBalancer
