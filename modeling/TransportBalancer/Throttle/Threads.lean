/-
  File:      TransportBalancer/Throttle/Threads.lean
  Subject:   THREADS ON ONE DOMAIN STATE. Any number of operations run at once, one atomic step of
             one thread at a time, under a clock that never goes back.

  * `throttleSystem` -- the pool of threads; a thread is its operation, the steps it has taken
    and the program it has left;
  * `level_effect` -- what one step can do to the backoff level: nothing, one escalation, one
    recovery, or a decay by the intervals between the timestamp and the clock value that very
    thread has read before;
  * **`limit_survives_iff`** -- in a run without successes, the level stays positive for a decay
    interval after a completed `record_rate_limit` if and only if no reader empties it with a
    decay it computed from an older timestamp.
-/
import TransportBalancer.Lib.Pool
import TransportBalancer.Throttle.State

namespace TransportBalancer

open Interaction MachineWord TaskPool

/-! ## 1. Threads -/

/-- The public operations on a domain state. -/
inductive ThrottleCall where
  | rateLimit
  | batchRejection
  | success
  | delay
  deriving DecidableEq, Repr

/-- The program of an operation (the delay a reader gets is its own business). -/
def ThrottleCall.program (config : ThrottleConfig) : ThrottleCall → Program AtomicSig Unit
  | .rateLimit => recordRateLimit config
  | .batchRejection => recordBatchRejection config
  | .success => recordSuccess config
  | .delay => preRequestDelay config >>= fun _ => .ret ()

/-- A running operation: which one, the steps it has taken, the program left. -/
structure Thread where
  call : ThrottleCall
  done : Trace AtomicSig
  rest : Program AtomicSig Unit

/-- An operation at its start. -/
def Thread.start (config : ThrottleConfig) (call : ThrottleCall) : Thread :=
  ⟨call, [], call.program config⟩

/-- The operation has returned. -/
def Thread.Finished (t : Thread) : Prop := t.rest = .ret ()

/-- The clock and the domain state. -/
structure ThrottleShared where
  clock : UInt64
  state : DomainThrottleState

/-- One atomic step of a thread. -/
def Thread.step (s : ThrottleShared) (t : Thread) : Option (ThrottleShared × Thread) :=
  match t.rest with
  | .ret _ => none
  | .op e k =>
    (atomicHandler s.clock e s.state).map fun x =>
      ({ s with state := x.2 }, { t with done := t.done ++ [⟨e, x.1⟩], rest := k x.1 })

/-- **The threads of one domain state**: a step is one atomic step of one thread, the clock may
    move forward, and an operation may begin at any time. -/
def throttleSystem (config : ThrottleConfig) : System ThrottleShared Thread where
  act s t s' t' new := t.step s = some (s', t') ∧ new = []
  env s s' := s.clock ≤ s'.clock ∧ s'.state = s.state
  arrive s s' t := s' = s ∧ ∃ call, t = .start config call

/-- No operation running, on any domain state. -/
def ThrottleStart (p : Pool ThrottleShared Thread) : Prop := p.tasks = []

theorem thread_step_cases {s s' : ThrottleShared} {t t' : Thread} (h : t.step s = some (s', t')) :
    ∃ e k r st, t.rest = .op e k ∧ atomicHandler s.clock e s.state = some (r, st) ∧
      s' = { s with state := st } ∧ t' = { t with done := t.done ++ [⟨e, r⟩], rest := k r } := by
  unfold Thread.step at h
  split at h
  · cases h
  · rename_i e k hrest
    obtain ⟨⟨r, st⟩, hstep, hx⟩ := Option.map_eq_some_iff.mp h
    cases hx
    exact ⟨e, k, r, st, hrest, hstep, rfl, rfl⟩

/-! ## 2. What a step can do to the level -/

/-- The step leaves the backoff level alone. -/
def AtomicOp.KeepsLevel : AtomicOp → Prop
  | .store32 .backoffLevel _ | .fetchAdd32 .backoffLevel _ | .fetchUpdate32 .backoffLevel _ => False
  | _ => True

theorem keepsLevel_level {e : AtomicOp} (he : e.KeepsLevel) {now : UInt64}
    {s s' : DomainThrottleState} {r : AtomicSig.Ans e} (h : atomicHandler now e s = some (r, s')) :
    s'.backoffLevel = s.backoffLevel := by
  cases e with
  | panic => cases h
  | nowMillis | load32 | load64 => cases h; rfl
  | store32 c | fetchAdd32 c | fetchUpdate32 c => cases c <;> first | exact he.elim | (cases h; rfl)
  | store64 c | fetchAdd64 c => cases c <;> cases h <;> rfl

/-- The steps of a reader that is about to decay: it has read the level, the timestamp `last` and
    the clock value `now`. -/
def decayHistory (level : UInt32) (last now : UInt64) : Trace AtomicSig :=
  [⟨.load32 .backoffLevel, level⟩, ⟨.load64 .lastRateLimitAt, last⟩, ⟨.nowMillis, now⟩]

/-- A reader with these steps decays next: the intervals it has found are some. -/
def Decaying (config : ThrottleConfig) (done : Trace AtomicSig) : Prop :=
  ∃ level last now, done = decayHistory level last now ∧ 0 < decayable config now last

theorem not_decaying_of_length {config : ThrottleConfig} {done : Trace AtomicSig}
    (h : done.length ≠ 3) : ¬ Decaying config done := by
  intro h
  obtain ⟨level, last, now, rfl, _⟩ := h
  exact h rfl

/-- **What an operation may do next to the level**, given the steps it has taken. -/
def LevelEffect (config : ThrottleConfig) (call : ThrottleCall) (done : Trace AtomicSig)
    (e : AtomicOp) : Prop :=
  match call with
  | .rateLimit | .batchRejection =>
    e.KeepsLevel ∨ e = .fetchUpdate32 .backoffLevel (escalate config.maxBackoffLevel)
  | .success => e.KeepsLevel ∨ e = .fetchUpdate32 .backoffLevel fun cur => satSub32 cur 1
  | .delay => (e.KeepsLevel ∧ ¬ Decaying config done) ∨
      ∃ level last now, done = decayHistory level last now ∧
        e = .fetchUpdate32 .backoffLevel (decayBy (decayable config now last))

/-- The step leaves the totals alone, or adds one. -/
def AtomicOp.CountsUp : AtomicOp → Prop
  | .fetchAdd64 _ v => v = 1
  | .store64 c _ => c = .lastRateLimitAt
  | _ => True

/-- What an operation may do next, given the steps it has taken. -/
def NextEffect (config : ThrottleConfig) (call : ThrottleCall) (done : Trace AtomicSig)
    (e : AtomicOp) : Prop :=
  LevelEffect config call done e ∧ e.CountsUp

theorem recordEscalation_effect (config : ThrottleConfig) :
    (recordEscalation config).Follows (historyProtocol (NextEffect config .rateLimit)) []
      fun _ _ => True :=
  ⟨⟨Or.inl trivial, trivial⟩, fun _ _ => ⟨⟨Or.inl trivial, rfl⟩, fun _ _ =>
    ⟨⟨Or.inl trivial, trivial⟩, fun _ _ => ⟨⟨Or.inl trivial, rfl⟩, fun _ _ =>
      ⟨⟨Or.inr rfl, trivial⟩, fun _ _ => trivial⟩⟩⟩⟩⟩

theorem recordSuccess_effect (config : ThrottleConfig) :
    (recordSuccess config).Follows (historyProtocol (NextEffect config .success)) []
      fun _ _ => True := by
  unfold recordSuccess
  rw [fetchAdd64_bind]
  refine ⟨⟨Or.inl trivial, rfl⟩, fun _ _ => ?_⟩
  rw [load32_bind]
  refine ⟨⟨Or.inl trivial, trivial⟩, fun level _ => ?_⟩
  dsimp only
  split
  · trivial
  · rw [fetchAdd32_bind]
    refine ⟨⟨Or.inl trivial, trivial⟩, fun prev _ => ?_⟩
    dsimp only
    unfold checkedAdd32
    split
    · rw [pure_bind]
      split
      · exact ⟨⟨Or.inl trivial, trivial⟩, fun _ _ => ⟨⟨Or.inr rfl, trivial⟩, fun _ _ => trivial⟩⟩
      · trivial
    · rw [throwPanic_bind]
      exact ⟨⟨Or.inl trivial, trivial⟩, nofun⟩

theorem preRequestDelay_effect (config : ThrottleConfig) :
    (preRequestDelay config).Follows (historyProtocol (NextEffect config .delay)) []
      fun _ _ => True := by
  have hshort : ∀ done (e : AtomicOp), e.KeepsLevel → e.CountsUp → done.length ≠ 3 →
      NextEffect config .delay done e :=
    fun _ _ hkeeps hcounts hlen => ⟨Or.inl ⟨hkeeps, not_decaying_of_length hlen⟩, hcounts⟩
  unfold preRequestDelay
  rw [load32_bind]
  refine ⟨hshort _ _ trivial trivial (by decide), fun level _ => ?_⟩
  dsimp only
  split
  · trivial
  · rw [load64_bind]
    refine ⟨hshort _ _ trivial trivial (Nat.ne_of_lt (by decide : 1 < 3)), fun last _ => ?_⟩
    dsimp only
    -- the level is read again only by a reader that has decayed or found nothing to decay
    have hreload : ∀ h a, ¬ Decaying config h → (load32 .backoffLevel >>= fun level =>
        (pure (delayOfLevel config level) : Program AtomicSig Duration)).Follows
          (historyProtocol (NextEffect config .delay)) h fun _ _ => True :=
      fun _ (_ : Unit) hd => ⟨⟨Or.inl ⟨trivial, hd⟩, trivial⟩, fun _ _ => trivial⟩
    refine Program.Follows.bind (R := fun h _ => ¬ Decaying config h) ?_ hreload
    unfold decayStep
    split
    · rw [nowMillis_bind]
      refine ⟨hshort _ _ trivial trivial (Nat.ne_of_lt (by decide : 2 < 3)), fun now _ => ?_⟩
      dsimp only
      unfold checkedDiv64
      split
      · rename_i hD
        rw [throwPanic_bind]
        refine ⟨⟨Or.inl ⟨trivial, ?_⟩, trivial⟩, nofun⟩
        intro h
        obtain ⟨level', last', now', _, hd⟩ := h
        unfold decayable at hd
        rw [hD, UInt64.div_zero] at hd
        exact absurd hd (by decide)
      · rw [pure_bind]
        split
        · exact ⟨⟨Or.inr ⟨level, last, now, rfl, rfl⟩, trivial⟩, fun _ _ =>
            not_decaying_of_length (Nat.ne_of_gt (by decide : 3 < 4))⟩
        · rename_i hd
          intro h
          obtain ⟨level', last', now', h, hd'⟩ := h
          cases h
          exact hd hd'
    · exact not_decaying_of_length (Nat.ne_of_lt (by decide : 2 < 3))

theorem program_effect (config : ThrottleConfig) (call : ThrottleCall) :
    (call.program config).Follows (historyProtocol (NextEffect config call)) []
      fun _ _ => True := by
  cases call with
  | rateLimit | batchRejection => exact recordEscalation_effect config
  | success => exact recordSuccess_effect config
  | delay => exact (preRequestDelay_effect config).bind fun _ _ _ => trivial

/-! ## 3. Threads keep to their programs -/

/-- **The thread invariant**: a thread has taken steps of its operation's program and no others,
    and every clock value it has read is in the past. -/
structure Thread.Ok (config : ThrottleConfig) (s : ThrottleShared) (t : Thread) : Prop where
  steps : Steps (t.call.program config) t.done t.rest
  past : ∀ now, (⟨.nowMillis, now⟩ : Event AtomicSig) ∈ t.done → now ≤ s.clock

theorem thread_ok_start (config : ThrottleConfig) (s : ThrottleShared) (call : ThrottleCall) :
    (Thread.start config call).Ok config s :=
  ⟨.refl _, fun _ h => absurd h List.not_mem_nil⟩

theorem thread_ok_clock {config : ThrottleConfig} {s s' : ThrottleShared} {t : Thread}
    (h : t.Ok config s) (hc : s.clock ≤ s'.clock) : t.Ok config s' :=
  ⟨h.steps, fun now hn => UInt64.le_trans (h.past now hn) hc⟩

theorem thread_ok_step {config : ThrottleConfig} {s s' : ThrottleShared} {t t' : Thread}
    (h : t.Ok config s) (hs : t.step s = some (s', t')) : t'.Ok config s' := by
  obtain ⟨e, k, r, st, hrest, hstep, rfl, rfl⟩ := thread_step_cases hs
  have hsteps := h.steps
  rw [hrest] at hsteps
  refine ⟨steps_append hsteps (.step e r k (.refl _)), fun now hn => ?_⟩
  rcases List.mem_append.mp hn with hn | hn
  · exact h.past now hn
  · cases List.mem_singleton.mp hn
    cases hstep
    exact UInt64.le_refl _

/-- **On every reachable pool every thread keeps to its program.** -/
theorem thread_ok {config : ThrottleConfig} {p : Pool ThrottleShared Thread}
    (hr : (throttleSystem config).Reachable ThrottleStart p) :
    ∀ t ∈ p.tasks, t.Ok config p.shared := by
  refine (System.Reachable.inv (J := fun _ => True) (I := fun s t => t.Ok config s)
    (fun p hp => ⟨trivial, fun t ht => ?_⟩) (fun _ ht hs => ?_) (fun _ _ hs hu => ?_)
    (fun _ he => ⟨trivial, fun u hu => ?_⟩) (fun _ ha => ?_) hr).2
  · rw [show p.tasks = [] from hp] at ht
    exact absurd ht List.not_mem_nil
  · obtain ⟨hs, rfl⟩ := hs
    exact ⟨trivial, thread_ok_step ht hs, fun _ h => absurd h List.not_mem_nil⟩
  · obtain ⟨e, k, r, st, _, _, rfl, _⟩ := thread_step_cases hs.1
    exact thread_ok_clock hu (UInt64.le_refl _)
  · exact thread_ok_clock hu he.1
  · obtain ⟨rfl, call, rfl⟩ := ha
    exact ⟨trivial, thread_ok_start config _ call, fun u hu => hu⟩

/-- **WHAT ONE STEP DOES TO THE LEVEL**: nothing (a reader that is due to decay cannot do that), or
    one escalation, or one recovery, or a decay computed from the timestamp and the clock value
    this thread has read before. -/
theorem level_effect {config : ThrottleConfig} {s s' : ThrottleShared} {t t' : Thread}
    (ht : t.Ok config s) (hs : t.step s = some (s', t')) :
    (s'.state.backoffLevel = s.state.backoffLevel ∧ (t.call = .delay → ¬ Decaying config t.done)) ∨
      ((t.call = .rateLimit ∨ t.call = .batchRejection) ∧
        s'.state.backoffLevel = escalate config.maxBackoffLevel s.state.backoffLevel) ∨
      (t.call = .success ∧ s'.state.backoffLevel = satSub32 s.state.backoffLevel 1) ∨
      (t.call = .delay ∧ ∃ level last now, t.done = decayHistory level last now ∧
        s'.state.backoffLevel = decayBy (decayable config now last) s.state.backoffLevel) := by
  obtain ⟨e, k, r, st, hrest, hstep, rfl, rfl⟩ := thread_step_cases hs
  have hsteps := ht.steps
  rw [hrest] at hsteps
  have he := ((program_effect config t.call).head_history hsteps).1
  cases hc : t.call with
  | rateLimit | batchRejection =>
    rw [hc] at he
    rcases he with hk | rfl
    · exact Or.inl ⟨keepsLevel_level hk hstep, nofun⟩
    · cases hstep
      exact Or.inr (Or.inl ⟨by simp, rfl⟩)
  | success =>
    rw [hc] at he
    rcases he with hk | rfl
    · exact Or.inl ⟨keepsLevel_level hk hstep, nofun⟩
    · cases hstep
      exact Or.inr (Or.inr (Or.inl ⟨rfl, rfl⟩))
  | delay =>
    rw [hc] at he
    rcases he with ⟨hk, hd⟩ | ⟨level, last, now, hdone, rfl⟩
    · exact Or.inl ⟨keepsLevel_level hk hstep, fun _ => hd⟩
    · cases hstep
      exact Or.inr (Or.inr (Or.inr ⟨rfl, level, last, now, hdone, rfl⟩))

/-! ## 4. A rate limit outlives its decay interval -/

/-- The clock value an operation read first (a `record_rate_limit` stores it as the timestamp). -/
def Thread.stamp (t : Thread) : Option UInt64 :=
  match t.done with
  | ⟨.nowMillis, now⟩ :: _ => some now
  | _ => none

/-- The level is positive if the `record_rate_limit` at position `i` has completed and less than a
    decay interval has passed since its timestamp. -/
def LimitHolds (config : ThrottleConfig) (i : Nat) (p : Pool ThrottleShared Thread) : Prop :=
  ∀ R τ, p.tasks[i]? = some R → R.Finished → R.stamp = some τ →
    p.shared.clock.toNat < τ.toNat + config.decayIntervalMs.toNat →
    1 ≤ p.shared.state.backoffLevel

/-- The actor, if it is a thread, is not a `record_success`. -/
def NoSuccess (p : Pool ThrottleShared Thread) (w : Actor) : Prop :=
  ∀ j t, w = .task j → p.tasks[j]? = some t → t.call ≠ .success

/-- **No stale decay.** Within the interval of the completed `record_rate_limit` at `i`, a reader
    whose next step decays drops fewer levels than there are. -/
def NoStaleDecay (config : ThrottleConfig) (i : Nat) (p : Pool ThrottleShared Thread)
    (w : Actor) : Prop :=
  ∀ R τ, p.tasks[i]? = some R → R.Finished → R.stamp = some τ →
    p.shared.clock.toNat < τ.toNat + config.decayIntervalMs.toNat →
    ∀ j t level last now, w = .task j → p.tasks[j]? = some t → t.call = .delay →
      t.done = decayHistory level last now → 0 < decayable config now last →
      decayable config now last < p.shared.state.backoffLevel

theorem one_le_escalate {max : UInt32} (hmax : 1 ≤ max) (cur : UInt32) : 1 ≤ escalate max cur := by
  rw [UInt32.le_iff_toNat_le] at hmax ⊢
  rw [toNat_escalate]
  exact Nat.le_min.mpr ⟨Nat.le_add_left _ _, hmax⟩

theorem one_le_decayBy_iff {d cur : UInt32} : 1 ≤ decayBy d cur ↔ d < cur := by
  rw [UInt32.le_iff_toNat_le, toNat_decayBy, UInt32.lt_iff_toNat_lt]
  show 1 ≤ _ ↔ _
  omega

/-- The fifth and last step of an escalation is the one that raises the level. -/
theorem recordEscalation_last (config : ThrottleConfig) :
    (recordEscalation config).Follows (historyProtocol fun tr (e : AtomicOp) => tr.length = 4 →
      e = .fetchUpdate32 .backoffLevel (escalate config.maxBackoffLevel)) []
      fun tr _ => tr.length = 5 :=
  ⟨nofun, fun _ _ => ⟨nofun, fun _ _ => ⟨nofun, fun _ _ => ⟨nofun, fun _ _ =>
    ⟨fun _ => rfl, fun _ _ => rfl⟩⟩⟩⟩⟩

/-- **A `record_rate_limit` that completes has just raised the level.** -/
theorem completing_step_escalates {config : ThrottleConfig} {s s' : ThrottleShared}
    {t t' : Thread} (ht : t.Ok config s) (hcall : t.call = .rateLimit)
    (hs : t.step s = some (s', t')) (hfin : t'.Finished) :
    s'.state.backoffLevel = escalate config.maxBackoffLevel s.state.backoffLevel := by
  have hruns := (thread_ok_step ht hs).steps
  obtain ⟨e, k, r, st, hrest, hstep, rfl, rfl⟩ := thread_step_cases hs
  have hsteps := ht.steps
  rw [hcall] at hsteps hruns
  rw [hrest] at hsteps
  rw [show k r = .ret () from hfin] at hruns
  have hlen : (t.done ++ [(⟨e, r⟩ : Event AtomicSig)]).length = 5 :=
    (recordEscalation_last config).runs_history hruns
  obtain rfl := (recordEscalation_last config).head_history hsteps
    (Nat.succ_injective (by simpa using hlen))
  cases hstep
  rfl

theorem not_finished_of_step {s s' : ThrottleShared} {t t' : Thread}
    (hs : t.step s = some (s', t')) : ¬ t.Finished := by
  intro hfin
  obtain ⟨e, k, r, st, hrest, _⟩ := thread_step_cases hs
  rw [show t.rest = .ret () from hfin] at hrest
  cases hrest

/-- **One step of the pool** keeps a completed rate limit alive exactly when it is no stale
    decay. -/
theorem limitHolds_step_iff {config : ThrottleConfig} (hmax : 1 ≤ config.maxBackoffLevel)
    {p p' : Pool ThrottleShared Thread} {w : Actor} {i : Nat} {R : Thread}
    (hr : (throttleSystem config).Reachable ThrottleStart p) (hR : p.tasks[i]? = some R)
    (hcall : R.call = .rateLimit) (hs : (throttleSystem config).Step p w p')
    (hquiet : NoSuccess p w) (hp : LimitHolds config i p) :
    LimitHolds config i p' ↔ NoStaleDecay config i p w := by
  have hok := thread_ok hr
  rcases step_task_at hs hR with ⟨rfl, R', new, ⟨hstep, rfl⟩, hR', _⟩ | ⟨hne, hR'⟩
  · -- the rate limit itself acts: it had not completed, and if it completes now the level rises
    refine iff_of_true (fun R₁ τ h hfin _ _ => ?_) (fun R₁ τ h hfin => ?_)
    · rw [hR'] at h
      cases h
      rw [completing_step_escalates (hok R (List.mem_of_getElem? hR)) hcall hstep hfin]
      exact one_le_escalate hmax _
    · rw [hR] at h
      cases h
      exact absurd hfin (not_finished_of_step hstep)
  · cases hs with
    | env he =>
      refine iff_of_true (fun R₁ τ h hfin hτ hclock => ?_) fun _ _ _ _ _ _ _ _ _ _ _ => nofun
      have hle := UInt64.le_iff_toNat_le.mp he.1
      rw [he.2]
      exact hp R₁ τ h hfin hτ (Nat.lt_of_le_of_lt hle hclock)
    | arrive ha =>
      obtain ⟨rfl, _⟩ := ha
      refine iff_of_true (fun R₁ τ h hfin hτ hclock => ?_) fun _ _ _ _ _ _ _ _ _ _ _ => nofun
      rw [hR'] at h
      exact hp R₁ τ (hR.trans h) hfin hτ hclock
    | @act s s' l r new t t' h =>
      obtain ⟨hstep, rfl⟩ := h
      have ht : (l ++ t :: r)[l.length]? = some t := by simp
      have hst := hok t (by simp)
      have hclock : s'.clock = s.clock := by
        obtain ⟨_, _, _, _, _, _, rfl, _⟩ := thread_step_cases hstep
        rfl
      have hi : (l ++ t' :: (r ++ []))[i]? = some R := hR'
      constructor
      · -- a decay of the whole level would leave none
        intro hp' R₁ τ hR₁ hfin hτ hlt j t₁ level last now hw ht₁ hdelay hdone hpos
        cases hw
        have e₁ : t = t₁ := Option.some.inj (ht.symm.trans ht₁)
        have e₂ : R = R₁ := Option.some.inj (hR.symm.trans hR₁)
        subst e₁
        subst e₂
        have hlevel := hp' R τ hi hfin hτ (hclock ▸ hlt)
        rcases level_effect hst hstep with ⟨-, hno⟩ | ⟨hc | hc, -⟩ | ⟨hc, -⟩ | ⟨-, _, _, _, hd, hx⟩
        · exact absurd ⟨level, last, now, hdone, hpos⟩ (hno hdelay)
        · exact absurd (hdelay.symm.trans hc) nofun
        · exact absurd (hdelay.symm.trans hc) nofun
        · exact absurd (hdelay.symm.trans hc) nofun
        · cases hdone.symm.trans hd
          rw [hx] at hlevel
          exact one_le_decayBy_iff.mp hlevel
      · -- escalations leave a level, and so does a decay of fewer levels than there are
        intro hno R₁ τ hR₁ hfin hτ hlt
        cases Option.some.inj (hi.symm.trans hR₁)
        rw [hclock] at hlt
        have hlevel := hp R τ hR hfin hτ hlt
        rcases level_effect hst hstep with
          ⟨hx, -⟩ | ⟨-, hx⟩ | ⟨hc, -⟩ | ⟨hdelay, level, last, now, hd, hx⟩
        · rw [hx]
          exact hlevel
        · rw [hx]
          exact one_le_escalate hmax _
        · exact absurd hc (hquiet _ t rfl ht)
        · rw [hx, one_le_decayBy_iff]
          by_cases hpos : 0 < decayable config now last
          · exact hno R τ hR hfin hτ hlt _ t level last now rfl ht hdelay hd hpos
          · rw [pos_iff32] at hpos
            rw [UInt32.le_iff_toNat_le] at hlevel
            rw [UInt32.lt_iff_toNat_lt]
            exact Nat.lt_of_le_of_lt (Nat.le_of_not_lt hpos) hlevel

/-- The thread at a position keeps its operation over a run. -/
theorem call_kept {config : ThrottleConfig} {p q : Pool ThrottleShared Thread}
    {vs : List (Pool ThrottleShared Thread × Actor)} (hrun : (throttleSystem config).Run p vs q)
    {i : Nat} {t : Thread} (ht : p.tasks[i]? = some t) :
    ∃ t', q.tasks[i]? = some t' ∧ t'.call = t.call := by
  induction hrun with
  | refl => exact ⟨t, ht, rfl⟩
  | step _ hs ih =>
    obtain ⟨t', ht', hcall⟩ := ih
    rcases step_task_at hs ht' with ⟨_, t'', _, ⟨hstep, _⟩, h, _⟩ | ⟨_, h⟩
    · obtain ⟨_, _, _, _, _, _, _, rfl⟩ := thread_step_cases hstep
      exact ⟨_, h, hcall⟩
    · exact ⟨t', h, hcall⟩

/-- **THE RATE LIMIT LAW.** From the moment a `record_rate_limit` begins, over any interleaving in
    which no `record_success` acts: the level stays positive in every pool of the run within the
    decay interval of the completed rate limit if and only if no step of the run is a stale
    decay. -/
theorem limit_survives_iff {config : ThrottleConfig} (hmax : 1 ≤ config.maxBackoffLevel)
    {p q : Pool ThrottleShared Thread} {vs : List (Pool ThrottleShared Thread × Actor)} {i : Nat}
    (hp : (throttleSystem config).Reachable ThrottleStart p)
    (hR : p.tasks[i]? = some (.start config .rateLimit))
    (hrun : (throttleSystem config).Run p vs q) (hquiet : ∀ x ∈ vs, NoSuccess x.1 x.2) :
    (LimitHolds config i q ∧ ∀ x ∈ vs, LimitHolds config i x.1) ↔
      ∀ x ∈ vs, NoStaleDecay config i x.1 x.2 := by
  induction hrun with
  | refl =>
    refine iff_of_true ⟨fun R τ h hfin => ?_, nofun⟩ nofun
    rw [hR] at h
    cases h
    cases hfin
  | step hrun hs ih =>
    obtain ⟨R, hRq, hcall⟩ := call_kept hrun hR
    have ih := ih fun x hx => hquiet x (List.mem_append_left _ hx)
    have hstep := limitHolds_step_iff hmax (hp.run hrun) hRq hcall hs
      (hquiet _ (List.mem_append_right _ (List.mem_singleton_self _)))
    simp only [List.forall_mem_append, List.forall_mem_singleton]
    constructor
    · intro h
      obtain ⟨hq', hvs, hq⟩ := h
      exact ⟨ih.mp ⟨hq, hvs⟩, (hstep hq).mp hq'⟩
    · intro h
      obtain ⟨hvs, hq⟩ := h
      obtain ⟨hholds, hall⟩ := ih.mpr hvs
      exact ⟨(hstep hholds).mpr hq, hall, hholds⟩

/-! ## 5. The race

A reader takes the level and the timestamp of an old rate limit, a new rate limit completes, and
the reader drops the intervals since the old one. -/

/-- The domain after one rate limit at clock value 1. -/
def oldLimit : DomainThrottleState :=
  { DomainThrottleState.fresh with lastRateLimitAt := 1, totalRateLimits := 1, backoffLevel := 1 }

/-- The reader once it has read the level, the timestamp and the clock, 20 seconds later. -/
def staleReader : Thread where
  call := .delay
  done := decayHistory 1 1 20001
  rest := fetchUpdate32 .backoffLevel (decayBy 2) >>= fun _ =>
    load32 .backoffLevel >>= fun _ => .ret ()

/-- The pool where the new rate limit begins. -/
def racePool : Pool ThrottleShared Thread :=
  ⟨⟨20001, oldLimit⟩, [staleReader, .start .default .rateLimit]⟩

theorem racePool_reachable : (throttleSystem .default).Reachable ThrottleStart racePool := by
  have h₀ : (throttleSystem .default).Reachable ThrottleStart ⟨⟨20001, oldLimit⟩, []⟩ := .start rfl
  have h₁ := h₀.step (.arrive ⟨rfl, .delay, rfl⟩)
  have h₂ := h₁.step (.at (i := 0) rfl ⟨rfl, rfl⟩)
  have h₃ := h₂.step (.at (i := 0) rfl ⟨rfl, rfl⟩)
  have h₄ := h₃.step (.at (i := 0) rfl ⟨rfl, rfl⟩)
  exact h₄.step (.arrive ⟨rfl, .rateLimit, rfl⟩)

/-- An operation never changes: what those of a pool are like, those before it were like. -/
theorem calls_of_last {config : ThrottleConfig} {P : ThrottleCall → Prop}
    {p q : Pool ThrottleShared Thread} {vs : List (Pool ThrottleShared Thread × Actor)}
    (hrun : (throttleSystem config).Run p vs q) (hq : ∀ t ∈ q.tasks, P t.call) :
    ∀ x ∈ vs, ∀ j t, x.2 = .task j → x.1.tasks[j]? = some t → P t.call := by
  induction hrun with
  | refl => exact nofun
  | @step vs q q' w _ hs ih =>
    have hback : ∀ (j : Nat) (t : Thread), q.tasks[j]? = some t → P t.call := by
      intro j t ht
      obtain ⟨t', ht', hcall⟩ := call_kept (.step .refl hs) ht
      rw [← hcall]
      exact hq t' (List.mem_of_getElem? ht')
    refine List.forall_mem_append.mpr ⟨ih fun t ht => ?_, ?_⟩
    · obtain ⟨j, hj⟩ := List.mem_iff_getElem?.mp ht
      exact hback j t hj
    · rw [List.forall_mem_singleton]
      exact fun j t _ ht => hback j t ht

/-- A pool without a `record_success` had none before. -/
theorem noSuccess_of_last {config : ThrottleConfig} {p q : Pool ThrottleShared Thread}
    {vs : List (Pool ThrottleShared Thread × Actor)} (hrun : (throttleSystem config).Run p vs q)
    (hq : ∀ t ∈ q.tasks, t.call ≠ .success) : ∀ x ∈ vs, NoSuccess x.1 x.2 :=
  calls_of_last (P := fun call => call ≠ .success) hrun hq

/-- **The race**: the rate limit runs to its end (level 2), then the reader drops two levels. -/
theorem race_run : ∃ vs q, (throttleSystem .default).Run racePool vs q ∧
    (∀ x ∈ vs, NoSuccess x.1 x.2) ∧ q.shared.clock = 20001 ∧ q.shared.state.backoffLevel = 0 ∧
    ∃ R, q.tasks[1]? = some R ∧ R.Finished ∧ R.stamp = some 20001 := by
  have h₀ : (throttleSystem .default).Run racePool [] racePool := .refl
  have h₁ := h₀.step (.at (i := 1) rfl ⟨rfl, rfl⟩)
  have h₂ := h₁.step (.at (i := 1) rfl ⟨rfl, rfl⟩)
  have h₃ := h₂.step (.at (i := 1) rfl ⟨rfl, rfl⟩)
  have h₄ := h₃.step (.at (i := 1) rfl ⟨rfl, rfl⟩)
  have h₅ := h₄.step (.at (i := 1) rfl ⟨rfl, rfl⟩)
  have h₆ := h₅.step (.at (i := 0) rfl ⟨rfl, rfl⟩)
  refine ⟨_, _, h₆, noSuccess_of_last h₆ ?_, rfl, rfl, _, rfl, rfl, rfl⟩
  intro t ht
  have hcalls : t.call ∈ [ThrottleCall.delay, .rateLimit] := List.mem_map_of_mem ht
  intro hc
  rw [hc] at hcalls
  exact absurd hcalls (by decide)

/-- The law on the race. -/
theorem limit_survives_race : ∃ vs q, (throttleSystem .default).Run racePool vs q ∧
    ((LimitHolds .default 1 q ∧ ∀ x ∈ vs, LimitHolds .default 1 x.1) ↔
      ∀ x ∈ vs, NoStaleDecay .default 1 x.1 x.2) := by
  obtain ⟨vs, q, hrun, hquiet, _⟩ := race_run
  exact ⟨vs, q, hrun, limit_survives_iff (by decide) racePool_reachable rfl hrun hquiet⟩

/-- **A completed rate limit is wiped out**: at its own timestamp the level is zero. -/
theorem stale_reader_wipes_limit :
    ¬ ∀ (config : ThrottleConfig) (p q : Pool ThrottleShared Thread)
        (vs : List (Pool ThrottleShared Thread × Actor)) (i : Nat),
        1 ≤ config.maxBackoffLevel → 1 ≤ config.decayIntervalMs →
        (throttleSystem config).Reachable ThrottleStart p →
        p.tasks[i]? = some (.start config .rateLimit) → (throttleSystem config).Run p vs q →
        (∀ x ∈ vs, NoSuccess x.1 x.2) → LimitHolds config i q := by
  intro h
  obtain ⟨vs, q, hrun, hquiet, hclock, hlevel, R, hR, hfin, hτ⟩ := race_run
  have hholds := h .default racePool q vs 1 (by decide) (by decide) racePool_reachable rfl hrun
    hquiet R 20001 hR hfin hτ (by rw [hclock]; decide)
  rw [hlevel] at hholds
  exact absurd hholds (by decide)

end TransportBalancer
