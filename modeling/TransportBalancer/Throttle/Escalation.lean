/-
  File:      TransportBalancer/Throttle/Escalation.lean
  Subject:   ESCALATION IS BOUNDED AND NEVER LOST, over any interleaving of the operations on one
             domain state, from a fresh one.

  * `counts_step` -- the totals count the `fetch_add` steps made on them;
  * `level_step` -- an escalation raises the level by one up to the maximum, whatever it is; the
    other steps that write the level do not raise it;
  * **`escalations_kept`** -- the level is bounded, the totals are exact, and over a stretch
    without lowering steps every escalation counts.
-/
import TransportBalancer.Throttle.Threads

namespace TransportBalancer

open Interaction MachineWord TaskPool

/-! ## 1. The totals -/

/-- The step is a `fetch_add` on a total. -/
def AtomicOp.addsTo (c : Cell64) : AtomicOp → Bool
  | .fetchAdd64 c' _ => c' == c
  | _ => false

/-- The `fetch_add` steps a thread has made on a total. -/
def Thread.added (c : Cell64) (t : Thread) : Nat := t.done.countP fun ev => ev.op.addsTo c

/-- **A step moves a total by the `fetch_add` it is**, if it is one. -/
theorem countsUp_get64 {e : AtomicOp} (he : e.CountsUp) {c : Cell64} (hc : c ≠ .lastRateLimitAt)
    {now : UInt64} {s s' : DomainThrottleState} {r : AtomicSig.Ans e}
    (h : atomicHandler now e s = some (r, s')) :
    s'.get64 c = s.get64 c + UInt64.ofNat (if e.addsTo c = true then 1 else 0) := by
  have hsame : s.get64 c = s.get64 c + UInt64.ofNat 0 := (UInt64.add_zero _).symm
  cases e with
  | panic => cases h
  | nowMillis | load32 | load64 =>
    cases h
    exact hsame
  | store32 c' | fetchAdd32 c' | fetchUpdate32 c' =>
    cases h
    cases c' <;> cases c <;> exact hsame
  | store64 c' v =>
    obtain rfl := he
    cases h
    cases c with
    | lastRateLimitAt => exact absurd rfl hc
    | totalRateLimits | totalSuccesses | totalSkips => exact hsame
  | fetchAdd64 c' v =>
    obtain rfl := he
    cases h
    by_cases hcc : c' = c
    · subst hcc
      have hadds : (AtomicOp.fetchAdd64 c' 1).addsTo c' = true := beq_self_eq_true c'
      rw [if_pos hadds]
      cases c' <;> rfl
    · have hother : (AtomicOp.fetchAdd64 c' 1).addsTo c = false := beq_false_of_ne hcc
      rw [hother]
      cases c' <;> cases c <;> first | exact hsame | exact absurd rfl hcc

/-- No operation running on a fresh domain state. -/
def FreshStart (p : Pool ThrottleShared Thread) : Prop := p.tasks = [] ∧ p.shared.state = .fresh

theorem reachable_of_fresh {config : ThrottleConfig} {p : Pool ThrottleShared Thread}
    (hr : (throttleSystem config).Reachable FreshStart p) :
    (throttleSystem config).Reachable ThrottleStart p := by
  induction hr with
  | start h => exact .start h.1
  | step _ hs ih => exact ih.step hs

/-- **The totals are exact**: each is the number of `fetch_add` steps made on it. -/
theorem totals_exact {config : ThrottleConfig} {p : Pool ThrottleShared Thread}
    (hr : (throttleSystem config).Reachable FreshStart p) {c : Cell64} (hc : c ≠ .lastRateLimitAt) :
    p.shared.state.get64 c = UInt64.ofNat (p.total (Thread.added c)) := by
  induction hr with
  | start h =>
    unfold Pool.total
    rw [h.1, h.2]
    cases c <;> rfl
  | step hr hs ih =>
    cases hs with
    | @act s s' l r new t t' h =>
      obtain ⟨hstep, rfl⟩ := h
      have ht := thread_ok (reachable_of_fresh hr) t (by simp)
      obtain ⟨e, k, a, st, hrest, hhandler, rfl, rfl⟩ := thread_step_cases hstep
      have hsteps := ht.steps
      rw [hrest] at hsteps
      have hup := ((program_effect config t.call).head_history hsteps).2
      have hadded : Thread.added c { t with done := t.done ++ [⟨e, a⟩], rest := k a } =
          t.added c + if e.addsTo c = true then 1 else 0 := by
        unfold Thread.added
        rw [List.countP_append, List.countP_singleton]
      rw [total_split] at ih
      rw [total_split_new, hadded]
      show st.get64 c = _
      rw [countsUp_get64 hup hc hhandler, show s.state.get64 c = _ from ih, ← UInt64.ofNat_add]
      simp only [List.map_nil, List.sum_nil]
      congr 1
      omega
    | env h =>
      rw [show _ = _ from h.2]
      exact ih
    | arrive h =>
      obtain ⟨rfl, call, rfl⟩ := h
      rw [ih]
      simp [Thread.added, Thread.start]

/-! ## 2. The level -/

/-- The step writes the level. -/
def AtomicOp.writesLevel : AtomicOp → Bool
  | .store32 .backoffLevel _ | .fetchAdd32 .backoffLevel _ | .fetchUpdate32 .backoffLevel _ => true
  | _ => false

theorem writesLevel_of_keepsLevel {e : AtomicOp} (h : e.KeepsLevel) : e.writesLevel = false := by
  cases e with
  | store32 c | fetchAdd32 c | fetchUpdate32 c => cases c <;> first | exact h.elim | rfl
  | _ => rfl

/-- The operations that raise the level. -/
def ThrottleCall.escalates : ThrottleCall → Bool
  | .rateLimit | .batchRejection => true
  | .success | .delay => false

/-- The next step of the thread writes the level. -/
def Thread.writesLevel (t : Thread) : Bool :=
  match t.rest with
  | .op e _ => e.writesLevel
  | .ret _ => false

/-- The actor is a thread whose step writes the level, of one of the operations `calls`. -/
def writingStep (calls : ThrottleCall → Bool) (x : Pool ThrottleShared Thread × Actor) : Bool :=
  match x.2 with
  | .task i => (x.1.tasks[i]?).any fun t => calls t.call && t.writesLevel
  | _ => false

/-- The actor escalates. -/
def escalationStep : Pool ThrottleShared Thread × Actor → Bool := writingStep (·.escalates)

/-- A success or a decay writes the level. -/
def loweringStep : Pool ThrottleShared Thread × Actor → Bool := writingStep (!·.escalates)

/-- **WHAT A STEP OF THE POOL DOES TO THE LEVEL**: an escalation, a step that may lower it, or
    nothing. -/
theorem level_step {config : ThrottleConfig} {p q : Pool ThrottleShared Thread} {w : Actor}
    (hr : (throttleSystem config).Reachable ThrottleStart p)
    (hs : (throttleSystem config).Step p w q) :
    (escalationStep (p, w) = true ∧ q.shared.state.backoffLevel =
        escalate config.maxBackoffLevel p.shared.state.backoffLevel) ∨
      (escalationStep (p, w) = false ∧ loweringStep (p, w) = true ∧
        q.shared.state.backoffLevel ≤ p.shared.state.backoffLevel) ∨
      (escalationStep (p, w) = false ∧ loweringStep (p, w) = false ∧
        q.shared.state.backoffLevel = p.shared.state.backoffLevel) := by
  cases hs with
  | env h => exact Or.inr (Or.inr ⟨rfl, rfl, by rw [show _ = _ from h.2]⟩)
  | arrive h => exact Or.inr (Or.inr ⟨rfl, rfl, by rw [h.1]⟩)
  | @act s s' l r new t t' h =>
    obtain ⟨hstep, rfl⟩ := h
    have ht := thread_ok hr t (by simp)
    have hat : ∀ calls : ThrottleCall → Bool,
        writingStep calls (⟨s, l ++ t :: r⟩, .task l.length) = (calls t.call && t.writesLevel) := by
      intro calls
      simp [writingStep]
    obtain ⟨e, k, a, st, hrest, hhandler, rfl, rfl⟩ := thread_step_cases hstep
    have hsteps := ht.steps
    rw [hrest] at hsteps
    have hwrites : t.writesLevel = e.writesLevel := by
      unfold Thread.writesLevel
      rw [hrest]
    have heffect := ((program_effect config t.call).head_history hsteps).1
    have hkeeps : e.KeepsLevel → st.backoffLevel = s.state.backoffLevel :=
      fun h => keepsLevel_level h hhandler
    rw [escalationStep, loweringStep, hat, hat, hwrites]
    cases hcall : t.call with
    | rateLimit | batchRejection =>
      rw [hcall] at heffect
      rcases heffect with h | rfl
      · rw [writesLevel_of_keepsLevel h]
        exact Or.inr (Or.inr ⟨rfl, rfl, hkeeps h⟩)
      · cases hhandler
        exact Or.inl ⟨rfl, rfl⟩
    | success =>
      rw [hcall] at heffect
      rcases heffect with h | rfl
      · rw [writesLevel_of_keepsLevel h]
        exact Or.inr (Or.inr ⟨rfl, rfl, hkeeps h⟩)
      · cases hhandler
        exact Or.inr (Or.inl ⟨rfl, rfl, satSub32_le s.state.backoffLevel 1⟩)
    | delay =>
      rw [hcall] at heffect
      rcases heffect with ⟨h, _⟩ | ⟨level, last, now, _, rfl⟩
      · rw [writesLevel_of_keepsLevel h]
        exact Or.inr (Or.inr ⟨rfl, rfl, hkeeps h⟩)
      · cases hhandler
        exact Or.inr (Or.inl ⟨rfl, rfl, decayBy_le _ s.state.backoffLevel⟩)

/-- **The level is bounded** in every reachable pool. -/
theorem level_le_max {config : ThrottleConfig} {p : Pool ThrottleShared Thread}
    (hr : (throttleSystem config).Reachable FreshStart p) :
    p.shared.state.backoffLevel ≤ config.maxBackoffLevel := by
  induction hr with
  | start h =>
    rw [h.2, UInt32.le_iff_toNat_le]
    exact Nat.zero_le _
  | step hr hs ih =>
    rcases level_step (reachable_of_fresh hr) hs with ⟨_, h⟩ | ⟨_, _, h⟩ | ⟨_, _, h⟩
    · rw [h]
      exact escalate_le _ _
    · exact UInt32.le_trans h ih
    · rw [h]
      exact ih

/-- **No escalation is lost**: without lowering steps the level rises by one for each, up to the
    maximum. -/
theorem escalations_counted {config : ThrottleConfig} {p q : Pool ThrottleShared Thread}
    {vs : List (Pool ThrottleShared Thread × Actor)}
    (hr : (throttleSystem config).Reachable FreshStart p)
    (hrun : (throttleSystem config).Run p vs q) (hvs : ∀ x ∈ vs, loweringStep x = false) :
    q.shared.state.backoffLevel.toNat =
      min (p.shared.state.backoffLevel.toNat + vs.countP escalationStep)
        config.maxBackoffLevel.toNat := by
  induction hrun with
  | refl =>
    have hle := UInt32.le_iff_toNat_le.mp (level_le_max hr)
    rw [List.countP_nil, Nat.add_zero, Nat.min_eq_left hle]
  | step hrun hs ih =>
    obtain ⟨hvs, hlast⟩ := List.forall_mem_append.mp hvs
    have ih := ih hvs
    rw [List.forall_mem_singleton] at hlast
    rw [List.countP_append, List.countP_singleton]
    rcases level_step ((reachable_of_fresh hr).run hrun) hs with ⟨he, h⟩ | ⟨_, hl, _⟩ | ⟨he, _, h⟩
    · rw [h, toNat_escalate, ih, he, if_pos rfl]
      omega
    · rw [hlast] at hl
      cases hl
    · rw [h, ih, he]
      rfl

/-! ## 3. The guarantees -/

/-- **What the operations on one domain state keep**, from a pool on. -/
structure EscalationsKept (config : ThrottleConfig) (p : Pool ThrottleShared Thread) : Prop where
  bounded : p.shared.state.backoffLevel ≤ config.maxBackoffLevel
  /-- A step that is no escalation does not raise the level, so none wraps it below zero. -/
  noWrap : ∀ w q, (throttleSystem config).Step p w q → escalationStep (p, w) = false →
    q.shared.state.backoffLevel ≤ p.shared.state.backoffLevel
  rateLimits : p.shared.state.totalRateLimits.toNat =
    p.total (Thread.added .totalRateLimits) % 2 ^ 64
  successes : p.shared.state.totalSuccesses.toNat =
    p.total (Thread.added .totalSuccesses) % 2 ^ 64
  counted : ∀ vs q, (throttleSystem config).Run p vs q → (∀ x ∈ vs, loweringStep x = false) →
    q.shared.state.backoffLevel.toNat =
      min (p.shared.state.backoffLevel.toNat + vs.countP escalationStep)
        config.maxBackoffLevel.toNat

/-- **ESCALATION IS BOUNDED AND NEVER LOST** in every pool reachable from a fresh domain state. -/
theorem escalations_kept {config : ThrottleConfig} {p : Pool ThrottleShared Thread}
    (hr : (throttleSystem config).Reachable FreshStart p) : EscalationsKept config p where
  bounded := level_le_max hr
  noWrap w q hs hno := by
    rcases level_step (reachable_of_fresh hr) hs with ⟨he, _⟩ | ⟨_, _, h⟩ | ⟨_, _, h⟩
    · rw [hno] at he
      cases he
    · exact h
    · exact UInt32.le_of_eq h
  rateLimits := by
    rw [← UInt64.toNat_ofNat', ← totals_exact hr (c := .totalRateLimits) nofun]
    rfl
  successes := by
    rw [← UInt64.toNat_ofNat', ← totals_exact hr (c := .totalSuccesses) nofun]
    rfl
  counted vs q hrun hvs := escalations_counted hr hrun hvs

/-- Two rate limits in step with each other on a fresh domain state. -/
theorem escalations_kept_of_two : ∃ p, EscalationsKept .default p ∧
    p.shared.state.backoffLevel = 2 ∧ p.shared.state.totalRateLimits = 2 := by
  have h₀ : (throttleSystem .default).Reachable FreshStart ⟨⟨7, .fresh⟩, []⟩ := .start ⟨rfl, rfl⟩
  have h₁ := h₀.step (.arrive ⟨rfl, .rateLimit, rfl⟩)
  have h₂ := h₁.step (.arrive ⟨rfl, .rateLimit, rfl⟩)
  have both : ∀ {s s₁ s₂ : ThrottleShared} {t t' u u' : Thread},
      (throttleSystem .default).Reachable FreshStart ⟨s, [t, u]⟩ → t.step s = some (s₁, t') →
      u.step s₁ = some (s₂, u') →
      (throttleSystem .default).Reachable FreshStart ⟨s₂, [t', u']⟩ :=
    fun h ht hu => (h.step (.at (i := 0) rfl ⟨ht, rfl⟩)).step (.at (i := 1) rfl ⟨hu, rfl⟩)
  have h₃ := both h₂ rfl rfl
  have h₄ := both h₃ rfl rfl
  have h₅ := both h₄ rfl rfl
  have h₆ := both h₅ rfl rfl
  have h₇ := both h₆ rfl rfl
  exact ⟨_, escalations_kept h₇, rfl, rfl⟩

end TransportBalancer
