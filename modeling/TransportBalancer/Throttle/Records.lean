/-
  File:      TransportBalancer/Throttle/Records.lean
  Subject:   WHAT THE RECORDS WRITE (`record_success`, `record_rate_limit`, `record_batch_rejection`,
             `record_skip`), step by step and whatever other threads do in between.

  * `Traffic` -- what is recorded, each on a counter of its own; `SameBooks` -- nothing but the
    backoff level has moved;
  * `countProtocol` -- a record counts its traffic once, before it can panic; what is no record
    writes the backoff level only;
  * **`counts_step`**, `sameBooks_step` -- what a step of such an operation does to the counters.
-/
import Mathlib.Data.Nat.ModEq
import TransportBalancer.Throttle.Observers

namespace TransportBalancer

open Interaction MachineWord TaskPool

/-! ## 1. The books of a domain -/

/-- What is recorded of a domain: replies of its endpoints, and decisions to skip one. -/
inductive Traffic where
  | okReply
  | rateLimitReply
  | skipDecision
  deriving DecidableEq, Repr

/-- The counter of some traffic. -/
def Traffic.counter : Traffic → Cell64
  | .okReply => .totalSuccesses
  | .rateLimitReply => .totalRateLimits
  | .skipDecision => .totalSkips

/-- What a public operation records. -/
def ThrottleCall.traffic : ThrottleCall → Option Traffic
  | .rateLimit | .batchRejection => some .rateLimitReply
  | .success => some .okReply
  | .delay => none

/-- **The books stand as they were**: the counters, the success streak and the time of the last rate
    limit. -/
structure SameBooks (s s' : DomainThrottleState) : Prop where
  rateLimits : s'.totalRateLimits = s.totalRateLimits
  successes : s'.totalSuccesses = s.totalSuccesses
  skips : s'.totalSkips = s.totalSkips
  streak : s'.consecutiveSuccesses = s.consecutiveSuccesses
  lastRateLimit : s'.lastRateLimitAt = s.lastRateLimitAt

theorem SameBooks.refl (s : DomainThrottleState) : SameBooks s s := ⟨rfl, rfl, rfl, rfl, rfl⟩

theorem counter_ne_lastRateLimitAt (kind : Traffic) : kind.counter ≠ .lastRateLimitAt := by
  cases kind <;> exact nofun

theorem counter_inj {kind kind' : Traffic} (h : kind.counter = kind'.counter) : kind = kind' := by
  cases kind <;> cases kind' <;> first | rfl | cases h

@[simp] theorem get64_set64 (s : DomainThrottleState) (v : UInt64) (c c' : Cell64) :
    (s.set64 v c).get64 c' = if c' = c then v else s.get64 c' := by
  cases c <;> cases c' <;> rfl

@[simp] theorem get64_set32 (s : DomainThrottleState) (v : UInt32) (c : Cell32) (c' : Cell64) :
    (s.set32 v c).get64 c' = s.get64 c' := by
  cases c <;> cases c' <;> rfl

/-! ## 2. Counting once -/

/-- **The protocol of a record** of some traffic, from what it still has to count: it counts that
    once, and panics only afterwards. What records nothing writes the backoff level only. -/
def countProtocol (traffic : Option Traffic) : Protocol AtomicSig (Option Traffic) where
  ok due e :=
    match e with
    | .panic _ => due = none
    | .fetchAdd64 c v => ∃ kind, due = some kind ∧ traffic = some kind ∧ c = kind.counter ∧ v = 1
    | .store64 c _ => c = .lastRateLimitAt ∧ traffic.isSome = true
    | .store32 c _ | .fetchAdd32 c _ | .fetchUpdate32 c _ =>
      c = .backoffLevel ∨ traffic.isSome = true
    | _ => True
  admits _ _ _ := True
  next due e _ :=
    match e with
    | .fetchAdd64 _ _ => none
    | _ => due

/-- The program is a record of the traffic, or of nothing. -/
def Counts {α : Type} (traffic : Option Traffic) (p : Program AtomicSig α) : Prop :=
  p.Follows (countProtocol traffic) traffic fun due _ => due = none

theorem recordEscalation_counts (config : ThrottleConfig) :
    Counts (some .rateLimitReply) (recordEscalation config) :=
  ⟨trivial, fun _ _ => ⟨⟨rfl, rfl⟩, fun _ _ => ⟨Or.inr rfl, fun _ _ =>
    ⟨⟨_, rfl, rfl, rfl, rfl⟩, fun _ _ => ⟨Or.inl rfl, fun _ _ => rfl⟩⟩⟩⟩⟩

theorem recordSkip_counts : Counts (some .skipDecision) recordSkip :=
  ⟨⟨_, rfl, rfl, rfl, rfl⟩, fun _ _ => rfl⟩

/-- The overflow check of the streak comes after the count. -/
theorem recordSuccess_counts (config : ThrottleConfig) :
    Counts (some .okReply) (recordSuccess config) := by
  unfold recordSuccess Counts
  rw [fetchAdd64_bind]
  refine ⟨⟨_, rfl, rfl, rfl, rfl⟩, fun _ _ => ?_⟩
  rw [load32_bind]
  refine ⟨trivial, fun level _ => ?_⟩
  dsimp only
  split
  · exact rfl
  · rw [fetchAdd32_bind]
    refine ⟨Or.inr rfl, fun prev _ => ?_⟩
    dsimp only
    unfold checkedAdd32
    split
    · rw [pure_bind]
      split
      · exact ⟨Or.inr rfl, fun _ _ => ⟨Or.inl rfl, fun _ _ => rfl⟩⟩
      · exact rfl
    · rw [throwPanic_bind]
      exact ⟨rfl, nofun⟩

/-- Reading and decaying is no record. -/
theorem preRequestDelay_counts (config : ThrottleConfig) :
    Counts none (preRequestDelay config) := by
  refine (preRequestDelay_observes config).follows (P := countProtocol none) (γ := none) ?_ ?_
  · intro e he
    cases e with
    | panic => exact rfl
    | nowMillis | load32 | load64 => exact trivial
    | fetchUpdate32 c => cases c <;> first | exact Or.inl rfl | exact he.elim
    | store32 | store64 | fetchAdd32 | fetchAdd64 => exact he.elim
  · intro e r he
    cases e with
    | fetchAdd64 => rfl
    | _ => rfl

theorem program_counts (config : ThrottleConfig) (call : ThrottleCall) :
    Counts call.traffic (call.program config) := by
  cases call with
  | rateLimit | batchRejection => exact recordEscalation_counts config
  | success => exact recordSuccess_counts config
  | delay => exact (preRequestDelay_counts config).bind fun _ _ h => h

/-! ## 3. Steps -/

/-- One for traffic still to be counted. -/
def owes (due : Option Traffic) (kind : Traffic) : Nat := if due = some kind then 1 else 0

section Steps

variable {traffic due : Option Traffic} {e : AtomicOp} {r : AtomicSig.Ans e} {now : UInt64}
  {s s' : DomainThrottleState}

/-- **A STEP COUNTS WHAT IT WAS DUE TO COUNT**, up to wrapping, and no other traffic. -/
theorem counts_step (hok : (countProtocol traffic).ok due e)
    (h : atomicHandler now e s = some (r, s')) (kind : Traffic) :
    ∃ n, (s'.get64 kind.counter).toNat ≡ (s.get64 kind.counter).toNat + n [MOD 2 ^ 64] ∧
      n + owes ((countProtocol traffic).next due e r) kind = owes due kind := by
  cases e with
  | panic => cases h
  | nowMillis | load32 | load64 =>
    cases h
    exact ⟨0, Nat.ModEq.refl _, Nat.zero_add _⟩
  | store32 | fetchAdd32 | fetchUpdate32 =>
    cases h
    exact ⟨0, by simp [Nat.ModEq], Nat.zero_add _⟩
  | store64 c v =>
    cases h
    have hother : kind.counter ≠ c := hok.1 ▸ counter_ne_lastRateLimitAt kind
    exact ⟨0, by simp [Nat.ModEq, hother], Nat.zero_add _⟩
  | fetchAdd64 c v =>
    cases h
    obtain ⟨kind', rfl, _, rfl, rfl⟩ := hok
    rw [get64_set64]
    by_cases hkind : kind = kind'
    · subst hkind
      rw [if_pos rfl, UInt64.toNat_add]
      exact ⟨1, Nat.mod_modEq _ _, by simp [owes, countProtocol]⟩
    · rw [if_neg fun hc => hkind (counter_inj hc)]
      exact ⟨0, Nat.ModEq.refl _, by simp [owes, countProtocol, Ne.symm hkind]⟩

/-- **A step of what is no record** leaves the books. -/
theorem sameBooks_step (hok : (countProtocol none).ok due e)
    (h : atomicHandler now e s = some (r, s')) : SameBooks s s' := by
  cases e with
  | panic => cases h
  | nowMillis | load32 | load64 =>
    cases h
    exact .refl _
  | store32 c | fetchAdd32 c | fetchUpdate32 c =>
    cases h
    rw [hok.resolve_right Bool.false_ne_true]
    exact ⟨rfl, rfl, rfl, rfl, rfl⟩
  | store64 => exact absurd hok.2 Bool.false_ne_true
  | fetchAdd64 =>
    obtain ⟨_, _, hkind, _⟩ := hok
    cases hkind

end Steps

end TransportBalancer
