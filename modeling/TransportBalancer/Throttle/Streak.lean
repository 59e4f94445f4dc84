/-
  File:      TransportBalancer/Throttle/Streak.lean
  Subject:   THE SUCCESS STREAK AMONG ALL OPERATIONS. `record_success` adds to the counter, and only
             later clears it; between the two the counter runs past the threshold, by no more than
             the successes that stand there.

  * `streak_move` -- what a step of any operation does to the counter: a move of a success, or
    nothing, or a reset;
  * `StreakInv`, `streak_inv_step` -- the counter against the successes about to reset it, and
    against those that have been counted and have crossed;
  * **`success_never_overflows`** -- the addition `prev + 1` has room, however many operations run;
  * **`recovery_at_most_in_parallel`** -- how much faster than configured a domain can recover.
-/
import TransportBalancer.Throttle.Escalation
import TransportBalancer.Throttle.Recovery

namespace TransportBalancer

open Interaction MachineWord TaskPool SuccessStage

/-! ## 1. Steps of all operations -/

/-- The step leaves the counter alone, or resets it. -/
def AtomicOp.KeepsStreak : AtomicOp → Prop
  | .store32 .consecutiveSuccesses v => v = 0
  | .fetchAdd32 .consecutiveSuccesses _ | .fetchUpdate32 .consecutiveSuccesses _ => False
  | _ => True

theorem keepsStreak_counter {e : AtomicOp} (he : e.KeepsStreak) {now : UInt64}
    {s s' : DomainThrottleState} {r : AtomicSig.Ans e} (h : atomicHandler now e s = some (r, s')) :
    s'.consecutiveSuccesses = s.consecutiveSuccesses ∨ s'.consecutiveSuccesses = 0 := by
  cases e with
  | panic => cases h
  | nowMillis | load32 | load64 =>
    cases h
    exact Or.inl rfl
  | store32 c v =>
    cases c with
    | backoffLevel =>
      cases h
      exact Or.inl rfl
    | consecutiveSuccesses =>
      obtain rfl := he
      cases h
      exact Or.inr rfl
  | fetchAdd32 c | fetchUpdate32 c =>
    cases c with
    | backoffLevel =>
      cases h
      exact Or.inl rfl
    | consecutiveSuccesses => exact he.elim
  | store64 c | fetchAdd64 c =>
    cases c <;> cases h <;> exact Or.inl rfl

theorem decayStep_keepsStreak (config : ThrottleConfig) (last : UInt64) :
    (decayStep config last).Performs AtomicOp.KeepsStreak := by
  unfold decayStep
  split
  · rw [nowMillis_bind]
    refine ⟨trivial, fun now _ => ?_⟩
    dsimp only
    unfold checkedDiv64
    split
    · rw [throwPanic_bind]
      exact ⟨trivial, fun r => Empty.elim r⟩
    · rw [pure_bind]
      split
      · exact ⟨trivial, fun _ _ => trivial⟩
      · exact trivial
  · exact trivial

/-- Only `record_success` lengthens the streak. -/
theorem call_keepsStreak (config : ThrottleConfig) {call : ThrottleCall} (h : call ≠ .success) :
    (call.program config).Performs AtomicOp.KeepsStreak := by
  cases call with
  | success => exact absurd rfl h
  | rateLimit | batchRejection =>
    exact ⟨trivial, fun _ _ => ⟨trivial, fun _ _ => ⟨rfl, fun _ _ => ⟨trivial, fun _ _ =>
      ⟨trivial, fun _ _ => trivial⟩⟩⟩⟩⟩
  | delay =>
    refine Program.Performs.bind ?_ fun _ => trivial
    unfold preRequestDelay
    rw [load32_bind]
    refine ⟨trivial, fun level _ => ?_⟩
    dsimp only
    split
    · exact trivial
    · rw [load64_bind]
      refine ⟨trivial, fun last _ => ?_⟩
      exact (decayStep_keepsStreak config last).bind fun _ => ⟨trivial, fun _ _ => trivial⟩

/-- The number of successes at stages that `f` counts. -/
def successesAt (config : ThrottleConfig) (f : SuccessStage → Nat)
    (p : Pool ThrottleShared Thread) : Nat :=
  p.total fun t => if t.call = .success then f (t.stage config) else 0

/-- **WHAT A STEP DOES TO THE STREAK**: it is the move of a success, or it leaves the counter alone
    or resets it, and no success moves. -/
theorem streak_move {config : ThrottleConfig} {p q : Pool ThrottleShared Thread} {w : Actor}
    (hr : (throttleSystem config).Reachable ThrottleStart p)
    (hs : (throttleSystem config).Step p w q) :
    (∃ i t t', w = .task i ∧ p.tasks[i]? = some t ∧ t.call = .success ∧
        SuccessMove config p.shared.state (t.stage config) q.shared.state (t'.stage config) ∧
        ∀ f, successesAt config f q + f (t.stage config) =
          successesAt config f p + f (Thread.stage config t')) ∨
      (NoSuccess p w ∧ (q.shared.state.consecutiveSuccesses = p.shared.state.consecutiveSuccesses ∨
          q.shared.state.consecutiveSuccesses = 0) ∧
        ∀ f, f .start = 0 → successesAt config f q = successesAt config f p) := by
  cases hs with
  | env h => exact Or.inr ⟨fun _ _ => nofun, Or.inl (by rw [show _ = _ from h.2]), fun _ _ => rfl⟩
  | @arrive s s' ts _ h =>
    obtain ⟨rfl, call, rfl⟩ := h
    refine Or.inr ⟨fun _ _ => nofun, Or.inl rfl, fun f hf => ?_⟩
    have hnew : f (Thread.stage config (.start config call)) = 0 := hf
    simp [successesAt, hnew]
  | @act s s' l r new t t' h =>
    obtain ⟨hstep, rfl⟩ := h
    have ht := thread_ok hr t (by simp)
    have hcall : t'.call = t.call := by
      obtain ⟨_, _, _, _, _, _, _, rfl⟩ := thread_step_cases hstep
      rfl
    have hsplit : ∀ f, successesAt config f ⟨s', l ++ t' :: (r ++ [])⟩ +
        (if t.call = .success then f (t.stage config) else 0) =
          successesAt config f ⟨s, l ++ t :: r⟩ +
            if t.call = .success then f (t'.stage config) else 0 := by
      intro f
      unfold successesAt
      rw [List.append_nil, total_split, total_split, hcall]
      omega
    by_cases hsuccess : t.call = .success
    · simp only [if_pos hsuccess] at hsplit
      exact Or.inl ⟨l.length, t, t', rfl, by simp, hsuccess, success_move ht hsuccess hstep, hsplit⟩
    · simp only [if_neg hsuccess, Nat.add_zero] at hsplit
      refine Or.inr ⟨fun i u hw hu => ?_, ?_, fun f _ => hsplit f⟩
      · cases hw
        obtain rfl : t = u := by simpa using hu
        exact hsuccess
      obtain ⟨e, k, a, st, hrest, hhandler, rfl, rfl⟩ := thread_step_cases hstep
      have hkeeps := (call_keepsStreak config hsuccess).steps ht.steps
        (Protocol.admitted_of_free (fun _ _ _ => trivial) _ _)
      rw [hrest] at hkeeps
      exact keepsStreak_counter hkeeps.1 hhandler

/-! ## 2. The counter -/

/-- A `record_success` that has reached the threshold and not reset the counter yet. -/
def Thread.resetting (t : Thread) : Bool := t.call == .success && t.aboutToReset

/-- **A success is counted among `n`**: fewer than `n` others are about to reset the counter. -/
def CountsAmong (n : Nat) (x : Pool ThrottleShared Thread × Actor) : Prop :=
  ∀ i t, x.2 = .task i → x.1.tasks[i]? = some t → t.aboutToCount = true →
    x.1.tasks.countP Thread.resetting < n

instance (n : Nat) : ∀ x, Decidable (CountsAmong n x)
  | (p, .task i) =>
    decidable_of_iff (∀ t ∈ p.tasks[i]?, t.aboutToCount = true →
        p.tasks.countP Thread.resetting < n)
      ⟨fun h _ t hw ht => by cases hw; exact h t ht, fun h t ht => h i t rfl ht⟩
  | (_, .env) | (_, .arrival) => isTrue fun _ _ => nofun

theorem successesAt_resets_le {config : ThrottleConfig} {p : Pool ThrottleShared Thread}
    (hr : (throttleSystem config).Reachable ThrottleStart p) :
    successesAt config resets p ≤ p.tasks.countP Thread.resetting := by
  rw [countP_eq_total]
  refine total_mono fun t ht => ?_
  unfold Thread.resetting
  by_cases hcall : t.call = .success
  · rw [if_pos hcall, hcall, BEq.rfl, Bool.true_and]
    cases hreset : t.aboutToReset with
    | false => rw [resets_of_aboutToReset (thread_ok hr t ht) hcall hreset]; exact Nat.le_refl _
    | true => cases t.stage config <;> decide
  · rw [if_neg hcall]
    exact Nat.zero_le _

/-- **The streak accounts**, for a threshold of `below + 1` and successes counted among `n`: the
    counter runs past the threshold only with successes about to reset it, and `n` that have
    crossed are paid for by no less than a threshold and the `n - 1` beyond it. -/
structure StreakInv (below n start counted crossed resetting counter : Nat) : Prop where
  past : counter ≤ below + resetting
  bounded : counter ≤ below + n
  paid : (below + n) * crossed + n * counter ≤
    n * (start + counted) + (below + n) * (counter - below)

section Accounts

variable {below n start counted crossed resetting counter : Nat}

/-- One more success below the threshold. -/
theorem StreakInv.short (h : StreakInv below n start counted crossed resetting counter)
    (hshort : counter < below) :
    StreakInv below n start (counted + 1) crossed resetting (counter + 1) := by
  obtain ⟨_, _, hpaid⟩ := h
  refine ⟨by omega, by omega, ?_⟩
  rw [Nat.sub_eq_zero_of_le (Nat.le_of_lt hshort)] at hpaid
  rw [Nat.sub_eq_zero_of_le hshort, ← Nat.add_assoc start, Nat.mul_succ, Nat.mul_succ]
  omega

/-- One more success that crosses: both sides grow by a threshold and what is shared. -/
theorem StreakInv.cross (h : StreakInv below n start counted crossed resetting counter)
    (hcross : below ≤ counter) (hamong : resetting < n) :
    StreakInv below n start (counted + 1) (crossed + 1) (resetting + 1) (counter + 1) := by
  obtain ⟨hpast, _, hpaid⟩ := h
  refine ⟨by omega, by omega, ?_⟩
  rw [Nat.sub_add_comm hcross, ← Nat.add_assoc start, Nat.mul_succ, Nat.mul_succ, Nat.mul_succ,
    Nat.mul_succ]
  omega

/-- A reset of the counter gives away what it says. -/
theorem StreakInv.reset (h : StreakInv below n start counted crossed resetting counter)
    (resetting' : Nat) : StreakInv below n start counted crossed resetting' 0 := by
  obtain ⟨_, hbounded, hpaid⟩ := h
  refine ⟨Nat.zero_le _, Nat.zero_le _, ?_⟩
  rw [Nat.mul_zero, Nat.add_zero, Nat.zero_sub, Nat.mul_zero, Nat.add_zero]
  rcases Nat.le_total counter below with hle | hle
  · rw [Nat.sub_eq_zero_of_le hle, Nat.mul_zero] at hpaid
    omega
  · -- what is past the threshold is no more than share it
    obtain ⟨k, rfl⟩ := Nat.exists_eq_add_of_le hle
    have hk := Nat.mul_le_mul_left below (Nat.le_of_add_le_add_left hbounded)
    rw [Nat.add_sub_cancel_left, Nat.mul_add n below k, Nat.add_mul below n k,
      Nat.mul_comm n below] at hpaid
    omega

/-- What has been recovered is paid for by what has been counted and is not on its way to recover
    another level. -/
theorem StreakInv.recovered (h : StreakInv below n start counted crossed resetting counter)
    {recovered finished : Nat} (hfinished : counted + recovered ≤ finished + crossed)
    (hcrossed : recovered + resetting ≤ crossed) :
    (below + n) * recovered ≤ n * (start + finished) := by
  obtain ⟨hpast, _, hpaid⟩ := h
  have hshare := Nat.mul_le_mul_left n hfinished
  rw [Nat.mul_add, Nat.mul_add] at hshare
  rw [Nat.add_mul, Nat.mul_add] at hpaid ⊢
  rcases Nat.le_total counter below with hle | hle
  · have hbelow := Nat.mul_le_mul_left below (Nat.le_of_add_right_le hcrossed)
    rw [Nat.sub_eq_zero_of_le hle, Nat.mul_zero] at hpaid
    omega
  · obtain ⟨k, rfl⟩ := Nat.exists_eq_add_of_le hle
    have hbelow := Nat.mul_le_mul_left below (show recovered + k ≤ crossed by omega)
    rw [Nat.add_sub_cancel_left, Nat.add_mul, Nat.mul_add] at hpaid
    rw [Nat.mul_add] at hbelow
    omega

end Accounts

/-- **A move of a success keeps the accounts**, if it is counted among `n`. -/
theorem streak_inv_move {config : ThrottleConfig} {s s' : DomainThrottleState}
    {g g' : SuccessStage}
    {below n start counted crossed resetting counted' crossed' resetting' : Nat}
    (hR : config.recoveryThreshold.toNat = below + 1) (hmove : SuccessMove config s g s' g')
    (h : StreakInv below n start counted crossed resetting s.consecutiveSuccesses.toNat)
    (hamong : g = .looked → resetting < n) (hcounts : counted' + g.counts = counted + g'.counts)
    (hcrosses : crossed' + g.crosses = crossed + g'.crosses)
    (hresets : resetting' + g.resets = resetting + g'.resets) :
    StreakInv below n start counted' crossed' resetting' s'.consecutiveSuccesses.toNat := by
  have hwrap : (s.consecutiveSuccesses + 1).toNat = s.consecutiveSuccesses.toNat + 1 ∨
      (s.consecutiveSuccesses + 1).toNat = 0 ∧ 2 ^ 32 ≤ s.consecutiveSuccesses.toNat + 1 := by
    have hlt := s.consecutiveSuccesses.toNat_lt
    rw [UInt32.toNat_add, show (1 : UInt32).toNat = 1 from rfl]
    omega
  have hlt := config.recoveryThreshold.toNat_lt
  cases hmove with
  | count | idle | look | recover =>
    obtain rfl : counted' = counted := by simpa [counts] using hcounts
    obtain rfl : crossed' = crossed := by simpa [crosses] using hcrosses
    obtain rfl : resetting' = resetting := hresets
    exact h
  | short hshort =>
    obtain rfl : counted' = counted + 1 := hcounts
    obtain rfl : crossed' = crossed := hcrosses
    obtain rfl : resetting' = resetting := hresets
    rcases hwrap with hsum | ⟨_, hend⟩
    · dsimp only
      rw [hsum]
      exact h.short (by omega)
    · omega
  | overflow hoverflow =>
    obtain rfl : counted' = counted := hcounts
    obtain rfl : crossed' = crossed := hcrosses
    rcases hwrap with hsum | ⟨hzero, _⟩
    · have hbound := (s.consecutiveSuccesses + 1).toNat_lt
      omega
    · dsimp only
      rw [hzero]
      exact h.reset resetting'
  | cross hcross =>
    obtain rfl : counted' = counted + 1 := hcounts
    obtain rfl : crossed' = crossed + 1 := hcrosses
    obtain rfl : resetting' = resetting + 1 := by simpa [resets] using hresets
    have hnext := h.cross (by omega) (hamong rfl)
    dsimp only
    rcases hwrap with hsum | ⟨hzero, _⟩
    · rw [hsum]
      exact hnext
    · rw [hzero]
      exact hnext.reset _
  | reset =>
    obtain rfl : counted' = counted := by simpa [counts] using hcounts
    obtain rfl : crossed' = crossed := by simpa [crosses] using hcrosses
    exact h.reset resetting'

/-- No operation running, and no streak at the threshold. -/
structure StreakStart (config : ThrottleConfig) (p : Pool ThrottleShared Thread) : Prop where
  tasks : p.tasks = []
  short : p.shared.state.consecutiveSuccesses < config.recoveryThreshold

theorem StreakStart.reachable {config : ThrottleConfig} {p q : Pool ThrottleShared Thread}
    {vs : List (Pool ThrottleShared Thread × Actor)} (hp : StreakStart config p)
    (hrun : (throttleSystem config).Run p vs q) :
    (throttleSystem config).Reachable ThrottleStart q := by
  have hstart : (throttleSystem config).Reachable ThrottleStart p := .start hp.tasks
  exact hstart.run hrun

/-- The streak accounts of a pool, of a run that started with a streak of `start`. -/
def StreakAccounts (config : ThrottleConfig) (n start : Nat) (p : Pool ThrottleShared Thread) :
    Prop :=
  StreakInv (config.recoveryThreshold.toNat - 1) n start (successesAt config counts p)
    (successesAt config crosses p) (successesAt config resets p)
    p.shared.state.consecutiveSuccesses.toNat

theorem successesAt_start {config : ThrottleConfig} {p : Pool ThrottleShared Thread}
    (hp : p.tasks = []) (f : SuccessStage → Nat) : successesAt config f p = 0 := by
  unfold successesAt Pool.total
  rw [hp]
  rfl

theorem streak_accounts_start {config : ThrottleConfig} {p : Pool ThrottleShared Thread}
    (hp : StreakStart config p) (n : Nat) :
    StreakAccounts config n p.shared.state.consecutiveSuccesses.toNat p := by
  have hshort := UInt32.lt_iff_toNat_lt.mp hp.short
  unfold StreakAccounts
  simp only [successesAt_start hp.tasks]
  refine ⟨by omega, by omega, ?_⟩
  rw [Nat.mul_zero, Nat.zero_add, Nat.add_zero]
  exact Nat.le_add_right _ _

/-- **A step of the pool keeps the accounts**, if a success it counts is counted among `n`. -/
theorem streak_accounts_step {config : ThrottleConfig} (hR : 1 ≤ config.recoveryThreshold)
    {p q : Pool ThrottleShared Thread} {w : Actor} {n start : Nat}
    (hr : (throttleSystem config).Reachable ThrottleStart p)
    (hs : (throttleSystem config).Step p w q) (hamong : CountsAmong n (p, w))
    (h : StreakAccounts config n start p) : StreakAccounts config n start q := by
  have hpos : 0 < config.recoveryThreshold.toNat := UInt32.le_iff_toNat_le.mp hR
  unfold StreakAccounts at h ⊢
  rcases streak_move hr hs with ⟨i, t, t', rfl, ht, hcall, hmove, hsum⟩ |
    ⟨_, hcounter, hsum⟩
  · refine streak_inv_move (Nat.sub_add_cancel hpos).symm hmove h (fun hlooked => ?_) (hsum counts)
      (hsum crosses) (hsum resets)
    exact Nat.lt_of_le_of_lt (successesAt_resets_le hr) (hamong i t rfl ht
      (looked_aboutToCount (thread_ok hr t (List.mem_of_getElem? ht)) hcall hlooked))
  · rw [hsum counts rfl, hsum crosses rfl, hsum resets rfl]
    rcases hcounter with hsame | hzero
    · rw [hsame]
      exact h
    · rw [hzero]
      exact h.reset _

/-- The accounts hold along a run. -/
theorem streak_accounts_run {config : ThrottleConfig} (hR : 1 ≤ config.recoveryThreshold)
    {p q : Pool ThrottleShared Thread} {vs : List (Pool ThrottleShared Thread × Actor)} {n : Nat}
    (hp : StreakStart config p) (hrun : (throttleSystem config).Run p vs q)
    (hamong : ∀ x ∈ vs, CountsAmong n x) :
    StreakAccounts config n p.shared.state.consecutiveSuccesses.toNat q := by
  induction hrun with
  | refl => exact streak_accounts_start hp n
  | step hrun hs ih =>
    obtain ⟨hamong, hlast⟩ := List.forall_mem_append.mp hamong
    exact streak_accounts_step hR (hp.reachable hrun) hs
      (hlast _ (List.mem_singleton_self _)) (ih hamong)

/-! ## 3. The addition has room -/

theorem overflowed_of_panic {config : ThrottleConfig} {s : ThrottleShared} {t : Thread}
    (ht : t.Ok config s) (hcall : t.call = .success) {msg : String}
    {k : Empty → Program AtomicSig Unit} (hrest : t.rest = .op (.panic msg) k) :
    t.stage config = .overflowed := by
  have hfollows := stage_follows ht hcall
  rw [hrest] at hfollows
  generalize t.stage config = g at hfollows ⊢
  cases g <;> first | rfl | exact hfollows.1.elim

/-- A success overflows the counter only as it counts. -/
def SuccessStage.overflows : SuccessStage → Nat
  | .overflowed => 1
  | _ => 0

theorem overflows_move {config : ThrottleConfig} {s s' : DomainThrottleState} {g g' : SuccessStage}
    (h : SuccessMove config s g s' g') :
    g'.overflows ≤ g.overflows ∨ g = .looked ∧ 2 ^ 32 ≤ s.consecutiveSuccesses.toNat + 1 := by
  cases h with
  | overflow h => exact Or.inr ⟨rfl, h⟩
  | _ => exact Or.inl (Nat.le_refl 0)

/-- **`record_success` never panics**: over any interleaving of the operations, as long as every
    success is counted with fewer than `n` others about to reset the counter, for an `n` that leaves
    room above the threshold, none of them overflows it. -/
theorem success_never_overflows {config : ThrottleConfig} (hR : 1 ≤ config.recoveryThreshold)
    {p q : Pool ThrottleShared Thread} {vs : List (Pool ThrottleShared Thread × Actor)} {n : Nat}
    (hp : StreakStart config p) (hrun : (throttleSystem config).Run p vs q)
    (hamong : ∀ x ∈ vs, CountsAmong n x) (hroom : config.recoveryThreshold.toNat + n ≤ 2 ^ 32) :
    ∀ t ∈ q.tasks, t.call = .success → ∀ msg k, t.rest ≠ .op (.panic msg) k := by
  have hnone : successesAt config SuccessStage.overflows q = 0 := by
    induction hrun with
    | refl => exact successesAt_start hp.tasks _
    | step hrun hs ih =>
      obtain ⟨hamong, hlast⟩ := List.forall_mem_append.mp hamong
      have hr := hp.reachable hrun
      have hacc := streak_accounts_run hR hp hrun hamong
      have ih := ih hamong
      rcases streak_move hr hs with ⟨i, t, t', rfl, ht, hcall, hmove, hsum⟩ | ⟨hno, _, hsum⟩
      · have hmoved := hsum SuccessStage.overflows
        rcases overflows_move hmove with hle | ⟨hlooked, hend⟩
        · omega
        · have hmem := List.mem_of_getElem? ht
          have hcount := looked_aboutToCount (thread_ok hr t hmem) hcall hlooked
          have hlt := hlast _ (List.mem_singleton_self _) i t rfl ht hcount
          have hle := successesAt_resets_le hr
          have hpast := hacc.past
          have hpos : 0 < config.recoveryThreshold.toNat := UInt32.le_iff_toNat_le.mp hR
          dsimp only at hlt
          omega
      · rw [hsum _ rfl]
        exact ih
  intro t ht hcall msg k hrest
  have hr := hp.reachable hrun
  have hone := List.sum_eq_zero_iff.mp hnone _ (List.mem_map_of_mem ht)
  rw [if_pos hcall, overflowed_of_panic (thread_ok hr t ht) hcall hrest] at hone
  exact Nat.one_ne_zero hone

/-- Three successes at once, with a threshold of two: the third is counted while the second has not
    reset the counter, which is past the threshold then. -/
theorem success_never_overflows_racing : ∃ vs q, (throttleSystem pairConfig).Run levelTwo vs q ∧
    q.tasks.countP Thread.resetting = 2 ∧ q.shared.state.consecutiveSuccesses = 3 ∧
    ∀ t ∈ q.tasks, t.call = .success → ∀ msg k, t.rest ≠ .op (.panic msg) k := by
  have h₀ : (throttleSystem pairConfig).Run levelTwo [] levelTwo := .refl
  have h₁ := h₀.step (.arrive ⟨rfl, .success, rfl⟩)
  have h₂ := h₁.step (.arrive ⟨rfl, .success, rfl⟩)
  have h₃ := h₂.step (.arrive ⟨rfl, .success, rfl⟩)
  have h₄ := h₃.step (.at (i := 2) rfl ⟨rfl, rfl⟩)
  have h₅ := h₄.step (.at (i := 0) rfl ⟨rfl, rfl⟩)
  have h₆ := h₅.step (.at (i := 1) rfl ⟨rfl, rfl⟩)
  have h₇ := h₆.step (.at (i := 2) rfl ⟨rfl, rfl⟩)
  have h₈ := h₇.step (.at (i := 0) rfl ⟨rfl, rfl⟩)
  have h₉ := h₈.step (.at (i := 1) rfl ⟨rfl, rfl⟩)
  have h₁₀ := h₉.step (.at (i := 0) rfl ⟨rfl, rfl⟩)
  have h₁₁ := h₁₀.step (.at (i := 1) rfl ⟨rfl, rfl⟩)
  have h₁₂ := h₁₁.step (.at (i := 2) rfl ⟨rfl, rfl⟩)
  have hfew : ∀ {vs : List (Pool ThrottleShared Thread × Actor)},
      (vs.all fun x => decide (CountsAmong 2 x)) = true → ∀ x ∈ vs, CountsAmong 2 x :=
    fun hall x hx => of_decide_eq_true (List.all_eq_true.mp hall x hx)
  exact ⟨_, _, h₁₂, rfl, rfl,
    success_never_overflows (by decide) ⟨rfl, by decide⟩ h₁₂ (hfew rfl) (by decide)⟩

/-! ## 4. Recovery in parallel -/

/-- A `record_success` writes the level: it recovers one. -/
def recoveryStep : Pool ThrottleShared Thread × Actor → Bool := writingStep (· == .success)

/-- The `record_success` calls that have returned. -/
def finishedSuccesses (p : Pool ThrottleShared Thread) : Nat :=
  p.tasks.countP fun t => t.call == .success && t.finished

theorem cleared_writesLevel {config : ThrottleConfig} {s : ThrottleShared} {t : Thread}
    (ht : t.Ok config s) (hcall : t.call = .success) :
    t.writesLevel = true ↔ t.stage config = .cleared := by
  have hfollows := stage_follows ht hcall
  unfold Thread.writesLevel
  generalize t.stage config = g at hfollows ⊢
  cases hrest : t.rest with
  | ret =>
    rw [hrest] at hfollows
    refine iff_of_false nofun fun h => ?_
    rw [h] at hfollows
    cases hfollows
  | op e k =>
    rw [hrest] at hfollows
    have hok := hfollows.1
    cases g <;> cases e <;> try exact hok.elim
    · exact iff_of_false nofun nofun
    · exact iff_of_false nofun nofun
    · obtain ⟨rfl, _⟩ := hok
      exact iff_of_false nofun nofun
    · exact iff_of_false nofun nofun
    · obtain ⟨rfl, _⟩ := hok
      exact iff_of_false nofun nofun
    · obtain ⟨rfl, _⟩ := hok
      exact iff_of_true rfl rfl

/-- Only the last move of a success recovers a level. -/
theorem recovers_of_cleared {config : ThrottleConfig} {s s' : DomainThrottleState}
    {g g' : SuccessStage} (h : SuccessMove config s g s' g') :
    g'.recovers = g.recovers + if g = .cleared then 1 else 0 := by
  cases h <;> rfl

/-- **A recovery is a step of the run** in which a success writes the level. -/
theorem recoveries_counted {config : ThrottleConfig} {p q : Pool ThrottleShared Thread}
    {vs : List (Pool ThrottleShared Thread × Actor)} (hp : StreakStart config p)
    (hrun : (throttleSystem config).Run p vs q) :
    vs.countP recoveryStep = successesAt config recovers q := by
  induction hrun with
  | refl => exact (successesAt_start hp.tasks _).symm
  | @step vs q q' w hrun hs ih =>
    have hr := hp.reachable hrun
    rw [List.countP_append, List.countP_singleton, ih]
    rcases streak_move hr hs with ⟨i, t, t', rfl, ht, hcall, hmove, hsum⟩ | ⟨hno, _, hsum⟩
    · have hmoved := hsum recovers
      have hcleared := cleared_writesLevel (thread_ok hr t (List.mem_of_getElem? ht)) hcall
      have hstep : recoveryStep (q, .task i) = t.writesLevel := by
        simp [recoveryStep, writingStep, ht, hcall]
      have hlast := recovers_of_cleared hmove
      simp only [hstep, hcleared]
      omega
    · rw [hsum _ rfl]
      have hstep : recoveryStep (q, w) = false := by
        cases w with
        | env | arrival => rfl
        | task i =>
          unfold recoveryStep writingStep
          cases ht : q.tasks[i]? with
          | none => simp [ht]
          | some t => simp [ht, hno i t rfl ht]
      rw [hstep]
      rfl

/-- **RECOVERY IN PARALLEL.** Over any interleaving of the operations in which every success is
    counted among `n`: `n` levels recovered are paid for by no less than a threshold of successes
    and `n - 1`, of those that have returned or were in the streak at the start. -/
theorem recovery_at_most_in_parallel {config : ThrottleConfig} (hR : 1 ≤ config.recoveryThreshold)
    {p q : Pool ThrottleShared Thread} {vs : List (Pool ThrottleShared Thread × Actor)} {n : Nat}
    (hp : StreakStart config p) (hrun : (throttleSystem config).Run p vs q)
    (hamong : ∀ x ∈ vs, CountsAmong n x) :
    (config.recoveryThreshold.toNat - 1 + n) * vs.countP recoveryStep ≤
      n * (p.shared.state.consecutiveSuccesses.toNat + finishedSuccesses q) := by
  have hr := hp.reachable hrun
  rw [recoveries_counted hp hrun]
  refine (streak_accounts_run hR hp hrun hamong).recovered ?_ ?_
  · unfold finishedSuccesses
    rw [countP_eq_total]
    unfold successesAt
    rw [← total_add, ← total_add]
    refine total_mono fun t ht => ?_
    by_cases hcall : t.call = .success
    · have := finished_of_counted (thread_ok hr t ht) hcall
      simpa [hcall] using this
    · simp [hcall]
  · unfold successesAt
    rw [← total_add]
    refine total_mono fun t _ => ?_
    split
    · cases t.stage config <;> decide
    · exact Nat.le_refl 0

/-- Three successes at once, with a threshold of two: the second and the third are counted before
    either resets the counter. -/
theorem recovery_in_parallel_of_three : ∃ vs q, (throttleSystem pairConfig).Run levelTwo vs q ∧
    (∀ x ∈ vs, CountsAmong 2 x) ∧ vs.countP recoveryStep = 2 ∧ finishedSuccesses q = 3 ∧
    (pairConfig.recoveryThreshold.toNat - 1 + 2) * vs.countP recoveryStep ≤
      2 * (levelTwo.shared.state.consecutiveSuccesses.toNat + finishedSuccesses q) := by
  have h₀ : (throttleSystem pairConfig).Run levelTwo [] levelTwo := .refl
  have h₁ := h₀.step (.arrive ⟨rfl, .success, rfl⟩)
  have h₂ := h₁.step (.arrive ⟨rfl, .success, rfl⟩)
  have h₃ := h₂.step (.arrive ⟨rfl, .success, rfl⟩)
  have h₄ := h₃.step (.at (i := 0) rfl ⟨rfl, rfl⟩)
  have h₅ := h₄.step (.at (i := 0) rfl ⟨rfl, rfl⟩)
  have h₆ := h₅.step (.at (i := 0) rfl ⟨rfl, rfl⟩)
  have h₇ := h₆.step (.at (i := 1) rfl ⟨rfl, rfl⟩)
  have h₈ := h₇.step (.at (i := 1) rfl ⟨rfl, rfl⟩)
  have h₉ := h₈.step (.at (i := 2) rfl ⟨rfl, rfl⟩)
  have h₁₀ := h₉.step (.at (i := 2) rfl ⟨rfl, rfl⟩)
  have h₁₁ := h₁₀.step (.at (i := 1) rfl ⟨rfl, rfl⟩)
  have h₁₂ := h₁₁.step (.at (i := 2) rfl ⟨rfl, rfl⟩)
  have h₁₃ := h₁₂.step (.at (i := 1) rfl ⟨rfl, rfl⟩)
  have h₁₄ := h₁₃.step (.at (i := 1) rfl ⟨rfl, rfl⟩)
  have h₁₅ := h₁₄.step (.at (i := 2) rfl ⟨rfl, rfl⟩)
  have h₁₆ := h₁₅.step (.at (i := 2) rfl ⟨rfl, rfl⟩)
  have hfew : ∀ {vs : List (Pool ThrottleShared Thread × Actor)},
      (vs.all fun x => decide (CountsAmong 2 x)) = true → ∀ x ∈ vs, CountsAmong 2 x :=
    fun hall x hx => of_decide_eq_true (List.all_eq_true.mp hall x hx)
  exact ⟨_, _, h₁₆, hfew rfl, rfl, rfl,
    recovery_at_most_in_parallel (by decide) ⟨rfl, by decide⟩ h₁₆ (hfew rfl)⟩

end TransportBalancer
