/-
  File:      TransportBalancer/Throttle/Recovery.lean
  Subject:   RECOVERY IS PAID FOR BY SUCCESSES, as long as no success is counted between another
             one's reaching of the threshold and its reset of the counter.

  * `SuccessStage`, `successStages` -- `record_success` as a state machine, and `success_move`:
    a step of a success is a step of the machine;
  * `Accounts` -- the successes counted, against those that reached the threshold and the counter;
  * **`recovery_paid`** -- each level recovered is paid for by `recovery_threshold` successes;
  * `levels_recovered_at_once` -- two successes that reach the threshold together recover twice.
-/
import TransportBalancer.Throttle.Threads

namespace TransportBalancer

open Interaction MachineWord TaskPool

/-! ## 1. The machine -/

/-- Where a `record_success` is: not begun, having counted the total, having seen a level, ended
    without one, ended below the threshold, at the overflow of the counter, at the threshold, with
    the counter reset, ended with a level recovered. -/
inductive SuccessStage where
  | start
  | begun
  | looked
  | idle
  | short
  | overflowed
  | crossed
  | cleared
  | recovered
  deriving DecidableEq, Repr

/-- **The stages as a protocol**: each allows one step. -/
def successStages (config : ThrottleConfig) : Protocol AtomicSig SuccessStage where
  ok g e :=
    match g, e with
    | .start, .fetchAdd64 c v => c = .totalSuccesses ∧ v = 1
    | .begun, .load32 c => c = .backoffLevel
    | .looked, .fetchAdd32 c v => c = .consecutiveSuccesses ∧ v = 1
    | .overflowed, .panic _ => True
    | .crossed, .store32 c v => c = .consecutiveSuccesses ∧ v = 0
    | .cleared, .fetchUpdate32 c f => c = .backoffLevel ∧ f = fun cur => satSub32 cur 1
    | _, _ => False
  admits _ _ _ := True
  next g e r :=
    match g, e, r with
    | .start, _, _ => .begun
    | .begun, .load32 _, level => if level = 0 then .idle else .looked
    | .looked, .fetchAdd32 _ _, prev =>
      if prev.toNat + 1 < 2 ^ 32 then
        if prev + 1 ≥ config.recoveryThreshold then .crossed else .short
      else .overflowed
    | .crossed, _, _ => .cleared
    | .cleared, _, _ => .recovered
    | g, _, _ => g

/-- The stages a `record_success` can return at. -/
def SuccessStage.ends : SuccessStage → Bool
  | .idle | .short | .recovered => true
  | _ => false

theorem recordSuccess_stages (config : ThrottleConfig) :
    (recordSuccess config).Follows (successStages config) .start fun g _ => g.ends = true := by
  unfold recordSuccess
  rw [fetchAdd64_bind]
  refine ⟨⟨rfl, rfl⟩, fun _ _ => ?_⟩
  rw [load32_bind]
  refine ⟨rfl, fun level _ => ?_⟩
  simp only [successStages]
  split
  · rfl
  · rw [fetchAdd32_bind]
    refine ⟨⟨rfl, rfl⟩, fun prev _ => ?_⟩
    simp only
    unfold checkedAdd32
    rw [show (1 : UInt32).toNat = 1 from rfl]
    split
    · rw [pure_bind]
      split
      · exact ⟨⟨rfl, rfl⟩, fun _ _ => ⟨⟨rfl, rfl⟩, fun _ _ => rfl⟩⟩
      · rfl
    · rw [throwPanic_bind]
      exact ⟨trivial, nofun⟩

/-- The stage a thread's steps have brought it to. -/
def Thread.stage (config : ThrottleConfig) (t : Thread) : SuccessStage :=
  (successStages config).after .start t.done

theorem stage_follows {config : ThrottleConfig} {s : ThrottleShared} {t : Thread}
    (ht : t.Ok config s) (hcall : t.call = .success) :
    t.rest.Follows (successStages config) (t.stage config) fun g _ => g.ends = true := by
  have hsteps := ht.steps
  rw [hcall] at hsteps
  exact (recordSuccess_stages config).steps hsteps
    (Protocol.admitted_of_free (fun _ _ _ => trivial) _ _)

/-- **What a step of a `record_success` does.** -/
inductive SuccessMove (config : ThrottleConfig) (s : DomainThrottleState) :
    SuccessStage → DomainThrottleState → SuccessStage → Prop where
  | count : SuccessMove config s .start { s with totalSuccesses := s.totalSuccesses + 1 } .begun
  | idle (h : s.backoffLevel = 0) : SuccessMove config s .begun s .idle
  | look (h : s.backoffLevel ≠ 0) : SuccessMove config s .begun s .looked
  | short (h : s.consecutiveSuccesses.toNat + 1 < config.recoveryThreshold.toNat) :
      SuccessMove config s .looked
        { s with consecutiveSuccesses := s.consecutiveSuccesses + 1 } .short
  | overflow (h : 2 ^ 32 ≤ s.consecutiveSuccesses.toNat + 1) :
      SuccessMove config s .looked
        { s with consecutiveSuccesses := s.consecutiveSuccesses + 1 } .overflowed
  | cross (h : config.recoveryThreshold.toNat ≤ s.consecutiveSuccesses.toNat + 1) :
      SuccessMove config s .looked
        { s with consecutiveSuccesses := s.consecutiveSuccesses + 1 } .crossed
  | reset : SuccessMove config s .crossed { s with consecutiveSuccesses := 0 } .cleared
  | recover : SuccessMove config s .cleared
      { s with backoffLevel := satSub32 s.backoffLevel 1 } .recovered

/-- **A step of a success is a step of the machine.** -/
theorem success_move {config : ThrottleConfig} {s s' : ThrottleShared} {t t' : Thread}
    (ht : t.Ok config s) (hcall : t.call = .success) (hs : t.step s = some (s', t')) :
    SuccessMove config s.state (t.stage config) s'.state (t'.stage config) := by
  have hfollows := stage_follows ht hcall
  obtain ⟨e, k, r, st, hrest, hstep, rfl, rfl⟩ := thread_step_cases hs
  rw [hrest] at hfollows
  have hok := hfollows.1
  have hstage : Thread.stage config { t with done := t.done ++ [⟨e, r⟩], rest := k r } =
      (successStages config).next (t.stage config) e r := Protocol.after_append _ _ _ _
  rw [hstage]
  generalize t.stage config = g at hok ⊢
  cases g <;> cases e <;> try exact hok.elim
  · obtain ⟨rfl, rfl⟩ := hok
    cases hstep
    exact .count
  · obtain rfl := hok
    cases hstep
    simp only [successStages]
    split
    · exact .idle ‹_›
    · exact .look ‹_›
  · obtain ⟨rfl, rfl⟩ := hok
    cases hstep
    simp only [successStages]
    split
    · rename_i hfits
      have hnext : (s.state.consecutiveSuccesses + 1).toNat =
          s.state.consecutiveSuccesses.toNat + 1 := by
        rw [UInt32.toNat_add]
        exact Nat.mod_eq_of_lt hfits
      split
      · rename_i h
        exact .cross (hnext ▸ UInt32.le_iff_toNat_le.mp h)
      · rename_i h
        rw [ge_iff_le, UInt32.le_iff_toNat_le] at h
        exact .short (Nat.lt_of_not_le (hnext ▸ h))
    · exact .overflow (Nat.le_of_not_lt ‹_›)
  · cases hstep
  · obtain ⟨rfl, rfl⟩ := hok
    cases hstep
    exact .reset
  · obtain ⟨rfl, rfl⟩ := hok
    cases hstep
    exact .recover

/-! ## 2. The accounts -/

namespace SuccessStage

/-- The success has been counted. -/
def counts : SuccessStage → Nat
  | .short | .crossed | .cleared | .recovered => 1
  | _ => 0

/-- It has reached the threshold. -/
def crosses : SuccessStage → Nat
  | .crossed | .cleared | .recovered => 1
  | _ => 0

/-- It has reached the threshold and not reset the counter yet. -/
def resets : SuccessStage → Nat
  | .crossed => 1
  | _ => 0

/-- It has recovered a level. -/
def recovers : SuccessStage → Nat
  | .recovered => 1
  | _ => 0

end SuccessStage

open SuccessStage

/-- The number of threads at stages that `f` counts. -/
def atStages (config : ThrottleConfig) (f : SuccessStage → Nat) (p : Pool ThrottleShared Thread) :
    Nat :=
  p.total fun t => f (t.stage config)

/-- **Balanced accounts**: the successes counted are a threshold for each that has reached it, and
    what the counter says. -/
structure Balanced (threshold counted crossed resetting counter : Nat) : Prop where
  sum : counted = threshold * crossed + if resetting = 0 then counter else 0
  oneResets : resetting ≤ 1
  below : resetting = 0 → counter < threshold

/-- The accounts of a pool of successes are balanced. -/
def Accounts (config : ThrottleConfig) (p : Pool ThrottleShared Thread) : Prop :=
  Balanced config.recoveryThreshold.toNat (atStages config counts p) (atStages config crosses p)
    (atStages config resets p) p.shared.state.consecutiveSuccesses.toNat

/-- **A move keeps the accounts balanced** if a success is counted with nobody resetting. -/
theorem balanced_move {config : ThrottleConfig} {s s' : DomainThrottleState} {g g' : SuccessStage}
    {counted crossed resetting counted' crossed' resetting' : Nat}
    (hpos : 0 < config.recoveryThreshold.toNat) (hmove : SuccessMove config s g s' g')
    (h : Balanced config.recoveryThreshold.toNat counted crossed resetting
      s.consecutiveSuccesses.toNat)
    (halone : g = .looked → resetting = 0) (hcounts : counted' + g.counts = counted + g'.counts)
    (hcrosses : crossed' + g.crosses = crossed + g'.crosses)
    (hresets : resetting' + g.resets = resetting + g'.resets) :
    Balanced config.recoveryThreshold.toNat counted' crossed' resetting'
      s'.consecutiveSuccesses.toNat := by
  obtain ⟨hsum, hone, hbelow⟩ := h
  have hthreshold := config.recoveryThreshold.toNat_lt
  cases hmove with
  | count | idle | look | recover =>
    obtain rfl : counted' = counted := by simpa [counts] using hcounts
    obtain rfl : crossed' = crossed := by simpa [crosses] using hcrosses
    obtain rfl : resetting' = resetting := hresets
    exact ⟨hsum, hone, hbelow⟩
  | short hshort =>
    obtain rfl := halone rfl
    obtain rfl : counted' = counted + 1 := hcounts
    obtain rfl : crossed' = crossed := hcrosses
    obtain rfl : resetting' = 0 := hresets
    have hcounter : (s.consecutiveSuccesses + 1).toNat = s.consecutiveSuccesses.toNat + 1 := by
      rw [UInt32.toNat_add]
      exact Nat.mod_eq_of_lt (Nat.lt_trans hshort hthreshold)
    refine ⟨?_, Nat.zero_le _, fun _ => hcounter ▸ hshort⟩
    rw [hcounter, hsum]
    rfl
  | overflow hoverflow =>
    obtain rfl := halone rfl
    have := hbelow rfl
    omega
  | cross hcross =>
    -- the counter stood one below the threshold, and counts a whole threshold now
    obtain rfl := halone rfl
    obtain rfl : counted' = counted + 1 := hcounts
    obtain rfl : crossed' = crossed + 1 := hcrosses
    obtain rfl : resetting' = 1 := by simpa [resets] using hresets
    refine ⟨?_, Nat.le_refl _, nofun⟩
    have := hbelow rfl
    rw [if_pos rfl] at hsum
    rw [if_neg Nat.one_ne_zero, Nat.mul_succ]
    omega
  | reset =>
    obtain rfl : counted' = counted := by simpa [counts] using hcounts
    obtain rfl : crossed' = crossed := by simpa [crosses] using hcrosses
    have hone' : resetting' + 1 = resetting := hresets
    obtain rfl : resetting' = 0 := by omega
    obtain rfl : resetting = 1 := hone'.symm
    exact ⟨hsum, Nat.zero_le _, fun _ => hpos⟩

/-- The next step of the thread counts its success. -/
def Thread.aboutToCount (t : Thread) : Bool :=
  match t.rest with
  | .op (.fetchAdd32 .consecutiveSuccesses _) _ => true
  | _ => false

/-- The next step of the thread resets the counter. -/
def Thread.aboutToReset (t : Thread) : Bool :=
  match t.rest with
  | .op (.store32 .consecutiveSuccesses _) _ => true
  | _ => false

/-- **A success is counted alone**: nobody else is about to reset the counter. -/
def CountsAlone (x : Pool ThrottleShared Thread × Actor) : Prop :=
  ∀ i t, x.2 = .task i → x.1.tasks[i]? = some t → t.aboutToCount = true →
    ∀ u ∈ x.1.tasks, u.aboutToReset = false

instance : ∀ x, Decidable (CountsAlone x)
  | (p, .task i) =>
    decidable_of_iff (∀ t ∈ p.tasks[i]?, t.aboutToCount = true →
        ∀ u ∈ p.tasks, u.aboutToReset = false)
      ⟨fun h _ t hw ht => by cases hw; exact h t ht, fun h t ht => h i t rfl ht⟩
  | (_, .env) | (_, .arrival) => isTrue fun _ _ => nofun

theorem resets_of_aboutToReset {config : ThrottleConfig} {s : ThrottleShared} {t : Thread}
    (ht : t.Ok config s) (hcall : t.call = .success) (h : t.aboutToReset = false) :
    (t.stage config).resets = 0 := by
  have hfollows := stage_follows ht hcall
  unfold Thread.aboutToReset at h
  generalize t.stage config = g at hfollows ⊢
  cases g with
  | crossed =>
    cases hrest : t.rest with
    | ret =>
      rw [hrest] at hfollows
      cases hfollows
    | op e k =>
      rw [hrest] at hfollows h
      cases e <;> try exact hfollows.1.elim
      obtain ⟨⟨rfl, rfl⟩, _⟩ := hfollows
      cases h
  | _ => rfl

theorem looked_aboutToCount {config : ThrottleConfig} {s : ThrottleShared} {t : Thread}
    (ht : t.Ok config s) (hcall : t.call = .success) (h : t.stage config = .looked) :
    t.aboutToCount = true := by
  have hfollows := stage_follows ht hcall
  unfold Thread.aboutToCount
  rw [h] at hfollows
  cases hrest : t.rest with
  | ret =>
    rw [hrest] at hfollows
    cases hfollows
  | op e k =>
    rw [hrest] at hfollows
    cases e <;> try exact hfollows.1.elim
    obtain ⟨⟨rfl, rfl⟩, _⟩ := hfollows
    rfl

/-- A success that has just begun counts nowhere. -/
theorem atStages_arrive (config : ThrottleConfig) {f : SuccessStage → Nat} (hf : f .start = 0)
    (s s' : ThrottleShared) (ts : List Thread) (call : ThrottleCall) :
    atStages config f ⟨s', ts ++ [.start config call]⟩ = atStages config f ⟨s, ts⟩ := by
  have hnew : f (Thread.stage config (.start config call)) = 0 := hf
  simp [atStages, hnew]

/-- A step moves one thread from its stage to another. -/
theorem atStages_act (config : ThrottleConfig) (f : SuccessStage → Nat) (s s' : ThrottleShared)
    (l r : List Thread) (t t' : Thread) :
    atStages config f ⟨s', l ++ t' :: (r ++ [])⟩ + f (t.stage config) =
      atStages config f ⟨s, l ++ t :: r⟩ + f (t'.stage config) := by
  unfold atStages
  rw [List.append_nil, total_split, total_split]
  omega

/-- **A step keeps the accounts** if a success it counts is counted alone. -/
theorem accounts_step {config : ThrottleConfig} (hpos : 0 < config.recoveryThreshold.toNat)
    {p q : Pool ThrottleShared Thread} {w : Actor}
    (hr : (throttleSystem config).Reachable ThrottleStart p)
    (hcalls : ∀ t ∈ p.tasks, t.call = .success) (h : Accounts config p)
    (hs : (throttleSystem config).Step p w q) (halone : CountsAlone (p, w)) :
    Accounts config q := by
  have hok := thread_ok hr
  unfold Accounts at h ⊢
  cases hs with
  | env he =>
    obtain ⟨_, he⟩ := he
    rw [he]
    exact h
  | @arrive s s' ts _ ha =>
    obtain ⟨rfl, call, rfl⟩ := ha
    rw [atStages_arrive config rfl s', atStages_arrive config rfl s',
      atStages_arrive config rfl s']
    exact h
  | @act s s' l r new t t' hact =>
    obtain ⟨hstep, rfl⟩ := hact
    have hmem : t ∈ l ++ t :: r := by simp
    refine balanced_move hpos (success_move (hok t hmem) (hcalls t hmem) hstep) h (fun hstage => ?_)
      (atStages_act config counts s s' l r t t') (atStages_act config crosses s s' l r t t')
      (atStages_act config resets s s' l r t t')
    refine List.sum_eq_zero fun n hn => ?_
    obtain ⟨u, hu, rfl⟩ := List.mem_map.mp hn
    exact resets_of_aboutToReset (hok u hu) (hcalls u hu)
      (halone l.length t rfl (by simp) (looked_aboutToCount (hok t hmem) (hcalls t hmem) hstage)
        u hu)

/-! ## 3. Recoveries -/

/-- A move lowers the level only as it recovers one. -/
theorem recovers_move {config : ThrottleConfig} {s s' : DomainThrottleState} {g g' : SuccessStage}
    (h : SuccessMove config s g s' g') :
    s.backoffLevel.toNat + g.recovers ≤ s'.backoffLevel.toNat + g'.recovers := by
  cases h with
  | recover =>
    show s.backoffLevel.toNat + 0 ≤ (satSub32 s.backoffLevel 1).toNat + 1
    rw [toNat_satSub32]
    show _ ≤ _ - 1 + 1
    omega
  | _ => exact Nat.le_refl _

/-- **A step lowers the level only as it recovers one.** -/
theorem recoveries_step {config : ThrottleConfig} {p q : Pool ThrottleShared Thread} {w : Actor}
    (hr : (throttleSystem config).Reachable ThrottleStart p)
    (hcalls : ∀ t ∈ p.tasks, t.call = .success) (hs : (throttleSystem config).Step p w q) :
    p.shared.state.backoffLevel.toNat + atStages config recovers p ≤
      q.shared.state.backoffLevel.toNat + atStages config recovers q := by
  cases hs with
  | env he =>
    rw [show _ = _ from he.2]
    exact Nat.le_refl _
  | @arrive s s' ts _ ha =>
    obtain ⟨rfl, call, rfl⟩ := ha
    rw [atStages_arrive config rfl s']
  | @act s s' l r new t t' hact =>
    obtain ⟨hstep, rfl⟩ := hact
    have hmem : t ∈ l ++ t :: r := by simp
    have hmove : s.state.backoffLevel.toNat + _ ≤ s'.state.backoffLevel.toNat + _ :=
      recovers_move (success_move (thread_ok hr t hmem) (hcalls t hmem) hstep)
    have hrecovers := atStages_act config recovers s s' l r t t'
    simp only
    omega

/-- A thread that has returned. -/
def Thread.finished (t : Thread) : Bool :=
  match t.rest with
  | .ret _ => true
  | .op _ _ => false

/-- The operations that have returned. -/
def finishedCalls (p : Pool ThrottleShared Thread) : Nat :=
  p.total fun t => if t.finished = true then 1 else 0

/-- A success that has been counted has returned, unless it is on its way to recover a level. -/
theorem finished_of_counted {config : ThrottleConfig} {s : ThrottleShared} {t : Thread}
    (ht : t.Ok config s) (hcall : t.call = .success) :
    (t.stage config).counts + (t.stage config).recovers ≤
      (if t.finished = true then 1 else 0) + (t.stage config).crosses := by
  have hfollows := stage_follows ht hcall
  unfold Thread.finished
  generalize t.stage config = g at hfollows ⊢
  cases hrest : t.rest with
  | ret => cases g <;> simp [counts, recovers, crosses]
  | op e k =>
    rw [hrest] at hfollows
    cases g <;> first | exact Nat.le_refl _ | exact Nat.zero_le _ | exact hfollows.1.elim

/-- **Recoveries are paid for**, each by a threshold of calls that have returned. -/
theorem recoveries_finished {config : ThrottleConfig} {p : Pool ThrottleShared Thread}
    (hr : (throttleSystem config).Reachable ThrottleStart p)
    (hcalls : ∀ t ∈ p.tasks, t.call = .success) (h : Accounts config p)
    (hpos : 0 < config.recoveryThreshold.toNat) :
    config.recoveryThreshold.toNat * atStages config recovers p ≤ finishedCalls p := by
  have hle : atStages config counts p + atStages config recovers p ≤
      finishedCalls p + atStages config crosses p := by
    unfold atStages finishedCalls
    rw [← total_add, ← total_add]
    exact total_mono fun t ht => finished_of_counted (thread_ok hr t ht) (hcalls t ht)
  have hcrosses : atStages config recovers p ≤ atStages config crosses p :=
    total_mono fun t _ => by cases t.stage config <;> decide
  have hsum := h.sum
  generalize atStages config recovers p = recovered at *
  generalize atStages config crosses p = crossed at *
  obtain ⟨n, hn⟩ := Nat.exists_eq_succ_of_ne_zero (Nat.ne_of_gt hpos)
  obtain ⟨m, rfl⟩ := Nat.exists_eq_add_of_le hcrosses
  rw [hn, Nat.succ_mul] at hsum
  rw [hn, Nat.succ_mul]
  have := Nat.mul_le_mul_left n hcrosses
  omega

/-- Without any condition a recovery is a call that has returned. -/
theorem recoveries_le_finished {config : ThrottleConfig} {p : Pool ThrottleShared Thread}
    (hr : (throttleSystem config).Reachable ThrottleStart p)
    (hcalls : ∀ t ∈ p.tasks, t.call = .success) :
    atStages config recovers p ≤ finishedCalls p := by
  refine total_mono fun t ht => ?_
  have h := finished_of_counted (thread_ok hr t ht) (hcalls t ht)
  have hcrosses : (t.stage config).recovers + (t.stage config).crosses ≤
      (t.stage config).counts + (t.stage config).recovers := by
    cases t.stage config <;> decide
  omega

/-- What all calls are at the end of a run they were before. -/
theorem calls_before {config : ThrottleConfig} {p q : Pool ThrottleShared Thread} {w : Actor}
    (hs : (throttleSystem config).Step p w q) {call : ThrottleCall}
    (h : ∀ t ∈ q.tasks, t.call = call) : ∀ t ∈ p.tasks, t.call = call := by
  intro t ht
  obtain ⟨i, hi⟩ := List.mem_iff_getElem?.mp ht
  obtain ⟨t', ht', hcall⟩ := call_kept (.step .refl hs) hi
  rw [← hcall]
  exact h t' (List.mem_of_getElem? ht')

/-- **RECOVERY IS PAID FOR.** From a domain state with no success counted, over any interleaving of
    successes that are counted alone (or with a threshold of one): each level recovered is paid
    for by a threshold of successes. -/
theorem recovery_paid {config : ThrottleConfig} (hR : 1 ≤ config.recoveryThreshold)
    {p q : Pool ThrottleShared Thread} {vs : List (Pool ThrottleShared Thread × Actor)}
    (hp : ThrottleStart p) (hcounter : p.shared.state.consecutiveSuccesses = 0)
    (hrun : (throttleSystem config).Run p vs q) (hcalls : ∀ t ∈ q.tasks, t.call = .success)
    (hcond : config.recoveryThreshold = 1 ∨ ∀ x ∈ vs, CountsAlone x) :
    p.shared.state.backoffLevel.toNat - finishedCalls q / config.recoveryThreshold.toNat ≤
      q.shared.state.backoffLevel.toNat := by
  have hpos : 0 < config.recoveryThreshold.toNat := UInt32.le_iff_toNat_le.mp hR
  have hempty : ∀ f, atStages config f p = 0 := by
    intro f
    unfold atStages Pool.total
    rw [show p.tasks = [] from hp]
    rfl
  have hlevel : p.shared.state.backoffLevel.toNat ≤
      q.shared.state.backoffLevel.toNat + atStages config recovers q := by
    induction hrun with
    | refl => exact Nat.le_add_right _ _
    | step hrun hs ih =>
      have hcalls := calls_before hs hcalls
      have hcond := hcond.imp_right fun h x hx => h x (List.mem_append_left _ hx)
      exact (ih hcalls hcond).trans
        (recoveries_step ((System.Reachable.start hp).run hrun) hcalls hs)
  have hr := (System.Reachable.start hp).run hrun
  have hpaid : config.recoveryThreshold.toNat * atStages config recovers q ≤ finishedCalls q := by
    rcases hcond with hone | halone
    · rw [hone]
      exact (Nat.one_mul _).trans_le (recoveries_le_finished hr hcalls)
    · refine recoveries_finished hr hcalls ?_ hpos
      clear hlevel hr
      induction hrun with
      | refl =>
        refine ⟨?_, ?_, fun _ => ?_⟩
        · simp only [hempty, hcounter]
          rfl
        · rw [hempty]
          exact Nat.zero_le _
        · rw [hcounter]
          exact hpos
      | step hrun hs ih =>
        obtain ⟨halone, hlast⟩ := List.forall_mem_append.mp halone
        have hcalls := calls_before hs hcalls
        exact accounts_step hpos ((System.Reachable.start hp).run hrun) hcalls (ih hcalls halone)
          hs (hlast _ (List.mem_singleton_self _))
  have hdiv := (Nat.le_div_iff_mul_le hpos).mpr ((Nat.mul_comm _ _).trans_le hpaid)
  omega

/-! ## 4. Two successes at the threshold -/

/-- The default with a threshold of two. -/
def pairConfig : ThrottleConfig := { ThrottleConfig.default with recoveryThreshold := 2 }

/-- A domain state at level 2 with no success counted. -/
def levelTwo : Pool ThrottleShared Thread :=
  ⟨⟨0, { DomainThrottleState.fresh with backoffLevel := 2 }⟩, []⟩

/-- The law on two successes that are begun together and counted one after the other: the second
    reaches the threshold and recovers a level. -/
theorem recovery_paid_interleaved : ∃ vs q, (throttleSystem pairConfig).Run levelTwo vs q ∧
    q.shared.state.backoffLevel = 1 ∧ finishedCalls q = 2 ∧
    levelTwo.shared.state.backoffLevel.toNat -
      finishedCalls q / pairConfig.recoveryThreshold.toNat ≤
        q.shared.state.backoffLevel.toNat := by
  have h₀ : (throttleSystem pairConfig).Run levelTwo [] levelTwo := .refl
  have h₁ := h₀.step (.arrive ⟨rfl, .success, rfl⟩)
  have h₂ := h₁.step (.arrive ⟨rfl, .success, rfl⟩)
  have h₃ := h₂.step (.at (i := 0) rfl ⟨rfl, rfl⟩)
  have h₄ := h₃.step (.at (i := 1) rfl ⟨rfl, rfl⟩)
  have h₅ := h₄.step (.at (i := 0) rfl ⟨rfl, rfl⟩)
  have h₆ := h₅.step (.at (i := 1) rfl ⟨rfl, rfl⟩)
  have h₇ := h₆.step (.at (i := 0) rfl ⟨rfl, rfl⟩)
  have h₈ := h₇.step (.at (i := 1) rfl ⟨rfl, rfl⟩)
  have h₉ := h₈.step (.at (i := 1) rfl ⟨rfl, rfl⟩)
  have h₁₀ := h₉.step (.at (i := 1) rfl ⟨rfl, rfl⟩)
  have halone : ∀ {vs : List (Pool ThrottleShared Thread × Actor)},
      (vs.all fun x => decide (CountsAlone x)) = true → ∀ x ∈ vs, CountsAlone x :=
    fun hall x hx => of_decide_eq_true (List.all_eq_true.mp hall x hx)
  refine ⟨_, _, h₁₀, rfl, rfl, recovery_paid (by decide) rfl rfl h₁₀ ?_ (Or.inr (halone rfl))⟩
  exact List.forall_mem_cons.mpr ⟨rfl, List.forall_mem_singleton.mpr rfl⟩

/-- **Levels are recovered twice for one threshold**: of three successes with a threshold of two the
    second and the third are both counted before either resets the counter. -/
theorem levels_recovered_at_once :
    ¬ ∀ (config : ThrottleConfig) (p q : Pool ThrottleShared Thread)
        (vs : List (Pool ThrottleShared Thread × Actor)), 1 ≤ config.recoveryThreshold →
        ThrottleStart p → p.shared.state.consecutiveSuccesses = 0 →
        (throttleSystem config).Run p vs q → (∀ t ∈ q.tasks, t.call = .success) →
        p.shared.state.backoffLevel.toNat - finishedCalls q / config.recoveryThreshold.toNat ≤
          q.shared.state.backoffLevel.toNat := by
  intro h
  have h₀ : (throttleSystem pairConfig).Run levelTwo [] levelTwo := .refl
  have h₁ := h₀.step (.arrive ⟨rfl, .success, rfl⟩)
  have h₂ := h₁.step (.arrive ⟨rfl, .success, rfl⟩)
  have h₃ := h₂.step (.arrive ⟨rfl, .success, rfl⟩)
  -- all three see level 2 and are counted, one after the other
  have each : ∀ {vs : List (Pool ThrottleShared Thread × Actor)} {s s₁ s₂ s₃ : ThrottleShared}
      {t t' u u' v v' : Thread}, (throttleSystem pairConfig).Run levelTwo vs ⟨s, [t, u, v]⟩ →
      t.step s = some (s₁, t') → u.step s₁ = some (s₂, u') → v.step s₂ = some (s₃, v') →
      ∃ vs', (throttleSystem pairConfig).Run levelTwo vs' ⟨s₃, [t', u', v']⟩ :=
    fun h ht hu hv => ⟨_, ((h.step (.at (i := 0) rfl ⟨ht, rfl⟩)).step
      (.at (i := 1) rfl ⟨hu, rfl⟩)).step (.at (i := 2) rfl ⟨hv, rfl⟩)⟩
  obtain ⟨_, h₄⟩ := each h₃ rfl rfl rfl
  obtain ⟨_, h₅⟩ := each h₄ rfl rfl rfl
  obtain ⟨_, h₆⟩ := each h₅ rfl rfl rfl
  have h₇ := h₆.step (.at (i := 1) rfl ⟨rfl, rfl⟩)
  have h₈ := h₇.step (.at (i := 1) rfl ⟨rfl, rfl⟩)
  have h₉ := h₈.step (.at (i := 2) rfl ⟨rfl, rfl⟩)
  have h₁₀ := h₉.step (.at (i := 2) rfl ⟨rfl, rfl⟩)
  have hbad := h pairConfig levelTwo _ _ (by decide) rfl rfl h₁₀ fun t ht => ?_
  · exact absurd hbad (by decide)
  · have hcalls : t.call ∈ [ThrottleCall.success, .success, .success] := List.mem_map_of_mem ht
    simpa using hcalls

end TransportBalancer
