/-
  File:      TransportBalancer/Throttle/Relief.lean
  Subject:   TIME RELIEVES A DOMAIN, whatever its threads do in between: without a new rate limit
             every read that is made takes the elapsed intervals off the level.

  * `ReaderStage`, `readerStages` -- `pre_request_delay` as a state machine, and `reader_move`:
    a step of a reader is a step of the machine;
  * `Relieving` -- what the readers have dropped since a pool, against the level there;
  * **`readers_relieve`** -- `m` completed reads drop `m` times the intervals that had elapsed.
-/
import TransportBalancer.Throttle.Decay
import TransportBalancer.Throttle.Recovery
import TransportBalancer.Throttle.Escalation

namespace TransportBalancer

open Interaction MachineWord TaskPool

/-! ## 1. The machine -/

/-- Where a `pre_request_delay` is: not begun, ended at level zero, having seen a level, having read
    the timestamp, about to decay, having dropped its levels, and having read the level again. -/
inductive ReaderStage where
  | start
  | idle
  | looked
  | stamped (last : UInt64)
  | due (last now : UInt64)
  | relieved (levels : UInt32)
  | reread (levels : UInt32)

/-- **The stages as a protocol**: each allows one step. -/
def readerStages (config : ThrottleConfig) : Protocol AtomicSig ReaderStage where
  ok g e :=
    match g, e with
    | .start, .load32 c | .relieved _, .load32 c => c = .backoffLevel
    | .looked, .load64 c => c = .lastRateLimitAt
    | .stamped _, .nowMillis => True
    | .due last now, .fetchUpdate32 c f =>
      c = .backoffLevel ∧ f = decayBy (decayable config now last)
    | _, _ => False
  admits _ _ _ := True
  next g e r :=
    match g, e, r with
    | .start, .load32 _, level => if level = 0 then .idle else .looked
    | .looked, .load64 _, last => if 0 < last then .stamped last else .relieved 0
    | .stamped last, .nowMillis, now =>
      if 0 < decayable config now last then .due last now else .relieved 0
    | .due last now, _, _ => .relieved (decayable config now last)
    | .relieved levels, _, _ => .reread levels
    | g, _, _ => g

/-- The stages a `pre_request_delay` can return at. -/
def ReaderStage.ends : ReaderStage → Bool
  | .idle | .reread _ => true
  | _ => false

theorem preRequestDelay_stages {config : ThrottleConfig} (hD : config.decayIntervalMs ≠ 0) :
    (preRequestDelay config).Follows (readerStages config) .start fun g _ => g.ends = true := by
  -- the level is read again by a reader that has dropped its levels
  have hreload : ∀ (g : ReaderStage) (a : Unit), (∃ levels, g = .relieved levels) →
      (load32 .backoffLevel >>= fun level =>
        (pure (delayOfLevel config level) : Program AtomicSig Duration)).Follows
          (readerStages config) g fun g _ => g.ends = true := by
    intro g _ hg
    obtain ⟨levels, rfl⟩ := hg
    exact ⟨rfl, fun _ _ => rfl⟩
  unfold preRequestDelay
  rw [load32_bind]
  refine ⟨rfl, fun level _ => ?_⟩
  simp only [readerStages]
  split
  · rfl
  · rw [load64_bind]
    refine ⟨rfl, fun last _ => ?_⟩
    simp only
    refine Program.Follows.bind (R := fun g _ => ∃ levels, g = .relieved levels) ?_ hreload
    unfold decayStep
    split
    · rw [nowMillis_bind]
      refine ⟨trivial, fun now _ => ?_⟩
      simp only [checkedDiv64, if_neg hD, pure_bind]
      show Program.Follows (readerStages config) (if 0 < decayable config now last then _ else _)
        (if 0 < decayable config now last then _ else _) _
      split
      · exact ⟨⟨rfl, rfl⟩, fun _ _ => ⟨_, rfl⟩⟩
      · exact ⟨_, rfl⟩
    · exact ⟨_, rfl⟩

/-- The stage a reader's steps have brought it to. -/
def Thread.readerStage (config : ThrottleConfig) (t : Thread) : ReaderStage :=
  (readerStages config).after .start t.done

theorem readerStage_follows {config : ThrottleConfig} (hD : config.decayIntervalMs ≠ 0)
    {s : ThrottleShared} {t : Thread} (ht : t.Ok config s) (hcall : t.call = .delay) :
    t.rest.Follows (readerStages config) (t.readerStage config) fun g _ => g.ends = true := by
  have hsteps := ht.steps
  rw [hcall] at hsteps
  have hprogram : (ThrottleCall.delay.program config).Follows (readerStages config) .start
      fun g _ => g.ends = true :=
    (preRequestDelay_stages hD).bind fun _ _ h => h
  exact hprogram.steps hsteps (Protocol.admitted_of_free (fun _ _ _ => trivial) _ _)

/-- **What a step of a `pre_request_delay` does.** -/
inductive ReaderMove (config : ThrottleConfig) (s : ThrottleShared) :
    ReaderStage → DomainThrottleState → ReaderStage → Prop where
  | idle (h : s.state.backoffLevel = 0) : ReaderMove config s .start s.state .idle
  | look (h : s.state.backoffLevel ≠ 0) : ReaderMove config s .start s.state .looked
  | stamp (h : 0 < s.state.lastRateLimitAt) :
      ReaderMove config s .looked s.state (.stamped s.state.lastRateLimitAt)
  | unstamped (h : ¬ 0 < s.state.lastRateLimitAt) :
      ReaderMove config s .looked s.state (.relieved 0)
  | due {last : UInt64} (h : 0 < decayable config s.clock last) :
      ReaderMove config s (.stamped last) s.state (.due last s.clock)
  | notDue {last : UInt64} (h : ¬ 0 < decayable config s.clock last) :
      ReaderMove config s (.stamped last) s.state (.relieved 0)
  | decay {last now : UInt64} : ReaderMove config s (.due last now)
      { s.state with
        backoffLevel := decayBy (decayable config now last) s.state.backoffLevel }
      (.relieved (decayable config now last))
  | reread {levels : UInt32} : ReaderMove config s (.relieved levels) s.state (.reread levels)

/-- **A step of a reader is a step of the machine.** -/
theorem reader_move {config : ThrottleConfig} (hD : config.decayIntervalMs ≠ 0)
    {s s' : ThrottleShared} {t t' : Thread} (ht : t.Ok config s) (hcall : t.call = .delay)
    (hs : t.step s = some (s', t')) :
    ReaderMove config s (t.readerStage config) s'.state (t'.readerStage config) := by
  have hfollows := readerStage_follows hD ht hcall
  obtain ⟨e, k, r, st, hrest, hstep, rfl, rfl⟩ := thread_step_cases hs
  rw [hrest] at hfollows
  have hok := hfollows.1
  have hstage : Thread.readerStage config { t with done := t.done ++ [⟨e, r⟩], rest := k r } =
      (readerStages config).next (t.readerStage config) e r := Protocol.after_append _ _ _ _
  rw [hstage]
  generalize t.readerStage config = g at hok ⊢
  cases g <;> cases e <;> try exact hok.elim
  · obtain rfl := hok
    cases hstep
    simp only [readerStages]
    split
    · exact .idle ‹_›
    · exact .look ‹_›
  · obtain rfl := hok
    cases hstep
    simp only [readerStages]
    split
    · exact .stamp ‹_›
    · exact .unstamped ‹_›
  · cases hstep
    simp only [readerStages]
    split
    · exact .due ‹_›
    · exact .notDue ‹_›
  · obtain ⟨rfl, rfl⟩ := hok
    cases hstep
    exact .decay
  · obtain rfl := hok
    cases hstep
    exact .reread

/-! ## 2. The accounts -/

/-- The levels a reader has dropped. -/
def ReaderStage.dropped : ReaderStage → Nat
  | .relieved levels | .reread levels => levels.toNat
  | _ => 0

/-- What a reader has done of its part, when `intervals` had elapsed since the timestamp `last` at
    the clock value `begun`: it takes that timestamp, a clock value from then to `clock`, and
    drops at least the intervals, unless the level is zero. -/
def ReaderStage.Relieves (last begun clock : UInt64) (intervals : Nat) (level : UInt32) :
    ReaderStage → Prop
  | .start | .looked => True
  | .idle => level = 0
  | .stamped last' => last' = last
  | .due last' now => last' = last ∧ begun ≤ now ∧ now ≤ clock
  | .relieved levels | .reread levels => level = 0 ∨ intervals ≤ levels.toNat

/-- The levels a thread has dropped as a reader. -/
def Thread.dropped (config : ThrottleConfig) (t : Thread) : Nat :=
  match t.call with
  | .delay => (t.readerStage config).dropped
  | _ => 0

/-- **The readers relieve the domain**, from `p` to `q`: those begun since have dropped what the
    level has lost at most, and each does its part. -/
structure Relieving (config : ThrottleConfig) (p q : Pool ThrottleShared Thread) : Prop where
  length : p.tasks.length ≤ q.tasks.length
  clock : p.shared.clock ≤ q.shared.clock
  stamp : q.shared.state.lastRateLimitAt = p.shared.state.lastRateLimitAt
  account : q.shared.state.backoffLevel = 0 ∨ q.shared.state.backoffLevel.toNat +
    ((q.tasks.drop p.tasks.length).map (Thread.dropped config)).sum ≤
      p.shared.state.backoffLevel.toNat
  readers : ∀ t ∈ q.tasks.drop p.tasks.length, t.call = .delay →
    (t.readerStage config).Relieves p.shared.state.lastRateLimitAt p.shared.clock q.shared.clock
      (intervalsElapsed config p.shared.state.lastRateLimitAt p.shared.clock)
      q.shared.state.backoffLevel

/-- The actor, if it is a thread, records no rate limit. -/
def NoEscalation (p : Pool ThrottleShared Thread) (w : Actor) : Prop :=
  ∀ j t, w = .task j → p.tasks[j]? = some t → t.call.escalates = false

theorem relieving_refl (config : ThrottleConfig) (p : Pool ThrottleShared Thread) :
    Relieving config p p where
  length := Nat.le_refl _
  clock := UInt64.le_refl _
  stamp := rfl
  account := by simp
  readers t ht := by simp at ht

/-- What a reader has done of its part stays done as time passes and the level falls. -/
theorem ReaderStage.Relieves.mono {last begun clock clock' : UInt64} {intervals : Nat}
    {level level' : UInt32} {g : ReaderStage} (h : g.Relieves last begun clock intervals level)
    (hclock : clock ≤ clock') (hlevel : level' ≤ level) :
    g.Relieves last begun clock' intervals level' := by
  have hzero : level = 0 → level' = 0 := fun e => by
    subst e
    exact UInt32.le_zero_iff.mp hlevel
  cases g with
  | start | looked => trivial
  | idle => exact hzero h
  | stamped => exact h
  | due => exact ⟨h.1, h.2.1, UInt64.le_trans h.2.2 hclock⟩
  | relieved | reread => exact h.imp_left hzero

theorem reader_move_lowers {config : ThrottleConfig} {s : ThrottleShared}
    {st' : DomainThrottleState} {g g' : ReaderStage} (h : ReaderMove config s g st' g') :
    st'.lastRateLimitAt = s.state.lastRateLimitAt ∧ st'.backoffLevel ≤ s.state.backoffLevel := by
  cases h with
  | decay => exact ⟨rfl, decayBy_le _ _⟩
  | _ => exact ⟨rfl, UInt32.le_refl _⟩

theorem success_move_lowers {config : ThrottleConfig} {s s' : DomainThrottleState}
    {g g' : SuccessStage} (h : SuccessMove config s g s' g') :
    s'.lastRateLimitAt = s.lastRateLimitAt ∧ s'.backoffLevel ≤ s.backoffLevel := by
  cases h with
  | recover => exact ⟨rfl, satSub32_le _ _⟩
  | _ => exact ⟨rfl, UInt32.le_refl _⟩

/-- **Who records no rate limit** leaves the timestamp and does not raise the level. -/
theorem step_lowers {config : ThrottleConfig} (hD : config.decayIntervalMs ≠ 0)
    {s s' : ThrottleShared} {t t' : Thread} (ht : t.Ok config s)
    (hcall : t.call.escalates = false) (hs : t.step s = some (s', t')) :
    s'.state.lastRateLimitAt = s.state.lastRateLimitAt ∧
      s'.state.backoffLevel ≤ s.state.backoffLevel := by
  cases h : t.call with
  | rateLimit | batchRejection =>
    rw [h] at hcall
    cases hcall
  | success => exact success_move_lowers (success_move ht h hs)
  | delay => exact reader_move_lowers (reader_move hD ht h hs)

/-- **A move of a reader does its part**, and what it drops the level loses. -/
theorem relieves_move {config : ThrottleConfig} {s : ThrottleShared} {st' : DomainThrottleState}
    {g g' : ReaderStage} {last begun : UInt64} (hmove : ReaderMove config s g st' g')
    (hstamp : s.state.lastRateLimitAt = last) (hlast : 0 < last) (hbegun : begun ≤ s.clock)
    (hfits : intervalsElapsed config last s.clock < 2 ^ 32)
    (h : g.Relieves last begun s.clock (intervalsElapsed config last begun)
      s.state.backoffLevel) :
    g'.Relieves last begun s.clock (intervalsElapsed config last begun) st'.backoffLevel ∧
      (st'.backoffLevel = 0 ∨
        st'.backoffLevel.toNat + g'.dropped = s.state.backoffLevel.toNat + g.dropped) := by
  -- a clock value read since `begun` shows the intervals that had elapsed then
  have helapsed : ∀ now, begun ≤ now → now ≤ s.clock →
      intervalsElapsed config last begun ≤ (decayable config now last).toNat := by
    intro now hnow hpast
    have hle := intervalsElapsed_mono config last hpast
    rw [toNat_decayable, Nat.mod_eq_of_lt (Nat.lt_of_le_of_lt hle hfits)]
    exact intervalsElapsed_mono config last hnow
  cases hmove with
  | idle hzero => exact ⟨hzero, Or.inl hzero⟩
  | look => exact ⟨trivial, Or.inr rfl⟩
  | stamp => exact ⟨hstamp, Or.inr rfl⟩
  | unstamped hnone => exact absurd (hstamp ▸ hlast) hnone
  | due =>
    obtain rfl := h
    exact ⟨⟨rfl, hbegun, UInt64.le_refl _⟩, Or.inr rfl⟩
  | notDue hnone =>
    obtain rfl := h
    rw [pos_iff32] at hnone
    have hle := helapsed s.clock hbegun (UInt64.le_refl _)
    exact ⟨Or.inr (Nat.le_trans hle (Nat.le_of_not_lt hnone)), Or.inr rfl⟩
  | @decay _ now =>
    obtain ⟨rfl, hnow, hpast⟩ := h
    refine ⟨Or.inr (helapsed now hnow hpast), ?_⟩
    rw [eq_zero_iff32]
    simp only [toNat_decayBy, ReaderStage.dropped]
    omega
  | reread => exact ⟨h, Or.inr rfl⟩

/-- **A step of a thread does its part**, if it is a reader. -/
theorem relieves_step {config : ThrottleConfig} (hD : config.decayIntervalMs ≠ 0)
    {s s' : ThrottleShared} {t t' : Thread} {last begun : UInt64} (ht : t.Ok config s)
    (hcall : t.call.escalates = false) (hs : t.step s = some (s', t'))
    (hstamp : s.state.lastRateLimitAt = last) (hlast : 0 < last) (hbegun : begun ≤ s.clock)
    (hfits : intervalsElapsed config last s.clock < 2 ^ 32)
    (h : t.call = .delay → (t.readerStage config).Relieves last begun s.clock
      (intervalsElapsed config last begun) s.state.backoffLevel) :
    (t'.call = .delay → (t'.readerStage config).Relieves last begun s.clock
        (intervalsElapsed config last begun) s'.state.backoffLevel) ∧
      (s'.state.backoffLevel = 0 ∨ s'.state.backoffLevel.toNat + t'.dropped config ≤
        s.state.backoffLevel.toNat + t.dropped config) := by
  have hsame : t'.call = t.call := by
    obtain ⟨_, _, _, _, _, _, _, rfl⟩ := thread_step_cases hs
    rfl
  unfold Thread.dropped
  rw [hsame]
  cases hdelay : t.call with
  | rateLimit | batchRejection =>
    rw [hdelay] at hcall
    cases hcall
  | success =>
    have hle := UInt32.le_iff_toNat_le.mp (step_lowers hD ht hcall hs).2
    exact ⟨nofun, Or.inr hle⟩
  | delay =>
    obtain ⟨hpart, haccount⟩ := relieves_move (reader_move hD ht hdelay hs) hstamp hlast hbegun
      hfits (h hdelay)
    exact ⟨fun _ => hpart, haccount.imp_right Nat.le_of_eq⟩

/-- A step at a position moves one thread begun since, or none. -/
theorem drop_split {α : Type} (l r : List α) (n : Nat) :
    (∀ x, (l ++ x :: r).drop n = l.drop n ++ x :: r) ∨
      ∀ x, (l ++ x :: r).drop n = r.drop (n - (l.length + 1)) := by
  rcases Nat.lt_or_ge l.length n with hn | hn
  · refine Or.inr fun x => ?_
    rw [← List.singleton_append, ← List.append_assoc, List.drop_append, List.length_append,
      List.length_singleton, List.drop_eq_nil_of_le, List.nil_append]
    rw [List.length_append, List.length_singleton]
    exact hn
  · exact Or.inl fun x => List.drop_append_of_le_length hn

/-- **A step goes on relieving** if no rate limit acts. -/
theorem relieving_step {config : ThrottleConfig} (hD : config.decayIntervalMs ≠ 0)
    {p q q' : Pool ThrottleShared Thread} {w : Actor}
    (hq : (throttleSystem config).Reachable ThrottleStart q)
    (hlast : 0 < p.shared.state.lastRateLimitAt) (h : Relieving config p q)
    (hs : (throttleSystem config).Step q w q') (hcalm : NoEscalation q w)
    (hfits : intervalsElapsed config p.shared.state.lastRateLimitAt q'.shared.clock < 2 ^ 32) :
    Relieving config p q' := by
  have hok := thread_ok hq
  cases hs with
  | @env s s' ts he =>
    obtain ⟨hclock, hstate⟩ := he
    refine ⟨h.length, UInt64.le_trans h.clock hclock, ?_, ?_, fun t ht hcall => ?_⟩
    · exact (congrArg _ hstate).trans h.stamp
    · rw [show s'.state = s.state from hstate]
      exact h.account
    · exact (h.readers t ht hcall).mono hclock (by rw [hstate]; exact UInt32.le_refl _)
  | @arrive s s' ts _ ha =>
    obtain ⟨rfl, call, rfl⟩ := ha
    have hdrop : (ts ++ [Thread.start config call]).drop p.tasks.length =
        ts.drop p.tasks.length ++ [Thread.start config call] :=
      List.drop_append_of_le_length h.length
    refine ⟨?_, h.clock, h.stamp, ?_, ?_⟩
    · simp only [List.length_append]
      exact Nat.le_add_right_of_le h.length
    · have hnew : (Thread.start config call).dropped config = 0 := by
        cases call <;> rfl
      simp only [hdrop, List.map_append, List.sum_append, List.map_cons, List.map_nil,
        List.sum_cons, List.sum_nil, hnew]
      exact h.account
    · simp only [hdrop, List.forall_mem_append, List.forall_mem_singleton]
      exact ⟨h.readers, fun _ => trivial⟩
  | @act s s' l r new t t' hact =>
    obtain ⟨hstep, rfl⟩ := hact
    have ht : t.Ok config s := hok t (by simp)
    have hcall : t.call.escalates = false := hcalm l.length t rfl (by simp)
    have hclock : s'.clock = s.clock := by
      obtain ⟨_, _, _, _, _, _, rfl, _⟩ := thread_step_cases hstep
      rfl
    obtain ⟨hstamp, hlevel⟩ := step_lowers hD ht hcall hstep
    have hle := UInt32.le_iff_toNat_le.mp hlevel
    have hlength := h.length
    have haccount := h.account
    have hreaders := h.readers
    simp only [List.length_append, List.length_cons] at hlength haccount hreaders hfits
    rw [hclock] at hfits
    have hzero : s.state.backoffLevel = 0 → s'.state.backoffLevel = 0 := fun e =>
      UInt32.le_zero_iff.mp (e ▸ hlevel)
    suffices hnew : (s'.state.backoffLevel = 0 ∨ s'.state.backoffLevel.toNat +
        (((l ++ t' :: r).drop p.tasks.length).map (Thread.dropped config)).sum ≤
          p.shared.state.backoffLevel.toNat) ∧
        ∀ u ∈ (l ++ t' :: r).drop p.tasks.length, u.call = .delay →
          (u.readerStage config).Relieves p.shared.state.lastRateLimitAt p.shared.clock s.clock
            (intervalsElapsed config p.shared.state.lastRateLimitAt p.shared.clock)
            s'.state.backoffLevel by
      refine ⟨?_, hclock.symm ▸ h.clock, hstamp.trans h.stamp, ?_, ?_⟩
      · simp only [List.length_append, List.length_cons, List.length_nil]
        exact hlength
      · rw [List.append_nil]
        exact hnew.1
      · simp only [List.append_nil, hclock]
        exact hnew.2
    rcases drop_split l r p.tasks.length with hdrop | hdrop
    · -- the thread has begun since
      rw [hdrop] at haccount hreaders ⊢
      obtain ⟨hpart, hdropped⟩ := relieves_step hD ht hcall hstep h.stamp hlast h.clock hfits
        (hreaders t (by simp))
      simp only [List.map_append, List.map_cons, List.sum_append, List.sum_cons] at haccount ⊢
      refine ⟨?_, fun u hu hdelay => ?_⟩
      · rcases haccount with hnone | hsum
        · exact Or.inl (hzero hnone)
        · exact hdropped.imp_right fun hdropped => by omega
      · simp only [List.mem_append, List.mem_cons] at hu
        rcases hu with hu | rfl | hu
        · exact (hreaders u (by simp [hu]) hdelay).mono (UInt64.le_refl _) hlevel
        · exact hpart hdelay
        · exact (hreaders u (by simp [hu]) hdelay).mono (UInt64.le_refl _) hlevel
    · rw [hdrop] at haccount hreaders ⊢
      exact ⟨haccount.imp hzero fun hsum => by omega,
        fun u hu hdelay => (hreaders u hu hdelay).mono (UInt64.le_refl _) hlevel⟩

/-! ## 3. The law -/

/-- The reads completed among the threads begun since. -/
def completedReads (n : Nat) (q : Pool ThrottleShared Thread) : Nat :=
  (q.tasks.drop n).countP fun t => t.call == .delay && t.finished

theorem step_clock_le {config : ThrottleConfig} {q q' : Pool ThrottleShared Thread} {w : Actor}
    (hs : (throttleSystem config).Step q w q') : q.shared.clock ≤ q'.shared.clock := by
  cases hs with
  | act hact =>
    obtain ⟨_, _, _, _, _, _, rfl, _⟩ := thread_step_cases hact.1
    exact UInt64.le_refl _
  | env he => exact he.1
  | arrive ha =>
    obtain ⟨rfl, _⟩ := ha
    exact UInt64.le_refl _

/-- **A run goes on relieving.** -/
theorem relieving_run {config : ThrottleConfig} (hD : config.decayIntervalMs ≠ 0)
    {p q : Pool ThrottleShared Thread} {vs : List (Pool ThrottleShared Thread × Actor)}
    (hp : (throttleSystem config).Reachable ThrottleStart p)
    (hlast : 0 < p.shared.state.lastRateLimitAt) (hrun : (throttleSystem config).Run p vs q)
    (hcalm : ∀ x ∈ vs, NoEscalation x.1 x.2)
    (hfits : intervalsElapsed config p.shared.state.lastRateLimitAt q.shared.clock < 2 ^ 32) :
    Relieving config p q := by
  induction hrun with
  | refl => exact relieving_refl config p
  | step hrun hs ih =>
    obtain ⟨hcalm, hact⟩ := List.forall_mem_append.mp hcalm
    rw [List.forall_mem_singleton] at hact
    have hle := intervalsElapsed_mono config p.shared.state.lastRateLimitAt (step_clock_le hs)
    exact relieving_step hD (hp.run hrun) hlast (ih hcalm (Nat.lt_of_le_of_lt hle hfits)) hs hact
      hfits

/-- A completed read has dropped the elapsed intervals, unless the level is zero. -/
theorem completed_dropped {config : ThrottleConfig} (hD : config.decayIntervalMs ≠ 0)
    {s : ThrottleShared} {t : Thread} {last begun : UInt64} {intervals : Nat} (ht : t.Ok config s)
    (hcall : t.call = .delay) (hfinished : t.finished = true)
    (h : (t.readerStage config).Relieves last begun s.clock intervals s.state.backoffLevel) :
    s.state.backoffLevel = 0 ∨ intervals ≤ t.dropped config := by
  have hfollows := readerStage_follows hD ht hcall
  unfold Thread.finished at hfinished
  cases hrest : t.rest with
  | op e k =>
    rw [hrest] at hfinished
    cases hfinished
  | ret x =>
    rw [hrest] at hfollows
    have hends : (t.readerStage config).ends = true := hfollows
    unfold Thread.dropped
    simp only [hcall]
    cases hstage : t.readerStage config with
    | idle =>
      rw [hstage] at h
      exact Or.inl h
    | reread =>
      rw [hstage] at h
      exact h
    | _ =>
      rw [hstage] at hends
      cases hends

/-- What is counted is worth its part of the sum. -/
theorem countP_mul_le_sum {α : Type} {P : α → Bool} {f : α → Nat} {k : Nat} {l : List α}
    (h : ∀ x ∈ l, P x = true → k ≤ f x) : l.countP P * k ≤ (l.map f).sum := by
  induction l with
  | nil => simp
  | cons x l ih =>
    have ih := ih fun y hy => h y (List.mem_cons_of_mem x hy)
    have hx := h x List.mem_cons_self
    rw [List.countP_cons, List.map_cons, List.sum_cons, Nat.add_mul]
    split
    · rename_i hp
      have := hx hp
      omega
    · omega

/-- **TIME RELIEVES A DOMAIN**: over any interleaving in which no rate limit acts, the reads begun
    and completed in it have each taken off the level the intervals that had elapsed at its start,
    as far as there was a level; whatever successes and other reads do. -/
theorem readers_relieve {config : ThrottleConfig} (hD : config.decayIntervalMs ≠ 0)
    {p q : Pool ThrottleShared Thread} {vs : List (Pool ThrottleShared Thread × Actor)}
    (hp : (throttleSystem config).Reachable ThrottleStart p)
    (hlast : 0 < p.shared.state.lastRateLimitAt) (hrun : (throttleSystem config).Run p vs q)
    (hcalm : ∀ x ∈ vs, NoEscalation x.1 x.2)
    (hfits : intervalsElapsed config p.shared.state.lastRateLimitAt q.shared.clock < 2 ^ 32) :
    q.shared.state.backoffLevel.toNat ≤ p.shared.state.backoffLevel.toNat -
      completedReads p.tasks.length q *
        intervalsElapsed config p.shared.state.lastRateLimitAt p.shared.clock := by
  have h := relieving_run hD hp hlast hrun hcalm hfits
  have hok := thread_ok (hp.run hrun)
  by_cases hnone : q.shared.state.backoffLevel = 0
  · rw [hnone]
    exact Nat.zero_le _
  have hsum := h.account.resolve_left hnone
  have hreads : completedReads p.tasks.length q *
      intervalsElapsed config p.shared.state.lastRateLimitAt p.shared.clock ≤
        ((q.tasks.drop p.tasks.length).map (Thread.dropped config)).sum := by
    refine countP_mul_le_sum fun t ht hread => ?_
    rw [Bool.and_eq_true, beq_iff_eq] at hread
    obtain ⟨hcall, hfinished⟩ := hread
    exact (completed_dropped hD (hok t (List.mem_of_mem_drop ht)) hcall hfinished
      (h.readers t ht hcall)).resolve_left hnone
  omega

/-- A domain at level three, one decay interval after its last rate limit. -/
def intervalLater : Pool ThrottleShared Thread :=
  ⟨⟨10001, { DomainThrottleState.fresh with lastRateLimitAt := 1, backoffLevel := 3 }⟩, []⟩

/-- Two reads at once, each of which takes off the one interval. -/
theorem readers_relieve_twice : ∃ vs q, (throttleSystem .default).Run intervalLater vs q ∧
    completedReads 0 q = 2 ∧ q.shared.state.backoffLevel = 1 ∧
      q.shared.state.backoffLevel.toNat ≤ intervalLater.shared.state.backoffLevel.toNat -
        completedReads 0 q * intervalsElapsed .default 1 intervalLater.shared.clock := by
  have h₀ : (throttleSystem .default).Run intervalLater [] intervalLater := .refl
  have h₁ := h₀.step (.arrive ⟨rfl, .delay, rfl⟩)
  have h₂ := h₁.step (.arrive ⟨rfl, .delay, rfl⟩)
  have h₃ := h₂.step (.at (i := 0) rfl ⟨rfl, rfl⟩)
  have h₄ := h₃.step (.at (i := 1) rfl ⟨rfl, rfl⟩)
  have h₅ := h₄.step (.at (i := 0) rfl ⟨rfl, rfl⟩)
  have h₆ := h₅.step (.at (i := 1) rfl ⟨rfl, rfl⟩)
  have h₇ := h₆.step (.at (i := 0) rfl ⟨rfl, rfl⟩)
  have h₈ := h₇.step (.at (i := 1) rfl ⟨rfl, rfl⟩)
  have h₉ := h₈.step (.at (i := 0) rfl ⟨rfl, rfl⟩)
  have h₁₀ := h₉.step (.at (i := 1) rfl ⟨rfl, rfl⟩)
  have h₁₁ := h₁₀.step (.at (i := 0) rfl ⟨rfl, rfl⟩)
  have h₁₂ := h₁₁.step (.at (i := 1) rfl ⟨rfl, rfl⟩)
  have hcalls := calls_of_last (P := fun call => call.escalates = false) h₁₂ fun t ht => by
    have hcall : t.call ∈ [ThrottleCall.delay, .delay] := List.mem_map_of_mem ht
    revert hcall
    cases t.call <;> decide
  exact ⟨_, _, h₁₂, rfl, rfl, readers_relieve (by decide) (.start rfl) (by decide) h₁₂ hcalls
    (by decide)⟩

end TransportBalancer
