/-
  File:      TransportBalancer/Batching/Latency.lean
  Subject:   WHAT BATCHING COSTS IN TIME. Time passes while the flush loop waits and, the task being
             run promptly, nowhere else; then no request is held back for longer than
             `flush_interval`.

  * `PromptReachable` -- the pools reached with time passing only in the wait, up to its end;
  * `Timely` -- how old what is in the queue and what the flush task holds may be at each stage;
  * **`held_at_most`** -- a request not yet sent off has been held for `flush_interval` at most.
-/
import TransportBalancer.Batching.Completion

namespace TransportBalancer.Batching

open Interaction TaskPool

variable {b : BatchingTransport} {p p' : Pool BatchingShared BatchTask}

/-! ## 1. Prompt runs -/

/-- **Time passes only while the flush loop waits**, and not past the end of its wait, or when the
    loop has stopped. -/
def Prompt (b : BatchingTransport) (p p' : Pool BatchingShared BatchTask) : Prop :=
  p.shared.clock < p'.shared.clock → ∀ f ∈ p.tasks, f.kind = .flush →
    (∃ since k, f.rest = .op (.waitNotified since) k ∧
      p'.shared.clock ≤ since + b.config.flushInterval.nanos) ∨ f.rest = .ret (.turn .stop)

/-- The pools reached by prompt steps from a transport just made. -/
inductive PromptReachable (b : BatchingTransport) : Pool BatchingShared BatchTask → Prop where
  | start {p : Pool BatchingShared BatchTask} (hp : BatchStart b p) : PromptReachable b p
  | step {p p' : Pool BatchingShared BatchTask} {w : Actor} (hr : PromptReachable b p)
      (hs : (batchSystem b).Step p w p') (hprompt : Prompt b p p') : PromptReachable b p'

theorem PromptReachable.reachable (h : PromptReachable b p) :
    (batchSystem b).Reachable (BatchStart b) p := by
  induction h with
  | start hp => exact .start hp
  | step _ hs _ ih => exact .step ih hs

theorem dropShared_clock (s : BatchingShared) : s.dropShared.clock = s.clock := by
  unfold BatchingShared.dropShared
  split <;> rfl

theorem dropShared_pending (s : BatchingShared) :
    s.dropShared.pending = s.pending ∨ s.dropShared.pending = [] := by
  unfold BatchingShared.dropShared
  split
  · exact Or.inr rfl
  · exact Or.inl rfl

/-- A step of a task takes no time. -/
theorem step_clock {s s' : BatchingShared} {t t' : BatchTask} {new : List BatchTask}
    (hs : t.Step b s s' t' new) : s'.clock = s.clock := by
  cases hs with
  | @effect e k r _ _ heff =>
    cases e with
    | notifyOne | spawn | onBatchRejection | send =>
      obtain rfl := heff
      rfl
    | dropShared =>
      obtain rfl := heff
      exact dropShared_clock s
    | awaitResponse =>
      obtain ⟨rfl, _⟩ := heff
      rfl
    | upgrade => rcases heff with ⟨_, _, rfl⟩ | ⟨_, _, rfl⟩ <;> rfl
    | waitNotified => rcases heff with ⟨_, rfl⟩ | ⟨_, rfl⟩ <;> rfl
    | enqueue | beginWait | drain | innerCall | iterate | newSemaphore =>
      obtain ⟨_, rfl⟩ := heff
      rfl
    | acquire | release =>
      obtain ⟨_, _, rfl⟩ := heff
      rfl
  | turn => rfl
  | cancel => exact dropShared_clock s

/-! ## 2. How old a request may be -/

/-- The earliest push of what is in the queue, at a stage: nothing was pushed before the wait began
    that is still there after it, and outside the wait no time passes. -/
def FlushStage.oldest (config : RunningConfig) (clock : Nat) : FlushStage → Nat
  | .waiting since => since
  | .woken => clock - config.flushInterval.nanos
  | _ => clock

/-- **Nothing is held for too long** at a stage of the flush loop. -/
structure Timely (b : BatchingTransport) (s : BatchingShared) (g : FlushStage) : Prop where
  queued : ∀ x ∈ s.pushed, x.1 ∈ s.pending → g.oldest b.config s.clock ≤ x.2
  owned : ∀ x ∈ s.pushed, x.1 ∈ g.ledger.owned →
    s.clock ≤ x.2 + b.config.flushInterval.nanos
  wait : ∀ since, g = .waiting since →
    since ≤ s.clock ∧ s.clock ≤ since + b.config.flushInterval.nanos

/-- What is in the queue may be no older than the interval, at any stage. -/
theorem Timely.queued_at_most {s : BatchingShared} {g : FlushStage} (h : Timely b s g)
    {x : PendingRequest × Nat} (hx : x ∈ s.pushed) (hqueued : x.1 ∈ s.pending) :
    s.clock ≤ x.2 + b.config.flushInterval.nanos := by
  have hold := h.queued x hx hqueued
  cases g with
  | waiting since =>
    have hsince : since ≤ x.2 := hold
    have hwait := (h.wait since rfl).2
    omega
  | woken =>
    have hsince : s.clock - b.config.flushInterval.nanos ≤ x.2 := hold
    omega
  | _ => exact Nat.le_add_right_of_le hold

theorem Timely.oldest_le {s : BatchingShared} {g : FlushStage} (h : Timely b s g) :
    g.oldest b.config s.clock ≤ s.clock := by
  cases g with
  | waiting since => exact (h.wait since rfl).1
  | woken => exact Nat.sub_le _ _
  | _ => exact Nat.le_refl _

/-- Nothing new is held, and no time has passed. -/
theorem Timely.same {s s' : BatchingShared} {g : FlushStage} (h : Timely b s g)
    (hclock : s'.clock = s.clock) (hpushed : s'.pushed = s.pushed)
    (hpending : s'.pending = s.pending ∨ s'.pending = []) : Timely b s' g where
  queued x hx hqueued := by
    rw [hpushed] at hx
    rw [hclock]
    rcases hpending with hsame | hempty
    · exact h.queued x hx (hsame ▸ hqueued)
    · rw [hempty] at hqueued
      exact absurd hqueued List.not_mem_nil
  owned x hx howned := by
    rw [hpushed] at hx
    rw [hclock]
    exact h.owned x hx howned
  wait since hg := hclock ▸ h.wait since hg

/-- **A push**: what is new is as old as the moment. -/
theorem Timely.enqueue {s : BatchingShared} {g : FlushStage} (h : Timely b s g)
    (hchannels : s.ChannelsOk) (requests : List SerializedRequest) :
    Timely b (s.enqueue b.config requests) g where
  queued x hx hqueued := by
    rcases List.mem_append.mp hx with hx | hx
    · rcases List.mem_append.mp hqueued with hold | hnew
      · exact h.queued x hx hold
      · -- what was pushed before has a channel of its own
        have hfresh := hchannels.fresh x.1 (List.mem_map_of_mem hx)
        have htx := List.mem_map_of_mem (f := PendingRequest.tx) hnew
        rw [entriesFrom_channels, List.mem_range'_1] at htx
        exact absurd htx.1 (Nat.not_le.mpr hfresh)
    · obtain ⟨q, _, rfl⟩ := List.mem_map.mp hx
      exact h.oldest_le
  owned x hx howned := by
    rcases List.mem_append.mp hx with hx | hx
    · exact h.owned x hx howned
    · obtain ⟨q, _, rfl⟩ := List.mem_map.mp hx
      exact Nat.le_add_right _ _
  wait since hg := h.wait since hg

/-- **A step of the flush loop** holds nothing for too long. -/
theorem Timely.move {s s' : BatchingShared} {g g' : FlushStage} {new : List BatchTask}
    (h : Timely b s g) (hmove : FlushMove b s g s' g' new) : Timely b s' g' := by
  have hkept := h.queued
  cases hmove with
  | upgrade | stop | again =>
    exact ⟨hkept, fun x _ howned => absurd howned (Multiset.notMem_zero _), nofun⟩
  | beginWait =>
    refine ⟨hkept, fun x _ howned => absurd howned (Multiset.notMem_zero _), fun since hg => ?_⟩
    cases hg
    exact ⟨Nat.le_refl _, Nat.le_add_right _ _⟩
  | @notified since | @timeout since =>
    refine ⟨fun x hx hqueued => ?_, fun x _ howned => absurd howned (Multiset.notMem_zero _), nofun⟩
    exact Nat.sub_le_of_le_add (h.queued_at_most hx hqueued)
  | drain =>
    refine ⟨fun _ _ hqueued => absurd hqueued List.not_mem_nil, fun x hx howned => ?_, nofun⟩
    exact h.queued_at_most hx howned
  | dropShared =>
    have hsame := h.same (dropShared_clock s) (dropShared_pushed s) (dropShared_pending s)
    exact ⟨hsame.queued, hsame.owned, nofun⟩
  | spawn =>
    exact ⟨hkept, fun x hx howned => h.owned x hx (List.mem_of_mem_drop howned), nofun⟩

/-! ## 3. On prompt runs -/

/-- The flush loop at some stage, holding nothing for too long. -/
def TimelyAt (b : BatchingTransport) (s : BatchingShared) (f : BatchTask) : Prop :=
  ∃ g, FlushAt b f g ∧ Timely b s g

/-- **A step of another task** leaves the flush loop timely. -/
theorem timelyAt_other {s s' : BatchingShared} {f t t' : BatchTask} {new : List BatchTask}
    (h : TimelyAt b s f) (hchannels : s.ChannelsOk) (hs : t.Step b s s' t' new) :
    TimelyAt b s' f := by
  obtain ⟨g, hat, htimely⟩ := h
  rcases queue_step hs with ⟨hpushed, hpending⟩ | ⟨requests, k, _, rfl⟩
  · exact ⟨g, hat, htimely.same (step_clock hs) hpushed hpending⟩
  · exact ⟨g, hat, htimely.enqueue hchannels requests⟩

/-- **What happens around the tasks** leaves it timely, if time passes promptly. -/
theorem timelyAt_around {s s' : BatchingShared} {ts : List BatchTask} {f : BatchTask}
    (hr : (batchSystem b).Reachable (BatchStart b) ⟨s, ts⟩) (h : TimelyAt b s f) (hf : f ∈ ts)
    (hprompt : Prompt b ⟨s, ts⟩ ⟨s', ts⟩) (ha : Around s s') : TimelyAt b s' f := by
  obtain ⟨g, hat, htimely⟩ := h
  cases ha with
  | cloned => exact ⟨g, hat, htimely.same rfl rfl (Or.inl rfl)⟩
  | dropped =>
    exact ⟨g, hat, htimely.same (dropShared_clock s) (dropShared_pushed s) (dropShared_pending s)⟩
  | tick clock hle =>
    rcases Nat.eq_or_lt_of_le hle with rfl | hlt
    · exact ⟨g, hat, htimely⟩
    have hfollows := hat.follows
    rcases hprompt hlt f hf hat.kind with ⟨since, k, hrest, hend⟩ | hrest
    · -- it waits, and no longer than its interval
      rw [hrest] at hfollows
      cases g with
      | waiting since' =>
        obtain rfl : since = since' := hfollows.1
        refine ⟨_, hat, htimely.queued, fun x _ howned => absurd howned (Multiset.notMem_zero _),
          fun since' hg => ?_⟩
        cases hg
        exact ⟨(htimely.wait since rfl).1.trans hle, hend⟩
      | _ => exact hfollows.1.elim
    · -- it has stopped, so the queue is gone
      rw [hrest] at hfollows
      rcases hfollows with ⟨hagain, _⟩ | ⟨_, rfl⟩
      · cases hagain
      · have hzero := Nat.eq_zero_of_not_pos fun hlive => flush_live hr hf hat hlive rfl
        have hempty : s.pending = [] := pending_of_strong_zero hr hzero
        refine ⟨_, hat, fun x _ hqueued => ?_, fun x _ howned =>
          absurd howned (Multiset.notMem_zero _), nofun⟩
        rw [hempty] at hqueued
        exact absurd hqueued List.not_mem_nil

/-- **ON PROMPT RUNS NOTHING IS HELD FOR TOO LONG.** -/
theorem timely_prompt (h : PromptReachable b p) :
    ∀ f ∈ p.tasks, f.kind = .flush → TimelyAt b p.shared f := by
  induction h with
  | start hp =>
    intro f hf _
    obtain rfl := hp.only_flush hf
    refine ⟨.start, flushTask_at b, fun x hx => ?_, fun x hx => ?_, nofun⟩
    all_goals
      rw [hp.pushed] at hx
      exact absurd hx List.not_mem_nil
  | @step p p' w hr hs hprompt ih =>
    have hreach := hr.reachable
    intro f' hf' hkind'
    cases hs with
    | @act s s' l r new t t' hact =>
      have ht : t ∈ l ++ t :: r := by simp
      have hnew : ∀ u ∈ new, u.kind ≠ .flush := fun u hu => by
        obtain ⟨task, rfl, _⟩ := new_workers hact u hu
        exact nofun
      simp only [List.mem_append, List.mem_cons] at hf'
      rcases hf' with hf' | rfl | hf' | hf'
      · exact timelyAt_other (ih f' (by simp [hf']) hkind') (channels_ok hreach) hact
      · obtain ⟨g, hat, htimely⟩ := ih t ht ((flush_stays hact).mp hkind')
        obtain ⟨g', hmove, hat'⟩ := hat.step hact
        exact ⟨g', hat', htimely.move hmove⟩
      · exact timelyAt_other (ih f' (by simp [hf']) hkind') (channels_ok hreach) hact
      · exact absurd hkind' (hnew f' hf')
    | env ha => exact timelyAt_around hreach (ih f' hf' hkind') hf' hprompt ha
    | arrive ha =>
      obtain ⟨_, rfl, packet, rfl⟩ := ha
      rcases List.mem_append.mp hf' with hf' | hf'
      · obtain ⟨g, hat, htimely⟩ := ih f' hf' hkind'
        exact ⟨g, hat, htimely.same rfl rfl (Or.inl rfl)⟩
      · rw [List.mem_singleton.mp hf'] at hkind'
        cases hkind'

/-- **NO REQUEST IS HELD BACK FOR LONGER THAN `flush_interval`**, whatever the packets, the callers
    and the inner service: where time passes promptly, a request that is still in the queue or in
    the hands of the flush task was pushed within the interval. -/
theorem held_at_most (h : PromptReachable b p) {q : PendingRequest} {pushedAt : Nat}
    (hpushed : (q, pushedAt) ∈ p.shared.pushed)
    (hheld : q ∈ p.shared.pending ∨ ∃ f ∈ p.tasks, f.kind = .flush ∧ q ∈ f.ledger.owned) :
    p.shared.clock ≤ pushedAt + b.config.flushInterval.nanos := by
  have htimely := timely_prompt h
  rcases hheld with hqueued | ⟨f, hf, hkind, howned⟩
  · obtain ⟨f, rest, htasks, hkind, _⟩ := flush_first h.reachable
    obtain ⟨g, _, hg⟩ := htimely f (htasks ▸ List.mem_cons_self) hkind
    exact hg.queued_at_most hpushed hqueued
  · obtain ⟨g, hat, hg⟩ := htimely f hf hkind
    rw [hat.ledger] at howned
    exact hg.owned _ hpushed howned

/-- A request pushed as the wait begins is held for the whole interval. -/
theorem held_at_most_interval : ∃ p q, PromptReachable lossyTransport p ∧
    (q, 0) ∈ p.shared.pushed ∧ q ∈ p.shared.pending ∧
      p.shared.clock = lossyTransport.config.flushInterval.nanos ∧
        p.shared.clock ≤ 0 + lossyTransport.config.flushInterval.nanos := by
  have hstill : ∀ {p p' : Pool BatchingShared BatchTask}, p'.shared.clock = p.shared.clock →
      Prompt lossyTransport p p' := fun h hlt => absurd hlt (h ▸ Nat.lt_irrefl _)
  have h₀ := PromptReachable.start (freshPool_start lossyTransport)
  have h₁ := h₀.step (.at (i := 0) rfl
    (.effect (e := .upgrade) true rfl (Or.inl ⟨Nat.one_pos, rfl, rfl⟩))) (hstill rfl)
  have h₂ := h₁.step (.at (i := 0) rfl (.effect (e := .beginWait) 0 rfl ⟨rfl, rfl⟩)) (hstill rfl)
  have h₃ := h₂.step (.arrive ⟨Nat.one_pos, rfl, .single ⟨.number 1, "a"⟩, rfl⟩) (hstill rfl)
  have h₄ := h₃.step (.at (i := 1) rfl
    (.effect (e := .enqueue [⟨.number 1, "a"⟩]) 0 rfl ⟨rfl, rfl⟩)) (hstill rfl)
  have h₅ := h₄.step (.env (.tick lossyTransport.config.flushInterval.nanos (Nat.zero_le _)))
    fun _ f hf hkind => Or.inl ?_
  · exact ⟨_, ⟨⟨.number 1, "a"⟩, 0⟩, h₅, List.mem_cons_self, List.mem_cons_self, rfl,
      held_at_most h₅ List.mem_cons_self (Or.inl List.mem_cons_self)⟩
  · change f ∈ [_, _] at hf
    rcases List.mem_pair.mp hf with rfl | rfl
    · exact ⟨0, _, rfl, Nat.le_of_eq (Nat.zero_add _).symm⟩
    · cases hkind

end TransportBalancer.Batching
