/-
  File:      TransportBalancer/Batching/Window.lean
  Subject:   THE ACCUMULATION WINDOW. The queue is to be flushed once it holds `max_batch_size`
             requests or its oldest request has waited for `flush_interval`; but every call
             notifies the flush task, whatever the queue holds.

  * `OnTime`, `DrainsOnTime` -- a drain of the queue that is not premature;
  * `small_packet_flushed` -- a small packet on an idle transport is flushed at once;
  * **`drains_on_time_iff`** -- the packets whose runs drain on time only.
-/
import TransportBalancer.Batching.Requests

namespace TransportBalancer.Batching

open Interaction TaskPool

variable {b : BatchingTransport} {p p' : Pool BatchingShared BatchTask}

/-! ## 1. Drains on time -/

/-- The queue may be flushed: it is full, or a request in it has waited for `flush_interval`. -/
def OnTime (b : BatchingTransport) (s : BatchingShared) : Prop :=
  b.config.maxBatchSize ≤ s.pending.length ∨
    ∃ x ∈ s.pushed, x.1 ∈ s.pending ∧ x.2 + b.config.flushInterval.nanos ≤ s.clock

/-- A drain that is about to happen, if the queue is not empty, is on time. -/
def DrainsOnTime (b : BatchingTransport) (p : Pool BatchingShared BatchTask) : Prop :=
  ∀ t ∈ p.tasks, ∀ k, t.rest = .op .drain k → p.shared.pending ≠ [] → OnTime b p.shared

/-- All packets issued are of a kind. -/
def IssuedFrom (S : RequestPacket → Prop) (p : Pool BatchingShared BatchTask) : Prop :=
  ∀ t ∈ p.tasks, ∀ packet receivers, t.kind = .caller packet receivers → S packet

/-- Nothing was pushed in the future. -/
theorem pushed_before (hr : (batchSystem b).Reachable (BatchStart b) p) :
    ∀ x ∈ p.shared.pushed, x.2 ≤ p.shared.clock := by
  induction hr with
  | start hp =>
    rw [hp.pushed]
    exact nofun
  | step hr hs ih =>
    have hclock := (step_grows hs).clock
    cases hs with
    | act h =>
      rcases queue_step h with ⟨hpushed, _⟩ | ⟨requests, k, _, rfl⟩
      · intro x hx
        rw [hpushed] at hx
        exact (ih x hx).trans hclock
      · intro x hx
        rcases List.mem_append.mp hx with hx | hx
        · exact ih x hx
        · obtain ⟨q, _, rfl⟩ := List.mem_map.mp hx
          exact Nat.le_refl _
    | @env s s' ts h =>
      intro x hx
      refine (ih x ?_).trans hclock
      cases h with
      | tick | cloned => exact hx
      | dropped =>
        have hx : x ∈ s.dropShared.pushed := hx
        rw [dropShared_pushed] at hx
        exact hx
    | arrive h =>
      obtain ⟨_, rfl, _⟩ := h
      exact ih

/-- A call's packet is issued for good. -/
theorem issuedFrom_before {S : RequestPacket → Prop} {w : Actor} (hs : (batchSystem b).Step p w p')
    (h : IssuedFrom S p') : IssuedFrom S p := by
  intro t ht packet receivers hkind
  obtain ⟨i, hi⟩ := List.mem_iff_getElem?.mp ht
  rcases step_task_at hs hi with ⟨_, t', new, hact, hafter, _⟩ | ⟨_, hsame⟩
  · obtain ⟨receivers', hkind'⟩ := caller_stays hact hkind
    exact h t' (List.mem_of_getElem? hafter) packet receivers' hkind'
  · exact h t (List.mem_of_getElem? hsame) packet receivers hkind

/-- A caller queues the requests of its own packet. -/
theorem enqueue_packet (hr : (batchSystem b).Reachable (BatchStart b) p) {t : BatchTask}
    (ht : t ∈ p.tasks) {requests : List SerializedRequest}
    {k : Channel → Program BatchSig TaskEnd} (hrest : t.rest = .op (.enqueue requests) k) :
    ∃ packet receivers, t.kind = .caller packet receivers ∧ requests = packet.requests := by
  have hok := batchTask_ok hr t ht
  unfold BatchTask.Ok at hok
  rw [hrest] at hok
  cases hkind : t.kind with
  | caller packet receivers =>
    obtain ⟨heard, hmay⟩ := caller_may hr ht hkind hrest
    exact ⟨packet, receivers, rfl, hmay.2⟩
  | flush | worker =>
    rw [hkind] at hok
    exact absurd hok.1.1 Bool.false_ne_true

/-! ## 2. Large packets -/

/-- With large packets only, a queue that is not empty is full. -/
theorem pending_full {S : RequestPacket → Prop}
    (hlarge : ∀ packet, S packet → packet.requests = [] ∨
      b.config.maxBatchSize ≤ packet.requests.length)
    (hr : (batchSystem b).Reachable (BatchStart b) p) (hS : IssuedFrom S p) :
    p.shared.pending = [] ∨ b.config.maxBatchSize ≤ p.shared.pending.length := by
  induction hr with
  | start hp => exact Or.inl hp.pending
  | step hr hs ih =>
    have hbefore := issuedFrom_before hs hS
    have hold := ih hbefore
    cases hs with
    | @act s s' l r new t t' h =>
      have hmem : t ∈ l ++ t :: r := by simp
      rcases queue_step h with ⟨_, hsame | hempty⟩ | ⟨requests, k, hrest, rfl⟩
      · simp only
        rw [hsame]
        exact hold
      · exact Or.inl hempty
      · obtain ⟨packet, receivers, hkind, rfl⟩ := enqueue_packet hr hmem hrest
        rcases hlarge packet (hbefore t hmem packet receivers hkind) with hnone | hmany
        · simp only [BatchingShared.enqueue, hnone, BatchingShared.entriesFrom, List.append_nil]
          exact hold
        · right
          simp only [BatchingShared.enqueue, List.length_append, entriesFrom_length]
          omega
    | @env s s' ts h =>
      cases h with
      | tick | cloned => exact hold
      | dropped =>
        show s.dropShared.pending = [] ∨ _ ≤ s.dropShared.pending.length
        unfold BatchingShared.dropShared
        split
        · exact Or.inl rfl
        · exact hold
    | arrive h =>
      obtain ⟨_, rfl, _⟩ := h
      exact hold

/-! ## 3. Small packets -/

/-- **A small packet on an idle transport is flushed at once**: its call notifies the flush task. -/
theorem small_packet_flushed (b : BatchingTransport) {packet : RequestPacket}
    (hne : packet.requests ≠ []) (hsmall : packet.requests.length < b.config.maxBatchSize)
    (hinterval : 0 < b.config.flushInterval.nanos) :
    ∃ p, (batchSystem b).Reachable (BatchStart b) p ∧ IssuedFrom (· = packet) p ∧
      ¬ DrainsOnTime b p := by
  have h0 := System.Reachable.start (Y := batchSystem b) (freshPool_start b)
  have harrive := h0.step (.arrive ⟨Nat.one_pos, rfl, packet, rfl⟩)
  have hqueued := harrive.step (.at (i := 1) rfl
    (.effect (e := .enqueue packet.requests) 0 rfl ⟨rfl, rfl⟩))
  have hnotified := hqueued.step (.at (i := 1) rfl (.effect (e := .notifyOne) () rfl rfl))
  have hupgraded := hnotified.step (.at (i := 0) rfl
    (.effect (e := .upgrade) true rfl (Or.inl ⟨Nat.two_pos, rfl, rfl⟩)))
  have hwaiting := hupgraded.step (.at (i := 0) rfl (.effect (e := .beginWait) 0 rfl ⟨rfl, rfl⟩))
  have hwoken := hwaiting.step (.at (i := 0) rfl
    (.effect (e := .waitNotified 0) () rfl (Or.inl ⟨Wakeup.Notify.delivered_of_available _
      (Wakeup.Notify.available_notifyOne _), rfl⟩)))
  refine ⟨_, hwoken, fun t ht packet' receivers hkind => ?_, fun hontime => ?_⟩
  · change t ∈ [_, _] at ht
    rcases List.mem_pair.mp ht with rfl | rfl
    · cases hkind
    · cases hkind
      rfl
  · have hqueue : BatchingShared.entriesFrom 0 packet.requests ≠ [] := by
      cases hrequests : packet.requests with
      | nil => exact absurd hrequests hne
      | cons => exact nofun
    rcases hontime _ List.mem_cons_self _ rfl hqueue with hfull | ⟨x, hx, _, hold⟩
    · have hfull : b.config.maxBatchSize ≤ (BatchingShared.entriesFrom 0 packet.requests).length :=
        hfull
      rw [entriesFrom_length] at hfull
      exact absurd hfull (Nat.not_le.mpr hsmall)
    · have hx : x ∈ (BatchingShared.entriesFrom 0 packet.requests).map fun q => (q, 0) := hx
      obtain ⟨q, _, rfl⟩ := List.mem_map.mp hx
      have hold : 0 + b.config.flushInterval.nanos ≤ 0 := hold
      rw [Nat.zero_add] at hold
      exact absurd hold (Nat.not_le.mpr hinterval)

/-! ## 4. When the window holds -/

/-- **THE WINDOW HOLDS EXACTLY** for those kinds of packets whose requests fill a batch alone, or
    without a flush interval: then every drain of every run is on time. -/
theorem drains_on_time_iff (b : BatchingTransport) (S : RequestPacket → Prop) :
    (∀ p, (batchSystem b).Reachable (BatchStart b) p → IssuedFrom S p → DrainsOnTime b p) ↔
      (b.config.flushInterval.nanos = 0 ∨ ∀ packet, S packet → packet.requests = [] ∨
        b.config.maxBatchSize ≤ packet.requests.length) := by
  constructor
  · intro hall
    by_contra hnot
    obtain ⟨hinterval, hsmall⟩ := not_or.mp hnot
    obtain ⟨packet, hpacket⟩ := not_forall.mp hsmall
    obtain ⟨hS, hpacket⟩ := Classical.not_imp.mp hpacket
    obtain ⟨hne, hlarge⟩ := not_or.mp hpacket
    obtain ⟨p, hr, hissued, hlate⟩ := small_packet_flushed b hne (Nat.lt_of_not_le hlarge)
      (Nat.pos_of_ne_zero hinterval)
    exact hlate (hall p hr fun t ht packet' receivers hkind => by
      rw [hissued t ht packet' receivers hkind]
      exact hS)
  · intro hcondition p hr hissued t ht k hrest hne
    rcases hcondition with hzero | hlarge
    · -- whatever was pushed has waited for no time
      right
      obtain ⟨q, hq⟩ := List.exists_mem_of_ne_nil _ hne
      obtain ⟨x, hx, rfl⟩ := List.mem_map.mp (mem_entries_of_settled hr (settled_of_pending hq))
      exact ⟨x, hx, hq, by rw [hzero]; exact pushed_before hr x hx⟩
    · exact Or.inl ((pending_full hlarge hr hissued).resolve_left hne)

/-- The default configuration. -/
def defaultTransport : BatchingTransport where
  config := .default
  inner _ _ := True
  display _ := ""

/-- One single request on an idle transport is flushed at the moment it is queued. -/
theorem single_request_flushed_at_once : ∃ p, (batchSystem defaultTransport).Reachable
    (BatchStart defaultTransport) p ∧ ¬ DrainsOnTime defaultTransport p := by
  obtain ⟨p, hr, _, hlate⟩ := @small_packet_flushed defaultTransport
    (.single ⟨.number 1, ""⟩) nofun (by decide) (by decide)
  exact ⟨p, hr, hlate⟩

end TransportBalancer.Batching
