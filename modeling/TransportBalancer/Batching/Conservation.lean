/-
  File:      TransportBalancer/Batching/Conservation.lean
  Subject:   WHAT NO STEP OF A BATCHING TRANSPORT CREATES OR DESTROYS: the entries pushed, their
             channels, and the `Arc`s of the shared state.

  * `entries_conserved` -- an entry pushed is in the queue, owned by a task, answered, or dropped;
  * `channels_ok`, `one_place` -- every entry has a channel of its own, and is in one place only;
  * `strong_eq` -- the `Arc`s are those of the clones and of the tasks that hold one;
  * `pending_of_strong_zero` -- without an `Arc` there is no queue.
-/
import Mathlib.Algebra.Order.BigOperators.Group.List
import Mathlib.Algebra.Order.Group.Nat
import TransportBalancer.Batching.Ledger

namespace TransportBalancer.Batching

open Interaction TaskPool

/-! ## 1. Entries are conserved -/

/-- How often an entry is in the queue, answered, or dropped. -/
def BatchingShared.settled (s : BatchingShared) (p : PendingRequest) : Nat :=
  s.pending.count p + (s.answers.map Prod.fst).count p + s.dropped.count p

/-- The entries ever pushed, oldest first. -/
def BatchingShared.entries (s : BatchingShared) : List PendingRequest := s.pushed.map Prod.fst

theorem BatchingShared.Grows.entries {s s' : BatchingShared} (h : s.Grows s') :
    s.entries <+: s'.entries := h.pushed.map Prod.fst

@[simp] theorem dropShared_settled (s : BatchingShared) (p : PendingRequest) :
    s.dropShared.settled p = s.settled p := by
  unfold BatchingShared.dropShared
  split
  · simp only [BatchingShared.settled, List.count_append, List.count_nil]
    omega
  · rfl

@[simp] theorem dropShared_pushed (s : BatchingShared) : s.dropShared.pushed = s.pushed := by
  unfold BatchingShared.dropShared
  split <;> rfl

@[simp] theorem dropShared_answers (s : BatchingShared) : s.dropShared.answers = s.answers := by
  unfold BatchingShared.dropShared
  split <;> rfl

@[simp] theorem dropShared_nextChannel (s : BatchingShared) :
    s.dropShared.nextChannel = s.nextChannel := by
  unfold BatchingShared.dropShared
  split <;> rfl

@[simp] theorem dropShared_handles (s : BatchingShared) : s.dropShared.handles = s.handles := by
  unfold BatchingShared.dropShared
  split <;> rfl

theorem enqueue_entries (s : BatchingShared) (config : RunningConfig)
    (requests : List SerializedRequest) : (s.enqueue config requests).entries =
      s.entries ++ BatchingShared.entriesFrom s.nextChannel requests := by
  simp [BatchingShared.entries, BatchingShared.enqueue, Function.comp_def]

theorem frame_conserves {b : BatchingTransport} {s s' : BatchingShared} {e : BatchOp}
    {r : BatchSig.Ans e} {l : Ledger} (h : Effect b s e r s') (he : e.movesEntries = false)
    (hl : (l.next e r).owned = l.owned) (hspawn : spawned b e = []) (p : PendingRequest) :
    s'.settled p + (l.next e r).owned.count p +
        ((spawned b e).map fun t => t.ledger.owned.count p).sum + s.entries.count p =
      s.settled p + l.owned.count p + s'.entries.count p := by
  have hf := effect_frame h he
  unfold BatchingShared.settled BatchingShared.entries
  rw [hl, hspawn, hf.pending, hf.answers, hf.dropped, hf.pushed]
  rfl

/-- **An effect moves entries** between the queue, the acting task, the tasks it spawns and the
    answers; new ones come by a push only. -/
theorem effect_conserves {b : BatchingTransport} {s s' : BatchingShared} {e : BatchOp}
    {r : BatchSig.Ans e} {l : Ledger} (h : Effect b s e r s') {caller : Bool}
    (hok : (ledgerProtocol caller).ok l e)
    (p : PendingRequest) :
    s'.settled p + (l.next e r).owned.count p +
        ((spawned b e).map fun t => t.ledger.owned.count p).sum + s.entries.count p =
      s.settled p + l.owned.count p + s'.entries.count p := by
  cases e with
  | enqueue requests =>
    obtain ⟨_, rfl⟩ := h
    rw [enqueue_entries]
    simp only [BatchingShared.settled, BatchingShared.enqueue, List.count_append, Ledger.next,
      spawned, List.map_nil, List.sum_nil]
    omega
  | dropShared =>
    obtain rfl := h
    simp [Ledger.next, spawned, BatchingShared.entries]
  | drain =>
    obtain ⟨rfl, rfl⟩ := h
    simp only [BatchingShared.settled, BatchingShared.entries, Ledger.next, Multiset.count_add,
      Multiset.coe_count, List.count_nil, spawned, List.map_nil, List.sum_nil]
    omega
  | spawn task =>
    obtain rfl := h
    have hle := Multiset.count_le_of_le p hok
    simp only [Ledger.next, Multiset.count_sub, spawned, List.map_cons, List.map_nil,
      List.sum_cons, List.sum_nil, workerTask]
    omega
  | send q result =>
    obtain rfl := h
    have hmem : 0 < l.owned.count q := Multiset.count_pos.mpr hok
    simp only [BatchingShared.settled, BatchingShared.entries, Ledger.next, List.map_append,
      List.map_cons, List.map_nil, List.count_append, spawned, List.sum_nil]
    by_cases hpq : p = q
    · subst hpq
      rw [Multiset.count_erase_self, List.count_singleton_self]
      omega
    · rw [Multiset.count_erase_of_ne hpq, List.count_singleton, if_neg (by simpa using Ne.symm hpq)]
      omega
  | upgrade =>
    cases r <;> exact frame_conserves h rfl rfl rfl p
  | notifyOne | awaitResponse | beginWait | waitNotified | innerCall | iterate | onBatchRejection
  | newSemaphore | acquire | release => exact frame_conserves h rfl rfl rfl p

theorem step_conserves {b : BatchingTransport} {s s' : BatchingShared} {t t' : BatchTask}
    {new : List BatchTask} (ht : t.Ok) (hs : t.Step b s s' t' new) (p : PendingRequest) :
    s'.settled p + t'.ledger.owned.count p + (new.map fun n => n.ledger.owned.count p).sum +
        s.entries.count p =
      s.settled p + t.ledger.owned.count p + s'.entries.count p := by
  cases hs with
  | effect r hrest heff =>
    unfold BatchTask.Ok at ht
    rw [hrest] at ht
    exact effect_conserves heff ht.1 p
  | turn => rfl
  | cancel hkind hrest hdrop =>
    unfold BatchingShared.entries
    rw [dropShared_settled, dropShared_pushed]
    rfl

/-- **Entries are conserved**: in every reachable pool an entry is in the queue, owned by a task,
    answered or dropped as often as it was pushed. -/
theorem entries_conserved {b : BatchingTransport} {p : Pool BatchingShared BatchTask}
    (hr : (batchSystem b).Reachable (BatchStart b) p) (q : PendingRequest) :
    p.shared.settled q + p.total (fun t => t.ledger.owned.count q) = p.shared.entries.count q := by
  induction hr with
  | start hp =>
    unfold Pool.total BatchingShared.settled BatchingShared.entries
    rw [hp.tasks, hp.pending, hp.answers, hp.dropped, hp.pushed]
    exact Multiset.count_zero q
  | step hr hs ih =>
    have hok := batchTask_ok hr
    cases hs with
    | act h =>
      have hmove := step_conserves (hok _ (by simp)) h q
      rw [total_split] at ih
      rw [total_split_new]
      simp only at ih ⊢
      omega
    | env h =>
      cases h with
      | tick | cloned => exact ih
      | dropped =>
        simp only [total_mk, BatchingShared.settled, BatchingShared.entries] at ih ⊢
        have hset := dropShared_settled
        simp only [BatchingShared.settled] at hset
        rw [dropShared_pushed, hset]
        exact ih
    | arrive h =>
      obtain ⟨_, rfl, packet, rfl⟩ := h
      simpa [BatchingShared.settled, BatchingShared.entries, callerTask] using ih

/-! ## 2. Channels -/

theorem entriesFrom_channels (requests : List SerializedRequest) (first : Channel) :
    (BatchingShared.entriesFrom first requests).map PendingRequest.tx =
      List.range' first requests.length := by
  induction requests generalizing first with
  | nil => rfl
  | cons request requests ih =>
    show first :: (BatchingShared.entriesFrom (first + 1) requests).map PendingRequest.tx = _
    rw [ih]
    rfl

theorem entriesFrom_length (requests : List SerializedRequest) (first : Channel) :
    (BatchingShared.entriesFrom first requests).length = requests.length := by
  have := congrArg List.length (entriesFrom_channels requests first)
  rwa [List.length_map, List.length_range'] at this

/-- Every entry has a channel of its own. -/
structure BatchingShared.ChannelsOk (s : BatchingShared) : Prop where
  fresh : ∀ p ∈ s.entries, p.tx < s.nextChannel
  distinct : (s.entries.map PendingRequest.tx).Nodup

theorem channelsOk_enqueue {s : BatchingShared} (h : s.ChannelsOk) (config : RunningConfig)
    (requests : List SerializedRequest) : (s.enqueue config requests).ChannelsOk := by
  have hnew : ∀ p ∈ BatchingShared.entriesFrom s.nextChannel requests,
      s.nextChannel ≤ p.tx ∧ p.tx < s.nextChannel + requests.length := by
    intro p hp
    have := List.mem_map_of_mem (f := PendingRequest.tx) hp
    rw [entriesFrom_channels, List.mem_range'_1] at this
    exact this
  refine ⟨fun p hp => ?_, ?_⟩
  · rw [enqueue_entries, List.mem_append] at hp
    show p.tx < s.nextChannel + requests.length
    rcases hp with hp | hp
    · exact Nat.lt_add_right _ (h.fresh p hp)
    · exact (hnew p hp).2
  · rw [enqueue_entries, List.map_append]
    refine List.nodup_append.mpr ⟨h.distinct, ?_, fun tx htx tx' htx' e => ?_⟩
    · rw [entriesFrom_channels]
      exact List.nodup_range'
    · obtain ⟨p, hp, rfl⟩ := List.mem_map.mp htx
      obtain ⟨p', hp', rfl⟩ := List.mem_map.mp htx'
      exact Nat.lt_irrefl _ (Nat.lt_of_lt_of_le (e ▸ h.fresh p hp) (hnew p' hp').1)

theorem channelsOk_of_same {s s' : BatchingShared} (h : s.ChannelsOk)
    (hp : s'.pushed = s.pushed) (hn : s'.nextChannel = s.nextChannel) : s'.ChannelsOk := by
  constructor
  · unfold BatchingShared.entries
    rw [hp, hn]
    exact h.fresh
  · unfold BatchingShared.entries
    rw [hp]
    exact h.distinct

theorem channelsOk_step {b : BatchingTransport} {s s' : BatchingShared} {t t' : BatchTask}
    {new : List BatchTask} (h : s.ChannelsOk) (hs : t.Step b s s' t' new) : s'.ChannelsOk := by
  cases hs with
  | @effect e k r _ hrest heff =>
    cases e with
    | enqueue requests =>
      obtain ⟨_, rfl⟩ := heff
      exact channelsOk_enqueue h b.config requests
    | dropShared =>
      obtain rfl := heff
      exact channelsOk_of_same h (dropShared_pushed s) (dropShared_nextChannel s)
    | drain =>
      obtain ⟨_, rfl⟩ := heff
      exact channelsOk_of_same h rfl rfl
    | send =>
      obtain rfl := heff
      exact channelsOk_of_same h rfl rfl
    | notifyOne | awaitResponse | upgrade | beginWait | waitNotified | spawn | innerCall | iterate
    | onBatchRejection | newSemaphore | acquire | release =>
      have hf := effect_frame heff rfl
      exact channelsOk_of_same h hf.pushed hf.nextChannel
  | turn => exact h
  | cancel => exact channelsOk_of_same h (dropShared_pushed s) (dropShared_nextChannel s)

/-- **Every entry has a channel of its own**, in every reachable pool. -/
theorem channels_ok {b : BatchingTransport} {p : Pool BatchingShared BatchTask}
    (hr : (batchSystem b).Reachable (BatchStart b) p) : p.shared.ChannelsOk := by
  refine (System.Reachable.inv (J := BatchingShared.ChannelsOk) (I := fun _ _ => True)
    (fun p hp => ⟨⟨?_, ?_⟩, fun _ _ => trivial⟩)
    (fun h _ hs => ⟨channelsOk_step h hs, trivial, fun _ _ => trivial⟩) (fun _ _ _ _ => trivial)
    (fun h he => ⟨?_, fun _ _ => trivial⟩) (fun h ha => ⟨?_, trivial, fun _ _ => trivial⟩) hr).1
  · unfold BatchingShared.entries
    rw [hp.pushed]
    exact nofun
  · unfold BatchingShared.entries
    rw [hp.pushed]
    exact List.nodup_nil
  · cases he with
    | tick | cloned => exact channelsOk_of_same h rfl rfl
    | dropped => exact channelsOk_of_same h (dropShared_pushed _) (dropShared_nextChannel _)
  · obtain ⟨_, rfl, _⟩ := ha
    exact channelsOk_of_same h rfl rfl

theorem BatchingShared.ChannelsOk.nodup {s : BatchingShared} (h : s.ChannelsOk) :
    s.entries.Nodup := h.distinct.of_map _

theorem BatchingShared.ChannelsOk.inj {s : BatchingShared} (h : s.ChannelsOk)
    {p q : PendingRequest} (hp : p ∈ s.entries) (hq : q ∈ s.entries) (e : p.tx = q.tx) : p = q :=
  List.inj_on_of_nodup_map h.distinct hp hq e

/-- **An entry that was pushed is in exactly one place.** -/
theorem one_place {b : BatchingTransport} {p : Pool BatchingShared BatchTask}
    (hr : (batchSystem b).Reachable (BatchStart b) p) {q : PendingRequest}
    (hq : q ∈ p.shared.entries) :
    p.shared.settled q + p.total (fun t => t.ledger.owned.count q) = 1 := by
  rw [entries_conserved hr]
  exact List.count_eq_one_of_mem (channels_ok hr).nodup hq

/-- What is somewhere was pushed. -/
theorem mem_entries_of_settled {b : BatchingTransport} {p : Pool BatchingShared BatchTask}
    (hr : (batchSystem b).Reachable (BatchStart b) p) {q : PendingRequest}
    (hq : 0 < p.shared.settled q) : q ∈ p.shared.entries := by
  have := entries_conserved hr q
  exact List.count_pos_iff.mp (by omega)

theorem settled_of_pending {s : BatchingShared} {q : PendingRequest} (hq : q ∈ s.pending) :
    0 < s.settled q := by
  have := List.count_pos_iff.mpr hq
  unfold BatchingShared.settled
  omega

theorem settled_of_answer {s : BatchingShared} {q : PendingRequest} {result : RpcResult}
    (hq : (q, result) ∈ s.answers) : 0 < s.settled q := by
  have : 0 < (s.answers.map Prod.fst).count q := List.count_pos_iff.mpr (List.mem_map_of_mem hq)
  unfold BatchingShared.settled
  omega

theorem settled_of_dropped {s : BatchingShared} {q : PendingRequest} (hq : q ∈ s.dropped) :
    0 < s.settled q := by
  have := List.count_pos_iff.mpr hq
  unfold BatchingShared.settled
  omega

/-! ## 3. `Arc`s -/

theorem dropShared_strong (s : BatchingShared) : s.dropShared.strong = s.strong - 1 := by
  unfold BatchingShared.dropShared
  split
  · show 0 = s.strong - 1
    omega
  · rfl

/-- A step counts the `Arc`s of the acting task. -/
theorem step_arcs {b : BatchingTransport} {s s' : BatchingShared} {t t' : BatchTask}
    {new : List BatchTask} (ht : t.Ok) (hs : t.Step b s s' t' new)
    (hle : t.ledger.arcs ≤ s.strong) :
    s'.strong + t.ledger.arcs = s.strong + t'.ledger.arcs ∧ s'.handles = s.handles ∧
      (new.map fun n => n.ledger.arcs).sum = 0 := by
  unfold BatchTask.Ok at ht
  cases hs with
  | @effect e k r _ hrest heff =>
    rw [hrest] at ht
    have hnew : ((spawned b e).map fun n => n.ledger.arcs).sum = 0 := by
      cases e <;> rfl
    cases e with
    | upgrade =>
      rcases heff with ⟨_, rfl, rfl⟩ | ⟨_, rfl, rfl⟩
      · exact ⟨by simp only [Ledger.next]; omega, rfl, hnew⟩
      · exact ⟨rfl, rfl, hnew⟩
    | dropShared =>
      obtain rfl := heff
      have hpos : 0 < t.ledger.arcs := ht.1
      refine ⟨?_, dropShared_handles s, hnew⟩
      rw [dropShared_strong]
      simp only [Ledger.next]
      omega
    | enqueue | notifyOne | awaitResponse | beginWait | waitNotified | drain | spawn | innerCall
    | iterate | send | onBatchRejection | newSemaphore | acquire | release =>
      obtain ⟨hstrong, hhandles⟩ := effect_frame_arcs heff rfl
      exact ⟨by rw [hstrong]; rfl, hhandles, hnew⟩
  | turn => exact ⟨rfl, rfl, rfl⟩
  | cancel hkind hrest hdrop =>
    rw [hrest] at ht
    have harcs : t.ledger.arcs = 1 := congrArg Ledger.arcs (droppable_ledger hdrop ht.1).2
    refine ⟨?_, dropShared_handles s, rfl⟩
    rw [dropShared_strong]
    simp only
    omega

/-- **The strong count** is that of the clones and of the tasks that hold an `Arc`. -/
theorem strong_eq {b : BatchingTransport} {p : Pool BatchingShared BatchTask}
    (hr : (batchSystem b).Reachable (BatchStart b) p) :
    p.shared.strong = p.shared.handles + p.total (fun t => t.ledger.arcs) := by
  induction hr with
  | start hp =>
    unfold Pool.total
    rw [hp.tasks, hp.strong]
    rfl
  | step hr hs ih =>
    have hok := batchTask_ok hr
    cases hs with
    | act h =>
      rw [total_split] at ih
      simp only at ih
      obtain ⟨hstrong, hhandles, hnew⟩ := step_arcs (hok _ (by simp)) h (by omega)
      rw [total_split_new, hnew]
      simp only
      omega
    | env h =>
      simp only [total_mk] at ih ⊢
      cases h with
      | tick => exact ih
      | cloned =>
        simp only
        omega
      | dropped h =>
        simp only
        rw [dropShared_strong]
        omega
    | arrive h =>
      obtain ⟨_, rfl, packet, rfl⟩ := h
      simp only [total_mk, List.map_append, List.sum_append] at ih ⊢
      simp only [List.map_cons, List.map_nil, List.sum_cons, List.sum_nil, callerTask]
      omega

theorem arcs_le_strong {b : BatchingTransport} {p : Pool BatchingShared BatchTask}
    (hr : (batchSystem b).Reachable (BatchStart b) p) {t : BatchTask} (ht : t ∈ p.tasks) :
    t.ledger.arcs ≤ p.shared.strong := by
  rw [strong_eq hr]
  exact Nat.le_add_left_of_le (List.single_le_sum (fun _ _ => Nat.zero_le _) _
    (List.mem_map_of_mem (f := fun t : BatchTask => t.ledger.arcs) ht))

/-- Once no `Arc` is left there is none ever after. -/
theorem strong_zero_stays {b : BatchingTransport} {p p' : Pool BatchingShared BatchTask} {w : Actor}
    (hr : (batchSystem b).Reachable (BatchStart b) p) (hs : (batchSystem b).Step p w p')
    (h : p.shared.strong = 0) : p'.shared.strong = 0 := by
  have heq := strong_eq hr
  have hr' := strong_eq (hr.step hs)
  cases hs with
  | act hact =>
    rw [total_split] at heq
    simp only at heq h
    have hok := batchTask_ok hr _ (List.mem_append_right _ List.mem_cons_self)
    unfold BatchTask.Ok at hok
    cases hact with
    | @effect e k r _ hrest heff =>
      cases e with
      | upgrade =>
        rcases heff with ⟨hpos, _⟩ | ⟨_, _, rfl⟩
        · omega
        · exact h
      | dropShared =>
        obtain rfl := heff
        exact (dropShared_strong _).trans (by omega)
      | enqueue | notifyOne | awaitResponse | beginWait | waitNotified | drain | spawn | innerCall
      | iterate | send | onBatchRejection | newSemaphore | acquire | release =>
        exact (effect_frame_arcs heff rfl).1.trans h
    | turn => exact h
    | cancel => exact (dropShared_strong _).trans (by omega)
  | env henv =>
    simp only at heq h
    cases henv with
    | tick => exact h
    | cloned hpos => omega
    | dropped hpos => omega
  | arrive ha =>
    simp only at heq h
    obtain ⟨hpos, _⟩ := ha
    omega

/-- **Without an `Arc` there is no queue.** -/
theorem pending_of_strong_zero {b : BatchingTransport} {p : Pool BatchingShared BatchTask}
    (hr : (batchSystem b).Reachable (BatchStart b) p) (h : p.shared.strong = 0) :
    p.shared.pending = [] := by
  have hdropped : ∀ s : BatchingShared, s.dropShared.strong = 0 → s.dropShared.pending = [] := by
    intro s
    unfold BatchingShared.dropShared
    split
    · exact fun _ => rfl
    · intro hs
      simp only at hs
      omega
  induction hr with
  | start hp => exact hp.pending
  | step hr hs ih =>
    have hok := batchTask_ok hr
    cases hs with
    | act hact =>
      cases hact with
      | @effect e k r _ hrest heff =>
        cases e with
        | enqueue requests =>
          -- the caller's own `Arc` is still there
          have harcs := arcs_le_strong hr (List.mem_append_right _ List.mem_cons_self)
          have ht := hok _ (List.mem_append_right _ List.mem_cons_self)
          unfold BatchTask.Ok at ht
          rw [hrest] at ht
          rw [show _ = Ledger.oneArc from ht.1.2] at harcs
          have hstrong := (effect_frame_arcs heff rfl).1
          simp only at h hstrong harcs
          rw [hstrong] at h
          exact absurd (harcs.trans (Nat.le_of_eq h)) (by decide)
        | drain =>
          obtain ⟨_, rfl⟩ := heff
          rfl
        | dropShared =>
          obtain rfl := heff
          exact hdropped _ h
        | upgrade =>
          rcases heff with ⟨hpos, _, rfl⟩ | ⟨hzero, _, rfl⟩
          · exact absurd h (Nat.succ_ne_zero _)
          · exact ih hzero
        | send =>
          obtain rfl := heff
          exact ih h
        | notifyOne | awaitResponse | beginWait | waitNotified | spawn | innerCall | iterate
        | onBatchRejection | newSemaphore | acquire | release =>
          have hf := effect_frame heff rfl
          have hs := (effect_frame_arcs heff rfl).1
          exact hf.pending.trans (ih (hs.symm.trans h))
      | turn => exact ih h
      | cancel => exact hdropped _ h
    | env henv =>
      cases henv with
      | tick => exact ih h
      | cloned => exact absurd h (Nat.succ_ne_zero _)
      | dropped => exact hdropped _ h
    | arrive ha =>
      obtain ⟨_, rfl, _⟩ := ha
      exact absurd h (Nat.succ_ne_zero _)

end TransportBalancer.Batching
