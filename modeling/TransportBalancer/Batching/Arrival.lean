/-
  File:      TransportBalancer/Batching/Arrival.lean
  Subject:   A TRANSPORT IS A QUEUE OF BATCHES: the system of callers, flush loop, chunks and
             individual requests does nothing that the abstract queue does not do. So nobody
             overtakes on the way to a chunk.

  * `asQueue`, `StandsFor` -- the abstract queue of a pool;
  * `flush_matched`, `task_matched` -- what the flush loop and the other tasks do, as steps of it;
  * **`refines_queue`** -- every run is matched by a run of the abstract queue;
  * **`arrival_order_kept`** -- what was handed out, is held, waits and was dropped, in this order,
    is what was pushed, in the order of the pushes.
-/
import TransportBalancer.Batching.Amplification
import TransportBalancer.Batching.Completion
import TransportBalancer.Lib.BatchQueue

namespace TransportBalancer.Batching

open Interaction TaskPool

/-! ## 1. The queue of a pool -/

/-- What the flush loop gave a task it spawned; a fall-back task has its entry from a chunk. -/
def SpawnedTask.given : SpawnedTask → List PendingRequest
  | .single p => [p]
  | .chunk pending => pending
  | .individual _ _ => []

def TaskKind.given : TaskKind → List PendingRequest
  | .worker task => task.given
  | _ => []

/-- What the chunks of some tasks were given, in the order of their spawns. -/
def handedOut (tasks : List BatchTask) : List PendingRequest := tasks.flatMap fun t => t.kind.given

/-- What some tasks own. -/
def ownedBy (tasks : List BatchTask) : Multiset PendingRequest :=
  (tasks.map fun t => t.ledger.owned).sum

@[simp] theorem handedOut_append (l l' : List BatchTask) :
    handedOut (l ++ l') = handedOut l ++ handedOut l' := List.flatMap_append

@[simp] theorem handedOut_cons (t : BatchTask) (l : List BatchTask) :
    handedOut (t :: l) = t.kind.given ++ handedOut l := List.flatMap_cons

@[simp] theorem ownedBy_append (l l' : List BatchTask) :
    ownedBy (l ++ l') = ownedBy l + ownedBy l' := by
  unfold ownedBy
  rw [List.map_append, List.sum_append]

@[simp] theorem ownedBy_cons (t : BatchTask) (l : List BatchTask) :
    ownedBy (t :: l) = t.ledger.owned + ownedBy l := List.sum_cons

theorem chunkTask_given (chunk : List PendingRequest) : (chunkTask chunk).given = chunk := by
  match chunk with
  | [] | [_] | _ :: _ :: _ => rfl

/-- What a task was given stays what it was given. -/
theorem given_next (kind : TaskKind) (e : BatchOp) (r : BatchSig.Ans e) :
    (kind.next e r).given = kind.given := by
  cases e <;> cases kind <;> rfl

/-- **The queue of batches** that a shared state, what the flush loop holds and the other tasks
    make up. -/
def asQueue (s : BatchingShared) (held : List PendingRequest) (others : List BatchTask) :
    BatchQueue PendingRequest RpcResult where
  accepting := decide (0 < s.strong)
  pushed := s.entries
  cut := handedOut others
  line := held ++ s.pending
  out := ownedBy others
  answered := s.answers
  lost := s.dropped

/-- A step of the abstract queue, or none. -/
abbrev Matched (b : BatchingTransport) : BatchQueue PendingRequest RpcResult →
    BatchQueue PendingRequest RpcResult → Prop :=
  Relation.ReflGen (BatchQueue.Step b.config.maxBatchSize)

/-- **The queue stands for the pool.** -/
def StandsFor (b : BatchingTransport) (p : Pool BatchingShared BatchTask)
    (q : BatchQueue PendingRequest RpcResult) : Prop :=
  ∃ f others g, p.tasks = f :: others ∧ FlushAt b f g ∧ (∀ t ∈ others, t.kind ≠ .flush) ∧
    q = asQueue p.shared g.held others

section Queue

variable {b : BatchingTransport} {p p' : Pool BatchingShared BatchTask} {s s' : BatchingShared}
  {held : List PendingRequest} {others : List BatchTask} {q q' : BatchQueue PendingRequest RpcResult}

theorem matched_of_eq (h : q' = q) : Matched b q q' := by
  rw [h]

/-- Where no entry moves and no last `Arc` goes, the queue is the same. -/
theorem asQueue_same (h : SameEntries s s') (hstrong : 0 < s'.strong ↔ 0 < s.strong) :
    asQueue s' held others = asQueue s held others := by
  unfold asQueue BatchingShared.entries
  rw [h.pending, h.answers, h.dropped, h.pushed, decide_eq_decide.mpr hstrong]

/-- Where the acting task keeps what it was given and owns, the queue is the same. -/
theorem asQueue_tasks {l r new : List BatchTask} {t t' : BatchTask}
    (hgiven : t'.kind.given = t.kind.given) (howned : t'.ledger.owned = t.ledger.owned)
    (hnew : new = []) :
    asQueue s held (l ++ t' :: (r ++ new)) = asQueue s held (l ++ t :: r) := by
  unfold asQueue
  simp only [hnew, List.append_nil, handedOut_append, handedOut_cons, ownedBy_append, ownedBy_cons,
    hgiven, howned]

/-- Nothing is dropped while there is an `Arc`. -/
theorem dropped_of_strong (hr : (batchSystem b).Reachable (BatchStart b) p)
    (h : 0 < p.shared.strong) : p.shared.dropped = [] := by
  rw [List.eq_nil_iff_forall_not_mem]
  intro q hq
  have := strong_of_dropped hr hq
  omega

/-- **The last `Arc` closes the queue**: what waits is lost, what the flush loop holds is kept. -/
theorem dropShared_matched (hstrong : 0 < s.strong) (hnone : s.dropped = []) :
    Matched b (asQueue s held others) (asQueue s.dropShared held others) := by
  unfold BatchingShared.dropShared
  split
  · have hclosed : asQueue { s with strong := 0, pending := [], dropped := s.dropped ++ s.pending }
        held others =
          { asQueue s held others with accepting := false, line := held, lost := s.pending } := by
      unfold asQueue
      rw [hnone, List.append_nil]
      rfl
    rw [hclosed]
    exact .single (.close held s.pending (decide_eq_true hstrong) rfl)
  · exact matched_of_eq (asQueue_same ⟨rfl, rfl, rfl, rfl, rfl⟩ (by dsimp only; omega))

/-! ## 2. Every step is matched -/

/-- **The flush loop** takes the head of the line into its hands, which is no step of the queue, and
    cuts its chunks. -/
theorem flush_matched {g g' : FlushStage} {new : List BatchTask} (harcs : g.ledger.arcs ≤ s.strong)
    (hnone : 0 < s.strong → s.dropped = []) (h : FlushMove b s g s' g' new) :
    Matched b (asQueue s g.held others) (asQueue s' g'.held (others ++ new)) := by
  cases h with
  | upgrade hstrong =>
    rw [List.append_nil]
    exact matched_of_eq (asQueue_same ⟨rfl, rfl, rfl, rfl, rfl⟩ (by dsimp only; omega))
  | stop | beginWait | notified | timeout | again =>
    rw [List.append_nil]
    exact .refl
  | drain =>
    refine matched_of_eq ?_
    unfold asQueue
    simp only [FlushStage.held, List.append_nil, List.nil_append]
    rfl
  | dropShared =>
    have hstrong : 0 < s.strong := harcs
    rw [List.append_nil]
    exact dropShared_matched hstrong (hnone hstrong)
  | @spawn remaining hne =>
    have hsplit : nextChunk b.config remaining ++
        remaining.drop (nextChunk b.config remaining).length = remaining := by
      rw [nextChunk_length, nextChunk, List.take_append_drop]
    have hline : remaining ++ s.pending = nextChunk b.config remaining ++
        (remaining.drop (nextChunk b.config remaining).length ++ s.pending) := by
      rw [← List.append_assoc, hsplit]
    have hcut : asQueue s (remaining.drop (nextChunk b.config remaining).length)
        (others ++ [workerTask b (chunkTask (nextChunk b.config remaining))]) =
          { asQueue s remaining others with
            cut := handedOut others ++ nextChunk b.config remaining
            line := remaining.drop (nextChunk b.config remaining).length ++ s.pending
            out := ownedBy others + (nextChunk b.config remaining : Multiset PendingRequest) } := by
      have hgiven : handedOut [workerTask b (chunkTask (nextChunk b.config remaining))] =
          nextChunk b.config remaining := (List.append_nil _).trans (chunkTask_given _)
      have howned : ownedBy [workerTask b (chunkTask (nextChunk b.config remaining))] =
          (nextChunk b.config remaining : Multiset PendingRequest) :=
        List.sum_singleton.trans (congrArg _ (chunkTask_entries _))
      unfold asQueue
      rw [handedOut_append, ownedBy_append, hgiven, howned]
    show Matched b _ (asQueue s (remaining.drop (nextChunk b.config remaining).length) _)
    rw [hcut]
    exact .single (.cut _ _ hline (nextChunk_ne_nil b.config hne)
      ((nextChunk_length b.config remaining).trans_le (Nat.min_le_right _ _)))

/-- **A step of another task** pushes to the end of the line, answers an entry that is out, gives
    up an `Arc`, or is no step of the queue. -/
theorem task_matched (hr : (batchSystem b).Reachable (BatchStart b) p) {t t' : BatchTask}
    {l r new : List BatchTask} (ht : t ∈ p.tasks) (hkind : t.kind ≠ .flush)
    (hs : t.Step b p.shared s' t' new) :
    Matched b (asQueue p.shared held (l ++ t :: r)) (asQueue s' held (l ++ t' :: (r ++ new))) := by
  have hok := batchTask_ok hr t ht
  have harcs := arcs_le_strong hr ht
  unfold BatchTask.Ok at hok
  cases hs with
  | @effect e k answer _ hrest heff =>
    rw [hrest] at hok
    have hgiven := given_next t.kind e answer
    have hkept : ∀ s', (t.ledger.next e answer).owned = t.ledger.owned → spawned b e = [] →
        asQueue s' held (l ++ ⟨t.kind.next e answer, k answer, t.ledger.next e answer⟩ ::
          (r ++ spawned b e)) = asQueue s' held (l ++ t :: r) :=
      fun _ howned hnone => asQueue_tasks hgiven howned hnone
    cases e with
    | enqueue requests =>
      obtain ⟨rfl, rfl⟩ := heff
      have hledger : t.ledger = .oneArc := hok.1.2
      rw [hledger] at harcs
      rw [hkept _ rfl rfl]
      have hpush : asQueue (p.shared.enqueue b.config requests) held (l ++ t :: r) =
          { asQueue p.shared held (l ++ t :: r) with
            pushed := p.shared.entries ++
              BatchingShared.entriesFrom p.shared.nextChannel requests
            line := held ++ p.shared.pending ++
              BatchingShared.entriesFrom p.shared.nextChannel requests } := by
        unfold asQueue
        rw [enqueue_entries, List.append_assoc]
        rfl
      rw [hpush]
      exact .single (.push _ (decide_eq_true harcs))
    | send entry result =>
      obtain rfl := heff
      have howned : entry ∈ t.ledger.owned := hok.1
      have hout : ownedBy (l ++ t :: r) = entry ::ₘ (ownedBy l + (t.ledger.owned.erase entry +
          ownedBy r)) := by
        rw [ownedBy_append, ownedBy_cons, ← Multiset.add_cons, ← Multiset.cons_add,
          Multiset.cons_erase howned]
      have hanswer : asQueue { p.shared with answers := p.shared.answers ++ [(entry, result)] } held
          (l ++ ⟨t.kind, k answer, t.ledger.next (.send entry result) answer⟩ :: (r ++ [])) =
            { asQueue p.shared held (l ++ t :: r) with
              out := (ownedBy (l ++ t :: r)).erase entry
              answered := p.shared.answers ++ [(entry, result)] } := by
        rw [hout, Multiset.erase_cons_head]
        unfold asQueue
        simp only [handedOut_append, handedOut_cons, ownedBy_append, ownedBy_cons, List.append_nil]
        rfl
      show Matched b _ (asQueue _ held (l ++ ⟨t.kind, _, _⟩ :: (r ++ [])))
      rw [hanswer]
      refine .single (.answer entry result ?_)
      show entry ∈ ownedBy (l ++ t :: r)
      rw [hout]
      exact Multiset.mem_cons_self _ _
    | spawn task =>
      obtain rfl := heff
      have howned : (task.entries : Multiset PendingRequest) ≤ t.ledger.owned := hok.1
      have hgives : task.given = [] := by
        cases hk : t.kind with
        | caller => cases caller_op hr ht (by rw [hk]; rfl) hrest
        | flush => exact absurd hk hkind
        | worker =>
          obtain ⟨semaphore, q, rfl⟩ := worker_spawns hr ht hk hrest
          rfl
      -- what the task hands over, the new one owns
      have hout : ownedBy l + ((t.ledger.next (.spawn task) answer).owned + (ownedBy r +
          (task.entries : Multiset PendingRequest))) = ownedBy l + (t.ledger.owned + ownedBy r) := by
        show ownedBy l + (t.ledger.owned - (task.entries : Multiset PendingRequest) + _) = _
        rw [add_comm (ownedBy r), ← add_assoc (t.ledger.owned - _), Multiset.sub_add_cancel howned]
      have hworker : handedOut [workerTask b task] = [] ∧
          ownedBy [workerTask b task] = (task.entries : Multiset PendingRequest) :=
        ⟨(List.append_nil _).trans hgives, List.sum_singleton⟩
      refine matched_of_eq ?_
      unfold asQueue
      simp only [spawned, handedOut_append, handedOut_cons, ownedBy_append, ownedBy_cons, hworker,
        List.append_nil, hgiven]
      rw [hout]
    | drain =>
      obtain ⟨γ, hkeeps, _⟩ := tasks_keep hr t ht hkind
      unfold BatchTask.Keeps at hkeeps
      rw [hrest] at hkeeps
      cases hkeeps.1.1
    | dropShared =>
      obtain rfl := heff
      have hstrong : 0 < p.shared.strong := Nat.lt_of_lt_of_le hok.1 harcs
      rw [hkept _ rfl rfl]
      exact dropShared_matched hstrong (dropped_of_strong hr hstrong)
    | upgrade =>
      rcases heff with ⟨hstrong, rfl, rfl⟩ | ⟨_, rfl, rfl⟩
      · rw [hkept _ rfl rfl]
        exact matched_of_eq (asQueue_same ⟨rfl, rfl, rfl, rfl, rfl⟩ (by dsimp only; omega))
      · exact matched_of_eq (hkept _ rfl rfl)
    | notifyOne | awaitResponse | beginWait | waitNotified | innerCall | iterate
    | onBatchRejection | newSemaphore | acquire | release =>
      rw [hkept _ rfl rfl]
      have hsame := effect_frame_arcs heff rfl
      exact matched_of_eq (asQueue_same (effect_frame heff rfl) (by rw [hsame.1]))
  | turn hflush => exact absurd hflush hkind
  | cancel hcaller hrest hdrop =>
    rw [hrest] at hok
    have hledger := (droppable_ledger hdrop hok.1).2
    rw [hledger] at harcs
    have hstrong : 0 < p.shared.strong := harcs
    have hkept : asQueue p.shared.dropShared held (l ++ ⟨t.kind, .ret .cancelled,
        { t.ledger with arcs := t.ledger.arcs - 1 }⟩ :: (r ++ [])) =
          asQueue p.shared.dropShared held (l ++ t :: r) := asQueue_tasks rfl rfl rfl
    rw [hkept]
    exact dropShared_matched hstrong (dropped_of_strong hr hstrong)

/-- **What happens around the tasks**: the last clone closes the queue. -/
theorem around_matched (hr : (batchSystem b).Reachable (BatchStart b) p) (h : Around p.shared s') :
    Matched b (asQueue p.shared held others) (asQueue s' held others) := by
  have hhandles : p.shared.handles ≤ p.shared.strong := by
    rw [strong_eq hr]
    exact Nat.le_add_right _ _
  cases h with
  | tick => exact matched_of_eq (asQueue_same ⟨rfl, rfl, rfl, rfl, rfl⟩ Iff.rfl)
  | cloned hpos =>
    exact matched_of_eq (asQueue_same ⟨rfl, rfl, rfl, rfl, rfl⟩ (by dsimp only; omega))
  | dropped hpos =>
    have hstrong : 0 < p.shared.strong := Nat.lt_of_lt_of_le hpos hhandles
    exact dropShared_matched hstrong (dropped_of_strong hr hstrong)

/-- **Every step of the pool is a step of the queue, or none.** -/
theorem step_matched (hr : (batchSystem b).Reachable (BatchStart b) p) {w : Actor}
    (h : StandsFor b p q) (hs : (batchSystem b).Step p w p') :
    ∃ q', StandsFor b p' q' ∧ Matched b q q' := by
  obtain ⟨f, others, g, htasks, hat, hothers, rfl⟩ := h
  cases hs with
  | @act s s' l r new t t' h =>
    have hnew : ∀ u ∈ new, u.kind ≠ .flush := fun u hu => by
      obtain ⟨task, rfl, _⟩ := new_workers h u hu
      exact nofun
    cases l with
    | nil =>
      obtain ⟨rfl, rfl⟩ := List.cons.inj htasks
      obtain ⟨g', hmove, hat'⟩ := hat.step h
      have harcs := arcs_le_strong hr (List.mem_cons_self (a := t))
      rw [hat.ledger] at harcs
      exact ⟨_, ⟨t', r ++ new, g', rfl, hat', List.forall_mem_append.mpr ⟨hothers, hnew⟩, rfl⟩,
        flush_matched harcs (dropped_of_strong hr) hmove⟩
    | cons f' l =>
      obtain ⟨rfl, hrest⟩ := List.cons.inj htasks
      obtain rfl : l ++ t :: r = others := hrest
      have hkind : t.kind ≠ .flush := hothers t (by simp)
      refine ⟨_, ⟨f', l ++ t' :: (r ++ new), g, rfl, hat, fun u hu => ?_, rfl⟩,
        task_matched hr (by simp) hkind h⟩
      simp only [List.mem_append, List.mem_cons] at hu
      rcases hu with hu | rfl | hu | hu
      · exact hothers u (by simp [hu])
      · exact fun e => hkind ((flush_stays h).mp e)
      · exact hothers u (by simp [hu])
      · exact hnew u hu
  | env h => exact ⟨_, ⟨f, others, g, htasks, hat, hothers, rfl⟩, around_matched hr h⟩
  | @arrive s s' ts t h =>
    obtain ⟨hpos, rfl, packet, rfl⟩ := h
    have hhandles : s.handles ≤ s.strong := by
      have hstrong := strong_eq hr
      dsimp only at hstrong
      omega
    refine ⟨_, ⟨f, others ++ [callerTask packet], g, ?_, hat, fun u hu => ?_, rfl⟩, ?_⟩
    · dsimp only at htasks ⊢
      rw [htasks]
      rfl
    · rcases List.mem_append.mp hu with hu | hu
      · exact hothers u hu
      · rw [List.mem_singleton.mp hu]
        exact nofun
    · refine matched_of_eq ?_
      have hnone : handedOut [callerTask packet] = [] ∧ ownedBy [callerTask packet] = 0 :=
        ⟨rfl, List.sum_singleton⟩
      unfold asQueue
      simp only [handedOut_append, ownedBy_append, hnone, List.append_nil, add_zero]
      have hopen : decide (0 < s.strong + 1) = decide (0 < s.strong) :=
        decide_eq_decide.mpr (by omega)
      rw [hopen]
      rfl

/-! ## 3. The transport as a queue of batches -/

/-- A transport just made is an empty queue; one made without a clone is closed at once. -/
theorem start_matched (hp : BatchStart b p) :
    ∃ q, StandsFor b p q ∧
      Relation.ReflTransGen (BatchQueue.Step b.config.maxBatchSize) .empty q := by
  refine ⟨_, ⟨flushTask b, [], .start, hp.tasks, flushTask_at b, nofun, rfl⟩, ?_⟩
  unfold asQueue BatchingShared.entries
  rw [hp.pending, hp.pushed, hp.answers, hp.dropped]
  rcases Nat.eq_zero_or_pos p.shared.strong with hzero | hpos
  · rw [decide_eq_false (Nat.not_lt.mpr (Nat.le_zero.mpr hzero))]
    exact .single (.close [] [] rfl rfl)
  · rw [decide_eq_true hpos]
    exact .refl

/-- **Every reachable pool** stands where the queue can get to. -/
theorem queue_reached (hr : (batchSystem b).Reachable (BatchStart b) p) :
    ∃ q, StandsFor b p q ∧
      Relation.ReflTransGen (BatchQueue.Step b.config.maxBatchSize) .empty q := by
  obtain ⟨_, _, hstart, hrun⟩ := hr.from_start
  obtain ⟨q, hq, hreached⟩ := start_matched hstart
  obtain ⟨q', hq', hmatched⟩ := hrun.simulated (fun hr h hs => step_matched hr h hs)
    (.start hstart) hq
  exact ⟨q', hq', hreached.trans hmatched⟩

/-- **A TRANSPORT REFINES THE QUEUE OF BATCHES.** Over any inner service, every run from a reachable
    pool is a run of a queue whose batches have at most `max_batch_size` items: the queue that
    stands for the pool, made up of what was pushed, handed out to chunks, held or queued, of what
    the tasks own, of the answers and of what was dropped, gets to the one that stands for the last
    pool, which is consistent. -/
theorem refines_queue {vs : List (Pool BatchingShared BatchTask × Actor)}
    (hr : (batchSystem b).Reachable (BatchStart b) p) (hrun : (batchSystem b).Run p vs p') :
    ∃ q q', StandsFor b p q ∧ StandsFor b p' q' ∧ q'.Consistent ∧
      Relation.ReflTransGen (BatchQueue.Step b.config.maxBatchSize) .empty q ∧
      Relation.ReflTransGen (BatchQueue.Step b.config.maxBatchSize) q q' := by
  obtain ⟨q, hq, hreached⟩ := queue_reached hr
  obtain ⟨q', hq', hmatched⟩ := hrun.simulated (fun hr h hs => step_matched hr h hs) hr hq
  exact ⟨q, q', hq, hq', BatchQueue.consistent_of_reachable (hreached.trans hmatched), hreached,
    hmatched⟩

/-- A run in which a chunk is retried, rejected and sent on individually, and the transport dropped. -/
theorem refines_queue_lossy : ∃ p p' vs, BatchStart lossyTransport p ∧
    (batchSystem lossyTransport).Run p vs p' ∧ p'.shared.answers.length = 3 ∧
      ∃ q q', StandsFor lossyTransport p q ∧ StandsFor lossyTransport p' q' ∧ q'.Consistent ∧
        Relation.ReflTransGen (BatchQueue.Step 2) .empty q ∧
        Relation.ReflTransGen (BatchQueue.Step 2) q q' := by
  obtain ⟨p', hr, hp⟩ := observed_reachable lossy_mayReply lossySchedule
    (fun p => p.shared.answers.length) (a := 3) (by decide)
  obtain ⟨p, vs, hstart, hrun⟩ := hr.from_start
  exact ⟨p, p', vs, hstart, hrun, hp, refines_queue (.start hstart) hrun⟩

/-- **ARRIVAL ORDER IS KEPT.** In every reachable pool: what the spawned chunks were given, chunk
    after chunk, what the flush loop has drained and holds, what waits in the queue and what was
    dropped with it, in this order, is everything pushed in the order it was pushed. -/
theorem arrival_order_kept (hr : (batchSystem b).Reachable (BatchStart b) p) :
    ∃ f rest held, p.tasks = f :: rest ∧ f.kind = .flush ∧
      f.ledger.owned = (held : List PendingRequest) ∧
      handedOut rest ++ held ++ p.shared.pending ++ p.shared.dropped = p.shared.entries := by
  obtain ⟨_, ⟨f, rest, g, htasks, hat, _, rfl⟩, hreached⟩ := queue_reached hr
  have horder := (BatchQueue.consistent_of_reachable hreached).order
  refine ⟨f, rest, g.held, htasks, hat.kind, ?_, ?_⟩
  · rw [hat.ledger]
    cases g <;> rfl
  · rw [List.append_assoc _ g.held]
    exact horder

end Queue

/-- Three requests in two packets, drained together, in two chunks of two and one. -/
theorem arrival_order_kept_lossy : ∃ p f rest held, (batchSystem lossyTransport).Reachable
    (BatchStart lossyTransport) p ∧ p.tasks = f :: rest ∧
      (handedOut rest).map (fun q => q.request.request) = ["a", "b", "c"] ∧
      f.ledger.owned = (held : List PendingRequest) ∧
      handedOut rest ++ held ++ p.shared.pending ++ p.shared.dropped = p.shared.entries := by
  obtain ⟨p, hr, hp⟩ := observed_reachable lossy_mayReply lossySchedule
    (fun p => (handedOut p.tasks.tail).map fun q => q.request.request) (a := ["a", "b", "c"])
    (by decide)
  obtain ⟨f, rest, held, htasks, _, howned, hline⟩ := arrival_order_kept hr
  rw [htasks] at hp
  exact ⟨p, f, rest, held, hr, htasks, hp, howned, hline⟩

end TransportBalancer.Batching
