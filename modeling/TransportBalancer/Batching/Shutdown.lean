/-
  File:      TransportBalancer/Batching/Shutdown.lean
  Subject:   THE BATCHING TRANSPORT SHUTS DOWN when its last clone is dropped, and not before: on
             every fair run, over an inner service that completes its calls.

  * `no_clones_stays` -- without a clone there is none ever after;
  * `ShutDown` -- nothing left to run, to hold or to send off, and every answer given;
  * `stop_falls`, `Quiet.flush_stops` -- the loop finds no `Arc` left;
  * **`shuts_down_iff`** -- the transport comes to rest if and only if its clones are all dropped.
-/
import TransportBalancer.Batching.Completion

namespace TransportBalancer.Batching

open Interaction TaskPool

section Clones

variable {b : BatchingTransport} {p p' : Pool BatchingShared BatchTask}

/-- A clone is made of a clone: without one there is none ever after. -/
theorem no_clones_stays {w : Actor} (hr : (batchSystem b).Reachable (BatchStart b) p)
    (hs : (batchSystem b).Step p w p') (h : p.shared.handles = 0) : p'.shared.handles = 0 := by
  cases hs with
  | @act _ _ l r _ t _ hact =>
    have hmem : t ∈ l ++ t :: r := List.mem_append_right l List.mem_cons_self
    exact (step_arcs (batchTask_ok hr _ hmem) hact (arcs_le_strong hr hmem)).2.1.trans h
  | env henv =>
    simp only at h
    cases henv with
    | tick => exact h
    | cloned hpos | dropped hpos => omega
  | arrive ha =>
    simp only at h
    obtain ⟨hpos, _⟩ := ha
    omega

/-- **A transport that has shut down**: its tasks have returned, the flush loop by its stop, the
    shared state is freed and the queue is empty. Who was not cancelled has one answer to each
    request. -/
structure ShutDown (p : Pool BatchingShared BatchTask) : Prop where
  ended : ∀ t ∈ p.tasks, ∃ x, t.rest = .ret x ∧ (t.kind = .flush → x = .turn .stop)
  freed : p.shared.strong = 0
  empty : p.shared.pending = []
  answered : ∀ t ∈ p.tasks, t.rest ≠ .ret .cancelled → ∀ q ∈ t.kind.entries,
    (p.shared.answers.map Prod.fst).count q = 1

/-- The loop that has stopped has ended. -/
theorem stopped_ret {t : BatchTask} (hat : FlushAt b t .stopped) : t.rest = .ret (.turn .stop) := by
  have hfollows := hat.follows
  cases hrest : t.rest with
  | ret x =>
    rw [hrest] at hfollows
    rcases hfollows with ⟨_, hg⟩ | ⟨rfl, _⟩
    · cases hg
    · rfl
  | op e k =>
    rw [hrest] at hfollows
    exact hfollows.1.elim

/-- How far the flush loop is from finding no `Arc` left. -/
def FlushStage.toStop : FlushStage → Nat
  | .stopped => 0
  | .start => 1
  | .dispatching _ => 2
  | .holding _ => 3
  | .woken => 4
  | .waiting _ => 5
  | .upgraded => 6

/-- **The loop comes nearer to its stop** with every step that spawns nothing, if whoever is left
    to hold an `Arc` is the loop itself. -/
theorem stop_falls {s s' : BatchingShared} {g g' : FlushStage} (h : FlushMove b s g s' g' [])
    (hown : s.strong = g.ledger.arcs) : g'.toStop < g.toStop := by
  cases h with
  | upgrade hpos =>
    have hnone : s.strong = 0 := hown
    omega
  | stop | beginWait | notified | timeout | drain | dropShared | again => exact Nat.lt_succ_self _

end Clones

section Rest

variable {b : BatchingTransport} {run : (batchSystem b).Path} {n : Nat}

/-- **On a quiet run callers and spawned tasks have ended.** -/
theorem Quiet.others_ended (hq : Quiet run n) (hfair : Fair run) (hb : Responsive b)
    {t : BatchTask} (ht : t ∈ (run.pool n).tasks) (hkind : t.kind ≠ .flush) :
    ∃ x, t.rest = .ret x := by
  cases htask : t.kind with
  | flush => exact absurd htask hkind
  | worker task => exact hq.worker_ended hfair hb ht htask
  | caller packet receivers =>
    by_contra hlive
    obtain ⟨rx, k, hrest⟩ := hq.caller_waits hfair hb ht (by rw [htask]; rfl)
      fun x hx => hlive ⟨x, hx⟩
    -- the receiver it waits on is that of an entry of its own
    obtain ⟨heard, h⟩ := caller_ok (hq.reachable n) ht htask
    have hfollows := h.follows
    rw [hrest] at hfollows
    obtain ⟨q, hentry, rfl⟩ := h.named rx hfollows.1
    rw [← htask] at hentry
    obtain ⟨i, hi⟩ := List.mem_iff_getElem?.mp ht
    exact hq.nobody_waits hfair hb hi hentry hrest

/-- Nobody but the flush loop holds an `Arc` then, apart from the clones. -/
theorem Quiet.strong_flush (hq : Quiet run n) (hfair : Fair run) (hb : Responsive b)
    (hclones : (run.pool n).shared.handles = 0) {f : BatchTask} {g : FlushStage}
    (hf : (run.pool n).tasks[0]? = some f) (hat : FlushAt b f g) :
    (run.pool n).shared.strong = g.ledger.arcs := by
  have hr := hq.reachable n
  obtain ⟨f', rest, htasks, _, hothers⟩ := flush_first hr
  rw [htasks] at hf
  obtain rfl : f' = f := by simpa using hf
  have hnone : (rest.map fun t : BatchTask => t.ledger.arcs).sum = 0 :=
    List.sum_eq_zero fun a ha => by
      obtain ⟨t, ht, rfl⟩ := List.mem_map.mp ha
      have hmem : t ∈ (run.pool n).tasks := by
        rw [htasks]
        exact List.mem_cons_of_mem f' ht
      obtain ⟨x, hx⟩ := hq.others_ended hfair hb hmem (hothers t ht)
      rw [ended_ledger hr hmem hx]
      rfl
  rw [strong_eq hr, hclones, Pool.total, htasks, List.map_cons, List.sum_cons, hnone, hat.ledger]
  omega

/-- **The flush loop stops** when the clones are gone and nobody else is left. -/
theorem Quiet.flush_stops (hq : Quiet run n) (hfair : Fair run) (hb : Responsive b)
    (hclones : ∀ m, n ≤ m → (run.pool m).shared.handles = 0) :
    ∃ m, n ≤ m ∧ ∃ f, (run.pool m).tasks[0]? = some f ∧ FlushAt b f .stopped := by
  -- by induction on what is left to its stop, at any later point of the run
  suffices hleft : ∀ (left m : Nat) (f : BatchTask) (g : FlushStage), n ≤ m →
      (run.pool m).tasks[0]? = some f → FlushAt b f g → g.toStop = left →
        ∃ m, n ≤ m ∧ ∃ f, (run.pool m).tasks[0]? = some f ∧ FlushAt b f .stopped by
    obtain ⟨f, rest, htasks, hkind, _⟩ := flush_first (hq.reachable n)
    have hf : (run.pool n).tasks[0]? = some f := by rw [htasks]; rfl
    obtain ⟨g, hat, _⟩ := flush_ok (hq.reachable n) (List.mem_of_getElem? hf) hkind
    exact hleft _ n f g (Nat.le_refl n) hf hat rfl
  intro left
  induction left using Nat.strongRecOn with
  | ind left ih =>
    intro m f g hm hf hat heq
    obtain rfl := heq
    by_cases hg : g = .stopped
    · exact ⟨m, hm, f, hf, hg ▸ hat⟩
    obtain ⟨j, hj, hact, hf'⟩ := flush_acts hfair hb hf hat hg
    have hqj := hq.later (hm.trans hj)
    rcases step_task_at (run.step j) hf' with ⟨_, f', new, hs, hafter, hlength⟩ | ⟨hother, _⟩
    · obtain ⟨g', hmove, hat'⟩ := hat.step hs
      obtain rfl : new = [] := by
        by_contra hnew
        have hstep := run.step j
        rw [hact] at hstep
        have hpos := List.length_pos_iff.mpr hnew
        have hlt := workLeft_lt (hq.reachable j) hstep hf' (Or.inr (by omega))
        rw [hqj.steady j (Nat.le_refl j)] at hlt
        exact Nat.lt_irrefl _ hlt
      have hown := hqj.strong_flush hfair hb (hclones j (hm.trans hj)) hf' hat
      exact ih _ (stop_falls hmove hown) (j + 1) f' g' (by omega) hafter hat' rfl
    · exact absurd hact hother

/-- The loop that has stopped takes no step any more. -/
theorem stopped_stays {f : BatchTask} (hf : (run.pool n).tasks[0]? = some f)
    (hat : FlushAt b f .stopped) {m : Nat} (hm : n ≤ m) : (run.pool m).tasks[0]? = some f := by
  refine run.keeps (P := fun p => p.tasks[0]? = some f) hf (fun k _ h => ?_) hm
  rcases step_task_at (run.step k) h with ⟨_, f', new, hs, _⟩ | ⟨_, hsame⟩
  · obtain ⟨g', hmove, _⟩ := hat.step hs
    cases hmove
  · exact hsame

/-- **When it has, the transport has shut down**, from that point on. -/
theorem Quiet.shut_down (hq : Quiet run n) (hfair : Fair run) (hb : Responsive b)
    (hclones : ∀ m, n ≤ m → (run.pool m).shared.handles = 0) {f : BatchTask}
    (hf : (run.pool n).tasks[0]? = some f) (hat : FlushAt b f .stopped) {m : Nat} (hm : n ≤ m) :
    ShutDown (run.pool m) := by
  have hqm := hq.later hm
  have hr := hq.reachable m
  have hf' := stopped_stays hf hat hm
  have hended : ∀ t ∈ (run.pool m).tasks, ∃ x, t.rest = .ret x ∧
      (t.kind = .flush → x = .turn .stop) := by
    intro t ht
    by_cases hkind : t.kind = .flush
    · obtain ⟨f', rest, htasks, _, hothers⟩ := flush_first hr
      rw [htasks] at ht hf'
      obtain rfl : f' = f := by simpa using hf'
      rcases List.mem_cons.mp ht with rfl | ht
      · exact ⟨_, stopped_ret hat, fun _ => rfl⟩
      · exact absurd hkind (hothers t ht)
    · obtain ⟨x, hx⟩ := hqm.others_ended hfair hb ht hkind
      exact ⟨x, hx, fun e => absurd e hkind⟩
  have hfreed := hqm.strong_flush hfair hb (hclones m hm) hf' hat
  refine ⟨hended, hfreed, pending_of_strong_zero hr hfreed, fun t ht hlive q hentry => ?_⟩
  exact (answered_once hr (fun u hu => (hended u hu).imp fun _ h => h.1) ht hlive hentry).1

/-- **THE TRANSPORT SHUTS DOWN IF AND ONLY IF ITS CLONES ARE ALL DROPPED**: on every fair run, over
    an inner service that completes its calls, whatever it answers and whoever is cancelled. -/
theorem shuts_down_iff (hb : Responsive b) (hstart : BatchStart b (run.pool 0))
    (hfair : Fair run) :
    (∃ m, (run.pool m).shared.handles = 0) ↔ ∃ m, ∀ k, m ≤ k → ShutDown (run.pool k) := by
  have hr := run.reachable (.start hstart)
  constructor
  · intro h
    obtain ⟨m, hclones⟩ := h
    obtain ⟨j, hj, hq⟩ := exists_quiet hstart hfair m
    have hgone : ∀ k, j ≤ k → (run.pool k).shared.handles = 0 := fun k hk =>
      run.keeps (P := fun p => p.shared.handles = 0) hclones
        (fun i _ h => no_clones_stays (hr i) (run.step i) h) (hj.trans hk)
    obtain ⟨k, hk, f, hf, hat⟩ := hq.flush_stops hfair hb hgone
    exact ⟨k, fun i hi => (hq.later hk).shut_down hfair hb (fun j hj => hgone j (hk.trans hj)) hf
      hat hi⟩
  · intro h
    obtain ⟨m, hdown⟩ := h
    have hfreed := (hdown m (Nat.le_refl m)).freed
    rw [strong_eq (hr m)] at hfreed
    exact ⟨m, by omega⟩

/-- The run on which a chunk is retried, rejected and sent on individually ends so. -/
theorem shuts_down_lossy : ∃ run : (batchSystem lossyTransport).Path,
    ∃ m, (run.pool m).shared.answers.length = 3 ∧ ∀ k, m ≤ k → ShutDown (run.pool k) := by
  obtain ⟨p, hr, hp⟩ := observed_reachable lossy_mayReply lossySchedule
    (fun p => decide (p.shared.answers.length = 3 ∧ (∀ t ∈ p.tasks, t.ended = true) ∧
      p.shared.handles = 0)) (a := true) (by decide)
  obtain ⟨hanswers, hended, hclones⟩ := of_decide_eq_true hp
  obtain ⟨run, hstart, hfair, n, hlast⟩ := exists_fair_run hr hended
  have hn : run.pool n = p := hlast 0
  obtain ⟨m, hdown⟩ := (shuts_down_iff (fun _ => ⟨_, rfl⟩) hstart hfair).mp ⟨n, hn ▸ hclones⟩
  refine ⟨run, max m n, ?_, fun k hk => hdown k (by omega)⟩
  obtain ⟨k, hk⟩ := Nat.exists_eq_add_of_le (Nat.le_max_right m n)
  rw [hk, hlast k]
  exact hanswers

end Rest

end TransportBalancer.Batching
