/-
  File:      TransportBalancer/Batching/Completion.lean
  Subject:   EVERY CALLER RETURNS, on every fair run on which calls cease to arrive, over an inner
             service that completes its calls.

  * `acquire_unblocks` -- of the tasks blocked at a semaphore and those that hold it, one can go on;
  * `Fair` -- tasks that can go on do, time passes, finitely many calls arrive;
  * `FlushStage.rank` -- how far the flush loop is from sending off what it has or finds in the
    queue;
  * **`caller_ends`** -- a caller that is not cancelled returns.
-/
import TransportBalancer.Batching.Budgets

namespace TransportBalancer.Batching

open Interaction TaskPool

/-! ## 1. What can go on -/

section GoOn

variable {b : BatchingTransport} {p p' : Pool BatchingShared BatchTask}

/-- An inner service that completes every call. -/
def Responsive (b : BatchingTransport) : Prop := ∀ packet, ∃ result, b.inner packet result

/-- A task can take a step of its own. -/
def BatchTask.CanStep (b : BatchingTransport) (s : BatchingShared) (t : BatchTask) : Prop :=
  (∃ e k r s', t.rest = .op e k ∧ Effect b s e r s') ∨
    (t.kind = .flush ∧ t.rest = .ret (.turn .again))

/-- The effects that may have to wait. -/
def BatchOp.blocks : BatchOp → Bool
  | .awaitResponse _ | .waitNotified _ | .acquire _ | .release _ => true
  | _ => false

theorem effect_possible (hb : Responsive b) (s : BatchingShared) {e : BatchOp}
    (he : e.blocks = false) : ∃ r s', Effect b s e r s' := by
  cases e with
  | awaitResponse | waitNotified | acquire | release => cases he
  | enqueue requests => exact ⟨_, _, rfl, rfl⟩
  | notifyOne | dropShared | spawn | send | onBatchRejection => exact ⟨(), _, rfl⟩
  | upgrade =>
    rcases Nat.eq_zero_or_pos s.strong with h | h
    · exact ⟨false, _, Or.inr ⟨h, rfl, rfl⟩⟩
    · exact ⟨true, _, Or.inl ⟨h, rfl, rfl⟩⟩
  | beginWait | drain | newSemaphore => exact ⟨_, _, rfl, rfl⟩
  | innerCall packet =>
    obtain ⟨result, h⟩ := hb packet
    exact ⟨result, _, h, rfl⟩
  | iterate entries => exact ⟨entries, _, .refl entries, rfl⟩

/-- A task that can go on wherever it is. -/
def Ready (b : BatchingTransport) (t : BatchTask) : Prop :=
  ∀ q : Pool BatchingShared BatchTask, (batchSystem b).Reachable (BatchStart b) q → t ∈ q.tasks →
    t.CanStep b q.shared

theorem canStep_of_effect (hb : Responsive b) (s : BatchingShared) {t : BatchTask} {e : BatchOp}
    {k : BatchSig.Ans e → Program BatchSig TaskEnd} (hrest : t.rest = .op e k)
    (he : e.blocks = false) : t.CanStep b s := by
  obtain ⟨r, s', h⟩ := effect_possible hb s he
  exact Or.inl ⟨e, k, r, s', hrest, h⟩

theorem ready_of_effect (hb : Responsive b) {t : BatchTask} {e : BatchOp}
    {k : BatchSig.Ans e → Program BatchSig TaskEnd} (hrest : t.rest = .op e k)
    (he : e.blocks = false) : Ready b t := fun q _ _ => canStep_of_effect hb q.shared hrest he

/-- A task with a permit can give it back. -/
theorem ready_of_release {t : BatchTask} {semaphore : Nat} {k : Unit → Program BatchSig TaskEnd}
    (hrest : t.rest = .op (.release semaphore) k) : Ready b t := fun q hr ht => by
  have hok := batchTask_ok hr t ht
  unfold BatchTask.Ok at hok
  rw [hrest] at hok
  have hpermits : t.ledger.permits = {semaphore} := hok.1
  have hheld : 1 ≤ q.total (fun t => t.ledger.permits.count semaphore) := by
    have := List.single_le_sum (fun _ _ => Nat.zero_le _) _
      (List.mem_map_of_mem (f := fun t : BatchTask => t.ledger.permits.count semaphore) ht)
    rw [hpermits, Multiset.count_singleton_self] at this
    exact this
  have hall := permits_conserved hr semaphore
  unfold BatchingShared.capacity at hall
  split at hall
  · rename_i hlt
    exact Or.inl ⟨.release semaphore, k, (), _, hrest, _, List.getElem?_eq_getElem hlt, rfl⟩
  · omega

/-- **Blocked at a semaphore**: some other task can go on. -/
theorem acquire_unblocks (hb : Responsive b) (hr : (batchSystem b).Reachable (BatchStart b) p)
    {t : BatchTask} (ht : t ∈ p.tasks) (hkind : t.kind ≠ .flush) {semaphore : Nat}
    {k : Unit → Program BatchSig TaskEnd} (hrest : t.rest = .op (.acquire semaphore) k) :
    t.CanStep b p.shared ∨ ∃ u ∈ p.tasks, u.kind ≠ .flush ∧ Ready b u := by
  obtain ⟨γ, hγ, hhas⟩ := tasks_keep hr t ht hkind
  unfold BatchTask.Keeps at hγ
  rw [hrest] at hγ
  have hlt := hhas semaphore (hγ.1.2.1 List.mem_cons_self)
  have hget := List.getElem?_eq_getElem hlt
  cases hfree : p.shared.semaphores[semaphore] with
  | succ free =>
    rw [hfree] at hget
    exact Or.inl (Or.inl ⟨.acquire semaphore, k, (), _, hrest, free, hget, rfl⟩)
  | zero =>
    -- all permits are held: whoever holds one is past its own `acquire`
    have hall := permits_conserved hr semaphore
    unfold BatchingShared.free BatchingShared.capacity at hall
    rw [hget, hfree, if_pos hlt] at hall
    obtain ⟨u, hu, hheld⟩ : ∃ u ∈ p.tasks, 0 < u.ledger.permits.count semaphore := by
      by_contra hnone
      have : p.total (fun t => t.ledger.permits.count semaphore) = 0 :=
        List.sum_eq_zero fun n hn => by
          obtain ⟨u, hu, rfl⟩ := List.mem_map.mp hn
          exact Nat.eq_zero_of_not_pos fun h => hnone ⟨u, hu, h⟩
      rw [this] at hall
      cases hall
    have hpermits : u.ledger.permits ≠ 0 := fun h => by
      rw [h] at hheld
      exact Nat.lt_irrefl 0 hheld
    have hflush : u.kind ≠ .flush := fun hkind => by
      obtain ⟨g, hat, _⟩ := flush_ok hr hu hkind
      rw [hat.ledger] at hpermits
      cases g <;> exact hpermits rfl
    have hok := batchTask_ok hr u hu
    obtain ⟨γ, hγ, _⟩ := tasks_keep hr u hu hflush
    unfold BatchTask.Ok at hok
    unfold BatchTask.Keeps at hγ
    refine Or.inr ⟨u, hu, hflush, ?_⟩
    cases hurest : u.rest with
    | ret x =>
      rw [ended_ledger hr hu hurest] at hpermits
      exact absurd rfl hpermits
    | op e k =>
      rw [hurest] at hok hγ
      cases e with
      | release => exact ready_of_release hurest
      | acquire => exact absurd hok.1 hpermits
      | awaitResponse =>
        have hone : u.ledger = .oneArc := hok.1.2
        rw [hone] at hpermits
        exact absurd rfl hpermits
      | waitNotified => cases hγ.1.1
      | _ => exact ready_of_effect hb hurest rfl

/-- **A spawned task that has not ended can go on**, or another one can. -/
theorem worker_goes_on (hb : Responsive b) (hr : (batchSystem b).Reachable (BatchStart b) p)
    {t : BatchTask} (ht : t ∈ p.tasks) {task : SpawnedTask} (hkind : t.kind = .worker task)
    (hlive : ∀ x, t.rest ≠ .ret x) :
    Ready b t ∨ (∃ semaphore k, t.rest = .op (.acquire semaphore) k) := by
  have hflush : t.kind ≠ .flush := by rw [hkind]; exact nofun
  have hok := batchTask_ok hr t ht
  obtain ⟨γ, hγ, _⟩ := tasks_keep hr t ht hflush
  unfold BatchTask.Ok at hok
  unfold BatchTask.Keeps at hγ
  cases hrest : t.rest with
  | ret x => exact absurd hrest (hlive x)
  | op e k =>
    rw [hrest] at hok hγ
    cases e with
    | release => exact Or.inl (ready_of_release hrest)
    | acquire semaphore => exact Or.inr ⟨semaphore, k, rfl⟩
    | awaitResponse =>
      rw [hkind] at hok
      exact absurd hok.1.1 Bool.false_ne_true
    | waitNotified => cases hγ.1.1
    | _ => exact Or.inl (ready_of_effect hb hrest rfl)

end GoOn

/-! ## 2. Fair runs -/

section Runs

variable {b : BatchingTransport} {p p' : Pool BatchingShared BatchTask}

/-- **A fair run**: a task that can go on does, time passes, and finitely many calls arrive. -/
structure Fair (run : (batchSystem b).Path) : Prop where
  tasks : run.WeaklyFair (BatchTask.CanStep b)
  time : ∀ clock, ∃ n, clock ≤ (run.pool n).shared.clock
  calls : ∃ n, ∀ m, n ≤ m → run.actor m ≠ .arrival

/-- Nothing happens but that time passes. -/
def linger (p : Pool BatchingShared BatchTask) (k : Nat) : Pool BatchingShared BatchTask :=
  ⟨{ p.shared with clock := p.shared.clock + k }, p.tasks⟩

theorem linger_step (b : BatchingTransport) (p : Pool BatchingShared BatchTask) (k : Nat) :
    (batchSystem b).Step (linger p k) .env (linger p (k + 1)) :=
  .env (.tick (p.shared.clock + (k + 1)) (Nat.le_succ (p.shared.clock + k)))

/-- Every reachable pool is on an infinite run, on which nothing happens after it. -/
theorem exists_run (hr : (batchSystem b).Reachable (BatchStart b) p) :
    ∃ run : (batchSystem b).Path, BatchStart b (run.pool 0) ∧
      ∃ n, ∀ k, run.pool (n + k) = linger p k ∧ run.actor (n + k) = .env := by
  induction hr with
  | @start p hp =>
    exact ⟨⟨linger p, fun _ => .env, linger_step b p⟩, hp, 0, fun k => by simp⟩
  | @step p p' w hr hs ih =>
    obtain ⟨run, hstart, n, hrun⟩ := ih
    refine ⟨⟨fun m => if m ≤ n then run.pool m else linger p' (m - n - 1),
      fun m => if m < n then run.actor m else if m = n then w else .env, fun m => ?_⟩, ?_, n + 1,
      fun k => ?_⟩
    · rcases Nat.lt_trichotomy m n with hm | rfl | hm
      · simp only [if_pos (Nat.le_of_lt hm), if_pos hm, if_pos (Nat.succ_le_of_lt hm)]
        exact run.step m
      · have hlast : run.pool m = p := (hrun 0).1
        have hzero : m + 1 - m - 1 = 0 := by omega
        simp only [Nat.le_refl, if_true, Nat.lt_irrefl, if_false, Nat.not_succ_le_self, hlast,
          hzero]
        exact hs
      · have hnext : m + 1 - n - 1 = m - n - 1 + 1 := by omega
        simp only [if_neg (Nat.not_le.mpr hm), if_neg (Nat.lt_asymm hm), if_neg (Nat.ne_of_gt hm),
          if_neg (Nat.not_le.mpr (Nat.lt_succ_of_lt hm)), hnext]
        exact linger_step b p' _
    · simp only [Nat.zero_le, if_true]
      exact hstart
    · have hpast : n + 1 + k - n - 1 = k := by omega
      have hgt : ¬ n + 1 + k ≤ n := by omega
      have hlt : ¬ n + 1 + k < n := by omega
      have hne : n + 1 + k ≠ n := by omega
      simp only [if_neg hgt, if_neg hlt, if_neg hne, hpast, and_self]

/-- **Fair runs there are**: one where everything has ended in a reachable pool. -/
theorem exists_fair_run (hr : (batchSystem b).Reachable (BatchStart b) p)
    (hended : ∀ t ∈ p.tasks, t.ended = true) :
    ∃ run : (batchSystem b).Path, BatchStart b (run.pool 0) ∧ Fair run ∧
      ∃ n, ∀ k, run.pool (n + k) = linger p k := by
  obtain ⟨run, hstart, n, hrun⟩ := exists_run hr
  refine ⟨run, hstart, ⟨fun m i hgo => ?_, fun clock => ⟨n + clock, ?_⟩, n, fun m hm => ?_⟩, n,
    fun k => (hrun k).1⟩
  · obtain ⟨t, ht, hcan⟩ := hgo (n + m) (Nat.le_add_left m n)
    rw [(hrun m).1] at ht
    have hend := hended t (List.mem_of_getElem? ht)
    unfold BatchTask.ended at hend
    rcases hcan with ⟨e, k, _, _, hrest, _⟩ | ⟨_, hrest⟩
    all_goals
      rw [hrest] at hend
      cases hend
  · rw [(hrun clock).1]
    exact Nat.le_add_left clock _
  · obtain ⟨k, rfl⟩ := Nat.exists_eq_add_of_le hm
    rw [(hrun k).2]
    exact nofun

/-- The flush task is the first one, and the only one of its kind. -/
theorem flush_first (hr : (batchSystem b).Reachable (BatchStart b) p) :
    ∃ f rest, p.tasks = f :: rest ∧ f.kind = .flush ∧ ∀ t ∈ rest, t.kind ≠ .flush := by
  induction hr with
  | start hp => exact ⟨flushTask b, [], hp.tasks, rfl, nofun⟩
  | step _ hs ih =>
    obtain ⟨f, rest, htasks, hf, hrest⟩ := ih
    cases hs with
    | @act s s' l r new t t' h =>
      have hnew : ∀ u ∈ new, u.kind ≠ .flush := fun u hu => by
        obtain ⟨task, rfl, _⟩ := new_workers h u hu
        exact nofun
      simp only at htasks ⊢
      cases l with
      | nil =>
        obtain ⟨rfl, rfl⟩ := List.cons.inj htasks
        refine ⟨t', r ++ new, rfl, (flush_stays h).mpr hf, fun u hu => ?_⟩
        exact (List.mem_append.mp hu).elim (hrest u) (hnew u)
      | cons f' l =>
        obtain ⟨rfl, rfl⟩ := List.cons.inj htasks
        refine ⟨f', l ++ t' :: (r ++ new), rfl, hf, fun u hu => ?_⟩
        simp only [List.mem_append, List.mem_cons] at hu
        rcases hu with hu | rfl | hu | hu
        · exact hrest u (by simp [hu])
        · exact fun e => hrest t (by simp) ((flush_stays h).mp e)
        · exact hrest u (by simp [hu])
        · exact hnew u hu
    | env => exact ⟨f, rest, htasks, hf, hrest⟩
    | arrive ha =>
      obtain ⟨_, _, packet, rfl⟩ := ha
      simp only at htasks ⊢
      refine ⟨f, rest ++ [callerTask packet], by rw [htasks]; rfl, hf, fun u hu => ?_⟩
      rcases List.mem_append.mp hu with hu | hu
      · exact hrest u hu
      · rw [List.mem_singleton.mp hu]
        exact nofun

/-- How far the flush loop is from sending off what it holds, or what it will find in the queue. -/
def FlushStage.rank : FlushStage → Nat
  | .dispatching (_ :: _) => 0
  | .holding (_ :: _) => 1
  | .woken => 2
  | .waiting _ => 3
  | .upgraded => 4
  | .start => 5
  | .dispatching [] => 6
  | .holding [] => 7
  | .stopped => 8

/-- **The rank falls** with every step that neither spawns nor stops, if what the loop is to send
    off is in the queue or in its hands. -/
theorem rank_falls {s s' : BatchingShared} {g g' : FlushStage} {q : PendingRequest}
    (h : FlushMove b s g s' g' []) (hlive : 0 < s.strong)
    (hq : q ∈ s.pending ∨ q ∈ g.ledger.owned) : g'.rank < g.rank := by
  cases h with
  | upgrade | beginWait | notified | timeout | again => exact Nat.lt_succ_self _
  | stop hzero => omega
  | drain =>
    rcases hq with hq | hq
    · cases hpending : s.pending with
      | nil =>
        rw [hpending] at hq
        exact absurd hq List.not_mem_nil
      | cons => exact Nat.lt_succ_self 1
    · exact absurd hq (Multiset.notMem_zero q)
  | @dropShared batch => cases batch <;> exact Nat.lt_succ_self _

end Runs

/-! ## 3. Quiet runs -/

section Quiet

variable {b : BatchingTransport} {run : (batchSystem b).Path} {n : Nat}

/-- From `n` on no call arrives and no busy step is taken. -/
structure Quiet (run : (batchSystem b).Path) (n : Nat) : Prop where
  reachable : ∀ m, (batchSystem b).Reachable (BatchStart b) (run.pool m)
  calls : ∀ m, n ≤ m → run.actor m ≠ .arrival
  steady : ∀ m, n ≤ m → workLeft b (run.pool (m + 1)) = workLeft b (run.pool m)

/-- **Every fair run becomes quiet.** -/
theorem exists_quiet (hstart : BatchStart b (run.pool 0)) (hfair : Fair run) (n : Nat) :
    ∃ m, n ≤ m ∧ Quiet run m := by
  have hr := run.reachable (.start hstart)
  obtain ⟨k, hk⟩ := hfair.calls
  obtain ⟨m, hm, hsteady⟩ := run.settles (workLeft b) (n := max n k) fun m hm =>
    workLeft_le (hr m) (run.step m) (hk m (by omega))
  exact ⟨m, by omega, hr, fun j hj => hk j (by omega), hsteady⟩

theorem Quiet.later (hq : Quiet run n) {m : Nat} (hm : n ≤ m) : Quiet run m :=
  ⟨hq.reachable, fun j hj => hq.calls j (hm.trans hj), fun j hj => hq.steady j (hm.trans hj)⟩

/-- Callers and spawned tasks do nothing any more. -/
theorem Quiet.no_act (hq : Quiet run n) {i : Nat} {t : BatchTask}
    (ht : (run.pool n).tasks[i]? = some t) (hkind : t.kind ≠ .flush) : run.actor n ≠ .task i := by
  intro hact
  have hs := run.step n
  rw [hact] at hs
  have hlt := workLeft_lt (hq.reachable n) hs ht (Or.inl hkind)
  rw [hq.steady n (Nat.le_refl n)] at hlt
  exact Nat.lt_irrefl _ hlt

theorem Quiet.stays (hq : Quiet run n) {i : Nat} {t : BatchTask}
    (ht : (run.pool n).tasks[i]? = some t) (hkind : t.kind ≠ .flush) {m : Nat} (hm : n ≤ m) :
    (run.pool m).tasks[i]? = some t := by
  refine run.keeps (P := fun p => p.tasks[i]? = some t) ht (fun k hk h => ?_) hm
  rcases step_task_at (run.step k) h with ⟨hact, _⟩ | ⟨_, hsame⟩
  · exact absurd hact ((hq.later hk).no_act h hkind)
  · exact hsame

/-- None of them could go on for ever. -/
theorem Quiet.cannot (hq : Quiet run n) (hfair : Fair run) {i : Nat} {t : BatchTask}
    (ht : (run.pool n).tasks[i]? = some t) (hkind : t.kind ≠ .flush) :
    ¬ ∀ m, n ≤ m → t.CanStep b (run.pool m).shared := by
  intro hgo
  obtain ⟨m, hm, hact, ht'⟩ := hfair.tasks.acts ht ⟨n, Nat.le_refl n, hgo⟩
  exact (hq.later hm).no_act ht' hkind hact

theorem Quiet.not_ready (hq : Quiet run n) (hfair : Fair run) {t : BatchTask}
    (ht : t ∈ (run.pool n).tasks) (hkind : t.kind ≠ .flush) : ¬ Ready b t := by
  intro hready
  obtain ⟨i, hi⟩ := List.mem_iff_getElem?.mp ht
  exact hq.cannot hfair hi hkind fun m hm =>
    hready _ (hq.reachable m) (List.mem_of_getElem? (hq.stays hi hkind hm))

/-- **Every spawned task has ended.** -/
theorem Quiet.worker_ended (hq : Quiet run n) (hfair : Fair run) (hb : Responsive b)
    {t : BatchTask} (ht : t ∈ (run.pool n).tasks) {task : SpawnedTask}
    (hkind : t.kind = .worker task) : ∃ x, t.rest = .ret x := by
  have hflush : t.kind ≠ .flush := by rw [hkind]; exact nofun
  by_contra hlive
  rcases worker_goes_on hb (hq.reachable n) ht hkind (fun x hx => hlive ⟨x, hx⟩) with
    hready | ⟨semaphore, k, hrest⟩
  · exact hq.not_ready hfair ht hflush hready
  · obtain ⟨i, hi⟩ := List.mem_iff_getElem?.mp ht
    refine hq.cannot hfair hi hflush fun m hm => ?_
    have hmem := List.mem_of_getElem? (hq.stays hi hflush hm)
    refine (acquire_unblocks hb (hq.reachable m) hmem hflush hrest).resolve_right ?_
    intro h
    obtain ⟨u, hu, hukind, hready⟩ := h
    exact (hq.later hm).not_ready hfair hu hukind hready

/-- Every caller that has not ended waits for an answer. -/
theorem Quiet.caller_waits (hq : Quiet run n) (hfair : Fair run) (hb : Responsive b)
    {t : BatchTask} (ht : t ∈ (run.pool n).tasks) (hcaller : t.kind.isCaller = true)
    (hlive : ∀ x, t.rest ≠ .ret x) : ∃ rx k, t.rest = .op (.awaitResponse rx) k := by
  have hflush : t.kind ≠ .flush := fun e => by
    rw [e] at hcaller
    cases hcaller
  cases hrest : t.rest with
  | ret x => exact absurd hrest (hlive x)
  | op e k =>
    have hop := caller_op (hq.reachable n) ht hcaller hrest
    cases e with
    | awaitResponse rx => exact ⟨rx, k, rfl⟩
    | enqueue | notifyOne | dropShared =>
      exact absurd (ready_of_effect hb hrest rfl) (hq.not_ready hfair ht hflush)
    | _ => cases hop

/-- **What a waiting caller waits for** is in the queue or with the flush task. -/
theorem Quiet.awaited_place (hq : Quiet run n) (hfair : Fair run) (hb : Responsive b) {i : Nat}
    {t : BatchTask} (ht : (run.pool n).tasks[i]? = some t) {q : PendingRequest}
    (hentry : q ∈ t.kind.entries) {k : Option RpcResult → Program BatchSig TaskEnd}
    (hrest : t.rest = .op (.awaitResponse q.tx) k) :
    q ∈ (run.pool n).shared.pending ∨
      ∃ u ∈ (run.pool n).tasks, u.kind = .flush ∧ q ∈ u.ledger.owned := by
  have hr := hq.reachable n
  have hmem := List.mem_of_getElem? ht
  have hflush : t.kind ≠ .flush := fun e => by
    rw [e] at hentry
    exact absurd hentry List.not_mem_nil
  have hone := one_place hr ((mem_entries_iff hr).mpr ⟨t, hmem, hentry⟩)
  by_cases hpending : q ∈ (run.pool n).shared.pending
  · exact Or.inl hpending
  right
  -- an answer could be received ever after
  have hanswer : q ∉ (run.pool n).shared.answers.map Prod.fst := by
    intro h
    obtain ⟨⟨q', result⟩, ha, e⟩ := List.mem_map.mp h
    obtain rfl : q' = q := e
    refine hq.cannot hfair ht hflush fun m hm => Or.inl ⟨.awaitResponse q'.tx, k, some result,
      _, hrest, rfl, Or.inl ⟨q', result, ?_, rfl, rfl⟩⟩
    exact run.keeps (P := fun p => (q', result) ∈ p.shared.answers) ha
      (fun j _ h => (step_grows (run.step j)).answers h) hm
  have hdropped : q ∉ (run.pool n).shared.dropped := fun h => by
    rw [dropped_cancelled hr hmem hentry h] at hrest
    cases hrest
  rw [BatchingShared.settled, List.count_eq_zero.mpr hpending, List.count_eq_zero.mpr hanswer,
    List.count_eq_zero.mpr hdropped] at hone
  obtain ⟨u, hu, howned⟩ : ∃ u ∈ (run.pool n).tasks, q ∈ u.ledger.owned := by
    by_contra hnone
    have : (run.pool n).total (fun t => t.ledger.owned.count q) = 0 :=
      List.sum_eq_zero fun x hx => by
        obtain ⟨u, hu, rfl⟩ := List.mem_map.mp hx
        exact Multiset.count_eq_zero.mpr fun h => hnone ⟨u, hu, h⟩
    omega
  refine ⟨u, hu, ?_, howned⟩
  have hlive : ∀ x, u.rest ≠ .ret x := fun x hx => by
    rw [ended_ledger hr hu hx] at howned
    exact Multiset.notMem_zero q howned
  cases hkind : u.kind with
  | flush => rfl
  | worker task =>
    obtain ⟨x, hx⟩ := hq.worker_ended hfair hb hu hkind
    exact absurd hx (hlive x)
  | caller packet receivers =>
    obtain ⟨rx, k', hurest⟩ := hq.caller_waits hfair hb hu (by rw [hkind]; rfl) hlive
    have hok := batchTask_ok hr u hu
    unfold BatchTask.Ok at hok
    rw [hurest] at hok
    have honeArc : u.ledger = .oneArc := hok.1.2
    rw [honeArc] at howned
    exact absurd howned (Multiset.notMem_zero q)

/-- The flush loop has not stopped while an `Arc` is left. -/
theorem flush_live {p : Pool BatchingShared BatchTask}
    (hr : (batchSystem b).Reachable (BatchStart b) p) {u : BatchTask} (hu : u ∈ p.tasks)
    {g : FlushStage} (hat : FlushAt b u g) (hlive : 0 < p.shared.strong) : g ≠ .stopped := by
  intro heq
  obtain rfl := heq
  obtain ⟨g', hat', hstopped⟩ := flush_ok hr hu hat.kind
  have hends := hat.follows
  have hends' := hat'.follows
  cases hrest : u.rest with
  | ret x =>
    rw [hrest] at hends hends'
    rcases hends with ⟨_, hg⟩ | ⟨rfl, _⟩
    · cases hg
    · rcases hends' with ⟨hx, _⟩ | ⟨_, hg'⟩
      · cases hx
      · exact Nat.ne_of_gt hlive (hstopped hg')
  | op e k =>
    rw [hrest] at hends
    exact hends.1.elim

/-- Once its wait is over the flush task can go on. -/
theorem flush_canStep (hb : Responsive b) {s : BatchingShared} {u : BatchTask} {g : FlushStage}
    (hat : FlushAt b u g) (hlive : g ≠ .stopped)
    (hwait : ∀ since, g = .waiting since → since + b.config.flushInterval.nanos ≤ s.clock) :
    u.CanStep b s := by
  have hfollows := hat.follows
  cases hrest : u.rest with
  | ret x =>
    rw [hrest] at hfollows
    rcases hfollows with ⟨rfl, _⟩ | ⟨_, hstop⟩
    · exact Or.inr ⟨hat.kind, hrest⟩
    · exact absurd hstop hlive
  | op e k =>
    rw [hrest] at hfollows
    cases e with
    | waitNotified since =>
      cases g with
      | waiting since' =>
        obtain rfl : since = since' := hfollows.1
        exact Or.inl ⟨.waitNotified since, k, (), _, hrest, Or.inr ⟨hwait since rfl, rfl⟩⟩
      | _ => exact hfollows.1.elim
    | awaitResponse | acquire | release => cases g <;> exact hfollows.1.elim
    | _ => exact canStep_of_effect hb s hrest rfl

/-- **The flush loop takes its next step**: its wait ends when time has passed. -/
theorem flush_acts (hfair : Fair run) (hb : Responsive b) {u : BatchTask} {g : FlushStage}
    (hu : (run.pool n).tasks[0]? = some u) (hat : FlushAt b u g)
    (hlive : g ≠ .stopped) :
    ∃ m, n ≤ m ∧ run.actor m = .task 0 ∧ (run.pool m).tasks[0]? = some u := by
  refine hfair.tasks.acts hu ?_
  -- the time at which its wait ends, if it is in one
  obtain ⟨time, htime⟩ : ∃ time, ∀ since, g = .waiting since →
      since + b.config.flushInterval.nanos ≤ time := by
    cases g with
    | waiting since =>
      refine ⟨since + b.config.flushInterval.nanos, fun since' e => ?_⟩
      cases e
      exact Nat.le_refl _
    | _ => exact ⟨0, nofun⟩
  obtain ⟨k, hk⟩ := hfair.time time
  refine ⟨max n k, by omega, fun m hm => flush_canStep hb hat hlive fun since e => ?_⟩
  have hclock := run.keeps (P := fun p => time ≤ p.shared.clock) hk
    (fun j _ h => h.trans (step_grows (run.step j)).clock) (m := m) (by omega)
  exact (htime since e).trans hclock

/-- **On a quiet run nobody waits**: the flush loop would come to send off what is waited for. -/
theorem Quiet.nobody_waits (hq : Quiet run n) (hfair : Fair run) (hb : Responsive b) {i : Nat}
    {t : BatchTask} (ht : (run.pool n).tasks[i]? = some t) {q : PendingRequest}
    (hentry : q ∈ t.kind.entries) {k : Option RpcResult → Program BatchSig TaskEnd}
    (hrest : t.rest = .op (.awaitResponse q.tx) k) : False := by
  have hflush : t.kind ≠ .flush := fun e => by
    rw [e] at hentry
    exact absurd hentry List.not_mem_nil
  have hstrong : ∀ m, n ≤ m → 0 < (run.pool m).shared.strong := fun m hm => by
    have hmem := List.mem_of_getElem? (hq.stays ht hflush hm)
    have hok := batchTask_ok (hq.reachable m) t hmem
    have harcs := arcs_le_strong (hq.reachable m) hmem
    unfold BatchTask.Ok at hok
    rw [hrest] at hok
    have hone : t.ledger = .oneArc := hok.1.2
    rw [hone] at harcs
    exact harcs
  -- by induction on the rank of the flush loop, at any later point of the run
  suffices hrank : ∀ (r m : Nat) (u : BatchTask) (g : FlushStage), n ≤ m →
      (run.pool m).tasks[0]? = some u → FlushAt b u g → g.rank = r → False by
    obtain ⟨f, rest, htasks, hkind, _⟩ := flush_first (hq.reachable n)
    have hf : (run.pool n).tasks[0]? = some f := by rw [htasks]; rfl
    obtain ⟨g, hat, _⟩ := flush_ok (hq.reachable n) (List.mem_of_getElem? hf) hkind
    exact hrank _ n f g (Nat.le_refl n) hf hat rfl
  intro r
  induction r using Nat.strongRecOn with
  | ind r ih =>
    intro m u g hm hu hat heq
    obtain rfl := heq
    have hg := flush_live (hq.reachable m) (List.mem_of_getElem? hu) hat (hstrong m hm)
    obtain ⟨j, hj, hact, hu'⟩ := flush_acts hfair hb hu hat hg
    have hqj := hq.later (hm.trans hj)
    rcases step_task_at (run.step j) hu' with
      ⟨_, u', new, hs, hafter, hlength⟩ | ⟨hother, _⟩
    · obtain ⟨g', hmove, hat'⟩ := hat.step hs
      obtain rfl : new = [] := by
        by_contra hnew
        have hstep := run.step j
        rw [hact] at hstep
        have hpos := List.length_pos_iff.mpr hnew
        have hlt := workLeft_lt (hq.reachable j) hstep hu' (Or.inr (by omega))
        rw [hqj.steady j (Nat.le_refl j)] at hlt
        exact Nat.lt_irrefl _ hlt
      have hplace : q ∈ (run.pool j).shared.pending ∨ q ∈ g.ledger.owned := by
        have hstill := hq.stays ht hflush (hm.trans hj)
        refine (hqj.awaited_place hfair hb hstill hentry hrest).imp_right
          ?_
        intro h
        obtain ⟨v, hv, hvkind, howned⟩ := h
        obtain ⟨f, rest, htasks, _, hothers⟩ := flush_first (hq.reachable j)
        rw [htasks] at hv hu'
        have hfu : f = u := by simpa using hu'
        rcases List.mem_cons.mp hv with rfl | hv
        · rw [hfu, hat.ledger] at howned
          exact howned
        · exact absurd hvkind (hothers v hv)
      exact ih _ (rank_falls hmove (hstrong j (hm.trans hj)) hplace) (j + 1) u' g'
        (by omega) hafter hat' rfl
    · exact hother hact

/-- **Every caller ends**: on a fair run over a responsive inner service, whatever it answers. -/
theorem caller_ends (hb : Responsive b) (hstart : BatchStart b (run.pool 0)) (hfair : Fair run)
    {i : Nat} {t : BatchTask} (ht : (run.pool n).tasks[i]? = some t) {packet : RequestPacket}
    {receivers : List Channel} (hkind : t.kind = .caller packet receivers) :
    ∃ m, n ≤ m ∧ ∃ t' receivers', (run.pool m).tasks[i]? = some t' ∧
      t'.kind = .caller packet receivers' ∧ ∃ x, t'.rest = .ret x := by
  obtain ⟨m, hm, hq⟩ := exists_quiet hstart hfair n
  obtain ⟨t', receivers', ht', hkind'⟩ := run.keeps
    (P := fun p => ∃ t receivers, p.tasks[i]? = some t ∧ t.kind = .caller packet receivers)
    ⟨t, receivers, ht, hkind⟩ (fun k _ ⟨u, receivers, hu, hkind⟩ => by
      rcases step_task_at (run.step k) hu with ⟨_, u', new, hs, hafter, _⟩ | ⟨_, hsame⟩
      · obtain ⟨receivers', hkind'⟩ := caller_stays hs hkind
        exact ⟨u', receivers', hafter, hkind'⟩
      · exact ⟨u, receivers, hsame, hkind⟩) hm
  refine ⟨m, hm, t', receivers', ht', hkind', ?_⟩
  by_contra hlive
  have hmem := List.mem_of_getElem? ht'
  obtain ⟨rx, k, hrest⟩ := hq.caller_waits hfair hb hmem (by rw [hkind']; rfl)
    fun x hx => hlive ⟨x, hx⟩
  -- the receiver it waits on is that of an entry of its own
  obtain ⟨heard, h⟩ := caller_ok (hq.reachable m) hmem hkind'
  have hfollows := h.follows
  rw [hrest] at hfollows
  obtain ⟨q, hentry, rfl⟩ := h.named rx hfollows.1
  rw [← hkind'] at hentry
  exact hq.nobody_waits hfair hb ht' hentry hrest

end Quiet

end TransportBalancer.Batching
