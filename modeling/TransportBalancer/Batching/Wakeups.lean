/-
  File:      TransportBalancer/Batching/Wakeups.lean
  Subject:   NO WAKE-UP IS LOST. `call` pushes and notifies under the lock if the queue is full, and
             notifies again after it; the flush task waits, wakes and drains.

  * `Signalled` -- what holds of queue and notify whenever the flush task is not about to drain: a
    full queue has a notification; a queue without one is that of callers about to notify;
  * **`signalled`** -- it does, in every reachable pool;
  * **`no_lost_wakeup`** -- so a flush task at its wait drains a full queue without the timer.
-/
import TransportBalancer.Batching.Completion
import TransportBalancer.Batching.Histories
import TransportBalancer.Batching.Window

namespace TransportBalancer.Batching

open Interaction TaskPool

/-! ## 1. Who notifies -/

/-- The effects on the queue and on the `Notify` it is flushed by. -/
def BatchOp.signals : BatchOp → Bool
  | .enqueue _ | .notifyOne | .beginWait | .waitNotified _ | .drain => true
  | _ => false

/-- Of a caller: whether it has pushed and has its last notification still to give. -/
def notifyProtocol : Protocol BatchSig Bool where
  ok owes e := owes = true → e = .notifyOne
  admits _ _ _ := True
  next owes e _ :=
    match e with
    | .enqueue _ => true
    | .notifyOne => false
    | _ => owes

/-- A caller notifies right after its push. -/
theorem callerTask_notifies (packet : RequestPacket) :
    (callerTask packet).rest.Follows notifyProtocol false fun owes _ => owes = false := by
  have hcollect : ∀ receivers responses, (collectResponses receivers responses).Follows
      notifyProtocol false fun owes _ => owes = false := by
    intro receivers
    induction receivers with
    | nil => exact fun _ => rfl
    | cons rx receivers ih =>
      refine fun responses => ⟨nofun, fun answer _ => ?_⟩
      rcases answer with _ | (_ | (_ | _))
      · exact rfl
      · exact rfl
      · exact ih _
      · exact ih _
  have hreceive : ∀ first, (receive packet first).Follows notifyProtocol false
      fun owes _ => owes = false := by
    intro first
    cases packet with
    | single => exact ⟨nofun, fun _ _ => rfl⟩
    | batch requests => exact hcollect _ _
  have hcall : (call packet).Follows notifyProtocol false fun owes _ => owes = false :=
    ⟨nofun, fun first _ => ⟨fun _ => rfl, fun _ _ => (hreceive first).bind fun owes _ h =>
      ⟨fun howes => absurd (h.symm.trans howes) Bool.false_ne_true, fun _ _ => h⟩⟩⟩
  exact hcall.bind fun _ _ h => h

section Steps

variable {b : BatchingTransport} {p p' : Pool BatchingShared BatchTask} {t t' : BatchTask}

/-- A caller keeps to this. -/
def BatchTask.Notifies (t : BatchTask) : Prop :=
  t.kind.isCaller = true →
    ∃ owes, t.rest.Follows notifyProtocol owes fun owes _ => owes = false

theorem notifies_step {s s' : BatchingShared} {new : List BatchTask} (ht : t.Notifies)
    (hact : t.Step b s s' t' new) : t'.Notifies := by
  intro hcaller
  cases hact with
  | @effect e k r _ hrest heff =>
    obtain ⟨owes, hfollows⟩ := ht ((isCaller_next t.kind e r).symm.trans hcaller)
    rw [hrest] at hfollows
    exact ⟨_, hfollows.2 r trivial⟩
  | turn hflush =>
    rw [hflush] at hcaller
    cases hcaller
  | cancel => exact ⟨false, rfl⟩

theorem callers_notify (hr : (batchSystem b).Reachable (BatchStart b) p) :
    ∀ t ∈ p.tasks, t.Notifies := by
  refine System.Reachable.localInv (Y := batchSystem b) (I := fun _ t => t.Notifies)
    (fun p hp t ht => ?_) (fun _ _ _ ht hact => ⟨notifies_step ht hact, fun n hn => ?_⟩)
    (fun _ ha => ?_) (fun _ _ hu => hu) hr
  · rw [hp.only_flush ht]
    exact nofun
  · obtain ⟨task, rfl, _⟩ := new_workers hact n hn
    exact nofun
  · obtain ⟨_, _, packet, rfl⟩ := ha
    exact fun _ => ⟨false, callerTask_notifies packet⟩

/-- A spawned task neither pushes nor notifies. -/
theorem worker_silent (hr : (batchSystem b).Reachable (BatchStart b) p) (ht : t ∈ p.tasks)
    {task : SpawnedTask} (hkind : t.kind = .worker task) {e : BatchOp}
    {k : BatchSig.Ans e → Program BatchSig TaskEnd} (hrest : t.rest = .op e k) :
    e.signals = false := by
  obtain ⟨tr, htr⟩ := worker_history hr t ht task hkind
  obtain ⟨k', hs⟩ := htr.program_op hrest
  rcases worker_cases b.config.toBatchingConfig b.display task with ⟨pending, rfl⟩ |
    ⟨p, _, hfollows⟩
  · have hok := sendBatchWithRetry_follows.head_record hs htr.orders
    cases e <;> first | rfl | exact hok.elim
  · have hok := hfollows.head_record hs htr.orders
    cases e <;> first | rfl | exact hok.elim

/-- Dropping an `Arc` can only take the queue away. -/
theorem dropShared_queue (s : BatchingShared) : s.dropShared.notify = s.notify ∧
    (s.dropShared.pending = s.pending ∨ s.dropShared.pending = []) := by
  unfold BatchingShared.dropShared
  split
  · exact ⟨rfl, Or.inr rfl⟩
  · exact ⟨rfl, Or.inl rfl⟩

/-- An effect that signals nothing leaves the notify, and can only take the queue away. -/
theorem silent_queue {e : BatchOp} (hsilent : e.signals = false) {s s' : BatchingShared}
    {r : BatchSig.Ans e} (heff : Effect b s e r s') :
    s'.notify = s.notify ∧ (s'.pending = s.pending ∨ s'.pending = []) := by
  cases e with
  | enqueue | notifyOne | beginWait | waitNotified | drain => cases hsilent
  | dropShared =>
    obtain rfl := heff
    exact dropShared_queue s
  | spawn | send | onBatchRejection =>
    obtain rfl := heff
    exact ⟨rfl, Or.inl rfl⟩
  | awaitResponse =>
    obtain ⟨rfl, _⟩ := heff
    exact ⟨rfl, Or.inl rfl⟩
  | upgrade => rcases heff with ⟨_, _, rfl⟩ | ⟨_, _, rfl⟩ <;> exact ⟨rfl, Or.inl rfl⟩
  | innerCall | iterate | newSemaphore =>
    obtain ⟨_, rfl⟩ := heff
    exact ⟨rfl, Or.inl rfl⟩
  | acquire | release =>
    obtain ⟨_, _, rfl⟩ := heff
    exact ⟨rfl, Or.inl rfl⟩

/-- A caller has pushed some entries and is about to notify. -/
def Owes (t : BatchTask) (x : PendingRequest) : Prop :=
  x ∈ t.kind.entries ∧ ∃ k, t.rest = .op .notifyOne k

/-- **What a task other than the flush task does to queue and notify**: nothing but to take the
    queue away; or it pushes and owes its notification; or it notifies. -/
theorem signal_step (hr : (batchSystem b).Reachable (BatchStart b) p) (ht : t ∈ p.tasks)
    (hkind : t.kind ≠ .flush) {s' : BatchingShared} {new : List BatchTask}
    (hact : t.Step b p.shared s' t' new) :
    (s'.notify = p.shared.notify ∧ (s'.pending = p.shared.pending ∨ s'.pending = []) ∧
        ∀ x, ¬ Owes t x) ∨
      (∃ requests, s' = p.shared.enqueue b.config requests ∧ (∀ x, ¬ Owes t x) ∧
        ∀ x ∈ BatchingShared.entriesFrom p.shared.nextChannel requests, Owes t' x) ∨
      s' = { p.shared with notify := p.shared.notify.notifyOne } := by
  have hdrop := dropShared_queue p.shared
  have howes : ∀ {e : BatchOp} {k : BatchSig.Ans e → Program BatchSig TaskEnd},
      t.rest = .op e k → e ≠ .notifyOne → ∀ x, ¬ Owes t x := by
    intro e k hrest hne x howes
    obtain ⟨_, k', hrest'⟩ := howes
    rw [hrest] at hrest'
    exact hne (Program.op.inj hrest').1
  cases hact with
  | turn hflush => exact absurd hflush hkind
  | @cancel packet receivers e k hcaller hrest hdroppable =>
    refine Or.inl ⟨hdrop.1, hdrop.2, howes hrest fun he => ?_⟩
    rw [he] at hdroppable
    cases hdroppable
  | @effect e k r _ hrest heff =>
    by_cases hcaller : t.kind.isCaller = true
    · have hop := caller_op hr ht hcaller hrest
      cases e with
      | enqueue requests =>
        obtain ⟨rfl, rfl⟩ := heff
        refine Or.inr (Or.inl ⟨requests, rfl, howes hrest nofun, fun x hx => ?_⟩)
        obtain ⟨packet, receivers, hkind', rfl⟩ := enqueue_packet hr ht hrest
        obtain ⟨owes, hfollows⟩ := callers_notify hr t ht hcaller
        rw [hrest] at hfollows
        have hnext := hfollows.2 p.shared.nextChannel trivial
        refine ⟨?_, ?_⟩
        · rw [entriesFrom_eq] at hx
          rw [hkind']
          exact hx
        · -- the caller goes on to its notification and nothing else
          cases hrest' : k p.shared.nextChannel with
          | ret =>
            rw [hrest'] at hnext
            cases hnext
          | op e' k' =>
            rw [hrest'] at hnext
            obtain rfl := hnext.1 rfl
            exact ⟨k', rfl⟩
      | notifyOne => exact Or.inr (Or.inr heff)
      | awaitResponse =>
        obtain ⟨rfl, _⟩ := heff
        exact Or.inl ⟨rfl, Or.inl rfl, howes hrest nofun⟩
      | dropShared =>
        obtain rfl := heff
        exact Or.inl ⟨hdrop.1, hdrop.2, howes hrest nofun⟩
      | _ => cases hop
    · obtain ⟨task, hworker⟩ : ∃ task, t.kind = .worker task := by
        cases hk : t.kind with
        | worker task => exact ⟨task, rfl⟩
        | flush => exact absurd hk hkind
        | caller => exact absurd (by rw [hk]; rfl) hcaller
      have hsilent := worker_silent hr ht hworker hrest
      have hsame := silent_queue hsilent heff
      exact Or.inl ⟨hsame.1, hsame.2, howes hrest fun he => by rw [he] at hsilent; cases hsilent⟩

end Steps

/-! ## 2. Queue and notify -/

section Signals

variable {b : BatchingTransport} {p p' : Pool BatchingShared BatchTask} {t t' : BatchTask}

/-- **Queue and notify**, with the tasks that still owe a notification. -/
structure Signalled (b : BatchingTransport) (s : BatchingShared) (tasks : List BatchTask) :
    Prop where
  full : b.config.maxBatchSize ≤ s.pending.length → s.notify.Available
  owed : s.notify.Available ∨ ∀ x ∈ s.pending, ∃ c ∈ tasks, Owes c x

theorem signalled_of_available {s : BatchingShared} {tasks : List BatchTask}
    (h : s.notify.Available) : Signalled b s tasks := ⟨fun _ => h, Or.inl h⟩

theorem signalled_of_empty {s : BatchingShared} {tasks : List BatchTask} (h : s.pending = []) :
    Signalled b s tasks where
  full hfull := by
    have := b.config.maxBatchSize_pos
    rw [h, List.length_nil] at hfull
    omega
  owed := Or.inr fun x hx => absurd (h ▸ hx) List.not_mem_nil

/-- It stays so while the notify does and the queue does or is emptied, if whoever owes does. -/
theorem Signalled.keep {s s' : BatchingShared} {tasks tasks' : List BatchTask}
    (h : Signalled b s tasks) (hnotify : s'.notify = s.notify)
    (hpending : s'.pending = s.pending ∨ s'.pending = [])
    (howes : ∀ c ∈ tasks, ∀ x, Owes c x → ∃ c' ∈ tasks', Owes c' x) :
    Signalled b s' tasks' := by
  rcases hpending with hpending | hpending
  · refine ⟨?_, ?_⟩
    · rw [hpending, hnotify]
      exact h.full
    · rw [hpending, hnotify]
      refine h.owed.imp_right fun howed x hx => ?_
      obtain ⟨c, hc, hcx⟩ := howed x hx
      exact howes c hc x hcx
  · exact signalled_of_empty hpending

/-- The flush task is the only one that waits. -/
def Waits (g : FlushStage) (s : BatchingShared) : Prop :=
  s.notify.waiter ≠ .away ↔ ∃ since, g = .waiting since

/-- **The invariant**, with the flush task in front of the others. -/
def WellSignalled (b : BatchingTransport) (p : Pool BatchingShared BatchTask) : Prop :=
  ∃ f rest g, p.tasks = f :: rest ∧ FlushAt b f g ∧ Waits g p.shared ∧
    (g ≠ .woken → Signalled b p.shared rest)

/-- Who owes does so until it notifies. -/
theorem owes_stays {l r new : List BatchTask} (hnot : ∀ x, ¬ Owes t x) :
    ∀ c ∈ l ++ t :: r, ∀ x, Owes c x → ∃ c' ∈ l ++ t' :: (r ++ new), Owes c' x := by
  intro c hc x hcx
  simp only [List.mem_append, List.mem_cons] at hc
  rcases hc with hc | rfl | hc
  · exact ⟨c, by simp [hc], hcx⟩
  · exact absurd hcx (hnot x)
  · exact ⟨c, by simp [hc], hcx⟩

/-- **A step of the flush task** keeps the invariant. -/
theorem wellSignalled_flush {s s' : BatchingShared} {f : BatchTask} {rest new : List BatchTask}
    {g : FlushStage} (hat : FlushAt b f g) (hwaits : Waits g s)
    (hsignalled : g ≠ .woken → Signalled b s rest) (hact : f.Step b s s' t' new) :
    WellSignalled b ⟨s', t' :: (rest ++ new)⟩ := by
  obtain ⟨g', hmove, hat'⟩ := hat.step hact
  refine ⟨t', rest ++ new, g', rfl, hat', ?_⟩
  have hkeep : ∀ {s' : BatchingShared}, g ≠ .woken → s'.notify = s.notify →
      (s'.pending = s.pending ∨ s'.pending = []) → Signalled b s' (rest ++ new) :=
    fun hg hnotify hpending => (hsignalled hg).keep hnotify hpending fun c hc x hcx =>
      ⟨c, List.mem_append_left _ hc, hcx⟩
  have haway : (∀ since, g ≠ .waiting since) → s.notify.waiter = .away := fun hg => by
    by_contra hne
    obtain ⟨since, hsince⟩ := hwaits.mp hne
    exact hg since hsince
  have hstill : ∀ {s' : BatchingShared} {g' : FlushStage}, s'.notify.waiter = .away →
      (∀ since, g' ≠ .waiting since) → Waits g' s' := fun haway hg =>
    ⟨fun h => absurd haway h, fun h => by
      obtain ⟨since, hsince⟩ := h
      exact absurd hsince (hg since)⟩
  cases hmove with
  | upgrade =>
    exact ⟨hstill (haway nofun) nofun, fun _ => hkeep nofun rfl (Or.inl rfl)⟩
  | stop => exact ⟨hstill (haway nofun) nofun, fun _ => hkeep nofun rfl (Or.inl rfl)⟩
  | beginWait =>
    -- a stored permit is consumed, but then it is delivered
    refine ⟨⟨fun _ => ⟨_, rfl⟩, fun _ => s.notify.poll_waits⟩, fun _ => ?_⟩
    have hbefore := hsignalled nofun
    refine ⟨fun hfull => Wakeup.Notify.available_poll (hbefore.full hfull), ?_⟩
    refine hbefore.owed.imp Wakeup.Notify.available_poll fun howed x hx => ?_
    obtain ⟨c, hc, hcx⟩ := howed x hx
    exact ⟨c, List.mem_append_left _ hc, hcx⟩
  | notified => exact ⟨hstill rfl nofun, fun hg => absurd rfl hg⟩
  | timeout => exact ⟨hstill rfl nofun, fun hg => absurd rfl hg⟩
  | drain => exact ⟨hstill (haway nofun) nofun, fun _ => signalled_of_empty rfl⟩
  | @dropShared batch =>
    have hdrop := dropShared_queue s
    refine ⟨hstill ?_ nofun, fun _ => hkeep nofun hdrop.1 hdrop.2⟩
    rw [hdrop.1]
    exact haway nofun
  | spawn => exact ⟨hstill (haway nofun) nofun, fun _ => hkeep nofun rfl (Or.inl rfl)⟩
  | again => exact ⟨hstill (haway nofun) nofun, fun _ => hkeep nofun rfl (Or.inl rfl)⟩

/-- **A step of another task** keeps it. -/
theorem wellSignalled_other (hr : (batchSystem b).Reachable (BatchStart b) p) {f : BatchTask}
    {l r new : List BatchTask} {g : FlushStage} (htasks : p.tasks = f :: (l ++ t :: r))
    (hkind : t.kind ≠ .flush) (hat : FlushAt b f g) (hwaits : Waits g p.shared)
    (hsignalled : g ≠ .woken → Signalled b p.shared (l ++ t :: r)) {s' : BatchingShared}
    (hact : t.Step b p.shared s' t' new) :
    WellSignalled b ⟨s', f :: (l ++ t' :: (r ++ new))⟩ := by
  have ht : t ∈ p.tasks := by
    rw [htasks]
    simp
  have hsame : ∀ {s' : BatchingShared},
      (s'.notify.waiter = .away ↔ p.shared.notify.waiter = .away) → Waits g s' :=
    fun haway => (not_congr haway).trans hwaits
  refine ⟨f, _, g, rfl, hat, ?_⟩
  rcases signal_step hr ht hkind hact with ⟨hnotify, hpending, hnot⟩ |
    ⟨requests, rfl, hnot, howes⟩ | rfl
  · refine ⟨hsame (by rw [hnotify]), fun hg => ?_⟩
    exact (hsignalled hg).keep hnotify hpending (owes_stays hnot)
  · refine ⟨hsame ?_, fun hg => ?_⟩
    · unfold BatchingShared.enqueue
      simp only
      split
      · exact Wakeup.Notify.notifyOne_away _
      · exact Iff.rfl
    · have hbefore := hsignalled hg
      by_cases hfull : b.config.maxBatchSize ≤
          (p.shared.enqueue b.config requests).pending.length
      · -- the push has filled the queue, and notifies
        have hnotify : (p.shared.enqueue b.config requests).notify = p.shared.notify.notifyOne :=
          if_pos hfull
        refine signalled_of_available ?_
        rw [hnotify]
        exact Wakeup.Notify.available_notifyOne _
      · have hnotify : (p.shared.enqueue b.config requests).notify = p.shared.notify := if_neg hfull
        refine ⟨fun h => absurd h hfull, ?_⟩
        rw [hnotify]
        refine hbefore.owed.imp_right fun howed x hx => ?_
        rcases List.mem_append.mp hx with hx | hx
        · obtain ⟨c, hc, hcx⟩ := howed x hx
          exact owes_stays hnot c hc x hcx
        · exact ⟨t', by simp, howes x hx⟩
  · refine ⟨hsame (Wakeup.Notify.notifyOne_away _), fun _ => ?_⟩
    exact signalled_of_available (Wakeup.Notify.available_notifyOne _)

/-- **Every reachable pool is well signalled.** -/
theorem signalled (hr : (batchSystem b).Reachable (BatchStart b) p) : WellSignalled b p := by
  induction hr with
  | @start p hp =>
    refine ⟨flushTask b, [], .start, hp.tasks, flushTask_at b, ⟨fun h => absurd ?_ h, ?_⟩, fun _ =>
      signalled_of_empty hp.pending⟩
    · rw [hp.notify]
      rfl
    · intro h
      obtain ⟨since, hsince⟩ := h
      cases hsince
  | @step p p' w hr hs ih =>
    obtain ⟨f, rest, g, htasks, hat, hwaits, hsignalled⟩ := ih
    obtain ⟨f', rest', htasks', _, hothers⟩ := flush_first hr
    obtain ⟨rfl, rfl⟩ := List.cons.inj (htasks.symm.trans htasks')
    cases hs with
    | @act s s' l r new t t' h =>
      cases l with
      | nil =>
        obtain ⟨rfl, rfl⟩ := List.cons.inj htasks
        exact wellSignalled_flush hat hwaits hsignalled h
      | cons f' l =>
        obtain ⟨rfl, rfl⟩ := List.cons.inj htasks
        exact wellSignalled_other hr rfl (hothers t (by simp)) hat hwaits hsignalled h
    | @env s s' ts h =>
      have hsame : s'.notify = s.notify ∧ (s'.pending = s.pending ∨ s'.pending = []) := by
        cases h with
        | tick | cloned => exact ⟨rfl, Or.inl rfl⟩
        | dropped => exact dropShared_queue s
      refine ⟨f, rest, g, htasks, hat, ?_, fun hg => ?_⟩
      · unfold Waits
        rw [hsame.1]
        exact hwaits
      · exact (hsignalled hg).keep hsame.1 hsame.2 fun c hc x hcx => ⟨c, hc, hcx⟩
    | @arrive s s' ts t h =>
      obtain ⟨_, rfl, packet, rfl⟩ := h
      refine ⟨f, rest ++ [callerTask packet], g, ?_, hat, hwaits, fun hg => ?_⟩
      · simp only at htasks ⊢
        rw [htasks]
        rfl
      · exact (hsignalled hg).keep rfl (Or.inl rfl) fun c hc x hcx =>
          ⟨c, List.mem_append_left _ hc, hcx⟩

end Signals

/-! ## 3. The flush task at its wait -/

section AtWait

variable {b : BatchingTransport} {p : Pool BatchingShared BatchTask} {i : Nat} {t : BatchTask}

/-- The flush task is about to wait, or waits. -/
def BatchTask.atWait (t : BatchTask) : Prop :=
  (∃ k, t.rest = .op .beginWait k) ∨ ∃ since k, t.rest = .op (.waitNotified since) k

/-- It is the flush task that waits. -/
theorem flush_of_atWait (hr : (batchSystem b).Reachable (BatchStart b) p) (ht : t ∈ p.tasks)
    (hwait : t.atWait) : t.kind = .flush := by
  have hop : ∃ e k, t.rest = .op e k ∧ e.signals = true ∧ e.ofCaller = false := by
    rcases hwait with ⟨k, hrest⟩ | ⟨since, k, hrest⟩
    · exact ⟨_, k, hrest, rfl, rfl⟩
    · exact ⟨_, k, hrest, rfl, rfl⟩
  obtain ⟨e, k, hrest, hsignals, hnot⟩ := hop
  cases hkind : t.kind with
  | flush => rfl
  | caller =>
    have hcaller := caller_op hr ht (by rw [hkind]; rfl) hrest
    exact absurd (hnot.symm.trans hcaller) Bool.false_ne_true
  | worker task =>
    have hsilent := worker_silent hr ht hkind hrest
    exact absurd (hsilent.symm.trans hsignals) Bool.false_ne_true

/-- **The task at a position drains the queue by itself**, and without the timer: with steps of its
    own and at the same time it gets all that is queued. -/
def DrainsNow (b : BatchingTransport) (p : Pool BatchingShared BatchTask) (i : Nat) : Prop :=
  ∃ vs q u, (batchSystem b).Run p vs q ∧ (∀ x ∈ vs, x.2 = .task i) ∧
    q.shared.clock = p.shared.clock ∧ q.shared.pending = [] ∧ q.tasks[i]? = some u ∧
      u.ledger.owned = (p.shared.pending : Multiset PendingRequest)

/-- **What holds at the wait.** -/
structure NoLostWakeup (b : BatchingTransport) (p : Pool BatchingShared BatchTask) (i : Nat)
    (t : BatchTask) : Prop where
  /-- With a full queue there is a notification, delivered to the flush task if it waits; -/
  notified : b.config.maxBatchSize ≤ p.shared.pending.length → p.shared.notify.Available ∧
    ∀ since k, t.rest = .op (.waitNotified since) k → p.shared.notify.waiter = .delivered
  /-- so it drains the queue without the timer. -/
  drains : b.config.maxBatchSize ≤ p.shared.pending.length → DrainsNow b p i
  /-- Without a notification every entry in the queue was pushed by a caller that is about to
      notify. -/
  owed : ¬ p.shared.notify.Available → ∀ x ∈ p.shared.pending, ∃ c ∈ p.tasks, Owes c x

theorem drainsNow_woken (hi : p.tasks[i]? = some t) (hat : FlushAt b t .woken) :
    DrainsNow b p i := by
  have hfollows := hat.follows
  cases hrest : t.rest with
  | ret x =>
    rw [hrest] at hfollows
    rcases hfollows with ⟨_, h⟩ | ⟨_, h⟩ <;> cases h
  | op e k =>
    rw [hrest] at hfollows
    cases e with
    | drain =>
      have hs := effect_at (b := b) (r := p.shared.pending) hi hrest ⟨rfl, rfl⟩ rfl
      have hnow := List.getElem?_set_self (l := p.tasks)
        (a := ⟨t.kind.next .drain p.shared.pending, k p.shared.pending,
          t.ledger.next .drain p.shared.pending⟩) (List.getElem?_eq_some_iff.mp hi).1
      refine ⟨[(p, .task i)], _, _, .step .refl hs, fun x hx => ?_, rfl, rfl, hnow, ?_⟩
      · rw [List.mem_singleton.mp hx]
      · show t.ledger.owned + _ = _
        rw [hat.ledger]
        exact Multiset.zero_add _
    | _ => exact hfollows.1.elim

/-- One more step of its own before. -/
theorem DrainsNow.after {p' : Pool BatchingShared BatchTask} (h : DrainsNow b p' i)
    (hs : (batchSystem b).Step p (.task i) p') (hclock : p'.shared.clock = p.shared.clock)
    (hpending : p'.shared.pending = p.shared.pending) : DrainsNow b p i := by
  obtain ⟨vs, q, u, hrun, hown, hq, hempty, hu, howned⟩ := h
  refine ⟨_, q, u, .cons hs hrun, ?_, hq.trans hclock, hempty, hu, howned.trans (by rw [hpending])⟩
  exact List.forall_mem_cons.mpr ⟨rfl, hown⟩

/-- A flush task to which a notification has been delivered wakes and drains. -/
theorem drainsNow_waiting (hi : p.tasks[i]? = some t) {since : Nat}
    (hat : FlushAt b t (.waiting since)) (hdelivered : p.shared.notify.waiter = .delivered) :
    DrainsNow b p i := by
  have hfollows := hat.follows
  cases hrest : t.rest with
  | ret x =>
    rw [hrest] at hfollows
    rcases hfollows with ⟨_, h⟩ | ⟨_, h⟩ <;> cases h
  | op e k =>
    rw [hrest] at hfollows
    cases e with
    | waitNotified since' =>
      have heff : Effect b p.shared (.waitNotified since') ()
          { p.shared with notify := p.shared.notify.wake } := Or.inl ⟨hdelivered, rfl⟩
      have hwoken := drainsNow_woken (b := b)
        (p := ⟨{ p.shared with notify := p.shared.notify.wake }, _⟩) (i := i)
        (List.getElem?_set_self (List.getElem?_eq_some_iff.mp hi).1)
        (t := ⟨t.kind.next (.waitNotified since') (), k (),
          t.ledger.next (.waitNotified since') ()⟩) ⟨hat.kind, hfollows.2 () trivial, hat.ledger⟩
      exact hwoken.after (effect_at hi hrest heff rfl) rfl rfl
    | _ => exact hfollows.1.elim

/-- A flush task about to wait, with a permit stored, goes on to the drain at once. -/
theorem drainsNow_upgraded (hi : p.tasks[i]? = some t) (hat : FlushAt b t .upgraded)
    (havailable : p.shared.notify.Available) : DrainsNow b p i := by
  have hfollows := hat.follows
  cases hrest : t.rest with
  | ret x =>
    rw [hrest] at hfollows
    rcases hfollows with ⟨_, h⟩ | ⟨_, h⟩ <;> cases h
  | op e k =>
    rw [hrest] at hfollows
    cases e with
    | beginWait =>
      have heff : Effect b p.shared .beginWait p.shared.clock
          { p.shared with notify := p.shared.notify.poll } := ⟨rfl, rfl⟩
      have hwaiting := drainsNow_waiting (b := b)
        (p := ⟨{ p.shared with notify := p.shared.notify.poll }, _⟩) (i := i)
        (List.getElem?_set_self (List.getElem?_eq_some_iff.mp hi).1)
        (t := ⟨t.kind.next .beginWait p.shared.clock, k p.shared.clock,
          t.ledger.next .beginWait p.shared.clock⟩)
        ⟨hat.kind, hfollows.2 p.shared.clock trivial, hat.ledger⟩
        (p.shared.notify.delivered_of_available havailable)
      exact hwaiting.after (effect_at hi hrest heff rfl) rfl rfl
    | _ => exact hfollows.1.elim

/-- **NO WAKE-UP IS LOST**: in every reachable pool, for any callers and any flush interval, what
    `NoLostWakeup` says holds of the flush task at its wait. -/
theorem no_lost_wakeup (hr : (batchSystem b).Reachable (BatchStart b) p)
    (hi : p.tasks[i]? = some t) (hwait : t.atWait) : NoLostWakeup b p i t := by
  obtain ⟨f, rest, g, htasks, hat, hwaits, hsignalled⟩ := signalled hr
  have hflush : t = f := by
    have ht := List.mem_of_getElem? hi
    obtain ⟨f', rest', htasks', _, hothers⟩ := flush_first hr
    obtain ⟨rfl, rfl⟩ := List.cons.inj (htasks.symm.trans htasks')
    have hmem := ht
    rw [htasks] at hmem
    exact (List.mem_cons.mp hmem).resolve_right fun hrest =>
      hothers t hrest (flush_of_atWait hr ht hwait)
  subst hflush
  have hstage : g = .upgraded ∨ ∃ since, g = .waiting since := by
    have hfollows := hat.follows
    rcases hwait with ⟨k, hrest⟩ | ⟨since, k, hrest⟩
    · rw [hrest] at hfollows
      cases g with
      | upgraded => exact Or.inl rfl
      | _ => exact hfollows.1.elim
    · rw [hrest] at hfollows
      cases g with
      | waiting since' => exact Or.inr ⟨since', rfl⟩
      | _ => exact hfollows.1.elim
  have hnow : Signalled b p.shared rest := by
    refine hsignalled ?_
    rcases hstage with rfl | ⟨since, rfl⟩ <;> exact nofun
  have hdelivered : (∃ since, g = .waiting since) → p.shared.notify.Available →
      p.shared.notify.waiter = .delivered := fun hg =>
    (Wakeup.Notify.available_waiting (hwaits.mpr hg)).mp
  refine ⟨fun hfull => ⟨hnow.full hfull, fun since k hrest => ?_⟩, fun hfull => ?_,
    fun hnot x hx => ?_⟩
  · refine hdelivered ?_ (hnow.full hfull)
    have hfollows := hat.follows
    rw [hrest] at hfollows
    cases g with
    | waiting since' => exact ⟨since', rfl⟩
    | _ => exact hfollows.1.elim
  · rcases hstage with rfl | ⟨since, rfl⟩
    · exact drainsNow_upgraded hi hat (hnow.full hfull)
    · exact drainsNow_waiting hi hat (hdelivered ⟨since, rfl⟩ (hnow.full hfull))
  · obtain ⟨c, hc, hcx⟩ := hnow.owed.resolve_left hnot x hx
    refine ⟨c, ?_, hcx⟩
    rw [htasks]
    exact List.mem_cons_of_mem _ hc

end AtWait

/-! ## 4. A full queue behind a waiting flush task -/

section Example

/-- The flush task waits when a batch of two fills the queue of a transport with chunks of two; its
    call has not notified a second time yet. -/
def filledSchedule : List Move :=
  [.task 0, .task 0, .call (.batch [⟨.number 1, "a"⟩, ⟨.number 2, "b"⟩]), .task 1]

/-- A task waits for the `Notify`. -/
def BatchTask.waiting (t : BatchTask) : Bool :=
  match t.rest with
  | .op (.waitNotified _) _ => true
  | _ => false

theorem no_lost_wakeup_filled : ∃ p t, (batchSystem lossyTransport).Reachable
    (BatchStart lossyTransport) p ∧ p.tasks[0]? = some t ∧ t.atWait ∧
      p.shared.pending.length = 2 ∧ NoLostWakeup lossyTransport p 0 t := by
  obtain ⟨p, hr, hp⟩ := observed_reachable lossy_mayReply filledSchedule
    (fun p => (p.tasks[0]?.map BatchTask.waiting, p.shared.pending.length)) (a := (some true, 2))
    (by decide)
  obtain ⟨hwaits, hlength⟩ := Prod.mk.inj hp
  obtain ⟨t, hi, hwaiting⟩ := Option.map_eq_some_iff.mp hwaits
  have hwait : t.atWait := by
    unfold BatchTask.waiting at hwaiting
    split at hwaiting
    · rename_i since k hrest
      exact Or.inr ⟨since, k, hrest⟩
    · cases hwaiting
  exact ⟨p, t, hr, hi, hwait, hlength, no_lost_wakeup hr hi hwait⟩

end Example

end TransportBalancer.Batching
