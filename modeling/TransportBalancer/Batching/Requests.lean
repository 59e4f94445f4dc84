/-
  File:      TransportBalancer/Batching/Requests.lean
  Subject:   NO REQUEST IS LOST AND NONE IS ANSWERED TWICE, over every interleaving of callers, the
             flush task and its spawned tasks, and every behaviour of the inner service.

  * `queueMove_step` -- the queue is emptied or grows at its end; entries are dropped from it only
    with the last `Arc`;
  * `role_ok` (`caller_ok`, `flush_ok`) -- what is known of callers and of the flush task;
  * `callers_entries` -- the entries pushed are those of the callers;
  * **`requests_conserved`** -- every entry is in one place, answered once in the end, and dropped
    only if its caller was cancelled; the flush loop returns only when nobody waits.
-/
import TransportBalancer.Batching.Conservation
import TransportBalancer.Batching.FlushStages
import TransportBalancer.Batching.Schedule

namespace TransportBalancer.Batching

open Interaction TaskPool

/-! ## 1. How the queue moves -/

/-- **What a step may do to the queue**: it is emptied, or entries on new channels are appended;
    entries are dropped from it only with the last `Arc`. -/
structure QueueMove (s s' : BatchingShared) : Prop where
  channels : s.nextChannel ≤ s'.nextChannel
  pending : ∀ p ∈ s'.pending, p ∈ s.pending ∨ s.nextChannel ≤ p.tx
  kept : s'.pending = [] ∨ ∀ p ∈ s.pending, p ∈ s'.pending
  dropped : ∀ p ∈ s'.dropped, p ∈ s.dropped ∨ p ∈ s.pending ∧ s'.strong = 0

theorem queueMove_same {s s' : BatchingShared} (hn : s'.nextChannel = s.nextChannel)
    (hp : s'.pending = s.pending) (hd : s'.dropped = s.dropped) : QueueMove s s' :=
  ⟨Nat.le_of_eq hn.symm, fun _ h => Or.inl (hp ▸ h), Or.inr fun _ h => hp ▸ h,
    fun _ h => Or.inl (hd ▸ h)⟩

theorem queueMove_dropShared (s : BatchingShared) : QueueMove s s.dropShared := by
  refine ⟨Nat.le_of_eq (dropShared_nextChannel s).symm, ?_, ?_, ?_⟩
  all_goals unfold BatchingShared.dropShared; split
  · exact nofun
  · exact fun _ h => Or.inl h
  · exact Or.inl rfl
  · exact Or.inr fun _ h => h
  · exact fun p h => (List.mem_append.mp h).imp_right fun h => ⟨h, rfl⟩
  · exact fun _ h => Or.inl h

theorem queueMove_enqueue (s : BatchingShared) (config : RunningConfig)
    (requests : List SerializedRequest) : QueueMove s (s.enqueue config requests) := by
  refine ⟨Nat.le_add_right _ _, fun p hp => ?_, Or.inr fun p hp => List.mem_append_left _ hp,
    fun _ h => Or.inl h⟩
  refine (List.mem_append.mp hp).imp_right fun hp => ?_
  have := List.mem_map_of_mem (f := PendingRequest.tx) hp
  rw [entriesFrom_channels, List.mem_range'_1] at this
  exact this.1

theorem queueMove_effect {b : BatchingTransport} {s s' : BatchingShared} {e : BatchOp}
    {r : BatchSig.Ans e} (h : Effect b s e r s') : QueueMove s s' := by
  cases e with
  | enqueue requests =>
    obtain ⟨_, rfl⟩ := h
    exact queueMove_enqueue s b.config requests
  | dropShared =>
    obtain rfl := h
    exact queueMove_dropShared s
  | drain =>
    obtain ⟨_, rfl⟩ := h
    exact ⟨Nat.le_refl _, nofun, Or.inl rfl, fun _ h => Or.inl h⟩
  | send =>
    obtain rfl := h
    exact queueMove_same rfl rfl rfl
  | notifyOne | awaitResponse | upgrade | beginWait | waitNotified | spawn | innerCall | iterate
  | onBatchRejection | newSemaphore | acquire | release =>
    have hf := effect_frame h rfl
    exact queueMove_same hf.nextChannel hf.pending hf.dropped

theorem queueMove_task {b : BatchingTransport} {s s' : BatchingShared} {t t' : BatchTask}
    {new : List BatchTask} (hs : t.Step b s s' t' new) : QueueMove s s' := by
  cases hs with
  | effect r hrest heff => exact queueMove_effect heff
  | turn => exact queueMove_same rfl rfl rfl
  | cancel => exact queueMove_dropShared s

/-- Every step of the pool moves the queue so. -/
theorem queueMove_step {b : BatchingTransport} {p p' : Pool BatchingShared BatchTask} {w : Actor}
    (hs : (batchSystem b).Step p w p') : QueueMove p.shared p'.shared := by
  cases hs with
  | act h => exact queueMove_task h
  | @env s s' ts h =>
    cases h with
    | tick | cloned => exact queueMove_same rfl rfl rfl
    | dropped =>
      have h := queueMove_dropShared s
      exact ⟨h.channels, h.pending, h.kept, h.dropped⟩
  | arrive h =>
    obtain ⟨_, rfl, _⟩ := h
    exact queueMove_same rfl rfl rfl

/-- An entry is dropped only when no `Arc` is left. -/
theorem strong_of_dropped {b : BatchingTransport} {p : Pool BatchingShared BatchTask}
    (hr : (batchSystem b).Reachable (BatchStart b) p) {q : PendingRequest}
    (hq : q ∈ p.shared.dropped) : p.shared.strong = 0 := by
  induction hr with
  | start hp =>
    rw [hp.dropped] at hq
    exact absurd hq List.not_mem_nil
  | step hr hs ih =>
    rcases (queueMove_step hs).dropped q hq with hq | ⟨_, hzero⟩
    · exact strong_zero_stays hr hs (ih hq)
    · exact hzero

/-! ## 2. What is known of callers and of the flush task -/

/-- What a caller knows: its receivers, and whether one of them has been answered. -/
structure CallerView where
  receivers : List Channel
  heard : Bool

/-- **The protocol of a caller**: it queues its requests once, waits on its own receivers, and gives
    its `Arc` back only once a receiver has been answered (or it has none). -/
def callerProtocol (packet : RequestPacket) : Protocol BatchSig CallerView where
  ok v e :=
    match e with
    | .enqueue requests => v = ⟨[], false⟩ ∧ requests = packet.requests
    | .awaitResponse rx => rx ∈ v.receivers
    | .dropShared => v.receivers = [] ∨ v.heard = true
    | .notifyOne => True
    | _ => False
  admits _ _ _ := True
  next v e r :=
    match e, r with
    | .enqueue requests, first => ⟨List.range' first requests.length, false⟩
    | .awaitResponse _, _ => { v with heard := true }
    | _, _ => v

theorem callerTask_role (packet : RequestPacket) :
    (callerTask packet).rest.Follows (callerProtocol packet) ⟨[], false⟩ fun _ _ => True := by
  have hcollect : ∀ all receivers responses heard, (∀ rx ∈ receivers, rx ∈ all) →
      (receivers = [] → all = [] ∨ heard = true) →
      (collectResponses receivers responses).Follows (callerProtocol packet) ⟨all, heard⟩
        fun v _ => v.receivers = [] ∨ v.heard = true := by
    intro all receivers
    induction receivers with
    | nil => exact fun _ _ _ h => h rfl
    | cons rx receivers ih =>
      intro responses heard hsub _
      refine ⟨hsub rx List.mem_cons_self, fun answer _ => ?_⟩
      have hrest := fun responses => ih responses true
        (fun rx hrx => hsub rx (List.mem_cons_of_mem _ hrx)) fun _ => Or.inr rfl
      rcases answer with _ | (_ | (_ | _))
      · exact Or.inr rfl
      · exact Or.inr rfl
      · exact hrest _
      · exact hrest _
  have hreceive : ∀ first : Channel, (receive packet first).Follows (callerProtocol packet)
      ⟨List.range' first packet.requests.length, false⟩
      fun v _ => v.receivers = [] ∨ v.heard = true := by
    intro first
    cases packet with
    | single => exact ⟨List.mem_singleton_self first, fun _ _ => Or.inr rfl⟩
    | batch requests => exact hcollect _ _ _ _ (fun _ h => h) Or.inl
  have hcall : (call packet).Follows (callerProtocol packet) ⟨[], false⟩ fun _ _ => True :=
    ⟨⟨rfl, rfl⟩, fun first _ => ⟨trivial, fun _ _ =>
      (hreceive first).bind fun _ _ h => ⟨h, fun _ _ => trivial⟩⟩⟩
  exact hcall.bind fun _ _ _ => trivial

/-- The entries a caller has pushed. -/
def TaskKind.entries : TaskKind → List PendingRequest
  | .caller packet receivers => List.zipWith PendingRequest.mk packet.requests receivers
  | _ => []

theorem entriesFrom_eq (requests : List SerializedRequest) (first : Channel) :
    BatchingShared.entriesFrom first requests =
      List.zipWith PendingRequest.mk requests (List.range' first requests.length) := by
  induction requests generalizing first with
  | nil => rfl
  | cons request requests ih =>
    rw [List.length_cons, List.range'_succ, List.zipWith_cons_cons, ← ih]
    rfl

/-- The channels of the queued entries. -/
def BatchingShared.queued (s : BatchingShared) : List Channel := s.pending.map PendingRequest.tx

/-- **What is known of a caller**: its channels are those of its entries; they are in the queue
    together or not at all, and not once one has been answered; and when its `Arc` is gone it was
    cancelled, or none of its entries is in the queue or was dropped from it. -/
structure CallerOk (s : BatchingShared) (t : BatchTask) (packet : RequestPacket)
    (receivers : List Channel) (heard : Bool) : Prop where
  follows : t.rest.Follows (callerProtocol packet) ⟨receivers, heard⟩ fun _ _ => True
  named : ∀ rx ∈ receivers, ∃ q ∈ (TaskKind.caller packet receivers).entries, q.tx = rx
  known : ∀ rx ∈ receivers, rx < s.nextChannel
  together : (∀ rx ∈ receivers, rx ∈ s.queued) ∨ ∀ rx ∈ receivers, rx ∉ s.queued
  settled : heard = true → ∀ rx ∈ receivers, rx ∉ s.queued
  released : t.ledger.arcs = 0 → t.rest = .ret .cancelled ∨
    ∀ rx ∈ receivers, rx ∉ s.queued ∧ rx ∉ s.dropped.map PendingRequest.tx

/-- What is known of a task: of a caller `CallerOk`; of the flush task its stage, and that it has
    stopped only with no `Arc` left. -/
def BatchTask.RoleOk (b : BatchingTransport) (s : BatchingShared) (t : BatchTask) : Prop :=
  match t.kind with
  | .caller packet receivers => ∃ heard, CallerOk s t packet receivers heard
  | .flush => ∃ g, FlushAt b t g ∧ (g = .stopped → s.strong = 0)
  | .worker _ => True

theorem QueueMove.notQueued {s s' : BatchingShared} (h : QueueMove s s') {rx : Channel}
    (hknown : rx < s.nextChannel) (hrx : rx ∉ s.queued) : rx ∉ s'.queued := by
  intro hq
  obtain ⟨p, hp, rfl⟩ := List.mem_map.mp hq
  rcases h.pending p hp with hp | hp
  · exact hrx (List.mem_map_of_mem hp)
  · exact Nat.lt_irrefl _ (Nat.lt_of_lt_of_le hknown hp)

theorem QueueMove.notDropped {s s' : BatchingShared} (h : QueueMove s s') {rx : Channel}
    (hq : rx ∉ s.queued) (hd : rx ∉ s.dropped.map PendingRequest.tx) :
    rx ∉ s'.dropped.map PendingRequest.tx := by
  intro hrx
  obtain ⟨p, hp, rfl⟩ := List.mem_map.mp hrx
  rcases h.dropped p hp with hp | ⟨hp, _⟩
  · exact hd (List.mem_map_of_mem hp)
  · exact hq (List.mem_map_of_mem hp)

/-- Channels in the queue together stay together. -/
theorem QueueMove.together {s s' : BatchingShared} (h : QueueMove s s') {receivers : List Channel}
    (hknown : ∀ rx ∈ receivers, rx < s.nextChannel)
    (ht : (∀ rx ∈ receivers, rx ∈ s.queued) ∨ ∀ rx ∈ receivers, rx ∉ s.queued) :
    (∀ rx ∈ receivers, rx ∈ s'.queued) ∨ ∀ rx ∈ receivers, rx ∉ s'.queued := by
  rcases ht with ht | ht
  · rcases h.kept with hempty | hkept
    · refine Or.inr fun rx _ => ?_
      unfold BatchingShared.queued
      rw [hempty]
      exact List.not_mem_nil
    · refine Or.inl fun rx hrx => ?_
      obtain ⟨p, hp, e⟩ := List.mem_map.mp (ht rx hrx)
      exact e ▸ List.mem_map_of_mem (hkept p hp)
  · exact Or.inr fun rx hrx => h.notQueued (hknown rx hrx) (ht rx hrx)

/-- A caller that goes on to `rest` with the same receivers, while the queue moves. -/
theorem CallerOk.move {s s' : BatchingShared} {t t' : BatchTask} {packet : RequestPacket}
    {receivers : List Channel} {heard heard' : Bool} (h : CallerOk s t packet receivers heard)
    (hm : QueueMove s s')
    (hfollows : t'.rest.Follows (callerProtocol packet) ⟨receivers, heard'⟩ fun _ _ => True)
    (hheard : heard' = true → ∀ rx ∈ receivers, rx ∉ s.queued)
    (hreleased : t'.ledger.arcs = 0 → t'.rest = .ret .cancelled ∨
      ∀ rx ∈ receivers, rx ∉ s.queued ∧ rx ∉ s.dropped.map PendingRequest.tx) :
    CallerOk s' t' packet receivers heard' where
  follows := hfollows
  named := h.named
  known rx hrx := Nat.lt_of_lt_of_le (h.known rx hrx) hm.channels
  together := hm.together h.known h.together
  settled e rx hrx := hm.notQueued (h.known rx hrx) (hheard e rx hrx)
  released e := (hreleased e).imp_right fun hout rx hrx =>
    ⟨hm.notQueued (h.known rx hrx) (hout rx hrx).1, hm.notDropped (hout rx hrx).1 (hout rx hrx).2⟩

/-- A channel that has been answered is not in the queue. -/
theorem answered_not_queued {b : BatchingTransport} {p : Pool BatchingShared BatchTask}
    (hr : (batchSystem b).Reachable (BatchStart b) p) {q : PendingRequest} {result : RpcResult}
    (hq : (q, result) ∈ p.shared.answers) : q.tx ∉ p.shared.queued := by
  intro hqueued
  obtain ⟨q', hq', e⟩ := List.mem_map.mp hqueued
  have hmem := mem_entries_of_settled hr (settled_of_answer hq)
  obtain rfl := (channels_ok hr).inj (mem_entries_of_settled hr (settled_of_pending hq')) hmem e
  have hone := one_place hr hmem
  have hpending := List.count_pos_iff.mpr hq'
  have hanswer : 0 < (p.shared.answers.map Prod.fst).count q' :=
    List.count_pos_iff.mpr (List.mem_map_of_mem hq)
  unfold BatchingShared.settled at hone
  omega

/-- **A caller keeps what is known of it.** -/
theorem callerOk_act {b : BatchingTransport} {p : Pool BatchingShared BatchTask}
    (hr : (batchSystem b).Reachable (BatchStart b) p) {t t' : BatchTask} {s' : BatchingShared}
    {new : List BatchTask} (ht : t ∈ p.tasks) (hs : t.Step b p.shared s' t' new)
    {packet : RequestPacket} {receivers : List Channel} {heard : Bool}
    (hkind : t.kind = .caller packet receivers)
    (h : CallerOk p.shared t packet receivers heard) : t'.RoleOk b s' := by
  have hok := batchTask_ok hr t ht
  have harcs := arcs_le_strong hr ht
  have hmove := queueMove_task hs
  have hdropped : t.ledger.arcs = 1 → p.shared.dropped = [] := fun e =>
    List.eq_nil_iff_forall_not_mem.mpr fun q hq => by
      have := strong_of_dropped hr hq
      omega
  unfold BatchTask.Ok at hok
  rw [hkind] at hok
  unfold BatchTask.RoleOk
  cases hs with
  | @effect e k r _ hrest heff =>
    have hfollows := h.follows
    rw [hrest] at hok hfollows
    rw [hkind]
    cases e with
    | enqueue requests =>
      -- the channels are new: all of them are in the queue now
      obtain ⟨⟨_, rfl⟩, hgo⟩ := hfollows
      obtain ⟨rfl, rfl⟩ := heff
      have hone : t.ledger = .oneArc := hok.1.2
      have hall : ∀ rx ∈ List.range' p.shared.nextChannel packet.requests.length,
          rx ∈ (p.shared.enqueue b.config packet.requests).queued := by
        intro rx hrx
        rw [← entriesFrom_channels] at hrx
        unfold BatchingShared.queued BatchingShared.enqueue
        rw [List.map_append]
        exact List.mem_append_right _ hrx
      refine ⟨false, hgo _ trivial, fun rx hrx => ?_, fun rx hrx => ?_, Or.inl hall, nofun,
        fun e => ?_⟩
      · show ∃ q ∈ List.zipWith PendingRequest.mk _ _, _
        rw [← entriesFrom_eq]
        rw [← entriesFrom_channels] at hrx
        exact List.mem_map.mp hrx
      · exact (List.mem_range'_1.mp hrx).2
      · have : t.ledger.arcs = 0 := e
        rw [hone] at this
        cases this
    | awaitResponse rx =>
      obtain ⟨hrx, hgo⟩ := hfollows
      have hone : t.ledger = .oneArc := hok.1.2
      have hnone : ∀ rx ∈ receivers, rx ∉ p.shared.queued := by
        refine h.together.resolve_left fun hall => ?_
        obtain ⟨_, ⟨q, result, hq, rfl, _⟩ | ⟨q, hq, rfl, _⟩⟩ := heff
        · exact answered_not_queued hr hq (hall _ hrx)
        · rw [hdropped (congrArg Ledger.arcs hone)] at hq
          exact List.not_mem_nil hq
      refine ⟨true, h.move hmove (hgo r trivial) (fun _ => hnone) fun e => ?_⟩
      have : t.ledger.arcs = 0 := e
      rw [hone] at this
      cases this
    | dropShared =>
      obtain ⟨hdone, hgo⟩ := hfollows
      have hnone : ∀ rx ∈ receivers, rx ∉ p.shared.queued := by
        rcases hdone with rfl | hdone
        · exact nofun
        · exact h.settled hdone
      refine ⟨heard, h.move hmove (hgo r trivial) h.settled fun e => Or.inr fun rx hrx => ?_⟩
      have hpos : 0 < t.ledger.arcs := hok.1
      have hzero : t.ledger.arcs - 1 = 0 := e
      rw [hdropped (by omega)]
      exact ⟨hnone rx hrx, List.not_mem_nil⟩
    | notifyOne =>
      refine ⟨heard, h.move hmove (hfollows.2 r trivial) h.settled fun e => ?_⟩
      exact (h.released e).imp_left fun e => by rw [hrest] at e; cases e
    | _ => exact hfollows.1.elim
  | turn hflush => rw [hkind] at hflush; cases hflush
  | cancel hk hrest hdrop =>
    rw [hkind]
    have hfollows : (Program.ret TaskEnd.cancelled : Program BatchSig TaskEnd).Follows
      (callerProtocol packet) ⟨receivers, heard⟩ fun _ _ => True := trivial
    exact ⟨heard, h.move hmove hfollows h.settled fun _ => Or.inl rfl⟩

/-- **What is known of a task stays true** whatever step the pool takes. -/
theorem roleOk_stable {b : BatchingTransport} {p p' : Pool BatchingShared BatchTask} {w : Actor}
    (hr : (batchSystem b).Reachable (BatchStart b) p) (hs : (batchSystem b).Step p w p')
    {u : BatchTask} (hu : u.RoleOk b p.shared) : u.RoleOk b p'.shared := by
  unfold BatchTask.RoleOk at hu ⊢
  split
  · rename_i packet receivers hkind
    rw [hkind] at hu
    obtain ⟨heard, h⟩ := hu
    exact ⟨heard, h.move (queueMove_step hs) h.follows h.settled h.released⟩
  · rename_i hkind
    rw [hkind] at hu
    obtain ⟨g, hat, hstopped⟩ := hu
    exact ⟨g, hat, fun e => strong_zero_stays hr hs (hstopped e)⟩
  · trivial

/-- A spawned task stays one. -/
theorem worker_stays {b : BatchingTransport} {s s' : BatchingShared} {t t' : BatchTask}
    {new : List BatchTask} (hs : t.Step b s s' t' new) {task : SpawnedTask}
    (hkind : t.kind = .worker task) : t'.kind = .worker task := by
  cases hs with
  | @effect e k r _ hrest heff =>
    show t.kind.next e r = _
    rw [hkind]
    cases e <;> rfl
  | turn => exact hkind
  | cancel => exact hkind

/-- Being the flush task is for good. -/
theorem flush_stays {b : BatchingTransport} {s s' : BatchingShared} {t t' : BatchTask}
    {new : List BatchTask} (hs : t.Step b s s' t' new) : t'.kind = .flush ↔ t.kind = .flush := by
  cases hs with
  | @effect e k r _ hrest heff =>
    show t.kind.next e r = _ ↔ _
    cases t.kind with
    | caller => cases e <;> exact ⟨nofun, nofun⟩
    | flush => cases e <;> exact Iff.rfl
    | worker => cases e <;> exact ⟨nofun, nofun⟩
  | turn => exact Iff.rfl
  | cancel => exact Iff.rfl

/-- A caller stays the caller of its packet. -/
theorem caller_stays {b : BatchingTransport} {s s' : BatchingShared} {t t' : BatchTask}
    {new : List BatchTask} (hs : t.Step b s s' t' new) {packet : RequestPacket}
    {receivers : List Channel} (hkind : t.kind = .caller packet receivers) :
    ∃ receivers', t'.kind = .caller packet receivers' := by
  cases hs with
  | @effect e k r _ hrest heff =>
    show ∃ receivers', t.kind.next e r = _
    rw [hkind]
    cases e <;> exact ⟨_, rfl⟩
  | turn => exact ⟨receivers, hkind⟩
  | cancel => exact ⟨receivers, hkind⟩

/-- Only spawned tasks are new. -/
theorem new_workers {b : BatchingTransport} {s s' : BatchingShared} {t t' : BatchTask}
    {new : List BatchTask} (hs : t.Step b s s' t' new) :
    ∀ n ∈ new, ∃ task, n = workerTask b task ∧ ∃ k, t.rest = .op (.spawn task) k := by
  intro n hn
  cases hs with
  | @effect e k r _ hrest heff =>
    cases e with
    | spawn task => exact ⟨task, List.mem_singleton.mp hn, k, hrest⟩
    | _ => exact absurd hn List.not_mem_nil
  | turn => exact absurd hn List.not_mem_nil
  | cancel => exact absurd hn List.not_mem_nil

/-- **On every reachable pool**: what is known of callers and of the flush task. -/
theorem role_ok {b : BatchingTransport} {p : Pool BatchingShared BatchTask}
    (hr : (batchSystem b).Reachable (BatchStart b) p) : ∀ t ∈ p.tasks, t.RoleOk b p.shared := by
  refine System.Reachable.localInv (I := fun s t => t.RoleOk b s) (fun p hp t ht => ?_)
    (fun {p p' w t t' new} hr hs ht hu hact => ⟨?_, fun n hn => ?_⟩) (fun {p s' t} _ ha => ?_)
    (fun hr hs hu => roleOk_stable hr hs hu) hr
  · rw [hp.only_flush ht]
    exact ⟨.start, flushTask_at b, nofun⟩
  · unfold BatchTask.RoleOk at hu
    split at hu
    · rename_i packet receivers hkind
      obtain ⟨heard, h⟩ := hu
      exact callerOk_act hr ht hact hkind h
    · rename_i hkind
      obtain ⟨g, hat, _⟩ := hu
      obtain ⟨g', hmove, hat'⟩ := hat.step hact
      unfold BatchTask.RoleOk
      rw [hat'.kind]
      refine ⟨g', hat', fun e => ?_⟩
      rw [e] at hmove
      exact hmove.stopped
    · rename_i task hkind
      unfold BatchTask.RoleOk
      rw [worker_stays hact hkind]
      trivial
  · obtain ⟨task, rfl, _⟩ := new_workers hact n hn
    trivial
  · obtain ⟨_, _, packet, rfl⟩ := ha
    exact ⟨false, callerTask_role packet, nofun, nofun, Or.inl nofun, nofun, fun _ => Or.inr nofun⟩

/-- What is known of a caller of a reachable pool. -/
theorem caller_ok {b : BatchingTransport} {p : Pool BatchingShared BatchTask}
    (hr : (batchSystem b).Reachable (BatchStart b) p) {t : BatchTask} (ht : t ∈ p.tasks)
    {packet : RequestPacket} {receivers : List Channel}
    (hkind : t.kind = .caller packet receivers) :
    ∃ heard, CallerOk p.shared t packet receivers heard := by
  have hrole := role_ok hr t ht
  unfold BatchTask.RoleOk at hrole
  rw [hkind] at hrole
  exact hrole

/-- What is known of the flush task of a reachable pool. -/
theorem flush_ok {b : BatchingTransport} {p : Pool BatchingShared BatchTask}
    (hr : (batchSystem b).Reachable (BatchStart b) p) {t : BatchTask} (ht : t ∈ p.tasks)
    (hkind : t.kind = .flush) : ∃ g, FlushAt b t g ∧ (g = .stopped → p.shared.strong = 0) := by
  have hrole := role_ok hr t ht
  unfold BatchTask.RoleOk at hrole
  rw [hkind] at hrole
  exact hrole

/-- What a caller is about to do, its protocol allows. -/
theorem caller_may {b : BatchingTransport} {p : Pool BatchingShared BatchTask}
    (hr : (batchSystem b).Reachable (BatchStart b) p) {t : BatchTask} (ht : t ∈ p.tasks)
    {packet : RequestPacket} {receivers : List Channel} (hkind : t.kind = .caller packet receivers)
    {e : BatchOp} {k : BatchSig.Ans e → Program BatchSig TaskEnd} (hrest : t.rest = .op e k) :
    ∃ heard, (callerProtocol packet).ok ⟨receivers, heard⟩ e := by
  obtain ⟨heard, h⟩ := caller_ok hr ht hkind
  have hfollows := h.follows
  rw [hrest] at hfollows
  exact ⟨heard, hfollows.1⟩

/-- What the flush task is about to do, its stage allows. -/
theorem flush_may {b : BatchingTransport} {p : Pool BatchingShared BatchTask}
    (hr : (batchSystem b).Reachable (BatchStart b) p) {t : BatchTask} (ht : t ∈ p.tasks)
    (hkind : t.kind = .flush) {e : BatchOp} {k : BatchSig.Ans e → Program BatchSig TaskEnd}
    (hrest : t.rest = .op e k) : ∃ g, FlushAt b t g ∧ (flushStages b.config).ok g e := by
  obtain ⟨g, hat, _⟩ := flush_ok hr ht hkind
  have hfollows := hat.follows
  rw [hrest] at hfollows
  exact ⟨g, hat, hfollows.1⟩

/-- The effects of a caller. -/
def BatchOp.ofCaller : BatchOp → Bool
  | .enqueue _ | .notifyOne | .awaitResponse _ | .dropShared => true
  | _ => false

/-- A caller performs the effects of a caller only. -/
theorem caller_op {b : BatchingTransport} {p : Pool BatchingShared BatchTask}
    (hr : (batchSystem b).Reachable (BatchStart b) p) {t : BatchTask} (ht : t ∈ p.tasks)
    (hcaller : t.kind.isCaller = true) {e : BatchOp} {k : BatchSig.Ans e → Program BatchSig TaskEnd}
    (hrest : t.rest = .op e k) : e.ofCaller = true := by
  obtain ⟨packet, receivers, hkind⟩ := caller_kind hcaller
  obtain ⟨heard, hmay⟩ := caller_may hr ht hkind hrest
  cases e with
  | enqueue | notifyOne | awaitResponse | dropShared => rfl
  | _ => exact hmay.elim

/-- A caller without its `Arc` has ended. -/
theorem caller_ended {b : BatchingTransport} {p : Pool BatchingShared BatchTask}
    (hr : (batchSystem b).Reachable (BatchStart b) p) {t : BatchTask} (ht : t ∈ p.tasks)
    {packet : RequestPacket} {receivers : List Channel} (hkind : t.kind = .caller packet receivers)
    (harcs : t.ledger.arcs = 0) : ∃ x, t.rest = .ret x := by
  have hok := batchTask_ok hr t ht
  unfold BatchTask.Ok at hok
  cases hrest : t.rest with
  | ret x => exact ⟨x, rfl⟩
  | op e k =>
    obtain ⟨heard, hmay⟩ := caller_may hr ht hkind hrest
    rw [hkind, hrest] at hok
    cases e with
    | enqueue | notifyOne | awaitResponse =>
      have hone : t.ledger = .oneArc := hok.1.2
      rw [hone] at harcs
      cases harcs
    | dropShared => exact absurd harcs (Nat.ne_of_gt hok.1)
    | _ => exact hmay.elim

/-! ## 3. Whose entries they are -/

theorem step_callers {b : BatchingTransport} {s s' : BatchingShared} {t t' : BatchTask}
    {new : List BatchTask} (ht : t.Ok) (hrole : t.RoleOk b s) (hs : t.Step b s s' t' new)
    (q : PendingRequest) :
    t'.kind.entries.count q + (new.map fun n => n.kind.entries.count q).sum + s.entries.count q =
      t.kind.entries.count q + s'.entries.count q := by
  unfold BatchTask.Ok at ht
  cases hs with
  | @effect e k r _ hrest heff =>
    rw [hrest] at ht
    cases e with
    | enqueue requests =>
      -- only a caller that has pushed nothing yet pushes, and it pushes its own requests
      unfold BatchTask.RoleOk at hrole
      obtain ⟨rfl, rfl⟩ := heff
      split at hrole
      · rename_i packet receivers hkind
        obtain ⟨heard, h⟩ := hrole
        have hfollows := h.follows
        rw [hrest] at hfollows
        obtain ⟨hview, rfl⟩ := hfollows.1
        obtain ⟨rfl, _⟩ := CallerView.mk.inj hview
        rw [hkind, enqueue_entries, entriesFrom_eq, List.count_append]
        simp only [TaskKind.next, TaskKind.entries, spawned, List.map_nil, List.sum_nil,
          List.zipWith_nil_right, List.count_nil]
        omega
      all_goals
        rename_i hkind
        rw [hkind] at ht
        exact absurd ht.1.1 Bool.false_ne_true
    | spawn task =>
      obtain rfl := heff
      rfl
    | dropShared =>
      obtain rfl := heff
      unfold BatchingShared.entries
      rw [dropShared_pushed]
      rfl
    | drain =>
      obtain ⟨_, rfl⟩ := heff
      rfl
    | send =>
      obtain rfl := heff
      rfl
    | notifyOne | awaitResponse | upgrade | beginWait | waitNotified | innerCall | iterate
    | onBatchRejection | newSemaphore | acquire | release =>
      unfold BatchingShared.entries
      rw [(effect_frame heff rfl).pushed]
      rfl
  | turn => rfl
  | cancel =>
    unfold BatchingShared.entries
    rw [dropShared_pushed]
    rfl

/-- **The entries pushed are those of the callers.** -/
theorem callers_entries {b : BatchingTransport} {p : Pool BatchingShared BatchTask}
    (hr : (batchSystem b).Reachable (BatchStart b) p) (q : PendingRequest) :
    p.total (fun t => t.kind.entries.count q) = p.shared.entries.count q := by
  induction hr with
  | start hp =>
    unfold Pool.total BatchingShared.entries
    rw [hp.tasks, hp.pushed]
    rfl
  | step hr hs ih =>
    have hok := batchTask_ok hr
    have hrole := role_ok hr
    cases hs with
    | act h =>
      have hmove := step_callers (hok _ (by simp)) (hrole _ (by simp)) h q
      rw [total_split] at ih
      rw [total_split_new]
      simp only at ih hmove ⊢
      omega
    | env h =>
      cases h with
      | tick | cloned => exact ih
      | dropped =>
        simp only [total_mk, BatchingShared.entries] at ih ⊢
        rw [dropShared_pushed]
        exact ih
    | arrive h =>
      obtain ⟨_, rfl, packet, rfl⟩ := h
      simpa [BatchingShared.entries, callerTask, TaskKind.entries] using ih

theorem mem_entries_iff {b : BatchingTransport} {p : Pool BatchingShared BatchTask}
    (hr : (batchSystem b).Reachable (BatchStart b) p) {q : PendingRequest} :
    q ∈ p.shared.entries ↔ ∃ t ∈ p.tasks, q ∈ t.kind.entries := by
  rw [← List.count_pos_iff, ← callers_entries hr, Pool.total]
  constructor
  · intro h
    by_contra hnone
    refine Nat.ne_of_gt h (List.sum_eq_zero fun n hn => ?_)
    obtain ⟨t, ht, rfl⟩ := List.mem_map.mp hn
    exact List.count_eq_zero.mpr fun hq => hnone ⟨t, ht, hq⟩
  · intro h
    obtain ⟨t, ht, hq⟩ := h
    refine Nat.lt_of_lt_of_le (List.count_pos_iff.mpr hq) (List.single_le_sum
      (fun _ _ => Nat.zero_le _) _ (List.mem_map.mpr ⟨t, ht, rfl⟩))

theorem receiver_of_entry {packet : RequestPacket} {receivers : List Channel} {q : PendingRequest}
    (hq : q ∈ (TaskKind.caller packet receivers).entries) : q.tx ∈ receivers := by
  rw [TaskKind.entries, ← List.map_uncurry_zip_eq_zipWith] at hq
  obtain ⟨⟨request, tx⟩, h, rfl⟩ := List.mem_map.mp hq
  exact (List.of_mem_zip h).2

/-- A step sends at most one answer, by its `send`. -/
theorem answers_step {s s' : BatchingShared} {t t' : BatchTask} {new : List BatchTask}
    (hs : t.Step b s s' t' new) : s'.answers = s.answers ∨
      ∃ q result k, t.rest = .op (.send q result) k ∧ s'.answers = s.answers ++ [(q, result)] := by
  cases hs with
  | @effect e k r _ hrest heff =>
    cases e with
    | send q result =>
      obtain rfl := heff
      exact Or.inr ⟨q, result, k, hrest, rfl⟩
    | dropShared =>
      obtain rfl := heff
      exact Or.inl (dropShared_answers s)
    | enqueue | drain =>
      obtain ⟨_, rfl⟩ := heff
      exact Or.inl rfl
    | notifyOne | awaitResponse | upgrade | beginWait | waitNotified | spawn | innerCall | iterate
    | onBatchRejection | newSemaphore | acquire | release =>
      exact Or.inl (effect_frame heff rfl).answers
  | turn => exact Or.inl rfl
  | cancel => exact Or.inl (dropShared_answers s)

/-- **What a step does to the queue**: it keeps it, empties it, or is the push of some requests. -/
theorem queue_step {b : BatchingTransport} {s s' : BatchingShared} {t t' : BatchTask}
    {new : List BatchTask} (hs : t.Step b s s' t' new) :
    (s'.pushed = s.pushed ∧ (s'.pending = s.pending ∨ s'.pending = [])) ∨
      ∃ requests k, t.rest = .op (.enqueue requests) k ∧ s' = s.enqueue b.config requests := by
  have hdrop : s.dropShared.pending = s.pending ∨ s.dropShared.pending = [] := by
    unfold BatchingShared.dropShared
    split
    · exact Or.inr rfl
    · exact Or.inl rfl
  cases hs with
  | @effect e k r _ hrest heff =>
    cases e with
    | enqueue requests =>
      obtain ⟨_, rfl⟩ := heff
      exact Or.inr ⟨requests, k, hrest, rfl⟩
    | dropShared =>
      obtain rfl := heff
      exact Or.inl ⟨dropShared_pushed s, hdrop⟩
    | drain =>
      obtain ⟨_, rfl⟩ := heff
      exact Or.inl ⟨rfl, Or.inr rfl⟩
    | send =>
      obtain rfl := heff
      exact Or.inl ⟨rfl, Or.inl rfl⟩
    | notifyOne | awaitResponse | upgrade | beginWait | waitNotified | spawn | innerCall | iterate
    | onBatchRejection | newSemaphore | acquire | release =>
      have hf := effect_frame heff rfl
      exact Or.inl ⟨hf.pushed, Or.inl hf.pending⟩
  | turn => exact Or.inl ⟨rfl, Or.inl rfl⟩
  | cancel => exact Or.inl ⟨dropShared_pushed s, hdrop⟩

/-! ## 4. The conservation law -/

/-- **What holds of the requests in a pool.** -/
structure RequestsConserved (p : Pool BatchingShared BatchTask) : Prop where
  /-- An entry that was pushed is in the queue, owned by one task, answered or dropped: exactly one
      of these, and once. -/
  one_place : ∀ q ∈ p.shared.entries,
    p.shared.settled q + p.total (fun t => t.ledger.owned.count q) = 1
  /-- It belongs to one caller. -/
  one_caller : ∀ q ∈ p.shared.entries, p.total (fun t => t.kind.entries.count q) = 1
  /-- An entry dropped unused belongs to a caller that was cancelled. -/
  dropped : ∀ t ∈ p.tasks, ∀ q ∈ t.kind.entries, q ∈ p.shared.dropped → t.rest = .ret .cancelled
  /-- Once every task has ended (the flush task may be between two turns), the sender of every
      entry of a caller that was not cancelled has been used exactly once. -/
  finished : (∀ t ∈ p.tasks, ∃ x, t.rest = .ret x) →
    ∀ t ∈ p.tasks, t.rest ≠ .ret .cancelled → ∀ q ∈ t.kind.entries,
      (p.shared.answers.map Prod.fst).count q = 1 ∧ q ∉ p.shared.dropped
  /-- When the flush loop has returned the queue is empty and no caller is waiting. -/
  stopped : (∃ t ∈ p.tasks, t.kind = .flush ∧ t.rest = .ret (.turn .stop)) →
    p.shared.pending = [] ∧
      ∀ t ∈ p.tasks, ∀ packet receivers, t.kind = .caller packet receivers → ∃ x, t.rest = .ret x

theorem arcs_of_strong_zero {b : BatchingTransport} {p : Pool BatchingShared BatchTask}
    (hr : (batchSystem b).Reachable (BatchStart b) p) (h : p.shared.strong = 0) {t : BatchTask}
    (ht : t ∈ p.tasks) : t.ledger.arcs = 0 :=
  Nat.le_zero.mp (h ▸ arcs_le_strong hr ht)

/-- A task with entries pushed is a caller, and what is known of it is known. -/
theorem callerOk_of_entry {b : BatchingTransport} {p : Pool BatchingShared BatchTask}
    (hr : (batchSystem b).Reachable (BatchStart b) p) {t : BatchTask} (ht : t ∈ p.tasks)
    {q : PendingRequest} (hq : q ∈ t.kind.entries) :
    ∃ packet receivers heard, t.kind = .caller packet receivers ∧ q.tx ∈ receivers ∧
      CallerOk p.shared t packet receivers heard := by
  cases hkind : t.kind with
  | caller packet receivers =>
    obtain ⟨heard, h⟩ := caller_ok hr ht hkind
    rw [hkind] at hq
    exact ⟨packet, receivers, heard, rfl, receiver_of_entry hq, h⟩
  | flush | worker =>
    rw [hkind] at hq
    exact absurd hq List.not_mem_nil

/-- A dropped entry belongs to a cancelled caller: whoever else had one had heard it. -/
theorem dropped_cancelled {b : BatchingTransport} {p : Pool BatchingShared BatchTask}
    (hr : (batchSystem b).Reachable (BatchStart b) p) {t : BatchTask} (ht : t ∈ p.tasks)
    {q : PendingRequest} (hq : q ∈ t.kind.entries) (hdropped : q ∈ p.shared.dropped) :
    t.rest = .ret .cancelled := by
  obtain ⟨packet, receivers, heard, _, hrx, h⟩ := callerOk_of_entry hr ht hq
  have harcs := arcs_of_strong_zero hr (strong_of_dropped hr hdropped) ht
  exact (h.released harcs).resolve_right fun hout =>
    (hout q.tx hrx).2 (List.mem_map_of_mem hdropped)

/-- A task that has ended owns nothing. -/
theorem ended_ledger {b : BatchingTransport} {p : Pool BatchingShared BatchTask}
    (hr : (batchSystem b).Reachable (BatchStart b) p) {t : BatchTask} (ht : t ∈ p.tasks)
    {x : TaskEnd} (hrest : t.rest = .ret x) : t.ledger = .nothing := by
  have hok := batchTask_ok hr t ht
  unfold BatchTask.Ok at hok
  rw [hrest] at hok
  exact hok

/-- **Everything ended, every answer given.** -/
theorem answered_once {b : BatchingTransport} {p : Pool BatchingShared BatchTask}
    (hr : (batchSystem b).Reachable (BatchStart b) p)
    (hended : ∀ t ∈ p.tasks, ∃ x, t.rest = .ret x) {t : BatchTask} (ht : t ∈ p.tasks)
    (hlive : t.rest ≠ .ret .cancelled) {q : PendingRequest} (hq : q ∈ t.kind.entries) :
    (p.shared.answers.map Prod.fst).count q = 1 ∧ q ∉ p.shared.dropped := by
  have hone := one_place hr ((mem_entries_iff hr).mpr ⟨t, ht, hq⟩)
  have hdropped : q ∉ p.shared.dropped := fun h => hlive (dropped_cancelled hr ht hq h)
  obtain ⟨packet, receivers, heard, _, hrx, h⟩ := callerOk_of_entry hr ht hq
  -- no task owns it, and an ended caller that was not cancelled has left the queue
  have howned : p.total (fun t => t.ledger.owned.count q) = 0 := by
    refine List.sum_eq_zero fun n hn => ?_
    obtain ⟨u, hu, rfl⟩ := List.mem_map.mp hn
    obtain ⟨x, hx⟩ := hended u hu
    rw [ended_ledger hr hu hx]
    exact Multiset.count_zero q
  have hpending : q ∉ p.shared.pending := by
    obtain ⟨x, hx⟩ := hended t ht
    have harcs : t.ledger.arcs = 0 := congrArg Ledger.arcs (ended_ledger hr ht hx)
    intro hmem
    exact ((h.released harcs).resolve_left hlive q.tx hrx).1 (List.mem_map_of_mem hmem)
  rw [howned, BatchingShared.settled, List.count_eq_zero.mpr hdropped,
    List.count_eq_zero.mpr hpending] at hone
  exact ⟨by omega, hdropped⟩

/-- **NO REQUEST IS LOST AND NONE IS ANSWERED TWICE**: in every pool reachable from a new transport,
    whatever the inner service answers and whichever callers are cancelled. -/
theorem requests_conserved {b : BatchingTransport} {p : Pool BatchingShared BatchTask}
    (hr : (batchSystem b).Reachable (BatchStart b) p) : RequestsConserved p where
  one_place q hq := one_place hr hq
  one_caller q hq := by
    rw [callers_entries hr]
    exact List.count_eq_one_of_mem (channels_ok hr).nodup hq
  dropped t ht q hq := dropped_cancelled hr ht hq
  finished hended t ht hlive q hq := answered_once hr hended ht hlive hq
  stopped := by
    intro h
    obtain ⟨t, ht, hkind, hrest⟩ := h
    obtain ⟨g, hat, hstopped⟩ := flush_ok hr ht hkind
    have hends := hat.follows
    rw [hrest] at hends
    have hzero : p.shared.strong = 0 := by
      rcases hends with ⟨hagain, _⟩ | ⟨_, hg⟩
      · cases hagain
      · exact hstopped hg
    exact ⟨pending_of_strong_zero hr hzero, fun u hu packet receivers hu' =>
      caller_ended hr hu hu' (arcs_of_strong_zero hr hzero hu)⟩

/-- An inner service that gives every request its own text back, but of a batch drops the first
    request and answers the others in reverse order. -/
def lossyReply : RequestPacket → RpcResult
  | .single r => .ok (.single ⟨r.id, .success r.request⟩)
  | .batch rs => .ok (.batch ((rs.drop 1).reverse.map fun r => ⟨r.id, .success r.request⟩))

/-- A batching transport over it, with chunks of at most two. -/
def lossyTransport : BatchingTransport where
  config := ⟨{ BatchingConfig.default with maxBatchSize := 2 }, by decide⟩
  inner packet result := result = lossyReply packet
  display _ := ""

theorem lossy_mayReply : lossyTransport.MayReply (some ∘ lossyReply) :=
  fun _ _ h => (Option.some.inj h).symm

/-- A single request and a batch of two, drained together into a chunk of two and a chunk of one;
    the chunk of two is retried, rejected and sent on individually. Then the clone is dropped. -/
def lossySchedule : List Move :=
  [.call (.single ⟨.number 1, "a"⟩), .call (.batch [⟨.number 2, "b"⟩, ⟨.number 3, "c"⟩])] ++
    [1, 1, 2, 2, 0, 0, 0, 0, 0, 0, 0, 4, 4, 3, 3, 3, 3, 3, 3, 3, 3, 5, 5, 5, 5, 1, 1, 2, 2, 2,
      0].map Move.task ++ [.dropClone, .task 0]

/-- A task that takes no step any more. -/
def BatchTask.ended (t : BatchTask) : Bool :=
  match t.rest with
  | .op _ _ | .ret (.turn .again) => false
  | .ret _ => true

theorem requests_conserved_lossy : ∃ p, (batchSystem lossyTransport).Reachable
    (BatchStart lossyTransport) p ∧ (p.shared.answers.length = 3 ∧ p.tasks.all BatchTask.ended) ∧
      RequestsConserved p := by
  obtain ⟨p, hr, hp⟩ := observed_reachable lossy_mayReply lossySchedule
    (fun p => decide (p.shared.answers.length = 3 ∧ p.tasks.all BatchTask.ended)) (a := true)
    (by decide)
  exact ⟨p, hr, of_decide_eq_true hp, requests_conserved hr⟩

end TransportBalancer.Batching
