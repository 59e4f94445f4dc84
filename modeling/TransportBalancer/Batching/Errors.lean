/-
  File:      TransportBalancer/Batching/Errors.lean
  Subject:   WHERE AN ERROR COMES FROM. What fails a request is a colliding id, or an inner call for
             that request: its own, or one for a batch with it of at most `max_batch_size` requests.

  * `errorProtocol` -- a task fails an entry only for an inner call it has made;
  * **`answers_explained`** -- every error answered is explained by an inner call that was made;
  * **`caller_error`** -- so is every error a caller returns, for a request of its own.
-/
import TransportBalancer.Batching.Callers

namespace TransportBalancer.Batching

open Interaction TaskPool

/-! ## 1. The programs -/

/-- The inner calls of a task with their results, newest first. -/
abbrev CallHistory := List (RequestPacket × RpcResult)

section Programs

variable (config : RunningConfig) (display : TransportError → String)

/-- The error of every request of a batch whose inner call failed with `err`. -/
def batchError (err : TransportError) : TransportError :=
  customStr ("batch request failed: " ++ display err)

/-- **Why a request may fail**: its id collided; its own inner call failed; that of a batch with it
    did. -/
def Explained (failed : RequestPacket → TransportError → Prop) (request : SerializedRequest)
    (e : TransportError) : Prop :=
  e = duplicateIdError ∨ failed (.single request) e ∨
    ∃ rs err, failed (.batch rs) err ∧ request ∈ rs ∧ e = batchError display err

/-- The failed calls of a history. -/
def CallHistory.failed (history : CallHistory) (packet : RequestPacket) (err : TransportError) :
    Prop :=
  (packet, .error err) ∈ history

/-- **The error protocol** of a task that owns some entries: it calls for requests of its own, not
    more than fit a batch, and fails an entry for a reason. -/
def errorProtocol (own : List PendingRequest) : Protocol BatchSig CallHistory where
  ok history e :=
    match e with
    | .innerCall packet =>
      packet.requests ⊆ requestsOf own ∧ packet.requests.length ≤ config.maxBatchSize
    | .send p result => ∀ err, result = .error err →
      Explained display history.failed p.request err
    | .spawn task => task.entries ⊆ own ∧ task.entries.length ≤ config.maxBatchSize
    | _ => True
  admits _ e r :=
    match e, r with
    | .iterate entries, order => order.Perm entries
    | _, _ => True
  next history e r :=
    match e, r with
    | .innerCall packet, result => (packet, result) :: history
    | _, _ => history

variable {config display} {own : List PendingRequest}

theorem Explained.mono {failed failed' : RequestPacket → TransportError → Prop}
    {request : SerializedRequest} {e : TransportError} (h : Explained display failed request e)
    (himp : ∀ packet err, failed packet err → failed' packet err) :
    Explained display failed' request e := by
  rcases h with h | h | ⟨rs, err, hfailed, h⟩
  · exact Or.inl h
  · exact Or.inr (Or.inl (himp _ _ h))
  · exact Or.inr (Or.inr ⟨rs, err, himp _ _ hfailed, h⟩)

/-- The map takes in entries of the task, and not more than there are. -/
theorem insertAll_errors (pending : List PendingRequest) (o : Outstanding) (history : CallHistory)
    (hown : pending ++ o.values ⊆ own) :
    (insertAll pending o).Follows (errorProtocol config display own) history fun _ o' =>
      o'.values ⊆ own ∧ o'.values.length ≤ pending.length + o.values.length := by
  induction pending generalizing o with
  | nil => exact ⟨hown, by simp⟩
  | cons p rest ih =>
    have hperm := o.insert_perm p
    have hsub : (o.insert p).2.values ⊆ own := fun q hq => by
      refine hown ?_
      rcases List.mem_cons.mp (hperm.mem_iff.mpr (List.mem_append_right _ hq)) with rfl | hq
      · exact List.mem_cons_self
      · exact List.mem_append_right _ hq
    have hlength := hperm.length_eq
    rw [List.length_cons, List.length_append] at hlength
    have hrest : rest ++ (o.insert p).2.values ⊆ own := List.append_subset.mpr
      ⟨fun q hq => hown (List.mem_append_left _ (List.mem_cons_of_mem _ hq)), hsub⟩
    unfold insertAll
    split
    · rename_i prev o' hinsert
      rw [hinsert] at hrest hlength
      refine ⟨fun err h => Or.inl (Except.error.inj h).symm, fun _ _ => ?_⟩
      refine (ih o' hrest).mono fun _ _ h => ⟨h.1, h.2.trans ?_⟩
      simp only [List.length_cons] at hlength ⊢
      omega
    · rename_i o' hinsert
      rw [hinsert] at hrest hlength
      refine (ih o' hrest).mono fun _ _ h => ⟨h.1, h.2.trans ?_⟩
      simp only [List.length_cons] at hlength ⊢
      omega

theorem spawnAll_errors (semaphore : Nat) (entries : List PendingRequest) (history : CallHistory)
    (hown : entries ⊆ own) :
    (spawnAll semaphore entries).Follows (errorProtocol config display own) history
      fun _ _ => True := by
  induction entries with
  | nil => trivial
  | cons p rest ih =>
    exact ⟨⟨List.cons_subset.mpr ⟨hown List.mem_cons_self, List.nil_subset _⟩,
      config.maxBatchSize_pos⟩, fun _ _ => ih fun q hq => hown (List.mem_cons_of_mem _ hq)⟩

theorem fallBack_errors (o : Outstanding) (history : CallHistory) (hown : o.values ⊆ own) :
    (fallBack o).Follows (errorProtocol config display own) history fun _ _ => True :=
  ⟨trivial, fun _ _ => ⟨trivial, fun order horder =>
    spawnAll_errors _ order history fun _ hq => hown (List.Perm.subset horder hq)⟩⟩

theorem matchResponses_errors (responses : List Response) (o : Outstanding) (history : CallHistory)
    (hown : o.values ⊆ own) :
    (matchResponses responses o).Follows (errorProtocol config display own) history fun _ o' =>
      o'.values ⊆ own ∧ o'.values.length ≤ o.values.length := by
  induction responses generalizing o with
  | nil => exact ⟨hown, Nat.le_refl _⟩
  | cons response rest ih =>
    have hperm := o.remove_perm response.id
    have hsub : (o.remove response.id).2.values ⊆ own := fun q hq =>
      hown (hperm.mem_iff.mpr (List.mem_append_right _ hq))
    have hlength := hperm.length_eq
    rw [List.length_append] at hlength
    unfold matchResponses
    split
    · rename_i p o' hremove
      rw [hremove] at hsub hlength
      refine ⟨nofun, fun _ _ => (ih o' hsub).mono fun _ _ h => ⟨h.1, h.2.trans ?_⟩⟩
      simp only at hlength
      omega
    · rename_i o' hremove
      rw [hremove] at hsub hlength
      refine (ih o' hsub).mono fun _ _ h => ⟨h.1, h.2.trans ?_⟩
      simp only at hlength
      omega

theorem failAll_errors {rs : List SerializedRequest} {err : TransportError} {history : CallHistory}
    (hcall : (.batch rs, .error err) ∈ history) (entries : List PendingRequest)
    (hentries : requestsOf entries ⊆ rs) :
    (failAll ("batch request failed: " ++ display err) entries).Follows
      (errorProtocol config display own) history fun _ _ => True := by
  induction entries with
  | nil => trivial
  | cons p rest ih =>
    refine ⟨fun e h => Or.inr (Or.inr ⟨rs, err, hcall, hentries List.mem_cons_self,
      (Except.error.inj h).symm⟩), fun _ _ => ih fun r hr => hentries (List.mem_cons_of_mem _ hr)⟩

/-- **The loop over the attempts** fails its entries for the call it has just made. -/
theorem attempts_errors (o : Outstanding) (history : CallHistory) (hown : o.values ⊆ own)
    (hlength : o.values.length ≤ config.maxBatchSize) :
    (attempts config.toBatchingConfig display (config.maxMissingRetries + 1) 0 o).Follows
      (errorProtocol config display own) history fun _ _ => True := by
  refine attempts_rule (Q := fun _ => True)
    (I := fun _ o _ => o.values ⊆ own ∧ o.values.length ≤ config.maxBatchSize)
    (fun _ _ _ _ _ => trivial) (fun o history h => fallBack_errors o history h.1)
    (fun attempt o history h _ _ => ⟨trivial, fun order horder => ?_⟩) _ (Nat.zero_add _)
    ⟨hown, hlength⟩
  obtain ⟨hown, hlength⟩ := h
  have hperm : order.Perm o.values := horder
  have hrequests : requestsOf order ⊆ requestsOf own :=
    List.map_subset _ fun _ hq => hown (hperm.subset hq)
  have hfew : (requestsOf order).length ≤ config.maxBatchSize := by
    rw [requestsOf, List.length_map, hperm.length_eq]
    exact hlength
  refine ⟨⟨hrequests, hfew⟩, fun reply _ => ?_⟩
  cases reply with
  | ok resp =>
    refine (matchResponses_errors (replyResponses resp) o _ hown).mono fun _ o' h => ?_
    refine ⟨fun _ => ⟨h.1, h.2.trans hlength⟩, fun _ =>
      rejectBatch_rule (fun _ => ⟨trivial, fun _ _ => ?_⟩) fun _ => ?_⟩
    · exact fallBack_errors o' _ h.1
    · exact fallBack_errors o' _ h.1
  | error err =>
    refine ⟨trivial, fun order' horder' => ?_⟩
    have hperm' : order'.Perm o.values := horder'
    exact failAll_errors List.mem_cons_self order'
      (List.map_subset _ (hperm'.trans hperm.symm).subset)

theorem sendSingle_errors {p : PendingRequest} (hp : p ∈ own) (history : CallHistory) :
    (sendSingle p).Follows (errorProtocol config display own) history fun _ _ => True := by
  refine ⟨⟨List.cons_subset.mpr ⟨List.mem_map_of_mem hp, List.nil_subset _⟩,
    config.maxBatchSize_pos⟩, fun result _ => ⟨?_, fun _ _ => trivial⟩⟩
  intro err heq
  obtain rfl := heq
  exact Or.inr (Or.inl List.mem_cons_self)

end Programs

/-- **A spawned task** with few enough entries. -/
theorem workerTask_errors (b : BatchingTransport) (task : SpawnedTask)
    (h : task.entries.length ≤ b.config.maxBatchSize) :
    (workerTask b task).rest.Follows (errorProtocol b.config b.display task.entries) []
      fun _ _ => True := by
  have hprogram : (task.program b.config.toBatchingConfig b.display).Follows
      (errorProtocol b.config b.display task.entries) [] fun _ _ => True := by
    cases task with
    | single p => exact sendSingle_errors List.mem_cons_self []
    | chunk pending =>
      have hown : pending ++ Outstanding.empty.values ⊆ pending := by
        rw [show Outstanding.empty.values = [] from rfl, List.append_nil]
        exact List.Subset.refl _
      exact (insertAll_errors pending .empty [] hown).bind fun history o ho =>
        attempts_errors o history ho.1 (ho.2.trans h)
    | individual semaphore p =>
      exact ⟨trivial, fun _ _ => (sendSingle_errors List.mem_cons_self []).bind fun _ _ _ =>
        ⟨trivial, fun _ _ => trivial⟩⟩
  exact hprogram.bind fun _ _ _ => trivial

/-! ## 2. Every task fails requests for a reason -/

section Tasks

variable {b : BatchingTransport} {p p' : Pool BatchingShared BatchTask}

/-- **An inner call that failed**: for queued requests, not more of them than fit a batch. -/
structure FailedCall (b : BatchingTransport) (s : BatchingShared) (packet : RequestPacket)
    (err : TransportError) : Prop where
  made : packet ∈ s.calls
  failed : b.inner packet (.error err)
  queued : packet.requests ⊆ requestsOf s.entries
  few : packet.requests.length ≤ b.config.maxBatchSize

theorem FailedCall.grow {w : Actor} (hs : (batchSystem b).Step p w p') {packet : RequestPacket}
    {err : TransportError} (h : FailedCall b p.shared packet err) :
    FailedCall b p'.shared packet err where
  made := (step_grows hs).calls h.made
  failed := h.failed
  queued := List.Subset.trans h.queued (List.map_subset _ (step_grows hs).entries.subset)
  few := h.few

/-- **What is known of a spawned task**: its entries were queued, and it has made the calls it
    remembers. -/
structure WorkerOk (b : BatchingTransport) (s : BatchingShared) (t : BatchTask)
    (own : List PendingRequest) (history : CallHistory) : Prop where
  queued : own ⊆ s.entries
  failed : ∀ packet err, history.failed packet err → FailedCall b s packet err
  follows : t.rest.Follows (errorProtocol b.config b.display own) history fun _ _ => True

/-- A spawned task, of which this is known. -/
def BatchTask.FailsForReason (b : BatchingTransport) (s : BatchingShared) (t : BatchTask) : Prop :=
  ∀ task, t.kind = .worker task → ∃ own history, WorkerOk b s t own history

/-- What a task owns was pushed. -/
theorem owned_pushed (hr : (batchSystem b).Reachable (BatchStart b) p) {t : BatchTask}
    (ht : t ∈ p.tasks) {q : PendingRequest} (hq : q ∈ t.ledger.owned) : q ∈ p.shared.entries := by
  have hconserved := entries_conserved hr q
  have howned : t.ledger.owned.count q ≤ p.total (fun t => t.ledger.owned.count q) :=
    List.single_le_sum (fun _ _ => Nat.zero_le _) _ (List.mem_map_of_mem ht)
  have hpos := Multiset.count_pos.mpr hq
  exact List.count_pos_iff.mp (by omega)

/-- **A task is spawned with queued entries**, not more of them than fit a batch. -/
theorem spawned_few (hr : (batchSystem b).Reachable (BatchStart b) p) {t : BatchTask}
    (ht : t ∈ p.tasks) (hreason : t.FailsForReason b p.shared) {task : SpawnedTask}
    {k : Unit → Program BatchSig TaskEnd} (hrest : t.rest = .op (.spawn task) k) :
    task.entries ⊆ p.shared.entries ∧ task.entries.length ≤ b.config.maxBatchSize := by
  cases hkind : t.kind with
  | caller => cases caller_op hr ht (by rw [hkind]; rfl) hrest
  | worker own =>
    obtain ⟨own, history, hok⟩ := hreason _ hkind
    have hfollows := hok.follows
    rw [hrest] at hfollows
    exact ⟨List.Subset.trans hfollows.1.1 hok.queued, hfollows.1.2⟩
  | flush =>
    obtain ⟨g, hat, hmay⟩ := flush_may hr ht hkind hrest
    cases g with
    | dispatching remaining =>
      obtain ⟨_, rfl⟩ := hmay
      rw [chunkTask_entries]
      refine ⟨fun q hq => owned_pushed hr ht ?_, ?_⟩
      · rw [hat.ledger]
        exact Multiset.mem_coe.mpr (List.mem_of_mem_take hq)
      · rw [nextChunk_length]
        exact Nat.min_le_right _ _
    | _ => exact hmay.elim

theorem failsForReason_step (hr : (batchSystem b).Reachable (BatchStart b) p) {w : Actor}
    (hs : (batchSystem b).Step p w p') {t t' : BatchTask} {new : List BatchTask} (ht : t ∈ p.tasks)
    (hreason : t.FailsForReason b p.shared) (hact : t.Step b p.shared p'.shared t' new) :
    t'.FailsForReason b p'.shared ∧ ∀ n ∈ new, n.FailsForReason b p'.shared := by
  have hentries := (step_grows hs).entries.subset
  have hgrow := fun packet err (h : FailedCall b p.shared packet err) => h.grow hs
  generalize p'.shared = s' at hact hentries hgrow ⊢
  refine ⟨fun task hkind => ?_, fun n hn _ _ => ?_⟩
  · cases hact with
    | @effect e k r _ hrest heff =>
      obtain ⟨task', hkind'⟩ : ∃ task', t.kind = .worker task' := by
        cases hbefore : t.kind with
        | worker task' => exact ⟨task', rfl⟩
        | caller | flush =>
          rw [hbefore] at hkind
          cases e <;> cases hkind
      obtain ⟨own, history, hok⟩ := hreason task' hkind'
      have hqueued := List.Subset.trans hok.queued hentries
      have hfailed := fun packet err h => hgrow packet err (hok.failed packet err h)
      have hfollows := hok.follows
      rw [hrest] at hfollows
      cases e with
      | innerCall packet =>
        refine ⟨own, (packet, r) :: history, hqueued, fun packet' err h => ?_, hfollows.2 r trivial⟩
        rcases List.mem_cons.mp h with h | h
        · cases h
          obtain ⟨hinner, hcalls⟩ := heff
          refine ⟨?_, hinner, List.Subset.trans hfollows.1.1 (List.map_subset _ hqueued),
            hfollows.1.2⟩
          rw [hcalls]
          exact List.mem_append_right _ (List.mem_singleton_self packet)
        · exact hfailed packet' err h
      | iterate => exact ⟨own, history, hqueued, hfailed, hfollows.2 r heff.1⟩
      | _ => exact ⟨own, history, hqueued, hfailed, hfollows.2 r trivial⟩
    | turn hflush =>
      rw [hflush] at hkind
      cases hkind
    | cancel hcaller =>
      rw [hcaller] at hkind
      cases hkind
  · obtain ⟨task, rfl, k, hrest⟩ := new_workers hact n hn
    obtain ⟨hqueued, hfew⟩ := spawned_few hr ht hreason hrest
    exact ⟨task.entries, [], List.Subset.trans hqueued hentries, nofun,
      workerTask_errors b task hfew⟩

/-- **On every reachable pool** a spawned task fails a request for a call it has made. -/
theorem tasks_failForReason (hr : (batchSystem b).Reachable (BatchStart b) p) :
    ∀ t ∈ p.tasks, t.FailsForReason b p.shared := by
  refine System.Reachable.localInv (I := fun s t => t.FailsForReason b s) (fun p hp t ht => ?_)
    (fun hr hs ht hreason hact => failsForReason_step hr hs ht hreason hact) (fun _ ha => ?_)
    (fun _ hs hreason task hkind => ?_) hr
  · rw [hp.only_flush ht]
    exact nofun
  · obtain ⟨_, _, packet, rfl⟩ := ha
    exact nofun
  · obtain ⟨own, history, hok⟩ := hreason task hkind
    exact ⟨own, history, List.Subset.trans hok.queued (step_grows hs).entries.subset,
      fun packet err h => (hok.failed packet err h).grow hs, hok.follows⟩

/-- An error being sent is explained. -/
theorem sent_explained (hr : (batchSystem b).Reachable (BatchStart b) p) {t : BatchTask}
    (ht : t ∈ p.tasks) {q : PendingRequest} {err : TransportError}
    {k : Unit → Program BatchSig TaskEnd} (hrest : t.rest = .op (.send q (.error err)) k) :
    Explained b.display (FailedCall b p.shared) q.request err := by
  cases hkind : t.kind with
  | caller => cases caller_op hr ht (by rw [hkind]; rfl) hrest
  | worker task =>
    obtain ⟨own, history, hok⟩ := tasks_failForReason hr t ht task hkind
    have hfollows := hok.follows
    rw [hrest] at hfollows
    exact (hfollows.1 err rfl).mono hok.failed
  | flush =>
    obtain ⟨g, _, hmay⟩ := flush_may hr ht hkind hrest
    cases g <;> exact hmay.elim

/-- **EVERY ERROR ANSWERED IS EXPLAINED**, in every reachable pool and over any inner service. -/
theorem answers_explained (hr : (batchSystem b).Reachable (BatchStart b) p) :
    ∀ q err, (q, .error err) ∈ p.shared.answers →
      Explained b.display (FailedCall b p.shared) q.request err := by
  induction hr with
  | start hp =>
    rw [hp.answers]
    exact nofun
  | @step p p' w hr hs ih =>
    have hgrow : ∀ q err, Explained b.display (FailedCall b p.shared) q err →
        Explained b.display (FailedCall b p'.shared) q err :=
      fun _ _ h => h.mono fun _ _ => FailedCall.grow hs
    have hold := fun q err hq => hgrow _ err (ih q err hq)
    cases hs with
    | @act s s' l r new t t' h =>
      intro q err hq
      rcases answers_step h with hsame | ⟨q', result, k, hrest, hnew⟩
      · exact hold q err (hsame ▸ hq)
      · rw [hnew] at hq
        rcases List.mem_append.mp hq with hq | hq
        · exact hold q err hq
        · cases List.mem_singleton.mp hq
          exact hgrow _ err (sent_explained hr (by simp) hrest)
    | @env s s' ts h =>
      cases h with
      | tick | cloned => exact hold
      | dropped => exact fun q err hq => hold q err ((dropShared_answers s) ▸ hq)
    | arrive h =>
      obtain ⟨_, rfl, _⟩ := h
      exact hold

end Tasks

/-! ## 3. What a caller returns -/

section Callers

variable {b : BatchingTransport} {p : Pool BatchingShared BatchTask}

/-- **A caller that returns an error** was answered it, for a request of its own. -/
theorem caller_answered (hr : (batchSystem b).Reachable (BatchStart b) p) {t : BatchTask}
    (ht : t ∈ p.tasks) {packet : RequestPacket} {receivers : List Channel} {err : TransportError}
    (hkind : t.kind = .caller packet receivers) (hrest : t.rest = .ret (.returned (.error err))) :
    ∃ q ∈ t.kind.entries, (q, .error err) ∈ p.shared.answers := by
  obtain ⟨before, q, after, hsplit, _, hanswer⟩ :=
    (caller_result hr ht hkind hrest).2.first_failed
  exact ⟨q, hsplit ▸ List.mem_append_right _ List.mem_cons_self, hanswer⟩

/-- **WHERE AN ERROR COMES FROM**: what a caller returns is explained by an id of its own that
    collided or an inner call for a request of its own. -/
theorem caller_error (hr : (batchSystem b).Reachable (BatchStart b) p) {t : BatchTask}
    (ht : t ∈ p.tasks) {packet : RequestPacket} {receivers : List Channel} {err : TransportError}
    (hkind : t.kind = .caller packet receivers) (hrest : t.rest = .ret (.returned (.error err))) :
    ∃ request ∈ packet.requests, Explained b.display (FailedCall b p.shared) request err := by
  obtain ⟨q, hq, hanswer⟩ := caller_answered hr ht hkind hrest
  rw [hkind, TaskKind.entries, ← List.map_uncurry_zip_eq_zipWith] at hq
  obtain ⟨⟨request, rx⟩, hzip, rfl⟩ := List.mem_map.mp hq
  exact ⟨request, (List.of_mem_zip hzip).1, answers_explained hr _ err hanswer⟩

end Callers

end TransportBalancer.Batching
