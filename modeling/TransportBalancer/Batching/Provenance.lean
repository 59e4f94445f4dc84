/-
  File:      TransportBalancer/Batching/Provenance.lean
  Subject:   WHERE AN ANSWER COMES FROM, over any inner service: a response is the reply to the
             request's own call, or one under its id in the reply to a batch with it.

  * `Source` -- the results a request may be answered with, given the inner replies there were;
  * `sourceProtocol` -- a task answers an entry only from an inner reply it has had;
  * `answers_sourced` -- every answer of a reachable pool has its source;
  * **`caller_sourced`** -- so has everything a caller returns, in the order of its own requests.
-/
import TransportBalancer.Batching.Answers
import TransportBalancer.Batching.Errors
import TransportBalancer.Batching.Amplification

namespace TransportBalancer.Batching

open Interaction TaskPool

/-- **The results a request may be answered with**, `replied` being the inner replies and `clash`
    the ids that come more than once. -/
inductive Source (display : TransportError → String) (replied : RequestPacket → RpcResult → Prop)
    (clash : Id → Prop) (request : SerializedRequest) : RpcResult → Prop
  /-- Its id came again in its chunk. -/
  | collided : clash request.id → Source display replied clash request (.error duplicateIdError)
  /-- The reply to the request alone, whatever it is. -/
  | alone {result : RpcResult} :
      replied (.single request) result → Source display replied clash request result
  /-- A response under its id in the reply to a batch with it. -/
  | matched {rs : List SerializedRequest} {reply : ResponsePacket} {response : Response} :
      replied (.batch rs) (.ok reply) → request ∈ rs → response ∈ replyResponses reply →
        response.id = request.id → Source display replied clash request (.ok (.single response))
  /-- A batch with it failed. -/
  | failed {rs : List SerializedRequest} {err : TransportError} :
      replied (.batch rs) (.error err) → request ∈ rs →
        Source display replied clash request (.error (batchError display err))

theorem Source.mono {display : TransportError → String}
    {replied replied' : RequestPacket → RpcResult → Prop} {clash clash' : Id → Prop}
    {request : SerializedRequest} {result : RpcResult}
    (h : Source display replied clash request result)
    (hreplied : ∀ packet result, replied packet result → replied' packet result)
    (hclash : ∀ id, clash id → clash' id) : Source display replied' clash' request result := by
  cases h with
  | collided h => exact .collided (hclash _ h)
  | alone h => exact .alone (hreplied _ _ h)
  | matched h hmem hresponse hid => exact .matched (hreplied _ _ h) hmem hresponse hid
  | failed h hmem => exact .failed (hreplied _ _ h) hmem

/-! ## 1. The programs -/

section Programs

variable {config : BatchingConfig} {display : TransportError → String} {own : List PendingRequest}

/-- The id comes more than once. -/
def Clash (entries : List PendingRequest) (id : Id) : Prop := 2 ≤ (ids entries).count id

/-- The replies of a history. -/
def CallHistory.replied (history : CallHistory) (packet : RequestPacket) (result : RpcResult) :
    Prop :=
  (packet, result) ∈ history

/-- **The source protocol** of a task that owns some entries. -/
def sourceProtocol (display : TransportError → String) (own : List PendingRequest) :
    Protocol BatchSig CallHistory where
  ok history e :=
    match e with
    | .send p result => Source display history.replied (Clash own) p.request result
    | .spawn task => task.entries ⊆ own
    | _ => True
  admits _ e r :=
    match e, r with
    | .iterate entries, order => order.Perm entries
    | _, _ => True
  next history e r :=
    match e, r with
    | .innerCall packet, result => (packet, result) :: history
    | _, _ => history

theorem Clash.mono {entries entries' : List PendingRequest} (h : entries.Subperm entries') {id : Id}
    (hclash : Clash entries id) : Clash entries' id := by
  obtain ⟨l, hperm, hsub⟩ := h
  unfold Clash at hclash ⊢
  rw [← (ids_perm hperm).count_eq] at hclash
  exact hclash.trans ((hsub.map _).count_le id)

/-- An entry pushed out of the map has its id once more among those to come and those held. -/
theorem clash_of_insert {p prev : PendingRequest} {rest : List PendingRequest} {o : Outstanding}
    (h : (o.insert p).1 = some prev) : Clash (p :: rest ++ o.values) prev.request.id := by
  have hremove : (o.remove p.request.id).1 = some prev := h
  have hprev : prev ∈ o.values := by
    rw [(o.remove_perm p.request.id).mem_iff, hremove]
    exact List.mem_cons_self
  have hpos : 0 < (ids (rest ++ o.values)).count prev.request.id :=
    List.count_pos_iff.mpr (List.mem_map_of_mem (List.mem_append_right rest hprev))
  unfold Clash
  show 2 ≤ (p.request.id :: ids (rest ++ o.values)).count prev.request.id
  rw [Outstanding.remove_id hremove] at hpos ⊢
  rw [List.count_cons_self]
  omega

/-- The map is built of entries of the task; what it pushes out has a clashing id. -/
theorem insertAll_sources (pending : List PendingRequest) (o : Outstanding) (history : CallHistory)
    (h : (pending ++ o.values).Subperm own) :
    (insertAll pending o).Follows (sourceProtocol display own) history fun _ o' =>
      o'.values ⊆ own := by
  induction pending generalizing o with
  | nil => exact h.subset
  | cons p rest ih =>
    have hperm := o.insert_perm p
    have hrest : (rest ++ (o.insert p).2.values).Subperm own := by
      have hsub : (o.insert p).2.values.Subperm (p :: o.values) :=
        (List.sublist_append_right _ _).subperm.trans hperm.symm.subperm
      exact ((List.subperm_append_left rest).mpr hsub).trans
        (List.perm_middle.subperm.trans h)
    unfold insertAll
    split
    · rename_i prev o' hinsert
      rw [hinsert] at hrest
      exact ⟨.collided ((clash_of_insert (congrArg Prod.fst hinsert)).mono h),
        fun _ _ => ih o' hrest⟩
    · rename_i o' hinsert
      rw [hinsert] at hrest
      exact ih o' hrest

theorem spawnAll_sources (semaphore : Nat) (entries : List PendingRequest) (history : CallHistory)
    (h : entries ⊆ own) :
    (spawnAll semaphore entries).Follows (sourceProtocol display own) history
      fun _ _ => True := by
  induction entries with
  | nil => trivial
  | cons p rest ih =>
    obtain ⟨hp, hrest⟩ := List.cons_subset.mp h
    exact ⟨List.cons_subset.mpr ⟨hp, List.nil_subset _⟩, fun _ _ => ih hrest⟩

theorem fallBack_sources (o : Outstanding) (history : CallHistory) (h : o.values ⊆ own) :
    (fallBack o).Follows (sourceProtocol display own) history fun _ _ => True :=
  ⟨trivial, fun _ _ => ⟨trivial, fun order horder =>
    spawnAll_sources _ order history fun _ hq => h (List.Perm.subset horder hq)⟩⟩

/-- **Matching a reply** answers requests of the batch with responses of the reply. -/
theorem matchResponses_sources {rs : List SerializedRequest} {reply : ResponsePacket}
    {history : CallHistory} (hreply : (.batch rs, .ok reply) ∈ history) (responses : List Response)
    (o : Outstanding) (hresponses : responses ⊆ replyResponses reply)
    (hsent : requestsOf o.values ⊆ rs) (hown : o.values ⊆ own) :
    (matchResponses responses o).Follows (sourceProtocol display own) history fun _ o' =>
      o'.values ⊆ own := by
  induction responses generalizing o with
  | nil => exact hown
  | cons response rest ih =>
    obtain ⟨hresponse, hrest⟩ := List.cons_subset.mp hresponses
    have hperm := o.remove_perm response.id
    have hkept : (o.remove response.id).2.values ⊆ o.values := fun q hq =>
      hperm.mem_iff.mpr (List.mem_append_right _ hq)
    have hih := ih (o.remove response.id).2 hrest
      (List.Subset.trans (List.map_subset _ hkept) hsent) (List.Subset.trans hkept hown)
    unfold matchResponses
    split
    · rename_i p o' hremove
      rw [hremove] at hperm hih
      have hp : p.request ∈ rs := hsent (List.mem_map_of_mem (hperm.mem_iff.mpr List.mem_cons_self))
      have hid : p.request.id = response.id := Outstanding.remove_id (congrArg Prod.fst hremove)
      exact ⟨.matched hreply hp hresponse hid.symm, fun _ _ => hih⟩
    · rename_i o' hremove
      rw [hremove] at hih
      exact hih

theorem failAll_sources {rs : List SerializedRequest} {err : TransportError} {history : CallHistory}
    (hreply : (.batch rs, .error err) ∈ history) (entries : List PendingRequest)
    (hsent : requestsOf entries ⊆ rs) :
    (failAll ("batch request failed: " ++ display err) entries).Follows
      (sourceProtocol display own) history fun _ _ => True := by
  induction entries with
  | nil => trivial
  | cons p rest ih =>
    obtain ⟨hp, hrest⟩ := List.cons_subset.mp hsent
    exact ⟨.failed hreply hp, fun _ _ => ih hrest⟩

/-- **The loop over the attempts** answers from the reply it has just had. -/
theorem attempts_sources (o : Outstanding) (history : CallHistory) (hown : o.values ⊆ own) :
    (attempts config display (config.maxMissingRetries + 1) 0 o).Follows
      (sourceProtocol display own) history fun _ _ => True := by
  refine attempts_rule (Q := fun _ => True) (I := fun _ o _ => o.values ⊆ own)
    (fun _ _ _ _ _ => trivial) (fun o history h => fallBack_sources o history h)
    (fun attempt o history hown _ _ =>
      ⟨trivial, fun order horder => ⟨trivial, fun reply _ => ?_⟩⟩) _
    (Nat.zero_add _) hown
  have hperm : order.Perm o.values := horder
  cases reply with
  | ok resp =>
    have hsent : requestsOf o.values ⊆ requestsOf order := List.map_subset _ hperm.symm.subset
    refine (matchResponses_sources List.mem_cons_self (replyResponses resp) o
      (List.Subset.refl _) hsent hown).mono fun _ o' h => ?_
    exact ⟨fun _ => h, fun _ => rejectBatch_rule
      (fun _ => ⟨trivial, fun _ _ => fallBack_sources o' _ h⟩) fun _ => fallBack_sources o' _ h⟩
  | error err =>
    refine ⟨trivial, fun order' horder' => ?_⟩
    have hperm' : order'.Perm o.values := horder'
    exact failAll_sources List.mem_cons_self order'
      (List.map_subset _ (hperm'.trans hperm.symm).subset)

/-- A request sent alone is answered with the reply to it. -/
theorem sendSingle_sources (p : PendingRequest) (history : CallHistory) :
    (sendSingle p).Follows (sourceProtocol display own) history fun _ _ => True :=
  ⟨trivial, fun _ _ => ⟨.alone List.mem_cons_self, fun _ _ => trivial⟩⟩

/-- **A spawned task** answers from the inner replies it has had. -/
theorem workerTask_sources (b : BatchingTransport) (task : SpawnedTask) :
    (workerTask b task).rest.Follows (sourceProtocol b.display task.entries) []
      fun _ _ => True := by
  have hprogram : (task.program b.config.toBatchingConfig b.display).Follows
      (sourceProtocol b.display task.entries) [] fun _ _ => True := by
    cases task with
    | single p => exact sendSingle_sources p []
    | chunk pending =>
      have hown : (pending ++ Outstanding.empty.values).Subperm pending := by
        rw [show Outstanding.empty.values = [] from rfl, List.append_nil]
      exact (insertAll_sources pending .empty [] hown).bind fun history o ho =>
        attempts_sources o history ho
    | individual semaphore p =>
      exact ⟨trivial, fun _ _ => (sendSingle_sources p []).bind fun _ _ _ =>
        ⟨trivial, fun _ _ => trivial⟩⟩
  exact hprogram.bind fun _ _ _ => trivial

end Programs

/-! ## 2. Every answer has its source -/

section Tasks

variable {b : BatchingTransport} {p p' : Pool BatchingShared BatchTask}

/-- An inner reply there was. -/
def BatchingShared.Replied (b : BatchingTransport) (s : BatchingShared) (packet : RequestPacket)
    (result : RpcResult) : Prop :=
  packet ∈ s.calls ∧ b.inner packet result

/-- **What a request may be answered with** after all that has been called and pushed. -/
def BatchingShared.Sourced (b : BatchingTransport) (s : BatchingShared) :
    SerializedRequest → RpcResult → Prop :=
  Source b.display (s.Replied b) (Clash s.entries)

theorem sourced_grow {w : Actor} (hs : (batchSystem b).Step p w p') {request : SerializedRequest}
    {result : RpcResult} (h : p.shared.Sourced b request result) :
    p'.shared.Sourced b request result :=
  h.mono (fun _ _ h => ⟨(step_grows hs).calls h.1, h.2⟩) fun _ h =>
    h.mono (step_grows hs).entries.sublist.subperm

/-- **What is known of a spawned task**: its entries were pushed, it has had the replies it
    remembers, and it answers from them. -/
structure SourcesOk (b : BatchingTransport) (s : BatchingShared) (t : BatchTask)
    (own : List PendingRequest) (history : CallHistory) : Prop where
  pushed : own.Subperm s.entries
  replied : ∀ packet result, history.replied packet result → s.Replied b packet result
  follows : t.rest.Follows (sourceProtocol b.display own) history fun _ _ => True

/-- A spawned task, of which this is known. -/
def BatchTask.AnswersFromSource (b : BatchingTransport) (s : BatchingShared) (t : BatchTask) :
    Prop :=
  ∀ task, t.kind = .worker task → ∃ history, SourcesOk b s t task.entries history

theorem SourcesOk.grow {w : Actor} (hs : (batchSystem b).Step p w p') {t : BatchTask}
    {own : List PendingRequest} {history : CallHistory} (h : SourcesOk b p.shared t own history) :
    SourcesOk b p'.shared t own history where
  pushed := h.pushed.trans (step_grows hs).entries.sublist.subperm
  replied packet result hreplied :=
    have hold := h.replied packet result hreplied
    ⟨(step_grows hs).calls hold.1, hold.2⟩
  follows := h.follows

/-- What a task owns was pushed, each entry for itself. -/
theorem owned_le (hr : (batchSystem b).Reachable (BatchStart b) p) {t : BatchTask}
    (ht : t ∈ p.tasks) : t.ledger.owned ≤ (p.shared.entries : Multiset PendingRequest) := by
  refine Multiset.le_iff_count.mpr fun q => ?_
  have hconserved := entries_conserved hr q
  have howned : t.ledger.owned.count q ≤ p.total (fun t => t.ledger.owned.count q) :=
    List.single_le_sum (fun _ _ => Nat.zero_le _) _ (List.mem_map_of_mem ht)
  rw [Multiset.coe_count]
  omega

/-- **A task is spawned with pushed entries**, each for itself. -/
theorem spawned_subperm (hr : (batchSystem b).Reachable (BatchStart b) p) {t : BatchTask}
    (ht : t ∈ p.tasks) (hsource : t.AnswersFromSource b p.shared) {task : SpawnedTask}
    {k : Unit → Program BatchSig TaskEnd} (hrest : t.rest = .op (.spawn task) k) :
    task.entries.Subperm p.shared.entries := by
  cases hkind : t.kind with
  | caller => cases caller_op hr ht (by rw [hkind]; rfl) hrest
  | worker own =>
    obtain ⟨semaphore, q, rfl⟩ := worker_spawns hr ht hkind hrest
    obtain ⟨history, hok⟩ := hsource _ hkind
    have hfollows := hok.follows
    rw [hrest] at hfollows
    exact List.singleton_subperm_iff.mpr (hok.pushed.subset (hfollows.1 List.mem_cons_self))
  | flush =>
    obtain ⟨g, hat, hmay⟩ := flush_may hr ht hkind hrest
    cases g with
    | dispatching remaining =>
      obtain ⟨_, rfl⟩ := hmay
      have hle := owned_le hr ht
      rw [hat.ledger] at hle
      rw [chunkTask_entries]
      exact (List.take_sublist _ remaining).subperm.trans (Multiset.coe_le.mp hle)
    | _ => exact hmay.elim

theorem answersFromSource_step (hr : (batchSystem b).Reachable (BatchStart b) p) {w : Actor}
    (hs : (batchSystem b).Step p w p') {t t' : BatchTask} {new : List BatchTask} (ht : t ∈ p.tasks)
    (hsource : t.AnswersFromSource b p.shared) (hact : t.Step b p.shared p'.shared t' new) :
    t'.AnswersFromSource b p'.shared ∧ ∀ n ∈ new, n.AnswersFromSource b p'.shared := by
  have hentries := (step_grows hs).entries.sublist.subperm
  refine ⟨fun task hkind' => ?_, fun n hn _ hkind' => ?_⟩
  · cases hkind : t.kind with
    | caller =>
      obtain ⟨_, hkind''⟩ := caller_stays hact hkind
      rw [hkind''] at hkind'
      cases hkind'
    | flush =>
      obtain ⟨g, hat, _⟩ := flush_ok hr ht hkind
      obtain ⟨_, _, hat'⟩ := hat.step hact
      rw [hat'.kind] at hkind'
      cases hkind'
    | worker own =>
      obtain rfl : own = task :=
        TaskKind.worker.inj ((worker_stays hact hkind).symm.trans hkind')
      obtain ⟨history, hok⟩ := hsource own hkind
      have hgrown := hok.grow hs
      have hfollows := hok.follows
      generalize p'.shared = s' at hact hgrown ⊢
      cases hact with
      | @effect e k r _ hrest heff =>
        rw [hrest] at hfollows
        cases e with
        | innerCall packet =>
          refine ⟨(packet, r) :: history, hgrown.pushed, fun packet' result h => ?_,
            hfollows.2 r trivial⟩
          rcases List.mem_cons.mp h with h | h
          · cases h
            obtain ⟨hinner, rfl⟩ := heff
            exact ⟨List.mem_append_right _ (List.mem_singleton_self packet), hinner⟩
          · exact hgrown.replied packet' result h
        | iterate => exact ⟨history, hgrown.pushed, hgrown.replied, hfollows.2 r heff.1⟩
        | _ => exact ⟨history, hgrown.pushed, hgrown.replied, hfollows.2 r trivial⟩
      | turn hflush =>
        rw [hflush] at hkind
        cases hkind
      | cancel hcaller =>
        rw [hcaller] at hkind
        cases hkind
  · obtain ⟨task, rfl, k, hrest⟩ := new_workers hact n hn
    obtain rfl := TaskKind.worker.inj hkind'
    exact ⟨[], (spawned_subperm hr ht hsource hrest).trans hentries, nofun,
      workerTask_sources b task⟩

/-- **On every reachable pool** a spawned task answers from the replies it has had. -/
theorem tasks_answerFromSource (hr : (batchSystem b).Reachable (BatchStart b) p) :
    ∀ t ∈ p.tasks, t.AnswersFromSource b p.shared := by
  refine System.Reachable.localInv (I := fun s t => t.AnswersFromSource b s)
    (fun p hp t ht => ?_)
    (fun hr hs ht hsource hact => answersFromSource_step hr hs ht hsource hact) (fun _ ha => ?_)
    (fun _ hs hsource task hkind => ?_) hr
  · rw [hp.only_flush ht]
    exact nofun
  · obtain ⟨_, _, packet, rfl⟩ := ha
    exact nofun
  · obtain ⟨history, hok⟩ := hsource task hkind
    exact ⟨history, hok.grow hs⟩

/-- What is being sent has its source. -/
theorem sent_sourced (hr : (batchSystem b).Reachable (BatchStart b) p) {t : BatchTask}
    (ht : t ∈ p.tasks) {q : PendingRequest} {result : RpcResult}
    {k : Unit → Program BatchSig TaskEnd} (hrest : t.rest = .op (.send q result) k) :
    p.shared.Sourced b q.request result := by
  cases hkind : t.kind with
  | caller => cases caller_op hr ht (by rw [hkind]; rfl) hrest
  | worker task =>
    obtain ⟨history, hok⟩ := tasks_answerFromSource hr t ht task hkind
    have hfollows := hok.follows
    rw [hrest] at hfollows
    exact hfollows.1.mono hok.replied fun _ h => h.mono hok.pushed
  | flush =>
    obtain ⟨g, _, hmay⟩ := flush_may hr ht hkind hrest
    cases g <;> exact hmay.elim

/-- **EVERY ANSWER HAS ITS SOURCE**, in every reachable pool and over any inner service. -/
theorem answers_sourced (hr : (batchSystem b).Reachable (BatchStart b) p) :
    ∀ a ∈ p.shared.answers, p.shared.Sourced b a.1.request a.2 := by
  induction hr with
  | start hp =>
    rw [hp.answers]
    exact nofun
  | @step p p' w hr hs ih =>
    have hold : ∀ a ∈ p.shared.answers, p'.shared.Sourced b a.1.request a.2 :=
      fun a ha => sourced_grow hs (ih a ha)
    have hsend : ∀ t ∈ p.tasks, ∀ q result k, t.rest = .op (.send q result) k →
        p'.shared.Sourced b q.request result :=
      fun t ht q result k hrest => sourced_grow hs (sent_sourced hr ht hrest)
    cases hs with
    | @act s s' l r new t t' h =>
      intro a ha
      rcases answers_step h with hsame | ⟨q, result, k, hrest, hnew⟩
      · exact hold a (hsame ▸ ha)
      · rw [hnew] at ha
        rcases List.mem_append.mp ha with ha | ha
        · exact hold a ha
        · rw [List.mem_singleton.mp ha]
          exact hsend t (by simp) q result k hrest
    | @env s s' ts h =>
      cases h with
      | tick | cloned => exact hold
      | dropped => exact fun a ha => hold a ((dropShared_answers s) ▸ ha)
    | arrive h =>
      obtain ⟨_, rfl, _⟩ := h
      exact hold

end Tasks

/-! ## 3. What a caller returns -/

/-- **A CALLER RETURNS ONLY WHAT THE INNER SERVICE REPLIED TO ITS OWN REQUESTS.** In every reachable
    pool, over any inner service, a caller that was not cancelled has returned, for each of its
    requests in its own order, a result that has its source. -/
theorem caller_sourced {b : BatchingTransport} {p : Pool BatchingShared BatchTask}
    (hr : (batchSystem b).Reachable (BatchStart b) p) {t : BatchTask} (ht : t ∈ p.tasks)
    {packet : RequestPacket} {receivers : List Channel} {result : RpcResult}
    (hkind : t.kind = .caller packet receivers) (hrest : t.rest = .ret (.returned result)) :
    PacketResult (p.shared.Sourced b) packet result :=
  caller_packetResult hr ht hkind hrest (answers_sourced hr)

/-- What a caller has returned. -/
def BatchTask.callResult (t : BatchTask) : Option (RequestPacket × RpcResult) :=
  match t.kind, t.rest with
  | .caller packet _, .ret (.returned result) => some (packet, result)
  | _, _ => none

/-- A batch of which one request is answered in a batch and one alone. -/
theorem caller_sourced_lossy : ∃ p, (batchSystem lossyTransport).Reachable
    (BatchStart lossyTransport) p ∧
      PacketResult (p.shared.Sourced lossyTransport)
        (.batch [⟨.number 2, "b"⟩, ⟨.number 3, "c"⟩])
        (.ok (.batch [⟨.number 2, .success "b"⟩, ⟨.number 3, .success "c"⟩])) := by
  obtain ⟨p, hr, hp⟩ := observed_reachable lossy_mayReply lossySchedule
    (fun p => p.tasks[2]?.bind BatchTask.callResult)
    (a := some (.batch [⟨.number 2, "b"⟩, ⟨.number 3, "c"⟩],
      .ok (.batch [⟨.number 2, .success "b"⟩, ⟨.number 3, .success "c"⟩]))) (by rfl)
  obtain ⟨t, ht, hresult⟩ := Option.bind_eq_some_iff.mp hp
  have hmem := List.mem_of_getElem? ht
  unfold BatchTask.callResult at hresult
  split at hresult
  · rename_i packet receivers result hkind hrest
    cases hresult
    exact ⟨p, hr, caller_sourced hr hmem hkind hrest⟩
  · cases hresult

end TransportBalancer.Batching
