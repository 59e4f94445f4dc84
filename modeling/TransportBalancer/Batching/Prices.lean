/-
  File:      TransportBalancer/Batching/Prices.lean
  Subject:   WHAT THE INNER CALLS OF A TRANSPORT COST, each packet having a price, over whole runs:
             retries, rejections and fall-backs of all chunks together.

  * `payProtocol` -- a spawned task pays for the calls it makes and for the fall-back tasks it
    spawns; what the parts of a chunk's program pay;
  * `Pricing` -- a price for packets and the work that entries come to, such that a chunk can pay
    out of the work of its entries;
  * **`Pricing.paid`** -- the calls made cost no more than the work of what the callers pushed.
-/
import TransportBalancer.Batching.Chunk
import TransportBalancer.Batching.Requests

namespace TransportBalancer.Batching

open Interaction TaskPool

/-! ## 1. The programs -/

/-- **Paying as a protocol**: with `left` in its purse, a task pays for each call it makes, and for
    each task it spawns; it spawns fall-back tasks only. -/
def payProtocol (b : BatchingTransport) (price : RequestPacket → Nat) : Protocol BatchSig Nat where
  ok left e :=
    match e with
    | .innerCall packet => price packet ≤ left
    | .spawn task =>
      ∃ semaphore q, task = .individual semaphore q ∧ price (.single q.request) ≤ left
    | .enqueue _ => False
    | _ => True
  admits _ e answer :=
    match e, answer with
    | .innerCall packet, result => b.inner packet result
    | .iterate entries, order => order.Perm entries
    | _, _ => True
  next left e _ :=
    match e with
    | .innerCall packet => left - price packet
    | .spawn (.individual _ q) => left - price (.single q.request)
    | _ => left

/-- What it costs to send some entries one by one. -/
def singly (price : RequestPacket → Nat) (entries : List PendingRequest) : Nat :=
  (entries.map fun q => price (.single q.request)).sum

section Programs

variable {b : BatchingTransport} {price : RequestPacket → Nat} {left : Nat}

/-- Building the map costs nothing, and keeps entries that there were. -/
theorem insertAll_pays (pending : List PendingRequest) (o : Outstanding) :
    (insertAll pending o).Follows (payProtocol b price) left fun left' o' =>
      left' = left ∧ o'.values.Subperm (pending ++ o.values) := by
  induction pending generalizing o with
  | nil => exact ⟨rfl, .refl _⟩
  | cons p rest ih =>
    -- what `insert` leaves, it had or was given
    have hkept : (o.insert p).2.values.Subperm (p :: o.values) :=
      (List.sublist_append_right _ _).subperm.trans (o.insert_perm p).symm.subperm
    have hrest : (rest ++ (o.insert p).2.values).Subperm (p :: rest ++ o.values) :=
      ((List.subperm_append_left rest).mpr hkept).trans List.perm_middle.subperm
    unfold insertAll
    split
    · rename_i prev o' hinsert
      rw [hinsert] at hrest
      exact ⟨trivial, fun _ _ => (ih o').mono fun _ _ h => ⟨h.1, h.2.trans hrest⟩⟩
    · rename_i o' hinsert
      rw [hinsert] at hrest
      exact (ih o').mono fun _ _ h => ⟨h.1, h.2.trans hrest⟩

/-- Matching a reply costs nothing, and keeps entries that no response is for. -/
theorem matchResponses_pays (responses : List Response) (o : Outstanding) :
    (matchResponses responses o).Follows (payProtocol b price) left fun left' o' =>
      left' = left ∧ o'.values.Subperm o.values ∧
        ∀ q ∈ o'.values, q.request.id ∉ responses.map Response.id := by
  induction responses generalizing o with
  | nil => exact ⟨rfl, .refl _, fun _ _ => List.not_mem_nil⟩
  | cons response rest ih =>
    have hkept : (o.remove response.id).2.values.Subperm o.values :=
      (o.remove_rest response.id).subperm.trans List.filter_sublist.subperm
    have hother : ∀ q ∈ (o.remove response.id).2.values, q.request.id ≠ response.id := by
      intro q hq e
      have hid := List.mem_map_of_mem (f := fun p : PendingRequest => p.request.id) hq
      rw [e] at hid
      exact o.remove_ids response.id hid
    have hnext : ∀ {o' : Outstanding}, (o.remove response.id).2 = o' →
        (matchResponses rest o').Follows (payProtocol b price) left fun left' o'' =>
          left' = left ∧ o''.values.Subperm o.values ∧
            ∀ q ∈ o''.values, q.request.id ∉ (response :: rest).map Response.id := by
      rintro _ rfl
      refine (ih _).mono fun left' o'' h => ⟨h.1, h.2.1.trans hkept, fun q hq hid => ?_⟩
      rcases List.mem_cons.mp hid with hid | hid
      · exact hother q (h.2.1.subset hq) hid
      · exact h.2.2 q hq hid
    unfold matchResponses
    split
    · rename_i p o' hremove
      exact ⟨trivial, fun _ _ => hnext (congrArg Prod.snd hremove)⟩
    · rename_i o' hremove
      exact hnext (congrArg Prod.snd hremove)

/-- The failure of a batch costs nothing. -/
theorem failBatch_pays (display : TransportError → String) (err : TransportError)
    (o : Outstanding) :
    (failBatch display err o).Follows (payProtocol b price) left fun _ _ => True := by
  refine ⟨trivial, fun entries _ => ?_⟩
  have hfail : ∀ (msg : String) (entries : List PendingRequest),
      (failAll msg entries).Follows (payProtocol b price) left fun _ _ => True := by
    intro msg entries
    induction entries with
    | nil => trivial
    | cons p rest ih => exact ⟨trivial, fun _ _ => ih⟩
  exact hfail _ entries

theorem spawnAll_pays (semaphore : Nat) (entries : List PendingRequest)
    (h : singly price entries ≤ left) :
    (spawnAll semaphore entries).Follows (payProtocol b price) left fun _ _ => True := by
  induction entries generalizing left with
  | nil => trivial
  | cons q rest ih =>
    have hcons : singly price (q :: rest) = price (.single q.request) + singly price rest :=
      List.sum_cons
    refine ⟨⟨semaphore, q, rfl, by omega⟩, fun _ _ => ih ?_⟩
    show singly price rest ≤ left - price (.single q.request)
    omega

/-- The fall-back costs what it costs to send the entries one by one. -/
theorem fallBack_pays (o : Outstanding) (h : singly price o.values ≤ left) :
    (fallBack o).Follows (payProtocol b price) left fun _ _ => True := by
  refine ⟨trivial, fun semaphore _ => ⟨trivial, fun entries hentries => ?_⟩⟩
  have hperm : entries.Perm o.values := hentries
  exact spawnAll_pays semaphore entries ((hperm.map _).sum_eq.trans_le h)

/-- A task that sends one entry pays for that. -/
theorem single_pays (q : PendingRequest) :
    (workerTask b (.single q)).rest.Follows (payProtocol b price) (price (.single q.request))
      fun _ _ => True :=
  ⟨Nat.le_refl _, fun _ _ => ⟨trivial, fun _ _ => trivial⟩⟩

theorem individual_pays (semaphore : Nat) (q : PendingRequest) :
    (workerTask b (.individual semaphore q)).rest.Follows (payProtocol b price)
      (price (.single q.request)) fun _ _ => True :=
  ⟨trivial, fun _ _ => ⟨Nat.le_refl _, fun _ _ => ⟨trivial, fun _ _ =>
    ⟨trivial, fun _ _ => trivial⟩⟩⟩⟩

end Programs

/-! ## 2. Whole runs -/

/-- What the flush loop holds at a stage: drained and not sent off yet. -/
def FlushStage.held : FlushStage → List PendingRequest
  | .holding batch | .dispatching batch => batch
  | _ => []

/-- **A pricing**: what a packet costs, and the work that some entries come to; a chunk pays for all
    it does out of the work it takes off what is left to dispatch. -/
structure Pricing (b : BatchingTransport) where
  price : RequestPacket → Nat
  work : List PendingRequest → Nat
  empty : work [] = 0
  append : ∀ l l', work (l ++ l') ≤ work l + work l'
  chunk : ∀ {remaining}, remaining ≠ [] → ∃ n,
    (workerTask b (chunkTask (nextChunk b.config remaining))).rest.Follows (payProtocol b price) n
      (fun _ _ => True) ∧
    n + work (remaining.drop (nextChunk b.config remaining).length) ≤ work remaining

namespace Pricing

variable {b : BatchingTransport} (c : Pricing b) {s s' : BatchingShared} {t t' : BatchTask}
  {new : List BatchTask}

/-- What the calls made have cost, and the work in the queue. -/
def used (s : BatchingShared) : Nat := (s.calls.map c.price).sum + c.work s.pending

/-- The work of what a task has pushed. -/
def granted (t : BatchTask) : Nat := c.work t.kind.entries

/-- What an effect costs. -/
def cost : BatchOp → Nat
  | .innerCall packet => c.price packet
  | _ => 0

/-- `n` is enough for what a task and those it spawns have to pay. -/
def Pays (n : Nat) (t : BatchTask) : Prop :=
  match t.kind with
  | .flush => ∃ g, FlushAt b t g ∧ n = c.work g.held
  | .caller _ _ => n = 0
  | .worker _ => t.rest.Follows (payProtocol b c.price) n fun _ _ => True

/-- The purse a task is left with, and those of the tasks it spawns. -/
def PaidFor (s s' : BatchingShared) (n : Nat) (t t' : BatchTask) (new : List BatchTask) : Prop :=
  ∃ n' ns, c.Pays n' t' ∧ List.Forall₂ c.Pays ns new ∧
    c.used s' + n' + ns.sum + c.granted t ≤ c.used s + n + c.granted t'

theorem dropShared_used (s : BatchingShared) : c.used s.dropShared ≤ c.used s := by
  unfold used BatchingShared.dropShared
  split
  · dsimp only
    rw [c.empty]
    exact Nat.le_add_right _ _
  · exact Nat.le_refl _

/-- **An effect that is no push** adds no more than it costs. -/
theorem effect_used {e : BatchOp} {answer : BatchSig.Ans e} (h : Effect b s e answer s')
    (he : ∀ requests, e ≠ .enqueue requests) : c.used s' ≤ c.used s + c.cost e := by
  cases e with
  | enqueue requests => exact absurd rfl (he requests)
  | dropShared =>
    obtain rfl := h
    exact c.dropShared_used s
  | drain =>
    obtain ⟨_, rfl⟩ := h
    unfold used
    dsimp only
    rw [c.empty]
    exact Nat.add_le_add_left (Nat.zero_le _) _
  | innerCall packet =>
    obtain ⟨_, rfl⟩ := h
    simp only [used, cost, List.map_append, List.map_cons, List.map_nil, List.sum_append,
      List.sum_singleton]
    omega
  | notifyOne | spawn | onBatchRejection | send =>
    obtain rfl := h
    exact Nat.le_refl _
  | awaitResponse =>
    obtain ⟨rfl, _⟩ := h
    exact Nat.le_refl _
  | upgrade =>
    rcases h with ⟨_, _, rfl⟩ | ⟨_, _, rfl⟩ <;> exact Nat.le_refl _
  | waitNotified =>
    rcases h with ⟨_, rfl⟩ | ⟨_, rfl⟩ <;> exact Nat.le_refl _
  | beginWait | iterate | newSemaphore =>
    obtain ⟨_, rfl⟩ := h
    exact Nat.le_refl _
  | acquire | release =>
    obtain ⟨_, _, rfl⟩ := h
    exact Nat.le_refl _

/-- The flush loop moves what it drains on to the tasks it spawns. -/
theorem flush_paid {g : FlushStage} (hat : FlushAt b t g) (hs : t.Step b s s' t' new) :
    c.PaidFor s s' (c.work g.held) t t' new := by
  obtain ⟨g', hmove, hat'⟩ := hat.step hs
  have hpays : c.Pays (c.work g'.held) t' := by
    unfold Pays
    rw [hat'.kind]
    exact ⟨g', hat', rfl⟩
  have hgranted : c.granted t' = c.granted t := by
    unfold granted
    rw [hat'.kind, hat.kind]
  unfold PaidFor
  rw [hgranted]
  cases hmove with
  | upgrade | stop | beginWait | notified | timeout | again =>
    exact ⟨_, [], hpays, .nil, Nat.le_refl _⟩
  | drain =>
    refine ⟨_, [], hpays, .nil, ?_⟩
    simp only [used, FlushStage.held, c.empty, List.sum_nil]
    omega
  | @dropShared batch =>
    have hdrop := c.dropShared_used s
    refine ⟨_, [], hpays, .nil, ?_⟩
    simp only [FlushStage.held, List.sum_nil]
    omega
  | @spawn remaining hne =>
    obtain ⟨n, hchunk, hwork⟩ := c.chunk hne
    refine ⟨_, [n], hpays, .cons hchunk .nil, ?_⟩
    simp only [FlushStage.held, List.sum_singleton]
    omega

/-- A caller pays nothing; it is granted the work of what it pushes. -/
theorem caller_paid {p : Pool BatchingShared BatchTask}
    (hr : (batchSystem b).Reachable (BatchStart b) p) (ht : t ∈ p.tasks)
    {packet : RequestPacket} {receivers : List Channel} (hkind : t.kind = .caller packet receivers)
    (hs : t.Step b p.shared s' t' new) : c.PaidFor p.shared s' 0 t t' new := by
  have hpays : c.Pays 0 t' := by
    obtain ⟨receivers', hkind'⟩ := caller_stays hs hkind
    unfold Pays
    rw [hkind']
  cases hs with
  | @effect e k answer _ hrest heff =>
    obtain ⟨heard, hmay⟩ := caller_may hr ht hkind hrest
    cases e with
    | enqueue requests =>
      -- it has pushed nothing before
      obtain ⟨hview, rfl⟩ := hmay
      obtain ⟨rfl, _⟩ := CallerView.mk.inj hview
      obtain ⟨rfl, rfl⟩ := heff
      refine ⟨0, [], hpays, .nil, ?_⟩
      have happend := c.append p.shared.pending
        (BatchingShared.entriesFrom p.shared.nextChannel packet.requests)
      simp only [granted, hkind, TaskKind.next, TaskKind.entries, List.zipWith_nil_right, c.empty,
        ← entriesFrom_eq, used, BatchingShared.enqueue, List.sum_nil]
      omega
    | notifyOne | awaitResponse | dropShared =>
      have hle := c.effect_used heff fun _ he => by cases he
      have hsame : c.granted ⟨t.kind.next _ answer, k answer, t.ledger.next _ answer⟩ =
          c.granted t := by
        unfold granted
        rw [hkind]
        rfl
      refine ⟨0, [], hpays, .nil, ?_⟩
      rw [hsame]
      exact Nat.add_le_add_right hle _
    | _ => exact hmay.elim
  | turn hflush =>
    rw [hkind] at hflush
    cases hflush
  | cancel => exact ⟨0, [], hpays, .nil, Nat.add_le_add_right (c.dropShared_used p.shared) _⟩

/-- A spawned task pays for what it calls and spawns. -/
theorem worker_paid {task : SpawnedTask} {n : Nat} (hkind : t.kind = .worker task)
    (h : t.rest.Follows (payProtocol b c.price) n fun _ _ => True) (hs : t.Step b s s' t' new) :
    c.PaidFor s s' n t t' new := by
  have hkind' := worker_stays hs hkind
  have hgranted : c.granted t' = c.granted t := by
    unfold granted
    rw [hkind', hkind]
  unfold PaidFor
  rw [hgranted]
  cases hs with
  | @effect e k answer _ hrest heff =>
    rw [hrest] at h
    obtain ⟨hok, hgo⟩ := h
    have hadmits : (payProtocol b c.price).admits n e answer := by
      cases e with
      | iterate | innerCall => exact heff.1
      | _ => trivial
    have hpays : c.Pays ((payProtocol b c.price).next n e answer)
        ⟨t.kind.next e answer, k answer, t.ledger.next e answer⟩ := by
      unfold Pays
      simp only at hkind' ⊢
      rw [hkind']
      exact hgo answer hadmits
    have hno : ∀ requests, e ≠ .enqueue requests := by
      rintro requests rfl
      exact hok
    have hle := c.effect_used heff hno
    cases e with
    | enqueue => exact hok.elim
    | spawn task' =>
      obtain ⟨semaphore, q, rfl, hleft⟩ := hok
      refine ⟨_, [_], hpays, .cons (individual_pays semaphore q) .nil, ?_⟩
      simp only [payProtocol, cost, List.sum_singleton] at hle ⊢
      omega
    | innerCall packet =>
      refine ⟨_, [], hpays, .nil, ?_⟩
      simp only [payProtocol, cost, List.sum_nil] at hok hle ⊢
      omega
    | _ =>
      refine ⟨_, [], hpays, .nil, ?_⟩
      simp only [payProtocol, cost, List.sum_nil] at hle ⊢
      omega
  | turn hflush =>
    rw [hkind] at hflush
    cases hflush
  | cancel hcaller =>
    rw [hkind] at hcaller
    cases hcaller

/-- **Every task can pay**, out of the work of what was pushed. -/
theorem budgeted {p : Pool BatchingShared BatchTask}
    (hr : (batchSystem b).Reachable (BatchStart b) p) :
    ∃ ns, List.Forall₂ c.Pays ns p.tasks ∧ c.used p.shared + ns.sum ≤ p.total c.granted := by
  refine System.Reachable.budgeted (fun p hp => ?_) (fun hr ht h hs => ?_) (fun he => ?_)
    (fun ha => ?_) hr
  · refine ⟨[0], ?_, ?_⟩
    · rw [hp.tasks]
      exact .cons ⟨.start, flushTask_at b, c.empty.symm⟩ .nil
    · unfold used
      rw [hp.calls, hp.pending, c.empty]
      exact Nat.zero_le _
  · rename_i t _ _ _
    unfold Pays at h
    cases hkind : t.kind with
    | flush =>
      rw [hkind] at h
      obtain ⟨g, hat, rfl⟩ := h
      exact c.flush_paid hat hs
    | caller =>
      rw [hkind] at h
      obtain rfl := h
      exact c.caller_paid hr ht hkind hs
    | worker =>
      rw [hkind] at h
      exact c.worker_paid hkind h hs
  · cases he with
    | tick | cloned => exact Nat.le_refl _
    | dropped => exact c.dropShared_used _
  · obtain ⟨_, rfl, packet, rfl⟩ := ha
    exact ⟨0, rfl, Nat.le_add_right _ _⟩

/-- **The calls made cost no more** than the work of what the callers have pushed. -/
theorem paid {p : Pool BatchingShared BatchTask}
    (hr : (batchSystem b).Reachable (BatchStart b) p) :
    (p.shared.calls.map c.price).sum ≤ p.total c.granted := by
  obtain ⟨ns, _, hle⟩ := c.budgeted hr
  unfold used at hle
  omega

/-- A spawned task spawns fall-back tasks only. -/
theorem worker_spawns (c : Pricing b) {p : Pool BatchingShared BatchTask}
    (hr : (batchSystem b).Reachable (BatchStart b) p) (ht : t ∈ p.tasks)
    {own task : SpawnedTask} (hkind : t.kind = .worker own) {k : Unit → Program BatchSig TaskEnd}
    (hrest : t.rest = .op (.spawn task) k) : ∃ semaphore q, task = .individual semaphore q := by
  obtain ⟨ns, hns, _⟩ := c.budgeted hr
  obtain ⟨l, u, htasks⟩ := List.append_of_mem ht
  rw [htasks] at hns
  obtain ⟨n, _, hn, _⟩ :=
    List.forall₂_cons_right_iff.mp (List.forall₂_drop_append ns l (t :: u) hns)
  unfold Pays at hn
  rw [hkind, hrest] at hn
  obtain ⟨semaphore, q, htask, _⟩ := hn.1
  exact ⟨semaphore, q, htask⟩

end Pricing

end TransportBalancer.Batching
