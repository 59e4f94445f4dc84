/-
  File:      TransportBalancer/Batching/Budgets.lean
  Subject:   WHAT IS LEFT TO DO. Every caller and every spawned task keeps within a budget fixed at
             its start, and nothing but a new call adds to what all of them have left.

  * `budget` -- what each effect costs, as a protocol; `attempts_budget`: the loop over the attempts
    keeps within it whatever the inner service answers;
  * `permits_conserved` -- the free permits of a semaphore and those held are all it has;
  * **`workLeft_le`**, `workLeft_lt` -- the budgets of the tasks and of the queued entries together
    never grow, and shrink with every step but the idle ones of the flush loop.
-/
import Mathlib.Order.Lattice.Nat
import TransportBalancer.Batching.Requests
import TransportBalancer.Lib.Path

namespace TransportBalancer.Batching

open Interaction TaskPool

/-! ## 1. Budgets -/

/-- The effects of the flush loop alone. -/
def BatchOp.ofFlush : BatchOp → Bool
  | .upgrade | .beginWait | .waitNotified _ | .drain => true
  | _ => false

section Budgets

variable (config : BatchingConfig)

/-- What the loop over the attempts costs besides its entries. -/
def attemptsWeight (left : Nat) : Nat := 2 * left + 3

/-- A bound on the effects of a spawned task and of the tasks it spawns. -/
def SpawnedTask.weight : SpawnedTask → Nat
  | .single _ => 2
  | .individual _ _ => 4
  | .chunk pending => attemptsWeight (config.maxMissingRetries + 1) + 5 * pending.length

/-- What a queued entry costs: at worst it makes a chunk of its own. -/
def entryWeight : Nat := attemptsWeight (config.maxMissingRetries + 1) + 6

/-- What an effect costs: itself, with all it leaves to do for others. -/
def BatchOp.cost : BatchOp → Nat
  | .enqueue requests => 1 + requests.length * entryWeight config
  | .spawn task => 1 + task.weight config
  | _ => 1

/-- The semaphores an effect names. -/
def BatchOp.semaphores : BatchOp → List Nat
  | .acquire semaphore | .spawn (.individual semaphore _) => [semaphore]
  | _ => []

/-- What a task has left to spend, and the semaphores it knows. -/
structure Budget where
  left : Nat
  semaphores : List Nat

/-- **Budgets as a protocol**: an effect is paid for out of what is left, and names semaphores that
    are known. -/
def budget : Protocol BatchSig Budget where
  ok γ e := e.ofFlush = false ∧ e.semaphores ⊆ γ.semaphores ∧ e.cost config ≤ γ.left
  admits _ e r :=
    match e, r with
    | .iterate entries, order => order.Perm entries
    | _, _ => True
  next γ e r := ⟨γ.left - e.cost config,
    match e, r with
    | .newSemaphore _, semaphore => semaphore :: γ.semaphores
    | _, _ => γ.semaphores⟩

variable {config} {γ : Budget}

theorem insertAll_budget (c : Nat) (pending : List PendingRequest) (o : Outstanding)
    (h : c + 5 * (pending.length + o.values.length) ≤ γ.left) :
    (insertAll pending o).Follows (budget config) γ
      fun γ o' => c + 5 * o'.values.length ≤ γ.left := by
  induction pending generalizing γ o with
  | nil =>
    rw [List.length_nil, Nat.zero_add] at h
    exact h
  | cons p rest ih =>
    have hlength := (o.insert_perm p).length_eq
    rw [List.length_cons, List.length_append] at hlength
    rw [List.length_cons] at h
    unfold insertAll
    split
    · rename_i prev o' hinsert
      rw [hinsert] at hlength
      simp only [Option.toList, List.length_singleton] at hlength
      exact ⟨⟨rfl, List.nil_subset _, by simp only [BatchOp.cost]; omega⟩,
        fun _ _ => ih o' (by simp only [budget, BatchOp.cost]; omega)⟩
    · rename_i o' hinsert
      rw [hinsert] at hlength
      simp only [Option.toList, List.length_nil] at hlength
      exact ih o' (by omega)

theorem spawnAll_budget {semaphore : Nat} (entries : List PendingRequest)
    (hknown : semaphore ∈ γ.semaphores) (h : 5 * entries.length ≤ γ.left) :
    (spawnAll semaphore entries).Follows (budget config) γ fun _ _ => True := by
  induction entries generalizing γ with
  | nil => trivial
  | cons p rest ih =>
    rw [List.length_cons] at h
    exact ⟨⟨rfl, List.cons_subset.mpr ⟨hknown, List.nil_subset _⟩,
      by simp only [BatchOp.cost, SpawnedTask.weight]; omega⟩, fun _ _ => ih hknown
        (by simp only [budget, BatchOp.cost, SpawnedTask.weight]; omega)⟩

theorem fallBack_budget (o : Outstanding) (h : 2 + 5 * o.values.length ≤ γ.left) :
    (fallBack o).Follows (budget config) γ fun _ _ => True := by
  refine ⟨⟨rfl, List.nil_subset _, by simp only [BatchOp.cost]; omega⟩, fun semaphore _ =>
    ⟨⟨rfl, List.nil_subset _, by simp only [budget, BatchOp.cost]; omega⟩,
      fun entries hentries => ?_⟩⟩
  have hlength : entries.length = o.values.length := List.Perm.length_eq hentries
  exact spawnAll_budget entries List.mem_cons_self (by simp only [budget, BatchOp.cost]; omega)

theorem matchResponses_budget (c : Nat) (responses : List Response) (o : Outstanding)
    (h : c + 5 * o.values.length ≤ γ.left) :
    (matchResponses responses o).Follows (budget config) γ
      fun γ o' => c + 5 * o'.values.length ≤ γ.left := by
  induction responses generalizing γ o with
  | nil => exact h
  | cons response rest ih =>
    have hlength := (o.remove_perm response.id).length_eq
    rw [List.length_append] at hlength
    unfold matchResponses
    split
    · rename_i p o' hremove
      rw [hremove] at hlength
      simp only [Option.toList, List.length_singleton] at hlength
      exact ⟨⟨rfl, List.nil_subset _, by simp only [BatchOp.cost]; omega⟩,
        fun _ _ => ih o' (by simp only [budget, BatchOp.cost]; omega)⟩
    · rename_i o' hremove
      rw [hremove] at hlength
      simp only [Option.toList, List.length_nil] at hlength
      exact ih o' (by omega)

theorem failAll_budget (msg : String) (entries : List PendingRequest)
    (h : entries.length ≤ γ.left) :
    (failAll msg entries).Follows (budget config) γ fun _ _ => True := by
  induction entries generalizing γ with
  | nil => trivial
  | cons p rest ih =>
    rw [List.length_cons] at h
    exact ⟨⟨rfl, List.nil_subset _, by simp only [BatchOp.cost]; omega⟩,
      fun _ _ => ih (by simp only [budget, BatchOp.cost]; omega)⟩

/-- **The loop over the attempts** keeps within its budget. -/
theorem attempts_budget (display : TransportError → String) (o : Outstanding)
    (h : attemptsWeight (config.maxMissingRetries + 1) + 5 * o.values.length ≤ γ.left) :
    (attempts config display (config.maxMissingRetries + 1) 0 o).Follows (budget config) γ
      fun _ _ => True := by
  unfold attemptsWeight at h
  refine attempts_rule (Q := fun _ => True)
    (I := fun attempt o γ => attempt ≤ config.maxMissingRetries + 1 ∧
      2 * (config.maxMissingRetries + 1 - attempt) + 3 + 5 * o.values.length ≤ γ.left)
    (fun _ _ _ _ _ => trivial) (fun o γ h => fallBack_budget o (by omega))
    (fun attempt o γ h _ hattempt => ?_) _ (Nat.zero_add _) ⟨Nat.zero_le _, h⟩
  refine ⟨⟨rfl, List.nil_subset _, by simp only [BatchOp.cost]; omega⟩, fun entries _ =>
    ⟨⟨rfl, List.nil_subset _, by simp only [budget, BatchOp.cost]; omega⟩, fun reply _ => ?_⟩⟩
  cases reply with
  | ok resp =>
    refine (matchResponses_budget (2 * (config.maxMissingRetries - attempt) + 3)
      (replyResponses resp) o (by simp only [budget, BatchOp.cost]; omega)).mono fun γ o' h' => ?_
    refine ⟨fun _ => ⟨by omega, by omega⟩, fun _ => rejectBatch_rule (fun _ => ?_) fun _ => ?_⟩
    · exact ⟨⟨rfl, List.nil_subset _, by simp only [BatchOp.cost]; omega⟩,
        fun _ _ => fallBack_budget o' (by simp only [budget, BatchOp.cost]; omega)⟩
    · exact fallBack_budget o' (by omega)
  | error err =>
    refine ⟨⟨rfl, List.nil_subset _, by simp only [budget, BatchOp.cost]; omega⟩,
      fun entries hentries => ?_⟩
    have hlength : entries.length = o.values.length := List.Perm.length_eq hentries
    exact failAll_budget _ entries (by simp only [budget, BatchOp.cost]; omega)

/-- The semaphores a spawned task knows at its start. -/
def SpawnedTask.semaphores : SpawnedTask → List Nat
  | .individual semaphore _ => [semaphore]
  | _ => []

/-- The budget of a spawned task. -/
def SpawnedTask.budget (config : BatchingConfig) (task : SpawnedTask) : Budget :=
  ⟨task.weight config, task.semaphores⟩

/-- **A spawned task** keeps within its budget. -/
theorem workerTask_budget (b : BatchingTransport) (task : SpawnedTask) :
    (workerTask b task).rest.Follows (budget b.config.toBatchingConfig)
      (task.budget b.config.toBatchingConfig) fun _ _ => True := by
  have hprogram : (task.program b.config.toBatchingConfig b.display).Follows
      (Batching.budget b.config.toBatchingConfig) (task.budget b.config.toBatchingConfig)
      fun _ _ => True := by
    cases task with
    | single p =>
      exact ⟨⟨rfl, List.nil_subset _, Nat.le_succ 1⟩, fun _ _ =>
        ⟨⟨rfl, List.nil_subset _, Nat.le_refl 1⟩, fun _ _ => trivial⟩⟩
    | chunk pending =>
      exact (insertAll_budget (attemptsWeight (b.config.maxMissingRetries + 1)) pending .empty
        (Nat.le_refl _)).bind fun γ o h => attempts_budget _ o h
    | individual semaphore p =>
      have h : 1 ≤ 4 ∧ 1 ≤ 3 ∧ 1 ≤ 2 := by decide
      exact ⟨⟨rfl, List.Subset.refl _, h.1⟩, fun _ _ => ⟨⟨rfl, List.nil_subset _, h.2.1⟩, fun _ _ =>
        ⟨⟨rfl, List.nil_subset _, h.2.2⟩, fun _ _ => ⟨⟨rfl, List.nil_subset _, Nat.le_refl 1⟩,
          fun _ _ => trivial⟩⟩⟩⟩
  exact hprogram.bind fun _ _ _ => trivial

/-- What a call costs. -/
def callWeight (config : BatchingConfig) (packet : RequestPacket) : Nat :=
  3 + packet.requests.length * (entryWeight config + 1)

/-- **A caller** keeps within what its requests cost. -/
theorem callerTask_budget (packet : RequestPacket) :
    (callerTask packet).rest.Follows (budget config) ⟨callWeight config packet, []⟩
      fun _ _ => True := by
  have hcollect : ∀ (receivers : List Channel) (responses : List Response) (γ : Budget),
      1 + receivers.length ≤ γ.left →
      (collectResponses receivers responses).Follows (budget config) γ fun γ _ => 1 ≤ γ.left := by
    intro receivers
    induction receivers with
    | nil => exact fun _ _ h => h
    | cons rx receivers ih =>
      intro responses γ h
      rw [List.length_cons] at h
      refine ⟨⟨rfl, List.nil_subset _, by simp only [BatchOp.cost]; omega⟩, fun answer _ => ?_⟩
      have hleft : 1 + receivers.length ≤
          ((budget config).next γ (.awaitResponse rx) answer).left := by
        simp only [budget, BatchOp.cost]
        omega
      rcases answer with _ | (_ | (_ | _))
      · exact (Nat.le_add_right _ _).trans hleft
      · exact (Nat.le_add_right _ _).trans hleft
      · exact ih _ _ hleft
      · exact ih _ _ hleft
  have hreceive : ∀ (first : Channel) (γ : Budget), 1 + packet.requests.length ≤ γ.left →
      (receive packet first).Follows (budget config) γ fun γ _ => 1 ≤ γ.left := by
    intro first γ h
    cases packet with
    | single request =>
      simp only [RequestPacket.requests, List.length_singleton] at h
      exact ⟨⟨rfl, List.nil_subset _, by simp only [BatchOp.cost]; omega⟩,
        fun _ _ => show 1 ≤ γ.left - 1 by omega⟩
    | batch requests =>
      refine hcollect _ _ γ ?_
      rw [List.length_range']
      exact h
  have hcall : (call packet).Follows (budget config) ⟨callWeight config packet, []⟩
      fun _ _ => True := by
    unfold callWeight
    rw [Nat.mul_add, Nat.mul_one]
    refine ⟨⟨rfl, List.nil_subset _, by simp only [BatchOp.cost]; omega⟩, fun first _ =>
      ⟨⟨rfl, List.nil_subset _, by simp only [budget, BatchOp.cost]; omega⟩, fun _ _ => ?_⟩⟩
    refine (hreceive first _ (by simp only [budget, BatchOp.cost]; omega)).bind fun γ _ h => ?_
    exact ⟨⟨rfl, List.nil_subset _, h⟩, fun _ _ => trivial⟩
  exact hcall.bind fun _ _ _ => trivial

end Budgets

/-! ## 2. Semaphores -/

section Semaphores

variable {b : BatchingTransport} {p p' : Pool BatchingShared BatchTask}

/-- The free permits of a semaphore, and all it has. -/
def BatchingShared.free (s : BatchingShared) (k : Nat) : Nat := (s.semaphores[k]?).getD 0

def BatchingShared.capacity (s : BatchingShared) (k : Nat) : Nat :=
  if k < s.semaphores.length then individualFallbackConcurrency else 0

/-- The effects on semaphores. -/
def BatchOp.onSemaphore : BatchOp → Bool
  | .newSemaphore _ | .acquire _ | .release _ => true
  | _ => false

@[simp] theorem dropShared_semaphores (s : BatchingShared) :
    s.dropShared.semaphores = s.semaphores := by
  unfold BatchingShared.dropShared
  split <;> rfl

theorem effect_frame_semaphores {s s' : BatchingShared} {e : BatchOp} {r : BatchSig.Ans e}
    (h : Effect b s e r s') (he : e.onSemaphore = false) : s'.semaphores = s.semaphores := by
  cases e with
  | newSemaphore | acquire | release => cases he
  | dropShared =>
    obtain rfl := h
    exact dropShared_semaphores s
  | notifyOne | spawn | send | onBatchRejection =>
    obtain rfl := h
    rfl
  | awaitResponse =>
    obtain ⟨rfl, _⟩ := h
    rfl
  | upgrade =>
    rcases h with ⟨_, _, rfl⟩ | ⟨_, _, rfl⟩ <;> rfl
  | waitNotified =>
    rcases h with ⟨_, rfl⟩ | ⟨_, _, rfl⟩ <;> rfl
  | enqueue | beginWait | drain | innerCall | iterate =>
    obtain ⟨_, rfl⟩ := h
    rfl

/-- An effect moves permits between a semaphore and the acting task. -/
theorem effect_permits {s s' : BatchingShared} {e : BatchOp} {r : BatchSig.Ans e} {l : Ledger}
    {caller : Bool} (h : Effect b s e r s') (hok : (ledgerProtocol caller).ok l e) (k : Nat) :
    s'.free k + (l.next e r).permits.count k + s.capacity k =
      s.free k + l.permits.count k + s'.capacity k := by
  have hframe : e.onSemaphore = false → (l.next e r).permits = l.permits →
      s'.free k + (l.next e r).permits.count k + s.capacity k =
        s.free k + l.permits.count k + s'.capacity k := fun he hl => by
    unfold BatchingShared.free BatchingShared.capacity
    rw [effect_frame_semaphores h he, hl]
  cases e with
  | newSemaphore permits =>
    obtain ⟨rfl, rfl⟩ := h
    obtain rfl := hok
    simp only [BatchingShared.free, BatchingShared.capacity, Ledger.next, List.length_append,
      List.length_singleton, List.getElem?_append]
    rcases Nat.lt_trichotomy k s.semaphores.length with hk | rfl | hk
    · simp [hk, Nat.lt_succ_of_lt hk]
    · simp
      omega
    · have : ¬ k < s.semaphores.length + 1 := by omega
      have hge : s.semaphores.length ≤ k := by omega
      have hnone : ([individualFallbackConcurrency] : List Nat)[k - s.semaphores.length]? = none :=
        List.getElem?_eq_none (by simp; omega)
      simp [this, Nat.not_lt.mpr hge, hnone]
  | acquire semaphore =>
    obtain ⟨free, hfree, rfl⟩ := h
    obtain ⟨hlt, hval⟩ := List.getElem?_eq_some_iff.mp hfree
    simp only [BatchingShared.free, BatchingShared.capacity, Ledger.next, List.length_set,
      List.getElem?_set, Multiset.count_cons]
    by_cases hk : semaphore = k
    · subst hk
      simp [hlt, hval]
      omega
    · simp [hk, Ne.symm hk]
  | release semaphore =>
    obtain ⟨free, hfree, rfl⟩ := h
    obtain ⟨hlt, hval⟩ := List.getElem?_eq_some_iff.mp hfree
    have hpermits : l.permits = {semaphore} := hok
    simp only [BatchingShared.free, BatchingShared.capacity, Ledger.next, List.length_set,
      List.getElem?_set, hpermits, Multiset.erase_singleton, Multiset.count_zero]
    by_cases hk : semaphore = k
    · subst hk
      simp [hlt, hval]
    · simp [hk, Ne.symm hk]
  | upgrade => cases r <;> exact hframe rfl rfl
  | enqueue | notifyOne | awaitResponse | dropShared | beginWait | waitNotified | drain | spawn
  | innerCall | iterate | send | onBatchRejection => exact hframe rfl rfl

/-- **Permits are conserved**: the free ones of a semaphore and those held are all it has. -/
theorem permits_conserved (hr : (batchSystem b).Reachable (BatchStart b) p) (k : Nat) :
    p.shared.free k + p.total (fun t => t.ledger.permits.count k) = p.shared.capacity k := by
  induction hr with
  | start hp =>
    unfold Pool.total BatchingShared.free BatchingShared.capacity
    rw [hp.tasks, hp.semaphores]
    exact Multiset.count_zero k
  | step hr hs ih =>
    have hok := batchTask_ok hr
    cases hs with
    | @act s s' l r new t t' h =>
      have ht := hok t (by simp)
      rw [total_split] at ih
      rw [total_split_new]
      have hnew : (new.map fun n : BatchTask => n.ledger.permits.count k).sum = 0 := by
        refine List.sum_eq_zero fun x hx => ?_
        obtain ⟨n, hn, rfl⟩ := List.mem_map.mp hx
        obtain ⟨task, rfl, _⟩ := new_workers h n hn
        exact Multiset.count_zero k
      have hmove : s'.free k + t'.ledger.permits.count k + s.capacity k =
          s.free k + t.ledger.permits.count k + s'.capacity k := by
        cases h with
        | effect r hrest heff =>
          unfold BatchTask.Ok at ht
          rw [hrest] at ht
          exact effect_permits heff ht.1 k
        | turn => rfl
        | cancel =>
          unfold BatchingShared.free BatchingShared.capacity
          rw [dropShared_semaphores]
      rw [hnew]
      simp only at ih ⊢
      omega
    | env h =>
      cases h with
      | tick | cloned => exact ih
      | dropped =>
        simp only [total_mk, BatchingShared.free, BatchingShared.capacity] at ih ⊢
        rw [dropShared_semaphores]
        exact ih
    | arrive h =>
      obtain ⟨_, rfl, packet, rfl⟩ := h
      simpa [BatchingShared.free, BatchingShared.capacity, callerTask] using ih

end Semaphores

/-! ## 3. The potential -/

section Potentials

variable {b : BatchingTransport} {p p' : Pool BatchingShared BatchTask}

/-- What the flush task is worth at a stage: what it has drained and not sent off. -/
def FlushStage.weight (config : BatchingConfig) : FlushStage → Nat
  | .holding batch | .dispatching batch => batch.length * entryWeight config
  | _ => 0

/-- The semaphores are there. -/
def BatchingShared.Has (s : BatchingShared) (semaphores : List Nat) : Prop :=
  ∀ k ∈ semaphores, k < s.semaphores.length

/-- A task keeps within a budget. -/
def BatchTask.Keeps (b : BatchingTransport) (t : BatchTask) (γ : Budget) : Prop :=
  t.rest.Follows (budget b.config.toBatchingConfig) γ fun _ _ => True

/-- What a task may cost from here on. -/
def BatchTask.Costs (b : BatchingTransport) (t : BatchTask) (n : Nat) : Prop :=
  match t.kind with
  | .flush => ∃ g, FlushAt b t g ∧ n = g.weight b.config.toBatchingConfig
  | _ => ∃ semaphores, t.Keeps b ⟨n, semaphores⟩

/-- The least of them. -/
noncomputable def BatchTask.worth (b : BatchingTransport) (t : BatchTask) : Nat :=
  sInf {n | t.Costs b n}

/-- What the queue is worth. -/
def BatchingShared.weight (b : BatchingTransport) (s : BatchingShared) : Nat :=
  s.pending.length * entryWeight b.config.toBatchingConfig

theorem worth_le {t : BatchTask} {n : Nat} (h : t.Costs b n) : t.worth b ≤ n := Nat.sInf_le h

theorem worth_costs {t : BatchTask} (h : ∃ n, t.Costs b n) : t.Costs b (t.worth b) := Nat.sInf_mem h

theorem costs_of_flush {t : BatchTask} {g : FlushStage} (h : FlushAt b t g) :
    t.Costs b (g.weight b.config.toBatchingConfig) := by
  unfold BatchTask.Costs
  rw [h.kind]
  exact ⟨g, h, rfl⟩

theorem costs_iff {t : BatchTask} (h : t.kind ≠ .flush) {n : Nat} :
    t.Costs b n ↔ ∃ semaphores, t.Keeps b ⟨n, semaphores⟩ := by
  unfold BatchTask.Costs
  cases hkind : t.kind with
  | flush => exact absurd hkind h
  | caller | worker => exact Iff.rfl

theorem worker_worth (task : SpawnedTask) :
    (workerTask b task).worth b ≤ task.weight b.config.toBatchingConfig :=
  worth_le ⟨_, workerTask_budget b task⟩

theorem dropShared_weight (s : BatchingShared) : s.dropShared.weight b ≤ s.weight b := by
  unfold BatchingShared.weight BatchingShared.dropShared
  split
  · simp
  · exact Nat.le_refl _

/-- A chunk sent off is paid for by its entries. -/
theorem chunk_weight (config : BatchingConfig) {chunk : List PendingRequest} (h : chunk ≠ []) :
    (chunkTask chunk).weight config + 1 ≤ chunk.length * entryWeight config := by
  match chunk, h with
  | [p], _ =>
    simp only [chunkTask, SpawnedTask.weight, List.length_singleton, entryWeight, attemptsWeight]
    omega
  | p :: q :: rest, _ =>
    have hlen : 1 ≤ (p :: q :: rest).length := Nat.succ_pos _
    have hmul := Nat.mul_le_mul_right (attemptsWeight (config.maxMissingRetries + 1) + 1) hlen
    simp only [chunkTask, SpawnedTask.weight, entryWeight]
    rw [Nat.one_mul] at hmul
    have hsplit : ∀ k m : Nat, k * (m + 6) = k * (m + 1) + 5 * k := fun k m => by
      rw [Nat.mul_add, Nat.mul_add]
      omega
    rw [hsplit]
    omega

/-- How many steps a step of a task counts for: the flush task's count if they spawn. -/
def busySteps (t : BatchTask) (new : List BatchTask) : Nat :=
  match t.kind with
  | .flush => new.length
  | _ => 1

/-- A step of the flush task moves worth from the queue to what it holds and on to what it spawns.
    -/
theorem flush_worth {s s' : BatchingShared} {g g' : FlushStage} {new : List BatchTask}
    (h : FlushMove b s g s' g' new) :
    g'.weight b.config.toBatchingConfig + (new.map (BatchTask.worth b)).sum + s'.weight b +
      new.length ≤ g.weight b.config.toBatchingConfig + s.weight b := by
  cases h with
  | upgrade | stop | beginWait | notified | timeout => exact Nat.le_refl _
  | drain =>
    show s.pending.length * entryWeight _ + 0 + 0 * entryWeight _ + 0 ≤
      0 + s.pending.length * entryWeight _
    omega
  | @dropShared batch =>
    have := dropShared_weight (b := b) s
    show batch.length * entryWeight _ + 0 + _ + 0 ≤ batch.length * entryWeight _ + _
    omega
  | @spawn remaining h =>
    have hchunk := chunk_weight b.config.toBatchingConfig (nextChunk_ne_nil b.config h)
    have hnew := worker_worth (b := b) (chunkTask (nextChunk b.config remaining))
    have hsplit : remaining.length = (remaining.drop (nextChunk b.config remaining).length).length +
        (nextChunk b.config remaining).length := by
      rw [List.length_drop, nextChunk_length]
      omega
    have hmul : remaining.length * entryWeight b.config.toBatchingConfig =
        (remaining.drop (nextChunk b.config remaining).length).length *
          entryWeight b.config.toBatchingConfig +
        (nextChunk b.config remaining).length * entryWeight b.config.toBatchingConfig := by
      rw [← Nat.add_mul, ← hsplit]
    simp only [FlushStage.weight, List.map_cons, List.map_nil, List.sum_cons, List.sum_nil,
      List.length_singleton]
    omega
  | again =>
    show 0 + 0 + _ + 0 ≤ 0 * entryWeight _ + _
    omega

theorem cost_pos {config : BatchingConfig} (e : BatchOp) : 1 ≤ e.cost config := by
  unfold BatchOp.cost
  split <;> omega

/-- **A step of a caller or of a spawned task** is paid for out of its budget, and what it knows of
    semaphores stays true. -/
theorem budget_step {s s' : BatchingShared} {t t' : BatchTask} {new : List BatchTask} {γ : Budget}
    (hkind : t.kind ≠ .flush) (h : t.Keeps b γ) (hs : t.Step b s s' t' new) :
    ∃ γ', t'.Keeps b γ' ∧ (s.Has γ.semaphores → s'.Has γ'.semaphores) ∧
      γ'.left + (new.map (BatchTask.worth b)).sum + s'.weight b + 1 ≤ γ.left + s.weight b := by
  unfold BatchTask.Keeps at h ⊢
  cases hs with
  | @effect e k r _ hrest heff =>
    rw [hrest] at h
    obtain ⟨⟨hflush, _, hcost⟩, hgo⟩ := h
    have hadmits : (budget b.config.toBatchingConfig).admits γ e r := by
      cases e with
      | iterate => exact heff.1
      | _ => trivial
    have hgrow := (effect_grows heff).semaphores
    have hhas : s.Has γ.semaphores →
        s'.Has ((budget b.config.toBatchingConfig).next γ e r).semaphores := by
      intro hγ
      cases e with
      | newSemaphore permits =>
        obtain ⟨rfl, rfl⟩ := heff
        intro k hk
        rcases List.mem_cons.mp hk with rfl | hk
        · simp
        · exact (hγ k hk).trans_le hgrow
      | _ => exact fun k hk => (hγ k hk).trans_le hgrow
    refine ⟨_, hgo r hadmits, hhas, ?_⟩
    cases e with
    | upgrade | beginWait | waitNotified | drain => cases hflush
    | enqueue requests =>
      obtain ⟨_, rfl⟩ := heff
      have hlength : (s.enqueue b.config requests).weight b =
          s.weight b + requests.length * entryWeight b.config.toBatchingConfig := by
        simp only [BatchingShared.weight, BatchingShared.enqueue, List.length_append,
          entriesFrom_length]
        rw [Nat.add_mul]
      simp only [budget, BatchOp.cost, spawned, List.map_nil, List.sum_nil] at hcost ⊢
      omega
    | spawn task =>
      obtain rfl := heff
      have hnew := worker_worth (b := b) task
      simp only [budget, BatchOp.cost, spawned, List.map_cons, List.map_nil, List.sum_cons,
        List.sum_nil] at hcost ⊢
      omega
    | dropShared =>
      obtain rfl := heff
      have := dropShared_weight (b := b) s
      simp only [budget, BatchOp.cost, spawned, List.map_nil, List.sum_nil] at hcost ⊢
      omega
    | send =>
      obtain rfl := heff
      simp only [budget, BatchOp.cost, spawned, List.map_nil, List.sum_nil,
        BatchingShared.weight] at hcost ⊢
      omega
    | notifyOne | awaitResponse | innerCall | iterate | onBatchRejection | newSemaphore | acquire
    | release =>
      have hpending := (effect_frame heff rfl).pending
      simp only [budget, BatchOp.cost, spawned, List.map_nil, List.sum_nil,
        BatchingShared.weight] at hcost ⊢
      rw [hpending]
      omega
  | turn hflush => exact absurd hflush hkind
  | @cancel packet receivers e k hcaller hrest hdrop =>
    rw [hrest] at h
    have hcost : 1 ≤ γ.left := (cost_pos e).trans h.1.2.2
    have := dropShared_weight (b := b) s
    refine ⟨⟨0, []⟩, trivial, fun _ _ hk => absurd hk List.not_mem_nil, ?_⟩
    simp only [List.map_nil, List.sum_nil]
    omega

theorem chunkTask_semaphores (chunk : List PendingRequest) : (chunkTask chunk).semaphores = [] := by
  match chunk with
  | [] | [_] | _ :: _ :: _ => rfl

/-- Every caller and every spawned task of a reachable pool keeps within a budget. -/
theorem tasks_keep (hr : (batchSystem b).Reachable (BatchStart b) p) : ∀ t ∈ p.tasks,
    t.kind ≠ .flush → ∃ γ, t.Keeps b γ ∧ p.shared.Has γ.semaphores := by
  refine System.Reachable.localInv (Y := batchSystem b)
    (I := fun s t => t.kind ≠ .flush → ∃ γ, t.Keeps b γ ∧ s.Has γ.semaphores)
    (fun p hp t ht hkind => ?_)
    (fun {p p' w t t' new} hr hs hmem ht hact => ⟨fun hkind => ?_, fun u hu _ => ?_⟩)
    (fun _ ha _ => ?_) (fun {p p' w u} _ hs hu hkind => ?_) hr
  · rw [hp.only_flush ht] at hkind
    exact absurd rfl hkind
  · have hkind' := fun e => hkind ((flush_stays hact).mpr e)
    obtain ⟨γ, hγ, hhas⟩ := ht hkind'
    obtain ⟨γ', hγ', hhas', _⟩ := budget_step hkind' hγ hact
    exact ⟨γ', hγ', hhas' hhas⟩
  · obtain ⟨task, rfl, k, hrest⟩ := new_workers hact u hu
    refine ⟨_, workerTask_budget b task, fun n hn => ?_⟩
    refine Nat.lt_of_lt_of_le ?_ (step_grows hs).semaphores
    by_cases hflush : t.kind = .flush
    · -- a chunk names none
      obtain ⟨g, hat, _⟩ := flush_ok hr hmem hflush
      have hok := hat.follows
      rw [hrest] at hok
      cases g with
      | dispatching remaining =>
        obtain ⟨⟨_, rfl⟩, _⟩ := hok
        rw [SpawnedTask.budget, chunkTask_semaphores] at hn
        exact absurd hn List.not_mem_nil
      | _ => exact hok.1.elim
    · obtain ⟨γ, hγ, hhas⟩ := ht hflush
      unfold BatchTask.Keeps at hγ
      rw [hrest] at hγ
      refine hhas n (hγ.1.2.1 ?_)
      cases task with
      | individual => exact hn
      | single | chunk => exact absurd hn List.not_mem_nil
  · obtain ⟨_, _, packet, rfl⟩ := ha
    exact ⟨_, callerTask_budget packet, nofun⟩
  · obtain ⟨γ, hγ, hhas⟩ := hu hkind
    exact ⟨γ, hγ, fun k hk => (hhas k hk).trans_le (step_grows hs).semaphores⟩

/-- Every task of a reachable pool has a cost. -/
theorem costs_exist (hr : (batchSystem b).Reachable (BatchStart b) p) :
    ∀ t ∈ p.tasks, ∃ n, t.Costs b n := by
  intro t ht
  by_cases hkind : t.kind = .flush
  · obtain ⟨g, hat, _⟩ := flush_ok hr ht hkind
    exact ⟨_, costs_of_flush hat⟩
  · obtain ⟨γ, hγ, _⟩ := tasks_keep hr t ht hkind
    exact ⟨γ.left, (costs_iff hkind).mpr ⟨γ.semaphores, hγ⟩⟩

/-- **What is left to do** in a pool, in steps. -/
noncomputable def workLeft (b : BatchingTransport) : Pool BatchingShared BatchTask → Nat :=
  potential (BatchTask.worth b) (BatchingShared.weight b)

/-- **A step of a task** takes its busy steps off what is left to do. -/
theorem workLeft_task {s s' : BatchingShared} {l r new : List BatchTask} {t t' : BatchTask}
    (hr : (batchSystem b).Reachable (BatchStart b) ⟨s, l ++ t :: r⟩) (hs : t.Step b s s' t' new) :
    workLeft b ⟨s', l ++ t' :: (r ++ new)⟩ + busySteps t new ≤ workLeft b ⟨s, l ++ t :: r⟩ := by
  refine potential_act _ _ ?_
  have hcosts := worth_costs (costs_exist hr t (by simp))
  unfold busySteps
  cases hkind : t.kind with
  | flush =>
    unfold BatchTask.Costs at hcosts
    rw [hkind] at hcosts
    obtain ⟨g, hat, hworth⟩ := hcosts
    obtain ⟨g', hmove, hat'⟩ := hat.step hs
    have hafter := worth_le (costs_of_flush hat')
    have hmoved := flush_worth hmove
    simp only
    omega
  | caller | worker =>
    have hne : t.kind ≠ .flush := by rw [hkind]; exact nofun
    obtain ⟨semaphores, hkeeps⟩ := (costs_iff hne).mp hcosts
    obtain ⟨γ', hγ', _, hpaid⟩ := budget_step hne hkeeps hs
    have hafter := worth_le ((costs_iff fun e => hne ((flush_stays hs).mp e)).mpr ⟨_, hγ'⟩)
    simp only at hpaid ⊢
    omega

/-- Without arrivals what is left to do never grows. -/
theorem workLeft_le {w : Actor} (hr : (batchSystem b).Reachable (BatchStart b) p)
    (hs : (batchSystem b).Step p w p') (hw : w ≠ .arrival) : workLeft b p' ≤ workLeft b p := by
  cases hs with
  | act h => exact (Nat.le_add_right _ _).trans (workLeft_task hr h)
  | @env s s' ts h =>
    have hweight : s'.weight b ≤ s.weight b := by
      cases h with
      | tick | cloned => exact Nat.le_refl _
      | dropped => exact dropShared_weight s
    exact Nat.add_le_add_left hweight _
  | arrive => exact absurd rfl hw

/-- **A busy step shortens what is left to do**: any step of a caller or a spawned task, and a step
    of the flush task that spawns. -/
theorem workLeft_lt {i : Nat} {t : BatchTask} (hr : (batchSystem b).Reachable (BatchStart b) p)
    (hs : (batchSystem b).Step p (.task i) p') (ht : p.tasks[i]? = some t)
    (hbusy : t.kind ≠ .flush ∨ p'.tasks.length ≠ p.tasks.length) :
    workLeft b p' < workLeft b p := by
  generalize hw : Actor.task i = w at hs
  cases hs with
  | @act s s' l r new t₀ t' h =>
    cases hw
    have hsame : t₀ = t := by simpa using ht
    subst hsame
    have hleft := workLeft_task hr h
    have hpos : 0 < busySteps t₀ new := by
      unfold busySteps
      cases hkind : t₀.kind with
      | flush =>
        refine Nat.pos_of_ne_zero fun hnone => ?_
        simp only at hnone
        refine hbusy.elim (fun h => h hkind) fun h => h ?_
        simp only [List.length_append, List.length_cons]
        omega
      | caller | worker => exact Nat.one_pos
    omega
  | env => cases hw
  | arrive => cases hw

end Potentials

end TransportBalancer.Batching
