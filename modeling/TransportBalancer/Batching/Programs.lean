/-
  File:      TransportBalancer/Batching/Programs.lean
  Subject:   THE BATCHING TRANSPORT (batching.rs) as programs over its effects: a caller's `call`,
             one turn of `flush_loop`, `send_batch_with_retry` and the spawned individual requests.

  * `BatchSig` -- the effects: the queue under its lock, `Notify`, the shared `Arc`, oneshot
    channels, spawned tasks, semaphores, the inner service, and the unspecified order of a
    `HashMap`;
  * `Outstanding` -- the id-keyed map of a chunk, each request under its own id;
  * `call`, `flushTurn`, `sendBatchWithRetry`, `sendIndividually` -- the programs.
-/
import Mathlib.Data.List.AList
import Mathlib.Data.Multiset.AddSub
import TransportBalancer.Lib.Program
import TransportBalancer.Rpc

namespace TransportBalancer.Batching

open Interaction

/-! ## 1. Configuration and entries -/

/-- `BatchingConfig`; of the rejection callback only whether there is one. -/
structure BatchingConfig where
  maxBatchSize : Nat
  flushInterval : Duration
  maxMissingRetries : Nat
  onBatchRejection : Bool

/-- `BatchingConfig::default`. -/
def BatchingConfig.default : BatchingConfig where
  maxBatchSize := 150
  flushInterval := .fromMillis 1
  maxMissingRetries := 2
  onBatchRejection := false

/-- A configuration a transport runs with. -/
structure RunningConfig extends BatchingConfig where
  maxBatchSize_pos : 0 < maxBatchSize

/-- The default configuration can run. -/
def RunningConfig.default : RunningConfig := ⟨BatchingConfig.default, by decide⟩

/-- `BatchingTransport::new`, up to the spawn of the flush task. -/
def new (config : BatchingConfig) : Except String RunningConfig :=
  if h : 0 < config.maxBatchSize then .ok ⟨config, h⟩
  else .error "max_batch_size must be greater than zero"

/-- A oneshot channel, by number. -/
abbrev Channel := Nat

/-- `PendingRequest`: a request and the sender of its channel. -/
structure PendingRequest where
  request : SerializedRequest
  tx : Channel
  deriving DecidableEq, Repr

/-! ## 2. Effects -/

/-- What `tokio::spawn` starts. -/
inductive SpawnedTask where
  | single (p : PendingRequest)
  | chunk (pending : List PendingRequest)
  | individual (semaphore : Nat) (p : PendingRequest)
  deriving DecidableEq, Repr

/-- The entries moved into a spawned task. -/
def SpawnedTask.entries : SpawnedTask → List PendingRequest
  | .single p | .individual _ p => [p]
  | .chunk pending => pending

/-- The effects of the transport's tasks.

    * `enqueue`: the critical section of `call`: a channel for each request, all of them pushed, and
      `notify_one` if the queue has reached the batch size; answers the first channel;
    * `upgrade`, `dropShared`: `Weak::upgrade` and the end of an `Arc`'s scope;
    * `beginWait`, `waitNotified`: `timeout(flush_interval, notified())`, started (at the clock
      value it answers) and awaited;
    * `drain`: the critical section of the flush loop, `[]` where it finds the queue empty;
    * `iterate`: the order in which a `HashMap` yields its entries;
    * `send`: the use of a sender. -/
inductive BatchOp where
  | enqueue (requests : List SerializedRequest)
  | notifyOne
  | awaitResponse (rx : Channel)
  | upgrade
  | dropShared
  | beginWait
  | waitNotified (since : Nat)
  | drain
  | spawn (task : SpawnedTask)
  | innerCall (packet : RequestPacket)
  | iterate (entries : List PendingRequest)
  | send (p : PendingRequest) (result : RpcResult)
  | onBatchRejection
  | newSemaphore (permits : Nat)
  | acquire (semaphore : Nat)
  | release (semaphore : Nat)

abbrev BatchSig : Signature where
  Op := BatchOp
  Ans
    | .enqueue _ => Channel
    | .awaitResponse _ => Option RpcResult
    | .upgrade => Bool
    | .beginWait => Nat
    | .drain => List PendingRequest
    | .innerCall _ => RpcResult
    | .iterate _ => List PendingRequest
    | .newSemaphore _ => Nat
    | .notifyOne | .dropShared | .waitNotified _ | .spawn _ | .send _ _ | .onBatchRejection
    | .acquire _ | .release _ => Unit

/-- Perform an effect and answer what it answers. -/
def BatchOp.perform (e : BatchOp) : Program BatchSig (BatchSig.Ans e) := .op e .ret

@[simp] theorem perform_bind {α : Type} (e : BatchOp) (f : BatchSig.Ans e → Program BatchSig α) :
    (e.perform >>= f) = .op e f := rfl

/-! ## 3. Callers -/

/-- The loop over the receivers of a batch. -/
def collectResponses : List Channel → List Response → Program BatchSig RpcResult
  | [], responses => return .ok (.batch responses)
  | rx :: receivers, responses => do
    match ← BatchOp.perform (.awaitResponse rx) with
    | some (.ok (.single resp)) => collectResponses receivers (responses ++ [resp])
    | some (.ok (.batch batch)) => collectResponses receivers (responses ++ batch)
    | some (.error err) => return .error err
    | none => return .error backendGone

/-- What a caller waits for once it has queued and notified. -/
def receive (packet : RequestPacket) (first : Channel) : Program BatchSig RpcResult :=
  match packet with
  | .single _ => do
    let answer ← BatchOp.perform (.awaitResponse first)
    return answer.getD (.error backendGone)
  | .batch requests => collectResponses (List.range' first requests.length) []

/-- `BatchingTransport::call`; the future's own `Arc` is dropped with it. -/
def call (packet : RequestPacket) : Program BatchSig RpcResult := do
  let first ← BatchOp.perform (.enqueue packet.requests)
  BatchOp.perform .notifyOne
  let result ← receive packet first
  BatchOp.perform .dropShared
  return result

/-! ## 4. The flush loop -/

/-- How a turn of the loop ends: `continue` or `return`. -/
inductive Turn where
  | again
  | stop
  deriving DecidableEq, Repr

/-- A chunk of one goes alone, a longer one as a batch. -/
def chunkTask : List PendingRequest → SpawnedTask
  | [p] => .single p
  | chunk => .chunk chunk

/-- The loop over the drained requests in chunks (`fuel` is at least their number). -/
def dispatch (config : RunningConfig) : (fuel : Nat) → List PendingRequest → Program BatchSig Unit
  | 0, _ => return ()
  | fuel + 1, remaining =>
    if remaining = [] then return ()
    else do
      let chunkSize := min remaining.length config.maxBatchSize
      BatchOp.perform (.spawn (chunkTask (remaining.take chunkSize)))
      dispatch config fuel (remaining.drop chunkSize)

/-- One turn of `flush_loop`. -/
def flushTurn (config : RunningConfig) : Program BatchSig Turn := do
  if ← BatchOp.perform .upgrade then
    let since ← BatchOp.perform .beginWait
    BatchOp.perform (.waitNotified since)
    let batch ← BatchOp.perform .drain
    BatchOp.perform .dropShared
    dispatch config batch.length batch
    return .again
  else return .stop

/-! ## 5. A chunk -/

/-- `outstanding`: the requests of a chunk not answered yet, each under its own id. -/
structure Outstanding where
  map : AList fun _ : Id => PendingRequest
  keyed : ∀ e ∈ map.entries, e.2.request.id = e.1

namespace Outstanding

def empty : Outstanding := ⟨∅, nofun⟩

/-- The entries, in the order of the map. -/
def values (o : Outstanding) : List PendingRequest := o.map.entries.map Sigma.snd

/-- `HashMap::remove`. -/
def remove (o : Outstanding) (id : Id) : Option PendingRequest × Outstanding :=
  (o.map.lookup id, ⟨o.map.erase id, fun e he =>
    o.keyed e ((List.kerase_sublist id o.map.entries).subset he)⟩)

/-- `HashMap::insert` under the request's id: the entry it replaces, if any. -/
def insert (o : Outstanding) (p : PendingRequest) : Option PendingRequest × Outstanding :=
  (o.map.lookup p.request.id, ⟨o.map.insert p.request.id p, fun e he => by
    rw [AList.entries_insert] at he
    rcases List.mem_cons.mp he with rfl | he
    · rfl
    · exact o.keyed e ((List.kerase_sublist _ o.map.entries).subset he)⟩)

theorem values_eq_keys (o : Outstanding) :
    o.values.map (fun p => p.request.id) = o.map.keys := by
  unfold values AList.keys List.keys
  rw [List.map_map]
  exact List.map_congr_left fun e he => o.keyed e he

/-- The ids of a map are distinct. -/
theorem ids_nodup (o : Outstanding) : (o.values.map fun p => p.request.id).Nodup := by
  rw [values_eq_keys]
  exact o.map.keys_nodup

/-- What `remove` takes out and what it leaves make up the map. -/
theorem remove_perm (o : Outstanding) (id : Id) :
    o.values.Perm ((o.remove id).1.toList ++ (o.remove id).2.values) := by
  show (o.map.entries.map Sigma.snd).Perm
    ((o.map.lookup id).toList ++ (o.map.entries.kerase id).map Sigma.snd)
  by_cases h : id ∈ o.map.entries.keys
  · obtain ⟨p, l₁, l₂, _, hentries, herase⟩ := List.exists_of_kerase h
    have hlookup : o.map.lookup id = some p :=
      AList.mem_lookup_iff.mpr (hentries ▸ by simp)
    rw [hlookup, herase, hentries, List.map_append, List.map_append, List.map_cons]
    exact List.perm_middle
  · have hlookup : o.map.lookup id = none := AList.lookup_eq_none.mpr h
    rw [hlookup, List.kerase_of_notMem_keys h]
    exact .refl _

/-- An inserted entry and what the map held make up what `insert` pushes out and leaves. -/
theorem insert_perm (o : Outstanding) (p : PendingRequest) :
    (p :: o.values).Perm ((o.insert p).1.toList ++ (o.insert p).2.values) := by
  have hvalues : (o.insert p).2.values = p :: (o.remove p.request.id).2.values := by
    show ((o.map.insert p.request.id p).entries.map Sigma.snd) = _
    rw [AList.entries_insert]
    rfl
  rw [hvalues]
  exact ((o.remove_perm p.request.id).cons p).trans List.perm_middle.symm

theorem remove_id {o : Outstanding} {id : Id} {p : PendingRequest}
    (h : (o.remove id).1 = some p) : p.request.id = id :=
  o.keyed ⟨id, p⟩ (AList.mem_lookup_iff.mp h)

end Outstanding

/-- The error of an earlier request whose id comes again in its chunk. -/
def duplicateIdError : TransportError := customStr "duplicate request ID in batch"

/-- The loop that builds the map; an entry pushed out fails at once. -/
def insertAll : List PendingRequest → Outstanding → Program BatchSig Outstanding
  | [], outstanding => return outstanding
  | p :: rest, outstanding =>
    match outstanding.insert p with
    | (some prev, outstanding) => do
      BatchOp.perform (.send prev (.error duplicateIdError))
      insertAll rest outstanding
    | (none, outstanding) => insertAll rest outstanding

/-- `INDIVIDUAL_FALLBACK_CONCURRENCY`. -/
def individualFallbackConcurrency : Nat := 10

/-- The loop that spawns one task for each entry. -/
def spawnAll (semaphore : Nat) : List PendingRequest → Program BatchSig Unit
  | [] => return ()
  | p :: rest => do
    BatchOp.perform (.spawn (.individual semaphore p))
    spawnAll semaphore rest

/-- The individual fall-back. -/
def fallBack (outstanding : Outstanding) : Program BatchSig Unit := do
  let semaphore ← BatchOp.perform (.newSemaphore individualFallbackConcurrency)
  let entries ← BatchOp.perform (.iterate outstanding.values)
  spawnAll semaphore entries

/-- The loop that hands the responses of a reply to the requests they answer. -/
def matchResponses : List Response → Outstanding → Program BatchSig Outstanding
  | [], outstanding => return outstanding
  | response :: rest, outstanding =>
    match outstanding.remove response.id with
    | (some p, outstanding) => do
      BatchOp.perform (.send p (.ok (.single response)))
      matchResponses rest outstanding
    | (none, outstanding) => matchResponses rest outstanding

/-- The loop that fails every entry with one message. -/
def failAll (msg : String) : List PendingRequest → Program BatchSig Unit
  | [] => return ()
  | p :: rest => do
    BatchOp.perform (.send p (.error (customStr msg)))
    failAll msg rest

/-- The responses of a reply to a batch. -/
def replyResponses : ResponsePacket → List Response
  | .batch responses => responses
  | .single response => [response]

section Chunk

variable (config : BatchingConfig) (display : TransportError → String)

/-- `on_batch_rejection`, if there is one. -/
def rejectBatch : Program BatchSig Unit :=
  if config.onBatchRejection = true then BatchOp.perform .onBatchRejection else return ()

/-- The loop over the attempts from `attempt` on, at most `left` of them. -/
def attempts : (left attempt : Nat) → Outstanding → Program BatchSig Unit
  | 0, _, _ => return ()
  | left + 1, attempt, outstanding =>
    if outstanding.values = [] then return ()
    else if attempt = config.maxMissingRetries then fallBack outstanding
    else do
      let entries ← BatchOp.perform (.iterate outstanding.values)
      match ← BatchOp.perform (.innerCall (.batch (entries.map PendingRequest.request))) with
      | .ok resp =>
        let matchedBefore := outstanding.values.length
        let outstanding ← matchResponses (replyResponses resp) outstanding
        if outstanding.values = [] then return ()
        else if matchedBefore - outstanding.values.length = 0 then
          rejectBatch config
          fallBack outstanding
        else attempts left (attempt + 1) outstanding
      | .error err =>
        let entries ← BatchOp.perform (.iterate outstanding.values)
        failAll ("batch request failed: " ++ display err) entries

/-- `send_batch_with_retry`; `display` renders an error. -/
def sendBatchWithRetry (pending : List PendingRequest) : Program BatchSig Unit := do
  let outstanding ← insertAll pending .empty
  attempts config display (config.maxMissingRetries + 1) 0 outstanding

/-! ## 6. Individual requests -/

/-- A request sent as a `Single`. -/
def sendSingle (p : PendingRequest) : Program BatchSig Unit := do
  let result ← BatchOp.perform (.innerCall (.single p.request))
  BatchOp.perform (.send p result)

/-- A request of the fall-back, under its semaphore. -/
def sendIndividually (semaphore : Nat) (p : PendingRequest) : Program BatchSig Unit := do
  BatchOp.perform (.acquire semaphore)
  sendSingle p
  BatchOp.perform (.release semaphore)

/-- The program of a spawned task. -/
def SpawnedTask.program : SpawnedTask → Program BatchSig Unit
  | .single p => sendSingle p
  | .chunk pending => sendBatchWithRetry config display pending
  | .individual semaphore p => sendIndividually semaphore p

end Chunk

end TransportBalancer.Batching
