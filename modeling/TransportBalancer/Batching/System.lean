/-
  File:      TransportBalancer/Batching/System.lean
  Subject:   THE TASKS OF ONE BATCHING TRANSPORT: callers, the flush task and the tasks it spawns,
             one effect of one task at a time, over the queue, the `Notify` and a clock.

  * `Effect` -- what an effect does to the shared state and what it may answer;
  * `Ledger` -- what a task owns: the entries moved into it and not yet sent on or moved out, its
    `Arc`s of the shared state, its semaphore permits;
  * `batchSystem` -- the pool: any number of callers, clones made and dropped at any time, callers'
    futures dropped where they wait, any inner service;
  * `step_grows` -- what no step takes back.
-/
import TransportBalancer.Batching.LoopRules
import TransportBalancer.Lib.Notify
import TransportBalancer.Lib.Pool

namespace TransportBalancer.Batching

open Interaction TaskPool

/-- A batching transport: its configuration, the replies its inner service may give to a packet,
    and how errors are rendered. -/
structure BatchingTransport where
  config : RunningConfig
  inner : RequestPacket → RpcResult → Prop
  display : TransportError → String

/-! ## 1. Shared state -/

/-- `BatchingShared` behind its `Arc`, with the clock, the channels and the semaphores. -/
structure BatchingShared where
  clock : Nat
  /-- The clones of the transport. -/
  handles : Nat
  /-- The strong count of the `Arc`. -/
  strong : Nat
  pending : List PendingRequest
  /-- The `Notify` the flush task waits on. -/
  notify : Wakeup.Notify
  nextChannel : Channel
  /-- Every entry ever pushed, with the time of the push. -/
  pushed : List (PendingRequest × Nat)
  /-- What has been sent on the entries' channels, oldest first. -/
  answers : List (PendingRequest × RpcResult)
  /-- Entries whose sender was dropped unused. -/
  dropped : List PendingRequest
  /-- The free permits of each semaphore. -/
  semaphores : List Nat
  /-- The inner calls made, oldest first. -/
  calls : List RequestPacket
  rejections : Nat

namespace BatchingShared

/-- The entries of some requests, on consecutive channels. -/
def entriesFrom (first : Channel) : List SerializedRequest → List PendingRequest
  | [] => []
  | request :: requests => ⟨request, first⟩ :: entriesFrom (first + 1) requests

/-- The critical section of `call`. -/
def enqueue (s : BatchingShared) (config : RunningConfig) (requests : List SerializedRequest) :
    BatchingShared :=
  let entries := entriesFrom s.nextChannel requests
  let pending := s.pending ++ entries
  { s with
    pending := pending
    nextChannel := s.nextChannel + requests.length
    pushed := s.pushed ++ entries.map fun p => (p, s.clock)
    notify := if config.maxBatchSize ≤ pending.length then s.notify.notifyOne else s.notify }

/-- One `Arc` of the shared state is dropped; the last one takes the queue with it. -/
def dropShared (s : BatchingShared) : BatchingShared :=
  if s.strong ≤ 1 then
    { s with strong := 0, pending := [], dropped := s.dropped ++ s.pending }
  else { s with strong := s.strong - 1 }

end BatchingShared

/-- **What an effect does**: the answers it may give and the shared state after it. -/
def Effect (b : BatchingTransport) (s : BatchingShared) :
    (e : BatchOp) → BatchSig.Ans e → BatchingShared → Prop
  | .enqueue requests, first, s' => first = s.nextChannel ∧ s' = s.enqueue b.config requests
  | .notifyOne, _, s' => s' = { s with notify := s.notify.notifyOne }
  | .awaitResponse rx, answer, s' => s' = s ∧
      ((∃ p result, (p, result) ∈ s.answers ∧ p.tx = rx ∧ answer = some result) ∨
        ∃ p ∈ s.dropped, p.tx = rx ∧ answer = none)
  | .upgrade, up, s' =>
      (0 < s.strong ∧ up = true ∧ s' = { s with strong := s.strong + 1 }) ∨
        (s.strong = 0 ∧ up = false ∧ s' = s)
  | .dropShared, _, s' => s' = s.dropShared
  | .beginWait, since, s' => since = s.clock ∧ s' = { s with notify := s.notify.poll }
  | .waitNotified since, _, s' =>
      -- the notification is polled before the timer, but may be delivered after that
      (s.notify.waiter = .delivered ∧ s' = { s with notify := s.notify.wake }) ∨
        (since + b.config.flushInterval.nanos ≤ s.clock ∧
          s' = { s with notify := s.notify.abandon })
  | .drain, batch, s' => batch = s.pending ∧ s' = { s with pending := [] }
  | .spawn _, _, s' => s' = s
  | .innerCall packet, result, s' =>
      b.inner packet result ∧ s' = { s with calls := s.calls ++ [packet] }
  | .iterate entries, order, s' => order.Perm entries ∧ s' = s
  | .send p result, _, s' => s' = { s with answers := s.answers ++ [(p, result)] }
  | .onBatchRejection, _, s' => s' = { s with rejections := s.rejections + 1 }
  | .newSemaphore permits, semaphore, s' => semaphore = s.semaphores.length ∧
      s' = { s with semaphores := s.semaphores ++ [permits] }
  | .acquire semaphore, _, s' => ∃ free, s.semaphores[semaphore]? = some (free + 1) ∧
      s' = { s with semaphores := s.semaphores.set semaphore free }
  | .release semaphore, _, s' => ∃ free, s.semaphores[semaphore]? = some free ∧
      s' = { s with semaphores := s.semaphores.set semaphore (free + 1) }

/-- The effects that move entries into, out of or within the shared state. -/
def BatchOp.movesEntries : BatchOp → Bool
  | .enqueue _ | .dropShared | .drain | .send _ _ => true
  | _ => false

/-- Two shared states with the same entries in the same places. -/
structure SameEntries (s s' : BatchingShared) : Prop where
  pending : s'.pending = s.pending
  answers : s'.answers = s.answers
  dropped : s'.dropped = s.dropped
  pushed : s'.pushed = s.pushed
  nextChannel : s'.nextChannel = s.nextChannel

/-- **The other effects leave the entries where they are.** -/
theorem effect_frame {b : BatchingTransport} {s s' : BatchingShared} {e : BatchOp}
    {r : BatchSig.Ans e} (h : Effect b s e r s') (he : e.movesEntries = false) :
    SameEntries s s' := by
  cases e with
  | enqueue | dropShared | drain | send => cases he
  | notifyOne | spawn | onBatchRejection =>
    obtain rfl := h
    exact ⟨rfl, rfl, rfl, rfl, rfl⟩
  | awaitResponse =>
    obtain ⟨rfl, _⟩ := h
    exact ⟨rfl, rfl, rfl, rfl, rfl⟩
  | upgrade =>
    rcases h with ⟨_, _, rfl⟩ | ⟨_, _, rfl⟩ <;> exact ⟨rfl, rfl, rfl, rfl, rfl⟩
  | waitNotified =>
    rcases h with ⟨_, rfl⟩ | ⟨_, rfl⟩ <;> exact ⟨rfl, rfl, rfl, rfl, rfl⟩
  | beginWait | innerCall | iterate | newSemaphore =>
    obtain ⟨_, rfl⟩ := h
    exact ⟨rfl, rfl, rfl, rfl, rfl⟩
  | acquire | release =>
    obtain ⟨_, _, rfl⟩ := h
    exact ⟨rfl, rfl, rfl, rfl, rfl⟩

/-- The effects that count `Arc`s up or down. -/
def BatchOp.countsArcs : BatchOp → Bool
  | .upgrade | .dropShared => true
  | _ => false

/-- **The other effects leave the `Arc`s and the clones alone.** -/
theorem effect_frame_arcs {b : BatchingTransport} {s s' : BatchingShared} {e : BatchOp}
    {r : BatchSig.Ans e} (h : Effect b s e r s') (he : e.countsArcs = false) :
    s'.strong = s.strong ∧ s'.handles = s.handles := by
  cases e with
  | upgrade | dropShared => cases he
  | notifyOne | spawn | onBatchRejection | send =>
    obtain rfl := h
    exact ⟨rfl, rfl⟩
  | awaitResponse =>
    obtain ⟨rfl, _⟩ := h
    exact ⟨rfl, rfl⟩
  | waitNotified =>
    rcases h with ⟨_, rfl⟩ | ⟨_, rfl⟩ <;> exact ⟨rfl, rfl⟩
  | enqueue | beginWait | drain | innerCall | iterate | newSemaphore =>
    obtain ⟨_, rfl⟩ := h
    exact ⟨rfl, rfl⟩
  | acquire | release =>
    obtain ⟨_, _, rfl⟩ := h
    exact ⟨rfl, rfl⟩

/-! ## 2. Tasks -/

/-- What a task owns. -/
@[ext] structure Ledger where
  owned : Multiset PendingRequest
  arcs : Nat
  permits : Multiset Nat

/-- The ledger of a task that owns nothing. -/
def Ledger.nothing : Ledger := ⟨0, 0, 0⟩

/-- What a task owns after one more effect: drained entries are moved in, spawned tasks take theirs
    along, a sender is used up. -/
def Ledger.next (l : Ledger) : (e : BatchOp) → BatchSig.Ans e → Ledger
  | .drain, batch => { l with owned := l.owned + (batch : Multiset PendingRequest) }
  | .spawn task, _ => { l with owned := l.owned - (task.entries : Multiset PendingRequest) }
  | .send p _, _ => { l with owned := l.owned.erase p }
  | .upgrade, true => { l with arcs := l.arcs + 1 }
  | .dropShared, _ => { l with arcs := l.arcs - 1 }
  | .acquire semaphore, _ => { l with permits := semaphore ::ₘ l.permits }
  | .release semaphore, _ => { l with permits := l.permits.erase semaphore }
  | _, _ => l

inductive TaskKind where
  | caller (packet : RequestPacket) (receivers : List Channel)
  | flush
  | worker (task : SpawnedTask)

/-- How a task ends. -/
inductive TaskEnd where
  | returned (result : RpcResult)
  | cancelled
  | turn (t : Turn)
  | finished

/-- A task: the rest of its program and what it owns. A caller keeps its receivers. -/
structure BatchTask where
  kind : TaskKind
  rest : Program BatchSig TaskEnd
  ledger : Ledger

/-- The receivers of a caller are those of the channels it has pushed. -/
def TaskKind.next (kind : TaskKind) : (e : BatchOp) → BatchSig.Ans e → TaskKind
  | .enqueue requests, first =>
    match kind with
    | .caller packet _ => .caller packet (List.range' first requests.length)
    | kind => kind
  | _, _ => kind

/-- A call at its start: its future holds an `Arc`. -/
def callerTask (packet : RequestPacket) : BatchTask where
  kind := .caller packet []
  rest := call packet >>= fun result => .ret (.returned result)
  ledger := ⟨0, 1, 0⟩

def flushProgram (b : BatchingTransport) : Program BatchSig TaskEnd :=
  flushTurn b.config >>= fun t => .ret (.turn t)

/-- The flush task at its start. -/
def flushTask (b : BatchingTransport) : BatchTask := ⟨.flush, flushProgram b, .nothing⟩

/-- A spawned task at its start. -/
def workerTask (b : BatchingTransport) (task : SpawnedTask) : BatchTask where
  kind := .worker task
  rest := task.program b.config.toBatchingConfig b.display >>= fun _ => .ret .finished
  ledger := ⟨task.entries, 0, 0⟩

/-- The tasks an effect spawns. -/
def spawned (b : BatchingTransport) : BatchOp → List BatchTask
  | .spawn task => [workerTask b task]
  | _ => []

/-- Where a caller's future can be dropped: before its first poll, and where it waits. -/
def BatchOp.droppable : BatchOp → Bool
  | .enqueue _ | .awaitResponse _ => true
  | _ => false

/-- One step of a task: an effect, the next turn of the flush loop, or the end of a caller whose
    future is dropped. -/
inductive BatchTask.Step (b : BatchingTransport) (s : BatchingShared) (t : BatchTask) :
    BatchingShared → BatchTask → List BatchTask → Prop where
  | effect {e : BatchOp} {k : BatchSig.Ans e → Program BatchSig TaskEnd} (r : BatchSig.Ans e)
      {s' : BatchingShared} (hrest : t.rest = .op e k) (heff : Effect b s e r s') :
      Step b s t s' ⟨t.kind.next e r, k r, t.ledger.next e r⟩ (spawned b e)
  | turn (hkind : t.kind = .flush) (hrest : t.rest = .ret (.turn .again)) :
      Step b s t s { t with rest := flushProgram b } []
  | cancel {packet : RequestPacket} {receivers : List Channel} {e : BatchOp}
      {k : BatchSig.Ans e → Program BatchSig TaskEnd} (hkind : t.kind = .caller packet receivers)
      (hrest : t.rest = .op e k) (hdrop : e.droppable = true) :
      Step b s t s.dropShared ⟨t.kind, .ret .cancelled, { t.ledger with arcs := t.ledger.arcs - 1 }⟩
        []

/-- What happens around the tasks: time passes, clones are made and dropped. -/
inductive Around (s : BatchingShared) : BatchingShared → Prop where
  | tick (clock : Nat) (h : s.clock ≤ clock) : Around s { s with clock := clock }
  | cloned (h : 0 < s.handles) :
      Around s { s with handles := s.handles + 1, strong := s.strong + 1 }
  | dropped (h : 0 < s.handles) : Around s { s.dropShared with handles := s.handles - 1 }

/-- **The tasks of a batching transport**: a call arrives on a clone and takes an `Arc`. -/
def batchSystem (b : BatchingTransport) : System BatchingShared BatchTask where
  act s t s' t' new := t.Step b s s' t' new
  env s s' := Around s s'
  arrive s s' t := 0 < s.handles ∧ s' = { s with strong := s.strong + 1 } ∧
    ∃ packet, t = callerTask packet

/-- A transport just made: some clones, an empty queue, the flush task at its start. -/
structure BatchStart (b : BatchingTransport) (p : Pool BatchingShared BatchTask) : Prop where
  tasks : p.tasks = [flushTask b]
  strong : p.shared.strong = p.shared.handles
  pending : p.shared.pending = []
  notify : p.shared.notify = .new
  pushed : p.shared.pushed = []
  answers : p.shared.answers = []
  dropped : p.shared.dropped = []
  semaphores : p.shared.semaphores = []
  calls : p.shared.calls = []

theorem BatchStart.only_flush {b : BatchingTransport} {p : Pool BatchingShared BatchTask}
    (hp : BatchStart b p) {t : BatchTask} (ht : t ∈ p.tasks) : t = flushTask b := by
  rw [hp.tasks] at ht
  exact List.mem_singleton.mp ht

/-- A task at a position performs an effect that spawns nothing. -/
theorem effect_at {b : BatchingTransport} {p : Pool BatchingShared BatchTask} {i : Nat}
    {t : BatchTask} (hi : p.tasks[i]? = some t) {e : BatchOp}
    {k : BatchSig.Ans e → Program BatchSig TaskEnd} {r : BatchSig.Ans e} {s' : BatchingShared}
    (hrest : t.rest = .op e k) (heff : Effect b p.shared e r s') (hnone : spawned b e = []) :
    (batchSystem b).Step p (.task i)
      ⟨s', p.tasks.set i ⟨t.kind.next e r, k r, t.ledger.next e r⟩⟩ := by
  have hs := System.Step.at (Y := batchSystem b) hi (.effect r hrest heff)
  rw [hnone, List.append_nil] at hs
  exact hs

/-! ## 3. What only grows -/

/-- **The shared state only grows**, from `s` to `s'`: in time and in what it has recorded. -/
structure BatchingShared.Grows (s s' : BatchingShared) : Prop where
  clock : s.clock ≤ s'.clock
  pushed : s.pushed <+: s'.pushed
  answers : s.answers ⊆ s'.answers
  calls : s.calls ⊆ s'.calls
  semaphores : s.semaphores.length ≤ s'.semaphores.length

theorem BatchingShared.Grows.refl (s : BatchingShared) : s.Grows s where
  clock := Nat.le_refl _
  pushed := List.prefix_refl _
  answers := List.Subset.refl _
  calls := List.Subset.refl _
  semaphores := Nat.le_refl _

theorem dropShared_grows (s : BatchingShared) : s.Grows s.dropShared := by
  unfold BatchingShared.dropShared
  split <;> exact { BatchingShared.Grows.refl s with }

theorem effect_grows {b : BatchingTransport} {s s' : BatchingShared} {e : BatchOp}
    {r : BatchSig.Ans e} (h : Effect b s e r s') : s.Grows s' := by
  cases e with
  | enqueue requests =>
    obtain ⟨_, rfl⟩ := h
    exact { BatchingShared.Grows.refl s with pushed := List.prefix_append _ _ }
  | send =>
    obtain rfl := h
    exact { BatchingShared.Grows.refl s with answers := List.subset_append_left _ _ }
  | innerCall =>
    obtain ⟨_, rfl⟩ := h
    exact { BatchingShared.Grows.refl s with calls := List.subset_append_left _ _ }
  | newSemaphore =>
    obtain ⟨_, rfl⟩ := h
    exact { BatchingShared.Grows.refl s with semaphores := by simp }
  | dropShared =>
    obtain rfl := h
    exact dropShared_grows s
  | notifyOne | onBatchRejection =>
    obtain rfl := h
    exact { BatchingShared.Grows.refl s with }
  | spawn =>
    obtain rfl := h
    exact .refl _
  | awaitResponse =>
    obtain ⟨rfl, _⟩ := h
    exact .refl _
  | upgrade =>
    rcases h with ⟨_, _, rfl⟩ | ⟨_, _, rfl⟩
    · exact { BatchingShared.Grows.refl s with }
    · exact .refl _
  | waitNotified =>
    rcases h with ⟨_, rfl⟩ | ⟨_, rfl⟩ <;> exact { BatchingShared.Grows.refl s with }
  | beginWait | drain =>
    obtain ⟨_, rfl⟩ := h
    exact { BatchingShared.Grows.refl s with }
  | iterate =>
    obtain ⟨_, rfl⟩ := h
    exact .refl _
  | acquire | release =>
    obtain ⟨_, _, rfl⟩ := h
    exact { BatchingShared.Grows.refl s with semaphores := by simp }

/-- Every step of the pool only adds. -/
theorem step_grows {b : BatchingTransport} {p p' : Pool BatchingShared BatchTask} {w : Actor}
    (hs : (batchSystem b).Step p w p') : p.shared.Grows p'.shared := by
  cases hs with
  | @act s s' l r new t t' h =>
    cases h with
    | effect r hrest heff => exact effect_grows heff
    | turn => exact .refl _
    | cancel => exact dropShared_grows s
  | @env s s' ts h =>
    cases h with
    | tick clock h => exact { BatchingShared.Grows.refl s with clock := h }
    | cloned => exact { BatchingShared.Grows.refl s with }
    | dropped =>
      have h := dropShared_grows s
      exact ⟨h.clock, h.pushed, h.answers, h.calls, h.semaphores⟩
  | @arrive s s' ts t h =>
    obtain ⟨_, rfl, _⟩ := h
    exact { BatchingShared.Grows.refl s with }

end TransportBalancer.Batching
