/-
  File:      TransportBalancer/Batching/Savings.lean
  Subject:   WHAT BATCHING SAVES, AND WHAT IT COSTS AT WORST. Requests of many packets share inner
             calls; what the service leaves out of its replies has to be asked for again.

  * `batchesOf` -- the batches that some requests fill;
  * **`calls_saved`** -- over a service that answers in full, no more inner calls than the batches
    that each packet, pushed alone, would fill;
  * **`calls_at_most`** -- over any service, one for each request and `max_missing_retries` for each
    such batch.
-/
import Mathlib.Algebra.Order.Floor.Div
import TransportBalancer.Batching.Prices

namespace TransportBalancer.Batching

open Interaction TaskPool

/-! ## 1. Batches -/

/-- The batches that `n` requests fill, the last one not always to the end. -/
def batchesOf (config : RunningConfig) (n : Nat) : Nat := n ⌈/⌉ config.maxBatchSize

section Batches

variable {config : RunningConfig} {m n : Nat}

theorem batchesOf_le_iff : batchesOf config n ≤ m ↔ n ≤ config.maxBatchSize * m :=
  ceilDiv_le_iff_le_mul config.maxBatchSize_pos

theorem le_mul_batchesOf (config : RunningConfig) (n : Nat) :
    n ≤ config.maxBatchSize * batchesOf config n :=
  batchesOf_le_iff.mp (Nat.le_refl _)

/-- Requests taken together fill no more batches. -/
theorem batchesOf_add_le (config : RunningConfig) (m n : Nat) :
    batchesOf config (m + n) ≤ batchesOf config m + batchesOf config n := by
  rw [batchesOf_le_iff, Nat.mul_add]
  exact Nat.add_le_add (le_mul_batchesOf config m) (le_mul_batchesOf config n)

/-- A chunk taken off leaves one batch less. -/
theorem batchesOf_chunk (config : RunningConfig) {remaining : List PendingRequest}
    (h : remaining ≠ []) :
    1 + batchesOf config (remaining.drop (nextChunk config remaining).length).length ≤
      batchesOf config remaining.length := by
  have hpos := config.maxBatchSize_pos
  have hlen := List.length_pos_iff.mpr h
  have hall := le_mul_batchesOf config remaining.length
  obtain ⟨more, hmore⟩ : ∃ more, batchesOf config remaining.length = more + 1 := by
    refine Nat.exists_eq_add_one.mpr (Nat.pos_of_ne_zero fun hzero => ?_)
    rw [hzero] at hall
    omega
  rw [hmore, Nat.mul_add, Nat.mul_one] at hall
  rw [hmore, Nat.add_comm]
  refine Nat.succ_le_succ (batchesOf_le_iff.mpr ?_)
  rw [List.length_drop, nextChunk_length]
  omega

end Batches

/-! ## 2. The calls of a chunk -/

/-- Every call costs one. -/
def oneEach : RequestPacket → Nat := fun _ => 1

theorem singly_oneEach (entries : List PendingRequest) :
    singly oneEach entries = entries.length := by
  unfold singly oneEach
  rw [List.map_const', List.sum_replicate, smul_eq_mul, Nat.mul_one]

/-- The calls made cost as many as they are. -/
theorem sum_oneEach (calls : List RequestPacket) : (calls.map oneEach).sum = calls.length := by
  unfold oneEach
  rw [List.map_const', List.sum_replicate, smul_eq_mul, Nat.mul_one]

/-- The inner service answers every request of a batch, or fails the batch. -/
def BatchingTransport.AnswersInFull (b : BatchingTransport) : Prop :=
  ∀ requests resp, b.inner (.batch requests) (.ok resp) →
    ∀ request ∈ requests, request.id ∈ (replyResponses resp).map Response.id

section Chunk

variable {b : BatchingTransport}

/-- **A chunk answered in full makes one call.** -/
theorem chunk_one_call (hretry : 1 ≤ b.config.maxMissingRetries) (hfull : b.AnswersInFull)
    (pending : List PendingRequest) :
    (sendBatchWithRetry b.config.toBatchingConfig b.display pending).Follows
      (payProtocol b oneEach) 1 fun _ _ => True := by
  refine (insertAll_pays pending .empty).bind ?_
  rintro _ o ⟨rfl, _⟩
  refine attempts_rule (Q := fun _ => True)
    (I := fun attempt o left => o.values = [] ∨ attempt = 0 ∧ left = 1)
    (fun _ _ _ _ _ => trivial) (fun o left h => ?_) (fun attempt o left h hsome _ => ?_) _
    (Nat.zero_add _) (Or.inr ⟨rfl, rfl⟩)
  · -- the last attempt is not the first one
    have hempty : o.values = [] := h.resolve_right fun h => by omega
    refine fallBack_pays o ?_
    rw [singly_oneEach, hempty]
    exact Nat.zero_le _
  · obtain ⟨rfl, rfl⟩ := h.resolve_left hsome
    refine ⟨trivial, fun entries hentries => ⟨Nat.le_refl _, fun reply hreply => ?_⟩⟩
    have hperm : entries.Perm o.values := hentries
    have hreply : b.inner (.batch (entries.map PendingRequest.request)) reply := hreply
    cases reply with
    | error err => exact failBatch_pays b.display err o
    | ok resp =>
      refine (matchResponses_pays (replyResponses resp) o).mono ?_
      rintro left' o' ⟨_, hkept, hunmatched⟩
      have hempty : o'.values = [] := by
        rw [List.eq_nil_iff_forall_not_mem]
        intro q hq
        exact hunmatched q hq (hfull _ resp hreply _
          (List.mem_map_of_mem (hperm.mem_iff.mpr (hkept.subset hq))))
      refine ⟨fun _ => Or.inl hempty, fun hle => absurd ?_ hsome⟩
      rw [hempty] at hle
      exact List.length_eq_zero_iff.mp (Nat.le_zero.mp hle)

/-- **A chunk makes at most** one call for each attempt before the last, and then one for each entry
    left. -/
theorem chunk_calls (b : BatchingTransport) (pending : List PendingRequest) :
    (sendBatchWithRetry b.config.toBatchingConfig b.display pending).Follows
      (payProtocol b oneEach) (b.config.maxMissingRetries + pending.length) fun _ _ => True := by
  refine (insertAll_pays pending .empty).bind ?_
  rintro _ o ⟨rfl, hfewer⟩
  rw [show Outstanding.empty.values = [] from rfl, List.append_nil] at hfewer
  refine attempts_rule (Q := fun _ => True)
    (I := fun attempt o left =>
      b.config.maxMissingRetries - attempt + o.values.length ≤ left)
    (fun _ _ _ _ _ => trivial) (fun o left h => ?_) (fun attempt o left h hsome hattempt => ?_) _
    (Nat.zero_add _) (Nat.add_le_add_left hfewer.length_le _)
  · refine fallBack_pays o ?_
    rw [singly_oneEach]
    exact (Nat.le_add_left _ _).trans h
  · refine ⟨trivial, fun entries _ => ⟨show 1 ≤ left by omega, fun reply _ => ?_⟩⟩
    cases reply with
    | error err => exact failBatch_pays b.display err o
    | ok resp =>
      refine (matchResponses_pays (replyResponses resp) o).mono ?_
      rintro left' o' ⟨hleft, hkept, _⟩
      have hleft : left' = left - 1 := hleft
      have hfewer := hkept.length_le
      have hfallBack : singly oneEach o'.values ≤ left' := by
        rw [singly_oneEach]
        omega
      exact ⟨fun _ => by omega, fun _ => rejectBatch_rule
        (fun _ => ⟨trivial, fun _ _ => fallBack_pays o' hfallBack⟩)
        fun _ => fallBack_pays o' hfallBack⟩

/-- What a chunk's program pays, the task it is given to pays; a chunk of one makes one call. -/
theorem chunkTask_calls {n : Nat} (hpos : 1 ≤ n) {chunk : List PendingRequest}
    (h : (sendBatchWithRetry b.config.toBatchingConfig b.display chunk).Follows
      (payProtocol b oneEach) n fun _ _ => True) :
    ∃ m ≤ n, (workerTask b (chunkTask chunk)).rest.Follows (payProtocol b oneEach) m
      fun _ _ => True := by
  match chunk, h with
  | [q], _ => exact ⟨1, hpos, single_pays q⟩
  | [], h | _ :: _ :: _, h => exact ⟨n, Nat.le_refl _, h.bind fun _ _ _ => trivial⟩

/-! ## 3. Whole runs -/

/-- **Calls over a service that answers in full**: a batch comes to one. -/
def fullPricing (hretry : 1 ≤ b.config.maxMissingRetries) (hfull : b.AnswersInFull) :
    Pricing b where
  price := oneEach
  work entries := batchesOf b.config entries.length
  empty := Nat.le_zero.mp (batchesOf_le_iff.mpr (Nat.le_refl _))
  append l l' := by
    rw [List.length_append]
    exact batchesOf_add_le _ _ _
  chunk {remaining} hne := by
    obtain ⟨m, hm, hpays⟩ := chunkTask_calls (Nat.le_refl 1)
      (chunk_one_call hretry hfull (nextChunk b.config remaining))
    exact ⟨m, hpays, (Nat.add_le_add_right hm _).trans (batchesOf_chunk _ hne)⟩

/-- **Calls over any service**: the entries one by one, and the retries of each batch. -/
def worstPricing (b : BatchingTransport) : Pricing b where
  price := oneEach
  work entries := entries.length + b.config.maxMissingRetries * batchesOf b.config entries.length
  empty := by
    have hzero : batchesOf b.config 0 = 0 := Nat.le_zero.mp (batchesOf_le_iff.mpr (Nat.le_refl _))
    rw [List.length_nil, hzero, Nat.mul_zero]
  append l l' := by
    have hadd := Nat.mul_le_mul_left b.config.maxMissingRetries
      (batchesOf_add_le b.config l.length l'.length)
    rw [Nat.mul_add] at hadd
    rw [List.length_append]
    omega
  chunk {remaining} hne := by
    have hlen := List.length_pos_iff.mpr (nextChunk_ne_nil b.config hne)
    obtain ⟨m, hm, hpays⟩ := chunkTask_calls (by omega)
      (chunk_calls b (nextChunk b.config remaining))
    have hbatches := Nat.mul_le_mul_left b.config.maxMissingRetries (batchesOf_chunk b.config hne)
    have hsplit : (nextChunk b.config remaining).length +
        (remaining.drop (nextChunk b.config remaining).length).length = remaining.length := by
      rw [List.length_drop, nextChunk_length]
      omega
    refine ⟨m, hpays, ?_⟩
    rw [Nat.mul_add, Nat.mul_one] at hbatches
    omega

variable {p : Pool BatchingShared BatchTask}

/-- **BATCHING SAVES CALLS.** Over an inner service that answers each batch in full or fails it, in
    every reachable pool, no more calls have been made than the batches that the packets pushed
    would fill each on its own: at most one for each packet of at most `max_batch_size`. -/
theorem calls_saved (hretry : 1 ≤ b.config.maxMissingRetries) (hfull : b.AnswersInFull)
    (hr : (batchSystem b).Reachable (BatchStart b) p) :
    p.shared.calls.length ≤ p.total fun t => batchesOf b.config t.kind.entries.length := by
  rw [← sum_oneEach]
  exact (fullPricing hretry hfull).paid hr

/-- **WHAT BATCHING COSTS AT WORST.** Over any inner service, in every reachable pool, no more calls
    have been made than there were requests pushed, and `max_missing_retries` for each batch that a
    packet pushed fills. -/
theorem calls_at_most (hr : (batchSystem b).Reachable (BatchStart b) p) :
    p.shared.calls.length ≤ p.total fun t => t.kind.entries.length +
      b.config.maxMissingRetries * batchesOf b.config t.kind.entries.length := by
  rw [← sum_oneEach]
  exact (worstPricing b).paid hr

end Chunk

/-- An inner service that answers every request. -/
def wholeReply : RequestPacket → RpcResult
  | .single r => .ok (.single ⟨r.id, .success r.request⟩)
  | .batch rs => .ok (.batch (rs.map fun r => ⟨r.id, .success r.request⟩))

def wholeTransport : BatchingTransport where
  config := .default
  inner packet result := result = wholeReply packet
  display _ := ""

theorem whole_answersInFull : wholeTransport.AnswersInFull := by
  rintro requests _ ⟨⟩ request hrequest
  exact List.mem_map.mpr ⟨_, List.mem_map_of_mem hrequest, rfl⟩

/-- Two single requests and a batch of two, drained together. -/
def wholeSchedule : List Move :=
  [.call (.single ⟨.number 1, "a"⟩), .call (.single ⟨.number 2, "b"⟩),
    .call (.batch [⟨.number 3, "c"⟩, ⟨.number 4, "d"⟩])] ++
    [1, 2, 3, 3, 0, 0, 0, 0, 0, 0, 4, 4, 4, 4, 4, 4].map Move.task

/-- Three packets share one call. -/
theorem calls_saved_whole : ∃ p, (batchSystem wholeTransport).Reachable
    (BatchStart wholeTransport) p ∧ p.shared.answers.length = 4 ∧ p.shared.calls.length = 1 ∧
      (p.total fun t => batchesOf wholeTransport.config t.kind.entries.length) = 3 ∧
      p.shared.calls.length ≤
        p.total fun t => batchesOf wholeTransport.config t.kind.entries.length := by
  obtain ⟨p, hr, hp⟩ := @observed_reachable wholeTransport (some ∘ wholeReply)
    (fun _ _ h => (Option.some.inj h).symm) wholeSchedule _
    (fun p => (p.shared.answers.length, p.shared.calls.length,
      p.total fun t => batchesOf wholeTransport.config t.kind.entries.length)) (4, 1, 3) (by decide)
  obtain ⟨hanswers, hrest⟩ := Prod.mk.inj hp
  obtain ⟨hcalls, htotal⟩ := Prod.mk.inj hrest
  exact ⟨p, hr, hanswers, hcalls, htotal, calls_saved (by decide) whole_answersInFull hr⟩

/-- Three requests of two packets: two batches, a request sent on individually, and one that was
    alone in its chunk. -/
theorem calls_at_most_lossy : ∃ p, (batchSystem lossyTransport).Reachable
    (BatchStart lossyTransport) p ∧ p.shared.calls.length = 4 ∧
      p.shared.calls.length ≤ p.total fun t => t.kind.entries.length +
        lossyTransport.config.maxMissingRetries *
          batchesOf lossyTransport.config t.kind.entries.length := by
  obtain ⟨p, hr, hp⟩ := observed_reachable lossy_mayReply lossySchedule
    (fun p => p.shared.calls.length) (a := 4) (by decide)
  exact ⟨p, hr, hp, calls_at_most hr⟩

end TransportBalancer.Batching
