/-
  File:      TransportBalancer/Batching/Amplification.lean
  Subject:   HOW OFTEN THE REQUESTS OF A TRANSPORT ARE SENT, over whole runs: retries, rejections
             and fall-backs of all chunks together, whatever the inner service answers.

  * `attempts_sends`, `chunkTask_sends` -- a chunk keeps within `max_missing_retries + 1` for each
    of its entries with the request;
  * **`request_sent_at_most`** -- so does a transport, for all that was ever pushed.
-/
import Mathlib.Algebra.BigOperators.Ring.List
import TransportBalancer.Batching.Prices

namespace TransportBalancer.Batching

open Interaction TaskPool

/-! ## 1. The sends of a chunk -/

/-- How many of some entries are for the request. -/
def copies (r : SerializedRequest) (entries : List PendingRequest) : Nat :=
  (entries.map PendingRequest.request).count r

theorem copies_append (r : SerializedRequest) (l l' : List PendingRequest) :
    copies r (l ++ l') = copies r l + copies r l' := by
  unfold copies
  rw [List.map_append, List.count_append]

theorem copies_subperm {r : SerializedRequest} {l l' : List PendingRequest} (h : l.Subperm l') :
    copies r l ≤ copies r l' := by
  obtain ⟨kept, hperm, hsub⟩ := h
  exact ((hperm.map _).count_eq r).symm.trans_le ((hsub.map _).count_le r)

/-- How often a packet carries the request. -/
def carried (r : SerializedRequest) (packet : RequestPacket) : Nat := packet.requests.count r

/-- Sent one by one, the entries carry it as often as they are for it. -/
theorem singly_carried (r : SerializedRequest) (entries : List PendingRequest) :
    singly (carried r) entries = copies r entries := by
  induction entries with
  | nil => rfl
  | cons q rest ih =>
    have hcons : copies r (q :: rest) = copies r [q] + copies r rest := copies_append r [q] rest
    rw [hcons, ← ih]
    exact List.sum_cons

section Programs

variable {b : BatchingTransport} {r : SerializedRequest} {left : Nat}

/-- **The loop over the attempts**: one send of each entry for every attempt, the fall-back being
    the last. -/
theorem attempts_sends (config : BatchingConfig) (display : TransportError → String)
    (o : Outstanding) (h : (config.maxMissingRetries + 1) * copies r o.values ≤ left) :
    (attempts config display (config.maxMissingRetries + 1) 0 o).Follows
      (payProtocol b (carried r)) left fun _ _ => True := by
  refine attempts_rule (Q := fun _ => True) (I := fun attempt o left =>
      attempt ≤ config.maxMissingRetries →
        (config.maxMissingRetries - attempt + 1) * copies r o.values ≤ left)
    (fun _ _ _ _ _ => trivial) (fun o left h => ?_) (fun attempt o left h _ hattempt => ?_) _
    (Nat.zero_add _) fun _ => h
  · refine fallBack_pays o ?_
    have hlast := h (Nat.le_refl _)
    rw [Nat.sub_self, Nat.zero_add, Nat.one_mul] at hlast
    rw [singly_carried]
    exact hlast
  · -- what is left after this attempt is enough for those after it
    have hleft := h (Nat.le_of_lt hattempt)
    obtain ⟨more, hmore⟩ : ∃ more, config.maxMissingRetries - attempt = more + 1 :=
      ⟨config.maxMissingRetries - attempt - 1, by omega⟩
    rw [hmore, Nat.add_mul, Nat.one_mul] at hleft
    have hone : copies r o.values ≤ (more + 1) * copies r o.values :=
      Nat.le_mul_of_pos_left _ (Nat.succ_pos more)
    refine ⟨trivial, fun entries hentries => ?_⟩
    have hperm : entries.Perm o.values := hentries
    have hcopies : carried r (.batch (entries.map PendingRequest.request)) = copies r o.values :=
      (hperm.map _).count_eq r
    refine ⟨show carried r _ ≤ left by omega, fun reply _ => ?_⟩
    have hafter : (payProtocol b (carried r)).next left (.innerCall (.batch (entries.map
        PendingRequest.request))) reply = left - copies r o.values :=
      congrArg (left - ·) hcopies
    show ReplyLeaves _ _ _ _ _ _ ((payProtocol b (carried r)).next left _ reply) reply
    rw [hafter]
    cases reply with
    | ok resp =>
      refine (matchResponses_pays (replyResponses resp) o).mono ?_
      rintro _ o' ⟨rfl, hfewer, _⟩
      have hfewer := copies_subperm (r := r) hfewer
      have hfallBack : copies r o'.values ≤ left - copies r o.values := by omega
      rw [← singly_carried] at hfallBack
      refine ⟨fun _ _ => ?_, fun _ => rejectBatch_rule
        (fun _ => ⟨trivial, fun _ _ => fallBack_pays o' hfallBack⟩)
        fun _ => fallBack_pays o' hfallBack⟩
      have hnext := Nat.mul_le_mul_left (more + 1) hfewer
      rw [show config.maxMissingRetries - (attempt + 1) + 1 = more + 1 by omega]
      omega
    | error err => exact failBatch_pays display err o

/-- **A chunk** sends each of its entries at most once for every attempt. -/
theorem chunkTask_sends (b : BatchingTransport) (r : SerializedRequest)
    (chunk : List PendingRequest) : ∃ n, n ≤ (b.config.maxMissingRetries + 1) * copies r chunk ∧
      (workerTask b (chunkTask chunk)).rest.Follows (payProtocol b (carried r)) n
        fun _ _ => True := by
  have hchunk : (sendBatchWithRetry b.config.toBatchingConfig b.display chunk).Follows
      (payProtocol b (carried r)) ((b.config.maxMissingRetries + 1) * copies r chunk)
      fun _ _ => True := by
    refine (insertAll_pays chunk .empty).bind ?_
    rintro _ o ⟨rfl, hfewer⟩
    rw [show Outstanding.empty.values = [] from rfl, List.append_nil] at hfewer
    exact attempts_sends _ _ o (Nat.mul_le_mul_left _ (copies_subperm hfewer))
  match chunk, hchunk with
  | [q], _ => exact ⟨_, Nat.le_mul_of_pos_left _ (Nat.succ_pos _), single_pays q⟩
  | [], hchunk | _ :: _ :: _, hchunk =>
    exact ⟨_, Nat.le_refl _, hchunk.bind fun _ _ _ => trivial⟩

/-- **The sends of a request as a price**: an entry for it comes to one send for every attempt. -/
def sendPricing (b : BatchingTransport) (r : SerializedRequest) : Pricing b where
  price := carried r
  work entries := (b.config.maxMissingRetries + 1) * copies r entries
  empty := Nat.mul_zero _
  append l l' := by rw [copies_append, Nat.mul_add]
  chunk {remaining} _ := by
    obtain ⟨n, hle, hpays⟩ := chunkTask_sends b r (nextChunk b.config remaining)
    refine ⟨n, hpays, ?_⟩
    have hsplit : copies r remaining = copies r (nextChunk b.config remaining) +
        copies r (remaining.drop (nextChunk b.config remaining).length) := by
      rw [← copies_append, nextChunk_length, nextChunk, List.take_append_drop]
    rw [hsplit, Nat.mul_add]
    exact Nat.add_le_add_right hle _

end Programs

/-! ## 2. Whole runs -/

section Runs

variable {b : BatchingTransport} {p : Pool BatchingShared BatchTask}

/-- How often the request has been sent. -/
def BatchingShared.sent (s : BatchingShared) (r : SerializedRequest) : Nat :=
  (s.calls.flatMap RequestPacket.requests).count r

/-- What the callers were granted is what all entries ever pushed come to. -/
theorem sends_granted (hr : (batchSystem b).Reachable (BatchStart b) p) (r : SerializedRequest) :
    p.total (sendPricing b r).granted =
      (b.config.maxMissingRetries + 1) * copies r p.shared.entries := by
  have hperm : p.shared.entries.Perm (p.tasks.flatMap fun t => t.kind.entries) := by
    refine List.perm_iff_count.mpr fun q => ?_
    rw [List.count_flatMap, ← callers_entries hr]
    rfl
  have hcopies :
      copies r p.shared.entries = (p.tasks.map fun t => copies r t.kind.entries).sum := by
    unfold copies
    rw [(hperm.map _).count_eq, List.map_flatMap, List.count_flatMap]
    rfl
  rw [hcopies, ← List.sum_map_mul_left]
  rfl

/-- A spawned task spawns fall-back tasks only. -/
theorem worker_spawns (hr : (batchSystem b).Reachable (BatchStart b) p) {t : BatchTask}
    (ht : t ∈ p.tasks) {own task : SpawnedTask} (hkind : t.kind = .worker own)
    {k : Unit → Program BatchSig TaskEnd} (hrest : t.rest = .op (.spawn task) k) :
    ∃ semaphore q, task = .individual semaphore q :=
  (sendPricing b ⟨.none, ""⟩).worker_spawns hr ht hkind hrest

/-- **NO REQUEST IS SENT MORE OFTEN THAN CONFIGURED.** In every reachable pool, over any inner
    service, a request has been carried by the inner calls made at most `max_missing_retries + 1`
    times for each time it was pushed. -/
theorem request_sent_at_most {p : Pool BatchingShared BatchTask}
    (hr : (batchSystem b).Reachable (BatchStart b) p) (r : SerializedRequest) :
    (p.shared.calls.flatMap RequestPacket.requests).count r ≤
      (b.config.maxMissingRetries + 1) * (p.shared.entries.map PendingRequest.request).count r := by
  have hpaid := (sendPricing b r).paid hr
  rw [sends_granted hr] at hpaid
  rw [List.count_flatMap]
  exact hpaid

end Runs

/-- A request whose answer is missing from every batch is sent so often: with two retries, twice in
    a batch and once alone. -/
theorem request_sent_at_most_three : ∃ p, (batchSystem lossyTransport).Reachable
    (BatchStart lossyTransport) p ∧
      p.shared.sent ⟨.number 2, "b"⟩ = 3 ∧ copies ⟨.number 2, "b"⟩ p.shared.entries = 1 ∧
      (p.shared.calls.flatMap RequestPacket.requests).count ⟨.number 2, "b"⟩ ≤
        (lossyTransport.config.maxMissingRetries + 1) *
          (p.shared.entries.map PendingRequest.request).count ⟨.number 2, "b"⟩ := by
  obtain ⟨p, hr, hp⟩ := observed_reachable lossy_mayReply lossySchedule
    (fun p => decide (p.shared.sent ⟨.number 2, "b"⟩ = 3 ∧
      copies ⟨.number 2, "b"⟩ p.shared.entries = 1)) (a := true) (by decide)
  have hp := of_decide_eq_true hp
  exact ⟨p, hr, hp.1, hp.2, request_sent_at_most hr _⟩

end TransportBalancer.Batching
