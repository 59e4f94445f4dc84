/-
  File:      TransportBalancer/Batching/Transparent.lean
  Subject:   BATCHING IS TRANSPARENT: every caller receives what its requests, each sent alone
             through the inner service, would give.

  * `DistinctIds` -- the requests of all packets issued have distinct ids;
  * **`batching_transparent`** -- on every fair run every caller that is not cancelled returns, and
    with the direct reply.
-/
import TransportBalancer.Batching.Answers
import TransportBalancer.Batching.Completion

namespace TransportBalancer.Batching

open Interaction TaskPool

variable {f : SerializedRequest → Response} {b : BatchingTransport}
  {p p' : Pool BatchingShared BatchTask}

/-! ## 1. Distinct ids -/

/-- The requests a task has been called with. -/
def TaskKind.requests : TaskKind → List SerializedRequest
  | .caller packet _ => packet.requests
  | _ => []

/-- The requests of all packets issued. -/
def issued (p : Pool BatchingShared BatchTask) : List SerializedRequest :=
  p.tasks.flatMap fun t => t.kind.requests

/-- The requests of all packets issued have pairwise distinct ids. -/
def DistinctIds (p : Pool BatchingShared BatchTask) : Prop :=
  ((issued p).map SerializedRequest.id).Nodup

theorem zipWith_requests (requests : List SerializedRequest) (receivers : List Channel) :
    ((List.zipWith PendingRequest.mk requests receivers).map PendingRequest.request).Sublist
      requests := by
  induction requests generalizing receivers with
  | nil => exact List.Sublist.refl _
  | cons request requests ih =>
    cases receivers with
    | nil => exact List.nil_sublist _
    | cons rx receivers => exact (ih receivers).cons_cons request

/-- A caller pushes its own requests. -/
theorem entries_requests (kind : TaskKind) :
    (kind.entries.map PendingRequest.request).Sublist kind.requests := by
  cases kind with
  | caller packet receivers => exact zipWith_requests packet.requests receivers
  | flush | worker => exact List.Sublist.refl _

/-- **Distinct ids of the packets** make distinct ids of the entries pushed. -/
theorem ids_entries (hr : (batchSystem b).Reachable (BatchStart b) p) (h : DistinctIds p) :
    (ids p.shared.entries).Nodup := by
  have hperm : p.shared.entries.Perm (p.tasks.flatMap fun t => t.kind.entries) := by
    refine List.perm_iff_count.mpr fun q => ?_
    rw [List.count_flatMap, ← callers_entries hr]
    rfl
  have hsub : ((p.tasks.flatMap fun t => t.kind.entries).map PendingRequest.request).Sublist
      (issued p) := by
    rw [List.map_flatMap]
    exact List.Sublist.flatMap_right _ fun t _ => entries_requests t.kind
  have hids := h.sublist (hsub.map SerializedRequest.id)
  rw [List.map_map] at hids
  exact (ids_perm hperm).nodup_iff.mpr hids

/-! ## 2. Transparency -/

/-- **What callers are to see** on a run: each of them returns unless it is cancelled, and what it
    returns is the direct reply to its packet. -/
structure Transparent (f : SerializedRequest → Response) (run : (batchSystem b).Path) : Prop where
  returns : ∀ (n i : Nat) (t : BatchTask) (packet : RequestPacket) (receivers : List Channel),
    (run.pool n).tasks[i]? = some t → t.kind = .caller packet receivers →
      ∃ m, n ≤ m ∧ ∃ t', (run.pool m).tasks[i]? = some t' ∧
        (t'.rest = .ret .cancelled ∨ t'.rest = .ret (.returned (directReply f packet)))
  direct : ∀ (n : Nat) (t : BatchTask) (packet : RequestPacket) (receivers : List Channel)
    (result : RpcResult), t ∈ (run.pool n).tasks → t.kind = .caller packet receivers →
      t.rest = .ret (.returned result) → result = directReply f packet

/-- **BATCHING IS TRANSPARENT**, over a truthful and responsive inner service, on every fair run
    whose packets have distinct ids. -/
theorem batching_transparent (hb : Truthful f b) (hresponsive : Responsive b)
    {run : (batchSystem b).Path} (hstart : BatchStart b (run.pool 0)) (hfair : Fair run)
    (hids : ∀ n, DistinctIds (run.pool n)) : Transparent f run where
  returns n i t packet receivers ht hkind := by
    obtain ⟨m, hm, t', receivers', ht', hkind', x, hrest⟩ :=
      caller_ends hresponsive hstart hfair ht hkind
    have hr := run.reachable (.start hstart) m
    refine ⟨m, hm, t', ht', ?_⟩
    rw [hrest]
    have hmem := List.mem_of_getElem? ht'
    rcases caller_direct hb hr (ids_entries hr (hids m)) hmem hkind' hrest with rfl | rfl
    · exact Or.inl rfl
    · exact Or.inr rfl
  direct n t packet receivers result ht hkind hrest := by
    have hr := run.reachable (.start hstart) n
    rcases caller_direct hb hr (ids_entries hr (hids n)) ht hkind hrest with h | h
    · cases h
    · exact TaskEnd.returned.inj h

/-- The packets issued stay issued. -/
theorem issued_kept {w : Actor} (hs : (batchSystem b).Step p w p') : issued p <+: issued p' := by
  unfold issued
  cases hs with
  | @act s s' l r new t t' h =>
    have hsame : t'.kind.requests = t.kind.requests := by
      cases hkind : t.kind with
      | caller packet receivers =>
        obtain ⟨receivers', hkind'⟩ := caller_stays h hkind
        rw [hkind']
        rfl
      | flush => rw [(flush_stays h).mpr hkind]
      | worker task => rw [worker_stays h hkind]
    simp only [List.flatMap_append, List.flatMap_cons, hsame]
    rw [← List.append_assoc, ← List.append_assoc, ← List.append_assoc]
    exact List.prefix_append _ _
  | env => exact List.prefix_refl _
  | arrive =>
    simp only [List.flatMap_append]
    exact List.prefix_append _ _

/-- Packets with distinct ids at the end of what happens on a run have distinct ids all along. -/
theorem distinctIds_of_last {run : (batchSystem b).Path} {n : Nat}
    (hlast : ∀ k, run.pool (n + k) = linger p k) (h : DistinctIds p) (m : Nat) :
    DistinctIds (run.pool m) := by
  rcases Nat.le_total m n with hm | hm
  · have hkept : issued (run.pool m) <+: issued (run.pool n) := by
      refine run.keeps (P := fun p => issued (run.pool m) <+: issued p) (List.prefix_refl _)
        (fun k _ h => h.trans (issued_kept (run.step k))) hm
    have hn : run.pool n = p := hlast 0
    rw [hn] at hkept
    exact h.sublist (hkept.sublist.map _)
  · obtain ⟨k, rfl⟩ := Nat.exists_eq_add_of_le hm
    rw [hlast k]
    exact h

/-- What the lossy service answers to a request. -/
def ownText (r : SerializedRequest) : Response := ⟨r.id, .success r.request⟩

theorem lossy_truthful : Truthful ownText lossyTransport where
  id _ := rfl
  single h := h
  batch {rs result} h := ⟨_, h, fun resp hresp => Or.inl (by
    obtain ⟨r, hr, rfl⟩ := List.mem_map.mp hresp
    exact ⟨r, List.mem_of_mem_drop (List.mem_reverse.mp hr), rfl⟩)⟩

/-- The run on which a chunk is retried, rejected and sent on individually. -/
theorem batching_transparent_lossy : ∃ run : (batchSystem lossyTransport).Path,
    (∃ n, (run.pool n).shared.answers.length = 3) ∧ Transparent ownText run := by
  obtain ⟨p, hr, hp⟩ := observed_reachable lossy_mayReply lossySchedule
    (fun p => decide (p.shared.answers.length = 3 ∧ (∀ t ∈ p.tasks, t.ended = true) ∧
      ((issued p).map SerializedRequest.id).Nodup)) (a := true) (by decide)
  obtain ⟨hanswers, hended, hids⟩ := of_decide_eq_true hp
  obtain ⟨run, hstart, hfair, n, hlast⟩ := exists_fair_run hr hended
  have hn : run.pool n = p := hlast 0
  exact ⟨run, ⟨n, hn ▸ hanswers⟩, batching_transparent lossy_truthful (fun _ => ⟨_, rfl⟩) hstart
    hfair (distinctIds_of_last hlast hids)⟩

end TransportBalancer.Batching
