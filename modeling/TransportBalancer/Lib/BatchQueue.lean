/-
  File:      TransportBalancer/Lib/BatchQueue.lean
  Subject:   A QUEUE OF BATCHES: what a batching component is for, whatever its items and results
             and whoever runs it. Items are pushed to the end of a line; batches are cut from its
             head; an item in a batch is answered, in any order; the queue is closed once, and some
             of the end of the line is lost then.

  * `BatchQueue`, `BatchQueue.Step` -- the states and the steps, with a bound on the batches;
  * `BatchQueue.Consistent` -- everything pushed is in one place, in the order it was pushed;
  * **`BatchQueue.consistent_of_reachable`** -- in every state reached from the empty queue.
-/
import Mathlib.Algebra.Order.Group.Multiset
import Mathlib.Logic.Relation
import Mathlib.Tactic.Common

/-- The state of a queue of batches, with all it has been given and has given back. -/
structure BatchQueue (ε ρ : Type) where
  accepting : Bool
  /-- All items pushed, oldest first. -/
  pushed : List ε
  /-- The items of the batches cut, batch after batch. -/
  cut : List ε
  /-- The items that wait. -/
  line : List ε
  /-- The items of batches that have no answer yet. -/
  out : Multiset ε
  answered : List (ε × ρ)
  lost : List ε

namespace BatchQueue

variable {ε ρ : Type}

/-- A queue that has seen nothing. -/
def empty : BatchQueue ε ρ := ⟨true, [], [], [], 0, [], []⟩

/-- **The steps of a queue** with batches of at most `bound` items. -/
inductive Step [DecidableEq ε] (bound : Nat) (q : BatchQueue ε ρ) : BatchQueue ε ρ → Prop where
  | push (items : List ε) (h : q.accepting = true) :
      Step bound q { q with pushed := q.pushed ++ items, line := q.line ++ items }
  | cut (batch rest : List ε) (hline : q.line = batch ++ rest) (hne : batch ≠ [])
      (hbound : batch.length ≤ bound) :
      Step bound q
        { q with cut := q.cut ++ batch, line := rest, out := q.out + (batch : Multiset ε) }
  | answer (item : ε) (result : ρ) (h : item ∈ q.out) :
      Step bound q
        { q with out := q.out.erase item, answered := q.answered ++ [(item, result)] }
  | close (kept lost : List ε) (h : q.accepting = true) (hline : q.line = kept ++ lost) :
      Step bound q { q with accepting := false, line := kept, lost := lost }

/-- **Everything pushed is in one place**: cut, waiting or lost, in the order of the pushes; and what
    was cut is out or answered. -/
structure Consistent (q : BatchQueue ε ρ) : Prop where
  order : q.cut ++ q.line ++ q.lost = q.pushed
  custody : (q.cut : Multiset ε) = q.out + (q.answered.map Prod.fst : List ε)
  lossless : q.accepting = true → q.lost = []

variable [DecidableEq ε] {bound : Nat} {q q' : BatchQueue ε ρ}

/-- Every step keeps the queue consistent. -/
theorem Consistent.step (h : q.Consistent) (hs : Step bound q q') : q'.Consistent := by
  obtain ⟨horder, hcustody, hlossless⟩ := h
  cases hs with
  | push items hopen =>
    refine ⟨?_, hcustody, hlossless⟩
    rw [hlossless hopen, List.append_nil] at horder ⊢
    rw [← horder]
    exact (List.append_assoc _ _ _).symm
  | cut batch rest hline =>
    refine ⟨?_, ?_, hlossless⟩
    · rw [← horder, hline]
      simp only [List.append_assoc]
    · rw [← Multiset.coe_add, hcustody]
      exact add_right_comm _ _ _
  | answer item result hout =>
    refine ⟨horder, ?_, hlossless⟩
    have hout : q.out = q.out.erase item + {item} := by
      rw [add_comm, Multiset.singleton_add, Multiset.cons_erase hout]
    rw [hcustody, List.map_append, ← Multiset.coe_add, ← add_assoc, add_right_comm]
    exact congrArg (· + _) hout
  | close kept lost hopen hline =>
    refine ⟨?_, hcustody, nofun⟩
    rw [hlossless hopen, List.append_nil, hline, ← List.append_assoc] at horder
    exact horder

/-- **EVERY REACHABLE QUEUE IS CONSISTENT.** -/
theorem consistent_of_reachable (h : Relation.ReflTransGen (Step bound) empty q) :
    q.Consistent := by
  induction h with
  | refl => exact ⟨rfl, rfl, fun _ => rfl⟩
  | tail _ hs ih => exact ih.step hs

end BatchQueue
