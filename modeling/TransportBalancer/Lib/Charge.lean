/-
  File:      TransportBalancer/Lib/Charge.lean
  Subject:   WHAT A PROGRAM COSTS AT MOST, every operation having its price, and how long tasks that
             pay for their steps can run.

  * `Program.Costs` -- a program keeps within a purse, whatever it is answered; the rules of an
    operation, of sequencing and of a larger purse;
  * **`Program.Costs.steps`** -- soundness: so does every trace, and what is left pays for the rest;
  * **`System.Run.paid`** -- if every task pays one for each of its steps, the steps of a run are
    bounded by what the tasks brought.
-/
import TransportBalancer.Lib.Program
import TransportBalancer.Lib.Pool

namespace Interaction

variable {S : Signature} {α β : Type}

/-- **The charge protocol**: with `left` in the purse, an operation is paid for before it is
    performed. -/
def chargeProtocol (admits : (e : S.Op) → S.Ans e → Prop) (price : S.Op → Nat) :
    Protocol S Nat where
  ok left e := price e ≤ left
  admits _ e r := admits e r
  next left e _ := left - price e

/-- **The program costs at most `n`**, as long as it is answered what is admitted, and ends in `Q`.
    -/
def Program.Costs (admits : (e : S.Op) → S.Ans e → Prop) (price : S.Op → Nat) (n : Nat)
    (p : Program S α) (Q : α → Prop) : Prop :=
  p.Follows (chargeProtocol admits price) n fun _ a => Q a

/-- What a trace has cost. -/
def traceCost (price : S.Op → Nat) (tr : Trace S) : Nat := (tr.map fun ev => price ev.op).sum

section Costs

variable {admits : (e : S.Op) → S.Ans e → Prop} {price : S.Op → Nat} {n m : Nat} {p : Program S α}
  {Q : α → Prop}

theorem Program.Costs.ret {a : α} (h : Q a) :
    (Program.ret a : Program S α).Costs admits price n Q := h

/-- What is put aside is left over. -/
theorem Program.Costs.aside (h : p.Costs admits price n Q) (m : Nat) :
    p.Follows (chargeProtocol admits price) (n + m) fun left a => m ≤ left ∧ Q a := by
  induction p generalizing n with
  | ret a => exact ⟨Nat.le_add_left m n, h⟩
  | op e k ih =>
    refine ⟨Nat.le_trans h.1 (Nat.le_add_right n m), fun r hr => ?_⟩
    have hnext := ih r (h.2 r hr)
    have hleft : n - price e + m = n + m - price e := (Nat.sub_add_comm h.1).symm
    unfold chargeProtocol at hnext ⊢
    dsimp only at hnext ⊢
    rw [← hleft]
    exact hnext

/-- A larger purse is enough too. -/
theorem Program.Costs.le (h : p.Costs admits price n Q) (hle : n ≤ m) :
    p.Costs admits price m Q := by
  obtain ⟨more, rfl⟩ := Nat.exists_eq_add_of_le hle
  exact (h.aside more).mono fun _ _ h => h.2

/-- **The rule of an operation**: its price, and what costs most of what follows. -/
theorem Program.Costs.op {e : S.Op} {k : S.Ans e → Program S α} (hprice : price e ≤ m)
    (h : ∀ r, admits e r → (k r).Costs admits price n Q) :
    (Program.op e k).Costs admits price (m + n) Q := by
  refine ⟨Nat.le_trans hprice (Nat.le_add_right m n), fun r hr => (h r hr).le ?_⟩
  show n ≤ m + n - price e
  omega

theorem Program.Costs.mono {Q' : α → Prop} (h : p.Costs admits price n Q) (hQ : ∀ a, Q a → Q' a) :
    p.Costs admits price n Q' :=
  Program.Follows.mono h fun _ a => hQ a

/-- **The sequencing rule.** -/
theorem Program.Costs.bind {f : α → Program S β} {R : α → Prop} {Q : β → Prop}
    (h : p.Costs admits price n R) (hf : ∀ a, R a → (f a).Costs admits price m Q) :
    (p >>= f).Costs admits price (n + m) Q :=
  (h.aside m).bind fun _ a ha => (hf a ha.2).le ha.1

/-- **SOUNDNESS**: no trace costs more than the purse, and what is left pays for the rest. -/
theorem Program.Costs.steps {q : Program S α} {tr : Trace S} (h : p.Costs admits price n Q)
    (hs : Steps p tr q) (ha : ∀ ev ∈ tr, admits ev.op ev.ans) :
    ∃ left, traceCost price tr + left = n ∧ q.Costs admits price left Q := by
  induction hs generalizing n with
  | refl p => exact ⟨n, Nat.zero_add n, h⟩
  | step e r k _ ih =>
    obtain ⟨hr, hrest⟩ := List.forall_mem_cons.mp ha
    obtain ⟨left, hleft, hq⟩ := ih (h.2 r hr) hrest
    have hprice : price e ≤ n := h.1
    refine ⟨left, ?_, hq⟩
    unfold traceCost chargeProtocol at hleft
    unfold traceCost
    rw [List.map_cons, List.sum_cons]
    dsimp only at hleft ⊢
    omega

end Costs

end Interaction

namespace TaskPool

variable {σ τ : Type}

/-- The steps of tasks in a run. -/
def taskSteps (vs : List (Pool σ τ × Actor)) : Nat :=
  vs.countP fun v => match v.2 with
    | .task _ => true
    | _ => false

/-- The tasks that arrive in it. -/
def arrivals (vs : List (Pool σ τ × Actor)) : Nat := vs.countP fun v => v.2 = .arrival

/-- **PAID RUNS.** Every task has a purse (`Has`: any amount that is enough), a step costs the
    acting task one and what the tasks it spawns are given, and a task arrives with at most `grant`.
    Then a run takes no more steps than its tasks can pay for. -/
theorem System.Run.paid {Y : System σ τ} {start : Pool σ τ → Prop} (Has : Nat → τ → Prop)
    (grant : Nat)
    (hact : ∀ {p : Pool σ τ} {s' t t'} {new : List τ} {n}, Y.Reachable start p → t ∈ p.tasks →
      Has n t → Y.act p.shared t s' t' new →
        ∃ n' ns, Has n' t' ∧ List.Forall₂ Has ns new ∧ n' + ns.sum + 1 ≤ n)
    (harrive : ∀ {s s' t}, Y.arrive s s' t → ∃ n, Has n t ∧ n ≤ grant)
    {p q : Pool σ τ} {vs : List (Pool σ τ × Actor)} (hp : Y.Reachable start p) (hr : Y.Run p vs q)
    {ns : List Nat} (hns : List.Forall₂ Has ns p.tasks) :
    ∃ ms, List.Forall₂ Has ms q.tasks ∧
      taskSteps vs + ms.sum ≤ ns.sum + grant * arrivals vs := by
  induction hr with
  | refl => exact ⟨ns, hns, Nat.le_of_eq (Nat.zero_add _)⟩
  | @step vs q q' w hr hs ih =>
    obtain ⟨ms, hms, hle⟩ := ih
    have hq := hp.run hr
    unfold taskSteps arrivals at hle ⊢
    rw [List.countP_append, List.countP_append]
    cases hs with
    | @act s s' l r new t t' h =>
      have hl := List.forall₂_take_append ms l (t :: r) hms
      obtain ⟨n, nr, hn, hnr, hdrop⟩ :=
        List.forall₂_cons_right_iff.mp (List.forall₂_drop_append ms l (t :: r) hms)
      obtain ⟨n', new', hn', hnew, hpaid⟩ := hact hq (by simp) hn h
      refine ⟨ms.take l.length ++ n' :: (nr ++ new'),
        List.rel_append hl (.cons hn' (List.rel_append hnr hnew)), ?_⟩
      rw [← List.take_append_drop l.length ms, hdrop] at hle
      simp only [List.sum_append, List.sum_cons, List.countP_singleton] at hle ⊢
      simp only [if_true, reduceCtorEq, decide_false, Bool.false_eq_true, if_false, Nat.add_zero]
      omega
    | env h =>
      refine ⟨ms, hms, ?_⟩
      simp only [List.countP_singleton, reduceCtorEq, decide_false, Bool.false_eq_true, if_false,
        Nat.add_zero]
      omega
    | arrive h =>
      obtain ⟨n, hn, hgrant⟩ := harrive h
      refine ⟨ms ++ [n], List.rel_append hms (.cons hn .nil), ?_⟩
      simp only [List.sum_append, List.sum_singleton, List.countP_singleton, decide_true, if_true,
        Bool.false_eq_true, if_false, Nat.mul_add]
      omega

end TaskPool
