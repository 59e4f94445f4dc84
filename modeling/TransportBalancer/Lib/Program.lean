/-
  File:      TransportBalancer/Lib/Program.lean
  Subject:   PROGRAMS OVER AN EFFECT SIGNATURE, their traces, and the assume/guarantee rule.

  A program either ends with a value or performs one operation and goes on with the answer
  the environment gives. Nothing here fixes what an operation does:

  * `Steps`, `Runs` -- the traces of a program under ANY answers (the environment is free);
  * `Program.Follows` -- the program keeps a protocol: with a ghost state `γ` carried along the
    trace, every operation it performs is allowed (`ok`), as long as the answers are admitted
    (`admits`), and its result meets a postcondition;
  * **`Program.Follows.steps`** -- soundness: after any admitted trace the rest of the program
    still follows the protocol from the ghost state the trace leaves; `Follows.invariant`: what
    the allowed operations keep of the ghost state holds at every point;
  * `Program.Ensures` -- a postcondition of every run;
  * `recordProtocol`, `historyProtocol` -- protocols that judge an operation by the trace before it;
  * `Program.Performs` -- the operations a program can perform at all;
  * `eval` -- the same program run alone under a handler that answers from a state; `exec` -- the
    state it leaves, also where it crashes;
  * `expand` -- the same program with its operations carried out by programs.

  An operation without answers (`Ans e` empty) is a crash: no trace passes it.
-/
import Mathlib.Data.List.Basic
import Mathlib.Tactic.Common

namespace Interaction

/-- An effect signature: the operations and the type of the answer to each. -/
structure Signature where
  Op : Type
  Ans : Op → Type

/-- A program over `S` that ends with a value of `α`. -/
inductive Program (S : Signature) (α : Type) : Type where
  | ret (a : α) : Program S α
  | op (e : S.Op) (k : S.Ans e → Program S α) : Program S α

namespace Program

variable {S : Signature} {α β : Type}

/-! ## 1. The monad of programs -/

/-- Run `p`, then `f` on its value. -/
def bind : Program S α → (α → Program S β) → Program S β
  | .ret a, f => f a
  | .op e k, f => .op e fun r => (k r).bind f

/-- The program that performs one operation and returns its answer. -/
def perform (e : S.Op) : Program S (S.Ans e) := .op e .ret

instance : Monad (Program S) where
  pure := .ret
  bind := bind

@[simp] theorem pure_eq_ret (a : α) : (pure a : Program S α) = .ret a := rfl

@[simp] theorem ret_bind (a : α) (f : α → Program S β) : (Program.ret a >>= f) = f a := rfl

@[simp] theorem op_bind (e : S.Op) (k : S.Ans e → Program S α) (f : α → Program S β) :
    (Program.op e k >>= f) = .op e fun r => k r >>= f := rfl

@[simp] theorem perform_bind (e : S.Op) (f : S.Ans e → Program S β) :
    (perform e >>= f) = .op e f := rfl

instance : LawfulMonad (Program S) :=
  LawfulMonad.mk' _
    (fun p => by
      induction p with
      | ret a => rfl
      | op e k ih => exact congrArg (Program.op e) (funext ih))
    (fun _ _ => rfl)
    (fun p f g => by
      induction p with
      | ret a => rfl
      | op e k ih => exact congrArg (Program.op e) (funext ih))

end Program

/-! ## 2. Traces -/

/-- One performed operation with its answer. -/
structure Event (S : Signature) where
  op : S.Op
  ans : S.Ans op

/-- The operations performed so far, oldest first. -/
abbrev Trace (S : Signature) := List (Event S)

section Traces

variable {S : Signature} {α β : Type}

/-- **`p` performs `tr` and goes on as `q`**, whatever the environment answers. -/
inductive Steps : Program S α → Trace S → Program S α → Prop where
  | refl (p : Program S α) : Steps p [] p
  | step (e : S.Op) (r : S.Ans e) (k : S.Ans e → Program S α) {tr : Trace S} {q : Program S α} :
      Steps (k r) tr q → Steps (.op e k) (⟨e, r⟩ :: tr) q

/-- `p` performs exactly `tr` and ends with `a`. -/
def Runs (p : Program S α) (tr : Trace S) (a : α) : Prop := Steps p tr (.ret a)

theorem steps_ret {a : α} {tr : Trace S} {q : Program S α} :
    Steps (.ret a) tr q ↔ tr = [] ∧ q = .ret a := by
  constructor
  · intro h
    cases h
    exact ⟨rfl, rfl⟩
  · intro h
    obtain ⟨rfl, rfl⟩ := h
    exact .refl _

@[simp] theorem runs_ret {a b : α} {tr : Trace S} : Runs (.ret a) tr b ↔ tr = [] ∧ b = a := by
  unfold Runs
  rw [steps_ret]
  simp

theorem steps_append {p q r : Program S α} {tr tr' : Trace S} (h : Steps p tr q)
    (h' : Steps q tr' r) : Steps p (tr ++ tr') r := by
  induction h with
  | refl p => exact h'
  | step e a k _ ih => exact .step e a k (ih h')

/-- **A trace can be cut anywhere**: the program reached in between is determined by the cut. -/
theorem steps_append_iff {p r : Program S α} {tr tr' : Trace S} :
    Steps p (tr ++ tr') r ↔ ∃ q, Steps p tr q ∧ Steps q tr' r := by
  constructor
  · intro h
    induction tr generalizing p with
    | nil => exact ⟨p, .refl p, h⟩
    | cons ev tr ih =>
      cases h with
      | step e a k h =>
        obtain ⟨q, hq, hr⟩ := ih h
        exact ⟨q, .step e a k hq, hr⟩
  · intro h
    obtain ⟨q, h, h'⟩ := h
    exact steps_append h h'

/-- The traces of a program whose value is only renamed in the end are its own. -/
theorem steps_map {p : Program S α} {g : α → β} {tr : Trace S} {r : Program S β}
    (h : Steps (p >>= fun a => .ret (g a)) tr r) :
    ∃ q, Steps p tr q ∧ r = q >>= fun a => .ret (g a) := by
  induction p generalizing tr with
  | ret a =>
    obtain ⟨rfl, rfl⟩ := steps_ret.mp h
    exact ⟨.ret a, .refl _, rfl⟩
  | op e k ih =>
    cases h with
    | refl => exact ⟨.op e k, .refl _, rfl⟩
    | step e r k h =>
      obtain ⟨q, hq, hrest⟩ := ih r h
      exact ⟨q, .step e r _ hq, hrest⟩

/-- The first part of a program, as far as it has got. -/
theorem Steps.bind {p q : Program S α} {tr : Trace S} (h : Steps p tr q) (f : α → Program S β) :
    Steps (p >>= f) tr (q >>= f) := by
  induction h with
  | refl p => exact .refl _
  | step e r k _ ih => exact .step e r _ ih

/-- A completed run of the first part, and any of what follows it. -/
theorem steps_bind {p : Program S α} {f : α → Program S β} {tr tr' : Trace S} {a : α}
    {q : Program S β} (hp : Runs p tr a) (hf : Steps (f a) tr' q) :
    Steps (p >>= f) (tr ++ tr') q :=
  steps_append (Steps.bind hp f) hf

/-- **The program may return `a`**, with events of `ok` only. -/
def Program.May (ok : Event S → Prop) (p : Program S α) (a : α) : Prop :=
  ∃ tr, Runs p tr a ∧ ∀ ev ∈ tr, ok ev

/-- **A program whose effects can all be answered returns**: with answers of `ok` at every point it
    can come to. -/
theorem Program.may_of_answerable {ok : Event S → Prop} {p : Program S α}
    (h : ∀ tr e k, Steps p tr (.op e k) → ∃ r, ok ⟨e, r⟩) : ∃ a, p.May ok a := by
  induction p with
  | ret a => exact ⟨a, [], .refl _, nofun⟩
  | op e k ih =>
    obtain ⟨r, hr⟩ := h [] e k (.refl _)
    obtain ⟨a, tr, hruns, hok⟩ := ih r fun tr e' k' hs => h _ e' k' (.step e r k hs)
    exact ⟨a, _, .step e r k hruns, List.forall_mem_cons.mpr ⟨hr, hok⟩⟩

theorem Program.may_ret {ok : Event S → Prop} (a : α) : (Program.ret a).May ok a :=
  ⟨[], .refl _, fun _ h => absurd h List.not_mem_nil⟩

theorem Program.May.op {ok : Event S → Prop} {e : S.Op} {k : S.Ans e → Program S α} {a : α}
    (r : S.Ans e) (he : ok ⟨e, r⟩) (h : (k r).May ok a) : (Program.op e k).May ok a := by
  obtain ⟨tr, hrun, hok⟩ := h
  exact ⟨⟨e, r⟩ :: tr, .step e r k hrun, List.forall_mem_cons.mpr ⟨he, hok⟩⟩

theorem Program.May.bind {ok : Event S → Prop} {p : Program S α} {f : α → Program S β} {a : α}
    {b : β} (hp : p.May ok a) (hf : (f a).May ok b) : (p >>= f).May ok b := by
  obtain ⟨tr, hrun, hok⟩ := hp
  obtain ⟨tr', hrun', hok'⟩ := hf
  exact ⟨tr ++ tr', steps_bind hrun hrun', List.forall_mem_append.mpr ⟨hok, hok'⟩⟩

end Traces

/-! ## 3. Protocols -/

/-- **An assume/guarantee protocol** with ghost state `Γ`: `ok γ e` allows the program to perform
    `e` in `γ`, `admits γ e r` is what the environment may answer there, `next` moves the ghost
    state. -/
structure Protocol (S : Signature) (Γ : Type) where
  ok : Γ → S.Op → Prop
  admits : (γ : Γ) → (e : S.Op) → S.Ans e → Prop
  next : Γ → (e : S.Op) → S.Ans e → Γ

section Protocols

variable {S : Signature} {Γ α β : Type}

/-- The ghost state a trace leaves. -/
def Protocol.after (P : Protocol S Γ) (γ : Γ) (tr : Trace S) : Γ :=
  tr.foldl (fun γ ev => P.next γ ev.op ev.ans) γ

/-- Every answer of the trace is one the protocol admits. -/
def Protocol.Admitted (P : Protocol S Γ) : Γ → Trace S → Prop
  | _, [] => True
  | γ, ev :: tr => P.admits γ ev.op ev.ans ∧ P.Admitted (P.next γ ev.op ev.ans) tr

@[simp] theorem Protocol.after_nil (P : Protocol S Γ) (γ : Γ) : P.after γ [] = γ := rfl

@[simp] theorem Protocol.after_cons (P : Protocol S Γ) (γ : Γ) (ev : Event S) (tr : Trace S) :
    P.after γ (ev :: tr) = P.after (P.next γ ev.op ev.ans) tr := rfl

theorem Protocol.after_append (P : Protocol S Γ) (γ : Γ) (tr tr' : Trace S) :
    P.after γ (tr ++ tr') = P.after (P.after γ tr) tr' := List.foldl_append

/-- A protocol that assumes nothing of the environment admits every trace. -/
theorem Protocol.admitted_of_free {P : Protocol S Γ} (h : ∀ γ e r, P.admits γ e r) :
    ∀ (tr : Trace S) (γ : Γ), P.Admitted γ tr
  | [], _ => trivial
  | _ :: tr, _ => ⟨h _ _ _, admitted_of_free h tr _⟩

namespace Program

/-- **`p` follows `P` from `γ` and ends in `Q`**: every operation on every admitted branch is
    allowed where it is performed. -/
def Follows (P : Protocol S Γ) : Program S α → Γ → (Γ → α → Prop) → Prop
  | .ret a, γ, Q => Q γ a
  | .op e k, γ, Q => P.ok γ e ∧ ∀ r, P.admits γ e r → (k r).Follows P (P.next γ e r) Q

variable {P : Protocol S Γ}

@[simp] theorem follows_ret {a : α} {γ : Γ} {Q : Γ → α → Prop} :
    (Program.ret a : Program S α).Follows P γ Q ↔ Q γ a := Iff.rfl

@[simp] theorem follows_op {e : S.Op} {k : S.Ans e → Program S α} {γ : Γ} {Q : Γ → α → Prop} :
    (Program.op e k).Follows P γ Q ↔
      P.ok γ e ∧ ∀ r, P.admits γ e r → (k r).Follows P (P.next γ e r) Q := Iff.rfl

/-- **The sequencing rule.** -/
theorem follows_bind {p : Program S α} {f : α → Program S β} {γ : Γ} {Q : Γ → β → Prop} :
    (p >>= f).Follows P γ Q ↔ p.Follows P γ fun γ' a => (f a).Follows P γ' Q := by
  induction p generalizing γ with
  | ret a => exact Iff.rfl
  | op e k ih => exact and_congr_right fun _ => forall₂_congr fun r _ => ih r

/-- The consequence rule. -/
theorem Follows.mono {p : Program S α} {γ : Γ} {Q Q' : Γ → α → Prop} (h : p.Follows P γ Q)
    (hQ : ∀ γ' a, Q γ' a → Q' γ' a) : p.Follows P γ Q' := by
  induction p generalizing γ with
  | ret a => exact hQ γ a h
  | op e k ih => exact ⟨h.1, fun r hr => ih r (h.2 r hr)⟩

/-- A protocol that demands nothing is followed by all programs. -/
theorem follows_of_free (hok : ∀ γ e, P.ok γ e) (p : Program S α) (γ : Γ) :
    p.Follows P γ fun _ _ => True := by
  induction p generalizing γ with
  | ret a => trivial
  | op e k ih => exact ⟨hok γ e, fun r _ => ih r _⟩

/-- Sequencing with an intermediate assertion. -/
theorem Follows.bind {p : Program S α} {f : α → Program S β} {γ : Γ} {R : Γ → α → Prop}
    {Q : Γ → β → Prop} (h : p.Follows P γ R) (hf : ∀ γ' a, R γ' a → (f a).Follows P γ' Q) :
    (p >>= f).Follows P γ Q :=
  follows_bind.mpr (h.mono hf)

/-- **SOUNDNESS**: after any admitted trace the rest of the program still follows the protocol. -/
theorem Follows.steps {p q : Program S α} {γ : Γ} {Q : Γ → α → Prop} {tr : Trace S}
    (h : p.Follows P γ Q) (hs : Steps p tr q) (ha : P.Admitted γ tr) :
    q.Follows P (P.after γ tr) Q := by
  induction hs generalizing γ with
  | refl p => exact h
  | step e r k _ ih => exact ih (h.2 r ha.1) ha.2

/-- A completed run ends in the postcondition. -/
theorem Follows.runs {p : Program S α} {γ : Γ} {Q : Γ → α → Prop} {tr : Trace S} {a : α}
    (h : p.Follows P γ Q) (hr : Runs p tr a) (ha : P.Admitted γ tr) : Q (P.after γ tr) a :=
  h.steps hr ha

/-- An operation the program is about to perform is allowed. -/
theorem Follows.head {p : Program S α} {γ : Γ} {Q : Γ → α → Prop} {tr : Trace S} {e : S.Op}
    {k : S.Ans e → Program S α} (h : p.Follows P γ Q) (hs : Steps p tr (.op e k))
    (ha : P.Admitted γ tr) : P.ok (P.after γ tr) e :=
  (h.steps hs ha).1

/-- Every operation of an admitted trace was allowed where it was performed. -/
theorem Follows.performed {p q : Program S α} {γ : Γ} {Q : Γ → α → Prop} {tr tr' : Trace S}
    {ev : Event S} (h : p.Follows P γ Q) (hs : Steps p (tr ++ ev :: tr') q)
    (ha : P.Admitted γ tr) : P.ok (P.after γ tr) ev.op := by
  obtain ⟨q', hq, hs'⟩ := steps_append_iff.mp hs
  cases hs' with
  | step e r k _ => exact h.head hq ha

/-- **THE INVARIANT RULE**: what the allowed operations keep of the ghost state holds after any
    admitted trace. -/
theorem Follows.invariant {I : Γ → Prop}
    (hnext : ∀ γ e r, I γ → P.ok γ e → P.admits γ e r → I (P.next γ e r))
    {p q : Program S α} {γ : Γ} {Q : Γ → α → Prop} {tr : Trace S} (h : p.Follows P γ Q)
    (hs : Steps p tr q) (ha : P.Admitted γ tr) (hI : I γ) : I (P.after γ tr) := by
  induction hs generalizing γ with
  | refl p => exact hI
  | step e r k _ ih => exact ih (h.2 r ha.1) ha.2 (hnext γ e r hI h.1 ha.1)

end Program

/-- The protocol that demands and assumes nothing. -/
def anyProtocol : Protocol S Unit := ⟨fun _ _ => True, fun _ _ _ => True, fun _ _ _ => ()⟩

/-- **Every value the program can return meets `Q`**, whatever the environment answers. -/
def Program.Ensures (p : Program S α) (Q : α → Prop) : Prop :=
  p.Follows anyProtocol () fun _ a => Q a

theorem Program.Ensures.bind {p : Program S α} {f : α → Program S β} {R : α → Prop} {Q : β → Prop}
    (h : p.Ensures R) (hf : ∀ a, R a → (f a).Ensures Q) : (p >>= f).Ensures Q :=
  Program.Follows.bind h fun _ a ha => hf a ha

theorem Program.Ensures.runs {p : Program S α} {Q : α → Prop} (h : p.Ensures Q) {tr : Trace S}
    {a : α} (hr : Runs p tr a) : Q a :=
  Program.Follows.runs h hr (Protocol.admitted_of_free (fun _ _ _ => trivial) tr ())

/-- The protocol whose ghost state is the trace itself: `ok` judges an operation by everything
    performed before it; the environment keeps to `admits`. -/
def recordProtocol (admits : (e : S.Op) → S.Ans e → Prop) (ok : Trace S → S.Op → Prop) :
    Protocol S (Trace S) where
  ok := ok
  admits _ e r := admits e r
  next h e r := h ++ [⟨e, r⟩]

section Records

variable {admits : (e : S.Op) → S.Ans e → Prop} {ok : Trace S → S.Op → Prop}

theorem recordProtocol_after (h tr : Trace S) :
    (recordProtocol admits ok).after h tr = h ++ tr := by
  induction tr generalizing h with
  | nil => simp
  | cons ev tr ih =>
    rw [Protocol.after_cons, ih]
    simp [recordProtocol]

theorem recordProtocol_admitted {h tr : Trace S} :
    (recordProtocol admits ok).Admitted h tr ↔ ∀ ev ∈ tr, admits ev.op ev.ans := by
  induction tr generalizing h with
  | nil => exact ⟨fun _ => nofun, fun _ => trivial⟩
  | cons ev tr ih =>
    rw [List.forall_mem_cons]
    exact and_congr_right fun _ => ih

/-- An operation the program is about to perform is allowed after what it has performed. -/
theorem Program.Follows.head_record {p : Program S α} {Q : Trace S → α → Prop}
    (h : p.Follows (recordProtocol admits ok) [] Q) {tr : Trace S} {e : S.Op}
    {k : S.Ans e → Program S α} (hs : Steps p tr (.op e k)) (ha : ∀ ev ∈ tr, admits ev.op ev.ans) :
    ok tr e := by
  have := h.head hs (recordProtocol_admitted.mpr ha)
  rw [recordProtocol_after] at this
  exact this

/-- So is every operation of the trace, after what was performed before it. -/
theorem Program.Follows.performed_record {p q : Program S α} {Q : Trace S → α → Prop}
    (h : p.Follows (recordProtocol admits ok) [] Q) {tr tr' : Trace S} {ev : Event S}
    (hs : Steps p (tr ++ ev :: tr') q) (ha : ∀ ev ∈ tr, admits ev.op ev.ans) : ok tr ev.op := by
  have := h.performed hs (recordProtocol_admitted.mpr ha)
  rw [recordProtocol_after] at this
  exact this

/-- What a completed trace meets. -/
theorem Program.Follows.runs_record {p : Program S α} {Q : Trace S → α → Prop}
    (h : p.Follows (recordProtocol admits ok) [] Q) {tr : Trace S} {a : α} (hr : Runs p tr a)
    (ha : ∀ ev ∈ tr, admits ev.op ev.ans) : Q tr a := by
  have := h.runs hr (recordProtocol_admitted.mpr ha)
  rw [recordProtocol_after] at this
  exact this

end Records

/-- The protocol whose ghost state is the trace itself: `ok` judges an operation by everything
    performed before it, and the environment is free. -/
def historyProtocol (ok : Trace S → S.Op → Prop) : Protocol S (Trace S) where
  ok := ok
  admits _ _ _ := True
  next h e r := h ++ [⟨e, r⟩]

theorem historyProtocol_after (ok : Trace S → S.Op → Prop) (h tr : Trace S) :
    (historyProtocol ok).after h tr = h ++ tr := by
  show (recordProtocol (fun _ _ => True) ok).after h tr = h ++ tr
  exact recordProtocol_after h tr

/-- **What a program does at a point of its trace**: each operation is judged by the trace before
    it. -/
theorem Program.Follows.head_history {p : Program S α} {ok : Trace S → S.Op → Prop}
    {Q : Trace S → α → Prop} (h : p.Follows (historyProtocol ok) [] Q) {tr : Trace S} {e : S.Op}
    {k : S.Ans e → Program S α} (hs : Steps p tr (.op e k)) : ok tr e := by
  have := h.head hs (Protocol.admitted_of_free (fun _ _ _ => trivial) tr [])
  rw [historyProtocol_after] at this
  exact this

/-- What a completed trace meets. -/
theorem Program.Follows.runs_history {p : Program S α} {ok : Trace S → S.Op → Prop}
    {Q : Trace S → α → Prop} (h : p.Follows (historyProtocol ok) [] Q) {tr : Trace S} {a : α}
    (hr : Runs p tr a) : Q tr a := by
  have := h.runs hr (Protocol.admitted_of_free (fun _ _ _ => trivial) tr [])
  rw [historyProtocol_after] at this
  exact this

/-- The trace a program ends with goes on from the one it started after. -/
theorem Program.Follows.grown {p : Program S α} {ok : Trace S → S.Op → Prop} {h : Trace S}
    {Q : Trace S → α → Prop} (hp : p.Follows (historyProtocol ok) h Q) :
    p.Follows (historyProtocol ok) h fun tr a => h <+: tr ∧ Q tr a := by
  have key : ∀ {tr : Trace S}, h <+: tr → p.Follows (historyProtocol ok) tr Q →
      p.Follows (historyProtocol ok) tr fun tr' a => h <+: tr' ∧ Q tr' a := by
    clear hp
    induction p with
    | ret a => exact fun htr hp => ⟨htr, hp⟩
    | op e k ih =>
      intro tr htr hp
      exact ⟨hp.1, fun r _ => ih r (htr.trans (List.prefix_append _ _)) (hp.2 r trivial)⟩
  exact key (List.prefix_refl h) hp

/-- **Every operation `p` can perform is one of `ok`.** -/
def Program.Performs (ok : S.Op → Prop) (p : Program S α) : Prop :=
  p.Follows ⟨fun _ => ok, fun _ _ _ => True, fun _ _ _ => ()⟩ () fun _ _ => True

theorem Program.Performs.bind {ok : S.Op → Prop} {p : Program S α} {f : α → Program S β}
    (h : p.Performs ok) (hf : ∀ a, (f a).Performs ok) : (p >>= f).Performs ok :=
  Program.Follows.bind h fun _ a _ => hf a

theorem Program.Performs.mono {ok ok' : S.Op → Prop} (hok : ∀ e, ok e → ok' e)
    {p : Program S α} (h : p.Performs ok) : p.Performs ok' := by
  induction p with
  | ret a => exact trivial
  | op e k ih => exact ⟨hok e h.1, fun r _ => ih r (h.2 r trivial)⟩

/-- Operations that leave the ghost state alone and are always allowed keep to any protocol. -/
theorem Program.Performs.follows {ok : S.Op → Prop} {P : Protocol S Γ} {γ : Γ}
    (hok : ∀ e, ok e → P.ok γ e) (hnext : ∀ e r, ok e → P.next γ e r = γ) {p : Program S α}
    (h : p.Performs ok) : p.Follows P γ fun γ' _ => γ' = γ := by
  induction p with
  | ret a => rfl
  | op e k ih =>
    refine ⟨hok e h.1, fun r _ => ?_⟩
    rw [hnext e r h.1]
    exact ih r (h.2 r trivial)

/-- **A stricter protocol** is followed, too, by a program that performs only operations of which it
    asks no more. -/
theorem Program.Performs.stricter {ok : S.Op → Prop} {P P' : Protocol S Γ}
    (hok : ∀ γ e, ok e → P.ok γ e → P'.ok γ e) (hadmits : P'.admits = P.admits)
    (hnext : P'.next = P.next) {p : Program S α} (h : p.Performs ok) {γ : Γ} {Q : Γ → α → Prop}
    (hp : p.Follows P γ Q) : p.Follows P' γ Q := by
  induction p generalizing γ with
  | ret a => exact hp
  | op e k ih =>
    refine ⟨hok γ e h.1 hp.1, fun r hr => ?_⟩
    rw [hnext]
    exact ih r (h.2 r trivial) (hp.2 r (hadmits ▸ hr))

end Protocols

/-! ## 4. A program run alone -/

section Alone

variable {S : Signature} {σ α β : Type}

/-- A handler answers every operation from a state; `none` is a crash. -/
abbrev Handler (S : Signature) (σ : Type) := (e : S.Op) → σ → Option (S.Ans e × σ)

namespace Program

/-- Run the program alone: every answer comes from the handler. -/
def eval (H : Handler S σ) : Program S α → σ → Option (α × σ)
  | .ret a, s => some (a, s)
  | .op e k, s => (H e s).bind fun x => (k x.1).eval H x.2

@[simp] theorem eval_ret (H : Handler S σ) (a : α) (s : σ) :
    (Program.ret a : Program S α).eval H s = some (a, s) := rfl

@[simp] theorem eval_op (H : Handler S σ) (e : S.Op) (k : S.Ans e → Program S α) (s : σ) :
    (Program.op e k).eval H s = (H e s).bind fun x => (k x.1).eval H x.2 := rfl

theorem eval_bind (H : Handler S σ) (p : Program S α) (f : α → Program S β) (s : σ) :
    (p >>= f).eval H s = (p.eval H s).bind fun x => (f x.1).eval H x.2 := by
  induction p generalizing s with
  | ret a => rfl
  | op e k ih =>
    simp only [op_bind, eval_op, ih, Option.bind_assoc]

/-- Run the program alone as far as it goes: the state it leaves, and its value unless it
    crashes. -/
def exec (H : Handler S σ) : Program S α → σ → σ × Option α
  | .ret a, s => (s, some a)
  | .op e k, s =>
    match H e s with
    | some (r, s') => (k r).exec H s'
    | none => (s, none)

theorem exec_op {H : Handler S σ} {e : S.Op} {k : S.Ans e → Program S α} {s s' : σ} {r : S.Ans e}
    (h : H e s = some (r, s')) : (Program.op e k).exec H s = (k r).exec H s' := by
  rw [exec, h]

theorem exec_crash {H : Handler S σ} {e : S.Op} {k : S.Ans e → Program S α} {s : σ}
    (h : H e s = none) : (Program.op e k).exec H s = (s, none) := by
  rw [exec, h]

/-- What follows is run from the state left, if there is a value to go on with. -/
theorem exec_bind_some {H : Handler S σ} {p : Program S α} {f : α → Program S β} {s s' : σ} {a : α}
    (h : p.exec H s = (s', some a)) : (p >>= f).exec H s = (f a).exec H s' := by
  induction p generalizing s with
  | ret b =>
    cases h
    rfl
  | op e k ih =>
    rw [op_bind]
    cases hstep : H e s with
    | none =>
      rw [exec_crash hstep] at h
      cases h
    | some x =>
      rw [exec_op hstep] at h ⊢
      exact ih x.1 h

theorem exec_bind_none {H : Handler S σ} {p : Program S α} {f : α → Program S β} {s s' : σ}
    (h : p.exec H s = (s', none)) : (p >>= f).exec H s = (s', none) := by
  induction p generalizing s with
  | ret b => cases h
  | op e k ih =>
    rw [op_bind]
    cases hstep : H e s with
    | none =>
      rw [exec_crash hstep] at h ⊢
      cases h
      rfl
    | some x =>
      rw [exec_op hstep] at h ⊢
      exact ih x.1 h

theorem exec_map (H : Handler S σ) (p : Program S α) (g : α → β) (s : σ) :
    (p >>= fun a => .ret (g a)).exec H s = ((p.exec H s).1, (p.exec H s).2.map g) := by
  match h : p.exec H s with
  | (s', some a) => exact exec_bind_some h
  | (s', none) => exact exec_bind_none h

/-- **A program run alone keeps what its operations keep.** -/
theorem Performs.eval_inv {ok : S.Op → Prop} {H : Handler S σ} {I : σ → Prop}
    (hstep : ∀ e s r s', ok e → I s → H e s = some (r, s') → I s') {p : Program S α}
    (h : p.Performs ok) {s : σ} (hs : I s) {a : α} {s' : σ} (he : p.eval H s = some (a, s')) :
    I s' := by
  induction p generalizing s with
  | ret b =>
    cases he
    exact hs
  | op e k ih =>
    rw [eval_op] at he
    obtain ⟨⟨r, t⟩, hstep', he⟩ := Option.bind_eq_some_iff.mp he
    exact ih r (h.2 r trivial) (hstep e s r t h.1 hs hstep') he

end Program

end Alone

/-! ## 5. Operations that are programs themselves -/

section Expansion

variable {S T : Signature} {α : Type}

/-- Every operation carried out by a program over another signature. -/
def Program.expand (f : (e : S.Op) → Program T (S.Ans e)) : Program S α → Program T α
  | .ret a => .ret a
  | .op e k => f e >>= fun r => (k r).expand f

theorem Program.Performs.expand {f : (e : S.Op) → Program T (S.Ans e)} {ok : S.Op → Prop}
    {ok' : T.Op → Prop} (hf : ∀ e, ok e → (f e).Performs ok') {p : Program S α}
    (h : p.Performs ok) : (p.expand f).Performs ok' := by
  induction p with
  | ret a => exact trivial
  | op e k ih => exact (hf e h.1).bind fun r => ih r (h.2 r trivial)

end Expansion

end Interaction
