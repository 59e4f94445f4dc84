/-
  File:      TransportBalancer/Batching/FailureClass.lean
  Subject:   THE CLASS OF A FAILURE behind the batching transport. A request that travels as a
             `Single` fails with the error of its inner call; one that travels in a batch fails
             with a text about it, which is classified anew.

  * `AlloyDisplay` -- how errors are rendered, as far as the classification looks into it;
  * `KeepsClass`, **`sameClass_batchError_iff`** -- the errors a batch passes on in their class;
  * `Relaying` -- after a failed call its task fails the entries of the packet, nobody else does;
  * `FirstFailure` -- a caller returns the error of the first of its requests to fail;
  * **`failure_class`** -- in every run after a failed inner call, every request of its packet is
    answered with what `relayed` says; a caller has the class of the failure exactly if the first of
    its requests to fail keeps it.
-/
import TransportBalancer.Balancer.Call
import TransportBalancer.Batching.Histories
import TransportBalancer.Batching.Provenance
import TransportBalancer.Lib.Occurrence

namespace TransportBalancer.Batching

open Interaction TaskPool Occurrence

/-! ## 1. Rendered errors -/

/-- What may stand in front of the body in the text of an HTTP error: nothing, or a word on it. -/
def bodyLeads : List String := ["", "body: ", "empty body"]

/-- How alloy renders the errors whose text the classification looks into. -/
structure AlloyDisplay (display : TransportError → String) : Prop where
  http : ∀ status body, ∃ lead ∈ bodyLeads, display (.transport (.httpError status body)) =
    "HTTP error " ++ toString status.toNat ++ " with " ++ lead ++ body
  custom : ∀ msg, display (.transport (.custom msg)) = msg

/-- Two errors classified the same way. -/
def SameClass (e e' : TransportError) : Prop :=
  isRetryable e = isRetryable e' ∧ isRateLimit e = isRateLimit e'

instance (e e' : TransportError) : Decidable (SameClass e e') :=
  inferInstanceAs (Decidable (_ ∧ _))

/-- A text that speaks of a rate limit. -/
def Throttled (text : String) : Prop := containsText text "429 Too Many Requests" = true

/-- A text with one of the patterns of a retryable failure. -/
def Marked (text : String) : Prop :=
  containsText text "timed out" = true ∨ containsText text "connection" = true ∨ Throttled text

/-- **The errors that keep their class in a batch**, by their status code and the patterns in their
    text. -/
def KeepsClass (display : TransportError → String) : TransportError → Prop
  | .transport (.custom _) => True
  | .transport (.httpError status body) =>
    (Marked body ↔ status ∈ [413, 429, 502, 503, 504]) ∧ (Throttled body ↔ status = 429)
  | .transport .backendGone =>
    Marked (display backendGone) ∧ ¬ Throttled (display backendGone)
  | e => ¬ Marked (display e)

theorem isRetryable_customStr (msg : String) : isRetryable (customStr msg) = true ↔ Marked msg := by
  unfold isRetryable customStr Marked Throttled
  rw [Bool.or_eq_true, Bool.or_eq_true, or_assoc]

theorem isRateLimit_customStr (msg : String) :
    isRateLimit (customStr msg) = true ↔ Throttled msg := Iff.rfl

/-- The patterns of the classification. -/
def patterns : List String := ["timed out", "connection", "429 Too Many Requests"]

/-- A text in front of which, or at whose end, no pattern occurs or begins. -/
def Neutral (front : List Char) : Prop := ∀ pattern ∈ patterns, Apart pattern.toList front

/-- Behind a neutral text the patterns occur where they did. -/
theorem marked_behind {front : String} (h : Neutral front.toList) (text : String) :
    (Marked (front ++ text) ↔ Marked text) ∧ (Throttled (front ++ text) ↔ Throttled text) := by
  have hcontains : ∀ pattern ∈ patterns, (containsText (front ++ text) pattern = true ↔
      containsText text pattern = true) := by
    intro pattern hpattern
    unfold containsText
    rw [decide_eq_true_iff, decide_eq_true_iff, String.toList_append]
    exact (h pattern hpattern).append_iff _
  have hthrottled := hcontains "429 Too Many Requests" (by decide)
  exact ⟨or_congr (hcontains "timed out" (by decide))
    (or_congr (hcontains "connection" (by decide)) hthrottled), hthrottled⟩

/-- The text in front of a rendered error is neutral, -/
theorem neutral_batch : Neutral "batch request failed: ".toList := by
  intro pattern hpattern
  simp only [patterns, List.mem_cons, List.not_mem_nil, or_false] at hpattern
  rcases hpattern with rfl | rfl | rfl <;> exact ⟨by decide, by decide⟩

/-- and so is the one in front of a body. -/
theorem neutral_http (status : UInt16) {lead : String} (hlead : lead ∈ bodyLeads) :
    Neutral ("HTTP error " ++ toString status.toNat ++ (" with " ++ lead)).toList := by
  have hdigits : ∀ a, a.isDigit = false → a ∉ "HTTP error ".toList → a ∉ (" with " ++ lead).toList →
      a ∉ ("HTTP error " ++ toString status.toNat).toList ++ (" with " ++ lead).toList := by
    intro a ha hfront hlast hmem
    rcases List.mem_append.mp hmem with hmem | hmem
    · rw [String.toList_append] at hmem
      rcases List.mem_append.mp hmem with hmem | hmem
      · exact hfront hmem
      · rw [show (toString status.toNat).toList = Nat.toDigits 10 status.toNat from
          Nat.toList_repr] at hmem
        rw [Nat.isDigit_of_mem_toDigits (by decide) (by decide) hmem] at ha
        cases ha
    · exact hlast hmem
  intro pattern hpattern
  rw [String.toList_append]
  simp only [patterns, bodyLeads, List.mem_cons, List.not_mem_nil, or_false] at hpattern hlead
  rcases hpattern with rfl | rfl | rfl
  · rcases hlead with rfl | rfl | rfl <;>
      exact apart_of_end (a := 'u') (by decide) (hdigits _ rfl (by decide) (by decide)) (by decide)
        (by decide)
  · rcases hlead with rfl | rfl | rfl <;>
      exact apart_of_end (a := 'c') (by decide) (hdigits _ rfl (by decide) (by decide)) (by decide)
        (by decide)
  · rcases hlead with rfl | rfl | rfl <;>
      exact apart_of_end (a := 'M') (by decide) (hdigits _ rfl (by decide) (by decide)) (by decide)
        (by decide)

/-- The text of an HTTP error is marked as its body is. -/
theorem AlloyDisplay.marked_http {display : TransportError → String} (h : AlloyDisplay display)
    (status : UInt16) (body : String) :
    (Marked (display (.transport (.httpError status body))) ↔ Marked body) ∧
      (Throttled (display (.transport (.httpError status body))) ↔ Throttled body) := by
  obtain ⟨lead, hlead, htext⟩ := h.http status body
  have hmarked := marked_behind (neutral_http status hlead) body
  rw [← String.append_assoc] at hmarked
  rw [htext]
  exact hmarked

/-- **The class of a batch's error** is that of the text it was made of. -/
theorem sameClass_batchError (display : TransportError → String) (e' e : TransportError) :
    SameClass (batchError display e') e ↔
      (Marked (display e') ↔ isRetryable e = true) ∧
        (Throttled (display e') ↔ isRateLimit e = true) :=
  have hbehind := marked_behind neutral_batch (display e')
  and_congr
    (Bool.eq_iff_iff.trans (iff_congr ((isRetryable_customStr _).trans hbehind.1) Iff.rfl))
    (Bool.eq_iff_iff.trans (iff_congr ((isRateLimit_customStr _).trans hbehind.2) Iff.rfl))

/-- **What a batch makes of an error** is in its class exactly if the error keeps its class. -/
theorem sameClass_batchError_iff {display : TransportError → String}
    (hdisplay : AlloyDisplay display) (e : TransportError) :
    SameClass (batchError display e) e ↔ KeepsClass display e := by
  rw [sameClass_batchError]
  -- a rendering that is not marked speaks of no rate limit either
  have hfinal : isRetryable e = false → isRateLimit e = false →
      (((Marked (display e) ↔ isRetryable e = true) ∧
        (Throttled (display e) ↔ isRateLimit e = true)) ↔ ¬ Marked (display e)) := by
    intro hretryable hlimit
    rw [hretryable, hlimit]
    constructor
    · exact fun h hmarked => Bool.false_ne_true (h.1.mp hmarked)
    · exact fun h => ⟨⟨fun hmarked => absurd hmarked h, nofun⟩,
        ⟨fun hthrottled => absurd (Or.inr (Or.inr hthrottled)) h, nofun⟩⟩
  cases e with
  | transport kind =>
    cases kind with
    | custom msg =>
      rw [hdisplay.custom]
      exact ⟨fun _ => trivial, fun _ =>
        ⟨(isRetryable_customStr msg).symm, (isRateLimit_customStr msg).symm⟩⟩
    | httpError status body =>
      have hbody := hdisplay.marked_http status body
      rw [hbody.1, hbody.2]
      refine and_congr (iff_congr Iff.rfl ?_) (iff_congr Iff.rfl ?_)
      · simp [isRetryable, or_assoc]
      · exact decide_eq_true_iff
    | backendGone =>
      show ((_ ↔ true = true) ∧ (_ ↔ false = true)) ↔ _ ∧ _
      simp
      rfl
    | missingBatchResponse | pubsubUnavailable => exact hfinal rfl rfl
  | errorResp | nullResp | unsupportedFeature | localUsageError | serError | deserError =>
    exact hfinal rfl rfl

/-- The error of a request whose packet failed with `e`. -/
def relayed (display : TransportError → String) : RequestPacket → TransportError → TransportError
  | .single _, e => e
  | .batch _, e => batchError display e

/-- **What fails a request**: its id came again, or an inner call with it failed. -/
inductive Cause
  | collided
  | call (packet : RequestPacket) (e : TransportError)

/-- The error it is failed with. -/
def Cause.error (display : TransportError → String) : Cause → TransportError
  | .collided => duplicateIdError
  | .call packet e => relayed display packet e

/-- **The causes that give an error in the class** of `e`. -/
def Cause.Matches (display : TransportError → String) (e : TransportError) : Cause → Prop
  | .collided => isRetryable e = false ∧ isRateLimit e = false
  | .call (.single _) e' => SameClass e' e
  | .call (.batch _) e' => (Marked (display e') ↔ isRetryable e = true) ∧
    (Throttled (display e') ↔ isRateLimit e = true)

theorem sameClass_cause (display : TransportError → String) (e : TransportError) (cause : Cause) :
    SameClass (cause.error display) e ↔ cause.Matches display e := by
  match cause with
  | .collided => exact and_congr eq_comm eq_comm
  | .call (.single _) e' => exact Iff.rfl
  | .call (.batch _) e' => exact sameClass_batchError display e' e

/-- **Exactly these failures are relayed in their class**: of a packet that is a `Single`, and of a
    batch those that keep it. -/
theorem sameClass_relayed_iff {display : TransportError → String} (hdisplay : AlloyDisplay display)
    (packet : RequestPacket) (e : TransportError) : SameClass (relayed display packet e) e ↔
      (∃ request, packet = .single request) ∨ KeepsClass display e := by
  cases packet with
  | single request => exact ⟨fun _ => Or.inl ⟨request, rfl⟩, fun _ => ⟨rfl, rfl⟩⟩
  | batch reqs =>
    rw [relayed, sameClass_batchError_iff hdisplay]
    exact ⟨Or.inr, fun h => h.resolve_left fun h => by
      obtain ⟨_, heq⟩ := h
      cases heq⟩

/-! ## 2. A task whose inner call has failed -/

/-- What a task still does whose inner call has failed: it fails entries with that error. -/
def OnlyFails (err : TransportError) : BatchOp → Prop
  | .send _ result => result = .error err
  | .spawn _ | .drain => False
  | _ => True

section Tasks

variable {b : BatchingTransport} {p p' q : Pool BatchingShared BatchTask} {task : SpawnedTask}
  {tr more : Trace BatchSig} {t u : BatchTask} {packet : RequestPacket} {e : TransportError}

/-- A chunk whose batch call failed calls no more. -/
theorem no_call_after {config : BatchingConfig} {display : TransportError → String}
    {pending : List PendingRequest} {reqs : List SerializedRequest} {q : Program BatchSig Unit}
    (hs : Steps (sendBatchWithRetry config display pending)
      (tr ++ ⟨.innerCall (.batch reqs), .error e⟩ :: more) q)
    (horders : MapOrders (tr ++ ⟨.innerCall (.batch reqs), .error e⟩ :: more)) :
    batchReplies more = [] := by
  refine List.filterMap_eq_nil_iff.mpr fun ev hev => ?_
  obtain ⟨op, r⟩ := ev
  cases op with
  | innerCall packet =>
    exfalso
    obtain ⟨more₁, more₂, rfl⟩ := List.append_of_mem hev
    have hsplit : tr ++ ⟨.innerCall (.batch reqs), .error e⟩ :: (more₁ ++ ⟨.innerCall packet, r⟩ ::
        more₂) = (tr ++ ⟨.innerCall (.batch reqs), .error e⟩ :: more₁) ++
          ⟨.innerCall packet, r⟩ :: more₂ := by
      rw [List.append_assoc, List.cons_append]
    rw [hsplit] at hs horders
    have hmay : MayCall config display pending _ packet :=
      sendBatchWithRetry_follows.performed_record hs horders.before
    -- every reply before it matched, but this one is an error
    have hmatched := hmay.matched
    rw [batchReplies_append] at hmatched
    exact (allMatched_append.mp hmatched).2.1.elim
  | _ => rfl

/-- **After a failed call a task only fails entries.** -/
theorem after_failure (h : History b task (tr ++ ⟨.innerCall packet, .error e⟩ :: more) u)
    {op : BatchOp} {k : BatchSig.Ans op → Program BatchSig TaskEnd} (hrest : u.rest = .op op k) :
    OnlyFails (relayed b.display packet e) op := by
  obtain ⟨k', hs⟩ := h.program_op hrest
  have horders := h.orders
  have hbefore := horders.before
  rcases worker_cases b.config.toBatchingConfig b.display task with ⟨pending, rfl⟩ |
    ⟨p, hentries, hfollows⟩
  · have hcall : MayCall b.config.toBatchingConfig b.display pending tr packet :=
      sendBatchWithRetry_follows.performed_record hs hbefore
    obtain ⟨reqs, rfl, _, _⟩ := hcall.carries
    have hreplies : batchReplies (tr ++ ⟨.innerCall (.batch reqs), .error e⟩ :: more) =
        batchReplies tr ++ [.error e] := by
      rw [batchReplies_append, ← List.singleton_append, batchReplies_append,
        no_call_after hs horders]
      rfl
    have hok := sendBatchWithRetry_follows.head_record hs horders
    cases op with
    | send y result =>
      -- what was due before the call has been sent: this is one of the failures
      have hsub : (sends _ ++ [(y, result)]).Subperm (chunkSends _ _ (batchReplies _)) := hok
      have hdue := hcall.standing.sent
      unfold Due at hdue
      rw [List.append_nil] at hdue
      rw [hreplies, chunkSends_append, sends_append, List.append_assoc] at hsub
      have hfails := (List.subperm_append_left _).mp
        (hsub.trans (hdue.symm.append_right _).subperm)
      obtain ⟨_, _, heq⟩ := List.mem_map.mp (hfails.subset (List.mem_append_right _
        (List.mem_singleton_self _)))
      exact (congrArg Prod.snd heq).symm
    | spawn task =>
      have hmay : MaySpawn b.config.toBatchingConfig b.display pending _ task := hok
      obtain ⟨semaphore, p, rfl⟩ := hmay.single
      have hout := hmay.out
      unfold stillOut at hout
      rw [hreplies, outstandingAfter_append, List.flatMap_append] at hout
      exact List.not_mem_nil (hout.subset (List.mem_append_right _ (List.mem_singleton_self p)))
    | drain => exact hok.elim
    | _ => trivial
  · obtain ⟨rfl, _⟩ := hfollows.performed_record hs hbefore
    have hok := hfollows.head_record hs horders
    cases op with
    | send y result =>
      obtain ⟨_, hresults⟩ := hok
      unfold innerResults at hresults
      rw [List.filterMap_append, List.filterMap_cons] at hresults
      have hmem : (.error e : RpcResult) ∈ [result] := by
        rw [← hresults]
        exact List.mem_append_right _ List.mem_cons_self
      exact (List.mem_singleton.mp hmem).symm
    | spawn | drain => exact hok.elim
    | _ => trivial

/-- **What such a step does**: it fails an entry, or answers nothing and gives up no sender. -/
theorem onlyFails_effect {err : TransportError} {op : BatchOp} (honly : OnlyFails err op)
    {s s' : BatchingShared} {r : BatchSig.Ans op} (heff : Effect b s op r s') (l : Ledger) :
    (∃ y, s'.answers = s.answers ++ [(y, .error err)] ∧ (l.next op r).owned = l.owned.erase y) ∨
      (s'.answers = s.answers ∧ (l.next op r).owned = l.owned) := by
  cases op with
  | send y result =>
    obtain rfl := heff
    obtain rfl : result = .error err := honly
    exact Or.inl ⟨y, rfl, rfl⟩
  | spawn | drain => exact honly.elim
  | enqueue =>
    obtain ⟨_, rfl⟩ := heff
    exact Or.inr ⟨rfl, rfl⟩
  | dropShared =>
    obtain rfl := heff
    exact Or.inr ⟨dropShared_answers s, rfl⟩
  | upgrade => exact Or.inr ⟨(effect_frame heff rfl).answers, by cases r <;> rfl⟩
  | _ => exact Or.inr ⟨(effect_frame heff rfl).answers, rfl⟩

/-- What a task is about to send on it owns. -/
theorem sender_owns (hr : (batchSystem b).Reachable (BatchStart b) p) (ht : t ∈ p.tasks)
    {y : PendingRequest} {result : RpcResult} {k : Unit → Program BatchSig TaskEnd}
    (hrest : t.rest = .op (.send y result) k) : y ∈ t.ledger.owned := by
  have hok := batchTask_ok hr t ht
  unfold BatchTask.Ok at hok
  rw [hrest] at hok
  exact hok.1

/-- **An entry a task owns** is not settled, and no other task owns it. -/
theorem owned_alone (hr : (batchSystem b).Reachable (BatchStart b) p) {i : Nat}
    (hi : p.tasks[i]? = some t) {x : PendingRequest} (hx : x ∈ t.ledger.owned) :
    p.shared.settled x = 0 ∧ ∀ j u, p.tasks[j]? = some u → x ∈ u.ledger.owned → j = i := by
  have hone := one_place hr (owned_pushed hr (List.mem_of_getElem? hi) hx)
  have hcount := Multiset.count_pos.mpr hx
  have htotal : t.ledger.owned.count x ≤ p.total fun t => t.ledger.owned.count x :=
    List.single_le_sum (fun _ _ => Nat.zero_le _) _
      (List.mem_map_of_mem (List.mem_of_getElem? hi))
  refine ⟨by omega, fun j u hj hu => ?_⟩
  by_contra hne
  have htwo := total_two (fun t => t.ledger.owned.count x) hne hj hi
  have hcount' := Multiset.count_pos.mpr hu
  omega

/-- Every answer of a step is sent by a task that owns the entry. -/
theorem answers_new (hr : (batchSystem b).Reachable (BatchStart b) p) {w : Actor}
    (hs : (batchSystem b).Step p w p') : p'.shared.answers = p.shared.answers ∨
      ∃ j u y result, w = .task j ∧ p.tasks[j]? = some u ∧ y ∈ u.ledger.owned ∧
        p'.shared.answers = p.shared.answers ++ [(y, result)] := by
  cases hs with
  | @act s s' l r new t t' h =>
    rcases answers_step h with hsame | ⟨y, result, k, hrest, hnew⟩
    · exact Or.inl hsame
    · exact Or.inr ⟨l.length, t, y, result, rfl, by simp, sender_owns hr (by simp) hrest, hnew⟩
  | @env s s' ts h =>
    cases h with
    | tick | cloned => exact Or.inl rfl
    | dropped => exact Or.inl (dropShared_answers s)
  | arrive h =>
    obtain ⟨_, rfl, _⟩ := h
    exact Or.inl rfl

/-! ## 3. Runs after a failed call -/

/-- **The inner call of a task fails** with `e`. -/
structure CallFails (b : BatchingTransport) (p : Pool BatchingShared BatchTask) (i : Nat)
    (t : BatchTask) (packet : RequestPacket) (e : TransportError)
    (p' : Pool BatchingShared BatchTask) : Prop where
  task : p.tasks[i]? = some t
  allowed : b.inner packet (.error e)
  fails : ∃ k, t.rest = .op (.innerCall packet) k ∧
    p' = ⟨{ p.shared with calls := p.shared.calls ++ [packet] },
      p.tasks.set i ⟨t.kind, k (.error e), t.ledger⟩⟩

/-- **What holds from then on**: the task stands after a history with the failed call; the entries
    it owned are its own or failed with `err`, and answered in no other way. -/
structure Relaying (b : BatchingTransport) (owned : Multiset PendingRequest) (i : Nat)
    (err : TransportError) (q : Pool BatchingShared BatchTask) : Prop where
  standing : ∃ u task tr more packet e, q.tasks[i]? = some u ∧
    History b task (tr ++ ⟨.innerCall packet, .error e⟩ :: more) u ∧
    relayed b.display packet e = err ∧
    ∀ x ∈ owned, x ∈ u.ledger.owned ∨ (x, .error err) ∈ q.shared.answers
  only : ∀ x ∈ owned, ∀ result, (x, result) ∈ q.shared.answers → result = .error err

/-- Only spawned tasks call the inner service. -/
theorem caller_of_inner (hr : (batchSystem b).Reachable (BatchStart b) p) (ht : t ∈ p.tasks)
    {k : RpcResult → Program BatchSig TaskEnd} (hrest : t.rest = .op (.innerCall packet) k) :
    ∃ task, t.kind = .worker task := by
  cases hkind : t.kind with
  | worker task => exact ⟨task, rfl⟩
  | caller => cases caller_op hr ht (by rw [hkind]; rfl) hrest
  | flush =>
    obtain ⟨g, _, hmay⟩ := flush_may hr ht hkind hrest
    cases g <;> exact hmay.elim

theorem CallFails.step {i : Nat} (h : CallFails b p i t packet e p') :
    (batchSystem b).Step p (.task i) p' := by
  obtain ⟨k, hrest, rfl⟩ := h.fails
  exact effect_at (r := (Except.error e : RpcResult)) h.task hrest ⟨h.allowed, rfl⟩ rfl

/-- Right after the call this holds, -/
theorem CallFails.relaying (hr : (batchSystem b).Reachable (BatchStart b) p) {i : Nat}
    (h : CallFails b p i t packet e p') :
    Relaying b t.ledger.owned i (relayed b.display packet e) p' := by
  have ht := List.mem_of_getElem? h.task
  obtain ⟨k, hrest, rfl⟩ := h.fails
  obtain ⟨task, hkind⟩ := caller_of_inner hr ht hrest
  obtain ⟨tr, htr⟩ := worker_history hr t ht task hkind
  have hnext := htr.effect (s := p.shared) (r := (Except.error e : RpcResult)) hrest
    ⟨h.allowed, rfl⟩
  refine ⟨⟨_, task, tr, [], packet, e, ?_, hnext, rfl, fun x hx => Or.inl hx⟩,
    fun x hx result hmem => ?_⟩
  · exact List.getElem?_set_self (List.getElem?_eq_some_iff.mp h.task).1
  · have hpos : 0 < p.shared.settled x := settled_of_answer hmem
    exact absurd (owned_alone hr h.task hx).1 (Nat.ne_of_gt hpos)

/-- and every step keeps it. -/
theorem Relaying.step (hr : (batchSystem b).Reachable (BatchStart b) q)
    {owned : Multiset PendingRequest} {i : Nat} {err : TransportError}
    (h : Relaying b owned i err q) {w : Actor} {q' : Pool BatchingShared BatchTask}
    (hs : (batchSystem b).Step q w q') : Relaying b owned i err q' := by
  obtain ⟨⟨u, task, tr, more, packet, e, hu, hhistory, hrelayed, hkept⟩, honly⟩ := h
  rcases step_task_at hs hu with ⟨_, u', new, hact, hu', _⟩ | ⟨hother, hu'⟩
  · obtain ⟨op, r, k, hrest, heff, hledger, hnext⟩ := hhistory.step hact
    rw [List.append_assoc, List.cons_append] at hnext
    have hfails := after_failure hhistory hrest
    rw [hrelayed] at hfails
    rcases onlyFails_effect hfails heff u.ledger with ⟨y, hanswers, howned⟩ | ⟨hanswers, howned⟩
    · refine ⟨⟨u', task, tr, _, packet, e, hu', hnext, hrelayed, fun x hx => ?_⟩,
        fun x hx result hmem => ?_⟩
      · rw [hledger, howned, hanswers]
        rcases hkept x hx with hx | hx
        · by_cases hxy : x = y
          · subst hxy
            exact Or.inr (List.mem_append_right _ (List.mem_singleton_self _))
          · exact Or.inl ((Multiset.mem_erase_of_ne hxy).mpr hx)
        · exact Or.inr (List.mem_append_left _ hx)
      · rw [hanswers] at hmem
        rcases List.mem_append.mp hmem with hmem | hmem
        · exact honly x hx result hmem
        · exact congrArg Prod.snd (List.mem_singleton.mp hmem)
    · refine ⟨⟨u', task, tr, _, packet, e, hu', hnext, hrelayed, fun x hx => ?_⟩, ?_⟩
      · rw [hledger, howned, hanswers]
        exact hkept x hx
      · rw [hanswers]
        exact honly
  · rcases answers_new hr hs with hanswers | ⟨j, v, y, result, rfl, hv, hy, hanswers⟩
    · rw [← hanswers] at hkept honly
      exact ⟨⟨u, task, tr, more, packet, e, hu', hhistory, hrelayed, hkept⟩, honly⟩
    · -- another task answers an entry of its own
      have halone := owned_alone hr hv hy
      refine ⟨⟨u, task, tr, more, packet, e, hu', hhistory, hrelayed, fun x hx => ?_⟩,
        fun x hx result' hmem => ?_⟩
      · rw [hanswers]
        exact (hkept x hx).imp_right (List.mem_append_left _)
      · rw [hanswers] at hmem
        rcases List.mem_append.mp hmem with hmem | hmem
        · exact honly x hx result' hmem
        · exfalso
          obtain rfl := congrArg Prod.fst (List.mem_singleton.mp hmem)
          rcases hkept x hx with hx | hx
          · exact hother (congrArg Actor.task (halone.2 i u hu hx).symm)
          · exact Nat.ne_of_gt (settled_of_answer hx) halone.1

theorem relaying_run (hr : (batchSystem b).Reachable (BatchStart b) p)
    {owned : Multiset PendingRequest} {i : Nat} {err : TransportError}
    (h : Relaying b owned i err p) {vs : List (Pool BatchingShared BatchTask × Actor)}
    (hrun : (batchSystem b).Run p vs q) : Relaying b owned i err q := by
  induction hrun with
  | refl => exact h
  | step hrun hs ih => exact ih.step (hr.run hrun) hs

/-! ## 4. What callers receive -/

/-- **How a request of a failed packet fares**, if the error is `err`. -/
structure FailsWith (b : BatchingTransport) (q : Pool BatchingShared BatchTask) (i : Nat)
    (err : TransportError) (x : PendingRequest) : Prop where
  /-- It has been failed, or its task is still at work and has to. -/
  answered : (x, .error err) ∈ q.shared.answers ∨
    ∃ u op k, q.tasks[i]? = some u ∧ x ∈ u.ledger.owned ∧ u.rest = .op op k
  /-- Nothing else arrives on its channel. -/
  received : ∀ answer s', Effect b q.shared (.awaitResponse x.tx) answer s' →
    answer = some (.error err)

theorem Relaying.failsWith (hr : (batchSystem b).Reachable (BatchStart b) q)
    {owned : Multiset PendingRequest} {i : Nat} {err : TransportError}
    (h : Relaying b owned i err q) {x : PendingRequest} (hx : x ∈ owned) :
    FailsWith b q i err x := by
  obtain ⟨⟨u, task, tr, more, packet, e, hu, hhistory, hrelayed, hkept⟩, honly⟩ := h
  have hmem := List.mem_of_getElem? hu
  have hpushed : x ∈ q.shared.entries := by
    rcases hkept x hx with hx | hx
    · exact owned_pushed hr hmem hx
    · exact mem_entries_of_settled hr (settled_of_answer hx)
  refine ⟨?_, ?_⟩
  · rcases hkept x hx with hx | hx
    · cases hrest : u.rest with
      | op op k => exact Or.inr ⟨u, op, k, hu, hx, hrest⟩
      | ret end' =>
        rw [ended_ledger hr hmem hrest] at hx
        exact absurd hx (Multiset.notMem_zero x)
    · exact Or.inl hx
  · intro answer s' heff
    obtain ⟨_, ⟨y, result, hy, htx, rfl⟩ | ⟨y, hdropped, htx, rfl⟩⟩ := heff
    · have hy' := mem_entries_of_settled hr (settled_of_answer hy)
      obtain rfl := (channels_ok hr).inj hy' hpushed htx
      rw [honly y hx result hy]
    · -- a sender that was dropped is neither owned nor used
      have hy' := mem_entries_of_settled hr (settled_of_dropped hdropped)
      obtain rfl := (channels_ok hr).inj hy' hpushed htx
      have hone := one_place hr hpushed
      have hdrops := List.count_pos_iff.mpr hdropped
      unfold BatchingShared.settled at hone
      rcases hkept y hx with hx | hx
      · have hzero := (owned_alone hr hu hx).1
        exact absurd hzero (Nat.ne_of_gt (settled_of_dropped hdropped))
      · have hanswers : 0 < (q.shared.answers.map Prod.fst).count y :=
          List.count_pos_iff.mpr (List.mem_map_of_mem hx)
        omega

/-- A cause there was: an id queued twice, or a failed inner call with the request. -/
def Cause.Made (b : BatchingTransport) (s : BatchingShared) (request : SerializedRequest) :
    Cause → Prop
  | .collided => Clash s.entries request.id
  | .call packet e => packet ∈ s.calls ∧ b.inner packet (.error e) ∧ request ∈ packet.requests

/-- **The first of some entries to fail**, in their order, and its cause. -/
structure FirstFailure (b : BatchingTransport) (s : BatchingShared) (entries : List PendingRequest)
    (y : PendingRequest) (cause : Cause) : Prop where
  first : ∃ before after, entries = before ++ y :: after ∧
    ∀ x ∈ before, ∃ reply, (x, .ok reply) ∈ s.answers
  made : cause.Made b s y.request
  failed : (y, .error (cause.error b.display)) ∈ s.answers

/-- An error answered has its cause. -/
theorem exists_cause (hr : (batchSystem b).Reachable (BatchStart b) q) {y : PendingRequest}
    {err : TransportError} (hy : (y, .error err) ∈ q.shared.answers) :
    ∃ cause : Cause, cause.Made b q.shared y.request ∧ cause.error b.display = err := by
  have hsource : q.shared.Sourced b y.request (.error err) := answers_sourced hr _ hy
  cases hsource with
  | collided hclash => exact ⟨.collided, hclash, rfl⟩
  | alone hreplied =>
    exact ⟨.call (.single y.request) err, ⟨hreplied.1, hreplied.2, List.mem_singleton_self _⟩, rfl⟩
  | @failed rs err' hreplied hmem =>
    exact ⟨.call (.batch rs) err', ⟨hreplied.1, hreplied.2, hmem⟩, rfl⟩

/-- An entry is answered once. -/
theorem answer_unique (hr : (batchSystem b).Reachable (BatchStart b) q) {y : PendingRequest}
    {result result' : RpcResult} (h : (y, result) ∈ q.shared.answers)
    (h' : (y, result') ∈ q.shared.answers) : result = result' := by
  have hone := one_place hr (mem_entries_of_settled hr (settled_of_answer h))
  unfold BatchingShared.settled at hone
  obtain ⟨front, back, hsplit⟩ := List.append_of_mem h
  rw [hsplit, List.map_append, List.map_cons, List.count_append, List.count_cons_self] at hone
  rw [hsplit] at h'
  rcases List.mem_append.mp h' with hmem | hmem
  · have hpos : 0 < (front.map Prod.fst).count y :=
      List.count_pos_iff.mpr (List.mem_map_of_mem hmem)
    omega
  · rcases List.mem_cons.mp hmem with heq | hmem
    · exact (congrArg Prod.snd heq).symm
    · have hpos : 0 < (back.map Prod.fst).count y :=
        List.count_pos_iff.mpr (List.mem_map_of_mem hmem)
      omega

/-- Behind a stretch that does not hold the first element there is only that element. -/
theorem eq_of_cons_eq_append {α : Type} {middle after after' : List α} {y y' : α}
    (h : y :: after = middle ++ y' :: after') (hnot : y ∉ middle) : y = y' := by
  cases middle with
  | nil => exact (List.cons.inj h).1
  | cons m ms =>
    rw [(List.cons.inj h).1] at hnot
    exact absurd List.mem_cons_self hnot

/-- The first of some entries to fail is one entry, failed with one error. -/
theorem FirstFailure.unique (hr : (batchSystem b).Reachable (BatchStart b) q)
    {entries : List PendingRequest} {y y' : PendingRequest} {cause cause' : Cause}
    (h : FirstFailure b q.shared entries y cause)
    (h' : FirstFailure b q.shared entries y' cause') :
    y = y' ∧ cause.error b.display = cause'.error b.display := by
  have hsame : y = y' := by
    obtain ⟨before, after, hsplit, hbefore⟩ := h.first
    obtain ⟨before', after', hsplit', hbefore'⟩ := h'.first
    -- neither of them is in front of the other
    have hnot : y' ∉ before := fun hmem => by
      obtain ⟨reply, hreply⟩ := hbefore y' hmem
      cases answer_unique hr hreply h'.failed
    have hnot' : y ∉ before' := fun hmem => by
      obtain ⟨reply, hreply⟩ := hbefore' y hmem
      cases answer_unique hr hreply h.failed
    rcases List.append_eq_append_iff.mp (hsplit.symm.trans hsplit') with
      ⟨middle, rfl, hrest⟩ | ⟨middle, rfl, hrest⟩
    · exact eq_of_cons_eq_append hrest fun hmem => hnot' (List.mem_append_right _ hmem)
    · exact (eq_of_cons_eq_append hrest fun hmem => hnot (List.mem_append_right _ hmem)).symm
  subst hsame
  exact ⟨rfl, Except.error.inj (answer_unique hr h.failed h'.failed)⟩

/-- **How a caller with a request in a failed packet fares** that has returned `result`: it returns
    the error of the first of its own entries to fail, which is in the class of `e` exactly if what
    failed that entry keeps or matches it. -/
structure ReturnsFirst (b : BatchingTransport) (s : BatchingShared)
    (owned : Multiset PendingRequest) (packet : RequestPacket) (e : TransportError)
    (entries : List PendingRequest) (result : RpcResult) : Prop where
  failed : ∃ y cause, FirstFailure b s entries y cause
  returned : ∀ y cause, FirstFailure b s entries y cause →
    result = .error (cause.error b.display)
  kept : ∀ y cause, FirstFailure b s entries y cause →
    ((∃ err, result = .error err ∧ SameClass err e) ↔
      (y ∈ owned → (∃ request, packet = .single request) ∨ KeepsClass b.display e) ∧
        (y ∉ owned → cause.Matches b.display e))

/-- A caller that has an entry in the packet returns an error. -/
theorem Relaying.caller_fails (hr : (batchSystem b).Reachable (BatchStart b) q)
    {owned : Multiset PendingRequest} {i : Nat} {err : TransportError}
    (h : Relaying b owned i err q) {c : BatchTask} (hc : c ∈ q.tasks) {x : PendingRequest}
    (hx : x ∈ owned) (hentry : x ∈ c.kind.entries) {result : RpcResult}
    (hrest : c.rest = .ret (.returned result)) :
    ∃ y cause, FirstFailure b q.shared c.kind.entries y cause ∧
      result = .error (cause.error b.display) := by
  obtain ⟨packet, receivers, _, hkind, _⟩ := callerOk_of_entry hr hc hentry
  have hresult := (caller_result hr hc hkind hrest).2
  cases result with
  | ok response =>
    obtain ⟨reply, hreply⟩ := hresult.all_answered x hentry
    cases h.only x hx _ hreply
  | error err' =>
    obtain ⟨before, y, after, hsplit, hbefore, hfailed⟩ := hresult.first_failed
    obtain ⟨cause, hmade, rfl⟩ := exists_cause hr hfailed
    exact ⟨y, cause, ⟨⟨before, after, hsplit, hbefore⟩, hmade, hfailed⟩, rfl⟩

theorem Relaying.returnsFirst (hdisplay : AlloyDisplay b.display)
    (hr : (batchSystem b).Reachable (BatchStart b) q) {owned : Multiset PendingRequest} {i : Nat}
    (h : Relaying b owned i (relayed b.display packet e) q) {c : BatchTask} (hc : c ∈ q.tasks)
    {x : PendingRequest} (hx : x ∈ owned) (hentry : x ∈ c.kind.entries) {result : RpcResult}
    (hrest : c.rest = .ret (.returned result)) :
    ReturnsFirst b q.shared owned packet e c.kind.entries result := by
  obtain ⟨y₁, cause₁, hfirst, rfl⟩ := h.caller_fails hr hc hx hentry hrest
  refine ⟨⟨y₁, cause₁, hfirst⟩, fun y cause hy => ?_, fun y cause hy => ?_⟩
  · rw [(hfirst.unique hr hy).2]
  · rw [(hfirst.unique hr hy).2]
    have hclass : (∃ err, (Except.error (cause.error b.display) : RpcResult) = .error err ∧
        SameClass err e) ↔ SameClass (cause.error b.display) e :=
      ⟨fun ⟨err, heq, hsame⟩ => Except.error.inj heq ▸ hsame, fun hsame => ⟨_, rfl, hsame⟩⟩
    rw [hclass]
    by_cases hown : y ∈ owned
    · -- an entry of the packet has no other error
      rw [Except.error.inj (h.only y hown _ hy.failed), sameClass_relayed_iff hdisplay]
      exact ⟨fun hkept => ⟨fun _ => hkept, fun hnot => absurd hown hnot⟩, fun hkept => hkept.1 hown⟩
    · rw [sameClass_cause]
      exact ⟨fun hkept => ⟨fun hmem => absurd hmem hown, fun _ => hkept⟩, fun hkept => hkept.2 hown⟩

/-- **THE CLASS OF A FAILURE.** When an inner call fails, its task owns the entries of the packet,
    and in every run from there each of them fails with what is relayed of the error, in the class
    of the error exactly for a `Single` and for the errors that keep their class. A caller with a
    request in the packet that has returned has the error of the first of its requests to fail: in
    the class exactly if that one failed in this packet and the class was kept, or elsewhere for a
    cause that matches it. -/
theorem failure_class (hdisplay : AlloyDisplay b.display)
    (hr : (batchSystem b).Reachable (BatchStart b) p) {i : Nat}
    (hfails : CallFails b p i t packet e p') {vs : List (Pool BatchingShared BatchTask × Actor)}
    (hrun : (batchSystem b).Run p' vs q) :
    t.ledger.owned.map PendingRequest.request =
        (packet.requests : Multiset SerializedRequest) ∧
      (∀ x ∈ t.ledger.owned, FailsWith b q i (relayed b.display packet e) x) ∧
      (SameClass (relayed b.display packet e) e ↔
        (∃ request, packet = .single request) ∨ KeepsClass b.display e) ∧
      ∀ c ∈ q.tasks, (∃ x ∈ t.ledger.owned, x ∈ c.kind.entries) →
        ∀ result, c.rest = .ret (.returned result) →
          ReturnsFirst b q.shared t.ledger.owned packet e c.kind.entries result := by
  have hr' := System.Reachable.step hr hfails.step
  have hrq := hr'.run hrun
  have hrelaying := relaying_run hr' (hfails.relaying hr) hrun
  refine ⟨?_, fun x hx => hrelaying.failsWith hrq hx, sameClass_relayed_iff hdisplay packet e,
    fun c hc hentry result hrest => ?_⟩
  · obtain ⟨k, hrest, _⟩ := hfails.fails
    have ht := List.mem_of_getElem? hfails.task
    obtain ⟨task, hkind⟩ := caller_of_inner hr ht hrest
    obtain ⟨tr, htr⟩ := worker_history hr t ht task hkind
    exact packet_owned htr hrest
  · obtain ⟨x, hx, hentry⟩ := hentry
    exact hrelaying.returnsFirst hdisplay hrq hc hx hentry hrest

end Tasks

/-! ## 5. A gateway that is down -/

section Example

/-- How alloy renders the errors of the examples. -/
def alloyDisplay : TransportError → String
  | .transport (.httpError status body) => "HTTP error " ++ toString status.toNat ++ " with " ++
      if body = "" then "empty body" else "body: " ++ body
  | .transport (.custom msg) => msg
  | .transport .backendGone => "backend connection task has stopped"
  | _ => ""

theorem alloyDisplay_ok : AlloyDisplay alloyDisplay where
  http status body := by
    by_cases hempty : body = ""
    · refine ⟨"empty body", by decide, ?_⟩
      show _ ++ (if body = "" then _ else _) = _
      rw [if_pos hempty, hempty, String.append_empty]
    · refine ⟨"body: ", by decide, ?_⟩
      show _ ++ (if body = "" then _ else _) = _
      rw [if_neg hempty, ← String.append_assoc]
  custom _ := rfl

/-- A gateway that is down, -/
def serviceUnavailable : TransportError := .transport (.httpError 503 "")

/-- behind a batching transport. -/
def downTransport : BatchingTransport where
  config := .default
  inner _ result := result = .error serviceUnavailable
  display := alloyDisplay

theorem down_mayReply : downTransport.MayReply fun _ => some (.error serviceUnavailable) :=
  fun _ _ h => (Option.some.inj h).symm

/-- The error a caller has returned. -/
def BatchTask.failedWith (t : BatchTask) : Option TransportError :=
  match t.rest with
  | .ret (.returned (.error err)) => some err
  | _ => none

/-- **A retryable failure is returned as a final one**: two requests are queued, drained into a
    chunk and sent as a batch. -/
theorem failure_class_lost : ∃ q, (batchSystem downTransport).Reachable (BatchStart downTransport) q
    ∧ isRetryable serviceUnavailable = true ∧
      ∃ c ∈ q.tasks, ∃ err, c.failedWith = some err ∧ isRetryable err = false := by
  obtain ⟨q, hr, hq⟩ := observed_reachable down_mayReply
    (.call (.batch [⟨.number 1, "a"⟩, ⟨.number 2, "b"⟩]) ::
      [1, 1, 0, 0, 0, 0, 0, 0, 2, 2, 2, 2, 2, 1, 1].map Move.task)
    (fun q => q.tasks.filterMap BatchTask.failedWith)
    (a := [customStr "batch request failed: HTTP error 503 with empty body"]) (by decide)
  have hmem : customStr "batch request failed: HTTP error 503 with empty body" ∈
      q.tasks.filterMap BatchTask.failedWith := hq ▸ List.mem_singleton_self _
  obtain ⟨c, hc, herr⟩ := List.mem_filterMap.mp hmem
  exact ⟨q, hr, by decide, c, hc, _, herr, by decide⟩

/-- The packet a task is about to send. -/
def BatchTask.sending (t : BatchTask) : Option RequestPacket :=
  match t.rest with
  | .op (.innerCall packet) _ => some packet
  | _ => none

/-- A step with an error for the packet it sends is a failed call. -/
theorem callFails_of_move {b : BatchingTransport} {reply : RequestPacket → Option RpcResult}
    (hreply : b.MayReply reply) {p p' : Pool BatchingShared BatchTask} {i : Nat} {t : BatchTask}
    (ht : p.tasks[i]? = some t) {packet : RequestPacket} (hsending : t.sending = some packet)
    {e : TransportError} (he : reply packet = some (.error e))
    (hm : move b reply p (.task i) = some p') : CallFails b p i t packet e p' := by
  obtain ⟨kind, rest, ledger⟩ := t
  unfold BatchTask.sending at hsending
  split at hsending
  · rename_i packet' k hrest
    cases hsending
    cases hrest
    refine ⟨ht, hreply _ _ he, k, rfl, ?_⟩
    change moveTask b reply p i = some p' at hm
    unfold moveTask at hm
    rw [ht] at hm
    simp only [perform, he, Option.map_some, spawned, List.append_nil] at hm
    cases kind <;> exact (Option.some.inj hm).symm
  · cases hsending

/-- A service that is down for one request and answers the other with nothing. -/
def splitReply : RequestPacket → RpcResult
  | .single ⟨.number 1, _⟩ => .error serviceUnavailable
  | _ => .error .nullResp

/-- A transport over it whose chunks are single requests. -/
def splitTransport : BatchingTransport where
  config := ⟨{ BatchingConfig.default with maxBatchSize := 1 }, by decide⟩
  inner packet result := result = splitReply packet
  display := alloyDisplay

theorem split_mayReply : splitTransport.MayReply (some ∘ splitReply) :=
  fun _ _ h => (Option.some.inj h).symm

/-- The second request of a batch of two. -/
def secondEntry : PendingRequest := ⟨⟨.number 2, "b"⟩, 1⟩

/-- **A batch in two packets** returns the error of its first request; the other one is lost. -/
theorem failure_class_split : ∃ p t p' vs q c,
    (batchSystem splitTransport).Reachable (BatchStart splitTransport) p ∧
      CallFails splitTransport p 3 t (.single secondEntry.request) .nullResp p' ∧
      (batchSystem splitTransport).Run p' vs q ∧ c ∈ q.tasks ∧
      c.failedWith = some serviceUnavailable ∧
      FailsWith splitTransport q 3 .nullResp secondEntry ∧
      ReturnsFirst splitTransport q.shared t.ledger.owned (.single secondEntry.request) .nullResp
        c.kind.entries (.error serviceUnavailable) := by
  obtain ⟨p, hr, hp⟩ := observed_reachable split_mayReply
    (.call (.batch [⟨.number 1, "a"⟩, secondEntry.request]) ::
      [1, 1, 0, 0, 0, 0, 0, 0, 0, 2, 2].map Move.task)
    (fun p => (p.tasks[3]?.map fun t : BatchTask =>
        (t.sending, decide (secondEntry ∈ t.ledger.owned)),
      (play splitTransport (some ∘ splitReply) ([3, 3, 1, 1].map Move.task) p).map fun q =>
        q.tasks[1]?.map fun c : BatchTask =>
          (c.failedWith, decide (secondEntry ∈ c.kind.entries))))
    (a := (some (some (.single secondEntry.request), true),
      some (some (some serviceUnavailable, true)))) (by decide)
  obtain ⟨hfirst, hlast⟩ := Prod.mk.inj hp
  obtain ⟨t, ht, hsending⟩ := Option.map_eq_some_iff.mp hfirst
  obtain ⟨hsending, howned⟩ := Prod.mk.inj hsending
  obtain ⟨q, hplay, hq⟩ := Option.map_eq_some_iff.mp hlast
  obtain ⟨c, hc, hreturned⟩ := Option.map_eq_some_iff.mp hq
  obtain ⟨hreturned, hentry⟩ := Prod.mk.inj hreturned
  obtain ⟨p', hm, hrest⟩ := Option.bind_eq_some_iff.mp hplay
  obtain ⟨vs, hrun⟩ := play_run split_mayReply hrest
  have hfails := callFails_of_move split_mayReply ht hsending rfl hm
  obtain ⟨_, hrelayed, _, hcallers⟩ := failure_class alloyDisplay_ok hr hfails hrun
  have hmem := List.mem_of_getElem? hc
  have howned := of_decide_eq_true howned
  refine ⟨p, t, p', vs, q, c, hr, hfails, hrun, hmem, hreturned, hrelayed _ howned,
    hcallers c hmem ⟨_, howned, of_decide_eq_true hentry⟩ _ ?_⟩
  unfold BatchTask.failedWith at hreturned
  split at hreturned
  · rename_i hend
    rw [hend, Option.some.inj hreturned]
  · cases hreturned

end Example

end TransportBalancer.Batching
