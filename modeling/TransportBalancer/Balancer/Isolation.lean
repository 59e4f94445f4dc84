/-
  File:      TransportBalancer/Balancer/Isolation.lean
  Subject:   A DOMAIN NOBODY HAS RATE-LIMITED IS LEFT ALONE, whatever happens to the other domains:
             its level stays at zero, it costs no call a delay, and none of its endpoints is
             skipped.

  * `Calm` -- a fresh state but for its successes; `calmProtocol` -- a thread that reads the level
    as zero does nothing but count them;
  * `skipped_read` -- an endpoint is skipped only after a positive reading of its own domain;
  * `calmAt_of_unlimited` -- on every reachable pool without a rate limit of the domain, its state
    is calm and so is everything under way on it;
  * **`unlimited_domain_untouched`** -- the domain is left alone.
-/
import TransportBalancer.Balancer.Accounting

namespace TransportBalancer

open Interaction TaskPool

/-! ## 1. Operations on a calm state -/

/-- **A fresh state but for its successes.** -/
def DomainThrottleState.Calm (s : DomainThrottleState) : Prop :=
  ∃ successes, s = { DomainThrottleState.fresh with totalSuccesses := successes }

/-- **The calm protocol**: as long as the level is read as zero, successes are counted and nothing
    else is written. -/
def calmProtocol : Protocol AtomicSig Unit where
  ok _ e :=
    match e with
    | .nowMillis | .load32 _ | .load64 _ => True
    | .fetchAdd64 c _ => c = .totalSuccesses
    | _ => False
  admits _ e r :=
    match e, r with
    | .load32 .backoffLevel, level => level = 0
    | _, _ => True
  next _ _ _ := ()

/-- A step of the protocol on a calm state reads the level as zero and leaves the state calm. -/
theorem calm_step {now : UInt64} {e : AtomicOp} {r : AtomicSig.Ans e} {s s' : DomainThrottleState}
    (hs : s.Calm) (hok : calmProtocol.ok () e) (h : atomicHandler now e s = some (r, s')) :
    calmProtocol.admits () e r ∧ s'.Calm := by
  obtain ⟨successes, rfl⟩ := hs
  cases e with
  | nowMillis =>
    cases h
    exact ⟨trivial, successes, rfl⟩
  | load32 c =>
    cases h
    refine ⟨?_, successes, rfl⟩
    cases c with
    | backoffLevel => exact rfl
    | consecutiveSuccesses => trivial
  | load64 =>
    cases h
    exact ⟨trivial, successes, rfl⟩
  | fetchAdd64 c v =>
    obtain rfl : c = .totalSuccesses := hok
    cases h
    exact ⟨trivial, _, rfl⟩
  | panic | store32 | store64 | fetchAdd32 | fetchUpdate32 => exact hok.elim

/-- A read of the zero level is no delay. -/
theorem preRequestDelay_calm (config : ThrottleConfig) :
    (preRequestDelay config).Follows calmProtocol () fun _ delay => delay = Duration.zero := by
  unfold preRequestDelay
  rw [load32_bind]
  refine ⟨trivial, fun level hlevel => ?_⟩
  obtain rfl : level = 0 := hlevel
  rfl

/-- A success at the zero level is counted and nothing else. -/
theorem recordSuccess_calm (config : ThrottleConfig) :
    (recordSuccess config).Follows calmProtocol () fun _ _ => True := by
  unfold recordSuccess
  rw [fetchAdd64_bind]
  refine ⟨rfl, fun _ _ => ?_⟩
  rw [load32_bind]
  refine ⟨trivial, fun level hlevel => ?_⟩
  obtain rfl : level = 0 := hlevel
  trivial

/-- An external call that is no rate limit. -/
theorem program_calm {call : ThrottleCall} (h : call.traffic ≠ some .rateLimitReply)
    (config : ThrottleConfig) :
    (call.program config).Follows calmProtocol () fun _ _ => True := by
  cases call with
  | rateLimit | batchRejection => exact absurd rfl h
  | success => exact recordSuccess_calm config
  | delay => exact (preRequestDelay_calm config).bind fun _ _ _ => trivial

/-! ## 2. Skips follow positive readings -/

section Skips

variable (t : LoadBalancedTransport)

/-- The readings since the last visit have been made. -/
theorem reading_traced (tr : Trace CallSig) {idx : Nat} {delay : Duration}
    (h : (idx, delay) ∈ (callTraffic t tr).log.readings) :
    (⟨.preRequestDelay idx, delay⟩ : Event CallSig) ∈ tr := by
  induction tr using List.reverseRecOn with
  | nil => exact absurd h List.not_mem_nil
  | append_singleton tr ev ih =>
    obtain ⟨e, r⟩ := ev
    rw [callTraffic_concat] at h
    cases e with
    | preRequestDelay i =>
      have h : (idx, delay) ∈ (callTraffic t tr).log.readings ++ [(i, r)] := h
      rcases List.mem_append.mp h with h | h
      · exact List.mem_append_left _ (ih h)
      · cases List.mem_singleton.mp h
        exact List.mem_append_right _ (List.mem_singleton_self _)
    | send | recordSkip =>
      have h : (idx, delay) ∈ (CallLog.visit _ _).readings := h
      rw [visit_readings] at h
      exact absurd h List.not_mem_nil
    | acquireOwned i =>
      cases r with
      | permit => exact List.mem_append_left _ (ih h)
      | closed =>
        have h : (idx, delay) ∈ (CallLog.visit _ _).readings := h
        rw [visit_readings] at h
        exact absurd h List.not_mem_nil
    | fetchAddCounter =>
      -- a round begins without readings
      have h : (idx, delay) ∈ ([] : List (Nat × Duration)) := h
      exact absurd h List.not_mem_nil
    | _ => exact List.mem_append_left _ (ih h)

/-- **A skip follows a positive reading** of the endpoint that is skipped. -/
theorem skipped_read (tr : Trace CallSig) {idx : Nat}
    (h : (⟨.skipDecision, idx⟩ : EndpointTraffic) ∈ (callTraffic t tr).all) :
    ∃ delay, (⟨.preRequestDelay idx, delay⟩ : Event CallSig) ∈ tr ∧ delay ≠ Duration.zero := by
  induction tr using List.reverseRecOn with
  | nil => exact absurd h List.not_mem_nil
  | append_singleton tr ev ih =>
    obtain ⟨e, r⟩ := ev
    rw [callTraffic_concat, CallTraffic.next] at h
    rcases List.mem_append.mp h with h | h
    · obtain ⟨delay, hmem, hpos⟩ := ih h
      exact ⟨delay, List.mem_append_left _ hmem, hpos⟩
    · cases e with
      | preRequestDelay i =>
        simp only [trafficOf] at h
        split at h
        · rename_i idx' own later hreadings
          split at h
          · rename_i hskip
            cases List.mem_singleton.mp h
            refine ⟨own, List.mem_append_left _ (reading_traced t tr ?_), ?_⟩
            · rw [hreadings]
              exact List.mem_cons_self
            · rintro rfl
              have hlt : r < Duration.zero := lt_of_lt_of_le hskip.2 hskip.1
              exact absurd hlt (Nat.not_lt_zero r.nanos)
          · exact absurd h List.not_mem_nil
        · exact absurd h List.not_mem_nil
      | send i req =>
        cases r with
        | ok => cases List.mem_singleton.mp h
        | error err =>
          simp only [trafficOf] at h
          split at h
          · cases List.mem_singleton.mp h
          · exact absurd h List.not_mem_nil
      | _ => exact absurd h List.not_mem_nil

/-- What is due is among the traffic. -/
theorem due_mem_all (tr : Trace CallSig) {x : EndpointTraffic}
    (h : (callTraffic t tr).due = some x) : x ∈ (callTraffic t tr).all := by
  induction tr using List.reverseRecOn with
  | nil => cases h
  | append_singleton tr ev _ =>
    rw [callTraffic_concat, CallTraffic.next] at h ⊢
    dsimp only at h ⊢
    rw [h]
    exact List.mem_append_right _ (List.mem_singleton_self x)

end Skips

/-! ## 3. Reachable pools -/

section Pools

variable {wire : RequestPacket → Option Nat} {configOf : DomainRef → ThrottleConfig}
  {transports : LoadBalancedTransport → Prop} {ref : DomainRef} {s s' : DomainStates}
  {c c' : BalancedCall} {q q' : Pool DomainStates TrafficTask}

/-- A reading of no delay. -/
def NoDelay : (e : CallOp) → CallSig.Ans e → Prop
  | .preRequestDelay _, delay => delay = Duration.zero
  | _, _ => True

/-- **What a call has had from a domain left alone**: no delay, and under way an operation that
    keeps to the calm protocol. -/
structure BalancedCall.CalmAt (ref : DomainRef) (c : BalancedCall) : Prop where
  had : ∀ idx delay, (⟨.preRequestDelay idx, delay⟩ : Event CallSig) ∈ c.trace →
    c.transport.endpointThrottles[idx]? = some ref → delay = Duration.zero
  underWay : ∀ {e o k}, c.stage = .within e o k → o.ref = ref →
    o.rest.Follows calmProtocol () fun _ r => NoDelay e r
  place : ∀ {idx o k}, c.stage = .within (.preRequestDelay idx) o k →
    c.transport.endpointThrottles[idx]? = some o.ref

/-- The same of any task. -/
def TrafficTask.CalmAt (ref : DomainRef) : TrafficTask → Prop
  | .call c => c.CalmAt ref
  | .external x => x.ref = ref → ∀ o, x.op = some o →
    o.rest.Follows calmProtocol () fun _ _ => True

/-- A call that has had no delay from a domain has skipped no endpoint of it. -/
theorem BalancedCall.CalmAt.not_skipped (h : c.CalmAt ref) {idx : Nat}
    (href : c.transport.endpointThrottles[idx]? = some ref) :
    (⟨.skipDecision, idx⟩ : EndpointTraffic) ∉ c.traffic.all := by
  intro hskip
  obtain ⟨delay, hread, hpos⟩ := skipped_read c.transport c.trace hskip
  exact hpos (h.had idx delay hread href)

/-- Traffic at an endpoint of the domain is called for. -/
theorem called_pos {kind : Traffic} {idx : Nat} (hx : ⟨kind, idx⟩ ∈ c.traffic.all)
    (href : c.transport.endpointThrottles[idx]? = some ref) :
    0 < (TrafficTask.call c).called kind ref :=
  List.countP_pos_iff.mpr ⟨_, hx, decide_eq_true ⟨rfl, href⟩⟩

/-- **An operation of a call that begins on the domain** keeps to the calm protocol: it is no rate
    limit, since none has been heard, and no skip. -/
theorem stateOp_calm (hc : c.Ok wire transports) (hcalm : c.CalmAt ref)
    (hnone : (TrafficTask.call c).called .rateLimitReply ref = 0) {e : CallOp}
    {k : CallSig.Ans e → Program CallSig RpcResult} (hstage : c.stage = .between (.op e k))
    {idx : Nat} {p : ThrottleConfig → Program AtomicSig (CallSig.Ans e)}
    (hop : e.stateOp? = some (idx, p)) (href : c.transport.endpointThrottles[idx]? = some ref) :
    (p (configOf ref)).Follows calmProtocol () fun _ r => NoDelay e r := by
  have hdue := due_eq_recorded (hc.between hstage)
  cases e with
  | preRequestDelay =>
    cases hop
    exact preRequestDelay_calm _
  | recordSuccess =>
    cases hop
    exact recordSuccess_calm _
  | recordSkip =>
    cases hop
    exact absurd (due_mem_all c.transport c.trace hdue) (hcalm.not_skipped href)
  | recordRateLimit =>
    cases hop
    have hpos := called_pos (due_mem_all c.transport c.trace hdue) href
    omega
  | _ => cases hop

/-- A step of an operation, seen from a domain it is calm on. -/
theorem stateOp_step_calm {α : Type} {o o' : StateOp α} {Q : α → Prop} (hs : (s ref).Calm)
    (hop : o.ref = ref → o.rest.Follows calmProtocol () fun _ r => Q r) (h : o.Step s s' o') :
    (s' ref).Calm ∧ (o'.ref = ref → o'.rest.Follows calmProtocol () fun _ r => Q r) := by
  cases h with
  | @atomic now e k r st hrest heff =>
    by_cases href : o.ref = ref
    · subst href
      have hfollows := hop rfl
      rw [hrest] at hfollows
      obtain ⟨hadmits, hcalm⟩ := calm_step hs hfollows.1 heff
      rw [Function.update_self]
      exact ⟨hcalm, fun _ => hfollows.2 r hadmits⟩
    · rw [Function.update_of_ne (Ne.symm href)]
      exact ⟨hs, fun h => absurd h href⟩

/-- **A step of a call** that has heard no rate limit of the domain leaves it alone. -/
theorem call_step_calm (hc : c.Ok wire transports) (hcalm : c.CalmAt ref)
    (hnone : (TrafficTask.call c).called .rateLimitReply ref = 0) (hs : (s ref).Calm)
    (h : c.Step configOf s s' c') : (s' ref).Calm ∧ c'.CalmAt ref := by
  cases h with
  | @effect e k r hstage hop =>
    refine ⟨hs, fun idx delay hmem href => ?_, nofun, nofun⟩
    rcases List.mem_append.mp hmem with hmem | hmem
    · exact hcalm.had idx delay hmem href
    · cases List.mem_singleton.mp hmem
      cases hop
  | start hstage hop href =>
    refine ⟨hs, hcalm.had, fun h hsame => ?_, fun h => ?_⟩
    · cases h
      obtain rfl := hsame
      exact stateOp_calm hc hcalm hnone hstage hop href
    · cases h
      cases hop
      exact href
  | atomic hstage hstep =>
    obtain ⟨hs', hop'⟩ := stateOp_step_calm hs (hcalm.underWay hstage) hstep
    refine ⟨hs', hcalm.had, fun h => ?_, fun h => ?_⟩
    · cases h
      exact hop'
    · cases h
      rw [(stateOp_step_same hstep).1]
      exact hcalm.place hstage
  | @finish e o k r hstage hrest =>
    refine ⟨hs, fun idx delay hmem href => ?_, nofun, nofun⟩
    rcases List.mem_append.mp hmem with hmem | hmem
    · exact hcalm.had idx delay hmem href
    · cases List.mem_singleton.mp hmem
      have hsame : o.ref = ref := Option.some.inj ((hcalm.place hstage).symm.trans href)
      have hfollows := hcalm.underWay hstage hsame
      rw [hrest] at hfollows
      exact hfollows
  | panic | unwind | cancel => exact ⟨hs, hcalm.had, nofun, nofun⟩

/-- A step calls for no less. -/
theorem called_mono {kind : Traffic} {t t' : TrafficTask} (h : t.Step configOf s s' t') :
    t.called kind ref ≤ t'.called kind ref := by
  cases h with
  | call h =>
    have hgrow : ∀ (c : BalancedCall) (ev : Event CallSig), (c.traffic.all).countP
        (EndpointTraffic.isAt c.transport kind ref) ≤ (callTraffic c.transport
          (c.trace ++ [ev])).all.countP (EndpointTraffic.isAt c.transport kind ref) := by
      intro c ev
      rw [callTraffic_concat, CallTraffic.next, List.countP_append]
      exact Nat.le_add_right _ _
    cases h with
    | effect | finish => exact hgrow _ _
    | start | atomic | panic | unwind | cancel => exact Nat.le_refl _
  | external h => cases h <;> exact Nat.le_refl _

/-- **A step of any task** leaves a domain alone of which no rate limit has been called for. -/
theorem task_step_calm {t t' : TrafficTask} (ht : t.Ok wire transports) (hcalm : t.CalmAt ref)
    (hnone : t.called .rateLimitReply ref = 0) (hs : (s ref).Calm)
    (h : t.Step configOf s s' t') : (s' ref).Calm ∧ t'.CalmAt ref := by
  cases h with
  | call h => exact call_step_calm ht hcalm hnone hs h
  | @external x x' s' h =>
    cases h with
    | atomic hop hstep =>
      obtain ⟨_, href, _⟩ := ht _ hop
      obtain ⟨hs', hop'⟩ := stateOp_step_calm (Q := fun _ => True) hs
        (fun h => hcalm (href.symm.trans h) _ hop) hstep
      refine ⟨hs', fun h o ho => ?_⟩
      cases ho
      exact hop' ((stateOp_step_same hstep).1.trans (href.trans h))
    | unwind => exact ⟨hs, fun _ _ ho => nomatch ho⟩

/-- **On every reachable pool without a rate limit of the domain** its state is calm, and so is
    everything under way on it. -/
theorem calmAt_of_unlimited
    (hq : (trafficSystem wire configOf transports).Reachable TrafficStart q)
    (hnone : q.total (TrafficTask.called .rateLimitReply ref) = 0) :
    (q.shared ref).Calm ∧ ∀ t ∈ q.tasks, t.CalmAt ref := by
  induction hq with
  | start hq =>
    rw [hq.1, hq.2 ref]
    exact ⟨⟨0, rfl⟩, nofun⟩
  | step hq hs ih =>
    cases hs with
    | @act s s' l r new t t' h =>
      obtain ⟨hstep, rfl⟩ := h
      have hmono : t.called .rateLimitReply ref ≤ t'.called .rateLimitReply ref := called_mono hstep
      rw [List.append_nil, total_split] at hnone
      have hbefore :
          (Pool.mk s (l ++ t :: r)).total (TrafficTask.called .rateLimitReply ref) = 0 := by
        rw [total_split]
        omega
      obtain ⟨hcalm, htasks⟩ := ih hbefore
      obtain ⟨hcalm', ht'⟩ := task_step_calm (traffic_ok hq t (by simp)) (htasks t (by simp))
        (by omega) hcalm hstep
      refine ⟨hcalm', fun u hu => ?_⟩
      rw [List.append_nil] at hu
      rcases List.mem_append.mp hu with hu | hu
      · exact htasks u (List.mem_append_left _ hu)
      · rcases List.mem_cons.mp hu with rfl | hu
        · exact ht'
        · exact htasks u (List.mem_append_right _ (List.mem_cons_of_mem _ hu))
    | env h => exact h.elim
    | @arrive s s' ts t h =>
      obtain ⟨rfl, harrived⟩ := h
      rw [total_mk, List.map_append, List.sum_append, List.map_singleton,
        List.sum_singleton] at hnone
      obtain ⟨hcalm, htasks⟩ := ih (by rw [total_mk]; omega)
      refine ⟨hcalm, fun u hu => ?_⟩
      rcases List.mem_append.mp hu with hu | hu
      · exact htasks u hu
      · rw [List.mem_singleton.mp hu]
        rcases harrived with ⟨transport, req, _, rfl⟩ | ⟨ref', call, rfl⟩
        · exact ⟨nofun, nofun, nofun⟩
        · intro href o ho
          cases ho
          refine program_calm (fun hlimit => ?_) _
          have hone : (TrafficTask.external (.start configOf ref' call)).called
              .rateLimitReply ref = 1 := if_pos ⟨href, hlimit⟩
          omega

/-- **The domain is left alone.** -/
structure DomainUntouched (ref : DomainRef) (q : Pool DomainStates TrafficTask) : Prop where
  /-- Its state is as it was created, but for the successes counted; -/
  state : (q.shared ref).Calm
  /-- none of its endpoints costs a call a delay, -/
  undelayed : ∀ c, .call c ∈ q.tasks → ∀ idx delay,
    (⟨.preRequestDelay idx, delay⟩ : Event CallSig) ∈ c.trace →
      c.transport.endpointThrottles[idx]? = some ref → delay = Duration.zero
  /-- and none is skipped. -/
  unskipped : q.total (TrafficTask.called .skipDecision ref) = 0

/-- **A DOMAIN NOBODY HAS RATE-LIMITED IS LEFT ALONE.** In every reachable pool: if no call has had
    a rate limit from an endpoint of the domain and none has been recorded on it from outside,
    nothing that has happened to other domains has touched it. -/
theorem unlimited_domain_untouched
    (hq : (trafficSystem wire configOf transports).Reachable TrafficStart q)
    (hnone : q.total (TrafficTask.called .rateLimitReply ref) = 0) : DomainUntouched ref q := by
  obtain ⟨hcalm, htasks⟩ := calmAt_of_unlimited hq hnone
  refine ⟨hcalm, fun c hc => (htasks _ hc).had, List.sum_eq_zero fun n hn => ?_⟩
  obtain ⟨t, ht, rfl⟩ := List.mem_map.mp hn
  cases t with
  | call c =>
    refine List.countP_eq_zero.mpr fun x hx hat => ?_
    obtain ⟨hkind, href⟩ := of_decide_eq_true hat
    obtain ⟨kind, idx⟩ := x
    obtain rfl : kind = .skipDecision := hkind
    exact BalancedCall.CalmAt.not_skipped (htasks _ ht) href hx
  | external x =>
    refine if_neg fun h => ?_
    obtain ⟨_, hskip⟩ := h
    cases hcall : x.call <;> rw [hcall] at hskip <;> cases hskip

end Pools

/-- Another domain is rate-limited while a call reads, sends and counts its success. -/
theorem unlimited_domain_untouched_zero : ∃ q, (trafficSystem (fun _ => some 100)
    (fun _ => .default) (fun t => t = oneEndpoint)).Reachable TrafficStart q ∧
      (q.shared 1).backoffLevel = 1 ∧ (q.shared 0).totalSuccesses = 1 ∧ DomainUntouched 0 q := by
  have h₀ : (trafficSystem (fun _ => some 100) (fun _ => .default)
      (fun t => t = oneEndpoint)).Reachable TrafficStart ⟨fun _ => .fresh, []⟩ :=
    .start ⟨rfl, fun _ => rfl⟩
  have h₁ := h₀.step (.arrive ⟨rfl, Or.inr ⟨1, .rateLimit, rfl⟩⟩)
  have h₂ := h₁.step (.arrive ⟨rfl, Or.inl ⟨oneEndpoint, .batch [], rfl, rfl⟩⟩)
  have h₃ := h₂.step (.at (i := 1) rfl ⟨.call (.effect (0 : UInt64) rfl rfl), rfl⟩)
  have h₄ := h₃.step (.at (i := 0) rfl ⟨.external (.atomic rfl (.atomic 1 rfl rfl)), rfl⟩)
  have h₅ := h₄.step (.at (i := 0) rfl ⟨.external (.atomic rfl (.atomic 1 rfl rfl)), rfl⟩)
  have h₆ := h₅.step (.at (i := 1) rfl ⟨.call (.start rfl rfl rfl), rfl⟩)
  have h₇ := h₆.step (.at (i := 0) rfl ⟨.external (.atomic rfl (.atomic 1 rfl rfl)), rfl⟩)
  have h₈ := h₇.step (.at (i := 0) rfl ⟨.external (.atomic rfl (.atomic 1 rfl rfl)), rfl⟩)
  have h₉ := h₈.step (.at (i := 0) rfl ⟨.external (.atomic rfl (.atomic 1 rfl rfl)), rfl⟩)
  have h₁₀ := h₉.step (.at (i := 1) rfl ⟨.call (.atomic rfl (.atomic 1 rfl rfl)), rfl⟩)
  have h₁₁ := h₁₀.step (.at (i := 1) rfl ⟨.call (.finish rfl rfl), rfl⟩)
  have h₁₂ := h₁₁.step (.at (i := 1) rfl
    ⟨.call (.effect (Except.ok (.batch []) : RpcResult) rfl rfl), rfl⟩)
  have h₁₃ := h₁₂.step (.at (i := 1) rfl ⟨.call (.start rfl rfl rfl), rfl⟩)
  have h₁₄ := h₁₃.step (.at (i := 1) rfl ⟨.call (.atomic rfl (.atomic 1 rfl rfl)), rfl⟩)
  exact ⟨_, h₁₄, rfl, rfl, unlimited_domain_untouched h₁₄ rfl⟩

end TransportBalancer
