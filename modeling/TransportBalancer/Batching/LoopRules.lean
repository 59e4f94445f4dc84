/-
  File:      TransportBalancer/Batching/LoopRules.lean
  Subject:   THE PROOF RULE FOR THE LOOP OF A CHUNK, whatever protocol it is to keep.

  * `callBatch`, `failBatch` -- the inner call of an attempt, and what its failure leads to;
    `attempts_succ` -- the loop in terms of them;
  * `rejectBatch_rule` -- the callback, if there is one;
  * **`attempts_rule`** -- an invariant kept by every attempt whose reply matches carries the loop
    to its postcondition.
-/
import TransportBalancer.Batching.Programs

namespace TransportBalancer.Batching

open Interaction

/-- The inner call of an attempt. -/
def callBatch (outstanding : Outstanding) : Program BatchSig RpcResult := do
  let entries ← BatchOp.perform (.iterate outstanding.values)
  BatchOp.perform (.innerCall (.batch (entries.map PendingRequest.request)))

/-- Its failure is that of every entry. -/
def failBatch (display : TransportError → String) (err : TransportError)
    (outstanding : Outstanding) : Program BatchSig Unit := do
  let entries ← BatchOp.perform (.iterate outstanding.values)
  failAll ("batch request failed: " ++ display err) entries

section Rules

variable {Γ : Type} {P : Protocol BatchSig Γ} {config : BatchingConfig}
  {display : TransportError → String}

/-- An attempt that is not the last one. -/
theorem attempts_succ {left attempt : Nat} {o : Outstanding} (hsome : o.values ≠ [])
    (hlast : attempt ≠ config.maxMissingRetries) :
    attempts config display (left + 1) attempt o = callBatch o >>= fun reply =>
      match reply with
      | .ok resp => matchResponses (replyResponses resp) o >>= fun o' =>
          if o'.values = [] then pure ()
          else if o.values.length - o'.values.length = 0 then
            rejectBatch config >>= fun _ => fallBack o'
          else attempts config display left (attempt + 1) o'
      | .error err => failBatch display err o := by
  rw [attempts, if_neg hsome, if_neg hlast, callBatch]
  simp only [bind_assoc]
  congr 1
  funext entries
  congr 1
  funext reply
  cases reply <;> rfl

/-- The callback of a rejection, if there is one, and what follows. -/
theorem rejectBatch_rule {α : Type} {p : Program BatchSig α} {γ : Γ} {Q : Γ → α → Prop}
    (hcallback : config.onBatchRejection = true → P.ok γ .onBatchRejection ∧
      ∀ r, P.admits γ .onBatchRejection r → p.Follows P (P.next γ .onBatchRejection r) Q)
    (hnone : ¬ config.onBatchRejection = true → p.Follows P γ Q) :
    (rejectBatch config >>= fun _ => p).Follows P γ Q := by
  unfold rejectBatch
  split
  · rename_i h
    exact hcallback h
  · rename_i h
    exact hnone h

/-- What the reply to an attempt has to lead to: the invariant of the next attempt if it matches any
    entry, otherwise the postcondition of the loop. -/
def ReplyLeaves (P : Protocol BatchSig Γ) (config : BatchingConfig)
    (display : TransportError → String) (I : Outstanding → Γ → Prop) (Q : Γ → Prop)
    (o : Outstanding) (γ : Γ) : RpcResult → Prop
  | .ok resp => (matchResponses (replyResponses resp) o).Follows P γ fun γ' o' =>
      (o'.values.length < o.values.length → I o' γ') ∧
      (o.values.length ≤ o'.values.length →
        (rejectBatch config >>= fun _ => fallBack o').Follows P γ' fun γ'' _ => Q γ'')
  | .error err => (failBatch display err o).Follows P γ fun γ' _ => Q γ'

/-- **THE RULE OF A CHUNK**: an invariant of the number of the attempt to come, the map and the
    ghost state. The loop always ends in one of its attempts. -/
theorem attempts_rule {I : Nat → Outstanding → Γ → Prop} {Q : Γ → Prop}
    (hdone : ∀ attempt o γ, I attempt o γ → o.values = [] → Q γ)
    (hfallBack : ∀ o γ, I config.maxMissingRetries o γ →
      (fallBack o).Follows P γ fun γ' _ => Q γ')
    (hcall : ∀ attempt o γ, I attempt o γ → o.values ≠ [] → attempt < config.maxMissingRetries →
      (callBatch o).Follows P γ (ReplyLeaves P config display (I (attempt + 1)) Q o))
    (left : Nat) {attempt : Nat} {o : Outstanding} {γ : Γ}
    (hleft : attempt + left = config.maxMissingRetries) (h : I attempt o γ) :
    (attempts config display (left + 1) attempt o).Follows P γ fun γ' _ => Q γ' := by
  induction left generalizing attempt o γ with
  | zero =>
    obtain rfl : attempt = config.maxMissingRetries := hleft
    rw [attempts, if_pos rfl]
    split
    · rename_i hempty
      exact hdone _ o γ h hempty
    · exact hfallBack o γ h
  | succ left ih =>
    by_cases hempty : o.values = []
    · rw [attempts, if_pos hempty]
      exact hdone attempt o γ h hempty
    · rw [attempts_succ hempty (by omega)]
      refine (hcall attempt o γ h hempty (by omega)).bind fun γ' reply hreply => ?_
      cases reply with
      | error err => exact hreply
      | ok resp =>
        refine Program.Follows.bind hreply fun γ'' o' hmatch => ?_
        have hpos := List.length_pos_iff.mpr hempty
        split
        · rename_i hempty'
          have hless : o'.values.length < o.values.length := by
            rw [hempty']
            exact hpos
          exact hdone _ o' γ'' (hmatch.1 hless) hempty'
        · split
          · rename_i hsame
            exact hmatch.2 (by omega)
          · rename_i hless
            exact ih (by omega) (hmatch.1 (by omega))

end Rules

end TransportBalancer.Batching
