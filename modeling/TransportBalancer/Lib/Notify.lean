/-
  File:      TransportBalancer/Lib/Notify.lean
  Subject:   A NOTIFY WITH ONE WAITER: at most one stored permit, and a waiter to whom a
             notification is delivered directly.

  * `Notify` -- the permit and the waiter, who is never registered while a permit is stored;
  * `notifyOne`, `poll`, `wake`, `abandon` -- the operations;
  * **`available_notifyOne`**, `available_poll` -- a notification is available once given, and stays
    so when the waiter comes; **`available_waiting`** -- to a waiter it is a delivered one.
-/
import Mathlib.Tactic.Common

namespace Wakeup

/-- The one who waits: not there, registered, or with a notification delivered. -/
inductive Waiter where
  | away
  | registered
  | delivered
  deriving DecidableEq, Repr

/-- **A notify**: a registered waiter would have consumed the stored permit. -/
structure Notify where
  stored : Bool
  waiter : Waiter
  unstored : waiter = .registered → stored = false
  deriving DecidableEq, Repr

namespace Notify

/-- No permit is stored and nobody waits. -/
def new : Notify := ⟨false, .away, nofun⟩

/-- One notification: it is delivered to a registered waiter, or stored. -/
def notifyOne (n : Notify) : Notify :=
  match n.waiter with
  | .registered => ⟨false, .delivered, nofun⟩
  | .away => ⟨true, .away, nofun⟩
  | .delivered => ⟨true, .delivered, nofun⟩

/-- The first poll of a wait: it consumes the stored permit, or registers the waiter. -/
def poll (n : Notify) : Notify :=
  match n.waiter with
  | .away =>
    if n.stored = true then ⟨false, .delivered, nofun⟩ else ⟨false, .registered, fun _ => rfl⟩
  | .registered | .delivered => n

/-- The wait ends with the delivered notification. -/
def wake (n : Notify) : Notify := ⟨n.stored, .away, nofun⟩

/-- The wait is dropped; a delivered notification is passed on, that is stored. -/
def abandon (n : Notify) : Notify := ⟨n.stored || decide (n.waiter = .delivered), .away, nofun⟩

/-- The next wait will end at once, or this one does. -/
def Available (n : Notify) : Prop := n.stored = true ∨ n.waiter = .delivered

instance (n : Notify) : Decidable n.Available := inferInstanceAs (Decidable (_ ∨ _))

variable (n : Notify)

/-- **A notification given is available.** -/
theorem available_notifyOne : n.notifyOne.Available := by
  unfold notifyOne
  split
  · exact Or.inr rfl
  · exact Or.inl rfl
  · exact Or.inl rfl

/-- Registering loses none. -/
theorem available_poll {n : Notify} (h : n.Available) : n.poll.Available := by
  unfold poll
  split
  · rename_i haway
    rw [if_pos (h.resolve_right fun e => Waiter.noConfusion (haway.symm.trans e))]
    exact Or.inr rfl
  · exact h
  · exact h

/-- **To one who waits** an available notification has been delivered. -/
theorem available_waiting {n : Notify} (hwaits : n.waiter ≠ .away) :
    n.Available ↔ n.waiter = .delivered := by
  constructor
  · intro h
    rcases h with h | h
    · cases hwaiter : n.waiter with
      | away => exact absurd hwaiter hwaits
      | delivered => rfl
      | registered =>
        rw [n.unstored hwaiter] at h
        cases h
    · exact h
  · exact Or.inr

/-- A notification makes nobody come or go; -/
@[simp] theorem notifyOne_away : n.notifyOne.waiter = .away ↔ n.waiter = .away := by
  unfold notifyOne
  cases n.waiter <;> simp

/-- who polls is there. -/
theorem poll_waits : n.poll.waiter ≠ .away := by
  unfold poll
  split
  · split <;> exact nofun
  · rename_i h
    rw [h]
    exact nofun
  · rename_i h
    rw [h]
    exact nofun

/-- **One who comes while a notification is available** gets it. -/
theorem delivered_of_available (h : n.Available) : n.poll.waiter = .delivered :=
  (available_waiting n.poll_waits).mp (available_poll h)

end Notify

end Wakeup
