/-
  File:      TransportBalancer/Throttle/State.lean
  Subject:   THE DOMAIN THROTTLE (throttle.rs): five counters and a timestamp, each atomic, and
             the operations on them as programs of single atomic steps.

  * `AtomicSig` -- the atomic steps: load, store, `fetch_add`, `fetch_update`, a clock reading;
  * `preRequestDelay`, `recordRateLimit`, `recordBatchRejection`, `recordSkip`, `recordSuccess`
    -- the operations, step by step as the source makes them;
  * `atomicHandler` -- what one step does to the state at a clock value;
  * `preRequestDelay_eval`, `recordSuccess_eval`, `recordEscalation_eval` -- what an operation does
    when no other thread interferes; later proofs about sequential runs use these and never unfold
    a program.
-/
import TransportBalancer.Lib.Program
import TransportBalancer.Lib.Words
import TransportBalancer.Rpc

namespace TransportBalancer

open Interaction MachineWord

/-! ## 1. State and configuration -/

/-- `ThrottleConfig`. -/
structure ThrottleConfig where
  maxBackoffLevel : UInt32
  recoveryThreshold : UInt32
  decayIntervalMs : UInt64
  backoffTable : List Duration

/-- `ThrottleConfig::default`. -/
def ThrottleConfig.default : ThrottleConfig where
  maxBackoffLevel := 5
  recoveryThreshold := 5
  decayIntervalMs := 10000
  backoffTable := [Duration.zero, .fromMillis 50, .fromMillis 150, .fromMillis 400,
    .fromMillis 1000, .fromMillis 2000]

/-- The atomics of a `DomainThrottleState`; its (immutable) config is passed beside it. -/
structure DomainThrottleState where
  lastRateLimitAt : UInt64
  backoffLevel : UInt32
  consecutiveSuccesses : UInt32
  totalRateLimits : UInt64
  totalSuccesses : UInt64
  totalSkips : UInt64
  deriving DecidableEq, Repr

/-- The state `domain_throttle` creates. -/
def DomainThrottleState.fresh : DomainThrottleState := ⟨0, 0, 0, 0, 0, 0⟩

/-- The `AtomicU32` fields. -/
inductive Cell32 where
  | backoffLevel
  | consecutiveSuccesses
  deriving DecidableEq, Repr

/-- The `AtomicU64` fields. -/
inductive Cell64 where
  | lastRateLimitAt
  | totalRateLimits
  | totalSuccesses
  | totalSkips
  deriving DecidableEq, Repr

namespace DomainThrottleState

def get32 (s : DomainThrottleState) : Cell32 → UInt32
  | .backoffLevel => s.backoffLevel
  | .consecutiveSuccesses => s.consecutiveSuccesses

def set32 (s : DomainThrottleState) (v : UInt32) : Cell32 → DomainThrottleState
  | .backoffLevel => { s with backoffLevel := v }
  | .consecutiveSuccesses => { s with consecutiveSuccesses := v }

def get64 (s : DomainThrottleState) : Cell64 → UInt64
  | .lastRateLimitAt => s.lastRateLimitAt
  | .totalRateLimits => s.totalRateLimits
  | .totalSuccesses => s.totalSuccesses
  | .totalSkips => s.totalSkips

def set64 (s : DomainThrottleState) (v : UInt64) : Cell64 → DomainThrottleState
  | .lastRateLimitAt => { s with lastRateLimitAt := v }
  | .totalRateLimits => { s with totalRateLimits := v }
  | .totalSuccesses => { s with totalSuccesses := v }
  | .totalSkips => { s with totalSkips := v }

@[simp] theorem get32_backoffLevel (s : DomainThrottleState) :
    s.get32 .backoffLevel = s.backoffLevel := rfl

@[simp] theorem get64_lastRateLimitAt (s : DomainThrottleState) :
    s.get64 .lastRateLimitAt = s.lastRateLimitAt := rfl

@[simp] theorem set32_backoffLevel (s : DomainThrottleState) (v : UInt32) :
    s.set32 v .backoffLevel = { s with backoffLevel := v } := rfl

end DomainThrottleState

/-! ## 2. Atomic steps -/

/-- One step of a thread on a domain state. Every `fetch_update` of the source has a closure that
    answers `Some`, so the closure is a function here. -/
inductive AtomicOp where
  | panic (msg : String)
  | nowMillis
  | load32 (c : Cell32)
  | load64 (c : Cell64)
  | store32 (c : Cell32) (v : UInt32)
  | store64 (c : Cell64) (v : UInt64)
  | fetchAdd32 (c : Cell32) (v : UInt32)
  | fetchAdd64 (c : Cell64) (v : UInt64)
  | fetchUpdate32 (c : Cell32) (f : UInt32 → UInt32)

/-- The effect signature of the throttle's operations; a panic has no answer. -/
abbrev AtomicSig : Signature where
  Op := AtomicOp
  Ans
    | .panic _ => Empty
    | .nowMillis | .load64 _ | .fetchAdd64 _ _ => UInt64
    | .load32 _ | .fetchAdd32 _ _ | .fetchUpdate32 _ _ => UInt32
    | .store32 _ _ | .store64 _ _ => Unit

/-- What one step answers and leaves, at clock value `now`. Additions wrap, as `fetch_add` does. -/
def atomicHandler (now : UInt64) : Handler AtomicSig DomainThrottleState
  | .panic _, _ => none
  | .nowMillis, s => some (now, s)
  | .load32 c, s => some (s.get32 c, s)
  | .load64 c, s => some (s.get64 c, s)
  | .store32 c v, s => some ((), s.set32 v c)
  | .store64 c v, s => some ((), s.set64 v c)
  | .fetchAdd32 c v, s => some (s.get32 c, s.set32 (s.get32 c + v) c)
  | .fetchAdd64 c v, s => some (s.get64 c, s.set64 (s.get64 c + v) c)
  | .fetchUpdate32 c f, s => some (s.get32 c, s.set32 (f (s.get32 c)) c)

/-- A panic: nothing follows it. -/
def throwPanic {α : Type} (msg : String) : Program AtomicSig α := .op (.panic msg) nofun

/-- `now_millis`. -/
def nowMillis : Program AtomicSig UInt64 := .op .nowMillis .ret

def load32 (c : Cell32) : Program AtomicSig UInt32 := .op (.load32 c) .ret

def load64 (c : Cell64) : Program AtomicSig UInt64 := .op (.load64 c) .ret

def store32 (c : Cell32) (v : UInt32) : Program AtomicSig Unit := .op (.store32 c v) .ret

def store64 (c : Cell64) (v : UInt64) : Program AtomicSig Unit := .op (.store64 c v) .ret

def fetchAdd32 (c : Cell32) (v : UInt32) : Program AtomicSig UInt32 := .op (.fetchAdd32 c v) .ret

def fetchAdd64 (c : Cell64) (v : UInt64) : Program AtomicSig UInt64 := .op (.fetchAdd64 c v) .ret

def fetchUpdate32 (c : Cell32) (f : UInt32 → UInt32) : Program AtomicSig UInt32 :=
  .op (.fetchUpdate32 c f) .ret

/-- `a / b`, which panics on zero. -/
def checkedDiv64 (a b : UInt64) : Program AtomicSig UInt64 :=
  if b = 0 then throwPanic "attempt to divide by zero" else return a / b

/-- `a + b`, which panics on overflow (with overflow checks; without them it wraps). -/
def checkedAdd32 (a b : UInt32) : Program AtomicSig UInt32 :=
  if a.toNat + b.toNat < 2 ^ 32 then return a + b
  else throwPanic "attempt to add with overflow"

section Heads

variable {α : Type}

@[simp] theorem throwPanic_bind {β : Type} (msg : String) (f : β → Program AtomicSig α) :
    (throwPanic msg >>= f) = throwPanic msg := by
  unfold throwPanic
  rw [Program.op_bind]
  congr 1
  funext x
  exact Empty.elim x

@[simp] theorem nowMillis_bind (f : UInt64 → Program AtomicSig α) :
    (nowMillis >>= f) = .op .nowMillis f := rfl

@[simp] theorem load32_bind (c : Cell32) (f : UInt32 → Program AtomicSig α) :
    (load32 c >>= f) = .op (.load32 c) f := rfl

@[simp] theorem load64_bind (c : Cell64) (f : UInt64 → Program AtomicSig α) :
    (load64 c >>= f) = .op (.load64 c) f := rfl

@[simp] theorem store32_bind (c : Cell32) (v : UInt32) (f : Unit → Program AtomicSig α) :
    (store32 c v >>= f) = .op (.store32 c v) f := rfl

@[simp] theorem store64_bind (c : Cell64) (v : UInt64) (f : Unit → Program AtomicSig α) :
    (store64 c v >>= f) = .op (.store64 c v) f := rfl

@[simp] theorem fetchAdd32_bind (c : Cell32) (v : UInt32) (f : UInt32 → Program AtomicSig α) :
    (fetchAdd32 c v >>= f) = .op (.fetchAdd32 c v) f := rfl

@[simp] theorem fetchAdd64_bind (c : Cell64) (v : UInt64) (f : UInt64 → Program AtomicSig α) :
    (fetchAdd64 c v >>= f) = .op (.fetchAdd64 c v) f := rfl

@[simp] theorem fetchUpdate32_bind (c : Cell32) (g : UInt32 → UInt32)
    (f : UInt32 → Program AtomicSig α) :
    (fetchUpdate32 c g >>= f) = .op (.fetchUpdate32 c g) f := rfl

end Heads

/-! ## 3. The operations -/

/-- The closure of the decaying `fetch_update`. -/
def decayBy (decayable cur : UInt32) : UInt32 := satSub32 cur (min decayable cur)

/-- The closure of the escalating `fetch_update`. -/
def escalate (max cur : UInt32) : UInt32 := min (satAdd32 cur 1) max

/-- The table entry of a level, two seconds beyond the end of the table. -/
def delayOfLevel (config : ThrottleConfig) (level : UInt32) : Duration :=
  let idx := min level config.maxBackoffLevel
  config.backoffTable.getD idx.toNat (.fromMillis 2000)

/-- The time-based decay inside `pre_request_delay`. -/
def decayStep (config : ThrottleConfig) (lastRl : UInt64) : Program AtomicSig Unit := do
  if 0 < lastRl then
    let now ← nowMillis
    let elapsedMs := satSub64 now lastRl
    let intervals ← checkedDiv64 elapsedMs config.decayIntervalMs
    let decayable := intervals.toUInt32
    if 0 < decayable then
      let _ ← fetchUpdate32 .backoffLevel (decayBy decayable)

/-- `pre_request_delay`. -/
def preRequestDelay (config : ThrottleConfig) : Program AtomicSig Duration := do
  let level ← load32 .backoffLevel
  if level = 0 then
    return Duration.zero
  else
    let lastRl ← load64 .lastRateLimitAt
    decayStep config lastRl
    let level ← load32 .backoffLevel
    return delayOfLevel config level

/-- The body `record_rate_limit` and `record_batch_rejection` share word for word. -/
def recordEscalation (config : ThrottleConfig) : Program AtomicSig Unit := do
  let now ← nowMillis
  let _ ← store64 .lastRateLimitAt now
  let _ ← store32 .consecutiveSuccesses 0
  let _ ← fetchAdd64 .totalRateLimits 1
  let _ ← fetchUpdate32 .backoffLevel (escalate config.maxBackoffLevel)

/-- `record_rate_limit`. -/
def recordRateLimit (config : ThrottleConfig) : Program AtomicSig Unit := recordEscalation config

/-- `record_batch_rejection`. -/
def recordBatchRejection (config : ThrottleConfig) : Program AtomicSig Unit :=
  recordEscalation config

/-- `record_skip`. -/
def recordSkip : Program AtomicSig Unit := do
  let _ ← fetchAdd64 .totalSkips 1

/-- `record_success`. -/
def recordSuccess (config : ThrottleConfig) : Program AtomicSig Unit := do
  let _ ← fetchAdd64 .totalSuccesses 1
  let level ← load32 .backoffLevel
  if level = 0 then
    return ()
  else
    let prev ← fetchAdd32 .consecutiveSuccesses 1
    let next ← checkedAdd32 prev 1
    if next ≥ config.recoveryThreshold then
      let _ ← store32 .consecutiveSuccesses 0
      let _ ← fetchUpdate32 .backoffLevel fun cur => satSub32 cur 1

/-! ## 4. The operations, run alone -/

/-- The number of levels a read at `now` drops for a timestamp `last`: the elapsed intervals, cut
    to 32 bits. -/
def decayable (config : ThrottleConfig) (now last : UInt64) : UInt32 :=
  (satSub64 now last / config.decayIntervalMs).toUInt32

/-- The level a lone `pre_request_delay` at `now` leaves. -/
def levelAfterRead (config : ThrottleConfig) (now : UInt64) (s : DomainThrottleState) : UInt32 :=
  if 0 < s.lastRateLimitAt then decayBy (decayable config now s.lastRateLimitAt) s.backoffLevel
  else s.backoffLevel

theorem toNat_decayBy (d cur : UInt32) : (decayBy d cur).toNat = cur.toNat - d.toNat := by
  unfold decayBy
  simp
  omega

theorem decayBy_le (d cur : UInt32) : decayBy d cur ≤ cur := by
  rw [UInt32.le_iff_toNat_le, toNat_decayBy]
  exact Nat.sub_le _ _

theorem decayBy_zero_left (cur : UInt32) : decayBy 0 cur = cur :=
  UInt32.toNat_inj.mp (by rw [toNat_decayBy]; rfl)

theorem decayBy_zero_right (d : UInt32) : decayBy d 0 = 0 :=
  UInt32.toNat_inj.mp (by rw [toNat_decayBy]; simp)

theorem toNat_escalate (max cur : UInt32) :
    (escalate max cur).toNat = min (cur.toNat + 1) max.toNat := by
  have h1 := max.toNat_lt
  have e : (1 : UInt32).toNat = 1 := rfl
  unfold escalate
  rw [toNat_min32, toNat_satAdd32, e]
  omega

theorem escalate_le (max cur : UInt32) : escalate max cur ≤ max := by
  rw [UInt32.le_iff_toNat_le, toNat_escalate]
  exact Nat.min_le_right _ _

theorem decayStep_eval {config : ThrottleConfig} (hD : config.decayIntervalMs ≠ 0)
    (now : UInt64) (s : DomainThrottleState) :
    (decayStep config s.lastRateLimitAt).eval (atomicHandler now) s =
      some ((), { s with backoffLevel := levelAfterRead config now s }) := by
  unfold decayStep levelAfterRead
  by_cases hl : 0 < s.lastRateLimitAt
  · simp only [if_pos hl, checkedDiv64, if_neg hD, nowMillis_bind, Program.eval_op, atomicHandler,
      Option.bind_some, pure_bind, decayable]
    generalize (satSub64 now s.lastRateLimitAt / config.decayIntervalMs).toUInt32 = d
    by_cases hd : 0 < d
    · rw [if_pos hd, fetchUpdate32_bind]
      rfl
    · have e : d = 0 := by
        rw [eq_zero_iff32]
        rw [pos_iff32] at hd
        omega
      rw [if_neg hd, e, decayBy_zero_left]
      rfl
  · simp only [if_neg hl]
    rfl

/-- **A lone `pre_request_delay`** writes the decayed level and returns its table entry (the zero
    delay when the level read first is zero). -/
theorem preRequestDelay_eval {config : ThrottleConfig} (hD : config.decayIntervalMs ≠ 0)
    (now : UInt64) (s : DomainThrottleState) :
    (preRequestDelay config).eval (atomicHandler now) s =
      some (if s.backoffLevel = 0 then Duration.zero
          else delayOfLevel config (levelAfterRead config now s),
        { s with backoffLevel := levelAfterRead config now s }) := by
  unfold preRequestDelay
  simp only [load32_bind, Program.eval_op, atomicHandler, Option.bind_some,
    DomainThrottleState.get32_backoffLevel]
  by_cases h0 : s.backoffLevel = 0
  · have e : levelAfterRead config now s = s.backoffLevel := by
      unfold levelAfterRead
      split
      · rw [h0, decayBy_zero_right]
      · rfl
    rw [e, if_pos h0, if_pos h0]
    rfl
  · simp only [if_neg h0, load64_bind, Program.eval_op, atomicHandler, Option.bind_some,
      DomainThrottleState.get64_lastRateLimitAt, Program.eval_bind, decayStep_eval hD now s]
    rfl

/-- **A zero interval panics** as soon as there is a level and a timestamp to decay from. -/
theorem preRequestDelay_zero_interval {config : ThrottleConfig} (hD : config.decayIntervalMs = 0)
    (now : UInt64) {s : DomainThrottleState} (hlevel : s.backoffLevel ≠ 0)
    (hlast : 0 < s.lastRateLimitAt) :
    (preRequestDelay config).eval (atomicHandler now) s = none := by
  unfold preRequestDelay decayStep
  simp only [load32_bind, load64_bind, nowMillis_bind, checkedDiv64, Program.eval_op,
    atomicHandler, Option.bind_some, DomainThrottleState.get32_backoffLevel,
    DomainThrottleState.get64_lastRateLimitAt, if_neg hlevel, if_pos hlast, if_pos hD,
    throwPanic_bind, Program.eval_bind]
  rfl

/-- **A lone `record_success`**: it counts; at a positive level it lengthens the streak (a panic at
    the end of the counter), and at the threshold clears it and drops a level. -/
theorem recordSuccess_eval (config : ThrottleConfig) (now : UInt64) (s : DomainThrottleState) :
    (recordSuccess config).eval (atomicHandler now) s =
      if s.backoffLevel = 0 then some ((), { s with totalSuccesses := s.totalSuccesses + 1 })
      else if s.consecutiveSuccesses.toNat + 1 < 2 ^ 32 then
        if config.recoveryThreshold ≤ s.consecutiveSuccesses + 1 then
          some ((), { s with
            totalSuccesses := s.totalSuccesses + 1
            consecutiveSuccesses := 0
            backoffLevel := satSub32 s.backoffLevel 1 })
        else some ((), { s with
          totalSuccesses := s.totalSuccesses + 1
          consecutiveSuccesses := s.consecutiveSuccesses + 1 })
      else none := by
  have e : (1 : UInt32).toNat = 1 := rfl
  unfold recordSuccess checkedAdd32
  simp only [fetchAdd64_bind, load32_bind, fetchAdd32_bind, Program.eval_op, atomicHandler,
    Option.bind_some, DomainThrottleState.get32, DomainThrottleState.set64,
    DomainThrottleState.get64, e]
  by_cases hlevel : s.backoffLevel = 0
  · rw [if_pos hlevel, if_pos hlevel]
    rfl
  · rw [if_neg hlevel, if_neg hlevel]
    simp only [Program.eval_op, atomicHandler, Option.bind_some, DomainThrottleState.get32,
      DomainThrottleState.set32]
    by_cases hfits : s.consecutiveSuccesses.toNat + 1 < 2 ^ 32
    · rw [if_pos hfits, if_pos hfits, pure_bind]
      by_cases hreached : config.recoveryThreshold ≤ s.consecutiveSuccesses + 1
      · rw [if_pos hreached, if_pos hreached]
        rfl
      · rw [if_neg hreached, if_neg hreached]
        rfl
    · rw [if_neg hfits, if_neg hfits, throwPanic_bind]
      rfl

/-- **A lone `record_rate_limit`** (or `record_batch_rejection`) stamps the clock, clears the
    success streak, counts, and raises the level by one up to the maximum. -/
theorem recordEscalation_eval (config : ThrottleConfig) (now : UInt64) (s : DomainThrottleState) :
    (recordEscalation config).eval (atomicHandler now) s =
      some ((), { s with
        lastRateLimitAt := now
        consecutiveSuccesses := 0
        totalRateLimits := s.totalRateLimits + 1
        backoffLevel := escalate config.maxBackoffLevel s.backoffLevel }) := rfl

end TransportBalancer
