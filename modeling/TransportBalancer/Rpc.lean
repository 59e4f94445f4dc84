/-
  File:      TransportBalancer/Rpc.lean
  Subject:   The values that cross the transports: durations, JSON-RPC packets, errors.

  `Duration` is `std::time::Duration` (whole nanoseconds, at most `u64::MAX` seconds and a
  fraction); its multiplication is the checked one the operator `*` panics through. The packets
  and the error enums are alloy's, cut down to what the crate reads: an id, the raw text of a
  request or payload, a status code with a body, and the rendered text of a boxed error.
-/
import Mathlib.Algebra.GroupWithZero.Nat
import Mathlib.Order.Lattice
import Mathlib.Data.List.Infix
import Mathlib.Tactic.Common

namespace TransportBalancer

/-! ## 1. Durations -/

/-- The first number of nanoseconds a `Duration` cannot hold. -/
def nanosLimit : Nat := 2 ^ 64 * 10 ^ 9

/-- A span of time in nanoseconds, within the range of `std::time::Duration`. -/
@[ext] structure Duration where
  nanos : Nat
  inRange : nanos < nanosLimit

namespace Duration

theorem nanos_injective : Function.Injective Duration.nanos := fun _ _ h => Duration.ext h

instance : LinearOrder Duration := LinearOrder.lift' Duration.nanos nanos_injective

/-- `Duration::ZERO`. -/
def zero : Duration := ⟨0, by decide⟩

/-- `Duration::from_millis`. -/
def fromMillis (ms : UInt64) : Duration :=
  ⟨ms.toNat * 10 ^ 6, by have := ms.toNat_lt; unfold nanosLimit; omega⟩

/-- `Duration::is_zero`. -/
def isZero (d : Duration) : Bool := d.nanos == 0

/-- `Duration::as_millis` (a `u128` in the source). -/
def asMillis (d : Duration) : Nat := d.nanos / 10 ^ 6

/-- `self * n`, `none` where the multiplication overflows and panics. -/
def checkedMul (d : Duration) (n : Nat) : Option Duration :=
  if h : d.nanos * n < nanosLimit then some ⟨d.nanos * n, h⟩ else none

theorem asMillis_mono {d d' : Duration} (h : d ≤ d') : d.asMillis ≤ d'.asMillis :=
  Nat.div_le_div_right h

@[simp] theorem asMillis_zero : Duration.zero.asMillis = 0 := rfl

@[simp] theorem asMillis_fromMillis (ms : UInt64) : (fromMillis ms).asMillis = ms.toNat :=
  Nat.mul_div_cancel _ (by decide)

theorem fromMillis_le {ms : UInt64} {d : Duration} (h : ms.toNat ≤ d.asMillis) :
    fromMillis ms ≤ d :=
  (Nat.mul_le_mul_right _ h).trans (Nat.div_mul_le_self _ _)

end Duration

/-! ## 2. Packets -/

/-- A JSON-RPC id. -/
inductive Id where
  | number (n : UInt64)
  | string (s : String)
  | none
  deriving DecidableEq, Repr

/-- A request with its id and its serialized text. -/
structure SerializedRequest where
  id : Id
  request : String
  deriving DecidableEq, Repr

inductive RequestPacket where
  | single (req : SerializedRequest)
  | batch (reqs : List SerializedRequest)
  deriving DecidableEq, Repr

/-- The requests of a packet, in order (`RequestPacket::requests`). -/
def RequestPacket.requests : RequestPacket → List SerializedRequest
  | .single req => [req]
  | .batch reqs => reqs

inductive ResponsePayload where
  | success (raw : String)
  | failure (raw : String)
  deriving DecidableEq, Repr

structure Response where
  id : Id
  payload : ResponsePayload
  deriving DecidableEq, Repr

inductive ResponsePacket where
  | single (resp : Response)
  | batch (resps : List Response)
  deriving DecidableEq, Repr

/-! ## 3. Errors -/

/-- `TransportErrorKind`; a boxed custom error is seen through its rendered text only. -/
inductive TransportErrorKind where
  | missingBatchResponse (id : Id)
  | backendGone
  | pubsubUnavailable
  | httpError (status : UInt16) (body : String)
  | custom (msg : String)
  deriving DecidableEq, Repr

/-- `TransportError`, that is `RpcError<TransportErrorKind>`. -/
inductive TransportError where
  | errorResp (payload : String)
  | nullResp
  | unsupportedFeature (msg : String)
  | localUsageError (msg : String)
  | serError (msg : String)
  | deserError (err text : String)
  | transport (kind : TransportErrorKind)
  deriving DecidableEq, Repr

/-- `TransportErrorKind::custom_str`. -/
def customStr (msg : String) : TransportError := .transport (.custom msg)

/-- `TransportErrorKind::backend_gone`. -/
def backendGone : TransportError := .transport .backendGone

/-- What a transport answers to a packet. -/
abbrev RpcResult := Except TransportError ResponsePacket

/-- `str::contains` with a text pattern. -/
def containsText (s pattern : String) : Bool := decide (pattern.toList <:+: s.toList)

end TransportBalancer
