import Mathlib

/-!
# Protocol values, errors and limits

The data model of `vosp::protocol`: the owning message types, the error model
and the `Limits` record that bounds every operation on untrusted bytes.

Fixed-width integers of the source keep their width here.  `std::size_t` does
not have one width, so everything that computes with sizes takes a `Platform`
and uses its wrapping `add` and `sub`; a byte string is a `List UInt8`, whose
length is a plain natural number.

* `Platform` — `size_t` on 32- and 64-bit targets, with `Platform.add_eq` and
  `Platform.sub_eq` for the operations that do not wrap.
* `Error`, `Result` — `error.hpp`, with the texts the source gives its errors.
* `Version`, `Extension`, `Message` — the values a frame carries.
* `Limits` — the five bounds and `Limits.valid`, unpacked by `Limits.Valid`.
-/

namespace Vosp

/-! ## `std::size_t` -/

/-- The targets the package is built for, told apart by the width of
`std::size_t`. -/
inductive Platform where
  | bits32
  | bits64
  deriving DecidableEq, Repr

namespace Platform

/-- `std::numeric_limits<std::size_t>::max()`. -/
def sizeMax : Platform → Nat
  | bits32 => 4294967295
  | bits64 => 18446744073709551615

/-- Addition of two `size_t` values: unsigned, so it wraps. -/
def add (p : Platform) (a b : Nat) : Nat := (a + b) % (p.sizeMax + 1)

/-- Subtraction of two `size_t` values: unsigned, so it wraps. -/
def sub (p : Platform) (a b : Nat) : Nat := (a + (p.sizeMax + 1) - b) % (p.sizeMax + 1)

theorem uint32Max_le_sizeMax (p : Platform) : 4294967295 ≤ p.sizeMax := by
  cases p <;> decide

theorem add_eq {p : Platform} {a b : Nat} (h : a + b ≤ p.sizeMax) : p.add a b = a + b := by
  rw [add, Nat.mod_eq_of_lt (by omega)]

theorem sub_eq {p : Platform} {a b : Nat} (ha : a ≤ p.sizeMax) (h : b ≤ a) :
    p.sub a b = a - b := by
  have hsplit : a + (p.sizeMax + 1) - b = (a - b) + (p.sizeMax + 1) := by omega
  rw [sub, hsplit, Nat.add_mod_right, Nat.mod_eq_of_lt (by omega)]

end Platform

namespace Protocol

/-- `std::numeric_limits<std::uint16_t>::max()`. -/
def uint16Max : Nat := 65535

/-- `std::numeric_limits<std::uint32_t>::max()`. -/
def uint32Max : Nat := 4294967295

/-! ## Errors -/

/-- `protocol::ErrorCode`. -/
inductive ErrorCode where
  | invalidArgument
  | limitExceeded
  | insufficientData
  | invalidMagic
  | unsupportedVersion
  | malformedFrame
  | invalidUtf8
  | trailingData
  deriving DecidableEq, Repr

/-- `protocol::Error`: a code and the text reported with it. -/
structure Error where
  code : ErrorCode
  message : String
  deriving DecidableEq, Repr

/-- `protocol::Result`, an `std::expected`. -/
abbrev Result (α : Type) := Except Error α

/-- `detail::failure`. -/
def failure {α : Type} (code : ErrorCode) (message : String) : Result α := .error ⟨code, message⟩

/-! ## Messages -/

/-- `protocol::Version`. -/
structure Version where
  major : UInt16 := 1
  minor : UInt16 := 0
  deriving DecidableEq, Repr

/-- `protocol::FrameFlags`: an enumeration over all of `std::uint16_t`, whose
named bits belong to other frameworks and travel opaquely. -/
structure FrameFlags where
  bits : UInt16 := 0
  deriving DecidableEq, Repr

/-- `protocol::Extension`: one opaque type-length-value entry. -/
structure Extension where
  id : UInt16 := 0
  value : List UInt8 := []
  deriving DecidableEq, Repr

/-- `protocol::Message`.  A `MessageView` has the same fields and differs only
in who owns the storage, so it is the same type here. -/
structure Message where
  version : Version := {}
  type : UInt32 := 0
  correlationId : UInt64 := 0
  flags : FrameFlags := {}
  extensions : List Extension := []
  payload : List UInt8 := []
  deriving DecidableEq, Repr

/-! ## Limits -/

/-- `protocol::Limits`: five `size_t` bounds, with the defaults of the source. -/
structure Limits (p : Platform) where
  maxPayloadSize : Nat := 16777216
  maxExtensionCount : Nat := 64
  maxExtensionBytes : Nat := 65503
  maxFrameSize : Nat := 16842751
  maxBufferedBytes : Nat := 33685502
  /-- Every bound is a value of `size_t`. -/
  fits : ∀ n ∈ [maxPayloadSize, maxExtensionCount, maxExtensionBytes, maxFrameSize,
    maxBufferedBytes], n ≤ p.sizeMax

namespace Limits

variable {p : Platform}

/-- `Limits::valid`. -/
def valid (L : Limits p) : Bool :=
  decide (L.maxExtensionCount ≤ uint16Max) && decide (L.maxExtensionBytes ≤ uint16Max) &&
    decide (L.maxPayloadSize ≤ uint32Max) && decide (32 ≤ L.maxFrameSize) &&
    decide (L.maxPayloadSize ≤ p.sub L.maxFrameSize 32) &&
    decide (L.maxFrameSize ≤ L.maxBufferedBytes)

/-- The six tests of `Limits::valid` in exact arithmetic, no more and no less (`valid_iff`). -/
structure Valid (L : Limits p) : Prop where
  extensionCount_le : L.maxExtensionCount ≤ 65535
  extensionBytes_le : L.maxExtensionBytes ≤ 65535
  payloadSize_le : L.maxPayloadSize ≤ 4294967295
  header_le : 32 ≤ L.maxFrameSize
  payload_le_frame : L.maxPayloadSize + 32 ≤ L.maxFrameSize
  frame_le_buffered : L.maxFrameSize ≤ L.maxBufferedBytes

theorem maxFrameSize_le (L : Limits p) : L.maxFrameSize ≤ p.sizeMax := L.fits _ (by simp)

theorem maxBufferedBytes_le (L : Limits p) : L.maxBufferedBytes ≤ p.sizeMax := L.fits _ (by simp)

theorem valid_iff (L : Limits p) : L.valid = true ↔ L.Valid := by
  have hframe := L.maxFrameSize_le
  constructor
  · intro h
    simp only [valid, Bool.and_eq_true, decide_eq_true_eq] at h
    obtain ⟨⟨⟨⟨⟨hcount, hbytes⟩, hpayload⟩, hheader⟩, hfits⟩, hbuffered⟩ := h
    rw [Platform.sub_eq hframe hheader] at hfits
    exact ⟨hcount, hbytes, hpayload, hheader, by omega, hbuffered⟩
  · rintro ⟨hcount, hbytes, hpayload, hheader, hfits, hbuffered⟩
    simp only [valid, Bool.and_eq_true, decide_eq_true_eq]
    rw [Platform.sub_eq hframe hheader]
    exact ⟨⟨⟨⟨⟨hcount, hbytes⟩, hpayload⟩, hheader⟩, by omega⟩, hbuffered⟩

end Limits

/-- The limits of a default-constructed codec. -/
def defaultLimits : Limits .bits64 where
  fits := by decide

/-- The limits of `test_invalid_frames_and_limits`: eight payload bytes, no
extensions, and a stream buffer of exactly one frame. -/
def smallTestLimits : Limits .bits64 where
  maxPayloadSize := 8
  maxExtensionCount := 0
  maxExtensionBytes := 0
  maxFrameSize := 40
  maxBufferedBytes := 40
  fits := by decide

end Protocol
end Vosp
