import MicroProtocol.Lib.Storage

/-!
# `SecureBuffer`

`secure_buffer.cpp` and the two implementations of `secure_erase`, which differ only in the
name of the system call, over the vectors of `Storage`.  A method that changes the object it
is called on returns it.

The contracts follow the code: each says which buffers a method takes over, what is in them,
and which it leaves.
-/

namespace Vosp
namespace Security

open Storage

/-- The codes of `security::ErrorCode`. -/
inductive ErrorCode where
  | invalidArgument
  | limitExceeded
  | authenticationFailed
  | invalidExtension
  | providerFailure
  deriving DecidableEq, Repr

/-- `security::Error`. -/
structure Error where
  code : ErrorCode
  message : String
  deriving DecidableEq, Repr

/-- `security::Result`, an `std::expected`. -/
abbrev Result (α : Type) := Except Error α

/-- `secure_erase`, of the range of a vector. -/
def secureErase (bytes : Vec) : StateM (Heap UInt8) Unit :=
  if bytes.size = 0 then pure () else bytes.zeroFill

/-- `security::SecureBuffer`. -/
structure SecureBuffer where
  bytes : Vec := {}
  deriving DecidableEq, Repr

namespace SecureBuffer

/-- `default_maximum_size`. -/
def defaultMaximumSize : ℕ := 1024 * 1024

/-- `hard_maximum_size`. -/
def hardMaximumSize : ℕ := 64 * 1024 * 1024

/-- `size`. -/
def size (b : SecureBuffer) : ℕ := b.bytes.size

/-- `empty`. -/
def empty (b : SecureBuffer) : Bool := b.bytes.size == 0

/-- `clear`. -/
def clear (b : SecureBuffer) : StateM (Heap UInt8) SecureBuffer := do
  secureErase b.bytes
  pure { b with bytes := b.bytes.clear }

/-- The private constructor; its parameter is destroyed at the end. -/
def ofVector (bytes : Vec) : StateM (Heap UInt8) SecureBuffer := do
  let (own, bytes) := bytes.move
  bytes.release
  pure ⟨own⟩

/-- The move constructor: the new buffer and what is left of `other`. -/
def moveConstruct (other : SecureBuffer) : StateM (Heap UInt8) (SecureBuffer × SecureBuffer) := do
  let (own, rest) := other.bytes.move
  let other ← clear ⟨rest⟩
  pure (⟨own⟩, other)

/-- The move assignment from another buffer: `this` and what is left of `other`. -/
def moveAssign (this other : SecureBuffer) :
    StateM (Heap UInt8) (SecureBuffer × SecureBuffer) := do
  let this ← this.clear
  let (own, rest) ← this.bytes.moveAssign other.bytes
  let other ← clear ⟨rest⟩
  pure (⟨own⟩, other)

/-- The destructor. -/
def destroy (b : SecureBuffer) : StateM (Heap UInt8) Unit := do
  let b ← b.clear
  b.bytes.release

/-- `copy_from`.  The buffer made of the vector is a temporary, from which the one in the
result is move-constructed. -/
def copyFrom (source : List UInt8) (maximumSize : ℕ := defaultMaximumSize) :
    StateM (Heap UInt8) (Result SecureBuffer) :=
  if source = [] ∨ maximumSize = 0 ∨ hardMaximumSize < maximumSize then
    pure (.error ⟨.invalidArgument, "secure buffer size limit is invalid"⟩)
  else if maximumSize < source.length then
    pure (.error ⟨.limitExceeded, "secret exceeds secure buffer limit"⟩)
  else do
    let bytes ← Vec.ofList source
    let temporary ← ofVector bytes
    let (value, temporary) ← temporary.moveConstruct
    temporary.destroy
    pure (.ok value)

/-- A write through `bytes()`. -/
def write (b : SecureBuffer) (index : ℕ) (value : UInt8) : StateM (Heap UInt8) Unit :=
  b.bytes.store index value

/-! ## Contracts -/

/-- The buffer with the given contents. -/
def holding (b : SecureBuffer) (xs : List UInt8) : Multiset (Vec × List UInt8) := {(b.bytes, xs)}

theorem triple_secureErase (v : Vec) (xs : List UInt8) :
    Triple {(v, xs)} (secureErase v) (fun _ => {(v, List.replicate xs.length 0)}) := by
  intro F h hh
  unfold secureErase
  split_ifs with hsize
  · have hxs : xs = [] := List.eq_nil_of_length_eq_zero (hh.pointsTo_last.size_eq ▸ hsize)
    subst hxs
    exact hh
  · exact triple_zeroFill v xs F h hh

theorem triple_clear (b : SecureBuffer) (xs : List UInt8) :
    Triple (b.holding xs) b.clear (fun b' => b'.holding []) :=
  (triple_secureErase b.bytes xs).bind fun _ => Storage.triple_clear b.bytes (blank_replicate _)

/-- Destroying or clearing what a move has left touches nothing. -/
theorem triple_ofVector (v : Vec) (xs : List UInt8) :
    Triple {(v, xs)} (ofVector v) (fun b => b.holding xs) := by
  refine Triple.of_null (((triple_release {}).frame {(v, xs)}).bind fun _ => ?_)
  exact triple_pure (add_zero _)

theorem triple_moveConstruct (other : SecureBuffer) (xs : List UInt8) :
    Triple (other.holding xs) other.moveConstruct (fun r => r.1.holding xs + r.2.holding []) :=
  Triple.of_null (((triple_clear {} []).frame (other.holding xs)).bind fun _ => triple_pure rfl)

/-- What the target held is erased before its block is given up. -/
theorem triple_moveAssign (this other : SecureBuffer) (xs ys : List UInt8) :
    Triple (this.holding xs + other.holding ys) (this.moveAssign other)
      (fun r => r.1.holding ys + r.2.holding []) := by
  rw [add_comm]
  refine ((triple_clear this xs).frame (other.holding ys)).bind fun this' => ?_
  refine Triple.bind (W := fun r => {(r.1, ys)} + {(r.2, [])}) ?_ fun r => ?_
  · refine ((triple_release this'.bytes).frame (other.holding ys)).bind fun _ => ?_
    exact Triple.of_null (triple_pure (by rw [add_zero]; rfl))
  · exact ((triple_clear ⟨r.2⟩ []).frame {(r.1, ys)}).bind fun _ => triple_pure rfl

theorem triple_destroy (b : SecureBuffer) (xs : List UInt8) :
    Triple (b.holding xs) b.destroy (fun _ => 0) :=
  (triple_clear b xs).bind fun b' => triple_release b'.bytes

theorem triple_write (b : SecureBuffer) (xs : List UInt8) (index : ℕ) (value : UInt8) :
    Triple (b.holding xs) (b.write index value) (fun _ => b.holding (xs.set index value)) :=
  triple_store b.bytes xs index value

/-- The buffer in a result. -/
def heldBy (source : List UInt8) : Result SecureBuffer → Multiset (Vec × List UInt8)
  | .ok b => b.holding source
  | .error _ => 0

theorem triple_copyFrom (source : List UInt8) (maximumSize : ℕ) :
    Triple 0 (copyFrom source maximumSize) (heldBy source) := by
  unfold copyFrom
  split_ifs
  · exact triple_pure rfl
  · exact triple_pure rfl
  refine (triple_ofList source).bind fun bytes => ?_
  refine (triple_ofVector bytes source).bind fun temporary => ?_
  refine (triple_moveConstruct temporary source).bind fun r => ?_
  refine ((triple_destroy r.2 []).frame (r.1.holding source)).bind fun _ => ?_
  exact triple_pure (add_zero _)

end SecureBuffer

end Security
end Vosp
