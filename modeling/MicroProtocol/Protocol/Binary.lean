import MicroProtocol.Lib.Machine
import MicroProtocol.Protocol.Wire

/-!
# `BinaryWriter` and `BinaryReader`

The two classes of `binary.hpp`: a writer that appends network-order values up to
a limit, and a reader that walks over a byte span.  `write` and `read` are
templates over the unsigned integer types, so they take a `Width` here; the
string operations of the source repeat the integer loops by hand at four bytes,
and do so here.

* `Datum` — a value with the operation that writes it; `Request` — a read.
* `BinaryWriter.perform`, `BinaryReader.perform` — one operation of either kind,
  and the two classes as machines.

What the operations do is said in `BinaryPrograms`.
-/

namespace Vosp
namespace Protocol

/-- The unsigned integer types that are written and read, by their width. -/
inductive Width where
  | w8
  | w16
  | w32
  | w64
  deriving DecidableEq, Repr

/-- `sizeof(Value)`. -/
def Width.size : Width → Nat
  | w8 => 1
  | w16 => 2
  | w32 => 4
  | w64 => 8

/-- The number of bits of the type. -/
def Width.bits (width : Width) : Nat := 8 * width.size

/-- A value together with the operation that writes it: `write`, `write_bytes` or
`write_string`.  A string is its bytes. -/
inductive Datum where
  | integer (width : Width) (value : BitVec width.bits)
  | bytes (bytes : List UInt8)
  | string (value : List UInt8)
  deriving DecidableEq, Repr

/-- A read: `read`, `read_bytes` or `read_string`. -/
inductive Request where
  | integer (width : Width)
  | bytes (count : Nat)
  | string (maximum : Nat)
  deriving DecidableEq, Repr

/-- The shifts of the writing loops, which count `shift` down from the size and
shift by `(shift - 1) * 8` bits. -/
def byteShifts (size : Nat) : List Nat := (List.range size).reverse.map (8 * ·)

/-- `sizeof(std::uint32_t)`, the `prefix_size` of the string operations. -/
def prefixSize : Nat := 4

/-! ## `BinaryWriter` -/

/-- `BinaryWriter`. -/
structure BinaryWriter (p : Platform) where
  limit : Nat
  bytes : List UInt8 := []
  /-- The limit is a value of `size_t`. -/
  limit_le : limit ≤ p.sizeMax

namespace BinaryWriter

variable {p : Platform}

/-- `BinaryWriter::can_append`. -/
def canAppend (w : BinaryWriter p) (count : Nat) : Bool :=
  decide (count ≤ p.sub w.limit (min w.limit w.bytes.length))

/-- `BinaryWriter::write`. -/
def write (width : Width) (value : BitVec width.bits) (w : BinaryWriter p) :
    Result Unit × BinaryWriter p :=
  if w.canAppend width.size = false then
    (failure .limitExceeded "binary writer limit exceeded", w)
  else
    (.ok (), { w with bytes := appendShifts (byteShifts width.size) w.bytes value.toNat })

/-- `BinaryWriter::write_bytes`. -/
def writeBytes (bytes : List UInt8) (w : BinaryWriter p) : Result Unit × BinaryWriter p :=
  if w.canAppend bytes.length = false then
    (failure .limitExceeded "binary writer limit exceeded", w)
  else
    (.ok (), { w with bytes := w.bytes ++ bytes })

/-- `BinaryWriter::write_string`. -/
def writeString (value : List UInt8) (w : BinaryWriter p) : Result Unit × BinaryWriter p :=
  if value.length > uint32Max ∨ value.length > p.sub p.sizeMax prefixSize ∨
      w.canAppend (p.add prefixSize value.length) = false then
    (failure .limitExceeded "binary string limit exceeded", w)
  else
    let length := UInt32.ofNat value.length
    (.ok (), { w with
      bytes := appendShifts (byteShifts prefixSize) w.bytes length.toNat ++ value })

/-- The operation of a datum. -/
def perform (w : BinaryWriter p) : Datum → Result Unit × BinaryWriter p
  | .integer width value => w.write width value
  | .bytes bytes => w.writeBytes bytes
  | .string value => w.writeString value

/-- A writer as a machine, started as it is. -/
def machine (w : BinaryWriter p) : Machine (BinaryWriter p) Datum (Result Unit) where
  init := w
  step := perform

end BinaryWriter

/-! ## `BinaryReader` -/

/-- `BinaryReader`. -/
structure BinaryReader (p : Platform) where
  bytes : List UInt8
  position : Nat := 0
  /-- The size of the span is a value of `size_t`. -/
  size_le : bytes.length ≤ p.sizeMax

namespace BinaryReader

variable {p : Platform}

/-- `BinaryReader::remaining`. -/
def remaining (r : BinaryReader p) : Nat := p.sub r.bytes.length r.position

/-- `BinaryReader::read`.  At 8 and 16 bits the loop computes in `int` and narrows
afterwards, which keeps the same bits as shifting in the type itself. -/
def read (width : Width) (r : BinaryReader p) : Result (BitVec width.bits) × BinaryReader p :=
  if r.remaining < width.size then
    (failure .insufficientData "binary value is truncated", r)
  else
    (.ok (BitVec.ofNat width.bits (readLoop width.bits width.size r.bytes r.position)),
      { r with position := p.add r.position width.size })

/-- `BinaryReader::read_bytes`. -/
def readBytes (count : Nat) (r : BinaryReader p) : Result (List UInt8) × BinaryReader p :=
  if count > r.remaining then
    (failure .insufficientData "binary byte range is truncated", r)
  else
    (.ok ((r.bytes.drop r.position).take count), { r with position := p.add r.position count })

/-- `BinaryReader::read_string`. -/
def readString (maximum : Nat) (r : BinaryReader p) : Result (List UInt8) × BinaryReader p :=
  if r.remaining < prefixSize then
    (failure .insufficientData "binary string length is truncated", r)
  else
    let size := (UInt32.ofNat (readLoop 32 prefixSize r.bytes r.position)).toNat
    if size > maximum then
      (failure .limitExceeded "binary string limit exceeded", r)
    else if size > p.sub r.remaining prefixSize then
      (failure .insufficientData "binary string payload is truncated", r)
    else
      let position := p.add r.position prefixSize
      (.ok ((r.bytes.drop position).take size), { r with position := p.add position size })

/-- The operation of a request; what it returns is a datum. -/
def perform (r : BinaryReader p) : Request → Result Datum × BinaryReader p
  | .integer width => ((r.read width).1.map (.integer width), (r.read width).2)
  | .bytes count => ((r.readBytes count).1.map .bytes, (r.readBytes count).2)
  | .string maximum => ((r.readString maximum).1.map .string, (r.readString maximum).2)

/-- A reader as a machine, started as it is. -/
def machine (r : BinaryReader p) : Machine (BinaryReader p) Request (Result Datum) where
  init := r
  step := perform

end BinaryReader

end Protocol
end Vosp
