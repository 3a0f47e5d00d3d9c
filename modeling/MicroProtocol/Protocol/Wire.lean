import MicroProtocol.Lib.BigEndian
import MicroProtocol.Protocol.Types

/-!
# Network byte order: `append_u16` … `read_u64`

The six helpers of `frame.hpp` that move fixed-width integers in and out of a
byte vector.  `append_u32` and `append_u64` are one loop over a list of shifts,
`read_u32` and `read_u64` one loop over a byte count; `append_u16` and
`read_u16` are written out in the source and keep their own bodies here.

The specification of all six is the big-endian arithmetic of
`MicroProtocol.Lib.BigEndian`: an `append` adds `digits`, and a `read` inside
the buffer is the `value` of the bytes it covers (`appendU16_eq` …
`toNat_readU64`).  Three facts about whole buffers follow and are all that the
frame codec uses: a field that was written is read back
(`toNat_readU16_digits` …), the bytes a field was read from are its digits
(`digits_readU16` …), and a field that has arrived does not change when more
bytes arrive (`readU16_append` …).
-/

namespace Vosp
namespace Protocol

open BigEndian

/-! ## Writing -/

/-- The loop shared by `append_u32` and `append_u64`: one byte for each shift. -/
def appendShifts (shifts : List Nat) (output : List UInt8) (value : Nat) : List UInt8 :=
  shifts.foldl (fun output shift => output ++ [UInt8.ofNat ((value >>> shift) &&& 0xff)]) output

/-- `detail::append_u16`. -/
def appendU16 (output : List UInt8) (value : UInt16) : List UInt8 :=
  output ++ [UInt8.ofNat ((value.toNat >>> 8) &&& 0xff)] ++ [UInt8.ofNat (value.toNat &&& 0xff)]

/-- `detail::append_u32`. -/
def appendU32 (output : List UInt8) (value : UInt32) : List UInt8 :=
  appendShifts [24, 16, 8, 0] output value.toNat

/-- `detail::append_u64`. -/
def appendU64 (output : List UInt8) (value : UInt64) : List UInt8 :=
  appendShifts [56, 48, 40, 32, 24, 16, 8, 0] output value.toNat

/-- Masking with `0xff` changes nothing once the result is stored in a byte. -/
theorem ofNat_and_mask (n : Nat) : UInt8.ofNat (n &&& 0xff) = UInt8.ofNat n := by
  rw [← UInt8.toNat_inj, UInt8.toNat_ofNat', UInt8.toNat_ofNat',
    show (0xff : Nat) = 2 ^ 8 - 1 from rfl, Nat.and_two_pow_sub_one_eq_mod, Nat.mod_mod]

theorem appendShifts_eq_map (shifts : List Nat) (output : List UInt8) (value : Nat) :
    appendShifts shifts output value = output ++ shifts.map (fun s => UInt8.ofNat (value >>> s)) := by
  induction shifts generalizing output with
  | nil => simp [appendShifts]
  | cons s shifts ih =>
      rw [appendShifts, List.foldl_cons, ← appendShifts, ih, ofNat_and_mask, List.map_cons,
        List.append_assoc, List.singleton_append]

/-- Shifting by every multiple of eight, from the highest down to zero, appends
the big-endian digits. -/
theorem appendShifts_eq_digits (n : Nat) (output : List UInt8) (value : Nat) :
    appendShifts ((List.range n).reverse.map (8 * ·)) output value = output ++ digits n value := by
  rw [appendShifts_eq_map, digits_eq_map, List.map_map]
  rfl

theorem appendU16_eq (output : List UInt8) (value : UInt16) :
    appendU16 output value = output ++ digits 2 value.toNat :=
  appendShifts_eq_digits 2 output value.toNat

theorem appendU32_eq (output : List UInt8) (value : UInt32) :
    appendU32 output value = output ++ digits 4 value.toNat :=
  appendShifts_eq_digits 4 output value.toNat

theorem appendU64_eq (output : List UInt8) (value : UInt64) :
    appendU64 output value = output ++ digits 8 value.toNat :=
  appendShifts_eq_digits 8 output value.toNat

/-! ## Reading -/

/-- `input[index]`.  The source never reads past the end of a span, so the
default is not observable. -/
def byteAt (input : List UInt8) (index : Nat) : UInt8 := input.getD index 0

/-- The loop shared by `read_u32` and `read_u64`, over an accumulator of `width`
bits: shifting left drops the bits that leave it. -/
def readLoop (width count : Nat) (input : List UInt8) (offset : Nat) : Nat :=
  (List.range count).foldl
    (fun value index => ((value <<< 8) % 2 ^ width) ||| (byteAt input (offset + index)).toNat) 0

/-- `detail::read_u16`. -/
def readU16 (input : List UInt8) (offset : Nat) : UInt16 :=
  UInt16.ofNat (((byteAt input offset).toNat <<< 8) ||| (byteAt input (offset + 1)).toNat)

/-- `detail::read_u32`. -/
def readU32 (input : List UInt8) (offset : Nat) : UInt32 :=
  UInt32.ofNat (readLoop 32 4 input offset)

/-- `detail::read_u64`. -/
def readU64 (input : List UInt8) (offset : Nat) : UInt64 :=
  UInt64.ofNat (readLoop 64 8 input offset)

theorem slice_succ {input : List UInt8} {offset n : Nat} (h : offset + (n + 1) ≤ input.length) :
    slice input offset (n + 1) = slice input offset n ++ [byteAt input (offset + n)] := by
  have hlt : n < (input.drop offset).length := by rw [List.length_drop]; omega
  rw [slice, slice, List.take_succ_eq_append_getElem hlt, List.getElem_drop, byteAt,
    List.getD_eq_getElem _ _ (by omega)]

theorem shiftLeft_or_byte (v : Nat) (b : UInt8) : (v <<< 8) ||| b.toNat = v * 256 + b.toNat := by
  have hb : b.toNat < 2 ^ 8 := b.toNat_lt
  rw [← Nat.shiftLeft_add_eq_or_of_lt hb, Nat.shiftLeft_eq]

theorem value_slice_lt (input : List UInt8) (offset n : Nat) :
    value (slice input offset n) < 256 ^ n := by
  refine lt_of_lt_of_le (value_lt _) (Nat.pow_le_pow_right (by decide) ?_)
  rw [slice, List.length_take]
  exact Nat.min_le_left _ _

/-- The read loop folds the digits of the bytes it covers, and an accumulator
wide enough for all of them never drops a bit. -/
theorem readLoop_eq {width count : Nat} (hw : 8 * count ≤ width) {input : List UInt8} {offset : Nat}
    (h : offset + count ≤ input.length) :
    readLoop width count input offset = value (slice input offset count) := by
  -- induction on the number of iterations already made
  have key : ∀ k ≤ count, (List.range k).foldl (fun value index =>
      ((value <<< 8) % 2 ^ width) ||| (byteAt input (offset + index)).toNat) 0 =
      value (slice input offset k) := by
    intro k
    induction k with
    | zero => intro _; rfl
    | succ k ih =>
        intro hk
        have hlt : value (slice input offset k) < 256 ^ k := value_slice_lt input offset k
        have hfit : value (slice input offset k) <<< 8 < 2 ^ width := by
          rw [Nat.shiftLeft_eq]
          calc value (slice input offset k) * 2 ^ 8 < 256 ^ k * 2 ^ 8 :=
                Nat.mul_lt_mul_of_pos_right hlt (by decide)
            _ = 2 ^ (8 * (k + 1)) := by
                rw [show (256 : Nat) = 2 ^ 8 from rfl, ← Nat.pow_mul, ← Nat.pow_add, Nat.mul_succ]
            _ ≤ 2 ^ width := Nat.pow_le_pow_right (by decide) (by omega)
        rw [List.range_succ, List.foldl_append, ih (by omega), List.foldl_cons, List.foldl_nil,
          Nat.mod_eq_of_lt hfit, shiftLeft_or_byte, slice_succ (by omega), value_concat]
  exact key count le_rfl

theorem toNat_readU16 {input : List UInt8} {offset : Nat} (h : offset + 2 ≤ input.length) :
    (readU16 input offset).toNat = value (slice input offset 2) := by
  have hlt : value (slice input offset 2) < 2 ^ 16 := value_slice_lt input offset 2
  have hval : value (slice input offset 2) =
      (byteAt input offset).toNat * 256 + (byteAt input (offset + 1)).toNat := by
    rw [slice_succ (n := 1) (by omega), value_concat, slice_succ (n := 0) (by omega), value_concat]
    simp [slice]
  rw [readU16, shiftLeft_or_byte, ← hval, UInt16.toNat_ofNat', Nat.mod_eq_of_lt hlt]

theorem toNat_readU32 {input : List UInt8} {offset : Nat} (h : offset + 4 ≤ input.length) :
    (readU32 input offset).toNat = value (slice input offset 4) := by
  have hlt : value (slice input offset 4) < 2 ^ 32 := value_slice_lt input offset 4
  rw [readU32, readLoop_eq (by decide) h, UInt32.toNat_ofNat', Nat.mod_eq_of_lt hlt]

theorem toNat_readU64 {input : List UInt8} {offset : Nat} (h : offset + 8 ≤ input.length) :
    (readU64 input offset).toNat = value (slice input offset 8) := by
  have hlt : value (slice input offset 8) < 2 ^ 64 := value_slice_lt input offset 8
  rw [readU64, readLoop_eq (by decide) h, UInt64.toNat_ofNat', Nat.mod_eq_of_lt hlt]

/-! ## Fields of a buffer -/

/-- A two-byte field is read back from its own offset. -/
theorem toNat_readU16_field {before after : List UInt8} {offset v : Nat}
    (hoffset : before.length = offset) (hv : v < 65536) :
    (readU16 (before ++ (digits 2 v ++ after)) offset).toNat = v := by
  rw [toNat_readU16 (by simp; omega), slice_append hoffset (length_digits 2 v),
    value_digits_of_lt hv]

/-- A two-byte field at the front is read back. -/
theorem toNat_readU16_digits {v : Nat} (hv : v < 65536) (after : List UInt8) :
    (readU16 (digits 2 v ++ after) 0).toNat = v := by
  rw [toNat_readU16 (by simp), slice, List.drop_zero, List.take_left' (length_digits 2 v),
    value_digits_of_lt hv]

/-- A four-byte field at the front is read back. -/
theorem toNat_readU32_digits {v : Nat} (hv : v < 4294967296) (after : List UInt8) :
    (readU32 (digits 4 v ++ after) 0).toNat = v := by
  rw [toNat_readU32 (by simp), slice, List.drop_zero, List.take_left' (length_digits 4 v),
    value_digits_of_lt hv]

/-- An eight-byte field at the front is read back. -/
theorem toNat_readU64_digits {v : Nat} (hv : v < 18446744073709551616) (after : List UInt8) :
    (readU64 (digits 8 v ++ after) 0).toNat = v := by
  rw [toNat_readU64 (by simp), slice, List.drop_zero, List.take_left' (length_digits 8 v),
    value_digits_of_lt hv]

/-- The bytes a two-byte field was read from are its digits. -/
theorem digits_readU16 {input : List UInt8} {offset : Nat} (h : offset + 2 ≤ input.length) :
    digits 2 (readU16 input offset).toNat = slice input offset 2 := by
  have hdigits := digits_value (slice input offset 2)
  rwa [length_slice h, ← toNat_readU16 h] at hdigits

/-- The bytes a four-byte field was read from are its digits. -/
theorem digits_readU32 {input : List UInt8} {offset : Nat} (h : offset + 4 ≤ input.length) :
    digits 4 (readU32 input offset).toNat = slice input offset 4 := by
  have hdigits := digits_value (slice input offset 4)
  rwa [length_slice h, ← toNat_readU32 h] at hdigits

/-- The bytes an eight-byte field was read from are its digits. -/
theorem digits_readU64 {input : List UInt8} {offset : Nat} (h : offset + 8 ≤ input.length) :
    digits 8 (readU64 input offset).toNat = slice input offset 8 := by
  have hdigits := digits_value (slice input offset 8)
  rwa [length_slice h, ← toNat_readU64 h] at hdigits

/-- A field that has arrived is not changed by later bytes. -/
theorem readU16_append {input : List UInt8} {offset : Nat} (h : offset + 2 ≤ input.length)
    (rest : List UInt8) : readU16 (input ++ rest) offset = readU16 input offset := by
  rw [← UInt16.toNat_inj, toNat_readU16 (by simp; omega), toNat_readU16 h, slice_append_left rest h]

theorem readU32_append {input : List UInt8} {offset : Nat} (h : offset + 4 ≤ input.length)
    (rest : List UInt8) : readU32 (input ++ rest) offset = readU32 input offset := by
  rw [← UInt32.toNat_inj, toNat_readU32 (by simp; omega), toNat_readU32 h, slice_append_left rest h]

theorem readU64_append {input : List UInt8} {offset : Nat} (h : offset + 8 ≤ input.length)
    (rest : List UInt8) : readU64 (input ++ rest) offset = readU64 input offset := by
  rw [← UInt64.toNat_inj, toNat_readU64 (by simp; omega), toNat_readU64 h, slice_append_left rest h]

/-! ## Skipping fields

Reading past a field is reading the bytes after it, at an offset counted from
there.  A chain of these lemmas brings any field of a layout to offset zero. -/

theorem byteAt_append_right {before : List UInt8} {index : Nat} (h : before.length ≤ index)
    (after : List UInt8) : byteAt (before ++ after) index = byteAt after (index - before.length) := by
  rw [byteAt, byteAt, List.getD_append_right _ _ _ _ h]

theorem readLoop_skip {before : List UInt8} {offset : Nat} (h : before.length ≤ offset)
    (width count : Nat) (after : List UInt8) :
    readLoop width count (before ++ after) offset
      = readLoop width count after (offset - before.length) := by
  have hbyte : ∀ index, byteAt (before ++ after) (offset + index)
      = byteAt after (offset - before.length + index) := by
    intro index
    rw [byteAt_append_right (by omega), Nat.sub_add_comm h]
  simp only [readLoop, hbyte]

theorem readU16_skip {n v offset : Nat} (h : n ≤ offset) (after : List UInt8) :
    readU16 (digits n v ++ after) offset = readU16 after (offset - n) := by
  rw [readU16, readU16, byteAt_append_right (by rwa [length_digits]),
    byteAt_append_right (by rw [length_digits]; omega), length_digits, Nat.sub_add_comm h]

theorem readU32_skip {n v offset : Nat} (h : n ≤ offset) (after : List UInt8) :
    readU32 (digits n v ++ after) offset = readU32 after (offset - n) := by
  rw [readU32, readU32, readLoop_skip (by rwa [length_digits]), length_digits]

theorem readU64_skip {n v offset : Nat} (h : n ≤ offset) (after : List UInt8) :
    readU64 (digits n v ++ after) offset = readU64 after (offset - n) := by
  rw [readU64, readU64, readLoop_skip (by rwa [length_digits]), length_digits]

end Protocol
end Vosp
