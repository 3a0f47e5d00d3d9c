import Mathlib

/-!
# Big-endian byte strings

A fixed-width unsigned integer travels as its base-256 digits, most significant
first.  This file is the arithmetic of that representation, for every width at
once, so that a codec for one particular width only has to say how *its* loop
produces or folds the digits.

* `digits n v` — the `n` low digits of `v`; `value bs` — the number a byte
  string denotes.
* `value_digits` and `digits_value` — the two are inverse to each other, in the
  first direction up to the digits that do not fit.
* `slice` — the byte range a field occupies, with the two laws a layout needs:
  a field written at its own offset is read back (`slice_append`), and a range
  is the concatenation of its consecutive fields (`slice_add`).
-/

namespace BigEndian

/-! ## Digits and values -/

/-- The `n` low base-256 digits of `v`, most significant first. -/
def digits : Nat → Nat → List UInt8
  | 0, _ => []
  | n + 1, v => digits n (v / 256) ++ [UInt8.ofNat v]

/-- The number a byte string denotes. -/
def value (bs : List UInt8) : Nat := bs.foldl (fun v b => v * 256 + b.toNat) 0

@[simp] theorem length_digits (n v : Nat) : (digits n v).length = n := by
  induction n generalizing v with
  | zero => rfl
  | succ n ih => simp [digits, ih]

/-- Digit number `k` of `v`, counted from the low end, is `v` shifted right by
`8 * k`. -/
theorem digits_eq_map (n v : Nat) :
    digits n v = (List.range n).reverse.map (fun k => UInt8.ofNat (v >>> (8 * k))) := by
  induction n generalizing v with
  | zero => rfl
  | succ n ih =>
      have hshift : ∀ k, (v / 256) >>> (8 * k) = v >>> (8 * (k + 1)) := by
        intro k
        rw [show v / 256 = v >>> 8 from (Nat.shiftRight_eq_div_pow v 8).symm, ← Nat.shiftRight_add,
          Nat.mul_succ, Nat.add_comm]
      rw [digits, ih, List.range_succ_eq_map, List.reverse_cons, List.map_append, ← List.map_reverse,
        List.map_map]
      simp [Function.comp_def, hshift]

@[simp] theorem value_nil : value [] = 0 := rfl

theorem value_concat (bs : List UInt8) (b : UInt8) :
    value (bs ++ [b]) = value bs * 256 + b.toNat := by
  simp [value]

/-- A string of `n` bytes denotes a number below `256 ^ n`. -/
theorem value_lt (bs : List UInt8) : value bs < 256 ^ bs.length := by
  induction bs using List.reverseRecOn with
  | nil => simp
  | append_singleton bs b ih =>
      rw [value_concat, List.length_append, List.length_singleton, pow_succ]
      have hb : b.toNat < 256 := b.toNat_lt
      omega

theorem value_digits (n v : Nat) : value (digits n v) = v % 256 ^ n := by
  induction n generalizing v with
  | zero => simp [digits, Nat.mod_one]
  | succ n ih =>
      have hpow : 256 ^ (n + 1) = 256 * 256 ^ n := by rw [pow_succ, Nat.mul_comm]
      rw [digits, value_concat, ih, UInt8.toNat_ofNat', hpow, Nat.mod_mul]
      omega

/-- A number that fits its width is read back exactly. -/
theorem value_digits_of_lt {n v : Nat} (h : v < 256 ^ n) : value (digits n v) = v := by
  rw [value_digits, Nat.mod_eq_of_lt h]

/-- The digits of a byte string's value are the byte string. -/
theorem digits_value (bs : List UInt8) : digits bs.length (value bs) = bs := by
  induction bs using List.reverseRecOn with
  | nil => rfl
  | append_singleton bs b ih =>
      have hb : b.toNat < 256 := b.toNat_lt
      have hdiv : (value bs * 256 + b.toNat) / 256 = value bs := by omega
      have hlow : UInt8.ofNat (value bs * 256 + b.toNat) = b := by
        rw [← UInt8.toNat_inj, UInt8.toNat_ofNat']
        omega
      rw [List.length_append, List.length_singleton, digits, value_concat, hdiv, ih, hlow]

/-- Only the low `n` digits of a number matter to `digits n`. -/
theorem digits_mod (n v : Nat) : digits n (v % 256 ^ n) = digits n v := by
  have h := digits_value (digits n v)
  rwa [value_digits, length_digits] at h

/-! ## Fields of a byte string -/

/-- The `n` bytes from offset `i` on. -/
def slice (bs : List UInt8) (i n : Nat) : List UInt8 := (bs.drop i).take n

theorem length_slice {bs : List UInt8} {i n : Nat} (h : i + n ≤ bs.length) :
    (slice bs i n).length = n := by
  rw [slice, List.length_take, List.length_drop]
  omega

/-- A field written right after the bytes before it is read back at its own
offset. -/
theorem slice_append {before field after : List UInt8} {i n : Nat} (hi : before.length = i)
    (hn : field.length = n) : slice (before ++ (field ++ after)) i n = field := by
  rw [slice, List.drop_left' hi, List.take_left' hn]

/-- Consecutive fields tile the range they are cut from. -/
theorem slice_add (bs : List UInt8) (i m n : Nat) :
    slice bs i (m + n) = slice bs i m ++ slice bs (i + m) n := by
  rw [slice, slice, slice, List.take_add, List.drop_drop]

theorem slice_zero (bs : List UInt8) (n : Nat) : slice bs 0 n = bs.take n := rfl

/-- A field is not affected by what follows the bytes that hold it. -/
theorem slice_append_left {bs : List UInt8} (rest : List UInt8) {i n : Nat}
    (h : i + n ≤ bs.length) : slice (bs ++ rest) i n = slice bs i n := by
  rw [slice, slice, List.drop_append_of_le_length (by omega),
    List.take_append_of_le_length (by rw [List.length_drop]; omega)]

/-- Reading past the bytes before a field is reading the bytes after them. -/
theorem slice_append_right {before : List UInt8} {i : Nat} (h : before.length ≤ i) (n : Nat)
    (after : List UInt8) : slice (before ++ after) i n = slice after (i - before.length) n := by
  rw [slice, slice, List.drop_append, List.drop_of_length_le h, List.nil_append]

end BigEndian
