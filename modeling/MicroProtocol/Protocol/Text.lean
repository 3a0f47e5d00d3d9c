import MicroProtocol.Lib.Utf8
import MicroProtocol.Protocol.Wire

/-!
# `Utf8Codec`: strict UTF-8 text

`valid_utf8` is a hand-written loop over byte ranges, with special cases after the
lead bytes `E0`, `ED`, `F0` and `F4` and a look-ahead at the end of the input.

* `utf8Step`, `validUtf8`, `Utf8Codec` — `text.hpp`, branch by branch.
* `utf8Step_eq_some_iff` — one iteration advances over exactly one well-formed
  sequence.
* `validUtf8_spec` — the loop accepts exactly the encodings of lists of scalar
  values, and the codec exactly those of them within its limit, unchanged.
-/

namespace Vosp
namespace Protocol

open BigEndian

/-! ## The model -/

/-- `detail::continuation`. -/
def continuation (value : UInt8) : Bool := value &&& 0xc0 == 0x80

/-- `valid_second` of the three-byte branch. -/
def validSecondOfThree (first second : UInt8) : Bool :=
  decide ((first = 0xe0 ∧ second ≥ 0xa0 ∧ second ≤ 0xbf) ∨
    (first = 0xed ∧ second ≥ 0x80 ∧ second ≤ 0x9f) ∨
    (((first ≥ 0xe1 ∧ first ≤ 0xec) ∨ (first ≥ 0xee ∧ first ≤ 0xef)) ∧
      second ≥ 0x80 ∧ second ≤ 0xbf))

/-- `valid_second` of the four-byte branch. -/
def validSecondOfFour (first second : UInt8) : Bool :=
  decide ((first = 0xf0 ∧ second ≥ 0x90 ∧ second ≤ 0xbf) ∨
    (first = 0xf4 ∧ second ≥ 0x80 ∧ second ≤ 0x8f) ∨
    (first ≥ 0xf1 ∧ first ≤ 0xf3 ∧ second ≥ 0x80 ∧ second ≤ 0xbf))

/-- One iteration of the loop of `detail::valid_utf8`: the next index, or `none`
where the function returns false.  A span has at most `PTRDIFF_MAX` bytes and the
index is within it, so the `size_t` sums do not wrap. -/
def utf8Step (bytes : List UInt8) (index : Nat) : Option Nat :=
  let first := byteAt bytes index
  if first ≤ 0x7f then
    some (index + 1)
  else if first ≥ 0xc2 ∧ first ≤ 0xdf then
    if index + 1 ≥ bytes.length ∨ continuation (byteAt bytes (index + 1)) = false then none
    else some (index + 2)
  else if first ≥ 0xe0 ∧ first ≤ 0xef then
    if index + 2 ≥ bytes.length then none
    else
      let second := byteAt bytes (index + 1)
      if validSecondOfThree first second = false ∨
          continuation (byteAt bytes (index + 2)) = false then none
      else some (index + 3)
  else if first ≥ 0xf0 ∧ first ≤ 0xf4 then
    if index + 3 ≥ bytes.length then none
    else
      let second := byteAt bytes (index + 1)
      if validSecondOfFour first second = false ∨
          continuation (byteAt bytes (index + 2)) = false ∨
          continuation (byteAt bytes (index + 3)) = false then none
      else some (index + 4)
  else none

/-- Every iteration advances. -/
theorem lt_of_utf8Step {bytes : List UInt8} {index next : Nat}
    (h : utf8Step bytes index = some next) : index < next := by
  unfold utf8Step at h
  simp only at h
  split_ifs at h <;> (cases h; omega)

/-- The loop of `detail::valid_utf8` from `index` on. -/
def validUtf8From (bytes : List UInt8) (index : Nat) : Bool :=
  if index < bytes.length then
    match _h : utf8Step bytes index with
    | none => false
    | some next => validUtf8From bytes next
  else true
termination_by bytes.length - index
decreasing_by
  have := lt_of_utf8Step _h
  omega

/-- `detail::valid_utf8`. -/
def validUtf8 (bytes : List UInt8) : Bool := validUtf8From bytes 0

namespace Utf8Codec

/-- `Utf8Codec::encode` of a codec with the given limit; a `std::string` is its
bytes. -/
def encode (limit : Nat) (value : List UInt8) : Result (List UInt8) :=
  if value.length > limit then
    failure .limitExceeded "UTF-8 value limit exceeded"
  else if validUtf8 value = false then
    failure .invalidUtf8 "text is not valid UTF-8"
  else .ok value

/-- `Utf8Codec::decode`. -/
def decode (limit : Nat) (bytes : List UInt8) : Result (List UInt8) :=
  if bytes.length > limit then
    failure .limitExceeded "UTF-8 value limit exceeded"
  else if validUtf8 bytes = false then
    failure .invalidUtf8 "payload is not valid UTF-8"
  else .ok bytes

end Utf8Codec

/-! ## One iteration -/

theorem continuation_eq_false_iff (b : UInt8) :
    continuation b = false ↔ ¬ Utf8.Continues b := by
  have hall : ∀ n : Fin 256, continuation (UInt8.ofNat n) = false ↔
      ¬ (0x80 ≤ n.val ∧ n.val ≤ 0xbf) := by
    decide +kernel
  have hb := hall ⟨b.toNat, b.toNat_lt⟩
  rwa [UInt8.ofNat_toNat] at hb

theorem validSecondOfThree_eq_false_iff (a b : UInt8) :
    validSecondOfThree a b = false ↔ ¬ Utf8.SecondOfThree a b := by
  rw [validSecondOfThree, decide_eq_false_iff_not, not_iff_not]
  simp only [Utf8.SecondOfThree, Utf8.Continues, ge_iff_le, UInt8.le_iff_toNat_le, ← UInt8.toNat_inj,
    UInt8.reduceToNat]

theorem validSecondOfFour_eq_false_iff (a b : UInt8) :
    validSecondOfFour a b = false ↔ ¬ Utf8.SecondOfFour a b := by
  rw [validSecondOfFour, decide_eq_false_iff_not, not_iff_not]
  simp only [Utf8.SecondOfFour, Utf8.Continues, ge_iff_le, UInt8.le_iff_toNat_le, ← UInt8.toNat_inj,
    UInt8.reduceToNat]

section Slices

variable {bytes : List UInt8} {index : Nat}

/-- The bytes of a slice, one by one. -/
theorem slice_eq_map {n : Nat} (h : index + n ≤ bytes.length) :
    slice bytes index n = (List.range n).map fun i => byteAt bytes (index + i) := by
  induction n with
  | zero => rfl
  | succ n ih => rw [slice_succ h, ih (by omega), List.range_succ, List.map_append, List.map_singleton]

/-- An iteration that succeeds has passed over a well-formed sequence. -/
theorem wellFormed_of_utf8Step (hindex : index < bytes.length) {next : Nat}
    (h : utf8Step bytes index = some next) :
    next ≤ bytes.length ∧ Utf8.WellFormed (slice bytes index (next - index)) := by
  unfold utf8Step at h
  simp only at h
  split_ifs at h with h1 h2 h2' h3 h3' h3'' h4 h4' h4''
  · cases h
    rw [Nat.add_sub_cancel_left, slice_eq_map hindex]
    exact ⟨hindex, UInt8.le_iff_toNat_le.1 h1⟩
  · cases h
    rw [not_or, continuation_eq_false_iff, not_not] at h2'
    have hlen : index + 2 ≤ bytes.length := not_le.1 h2'.1
    rw [Nat.add_sub_cancel_left, slice_eq_map hlen]
    exact ⟨hlen, UInt8.le_iff_toNat_le.1 h2.1, UInt8.le_iff_toNat_le.1 h2.2, h2'.2⟩
  · cases h
    rw [not_or, validSecondOfThree_eq_false_iff, continuation_eq_false_iff, not_not, not_not] at h3''
    have hlen : index + 3 ≤ bytes.length := not_le.1 h3'
    rw [Nat.add_sub_cancel_left, slice_eq_map hlen]
    exact ⟨hlen, h3''⟩
  · cases h
    rw [not_or, not_or, validSecondOfFour_eq_false_iff, continuation_eq_false_iff,
      continuation_eq_false_iff, not_not, not_not, not_not] at h4''
    have hlen : index + 4 ≤ bytes.length := not_le.1 h4'
    rw [Nat.add_sub_cancel_left, slice_eq_map hlen]
    exact ⟨hlen, h4''⟩

/-- An iteration succeeds on every well-formed sequence. -/
theorem utf8Step_of_wellFormed {n : Nat} (hn : index + n ≤ bytes.length)
    (h : Utf8.WellFormed (slice bytes index n)) : utf8Step bytes index = some (index + n) := by
  have hlen : n = Utf8.announced (slice bytes index n) := by
    rw [← Utf8.length_of_wellFormed h, length_slice hn]
  have hle : n ≤ 4 := hlen ▸ Utf8.announced_le _
  clear hlen
  rw [slice_eq_map hn] at h
  unfold utf8Step
  simp only [ge_iff_le, UInt8.le_iff_toNat_le, UInt8.reduceToNat]
  interval_cases n
  · exact absurd h (by simp [Utf8.WellFormed])
  · exact if_pos h
  · obtain ⟨hlow, hhigh, hcont⟩ : 0xc2 ≤ (byteAt bytes index).toNat ∧
        (byteAt bytes index).toNat ≤ 0xdf ∧ Utf8.Continues (byteAt bytes (index + 1)) := h
    rw [if_neg (by omega), if_pos ⟨hlow, hhigh⟩, if_neg]
    rw [not_or, continuation_eq_false_iff, not_not]
    exact ⟨by omega, hcont⟩
  · obtain ⟨hsecond, hcont⟩ : Utf8.SecondOfThree (byteAt bytes index) (byteAt bytes (index + 1)) ∧
        Utf8.Continues (byteAt bytes (index + 2)) := h
    obtain ⟨hlow, hhigh⟩ := Utf8.lead_of_three hsecond
    rw [if_neg (by omega), if_neg (by omega), if_pos ⟨hlow, hhigh⟩, if_neg (by omega), if_neg]
    rw [not_or, validSecondOfThree_eq_false_iff, continuation_eq_false_iff, not_not, not_not]
    exact ⟨hsecond, hcont⟩
  · obtain ⟨hsecond, hcont⟩ : Utf8.SecondOfFour (byteAt bytes index) (byteAt bytes (index + 1)) ∧
        Utf8.Continues (byteAt bytes (index + 2)) ∧ Utf8.Continues (byteAt bytes (index + 3)) := h
    obtain ⟨hlow, hhigh⟩ := Utf8.lead_of_four hsecond
    rw [if_neg (by omega), if_neg (by omega), if_neg (by omega), if_pos ⟨hlow, hhigh⟩,
      if_neg (by omega), if_neg]
    rw [not_or, not_or, validSecondOfFour_eq_false_iff, continuation_eq_false_iff,
      continuation_eq_false_iff, not_not, not_not, not_not]
    exact ⟨hsecond, hcont⟩

end Slices

/-! ## The loop -/

/-- What is left after a sequence. -/
theorem drop_eq_slice_append {bytes : List UInt8} {index n : Nat} :
    bytes.drop index = slice bytes index n ++ bytes.drop (index + n) := by
  rw [slice, ← List.drop_drop, List.take_append_drop]

/-- An iteration passes over the first scalar value of an encoding. -/
theorem utf8Step_of_encode {bytes : List UInt8} {index : Nat} {c : Char} {cs : List Char}
    (h : Utf8.encode (c :: cs) = bytes.drop index) :
    utf8Step bytes index = some (index + (String.utf8EncodeChar c).length) ∧
      bytes.drop (index + (String.utf8EncodeChar c).length) = Utf8.encode cs := by
  rw [Utf8.encode_cons] at h
  have hpos := List.length_pos_iff.2 (Utf8.ne_nil_of_wellFormed (Utf8.wellFormed_encodeChar c))
  have hlen := congrArg List.length h
  rw [List.length_append, List.length_drop] at hlen
  have hslice : slice bytes index (String.utf8EncodeChar c).length = String.utf8EncodeChar c := by
    rw [slice, ← h]
    exact List.take_left
  constructor
  · apply utf8Step_of_wellFormed
    · omega
    · rw [hslice]
      exact Utf8.wellFormed_encodeChar c
  · rw [← List.drop_drop, ← h]
    exact List.drop_left

/-- The loop accepts what is left of the input exactly when that is the encoding
of a list of scalar values. -/
theorem validUtf8From_iff (bytes : List UInt8) (index : Nat) :
    validUtf8From bytes index = true ↔ ∃ cs, Utf8.encode cs = bytes.drop index := by
  induction hk : bytes.length - index using Nat.strong_induction_on generalizing index with
  | _ k ih =>
      rw [validUtf8From.eq_def]
      by_cases hindex : index < bytes.length
      swap
      · rw [if_neg hindex, List.drop_eq_nil_of_le (not_lt.1 hindex)]
        exact ⟨fun _ => ⟨[], rfl⟩, fun _ => rfl⟩
      rw [if_pos hindex]
      have hne : bytes.drop index ≠ [] := by simpa using hindex
      cases hstep : utf8Step bytes index with
      | none =>
          refine ⟨fun h => absurd h Bool.false_ne_true, ?_⟩
          rintro ⟨_ | ⟨c, cs⟩, hcs⟩
          · exact absurd hcs.symm hne
          · rw [(utf8Step_of_encode hcs).1] at hstep
            cases hstep
      | some next =>
          have hlt := lt_of_utf8Step hstep
          obtain ⟨hle, hwf⟩ := wellFormed_of_utf8Step hindex hstep
          have hsplit := @drop_eq_slice_append bytes index (next - index)
          rw [Nat.add_sub_cancel' hlt.le] at hsplit
          rw [ih (bytes.length - next) (by omega) next rfl]
          constructor
          · rintro ⟨cs, hcs⟩
            obtain ⟨c, hc⟩ := Utf8.wellFormed_iff.1 hwf
            exact ⟨c :: cs, by rw [Utf8.encode_cons, hc, hcs, ← hsplit]⟩
          · rintro ⟨_ | ⟨c, cs⟩, hcs⟩
            · exact absurd hcs.symm hne
            · obtain ⟨hsome, hrest⟩ := utf8Step_of_encode hcs
              rw [hstep] at hsome
              cases hsome
              exact ⟨cs, hrest.symm⟩

theorem validUtf8_iff (bytes : List UInt8) :
    validUtf8 bytes = true ↔ ∃ cs, Utf8.encode cs = bytes := validUtf8From_iff bytes 0

/-- A codec that checks the limit and then the text returns exactly the valid texts
within the limit, unchanged; the two directions differ in one error text only. -/
theorem checked_eq_ok_iff {limit : Nat} {bytes result : List UInt8} {e e' : Error} :
    (if bytes.length > limit then .error e
      else if validUtf8 bytes = false then .error e' else .ok bytes : Result (List UInt8)) = .ok result ↔
      bytes.length ≤ limit ∧ (∃ cs, Utf8.encode cs = bytes) ∧ result = bytes := by
  rw [← validUtf8_iff]
  by_cases hlimit : bytes.length > limit
  · simp [hlimit, not_le.2 hlimit]
  by_cases hvalid : validUtf8 bytes = true
  · simp [hlimit, not_lt.1 hlimit, hvalid, eq_comm]
  · simp [hlimit, hvalid]

/-- **Strict UTF-8.**  `valid_utf8` accepts exactly the concatenations of the
standard encodings of scalar values, and no byte string is such a concatenation
in two ways.  For every limit, `Utf8Codec` encodes and decodes exactly those of
them that are not longer than the limit, and changes nothing. -/
theorem validUtf8_spec (limit : Nat) (bytes : List UInt8) :
    (validUtf8 bytes = true ↔ ∃ cs : List Char, cs.flatMap String.utf8EncodeChar = bytes) ∧
    (∀ cs cs' : List Char, cs.flatMap String.utf8EncodeChar = bytes →
      cs'.flatMap String.utf8EncodeChar = bytes → cs = cs') ∧
    (∀ result, Utf8Codec.decode limit bytes = .ok result ↔ bytes.length ≤ limit ∧
      (∃ cs : List Char, cs.flatMap String.utf8EncodeChar = bytes) ∧ result = bytes) ∧
    (∀ result, Utf8Codec.encode limit bytes = .ok result ↔ bytes.length ≤ limit ∧
      (∃ cs : List Char, cs.flatMap String.utf8EncodeChar = bytes) ∧ result = bytes) := by
  refine ⟨validUtf8_iff bytes, ?_, fun result => checked_eq_ok_iff, fun result => checked_eq_ok_iff⟩
  intro cs cs' h h'
  exact Utf8.encode_injective (h.trans h'.symm)

end Protocol
end Vosp
