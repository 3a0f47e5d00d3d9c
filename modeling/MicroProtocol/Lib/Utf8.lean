import Mathlib

/-!
# UTF-8: byte ranges against scalar values

A Lean `Char` is a Unicode scalar value, and `String.utf8EncodeChar` is its
standard encoding.  A validator does not compute scalar values; it compares bytes
with ranges.  This file relates the two.

* `WellFormed` — the table of well-formed byte sequences, by their length.
* `wellFormed_iff` — the sequences in the table are exactly the encodings of
  scalar values: nothing overlong, no surrogate, nothing above U+10FFFF.
* `eq_of_append_eq` — no sequence in the table begins another one, so
  `encode_injective`: a byte string encodes at most one list of scalar values.
-/

namespace Utf8

/-- A continuation byte. -/
def Continues (b : UInt8) : Prop := 0x80 ≤ b.toNat ∧ b.toNat ≤ 0xbf

/-- The second byte of a three-byte sequence, which depends on the first. -/
def SecondOfThree (a b : UInt8) : Prop :=
  (a.toNat = 0xe0 ∧ 0xa0 ≤ b.toNat ∧ b.toNat ≤ 0xbf) ∨
  (a.toNat = 0xed ∧ 0x80 ≤ b.toNat ∧ b.toNat ≤ 0x9f) ∨
  (((0xe1 ≤ a.toNat ∧ a.toNat ≤ 0xec) ∨ (0xee ≤ a.toNat ∧ a.toNat ≤ 0xef)) ∧ Continues b)

/-- The second byte of a four-byte sequence, which depends on the first. -/
def SecondOfFour (a b : UInt8) : Prop :=
  (a.toNat = 0xf0 ∧ 0x90 ≤ b.toNat ∧ b.toNat ≤ 0xbf) ∨
  (a.toNat = 0xf4 ∧ 0x80 ≤ b.toNat ∧ b.toNat ≤ 0x8f) ∨
  (0xf1 ≤ a.toNat ∧ a.toNat ≤ 0xf3 ∧ Continues b)

theorem lead_of_three {a b : UInt8} (h : SecondOfThree a b) : 0xe0 ≤ a.toNat ∧ a.toNat ≤ 0xef := by
  rcases h with ⟨h, -⟩ | ⟨h, -⟩ | ⟨h, -⟩ <;> omega

theorem lead_of_four {a b : UInt8} (h : SecondOfFour a b) : 0xf0 ≤ a.toNat ∧ a.toNat ≤ 0xf4 := by
  rcases h with ⟨h, -⟩ | ⟨h, -⟩ | ⟨h, h', -⟩ <;> omega

theorem continues_of_three {a b : UInt8} (h : SecondOfThree a b) : Continues b := by
  rcases h with ⟨-, hlow, hhigh⟩ | ⟨-, hlow, hhigh⟩ | ⟨-, h⟩
  · exact ⟨by omega, hhigh⟩
  · exact ⟨hlow, by omega⟩
  · exact h

theorem continues_of_four {a b : UInt8} (h : SecondOfFour a b) : Continues b := by
  rcases h with ⟨-, hlow, hhigh⟩ | ⟨-, hlow, hhigh⟩ | ⟨-, -, h⟩
  · exact ⟨by omega, hhigh⟩
  · exact ⟨hlow, by omega⟩
  · exact h

/-- **The table of well-formed sequences.** -/
def WellFormed : List UInt8 → Prop
  | [a] => a.toNat ≤ 0x7f
  | [a, b] => 0xc2 ≤ a.toNat ∧ a.toNat ≤ 0xdf ∧ Continues b
  | [a, b, c] => SecondOfThree a b ∧ Continues c
  | [a, b, c, d] => SecondOfFour a b ∧ Continues c ∧ Continues d
  | _ => False

/-! ## The encoding of one scalar value -/

theorem ofNat_eq {n : Nat} {a : UInt8} (h : n = a.toNat) : UInt8.ofNat n = a := by
  rw [h, UInt8.ofNat_toNat]

theorem exists_char {v : Nat} (h : v.isValidChar) : ∃ c : Char, c.val.toNat = v := by
  have hlt : v < UInt32.size := by
    rcases h with h | h
    · exact h.trans (by decide)
    · exact h.2.trans (by decide)
  have hv : (UInt32.ofNat v).toNat = v := UInt32.toNat_ofNat_of_lt hlt
  refine ⟨⟨UInt32.ofNat v, ?_⟩, hv⟩
  rw [UInt32.isValidChar, hv]
  exact h

/-- Every encoding is in the table. -/
theorem wellFormed_encodeChar (c : Char) : WellFormed (String.utf8EncodeChar c) := by
  have hvalid : c.val.toNat.isValidChar := c.valid
  unfold Nat.isValidChar at hvalid
  unfold String.utf8EncodeChar
  generalize c.val.toNat = v at hvalid
  by_cases h1 : v ≤ 0x7f
  · simp only [if_pos h1, WellFormed, UInt8.toNat_ofNat']
    omega
  by_cases h2 : v ≤ 0x7ff
  · simp only [if_neg h1, if_pos h2, WellFormed, Continues, UInt8.toNat_ofNat']
    omega
  by_cases h3 : v ≤ 0xffff
  · simp only [if_neg h1, if_neg h2, if_pos h3, WellFormed, SecondOfThree, Continues,
      UInt8.toNat_ofNat']
    omega
  · simp only [if_neg h1, if_neg h2, if_neg h3, WellFormed, SecondOfFour, Continues,
      UInt8.toNat_ofNat']
    omega

/-- The scalar value a sequence stands for. -/
def scalar : List UInt8 → Nat
  | [a] => a.toNat
  | [a, b] => 64 * (a.toNat % 32) + b.toNat % 64
  | [a, b, c] => 4096 * (a.toNat % 16) + 64 * (b.toNat % 64) + c.toNat % 64
  | [a, b, c, d] =>
      262144 * (a.toNat % 8) + 4096 * (b.toNat % 64) + 64 * (c.toNat % 64) + d.toNat % 64
  | _ => 0

/-- Three bytes are not used for what two can hold. -/
theorem scalar_three_ge {a b : UInt8} (h : SecondOfThree a b) (c : UInt8) :
    0x800 ≤ scalar [a, b, c] := by
  rw [scalar]
  rcases h with ⟨ha, hlow, hhigh⟩ | ⟨ha, -⟩ | ⟨ha, -⟩
  · omega
  · omega
  · omega

/-- Four bytes are not used for what three can hold. -/
theorem scalar_four_ge {a b : UInt8} (h : SecondOfFour a b) (c d : UInt8) :
    0x10000 ≤ scalar [a, b, c, d] := by
  rw [scalar]
  rcases h with ⟨ha, hlow, hhigh⟩ | ⟨ha, -⟩ | ⟨hlow, hhigh, -⟩
  · omega
  · omega
  · omega

theorem scalar_encodeChar (c : Char) : scalar (String.utf8EncodeChar c) = c.val.toNat := by
  have hvalid : c.val.toNat.isValidChar := c.valid
  unfold Nat.isValidChar at hvalid
  unfold String.utf8EncodeChar
  generalize c.val.toNat = v at hvalid
  by_cases h1 : v ≤ 0x7f
  · simp only [if_pos h1, scalar, UInt8.toNat_ofNat']
    omega
  by_cases h2 : v ≤ 0x7ff
  · simp only [if_neg h1, if_pos h2, scalar, UInt8.toNat_ofNat']
    omega
  by_cases h3 : v ≤ 0xffff
  · simp only [if_neg h1, if_neg h2, if_pos h3, scalar, UInt8.toNat_ofNat']
    omega
  · simp only [if_neg h1, if_neg h2, if_neg h3, scalar, UInt8.toNat_ofNat']
    omega

theorem encodeChar_injective : Function.Injective String.utf8EncodeChar := by
  intro c c' h
  have hval := congrArg scalar h
  rw [scalar_encodeChar, scalar_encodeChar] at hval
  exact Char.ext (UInt32.toNat_inj.1 hval)

/-- A sequence in the table stands for a scalar value. -/
theorem scalar_valid {s : List UInt8} (h : WellFormed s) : (scalar s).isValidChar := by
  unfold Nat.isValidChar
  match s, h with
  | [a], h =>
      simp only [WellFormed, scalar] at h ⊢
      omega
  | [a, b], h =>
      simp only [WellFormed, Continues, scalar] at h ⊢
      omega
  | [a, b, c], h =>
      rw [scalar]
      -- below the surrogates, unless the first byte is above 0xed
      rcases h.1 with ⟨ha, -⟩ | ⟨ha, hlow, hhigh⟩ | ⟨ha | ha, -⟩
      · exact .inl (by omega)
      · exact .inl (by omega)
      · exact .inl (by omega)
      · exact .inr (by omega)
  | [a, b, c, d], h =>
      have hmin := scalar_four_ge h.1 c d
      have hmax : scalar [a, b, c, d] < 0x110000 := by
        rw [scalar]
        rcases h.1 with ⟨ha, -⟩ | ⟨ha, hlow, hhigh⟩ | ⟨hlow, hhigh, -⟩
        · omega
        · omega
        · omega
      exact .inr ⟨by omega, hmax⟩

/-- A sequence in the table is the encoding of the scalar value it stands for. -/
theorem encodeChar_of_scalar {s : List UInt8} (h : WellFormed s) {k : Char}
    (hk : k.val.toNat = scalar s) : String.utf8EncodeChar k = s := by
  unfold String.utf8EncodeChar
  generalize k.val.toNat = v at hk
  match s, h, hk with
  | [a], h, hk =>
      simp only [WellFormed, scalar] at h hk
      simp only [if_pos (show v ≤ 0x7f by omega)]
      rw [ofNat_eq hk]
  | [a, b], h, hk =>
      simp only [WellFormed, Continues, scalar] at h hk
      simp only [if_neg (show ¬ v ≤ 0x7f by omega), if_pos (show v ≤ 0x7ff by omega)]
      rw [ofNat_eq (a := a) (by omega), ofNat_eq (a := b) (by omega)]
  | [a, b, c], h, hk =>
      have hmin : 0x800 ≤ v := hk ▸ scalar_three_ge h.1 c
      obtain ⟨hlow, hhigh⟩ := lead_of_three h.1
      obtain ⟨⟨hb, hb'⟩, hc, hc'⟩ := And.intro (continues_of_three h.1) h.2
      clear h
      simp only [scalar] at hk
      simp only [if_neg (show ¬ v ≤ 0x7f by omega), if_neg (show ¬ v ≤ 0x7ff by omega),
        if_pos (show v ≤ 0xffff by omega)]
      rw [ofNat_eq (a := a) (by omega), ofNat_eq (a := b) (by omega), ofNat_eq (a := c) (by omega)]
  | [a, b, c, d], h, hk =>
      have hmin : 0x10000 ≤ v := hk ▸ scalar_four_ge h.1 c d
      obtain ⟨hlow, hhigh⟩ := lead_of_four h.1
      obtain ⟨⟨hb, hb'⟩, ⟨hc, hc'⟩, hd, hd'⟩ := And.intro (continues_of_four h.1) h.2
      clear h
      simp only [scalar] at hk
      simp only [if_neg (show ¬ v ≤ 0x7f by omega), if_neg (show ¬ v ≤ 0x7ff by omega),
        if_neg (show ¬ v ≤ 0xffff by omega)]
      rw [ofNat_eq (a := a) (by omega), ofNat_eq (a := b) (by omega), ofNat_eq (a := c) (by omega),
        ofNat_eq (a := d) (by omega)]

/-- **Ranges against scalar values**: the sequences in the table are exactly the
encodings of scalar values. -/
theorem wellFormed_iff {s : List UInt8} :
    WellFormed s ↔ ∃ c : Char, String.utf8EncodeChar c = s := by
  constructor
  · intro h
    obtain ⟨c, hc⟩ := exists_char (scalar_valid h)
    exact ⟨c, encodeChar_of_scalar h hc⟩
  · rintro ⟨c, rfl⟩
    exact wellFormed_encodeChar c

/-! ## Strings of scalar values -/

/-- The length of a sequence, as its first byte announces it. -/
def announced : List UInt8 → Nat
  | [] => 0
  | a :: _ => if a.toNat ≤ 0x7f then 1 else if a.toNat ≤ 0xdf then 2 else
      if a.toNat ≤ 0xef then 3 else 4

theorem announced_le (s : List UInt8) : announced s ≤ 4 := by
  cases s with
  | nil => decide
  | cons a s =>
      rw [announced]
      split_ifs <;> omega

theorem announced_append {s : List UInt8} (hs : s ≠ []) (t : List UInt8) :
    announced (s ++ t) = announced s := by
  cases s with
  | nil => exact absurd rfl hs
  | cons a s => rfl

theorem length_of_wellFormed {s : List UInt8} (h : WellFormed s) : s.length = announced s := by
  match s, h with
  | [a], h =>
      simp only [WellFormed] at h
      simp [announced, h]
  | [a, b], h =>
      simp only [WellFormed] at h
      rw [announced, if_neg (by omega), if_pos (by omega)]
      rfl
  | [a, b, c], h =>
      obtain ⟨hlow, hhigh⟩ := lead_of_three h.1
      rw [announced, if_neg (by omega), if_neg (by omega), if_pos (by omega)]
      rfl
  | [a, b, c, d], h =>
      obtain ⟨hlow, hhigh⟩ := lead_of_four h.1
      rw [announced, if_neg (by omega), if_neg (by omega), if_neg (by omega)]
      rfl

theorem ne_nil_of_wellFormed {s : List UInt8} (h : WellFormed s) : s ≠ [] := by
  rintro rfl
  exact h

/-- No sequence in the table is the beginning of another. -/
theorem eq_of_append_eq {s s' t t' : List UInt8} (hs : WellFormed s) (hs' : WellFormed s')
    (h : s ++ t = s' ++ t') : s = s' ∧ t = t' := by
  have hlen : s.length = s'.length := by
    rw [length_of_wellFormed hs, length_of_wellFormed hs',
      ← announced_append (ne_nil_of_wellFormed hs) t, h,
      announced_append (ne_nil_of_wellFormed hs') t']
  exact List.append_inj h hlen

/-- The encoding of a list of scalar values. -/
def encode (cs : List Char) : List UInt8 := cs.flatMap String.utf8EncodeChar

@[simp] theorem encode_nil : encode [] = [] := rfl

@[simp] theorem encode_cons (c : Char) (cs : List Char) :
    encode (c :: cs) = String.utf8EncodeChar c ++ encode cs := rfl

/-- **Unique decoding.** -/
theorem encode_injective : Function.Injective encode := by
  intro cs cs' h
  induction cs generalizing cs' with
  | nil =>
      cases cs' with
      | nil => rfl
      | cons c' cs' =>
          have hnil := (List.append_eq_nil_iff.1 h.symm).1
          exact absurd hnil (ne_nil_of_wellFormed (wellFormed_encodeChar c'))
  | cons c cs ih =>
      cases cs' with
      | nil =>
          have hnil := (List.append_eq_nil_iff.1 h).1
          exact absurd hnil (ne_nil_of_wellFormed (wellFormed_encodeChar c))
      | cons c' cs' =>
          obtain ⟨hc, hcs⟩ := eq_of_append_eq (wellFormed_encodeChar c) (wellFormed_encodeChar c') h
          rw [encodeChar_injective hc, ih hcs]

end Utf8
