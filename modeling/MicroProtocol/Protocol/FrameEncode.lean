import MicroProtocol.Protocol.Frame

/-!
# What `FrameCodec::encode` accepts and emits

`encode` tests the extension sizes one by one in `size_t` arithmetic, partly
before their four-byte headers are added, and builds the frame by appending
field after field.  This file replaces both by closed forms:

* `Fits L m` — the message is within the limits, in exact arithmetic over the
  sum `extensionBytes` of all TLV sizes.
* `wireLayout m` — the VSP1 table of `WIRE_FORMAT.md`, field by field.
* `encode_eq_ok_iff` — under valid limits `encode` succeeds exactly on the
  messages that fit, with exactly that layout; `encode_error_code` — and every
  failure on a message that does not fit is `limit_exceeded`.
-/

namespace Vosp
namespace Protocol

open BigEndian

/-! ## The layout -/

/-- The header bytes one extension takes: two two-byte fields and the value. -/
def Extension.wireSize (e : Extension) : Nat := 4 + e.value.length

/-- The header bytes a list of extensions takes. -/
def extensionBytes (extensions : List Extension) : Nat := (extensions.map Extension.wireSize).sum

/-- One TLV entry on the wire. -/
def Extension.wireBytes (e : Extension) : List UInt8 :=
  digits 2 e.id.toNat ++ (digits 2 e.value.length ++ e.value)

/-- The TLV section of a header. -/
def tlvBytes (extensions : List Extension) : List UInt8 := extensions.flatMap Extension.wireBytes

/-- The first 32 bytes of a frame. -/
def fixedHeader (m : Message) : List UInt8 :=
  digits 4 wireMagic.toNat ++ (digits 2 (32 + extensionBytes m.extensions) ++
    (digits 2 m.flags.bits.toNat ++ (digits 2 m.version.major.toNat ++
      (digits 2 m.version.minor.toNat ++ (digits 4 m.type.toNat ++
        (digits 8 m.correlationId.toNat ++ (digits 4 m.payload.length ++
          (digits 2 m.extensions.length ++ digits 2 0))))))))

/-- A whole frame, in the order of the table in `WIRE_FORMAT.md`. -/
def wireLayout (m : Message) : List UInt8 := fixedHeader m ++ (tlvBytes m.extensions ++ m.payload)

@[simp] theorem extensionBytes_nil : extensionBytes [] = 0 := rfl

@[simp] theorem extensionBytes_cons (e : Extension) (es : List Extension) :
    extensionBytes (e :: es) = 4 + e.value.length + extensionBytes es := by
  simp [extensionBytes, Extension.wireSize]

@[simp] theorem tlvBytes_nil : tlvBytes [] = [] := rfl

@[simp] theorem tlvBytes_cons (e : Extension) (es : List Extension) :
    tlvBytes (e :: es) = e.wireBytes ++ tlvBytes es := rfl

@[simp] theorem Extension.length_wireBytes (e : Extension) :
    e.wireBytes.length = 4 + e.value.length := by
  rw [wireBytes, List.length_append, List.length_append, length_digits, length_digits]
  omega

@[simp] theorem length_tlvBytes (es : List Extension) :
    (tlvBytes es).length = extensionBytes es := by
  induction es with
  | nil => rfl
  | cons e es ih => simp [ih]

@[simp] theorem length_fixedHeader (m : Message) : (fixedHeader m).length = 32 := by
  simp [fixedHeader]

theorem length_wireLayout (m : Message) :
    (wireLayout m).length = 32 + extensionBytes m.extensions + m.payload.length := by
  simp [wireLayout]
  omega

namespace FrameCodec

variable {p : Platform}

/-! ## What is emitted -/

theorem digits_ofNat16 (n : Nat) : digits 2 (UInt16.ofNat n).toNat = digits 2 n := by
  rw [UInt16.toNat_ofNat']
  exact digits_mod 2 n

theorem digits_ofNat32 (n : Nat) : digits 4 (UInt32.ofNat n).toNat = digits 4 n := by
  rw [UInt32.toNat_ofNat']
  exact digits_mod 4 n

theorem appendExtension_eq (output : List UInt8) (e : Extension) :
    appendExtension output e = output ++ e.wireBytes := by
  simp only [appendExtension, appendU16_eq, digits_ofNat16, Extension.wireBytes, List.append_assoc]

theorem foldl_appendExtension (es : List Extension) (output : List UInt8) :
    es.foldl appendExtension output = output ++ tlvBytes es := by
  induction es generalizing output with
  | nil => simp
  | cons e es ih => rw [List.foldl_cons, ih, appendExtension_eq, tlvBytes_cons, List.append_assoc]

/-- The emission part writes the documented layout. -/
theorem emit_eq (m : Message) :
    emit m (32 + extensionBytes m.extensions) = wireLayout m := by
  simp only [emit, appendU16_eq, appendU32_eq, appendU64_eq, foldl_appendExtension, digits_ofNat16,
    digits_ofNat32, wireLayout, fixedHeader, List.append_assoc, List.nil_append]
  rfl

/-! ## What is accepted -/

/-- The message is within the limits, in exact arithmetic. -/
structure Fits (L : Limits p) (m : Message) : Prop where
  payload_le : m.payload.length ≤ L.maxPayloadSize
  count_le : m.extensions.length ≤ L.maxExtensionCount
  bytes_le : extensionBytes m.extensions ≤ L.maxExtensionBytes
  header_le : extensionBytes m.extensions ≤ 65503
  frame_le : 32 + extensionBytes m.extensions + m.payload.length ≤ L.maxFrameSize

/-- When the loop of `encode` finishes, it has summed the exact sizes. -/
theorem eq_of_measureExtensions {L : Limits p} (hL : L.Valid) {es : List Extension} {acc n : Nat}
    (h : measureExtensions L acc es = .ok n) : n = acc + extensionBytes es := by
  have hmax := p.uint32Max_le_sizeMax
  have hbytes := hL.extensionBytes_le
  induction es generalizing acc with
  | nil =>
      rw [measureExtensions] at h
      cases h
      simp
  | cons e es ih =>
      rw [measureExtensions] at h
      split at h
      · cases h
      · rename_i hguard
        simp only [uint16Max, not_or, not_lt, gt_iff_lt] at hguard
        obtain ⟨hvalue, hacc, -, -⟩ := hguard
        rw [Platform.add_eq (a := 4) (by omega), Platform.add_eq (by omega)] at h
        rw [ih h, extensionBytes_cons]
        omega

/-- The loop refuses nothing that stays within the extension limit: the guards
it makes before adding the four header bytes are never the decisive ones. -/
theorem measureExtensions_eq {L : Limits p} (hL : L.Valid) {es : List Extension} {acc : Nat}
    (h : acc + extensionBytes es ≤ L.maxExtensionBytes) :
    measureExtensions L acc es = .ok (acc + extensionBytes es) := by
  have hmax := p.uint32Max_le_sizeMax
  have hbytes := hL.extensionBytes_le
  induction es generalizing acc with
  | nil => simp [measureExtensions]
  | cons e es ih =>
      rw [extensionBytes_cons] at h
      have hsub : p.sub L.maxExtensionBytes acc = L.maxExtensionBytes - acc :=
        Platform.sub_eq (by omega) (by omega)
      have hsub' : p.sub (p.sub p.sizeMax acc) 4 = p.sizeMax - acc - 4 := by
        rw [Platform.sub_eq le_rfl (by omega), Platform.sub_eq (by omega) (by omega)]
      rw [measureExtensions, if_neg, Platform.add_eq (a := 4) (by omega),
        Platform.add_eq (by omega), ih (by omega), extensionBytes_cons]
      · congr 1
        omega
      · rw [hsub, hsub', uint16Max]
        omega

theorem measureExtensions_error {L : Limits p} {es : List Extension} {acc : Nat} {e : Error}
    (h : measureExtensions L acc es = .error e) : e.code = .limitExceeded := by
  induction es generalizing acc with
  | nil => cases h
  | cons a es ih =>
      rw [measureExtensions] at h
      split at h
      · cases h
        rfl
      · exact ih h

/-- A message that fits is encoded, and as the documented layout. -/
theorem encode_of_fits {L : Limits p} (hL : L.Valid) {m : Message} (h : Fits L m) :
    encode L m = .ok (wireLayout m) := by
  have hmax := p.uint32Max_le_sizeMax
  have hframe := L.maxFrameSize_le
  obtain ⟨hpayload, hcount, hbytes, hheader, hfits⟩ := h
  have hmeasure : measureExtensions L 0 m.extensions = .ok (extensionBytes m.extensions) := by
    rw [measureExtensions_eq hL (by rwa [Nat.zero_add]), Nat.zero_add]
  have hadd : p.add wireHeaderSize (extensionBytes m.extensions)
      = 32 + extensionBytes m.extensions := Platform.add_eq (by rw [wireHeaderSize]; omega)
  have hsub : p.sub uint16Max wireHeaderSize = 65503 :=
    Platform.sub_eq (by rw [uint16Max]; omega) (by decide)
  have hsub' : p.sub p.sizeMax (32 + extensionBytes m.extensions)
      = p.sizeMax - (32 + extensionBytes m.extensions) := Platform.sub_eq le_rfl (by omega)
  have hadd' : p.add (32 + extensionBytes m.extensions) m.payload.length
      = 32 + extensionBytes m.extensions + m.payload.length := Platform.add_eq (by omega)
  have h1 := hL.payloadSize_le
  have h2 := hL.extensionCount_le
  rw [encode, if_neg (by simp [(Limits.valid_iff L).2 hL]), if_neg (by rw [uint32Max]; omega),
    if_neg (by rw [uint16Max]; omega), hmeasure]
  simp only [hadd, hsub, hsub', hadd']
  rw [if_neg (by omega), if_neg (by omega), if_neg (by omega), emit_eq]

/-- Whatever `encode` accepts fits. -/
theorem fits_of_encode {L : Limits p} {m : Message} {f : List UInt8} (h : encode L m = .ok f) :
    L.Valid ∧ Fits L m := by
  have hmax := p.uint32Max_le_sizeMax
  rw [encode] at h
  split at h
  · cases h
  rename_i hvalid
  have hL : L.Valid := (Limits.valid_iff L).1 (by simpa using hvalid)
  have hframe := L.maxFrameSize_le
  have hbound := hL.extensionBytes_le
  split at h
  · cases h
  rename_i hpayload
  split at h
  · cases h
  rename_i hcount
  split at h
  · cases h
  rename_i n hmeasure
  have hn : n = extensionBytes m.extensions := by
    simpa using eq_of_measureExtensions hL hmeasure
  subst hn
  have hsub : p.sub uint16Max wireHeaderSize = 65503 :=
    Platform.sub_eq (by rw [uint16Max]; omega) (by decide)
  split at h
  · cases h
  rename_i hheader
  rw [hsub] at hheader
  have hadd : p.add wireHeaderSize (extensionBytes m.extensions)
      = 32 + extensionBytes m.extensions := Platform.add_eq (by rw [wireHeaderSize]; omega)
  simp only [hadd] at h
  split at h
  · cases h
  rename_i hsize
  rw [Platform.sub_eq le_rfl (by omega)] at hsize
  split at h
  · cases h
  rename_i hfits
  rw [Platform.add_eq (by omega)] at hfits
  exact ⟨hL, by omega, by omega, by omega, by omega, by omega⟩

/-- **Acceptance of `encode`.**  It succeeds exactly under valid limits on the
messages within them, and its output is the documented layout. -/
theorem encode_eq_ok_iff {L : Limits p} {m : Message} {f : List UInt8} :
    encode L m = .ok f ↔ L.Valid ∧ Fits L m ∧ f = wireLayout m := by
  constructor
  · intro h
    obtain ⟨hL, hfits⟩ := fits_of_encode h
    rw [encode_of_fits hL hfits] at h
    cases h
    exact ⟨hL, hfits, rfl⟩
  · rintro ⟨hL, hfits, rfl⟩
    exact encode_of_fits hL hfits

/-- Under valid limits every refusal is a `limit_exceeded`. -/
theorem encode_error_code {L : Limits p} (hL : L.Valid) {m : Message} {e : Error}
    (h : encode L m = .error e) : e.code = .limitExceeded := by
  rw [encode, if_neg (by simp [(Limits.valid_iff L).2 hL])] at h
  split at h
  · cases h; rfl
  split at h
  · cases h; rfl
  split at h
  · rename_i hmeasure
    cases h
    exact measureExtensions_error hmeasure
  simp only at h
  split at h
  · cases h; rfl
  split at h
  · cases h; rfl
  split at h
  · cases h; rfl
  · cases h

end FrameCodec
end Protocol
end Vosp
