import MicroProtocol.Protocol.FrameProbe

/-!
# Frames round trip, and every accepted frame is canonical

The two directions between messages and bytes, for peers that need not agree on
their limits nor on the width of their `size_t`.

* `complete_wireLayout_iff`, `messageAt_wireLayout` — a frame that some sender
  emitted is a complete frame for a receiver exactly when it fits that receiver's
  limits, and then it carries the sender's message.
* `decodePrefix_encode` — **interoperability**: the receiver recovers the message
  if it could have sent it itself, and otherwise reports `limit_exceeded`.
* `wireLayout_messageAt` — whatever bytes are accepted are the layout of the
  message they decode to.
* `encode_decodePrefix` — **canonicity**: re-encoding a decoded frame gives back
  its bytes, so no message has two encodings.
-/

namespace Vosp
namespace Protocol
namespace FrameCodec

open BigEndian

variable {p q : Platform}

/-! ## Reading a frame that was emitted -/

/-- The sizes of a message are representable in the fields of the header. -/
structure Representable (m : Message) : Prop where
  extensions_le : extensionBytes m.extensions ≤ 65503
  count_le : m.extensions.length ≤ 65535
  payload_le : m.payload.length ≤ 4294967295

theorem Fits.representable {L : Limits p} (hL : L.Valid) {m : Message} (h : Fits L m) :
    Representable m :=
  ⟨h.header_le, h.count_le.trans hL.extensionCount_le, h.payload_le.trans hL.payloadSize_le⟩

section Fields

variable {m : Message} (rest : List UInt8)

theorem magic_wireLayout : readU32 (wireLayout m ++ rest) 0 = wireMagic := by
  rw [← UInt32.toNat_inj, wireLayout, fixedHeader]
  simp only [List.append_assoc]
  exact toNat_readU32_digits wireMagic.toNat_lt _

theorem flags_wireLayout : readU16 (wireLayout m ++ rest) 6 = m.flags.bits := by
  simp only [wireLayout, fixedHeader, List.append_assoc, readU16_skip, Nat.reduceLeDiff,
    Nat.reduceSub]
  exact UInt16.toNat_inj.1 (toNat_readU16_digits m.flags.bits.toNat_lt _)

theorem major_wireLayout : readU16 (wireLayout m ++ rest) 8 = m.version.major := by
  simp only [wireLayout, fixedHeader, List.append_assoc, readU16_skip, Nat.reduceLeDiff,
    Nat.reduceSub]
  exact UInt16.toNat_inj.1 (toNat_readU16_digits m.version.major.toNat_lt _)

theorem minor_wireLayout : readU16 (wireLayout m ++ rest) 10 = m.version.minor := by
  simp only [wireLayout, fixedHeader, List.append_assoc, readU16_skip, Nat.reduceLeDiff,
    Nat.reduceSub]
  exact UInt16.toNat_inj.1 (toNat_readU16_digits m.version.minor.toNat_lt _)

theorem type_wireLayout : readU32 (wireLayout m ++ rest) 12 = m.type := by
  simp only [wireLayout, fixedHeader, List.append_assoc, readU32_skip, Nat.reduceLeDiff,
    Nat.reduceSub]
  exact UInt32.toNat_inj.1 (toNat_readU32_digits m.type.toNat_lt _)

theorem correlationId_wireLayout : readU64 (wireLayout m ++ rest) 16 = m.correlationId := by
  simp only [wireLayout, fixedHeader, List.append_assoc, readU64_skip, Nat.reduceLeDiff,
    Nat.reduceSub]
  exact UInt64.toNat_inj.1 (toNat_readU64_digits m.correlationId.toNat_lt _)

theorem reserved_wireLayout : readU16 (wireLayout m ++ rest) 30 = 0 := by
  simp only [wireLayout, fixedHeader, List.append_assoc, readU16_skip, Nat.reduceLeDiff,
    Nat.reduceSub]
  exact UInt16.toNat_inj.1 (toNat_readU16_digits (by decide) _)

variable (hm : Representable m)

include hm

theorem headerSizeOf_wireLayout :
    headerSizeOf (wireLayout m ++ rest) = 32 + extensionBytes m.extensions := by
  have hle := hm.extensions_le
  simp only [headerSizeOf, wireLayout, fixedHeader, List.append_assoc, readU16_skip,
    Nat.reduceLeDiff, Nat.reduceSub]
  exact toNat_readU16_digits (by omega) _

theorem payloadSizeOf_wireLayout : payloadSizeOf (wireLayout m ++ rest) = m.payload.length := by
  simp only [payloadSizeOf, wireLayout, fixedHeader, List.append_assoc, readU32_skip,
    Nat.reduceLeDiff, Nat.reduceSub]
  exact toNat_readU32_digits (Nat.lt_succ_of_le hm.payload_le) _

theorem extensionCountOf_wireLayout :
    extensionCountOf (wireLayout m ++ rest) = m.extensions.length := by
  simp only [extensionCountOf, wireLayout, fixedHeader, List.append_assoc, readU16_skip,
    Nat.reduceLeDiff, Nat.reduceSub]
  exact toNat_readU16_digits (Nat.lt_succ_of_le hm.count_le) _

theorem frameSizeOf_wireLayout : frameSizeOf (wireLayout m ++ rest) = (wireLayout m).length := by
  rw [frameSizeOf, headerSizeOf_wireLayout rest hm, payloadSizeOf_wireLayout rest hm,
    length_wireLayout]

/-- The header of an emitted frame, with its extensions. -/
theorem take_headerSizeOf_wireLayout :
    (wireLayout m ++ rest).take (headerSizeOf (wireLayout m ++ rest))
      = fixedHeader m ++ tlvBytes m.extensions := by
  rw [headerSizeOf_wireLayout rest hm, wireLayout, ← List.append_assoc, List.append_assoc]
  exact List.take_left' (by simp)

/-- For every receiver, the header checks on an emitted frame ask whether the
message fits the receiver's limits. -/
theorem headerOk_wireLayout_iff {L : Limits q} :
    HeaderOk L (wireLayout m ++ rest) ↔ Fits L m := by
  have hle := hm.extensions_le
  constructor
  · rintro ⟨-, -, hcount, hext, hpayload, hframe⟩
    rw [extensionCountOf_wireLayout rest hm] at hcount
    rw [headerSizeOf_wireLayout rest hm] at hext
    rw [payloadSizeOf_wireLayout rest hm] at hpayload
    rw [frameSizeOf_wireLayout rest hm, length_wireLayout] at hframe
    exact ⟨hpayload, hcount, by omega, hle, hframe⟩
  · rintro ⟨hpayload, hcount, hext, -, hframe⟩
    refine ⟨reserved_wireLayout rest, ?_, ?_, ?_, ?_, ?_⟩
    · rw [headerSizeOf_wireLayout rest hm]
      omega
    · rwa [extensionCountOf_wireLayout rest hm]
    · rw [headerSizeOf_wireLayout rest hm]
      omega
    · rwa [payloadSizeOf_wireLayout rest hm]
    · rwa [frameSizeOf_wireLayout rest hm, length_wireLayout]

/-- The TLV section of an emitted frame always validates. -/
theorem validateExtensions_wireLayout :
    validateExtensions q ((wireLayout m ++ rest).take (headerSizeOf (wireLayout m ++ rest)))
      (extensionCountOf (wireLayout m ++ rest)) = .ok () := by
  have hle := hm.extensions_le
  have hwalk := @walkExtensions_tlvBytes q m.extensions (fixedHeader m) (by simp; omega)
  rw [length_fixedHeader] at hwalk
  rw [take_headerSizeOf_wireLayout rest hm, extensionCountOf_wireLayout rest hm,
    validateExtensions_eq_ok_iff, hwalk]
  simp

/-- **Emitted frames at a receiver.**  A frame some sender emitted is complete for
the receiver exactly when the message fits the receiver's limits. -/
theorem complete_wireLayout_iff {L : Limits q} :
    Complete L (wireLayout m ++ rest) ↔ Fits L m := by
  rw [← headerOk_wireLayout_iff rest hm]
  refine ⟨fun h => h.header, fun h => ⟨?_, magic_wireLayout rest, h, ?_, ?_⟩⟩
  · rw [List.length_append, length_wireLayout]
    omega
  · exact validateExtensions_wireLayout rest hm
  · rw [frameSizeOf_wireLayout rest hm, List.length_append]
    omega

/-- The receiver reads the sender's message. -/
theorem messageAt_wireLayout : messageAt q (wireLayout m ++ rest) = m := by
  have hle := hm.extensions_le
  have hcopy : copyExtensions q (wireLayout m ++ rest) m.extensions.length wireHeaderSize
      = m.extensions := by
    have h := @copyExtensions_tlvBytes q m.extensions (fixedHeader m) (m.payload ++ rest)
      (by simp; omega)
    rw [length_fixedHeader] at h
    rwa [wireLayout, List.append_assoc, List.append_assoc]
  have hpayload : slice (wireLayout m ++ rest) (32 + extensionBytes m.extensions) m.payload.length
      = m.payload := by
    rw [wireLayout, ← List.append_assoc, List.append_assoc]
    exact slice_append (by simp) rfl
  rw [messageAt, headerSizeOf_wireLayout rest hm, payloadSizeOf_wireLayout rest hm,
    extensionCountOf_wireLayout rest hm, hcopy, hpayload, flags_wireLayout, major_wireLayout,
    minor_wireLayout, type_wireLayout, correlationId_wireLayout]

end Fields

/-! ## Peers with different limits -/

/-- Once a header is well formed, all that `probe` can hold against it is a limit. -/
theorem headerVerdict_code {L : Limits p} {input : List UInt8} {e : Error}
    (hreserved : readU16 input 30 = 0) (hge : 32 ≤ headerSizeOf input)
    (h : headerVerdict L input = some e) : e.code = .limitExceeded := by
  rw [headerVerdict, if_neg (by simp [hreserved, wireHeaderSize, hge])] at h
  split at h
  · cases h
    rfl
  split at h
  · cases h
    rfl
  split at h
  · cases h
    rfl
  · cases h

theorem decodePrefix_of_error {L : Limits p} {input : List UInt8} {e : Error}
    (h : probe L input = .error e) : decodePrefix L input = .error e := by
  rw [decodePrefix, h]

theorem decode_of_error {L : Limits p} {input : List UInt8} {e : Error}
    (h : decodePrefix L input = .error e) : decode L input = .error e := by
  rw [decode, h]

theorem decode_eq_ok_iff {L : Limits p} {input : List UInt8} {m : Message} :
    decode L input = .ok m ↔ decodePrefix L input = .ok ⟨m, input.length⟩ := by
  rw [decode]
  constructor
  · intro h
    split at h
    · cases h
    · rename_i d hdecode
      split at h
      · cases h
      · rename_i hconsumed
        cases h
        rw [hdecode, ← not_not.1 hconsumed]
  · intro h
    rw [h]
    simp

/-- A complete frame with something behind it. -/
theorem decode_of_trailing {L : Limits p} {input : List UInt8} {d : DecodedFrame}
    (h : decodePrefix L input = .ok d) (hd : d.consumed ≠ input.length) :
    decode L input = failure .trailingData "protocol frame has trailing bytes" := by
  rw [decode, h]
  exact if_pos hd

/-- A frame within the receiver's limits is decoded to the sender's message. -/
theorem decodePrefix_of_fits {L : Limits q} (hL : L.Valid) {m : Message} (h : Fits L m)
    (rest : List UInt8) :
    decodePrefix L (wireLayout m ++ rest) = .ok ⟨m, (wireLayout m).length⟩ := by
  have hm := h.representable hL
  rw [decodePrefix_of_complete hL ((complete_wireLayout_iff rest hm).2 h),
    messageAt_wireLayout rest hm, frameSizeOf_wireLayout rest hm]

/-- A frame beyond the receiver's limits is refused on its fixed header, and for
that reason only. -/
theorem decodePrefix_of_not_fits {L : Limits q} (hL : L.Valid) {m : Message}
    (hm : Representable m) (h : ¬ Fits L m) (rest : List UInt8) :
    ∃ e, decodePrefix L (wireLayout m ++ rest) = .error e ∧ e.code = .limitExceeded := by
  rw [← headerOk_wireLayout_iff rest hm, ← headerVerdict_eq_none_iff] at h
  obtain ⟨e, he⟩ := Option.ne_none_iff_exists'.1 h
  have hlen : 32 ≤ (wireLayout m ++ rest).length := by
    rw [List.length_append, length_wireLayout]
    omega
  have hge : 32 ≤ headerSizeOf (wireLayout m ++ rest) := by
    rw [headerSizeOf_wireLayout rest hm]
    omega
  have hprobe := (probe_eq_iff hL).2 (.badHeader hlen (magic_wireLayout rest) he)
  exact ⟨e, decodePrefix_of_error hprobe, headerVerdict_code (reserved_wireLayout rest) hge he⟩

/-- **Interoperability.**  What one peer encodes, another decodes exactly when it
could have encoded it itself, and then as the same bytes; a frame it could not
have encoded is a `limit_exceeded` for it and nothing else.  `rest` is whatever
follows the frame in the input. -/
theorem decodePrefix_encode (Ls : Limits p) (Lr : Limits q) (hr : Lr.valid = true) (m : Message)
    (f rest : List UInt8) (hf : encode Ls m = .ok f) :
    (decodePrefix Lr (f ++ rest) = .ok ⟨m, f.length⟩ ↔ ∃ f', encode Lr m = .ok f') ∧
    (∀ f', encode Lr m = .ok f' → f' = f ∧ decode Lr f = .ok m ∧
      (rest ≠ [] → ∃ e, decode Lr (f ++ rest) = .error e ∧ e.code = .trailingData)) ∧
    ((¬ ∃ f', encode Lr m = .ok f') →
      (∃ e, decodePrefix Lr (f ++ rest) = .error e ∧ e.code = .limitExceeded) ∧
      ∃ e, decode Lr f = .error e ∧ e.code = .limitExceeded) ∧
    decode Ls f = .ok m := by
  have hR : Lr.Valid := (Limits.valid_iff Lr).1 hr
  obtain ⟨hS, hfits, rfl⟩ := encode_eq_ok_iff.1 hf
  have hm := hfits.representable hS
  have haccept : (∃ f', encode Lr m = .ok f') ↔ Fits Lr m :=
    ⟨fun ⟨_, h⟩ => (fits_of_encode h).2, fun h => ⟨_, encode_of_fits hR h⟩⟩
  have halone : ∀ {s : Platform} (L : Limits s), L.Valid → Fits L m →
      decode L (wireLayout m) = .ok m := by
    intro s L hL h
    have hdecode := decodePrefix_of_fits hL h []
    rw [List.append_nil] at hdecode
    exact decode_eq_ok_iff.2 hdecode
  refine ⟨?_, ?_, ?_, halone Ls hS hfits⟩
  · rw [haccept]
    refine ⟨fun h => ?_, fun h => decodePrefix_of_fits hR h rest⟩
    exact (complete_wireLayout_iff rest hm).1 ((decodePrefix_eq_ok_iff hR).1 h).1
  · intro f' hf'
    obtain ⟨-, hfitsR, rfl⟩ := encode_eq_ok_iff.1 hf'
    refine ⟨rfl, halone Lr hR hfitsR, fun hrest => ?_⟩
    have hpos := List.length_pos_iff.2 hrest
    have htrailing := decode_of_trailing (decodePrefix_of_fits hR hfitsR rest)
      (by simp only [List.length_append]; omega)
    exact ⟨_, htrailing, rfl⟩
  · rw [haccept]
    intro hnot
    obtain ⟨e, he, hcode⟩ := decodePrefix_of_not_fits hR hm hnot []
    rw [List.append_nil] at he
    exact ⟨decodePrefix_of_not_fits hR hm hnot rest, e, decode_of_error he, hcode⟩

/-- A one-byte payload between a peer with the default limits and one with small
ones: the frame is recovered on both sides. -/
theorem decodePrefix_encode_one_byte :
    smallTestLimits.valid = true ∧
      decode smallTestLimits (wireLayout { type := 7, payload := [9] }) =
        .ok { type := 7, payload := [9] } :=
  ⟨by decide, ((decodePrefix_encode defaultLimits smallTestLimits (by decide)
    { type := 7, payload := [9] } (wireLayout { type := 7, payload := [9] }) [] (by decide)).2.1
    (wireLayout { type := 7, payload := [9] }) (by decide)).2.1⟩

/-! ## Every accepted frame is canonical -/

/-- The fixed header of a complete frame, field by field. -/
theorem slice_fixed_header (input : List UInt8) :
    slice input 0 32 = slice input 0 4 ++ (slice input 4 2 ++ (slice input 6 2 ++
      (slice input 8 2 ++ (slice input 10 2 ++ (slice input 12 4 ++ (slice input 16 8 ++
        (slice input 24 4 ++ (slice input 28 2 ++ slice input 30 2)))))))) := by
  rw [show (32 : Nat) = 4 + (2 + (2 + (2 + (2 + (4 + (8 + (4 + (2 + 2)))))))) from rfl, slice_add,
    slice_add, slice_add, slice_add, slice_add, slice_add, slice_add, slice_add, slice_add]

section Complete

variable {L : Limits p} {input : List UInt8} (h : Complete L input)

include h

/-- The extensions of a complete frame are those its TLV section encodes. -/
theorem Complete.extensions_spec :
    (messageAt p input).extensions.length = extensionCountOf input ∧
      headerSizeOf input = 32 + extensionBytes (messageAt p input).extensions ∧
      slice input 32 (extensionBytes (messageAt p input).extensions)
        = tlvBytes (messageAt p input).extensions := by
  have hlen : (input.take (headerSizeOf input)).length = headerSizeOf input := by
    rw [List.length_take, Nat.min_eq_left h.headerSize_le]
  have hge := h.header.header_ge
  obtain ⟨hcount, hsize, hle, htlv⟩ := tlvBytes_copyExtensions
    (by rw [hlen]; exact headerSizeOf_le input) (by omega) h.walk
  rw [← h.copyExtensions_eq] at hcount hsize htlv
  refine ⟨hcount, hsize, ?_⟩
  -- the section lies in the header, so cutting the header out first changes nothing
  have hcut : slice (input.take (headerSizeOf input) ++ input.drop (headerSizeOf input)) 32
      (extensionBytes (messageAt p input).extensions)
      = slice (input.take (headerSizeOf input)) 32 (extensionBytes (messageAt p input).extensions) :=
    slice_append_left _ (by rw [hlen, hsize]; rfl)
  rw [List.take_append_drop] at hcut
  exact hcut.trans htlv

theorem Complete.payload_length : (messageAt p input).payload.length = payloadSizeOf input :=
  length_slice h.frame_le

/-- A complete frame carries a message within the limits. -/
theorem Complete.fits : Fits L (messageAt p input) := by
  obtain ⟨hcount, hsize, -⟩ := h.extensions_spec
  have hpayload := h.payload_length
  have hheader := headerSizeOf_le input
  have hext := h.header.extensions_le
  have hframe := h.header.frame_le
  rw [frameSizeOf] at hframe
  refine ⟨?_, ?_, by omega, by omega, by omega⟩
  · rw [hpayload]
    exact h.header.payload_le
  · rw [hcount]
    exact h.header.count_le

/-- **A complete frame is the layout of its message.** -/
theorem Complete.wireLayout_messageAt :
    wireLayout (messageAt p input) = input.take (frameSizeOf input) := by
  have h32 := h.length_ge
  obtain ⟨hcount, hsize, htlv⟩ := h.extensions_spec
  have hreserved : slice input 30 2 = digits 2 0 := by
    rw [← digits_readU16 (by omega), h.header.reserved_eq]
    rfl
  have hfixed : fixedHeader (messageAt p input) = slice input 0 32 := by
    rw [fixedHeader, ← hsize, hcount, h.payload_length, slice_fixed_header, ← h.magic_eq,
      digits_readU32 (by omega)]
    simp only [messageAt, headerSizeOf, extensionCountOf, payloadSizeOf]
    rw [digits_readU16 (by omega), digits_readU16 (by omega), digits_readU16 (by omega),
      digits_readU16 (by omega), digits_readU32 (by omega), digits_readU64 (by omega),
      digits_readU32 (by omega), digits_readU16 (by omega), hreserved]
  have hpayload : (messageAt p input).payload
      = slice input (32 + extensionBytes (messageAt p input).extensions) (payloadSizeOf input) := by
    rw [← hsize]
    rfl
  rw [wireLayout, hfixed, ← htlv, hpayload, ← slice_zero, frameSizeOf, hsize, slice_add, slice_add,
    List.append_assoc, Nat.zero_add, Nat.zero_add]

end Complete

/-- Invalid limits decode nothing. -/
theorem valid_of_decodePrefix {L : Limits p} {input : List UInt8} {d : DecodedFrame}
    (h : decodePrefix L input = .ok d) : L.Valid := by
  rw [← Limits.valid_iff]
  by_contra hvalid
  rw [decodePrefix, probe, if_pos (by simpa using hvalid)] at h
  cases h

theorem encode_of_decodePrefix {L : Limits p} {input : List UInt8} {d : DecodedFrame}
    (h : decodePrefix L input = .ok d) :
    d.consumed ≤ input.length ∧ encode L d.message = .ok (input.take d.consumed) := by
  have hL := valid_of_decodePrefix h
  obtain ⟨hcomplete, rfl⟩ := (decodePrefix_eq_ok_iff hL).1 h
  refine ⟨hcomplete.frame_le, ?_⟩
  rw [encode_of_fits hL hcomplete.fits, hcomplete.wireLayout_messageAt]

theorem encode_of_decode {L : Limits p} {input : List UInt8} {m : Message}
    (h : decode L input = .ok m) : encode L m = .ok input := by
  have hencode := (encode_of_decodePrefix (decode_eq_ok_iff.1 h)).2
  rwa [List.take_length] at hencode

/-- **Canonicity.**  Re-encoding what was decoded gives back the bytes it was
decoded from.  So a message has one accepted encoding, at the front of a longer
input as well as alone, and a proxy that decodes and re-encodes forwards every
accepted frame byte for byte. -/
theorem encode_decodePrefix (L : Limits p) (input : List UInt8) (m : Message) (n : Nat)
    (h : decodePrefix L input = .ok ⟨m, n⟩) :
    n ≤ input.length ∧ encode L m = .ok (input.take n) ∧
      (∀ (input' : List UInt8) (n' : Nat), decodePrefix L input' = .ok ⟨m, n'⟩ →
        input'.take n' = input.take n) ∧
      (∀ a b m', decode L a = .ok m' → decode L b = .ok m' → a = b) ∧
      (∀ a m', decode L a = .ok m' → encode L m' = .ok a) := by
  obtain ⟨hle, hencode⟩ := encode_of_decodePrefix h
  refine ⟨hle, hencode, ?_, ?_, fun a m' ha => encode_of_decode ha⟩
  · intro input' n' h'
    obtain ⟨-, hencode'⟩ := encode_of_decodePrefix h'
    exact Except.ok.inj (hencode'.symm.trans hencode)
  · intro a b m' ha hb
    exact Except.ok.inj ((encode_of_decode ha).symm.trans (encode_of_decode hb))

/-- Flags and an extension id that no party knows are forwarded unchanged. -/
theorem encode_decodePrefix_unknown :
    encode defaultLimits ⟨{}, 7, 1, ⟨0xffff⟩, [⟨0xbeef, [1]⟩], [9]⟩ =
      .ok (List.take 38 [86, 83, 80, 49, 0, 37, 255, 255, 0, 1, 0, 0, 0, 0, 0, 7, 0, 0, 0, 0, 0, 0,
        0, 1, 0, 0, 0, 1, 0, 1, 0, 0, 190, 239, 0, 1, 1, 9, 86, 83]) :=
  (encode_decodePrefix defaultLimits _ _ 38 (by decide)).2.1

end FrameCodec
end Protocol
end Vosp
