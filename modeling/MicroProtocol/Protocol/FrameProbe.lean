import MicroProtocol.Lib.Framing
import MicroProtocol.Protocol.FrameExtensions

/-!
# What `FrameCodec::probe` says about a frame that may still be arriving

`probe` has ten exits, and they look at different amounts of input.  This file
says once what each exit means (`Probes`, with `probe_eq_iff` for the code), and
draws from that table what a receiver needs to know about verdicts on a buffer
that keeps growing.

* `probe_append_of_error` — an error is final.
* `probe_of_take_eq` and `decodePrefix_of_take_eq` — a complete frame depends on
  its own bytes only.
* `probe_incomplete` — an incomplete verdict asks for bytes that are really
  missing, never for more than a frame may have.
* `probe_stable_and_local` — all of it in one statement.
* `framer` — the three laws of `Framing.Framer`, so that everything proved there
  about fragmentation and cut streams holds for VSP1.
-/

namespace Vosp
namespace Protocol

/-- The verdict while the declared frame has not arrived in full. -/
def FrameProbe.awaiting (size : Nat) : FrameProbe :=
  { state := .incomplete, frameSize := size, requiredSize := size }

/-- The verdict once it has. -/
def FrameProbe.complete (size : Nat) : FrameProbe :=
  { state := .ready, frameSize := size, requiredSize := size }

namespace FrameCodec

open BigEndian

variable {p : Platform}

/-! ## The declared sizes -/

/-- The declared header size. -/
def headerSizeOf (input : List UInt8) : Nat := (readU16 input 4).toNat

/-- The declared payload size. -/
def payloadSizeOf (input : List UInt8) : Nat := (readU32 input 24).toNat

/-- The declared number of extensions. -/
def extensionCountOf (input : List UInt8) : Nat := (readU16 input 28).toNat

/-- The declared size of the whole frame. -/
def frameSizeOf (input : List UInt8) : Nat := headerSizeOf input + payloadSizeOf input

theorem headerSizeOf_le (input : List UInt8) : headerSizeOf input ≤ 65535 :=
  Nat.le_of_lt_succ (readU16 input 4).toNat_lt

/-- The checks `probe` makes on the fixed header, as the error they end in. -/
def headerVerdict (L : Limits p) (input : List UInt8) : Option Error :=
  if readU16 input 30 ≠ 0 ∨ headerSizeOf input < wireHeaderSize then
    some ⟨.malformedFrame, "protocol frame header is malformed"⟩
  else if extensionCountOf input > L.maxExtensionCount ∨
      p.sub (headerSizeOf input) wireHeaderSize > L.maxExtensionBytes ∨
      payloadSizeOf input > L.maxPayloadSize then
    some ⟨.limitExceeded, "protocol frame declares excessive sizes"⟩
  else if payloadSizeOf input > p.sub p.sizeMax (headerSizeOf input) then
    some ⟨.limitExceeded, "protocol frame size overflow"⟩
  else if p.add (headerSizeOf input) (payloadSizeOf input) > L.maxFrameSize then
    some ⟨.limitExceeded, "protocol frame limit exceeded"⟩
  else
    none

/-- A fixed header that passes all checks, in exact arithmetic. -/
structure HeaderOk (L : Limits p) (input : List UInt8) : Prop where
  reserved_eq : readU16 input 30 = 0
  header_ge : 32 ≤ headerSizeOf input
  count_le : extensionCountOf input ≤ L.maxExtensionCount
  extensions_le : headerSizeOf input ≤ 32 + L.maxExtensionBytes
  payload_le : payloadSizeOf input ≤ L.maxPayloadSize
  frame_le : frameSizeOf input ≤ L.maxFrameSize

theorem headerVerdict_eq_none_iff {L : Limits p} {input : List UInt8} :
    headerVerdict L input = none ↔ HeaderOk L input := by
  have hmax := p.uint32Max_le_sizeMax
  have hframe := L.maxFrameSize_le
  have hheader := headerSizeOf_le input
  have hsize : p.sub p.sizeMax (headerSizeOf input) = p.sizeMax - headerSizeOf input :=
    Platform.sub_eq le_rfl (by omega)
  rw [headerVerdict, wireHeaderSize, hsize]
  constructor
  · intro h
    split at h
    · cases h
    rename_i hfixed
    rw [Platform.sub_eq (by omega) (by omega)] at h
    split at h
    · cases h
    rename_i hlimits
    split at h
    · cases h
    rename_i hoverflow
    rw [Platform.add_eq (by omega)] at h
    split at h
    · cases h
    rename_i hfits
    refine ⟨?_, by omega, by omega, by omega, by omega, by rw [frameSizeOf]; omega⟩
    by_contra hreserved
    exact hfixed (Or.inl hreserved)
  · rintro ⟨hreserved, hge, hcount, hext, hpayload, hfits⟩
    rw [frameSizeOf] at hfits
    rw [if_neg (by simp [hreserved, hge]), Platform.sub_eq (by omega) hge, if_neg (by omega),
      if_neg (by omega), Platform.add_eq (by omega), if_neg (by omega)]

/-! ## The exits of `probe` -/

/-- **The exits of `probe`** under valid limits: what holds of the input at each,
and the result there. -/
inductive Probes (L : Limits p) (input : List UInt8) : Result FrameProbe → Prop
  /-- Not even the magic has arrived. -/
  | noMagic : input.length < 4 → Probes L input (.ok {})
  | badMagic : 4 ≤ input.length → readU32 input 0 ≠ wireMagic →
      Probes L input (.error ⟨.invalidMagic, "protocol frame magic mismatch"⟩)
  /-- The magic is right, the fixed header has not arrived. -/
  | noHeader : 4 ≤ input.length → readU32 input 0 = wireMagic → input.length < 32 →
      Probes L input (.ok {})
  | badHeader {e : Error} : 32 ≤ input.length → readU32 input 0 = wireMagic →
      headerVerdict L input = some e → Probes L input (.error e)
  /-- The fixed header is fine, the extensions have not arrived. -/
  | noExtensions : 32 ≤ input.length → readU32 input 0 = wireMagic → HeaderOk L input →
      input.length < headerSizeOf input →
      Probes L input (.ok (FrameProbe.awaiting (frameSizeOf input)))
  | badExtensions {e : Error} : 32 ≤ input.length → readU32 input 0 = wireMagic →
      HeaderOk L input → headerSizeOf input ≤ input.length →
      validateExtensions p (input.take (headerSizeOf input)) (extensionCountOf input) = .error e →
      Probes L input (.error e)
  /-- The whole header is fine, the payload has not arrived. -/
  | noPayload : 32 ≤ input.length → readU32 input 0 = wireMagic → HeaderOk L input →
      headerSizeOf input ≤ input.length →
      validateExtensions p (input.take (headerSizeOf input)) (extensionCountOf input) = .ok () →
      input.length < frameSizeOf input →
      Probes L input (.ok (FrameProbe.awaiting (frameSizeOf input)))
  | ready : 32 ≤ input.length → readU32 input 0 = wireMagic → HeaderOk L input →
      validateExtensions p (input.take (headerSizeOf input)) (extensionCountOf input) = .ok () →
      frameSizeOf input ≤ input.length →
      Probes L input (.ok (FrameProbe.complete (frameSizeOf input)))

/-- `probe` in terms of `headerVerdict`, in exact arithmetic. -/
theorem probe_eq {L : Limits p} (hL : L.Valid) (input : List UInt8) :
    probe L input =
      if input.length < 4 then .ok {}
      else if readU32 input 0 ≠ wireMagic then
        .error ⟨.invalidMagic, "protocol frame magic mismatch"⟩
      else if input.length < 32 then .ok {}
      else match headerVerdict L input with
        | some e => .error e
        | none =>
            if input.length < headerSizeOf input then .ok (FrameProbe.awaiting (frameSizeOf input))
            else match validateExtensions p (input.take (headerSizeOf input))
                (extensionCountOf input) with
              | .error e => .error e
              | .ok () =>
                  if input.length < frameSizeOf input then
                    .ok (FrameProbe.awaiting (frameSizeOf input))
                  else .ok (FrameProbe.complete (frameSizeOf input)) := by
  have hvalid : L.valid = true := (Limits.valid_iff L).2 hL
  have hframe := L.maxFrameSize_le
  rw [probe, if_neg (by simp [hvalid])]
  by_cases h4 : input.length < 4
  · rw [if_pos h4, if_pos h4]
  rw [if_neg h4, if_neg h4]
  by_cases hmagic : readU32 input 0 ≠ wireMagic
  · rw [if_pos hmagic, if_pos hmagic]
    rfl
  rw [if_neg hmagic, if_neg hmagic]
  by_cases h32 : input.length < 32
  · rw [if_pos h32]
    exact if_pos h32
  rw [if_neg h32]
  refine (if_neg h32).trans ?_
  -- the header checks, in the order in which both sides make them
  by_cases hfixed : readU16 input 30 ≠ 0 ∨ headerSizeOf input < wireHeaderSize
  · rw [headerVerdict, if_pos hfixed]
    exact if_pos hfixed
  refine (if_neg hfixed).trans ?_
  by_cases hlimits : extensionCountOf input > L.maxExtensionCount ∨
      p.sub (headerSizeOf input) wireHeaderSize > L.maxExtensionBytes ∨
      payloadSizeOf input > L.maxPayloadSize
  · rw [headerVerdict, if_neg hfixed, if_pos hlimits]
    exact if_pos hlimits
  refine (if_neg hlimits).trans ?_
  by_cases hoverflow : payloadSizeOf input > p.sub p.sizeMax (headerSizeOf input)
  · rw [headerVerdict, if_neg hfixed, if_neg hlimits, if_pos hoverflow]
    exact if_pos hoverflow
  refine (if_neg hoverflow).trans ?_
  by_cases hfits : p.add (headerSizeOf input) (payloadSizeOf input) > L.maxFrameSize
  · rw [headerVerdict, if_neg hfixed, if_neg hlimits, if_neg hoverflow, if_pos hfits]
    exact if_pos hfits
  refine (if_neg hfits).trans ?_
  have hnone : headerVerdict L input = none := by
    rw [headerVerdict, if_neg hfixed, if_neg hlimits, if_neg hoverflow, if_neg hfits]
  have hadd : p.add (headerSizeOf input) (payloadSizeOf input) = frameSizeOf input :=
    Platform.add_eq ((headerVerdict_eq_none_iff.1 hnone).frame_le.trans hframe)
  rw [hnone, ← hadd]
  rfl

/-- `Probes` is the graph of `probe`. -/
theorem probe_eq_iff {L : Limits p} (hL : L.Valid) {input : List UInt8} {r : Result FrameProbe} :
    probe L input = r ↔ Probes L input r := by
  rw [probe_eq hL]
  constructor
  · rintro rfl
    by_cases h4 : input.length < 4
    · rw [if_pos h4]
      exact .noMagic h4
    rw [if_neg h4]
    by_cases hmagic : readU32 input 0 = wireMagic
    swap
    · rw [if_pos hmagic]
      exact .badMagic (not_lt.1 h4) hmagic
    rw [if_neg (not_not.2 hmagic)]
    by_cases h32 : input.length < 32
    · rw [if_pos h32]
      exact .noHeader (not_lt.1 h4) hmagic h32
    rw [if_neg h32]
    cases hverdict : headerVerdict L input with
    | some e => exact .badHeader (not_lt.1 h32) hmagic hverdict
    | none =>
        have hok := headerVerdict_eq_none_iff.1 hverdict
        by_cases hheader : input.length < headerSizeOf input
        · simp only [if_pos hheader]
          exact .noExtensions (not_lt.1 h32) hmagic hok hheader
        simp only [if_neg hheader]
        cases hext : validateExtensions p (input.take (headerSizeOf input))
            (extensionCountOf input) with
        | error e => exact .badExtensions (not_lt.1 h32) hmagic hok (not_lt.1 hheader) hext
        | ok u =>
            by_cases hframe : input.length < frameSizeOf input
            · simp only [if_pos hframe]
              exact .noPayload (not_lt.1 h32) hmagic hok (not_lt.1 hheader) hext hframe
            · simp only [if_neg hframe]
              exact .ready (not_lt.1 h32) hmagic hok hext (not_lt.1 hframe)
  · intro h
    cases h with
    | noMagic h4 => rw [if_pos h4]
    | badMagic h4 hmagic => rw [if_neg (by omega), if_pos hmagic]
    | noHeader h4 hmagic h32 => rw [if_neg (by omega), if_neg (by simpa using hmagic), if_pos h32]
    | badHeader h32 hmagic hverdict =>
        rw [if_neg (by omega), if_neg (by simpa using hmagic), if_neg (by omega), hverdict]
    | noExtensions h32 hmagic hok hheader =>
        rw [if_neg (by omega), if_neg (by simpa using hmagic), if_neg (by omega),
          headerVerdict_eq_none_iff.2 hok]
        simp only [if_pos hheader]
    | badExtensions h32 hmagic hok hheader hext =>
        rw [if_neg (by omega), if_neg (by simpa using hmagic), if_neg (by omega),
          headerVerdict_eq_none_iff.2 hok]
        simp only [if_neg (not_lt.2 hheader), hext]
    | noPayload h32 hmagic hok hheader hext hframe =>
        rw [if_neg (by omega), if_neg (by simpa using hmagic), if_neg (by omega),
          headerVerdict_eq_none_iff.2 hok]
        simp only [if_neg (not_lt.2 hheader), hext, if_pos hframe]
    | ready h32 hmagic hok hext hframe =>
        have hheader : ¬ input.length < headerSizeOf input := by
          rw [frameSizeOf] at hframe
          omega
        rw [if_neg (by omega), if_neg (by simpa using hmagic), if_neg (by omega),
          headerVerdict_eq_none_iff.2 hok]
        simp only [if_neg hheader, hext, if_neg (not_lt.2 hframe)]

/-! ## Bytes that arrive later -/

section Append

variable {input : List UInt8} (h32 : 32 ≤ input.length) (rest : List UInt8)

include h32

theorem headerSizeOf_append : headerSizeOf (input ++ rest) = headerSizeOf input := by
  rw [headerSizeOf, headerSizeOf, readU16_append (by omega)]

theorem payloadSizeOf_append : payloadSizeOf (input ++ rest) = payloadSizeOf input := by
  rw [payloadSizeOf, payloadSizeOf, readU32_append (by omega)]

theorem extensionCountOf_append : extensionCountOf (input ++ rest) = extensionCountOf input := by
  rw [extensionCountOf, extensionCountOf, readU16_append (by omega)]

theorem frameSizeOf_append : frameSizeOf (input ++ rest) = frameSizeOf input := by
  rw [frameSizeOf, frameSizeOf, headerSizeOf_append h32, payloadSizeOf_append h32]

theorem headerVerdict_append (L : Limits p) :
    headerVerdict L (input ++ rest) = headerVerdict L input := by
  rw [headerVerdict, headerVerdict, headerSizeOf_append h32, payloadSizeOf_append h32,
    extensionCountOf_append h32, readU16_append (by omega)]

theorem headerOk_append {L : Limits p} :
    HeaderOk L (input ++ rest) ↔ HeaderOk L input := by
  rw [← headerVerdict_eq_none_iff, headerVerdict_append h32, headerVerdict_eq_none_iff]

/-- The extensions of a header that has arrived are validated the same way
whatever follows it. -/
theorem validateExtensions_append (hheader : headerSizeOf input ≤ input.length) :
    validateExtensions p ((input ++ rest).take (headerSizeOf (input ++ rest)))
      (extensionCountOf (input ++ rest))
      = validateExtensions p (input.take (headerSizeOf input)) (extensionCountOf input) := by
  rw [headerSizeOf_append h32, extensionCountOf_append h32,
    List.take_append_of_le_length hheader]

end Append

/-- **A refusal is final**: no later byte changes an error. -/
theorem probe_append_of_error {L : Limits p} (hL : L.Valid) {input : List UInt8} {e : Error}
    (h : probe L input = .error e) (rest : List UInt8) : probe L (input ++ rest) = .error e := by
  rw [probe_eq_iff hL] at h ⊢
  have hlen : (input ++ rest).length = input.length + rest.length := List.length_append
  cases h with
  | badMagic h4 hmagic => exact .badMagic (by omega) (by rwa [readU32_append (by omega)])
  | badHeader h32 hmagic hverdict =>
      exact .badHeader (by omega) (by rwa [readU32_append (by omega)])
        (by rwa [headerVerdict_append h32])
  | badExtensions h32 hmagic hok hheader hext =>
      exact .badExtensions (by omega) (by rwa [readU32_append (by omega)])
        ((headerOk_append h32 rest).2 hok) (by rw [headerSizeOf_append h32]; omega)
        (by rwa [validateExtensions_append h32 rest hheader])

/-! ## Complete frames -/

/-- What a complete frame looks like at the front of the input. -/
structure Complete (L : Limits p) (input : List UInt8) : Prop where
  length_ge : 32 ≤ input.length
  magic_eq : readU32 input 0 = wireMagic
  header : HeaderOk L input
  extensions : validateExtensions p (input.take (headerSizeOf input)) (extensionCountOf input)
    = .ok ()
  frame_le : frameSizeOf input ≤ input.length

/-- `probe` answers `ready` exactly on complete frames. -/
theorem probe_ready_iff {L : Limits p} (hL : L.Valid) {input : List UInt8} {r : FrameProbe} :
    probe L input = .ok r ∧ r.state = .ready ↔
      Complete L input ∧ r = FrameProbe.complete (frameSizeOf input) := by
  rw [probe_eq_iff hL]
  constructor
  · rintro ⟨h, hstate⟩
    cases h with
    | noMagic _ => cases hstate
    | noHeader _ _ _ => cases hstate
    | noExtensions _ _ _ _ => cases hstate
    | noPayload _ _ _ _ _ _ => cases hstate
    | ready h32 hmagic hok hext hframe => exact ⟨⟨h32, hmagic, hok, hext, hframe⟩, rfl⟩
  · rintro ⟨⟨h32, hmagic, hok, hext, hframe⟩, rfl⟩
    exact ⟨.ready h32 hmagic hok hext hframe, rfl⟩

theorem probe_of_complete {L : Limits p} (hL : L.Valid) {input : List UInt8}
    (h : Complete L input) : probe L input = .ok (FrameProbe.complete (frameSizeOf input)) :=
  ((probe_ready_iff hL).2 ⟨h, rfl⟩).1

theorem Complete.headerSize_le {L : Limits p} {input : List UInt8} (h : Complete L input) :
    headerSizeOf input ≤ input.length := by
  have := h.frame_le
  rw [frameSizeOf] at this
  omega

theorem Complete.frameSize_ge {L : Limits p} {input : List UInt8} (h : Complete L input) :
    32 ≤ frameSizeOf input := by
  have := h.header.header_ge
  rw [frameSizeOf]
  omega

/-- A complete frame stays one when more bytes arrive, and is one without the
bytes that follow it. -/
theorem complete_append_iff {L : Limits p} {input : List UInt8} (h32 : 32 ≤ input.length)
    (hframe : frameSizeOf input ≤ input.length) (rest : List UInt8) :
    Complete L (input ++ rest) ↔ Complete L input := by
  have hlen : (input ++ rest).length = input.length + rest.length := List.length_append
  have hheader : headerSizeOf input ≤ input.length := by
    rw [frameSizeOf] at hframe
    omega
  constructor
  · rintro ⟨-, hmagic, hok, hext, -⟩
    rw [readU32_append (by omega)] at hmagic
    rw [validateExtensions_append h32 rest hheader] at hext
    exact ⟨h32, hmagic, (headerOk_append h32 rest).1 hok, hext, hframe⟩
  · rintro ⟨-, hmagic, hok, hext, -⟩
    exact ⟨by omega, by rwa [readU32_append (by omega)], (headerOk_append h32 rest).2 hok,
      by rwa [validateExtensions_append h32 rest hheader], by rw [frameSizeOf_append h32]; omega⟩

/-- Two inputs that agree on the bytes of a complete frame both start with it. -/
theorem Complete.of_take_eq {L : Limits p} {input t : List UInt8} (h : Complete L input)
    (ht : t.take (frameSizeOf input) = input.take (frameSizeOf input)) :
    Complete L t ∧ frameSizeOf t = frameSizeOf input := by
  have hge := h.frameSize_ge
  -- both are the frame itself, followed by something
  set frame := input.take (frameSizeOf input) with hdef
  have hlen : frame.length = frameSizeOf input := by
    rw [hdef, List.length_take, Nat.min_eq_left h.frame_le]
  have hinput : frame ++ input.drop (frameSizeOf input) = input := List.take_append_drop _ _
  have htail : frame ++ t.drop (frameSizeOf input) = t := by rw [← ht, List.take_append_drop]
  have hsize : frameSizeOf input = frameSizeOf frame := by
    conv_lhs => rw [← hinput]
    exact frameSizeOf_append (by omega) _
  have hsize' : frameSizeOf t = frameSizeOf frame := by
    rw [← htail]
    exact frameSizeOf_append (by omega) _
  have hframe : Complete L frame := by
    rw [← complete_append_iff (by omega) (by omega) (input.drop (frameSizeOf input)), hinput]
    exact h
  refine ⟨?_, by omega⟩
  rw [← htail, complete_append_iff (by omega) (by omega)]
  exact hframe

/-- **A complete frame depends on its own bytes only.** -/
theorem probe_of_take_eq {L : Limits p} (hL : L.Valid) {input t : List UInt8} {r : FrameProbe}
    (h : probe L input = .ok r) (hr : r.state = .ready)
    (ht : t.take r.frameSize = input.take r.frameSize) : probe L t = .ok r := by
  obtain ⟨hcomplete, rfl⟩ := (probe_ready_iff hL).1 ⟨h, hr⟩
  obtain ⟨hcomplete', hsize⟩ := hcomplete.of_take_eq ht
  rw [probe_of_complete hL hcomplete', hsize]

/-- The message of a complete frame. -/
def messageAt (p : Platform) (input : List UInt8) : Message where
  version := ⟨readU16 input 8, readU16 input 10⟩
  type := readU32 input 12
  correlationId := readU64 input 16
  payload := slice input (headerSizeOf input) (payloadSizeOf input)
  flags := ⟨readU16 input 6⟩
  extensions := copyExtensions p input (extensionCountOf input) wireHeaderSize

/-- On a complete frame `decode_prefix` succeeds: its failing branch after a
`ready` probe does not exist. -/
theorem decodePrefix_of_complete {L : Limits p} (hL : L.Valid) {input : List UInt8}
    (h : Complete L input) :
    decodePrefix L input = .ok ⟨messageAt p input, frameSizeOf input⟩ := by
  have hmax := L.maxFrameSize_le
  have hframe := h.header.frame_le
  have hsub : p.sub (frameSizeOf input) (headerSizeOf input) = payloadSizeOf input := by
    rw [Platform.sub_eq (by omega) (by rw [frameSizeOf]; omega), frameSizeOf,
      Nat.add_sub_cancel_left]
  rw [decodePrefix, probe_of_complete hL h]
  simp only [FrameProbe.complete, ne_eq, not_true_eq_false, if_false]
  change Except.ok (DecodedFrame.mk _ (frameSizeOf input)) = _
  rw [messageAt, ← hsub]
  rfl

/-- `decode_prefix` succeeds on complete frames and nothing else. -/
theorem decodePrefix_eq_ok_iff {L : Limits p} (hL : L.Valid) {input : List UInt8}
    {d : DecodedFrame} :
    decodePrefix L input = .ok d ↔
      Complete L input ∧ d = ⟨messageAt p input, frameSizeOf input⟩ := by
  constructor
  · intro h
    have hcomplete : Complete L input := by
      rw [decodePrefix] at h
      split at h
      · cases h
      · rename_i r hprobe
        split at h
        · cases h
        · rename_i hstate
          exact ((probe_ready_iff hL).1 ⟨hprobe, not_not.1 hstate⟩).1
    rw [decodePrefix_of_complete hL hcomplete] at h
    cases h
    exact ⟨hcomplete, rfl⟩
  · rintro ⟨hcomplete, rfl⟩
    exact decodePrefix_of_complete hL hcomplete

/-- Validation succeeds exactly when the walk ends at the end of the header. -/
theorem validateExtensions_eq_ok_iff {header : List UInt8} {count : Nat} :
    validateExtensions p header count = .ok () ↔
      walkExtensions p header count 32 = .ok header.length := by
  rw [validateExtensions, wireHeaderSize]
  cases hwalk : walkExtensions p header count 32 with
  | error e => simp
  | ok cursor =>
      by_cases hcursor : cursor = header.length
      · simp [hcursor]
      · simp only [ne_eq, hcursor, not_false_eq_true, if_true]
        constructor
        · intro h
          cases h
        · intro h
          cases h
          exact absurd rfl hcursor

/-- The walk over the header of a complete frame. -/
theorem Complete.walk {L : Limits p} {input : List UInt8} (h : Complete L input) :
    walkExtensions p (input.take (headerSizeOf input)) (extensionCountOf input) 32
      = .ok (headerSizeOf input) := by
  rw [validateExtensions_eq_ok_iff.1 h.extensions, List.length_take,
    Nat.min_eq_left h.headerSize_le]

/-- The extensions of a complete frame are copied from its header. -/
theorem Complete.copyExtensions_eq {L : Limits p} {input : List UInt8} (h : Complete L input) :
    copyExtensions p input (extensionCountOf input) wireHeaderSize
      = copyExtensions p (input.take (headerSizeOf input)) (extensionCountOf input) 32 := by
  have hlen : (input.take (headerSizeOf input)).length = headerSizeOf input := by
    rw [List.length_take, Nat.min_eq_left h.headerSize_le]
  have hcopy := copyExtensions_append (by rw [hlen]; exact headerSizeOf_le input)
    (by rw [hlen]; exact h.header.header_ge) h.walk (input.drop (headerSizeOf input))
  rwa [List.take_append_drop] at hcopy

/-- The message of a complete frame does not depend on later bytes. -/
theorem messageAt_append {L : Limits p} {input : List UInt8} (h : Complete L input)
    (rest : List UInt8) : messageAt p (input ++ rest) = messageAt p input := by
  have h32 := h.length_ge
  have hle := h.headerSize_le
  have hframe := h.frame_le
  have happend : Complete L (input ++ rest) := (complete_append_iff h32 hframe rest).2 h
  rw [messageAt, messageAt, happend.copyExtensions_eq, h.copyExtensions_eq, headerSizeOf_append h32,
    payloadSizeOf_append h32, extensionCountOf_append h32, List.take_append_of_le_length hle,
    readU16_append (by omega), readU16_append (by omega), readU16_append (by omega),
    readU32_append (by omega), readU64_append (by omega), slice_append_left rest hframe]

theorem messageAt_of_take_eq {L : Limits p} {input t : List UInt8} (h : Complete L input)
    (ht : t.take (frameSizeOf input) = input.take (frameSizeOf input)) :
    messageAt p t = messageAt p input := by
  have hge := h.frameSize_ge
  have hlen : (input.take (frameSizeOf input)).length = frameSizeOf input := by
    rw [List.length_take, Nat.min_eq_left h.frame_le]
  obtain ⟨hframe, -⟩ := h.of_take_eq (t := input.take (frameSizeOf input)) (by simp)
  have htail : input.take (frameSizeOf input) ++ t.drop (frameSizeOf input) = t := by
    rw [← ht, List.take_append_drop]
  have hinput : input.take (frameSizeOf input) ++ input.drop (frameSizeOf input) = input :=
    List.take_append_drop _ _
  calc messageAt p t = messageAt p (input.take (frameSizeOf input)) := by
        conv_lhs => rw [← htail]
        exact messageAt_append hframe _
    _ = messageAt p input := by
        conv_rhs => rw [← hinput]
        exact (messageAt_append hframe _).symm

/-- Decoding a complete frame looks at its own bytes only. -/
theorem decodePrefix_of_take_eq {L : Limits p} (hL : L.Valid) {input t : List UInt8}
    {d : DecodedFrame} (h : decodePrefix L input = .ok d)
    (ht : t.take d.consumed = input.take d.consumed) : decodePrefix L t = .ok d := by
  obtain ⟨hcomplete, rfl⟩ := (decodePrefix_eq_ok_iff hL).1 h
  obtain ⟨hcomplete', hsize⟩ := hcomplete.of_take_eq ht
  rw [decodePrefix_of_complete hL hcomplete', messageAt_of_take_eq hcomplete ht, hsize]

/-! ## Incomplete frames -/

/-- `decode_prefix` has an error of its own for a frame that is merely incomplete. -/
theorem decodePrefix_of_incomplete {L : Limits p} {input : List UInt8} {r : FrameProbe}
    (h : probe L input = .ok r) (hr : r.state = .incomplete) :
    decodePrefix L input = failure .insufficientData "protocol frame is incomplete" := by
  rw [decodePrefix, h]
  simp [hr]

/-- Both ways of being incomplete: the fixed header has not arrived, or it
declares a frame that has not. -/
theorem probe_incomplete_cases {L : Limits p} (hL : L.Valid) {input : List UInt8} {r : FrameProbe}
    (h : probe L input = .ok r) (hr : r.state = .incomplete) :
    (input.length < 32 ∧ r.requiredSize = 32) ∨
      (32 ≤ input.length ∧ HeaderOk L input ∧ input.length < frameSizeOf input ∧
        r.requiredSize = frameSizeOf input) := by
  rw [probe_eq_iff hL] at h
  cases h with
  | noMagic h4 => exact Or.inl ⟨by omega, rfl⟩
  | noHeader _ _ h32 => exact Or.inl ⟨h32, rfl⟩
  | noExtensions h32 _ hok hheader =>
      exact Or.inr ⟨h32, hok, by rw [frameSizeOf]; omega, rfl⟩
  | noPayload h32 _ hok _ _ hframe => exact Or.inr ⟨h32, hok, hframe, rfl⟩
  | ready _ _ _ _ _ => cases hr

/-- **An incomplete verdict asks for missing bytes**, and never for more than a
frame may have. -/
theorem probe_incomplete {L : Limits p} (hL : L.Valid) {input : List UInt8} {r : FrameProbe}
    (h : probe L input = .ok r) (hr : r.state = .incomplete) :
    input.length < r.requiredSize ∧ r.requiredSize ≤ L.maxFrameSize := by
  rcases probe_incomplete_cases hL h hr with ⟨hlen, hreq⟩ | ⟨-, hok, hlen, hreq⟩
  · exact ⟨by omega, by rw [hreq]; exact hL.header_le⟩
  · exact ⟨by omega, by rw [hreq]; exact hok.frame_le⟩

/-- What an incomplete verdict says about the bytes that follow: no frame ends
before the required size, later requirements are not smaller, and once the fixed
header is there the requirement is the size of the frame. -/
theorem probe_append_of_incomplete {L : Limits p} (hL : L.Valid) {input rest : List UInt8}
    {r r' : FrameProbe} (h : probe L input = .ok r) (hr : r.state = .incomplete)
    (h' : probe L (input ++ rest) = .ok r') :
    (r'.state = .ready → r.requiredSize ≤ (input ++ rest).length) ∧
      (r'.state = .incomplete → r.requiredSize ≤ r'.requiredSize) ∧
      (32 ≤ input.length → r'.state = .ready → r'.frameSize = r.requiredSize) := by
  rcases probe_incomplete_cases hL h hr with ⟨hlen, hreq⟩ | ⟨h32, -, -, hreq⟩
  · refine ⟨fun hr' => ?_, fun hr' => ?_, fun h32 => absurd hlen (not_lt.2 h32)⟩
    · obtain ⟨hcomplete, -⟩ := (probe_ready_iff hL).1 ⟨h', hr'⟩
      rw [hreq]
      exact hcomplete.length_ge
    · rcases probe_incomplete_cases hL h' hr' with ⟨-, hreq'⟩ | ⟨-, hok', -, hreq'⟩
      · rw [hreq, hreq']
      · have hge := hok'.header_ge
        rw [hreq, hreq', frameSizeOf]
        omega
  -- from here on the continuation declares the same frame
  have hframe := frameSizeOf_append h32 rest
  rw [hreq, ← hframe]
  refine ⟨fun hr' => ?_, fun hr' => ?_, fun _ hr' => ?_⟩
  · exact ((probe_ready_iff hL).1 ⟨h', hr'⟩).1.frame_le
  · rcases probe_incomplete_cases hL h' hr' with ⟨hlen', -⟩ | ⟨-, -, -, hreq'⟩
    · rw [List.length_append] at hlen'
      omega
    · rw [hreq']
  · rw [((probe_ready_iff hL).1 ⟨h', hr'⟩).2]
    rfl

/-- **Probe verdicts are stable and local.**  Errors survive any continuation; a
`ready` verdict is about the declared bytes and nothing else, and so is the
message; an `incomplete` verdict gives a lower bound on the bytes that are
needed, exact once the fixed header is there. -/
theorem probe_stable_and_local (L : Limits p) (hL : L.valid = true) (q s : List UInt8) :
    (∀ e, probe L q = .error e → probe L (q ++ s) = .error e) ∧
    (∀ r, probe L q = .ok r → r.state = .ready →
      32 ≤ r.frameSize ∧ r.frameSize ≤ q.length ∧ r.frameSize ≤ L.maxFrameSize ∧
      ∃ m, decodePrefix L q = .ok ⟨m, r.frameSize⟩ ∧
        ∀ t : List UInt8, t.take r.frameSize = q.take r.frameSize →
          probe L t = .ok r ∧ decodePrefix L t = .ok ⟨m, r.frameSize⟩) ∧
    (∀ r, probe L q = .ok r → r.state = .incomplete →
      q.length < r.requiredSize ∧ r.requiredSize ≤ L.maxFrameSize ∧
      ((q ++ s).length < r.requiredSize → ∀ r', probe L (q ++ s) = .ok r' → r'.state ≠ .ready) ∧
      (∀ r', probe L (q ++ s) = .ok r' → r'.state = .incomplete →
        r.requiredSize ≤ r'.requiredSize) ∧
      (32 ≤ q.length → ∀ r', probe L (q ++ s) = .ok r' → r'.state = .ready →
        r'.frameSize = r.requiredSize)) := by
  have hV : L.Valid := (Limits.valid_iff L).1 hL
  refine ⟨fun e h => probe_append_of_error hV h s, ?_, ?_⟩
  · intro r h hr
    obtain ⟨hcomplete, rfl⟩ := (probe_ready_iff hV).1 ⟨h, hr⟩
    refine ⟨hcomplete.frameSize_ge, hcomplete.frame_le, hcomplete.header.frame_le, messageAt p q,
      decodePrefix_of_complete hV hcomplete, ?_⟩
    intro t ht
    exact ⟨probe_of_take_eq hV h hr ht,
      decodePrefix_of_take_eq hV (decodePrefix_of_complete hV hcomplete) ht⟩
  · intro r h hr
    obtain ⟨hlt, hle⟩ := probe_incomplete hV h hr
    refine ⟨hlt, hle, ?_, ?_, ?_⟩
    · intro hshort r' h' hr'
      exact absurd ((probe_append_of_incomplete hV h hr h').1 hr') (not_le.2 hshort)
    · intro r' h'
      exact (probe_append_of_incomplete hV h hr h').2.1
    · intro h32 r' h'
      exact (probe_append_of_incomplete hV h hr h').2.2 h32

/-- A header without extensions that announces eight payload bytes, none of which
has arrived: the frame will have 40 bytes, whatever follows. -/
theorem probe_stable_and_local_header :
    smallTestLimits.valid = true ∧
      ∀ s r, probe smallTestLimits ([86, 83, 80, 49, 0, 32, 0, 0, 0, 1, 0, 0, 0, 0, 0, 7, 0, 0, 0, 0,
          0, 0, 0, 1, 0, 0, 0, 8, 0, 0, 0, 0] ++ s) = .ok r → r.state = .ready →
        r.frameSize = 40 := by
  refine ⟨by decide, fun s r h hr => ?_⟩
  exact ((probe_stable_and_local smallTestLimits (by decide) [86, 83, 80, 49, 0, 32, 0, 0, 0, 1, 0, 0,
    0, 0, 0, 7, 0, 0, 0, 0, 0, 0, 0, 1, 0, 0, 0, 8, 0, 0, 0, 0] s).2.2 (FrameProbe.awaiting 40)
    (by decide) rfl).2.2.2.2 (by decide) r h hr

/-! ## VSP1 as a framer -/

/-- The verdict of the codec on the bytes received so far. -/
def verdict (L : Limits p) (q : List UInt8) : Framing.Verdict Message Error :=
  match probe L q with
  | .error e => .refused e
  | .ok r =>
      match decodePrefix L q with
      | .ok d => .ready d.consumed d.message
      | .error _ => .needs r.requiredSize

theorem verdict_of_error {L : Limits p} {q : List UInt8} {e : Error} (h : probe L q = .error e) :
    verdict L q = .refused e := by
  rw [verdict, h]

theorem verdict_of_decoded {L : Limits p} (hL : L.Valid) {q : List UInt8} {d : DecodedFrame}
    (h : decodePrefix L q = .ok d) : verdict L q = .ready d.consumed d.message := by
  obtain ⟨hcomplete, -⟩ := (decodePrefix_eq_ok_iff hL).1 h
  rw [verdict, probe_of_complete hL hcomplete, h]

theorem verdict_of_incomplete {L : Limits p} {q : List UInt8} {r : FrameProbe}
    (h : probe L q = .ok r) (hr : r.state = .incomplete) :
    verdict L q = .needs r.requiredSize := by
  rw [verdict, h, decodePrefix_of_incomplete h hr]
  rfl

theorem verdict_needs_iff {L : Limits p} (hL : L.Valid) {q : List UInt8} {n : Nat} :
    verdict L q = .needs n ↔
      ∃ r, probe L q = .ok r ∧ r.state = .incomplete ∧ r.requiredSize = n := by
  constructor
  · intro h
    cases hprobe : probe L q with
    | error e =>
        rw [verdict_of_error hprobe] at h
        cases h
    | ok r =>
        cases hstate : r.state with
        | incomplete =>
            rw [verdict_of_incomplete hprobe hstate] at h
            cases h
            exact ⟨r, rfl, hstate, rfl⟩
        | ready =>
            obtain ⟨hcomplete, -⟩ := (probe_ready_iff hL).1 ⟨hprobe, hstate⟩
            rw [verdict_of_decoded hL (decodePrefix_of_complete hL hcomplete)] at h
            cases h
  · rintro ⟨r, hprobe, hstate, rfl⟩
    exact verdict_of_incomplete hprobe hstate

theorem verdict_refused_iff {L : Limits p} {q : List UInt8} {e : Error} :
    verdict L q = .refused e ↔ probe L q = .error e := by
  refine ⟨fun h => ?_, verdict_of_error⟩
  rw [verdict] at h
  split at h
  · rename_i e' hprobe
    cases h
    exact hprobe
  · split at h <;> cases h

theorem verdict_ready_iff {L : Limits p} (hL : L.Valid) {q : List UInt8} {n : Nat} {m : Message} :
    verdict L q = .ready n m ↔ decodePrefix L q = .ok ⟨m, n⟩ := by
  refine ⟨fun h => ?_, fun h => verdict_of_decoded hL h⟩
  rw [verdict] at h
  split at h
  · cases h
  · split at h
    · rename_i d hdecode
      cases h
      exact hdecode
    · cases h

/-- A message is at least a header long, and lies in the input. -/
theorem ready_bounds {L : Limits p} (hL : L.Valid) {q : List UInt8} {n : Nat} {m : Message}
    (h : verdict L q = .ready n m) : 32 ≤ n ∧ n ≤ q.length := by
  obtain ⟨hcomplete, hd⟩ := (decodePrefix_eq_ok_iff hL).1 ((verdict_ready_iff hL).1 h)
  cases hd
  exact ⟨hcomplete.frameSize_ge, hcomplete.frame_le⟩

/-- Under valid limits the codec is a framer: its verdicts obey the laws that
make a stream of frames independent of how it is cut into pieces. -/
def framer (L : Limits p) (hL : L.Valid) : Framing.Framer UInt8 Message Error where
  inspect := verdict L
  nil_needs := ⟨32, verdict_of_incomplete ((probe_eq_iff hL).2 (.noMagic (by simp))) rfl⟩
  refused_append h s := verdict_refused_iff.2
    (probe_append_of_error hL (verdict_refused_iff.1 h) s)
  ready_pos h := by
    have hge := (ready_bounds hL h).1
    omega
  ready_le h := (ready_bounds hL h).2
  ready_local h t ht := (verdict_ready_iff hL).2
    (decodePrefix_of_take_eq hL ((verdict_ready_iff hL).1 h) ht)

@[simp] theorem framer_inspect (L : Limits p) (hL : L.Valid) (q : List UInt8) :
    (framer L hL).inspect q = verdict L q := rfl

end FrameCodec
end Protocol
end Vosp
