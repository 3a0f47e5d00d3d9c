import MicroProtocol.Lib.Checked
import MicroProtocol.Protocol.FrameRoundTrip

/-!
# `encode` under checked execution

`FrameCodec::encode` once more, with every subtraction, sum and narrowing cast
replaced by its checked counterpart: a run that wraps or drops bits is `none`.
The operators `||` and `&&` keep their order of evaluation, since the guards rely
on it.

* `Sanitized.encode_eq` — the checked function agrees with the wrapping one of
  `Frame`, so nothing of the kind ever happens, for any limits and any message.
* `WireTable` — the table of `WIRE_FORMAT.md`, as a property of a byte string.
* `encode_exact` — what `encode` accepts, refuses and emits, in exact arithmetic.
-/

namespace Vosp
namespace Protocol

open BigEndian

namespace Sanitized

variable {p : Platform}

/-- `Limits::valid`. -/
def valid (L : Limits p) : Option Bool :=
  Checked.both (L.maxExtensionCount ≤ uint16Max) <|
  Checked.both (L.maxExtensionBytes ≤ uint16Max) <|
  Checked.both (L.maxPayloadSize ≤ uint32Max) <|
  Checked.both (32 ≤ L.maxFrameSize) do
    let room ← Checked.sub L.maxFrameSize 32
    Checked.both (L.maxPayloadSize ≤ room) (some (decide (L.maxFrameSize ≤ L.maxBufferedBytes)))

/-! ## Encoding -/

/-- The loops of `append_u16`, `append_u32` and `append_u64`. -/
def appendShifts (shifts : List Nat) (output : List UInt8) (value : Nat) : Option (List UInt8) :=
  shifts.foldlM (fun output shift => do
    let byte ← Checked.narrow 255 ((value >>> shift) &&& 0xff)
    some (output ++ [UInt8.ofNat byte])) output

/-- `append_u16` after the cast of a `size_t` to its argument type. -/
def appendSize16 (output : List UInt8) (size : Nat) : Option (List UInt8) := do
  let field ← Checked.narrow uint16Max size
  appendShifts [8, 0] output field

/-- `append_u32` after the cast of a `size_t` to its argument type. -/
def appendSize32 (output : List UInt8) (size : Nat) : Option (List UInt8) := do
  let field ← Checked.narrow uint32Max size
  appendShifts [24, 16, 8, 0] output field

/-- The first extension loop of `encode`. -/
def measureExtensions (L : Limits p) : Nat → List Extension → Option (Result Nat)
  | extensionBytes, [] => some (.ok extensionBytes)
  | extensionBytes, extension :: rest => do
      let refused ←
        Checked.either (extension.value.length > uint16Max) <|
        Checked.either (extensionBytes > L.maxExtensionBytes) do
          let room ← Checked.sub L.maxExtensionBytes extensionBytes
          Checked.either (extension.value.length > room) do
            let left ← Checked.sub p.sizeMax extensionBytes
            let left ← Checked.sub left 4
            some (decide (extension.value.length > left))
      if refused then
        some (failure .limitExceeded "protocol extension bytes exceeded")
      else do
        let size ← Checked.add p.sizeMax 4 extension.value.length
        let extensionBytes ← Checked.add p.sizeMax extensionBytes size
        measureExtensions L extensionBytes rest

/-- The body of the second extension loop of `encode`. -/
def appendExtension (output : List UInt8) (extension : Extension) : Option (List UInt8) := do
  let output ← appendShifts [8, 0] output extension.id.toNat
  let output ← appendSize16 output extension.value.length
  some (output ++ extension.value)

/-- The emission part of `encode`. -/
def emit (message : Message) (headerSize : Nat) : Option (List UInt8) := do
  let output ← appendShifts [24, 16, 8, 0] [] wireMagic.toNat
  let output ← appendSize16 output headerSize
  let output ← appendShifts [8, 0] output message.flags.bits.toNat
  let output ← appendShifts [8, 0] output message.version.major.toNat
  let output ← appendShifts [8, 0] output message.version.minor.toNat
  let output ← appendShifts [24, 16, 8, 0] output message.type.toNat
  let output ← appendShifts [56, 48, 40, 32, 24, 16, 8, 0] output message.correlationId.toNat
  let output ← appendSize32 output message.payload.length
  let output ← appendSize16 output message.extensions.length
  let output ← appendShifts [8, 0] output 0
  let output ← message.extensions.foldlM appendExtension output
  some (output ++ message.payload)

/-- `FrameCodec::encode`. -/
def encode (L : Limits p) (message : Message) : Option (Result (List UInt8)) := do
  let valid ← valid L
  if valid = false then
    some (failure .invalidArgument "protocol limits are inconsistent")
  else if message.payload.length > L.maxPayloadSize ∨ message.payload.length > uint32Max then
    some (failure .limitExceeded "protocol payload limit exceeded")
  else if message.extensions.length > L.maxExtensionCount ∨
      message.extensions.length > uint16Max then
    some (failure .limitExceeded "protocol extension count exceeded")
  else do
    let measured ← measureExtensions L 0 message.extensions
    match measured with
    | .error e => some (.error e)
    | .ok extensionBytes => do
        let headerMax ← Checked.sub uint16Max wireHeaderSize
        if extensionBytes > L.maxExtensionBytes ∨ extensionBytes > headerMax then
          some (failure .limitExceeded "protocol header limit exceeded")
        else do
          let headerSize ← Checked.add p.sizeMax wireHeaderSize extensionBytes
          let room ← Checked.sub p.sizeMax headerSize
          if message.payload.length > room then
            some (failure .limitExceeded "protocol frame size overflow")
          else do
            let frameSize ← Checked.add p.sizeMax headerSize message.payload.length
            if frameSize > L.maxFrameSize then
              some (failure .limitExceeded "protocol frame limit exceeded")
            else do
              let output ← emit message headerSize
              some (.ok output)

theorem valid_eq (L : Limits p) : valid L = some L.valid := by
  have hroom : 32 ≤ L.maxFrameSize → (do
      let room ← Checked.sub L.maxFrameSize 32
      Checked.both (L.maxPayloadSize ≤ room) (some (decide (L.maxFrameSize ≤ L.maxBufferedBytes))))
      = some (decide (L.maxPayloadSize ≤ p.sub L.maxFrameSize 32) &&
          decide (L.maxFrameSize ≤ L.maxBufferedBytes)) := by
    intro h
    rw [Checked.sub_eq h, Platform.sub_eq L.maxFrameSize_le h]
    exact Checked.both_eq (fun _ => rfl)
  rw [valid, Limits.valid, Bool.and_assoc, Bool.and_assoc, Bool.and_assoc, Bool.and_assoc]
  refine Checked.both_eq fun _ => Checked.both_eq fun _ => Checked.both_eq fun _ => ?_
  exact Checked.both_eq hroom

/-- A byte that was masked is not cut by its cast. -/
theorem appendShifts_eq (shifts : List Nat) (output : List UInt8) (value : Nat) :
    appendShifts shifts output value = some (Protocol.appendShifts shifts output value) := by
  induction shifts generalizing output with
  | nil => rfl
  | cons shift shifts ih =>
      have hmask : (value >>> shift) &&& 0xff ≤ 255 := Nat.and_le_right
      rw [appendShifts, List.foldlM_cons, Checked.narrow_eq hmask]
      exact ih _

theorem appendSize16_eq {size : Nat} (h : size ≤ uint16Max) (output : List UInt8) :
    appendSize16 output size = some (appendU16 output (UInt16.ofNat size)) := by
  have hcast : (UInt16.ofNat size).toNat = size := by
    rw [UInt16.toNat_ofNat']
    exact Nat.mod_eq_of_lt (Nat.lt_succ_of_le h)
  rw [appendSize16, Checked.narrow_eq h, appendU16_eq, hcast]
  show appendShifts [8, 0] output size = _
  rw [appendShifts_eq]
  exact congrArg some (appendShifts_eq_digits 2 output size)

theorem appendSize32_eq {size : Nat} (h : size ≤ uint32Max) (output : List UInt8) :
    appendSize32 output size = some (appendU32 output (UInt32.ofNat size)) := by
  have hcast : (UInt32.ofNat size).toNat = size := by
    rw [UInt32.toNat_ofNat']
    exact Nat.mod_eq_of_lt (Nat.lt_succ_of_le h)
  rw [appendSize32, Checked.narrow_eq h, appendU32, hcast]
  exact appendShifts_eq _ _ _

theorem measureExtensions_eq {L : Limits p} (hL : L.Valid) (extensionBytes : Nat)
    (extensions : List Extension) :
    measureExtensions L extensionBytes extensions
      = some (FrameCodec.measureExtensions L extensionBytes extensions) := by
  have hmax := p.uint32Max_le_sizeMax
  have hbytes := hL.extensionBytes_le
  induction extensions generalizing extensionBytes with
  | nil => rfl
  | cons e es ih =>
      rw [measureExtensions, FrameCodec.measureExtensions]
      apply Checked.bind_eq (v := decide (e.value.length > uint16Max ∨
          extensionBytes > L.maxExtensionBytes ∨
          e.value.length > p.sub L.maxExtensionBytes extensionBytes ∨
          e.value.length > p.sub (p.sub p.sizeMax extensionBytes) 4))
      · apply Checked.either_eq
        intro _
        apply Checked.either_eq
        intro htotal
        -- the two subtractions are only reached with a running total within the limit
        have hle : extensionBytes ≤ L.maxExtensionBytes := Nat.le_of_not_lt htotal
        rw [Platform.sub_eq (a := L.maxExtensionBytes) (by omega) hle,
          Platform.sub_eq (a := p.sizeMax) le_rfl (by omega), Platform.sub_eq (by omega) (by omega)]
        apply Checked.bind_eq (Checked.sub_eq hle)
        apply Checked.either_eq
        intro _
        apply Checked.bind_eq (Checked.sub_eq (by omega))
        exact Checked.bind_eq (Checked.sub_eq (by omega)) rfl
      apply Checked.guard_decide_eq
      intro hrefused
      simp only [uint16Max, not_or, not_lt, gt_iff_lt] at hrefused
      obtain ⟨hvalue, htotal, -, -⟩ := hrefused
      rw [Platform.add_eq (a := 4) (by omega), Platform.add_eq (by omega)]
      apply Checked.bind_eq (Checked.add_eq (by omega))
      apply Checked.bind_eq (Checked.add_eq (by omega))
      exact ih _

theorem appendExtension_eq {e : Extension} (h : e.value.length ≤ uint16Max) (output : List UInt8) :
    appendExtension output e = some (FrameCodec.appendExtension output e) := by
  rw [appendExtension, appendShifts_eq, Option.bind_eq_bind, Option.bind_some, appendSize16_eq h]
  rfl

theorem foldlM_appendExtension_eq {es : List Extension} (h : ∀ e ∈ es, e.value.length ≤ uint16Max)
    (output : List UInt8) :
    es.foldlM appendExtension output = some (es.foldl FrameCodec.appendExtension output) := by
  induction es generalizing output with
  | nil => rfl
  | cons e es ih =>
      rw [List.foldlM_cons, appendExtension_eq (h e List.mem_cons_self), Option.bind_eq_bind,
        Option.bind_some, List.foldl_cons]
      exact ih (fun e' he' => h e' (List.mem_cons_of_mem e he')) _

theorem emit_eq {m : Message} {headerSize : Nat} (hheader : headerSize ≤ uint16Max)
    (hpayload : m.payload.length ≤ uint32Max) (hcount : m.extensions.length ≤ uint16Max)
    (hvalues : ∀ e ∈ m.extensions, e.value.length ≤ uint16Max) :
    emit m headerSize = some (FrameCodec.emit m headerSize) := by
  simp only [emit, appendShifts_eq, appendSize16_eq hheader, appendSize16_eq hcount,
    appendSize32_eq hpayload, foldlM_appendExtension_eq hvalues, Option.bind_eq_bind,
    Option.bind_some]
  rfl

theorem value_length_le (es : List Extension) : ∀ e ∈ es, e.value.length ≤ extensionBytes es := by
  induction es with
  | nil => simp
  | cons e es ih =>
      rintro e' (_ | ⟨_, he'⟩)
      · rw [extensionBytes_cons]
        omega
      · have := ih e' he'
        rw [extensionBytes_cons]
        omega

/-- **`encode` never wraps and its casts drop nothing**, for any limits and any
message. -/
theorem encode_eq (L : Limits p) (m : Message) : encode L m = some (FrameCodec.encode L m) := by
  have hmax := p.uint32Max_le_sizeMax
  unfold encode FrameCodec.encode
  apply Checked.bind_eq (valid_eq L)
  apply Checked.guard_eq
  intro hvalid
  have hL : L.Valid := (Limits.valid_iff L).1 (by simpa using hvalid)
  have hbound := hL.extensionBytes_le
  apply Checked.guard_eq
  intro hpayload
  apply Checked.guard_eq
  intro hcount
  apply Checked.bind_eq (measureExtensions_eq hL 0 m.extensions)
  cases hmeasured : FrameCodec.measureExtensions L 0 m.extensions with
  | error e => rfl
  | ok n =>
      have hn : n = extensionBytes m.extensions := by
        rw [FrameCodec.eq_of_measureExtensions hL hmeasured, Nat.zero_add]
      have hfixed : wireHeaderSize ≤ uint16Max := by decide
      have hwide : uint16Max ≤ p.sizeMax := by
        rw [uint16Max]
        omega
      dsimp only
      rw [Platform.sub_eq hwide hfixed]
      apply Checked.bind_eq (Checked.sub_eq hfixed)
      apply Checked.guard_eq
      intro hheader
      have hsize : wireHeaderSize + n ≤ uint16Max := by omega
      rw [Platform.add_eq (hsize.trans hwide), Platform.sub_eq le_rfl (hsize.trans hwide)]
      apply Checked.bind_eq (Checked.add_eq (hsize.trans hwide))
      apply Checked.bind_eq (Checked.sub_eq (hsize.trans hwide))
      apply Checked.guard_eq
      intro hroom
      have hadd : wireHeaderSize + n + m.payload.length ≤ p.sizeMax := by omega
      rw [Platform.add_eq hadd]
      apply Checked.bind_eq (Checked.add_eq hadd)
      apply Checked.guard_eq
      intro _
      refine Checked.bind_eq (emit_eq hsize (by omega) (by omega) fun e he => ?_) rfl
      have hvalue := value_length_le m.extensions e he
      omega

end Sanitized

/-! ## The table of the wire format -/

/-- The number a field of a frame holds. -/
def fieldAt (frame : List UInt8) (offset size : Nat) : Nat := value (slice frame offset size)

/-- The frame is the one `WIRE_FORMAT.md` documents for the message: every field
at its offset with its exact value, the TLVs in order, the payload. -/
structure WireTable (m : Message) (frame : List UInt8) : Prop where
  length_eq : frame.length = 32 + extensionBytes m.extensions + m.payload.length
  magic : slice frame 0 4 = [0x56, 0x53, 0x50, 0x31]
  headerSize : fieldAt frame 4 2 = 32 + extensionBytes m.extensions
  flags : fieldAt frame 6 2 = m.flags.bits.toNat
  major : fieldAt frame 8 2 = m.version.major.toNat
  minor : fieldAt frame 10 2 = m.version.minor.toNat
  type : fieldAt frame 12 4 = m.type.toNat
  correlationId : fieldAt frame 16 8 = m.correlationId.toNat
  payloadSize : fieldAt frame 24 4 = m.payload.length
  extensionCount : fieldAt frame 28 2 = m.extensions.length
  reserved : fieldAt frame 30 2 = 0
  valueSizes : ∀ e ∈ m.extensions, value (digits 2 e.value.length) = e.value.length
  extensions : slice frame 32 (extensionBytes m.extensions) = m.extensions.flatMap fun e =>
    digits 2 e.id.toNat ++ (digits 2 e.value.length ++ e.value)
  payload : frame.drop (32 + extensionBytes m.extensions) = m.payload

theorem fieldAt_skip {n v offset : Nat} (h : n ≤ offset) (size : Nat) (after : List UInt8) :
    fieldAt (digits n v ++ after) offset size = fieldAt after (offset - n) size := by
  rw [fieldAt, slice_append_right (by rwa [length_digits]), length_digits, fieldAt]

theorem fieldAt_digits {n v : Nat} (h : v < 256 ^ n) (after : List UInt8) :
    fieldAt (digits n v ++ after) 0 n = v := by
  rw [fieldAt, slice_zero, List.take_left' (length_digits n v), value_digits_of_lt h]

namespace FrameCodec

variable {p : Platform}

theorem Representable.wireTable {m : Message} (h : Representable m) :
    WireTable m (wireLayout m) := by
  have hheader := h.extensions_le
  have hcount := h.count_le
  have hpayload := h.payload_le
  have hvalues := Sanitized.value_length_le m.extensions
  constructor
  case length_eq => exact length_wireLayout m
  case magic =>
    rw [wireLayout, fixedHeader, slice_zero]
    simp only [List.append_assoc]
    rw [List.take_left' (length_digits 4 _)]
    decide
  case valueSizes =>
    intro e he
    have := hvalues e he
    exact value_digits_of_lt (by omega)
  case extensions =>
    rw [wireLayout]
    exact slice_append (length_fixedHeader m) (length_tlvBytes m.extensions)
  case payload =>
    rw [wireLayout, ← List.append_assoc]
    exact List.drop_left' (by rw [List.length_append, length_fixedHeader, length_tlvBytes])
  all_goals
    simp only [wireLayout, fixedHeader, List.append_assoc, fieldAt_skip, Nat.reduceLeDiff,
      Nat.reduceSub]
    apply fieldAt_digits
  case headerSize => omega
  case flags => exact m.flags.bits.toNat_lt
  case major => exact m.version.major.toNat_lt
  case minor => exact m.version.minor.toNat_lt
  case type => exact m.type.toNat_lt
  case correlationId => exact m.correlationId.toNat_lt
  case payloadSize => omega
  case extensionCount => omega
  case reserved => decide

/-- **`encode` accepts exactly the messages within the limits and emits exactly
the documented layout.**  It reports `invalid_argument` exactly under limits that
are not valid; under valid ones it succeeds exactly on the messages whose payload,
extension count, TLV section and frame are within them, and reports
`limit_exceeded` otherwise.  No sum or difference it computes wraps and no cast
it makes drops bits, and what it returns is the wire table of the message. -/
theorem encode_exact (L : Limits p) (m : Message) :
    (L.valid = false ↔ ∃ e : Error, encode L m = .error e ∧ e.code = .invalidArgument) ∧
    (L.valid = true →
      ((∃ frame, encode L m = .ok frame) ↔
        m.payload.length ≤ L.maxPayloadSize ∧ m.extensions.length ≤ L.maxExtensionCount ∧
        (m.extensions.map fun e => 4 + e.value.length).sum ≤ min L.maxExtensionBytes 65503 ∧
        32 + (m.extensions.map fun e => 4 + e.value.length).sum + m.payload.length
          ≤ L.maxFrameSize) ∧
      ∀ e : Error, encode L m = .error e → e.code = .limitExceeded) ∧
    Sanitized.encode L m = some (encode L m) ∧
    ∀ frame, encode L m = .ok frame → WireTable m frame := by
  refine ⟨?_, ?_, Sanitized.encode_eq L m, ?_⟩
  · constructor
    · intro hvalid
      refine ⟨⟨.invalidArgument, "protocol limits are inconsistent"⟩, ?_, rfl⟩
      rw [encode, if_pos hvalid, failure]
    · rintro ⟨e, he, hcode⟩
      -- under valid limits the code would be another one
      by_contra hvalid
      have hL : L.Valid := (Limits.valid_iff L).1 (by simpa using hvalid)
      rw [encode_error_code hL he] at hcode
      cases hcode
  · intro hvalid
    have hL : L.Valid := (Limits.valid_iff L).1 hvalid
    refine ⟨?_, fun e he => encode_error_code hL he⟩
    constructor
    · rintro ⟨frame, hframe⟩
      obtain ⟨hpayload, hcount, hbytes, hheader, hsize⟩ := (fits_of_encode hframe).2
      exact ⟨hpayload, hcount, Nat.le_min.2 ⟨hbytes, hheader⟩, hsize⟩
    · rintro ⟨hpayload, hcount, hbytes, hsize⟩
      exact ⟨wireLayout m, encode_of_fits hL
        ⟨hpayload, hcount, (Nat.le_min.1 hbytes).1, (Nat.le_min.1 hbytes).2, hsize⟩⟩
  · intro frame hframe
    obtain ⟨hL, hfits, rfl⟩ := encode_eq_ok_iff.1 hframe
    exact (hfits.representable hL).wireTable

end FrameCodec
end Protocol
end Vosp
