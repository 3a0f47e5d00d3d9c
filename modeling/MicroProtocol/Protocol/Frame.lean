import MicroProtocol.Protocol.Wire

/-!
# `FrameCodec`: the VSP1 frame encoder and decoder

The functions of `frame.hpp`, translated statement by statement.  Nothing is
proved here; the specifications are in `FrameEncode`, `FrameProbe` and
`FrameRoundTrip`.

* `encode` — the limit checks, the extension loop `measureExtensions` and the
  emission of the header, the TLVs and the payload.
* `probe` — the inspection of a possibly incomplete frame, with the TLV walk
  `validateExtensions` once the whole header is there.
* `decodePrefix`, `decode` — the copying decoder, whose own TLV loop
  `copyExtensions` makes no checks.

All of them are methods of a `FrameCodec` whose only state is its `Limits`, so
the limits are their first argument.
-/

namespace Vosp
namespace Protocol

/-- `wire_magic`, the four characters `VSP1`. -/
def wireMagic : UInt32 := 0x56535031

/-- `wire_header_size`. -/
def wireHeaderSize : Nat := 32

/-- `FrameState`. -/
inductive FrameState where
  | incomplete
  | ready
  deriving DecidableEq, Repr

/-- `FrameProbe`. -/
structure FrameProbe where
  state : FrameState := .incomplete
  frameSize : Nat := 0
  requiredSize : Nat := wireHeaderSize
  deriving DecidableEq, Repr

/-- `DecodedFrame`. -/
structure DecodedFrame where
  message : Message
  consumed : Nat := 0
  deriving DecidableEq, Repr

namespace FrameCodec

variable {p : Platform}

/-! ## Encoding -/

/-- The first extension loop of `encode`: the number of header bytes the
extensions take, `extension_bytes` being the running total. -/
def measureExtensions (L : Limits p) : Nat → List Extension → Result Nat
  | extensionBytes, [] => .ok extensionBytes
  | extensionBytes, extension :: rest =>
      if extension.value.length > uint16Max ∨
          extensionBytes > L.maxExtensionBytes ∨
          extension.value.length > p.sub L.maxExtensionBytes extensionBytes ∨
          extension.value.length > p.sub (p.sub p.sizeMax extensionBytes) 4 then
        failure .limitExceeded "protocol extension bytes exceeded"
      else
        measureExtensions L (p.add extensionBytes (p.add 4 extension.value.length)) rest

/-- The body of the second extension loop of `encode`: one TLV. -/
def appendExtension (output : List UInt8) (extension : Extension) : List UInt8 :=
  let output := appendU16 output extension.id
  let output := appendU16 output (UInt16.ofNat extension.value.length)
  output ++ extension.value

/-- The emission part of `encode`, after every check has passed. -/
def emit (message : Message) (headerSize : Nat) : List UInt8 :=
  let output := appendU32 [] wireMagic
  let output := appendU16 output (UInt16.ofNat headerSize)
  let output := appendU16 output message.flags.bits
  let output := appendU16 output message.version.major
  let output := appendU16 output message.version.minor
  let output := appendU32 output message.type
  let output := appendU64 output message.correlationId
  let output := appendU32 output (UInt32.ofNat message.payload.length)
  let output := appendU16 output (UInt16.ofNat message.extensions.length)
  let output := appendU16 output 0
  let output := message.extensions.foldl appendExtension output
  output ++ message.payload

/-- `FrameCodec::encode`. -/
def encode (L : Limits p) (message : Message) : Result (List UInt8) :=
  if L.valid = false then
    failure .invalidArgument "protocol limits are inconsistent"
  else if message.payload.length > L.maxPayloadSize ∨ message.payload.length > uint32Max then
    failure .limitExceeded "protocol payload limit exceeded"
  else if message.extensions.length > L.maxExtensionCount ∨
      message.extensions.length > uint16Max then
    failure .limitExceeded "protocol extension count exceeded"
  else
    match measureExtensions L 0 message.extensions with
    | .error e => .error e
    | .ok extensionBytes =>
        if extensionBytes > L.maxExtensionBytes ∨
            extensionBytes > p.sub uint16Max wireHeaderSize then
          failure .limitExceeded "protocol header limit exceeded"
        else
          let headerSize := p.add wireHeaderSize extensionBytes
          if message.payload.length > p.sub p.sizeMax headerSize then
            failure .limitExceeded "protocol frame size overflow"
          else
            let frameSize := p.add headerSize message.payload.length
            if frameSize > L.maxFrameSize then
              failure .limitExceeded "protocol frame limit exceeded"
            else
              .ok (emit message headerSize)

/-! ## Inspecting -/

/-- The loop of `validate_extensions`: `count` entries are left and the walk
stands at `cursor`; the result is the final cursor. -/
def walkExtensions (p : Platform) (header : List UInt8) : Nat → Nat → Result Nat
  | 0, cursor => .ok cursor
  | count + 1, cursor =>
      if p.sub header.length cursor < 4 then
        failure .malformedFrame "protocol extension header is truncated"
      else
        let valueSize := (readU16 header (p.add cursor 2)).toNat
        let cursor := p.add cursor 4
        if valueSize > p.sub header.length cursor then
          failure .malformedFrame "protocol extension value is truncated"
        else
          walkExtensions p header count (p.add cursor valueSize)

/-- `FrameCodec::validate_extensions`. -/
def validateExtensions (p : Platform) (header : List UInt8) (extensionCount : Nat) : Result Unit :=
  match walkExtensions p header extensionCount wireHeaderSize with
  | .error e => .error e
  | .ok cursor =>
      if cursor ≠ header.length then
        failure .malformedFrame "protocol extension count is inconsistent"
      else
        .ok ()

/-- `FrameCodec::probe`. -/
def probe (L : Limits p) (input : List UInt8) : Result FrameProbe :=
  if L.valid = false then
    failure .invalidArgument "protocol limits are inconsistent"
  else if input.length < 4 then
    .ok {}
  else if readU32 input 0 ≠ wireMagic then
    failure .invalidMagic "protocol frame magic mismatch"
  else if input.length < wireHeaderSize then
    .ok {}
  else
    let headerSize := (readU16 input 4).toNat
    let payloadSize := (readU32 input 24).toNat
    let extensionCount := (readU16 input 28).toNat
    let reserved := readU16 input 30
    if reserved ≠ 0 ∨ headerSize < wireHeaderSize then
      failure .malformedFrame "protocol frame header is malformed"
    else if extensionCount > L.maxExtensionCount ∨
        p.sub headerSize wireHeaderSize > L.maxExtensionBytes ∨
        payloadSize > L.maxPayloadSize then
      failure .limitExceeded "protocol frame declares excessive sizes"
    else if payloadSize > p.sub p.sizeMax headerSize then
      failure .limitExceeded "protocol frame size overflow"
    else
      let frameSize := p.add headerSize payloadSize
      if frameSize > L.maxFrameSize then
        failure .limitExceeded "protocol frame limit exceeded"
      else if input.length < headerSize then
        .ok { state := .incomplete, frameSize := frameSize, requiredSize := frameSize }
      else
        match validateExtensions p (input.take headerSize) extensionCount with
        | .error e => .error e
        | .ok () =>
            if input.length < frameSize then
              .ok { state := .incomplete, frameSize := frameSize, requiredSize := frameSize }
            else
              .ok { state := .ready, frameSize := frameSize, requiredSize := frameSize }

/-! ## Decoding -/

/-- The extension loop of `decode_prefix`: `count` entries are copied out of
`input` from `cursor` on. -/
def copyExtensions (p : Platform) (input : List UInt8) : Nat → Nat → List Extension
  | 0, _ => []
  | count + 1, cursor =>
      let id := readU16 input cursor
      let size := (readU16 input (p.add cursor 2)).toNat
      let cursor := p.add cursor 4
      ⟨id, (input.drop cursor).take size⟩ :: copyExtensions p input count (p.add cursor size)

/-- `FrameCodec::decode_prefix`. -/
def decodePrefix (L : Limits p) (input : List UInt8) : Result DecodedFrame :=
  match probe L input with
  | .error e => .error e
  | .ok inspected =>
      if inspected.state ≠ .ready then
        failure .insufficientData "protocol frame is incomplete"
      else
        let headerSize := (readU16 input 4).toNat
        let extensionCount := (readU16 input 28).toNat
        let extensions := copyExtensions p input extensionCount wireHeaderSize
        let payload := (input.drop headerSize).take (p.sub inspected.frameSize headerSize)
        .ok {
          message := {
            version := ⟨readU16 input 8, readU16 input 10⟩
            type := readU32 input 12
            correlationId := readU64 input 16
            payload := payload
            flags := ⟨readU16 input 6⟩
            extensions := extensions }
          consumed := inspected.frameSize }

/-- `FrameCodec::decode`. -/
def decode (L : Limits p) (input : List UInt8) : Result Message :=
  match decodePrefix L input with
  | .error e => .error e
  | .ok decoded =>
      if decoded.consumed ≠ input.length then
        failure .trailingData "protocol frame has trailing bytes"
      else
        .ok decoded.message

end FrameCodec
end Protocol
end Vosp
