import MicroProtocol.Lib.Growable
import MicroProtocol.Protocol.FrameRoundTrip

/-!
# The memory that encoding and decoding ask for

`decode_prefix` reserves as many extensions as the header declares and copies every value
and the payload, with the sizes that the input declares.  The texts of errors are on the heap
as well.  Here the functions of the codec are run once more as functions that ask for memory,
and throw where a request is refused.

* `Allocating.*` — the functions, asking for memory where the source does.
* `Reports` — what a function asks for that may fail: the vectors of its result, or copies of
  the text of its error.
* `Allocating.encode_allocates_once` — `encode` asks for one block, of the size of the frame.
* `Allocating.decodePrefix_reports` — `decode_prefix` asks for the blocks of the message that it
  returns.
-/

namespace Vosp
namespace Protocol

open BigEndian Faulty
open Growable (block)

/-- A request for memory, and for how many items. -/
inductive Block where
  /-- A vector of bytes. -/
  | bytes (count : Nat)
  /-- A vector of extensions. -/
  | extensions (count : Nat)
  /-- The member `buffer_` of a decoder. -/
  | buffer (count : Nat)
  /-- The text of an error. -/
  | text (count : Nat)
  deriving DecidableEq, Repr

/-- What a vector of a message stands for on the wire: for each extension there is a TLV
header. -/
def Block.wireSize : Block → Nat
  | .bytes count => count
  | .extensions count => 4 * count
  | .buffer _ => 0
  | .text _ => 0

def spent (blocks : List Block) : Nat := (blocks.map Block.wireSize).sum

/-- The blocks of a message, the last one first. -/
def Message.blocks (m : Message) : List Block :=
  block .bytes m.payload.length ++
    (m.extensions.reverse.flatMap (fun e => block .bytes e.value.length) ++
      block .extensions m.extensions.length)

namespace Allocating

variable {σ : Type} {p : Platform}

/-! ## The codec -/

/-- A result that is an error gets a text of its own. -/
def report {α : Type} : Result α → Faulty Block σ (Result α)
  | .ok a => pure (.ok a)
  | .error e => do
      allocate (.text e.message.length)
      pure (.error e)

section Functions

variable (grow : Nat → Nat → Nat)

/-- `std::vector<std::byte>::push_back`. -/
def pushBack (output : Growable UInt8) (byte : Nat) : Faulty Block σ (Growable UInt8) :=
  output.append .bytes grow [UInt8.ofNat byte]

/-- The loop shared by `append_u32` and `append_u64`. -/
def appendShifts (shifts : List Nat) (value : Nat) (output : Growable UInt8) :
    Faulty Block σ (Growable UInt8) :=
  shifts.foldlM (fun output shift => pushBack grow output ((value >>> shift) &&& 0xff)) output

/-- `detail::append_u16`. -/
def appendU16 (value : UInt16) (output : Growable UInt8) : Faulty Block σ (Growable UInt8) := do
  let output ← pushBack grow output ((value.toNat >>> 8) &&& 0xff)
  pushBack grow output (value.toNat &&& 0xff)

/-- `detail::append_u32`. -/
def appendU32 (value : UInt32) (output : Growable UInt8) : Faulty Block σ (Growable UInt8) :=
  appendShifts grow [24, 16, 8, 0] value.toNat output

/-- `detail::append_u64`. -/
def appendU64 (value : UInt64) (output : Growable UInt8) : Faulty Block σ (Growable UInt8) :=
  appendShifts grow [56, 48, 40, 32, 24, 16, 8, 0] value.toNat output

/-- The body of the second extension loop of `encode`. -/
def appendExtension (output : Growable UInt8) (extension : Extension) :
    Faulty Block σ (Growable UInt8) := do
  let output ← appendU16 grow extension.id output
  let output ← appendU16 grow (UInt16.ofNat extension.value.length) output
  output.append .bytes grow extension.value

/-- The emission part of `encode`. -/
def emit (message : Message) (headerSize : Nat) (output : Growable UInt8) :
    Faulty Block σ (Growable UInt8) := do
  let output ← appendU32 grow wireMagic output
  let output ← appendU16 grow (UInt16.ofNat headerSize) output
  let output ← appendU16 grow message.flags.bits output
  let output ← appendU16 grow message.version.major output
  let output ← appendU16 grow message.version.minor output
  let output ← appendU32 grow message.type output
  let output ← appendU64 grow message.correlationId output
  let output ← appendU32 grow (UInt32.ofNat message.payload.length) output
  let output ← appendU16 grow (UInt16.ofNat message.extensions.length) output
  let output ← appendU16 grow 0 output
  let output ← message.extensions.foldlM (appendExtension grow) output
  output.append .bytes grow message.payload

/-- `FrameCodec::encode`. -/
def encode (L : Limits p) (message : Message) : Faulty Block σ (Result (List UInt8)) :=
  if L.valid = false then
    report (failure .invalidArgument "protocol limits are inconsistent")
  else if message.payload.length > L.maxPayloadSize ∨ message.payload.length > uint32Max then
    report (failure .limitExceeded "protocol payload limit exceeded")
  else if message.extensions.length > L.maxExtensionCount ∨
      message.extensions.length > uint16Max then
    report (failure .limitExceeded "protocol extension count exceeded")
  else
    match FrameCodec.measureExtensions L 0 message.extensions with
    | .error e => report (.error e)
    | .ok extensionBytes =>
        if extensionBytes > L.maxExtensionBytes ∨
            extensionBytes > p.sub uint16Max wireHeaderSize then
          report (failure .limitExceeded "protocol header limit exceeded")
        else
          let headerSize := p.add wireHeaderSize extensionBytes
          if message.payload.length > p.sub p.sizeMax headerSize then
            report (failure .limitExceeded "protocol frame size overflow")
          else
            let frameSize := p.add headerSize message.payload.length
            if frameSize > L.maxFrameSize then
              report (failure .limitExceeded "protocol frame limit exceeded")
            else do
              let output ← Growable.reserve .bytes frameSize {}
              let output ← emit grow message headerSize output
              pure (.ok output.items)

/-- The loop of `validate_extensions`. -/
def walkExtensions (p : Platform) (header : List UInt8) :
    Nat → Nat → Faulty Block σ (Result Nat)
  | 0, cursor => pure (.ok cursor)
  | count + 1, cursor =>
      if p.sub header.length cursor < 4 then
        report (failure .malformedFrame "protocol extension header is truncated")
      else
        let valueSize := (readU16 header (p.add cursor 2)).toNat
        let cursor := p.add cursor 4
        if valueSize > p.sub header.length cursor then
          report (failure .malformedFrame "protocol extension value is truncated")
        else
          walkExtensions p header count (p.add cursor valueSize)

/-- `FrameCodec::validate_extensions`. -/
def validateExtensions (p : Platform) (header : List UInt8) (extensionCount : Nat) :
    Faulty Block σ (Result Unit) := do
  match ← walkExtensions p header extensionCount wireHeaderSize with
  | .error e => pure (.error e)
  | .ok cursor =>
      if cursor ≠ header.length then
        report (failure .malformedFrame "protocol extension count is inconsistent")
      else
        pure (.ok ())

/-- `FrameCodec::probe`.  The error of `validate_extensions` is copied. -/
def probe (L : Limits p) (input : List UInt8) : Faulty Block σ (Result FrameProbe) :=
  if L.valid = false then
    report (failure .invalidArgument "protocol limits are inconsistent")
  else if input.length < 4 then
    pure (.ok {})
  else if readU32 input 0 ≠ wireMagic then
    report (failure .invalidMagic "protocol frame magic mismatch")
  else if input.length < wireHeaderSize then
    pure (.ok {})
  else
    let headerSize := (readU16 input 4).toNat
    let payloadSize := (readU32 input 24).toNat
    let extensionCount := (readU16 input 28).toNat
    let reserved := readU16 input 30
    if reserved ≠ 0 ∨ headerSize < wireHeaderSize then
      report (failure .malformedFrame "protocol frame header is malformed")
    else if extensionCount > L.maxExtensionCount ∨
        p.sub headerSize wireHeaderSize > L.maxExtensionBytes ∨
        payloadSize > L.maxPayloadSize then
      report (failure .limitExceeded "protocol frame declares excessive sizes")
    else if payloadSize > p.sub p.sizeMax headerSize then
      report (failure .limitExceeded "protocol frame size overflow")
    else
      let frameSize := p.add headerSize payloadSize
      if frameSize > L.maxFrameSize then
        report (failure .limitExceeded "protocol frame limit exceeded")
      else if input.length < headerSize then
        pure (.ok { state := .incomplete, frameSize := frameSize, requiredSize := frameSize })
      else do
        match ← validateExtensions p (input.take headerSize) extensionCount with
        | .error e => report (.error e)
        | .ok () =>
            if input.length < frameSize then
              pure (.ok { state := .incomplete, frameSize := frameSize, requiredSize := frameSize })
            else
              pure (.ok { state := .ready, frameSize := frameSize, requiredSize := frameSize })

/-- The extension loop of `decode_prefix`. -/
def copyExtensions (p : Platform) (input : List UInt8) :
    Nat → Nat → Growable Extension → Faulty Block σ (Growable Extension)
  | 0, _, extensions => pure extensions
  | count + 1, cursor, extensions => do
      let id := readU16 input cursor
      let size := (readU16 input (p.add cursor 2)).toNat
      let cursor := p.add cursor 4
      let value ← Growable.copy .bytes grow ((input.drop cursor).take size) size
      let extensions ← extensions.append .extensions grow [⟨id, value⟩]
      copyExtensions p input count (p.add cursor size) extensions

/-- `FrameCodec::decode_prefix`.  The error of `probe` is copied. -/
def decodePrefix (L : Limits p) (input : List UInt8) : Faulty Block σ (Result DecodedFrame) := do
  match ← probe L input with
  | .error e => report (.error e)
  | .ok inspected =>
      if inspected.state ≠ .ready then
        report (failure .insufficientData "protocol frame is incomplete")
      else do
        let headerSize := (readU16 input 4).toNat
        let extensionCount := (readU16 input 28).toNat
        let extensions ← Growable.reserve .extensions extensionCount {}
        let extensions ← copyExtensions grow p input extensionCount wireHeaderSize extensions
        let payloadSize := p.sub inspected.frameSize headerSize
        let payload ←
          Growable.copy .bytes grow ((input.drop headerSize).take payloadSize) payloadSize
        pure (.ok {
          message := {
            version := ⟨readU16 input 8, readU16 input 10⟩
            type := readU32 input 12
            correlationId := readU64 input 16
            payload := payload
            flags := ⟨readU16 input 6⟩
            extensions := extensions.items }
          consumed := inspected.frameSize })

end Functions

/-! ## What is asked for -/

section Reports

variable {α β : Type} {blocks : α → List Block} {bound : Nat}

/-- A result asks for its `blocks`, an error for at most `bound` copies of its text. -/
def Reports (blocks : α → List Block) (bound : Nat) (r : Result α) (requests : List Block) :
    Prop :=
  match r with
  | .ok a => requests = blocks a
  | .error e => ∃ n, 1 ≤ n ∧ n ≤ bound ∧ requests = List.replicate n (.text e.message.length)

/-- The function returns `r` unless it throws, and asks for what `r` stands for. -/
def Reporting (blocks : α → List Block) (bound : Nat) (m : Faulty Block σ (Result α))
    (r : Result α) : Prop :=
  ∃ requests, Computes m r requests ∧ Reports blocks bound r requests

/-- A result without vectors. -/
def noBlocks (_ : α) : List Block := []

theorem reporting_pure (a : α) :
    Reporting noBlocks bound (pure (.ok a) : Faulty Block σ (Result α)) (.ok a) :=
  ⟨[], computes_pure, rfl⟩

theorem reporting_failure (hbound : 1 ≤ bound) (e : Error) :
    Reporting blocks bound (report (.error e) : Faulty Block σ (Result α)) (.error e) :=
  ⟨_, computes_allocate.bind computes_pure rfl, 1, le_rfl, hbound, rfl⟩

/-- A branch that the plain function takes too. -/
theorem Reporting.ite {c : Prop} [Decidable c] {m m' : Faulty Block σ (Result α)}
    {r r' : Result α} (h : c → Reporting blocks bound m r)
    (h' : ¬ c → Reporting blocks bound m' r') :
    Reporting blocks bound (if c then m else m') (if c then r else r') := by
  split_ifs with hc
  · exact h hc
  · exact h' hc

variable {m : Faulty Block σ (Result α)} {f : Result α → Faulty Block σ (Result β)}
  {blocks' : β → List Block}

/-- After a success that asked for nothing. -/
theorem Reporting.then {a : α} {r : Result β} (h : Reporting noBlocks bound m (.ok a))
    {bound' : Nat} (hf : Reporting blocks' bound' (f (.ok a)) r) :
    Reporting blocks' bound' (m >>= f) r := by
  obtain ⟨_, hm, rfl⟩ := h
  obtain ⟨requests, hrest, hreports⟩ := hf
  exact ⟨requests, hm.bind hrest (List.append_nil _), hreports⟩

/-- An error is handed on. -/
theorem Reporting.pass {e : Error} (h : Reporting blocks bound m (.error e))
    (hf : f (.error e) = pure (.error e)) : Reporting blocks' bound (m >>= f) (.error e) := by
  obtain ⟨requests, hm, hreports⟩ := h
  refine ⟨requests, hm.bind ?_ (List.nil_append _), hreports⟩
  rw [hf]
  exact computes_pure

/-- An error is copied. -/
theorem Reporting.copied {e : Error} (h : Reporting blocks bound m (.error e))
    (hf : f (.error e) = report (.error e)) :
    Reporting blocks' (bound + 1) (m >>= f) (.error e) := by
  obtain ⟨requests, hm, n, hpos, hle, rfl⟩ := h
  have htext : Computes (f (.error e)) (.error e) [.text e.message.length] := by
    rw [hf]
    exact computes_allocate.bind computes_pure rfl
  exact ⟨_, hm.bind htext rfl, n + 1, by omega, by omega, rfl⟩

end Reports

/-! ## Encoding -/

variable (grow : Nat → Nat → Nat)

/-- The shifts by all multiples of eight below `8 * n` append `n` digits. -/
theorem appends_appendShifts (n value : Nat) :
    Growable.Appends (σ := σ) (appendShifts grow ((List.range n).reverse.map (8 * ·)) value)
      (digits n value) := by
  have hdigits : digits n value = ((List.range n).reverse.map (8 * ·)).flatMap fun shift =>
      [UInt8.ofNat ((value >>> shift) &&& 0xff)] := by
    simp only [digits_eq_map, ofNat_and_mask, ← List.map_eq_flatMap, List.map_map,
      Function.comp_def]
  rw [hdigits]
  exact Growable.Appends.foldlM (fun _ => Growable.appends_append Block.bytes grow _) _

theorem appends_appendU16 (value : UInt16) :
    Growable.Appends (σ := σ) (appendU16 grow value) (digits 2 value.toNat) := by
  have hdigits : digits 2 value.toNat = [UInt8.ofNat ((value.toNat >>> 8) &&& 0xff)] ++
      [UInt8.ofNat (value.toNat &&& 0xff)] := by
    rw [digits_eq_map, ofNat_and_mask, ofNat_and_mask]
    rfl
  rw [hdigits]
  exact (Growable.appends_append Block.bytes grow _).bind
    (Growable.appends_append Block.bytes grow _)

theorem appends_appendU32 (value : UInt32) :
    Growable.Appends (σ := σ) (appendU32 grow value) (digits 4 value.toNat) :=
  appends_appendShifts grow 4 value.toNat

theorem appends_appendU64 (value : UInt64) :
    Growable.Appends (σ := σ) (appendU64 grow value) (digits 8 value.toNat) :=
  appends_appendShifts grow 8 value.toNat

theorem appends_appendExtension (e : Extension) :
    Growable.Appends (σ := σ) (fun output => appendExtension grow output e) e.wireBytes := by
  rw [Extension.wireBytes, ← FrameCodec.digits_ofNat16 e.value.length]
  exact (appends_appendU16 grow e.id).bind <| (appends_appendU16 grow _).bind <|
    Growable.appends_append Block.bytes grow e.value

/-- The emission part appends the documented layout. -/
theorem appends_emit (m : Message) :
    Growable.Appends (σ := σ) (emit grow m (32 + extensionBytes m.extensions)) (wireLayout m) := by
  have h := (appends_appendU32 (σ := σ) grow wireMagic).bind <|
    (appends_appendU16 grow (UInt16.ofNat (32 + extensionBytes m.extensions))).bind <|
    (appends_appendU16 grow m.flags.bits).bind <|
    (appends_appendU16 grow m.version.major).bind <|
    (appends_appendU16 grow m.version.minor).bind <|
    (appends_appendU32 grow m.type).bind <|
    (appends_appendU64 grow m.correlationId).bind <|
    (appends_appendU32 grow (UInt32.ofNat m.payload.length)).bind <|
    (appends_appendU16 grow (UInt16.ofNat m.extensions.length)).bind <|
    (appends_appendU16 grow 0).bind <|
    (Growable.Appends.foldlM (appends_appendExtension grow) m.extensions).bind <|
    Growable.appends_append Block.bytes grow m.payload
  rw [FrameCodec.digits_ofNat16, FrameCodec.digits_ofNat32, FrameCodec.digits_ofNat16] at h
  simp only [wireLayout, fixedHeader, tlvBytes, List.append_assoc]
  exact h

/-- Once the frame has been measured, its block is the only one. -/
theorem computes_reserve_emit (m : Message) :
    Computes (do
      let output ← Growable.reserve .bytes (wireLayout m).length {}
      let output ← emit grow m (32 + extensionBytes m.extensions) output
      pure (.ok output.items : Result (List UInt8)) : Faulty Block σ _)
      (.ok (wireLayout m)) [.bytes (wireLayout m).length] := by
  have hblock : block Block.bytes (wireLayout m).length = [.bytes (wireLayout m).length] := by
    rw [block, if_neg]
    rw [length_wireLayout]
    omega
  have hroom : ([] : List UInt8).length + (wireLayout m).length ≤ (wireLayout m).length := by simp
  have hemit := appends_emit (σ := σ) grow m ⟨[], (wireLayout m).length⟩ hroom
  exact (Growable.computes_reserve _).bind (hemit.bind computes_pure rfl) hblock

/-- The block of a frame, or of the text of an error. -/
def frameBlock : Result (List UInt8) → Block
  | .ok frame => .bytes frame.length
  | .error e => .text e.message.length

theorem encode_reports (L : Limits p) (m : Message) :
    Reporting (fun frame => [.bytes frame.length]) 1
      (encode grow L m : Faulty Block σ (Result (List UInt8))) (FrameCodec.encode L m) := by
  unfold encode FrameCodec.encode
  refine .ite (fun _ => reporting_failure le_rfl _) fun hvalid => ?_
  refine .ite (fun _ => reporting_failure le_rfl _) fun _ => ?_
  refine .ite (fun _ => reporting_failure le_rfl _) fun _ => ?_
  cases hmeasure : FrameCodec.measureExtensions L 0 m.extensions with
  | error e => exact reporting_failure le_rfl e
  | ok size =>
      refine .ite (fun _ => reporting_failure le_rfl _) fun hheader => ?_
      refine .ite (fun _ => reporting_failure le_rfl _) fun hoverflow => ?_
      refine .ite (fun _ => reporting_failure le_rfl _) fun _ => ?_
      have hL : L.Valid := (Limits.valid_iff L).1 (by simpa using hvalid)
      have hbound := hL.extensionBytes_le
      have hmax := p.uint32Max_le_sizeMax
      have hsize : size = extensionBytes m.extensions := by
        simpa using FrameCodec.eq_of_measureExtensions hL hmeasure
      have hheaderSize : p.add wireHeaderSize size = 32 + extensionBytes m.extensions := by
        rw [hsize]
        exact Platform.add_eq (by rw [wireHeaderSize]; omega)
      rw [hheaderSize] at hoverflow ⊢
      rw [Platform.sub_eq le_rfl (by omega)] at hoverflow
      rw [Platform.add_eq (by omega), ← length_wireLayout, FrameCodec.emit_eq]
      exact ⟨_, computes_reserve_emit grow m, rfl⟩

/-- **`encode` makes one allocation**: the block of its frame, of exactly its size, or the text
of its error.  It returns what it always does if this one is granted, and throws otherwise. -/
theorem encode_allocates_once (L : Limits p) (m : Message) (grants : Block → List Block → Bool)
    (s : σ) (log : List Block) :
    let frame := FrameCodec.encode L m
    (encode grow L m).run grants s log =
      (if grants (frameBlock frame) log then some frame else none, s, frameBlock frame :: log) := by
  intro frame
  have hreports : Reporting _ 1 (encode grow L m : Faulty Block σ _) frame :=
    encode_reports grow L m
  obtain ⟨requests, hcomputes, hrequests⟩ := hreports
  have hone : requests = [frameBlock frame] := by
    revert hrequests
    generalize frame = r
    intro hrequests
    cases r with
    | ok bytes => exact hrequests
    | error e =>
        obtain ⟨n, hpos, hle, rfl⟩ := hrequests
        obtain rfl : n = 1 := by omega
        rfl
  subst hone
  exact hcomputes.run_one grants s log

/-! ## Decoding -/

theorem walkExtensions_reports (header : List UInt8) (count cursor : Nat) :
    Reporting noBlocks 1 (walkExtensions p header count cursor : Faulty Block σ (Result Nat))
      (FrameCodec.walkExtensions p header count cursor) := by
  induction count generalizing cursor with
  | zero => exact reporting_pure cursor
  | succ count ih =>
      unfold walkExtensions FrameCodec.walkExtensions
      exact .ite (fun _ => reporting_failure le_rfl _) fun _ =>
        .ite (fun _ => reporting_failure le_rfl _) fun _ => ih _

theorem validateExtensions_reports (header : List UInt8) (count : Nat) :
    Reporting noBlocks 1 (validateExtensions p header count : Faulty Block σ (Result Unit))
      (FrameCodec.validateExtensions p header count) := by
  unfold validateExtensions FrameCodec.validateExtensions
  have hwalk := walkExtensions_reports (σ := σ) (p := p) header count wireHeaderSize
  revert hwalk
  cases FrameCodec.walkExtensions p header count wireHeaderSize with
  | error e => exact fun hwalk => hwalk.pass rfl
  | ok cursor =>
      exact fun hwalk => hwalk.then <|
        .ite (fun _ => reporting_failure le_rfl _) fun _ => reporting_pure ()

theorem probe_reports (L : Limits p) (input : List UInt8) :
    Reporting noBlocks 2 (probe L input : Faulty Block σ (Result FrameProbe))
      (FrameCodec.probe L input) := by
  unfold probe FrameCodec.probe
  dsimp only
  have hfails : ∀ e : Error, Reporting noBlocks 2
      (report (.error e) : Faulty Block σ (Result FrameProbe)) (.error e) :=
    reporting_failure (by decide)
  -- one check of the header after the other
  refine .ite (fun _ => hfails _) fun _ => .ite (fun _ => reporting_pure _) fun _ => ?_
  refine .ite (fun _ => hfails _) fun _ => .ite (fun _ => reporting_pure _) fun _ => ?_
  refine .ite (fun _ => hfails _) fun _ => .ite (fun _ => hfails _) fun _ => ?_
  refine .ite (fun _ => hfails _) fun _ => .ite (fun _ => hfails _) fun _ => ?_
  refine .ite (fun _ => reporting_pure _) fun _ => ?_
  have hvalidate := validateExtensions_reports (σ := σ) (p := p)
    (input.take (readU16 input 4).toNat) (readU16 input 28).toNat
  revert hvalidate
  cases FrameCodec.validateExtensions p _ _ with
  | error e => exact fun hvalidate => hvalidate.copied rfl
  | ok u =>
      exact fun hvalidate => hvalidate.then <|
        .ite (fun _ => reporting_pure _) fun _ => reporting_pure _

/-- One step of the copying loop, inside a header of the size the wire allows. -/
theorem copyExtensions_succ {input : List UInt8} {count cursor : Nat} (hcursor : cursor ≤ 65535)
    (v : Growable Extension) :
    (copyExtensions grow p input (count + 1) cursor v : Faulty Block σ _) = (do
      let value ← Growable.copy .bytes grow
        (slice input (cursor + 4) (FrameCodec.valueSizeAt input cursor))
        (FrameCodec.valueSizeAt input cursor)
      let v ← v.append .extensions grow [⟨readU16 input cursor, value⟩]
      copyExtensions grow p input count (cursor + 4 + FrameCodec.valueSizeAt input cursor) v) := by
  have hmax := p.uint32Max_le_sizeMax
  have hsize := FrameCodec.valueSizeAt_lt input cursor
  have hadd : p.add cursor 2 = cursor + 2 := Platform.add_eq (by omega)
  have hadd' : p.add cursor 4 = cursor + 4 := Platform.add_eq (by omega)
  have hadd'' : p.add (cursor + 4) (FrameCodec.valueSizeAt input cursor)
      = cursor + 4 + FrameCodec.valueSizeAt input cursor := Platform.add_eq (by omega)
  rw [copyExtensions]
  simp only [hadd, hadd']
  rw [← FrameCodec.valueSizeAt, hadd'']
  rfl

/-- The copying loop asks for one block for each value that is not empty. -/
theorem computes_copyExtensions {es : List Extension} {before : List UInt8} (rest : List UInt8)
    (hlen : before.length + extensionBytes es ≤ 65535) {v : Growable Extension}
    (hroom : v.items.length + es.length ≤ v.capacity) :
    Computes (copyExtensions grow p (before ++ (tlvBytes es ++ rest)) es.length before.length v :
        Faulty Block σ _)
      { v with items := v.items ++ es }
      (es.reverse.flatMap fun e => block .bytes e.value.length) := by
  induction es generalizing before v with
  | nil =>
      rw [List.append_nil]
      exact computes_pure
  | cons e es ih =>
      rw [extensionBytes_cons] at hlen
      rw [List.length_cons] at hroom
      have hsplit : before ++ (tlvBytes (e :: es) ++ rest)
          = before ++ (e.wireBytes ++ (tlvBytes es ++ rest)) := by
        rw [tlvBytes_cons, List.append_assoc]
      have hnext := @ih (before ++ e.wireBytes) (by simp; omega)
        { v with items := v.items ++ [e] } (by simp; omega)
      rw [List.length_append, Extension.length_wireBytes, List.append_assoc,
        List.append_assoc] at hnext
      rw [hsplit, List.length_cons, copyExtensions_succ grow (by omega),
        FrameCodec.valueSizeAt_wireBytes (by omega), FrameCodec.readU16_wireBytes,
        FrameCodec.slice_wireBytes, Nat.add_assoc before.length]
      refine (Growable.computes_copy rfl).bind
        ((Growable.computes_append (by simp; omega)).bind hnext (List.append_nil _)) ?_
      simp

/-- The copying loop on a complete frame, into a vector with the room for its extensions. -/
theorem copyExtensions_of_complete {L : Limits p} {input : List UInt8}
    (h : FrameCodec.Complete L input) :
    Computes (copyExtensions grow p input (FrameCodec.extensionCountOf input) wireHeaderSize
        ⟨[], FrameCodec.extensionCountOf input⟩ : Faulty Block σ _)
      ⟨(FrameCodec.messageAt p input).extensions, FrameCodec.extensionCountOf input⟩
      ((FrameCodec.messageAt p input).extensions.reverse.flatMap fun e =>
        block .bytes e.value.length) := by
  obtain ⟨hcount, -, -⟩ := h.extensions_spec
  have hheader := h.fits.header_le
  have hlayout := h.wireLayout_messageAt
  generalize FrameCodec.messageAt p input = m at hcount hheader hlayout ⊢
  have hinput : fixedHeader m ++ (tlvBytes m.extensions ++
      (m.payload ++ input.drop (FrameCodec.frameSizeOf input))) = input := by
    rw [← List.append_assoc (tlvBytes m.extensions), ← List.append_assoc (fixedHeader m),
      ← wireLayout, hlayout, List.take_append_drop]
  have hcopy := @computes_copyExtensions σ p grow m.extensions (fixedHeader m)
    (m.payload ++ input.drop (FrameCodec.frameSizeOf input)) (by rw [length_fixedHeader]; omega)
    ⟨[], m.extensions.length⟩ (by simp)
  rw [hinput, length_fixedHeader, hcount] at hcopy
  exact hcopy

/-- A complete frame is decoded, and its vectors are all that is asked for. -/
theorem decodePrefix_of_complete {L : Limits p} (hL : L.Valid) {input : List UInt8}
    (h : FrameCodec.Complete L input) :
    Computes (decodePrefix grow L input : Faulty Block σ _)
      (.ok ⟨FrameCodec.messageAt p input, FrameCodec.frameSizeOf input⟩)
      (FrameCodec.messageAt p input).blocks := by
  have hmax := L.maxFrameSize_le
  have hframe := h.header.frame_le
  have hsub : p.sub (FrameCodec.frameSizeOf input) (FrameCodec.headerSizeOf input)
      = FrameCodec.payloadSizeOf input := by
    rw [Platform.sub_eq (by omega) (by rw [FrameCodec.frameSizeOf]; omega),
      FrameCodec.frameSizeOf, Nat.add_sub_cancel_left]
  obtain ⟨hcount, -, -⟩ := h.extensions_spec
  have hprobe := probe_reports (σ := σ) L input
  rw [FrameCodec.probe_of_complete hL h] at hprobe
  obtain ⟨_, hprobe, rfl⟩ := hprobe
  unfold decodePrefix
  refine hprobe.bind ?_ (List.append_nil _)
  simp only [FrameProbe.complete, ne_eq, not_true_eq_false, if_false]
  rw [← FrameCodec.extensionCountOf, ← FrameCodec.headerSizeOf, hsub, ← slice]
  rw [Message.blocks, hcount, h.payload_length, ← List.append_assoc]
  refine (Growable.computes_reserve _).bind ?_ rfl
  refine (copyExtensions_of_complete grow h).bind ?_ rfl
  exact (Growable.computes_copy h.payload_length).bind computes_pure rfl

/-- `decode_prefix` asks for the blocks of its message, or for copies of the text of its
error. -/
theorem decodePrefix_reports (L : Limits p) (input : List UInt8) :
    Reporting (fun decoded => decoded.message.blocks) 3
      (decodePrefix grow L input : Faulty Block σ _) (FrameCodec.decodePrefix L input) := by
  cases hdecode : FrameCodec.decodePrefix L input with
  | ok decoded =>
      have hL := FrameCodec.valid_of_decodePrefix hdecode
      obtain ⟨hcomplete, rfl⟩ := (FrameCodec.decodePrefix_eq_ok_iff hL).1 hdecode
      exact ⟨_, decodePrefix_of_complete grow hL hcomplete, rfl⟩
  | error e =>
      unfold FrameCodec.decodePrefix at hdecode
      unfold decodePrefix
      have hprobe := probe_reports (σ := σ) L input
      revert hprobe
      cases hresult : FrameCodec.probe L input with
      | error e' =>
          rw [hresult] at hdecode
          cases hdecode
          exact fun hprobe => hprobe.copied rfl
      | ok inspected =>
          rw [hresult] at hdecode
          by_cases hready : inspected.state ≠ .ready
          · simp only [if_pos hready] at hdecode
            cases hdecode
            refine fun hprobe => hprobe.then ?_
            simp only [if_pos hready]
            exact reporting_failure (by decide) _
          · simp only [if_neg hready] at hdecode
            cases hdecode

end Allocating

end Protocol
end Vosp
