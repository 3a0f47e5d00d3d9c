import MicroProtocol.Protocol.EncodeSanitized

/-!
# Decoding under checked execution

`probe`, `validate_extensions` and `decode_prefix` with every subtraction, sum,
byte access and subrange replaced by its checked counterpart.  The two TLV loops
also say where they have been: `walkExtensions` and `copyExtensions` return the
positions and value sizes they visit.

* `Sanitized.probe_eq`, `Sanitized.decodePrefix_eq` — the checked functions agree
  with the ones of `Frame`, for any limits and any input.
* `Sanitized.copyExtensions_of_walk` — the joint invariant of the two loops: where
  the walk has been, the copy can go.
* `decoding_in_bounds` — the decoder stays inside its input, and its unchecked
  copying loop repeats the steps of the validating one.
-/

namespace Vosp
namespace Protocol

open BigEndian

namespace Sanitized

variable {p : Platform}

/-- `read_u16`. -/
def readU16 (p : Platform) (input : List UInt8) (offset : Nat) : Option UInt16 := do
  let high ← Checked.index input offset
  let next ← Checked.add p.sizeMax offset 1
  let low ← Checked.index input next
  some (UInt16.ofNat ((high.toNat <<< 8) ||| low.toNat))

/-- The loop of `read_u32` and `read_u64`. -/
def readLoop (p : Platform) (width count : Nat) (input : List UInt8) (offset : Nat) : Option Nat :=
  (List.range count).foldlM (fun value index => do
    let position ← Checked.add p.sizeMax offset index
    let byte ← Checked.index input position
    some (((value <<< 8) % 2 ^ width) ||| byte.toNat)) 0

/-- `read_u32`. -/
def readU32 (p : Platform) (input : List UInt8) (offset : Nat) : Option UInt32 :=
  (readLoop p 32 4 input offset).map UInt32.ofNat

/-- `read_u64`. -/
def readU64 (p : Platform) (input : List UInt8) (offset : Nat) : Option UInt64 :=
  (readLoop p 64 8 input offset).map UInt64.ofNat

/-- The loop of `validate_extensions`, with the positions and value sizes of the
TLVs it accepts and its final cursor. -/
def walkExtensions (p : Platform) (header : List UInt8) :
    Nat → Nat → Option (Result (List (Nat × Nat) × Nat))
  | 0, cursor => some (.ok ([], cursor))
  | count + 1, cursor => do
      let left ← Checked.sub header.length cursor
      if left < 4 then
        some (failure .malformedFrame "protocol extension header is truncated")
      else do
        let offset ← Checked.add p.sizeMax cursor 2
        let valueSize ← readU16 p header offset
        let first ← Checked.add p.sizeMax cursor 4
        let left ← Checked.sub header.length first
        if valueSize.toNat > left then
          some (failure .malformedFrame "protocol extension value is truncated")
        else do
          let next ← Checked.add p.sizeMax first valueSize.toNat
          let rest ← walkExtensions p header count next
          some (rest.map fun (visits, last) => ((cursor, valueSize.toNat) :: visits, last))

/-- `FrameCodec::validate_extensions`. -/
def validateExtensions (p : Platform) (header : List UInt8) (extensionCount : Nat) :
    Option (Result Unit) := do
  let walked ← walkExtensions p header extensionCount wireHeaderSize
  match walked with
  | .error e => some (.error e)
  | .ok (_, cursor) =>
      if cursor ≠ header.length then
        some (failure .malformedFrame "protocol extension count is inconsistent")
      else
        some (.ok ())

/-- `FrameCodec::probe`. -/
def probe (L : Limits p) (input : List UInt8) : Option (Result FrameProbe) := do
  let valid ← valid L
  if valid = false then
    some (failure .invalidArgument "protocol limits are inconsistent")
  else if input.length < 4 then
    some (.ok {})
  else do
    let magic ← readU32 p input 0
    if magic ≠ wireMagic then
      some (failure .invalidMagic "protocol frame magic mismatch")
    else if input.length < wireHeaderSize then
      some (.ok {})
    else do
      let headerSize ← readU16 p input 4
      let payloadSize ← readU32 p input 24
      let extensionCount ← readU16 p input 28
      let reserved ← readU16 p input 30
      if reserved ≠ 0 ∨ headerSize.toNat < wireHeaderSize then
        some (failure .malformedFrame "protocol frame header is malformed")
      else do
        let excessive ←
          Checked.either (extensionCount.toNat > L.maxExtensionCount) do
            let extensionBytes ← Checked.sub headerSize.toNat wireHeaderSize
            Checked.either (extensionBytes > L.maxExtensionBytes)
              (some (decide (payloadSize.toNat > L.maxPayloadSize)))
        if excessive then
          some (failure .limitExceeded "protocol frame declares excessive sizes")
        else do
          let room ← Checked.sub p.sizeMax headerSize.toNat
          if payloadSize.toNat > room then
            some (failure .limitExceeded "protocol frame size overflow")
          else do
            let frameSize ← Checked.add p.sizeMax headerSize.toNat payloadSize.toNat
            if frameSize > L.maxFrameSize then
              some (failure .limitExceeded "protocol frame limit exceeded")
            else if input.length < headerSize.toNat then
              some (.ok { state := .incomplete, frameSize := frameSize, requiredSize := frameSize })
            else do
              let header ← Checked.range input 0 headerSize.toNat
              let validation ← validateExtensions p header extensionCount.toNat
              match validation with
              | .error e => some (.error e)
              | .ok () =>
                  if input.length < frameSize then
                    some (.ok {
                      state := .incomplete, frameSize := frameSize, requiredSize := frameSize })
                  else
                    some (.ok {
                      state := .ready, frameSize := frameSize, requiredSize := frameSize })

/-- The extension loop of `decode_prefix`, with the positions and value sizes of
the TLVs it copies, the copies and its final cursor. -/
def copyExtensions (p : Platform) (input : List UInt8) :
    Nat → Nat → Option (List (Nat × Nat) × List Extension × Nat)
  | 0, cursor => some ([], [], cursor)
  | count + 1, cursor => do
      let id ← readU16 p input cursor
      let offset ← Checked.add p.sizeMax cursor 2
      let size ← readU16 p input offset
      let first ← Checked.add p.sizeMax cursor 4
      let next ← Checked.add p.sizeMax first size.toNat
      let value ← Checked.range input first size.toNat
      let rest ← copyExtensions p input count next
      some ((cursor, size.toNat) :: rest.1, ⟨id, value⟩ :: rest.2.1, rest.2.2)

/-- `FrameCodec::decode_prefix`. -/
def decodePrefix (L : Limits p) (input : List UInt8) : Option (Result DecodedFrame) := do
  let inspected ← probe L input
  match inspected with
  | .error e => some (.error e)
  | .ok inspected =>
      if inspected.state ≠ .ready then
        some (failure .insufficientData "protocol frame is incomplete")
      else do
        let headerSize ← readU16 p input 4
        let extensionCount ← readU16 p input 28
        let copied ← copyExtensions p input extensionCount.toNat wireHeaderSize
        let payloadSize ← Checked.sub inspected.frameSize headerSize.toNat
        let payload ← Checked.range input headerSize.toNat payloadSize
        let major ← readU16 p input 8
        let minor ← readU16 p input 10
        let type ← readU32 p input 12
        let correlationId ← readU64 p input 16
        let flags ← readU16 p input 6
        some (.ok {
          message := {
            version := ⟨major, minor⟩
            type := type
            correlationId := correlationId
            payload := payload
            flags := ⟨flags⟩
            extensions := copied.2.1 }
          consumed := inspected.frameSize })

/-- An access inside the input yields the byte the model reads. -/
theorem index_eq {input : List UInt8} {i : Nat} (h : i < input.length) :
    Checked.index input i = some (byteAt input i) := Checked.index_eq h 0

theorem readU16_eq {input : List UInt8} {offset : Nat} (h : offset + 2 ≤ input.length)
    (hmax : offset < 4294967295) : readU16 p input offset = some (Protocol.readU16 input offset) := by
  have hsize := p.uint32Max_le_sizeMax
  unfold readU16
  apply Checked.bind_eq (index_eq (by omega))
  apply Checked.bind_eq (Checked.add_eq (by omega))
  apply Checked.bind_eq (index_eq (by omega))
  rfl

theorem readLoop_eq {width count : Nat} {input : List UInt8} {offset : Nat}
    (h : offset + count ≤ input.length) (hmax : offset + count ≤ 4294967295) :
    readLoop p width count input offset = some (Protocol.readLoop width count input offset) := by
  have hsize := p.uint32Max_le_sizeMax
  rw [readLoop, Protocol.readLoop]
  -- induction on the number of iterations
  induction count with
  | zero => rfl
  | succ count ih =>
      rw [List.range_succ, List.foldlM_append, ih (by omega) (by omega), List.foldl_append,
        Option.bind_eq_bind, Option.bind_some, List.foldlM_cons,
        Checked.add_eq (show offset + count ≤ p.sizeMax by omega), Option.bind_eq_bind,
        Option.bind_some, index_eq (by omega)]
      rfl

theorem readU32_eq {input : List UInt8} {offset : Nat} (h : offset + 4 ≤ input.length)
    (hmax : offset + 4 ≤ 4294967295) :
    readU32 p input offset = some (Protocol.readU32 input offset) := by
  rw [readU32, readLoop_eq h hmax]
  rfl

theorem readU64_eq {input : List UInt8} {offset : Nat} (h : offset + 8 ≤ input.length)
    (hmax : offset + 8 ≤ 4294967295) :
    readU64 p input offset = some (Protocol.readU64 input offset) := by
  rw [readU64, readLoop_eq h hmax]
  rfl

/-! ## The two TLV loops -/

/-- **The walk over the TLVs of a header stays inside it.** -/
theorem walkExtensions_eq {header : List UInt8} (hlen : header.length ≤ 65535) (count : Nat)
    {cursor : Nat} (hcursor : cursor ≤ header.length) :
    ∃ visits, walkExtensions p header count cursor
      = some ((FrameCodec.walkExtensions p header count cursor).map fun last => (visits, last)) := by
  have hmax := p.uint32Max_le_sizeMax
  induction count generalizing cursor with
  | zero => exact ⟨[], rfl⟩
  | succ count ih =>
      rw [walkExtensions, FrameCodec.walkExtensions, Checked.sub_eq hcursor,
        Platform.sub_eq (show header.length ≤ p.sizeMax by omega) hcursor]
      simp only [Option.bind_eq_bind, Option.bind_some]
      by_cases hshort : header.length - cursor < 4
      · rw [if_pos hshort, if_pos hshort]
        exact ⟨[], rfl⟩
      have hadd : p.add cursor 2 = cursor + 2 := Platform.add_eq (by omega)
      have hadd' : p.add cursor 4 = cursor + 4 := Platform.add_eq (by omega)
      rw [if_neg hshort, if_neg hshort, Checked.add_eq (show cursor + 2 ≤ p.sizeMax by omega),
        Option.bind_some, readU16_eq (show cursor + 2 + 2 ≤ header.length by omega) (by omega),
        Option.bind_some, Checked.add_eq (show cursor + 4 ≤ p.sizeMax by omega), Option.bind_some,
        Checked.sub_eq (show cursor + 4 ≤ header.length by omega), Option.bind_some]
      simp only [hadd, hadd',
        Platform.sub_eq (show header.length ≤ p.sizeMax by omega)
          (show cursor + 4 ≤ header.length by omega)]
      by_cases hvalue : (Protocol.readU16 header (cursor + 2)).toNat > header.length - (cursor + 4)
      · rw [if_pos hvalue, if_pos hvalue]
        exact ⟨[], rfl⟩
      have hnext : cursor + 4 + (Protocol.readU16 header (cursor + 2)).toNat ≤ header.length := by
        omega
      obtain ⟨visits, hrest⟩ := ih hnext
      refine ⟨(cursor, (Protocol.readU16 header (cursor + 2)).toNat) :: visits, ?_⟩
      rw [if_neg hvalue, if_neg hvalue, Checked.add_eq (by omega), Option.bind_some, hrest,
        Option.bind_some, Platform.add_eq (by omega)]
      cases FrameCodec.walkExtensions p header count
        (cursor + 4 + (Protocol.readU16 header (cursor + 2)).toNat) with
      | error e => rfl
      | ok last => rfl

/-- One accepted step of the checked walk. -/
theorem walkExtensions_succ {header : List UInt8} (hlen : header.length ≤ 65535) {count cursor : Nat}
    (hcursor : cursor ≤ header.length) {visits : List (Nat × Nat)} {last : Nat}
    (h : walkExtensions p header (count + 1) cursor = some (.ok (visits, last))) :
    cursor + 4 + FrameCodec.valueSizeAt header cursor ≤ header.length ∧
    ∃ rest, visits = (cursor, FrameCodec.valueSizeAt header cursor) :: rest ∧
      walkExtensions p header count (cursor + 4 + FrameCodec.valueSizeAt header cursor)
        = some (.ok (rest, last)) := by
  have hmax := p.uint32Max_le_sizeMax
  simp only [walkExtensions, Checked.sub_eq hcursor, Option.bind_eq_bind, Option.bind_some] at h
  by_cases hshort : header.length - cursor < 4
  · rw [if_pos hshort] at h
    cases h
  rw [if_neg hshort, Checked.add_eq (show cursor + 2 ≤ p.sizeMax by omega), Option.bind_some,
    readU16_eq (show cursor + 2 + 2 ≤ header.length by omega) (by omega), Option.bind_some,
    Checked.add_eq (show cursor + 4 ≤ p.sizeMax by omega), Option.bind_some,
    Checked.sub_eq (show cursor + 4 ≤ header.length by omega), Option.bind_some,
    ← FrameCodec.valueSizeAt] at h
  by_cases hvalue : FrameCodec.valueSizeAt header cursor > header.length - (cursor + 4)
  · rw [if_pos hvalue] at h
    cases h
  have hnext : cursor + 4 + FrameCodec.valueSizeAt header cursor ≤ header.length := by omega
  rw [if_neg hvalue, Checked.add_eq (by omega), Option.bind_some] at h
  obtain ⟨seen, hrest⟩ := @walkExtensions_eq p header hlen count _ hnext
  rw [hrest, Option.bind_some] at h
  cases hwalk : FrameCodec.walkExtensions p header count
      (cursor + 4 + FrameCodec.valueSizeAt header cursor) with
  | error e =>
      rw [hwalk] at h
      cases h
  | ok final =>
      rw [hwalk] at h hrest
      cases h
      exact ⟨hnext, seen, rfl, hrest⟩

/-- **Where the walk has been, the copy can go.**  If the walk over the header
accepts its TLVs, the copying loop visits the same positions with the same sizes,
ends where the walk ended, and never leaves the header. -/
theorem copyExtensions_of_walk {input : List UInt8} {headerSize : Nat} (hsize : headerSize ≤ 65535)
    (hheader : headerSize ≤ input.length) {count cursor : Nat} (hcursor : cursor ≤ headerSize)
    {visits : List (Nat × Nat)} {last : Nat}
    (h : walkExtensions p (input.take headerSize) count cursor = some (.ok (visits, last))) :
    copyExtensions p input count cursor
        = some (visits, FrameCodec.copyExtensions p input count cursor, last) ∧
      ∀ visit ∈ visits, visit.1 + 4 + visit.2 ≤ headerSize := by
  have hmax := p.uint32Max_le_sizeMax
  have hlength : (input.take headerSize).length = headerSize := List.length_take_of_le hheader
  induction count generalizing cursor visits with
  | zero =>
      cases h
      exact ⟨rfl, by simp⟩
  | succ count ih =>
      obtain ⟨hnext, rest, rfl, hrest⟩ :=
        walkExtensions_succ (by rwa [hlength]) (by rwa [hlength]) h
      rw [hlength] at hnext
      -- the size field lies in the header, so both loops read the same one
      have hsame : FrameCodec.valueSizeAt (input.take headerSize) cursor
          = FrameCodec.valueSizeAt input cursor := by
        have happend := FrameCodec.valueSizeAt_append
          (show cursor + 4 ≤ (input.take headerSize).length by omega) (input.drop headerSize)
        rw [List.take_append_drop] at happend
        exact happend.symm
      rw [hsame] at hnext hrest ⊢
      obtain ⟨hcopy, hbounds⟩ := ih hnext hrest
      refine ⟨?_, ?_⟩
      · rw [copyExtensions, FrameCodec.copyExtensions_succ (by omega)]
        apply Checked.bind_eq (readU16_eq (by omega) (by omega))
        apply Checked.bind_eq (Checked.add_eq (by omega))
        apply Checked.bind_eq (readU16_eq (by omega) (by omega))
        apply Checked.bind_eq (Checked.add_eq (by omega))
        rw [← FrameCodec.valueSizeAt]
        apply Checked.bind_eq (Checked.add_eq (by omega))
        apply Checked.bind_eq (Checked.range_eq (by omega))
        exact Checked.bind_eq hcopy rfl
      · rintro visit (_ | ⟨_, hvisit⟩)
        · exact hnext
        · exact hbounds visit hvisit

theorem validateExtensions_eq {header : List UInt8} (hlen : header.length ≤ 65535)
    (hfixed : wireHeaderSize ≤ header.length) (count : Nat) :
    validateExtensions p header count = some (FrameCodec.validateExtensions p header count) := by
  obtain ⟨visits, hwalk⟩ := @walkExtensions_eq p header hlen count _ hfixed
  unfold validateExtensions FrameCodec.validateExtensions
  apply Checked.bind_eq hwalk
  cases FrameCodec.walkExtensions p header count wireHeaderSize with
  | error e => rfl
  | ok cursor => exact Checked.guard_eq fun _ => rfl

/-! ## The whole decoder -/

/-- **`probe` reads inside its input and does not wrap**, for any limits and any
bytes. -/
theorem probe_eq (L : Limits p) (input : List UInt8) :
    probe L input = some (FrameCodec.probe L input) := by
  have hmax := p.uint32Max_le_sizeMax
  unfold probe FrameCodec.probe
  apply Checked.bind_eq (valid_eq L)
  apply Checked.guard_eq
  intro _
  apply Checked.guard_eq
  intro h4
  apply Checked.bind_eq (readU32_eq (by omega) (by omega))
  apply Checked.guard_eq
  intro _
  apply Checked.guard_eq
  intro h32
  rw [wireHeaderSize] at h32
  apply Checked.bind_eq (readU16_eq (by omega) (by omega))
  apply Checked.bind_eq (readU32_eq (by omega) (by omega))
  apply Checked.bind_eq (readU16_eq (by omega) (by omega))
  apply Checked.bind_eq (readU16_eq (by omega) (by omega))
  dsimp only
  apply Checked.guard_eq
  intro hmalformed
  have hheader : wireHeaderSize ≤ (Protocol.readU16 input 4).toNat :=
    Nat.le_of_not_lt fun h => hmalformed (.inr h)
  have hsize : (Protocol.readU16 input 4).toNat ≤ 65535 := FrameCodec.headerSizeOf_le input
  have hwide : (Protocol.readU16 input 4).toNat ≤ p.sizeMax := by omega
  rw [Platform.sub_eq hwide hheader, Platform.sub_eq le_rfl hwide]
  apply Checked.bind_eq (v := decide ((Protocol.readU16 input 28).toNat > L.maxExtensionCount ∨
      (Protocol.readU16 input 4).toNat - wireHeaderSize > L.maxExtensionBytes ∨
      (Protocol.readU32 input 24).toNat > L.maxPayloadSize))
  · apply Checked.either_eq
    intro _
    apply Checked.bind_eq (Checked.sub_eq hheader)
    exact Checked.either_eq fun _ => rfl
  apply Checked.guard_decide_eq
  intro _
  apply Checked.bind_eq (Checked.sub_eq hwide)
  apply Checked.guard_eq
  intro hroom
  have hadd : (Protocol.readU16 input 4).toNat + (Protocol.readU32 input 24).toNat ≤ p.sizeMax := by
    omega
  rw [Platform.add_eq hadd]
  apply Checked.bind_eq (Checked.add_eq hadd)
  apply Checked.guard_eq
  intro _
  apply Checked.guard_eq
  intro hpart
  have hlength : (input.take (Protocol.readU16 input 4).toNat).length
      = (Protocol.readU16 input 4).toNat := List.length_take_of_le (Nat.le_of_not_lt hpart)
  apply Checked.bind_eq (Checked.range_eq (by omega))
  rw [List.drop_zero]
  apply Checked.bind_eq (validateExtensions_eq (by rwa [hlength]) (by rwa [hlength]) _)
  cases FrameCodec.validateExtensions p (input.take (Protocol.readU16 input 4).toNat)
      (Protocol.readU16 input 28).toNat with
  | error e => rfl
  | ok _ => exact Checked.guard_eq fun _ => rfl

/-- Under limits that are not valid `probe` returns no verdict. -/
theorem valid_of_probe {L : Limits p} {input : List UInt8} {r : FrameProbe}
    (h : FrameCodec.probe L input = .ok r) : L.Valid := by
  rw [← Limits.valid_iff]
  by_contra hvalid
  rw [FrameCodec.probe, if_pos (by simpa using hvalid)] at h
  cases h

/-- On a complete frame the copying loop visits what the validating loop visited,
inside the header and up to its end. -/
theorem visits_of_complete {L : Limits p} {input : List UInt8}
    (h : FrameCodec.Complete L input) :
    ∃ visits,
      walkExtensions p (input.take (FrameCodec.headerSizeOf input))
          (FrameCodec.extensionCountOf input) wireHeaderSize
        = some (.ok (visits, FrameCodec.headerSizeOf input)) ∧
      copyExtensions p input (FrameCodec.extensionCountOf input) wireHeaderSize
        = some (visits,
            FrameCodec.copyExtensions p input (FrameCodec.extensionCountOf input) wireHeaderSize,
            FrameCodec.headerSizeOf input) ∧
      ∀ visit ∈ visits, visit.1 + 4 + visit.2 ≤ FrameCodec.headerSizeOf input := by
  have hsize := FrameCodec.headerSizeOf_le input
  have hlength : (input.take (FrameCodec.headerSizeOf input)).length
      = FrameCodec.headerSizeOf input := List.length_take_of_le h.headerSize_le
  have hfixed : wireHeaderSize ≤ FrameCodec.headerSizeOf input := h.header.header_ge
  obtain ⟨visits, hwalk⟩ := @walkExtensions_eq p (input.take (FrameCodec.headerSizeOf input))
    (by rwa [hlength]) (FrameCodec.extensionCountOf input) wireHeaderSize (by rwa [hlength])
  have hend : FrameCodec.walkExtensions p (input.take (FrameCodec.headerSizeOf input))
      (FrameCodec.extensionCountOf input) wireHeaderSize = .ok (FrameCodec.headerSizeOf input) :=
    h.walk
  rw [hend] at hwalk
  obtain ⟨hcopy, hbounds⟩ := copyExtensions_of_walk hsize h.headerSize_le hfixed hwalk
  exact ⟨visits, hwalk, hcopy, hbounds⟩

/-- **`decode_prefix` reads inside its input and does not wrap**, for any limits
and any bytes. -/
theorem decodePrefix_eq (L : Limits p) (input : List UInt8) :
    decodePrefix L input = some (FrameCodec.decodePrefix L input) := by
  unfold decodePrefix FrameCodec.decodePrefix
  apply Checked.bind_eq (probe_eq L input)
  cases hprobe : FrameCodec.probe L input with
  | error e => rfl
  | ok r =>
      apply Checked.guard_eq
      intro hready
      have hstate : r.state = .ready := not_not.1 hready
      have hL : L.Valid := valid_of_probe hprobe
      obtain ⟨hcomplete, rfl⟩ := (FrameCodec.probe_ready_iff hL).1 ⟨hprobe, hstate⟩
      obtain ⟨visits, -, hcopy, -⟩ := visits_of_complete hcomplete
      have h32 := hcomplete.length_ge
      have hframe := hcomplete.frame_le
      have hle : (Protocol.readU16 input 4).toNat ≤ FrameCodec.frameSizeOf input :=
        Nat.le_add_right _ _
      have hmax := L.maxFrameSize_le
      have hframeMax := hcomplete.header.frame_le
      have hsub : p.sub (FrameCodec.frameSizeOf input) (Protocol.readU16 input 4).toNat
          = FrameCodec.frameSizeOf input - (Protocol.readU16 input 4).toNat :=
        Platform.sub_eq (by omega) hle
      rw [FrameCodec.extensionCountOf] at hcopy
      simp only [FrameProbe.complete, hsub]
      apply Checked.bind_eq (readU16_eq (by omega) (by omega))
      apply Checked.bind_eq (readU16_eq (by omega) (by omega))
      apply Checked.bind_eq hcopy
      apply Checked.bind_eq (Checked.sub_eq hle)
      apply Checked.bind_eq (Checked.range_eq (by omega))
      apply Checked.bind_eq (readU16_eq (by omega) (by omega))
      apply Checked.bind_eq (readU16_eq (by omega) (by omega))
      apply Checked.bind_eq (readU32_eq (by omega) (by omega))
      apply Checked.bind_eq (readU64_eq (by omega) (by omega))
      apply Checked.bind_eq (readU16_eq (by omega) (by omega))
      rfl

end Sanitized

namespace FrameCodec

variable {p : Platform}

/-- **Decoding never reads out of bounds or underflows.**  For any limits and any
bytes the checked runs of `probe` and `decode_prefix` exist and agree with the
functions: every index is inside the input, every difference is exact and
`header_size + payload_size` does not wrap; and so does that of
`validate_extensions` on every header `probe` can pass to it.  Whenever `probe`
reports a ready frame, the copying loop of `decode_prefix` visits the TLV
positions and sizes the validating loop visited, inside the first `header_size`
bytes, and ends at `header_size`. -/
theorem decoding_in_bounds (L : Limits p) (input : List UInt8) :
    Sanitized.probe L input = some (probe L input) ∧
    Sanitized.decodePrefix L input = some (decodePrefix L input) ∧
    (∀ header : List UInt8, ∀ count, wireHeaderSize ≤ header.length → header.length ≤ 65535 →
      Sanitized.validateExtensions p header count = some (validateExtensions p header count)) ∧
    ∀ r, probe L input = .ok r → r.state = .ready →
      headerSizeOf input ≤ input.length ∧
      ∃ visits,
        Sanitized.walkExtensions p (input.take (headerSizeOf input)) (extensionCountOf input)
            wireHeaderSize = some (.ok (visits, headerSizeOf input)) ∧
        Sanitized.copyExtensions p input (extensionCountOf input) wireHeaderSize
          = some (visits, copyExtensions p input (extensionCountOf input) wireHeaderSize,
              headerSizeOf input) ∧
        ∀ visit ∈ visits, visit.1 + 4 + visit.2 ≤ headerSizeOf input := by
  refine ⟨Sanitized.probe_eq L input, Sanitized.decodePrefix_eq L input, ?_, ?_⟩
  · intro header count hfixed hlen
    exact Sanitized.validateExtensions_eq hlen hfixed count
  · intro r hprobe hready
    obtain ⟨hcomplete, -⟩ := (probe_ready_iff (Sanitized.valid_of_probe hprobe)).1 ⟨hprobe, hready⟩
    exact ⟨hcomplete.headerSize_le, Sanitized.visits_of_complete hcomplete⟩

end FrameCodec
end Protocol
end Vosp
