import MicroProtocol.Protocol.DecodeSanitized
import MicroProtocol.Protocol.StreamDecoder

/-!
# What a `StreamDecoder` keeps in memory

The decoder erases consumed bytes lazily, so its vector can hold more than what
is buffered.  How much more is bounded in every state a history of calls leads
to: `Tidy` is the invariant, proved with the refinement, and this file reads the
bounds off it.

The methods are also given once more under checked execution, on top of the
checked codec.  Their subtractions (`buffer_.size() - cursor_`, the room left
below the limit, the part `erase` moves to the front) are exact precisely because
of the invariant: `Tidy.push_eq`, `Tidy.next_eq` and `Tidy.compactConsumed_eq`.
-/

namespace Vosp
namespace Protocol

variable {p : Platform}

namespace Sanitized

open StreamDecoder (reset)

/-- `StreamDecoder::buffered_size`. -/
def bufferedSize (d : StreamDecoder p) : Option Nat := Checked.sub d.buffer.length d.cursor

/-- `StreamDecoder::compact_consumed`: what `erase` moves to the front are the
bytes from the cursor on. -/
def compactConsumed (d : StreamDecoder p) : Option (StreamDecoder p) := do
  let kept ← Checked.sub d.buffer.length d.cursor
  let buffer ← Checked.range d.buffer d.cursor kept
  some { d with buffer := buffer, cursor := 0 }

/-- `StreamDecoder::compact`. -/
def compact (d : StreamDecoder p) : Option (StreamDecoder p) :=
  if d.cursor = 0 then some d
  else if d.cursor = d.buffer.length then some d.reset
  else if d.cursor ≥ 4096 ∧ d.cursor ≥ d.buffer.length / 2 then compactConsumed d
  else some d

/-- The forced compaction of `push`. -/
def makeRoom (d : StreamDecoder p) (bytes : List UInt8) : Option (StreamDecoder p) := do
  let full ←
    Checked.both (d.cursor ≠ 0) <|
    Checked.either (d.buffer.length > d.limits.maxBufferedBytes) do
      let room ← Checked.sub d.limits.maxBufferedBytes
        (min d.limits.maxBufferedBytes d.buffer.length)
      some (decide (bytes.length > room))
  if full then compactConsumed d else some d

/-- `StreamDecoder::push`. -/
def push (d : StreamDecoder p) (bytes : List UInt8) : Option (Result Unit × StreamDecoder p) := do
  let valid ← valid d.limits
  if valid = false then
    some (failure .invalidArgument "protocol limits are inconsistent", d)
  else do
    let d ← compact d
    let d ← makeRoom d bytes
    let full ←
      Checked.either (d.buffer.length > d.limits.maxBufferedBytes) do
        let room ← Checked.sub d.limits.maxBufferedBytes d.buffer.length
        some (decide (bytes.length > room))
    if full then
      some (failure .limitExceeded "protocol stream buffer limit exceeded", d)
    else
      some (.ok (), { d with buffer := d.buffer ++ bytes })

/-- `StreamDecoder::next`. -/
def next (d : StreamDecoder p) : Option (Result (Option Message) × StreamDecoder p) := do
  let size ← bufferedSize d
  if size = 0 then some (.ok none, d)
  else do
    let available ← Checked.range d.buffer d.cursor size
    let inspected ← probe d.limits available
    match inspected with
    | .error e => some (.error e, d)
    | .ok inspected =>
        if inspected.state = .incomplete then some (.ok none, d)
        else do
          let decoded ← decodePrefix d.limits available
          match decoded with
          | .error e => some (.error e, d)
          | .ok decoded => do
              let cursor ← Checked.add p.sizeMax d.cursor decoded.consumed
              let d ← compact { d with cursor := cursor }
              some (.ok (some decoded.message), d)

end Sanitized

namespace StreamDecoder

theorem checked_compactConsumed {d : StreamDecoder p} (h : d.cursor ≤ d.buffer.length) :
    Sanitized.compactConsumed d = some d.compactConsumed := by
  unfold Sanitized.compactConsumed
  apply Checked.bind_eq (Checked.sub_eq h)
  apply Checked.bind_eq (Checked.range_eq (by omega))
  rw [List.take_of_length_le (by rw [List.length_drop])]
  rfl

theorem checked_compact {d : StreamDecoder p} (h : d.cursor ≤ d.buffer.length) :
    Sanitized.compact d = some d.compact := by
  unfold Sanitized.compact compact
  apply Checked.guard_eq
  intro _
  apply Checked.guard_eq
  intro _
  exact Checked.ite_eq (fun _ => checked_compactConsumed h) fun _ => rfl

theorem checked_makeRoom {d : StreamDecoder p} (h : d.cursor ≤ d.buffer.length)
    (bytes : List UInt8) : Sanitized.makeRoom d bytes = some (d.makeRoom bytes) := by
  have hle : min d.limits.maxBufferedBytes d.buffer.length ≤ d.limits.maxBufferedBytes :=
    Nat.min_le_left _ _
  unfold Sanitized.makeRoom makeRoom
  rw [Platform.sub_eq d.limits.maxBufferedBytes_le hle]
  apply Checked.bind_eq (v := decide (d.cursor ≠ 0) &&
      decide (d.buffer.length > d.limits.maxBufferedBytes ∨ bytes.length >
        d.limits.maxBufferedBytes - min d.limits.maxBufferedBytes d.buffer.length))
  · apply Checked.both_eq
    intro _
    apply Checked.either_eq
    intro _
    exact Checked.bind_eq (Checked.sub_eq hle) rfl
  simp only [← Bool.decide_and, decide_eq_true_eq]
  exact Checked.ite_eq (fun _ => checked_compactConsumed h) fun _ => rfl

/-- Every subtraction of `push` is exact. -/
theorem Tidy.push_eq {d : StreamDecoder p} (h : d.Tidy) (bytes : List UInt8) :
    Sanitized.push d bytes = some (d.push bytes) := by
  have hcompact := erased_compact h.cursor_le
  obtain ⟨hroom, -⟩ := erased_makeRoom h bytes
  have hlen := hroom.length_le.trans h.length_le
  rw [← hroom.limits_eq] at hlen
  unfold Sanitized.push push
  apply Checked.bind_eq (Sanitized.valid_eq d.limits)
  apply Checked.guard_eq
  intro _
  apply Checked.bind_eq (checked_compact h.cursor_le)
  apply Checked.bind_eq (checked_makeRoom hcompact.cursor_le bytes)
  dsimp only
  rw [Platform.sub_eq (Limits.maxBufferedBytes_le _) hlen]
  apply Checked.bind_eq (v := decide ((d.compact.makeRoom bytes).buffer.length
        > (d.compact.makeRoom bytes).limits.maxBufferedBytes ∨
      bytes.length > (d.compact.makeRoom bytes).limits.maxBufferedBytes
        - (d.compact.makeRoom bytes).buffer.length))
  · apply Checked.either_eq
    intro _
    exact Checked.bind_eq (Checked.sub_eq hlen) rfl
  exact Checked.guard_decide_eq fun _ => rfl

/-- Every subtraction of `next` is exact, and its cursor does not wrap. -/
theorem Tidy.next_eq {d : StreamDecoder p} (h : d.Tidy) :
    Sanitized.next d = some d.next := by
  have hsize : Sanitized.bufferedSize d = some d.bufferedSize := by
    rw [Sanitized.bufferedSize, Checked.sub_eq h.cursor_le, h.bufferedSize_eq, length_unread]
  have hcursor := h.cursor_le
  have hrange : Checked.range d.buffer d.cursor d.bufferedSize = some d.available := by
    rw [available]
    refine Checked.range_eq ?_
    rw [h.bufferedSize_eq, length_unread]
    omega
  unfold Sanitized.next next
  apply Checked.bind_eq hsize
  apply Checked.guard_eq
  intro _
  apply Checked.bind_eq hrange
  apply Checked.bind_eq (Sanitized.probe_eq _ _)
  cases hprobe : FrameCodec.probe d.limits d.available with
  | error e => rfl
  | ok r =>
      apply Checked.guard_eq
      intro _
      apply Checked.bind_eq (Sanitized.decodePrefix_eq _ _)
      cases hdecode : FrameCodec.decodePrefix d.limits d.available with
      | error e => rfl
      | ok decoded =>
          -- the frame that was decoded lies within the unread bytes
          have hL := Sanitized.valid_of_probe hprobe
          obtain ⟨hcomplete, rfl⟩ := (FrameCodec.decodePrefix_eq_ok_iff hL).1 hdecode
          have hconsumed := hcomplete.frame_le
          rw [h.available_eq, length_unread, ← h.available_eq] at hconsumed
          have hmax := h.length_le.trans d.limits.maxBufferedBytes_le
          have hadd : d.cursor + FrameCodec.frameSizeOf d.available ≤ p.sizeMax := by omega
          dsimp only
          rw [Platform.add_eq hadd]
          apply Checked.bind_eq (Checked.add_eq hadd)
          exact Checked.bind_eq (checked_compact (by dsimp only; omega)) rfl

/-- **The memory of a stream decoder.**  After any history of calls the cursor is
zero or inside the vector, the vector is within `max_buffered_bytes`, and the
consumed bytes it still holds are fewer than 4096 or fewer than half of it, so
never more than the greater of 4095 and what is buffered.  Every subtraction of
`push`, `next`, `buffered_size` and `compact_consumed` is exact. -/
theorem memory_bounded (L : Limits p) (calls : List Call) :
    let d := (machine L).exec (machine L).init calls
    (d.cursor = 0 ∨ d.cursor < d.buffer.length) ∧
    d.buffer.length ≤ L.maxBufferedBytes ∧
    (d.cursor = 0 ∨ d.cursor < 4096 ∨ d.cursor < d.buffer.length / 2) ∧
    d.cursor ≤ max 4095 d.bufferedSize ∧
    Sanitized.bufferedSize d = some d.bufferedSize ∧
    Sanitized.compactConsumed d = some d.compactConsumed ∧
    (∀ bytes, Sanitized.push d bytes = some (d.push bytes)) ∧
    Sanitized.next d = some d.next := by
  intro d
  obtain ⟨hlimits, htidy⟩ := tidy_of_reachable ((machine L).reachable_exec calls)
  change d.limits = L at hlimits
  change d.Tidy at htidy
  have hcursor := htidy.cursor_le
  have hconsumed := htidy.consumed_lt
  refine ⟨htidy.cursor_lt, ?_, .inr hconsumed, ?_, ?_, checked_compactConsumed hcursor,
    htidy.push_eq, htidy.next_eq⟩
  · rw [← hlimits]
    exact htidy.length_le
  · rw [htidy.bufferedSize_eq, length_unread]
    rcases hconsumed with hfew | hhalf
    · exact le_max_of_le_left (by omega)
    · exact le_max_of_le_right (by omega)
  · rw [Sanitized.bufferedSize, Checked.sub_eq hcursor, htidy.bufferedSize_eq, length_unread]

end StreamDecoder
end Protocol
end Vosp
