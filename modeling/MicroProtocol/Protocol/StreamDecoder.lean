import MicroProtocol.Lib.Machine
import MicroProtocol.Protocol.FrameRoundTrip

/-!
# `StreamDecoder`: a lazily compacted buffer is a bounded byte queue

The incremental decoder keeps every byte it was given in one vector and reads
from a cursor; consumed bytes are erased at three different places, each under
its own condition.  None of that can be observed.

* `StreamDecoder` with `push`, `next`, `reset` — `stream_decoder.hpp`, statement
  by statement, in wrapping `size_t` arithmetic.
* `Tidy` — the invariant of the vector and the cursor: what is buffered stays
  below the limit, and the consumed part below 4096 bytes or half the vector.
* `ByteQueue` — what the decoder is for: a queue of unread bytes with a bound.
* `refines` — the decoder refines the queue for every `Limits`, valid or not;
  `refines_byteQueue` spells this out for every history of calls.
-/

namespace Vosp
namespace Protocol

open FrameCodec

variable {p : Platform}

/-! ## The model -/

/-- `StreamDecoder`; its `codec_` has no state but the same limits. -/
structure StreamDecoder (p : Platform) where
  limits : Limits p
  buffer : List UInt8 := []
  cursor : Nat := 0

namespace StreamDecoder

/-- `StreamDecoder::buffered_size`. -/
def bufferedSize (d : StreamDecoder p) : Nat := p.sub d.buffer.length d.cursor

/-- `StreamDecoder::reset`. -/
def reset (d : StreamDecoder p) : StreamDecoder p := { d with buffer := [], cursor := 0 }

/-- `StreamDecoder::compact_consumed`: erase the bytes before the cursor. -/
def compactConsumed (d : StreamDecoder p) : StreamDecoder p :=
  { d with buffer := d.buffer.drop d.cursor, cursor := 0 }

/-- `StreamDecoder::compact`. -/
def compact (d : StreamDecoder p) : StreamDecoder p :=
  if d.cursor = 0 then d
  else if d.cursor = d.buffer.length then d.reset
  else if d.cursor ≥ 4096 ∧ d.cursor ≥ d.buffer.length / 2 then d.compactConsumed
  else d

/-- The second, forced compaction of `push`, made when `bytes` would not fit
behind what the vector still holds. -/
def makeRoom (d : StreamDecoder p) (bytes : List UInt8) : StreamDecoder p :=
  if d.cursor ≠ 0 ∧ (d.buffer.length > d.limits.maxBufferedBytes ∨
      bytes.length > p.sub d.limits.maxBufferedBytes
        (min d.limits.maxBufferedBytes d.buffer.length)) then
    d.compactConsumed
  else d

/-- `StreamDecoder::push`. -/
def push (d : StreamDecoder p) (bytes : List UInt8) : Result Unit × StreamDecoder p :=
  if d.limits.valid = false then
    (failure .invalidArgument "protocol limits are inconsistent", d)
  else
    let d := d.compact.makeRoom bytes
    if d.buffer.length > d.limits.maxBufferedBytes ∨
        bytes.length > p.sub d.limits.maxBufferedBytes d.buffer.length then
      (failure .limitExceeded "protocol stream buffer limit exceeded", d)
    else
      (.ok (), { d with buffer := d.buffer ++ bytes })

/-- The span `available` of `next`. -/
def available (d : StreamDecoder p) : List UInt8 := (d.buffer.drop d.cursor).take d.bufferedSize

/-- `StreamDecoder::next`. -/
def next (d : StreamDecoder p) : Result (Option Message) × StreamDecoder p :=
  if d.bufferedSize = 0 then (.ok none, d)
  else
    match probe d.limits d.available with
    | .error e => (.error e, d)
    | .ok inspected =>
        if inspected.state = .incomplete then (.ok none, d)
        else
          match decodePrefix d.limits d.available with
          | .error e => (.error e, d)
          | .ok decoded =>
              (.ok (some decoded.message),
                { d with cursor := p.add d.cursor decoded.consumed }.compact)

/-- A call of a method that changes the decoder. -/
inductive Call where
  | push (bytes : List UInt8)
  | next
  | reset
  deriving DecidableEq, Repr

/-- What a call returned. -/
inductive Answer where
  | pushed (result : Result Unit)
  | returned (result : Result (Option Message))
  | done

/-- One call. -/
def step (d : StreamDecoder p) : Call → Answer × StreamDecoder p
  | .push bytes => (.pushed (d.push bytes).1, (d.push bytes).2)
  | .next => (.returned d.next.1, d.next.2)
  | .reset => (.done, d.reset)

/-- A decoder as constructed, and its calls. -/
def machine (L : Limits p) : Machine (StreamDecoder p) Call Answer where
  init := { limits := L }
  step := step

@[simp] theorem machine_init (L : Limits p) : (machine L).init = { limits := L } := rfl

@[simp] theorem machine_step (L : Limits p) (d : StreamDecoder p) (call : Call) :
    (machine L).step d call = d.step call := rfl

end StreamDecoder

/-! ## The abstract queue -/

namespace ByteQueue

open StreamDecoder (Call Answer)

variable (L : Limits p)

/-- Append `bytes` if the limits allow it. -/
def push (q bytes : List UInt8) : Result Unit × List UInt8 :=
  if L.valid = false then
    (failure .invalidArgument "protocol limits are inconsistent", q)
  else if q.length + bytes.length ≤ L.maxBufferedBytes then
    (.ok (), q ++ bytes)
  else
    (failure .limitExceeded "protocol stream buffer limit exceeded", q)

/-- Take the frame at the front off the queue, if there is one. -/
def next (q : List UInt8) : Result (Option Message) × List UInt8 :=
  if q = [] then (.ok none, q)
  else
    match decodePrefix L q with
    | .ok decoded => (.ok (some decoded.message), q.drop decoded.consumed)
    | .error _ =>
        match probe L q with
        | .error e => (.error e, q)
        | .ok _ => (.ok none, q)

/-- One call. -/
def step (q : List UInt8) : Call → Answer × List UInt8
  | .push bytes => (.pushed (push L q bytes).1, (push L q bytes).2)
  | .next => (.returned (next L q).1, (next L q).2)
  | .reset => (.done, [])

/-- The queue of unread bytes as a machine with the decoder's calls. -/
def machine : Machine (List UInt8) Call Answer where
  init := []
  step := step L

@[simp] theorem machine_step (q : List UInt8) (call : Call) :
    (machine L).step q call = step L q call := rfl

/-- The three outcomes of a push. -/
theorem push_cases (q bytes : List UInt8) :
    (L.valid = false ∧ push L q bytes =
      (failure .invalidArgument "protocol limits are inconsistent", q)) ∨
    (L.valid = true ∧ q.length + bytes.length ≤ L.maxBufferedBytes ∧
      push L q bytes = (.ok (), q ++ bytes)) ∨
    (L.valid = true ∧ ¬ q.length + bytes.length ≤ L.maxBufferedBytes ∧ push L q bytes =
      (failure .limitExceeded "protocol stream buffer limit exceeded", q)) := by
  unfold push
  by_cases hinvalid : L.valid = false
  · exact Or.inl ⟨hinvalid, if_pos hinvalid⟩
  have hvalid : L.valid = true := by simpa using hinvalid
  rw [if_neg hinvalid]
  by_cases hspace : q.length + bytes.length ≤ L.maxBufferedBytes
  · exact Or.inr (Or.inl ⟨hvalid, hspace, if_pos hspace⟩)
  · exact Or.inr (Or.inr ⟨hvalid, hspace, if_neg hspace⟩)

theorem push_ok_iff (q bytes : List UInt8) :
    (push L q bytes).1 = .ok () ↔
      L.valid = true ∧ q.length + bytes.length ≤ L.maxBufferedBytes := by
  rcases push_cases L q bytes with
    ⟨hinvalid, hpush⟩ | ⟨hvalid, hspace, hpush⟩ | ⟨hvalid, hspace, hpush⟩
  · simp [hpush, hinvalid, failure]
  · simp [hpush, hvalid, hspace]
  · simp [hpush, hspace, failure]

/-- An accepted push appends. -/
theorem push_of_ok {q bytes : List UInt8} (h : (push L q bytes).1 = .ok ()) :
    (push L q bytes).2 = q ++ bytes := by
  obtain ⟨hvalid, hspace⟩ := (push_ok_iff L q bytes).1 h
  unfold push
  rw [if_neg (by simp [hvalid]), if_pos hspace]

/-- A refused push changes nothing, and its error is one of two. -/
theorem push_of_error {q bytes : List UInt8} {e : Error} (h : (push L q bytes).1 = .error e) :
    (push L q bytes).2 = q ∧ e.code = if L.valid then .limitExceeded else .invalidArgument := by
  rcases push_cases L q bytes with ⟨hinvalid, hpush⟩ | ⟨-, -, hpush⟩ | ⟨hvalid, -, hpush⟩
  · rw [hpush] at h ⊢
    cases h
    simp [hinvalid]
  · rw [hpush] at h
    cases h
  · rw [hpush] at h ⊢
    cases h
    simp [hvalid]

/-- What `next()` makes of a verdict on the queue. -/
def ofVerdict (q : List UInt8) :
    Framing.Verdict Message Error → Result (Option Message) × List UInt8
  | .refused e => (.error e, q)
  | .needs _ => (.ok none, q)
  | .ready n m => (.ok (some m), q.drop n)

/-- Under valid limits the codec's verdict on the queue decides what `next()`
does; the empty queue is no special case. -/
theorem next_eq {L : Limits p} (hL : L.Valid) (q : List UInt8) :
    next L q = ofVerdict q (verdict L q) := by
  unfold next
  by_cases hempty : q = []
  · obtain ⟨r, hr⟩ := (framer L hL).nil_needs
    rw [if_pos hempty, hempty, ← framer_inspect L hL, hr]
    rfl
  rw [if_neg hempty, verdict]
  cases hprobe : probe L q with
  | error e =>
      rw [decodePrefix_of_error hprobe]
      rfl
  | ok r => cases decodePrefix L q <;> rfl

section NextAnswers

variable {L} (hL : L.Valid) {q : List UInt8}

include hL

/-- `next()` has nothing to return exactly when the codec waits. -/
theorem next_none_iff : (next L q).1 = .ok none ↔ ∃ n, verdict L q = .needs n := by
  rw [next_eq hL]
  cases verdict L q with
  | refused e => simp [ofVerdict]
  | needs n => simp [ofVerdict]
  | ready n m => simp [ofVerdict]

theorem next_error_iff {e : Error} : (next L q).1 = .error e ↔ verdict L q = .refused e := by
  rw [next_eq hL]
  cases verdict L q with
  | refused e' => simp [ofVerdict]
  | needs n => simp [ofVerdict]
  | ready n m => simp [ofVerdict]

theorem next_some {m : Message} (h : (next L q).1 = .ok (some m)) :
    ∃ n, verdict L q = .ready n m ∧ (next L q).2 = q.drop n := by
  rw [next_eq hL] at h ⊢
  cases hverdict : verdict L q with
  | refused e =>
      rw [hverdict] at h
      cases h
  | needs n =>
      rw [hverdict] at h
      cases h
  | ready n m' =>
      rw [hverdict] at h
      cases h
      exact ⟨n, rfl, rfl⟩

end NextAnswers

end ByteQueue

namespace StreamDecoder

/-! ## The invariant of the vector -/

/-- The bytes that have not been consumed: `buffer_` from `cursor_` on. -/
def unread (d : StreamDecoder p) : List UInt8 := d.buffer.drop d.cursor

/-- The invariant of the vector and its cursor between calls. -/
structure Tidy (d : StreamDecoder p) : Prop where
  /-- The cursor is never left at the end of the vector. -/
  cursor_lt : d.cursor = 0 ∨ d.cursor < d.buffer.length
  length_le : d.buffer.length ≤ d.limits.maxBufferedBytes
  /-- Consumed bytes are erased once they are many and most of the vector. -/
  consumed_lt : d.cursor < 4096 ∨ d.cursor < d.buffer.length / 2
  /-- Nothing is ever stored under invalid limits. -/
  valid_of_nonempty : d.buffer ≠ [] → d.limits.Valid

theorem Tidy.cursor_le {d : StreamDecoder p} (h : d.Tidy) : d.cursor ≤ d.buffer.length := by
  rcases h.cursor_lt with h0 | hlt <;> omega

theorem length_unread (d : StreamDecoder p) :
    d.unread.length = d.buffer.length - d.cursor := List.length_drop

theorem Tidy.bufferedSize_eq {d : StreamDecoder p} (h : d.Tidy) :
    d.bufferedSize = d.unread.length := by
  rw [bufferedSize, length_unread]
  exact Platform.sub_eq (h.length_le.trans d.limits.maxBufferedBytes_le) h.cursor_le

theorem Tidy.valid_of_unread {d : StreamDecoder p} (h : d.Tidy) (hne : d.unread ≠ []) :
    d.limits.Valid := by
  refine h.valid_of_nonempty fun hnil => hne ?_
  rw [unread, hnil, List.drop_nil]

theorem Tidy.available_eq {d : StreamDecoder p} (h : d.Tidy) : d.available = d.unread := by
  rw [available, h.bufferedSize_eq]
  exact List.take_length

/-- `d'` is `d` after some erasing of consumed bytes. -/
structure Erased (d d' : StreamDecoder p) : Prop where
  limits_eq : d'.limits = d.limits
  unread_eq : d'.unread = d.unread
  length_le : d'.buffer.length ≤ d.buffer.length
  cursor_lt : d'.cursor = 0 ∨ d'.cursor < d'.buffer.length
  consumed_lt : d'.cursor < 4096 ∨ d'.cursor < d'.buffer.length / 2

theorem erased_compactConsumed (d : StreamDecoder p) : Erased d d.compactConsumed where
  limits_eq := rfl
  unread_eq := rfl
  length_le := by simp [compactConsumed]
  cursor_lt := Or.inl rfl
  consumed_lt := Or.inl (by simp [compactConsumed])

/-- Whichever branch `compact` takes, only consumed bytes go. -/
theorem erased_compact {d : StreamDecoder p} (h : d.cursor ≤ d.buffer.length) :
    Erased d d.compact := by
  unfold compact
  by_cases hzero : d.cursor = 0
  · rw [if_pos hzero]
    exact ⟨rfl, rfl, le_rfl, Or.inl hzero, Or.inl (by omega)⟩
  rw [if_neg hzero]
  by_cases hall : d.cursor = d.buffer.length
  · rw [if_pos hall]
    refine ⟨rfl, ?_, Nat.zero_le _, Or.inl rfl, Or.inl (by simp [reset])⟩
    simp [unread, reset, hall]
  rw [if_neg hall]
  by_cases hmany : d.cursor ≥ 4096 ∧ d.cursor ≥ d.buffer.length / 2
  · rw [if_pos hmany]
    exact erased_compactConsumed d
  · rw [if_neg hmany]
    exact ⟨rfl, rfl, le_rfl, Or.inr (by omega), by omega⟩

theorem Erased.trans {d d' d'' : StreamDecoder p} (h : Erased d d') (h' : Erased d' d'') :
    Erased d d'' :=
  ⟨h'.limits_eq.trans h.limits_eq, h'.unread_eq.trans h.unread_eq, h'.length_le.trans h.length_le,
    h'.cursor_lt, h'.consumed_lt⟩

theorem Erased.cursor_le {d d' : StreamDecoder p} (h : Erased d d') :
    d'.cursor ≤ d'.buffer.length := by
  rcases h.cursor_lt with h0 | hlt <;> omega

/-- The two compactions of `push`.  Unless everything consumed was erased, the
new bytes fit behind what the vector still holds. -/
theorem erased_makeRoom {d : StreamDecoder p} (h : d.Tidy) (bytes : List UInt8) :
    Erased d (d.compact.makeRoom bytes) ∧
      ((d.compact.makeRoom bytes).cursor = 0 ∨
        (d.compact.makeRoom bytes).buffer.length + bytes.length ≤ d.limits.maxBufferedBytes) := by
  have herased := erased_compact h.cursor_le
  have hlen : d.compact.buffer.length ≤ d.limits.maxBufferedBytes :=
    herased.length_le.trans h.length_le
  have hroom : p.sub d.limits.maxBufferedBytes
      (min d.limits.maxBufferedBytes d.compact.buffer.length)
      = d.limits.maxBufferedBytes - d.compact.buffer.length := by
    rw [Nat.min_eq_right hlen]
    exact Platform.sub_eq d.limits.maxBufferedBytes_le hlen
  unfold makeRoom
  rw [herased.limits_eq, hroom]
  by_cases hforce : d.compact.cursor ≠ 0 ∧ (d.compact.buffer.length > d.limits.maxBufferedBytes ∨
      bytes.length > d.limits.maxBufferedBytes - d.compact.buffer.length)
  · rw [if_pos hforce]
    exact ⟨herased.trans (erased_compactConsumed _), Or.inl rfl⟩
  · rw [if_neg hforce]
    refine ⟨herased, ?_⟩
    by_cases hzero : d.compact.cursor = 0
    · exact Or.inl hzero
    · exact Or.inr (by omega)

/-! ## One call -/

/-- The space test of `push`, made on the vector, is a test of the queue. -/
theorem push_full_iff {d : StreamDecoder p} (h : d.Tidy) (bytes : List UInt8) :
    ((d.compact.makeRoom bytes).buffer.length >
        (d.compact.makeRoom bytes).limits.maxBufferedBytes ∨
      bytes.length > p.sub (d.compact.makeRoom bytes).limits.maxBufferedBytes
        (d.compact.makeRoom bytes).buffer.length) ↔
      ¬ d.unread.length + bytes.length ≤ d.limits.maxBufferedBytes := by
  obtain ⟨herased, hroom⟩ := erased_makeRoom h bytes
  have hlen := herased.length_le.trans h.length_le
  have hunread := congrArg List.length herased.unread_eq
  rw [length_unread] at hunread
  rw [herased.limits_eq, Platform.sub_eq d.limits.maxBufferedBytes_le hlen, ← hunread]
  rcases hroom with hzero | hfits <;> omega

theorem tidy_init (L : Limits p) : Tidy ({ limits := L } : StreamDecoder p) :=
  ⟨Or.inl rfl, Nat.zero_le _, Or.inl (by simp), fun h => absurd rfl h⟩

theorem tidy_reset (d : StreamDecoder p) : d.reset.Tidy := tidy_init d.limits

theorem tidy_of_erased {d d' : StreamDecoder p} (h : Erased d d')
    (hlen : d.buffer.length ≤ d.limits.maxBufferedBytes) (hL : d.limits.Valid) : d'.Tidy := by
  refine ⟨h.cursor_lt, ?_, h.consumed_lt, fun _ => ?_⟩
  · rw [h.limits_eq]
    exact h.length_le.trans hlen
  · rw [h.limits_eq]
    exact hL

theorem Tidy.append {d : StreamDecoder p} (h : d.Tidy) (hL : d.limits.Valid) {bytes : List UInt8}
    (hfits : d.buffer.length + bytes.length ≤ d.limits.maxBufferedBytes) :
    Tidy { d with buffer := d.buffer ++ bytes } := by
  have hlt := h.cursor_lt
  have hhalf := h.consumed_lt
  refine ⟨?_, ?_, ?_, fun _ => hL⟩
  · simp only [List.length_append]
    omega
  · rwa [List.length_append]
  · simp only [List.length_append]
    omega

/-- What the abstract queue answers to a push, the decoder answers. -/
theorem push_spec {d : StreamDecoder p} (h : d.Tidy) (bytes : List UInt8) :
    (d.push bytes).1 = (ByteQueue.push d.limits d.unread bytes).1 ∧
      (d.push bytes).2.unread = (ByteQueue.push d.limits d.unread bytes).2 ∧
      (d.push bytes).2.limits = d.limits ∧ (d.push bytes).2.Tidy := by
  unfold push ByteQueue.push
  by_cases hinvalid : d.limits.valid = false
  · rw [if_pos hinvalid, if_pos hinvalid]
    exact ⟨rfl, rfl, rfl, h⟩
  rw [if_neg hinvalid, if_neg hinvalid]
  have hL : d.limits.Valid := (Limits.valid_iff _).1 (by simpa using hinvalid)
  obtain ⟨herased, -⟩ := erased_makeRoom h bytes
  have htidy := tidy_of_erased herased h.length_le hL
  have hfull := push_full_iff h bytes
  by_cases hspace : d.unread.length + bytes.length ≤ d.limits.maxBufferedBytes
  · have hnot := mt hfull.1 (not_not.2 hspace)
    simp only [if_neg hnot, if_pos hspace]
    refine ⟨trivial, ?_, herased.limits_eq, ?_⟩
    · unfold unread
      rw [List.drop_append_of_le_length herased.cursor_le]
      exact congrArg (· ++ bytes) herased.unread_eq
    · rw [Platform.sub_eq (Limits.maxBufferedBytes_le _) htidy.length_le] at hnot
      refine htidy.append ?_ (by omega)
      rw [herased.limits_eq]
      exact hL
  · simp only [if_pos (hfull.2 hspace), if_neg hspace]
    exact ⟨trivial, herased.unread_eq, herased.limits_eq, htidy⟩

/-- What the abstract queue answers to `next()`, the decoder answers. -/
theorem next_spec {d : StreamDecoder p} (h : d.Tidy) :
    d.next.1 = (ByteQueue.next d.limits d.unread).1 ∧
      d.next.2.unread = (ByteQueue.next d.limits d.unread).2 ∧
      d.next.2.limits = d.limits ∧ d.next.2.Tidy := by
  unfold next ByteQueue.next
  rw [h.available_eq, h.bufferedSize_eq]
  by_cases hempty : d.unread = []
  · rw [if_pos (by rw [hempty]; rfl), if_pos hempty]
    exact ⟨rfl, rfl, rfl, h⟩
  rw [if_neg (by simpa using hempty), if_neg hempty]
  have hL : d.limits.Valid := h.valid_of_unread hempty
  cases hprobe : probe d.limits d.unread with
  | error e =>
      rw [decodePrefix_of_error hprobe]
      exact ⟨rfl, rfl, rfl, h⟩
  | ok r =>
      cases hstate : r.state with
      | incomplete =>
          rw [decodePrefix_of_incomplete hprobe hstate]
          simp only [hstate, if_true]
          exact ⟨rfl, rfl, trivial, h⟩
      | ready =>
          obtain ⟨hcomplete, rfl⟩ := (probe_ready_iff hL).1 ⟨hprobe, hstate⟩
          have hconsumed := hcomplete.frame_le
          have hlen := h.length_le
          have hmax := d.limits.maxBufferedBytes_le
          have hcursor := h.cursor_le
          rw [length_unread] at hconsumed
          rw [decodePrefix_of_complete hL hcomplete]
          simp only [FrameProbe.complete, reduceCtorEq, if_false]
          rw [Platform.add_eq (by omega)]
          have herased := erased_compact
            (d := { d with cursor := d.cursor + frameSizeOf d.unread }) (by simp only; omega)
          refine ⟨trivial, ?_, herased.limits_eq, tidy_of_erased herased hlen hL⟩
          rw [herased.unread_eq, unread, unread, List.drop_drop]

/-! ## Whole histories -/

/-- **Refinement.**  The decoder refines the bounded byte queue; the abstraction
forgets everything but the unread bytes. -/
theorem refines (L : Limits p) :
    Machine.Refines (machine L) (ByteQueue.machine L) (fun d => d.limits = L ∧ d.Tidy) unread where
  init_inv := ⟨rfl, tidy_init L⟩
  init_abs := rfl
  step_inv := by
    rintro d call ⟨rfl, h⟩
    cases call with
    | push bytes => exact (push_spec h bytes).2.2
    | next => exact (next_spec h).2.2
    | reset => exact ⟨rfl, tidy_reset d⟩
  step_out := by
    rintro d call ⟨rfl, h⟩
    cases call with
    | push bytes => exact congrArg Answer.pushed (push_spec h bytes).1
    | next => exact congrArg Answer.returned (next_spec h).1
    | reset => rfl
  step_abs := by
    rintro d call ⟨rfl, h⟩
    cases call with
    | push bytes => exact (push_spec h bytes).2.1
    | next => exact (next_spec h).2.1
    | reset => rfl

/-- Every reachable decoder keeps its limits and the invariant of its vector. -/
theorem tidy_of_reachable {L : Limits p} {d : StreamDecoder p} (h : (machine L).Reachable d) :
    d.limits = L ∧ d.Tidy := (refines L).inv_of_reachable h

/-- What a caller of the decoder `d` can rely on, in terms of its unread bytes. -/
structure ActsAsQueue (L : Limits p) (d : StreamDecoder p) : Prop where
  bufferedSize_eq : d.bufferedSize = d.unread.length
  push_ok_iff : ∀ bytes, (d.push bytes).1 = .ok () ↔
    L.valid = true ∧ d.unread.length + bytes.length ≤ L.maxBufferedBytes
  unread_of_push : ∀ bytes, (d.push bytes).1 = .ok () → (d.push bytes).2.unread = d.unread ++ bytes
  push_error : ∀ bytes e, (d.push bytes).1 = .error e →
    (d.push bytes).2.unread = d.unread ∧
      e.code = if L.valid then .limitExceeded else .invalidArgument
  next_empty : d.unread = [] → d.next.1 = .ok none ∧ d.next.2.unread = []
  /-- A decodable front is returned, and exactly its bytes are dropped. -/
  next_decoded : d.unread ≠ [] → ∀ m n, decodePrefix L d.unread = .ok ⟨m, n⟩ →
    d.next.1 = .ok (some m) ∧ d.next.2.unread = d.unread.drop n
  next_incomplete : d.unread ≠ [] → ∀ r, probe L d.unread = .ok r → r.state = .incomplete →
    d.next.1 = .ok none ∧ d.next.2.unread = d.unread
  next_refused : d.unread ≠ [] → ∀ e, probe L d.unread = .error e →
    d.next.1 = .error e ∧ d.next.2.unread = d.unread
  /-- The span `next()` inspects is the queue, and it never fails to decode a
  frame that it found complete. -/
  decode_of_ready : d.available = d.unread ∧ (d.unread ≠ [] → ∀ r, probe L d.available = .ok r →
    r.state = .ready → ∃ m, decodePrefix L d.available = .ok ⟨m, r.frameSize⟩)
  unread_reset : d.reset.unread = []

theorem actsAsQueue_of_tidy {d : StreamDecoder p} (h : d.Tidy) : ActsAsQueue d.limits d := by
  have hpush := push_spec h
  have hnext := next_spec h
  refine ⟨h.bufferedSize_eq, ?_, ?_, ?_, ?_, ?_, ?_, ?_, ⟨h.available_eq, ?_⟩, List.drop_nil⟩
  · intro bytes
    rw [(hpush bytes).1]
    exact ByteQueue.push_ok_iff _ _ _
  · intro bytes hok
    rw [(hpush bytes).1] at hok
    rw [(hpush bytes).2.1]
    exact ByteQueue.push_of_ok _ hok
  · intro bytes e herror
    rw [(hpush bytes).1] at herror
    rw [(hpush bytes).2.1]
    exact ByteQueue.push_of_error _ herror
  · intro hempty
    rw [hnext.1, hnext.2.1, ByteQueue.next, if_pos hempty]
    exact ⟨rfl, hempty⟩
  · intro hne m n hdecode
    rw [hnext.1, hnext.2.1, ByteQueue.next, if_neg hne, hdecode]
    exact ⟨rfl, rfl⟩
  · intro hne r hprobe hstate
    rw [hnext.1, hnext.2.1, ByteQueue.next, if_neg hne, decodePrefix_of_incomplete hprobe hstate,
      hprobe]
    exact ⟨rfl, rfl⟩
  · intro hne e hprobe
    rw [hnext.1, hnext.2.1, ByteQueue.next, if_neg hne, decodePrefix_of_error hprobe, hprobe]
    exact ⟨rfl, rfl⟩
  · intro hne r hprobe hstate
    have hL := h.valid_of_unread hne
    rw [h.available_eq] at hprobe ⊢
    obtain ⟨hcomplete, rfl⟩ := (probe_ready_iff hL).1 ⟨hprobe, hstate⟩
    exact ⟨_, decodePrefix_of_complete hL hcomplete⟩

/-- **The decoder is a bounded byte queue.**  For all limits and every history of
calls: the answers are those of the queue, the unread bytes are its contents, and
the next call of any kind will again do what the queue does. -/
theorem refines_byteQueue (L : Limits p) (calls : List Call) :
    (machine L).outs (machine L).init calls =
        (ByteQueue.machine L).outs (ByteQueue.machine L).init calls ∧
      ((machine L).exec (machine L).init calls).unread =
        (ByteQueue.machine L).exec (ByteQueue.machine L).init calls ∧
      ActsAsQueue L ((machine L).exec (machine L).init calls) := by
  refine ⟨(refines L).outs_eq calls, (refines L).exec_eq calls, ?_⟩
  obtain ⟨hlimits, htidy⟩ := tidy_of_reachable ((machine L).reachable_exec calls)
  have hqueue := actsAsQueue_of_tidy htidy
  rwa [hlimits] at hqueue

end StreamDecoder

end Protocol
end Vosp
