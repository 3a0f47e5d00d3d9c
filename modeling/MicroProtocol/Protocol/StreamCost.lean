import MicroProtocol.Protocol.StreamSafety

/-!
# What the lazy compaction of a `StreamDecoder` costs

Consumed bytes are not erased at once, because `erase` moves all bytes behind them to the
front.  `compact` waits until at least half of the vector is consumed, and `push` forces
a compaction only when it needs the room.  Here the methods are run once more with a
meter that counts the bytes `erase` moves.

* `Metered.push`, `Metered.next` — the methods with the meter; `push_fst` and `next_fst` say
  that it changes nothing else.
* `moved` — the bytes moved along a history of calls.
* `potential` — what a decoder whose caller drains it has saved up for its compactions.
* `compaction_amortised` — a caller that pushes only when `next()` has nothing to return
  pays for each byte at most twice.

For an arbitrary caller the potential is twice the length of the vector: an accepted byte
adds two, and a compaction that is worth its while takes off more than it moves.  A push that
forces one need not be worth its while.  If the caller drains, then the bytes that it moves
are the beginning of a frame, which will not be moved again before the frame is complete; so
nothing has to be saved up for them.
-/

namespace Vosp
namespace Protocol
namespace StreamDecoder

open FrameCodec

variable {p : Platform}

namespace Metered

/-- `StreamDecoder::compact_consumed`, and the bytes that `erase` moves. -/
def compactConsumed (d : StreamDecoder p) : StreamDecoder p × Nat :=
  (d.compactConsumed, d.buffer.length - d.cursor)

/-- `StreamDecoder::compact`. -/
def compact (d : StreamDecoder p) : StreamDecoder p × Nat :=
  if d.cursor = 0 then (d, 0)
  else if d.cursor = d.buffer.length then (d.reset, 0)
  else if d.cursor ≥ 4096 ∧ d.cursor ≥ d.buffer.length / 2 then compactConsumed d
  else (d, 0)

/-- The forced compaction of `push`. -/
def makeRoom (d : StreamDecoder p) (bytes : List UInt8) : StreamDecoder p × Nat :=
  if d.cursor ≠ 0 ∧ (d.buffer.length > d.limits.maxBufferedBytes ∨
      bytes.length > p.sub d.limits.maxBufferedBytes
        (min d.limits.maxBufferedBytes d.buffer.length)) then
    compactConsumed d
  else (d, 0)

/-- `StreamDecoder::push`. -/
def push (d : StreamDecoder p) (bytes : List UInt8) : (Result Unit × StreamDecoder p) × Nat :=
  if d.limits.valid = false then
    ((failure .invalidArgument "protocol limits are inconsistent", d), 0)
  else
    let (d, lazily) := compact d
    let (d, forced) := makeRoom d bytes
    if d.buffer.length > d.limits.maxBufferedBytes ∨
        bytes.length > p.sub d.limits.maxBufferedBytes d.buffer.length then
      ((failure .limitExceeded "protocol stream buffer limit exceeded", d), lazily + forced)
    else
      ((.ok (), { d with buffer := d.buffer ++ bytes }), lazily + forced)

/-- `StreamDecoder::next`. -/
def next (d : StreamDecoder p) : (Result (Option Message) × StreamDecoder p) × Nat :=
  if d.bufferedSize = 0 then ((.ok none, d), 0)
  else
    match probe d.limits d.available with
    | .error e => ((.error e, d), 0)
    | .ok inspected =>
        if inspected.state = .incomplete then ((.ok none, d), 0)
        else
          match decodePrefix d.limits d.available with
          | .error e => ((.error e, d), 0)
          | .ok decoded =>
              let (d, moved) := compact { d with cursor := p.add d.cursor decoded.consumed }
              ((.ok (some decoded.message), d), moved)

/-- What one call moves. -/
def call (d : StreamDecoder p) : Call → Nat
  | .push bytes => (push d bytes).2
  | .next => (next d).2
  | .reset => 0

theorem compact_fst (d : StreamDecoder p) : (compact d).1 = d.compact := by
  unfold compact StreamDecoder.compact compactConsumed
  split_ifs <;> rfl

theorem makeRoom_fst (d : StreamDecoder p) (bytes : List UInt8) :
    (makeRoom d bytes).1 = d.makeRoom bytes := by
  unfold makeRoom StreamDecoder.makeRoom compactConsumed
  split_ifs <;> rfl

/-- The meter is not seen by `push`. -/
theorem push_fst (d : StreamDecoder p) (bytes : List UInt8) : (push d bytes).1 = d.push bytes := by
  unfold push StreamDecoder.push
  simp only [compact_fst, makeRoom_fst]
  split_ifs <;> rfl

/-- The meter is not seen by `next`. -/
theorem next_fst (d : StreamDecoder p) : (next d).1 = d.next := by
  unfold next StreamDecoder.next
  split_ifs with hempty
  · rfl
  cases probe d.limits d.available with
  | error e => rfl
  | ok inspected =>
      by_cases hstate : inspected.state = .incomplete
      · simp only [if_pos hstate]
      · simp only [if_neg hstate]
        cases decodePrefix d.limits d.available with
        | error e => rfl
        | ok decoded => simp only [compact_fst]

end Metered

/-- The bytes that the calls of a history move, from a new decoder on. -/
def moved (L : Limits p) (calls : List Call) : Nat :=
  (machine L).cost Metered.call (machine L).init calls

/-! ## One compaction -/

/-- A lazy compaction moves no more than it erases, and one byte. -/
theorem compact_pays {d : StreamDecoder p} (h : d.cursor ≤ d.buffer.length) :
    (Metered.compact d).2 + 2 * d.compact.buffer.length ≤ 2 * d.buffer.length := by
  unfold Metered.compact compact
  split_ifs with hzero hall hmany
  · simp
  · simp [reset]
  · simp only [Metered.compactConsumed, compactConsumed, List.length_drop]
    omega
  · simp

/-- Between calls there is nothing to compact. -/
theorem Tidy.compact_eq {d : StreamDecoder p} (h : d.Tidy) : Metered.compact d = (d, 0) := by
  have hlt := h.cursor_lt
  have hconsumed := h.consumed_lt
  unfold Metered.compact
  split_ifs with hzero hall hmany
  · rfl
  · omega
  · omega
  · rfl

/-- The bytes that a push adds to the vector. -/
def gained (d : StreamDecoder p) (bytes : List UInt8) : Nat :=
  if (d.push bytes).1 = .ok () then bytes.length else 0

/-- What a push moves: nothing, or all unread bytes if it would not fit otherwise. -/
theorem Tidy.push_moves {d : StreamDecoder p} (h : d.Tidy) (bytes : List UInt8) :
    ((Metered.push d bytes).2 = 0 ∧ (d.push bytes).2.cursor = d.cursor ∧
        (d.push bytes).2.buffer.length = d.buffer.length + gained d bytes) ∨
      ((Metered.push d bytes).2 = d.unread.length ∧ d.cursor ≠ 0 ∧ (d.push bytes).2.cursor = 0 ∧
        (d.push bytes).2.buffer.length = d.unread.length + gained d bytes) := by
  unfold gained
  rw [← Metered.push_fst]
  unfold Metered.push
  by_cases hinvalid : d.limits.valid = false
  · rw [if_pos hinvalid]
    exact .inl ⟨rfl, rfl, by simp [failure]⟩
  rw [if_neg hinvalid]
  simp only [h.compact_eq, Nat.zero_add]
  unfold Metered.makeRoom
  by_cases hforce : d.cursor ≠ 0 ∧ (d.buffer.length > d.limits.maxBufferedBytes ∨
      bytes.length > p.sub d.limits.maxBufferedBytes
        (min d.limits.maxBufferedBytes d.buffer.length))
  · simp only [if_pos hforce, Metered.compactConsumed]
    by_cases hfull : d.compactConsumed.buffer.length > d.compactConsumed.limits.maxBufferedBytes ∨
        bytes.length > p.sub d.compactConsumed.limits.maxBufferedBytes
          d.compactConsumed.buffer.length
    · rw [if_pos hfull]
      simp [failure, compactConsumed, length_unread, hforce.1]
    · rw [if_neg hfull]
      simp [compactConsumed, length_unread, hforce.1]
  · simp only [if_neg hforce]
    by_cases hfull : d.buffer.length > d.limits.maxBufferedBytes ∨
        bytes.length > p.sub d.limits.maxBufferedBytes d.buffer.length
    · rw [if_pos hfull]
      simp [failure]
    · rw [if_neg hfull]
      simp

/-- What `next()` does: nothing, or it takes a frame off the unread bytes and compacts. -/
theorem Tidy.next_moves {d : StreamDecoder p} (h : d.Tidy) :
    (d.next.2 = d ∧ (Metered.next d).2 = 0) ∨
      ∃ n m, verdict d.limits d.unread = .ready n m ∧ 0 < n ∧ n ≤ d.unread.length ∧
        d.next.2 = ({ d with cursor := d.cursor + n } : StreamDecoder p).compact ∧
        (Metered.next d).2 = (Metered.compact { d with cursor := d.cursor + n }).2 := by
  rw [← Metered.next_fst]
  unfold Metered.next
  split_ifs with hempty
  · exact .inl ⟨rfl, rfl⟩
  cases hprobe : probe d.limits d.available with
  | error e => exact .inl ⟨rfl, rfl⟩
  | ok inspected =>
      by_cases hstate : inspected.state = .incomplete
      · simp [if_pos hstate]
      simp only [if_neg hstate]
      cases hdecode : decodePrefix d.limits d.available with
      | error e => exact .inl ⟨rfl, rfl⟩
      | ok decoded =>
          -- the frame that was decoded lies within the unread bytes
          have hL := valid_of_decodePrefix hdecode
          rw [h.available_eq] at hdecode
          have hready := verdict_of_decoded hL hdecode
          obtain ⟨hsize, hle⟩ := ready_bounds hL hready
          have hcursor := h.cursor_le
          have hunread := length_unread d
          have hmax := h.length_le.trans d.limits.maxBufferedBytes_le
          have hadd : p.add d.cursor decoded.consumed = d.cursor + decoded.consumed :=
            Platform.add_eq (by omega)
          refine .inr ⟨_, _, hready, by omega, hle, ?_, ?_⟩
          · simp only [hadd, Metered.compact_fst]
          · simp only [hadd]

/-- What `next()` moves is paid for by what it erases. -/
theorem Tidy.next_pays {d : StreamDecoder p} (h : d.Tidy) :
    (Metered.next d).2 + 2 * d.next.2.buffer.length ≤ 2 * d.buffer.length := by
  rcases h.next_moves with ⟨hsame, hnone⟩ | ⟨n, m, -, -, hle, hnext, hmoved⟩
  · rw [hsame, hnone]
    omega
  · rw [hnext, hmoved]
    have hcursor := h.cursor_le
    rw [length_unread] at hle
    exact compact_pays (d := { d with cursor := d.cursor + n })
      (show d.cursor + n ≤ d.buffer.length by omega)

/-! ## The potential of a decoder whose caller drains it -/

/-- The bytes behind the frame at the front, if there is one. -/
def spare (L : Limits p) (q : List UInt8) : Nat :=
  match verdict L q with
  | .ready n _ => q.length - n
  | _ => 0

/-- The length of the vector, and the bytes that a compaction may still have to move: the
unread ones once something was consumed, and before that those that will be left when the
frame at the front has been. -/
def potential (d : StreamDecoder p) : Nat :=
  d.buffer.length + if d.cursor = 0 then spare d.limits d.unread else d.unread.length

theorem spare_of_needs {L : Limits p} {q : List UInt8} {r : Nat} (h : verdict L q = .needs r) :
    spare L q = 0 := by
  rw [spare, h]

@[simp] theorem spare_nil (L : Limits p) : spare L [] = 0 := by
  unfold spare
  split
  · exact Nat.zero_sub _
  · rfl

/-- A frame is not empty. -/
theorem spare_lt {L : Limits p} (hL : L.Valid) {q : List UInt8} (hq : q ≠ []) :
    spare L q < q.length := by
  have hpos := List.length_pos_of_ne_nil hq
  unfold spare
  split
  · next n m hready =>
      have hsize := (framer L hL).ready_pos hready
      omega
  · exact hpos

/-- Behind the frame that a push completes there are only bytes of this push. -/
theorem spare_append {L : Limits p} (hL : L.Valid) {q : List UInt8} {r : Nat}
    (hq : verdict L q = .needs r) (bytes : List UInt8) : spare L (q ++ bytes) ≤ bytes.length := by
  unfold spare
  split
  · next n m hready =>
      have hlt := (framer L hL).lt_of_needs hq hready
      rw [List.length_append]
      omega
  · exact Nat.zero_le _

/-- When `next()` had nothing to return, a push leaves behind the front frame at most what it
added. -/
theorem Tidy.spare_push {d : StreamDecoder p} (h : d.Tidy) (hnext : d.next.1 = .ok none)
    (bytes : List UInt8) : spare d.limits (d.push bytes).2.unread ≤ gained d bytes := by
  obtain ⟨hanswer, hunread, -, -⟩ := push_spec h bytes
  rw [gained, hanswer, hunread]
  rcases ByteQueue.push_cases d.limits d.unread bytes with
    ⟨hinvalid, hpush⟩ | ⟨hvalid, -, hpush⟩ | ⟨hvalid, -, hpush⟩
  · -- under invalid limits nothing was ever stored
    have hempty : d.unread = [] := by
      by_contra hne
      have hvalid := (Limits.valid_iff _).2 (h.valid_of_unread hne)
      rw [hinvalid] at hvalid
      cases hvalid
    rw [hpush]
    simp [hempty]
  all_goals
    have hL := (Limits.valid_iff _).1 hvalid
    rw [(next_spec h).1] at hnext
    obtain ⟨r, hneeds⟩ := (ByteQueue.next_none_iff hL).1 hnext
  · simpa [hpush] using spare_append hL hneeds bytes
  · simp [hpush, spare_of_needs hneeds]

/-- A lazy compaction after something was consumed. -/
theorem compact_settles {d : StreamDecoder p} (hL : d.limits.Valid) (hpos : 0 < d.cursor)
    (hle : d.cursor ≤ d.buffer.length) :
    (Metered.compact d).2 + d.compact.potential ≤ d.buffer.length + d.unread.length := by
  have hunread := length_unread d
  unfold Metered.compact compact
  split_ifs with hzero hall hmany
  · omega
  · simp [potential, reset, unread]
  · have hrest : d.compactConsumed.unread = d.unread := rfl
    have hlen : d.compactConsumed.buffer.length = d.unread.length := rfl
    have hspare : spare d.limits d.unread < d.unread.length :=
      spare_lt hL (List.ne_nil_of_length_pos (by omega))
    simp only [Metered.compactConsumed, potential, hrest, hlen]
    simp only [compactConsumed, if_true]
    omega
  · simp [potential, hzero]

/-- What `next()` moves, the potential pays. -/
theorem Tidy.next_settles {d : StreamDecoder p} (h : d.Tidy) :
    (Metered.next d).2 + d.next.2.potential ≤ d.potential := by
  rcases h.next_moves with ⟨hsame, hnone⟩ | ⟨n, m, hready, hpos, hle, hnext, hmoved⟩
  · rw [hsame, hnone, Nat.zero_add]
  · have hunread := length_unread d
    have hL := h.valid_of_unread (List.ne_nil_of_length_pos (by omega))
    have hsettles := compact_settles (d := { d with cursor := d.cursor + n }) hL
      (show 0 < d.cursor + n by omega) (show d.cursor + n ≤ d.buffer.length by omega)
    have hrest : ({ d with cursor := d.cursor + n } : StreamDecoder p).unread.length
        = d.unread.length - n := by
      rw [length_unread, hunread, Nat.sub_sub]
    rw [hrest] at hsettles
    rw [hnext, hmoved]
    refine hsettles.trans ?_
    unfold potential
    split_ifs with hzero
    · rw [spare, hready]
    · exact Nat.add_le_add_left (Nat.sub_le _ _) _

/-! ## Whole histories -/

/-- What an accepted push pays, and besides for every push `extra`. -/
def payment (extra : Nat) (d : StreamDecoder p) : Call → Nat
  | .push bytes => 2 * gained d bytes + extra
  | .next => 0
  | .reset => 0

/-- The number of pushes. -/
def pushes (calls : List Call) : Nat :=
  calls.countP fun
    | .push _ => true
    | _ => false

/-- The payments along a history, in terms of the bytes that were accepted. -/
theorem cost_payment (L : Limits p) (extra : Nat) (d : StreamDecoder p) (calls : List Call) :
    (machine L).cost (payment extra) d calls =
      2 * (acceptedBytes calls ((machine L).outs d calls)).length + extra * pushes calls := by
  induction calls generalizing d with
  | nil => rfl
  | cons call calls ih =>
      cases call with
      | push bytes =>
          have hcount : pushes (.push bytes :: calls) = pushes calls + 1 := by simp [pushes]
          simp only [Machine.cost, Machine.outs, machine_step, step, ih, payment, gained, hcount,
            Nat.mul_add]
          cases hpush : (d.push bytes).1 with
          | ok u =>
              simp only [acceptedBytes, List.length_append, if_true]
              omega
          | error e =>
              simp only [acceptedBytes, reduceCtorEq, if_false]
              omega
      | next =>
          have hcount : pushes (.next :: calls) = pushes calls := by simp [pushes]
          simp only [Machine.cost, Machine.outs, machine_step, step, ih, payment, hcount,
            acceptedBytes, Nat.zero_add]
      | reset =>
          have hcount : pushes (.reset :: calls) = pushes calls := by simp [pushes]
          simp only [Machine.cost, Machine.outs, machine_step, step, ih, payment, hcount,
            acceptedBytes, Nat.zero_add]

/-- The call is not a push, or `next()` has nothing to return before it. -/
def Drained (d : StreamDecoder p) (call : Call) : Prop :=
  ∀ bytes, call = .push bytes → d.next.1 = .ok none

/-- One call of any history. -/
theorem call_pays {d : StreamDecoder p} (h : d.Tidy) (call : Call) :
    Metered.call d call + 2 * (d.step call).2.buffer.length ≤
      2 * d.buffer.length + payment d.limits.maxBufferedBytes d call := by
  cases call with
  | push bytes =>
      have hlen := h.length_le
      have hunread := length_unread d
      simp only [Metered.call, step, payment]
      rcases h.push_moves bytes with ⟨hnone, -, hgrows⟩ | ⟨hall, -, -, hgrows⟩ <;> omega
  | next =>
      have hpays := h.next_pays
      simp only [Metered.call, step, payment]
      omega
  | reset => simp [Metered.call, step, payment, reset]

/-- One call of a caller that drains the decoder. -/
theorem drained_call_pays {d : StreamDecoder p} (h : d.Tidy) {call : Call}
    (hdrained : Drained d call) :
    Metered.call d call + (d.step call).2.potential ≤ d.potential + payment 0 d call := by
  cases call with
  | push bytes =>
      have hspare := h.spare_push (hdrained bytes rfl) bytes
      have hkept := (push_spec h bytes).2.2.1
      have hunread := length_unread d
      have hunread' := length_unread (d.push bytes).2
      have hcursor := h.cursor_le
      simp only [Metered.call, step, payment, potential, hkept]
      rcases h.push_moves bytes with ⟨hnone, hsame, hgrows⟩ | ⟨hall, hconsumed, hzero, hgrows⟩
      · rw [hnone, hsame]
        split_ifs <;> omega
      · rw [hall, hzero, if_pos rfl, if_neg hconsumed]
        omega
  | next =>
      have hsettles := h.next_settles
      simpa only [Metered.call, step, payment, Nat.add_zero] using hsettles
  | reset => simp [Metered.call, step, payment, reset, potential, unread]

/-- **Compaction is amortised.**  Along any history of calls, `erase` moves at most two bytes
for each byte that was accepted, and `max_buffered_bytes` for each push.  A caller that
pushes only when `next()` has nothing to return does not pay for its pushes: whatever their
sizes and the limits, the bytes moved are at most twice the bytes accepted. -/
theorem compaction_amortised (L : Limits p) (calls : List Call) :
    moved L calls ≤ 2 * (acceptedBytes calls ((machine L).outs (machine L).init calls)).length +
        L.maxBufferedBytes * pushes calls ∧
      ((machine L).Along Drained (machine L).init calls →
        moved L calls ≤
          2 * (acceptedBytes calls ((machine L).outs (machine L).init calls)).length) := by
  have hinv : (machine L).init.limits = L ∧ (machine L).init.Tidy := (refines L).init_inv
  constructor
  · have hcost := Machine.cost_le (refines L).step_inv Metered.call (payment L.maxBufferedBytes)
      (fun d => 2 * d.buffer.length)
      (by
        rintro d call ⟨rfl, h⟩ -
        exact call_pays h call)
      hinv ((machine L).along_of_forall (fun _ _ => trivial) _ calls)
    rw [cost_payment] at hcost
    simp only [machine_init, List.length_nil] at hcost
    simp only [moved, machine_init]
    omega
  · intro halong
    have hcost := Machine.cost_le (refines L).step_inv Metered.call (payment 0) potential
      (fun d call h hdrained => drained_call_pays h.2 hdrained) hinv halong
    have hinit : potential (machine L).init = 0 := by simp [potential, unread]
    rw [cost_payment, hinit] at hcost
    simp only [moved]
    omega

/-- Room for 40 bytes and two frames of 32, of which the first comes with the first 5 bytes of
the second: these 5 bytes are moved to make room for the rest. -/
theorem compaction_amortised_two_frames :
    let calls : List Call := [.push (wireLayout {} ++ (wireLayout {}).take 5), .next, .next,
      .push ((wireLayout {}).drop 5), .next]
    moved smallTestLimits calls = 5 ∧
      5 ≤ 2 * (acceptedBytes calls
        ((machine smallTestLimits).outs (machine smallTestLimits).init calls)).length := by
  intro calls
  have hdrained : (machine smallTestLimits).Along Drained (machine smallTestLimits).init calls := by
    refine ⟨?_, ?_, ?_, ?_, ?_, trivial⟩
    · rintro _ ⟨⟩
      decide
    · rintro _ ⟨⟩
    · rintro _ ⟨⟩
    · rintro _ ⟨⟩
      decide
    · rintro _ ⟨⟩
  have hmoved : moved smallTestLimits calls = 5 := by decide
  have hle := (compaction_amortised smallTestLimits calls).2 hdrained
  rw [hmoved] at hle
  exact ⟨hmoved, hle⟩

end StreamDecoder
end Protocol
end Vosp
