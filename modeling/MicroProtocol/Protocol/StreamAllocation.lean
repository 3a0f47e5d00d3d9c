import MicroProtocol.Protocol.Allocation
import MicroProtocol.Protocol.StreamCost

/-!
# The memory that a decoder asks for

`push` may need a larger block for the buffer, and `next` allocates what the codec does.  Here
the methods of `StreamDecoder` are run as methods that ask for memory, on a decoder that knows
the size of its block.

* `Allocating.push`, `Allocating.next`, `Allocating.calls` — the methods, and whole programs.
* `Allocating.step_handles` — one call: what it asks for, and what it leaves if it throws.
* `stream_allocation` — so along any history the messages cost no more memory than the bytes
  that were accepted for them, whatever sizes they declare.
-/

namespace Vosp
namespace Protocol

open Faulty
open Growable (block)

namespace Allocating

variable {p : Platform}

/-! ## The decoder -/

/-- A `StreamDecoder`, and the number of bytes that the block of `buffer_` has room for. -/
structure Decoder (p : Platform) extends StreamDecoder p where
  capacity : Nat := 0

section Decoder

open StreamDecoder (Call Answer)

variable (grow : Nat → Nat → Nat)

/-- `buffer_.insert` at the end.  The bytes are copied once there is a block for them. -/
def insert (bytes : List UInt8) : Faulty Block (Decoder p) Unit := do
  let d ← get
  let size := d.buffer.length + bytes.length
  if size ≤ d.capacity then modify fun d => { d with buffer := d.buffer ++ bytes }
  else do
    let capacity := max size (grow d.capacity size)
    allocate (.buffer capacity)
    modify fun d => { d with buffer := d.buffer ++ bytes, capacity := capacity }

/-- `StreamDecoder::push`.  Erasing keeps the block. -/
def push (bytes : List UInt8) : Faulty Block (Decoder p) (Result Unit) := do
  let d ← get
  if d.limits.valid = false then
    report (failure .invalidArgument "protocol limits are inconsistent")
  else do
    modify fun d => { d with toStreamDecoder := d.compact.makeRoom bytes }
    let d ← get
    if d.buffer.length > d.limits.maxBufferedBytes ∨
        bytes.length > p.sub d.limits.maxBufferedBytes d.buffer.length then
      report (failure .limitExceeded "protocol stream buffer limit exceeded")
    else do
      insert grow bytes
      pure (.ok ())

/-- `StreamDecoder::next`.  The errors of the codec are copied. -/
def next : Faulty Block (Decoder p) (Result (Option Message)) := do
  let d ← get
  if d.bufferedSize = 0 then pure (.ok none)
  else do
    match ← probe d.limits d.available with
    | .error e => report (.error e)
    | .ok inspected =>
        if inspected.state = .incomplete then pure (.ok none)
        else do
          match ← decodePrefix grow d.limits d.available with
          | .error e => report (.error e)
          | .ok decoded => do
              modify fun d => { d with cursor := p.add d.cursor decoded.consumed }
              modify fun d => { d with toStreamDecoder := d.compact }
              pure (.ok (some decoded.message))

/-- One call. -/
def step : Call → Faulty Block (Decoder p) Answer
  | .push bytes => do
      let result ← push grow bytes
      pure (.pushed result)
  | .next => do
      let result ← next grow
      pure (.returned result)
  | .reset => do
      modify fun d => { d with toStreamDecoder := d.reset }
      pure .done

/-- A program that catches every exception and goes on. -/
def calls : List Call → Faulty Block (Decoder p) (List (Option Answer))
  | [] => pure []
  | call :: rest => do
      let answer ← attempt (step grow call)
      let answers ← calls rest
      pure (answer :: answers)

theorem run_calls_cons (grants : Block → List Block → Bool) (d : Decoder p) (log : List Block)
    (call : Call) (rest : List Call) :
    (calls grow (call :: rest)).run grants d log =
      let r := (step grow call).run grants d log
      let r' := (calls grow rest).run grants r.2.1 r.2.2
      (r'.1.map (r.1 :: ·), r'.2) := by
  rw [calls, run_bind_of_some rfl]
  dsimp only [Bind.bind]
  cases ((calls grow rest).run grants _ _).1 <;> rfl

end Decoder

/-! ## One call -/

section Calls

open StreamDecoder (Call Answer machine)

/-- A call that threw has had no effect that can be observed. -/
structure Unharmed (d d' : Decoder p) : Prop where
  limits_eq : d'.limits = d.limits
  unread_eq : d'.unread = d.unread
  tidy : d'.Tidy

/-- What the call that gave the answer asked for, in a decoder with the limits `L`. -/
inductive Asked (grow : Nat → Nat → Nat) (L : Limits p) : Answer → List Block → Prop where
  /-- The block of `buffer_` has room for the bytes. -/
  | stored : Asked grow L (.pushed (.ok ())) []
  /-- It is too small. -/
  | enlarged {capacity size : Nat} (hlt : capacity < size) (hle : size ≤ L.maxBufferedBytes) :
      Asked grow L (.pushed (.ok ())) [.buffer (max size (grow capacity size))]
  | pushRefused (e : Error) : Asked grow L (.pushed (.error e)) [.text e.message.length]
  | nothing : Asked grow L (.returned (.ok none)) []
  | message (m : Message) : Asked grow L (.returned (.ok (some m))) m.blocks
  /-- The text is written once, and copied at most twice on its way out. -/
  | refused (e : Error) {n : Nat} (hpos : 1 ≤ n) (hle : n ≤ 3) :
      Asked grow L (.returned (.error e)) (List.replicate n (.text e.message.length))
  | done : Asked grow L .done []

/-- The method does what it does without exceptions and asks for what its answer stands for, or
throws and does no harm. -/
def Handles {α : Type} (grow : Nat → Nat → Nat) (wrap : α → Answer)
    (m : Faulty Block (Decoder p) α) (d : Decoder p) (after : α × StreamDecoder p) : Prop :=
  ∃ d' requests, Performs m d after.1 d' requests (Unharmed d) ∧ d'.toStreamDecoder = after.2 ∧
    Asked grow d.limits (wrap after.1) requests

variable (grow : Nat → Nat → Nat) {d : Decoder p}

/-- What `insert` does to the decoder, and what it asks for. -/
theorem insert_performs (bytes : List UInt8) {E : Decoder p → Prop} (hE : E d) :
    ∃ d' requests, Performs (insert grow bytes) d () d' requests E ∧
      d'.toStreamDecoder = { d.toStreamDecoder with buffer := d.buffer ++ bytes } ∧
      (requests = [] ∨ ∃ size, size = d.buffer.length + bytes.length ∧ d.capacity < size ∧
        requests = [.buffer (max size (grow d.capacity size))]) := by
  by_cases hroom : d.buffer.length + bytes.length ≤ d.capacity
  · refine ⟨{ d with buffer := d.buffer ++ bytes }, [], performs_get_bind ?_, rfl, .inl rfl⟩
    rw [if_pos hroom]
    exact performs_modify
  · refine ⟨{ d with
        buffer := d.buffer ++ bytes
        capacity := max (d.buffer.length + bytes.length)
          (grow d.capacity (d.buffer.length + bytes.length)) }, _, performs_get_bind ?_, rfl,
      .inr ⟨_, rfl, not_le.1 hroom, rfl⟩⟩
    rw [if_neg hroom]
    exact (performs_allocate hE).bind performs_modify rfl

/-- `push` does what it does without exceptions, or has at most erased consumed bytes. -/
theorem push_handles (h : d.Tidy) (bytes : List UInt8) :
    Handles grow .pushed (push grow bytes) d (d.toStreamDecoder.push bytes) := by
  unfold StreamDecoder.push
  by_cases hinvalid : d.limits.valid = false
  · rw [if_pos hinvalid]
    refine ⟨d, _, performs_get_bind ?_, rfl, .pushRefused _⟩
    rw [if_pos hinvalid]
    exact (performs_allocate ⟨rfl, rfl, h⟩).bind performs_pure rfl
  have hL : d.limits.Valid := (Limits.valid_iff _).1 (by simpa using hinvalid)
  obtain ⟨herased, -⟩ := StreamDecoder.erased_makeRoom h bytes
  have hunharmed : Unharmed d { d with toStreamDecoder := d.compact.makeRoom bytes } :=
    ⟨herased.limits_eq, herased.unread_eq, StreamDecoder.tidy_of_erased herased h.length_le hL⟩
  rw [if_neg hinvalid]
  dsimp only
  by_cases hfull : (d.compact.makeRoom bytes).buffer.length >
        (d.compact.makeRoom bytes).limits.maxBufferedBytes ∨
      bytes.length > p.sub (d.compact.makeRoom bytes).limits.maxBufferedBytes
        (d.compact.makeRoom bytes).buffer.length
  · rw [if_pos hfull]
    refine ⟨{ d with toStreamDecoder := d.compact.makeRoom bytes }, _, performs_get_bind ?_, rfl,
      .pushRefused _⟩
    rw [if_neg hinvalid]
    refine performs_modify_bind (performs_get_bind ?_)
    rw [if_pos hfull]
    exact (performs_allocate hunharmed).bind performs_pure rfl
  · rw [if_neg hfull]
    obtain ⟨d', requests, hinsert, hd', hasked⟩ := insert_performs grow bytes hunharmed
    refine ⟨d', requests, performs_get_bind ?_, hd', ?_⟩
    · rw [if_neg hinvalid]
      refine performs_modify_bind (performs_get_bind ?_)
      rw [if_neg hfull]
      exact hinsert.bind performs_pure (List.nil_append _)
    · rcases hasked with rfl | ⟨size, hsize, hlt, rfl⟩
      · exact .stored
      · refine .enlarged hlt ?_
        have hlen := herased.length_le.trans h.length_le
        rw [herased.limits_eq, Platform.sub_eq d.limits.maxBufferedBytes_le hlen] at hfull
        dsimp only at hsize
        omega

/-- A frame that was found to be ready is decoded. -/
theorem exists_decoded {L : Limits p} {input : List UInt8} {inspected : FrameProbe}
    (hprobe : FrameCodec.probe L input = .ok inspected) (hstate : inspected.state ≠ .incomplete) :
    ∃ decoded, FrameCodec.decodePrefix L input = .ok decoded := by
  have hready : ¬ inspected.state ≠ .ready := by
    cases hcase : inspected.state with
    | incomplete => exact absurd hcase hstate
    | ready => simp
  unfold FrameCodec.decodePrefix
  simp only [hprobe, if_neg hready]
  exact ⟨_, rfl⟩

/-- `next` does what it does without exceptions, or nothing at all. -/
theorem next_handles (h : d.Tidy) :
    Handles grow .returned (next grow) d d.toStreamDecoder.next := by
  have hunharmed : Unharmed d d := ⟨rfl, rfl, h⟩
  unfold StreamDecoder.next
  by_cases hempty : d.bufferedSize = 0
  · rw [if_pos hempty]
    refine ⟨d, [], performs_get_bind ?_, rfl, .nothing⟩
    rw [if_pos hempty]
    exact performs_pure
  rw [if_neg hempty]
  have hprobe := probe_reports (σ := Decoder p) d.limits d.available
  cases hinspected : FrameCodec.probe d.limits d.available with
  | error e =>
      rw [hinspected] at hprobe
      obtain ⟨_, hcomputes, n, hpos, hle, rfl⟩ := hprobe
      refine ⟨d, List.replicate (n + 1) (.text e.message.length), performs_get_bind ?_, rfl,
        .refused e (by omega) (by omega)⟩
      rw [if_neg hempty]
      exact (hcomputes d _ hunharmed).bind
        ((performs_allocate hunharmed).bind performs_pure rfl) rfl
  | ok inspected =>
      rw [hinspected] at hprobe
      obtain ⟨_, hcomputes, rfl⟩ := hprobe
      dsimp only
      by_cases hstate : inspected.state = .incomplete
      · rw [if_pos hstate]
        refine ⟨d, [], performs_get_bind ?_, rfl, .nothing⟩
        rw [if_neg hempty]
        refine (hcomputes d _ hunharmed).bind ?_ (List.append_nil _)
        dsimp only
        rw [if_pos hstate]
        exact performs_pure
      rw [if_neg hstate]
      obtain ⟨decoded, hdecoded⟩ := exists_decoded hinspected hstate
      have hdecode := decodePrefix_reports (σ := Decoder p) grow d.limits d.available
      rw [hdecoded] at hdecode ⊢
      obtain ⟨_, hcopies, rfl⟩ := hdecode
      refine ⟨⟨StreamDecoder.compact
          { d.toStreamDecoder with cursor := p.add d.cursor decoded.consumed }, d.capacity⟩,
        decoded.message.blocks, performs_get_bind ?_, rfl, .message _⟩
      rw [if_neg hempty]
      refine (hcomputes d _ hunharmed).bind ?_ (List.append_nil _)
      dsimp only
      rw [if_neg hstate]
      refine (hcopies d _ hunharmed).bind ?_ (List.nil_append _)
      exact performs_modify_bind (performs_modify_bind performs_pure)

/-- **One call on a decoder.** -/
theorem step_handles (h : d.Tidy) (call : Call) :
    Handles grow id (step grow call) d (d.toStreamDecoder.step call) := by
  cases call with
  | push bytes =>
      obtain ⟨d', requests, hperforms, hd', hasked⟩ := push_handles grow h bytes
      exact ⟨d', requests, hperforms.bind performs_pure (List.nil_append _), hd', hasked⟩
  | next =>
      obtain ⟨d', requests, hperforms, hd', hasked⟩ := next_handles grow h
      exact ⟨d', requests, hperforms.bind performs_pure (List.nil_append _), hd', hasked⟩
  | reset =>
      exact ⟨{ d with toStreamDecoder := d.reset }, [], performs_modify_bind performs_pure, rfl,
        .done⟩

end Calls

end Allocating

namespace StreamDecoder

variable {p : Platform}

/-- The message that a call returned. -/
def Answer.message : Answer → Option Message
  | .returned (.ok m) => m
  | _ => none

/-- The messages that a history returned. -/
def messages (answers : List Answer) : List Message := answers.filterMap Answer.message

theorem messages_cons (answer : Answer) (answers : List Answer) :
    messages (answer :: answers) = answer.message.toList ++ messages answers := by
  rw [messages, List.filterMap_cons]
  cases answer.message <;> rfl

/-- What the messages take on the wire. -/
def frameBytes (messages : List Message) : Nat := (messages.map fun m => (wireLayout m).length).sum

theorem frameBytes_append (first second : List Message) :
    frameBytes (first ++ second) = frameBytes first + frameBytes second := by simp [frameBytes]

theorem spent_append (blocks blocks' : List Block) :
    spent (blocks ++ blocks') = spent blocks + spent blocks' := by simp [spent]

theorem spent_block (note : Nat → Block) {n : Nat} (h : (note 0).wireSize = 0) :
    spent (block note n) = (note n).wireSize := by
  unfold block
  split_ifs with hn
  · rw [hn, h]
    rfl
  · simp [spent]

/-- The blocks of a message cost what it takes on the wire without the fixed header. -/
theorem spent_blocks (m : Message) : spent m.blocks + 32 = (wireLayout m).length := by
  have hvalues : ∀ es : List Extension, spent (es.reverse.flatMap fun e =>
      block .bytes e.value.length) + 4 * es.length = extensionBytes es := by
    intro es
    induction es with
    | nil => rfl
    | cons e es ih =>
        rw [List.reverse_cons, List.flatMap_append, spent_append, extensionBytes_cons, ← ih]
        simp only [List.flatMap_singleton, List.length_cons]
        rw [spent_block _ rfl, Block.wireSize]
        omega
  rw [Message.blocks, spent_append, spent_append, spent_block _ rfl, spent_block _ rfl,
    length_wireLayout, ← hvalues m.extensions, Block.wireSize, Block.wireSize]
  omega

/-- What a call returns is taken from the unread bytes. -/
theorem call_consumes {d : StreamDecoder p} (h : d.Tidy) (call : Call) :
    2 * frameBytes (d.step call).1.message.toList + 2 * (d.step call).2.unread.length ≤
      2 * d.unread.length + payment 0 d call := by
  cases call with
  | push bytes =>
      obtain ⟨hresult, hunread, -, -⟩ := push_spec h bytes
      simp only [step, Answer.message, payment, gained, hresult, hunread]
      rcases ByteQueue.push_cases d.limits d.unread bytes with
        ⟨-, hpush⟩ | ⟨-, -, hpush⟩ | ⟨-, -, hpush⟩
      · simp [frameBytes, hpush]
      · simp [frameBytes, hpush]
        omega
      · simp [frameBytes, hpush]
  | next =>
      obtain ⟨hresult, hunread, -, -⟩ := next_spec h
      simp only [step, payment]
      rw [hresult, hunread]
      by_cases hempty : d.unread = []
      · simp [frameBytes, ByteQueue.next, hempty, Answer.message]
      have hL := h.valid_of_unread hempty
      rw [ByteQueue.next_eq hL]
      cases hverdict : FrameCodec.verdict d.limits d.unread with
      | refused e => simp [frameBytes, ByteQueue.ofVerdict, Answer.message]
      | needs n => simp [frameBytes, ByteQueue.ofVerdict, Answer.message]
      | ready n m =>
          -- the message is the layout of the bytes that are dropped
          have hdecode := (FrameCodec.verdict_ready_iff hL).1 hverdict
          obtain ⟨hle, hencode⟩ : n ≤ d.unread.length ∧
              FrameCodec.encode d.limits m = .ok (d.unread.take n) :=
            FrameCodec.encode_of_decodePrefix hdecode
          obtain ⟨-, -, hlayout⟩ := FrameCodec.encode_eq_ok_iff.1 hencode
          have hlength := congrArg List.length hlayout
          rw [List.length_take, Nat.min_eq_left hle] at hlength
          simp only [frameBytes, ByteQueue.ofVerdict, Answer.message, Option.toList_some, List.map_cons,
            List.map_nil, List.sum_cons, List.sum_nil, List.length_drop]
          omega
  | reset => simp [frameBytes, step, Answer.message, reset, unread]

theorem cost_messages (L : Limits p) (d : StreamDecoder p) (calls : List Call) :
    (machine L).cost (fun d call => 2 * frameBytes (d.step call).1.message.toList) d calls =
      2 * frameBytes (messages ((machine L).outs d calls)) := by
  induction calls generalizing d with
  | nil => rfl
  | cons call calls ih =>
      rw [Machine.cost, Machine.outs_cons, messages_cons, frameBytes_append, ih, machine_step,
        Nat.mul_add]

/-- The messages of a history lie, one after the other, in the bytes that were accepted. -/
theorem messages_le (L : Limits p) (calls : List Call) :
    frameBytes (messages ((machine L).outs (machine L).init calls)) ≤
      (acceptedBytes calls ((machine L).outs (machine L).init calls)).length := by
  have hinv : (machine L).init.limits = L ∧ (machine L).init.Tidy := (refines L).init_inv
  have hcost := Machine.cost_le (refines L).step_inv
    (fun d call => 2 * frameBytes (d.step call).1.message.toList) (payment 0)
    (fun d => 2 * d.unread.length)
    (by
      rintro d call ⟨-, h⟩ -
      exact call_consumes h call)
    hinv ((machine L).along_of_forall (fun _ _ => trivial) _ calls)
  rw [cost_payment, cost_messages] at hcost
  simp only [machine_init, unread, List.drop_nil, List.length_nil] at hcost ⊢
  omega

/-- What a call asked for, apart from texts and the buffer, is the message that it returned. -/
theorem spent_asked {grow : Nat → Nat → Nat} {L : Limits p} {answer : Answer}
    {requests : List Block} (h : Allocating.Asked grow L answer requests) :
    spent requests + 32 * answer.message.toList.length = frameBytes answer.message.toList := by
  cases h with
  | message m =>
      have hblocks := spent_blocks m
      simp only [frameBytes, Answer.message, Option.toList_some, List.length_singleton, List.map_cons,
        List.map_nil, List.sum_cons, List.sum_nil]
      omega
  | refused e hpos hle => simp [spent, frameBytes, Answer.message, Block.wireSize]
  | _ => rfl

theorem spent_history {grow : Nat → Nat → Nat} {L : Limits p} {answers : List Answer}
    {asked : List (List Block)} (h : List.Forall₂ (Allocating.Asked grow L) answers asked) :
    spent asked.reverse.flatten + 32 * (messages answers).length =
      frameBytes (messages answers) := by
  induction h with
  | nil => rfl
  | cons hcall _ ih =>
      have hone := spent_asked hcall
      rw [List.reverse_cons, List.flatten_append, List.flatten_singleton, spent_append,
        messages_cons, List.length_append, frameBytes_append, ← ih, ← hone]
      omega

/-- A history of which every request is granted, call by call. -/
theorem calls_granted (grow : Nat → Nat → Nat) {L : Limits p} {d : Allocating.Decoder p}
    (hlimits : d.limits = L) (h : d.Tidy) (calls : List Call) (log : List Block) :
    ∃ d' asked, (Allocating.calls grow calls).run (fun _ _ => true) d log =
        (some (((machine L).outs d.toStreamDecoder calls).map some), d',
          asked.reverse.flatten ++ log) ∧
      d'.toStreamDecoder = (machine L).exec d.toStreamDecoder calls ∧
      List.Forall₂ (Allocating.Asked grow L) ((machine L).outs d.toStreamDecoder calls) asked := by
  induction calls generalizing d log with
  | nil => exact ⟨d, [], rfl, rfl, .nil⟩
  | cons call calls ih =>
      obtain ⟨d', requests, hperforms, hd', hasked⟩ := Allocating.step_handles grow h call
      have hstep := hperforms.returned (Faulty.granted_always log requests)
      obtain ⟨hlimits', htidy'⟩ := (refines L).step_inv _ call ⟨hlimits, h⟩
      rw [machine_step, ← hd'] at hlimits' htidy'
      obtain ⟨d'', asked, hrun, hd'', hall⟩ := ih hlimits' htidy' (requests ++ log)
      rw [hlimits] at hasked
      rw [hd'] at hrun hd'' hall
      refine ⟨d'', requests :: asked, ?_, hd'', .cons hasked hall⟩
      rw [Allocating.run_calls_cons, hstep]
      dsimp only
      rw [hrun]
      simp

/-- A header that declares a payload of 255 bytes, and no payload: only the buffer is
allocated. -/
example : ((Allocating.calls (fun n _ => 2 * n)
    [.push [86, 83, 80, 49, 0, 32, 0, 0, 0, 1, 0, 0, 0, 0, 0, 7, 0, 0, 0, 0, 0, 0, 0, 0, 0, 0, 0, 255,
      0, 0, 0, 0], .next]).run (fun _ _ => true) { limits := defaultLimits } []).2.2
    = [.buffer 32] := by
  decide

end StreamDecoder
end Protocol
end Vosp
