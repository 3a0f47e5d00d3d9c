import MicroProtocol.Protocol.StreamReading
import MicroProtocol.Transport.Traffic

/-!
# The receive loop

The loop of the README: `receive` some bytes, `push` them, and call `next()` until it
returns nothing.  Nothing is assumed about the peer, which may send whatever it likes.

* `Receiver.round` — one round of the loop, with every way it can end.
* `InStep` — the invariant of the loop: it has made of the bytes that arrived what parsing
  them gives, and holds less than one frame of them.
* `receive_loop_exact` — no push is ever refused, and after every round the messages
  returned are exactly those that can be decoded from the bytes received so far.

The span that is received into must not be too large: what is left in the decoder and
what arrives next have to fit together.  With the default limits one frame always does.
-/

namespace Vosp
namespace System

open Protocol (Limits Message StreamDecoder drain decodeAll)
open Protocol.FrameCodec (framer)
open Transport (Native Log TcpStream ReceivesAtMost received)

/-- How the loop can end. -/
inductive Ending where
  /-- `receive` failed. -/
  | disconnected (error : Transport.Error)
  /-- `push` refused what was received. -/
  | rejected (error : Protocol.Error)
  /-- `next()` failed. -/
  | malformed (error : Protocol.Error)
  /-- `next()` was called as often as `fuel` allows, and returned a message every time. -/
  | unfinished

/-- A program that reads messages off a stream. -/
structure Receiver (p : Platform) where
  stream : TcpStream
  decoder : StreamDecoder p
  log : Log := []
  /-- The messages returned so far, oldest first. -/
  messages : List Message := []
  ending : Option Ending := none

namespace Receiver

variable {p : Platform}

/-- One round, with a span of `size` bytes. -/
def round (N : Native) (fuel : Nat) (r : Receiver p) (size : Nat) : Receiver p :=
  match r.ending with
  | some _ => r
  | none =>
      match (r.stream.receive N size).run r.log with
      | ((.error e, stream), log) =>
          { r with stream := stream, log := log, ending := some (.disconnected e) }
      | ((.ok bytes, stream), log) =>
          match r.decoder.push bytes with
          | (.error e, decoder) =>
              { r with stream := stream, log := log, decoder := decoder, ending := some (.rejected e) }
          | (.ok (), decoder) =>
              match drain fuel decoder with
              | none =>
                  { r with stream := stream, log := log, decoder := decoder, ending := some .unfinished }
              | some drained =>
                  { stream := stream
                    log := log
                    decoder := drained.decoder
                    messages := r.messages ++ drained.messages
                    ending := drained.error.map .malformed }

/-- Rounds with the given spans. -/
def rounds (N : Native) (fuel : Nat) (r : Receiver p) (sizes : List Nat) : Receiver p :=
  sizes.foldl (round N fuel) r

/-- The error of `next()` that the loop ended with. -/
def error (r : Receiver p) : Option Protocol.Error :=
  match r.ending with
  | some (.malformed e) => some e
  | _ => none

/-- The loop has ended neither with a push that was refused nor for lack of fuel. -/
def Sound (r : Receiver p) : Prop := (∀ e, r.ending ≠ some (.rejected e)) ∧ r.ending ≠ some .unfinished

/-- The invariant of the loop. -/
structure InStep (L : Limits p) (hL : L.Valid) (r : Receiver p) : Prop where
  limits_eq : r.decoder.limits = L
  tidy : r.decoder.Tidy
  parsed : (framer L hL).parse (received r.log) = ⟨r.messages, r.error, r.decoder.unread⟩
  sound : r.Sound

variable {L : Limits p} {hL : L.Valid} {N : Native} {r : Receiver p}

theorem inStep_start (hL : L.Valid) (s : TcpStream) :
    InStep L hL { stream := s, decoder := { limits := L } } := by
  obtain ⟨n, hn⟩ := (framer L hL).nil_needs
  exact ⟨rfl, StreamDecoder.tidy_init L, (framer L hL).parse_needs hn, by simp, by simp⟩

/-- A loop that has not met an error waits for the rest of a frame. -/
theorem InStep.unread_lt (h : InStep L hL r) (herror : r.error = none) :
    r.decoder.unread.length < L.maxFrameSize := by
  have hparse := h.parsed
  rw [herror] at hparse
  have hrest := (framer L hL).parse_rest (q := received r.log) (by rw [hparse])
  rw [hparse] at hrest
  cases hverdict : Protocol.FrameCodec.verdict L r.decoder.unread with
  | refused e =>
      rw [(framer L hL).parse_refused hverdict] at hrest
      cases hrest
  | ready n m =>
      rw [(framer L hL).parse_ready hverdict] at hrest
      cases hrest
  | needs n =>
      obtain ⟨inspected, hprobe, hstate, -⟩ := (Protocol.FrameCodec.verdict_needs_iff hL).1 hverdict
      have hwaiting := Protocol.FrameCodec.probe_incomplete hL hprobe hstate
      omega

/-- The bytes of a round are pushed and drained. -/
theorem InStep.pump (h : InStep L hL r) (herror : r.error = none) {fuel : Nat}
    (hfuel : L.maxBufferedBytes / 32 < fuel) {bytes : List UInt8}
    (hfits : bytes.length + L.maxFrameSize ≤ L.maxBufferedBytes + 1) :
    ∃ decoder drained, r.decoder.push bytes = (.ok (), decoder) ∧
      drain fuel decoder = some drained ∧
      drained.decoder.limits = L ∧ drained.decoder.Tidy ∧
      (framer L hL).parse (received r.log ++ bytes) =
        ⟨r.messages ++ drained.messages, drained.error, drained.decoder.unread⟩ := by
  have hwaiting := h.unread_lt herror
  obtain ⟨hlimits, htidy, hparse, -⟩ := h
  have hqueue := StreamDecoder.actsAsQueue_of_tidy htidy
  rw [hlimits] at hqueue
  have hok : (r.decoder.push bytes).1 = .ok () :=
    (hqueue.push_ok_iff bytes).2 ⟨(Limits.valid_iff L).2 hL, by omega⟩
  obtain ⟨-, -, hlimits', htidy'⟩ := StreamDecoder.push_spec htidy bytes
  have hunread := hqueue.unread_of_push bytes hok
  rw [hlimits] at hlimits'
  have hlength : (r.decoder.push bytes).2.unread.length / 32 < fuel := by
    have hle := htidy'.length_le
    rw [hlimits'] at hle
    rw [StreamDecoder.length_unread]
    omega
  obtain ⟨decoder, hdrain, hlimits'', htidy'', hrest⟩ :=
    Protocol.drain_eq hL hlimits' htidy' hlength
  refine ⟨(r.decoder.push bytes).2, _, Prod.ext hok rfl, hdrain, hlimits'', htidy'', ?_⟩
  rw [(framer L hL).parse_append (by rw [hparse]; exact herror), hparse]
  dsimp only
  rw [hrest, hunread]

/-- **One round keeps the loop in step.** -/
theorem InStep.round (h : InStep L hL r) (hN : ReceivesAtMost N) {fuel : Nat}
    (hfuel : L.maxBufferedBytes / 32 < fuel) {size : Nat}
    (hsize : size + L.maxFrameSize ≤ L.maxBufferedBytes + 1) :
    InStep L hL (r.round N fuel size) := by
  cases hending : r.ending with
  | some ending =>
      simp only [Receiver.round, hending]
      exact h
  | none =>
      have herror : r.error = none := by simp [error, hending]
      obtain ⟨hreceived, -, -, hgiven⟩ := TcpStream.receive_traffic (N := N) size r.stream r.log
      simp only [Receiver.round, hending]
      split
      · rename_i e stream log hrun
        rw [hrun] at hreceived
        have hlog : received log = received r.log := hreceived.trans (List.append_nil _)
        refine ⟨h.limits_eq, h.tidy, ?_, by simp [Sound]⟩
        simpa [hlog, error, hending] using h.parsed
      · rename_i bytes stream log hrun
        rw [hrun] at hreceived hgiven
        have hlog : received log = received r.log ++ bytes := hreceived
        have hbytes : bytes.length ≤ size := by
          by_cases hempty : bytes = []
          · simp [hempty]
          · obtain ⟨socket, hsocket⟩ := hgiven bytes rfl hempty
            exact hN _ _ _ _ hsocket
        obtain ⟨decoder, drained, hpush, hdrain, hlimits, htidy, hparse⟩ :=
          h.pump herror hfuel (show bytes.length + L.maxFrameSize ≤ L.maxBufferedBytes + 1 by omega)
        simp only [hpush, hdrain]
        refine ⟨hlimits, htidy, ?_, ?_⟩
        · rw [hlog, hparse]
          cases hdrained : drained.error <;> simp [error]
        · cases drained.error <;> simp [Sound]

theorem InStep.rounds (h : InStep L hL r) (hN : ReceivesAtMost N) {fuel : Nat}
    (hfuel : L.maxBufferedBytes / 32 < fuel) {sizes : List Nat}
    (hsizes : ∀ size ∈ sizes, size + L.maxFrameSize ≤ L.maxBufferedBytes + 1) :
    InStep L hL (r.rounds N fuel sizes) := by
  induction sizes generalizing r with
  | nil => exact h
  | cons size sizes ih =>
      have hfirst := h.round hN hfuel (hsizes size (List.mem_cons_self ..))
      exact ih hfirst fun size' hmem => hsizes size' (List.mem_cons_of_mem _ hmem)

/-- **The receive loop is exact.**  On any stream, against any peer, with any number of
rounds whose spans leave room for one frame but a byte: no push is refused, draining ends,
and the messages returned so far and the error of `next()`, if there is one, are those of
decoding all bytes received so far at once.  Until there is an error less than one frame
stays in the buffer. -/
theorem receive_loop_exact (L : Limits p) (hL : L.valid = true) (hN : ReceivesAtMost N)
    (fuel : Nat) (hfuel : L.maxBufferedBytes / 32 < fuel) (s : TcpStream) (sizes : List Nat)
    (hsizes : ∀ size ∈ sizes, size + L.maxFrameSize ≤ L.maxBufferedBytes + 1) :
    let r := rounds N fuel { stream := s, decoder := { limits := L } } sizes
    r.Sound ∧ decodeAll L (received r.log) = (r.messages, r.error) ∧
      (r.error = none → r.decoder.bufferedSize < L.maxFrameSize) := by
  intro r
  have hV : L.Valid := (Limits.valid_iff L).1 hL
  have h : InStep L hV r := (inStep_start hV s).rounds hN hfuel hsizes
  refine ⟨h.sound, ?_, ?_⟩
  · rw [Protocol.decodeAll_eq_parse hV, h.parsed]
  · intro herror
    rw [h.tidy.bufferedSize_eq]
    exact h.unread_lt herror

/-- A peer that sends a frame with one byte of payload, one byte at a time. -/
def trickling : Native :=
  { Native.obliging with
    receiveSocket := fun log _ size => .ok
      (((Protocol.wireLayout { payload := [9] }).drop (received log).length).take (min size 1)) }

theorem receive_loop_exact_trickling :
    ReceivesAtMost trickling ∧
      let r := rounds trickling 2 { stream := ⟨some { socket := some 3 }⟩
                                    decoder := { limits := Protocol.smallTestLimits } }
        (List.replicate 33 1)
      r.Sound ∧ decodeAll Protocol.smallTestLimits (received r.log) = (r.messages, r.error) := by
  have hN : ReceivesAtMost trickling := by
    intro log socket size bytes h
    cases h
    simp
  have h := receive_loop_exact Protocol.smallTestLimits (by decide) hN 2 (by decide)
    ⟨some { socket := some 3 }⟩ (List.replicate 33 1) (by decide)
  exact ⟨hN, h.1, h.2.1⟩

end Receiver
end System
end Vosp
