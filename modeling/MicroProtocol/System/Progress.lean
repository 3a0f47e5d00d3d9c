import MicroProtocol.System.Connection

/-!
# A connection can always finish

`connection_delivers` is about what cannot go wrong.  Here it is shown that the two ends never
get stuck: from wherever they are, as long as both are connected, the receiver can go on to
a state in which everything that was posted has been delivered.

The run that does it is the receive loop: come to rest, take some of the bytes that are
left, and so on.  What can be in its way is a chunk that does not fit behind the beginning
of a frame, and a message that is beyond the limits of the receiver; both are excluded.
-/

namespace Vosp
namespace System

open Protocol (Limits Message Session Turn wireLayout)
open Protocol.FrameCodec (encode framer)
open Transport (Native Handle TcpStream SendsAtMost transmitted received)

variable {p : Side → Platform} {decoding : (side : Side) → Limits (p side)}
  {hdecoding : ∀ side, (decoding side).Valid} {l : Link p} {side : Side}

/-- Messages that the receiver's limits allow are read without an error. -/
theorem Conveys.parse_error {p q : Platform} {L : Limits q} {hL : L.Valid} {a : Peer p} {b : Peer q}
    (h : Conveys L hL a b) (hfits : ∀ m ∈ a.posted, ∃ f, encode L m = .ok f) :
    ((framer L hL).parse (received b.log)).error = none := by
  obtain ⟨j, -, -, herror, -⟩ := Protocol.parse_beginning hL h.posted (h.arrived.trans h.sent)
  cases hparse : ((framer L hL).parse (received b.log)).error with
  | none => rfl
  | some e =>
      obtain ⟨m, hm, hnot, -⟩ := herror e hparse
      obtain ⟨f, hf⟩ := hfits m (List.mem_of_getElem? hm)
      exact absurd (Protocol.FrameCodec.encode_eq_ok_iff.1 hf).2.1 hnot

/-- The end `side` of the connection takes the turns, and nothing else happens. -/
def Link.turns (l : Link p) (side : Side) (turns : List Turn) : Link p :=
  Function.update l side { l side with session := (l side).session.run turns }

theorem Link.run_turns (h : l.Conveys hdecoding) (turns : List Turn) :
    l.Run (l.turns side turns) := by
  induction turns generalizing l with
  | nil =>
      have hsame : l.turns side [] = l := Function.update_eq_self side l
      rw [hsame]
  | cons turn turns ih =>
      have hstep : l.Step (l.after (holding []) side (.turn turn)) :=
        step_holding (by simpa using (h side).arrived)
      have hrest := ih (h.step hstep)
      have hsame : (l.after (holding []) side (.turn turn)).turns side turns
          = l.turns side (turn :: turns) := by
        simp only [Link.turns, Link.after, Function.update_self, Function.update_idem]
        rfl
      rw [hsame] at hrest
      exact .head hstep hrest

/-- The end `side` receives `chunk` into a span of `size` bytes. -/
theorem Link.take_eq {socket : Handle} (hsocket : (l side).stream.socket = some socket)
    {chunk : List UInt8} (hne : chunk ≠ []) {size : Nat} (hsize : size ≠ 0) :
    l.after (holding chunk) side (.take size) = Function.update l side
      { l side with
        log := .receiveSocket socket size (.ok chunk) :: (l side).log
        session := (l side).session.offer chunk } := by
  obtain ⟨byte, bytes, rfl⟩ := List.exists_cons_of_ne_nil hne
  have hrun := TcpStream.run_receive (N := holding (byte :: bytes)) hsocket hsize (l side).log
  have hgiven : (holding (byte :: bytes)).receiveSocket (l side).log socket size
      = .ok (byte :: bytes) := rfl
  simp only [hgiven] at hrun
  simp only [Link.after, Peer.act, hrun]

/-- What is left can be taken in spans of any size. -/
theorem Link.takes (l : Link p) (side : Side) {left : List UInt8} (hne : left ≠ [])
    (hleft : received (l side).log ++ left = transmitted (l side.other).log)
    (hconnected : (l side).stream.connected = true) {size : Nat} (hsize : size ≠ 0) :
    ∃ l', l.Step l' ∧ l' side.other = l side.other ∧ (l' side).stream = (l side).stream ∧
      (l' side).session.pending = (l side).session.pending ++ [left.take size] ∧
      received (l' side).log = received (l side).log ++ left.take size := by
  obtain ⟨socket, hsocket⟩ := Option.isSome_iff_exists.1 hconnected
  have hchunk : left.take size ≠ [] := by
    rw [ne_eq, List.take_eq_nil_iff]
    tauto
  have hstep : l.Step (l.after (holding (left.take size)) side (.take size)) := by
    refine step_holding ?_
    rw [← hleft]
    exact (List.prefix_append_right_inj _).2 (List.take_prefix ..)
  rw [Link.take_eq hsocket hchunk hsize] at hstep
  refine ⟨_, hstep, Function.update_of_ne side.other_ne .., ?_⟩
  rw [Function.update_self]
  exact ⟨rfl, rfl, rfl⟩

/-- A chunk of this size fits behind the beginning of a frame. -/
def spanSize {p : Platform} (L : Limits p) : Nat := L.maxBufferedBytes + 1 - L.maxFrameSize

/-- **The receiver catches up**, by induction on the bytes that have not been received. -/
theorem Link.Conveys.completes (h : l.Conveys hdecoding)
    (hfits : ∀ m ∈ (l side.other).posted, ∃ f, encode (decoding side) m = .ok f)
    (hsender : (l side.other).stream.connected = true)
    (hreceiver : (l side).stream.connected = true)
    (hpending : ∀ chunk ∈ (l side).session.pending, chunk.length ≤ spanSize (decoding side)) :
    ∃ l', l.Run l' ∧ l' side.other = l side.other ∧
      (l' side).session.delivered = (l side.other).posted := by
  induction hn : (transmitted (l side.other).log).length - (received (l side).log).length
    using Nat.strong_induction_on generalizing l with
  | _ n ih =>
      have hroom := (hdecoding side).frame_le_buffered
      -- first come to rest
      obtain ⟨turns, hempty, hnext⟩ := (h side).reads.settles ((h side).parse_error hfits)
        (fun chunk hmem => by
          have hle := hpending chunk hmem
          rw [spanSize] at hle
          omega)
      have hrun : l.Run (l.turns side turns) := Link.run_turns h turns
      have hrest := h.run hrun
      have hside : l.turns side turns side
          = { l side with session := (l side).session.run turns } := Function.update_self ..
      have hother : l.turns side turns side.other = l side.other :=
        Function.update_of_ne side.other_ne ..
      generalize l.turns side turns = rested at hrun hrest hside hother
      by_cases hall : received (l side).log = transmitted (l side.other).log
      · refine ⟨rested, hrun, hother, ?_⟩
        rw [(hrest side).all_delivered (by rw [hside]; exact hempty) (by rw [hside]; exact hnext)
          (by rw [hside, hother]; exact hall) (by rw [hother]; exact hsender), hother]
      · -- then take a part of what is left
        obtain ⟨left, hleft⟩ := (h side).arrived
        have hne : left ≠ [] := by
          rintro rfl
          rw [List.append_nil] at hleft
          exact hall hleft
        have hpos : spanSize (decoding side) ≠ 0 := by
          rw [spanSize]
          omega
        obtain ⟨taken, hstep, hother', hstream, hchunk, hreceived⟩ :=
          rested.takes side hne (by rw [hside, hother]; exact hleft)
            (by rw [hside]; exact hreceiver) hpos
        rw [hside] at hstream hchunk hreceived
        rw [hother] at hother'
        have hlength := congrArg List.length hleft
        have hpositive := List.length_pos_iff.2 hne
        obtain ⟨l', hrun', hother'', hdelivered⟩ := ih
          ((transmitted (taken side.other).log).length - (received (taken side).log).length)
          (by
            rw [hother', hreceived, ← hn]
            simp only [List.length_append, List.length_take] at hlength ⊢
            omega)
          (hrest.step hstep) (by rwa [hother']) (by rwa [hother']) (by rwa [hstream])
          (by
            rw [hchunk]
            simp only [hempty, List.nil_append, List.mem_singleton]
            rintro chunk rfl
            exact List.length_take_le ..)
          rfl
        rw [hother'] at hother'' hdelivered
        exact ⟨l', hrun.trans (.head hstep hrun'), hother'', hdelivered⟩

/-- **A connection can finish.**  Whatever the two ends have done so far, in any order and
with any fragmentation: while both are connected, the receiver can go on by itself until
it has delivered all that was posted, provided its limits allow the messages and the chunks
that it has taken already fit behind the beginning of a frame. -/
theorem connection_completes (encoding : (side : Side) → Limits (p side))
    (hvalid : ∀ side, (decoding side).valid = true) (socket : Side → Handle)
    (hrun : (Link.start encoding decoding socket).Run l) (side : Side)
    (hfits : ∀ m ∈ (l side.other).posted, ∃ f, encode (decoding side) m = .ok f)
    (hsender : (l side.other).stream.connected = true)
    (hreceiver : (l side).stream.connected = true)
    (hpending : ∀ chunk ∈ (l side).session.pending, chunk.length ≤ spanSize (decoding side)) :
    ∃ l', l.Run l' ∧ l' side.other = l side.other ∧
      (l' side).session.delivered = (l side.other).posted := by
  have hdecoding : ∀ side, (decoding side).Valid := fun side => (Limits.valid_iff _).1 (hvalid side)
  exact ((Link.conveys_start hdecoding encoding socket).run hrun).completes hfits hsender hreceiver
    hpending

/-- The server can receive the message of one byte, though its spans hold only a byte. -/
theorem connection_completes_one_byte :
    spanSize Protocol.smallTestLimits = 1 ∧
    ∃ l', afterPost.Run l' ∧ l' .client = afterPost .client ∧
      (l' .server).session.delivered = [oneByte] := by
  refine ⟨by decide, connection_completes (fun _ => Protocol.smallTestLimits) (fun _ => by decide) _
    (.single step_afterPost) .server ?_ (by decide) (by decide) (by decide)⟩
  intro m hm
  rw [List.mem_singleton.1 hm]
  exact ⟨wireLayout oneByte, by decide⟩

end System
end Vosp
