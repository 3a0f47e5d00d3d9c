import MicroProtocol.Protocol.StreamReading
import MicroProtocol.Transport.Traffic

/-!
# A TCP connection that carries frames

Protocol and transport meet in the program that uses them: frames go from `encode` to
`send_all`, and what `receive` returns goes to a `StreamDecoder`.  This file puts both
ends of a connection together, with all their steps in any order.

* `Peer` and `Peer.act` — one end: its stream, its decoder with the chunks that have not been
  accepted yet, and the log of its native calls.
* `Link.Step` — a step of either end.  The operating system may do anything that TCP
  allows: a native send takes any part of the bytes, a native receive returns any of the
  bytes that were sent and not received, every call may fail.
* `Conveys` — the invariant of one direction; both ends' steps keep it.
* `connection_delivers` — **nothing is lost, doubled, reordered or made up**, whatever the
  interleaving, the fragmentation and the byte at which the connection breaks.

The two ends may be different platforms with different limits, and neither knows the
other's.
-/

namespace Vosp
namespace System

open Protocol (Limits Message Session Turn wireLayout)
open Protocol.FrameCodec (encode Fits Representable)
open Transport (Native Log Handle TcpStream SendsAtMost transmitted received)

/-! ## The two ends -/

/-- One end of a connection. -/
structure Peer (p : Platform) where
  /-- The limits of its `FrameCodec`. -/
  limits : Limits p
  stream : TcpStream
  /-- Its decoder, the chunks still to be pushed, and what `next()` answered. -/
  session : Session p
  log : Log := []
  /-- The messages whose frames were given to `send_all`, oldest first. -/
  posted : List Message := []

/-- What the program at one end can do. -/
inductive Action where
  /-- Encode a message and send the frame. -/
  | post (message : Message)
  /-- Receive into a span of `size` bytes; what arrived is to be pushed. -/
  | take (size : Nat)
  /-- Push the oldest chunk, or call `next()`. -/
  | turn (turn : Turn)
  | close

namespace Peer

variable {p : Platform}

/-- A peer that has just been connected. -/
def connected (limits : Limits p) (socket : Handle) : Peer p where
  limits := limits
  stream := ⟨some { socket := some socket }⟩
  session := .start limits []

/-- One action, with the operating system `N`. -/
def act (N : Native) (a : Peer p) : Action → Peer p
  | .post message =>
      match encode a.limits message with
      | .error _ => a
      | .ok frame =>
          let ((_, stream), log) := (a.stream.sendAll N frame).run a.log
          { a with stream := stream, log := log, posted := a.posted ++ [message] }
  | .take size =>
      match (a.stream.receive N size).run a.log with
      | ((.ok bytes, stream), log) =>
          { a with stream := stream, log := log, session := a.session.offer bytes }
      | ((.error _, stream), log) => { a with stream := stream, log := log }
  | .turn turn => { a with session := a.session.turn turn }
  | .close =>
      let (stream, log) := a.stream.close.run a.log
      { a with stream := stream, log := log }

end Peer

/-- The two ends of a connection. -/
inductive Side where
  | client
  | server
  deriving DecidableEq

/-- The other end. -/
def Side.other : Side → Side
  | .client => .server
  | .server => .client

theorem Side.other_ne (side : Side) : side.other ≠ side := by
  cases side <;> decide

/-- A connection, with a platform for each end. -/
abbrev Link (p : Side → Platform) := (side : Side) → Peer (p side)

namespace Link

variable {p : Side → Platform}

/-- A connection that has just been made. -/
def start (encoding decoding : (side : Side) → Limits (p side)) (socket : Side → Handle) : Link p :=
  fun side =>
    { limits := encoding side
      stream := ⟨some { socket := some (socket side) }⟩
      session := .start (decoding side) [] }

/-- What TCP promises to one end: a native receive gives the next of the bytes that the
native sends of the other end took. -/
def Carries (N : Native) (l : Link p) (side : Side) : Prop :=
  ∀ socket size bytes, N.receiveSocket (l side).log socket size = .ok bytes →
    received (l side).log ++ bytes <+: transmitted (l side.other).log

/-- The connection after an action of one end. -/
def after (N : Native) (l : Link p) (side : Side) (action : Action) : Link p :=
  Function.update l side ((l side).act N action)

/-- One end acts.  The operating system `N` is whatever answers its native calls at that
moment. -/
inductive Step (l : Link p) : Link p → Prop where
  | act {N : Native} (side : Side) (action : Action) (hsend : SendsAtMost N)
      (hcarry : Carries N l side) : Step l (l.after N side action)

/-- Steps of the two ends in any order. -/
abbrev Run : Link p → Link p → Prop := Relation.ReflTransGen Step

end Link

/-! ## One direction -/

/-- The messages of `a` on their way to `b`, whose decoder has the limits `L`. -/
structure Conveys {p q : Platform} (L : Limits q) (hL : L.Valid) (a : Peer p) (b : Peer q) :
    Prop where
  posted : ∀ m ∈ a.posted, Representable m
  sent : transmitted a.log <+: (a.posted.map wireLayout).flatten
  /-- A stream that is still connected has sent every frame to its end. -/
  sent_all : a.stream.connected = true → transmitted a.log = (a.posted.map wireLayout).flatten
  arrived : received b.log <+: transmitted a.log
  reads : b.session.Reads L hL (received b.log)

namespace Conveys

variable {p q : Platform} {L : Limits q} {hL : L.Valid} {a : Peer p} {b : Peer q} {N : Native}

/-- Two ends that have not done anything. -/
theorem of_fresh (hposted : a.posted = []) (ha : a.log = []) (hb : b.log = [])
    (hsession : b.session = .start L []) : Conveys L hL a b := by
  refine ⟨?_, ?_, ?_, ?_, ?_⟩
  · simp [hposted]
  · simp [ha, transmitted]
  · intro _
    rw [hposted, ha]
    rfl
  · rw [ha, hb]
    exact List.prefix_refl _
  · rw [hb, hsession]
    exact Protocol.Session.reads_start _ _

/-- The sender posts another message. -/
theorem post (h : Conveys L hL a b) (hsend : SendsAtMost N) {message : Message} {frame : List UInt8}
    (hframe : encode a.limits message = .ok frame) :
    Conveys L hL { a with
      stream := ((a.stream.sendAll N frame).run a.log).1.2
      log := ((a.stream.sendAll N frame).run a.log).2
      posted := a.posted ++ [message] } b := by
  obtain ⟨hlimits, hfits, rfl⟩ := Protocol.FrameCodec.encode_eq_ok_iff.1 hframe
  obtain ⟨-, sent, htrans, hprefix, hclosed, hall⟩ :=
    TcpStream.sendAll_traffic hsend (wireLayout message) a.stream a.log
  have hflatten : ((a.posted ++ [message]).map wireLayout).flatten
      = (a.posted.map wireLayout).flatten ++ wireLayout message := by simp
  refine ⟨?_, ?_, ?_, ?_, h.reads⟩
  · intro m hm
    rcases List.mem_append.1 hm with hm | hm
    · exact h.posted m hm
    · rw [List.mem_singleton.1 hm]
      exact hfits.representable hlimits
  · rw [htrans, hflatten]
    rcases hclosed with hconnected | rfl
    · rw [h.sent_all hconnected]
      exact (List.prefix_append_right_inj _).2 hprefix
    · rw [List.append_nil]
      exact h.sent.trans (List.prefix_append ..)
  · intro hconnected
    obtain ⟨hbefore, rfl⟩ := hall hconnected
    rw [htrans, hflatten, h.sent_all hbefore]
  · rw [htrans]
    exact h.arrived.trans (List.prefix_append ..)

/-- What the sender does apart from posting, as far as its own direction goes: at most its
stream is closed. -/
theorem sender_idle (h : Conveys L hL a b) {a' : Peer p} (hposted : a'.posted = a.posted)
    (htrans : transmitted a'.log = transmitted a.log)
    (hconnected : a'.stream.connected = true → a.stream.connected = true) :
    Conveys L hL a' b := by
  refine ⟨?_, ?_, ?_, ?_, h.reads⟩
  · rw [hposted]
    exact h.posted
  · rw [hposted, htrans]
    exact h.sent
  · intro hlater
    rw [hposted, htrans]
    exact h.sent_all (hconnected hlater)
  · rw [htrans]
    exact h.arrived

/-- **The sender acts.** -/
theorem sender (h : Conveys L hL a b) (hsend : SendsAtMost N) (action : Action) :
    Conveys L hL (a.act N action) b := by
  cases action with
  | post message =>
      cases hframe : encode a.limits message with
      | error e =>
          simp only [Peer.act, hframe]
          exact h
      | ok frame =>
          simp only [Peer.act, hframe]
          exact h.post hsend hframe
  | take size =>
      obtain ⟨-, htrans, hconnected, -⟩ := TcpStream.receive_traffic (N := N) size a.stream a.log
      simp only [Peer.act]
      split
      · rename_i hrun
        rw [hrun] at htrans hconnected
        exact h.sender_idle rfl htrans hconnected
      · rename_i hrun
        rw [hrun] at htrans hconnected
        exact h.sender_idle rfl htrans hconnected
  | turn turn => exact h.sender_idle rfl rfl id
  | close =>
      obtain ⟨-, htrans, hclosed⟩ := TcpStream.close_traffic a.stream a.log
      refine h.sender_idle rfl htrans fun hconnected => ?_
      have hsame : (a.act N .close).stream = (a.stream.close.run a.log).1 := rfl
      rw [hsame, hclosed] at hconnected
      cases hconnected

/-- The receiver takes bytes off the network. -/
theorem take (h : Conveys L hL a b) {size : Nat}
    (hcarry : ∀ socket bytes, N.receiveSocket b.log socket size = .ok bytes →
      received b.log ++ bytes <+: transmitted a.log) :
    Conveys L hL a (b.act N (.take size)) := by
  obtain ⟨hreceived, -, -, hgiven⟩ := TcpStream.receive_traffic (N := N) size b.stream b.log
  simp only [Peer.act]
  split
  · rename_i bytes stream log hrun
    rw [hrun] at hreceived hgiven
    have hlog : received log = received b.log ++ bytes := hreceived
    refine ⟨h.posted, h.sent, h.sent_all, ?_, ?_⟩
    · rw [hlog]
      by_cases hempty : bytes = []
      · rw [hempty, List.append_nil]
        exact h.arrived
      · obtain ⟨socket, hsocket⟩ := hgiven bytes rfl hempty
        exact hcarry socket bytes hsocket
    · rw [hlog]
      exact h.reads.offer bytes
  · rename_i e stream log hrun
    rw [hrun] at hreceived
    have hlog : received log = received b.log := hreceived.trans (List.append_nil _)
    exact ⟨h.posted, h.sent, h.sent_all, hlog ▸ h.arrived, hlog ▸ h.reads⟩

/-- **The receiver acts.** -/
theorem receiver (h : Conveys L hL a b) (hsend : SendsAtMost N)
    (hcarry : ∀ socket size bytes, N.receiveSocket b.log socket size = .ok bytes →
      received b.log ++ bytes <+: transmitted a.log) (action : Action) :
    Conveys L hL a (b.act N action) := by
  cases action with
  | post message =>
      cases hframe : encode b.limits message with
      | error e =>
          simp only [Peer.act, hframe]
          exact h
      | ok frame =>
          have hlog := (TcpStream.sendAll_traffic hsend frame b.stream b.log).1
          simp only [Peer.act, hframe]
          exact ⟨h.posted, h.sent, h.sent_all, hlog ▸ h.arrived, hlog ▸ h.reads⟩
  | take size => exact h.take fun socket bytes => hcarry socket size bytes
  | turn turn => exact ⟨h.posted, h.sent, h.sent_all, h.arrived, h.reads.turn turn⟩
  | close =>
      have hlog := (TcpStream.close_traffic b.stream b.log).1
      exact ⟨h.posted, h.sent, h.sent_all, hlog ▸ h.arrived, hlog ▸ h.reads⟩

/-- What was delivered is a beginning of what was posted. -/
theorem delivered_isPrefix (h : Conveys L hL a b) : b.session.delivered <+: a.posted := by
  obtain ⟨j, -, hitems, -, -⟩ := Protocol.parse_beginning hL h.posted (h.arrived.trans h.sent)
  have hdelivered := h.reads.delivered_prefix
  rw [hitems] at hdelivered
  exact hdelivered.trans (List.take_prefix ..)

/-- The receiver stops only at a message that its own limits do not allow. -/
theorem refused (h : Conveys L hL a b) {e : Protocol.Error}
    (he : Except.error e ∈ b.session.answers) :
    e.code = .limitExceeded ∧
      ∃ m, a.posted[b.session.delivered.length]? = some m ∧ ∀ f, encode L m ≠ .ok f := by
  obtain ⟨j, hj, hitems, herror, -⟩ := Protocol.parse_beginning hL h.posted (h.arrived.trans h.sent)
  obtain ⟨hdelivered, hparse⟩ := h.reads.parse_of_error he
  obtain ⟨m, hm, hfits, hcode⟩ := herror e hparse
  refine ⟨hcode, m, ?_, ?_⟩
  · rw [← hdelivered, hitems, List.length_take, Nat.min_eq_left hj]
    exact hm
  · intro f hf
    exact hfits (Protocol.FrameCodec.encode_eq_ok_iff.1 hf).2.1

/-- When nothing is left to read, the messages whose frames arrived to their end have been
delivered. -/
theorem delivered_iff (h : Conveys L hL a b) (hpending : b.session.pending = [])
    (hnext : b.session.decoder.next.1 = .ok none) :
    ∀ i < a.posted.length, i < b.session.delivered.length ↔
      ((a.posted.take (i + 1)).map wireLayout).flatten.length ≤ (received b.log).length := by
  obtain ⟨j, hj, hitems, -, hinside⟩ :=
    Protocol.parse_beginning hL h.posted (h.arrived.trans h.sent)
  rw [h.reads.parse_of_waiting hpending hnext] at hitems hinside
  have hdelivered : b.session.delivered = a.posted.take j := hitems
  rw [hdelivered, List.length_take, Nat.min_eq_left hj]
  exact hinside rfl

/-- And that is all of them, if all bytes have arrived and the sender has not been cut off. -/
theorem all_delivered (h : Conveys L hL a b) (hpending : b.session.pending = [])
    (hnext : b.session.decoder.next.1 = .ok none) (hall : received b.log = transmitted a.log)
    (hconnected : a.stream.connected = true) : b.session.delivered = a.posted := by
  refine h.delivered_isPrefix.eq_of_length_le ?_
  by_contra hlt
  have hlast := (h.delivered_iff hpending hnext (a.posted.length - 1) (by omega)).2 (by
    rw [List.take_of_length_le (by omega), hall, h.sent_all hconnected])
  omega

end Conveys

/-! ## The connection -/

section Connection

variable {p : Side → Platform} {decoding : (side : Side) → Limits (p side)}

/-- Both directions at once. -/
def Link.Conveys (hdecoding : ∀ side, (decoding side).Valid) (l : Link p) : Prop :=
  ∀ side, System.Conveys (decoding side) (hdecoding side) (l side.other) (l side)

theorem Link.conveys_start (hdecoding : ∀ side, (decoding side).Valid)
    (encoding : (side : Side) → Limits (p side)) (socket : Side → Handle) :
    (Link.start encoding decoding socket).Conveys hdecoding := by
  intro side
  exact .of_fresh rfl rfl rfl rfl

/-- A step of one end is a step of the sender of one direction and of the receiver of the
other. -/
theorem Link.Conveys.step {hdecoding : ∀ side, (decoding side).Valid} {l l' : Link p}
    (h : l.Conveys hdecoding) (hstep : l.Step l') : l'.Conveys hdecoding := by
  obtain ⟨side, action, hsend, hcarry⟩ := hstep
  unfold Link.after
  intro side'
  by_cases hside : side' = side
  · subst hside
    rw [Function.update_self, Function.update_of_ne side'.other_ne]
    exact (h side').receiver hsend hcarry action
  · have hother : side'.other = side := by
      cases side' <;> cases side <;> first | rfl | exact absurd rfl hside
    subst hother
    rw [Function.update_self, Function.update_of_ne hside]
    exact (h side').sender hsend action

theorem Link.Conveys.run {hdecoding : ∀ side, (decoding side).Valid} {l l' : Link p}
    (h : l.Conveys hdecoding) (hrun : l.Run l') : l'.Conveys hdecoding := by
  induction hrun with
  | refl => exact h
  | tail _ hstep ih => exact ih.step hstep

/-- **A connection delivers.**  Both ends send, receive, push, call `next()` and close in
any order, and the network cuts the bytes and breaks off as it likes.  At every moment, in
both directions: the messages delivered are a beginning of those that the other end
posted.  If a `next()` failed, then with `limit_exceeded`, and the next message is one
that the receiver's own limits do not allow.  And when all bytes have been pushed and
`next()` has nothing to return, exactly the messages whose frames went out to their end
have been delivered; that is all of them if the sender is still connected. -/
theorem connection_delivers (encoding : (side : Side) → Limits (p side))
    (hvalid : ∀ side, (decoding side).valid = true) (socket : Side → Handle) {l : Link p}
    (hrun : (Link.start encoding decoding socket).Run l) (side : Side) :
    (l side).session.delivered <+: (l side.other).posted ∧
    (∀ e, Except.error e ∈ (l side).session.answers → e.code = .limitExceeded ∧
      ∃ m, (l side.other).posted[(l side).session.delivered.length]? = some m ∧
        ∀ f, encode (decoding side) m ≠ .ok f) ∧
    ((l side).session.pending = [] → (l side).session.decoder.next.1 = .ok none →
      (∀ i < (l side.other).posted.length, i < (l side).session.delivered.length ↔
        (((l side.other).posted.take (i + 1)).map wireLayout).flatten.length ≤
          (received (l side).log).length) ∧
      (received (l side).log = transmitted (l side.other).log →
        (l side.other).stream.connected = true →
          (l side).session.delivered = (l side.other).posted)) := by
  have hdecoding : ∀ side, (decoding side).Valid := fun side => (Limits.valid_iff _).1 (hvalid side)
  have h := (Link.conveys_start hdecoding encoding socket).run hrun side
  refine ⟨h.delivered_isPrefix, fun e he => h.refused he, fun hpending hnext => ⟨?_, ?_⟩⟩
  · exact h.delivered_iff hpending hnext
  · intro hall hconnected
    exact h.all_delivered hpending hnext hall hconnected

end Connection

/-- An operating system that takes all it can, with `bytes` to be received. -/
def holding (bytes : List UInt8) : Native :=
  { Native.obliging with
    sendSocket := fun _ _ offered => .ok (min offered.length Transport.intMax)
    receiveSocket := fun _ _ _ => .ok bytes }

theorem sendsAtMost_holding (bytes : List UInt8) : SendsAtMost (holding bytes) := by
  intro log socket offered n h
  cases h
  exact le_rfl

/-- It carries what there is to be received. -/
theorem step_holding {p : Side → Platform} {l : Link p} {side : Side} {bytes : List UInt8}
    {action : Action}
    (h : received (l side).log ++ bytes <+: transmitted (l side.other).log) :
    l.Step (l.after (holding bytes) side action) := by
  refine .act side action (sendsAtMost_holding bytes) fun socket size given hgiven => ?_
  cases hgiven
  exact h

/-- A connection between two peers with small limits, at the sockets 3 and 4. -/
def newLink : Link (fun _ => .bits64) :=
  .start (fun _ => Protocol.smallTestLimits) (fun _ => Protocol.smallTestLimits)
    (fun side => if side = .client then 3 else 4)

/-- A message of one byte. -/
def oneByte : Message := { payload := [9] }

/-- A peer that has sent it, in one native send. -/
def postedOne (socket : Handle) : Peer .bits64 :=
  { Peer.connected Protocol.smallTestLimits socket with
    log := [.sendSocket socket (wireLayout oneByte) (.ok 33)]
    posted := [oneByte] }

theorem post_oneByte (socket : Handle) :
    (Peer.connected Protocol.smallTestLimits socket).act (holding []) (.post oneByte)
      = postedOne socket := by
  have hrun : ((Peer.connected Protocol.smallTestLimits socket).stream.sendAll (holding [])
      (wireLayout oneByte)).run []
      = ((.ok 33, (Peer.connected Protocol.smallTestLimits socket).stream),
        [.sendSocket socket (wireLayout oneByte) (.ok 33)]) := by
    rw [TcpStream.sendAll, TcpStream.sendAllFrom, if_pos (by decide)]
    simp only [Logged.run_bind, List.drop_zero]
    rw [TcpStream.run_send
      (show (Peer.connected Protocol.smallTestLimits socket).stream.socket = some socket from rfl)
      (by decide)]
    change (TcpStream.sendAllFrom _ (wireLayout oneByte) 33 _).run _ = _
    rw [TcpStream.sendAllFrom, if_neg (by decide)]
    rfl
  have hframe : encode (Peer.connected Protocol.smallTestLimits socket).limits oneByte
      = .ok (wireLayout oneByte) := by
    change encode Protocol.smallTestLimits oneByte = _
    decide
  have hlog : (Peer.connected Protocol.smallTestLimits socket).log = [] := rfl
  simp only [Peer.act, hframe, hlog, hrun]
  rfl

/-- The client has sent it. -/
def afterPost : Link (fun _ => .bits64) := Function.update newLink .client (postedOne 3)

theorem after_post : newLink.after (holding []) .client (.post oneByte) = afterPost := by
  have hclient : newLink .client = Peer.connected Protocol.smallTestLimits 3 := rfl
  rw [Link.after, hclient, post_oneByte, afterPost]

theorem step_afterPost : newLink.Step afterPost := by
  rw [← after_post]
  exact step_holding (by decide)

/-- The server has received the frame, pushed it and called `next()`. -/
def afterNext : Link (fun _ => .bits64) :=
  ((afterPost.after (holding (wireLayout oneByte)) .server (.take 64)).after
    (holding []) .server (.turn .push)).after (holding []) .server (.turn .next)

theorem run_afterNext : newLink.Run afterNext := by
  unfold afterNext
  exact .tail (.tail (.tail (.single step_afterPost) (step_holding (by decide)))
    (step_holding (by decide))) (step_holding (by decide))

/-- The message sent through this connection is delivered. -/
theorem connection_delivers_one_byte : (afterNext .server).session.delivered = [oneByte] :=
  ((connection_delivers (fun _ => Protocol.smallTestLimits) (fun _ => by decide) _
    run_afterNext .server).2.2 (by decide) (by decide)).2 (by decide) (by decide)

end System
end Vosp
