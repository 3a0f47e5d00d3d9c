import MicroProtocol.Lib.Logged
import MicroProtocol.Transport.World

/-!
# Which native calls the methods make

Two native calls are special: a datagram is sent by `UdpSocket::send_to` and by
nothing else, and only `TcpStream::reconnect` ever sleeps.  All other calls are
`plain`.  The lemmas follow the programs, each for an arbitrary property `A` that
the plain calls have, so that whatever plain calls leave alone is left alone by
the methods (`Logged.Makes.keeps`).
-/

namespace Vosp
namespace Transport

open Detail Logged

/-- Neither a datagram that is sent nor a sleep. -/
def Event.plain : Event → Bool
  | .sendDatagram .. => false
  | .sleepFor _ => false
  | _ => true

/-- Not a datagram that is sent. -/
def Event.noDatagram : Event → Bool
  | .sendDatagram .. => false
  | _ => true

theorem Event.noDatagram_of_plain {e : Event} (h : e.plain = true) : e.noDatagram = true := by
  cases e
  case sendDatagram => cases h
  all_goals rfl

/-- The call neither opens nor closes a handle. -/
def Event.Still (e : Event) : Prop := e.access.opens = none ∧ e.access.closes = none

variable {N : Native} {A : Event → Prop}

/-! ## Methods that only ask -/

section Still

variable (hA : ∀ e : Event, e.Still → e.plain = true → A e)

include hA

/-- Asking for the address of a socket, as both `local_endpoint`s do. -/
theorem makes_addressOf {socket : Handle} :
    Makes A (do
      match ← localAddress N socket with
      | .error e => pure (.error e)
      | .ok address => toEndpoint N address) := by
  refine Makes.bind (makes_call fun log => hA _ ⟨rfl, rfl⟩ rfl) fun r => ?_
  cases r with
  | error e => exact makes_pure
  | ok address => exact makes_call fun log => hA _ ⟨rfl, rfl⟩ rfl

theorem TcpListener.makes_localEndpoint (l : TcpListener) : Makes A (l.localEndpoint N) := by
  unfold localEndpoint
  cases l.socket with
  | none => exact makes_pure
  | some socket => exact makes_addressOf hA

theorem UdpSocket.makes_localEndpoint (u : UdpSocket) : Makes A (u.localEndpoint N) := by
  unfold localEndpoint
  cases u.socket with
  | none => exact makes_pure
  | some socket => exact makes_addressOf hA

theorem UdpSocket.makes_receive (maximumSize : Nat) (u : UdpSocket) :
    Makes A (u.receive N maximumSize) := by
  unfold receive
  cases u.socket with
  | none => exact makes_pure
  | some socket =>
      dsimp only
      split_ifs
      · exact makes_pure
      refine Makes.bind (makes_call fun log => hA _ ⟨rfl, rfl⟩ rfl) fun r => ?_
      cases r with
      | error e => exact makes_pure
      | ok received =>
          refine Makes.bind (makes_call fun log => hA _ ⟨rfl, rfl⟩ rfl) fun r => ?_
          cases r with
          | error e => exact makes_pure
          | ok endpoint => exact makes_pure

end Still

/-- `ensure_open` makes calls of four kinds only. -/
theorem UdpSocket.makes_ensureOpen
    (hcreate : ∀ address type r, A (.createSocket address type r))
    (happly : ∀ socket options r, A (.applyOptions socket options r))
    (hshutdown : ∀ socket, A (.shutdown socket)) (hclose : ∀ socket, A (.close socket))
    (address : NativeAddress) (impl : Impl) : Makes A (ensureOpen N address impl) := by
  unfold ensureOpen
  cases impl.socket with
  | some socket =>
      dsimp only
      split_ifs
      · exact makes_pure
      · exact makes_pure
  | none =>
      refine Makes.bind (makes_call fun log => hcreate _ _ _) fun r => ?_
      cases r with
      | error e => exact makes_pure
      | ok socket =>
          refine Makes.bind (makes_call fun log => happly _ _ _) fun r => ?_
          cases r with
          | error e =>
              refine Makes.bind (Makes.bind (makes_call fun log => hshutdown _) fun _ => ?_)
                fun _ => makes_pure
              exact makes_call fun log => hclose _
          | ok u => exact makes_pure

variable (hA : ∀ e : Event, e.plain = true → A e)

include hA

/-! ## The address loop -/

theorem makes_closeSocket (socket : Option Handle) : Makes A (closeSocket socket) := by
  cases socket with
  | none => exact makes_pure
  | some socket =>
      refine Makes.bind (makes_call fun log => hA _ rfl) fun _ => ?_
      exact makes_call fun log => hA _ rfl

omit hA in
theorem makes_prepare {socket : Handle} {steps : List (Handle → Net (Result Unit))}
    (hsteps : ∀ step ∈ steps, Makes A (step socket)) : Makes A (prepare socket steps) := by
  induction steps with
  | nil => exact makes_pure
  | cons step steps ih =>
      unfold prepare
      refine (hsteps step (List.mem_cons_self ..)).bind fun r => ?_
      cases r with
      | error e => exact makes_pure
      | ok u => exact ih fun step' h => hsteps step' (List.mem_cons_of_mem _ h)

theorem makes_openFirst {type : SocketType}
    {steps : NativeAddress → List (Handle → Net (Result Unit))}
    (hsteps : ∀ address, ∀ step ∈ steps address, ∀ socket, Makes A (step socket))
    (addresses : List NativeAddress) (lastError : Option Error) :
    Makes A (openFirst N type steps addresses lastError) := by
  induction addresses generalizing lastError with
  | nil => exact makes_pure
  | cons address addresses ih =>
      unfold openFirst
      refine Makes.bind (makes_call fun log => hA _ rfl) fun r => ?_
      cases r with
      | error e => exact ih _
      | ok socket =>
          refine (makes_prepare fun step hs => hsteps address step hs socket).bind fun r => ?_
          cases r with
          | error e => exact (makes_closeSocket hA (some socket)).bind fun _ => ih _
          | ok u => exact makes_pure

/-- The way `connect` and both `bind`s open a socket anew. -/
theorem makes_reopen {α : Type} {socket : Option Handle} {endpoint : IpEndpoint}
    {type : SocketType} {passive : Bool}
    {steps : NativeAddress → List (Handle → Net (Result Unit))}
    {onError : Error → Net α} {onOpen : Except (Option Error) (Handle × NativeAddress) → Net α}
    (hsteps : ∀ address, ∀ step ∈ steps address, ∀ socket, Makes A (step socket))
    (herror : ∀ e, Makes A (onError e)) (hopen : ∀ r, Makes A (onOpen r)) :
    Makes A (do
      closeSocket socket
      match ← resolve N endpoint type passive with
      | .error e => onError e
      | .ok addresses => openFirst N type steps addresses none >>= onOpen) := by
  refine (makes_closeSocket hA socket).bind fun _ => ?_
  refine Makes.bind (makes_call fun log => hA _ rfl) fun r => ?_
  cases r with
  | error e => exact herror e
  | ok addresses => exact (makes_openFirst hA hsteps addresses none).bind hopen

/-! ## The other methods -/

namespace TcpStream

theorem makes_close (s : TcpStream) : Makes A s.close := by
  obtain ⟨_ | impl⟩ := s
  · exact makes_pure
  · exact (makes_closeSocket hA impl.socket).bind fun _ => makes_pure

theorem makes_connect (endpoint : IpEndpoint) (s : TcpStream) : Makes A (s.connect N endpoint) := by
  obtain ⟨_ | impl⟩ := s
  · exact makes_pure
  unfold connect
  dsimp only
  split_ifs with hinvalid
  · exact makes_pure
  refine makes_reopen hA (fun address step hstep socket => ?_) (fun e => makes_pure) (fun r => ?_)
  · simp only [List.mem_cons, List.not_mem_nil, or_false] at hstep
    rcases hstep with rfl | rfl
    · exact makes_call fun log => hA _ rfl
    · exact makes_call fun log => hA _ rfl
  · rcases r with (_ | e) | ⟨socket, address⟩
    · exact makes_pure
    · exact makes_pure
    · exact makes_pure

theorem makes_reconnectLoop (hsleep : ∀ delay, A (.sleepFor delay)) (endpoint : IpEndpoint)
    (policy : ReconnectPolicy) (attempts : Nat) (delay : Int) (lastError : Option Error)
    (s : TcpStream) : Makes A (reconnectLoop N endpoint policy attempts delay lastError s) := by
  induction attempts generalizing delay lastError s with
  | zero => exact makes_pure
  | succ attempts ih =>
      unfold reconnectLoop
      refine (makes_connect hA endpoint s).bind fun r => ?_
      obtain ⟨e | u, s⟩ := r
      · dsimp only
        split_ifs
        · exact Makes.bind (makes_call fun log => hsleep delay) fun _ => ih _ _ _
        · exact ih _ _ _
      · exact makes_pure

theorem makes_reconnect (hsleep : ∀ delay, A (.sleepFor delay)) (s : TcpStream) :
    Makes A (s.reconnect N) := by
  obtain ⟨_ | ⟨socket, options, policy, _ | endpoint⟩⟩ := s
  · exact makes_pure
  · exact makes_pure
  unfold reconnect
  dsimp only
  split_ifs
  · exact makes_pure
  · exact makes_reconnectLoop hA hsleep _ _ _ _ _ _

theorem makes_send (bytes : List UInt8) (s : TcpStream) : Makes A (s.send N bytes) := by
  unfold send
  cases s.socket with
  | none => exact makes_pure
  | some socket =>
      dsimp only
      split_ifs
      · exact makes_pure
      refine Makes.bind (makes_call fun log => hA _ rfl) fun r => ?_
      cases r with
      | error e => exact (makes_close hA s).bind fun _ => makes_pure
      | ok sent => exact makes_pure

theorem makes_sendAllFrom (bytes : List UInt8) (offset : Nat) (s : TcpStream) :
    Makes A (sendAllFrom N bytes offset s) := by
  induction hleft : bytes.length - offset using Nat.strong_induction_on generalizing offset s with
  | _ left ih =>
      subst hleft
      unfold sendAllFrom
      split_ifs with hlt
      · refine (makes_send hA _ s).bind fun r => ?_
        obtain ⟨e | _ | sent, s⟩ := r
        · exact makes_pure
        · exact (makes_close hA s).bind fun _ => makes_pure
        · exact ih _ (by omega) _ _ rfl
      · exact makes_pure

theorem makes_receive (size : Nat) (s : TcpStream) : Makes A (s.receive N size) := by
  unfold receive
  cases s.socket with
  | none => exact makes_pure
  | some socket =>
      dsimp only
      split_ifs
      · exact makes_pure
      refine Makes.bind (makes_call fun log => hA _ rfl) fun r => ?_
      obtain e | _ | ⟨byte, bytes⟩ := r
      · exact (makes_close hA s).bind fun _ => makes_pure
      · exact (makes_close hA s).bind fun _ => makes_pure
      · exact makes_pure

end TcpStream

namespace TcpListener

theorem makes_close (l : TcpListener) : Makes A l.close := by
  obtain ⟨_ | impl⟩ := l
  · exact makes_pure
  · exact (makes_closeSocket hA impl.socket).bind fun _ => makes_pure

theorem makes_bind (endpoint : IpEndpoint) (backlog : Int) (l : TcpListener) :
    Makes A (l.bind N endpoint backlog) := by
  obtain ⟨_ | impl⟩ := l
  · exact makes_pure
  unfold bind
  dsimp only
  split_ifs
  · exact makes_pure
  refine makes_reopen hA (fun address step hstep socket => ?_) (fun e => makes_pure) (fun r => ?_)
  · simp only [List.mem_cons, List.not_mem_nil, or_false] at hstep
    rcases hstep with rfl | rfl | rfl
    · exact makes_call fun log => hA _ rfl
    · exact makes_call fun log => hA _ rfl
    · exact makes_call fun log => hA _ rfl
  · rcases r with (_ | e) | ⟨socket, address⟩
    · exact makes_pure
    · exact makes_pure
    · exact makes_pure

theorem makes_accept (l : TcpListener) : Makes A (l.accept N) := by
  obtain ⟨_ | ⟨_ | socket, options⟩⟩ := l
  · exact makes_pure
  · exact makes_pure
  refine Makes.bind (makes_call fun log => hA _ rfl) fun r => ?_
  cases r with
  | error e => exact makes_pure
  | ok accepted =>
      refine Makes.bind (makes_call fun log => hA _ rfl) fun r => ?_
      cases r with
      | error e => exact (makes_closeSocket hA _).bind fun _ => makes_pure
      | ok u => exact makes_pure

end TcpListener

end Transport
end Vosp
