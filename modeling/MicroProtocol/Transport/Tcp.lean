import MicroProtocol.Transport.Native

/-!
# `TcpStream` and `TcpListener`

The methods of `tcp.cpp` as programs over the native layer.  A method gets the
object and returns it, possibly changed; `implementation` is the
`std::unique_ptr` of the source, so `none` is a moved-from object.

`openFirst` is the address loop that `TcpStream::connect`, `TcpListener::bind` and
`UdpSocket::bind` share: create a socket for each address in turn, prepare it, and
close it again if a preparation step fails.
-/

namespace Vosp
namespace Transport

open Detail

/-! ## The address loop -/

/-- Run the preparation steps of a new socket, up to the first that fails. -/
def prepare (socket : Handle) : List (Handle → Net (Result Unit)) → Net (Result Unit)
  | [] => pure (.ok ())
  | step :: steps => do
      match ← step socket with
      | .error e => pure (.error e)
      | .ok () => prepare socket steps

/-- The address loop.  It ends with the first socket that could be prepared and
its address, or with `last_error`. -/
def openFirst (N : Native) (type : SocketType)
    (steps : NativeAddress → List (Handle → Net (Result Unit))) :
    List NativeAddress → Option Error → Net (Except (Option Error) (Handle × NativeAddress))
  | [], lastError => pure (.error lastError)
  | address :: addresses, _ => do
      match ← createSocket N address type with
      | .error e => openFirst N type steps addresses (some e)
      | .ok socket =>
          match ← prepare socket (steps address) with
          | .error e => do
              closeSocket (some socket)
              openFirst N type steps addresses (some e)
          | .ok () => pure (.ok (socket, address))

/-! ## `TcpStream` -/

/-- `TcpStream::Impl`. -/
structure TcpStream.Impl where
  socket : Option Handle := none
  options : IoOptions := {}
  reconnectPolicy : ReconnectPolicy := {}
  endpoint : Option IpEndpoint := none
  deriving DecidableEq, Repr

/-- `TcpStream`. -/
structure TcpStream where
  implementation : Option TcpStream.Impl
  deriving DecidableEq, Repr

namespace TcpStream

variable (N : Native)

/-- `TcpStream::TcpStream`. -/
def construct (options : IoOptions) (reconnect : ReconnectPolicy) : TcpStream :=
  ⟨some { options := options, reconnectPolicy := reconnect }⟩

/-- What `std::move` leaves behind. -/
def movedFrom : TcpStream := ⟨none⟩

/-- The socket of the stream, where it has one. -/
def socket (s : TcpStream) : Option Handle := s.implementation.bind Impl.socket

/-- `TcpStream::connected`. -/
def connected (s : TcpStream) : Bool := s.socket.isSome

/-- `TcpStream::close`. -/
def close (s : TcpStream) : Net TcpStream :=
  match s.implementation with
  | none => pure s
  | some impl => do
      closeSocket impl.socket
      pure ⟨some { impl with socket := none }⟩

/-- `TcpStream::connect`. -/
def connect (endpoint : IpEndpoint) (s : TcpStream) : Net (Result Unit × TcpStream) :=
  match s.implementation with
  | none => pure (failure .invalidArgument "cannot reuse a moved-from TCP stream", s)
  | some impl =>
      if endpoint.valid = false ∨ impl.options.valid = false ∨
          impl.reconnectPolicy.valid = false then
        pure (failure .invalidArgument "TCP endpoint or stream options are invalid", s)
      else do
        closeSocket impl.socket
        let impl := { impl with socket := none, endpoint := some endpoint }
        match ← resolve N endpoint .stream false with
        | .error e => pure (.error e, ⟨some impl⟩)
        | .ok addresses =>
            match ← openFirst N .stream
                (fun address => [applyOptions N impl.options, connectSocket N address])
                addresses none with
            | .ok (socket, _) => pure (.ok (), ⟨some { impl with socket := some socket }⟩)
            | .error (some e) => pure (.error e, ⟨some impl⟩)
            | .error none =>
                pure (failure .connectFailed "no usable TCP endpoint was resolved", ⟨some impl⟩)

/-- The loop of `TcpStream::reconnect`, with `attempts` attempts left. -/
def reconnectLoop (endpoint : IpEndpoint) (policy : ReconnectPolicy) :
    Nat → Int → Option Error → TcpStream → Net (Result Unit × TcpStream)
  | 0, _, lastError, s =>
      pure (failure .retryLimitExceeded "TCP reconnect retry limit exceeded"
        (match lastError with
          | some e => e.nativeCode
          | none => 0), s)
  | attempts + 1, delay, _, s => do
      match ← connect N endpoint s with
      | (.ok (), s) => pure (.ok (), s)
      | (.error e, s) =>
          if attempts > 0 ∧ delay > 0 then do
            sleepFor delay
            reconnectLoop endpoint policy attempts (min (delay * 2) policy.maximumDelay) (some e) s
          else reconnectLoop endpoint policy attempts delay (some e) s

/-- `TcpStream::reconnect`. -/
def reconnect (s : TcpStream) : Net (Result Unit × TcpStream) :=
  match s.implementation with
  | none =>
      pure (failure .notConnected "TCP reconnect requires a previous endpoint", s)
  | some impl =>
      match impl.endpoint with
      | none => pure (failure .notConnected "TCP reconnect requires a previous endpoint", s)
      | some endpoint =>
          if impl.reconnectPolicy.valid = false then
            pure (failure .invalidArgument "TCP reconnect policy is invalid", s)
          else
            reconnectLoop N endpoint impl.reconnectPolicy impl.reconnectPolicy.maxAttempts
              impl.reconnectPolicy.initialDelay none s

/-- `TcpStream::send`. -/
def send (bytes : List UInt8) (s : TcpStream) : Net (Result Nat × TcpStream) :=
  match s.socket with
  | none => pure (failure .notConnected "TCP stream is not connected", s)
  | some socket =>
      if bytes = [] then pure (.ok 0, s)
      else do
        match ← sendSocket N socket bytes with
        | .error e => do
            let s ← s.close
            pure (.error e, s)
        | .ok sent => pure (.ok sent, s)

/-- The loop of `TcpStream::send_all` from `offset` on. -/
def sendAllFrom (bytes : List UInt8) (offset : Nat) (s : TcpStream) :
    Net (Result Nat × TcpStream) :=
  if offset < bytes.length then do
    match ← send N (bytes.drop offset) s with
    | (.error e, s) => pure (.error e, s)
    | (.ok 0, s) => do
        let s ← s.close
        pure (failure .peerClosed "TCP peer closed while sending", s)
    | (.ok (sent + 1), s) => sendAllFrom bytes (offset + (sent + 1)) s
  else pure (.ok offset, s)
termination_by bytes.length - offset

/-- `TcpStream::send_all`. -/
def sendAll (bytes : List UInt8) (s : TcpStream) : Net (Result Nat × TcpStream) :=
  sendAllFrom N bytes 0 s

/-- `TcpStream::receive` into a span of `size` bytes.  The result is what was
written there; the source returns its length. -/
def receive (size : Nat) (s : TcpStream) : Net (Result (List UInt8) × TcpStream) :=
  match s.socket with
  | none => pure (failure .notConnected "TCP stream is not connected", s)
  | some socket =>
      if size = 0 then pure (.ok [], s)
      else do
        match ← receiveSocket N socket size with
        | .error e => do
            let s ← s.close
            pure (.error e, s)
        | .ok [] => do
            let s ← s.close
            pure (failure .peerClosed "TCP peer closed the stream", s)
        | .ok (byte :: bytes) => pure (.ok (byte :: bytes), s)

end TcpStream

/-! ## `TcpListener` -/

/-- `TcpListener::Impl`. -/
structure TcpListener.Impl where
  socket : Option Handle := none
  acceptedStreamOptions : IoOptions := {}
  deriving DecidableEq, Repr

/-- `TcpListener`. -/
structure TcpListener where
  implementation : Option TcpListener.Impl
  deriving DecidableEq, Repr

namespace TcpListener

variable (N : Native)

/-- `TcpListener::TcpListener`. -/
def construct (acceptedStreamOptions : IoOptions) : TcpListener :=
  ⟨some { acceptedStreamOptions := acceptedStreamOptions }⟩

/-- What `std::move` leaves behind. -/
def movedFrom : TcpListener := ⟨none⟩

/-- The socket of the listener, where it has one. -/
def socket (l : TcpListener) : Option Handle := l.implementation.bind Impl.socket

/-- `TcpListener::listening`. -/
def listening (l : TcpListener) : Bool := l.socket.isSome

/-- `TcpListener::close`. -/
def close (l : TcpListener) : Net TcpListener :=
  match l.implementation with
  | none => pure l
  | some impl => do
      closeSocket impl.socket
      pure ⟨some { impl with socket := none }⟩

/-- `TcpListener::bind`. -/
def bind (endpoint : IpEndpoint) (backlog : Int) (l : TcpListener) :
    Net (Result Unit × TcpListener) :=
  match l.implementation with
  | none => pure (failure .invalidArgument "cannot reuse a moved-from TCP listener", l)
  | some impl =>
      if endpoint.valid = false ∨ backlog ≤ 0 ∨ backlog > 65535 ∨
          impl.acceptedStreamOptions.valid = false then
        pure (failure .invalidArgument
          "TCP listener endpoint, backlog, or options are invalid", l)
      else do
        closeSocket impl.socket
        let impl := { impl with socket := none }
        match ← resolve N endpoint .stream true with
        | .error e => pure (.error e, ⟨some impl⟩)
        | .ok addresses =>
            match ← openFirst N .stream
                (fun address => [setReuseAddress N, bindSocket N address, listenSocket N backlog])
                addresses none with
            | .ok (socket, _) => pure (.ok (), ⟨some { impl with socket := some socket }⟩)
            | .error (some e) => pure (.error e, ⟨some impl⟩)
            | .error none =>
                pure (failure .bindFailed "no usable TCP bind endpoint was resolved", ⟨some impl⟩)

/-- `TcpListener::accept`; the listener itself does not change. -/
def accept (l : TcpListener) : Net (Result TcpStream) :=
  match l.implementation with
  | none => pure (failure .notConnected "TCP listener is not active")
  | some impl =>
      match impl.socket with
      | none => pure (failure .notConnected "TCP listener is not active")
      | some socket => do
          match ← acceptSocket N socket with
          | .error e => pure (.error e)
          | .ok accepted =>
              match ← applyOptions N impl.acceptedStreamOptions accepted.socket with
              | .error e => do
                  closeSocket (some accepted.socket)
                  pure (.error e)
              | .ok () =>
                  pure (.ok ⟨some {
                    socket := some accepted.socket
                    options := impl.acceptedStreamOptions }⟩)

/-- `TcpListener::local_endpoint`. -/
def localEndpoint (l : TcpListener) : Net (Result IpEndpoint) :=
  match l.socket with
  | none => pure (failure .notConnected "TCP listener is not active")
  | some socket => do
      match ← localAddress N socket with
      | .error e => pure (.error e)
      | .ok address => toEndpoint N address

end TcpListener

end Transport
end Vosp
