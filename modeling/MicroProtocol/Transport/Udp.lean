import MicroProtocol.Transport.Tcp

/-!
# `UdpSocket`

The methods of `udp.cpp` as programs over the native layer, in the manner of
`TcpStream`.  A socket that is not open is opened by `send_to` as needed, and the
address of the last successful send is cached.
-/

namespace Vosp
namespace Transport

open Detail

/-- `UdpSocket::Impl`. -/
structure UdpSocket.Impl where
  socket : Option Handle := none
  options : IoOptions := {}
  family : Int := 0
  cachedEndpoint : Option IpEndpoint := none
  cachedAddress : Option NativeAddress := none
  deriving DecidableEq, Repr

/-- `UdpSocket`. -/
structure UdpSocket where
  implementation : Option UdpSocket.Impl
  deriving DecidableEq, Repr

namespace UdpSocket

variable (N : Native)

/-- `UdpSocket::maximum_payload_size`. -/
def maximumPayloadSize : Nat := 65507

/-- `UdpSocket::UdpSocket`. -/
def construct (options : IoOptions) : UdpSocket := ⟨some { options := options }⟩

/-- What `std::move` leaves behind. -/
def movedFrom : UdpSocket := ⟨none⟩

/-- The socket, where there is one. -/
def socket (u : UdpSocket) : Option Handle := u.implementation.bind Impl.socket

/-- `UdpSocket::open`. -/
def isOpen (u : UdpSocket) : Bool := u.socket.isSome

/-- `UdpSocket::close`; the cache is kept. -/
def close (u : UdpSocket) : Net UdpSocket :=
  match u.implementation with
  | none => pure u
  | some impl => do
      closeSocket impl.socket
      pure ⟨some { impl with socket := none, family := 0 }⟩

/-- `UdpSocket::bind`. -/
def bind (endpoint : IpEndpoint) (u : UdpSocket) : Net (Result Unit × UdpSocket) :=
  match u.implementation with
  | none => pure (failure .invalidArgument "cannot reuse a moved-from UDP socket", u)
  | some impl =>
      if endpoint.valid = false ∨ impl.options.valid = false then
        pure (failure .invalidArgument "UDP endpoint or socket options are invalid", u)
      else do
        closeSocket impl.socket
        let impl := { impl with socket := none, family := 0 }
        match ← resolve N endpoint .datagram true with
        | .error e => pure (.error e, ⟨some impl⟩)
        | .ok addresses =>
            match ← openFirst N .datagram
                (fun address => [applyOptions N impl.options, bindSocket N address])
                addresses none with
            | .ok (socket, address) =>
                pure (.ok (), ⟨some { impl with socket := some socket, family := address.family }⟩)
            | .error (some e) => pure (.error e, ⟨some impl⟩)
            | .error none =>
                pure (failure .bindFailed "no usable UDP bind endpoint was resolved", ⟨some impl⟩)

/-- The lambda `ensure_open` of `UdpSocket::send_to`.  On success it also returns
the open socket, which the source reads back from the implementation. -/
def ensureOpen (address : NativeAddress) (impl : Impl) : Net (Result Handle × Impl) :=
  match impl.socket with
  | some socket =>
      if address.family = impl.family then pure (.ok socket, impl)
      else pure (failure .sendFailed "UDP endpoint does not match the open socket family", impl)
  | none => do
      match ← createSocket N address .datagram with
      | .error e => pure (.error e, impl)
      | .ok socket =>
          match ← applyOptions N impl.options socket with
          | .error e => do
              closeSocket (some socket)
              pure (.error e, impl)
          | .ok () =>
              pure (.ok socket, { impl with socket := some socket, family := address.family })

/-- The address loop of `UdpSocket::send_to`, which tries every address until a
datagram is sent and caches its address. -/
def sendLoop (endpoint : IpEndpoint) (payload : List UInt8) :
    List NativeAddress → Option Error → Impl → Net (Result Nat × Impl)
  | [], some e, impl => pure (.error e, impl)
  | [], none, impl =>
      pure (failure .sendFailed "no UDP endpoint matches the open socket family", impl)
  | address :: addresses, _, impl => do
      match ← ensureOpen N address impl with
      | (.error e, impl) => sendLoop endpoint payload addresses (some e) impl
      | (.ok socket, impl) =>
          match ← sendDatagram N socket address payload with
          | .error e => sendLoop endpoint payload addresses (some e) impl
          | .ok sent =>
              pure (.ok sent, { impl with
                cachedEndpoint := some endpoint, cachedAddress := some address })

/-- The address `send_to` uses without resolving the endpoint. -/
def Impl.cachedFor (impl : Impl) (endpoint : IpEndpoint) : Option NativeAddress :=
  if impl.cachedEndpoint = some endpoint then impl.cachedAddress else none

/-- `UdpSocket::send_to`. -/
def sendTo (endpoint : IpEndpoint) (payload : List UInt8) (u : UdpSocket) :
    Net (Result Nat × UdpSocket) :=
  match u.implementation with
  | none => pure (failure .invalidArgument "cannot reuse a moved-from UDP socket", u)
  | some impl =>
      if endpoint.valid = false ∨ impl.options.valid = false then
        pure (failure .invalidArgument "UDP endpoint or socket options are invalid", u)
      else if payload.length > maximumPayloadSize then
        pure (failure .datagramTooLarge "UDP payload exceeds 65507 bytes", u)
      else
        match impl.cachedFor endpoint with
        | some address => do
            match ← ensureOpen N address impl with
            | (.error e, impl) => pure (.error e, ⟨some impl⟩)
            | (.ok socket, impl) => do
                let sent ← sendDatagram N socket address payload
                pure (sent, ⟨some impl⟩)
        | none => do
            match ← resolve N endpoint .datagram false with
            | .error e => pure (.error e, u)
            | .ok addresses => do
                let (sent, impl) ← sendLoop N endpoint payload addresses none impl
                pure (sent, ⟨some impl⟩)

/-- `UdpSocket::receive`; the socket does not change. -/
def receive (maximumSize : Nat) (u : UdpSocket) : Net (Result Datagram) :=
  match u.socket with
  | none => pure (failure .notConnected "UDP socket is not open")
  | some socket =>
      if maximumSize = 0 ∨ maximumSize > maximumPayloadSize then
        pure (failure .invalidArgument "UDP receive bound must be in [1, 65507]")
      else do
        match ← receiveDatagram N socket maximumSize with
        | .error e => pure (.error e)
        | .ok received =>
            match ← toEndpoint N received.remote with
            | .error e => pure (.error e)
            | .ok endpoint => pure (.ok ⟨endpoint, received.payload⟩)

/-- `UdpSocket::local_endpoint`. -/
def localEndpoint (u : UdpSocket) : Net (Result IpEndpoint) :=
  match u.socket with
  | none => pure (failure .notConnected "UDP socket is not open")
  | some socket => do
      match ← localAddress N socket with
      | .error e => pure (.error e)
      | .ok address => toEndpoint N address

end UdpSocket

end Transport
end Vosp
