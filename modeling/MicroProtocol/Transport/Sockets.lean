import MicroProtocol.Transport.Native

/-!
# `socket_posix.cpp` and `socket_windows.cpp`

The two files implement the same functions over the socket interface of the
operating system, and differ in little: the texts of their errors, the value a
timeout is passed as, and the way a datagram that is too large shows up.  `Dialect`
holds what differs, so each function is written once.

* `Sys` — the calls of the operating system, which fail with a native code.  What is
  relied on is what is documented of them: a new descriptor is not an open one, a
  socket address has a family, and `send` takes no more than it is given.
* `Sockets.*` — the functions of the two files, under their own names.
* `Layer` — either file, on any operating system; `Layer.native` is the native layer
  that the transport is built on.
-/

namespace Vosp
namespace Transport

/-- The second argument of `setsockopt`. -/
inductive OptionName where
  | receiveTimeout
  | sendTimeout
  | reuseAddress
  deriving DecidableEq, Repr

/-- The value `setsockopt` is given: a `timeval`, a `DWORD` or a flag. -/
inductive OptionValue where
  | timeval (seconds microseconds : Int)
  | milliseconds (value : Nat)
  | enabled
  deriving DecidableEq, Repr

/-- The socket interface of the operating system.  A call that fails has a native
code, from its status or from `errno`. -/
structure Sys where
  getaddrinfo : Log → Option String → String → SocketType → Bool → Except Int (List NativeAddress)
  getnameinfo : Log → NativeAddress → Except Int (String × String)
  socket : Log → Int → SocketType → Except Int Handle
  setsockopt : Log → Handle → OptionName → OptionValue → Except Int Unit
  connect : Log → Handle → NativeAddress → Except Int Unit
  bind : Log → Handle → NativeAddress → Except Int Unit
  listen : Log → Handle → Int → Except Int Unit
  accept : Log → Handle → Except Int (Handle × NativeAddress)
  getsockname : Log → Handle → Except Int NativeAddress
  send : Log → Handle → List UInt8 → Except Int Nat
  recv : Log → Handle → Nat → Except Int (List UInt8)
  sendto : Log → Handle → List UInt8 → NativeAddress → Except Int Nat
  /-- The sender and the whole datagram.  One that does not fit is returned on POSIX, and
  makes the call fail on Windows. -/
  recvfrom : Log → Handle → Nat → Except Int (NativeAddress × List UInt8)
  strerror : Int → String
  gaiStrerror : Int → String
  socket_fresh : ∀ {log family type socket'},
    socket log family type = .ok socket' → socket' ∉ openHandles log
  accept_fresh : ∀ {log listener accepted},
    accept log listener = .ok accepted → accepted.1 ∉ openHandles log
  /-- No entry has the family `AF_UNSPEC`. -/
  getaddrinfo_family : ∀ {log host service type passive entries},
    getaddrinfo log host service type passive = .ok entries → ∀ entry ∈ entries, entry.family ≠ 0
  send_le : ∀ {log socket bytes sent}, send log socket bytes = .ok sent → sent ≤ bytes.length

/-- What the two files do not have in common. -/
structure Dialect where
  initializeNetwork : Result Unit
  nativeMessage : String → Int → String
  resolutionMessage : Int → String
  conversionMessage : Int → String
  timeoutValue : Int → OptionValue
  /-- One more than the largest `unsigned long`. -/
  unsignedLong : Nat
  receivedDatagram : Nat → Except Int (NativeAddress × List UInt8) → Result ReceivedDatagram

/-- The values of `socket_posix.cpp`.  The flag `MSG_TRUNC` makes `recvfrom` return the
size of the datagram even if it is larger than the output. -/
def Dialect.posix (sys : Sys) : Dialect where
  initializeNetwork := .ok ()
  nativeMessage operation code := operation ++ " failed: " ++ sys.strerror code
  resolutionMessage status := "address resolution failed: " ++ sys.gaiStrerror status
  conversionMessage status := "endpoint conversion failed: " ++ sys.gaiStrerror status
  timeoutValue timeout := .timeval (timeout.tdiv 1000) (timeout.tmod 1000 * 1000)
  unsignedLong := 2 ^ 64
  receivedDatagram size
    | .error code =>
        failure .receiveFailed ("recvfrom" ++ " failed: " ++ sys.strerror code) code
    | .ok (remote, payload) =>
        if payload.length > size then
          failure .datagramTooLarge "received UDP datagram exceeds the requested bound"
        else .ok ⟨remote, payload⟩

/-- `WSAEMSGSIZE`. -/
def wsaeMsgSize : Int := 10040

/-- The values of `socket_windows.cpp`, where `WSAStartup` returned `startup`. -/
def Dialect.windows (startup : Int) : Dialect where
  initializeNetwork :=
    if startup ≠ 0 then
      failure .platformInitializationFailed
        ("WSAStartup" ++ " failed with WinSock error " ++ toString startup) startup
    else .ok ()
  nativeMessage operation code := operation ++ " failed with WinSock error " ++ toString code
  resolutionMessage status := "address resolution failed with WinSock error " ++ toString status
  conversionMessage status := "endpoint conversion failed with WinSock error " ++ toString status
  timeoutValue timeout := .milliseconds ((min timeout 4294967295).toNat % 2 ^ 32)
  unsignedLong := 2 ^ 32
  receivedDatagram _
    | .error code =>
        if code = wsaeMsgSize then
          failure .datagramTooLarge "received UDP datagram exceeds the requested bound" code
        else
          failure .receiveFailed ("recvfrom" ++ " failed with WinSock error " ++ toString code) code
    | .ok (remote, payload) => .ok ⟨remote, payload⟩

/-- A failed call of the operating system becomes an `Error`. -/
def checked {α β : Type} (code : ErrorCode) (message : Int → String) (wrap : α → β) :
    Except Int α → Result β
  | .error native => failure code (message native) native
  | .ok a => .ok (wrap a)

/-- `std::stoul`, which skips white space, reads a sign and then as many digits as there
are; `none` where it throws. -/
def stoul (limit : Nat) (text : String) : Option Nat :=
  let rest := text.toList.dropWhile fun c => c = ' ' || (9 ≤ c.toNat && c.toNat ≤ 13)
  let (negative, rest) := match rest with
    | '-' :: rest => (true, rest)
    | '+' :: rest => (false, rest)
    | rest => (false, rest)
  let digits := rest.takeWhile Char.isDigit
  let value := digits.foldl (fun value digit => 10 * value + (digit.toNat - '0'.toNat)) 0
  if digits = [] ∨ value ≥ limit then none
  else some (if negative then (limit - value) % limit else value)

/-- The most `send_socket` offers to the operating system in one call, `INT_MAX`. -/
def intMax : Nat := 2147483647

namespace Sockets

/-- The number of bytes in `NativeAddress::storage`. -/
def storageSize : Nat := 128

variable (d : Dialect) (sys : Sys)

/-- `set_timeout`. -/
def setTimeout (log : Log) (socket : Handle) (option : OptionName) (timeout : Int) : Result Unit :=
  if timeout = 0 then .ok ()
  else checked .optionFailed (d.nativeMessage "setsockopt") id
    (sys.setsockopt log socket option (d.timeoutValue timeout))

/-- `resolve`.  The POSIX file does not initialize the network, which would do
nothing there. -/
def resolve (log : Log) (endpoint : IpEndpoint) (type : SocketType) (passive : Bool) :
    Result (List NativeAddress) := do
  d.initializeNetwork
  if endpoint.valid = false then
    failure .invalidArgument "transport endpoint host is empty"
  else
    let host := if passive = true ∧ endpoint.host = "*" then none else some endpoint.host
    match sys.getaddrinfo log host (toString endpoint.port.toNat) type passive with
    | .error status => failure .addressResolutionFailed (d.resolutionMessage status) status
    | .ok entries =>
        let addresses := entries.filter fun entry => entry.storage.length ≤ storageSize
        if addresses = [] then
          failure .addressResolutionFailed "address resolution returned no endpoints"
        else .ok addresses

/-- `to_endpoint`. -/
def toEndpoint (log : Log) (address : NativeAddress) : Result IpEndpoint :=
  match sys.getnameinfo log address with
  | .error status => failure .addressResolutionFailed (d.conversionMessage status) status
  | .ok (host, service) =>
      match stoul d.unsignedLong service with
      | some port => .ok ⟨host, UInt16.ofNat port⟩
      | none => failure .addressResolutionFailed "endpoint service is not a valid port"

/-- `create_socket`. -/
def createSocket (log : Log) (address : NativeAddress) (type : SocketType) : Result Handle := do
  d.initializeNetwork
  checked .socketCreationFailed (d.nativeMessage "socket") id (sys.socket log address.family type)

/-- `apply_options`. -/
def applyOptions (log : Log) (socket : Handle) (options : IoOptions) : Result Unit :=
  if options.valid = false then
    failure .invalidArgument "transport I/O options are invalid"
  else
    match setTimeout d sys log socket .receiveTimeout options.receiveTimeout with
    | .error e => .error e
    | .ok () => setTimeout d sys log socket .sendTimeout options.sendTimeout

/-- `set_reuse_address`. -/
def setReuseAddress (log : Log) (socket : Handle) : Result Unit :=
  checked .optionFailed (d.nativeMessage "setsockopt") id
    (sys.setsockopt log socket .reuseAddress .enabled)

/-- `connect_socket`. -/
def connectSocket (log : Log) (socket : Handle) (address : NativeAddress) : Result Unit :=
  checked .connectFailed (d.nativeMessage "connect") id (sys.connect log socket address)

/-- `bind_socket`. -/
def bindSocket (log : Log) (socket : Handle) (address : NativeAddress) : Result Unit :=
  checked .bindFailed (d.nativeMessage "bind") id (sys.bind log socket address)

/-- `listen_socket`. -/
def listenSocket (log : Log) (socket : Handle) (backlog : Int) : Result Unit :=
  checked .listenFailed (d.nativeMessage "listen") id (sys.listen log socket backlog)

/-- `accept_socket`. -/
def acceptSocket (log : Log) (socket : Handle) : Result AcceptedSocket :=
  checked .acceptFailed (d.nativeMessage "accept") (fun accepted => ⟨accepted.1, accepted.2⟩)
    (sys.accept log socket)

/-- `local_address`. -/
def localAddress (log : Log) (socket : Handle) : Result NativeAddress :=
  checked .addressResolutionFailed (d.nativeMessage "getsockname") id (sys.getsockname log socket)

/-- `send_socket`. -/
def sendSocket (log : Log) (socket : Handle) (bytes : List UInt8) : Result Nat :=
  checked .sendFailed (d.nativeMessage "send") id (sys.send log socket (bytes.take intMax))

/-- `receive_socket` with room for `size` bytes. -/
def receiveSocket (log : Log) (socket : Handle) (size : Nat) : Result (List UInt8) :=
  checked .receiveFailed (d.nativeMessage "recv") id (sys.recv log socket (min size intMax))

/-- `send_datagram`. -/
def sendDatagram (log : Log) (socket : Handle) (address : NativeAddress) (payload : List UInt8) :
    Result Nat :=
  checked .sendFailed (d.nativeMessage "sendto") id (sys.sendto log socket payload address)

/-- `receive_datagram` with room for `size` bytes. -/
def receiveDatagram (log : Log) (socket : Handle) (size : Nat) : Result ReceivedDatagram :=
  d.receivedDatagram size (sys.recvfrom log socket size)

variable {d} {sys}

theorem checked_eq_ok_iff {α β : Type} {code : ErrorCode} {message : Int → String} {wrap : α → β}
    {r : Except Int α} {b : β} :
    checked code message wrap r = .ok b ↔ ∃ a, r = .ok a ∧ wrap a = b := by
  cases r with
  | error native => simp [checked, failure]
  | ok a => simp [checked]

/-- Only a call that succeeded makes a socket. -/
theorem createSocket_eq_ok {log : Log} {address : NativeAddress} {type : SocketType}
    {socket : Handle} (h : createSocket d sys log address type = .ok socket) :
    sys.socket log address.family type = .ok socket := by
  unfold createSocket at h
  cases hinit : d.initializeNetwork with
  | error e =>
      rw [hinit] at h
      cases h
  | ok u =>
      rw [hinit] at h
      obtain ⟨_, hsocket, rfl⟩ := checked_eq_ok_iff.1 h
      exact hsocket

end Sockets

/-- The native layer on top of an operating system. -/
def Dialect.native (d : Dialect) (sys : Sys) : Native where
  resolve := Sockets.resolve d sys
  toEndpoint := Sockets.toEndpoint d sys
  createSocket := Sockets.createSocket d sys
  applyOptions := Sockets.applyOptions d sys
  setReuseAddress := Sockets.setReuseAddress d sys
  connectSocket := Sockets.connectSocket d sys
  bindSocket := Sockets.bindSocket d sys
  listenSocket := Sockets.listenSocket d sys
  acceptSocket := Sockets.acceptSocket d sys
  localAddress := Sockets.localAddress d sys
  sendSocket := Sockets.sendSocket d sys
  receiveSocket := Sockets.receiveSocket d sys
  sendDatagram := Sockets.sendDatagram d sys
  receiveDatagram := Sockets.receiveDatagram d sys
  create_fresh := fun h => sys.socket_fresh (Sockets.createSocket_eq_ok h)
  accept_fresh := by
    intro log listener accepted h
    obtain ⟨accepted', haccept, rfl⟩ := Sockets.checked_eq_ok_iff.1 h
    exact sys.accept_fresh haccept

/-- One of the two files, on some operating system. -/
inductive Layer where
  | posix (sys : Sys)
  | windows (sys : Sys) (startup : Int)

/-- The values of the file. -/
def Layer.dialect : Layer → Dialect
  | .posix sys => .posix sys
  | .windows _ startup => .windows startup

/-- The operating system below. -/
def Layer.sys : Layer → Sys
  | .posix sys => sys
  | .windows sys _ => sys

/-- The functions that the transport calls. -/
def Layer.native (layer : Layer) : Native := layer.dialect.native layer.sys

/-- The network of the layer is up, or that is what is reported. -/
theorem Layer.initializeNetwork_code (layer : Layer) {e : Error}
    (h : layer.dialect.initializeNetwork = .error e) : e.code = .platformInitializationFailed := by
  cases layer with
  | posix sys => cases h
  | windows sys startup =>
      unfold Layer.dialect Dialect.windows at h
      dsimp only at h
      split_ifs at h
      cases h
      rfl

/-- An operating system on which every call succeeds, with one address of family 2 for
every host. -/
def Sys.obliging : Sys where
  getaddrinfo _ _ _ _ _ := .ok [{ storage := [127, 0, 0, 1], family := 2 }]
  getnameinfo _ _ := .ok ("127.0.0.1", "80")
  socket log _ _ := .ok (freshHandle log)
  setsockopt _ _ _ _ := .ok ()
  connect _ _ _ := .ok ()
  bind _ _ _ := .ok ()
  listen _ _ _ := .ok ()
  accept log _ := .ok (freshHandle log, { storage := [127, 0, 0, 1], family := 2 })
  getsockname _ _ := .ok { storage := [127, 0, 0, 1], family := 2 }
  send _ _ bytes := .ok bytes.length
  recv _ _ size := .ok (List.replicate size 0)
  sendto _ _ payload _ := .ok payload.length
  recvfrom _ _ _ := .ok ({ storage := [127, 0, 0, 1], family := 2 }, [])
  strerror _ := "Success"
  gaiStrerror _ := "Success"
  socket_fresh := by
    intro log family type socket h
    cases h
    exact freshHandle_notMem log
  accept_fresh := by
    intro log listener accepted h
    cases h
    exact freshHandle_notMem log
  getaddrinfo_family := by
    intro log host service type passive entries h entry hmem
    cases h
    rw [List.mem_singleton.1 hmem]
    decide
  send_le := by
    intro log socket bytes sent h
    cases h
    exact le_rfl

end Transport
end Vosp
