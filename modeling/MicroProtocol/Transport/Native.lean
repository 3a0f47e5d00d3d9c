import MicroProtocol.Lib.Custody
import MicroProtocol.Transport.Types

/-!
# The native layer

Everything below `socket_platform.hpp` is the operating system's, so it is an
oracle here: `Native` answers every call, and may take into account everything
that has happened so far.  All it promises is that a handle it opens is not open
already.  Each call is logged with its answer, so the log says which handles are
open (`openHandles`) and on which handle each call was made (`Event.access`).

`close_socket` is not an oracle: it decides by itself whether there is anything
to close, and makes two native calls if there is.
-/

namespace Vosp
namespace Transport

/-- A native call and what it returned. -/
inductive Event where
  | resolve (endpoint : IpEndpoint) (type : SocketType) (passive : Bool)
      (result : Result (List NativeAddress))
  | toEndpoint (address : NativeAddress) (result : Result IpEndpoint)
  | createSocket (address : NativeAddress) (type : SocketType) (result : Result Handle)
  | applyOptions (socket : Handle) (options : IoOptions) (result : Result Unit)
  | setReuseAddress (socket : Handle) (result : Result Unit)
  | connectSocket (socket : Handle) (address : NativeAddress) (result : Result Unit)
  | bindSocket (socket : Handle) (address : NativeAddress) (result : Result Unit)
  | listenSocket (socket : Handle) (backlog : Int) (result : Result Unit)
  | acceptSocket (socket : Handle) (result : Result AcceptedSocket)
  | localAddress (socket : Handle) (result : Result NativeAddress)
  | sendSocket (socket : Handle) (bytes : List UInt8) (result : Result Nat)
  | receiveSocket (socket : Handle) (size : Nat) (result : Result (List UInt8))
  | sendDatagram (socket : Handle) (address : NativeAddress) (payload : List UInt8)
      (result : Result Nat)
  | receiveDatagram (socket : Handle) (size : Nat) (result : Result ReceivedDatagram)
  | shutdown (socket : Handle)
  | close (socket : Handle)
  | sleepFor (delay : Int)
  deriving DecidableEq

/-- Everything that happened, newest first. -/
abbrev Log := List Event

/-- The handle a call is made on, the one it opens and the one it closes. -/
def Event.access : Event → Custody.Access Handle
  | .resolve .. => {}
  | .toEndpoint .. => {}
  | .createSocket _ _ (.ok socket) => { opens := some socket }
  | .createSocket _ _ (.error _) => {}
  | .applyOptions socket .. => { on := some socket }
  | .setReuseAddress socket .. => { on := some socket }
  | .connectSocket socket .. => { on := some socket }
  | .bindSocket socket .. => { on := some socket }
  | .listenSocket socket .. => { on := some socket }
  | .acceptSocket socket (.ok accepted) => { on := some socket, opens := some accepted.socket }
  | .acceptSocket socket (.error _) => { on := some socket }
  | .localAddress socket .. => { on := some socket }
  | .sendSocket socket .. => { on := some socket }
  | .receiveSocket socket .. => { on := some socket }
  | .sendDatagram socket .. => { on := some socket }
  | .receiveDatagram socket .. => { on := some socket }
  | .shutdown socket => { on := some socket }
  | .close socket => { on := some socket, closes := some socket }
  | .sleepFor _ => {}

/-- The handles that are open after the calls of the log. -/
def openHandles (log : Log) : Multiset Handle := Custody.held Event.access log

/-- The operating system: an answer to every call, in view of the past. -/
structure Native where
  resolve : Log → IpEndpoint → SocketType → Bool → Result (List NativeAddress)
  toEndpoint : Log → NativeAddress → Result IpEndpoint
  createSocket : Log → NativeAddress → SocketType → Result Handle
  applyOptions : Log → Handle → IoOptions → Result Unit
  setReuseAddress : Log → Handle → Result Unit
  connectSocket : Log → Handle → NativeAddress → Result Unit
  bindSocket : Log → Handle → NativeAddress → Result Unit
  listenSocket : Log → Handle → Int → Result Unit
  acceptSocket : Log → Handle → Result AcceptedSocket
  localAddress : Log → Handle → Result NativeAddress
  sendSocket : Log → Handle → List UInt8 → Result Nat
  receiveSocket : Log → Handle → Nat → Result (List UInt8)
  sendDatagram : Log → Handle → NativeAddress → List UInt8 → Result Nat
  receiveDatagram : Log → Handle → Nat → Result ReceivedDatagram
  /-- A new handle is not one that is open. -/
  create_fresh : ∀ {log address type socket},
    createSocket log address type = .ok socket → socket ∉ openHandles log
  accept_fresh : ∀ {log listener accepted},
    acceptSocket log listener = .ok accepted → accepted.socket ∉ openHandles log

/-- A handle past all open ones. -/
def freshHandle (log : Log) : Handle := (openHandles log).sup + 1

theorem freshHandle_notMem (log : Log) : freshHandle log ∉ openHandles log := by
  intro hmem
  have hle : freshHandle log ≤ (openHandles log).sup := Multiset.le_sup hmem
  exact absurd hle (Nat.not_succ_le_self _)

/-- An operating system on which every call succeeds. -/
def Native.obliging : Native where
  resolve _ _ _ _ := .ok [{}]
  toEndpoint _ _ := .ok {}
  createSocket log _ _ := .ok (freshHandle log)
  applyOptions _ _ _ := .ok ()
  setReuseAddress _ _ := .ok ()
  connectSocket _ _ _ := .ok ()
  bindSocket _ _ _ := .ok ()
  listenSocket _ _ _ := .ok ()
  acceptSocket log _ := .ok ⟨freshHandle log, {}⟩
  localAddress _ _ := .ok {}
  sendSocket _ _ bytes := .ok bytes.length
  receiveSocket _ _ size := .ok (List.replicate size 0)
  sendDatagram _ _ _ payload := .ok payload.length
  receiveDatagram _ _ size := .ok ⟨{}, List.replicate size 0⟩
  create_fresh := by
    intro log address type socket h
    cases h
    exact freshHandle_notMem log
  accept_fresh := by
    intro log listener accepted h
    cases h
    exact freshHandle_notMem log

/-- A program that makes native calls. -/
abbrev Net := StateM Log

namespace Detail

open Custody (call)

variable (N : Native)

/-- `detail::resolve`. -/
def resolve (endpoint : IpEndpoint) (type : SocketType) (passive : Bool) :
    Net (Result (List NativeAddress)) :=
  call fun log => (N.resolve log endpoint type passive,
    .resolve endpoint type passive (N.resolve log endpoint type passive))

/-- `detail::to_endpoint`. -/
def toEndpoint (address : NativeAddress) : Net (Result IpEndpoint) :=
  call fun log => (N.toEndpoint log address, .toEndpoint address (N.toEndpoint log address))

/-- `detail::create_socket`. -/
def createSocket (address : NativeAddress) (type : SocketType) : Net (Result Handle) :=
  call fun log => (N.createSocket log address type,
    .createSocket address type (N.createSocket log address type))

/-- `detail::apply_options`. -/
def applyOptions (options : IoOptions) (socket : Handle) : Net (Result Unit) :=
  call fun log => (N.applyOptions log socket options,
    .applyOptions socket options (N.applyOptions log socket options))

/-- `detail::set_reuse_address`. -/
def setReuseAddress (socket : Handle) : Net (Result Unit) :=
  call fun log => (N.setReuseAddress log socket, .setReuseAddress socket (N.setReuseAddress log socket))

/-- `detail::connect_socket`. -/
def connectSocket (address : NativeAddress) (socket : Handle) : Net (Result Unit) :=
  call fun log => (N.connectSocket log socket address,
    .connectSocket socket address (N.connectSocket log socket address))

/-- `detail::bind_socket`. -/
def bindSocket (address : NativeAddress) (socket : Handle) : Net (Result Unit) :=
  call fun log => (N.bindSocket log socket address,
    .bindSocket socket address (N.bindSocket log socket address))

/-- `detail::listen_socket`. -/
def listenSocket (backlog : Int) (socket : Handle) : Net (Result Unit) :=
  call fun log => (N.listenSocket log socket backlog,
    .listenSocket socket backlog (N.listenSocket log socket backlog))

/-- `detail::accept_socket`. -/
def acceptSocket (socket : Handle) : Net (Result AcceptedSocket) :=
  call fun log => (N.acceptSocket log socket, .acceptSocket socket (N.acceptSocket log socket))

/-- `detail::local_address`. -/
def localAddress (socket : Handle) : Net (Result NativeAddress) :=
  call fun log => (N.localAddress log socket, .localAddress socket (N.localAddress log socket))

/-- `detail::send_socket`. -/
def sendSocket (socket : Handle) (bytes : List UInt8) : Net (Result Nat) :=
  call fun log => (N.sendSocket log socket bytes,
    .sendSocket socket bytes (N.sendSocket log socket bytes))

/-- `detail::receive_socket` with room for `size` bytes. -/
def receiveSocket (socket : Handle) (size : Nat) : Net (Result (List UInt8)) :=
  call fun log => (N.receiveSocket log socket size,
    .receiveSocket socket size (N.receiveSocket log socket size))

/-- `detail::send_datagram`. -/
def sendDatagram (socket : Handle) (address : NativeAddress) (payload : List UInt8) :
    Net (Result Nat) :=
  call fun log => (N.sendDatagram log socket address payload,
    .sendDatagram socket address payload (N.sendDatagram log socket address payload))

/-- `detail::receive_datagram` with room for `size` bytes. -/
def receiveDatagram (socket : Handle) (size : Nat) : Net (Result ReceivedDatagram) :=
  call fun log => (N.receiveDatagram log socket size,
    .receiveDatagram socket size (N.receiveDatagram log socket size))

/-- `std::this_thread::sleep_for`. -/
def sleepFor (delay : Int) : Net Unit := call fun _ => ((), .sleepFor delay)

/-- `detail::close_socket`.  The socket is a reference parameter that is invalid
afterwards in either case: callers go on with `none`. -/
def closeSocket : Option Handle → Net Unit
  | none => pure ()
  | some socket => do
      call fun _ => ((), Event.shutdown socket)
      call fun _ => ((), Event.close socket)

/-! ## What each call does to custody -/

open Custody (Accounts accounts_call accounts_call_on accounts_pure owned)

variable {N} {S : Multiset Handle}

/-- The handles a call opened, by what it returned. -/
def created : Result Handle → Multiset Handle
  | .ok socket => {socket}
  | .error _ => 0

/-- A call that is made on no handle and opens none. -/
theorem accounts_idle {α : Type} {f : Log → α × Event} (hf : ∀ log, (f log).2.access = {}) :
    Accounts Event.access S (call f) (fun _ => S) := by
  refine accounts_call_on (fun log h hh => ?_) (fun log => ?_) (fun log => ?_)
  · rw [hf] at hh
    cases hh
  · rw [hf]
  · rw [hf]

/-- A call made on a handle the program is responsible for. -/
theorem accounts_on {α : Type} {f : Log → α × Event} {socket : Handle} (hS : socket ∈ S)
    (hf : ∀ log, (f log).2.access = { on := some socket }) :
    Accounts Event.access S (call f) (fun _ => S) := by
  refine accounts_call_on (fun log h hh => ?_) (fun log => ?_) (fun log => ?_)
  · rw [hf] at hh
    cases hh
    exact hS
  · rw [hf]
  · rw [hf]

theorem accounts_createSocket (address : NativeAddress) (type : SocketType) :
    Accounts Event.access 0 (createSocket N address type) created := by
  refine accounts_call (fun log h hh => ?_) (fun log h hh => ?_) (fun log => ?_) (fun log => ?_)
  · cases hr : N.createSocket log address type <;> rw [hr] at hh <;> cases hh
  · cases hr : N.createSocket log address type with
    | error e =>
        rw [hr] at hh
        cases hh
    | ok socket =>
        rw [hr] at hh
        cases hh
        exact N.create_fresh hr
  · cases hr : N.createSocket log address type <;> exact le_rfl
  · cases hr : N.createSocket log address type <;> rfl

theorem accounts_acceptSocket {socket : Handle} (hS : socket ∈ S) :
    Accounts Event.access S (acceptSocket N socket)
      (fun r => S + created (r.map AcceptedSocket.socket)) := by
  refine accounts_call (fun log h hh => ?_) (fun log h hh => ?_) (fun log => ?_) (fun log => ?_)
  · cases hr : N.acceptSocket log socket <;> rw [hr] at hh <;> cases hh <;> exact hS
  · cases hr : N.acceptSocket log socket with
    | error e =>
        rw [hr] at hh
        cases hh
    | ok accepted =>
        rw [hr] at hh
        cases hh
        exact N.accept_fresh hr
  · cases hr : N.acceptSocket log socket <;> exact Multiset.zero_le S
  · cases hr : N.acceptSocket log socket <;> simp [Event.access, created, Except.map]

/-- Closing gives up what was owned: two calls on an open handle, or none at all. -/
theorem accounts_closeSocket (socket : Option Handle) :
    Accounts Event.access (owned socket) (closeSocket socket) (fun _ => 0) := by
  cases socket with
  | none => exact accounts_pure rfl
  | some socket =>
      refine (accounts_on (Multiset.mem_singleton_self socket) fun _ => rfl).bind fun _ => ?_
      refine accounts_call (fun log h hh => ?_) (fun log h hh => ?_) (fun log => ?_) (fun log => ?_)
      · cases hh
        exact Multiset.mem_singleton_self socket
      · cases hh
      · exact le_rfl
      · simp [Event.access]

end Detail

end Transport
end Vosp
