import MicroProtocol.Lib.Logged
import MicroProtocol.Transport.Sockets
import MicroProtocol.Transport.World

/-!
# Windows without Winsock

On Windows nothing works before `WSAStartup` has succeeded, and a program must not rely on
any socket function then.  `socket_windows.cpp` asks for its result in `resolve` and in
`create_socket` only.  This file shows that two places are enough.

* `Inert` — a method for which it does not matter what the socket functions would do: it
  returns the same and makes the same native calls on every system, and those calls are
  resolutions that fail with the error of `WSAStartup`, and sleeps.
* `Object.Idle` — what is true of every object then: it has no socket, and no address to
  send to without a resolution.
* `no_network` — so whole programs are inert, and every error tells of `WSAStartup` or of
  a wrong use of the object.
-/

namespace Vosp
namespace Transport

open Detail Logged

/-- The error of `initialize_network` where `WSAStartup` returned `startup`. -/
def startupError (startup : Int) : Error :=
  ⟨.platformInitializationFailed,
    "WSAStartup" ++ " failed with WinSock error " ++ toString startup, startup⟩

/-- A call for which no socket function of Winsock is needed. -/
inductive Event.Vain (startup : Int) : Event → Prop where
  | resolve (endpoint : IpEndpoint) (type : SocketType) (passive : Bool) :
      Vain startup (.resolve endpoint type passive (.error (startupError startup)))
  | sleepFor (delay : Int) : Vain startup (.sleepFor delay)

/-- An error that tells of `WSAStartup`, or else of a wrong use of the object. -/
def Error.Idle (startup : Int) (e : Error) : Prop :=
  e.nativeCode = startup ∧
    (e.code = .platformInitializationFailed ∨ e.code = .retryLimitExceeded) ∨
  e.nativeCode = 0 ∧
    (e.code = .invalidArgument ∨ e.code = .notConnected ∨ e.code = .datagramTooLarge)

/-- A result that is such an error. -/
def Fails (startup : Int) {α : Type} (r : Result α) : Prop :=
  ∃ e, r = .error e ∧ e.Idle startup

theorem fails_startup {startup : Int} {α : Type} :
    Fails startup (.error (startupError startup) : Result α) :=
  ⟨_, rfl, .inl ⟨rfl, .inl rfl⟩⟩

theorem fails_invalidArgument {startup : Int} {α : Type} (message : String) :
    Fails startup (failure .invalidArgument message : Result α) :=
  ⟨_, rfl, .inr ⟨rfl, .inl rfl⟩⟩

theorem fails_notConnected {startup : Int} {α : Type} (message : String) :
    Fails startup (failure .notConnected message : Result α) :=
  ⟨_, rfl, .inr ⟨rfl, .inr (.inl rfl)⟩⟩

/-! ## Methods -/

/-- What the method does is the same on every system, and vain. -/
def Inert (startup : Int) {α : Type} (m : Native → Net α) (Q : α → Prop) : Prop :=
  ∃ a calls, Q a ∧ (∀ event ∈ calls, Event.Vain startup event) ∧
    ∀ sys, Yields (m (Layer.windows sys startup).native) a calls

section Rules

variable {startup : Int} {α β : Type} {Q : α → Prop}

theorem inert_pure {a : α} (h : Q a) : Inert startup (fun _ => pure a) Q :=
  ⟨a, [], h, fun _ hmem => (List.not_mem_nil hmem).elim, fun _ => yields_pure⟩

theorem Inert.bind {m : Native → Net α} {f : Native → α → Net β} {R : β → Prop}
    (hm : Inert startup m Q) (hf : ∀ a, Q a → Inert startup (fun N => f N a) R) :
    Inert startup (fun N => m N >>= f N) R := by
  obtain ⟨a, calls, ha, hvain, hyields⟩ := hm
  obtain ⟨b, calls', hb, hvain', hyields'⟩ := hf a ha
  refine ⟨b, calls' ++ calls, hb, ?_, fun sys => (hyields sys).bind (hyields' sys)⟩
  intro event hmem
  rcases List.mem_append.1 hmem with hmem | hmem
  · exact hvain' event hmem
  · exact hvain event hmem

theorem Inert.imp {m : Native → Net α} {R : α → Prop} (h : Inert startup m Q)
    (himp : ∀ a, Q a → R a) : Inert startup m R := by
  obtain ⟨a, calls, ha, hrest⟩ := h
  exact ⟨a, calls, himp a ha, hrest⟩

/-- What it returns is the same on every system, whatever happened before. -/
theorem Inert.answer {m : Native → Net α} (h : Inert startup m Q) :
    ∃ a, Q a ∧ ∀ sys log, ((m (Layer.windows sys startup).native).run log).1 = a := by
  obtain ⟨a, calls, ha, -, hyields⟩ := h
  refine ⟨a, ha, fun sys log => ?_⟩
  rw [hyields sys log]

theorem inert_sleepFor (delay : Int) : Inert startup (fun _ => sleepFor delay) (fun _ => True) := by
  refine ⟨(), [.sleepFor delay], trivial, ?_, fun _ => yields_call⟩
  intro event hmem
  rw [List.mem_singleton.1 hmem]
  exact .sleepFor delay

/-- `resolve` asks for the result of `WSAStartup` before anything else. -/
theorem inert_resolve (hstartup : startup ≠ 0) (endpoint : IpEndpoint) (type : SocketType)
    (passive : Bool) :
    Inert startup (fun N => resolve N endpoint type passive)
      (fun r => r = .error (startupError startup)) := by
  refine ⟨_, [.resolve endpoint type passive (.error (startupError startup))], rfl, ?_, ?_⟩
  · intro event hmem
    rw [List.mem_singleton.1 hmem]
    exact .resolve ..
  · intro sys log
    have hinit : (Dialect.windows startup).initializeNetwork = .error (startupError startup) :=
      if_pos hstartup
    have hresolve : (Layer.windows sys startup).native.resolve log endpoint type passive
        = .error (startupError startup) := by
      change Sockets.resolve (.windows startup) sys log endpoint type passive = _
      unfold Sockets.resolve
      rw [hinit]
      rfl
    unfold Detail.resolve
    rw [run_call, hresolve]
    rfl

/-- There is nothing to close. -/
theorem inert_closeSocket : Inert startup (fun _ => closeSocket none) (fun _ => True) :=
  inert_pure trivial

end Rules

/-! ## Objects -/

namespace TcpStream

/-- No socket; and the endpoint that `reconnect` uses was checked by `connect`. -/
structure Idle (s : TcpStream) : Prop where
  socket : s.socket = none
  checked : ∀ impl endpoint, s.implementation = some impl → impl.endpoint = some endpoint →
    endpoint.valid = true ∧ impl.options.valid = true ∧ impl.reconnectPolicy.valid = true

variable {startup : Int} {s : TcpStream}

theorem inert_close (h : s.Idle) : Inert startup (fun _ => s.close) Idle := by
  obtain ⟨_ | impl⟩ := s
  · exact inert_pure h
  · have hsocket : impl.socket = none := h.socket
    unfold close
    dsimp only
    rw [hsocket]
    exact inert_pure ⟨rfl, fun _ endpoint himpl => by cases himpl; exact h.checked impl endpoint rfl⟩

/-- With arguments that are valid, `connect` comes as far as the resolution. -/
theorem inert_connect_valid (hstartup : startup ≠ 0) {endpoint : IpEndpoint} {impl : Impl}
    (hsocket : impl.socket = none)
    (hvalid : ¬ (endpoint.valid = false ∨ impl.options.valid = false ∨
      impl.reconnectPolicy.valid = false)) :
    Inert startup (fun N => connect N endpoint ⟨some impl⟩)
      (fun x => x = (.error (startupError startup),
        ⟨some { impl with socket := none, endpoint := some endpoint }⟩)) := by
  unfold connect
  dsimp only
  split_ifs
  rw [hsocket]
  refine inert_closeSocket.bind fun _ _ => ?_
  refine (inert_resolve hstartup ..).bind fun r hr => ?_
  rw [hr]
  exact inert_pure rfl

theorem inert_connect (hstartup : startup ≠ 0) (endpoint : IpEndpoint) (h : s.Idle) :
    Inert startup (fun N => s.connect N endpoint) (fun x => Fails startup x.1 ∧ x.2.Idle) := by
  obtain ⟨_ | impl⟩ := s
  · exact inert_pure ⟨fails_invalidArgument _, h⟩
  by_cases hinvalid : endpoint.valid = false ∨ impl.options.valid = false ∨
      impl.reconnectPolicy.valid = false
  · unfold connect
    dsimp only
    split_ifs
    exact inert_pure ⟨fails_invalidArgument _, h⟩
  · refine (inert_connect_valid hstartup h.socket hinvalid).imp ?_
    rintro x rfl
    refine ⟨fails_startup, rfl, fun _ _ himpl hendpoint => ?_⟩
    cases himpl
    cases hendpoint
    simpa using hinvalid

/-- The last error of the loop is that of `WSAStartup`. -/
theorem inert_reconnectLoop (hstartup : startup ≠ 0) {impl : Impl} {endpoint : IpEndpoint}
    (hendpoint : endpoint.valid = true) (hoptions : impl.options.valid = true)
    (hpolicy : impl.reconnectPolicy.valid = true) (hsocket : impl.socket = none)
    (hsame : impl.endpoint = some endpoint) (policy : ReconnectPolicy) (attempts : Nat) (delay : Int)
    (lastError : Option Error) (hlast : 0 < attempts ∨ lastError = some (startupError startup)) :
    Inert startup (fun N => reconnectLoop N endpoint policy attempts delay lastError ⟨some impl⟩)
      (fun x => Fails startup x.1 ∧ x.2 = ⟨some impl⟩) := by
  induction attempts generalizing delay lastError with
  | zero =>
      obtain hlast | rfl := hlast
      · exact absurd hlast (lt_irrefl 0)
      · exact inert_pure ⟨⟨_, rfl, .inl ⟨rfl, .inr rfl⟩⟩, rfl⟩
  | succ attempts ih =>
      unfold reconnectLoop
      refine (inert_connect_valid hstartup hsocket (by simp [hendpoint, hoptions, hpolicy])).bind ?_
      rintro x rfl
      rw [← hsocket, ← hsame]
      dsimp only
      split_ifs
      · exact (inert_sleepFor delay).bind fun _ _ => ih _ _ (.inr rfl)
      · exact ih _ _ (.inr rfl)

theorem inert_reconnect (hstartup : startup ≠ 0) (h : s.Idle) :
    Inert startup (fun N => s.reconnect N) (fun x => Fails startup x.1 ∧ x.2.Idle) := by
  obtain ⟨_ | impl⟩ := s
  · exact inert_pure ⟨fails_notConnected _, h⟩
  unfold reconnect
  dsimp only
  cases hlast : impl.endpoint with
  | none => exact inert_pure ⟨fails_notConnected _, h⟩
  | some endpoint =>
      obtain ⟨hendpoint, hoptions, hpolicy⟩ := h.checked impl endpoint rfl hlast
      have hattempts : 0 < impl.reconnectPolicy.maxAttempts := by
        have hchecks := hpolicy
        simp only [ReconnectPolicy.valid, Bool.and_eq_true, decide_eq_true_eq] at hchecks
        exact hchecks.1.1.1
      dsimp only
      split_ifs with hinvalid
      · exact inert_pure ⟨fails_invalidArgument _, h⟩
      refine (inert_reconnectLoop hstartup hendpoint hoptions hpolicy h.socket hlast _ _ _ _
        (.inl hattempts)).imp fun x hx => ⟨hx.1, ?_⟩
      rw [hx.2]
      exact h

theorem inert_send (bytes : List UInt8) (h : s.Idle) :
    Inert startup (fun N => s.send N bytes) (fun x => Fails startup x.1 ∧ x.2 = s) := by
  unfold send
  rw [h.socket]
  exact inert_pure ⟨fails_notConnected _, rfl⟩

/-- `send_all` has nothing to do for an empty span, even here. -/
theorem inert_sendAll (bytes : List UInt8) (h : s.Idle) :
    Inert startup (fun N => s.sendAll N bytes)
      (fun x => (bytes ≠ [] → Fails startup x.1) ∧ x.2 = s) := by
  unfold sendAll sendAllFrom
  split_ifs with hlt
  · refine (inert_send (bytes.drop 0) h).bind ?_
    rintro ⟨r, s'⟩ ⟨⟨e, hr, he⟩, hs⟩
    cases hr
    cases hs
    exact inert_pure ⟨fun _ => ⟨e, rfl, he⟩, rfl⟩
  · exact inert_pure ⟨fun hne => absurd (List.length_pos_iff.2 hne) hlt, rfl⟩

theorem inert_receive (size : Nat) (h : s.Idle) :
    Inert startup (fun N => s.receive N size) (fun x => Fails startup x.1 ∧ x.2 = s) := by
  unfold receive
  rw [h.socket]
  exact inert_pure ⟨fails_notConnected _, rfl⟩

end TcpStream

namespace TcpListener

variable {startup : Int} {l : TcpListener}

theorem inert_close (h : l.socket = none) :
    Inert startup (fun _ => l.close) (fun l' => l'.socket = none) := by
  obtain ⟨_ | impl⟩ := l
  · exact inert_pure h
  · have hsocket : impl.socket = none := h
    unfold close
    dsimp only
    rw [hsocket]
    exact inert_pure rfl

theorem inert_bind (hstartup : startup ≠ 0) (endpoint : IpEndpoint) (backlog : Int)
    (h : l.socket = none) :
    Inert startup (fun N => l.bind N endpoint backlog)
      (fun x => Fails startup x.1 ∧ x.2.socket = none) := by
  obtain ⟨_ | impl⟩ := l
  · exact inert_pure ⟨fails_invalidArgument _, h⟩
  have hsocket : impl.socket = none := h
  unfold TcpListener.bind
  dsimp only
  split_ifs with hinvalid
  · exact inert_pure ⟨fails_invalidArgument _, h⟩
  rw [hsocket]
  refine inert_closeSocket.bind fun _ _ => ?_
  refine (inert_resolve hstartup ..).bind fun r hr => ?_
  rw [hr]
  exact inert_pure ⟨fails_startup, rfl⟩

theorem inert_accept (h : l.socket = none) :
    Inert startup (fun N => l.accept N) (Fails startup) := by
  obtain ⟨_ | ⟨_ | socket, options⟩⟩ := l
  · exact inert_pure (fails_notConnected _)
  · exact inert_pure (fails_notConnected _)
  · cases h

theorem inert_localEndpoint (h : l.socket = none) :
    Inert startup (fun N => l.localEndpoint N) (Fails startup) := by
  unfold localEndpoint
  rw [h]
  exact inert_pure (fails_notConnected _)

end TcpListener

namespace UdpSocket

/-- No socket, and no address that is known without a resolution. -/
structure Idle (u : UdpSocket) : Prop where
  socket : u.socket = none
  cache : ∀ impl, u.implementation = some impl → impl.cachedAddress = none

variable {startup : Int} {u : UdpSocket}

theorem inert_close (h : u.Idle) : Inert startup (fun _ => u.close) Idle := by
  obtain ⟨_ | impl⟩ := u
  · exact inert_pure h
  · have hsocket : impl.socket = none := h.socket
    unfold close
    dsimp only
    rw [hsocket]
    exact inert_pure ⟨rfl, fun _ himpl => by cases himpl; exact h.cache impl rfl⟩

theorem inert_bind (hstartup : startup ≠ 0) (endpoint : IpEndpoint) (h : u.Idle) :
    Inert startup (fun N => u.bind N endpoint) (fun x => Fails startup x.1 ∧ x.2.Idle) := by
  obtain ⟨_ | impl⟩ := u
  · exact inert_pure ⟨fails_invalidArgument _, h⟩
  have hsocket : impl.socket = none := h.socket
  unfold UdpSocket.bind
  dsimp only
  split_ifs with hinvalid
  · exact inert_pure ⟨fails_invalidArgument _, h⟩
  rw [hsocket]
  refine inert_closeSocket.bind fun _ _ => ?_
  refine (inert_resolve hstartup ..).bind fun r hr => ?_
  rw [hr]
  exact inert_pure ⟨fails_startup, rfl, fun _ himpl => by cases himpl; exact h.cache impl rfl⟩

/-- The cache never lets `send_to` skip the resolution. -/
theorem inert_sendTo (hstartup : startup ≠ 0) (endpoint : IpEndpoint) (payload : List UInt8)
    (h : u.Idle) :
    Inert startup (fun N => u.sendTo N endpoint payload)
      (fun x => Fails startup x.1 ∧ x.2.Idle) := by
  obtain ⟨_ | impl⟩ := u
  · exact inert_pure ⟨fails_invalidArgument _, h⟩
  have hcache : impl.cachedFor endpoint = none := by
    rw [Impl.cachedFor, h.cache impl rfl, ite_self]
  unfold sendTo
  dsimp only
  split_ifs with hinvalid hlarge
  · exact inert_pure ⟨fails_invalidArgument _, h⟩
  · exact inert_pure ⟨⟨_, rfl, .inr ⟨rfl, .inr (.inr rfl)⟩⟩, h⟩
  rw [hcache]
  refine (inert_resolve hstartup ..).bind fun r hr => ?_
  rw [hr]
  exact inert_pure ⟨fails_startup, h⟩

theorem inert_receive (maximumSize : Nat) (h : u.Idle) :
    Inert startup (fun N => u.receive N maximumSize) (Fails startup) := by
  unfold receive
  rw [h.socket]
  exact inert_pure (fails_notConnected _)

theorem inert_localEndpoint (h : u.Idle) :
    Inert startup (fun N => u.localEndpoint N) (Fails startup) := by
  unfold localEndpoint
  rw [h.socket]
  exact inert_pure (fails_notConnected _)

end UdpSocket

namespace Object

/-- The object cannot do anything that needs Winsock. -/
def Idle : Object → Prop
  | .stream s => s.Idle
  | .listener l => l.socket = none
  | .udp u => u.Idle

variable {startup : Int} {o : Object}

theorem Idle.handle (h : o.Idle) : o.handle = none := by
  cases o with
  | stream s => exact h.socket
  | listener l => exact h
  | udp u => exact h.socket

theorem idle_movedFrom (o : Object) : o.movedFrom.Idle := by
  cases o with
  | stream s => exact ⟨rfl, fun _ _ himpl => by cases himpl⟩
  | listener l => exact rfl
  | udp u => exact ⟨rfl, fun _ himpl => by cases himpl⟩

theorem inert_close (h : o.Idle) : Inert startup (fun _ => o.close) Idle := by
  cases o with
  | stream s => exact (TcpStream.inert_close h).bind fun s hs => inert_pure hs
  | listener l => exact (TcpListener.inert_close h).bind fun l hl => inert_pure hl
  | udp u => exact (UdpSocket.inert_close h).bind fun u hu => inert_pure hu

/-- **Every method is inert**, and leaves the object idle. -/
theorem inert_run (hstartup : startup ≠ 0) (method : Method) (h : o.Idle) :
    Inert startup (fun N => o.run N method) Idle := by
  cases o with
  | stream s =>
      cases method with
      | connect endpoint =>
          exact (TcpStream.inert_connect hstartup endpoint h).bind fun _ hx => inert_pure hx.2
      | reconnect => exact (TcpStream.inert_reconnect hstartup h).bind fun _ hx => inert_pure hx.2
      | send bytes =>
          exact (TcpStream.inert_send bytes h).bind fun _ hx => inert_pure (hx.2 ▸ h)
      | sendAll bytes =>
          exact (TcpStream.inert_sendAll bytes h).bind fun _ hx => inert_pure (hx.2 ▸ h)
      | receive size =>
          exact (TcpStream.inert_receive size h).bind fun _ hx => inert_pure (hx.2 ▸ h)
      | close => exact inert_close (o := .stream s) h
      | _ => exact inert_pure h
  | listener l =>
      cases method with
      | listen endpoint backlog =>
          exact (TcpListener.inert_bind hstartup endpoint backlog h).bind fun _ hx =>
            inert_pure hx.2
      | localEndpoint => exact (TcpListener.inert_localEndpoint h).bind fun _ _ => inert_pure h
      | close => exact inert_close (o := .listener l) h
      | _ => exact inert_pure h
  | udp u =>
      cases method with
      | bind endpoint =>
          exact (UdpSocket.inert_bind hstartup endpoint h).bind fun _ hx => inert_pure hx.2
      | sendTo endpoint payload =>
          exact (UdpSocket.inert_sendTo hstartup endpoint payload h).bind fun _ hx =>
            inert_pure hx.2
      | receiveFrom maximumSize =>
          exact (UdpSocket.inert_receive maximumSize h).bind fun _ _ => inert_pure h
      | localEndpoint => exact (UdpSocket.inert_localEndpoint h).bind fun _ _ => inert_pure h
      | close => exact inert_close (o := .udp u) h
      | _ => exact inert_pure h

end Object

/-- The reply is an error, unless there is nothing to reply. -/
def Reply.Fails (startup : Int) : Reply → Prop
  | .done r => Transport.Fails startup r
  | .count r => Transport.Fails startup r
  | .bytes r => Transport.Fails startup r
  | .datagram r => Transport.Fails startup r
  | .endpoint r => Transport.Fails startup r
  | .nothing => True

/-- Every reply is an error that no socket function can have caused. -/
theorem Object.inert_reply {startup : Int} (hstartup : startup ≠ 0) {method : Method} {o : Object}
    (h : o.Idle) (hmethod : method ≠ .sendAll []) :
    Inert startup (fun N => o.reply N method) (Reply.Fails startup) := by
  cases o with
  | stream s =>
      cases method with
      | connect endpoint =>
          exact (TcpStream.inert_connect hstartup endpoint h).bind fun _ hx => inert_pure hx.1
      | reconnect => exact (TcpStream.inert_reconnect hstartup h).bind fun _ hx => inert_pure hx.1
      | send bytes => exact (TcpStream.inert_send bytes h).bind fun _ hx => inert_pure hx.1
      | sendAll bytes =>
          refine (TcpStream.inert_sendAll bytes h).bind fun _ hx => inert_pure (hx.1 ?_)
          rintro rfl
          exact hmethod rfl
      | receive size => exact (TcpStream.inert_receive size h).bind fun _ hx => inert_pure hx.1
      | close => exact (inert_close (o := .stream s) h).bind fun _ _ => inert_pure trivial
      | _ => exact inert_pure trivial
  | listener l =>
      cases method with
      | listen endpoint backlog =>
          exact (TcpListener.inert_bind hstartup endpoint backlog h).bind fun _ hx =>
            inert_pure hx.1
      | localEndpoint => exact (TcpListener.inert_localEndpoint h).bind fun _ hr => inert_pure hr
      | close => exact (inert_close (o := .listener l) h).bind fun _ _ => inert_pure trivial
      | _ => exact inert_pure trivial
  | udp u =>
      cases method with
      | bind endpoint =>
          exact (UdpSocket.inert_bind hstartup endpoint h).bind fun _ hx => inert_pure hx.1
      | sendTo endpoint payload =>
          exact (UdpSocket.inert_sendTo hstartup endpoint payload h).bind fun _ hx =>
            inert_pure hx.1
      | receiveFrom maximumSize =>
          exact (UdpSocket.inert_receive maximumSize h).bind fun _ hr => inert_pure hr
      | localEndpoint => exact (UdpSocket.inert_localEndpoint h).bind fun _ hr => inert_pure hr
      | close => exact (inert_close (o := .udp u) h).bind fun _ _ => inert_pure trivial
      | _ => exact inert_pure trivial

/-! ## Programs -/

namespace World

/-- Only idle objects, and only vain calls. -/
structure Idle (startup : Int) (w : World) : Prop where
  object : ∀ o, some o ∈ w.objects → o.Idle
  log : ∀ event ∈ w.log, Event.Vain startup event

variable {startup : Int} {w : World}

theorem Idle.append (h : w.Idle startup) {o : Object} (ho : o.Idle) :
    Idle startup { w with objects := w.objects ++ [some o] } := by
  refine ⟨fun o' hmem => ?_, h.log⟩
  rcases List.mem_append.1 hmem with hmem | hmem
  · exact h.object o' hmem
  · cases List.mem_singleton.1 hmem
    exact ho

theorem Idle.set (h : w.Idle startup) (id : Nat) (slot : Option Object)
    (hslot : ∀ o, slot = some o → o.Idle) :
    Idle startup { w with objects := w.objects.set id slot } := by
  refine ⟨fun o hmem => ?_, h.log⟩
  rcases List.mem_or_eq_of_mem_set hmem with hmem | heq
  · exact h.object o hmem
  · exact hslot o heq.symm

theorem Idle.calls (h : w.Idle startup) {calls : Log}
    (hvain : ∀ event ∈ calls, Event.Vain startup event) :
    Idle startup { w with log := calls ++ w.log } := by
  refine ⟨h.object, fun event hmem => ?_⟩
  rcases List.mem_append.1 hmem with hmem | hmem
  · exact hvain event hmem
  · exact h.log event hmem

/-- **An operation of the program**, the same on every system. -/
theorem Idle.step (hstartup : startup ≠ 0) (h : w.Idle startup) (op : Op) :
    ∃ w', Idle startup w' ∧ ∀ sys, w.step (Layer.windows sys startup).native op = w' := by
  cases op with
  | newStream options reconnect =>
      exact ⟨_, h.append (o := .stream _) ⟨rfl, fun _ _ himpl hlast => by cases himpl; cases hlast⟩,
        fun _ => rfl⟩
  | newListener options =>
      have hnew : (Object.listener (.construct options)).Idle := rfl
      exact ⟨_, h.append hnew, fun _ => rfl⟩
  | newUdp options =>
      exact ⟨_, h.append (o := .udp _) ⟨rfl, fun _ himpl => by cases himpl; rfl⟩, fun _ => rfl⟩
  | call id method =>
      rcases hid : w.objects[id]? with _ | _ | o
      case some.some =>
        obtain ⟨o', calls, ho', hvain, hyields⟩ :=
          o.inert_run hstartup method (h.object o (List.mem_of_getElem? hid))
        refine ⟨_, (h.calls hvain).set id (some o') ?_, fun sys => ?_⟩
        · rintro _ ⟨⟩
          exact ho'
        · simp only [World.step, hid, hyields sys w.log]
      all_goals exact ⟨w, h, fun sys => by simp only [World.step, hid]⟩
  | accept id =>
      rcases hid : w.objects[id]? with _ | _ | s | l | u
      case some.some.listener =>
        have hinert : Inert startup (fun N => l.accept N) (Fails startup) :=
          TcpListener.inert_accept (h.object _ (List.mem_of_getElem? hid))
        obtain ⟨_, calls, ⟨e, rfl, -⟩, hvain, hyields⟩ := hinert
        refine ⟨_, h.calls hvain, fun sys => ?_⟩
        simp only [World.step, hid, hyields sys w.log]
      all_goals exact ⟨w, h, fun sys => by simp only [World.step, hid]⟩
  | moveConstruct source =>
      rcases hid : w.objects[source]? with _ | _ | o
      case some.some =>
        refine ⟨_, (h.set source (some o.movedFrom) ?_).append
          (h.object o (List.mem_of_getElem? hid)), fun sys => by simp only [World.step, hid]⟩
        rintro _ ⟨⟩
        exact o.idle_movedFrom
      all_goals exact ⟨w, h, fun sys => by simp only [World.step, hid]⟩
  | moveAssign target source =>
      by_cases hself : target = source
      · exact ⟨w, h, fun sys => by simp only [World.step, if_pos hself]⟩
      rcases ht : w.objects[target]? with _ | _ | t
      case some.some =>
        rcases hs : w.objects[source]? with _ | _ | s
        case some.some =>
          by_cases hclass : t.sameClass s = true
          · have hinert : Inert startup (fun _ => t.close) Object.Idle :=
              Object.inert_close (h.object t (List.mem_of_getElem? ht))
            obtain ⟨t', calls, -, hvain, hyields⟩ := hinert
            refine ⟨_, ((h.calls hvain).set target (some s) ?_).set source
              (some s.movedFrom) ?_, fun sys => ?_⟩
            · rintro _ ⟨⟩
              exact h.object s (List.mem_of_getElem? hs)
            · rintro _ ⟨⟩
              exact s.idle_movedFrom
            · simp only [World.step, if_neg hself, ht, hs, if_pos hclass, hyields sys w.log]
          · exact ⟨w, h, fun sys => by simp only [World.step, if_neg hself, ht, hs, if_neg hclass]⟩
        all_goals exact ⟨w, h, fun sys => by simp only [World.step, if_neg hself, ht, hs]⟩
      all_goals exact ⟨w, h, fun sys => by simp only [World.step, if_neg hself, ht]⟩
  | destroy id =>
      rcases hid : w.objects[id]? with _ | _ | o
      case some.some =>
        have hinert : Inert startup (fun _ => o.close) Object.Idle :=
          Object.inert_close (h.object o (List.mem_of_getElem? hid))
        obtain ⟨o', calls, -, hvain, hyields⟩ := hinert
        refine ⟨_, (h.calls hvain).set id none (by rintro _ ⟨⟩), fun sys => ?_⟩
        simp only [World.step, hid, hyields sys w.log]
      all_goals exact ⟨w, h, fun sys => by simp only [World.step, hid]⟩

theorem idle_run (hstartup : startup ≠ 0) (ops : List Op) :
    ∃ w, Idle startup w ∧ ∀ sys, World.run (Layer.windows sys startup).native ops = w := by
  induction ops using List.reverseRecOn with
  | nil =>
      refine ⟨{}, ⟨fun o hmem => ?_, fun event hmem => ?_⟩, fun _ => rfl⟩
      · cases hmem
      · cases hmem
  | append_singleton ops op ih =>
      obtain ⟨w, hw, hrun⟩ := ih
      obtain ⟨w', hw', hstep⟩ := hw.step hstartup op
      refine ⟨w', hw', fun sys => ?_⟩
      have hfirst := hrun sys
      unfold World.run at hfirst ⊢
      rw [List.foldl_append, hfirst]
      exact hstep sys

end World

/-- **Winsock is left alone after `WSAStartup` failed.**  A program that uses the transport
does not depend on any socket function then: it ends up in the same world whatever they would
do.  Its native calls are resolutions that fail with the error of `WSAStartup`, and the
sleeps of `reconnect`.  No object ever has a socket, and every call that has a result, but the
`send_all` of an empty span, returns the same error on every system: it has the code of
`WSAStartup`, or tells of a wrong use of the object.  So does the `accept` of a listener. -/
theorem no_network {startup : Int} (hstartup : startup ≠ 0) (ops : List Op) :
    ∃ w : World, (∀ sys, World.run (Layer.windows sys startup).native ops = w) ∧
      (∀ event ∈ w.log, Event.Vain startup event) ∧
      (∀ o, some o ∈ w.objects → o.handle = none ∧
        ∀ method, method ≠ .sendAll [] → ∃ reply, Reply.Fails startup reply ∧
          ∀ sys log, ((o.reply (Layer.windows sys startup).native method).run log).1 = reply) ∧
      ∀ l, some (.listener l) ∈ w.objects → ∃ r, Fails startup r ∧
        ∀ sys log, ((l.accept (Layer.windows sys startup).native).run log).1 = r := by
  obtain ⟨w, hw, hrun⟩ := World.idle_run hstartup ops
  refine ⟨w, hrun, hw.log, fun o hmem => ?_, fun l hmem => ?_⟩
  · have hidle : o.Idle := hw.object o hmem
    exact ⟨hidle.handle, fun method hmethod => (Object.inert_reply hstartup hidle hmethod).answer⟩
  · have hclosed : l.socket = none := hw.object _ hmem
    exact (TcpListener.inert_accept hclosed).answer

/-- A stream that connects and reconnects once, and a listener. -/
def connectTwice : List Op :=
  [.newStream {} { maxAttempts := 1 }, .call 0 (.connect ⟨"localhost", 80⟩), .call 0 .reconnect,
    .newListener {}]

/-- Where `WSAStartup` returned `WSASYSNOTREADY`, the stream tries to resolve the endpoint twice,
and the listener accepts nothing. -/
theorem no_network_connect :
    (World.run (Layer.windows .obliging 10091).native connectTwice).log
      = List.replicate 2
        (.resolve ⟨"localhost", 80⟩ .stream false (.error (startupError 10091))) ∧
    (∀ sys, World.run (Layer.windows sys 10091).native connectTwice
      = World.run (Layer.windows .obliging 10091).native connectTwice) ∧
    Fails 10091
      (((TcpListener.construct {}).accept (Layer.windows .obliging 10091).native).run []).1 := by
  refine ⟨by decide, ?_⟩
  obtain ⟨w, hrun, -, -, haccept⟩ := no_network (show (10091 : Int) ≠ 0 by decide) connectTwice
  refine ⟨fun sys => ?_, ?_⟩
  · rw [hrun sys, hrun .obliging]
  · obtain ⟨r, hfails, hr⟩ := haccept (.construct {}) (by
      rw [← hrun .obliging]
      decide)
    rw [hr .obliging []]
    exact hfails

end Transport
end Vosp
