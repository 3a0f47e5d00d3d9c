import MicroProtocol.Lib.Typestate
import MicroProtocol.Transport.World

/-!
# The protocol of the socket interface

A native socket goes through stages: it is created, configured, connected or bound and put
to listen, used, and in the end shut down and closed.  Each native call has its place in
this order; after a call that failed on a new socket or on a connection nothing is left
but to close it.

* `Stage`, `Event.next` — the stages of a socket, and what each native call makes of them.
* `Prepares` — the preparation of a new socket by the address loop, step by step.
* `follows_…` — every method obeys the protocol, and leaves its object with a socket in
  the stage that the class of the object stands for: `staged`.
-/

namespace Vosp
namespace Transport

open Custody Detail Typestate

/-- How far a native socket has come. -/
inductive Stage where
  /-- Created, and nothing else. -/
  | created (type : SocketType)
  /-- Returned by `accept`, and nothing else. -/
  | accepted
  /-- A stream socket with its timeouts set. -/
  | configured (options : IoOptions)
  | connected (options : IoOptions)
  /-- A stream socket whose address may be reused. -/
  | reusable
  | bound
  | listening
  /-- A datagram socket with its timeouts set, bound or not. -/
  | datagram (options : IoOptions)
  /-- A call failed, or the peer has closed the connection. -/
  | failed
  | shut
  deriving DecidableEq, Repr

namespace Stage

/-- A call leads on to the stage if it succeeds. -/
def orFailed {α : Type} (s : Stage) : Result α → Stage
  | .ok _ => s
  | .error _ => .failed

/-- Only sockets that are in use or have failed are closed. -/
def closable : Stage → Bool
  | .connected _ => true
  | .listening => true
  | .datagram _ => true
  | .failed => true
  | _ => false

end Stage

/-- What a native call makes of the stage of its socket; `none` if it has no place there. -/
def Event.next : Event → Stage → Option (Option Stage)
  | .applyOptions _ options r, .created .stream => some (some (.orFailed (.configured options) r))
  | .applyOptions _ options r, .created .datagram => some (some (.orFailed (.datagram options) r))
  | .applyOptions _ options r, .accepted => some (some (.orFailed (.connected options) r))
  | .connectSocket _ _ r, .configured options => some (some (.orFailed (.connected options) r))
  | .setReuseAddress _ r, .created .stream => some (some (.orFailed .reusable r))
  | .bindSocket _ _ r, .reusable => some (some (.orFailed .bound r))
  | .bindSocket _ _ r, .datagram options => some (some (.orFailed (.datagram options) r))
  | .listenSocket _ backlog r, .bound =>
      if 0 < backlog ∧ backlog ≤ 65535 then some (some (.orFailed .listening r)) else none
  | .acceptSocket _ _, .listening => some (some .listening)
  | .localAddress _ _, .listening => some (some .listening)
  | .localAddress _ _, .datagram options => some (some (.datagram options))
  | .sendSocket _ bytes r, .connected options =>
      if bytes ≠ [] then some (some (.orFailed (.connected options) r)) else none
  | .receiveSocket _ size r, .connected options =>
      if size ≠ 0 then
        -- no bytes mean that the peer has closed the connection
        some (some (if r = .ok [] then .failed else .orFailed (.connected options) r))
      else none
  | .sendDatagram _ _ payload _, .datagram options =>
      if payload.length ≤ UdpSocket.maximumPayloadSize then some (some (.datagram options)) else none
  | .receiveDatagram _ size _, .datagram options =>
      if 0 < size ∧ size ≤ UdpSocket.maximumPayloadSize then some (some (.datagram options)) else none
  | .shutdown _, s => if s.closable then some (some .shut) else none
  | .close _, .shut => some none
  | _, _ => none

/-- The socket that a native call opens. -/
def Event.birth : Event → Option (Handle × Stage)
  | .createSocket _ type (.ok socket) => some (socket, .created type)
  | .acceptSocket _ (.ok accepted) => some (accepted.socket, .accepted)
  | _ => none

/-- The protocol. -/
def socketRules : Rules Handle Stage Event where
  on e := e.access.on
  opens := Event.birth
  next := Event.next

/-! ## Open sockets -/

theorem Event.opens_of_birth {e : Event} {h : Handle} {s : Stage} (hb : e.birth = some (h, s)) :
    e.access.opens = some h := by
  unfold Event.birth at hb
  split at hb <;> cases hb <;> rfl

/-- The call that closes a socket ends its stages. -/
theorem Event.next_of_closes {e : Event} {h : Handle} (hc : e.access.closes = some h)
    (s s' : Stage) : e.access.on = some h ∧ e.next s ≠ some (some s') := by
  cases e with
  | close socket =>
      cases hc
      refine ⟨rfl, ?_⟩
      cases s <;> simp [Event.next]
  | createSocket address type r => cases r <;> cases hc
  | acceptSocket socket r => cases r <;> cases hc
  | _ => cases hc

/-- A socket that has a stage is open. -/
theorem mem_openHandles_of_stage {log : Log} {h : Handle} {s : Stage}
    (hs : socketRules.stages log h = some s) : h ∈ openHandles log := by
  induction log generalizing s with
  | nil => cases hs
  | cons e log ih =>
      change h ∈ held Event.access log - owned e.access.closes + owned e.access.opens
      rw [Multiset.mem_add]
      obtain ⟨_, hborn⟩ | ⟨s', hs', hmoved⟩ := Rules.stages_cons_eq_some hs
      · exact .inr (by simp [Event.opens_of_birth hborn])
      -- it had a stage before, and this call did not close it
      refine .inl ?_
      have hopen : e.access.closes ≠ some h := by
        intro hc
        obtain ⟨hon, hnext⟩ := Event.next_of_closes hc s' s
        obtain ⟨-, hnext'⟩ | ⟨hon', -⟩ := hmoved
        · exact hnext hnext'
        · exact hon' hon
      cases hcloses : e.access.closes with
      | none =>
          rw [owned_none, tsub_zero]
          exact ih hs'
      | some h' =>
          rw [owned_some, Multiset.sub_singleton, Multiset.mem_erase_of_ne]
          · exact ih hs'
          · rintro rfl
            exact hopen hcloses

theorem stage_eq_none {log : Log} {h : Handle} (hh : h ∉ openHandles log) :
    socketRules.stages log h = none := by
  cases hs : socketRules.stages log h with
  | none => rfl
  | some s => exact absurd (mem_openHandles_of_stage hs) hh

/-! ## The native calls -/

variable {N : Native}

/-- The handle of a result, in its first stage. -/
def firstStage (s : Stage) : Result Handle → Option (Handle × Stage)
  | .ok socket => some (socket, s)
  | .error _ => none

theorem follows_createSocket (address : NativeAddress) (type : SocketType) :
    Follows socketRules 0 (createSocket N address type)
      (fun r => owned (firstStage (.created type) r)) := by
  refine follows_open (fun log => ?_) (fun log => ?_) (fun log _ h s hborn => ?_)
  · cases hr : N.createSocket log address type <;> rfl
  · cases hr : N.createSocket log address type <;> rfl
  · cases hr : N.createSocket log address type with
    | error e =>
        rw [hr] at hborn
        cases hborn
    | ok socket =>
        rw [hr] at hborn
        cases hborn
        exact stage_eq_none (N.create_fresh hr)

/-- A call on a socket that leads on if it succeeds. -/
theorem follows_step {α : Type} {f : Log → Result α × Event} {socket : Handle} {s t : Stage}
    (hon : ∀ log, (f log).2.access.on = some socket) (hbirth : ∀ log, (f log).2.birth = none)
    (hnext : ∀ log, (f log).2.next s = some (some (t.orFailed (f log).1))) :
    Follows socketRules {(socket, s)} (call f) (fun r => {(socket, t.orFailed r)}) :=
  follows_on (r := fun r => some (t.orFailed r)) hon hbirth hnext

/-- A call on a socket that leaves it where it is. -/
theorem follows_stay {α : Type} {f : Log → α × Event} {socket : Handle} {s : Stage}
    (hon : ∀ log, (f log).2.access.on = some socket) (hbirth : ∀ log, (f log).2.birth = none)
    (hnext : ∀ log, (f log).2.next s = some (some s)) :
    Follows socketRules {(socket, s)} (call f) (fun _ => {(socket, s)}) :=
  follows_on (r := fun _ => some s) hon hbirth hnext

theorem follows_acceptSocket (socket : Handle) :
    Follows socketRules {(socket, .listening)} (acceptSocket N socket)
      (fun r => {(socket, .listening)} +
        owned (firstStage .accepted (r.map AcceptedSocket.socket))) := by
  refine follows_on_open (fun log => ?_) (fun log => ?_) (fun log => ?_)
    (fun log _ h s hborn => ?_)
  · cases hr : N.acceptSocket log socket <;> rfl
  · cases hr : N.acceptSocket log socket <;> rfl
  · rfl
  · cases hr : N.acceptSocket log socket with
    | error e =>
        rw [hr] at hborn
        cases hborn
    | ok accepted =>
        rw [hr] at hborn
        cases hborn
        exact stage_eq_none (N.accept_fresh hr)

/-- A socket in a stage, where there is one. -/
def resting (socket : Option Handle) (s : Stage) : Multiset (Handle × Stage) :=
  owned (socket.map fun socket => (socket, s))

/-- Closing is allowed in any stage a socket rests in. -/
theorem follows_closeSocket {s : Stage} (hs : s.closable = true) (socket : Option Handle) :
    Follows socketRules (resting socket s) (closeSocket socket) (fun _ => 0) := by
  cases socket with
  | none => exact follows_pure rfl
  | some socket =>
      have hshut : Follows socketRules {(socket, s)}
          (call fun _ => ((), Event.shutdown socket)) (fun _ => {(socket, .shut)}) :=
        follows_on (r := fun _ => some Stage.shut) (fun _ => rfl) (fun _ => rfl)
          (fun _ => by simp [socketRules, Event.next, hs])
      refine hshut.bind fun _ => ?_
      exact follows_on (r := fun _ => none) (fun _ => rfl) (fun _ => rfl) (fun _ => rfl)

/-! ## The address loop -/

/-- The steps lead a new socket from one stage to another. -/
inductive Prepares : List (Handle → Net (Result Unit)) → Stage → Stage → Prop where
  | nil {s : Stage} : Prepares [] s s
  | cons {step : Handle → Net (Result Unit)} {steps : List (Handle → Net (Result Unit))}
      {s t u : Stage} (hstep : ∀ socket, Follows socketRules {(socket, s)} (step socket)
        (fun r => {(socket, t.orFailed r)}))
      (hsteps : Prepares steps t u) : Prepares (step :: steps) s u

theorem Prepares.follows {steps : List (Handle → Net (Result Unit))} {s t : Stage}
    (h : Prepares steps s t) (socket : Handle) :
    Follows socketRules {(socket, s)} (prepare socket steps)
      (fun r => {(socket, t.orFailed r)}) := by
  induction h with
  | nil => exact follows_pure rfl
  | cons hstep _ ih =>
      unfold prepare
      refine (hstep socket).bind fun r => ?_
      cases r with
      | error e => exact follows_pure rfl
      | ok u => exact ih

theorem prepares_connected (options : IoOptions) (address : NativeAddress) :
    Prepares [applyOptions N options, connectSocket N address] (.created .stream)
      (.connected options) :=
  .cons (t := .configured options)
    (fun _ => follows_step (fun _ => rfl) (fun _ => rfl) (fun _ => rfl))
    (.cons (fun _ => follows_step (fun _ => rfl) (fun _ => rfl) (fun _ => rfl)) .nil)

theorem prepares_listening (address : NativeAddress) {backlog : Int} (hpos : 0 < backlog)
    (hle : backlog ≤ 65535) :
    Prepares [setReuseAddress N, bindSocket N address, listenSocket N backlog] (.created .stream)
      .listening := by
  refine .cons (t := .reusable) (fun _ => ?_) (.cons (t := .bound) (fun _ => ?_)
    (.cons (fun _ => ?_) .nil))
  · exact follows_step (fun _ => rfl) (fun _ => rfl) (fun _ => rfl)
  · exact follows_step (fun _ => rfl) (fun _ => rfl) (fun _ => rfl)
  · refine follows_step (fun _ => rfl) (fun _ => rfl) (fun _ => ?_)
    exact if_pos ⟨hpos, hle⟩

theorem prepares_datagram (options : IoOptions) (address : NativeAddress) :
    Prepares [applyOptions N options, bindSocket N address] (.created .datagram)
      (.datagram options) :=
  .cons (t := .datagram options)
    (fun _ => follows_step (fun _ => rfl) (fun _ => rfl) (fun _ => rfl))
    (.cons (fun _ => follows_step (fun _ => rfl) (fun _ => rfl) (fun _ => rfl)) .nil)

/-- The socket the address loop ended with. -/
def openedAt (s : Stage) : Except (Option Error) (Handle × NativeAddress) → Multiset (Handle × Stage)
  | .ok (socket, _) => {(socket, s)}
  | .error _ => 0

/-- The address loop closes every socket that it could not prepare. -/
theorem follows_openFirst {type : SocketType}
    {steps : NativeAddress → List (Handle → Net (Result Unit))} {s : Stage}
    (hsteps : ∀ address, Prepares (steps address) (.created type) s)
    (addresses : List NativeAddress) (lastError : Option Error) :
    Follows socketRules 0 (openFirst N type steps addresses lastError) (openedAt s) := by
  induction addresses generalizing lastError with
  | nil => exact follows_pure rfl
  | cons address addresses ih =>
      unfold openFirst
      refine (follows_createSocket address type).bind fun r => ?_
      cases r with
      | error e => exact ih _
      | ok socket =>
          refine ((hsteps address).follows socket).bind fun r => ?_
          cases r with
          | error e => exact (follows_closeSocket rfl (some socket)).bind fun _ => ih _
          | ok u => exact follows_pure rfl

/-- The way `connect` and both `bind`s open a socket anew. -/
theorem follows_reopen {α : Type} {socket : Option Handle} {endpoint : IpEndpoint}
    {type : SocketType} {passive : Bool}
    {steps : NativeAddress → List (Handle → Net (Result Unit))} {s : Stage}
    {onError : Error → Net α} {onOpen : Except (Option Error) (Handle × NativeAddress) → Net α}
    {T : α → Multiset (Handle × Stage)} (hs : s.closable = true)
    (hsteps : ∀ address, Prepares (steps address) (.created type) s)
    (herror : ∀ e, Follows socketRules 0 (onError e) T)
    (hopen : ∀ r, Follows socketRules (openedAt s r) (onOpen r) T) :
    Follows socketRules (resting socket s) (do
      closeSocket socket
      match ← resolve N endpoint type passive with
      | .error e => onError e
      | .ok addresses => openFirst N type steps addresses none >>= onOpen) T := by
  refine (follows_closeSocket hs socket).bind fun _ => ?_
  refine Follows.bind (follows_idle (fun _ => rfl) (fun _ => rfl)) fun r => ?_
  cases r with
  | error e => exact herror e
  | ok addresses => exact (follows_openFirst hsteps addresses none).bind hopen

/-- Asking for the address of a socket, as both `local_endpoint`s do. -/
theorem follows_addressOf {socket : Handle} {s : Stage}
    (hs : ∀ r, (Event.localAddress socket r).next s = some (some s)) :
    Follows socketRules {(socket, s)} (do
      match ← localAddress N socket with
      | .error e => pure (.error e)
      | .ok address => toEndpoint N address) (fun _ => {(socket, s)}) := by
  refine Follows.bind (follows_stay (fun _ => rfl) (fun _ => rfl) (fun _ => hs _)) fun r => ?_
  cases r with
  | error e => exact follows_pure rfl
  | ok address => exact follows_idle (fun _ => rfl) (fun _ => rfl)

/-! ## The methods -/

namespace TcpStream

/-- The socket of a stream is connected, under the stream's own options. -/
def staged (s : TcpStream) : Multiset (Handle × Stage) :=
  match s.implementation with
  | none => 0
  | some impl => resting impl.socket (.connected impl.options)

theorem staged_eq {s : TcpStream} {socket : Handle} (hs : s.socket = some socket) :
    ∃ options, s.staged = {(socket, .connected options)} := by
  obtain ⟨_ | ⟨_ | handle, options, policy, endpoint⟩⟩ := s
  · cases hs
  · cases hs
  · cases hs
    exact ⟨options, rfl⟩

/-- Closing a stream whose socket is in any stage that allows it. -/
theorem follows_close_of {s : TcpStream} {socket : Handle} (hs : s.socket = some socket)
    {stage : Stage} (hstage : stage.closable = true) :
    Follows socketRules {(socket, stage)} s.close staged := by
  obtain ⟨_ | ⟨_ | handle, options, policy, endpoint⟩⟩ := s
  · cases hs
  · cases hs
  · cases hs
    exact (follows_closeSocket hstage (some socket)).bind fun _ => follows_pure rfl

theorem follows_close (s : TcpStream) : Follows socketRules s.staged s.close staged := by
  obtain ⟨_ | impl⟩ := s
  · exact follows_pure rfl
  · exact (follows_closeSocket rfl impl.socket).bind fun _ => follows_pure rfl

theorem follows_connect (endpoint : IpEndpoint) (s : TcpStream) :
    Follows socketRules s.staged (connect N endpoint s) (fun r => r.2.staged) := by
  obtain ⟨_ | impl⟩ := s
  · exact follows_pure rfl
  unfold connect
  dsimp only
  split_ifs
  · exact follows_pure rfl
  refine follows_reopen rfl (prepares_connected impl.options) (fun e => follows_pure rfl) ?_
  rintro ((_ | e) | ⟨socket, address⟩)
  · exact follows_pure rfl
  · exact follows_pure rfl
  · exact follows_pure rfl

theorem follows_reconnectLoop (endpoint : IpEndpoint) (policy : ReconnectPolicy) (attempts : Nat)
    (delay : Int) (lastError : Option Error) (s : TcpStream) :
    Follows socketRules s.staged
      (reconnectLoop N endpoint policy attempts delay lastError s) (fun r => r.2.staged) := by
  induction attempts generalizing delay lastError s with
  | zero => exact follows_pure rfl
  | succ attempts ih =>
      unfold reconnectLoop
      refine (follows_connect endpoint s).bind fun r => ?_
      obtain ⟨e | u, s'⟩ := r
      · dsimp only
        split_ifs
        · exact Follows.bind (follows_idle (fun _ => rfl) (fun _ => rfl)) fun _ => ih _ _ s'
        · exact ih _ _ s'
      · exact follows_pure rfl

theorem follows_reconnect (s : TcpStream) :
    Follows socketRules s.staged (reconnect N s) (fun r => r.2.staged) := by
  obtain ⟨_ | impl⟩ := s
  · exact follows_pure rfl
  unfold reconnect
  dsimp only
  cases impl.endpoint with
  | none => exact follows_pure rfl
  | some endpoint =>
      dsimp only
      split_ifs
      · exact follows_pure rfl
      · exact follows_reconnectLoop endpoint _ _ _ _ _

/-- A failed native send is the last call on its socket but for closing it. -/
theorem follows_send (bytes : List UInt8) (s : TcpStream) :
    Follows socketRules s.staged (send N bytes s) (fun r => r.2.staged) := by
  unfold send
  cases hsocket : s.socket with
  | none => exact follows_pure rfl
  | some socket =>
      obtain ⟨options, hstaged⟩ := staged_eq hsocket
      dsimp only
      split_ifs with hempty
      · exact follows_pure rfl
      rw [hstaged]
      refine Follows.bind (follows_step (t := .connected options) (fun _ => rfl) (fun _ => rfl)
        (fun _ => if_pos hempty)) fun r => ?_
      cases r with
      | error e => exact (follows_close_of hsocket rfl).bind fun _ => follows_pure rfl
      | ok sent => exact follows_pure hstaged.symm

theorem follows_sendAllFrom (bytes : List UInt8) (offset : Nat) (s : TcpStream) :
    Follows socketRules s.staged (sendAllFrom N bytes offset s) (fun r => r.2.staged) := by
  induction hk : bytes.length - offset using Nat.strong_induction_on generalizing offset s with
  | _ k ih =>
      rw [sendAllFrom.eq_def]
      split_ifs with hoffset
      swap
      · exact follows_pure rfl
      refine (follows_send (bytes.drop offset) s).bind fun r => ?_
      obtain ⟨e | _ | sent, s'⟩ := r
      · exact follows_pure rfl
      · exact (follows_close s').bind fun _ => follows_pure rfl
      · exact ih (bytes.length - (offset + (sent + 1))) (by omega) _ s' rfl

/-- The same for a native receive, and for one that returns no bytes. -/
theorem follows_receive (size : Nat) (s : TcpStream) :
    Follows socketRules s.staged (receive N size s) (fun r => r.2.staged) := by
  unfold receive
  cases hsocket : s.socket with
  | none => exact follows_pure rfl
  | some socket =>
      obtain ⟨options, hstaged⟩ := staged_eq hsocket
      dsimp only
      split_ifs with hsize
      · exact follows_pure rfl
      rw [hstaged]
      refine Follows.bind (follows_on
        (r := fun r : Result (List UInt8) =>
          some (if r = .ok [] then Stage.failed else Stage.orFailed (.connected options) r))
        (fun _ => rfl) (fun _ => rfl) (fun _ => if_pos hsize)) fun r => ?_
      obtain e | _ | ⟨byte, bytes⟩ := r
      · exact (follows_close_of hsocket rfl).bind fun _ => follows_pure rfl
      · exact (follows_close_of hsocket rfl).bind fun _ => follows_pure rfl
      · exact follows_pure hstaged.symm

end TcpStream

namespace TcpListener

/-- The socket of a listener is listening. -/
def staged (l : TcpListener) : Multiset (Handle × Stage) := resting l.socket .listening

theorem follows_close (l : TcpListener) : Follows socketRules l.staged l.close staged := by
  obtain ⟨_ | impl⟩ := l
  · exact follows_pure rfl
  · exact (follows_closeSocket rfl impl.socket).bind fun _ => follows_pure rfl

theorem follows_bind (endpoint : IpEndpoint) (backlog : Int) (l : TcpListener) :
    Follows socketRules l.staged (bind N endpoint backlog l) (fun r => r.2.staged) := by
  obtain ⟨_ | impl⟩ := l
  · exact follows_pure rfl
  unfold bind
  dsimp only
  split_ifs with hinvalid
  · exact follows_pure rfl
  refine follows_reopen rfl
    (fun address => prepares_listening address (by omega) (by omega)) (fun e => follows_pure rfl) ?_
  rintro ((_ | e) | ⟨socket, address⟩)
  · exact follows_pure rfl
  · exact follows_pure rfl
  · exact follows_pure rfl

/-- The socket of an accepted stream. -/
def stagedBy : Result TcpStream → Multiset (Handle × Stage)
  | .ok s => s.staged
  | .error _ => 0

/-- An accepted socket is configured before it becomes a stream's. -/
theorem follows_accept (l : TcpListener) :
    Follows socketRules l.staged (accept N l) (fun r => l.staged + stagedBy r) := by
  obtain ⟨_ | ⟨_ | socket, options⟩⟩ := l
  · exact follows_pure rfl
  · exact follows_pure rfl
  unfold accept
  change Follows socketRules {(socket, .listening)} _ (fun r => {(socket, .listening)} + stagedBy r)
  refine (follows_acceptSocket socket).bind fun r => ?_
  cases r with
  | error e => exact follows_pure rfl
  | ok accepted =>
      have hconfigure : Follows socketRules {(accepted.socket, .accepted)}
          (applyOptions N options accepted.socket)
          (fun r => {(accepted.socket, Stage.orFailed (.connected options) r)}) :=
        follows_step (fun _ => rfl) (fun _ => rfl) (fun _ => rfl)
      refine (hconfigure.frame {(socket, .listening)}).bind fun r => ?_
      cases r with
      | error e =>
          exact ((follows_closeSocket (s := .failed) rfl (some accepted.socket)).frame
            {(socket, .listening)}).bind fun _ => follows_pure rfl
      | ok u => exact follows_pure rfl

theorem follows_localEndpoint (l : TcpListener) :
    Follows socketRules l.staged (localEndpoint N l) (fun _ => l.staged) := by
  unfold localEndpoint staged
  cases l.socket with
  | none => exact follows_pure rfl
  | some socket => exact follows_addressOf fun _ => rfl

end TcpListener

namespace UdpSocket

/-- The handle of an implementation is a datagram socket, under its own options. -/
def Impl.staged (impl : Impl) : Multiset (Handle × Stage) :=
  resting impl.socket (.datagram impl.options)

/-- The socket of a UDP socket. -/
def staged (u : UdpSocket) : Multiset (Handle × Stage) :=
  match u.implementation with
  | none => 0
  | some impl => impl.staged

theorem Impl.staged_eq {impl : Impl} {socket : Handle} (h : impl.socket = some socket) :
    impl.staged = {(socket, .datagram impl.options)} := by
  rw [Impl.staged, h]
  rfl

theorem follows_close (u : UdpSocket) : Follows socketRules u.staged u.close staged := by
  obtain ⟨_ | impl⟩ := u
  · exact follows_pure rfl
  · exact (follows_closeSocket rfl impl.socket).bind fun _ => follows_pure rfl

theorem follows_bind (endpoint : IpEndpoint) (u : UdpSocket) :
    Follows socketRules u.staged (bind N endpoint u) (fun r => r.2.staged) := by
  obtain ⟨_ | impl⟩ := u
  · exact follows_pure rfl
  unfold bind
  dsimp only
  split_ifs
  · exact follows_pure rfl
  refine follows_reopen rfl (prepares_datagram impl.options) (fun e => follows_pure rfl) ?_
  rintro ((_ | e) | ⟨socket, address⟩)
  · exact follows_pure rfl
  · exact follows_pure rfl
  · exact follows_pure rfl

theorem follows_ensureOpen (address : NativeAddress) (impl : Impl) :
    Follows socketRules impl.staged (ensureOpen N address impl) (fun r => r.2.staged) := by
  unfold ensureOpen
  cases hsocket : impl.socket with
  | some socket =>
      dsimp only
      split_ifs
      · exact follows_pure rfl
      · exact follows_pure rfl
  | none =>
      have hnothing : impl.staged = 0 := by
        rw [Impl.staged, hsocket]
        rfl
      rw [hnothing]
      refine (follows_createSocket address .datagram).bind fun r => ?_
      cases r with
      | error e => exact follows_pure hnothing.symm
      | ok socket =>
          have hconfigure : Follows socketRules {(socket, .created .datagram)}
              (applyOptions N impl.options socket)
              (fun r => {(socket, Stage.orFailed (.datagram impl.options) r)}) :=
            follows_step (fun _ => rfl) (fun _ => rfl) (fun _ => rfl)
          refine hconfigure.bind fun r => ?_
          cases r with
          | error e =>
              exact (follows_closeSocket rfl (some socket)).bind fun _ =>
                follows_pure hnothing.symm
          | ok u => exact follows_pure rfl

/-- Whoever is told that the socket is open finds it in the implementation. -/
theorem ensureOpen_returns (address : NativeAddress) (impl : Impl) :
    Returns (ensureOpen N address impl) fun r => ∀ socket, r.1 = .ok socket →
      r.2.socket = some socket := by
  unfold ensureOpen
  cases hsocket : impl.socket with
  | some socket =>
      dsimp only
      split_ifs
      · exact returns_pure (by simp [hsocket])
      · exact returns_pure (by simp [failure])
  | none =>
      refine returns_bind fun r => ?_
      cases r with
      | error e => exact returns_pure (by simp)
      | ok socket =>
          refine returns_bind fun r => ?_
          cases r with
          | error e => exact returns_bind fun _ => returns_pure (by simp)
          | ok u => exact returns_pure (by simp)

theorem follows_sendDatagram {impl : Impl} {socket : Handle} (h : impl.socket = some socket)
    (address : NativeAddress) {payload : List UInt8}
    (hsize : payload.length ≤ maximumPayloadSize) :
    Follows socketRules impl.staged (sendDatagram N socket address payload)
      (fun _ => impl.staged) := by
  rw [Impl.staged_eq h]
  exact follows_stay (fun _ => rfl) (fun _ => rfl) (fun _ => if_pos hsize)

theorem follows_sendLoop (endpoint : IpEndpoint) {payload : List UInt8}
    (hsize : payload.length ≤ maximumPayloadSize) (addresses : List NativeAddress)
    (lastError : Option Error) (impl : Impl) :
    Follows socketRules impl.staged (sendLoop N endpoint payload addresses lastError impl)
      (fun r => r.2.staged) := by
  induction addresses generalizing lastError impl with
  | nil => cases lastError <;> exact follows_pure rfl
  | cons address addresses ih =>
      unfold sendLoop
      refine (follows_ensureOpen address impl).bind_of_returns (ensureOpen_returns address impl)
        fun r hr => ?_
      obtain ⟨e | socket, impl'⟩ := r
      · exact ih _ impl'
      · refine (follows_sendDatagram (hr socket rfl) address hsize).bind fun r => ?_
        cases r with
        | error e => exact ih _ impl'
        | ok sent => exact follows_pure rfl

theorem follows_sendTo (endpoint : IpEndpoint) (payload : List UInt8) (u : UdpSocket) :
    Follows socketRules u.staged (sendTo N endpoint payload u) (fun r => r.2.staged) := by
  obtain ⟨_ | impl⟩ := u
  · exact follows_pure rfl
  unfold sendTo
  dsimp only
  split_ifs with hinvalid hlarge
  · exact follows_pure rfl
  · exact follows_pure rfl
  cases impl.cachedFor endpoint with
  | some address =>
      refine (follows_ensureOpen address impl).bind_of_returns (ensureOpen_returns address impl)
        fun r hr => ?_
      obtain ⟨e | socket, impl'⟩ := r
      · exact follows_pure rfl
      · exact (follows_sendDatagram (hr socket rfl) address (by omega)).bind fun _ =>
          follows_pure rfl
  | none =>
      refine Follows.bind (follows_idle (fun _ => rfl) (fun _ => rfl)) fun r => ?_
      cases r with
      | error e => exact follows_pure rfl
      | ok addresses =>
          exact (follows_sendLoop endpoint (by omega) addresses none impl).bind fun _ =>
            follows_pure rfl

theorem follows_receive (maximumSize : Nat) (u : UdpSocket) :
    Follows socketRules u.staged (receive N maximumSize u) (fun _ => u.staged) := by
  obtain ⟨_ | impl⟩ := u
  · exact follows_pure rfl
  unfold receive
  rw [show (⟨some impl⟩ : UdpSocket).socket = impl.socket from rfl,
    show (⟨some impl⟩ : UdpSocket).staged = impl.staged from rfl]
  cases hsocket : impl.socket with
  | none => exact follows_pure rfl
  | some socket =>
      dsimp only
      split_ifs with hbound
      · exact follows_pure rfl
      rw [Impl.staged_eq hsocket]
      refine Follows.bind (follows_stay (fun _ => rfl) (fun _ => rfl)
        (fun _ => if_pos (by omega))) fun r => ?_
      cases r with
      | error e => exact follows_pure rfl
      | ok received =>
          refine Follows.bind (follows_idle (fun _ => rfl) (fun _ => rfl)) fun r => ?_
          cases r with
          | error e => exact follows_pure rfl
          | ok endpoint => exact follows_pure rfl

theorem follows_localEndpoint (u : UdpSocket) :
    Follows socketRules u.staged (localEndpoint N u) (fun _ => u.staged) := by
  obtain ⟨_ | ⟨_ | socket, options, family, cachedEndpoint, cachedAddress⟩⟩ := u
  · exact follows_pure rfl
  · exact follows_pure rfl
  · exact follows_addressOf fun _ => rfl

end UdpSocket

end Transport
end Vosp
