import MicroProtocol.Transport.World

/-!
# Native handles are owned exactly once

Five places in the transport open a handle, each inside loops and early returns,
and handles are copied as plain integers before it is settled who owns them.

* `accounts_…` — every method exchanges the handle its object owned before for
  the one it owns afterwards; `TcpListener.accept` gives a second one to the
  stream it returns.
* `World.Sound` — what is open is what the live objects own; every operation keeps
  this, `Sound.step`.
* `handles_owned_once` — over every sequence of operations and against every
  operating system: the open handles are those stored in live objects, each in
  exactly one of them; every call is made on an open handle; no opening is closed
  twice; and nothing stays open after the last object is gone.
-/

namespace Vosp
namespace Transport

open Custody Detail

variable {N : Native}

/-! ## The address loop -/

theorem accounts_prepare {S : Multiset Handle} {socket : Handle}
    {steps : List (Handle → Net (Result Unit))}
    (hsteps : ∀ step ∈ steps, Accounts Event.access S (step socket) (fun _ => S)) :
    Accounts Event.access S (prepare socket steps) (fun _ => S) := by
  induction steps with
  | nil => exact accounts_pure rfl
  | cons step steps ih =>
      unfold prepare
      refine (hsteps step (List.mem_cons_self ..)).bind fun r => ?_
      cases r with
      | error e => exact accounts_pure rfl
      | ok u => exact ih fun s hs => hsteps s (List.mem_cons_of_mem step hs)

/-- A preparation step that makes calls on the socket it is given and on no other. -/
def OnSocket (step : Handle → Net (Result Unit)) : Prop :=
  ∀ socket, Accounts Event.access {socket} (step socket) (fun _ => {socket})

theorem onSocket_applyOptions (options : IoOptions) : OnSocket (applyOptions N options) :=
  fun socket => accounts_on (Multiset.mem_singleton_self socket) fun _ => rfl

theorem onSocket_setReuseAddress : OnSocket (setReuseAddress N) :=
  fun socket => accounts_on (Multiset.mem_singleton_self socket) fun _ => rfl

theorem onSocket_connectSocket (address : NativeAddress) : OnSocket (connectSocket N address) :=
  fun socket => accounts_on (Multiset.mem_singleton_self socket) fun _ => rfl

theorem onSocket_bindSocket (address : NativeAddress) : OnSocket (bindSocket N address) :=
  fun socket => accounts_on (Multiset.mem_singleton_self socket) fun _ => rfl

theorem onSocket_listenSocket (backlog : Int) : OnSocket (listenSocket N backlog) :=
  fun socket => accounts_on (Multiset.mem_singleton_self socket) fun _ => rfl

/-- The handle the address loop ended with. -/
def openedBy : Except (Option Error) (Handle × NativeAddress) → Multiset Handle
  | .ok (socket, _) => {socket}
  | .error _ => 0

/-- The address loop keeps no socket but the one it returns. -/
theorem accounts_openFirst {type : SocketType}
    {steps : NativeAddress → List (Handle → Net (Result Unit))}
    (hsteps : ∀ address, ∀ step ∈ steps address, OnSocket step)
    (addresses : List NativeAddress) (lastError : Option Error) :
    Accounts Event.access 0 (openFirst N type steps addresses lastError) openedBy := by
  induction addresses generalizing lastError with
  | nil => exact accounts_pure rfl
  | cons address addresses ih =>
      unfold openFirst
      refine (accounts_createSocket address type).bind fun r => ?_
      cases r with
      | error e => exact ih _
      | ok socket =>
          refine (accounts_prepare fun step hs => hsteps address step hs socket).bind fun r => ?_
          cases r with
          | error e => exact (accounts_closeSocket (some socket)).bind fun _ => ih _
          | ok u => exact accounts_pure rfl

/-- The way `connect` and both `bind`s open a socket anew: close the old one,
resolve the endpoint, try the addresses. -/
theorem accounts_reopen {α : Type} {socket : Option Handle} {endpoint : IpEndpoint}
    {type : SocketType} {passive : Bool}
    {steps : NativeAddress → List (Handle → Net (Result Unit))}
    {onError : Error → Net α} {onOpen : Except (Option Error) (Handle × NativeAddress) → Net α}
    {T : α → Multiset Handle}
    (hsteps : ∀ address, ∀ step ∈ steps address, OnSocket step)
    (herror : ∀ e, Accounts Event.access 0 (onError e) T)
    (hopen : ∀ r, Accounts Event.access (openedBy r) (onOpen r) T) :
    Accounts Event.access (owned socket) (do
      closeSocket socket
      match ← resolve N endpoint type passive with
      | .error e => onError e
      | .ok addresses => openFirst N type steps addresses none >>= onOpen) T := by
  refine (accounts_closeSocket socket).bind fun _ => ?_
  refine (accounts_idle fun _ => rfl).bind fun r => ?_
  cases r with
  | error e => exact herror e
  | ok addresses => exact (accounts_openFirst hsteps addresses none).bind hopen

/-- Asking for the address of a socket, as both `local_endpoint`s do. -/
theorem accounts_addressOf {S : Multiset Handle} {socket : Handle} (hmem : socket ∈ S) :
    Accounts Event.access S (do
      match ← localAddress N socket with
      | .error e => pure (.error e)
      | .ok address => toEndpoint N address) (fun _ => S) := by
  refine (accounts_on hmem fun _ => rfl).bind fun r => ?_
  cases r with
  | error e => exact accounts_pure rfl
  | ok address => exact accounts_idle fun _ => rfl

/-! ## The methods -/

namespace TcpStream

/-- The handle the stream owns. -/
def owned (s : TcpStream) : Multiset Handle := Custody.owned s.socket

theorem accounts_close (s : TcpStream) : Accounts Event.access s.owned s.close owned := by
  obtain ⟨_ | impl⟩ := s
  · exact accounts_pure rfl
  · exact (accounts_closeSocket impl.socket).bind fun _ => accounts_pure rfl

theorem accounts_connect (endpoint : IpEndpoint) (s : TcpStream) :
    Accounts Event.access s.owned (connect N endpoint s) (fun r => r.2.owned) := by
  obtain ⟨_ | impl⟩ := s
  · exact accounts_pure rfl
  unfold connect
  simp only
  split_ifs
  · exact accounts_pure rfl
  refine accounts_reopen ?_ ?_ ?_
  · intro address
    simp [onSocket_applyOptions, onSocket_connectSocket]
  · intro e
    exact accounts_pure rfl
  · rintro ((_ | e) | ⟨socket, address⟩)
    · exact accounts_pure rfl
    · exact accounts_pure rfl
    · exact accounts_pure rfl

theorem accounts_reconnectLoop (endpoint : IpEndpoint) (policy : ReconnectPolicy) (attempts : Nat)
    (delay : Int) (lastError : Option Error) (s : TcpStream) :
    Accounts Event.access s.owned
      (reconnectLoop N endpoint policy attempts delay lastError s) (fun r => r.2.owned) := by
  induction attempts generalizing delay lastError s with
  | zero => exact accounts_pure rfl
  | succ attempts ih =>
      unfold reconnectLoop
      refine (accounts_connect endpoint s).bind fun r => ?_
      obtain ⟨e | u, s'⟩ := r
      · simp only
        split_ifs
        · exact (accounts_idle fun _ => rfl).bind fun _ => ih _ _ s'
        · exact ih _ _ s'
      · exact accounts_pure rfl

theorem accounts_reconnect (s : TcpStream) :
    Accounts Event.access s.owned (reconnect N s) (fun r => r.2.owned) := by
  obtain ⟨_ | impl⟩ := s
  · exact accounts_pure rfl
  unfold reconnect
  simp only
  cases impl.endpoint with
  | none => exact accounts_pure rfl
  | some endpoint =>
      simp only
      split_ifs
      · exact accounts_pure rfl
      · exact accounts_reconnectLoop endpoint _ _ _ _ _

theorem accounts_send (bytes : List UInt8) (s : TcpStream) :
    Accounts Event.access s.owned (send N bytes s) (fun r => r.2.owned) := by
  unfold send
  cases hsocket : s.socket with
  | none => exact accounts_pure rfl
  | some socket =>
      have hmem : socket ∈ s.owned := mem_owned.2 hsocket
      simp only
      split_ifs
      · exact accounts_pure rfl
      refine (accounts_on hmem fun _ => rfl).bind fun r => ?_
      cases r with
      | error e => exact (accounts_close s).bind fun _ => accounts_pure rfl
      | ok sent => exact accounts_pure rfl

theorem accounts_sendAllFrom (bytes : List UInt8) (offset : Nat) (s : TcpStream) :
    Accounts Event.access s.owned (sendAllFrom N bytes offset s) (fun r => r.2.owned) := by
  induction hk : bytes.length - offset using Nat.strong_induction_on generalizing offset s with
  | _ k ih =>
      rw [sendAllFrom.eq_def]
      split_ifs with hoffset
      swap
      · exact accounts_pure rfl
      refine (accounts_send (bytes.drop offset) s).bind fun r => ?_
      obtain ⟨e | _ | sent, s'⟩ := r
      · exact accounts_pure rfl
      · exact (accounts_close s').bind fun _ => accounts_pure rfl
      · exact ih (bytes.length - (offset + (sent + 1))) (by omega) _ s' rfl

theorem accounts_sendAll (bytes : List UInt8) (s : TcpStream) :
    Accounts Event.access s.owned (sendAll N bytes s) (fun r => r.2.owned) :=
  accounts_sendAllFrom bytes 0 s

theorem accounts_receive (size : Nat) (s : TcpStream) :
    Accounts Event.access s.owned (receive N size s) (fun r => r.2.owned) := by
  unfold receive
  cases hsocket : s.socket with
  | none => exact accounts_pure rfl
  | some socket =>
      have hmem : socket ∈ s.owned := mem_owned.2 hsocket
      simp only
      split_ifs
      · exact accounts_pure rfl
      refine (accounts_on hmem fun _ => rfl).bind fun r => ?_
      obtain e | _ | ⟨byte, bytes⟩ := r
      · exact (accounts_close s).bind fun _ => accounts_pure rfl
      · exact (accounts_close s).bind fun _ => accounts_pure rfl
      · exact accounts_pure rfl

end TcpStream

namespace TcpListener

/-- The handle the listener owns. -/
def owned (l : TcpListener) : Multiset Handle := Custody.owned l.socket

theorem accounts_close (l : TcpListener) : Accounts Event.access l.owned l.close owned := by
  obtain ⟨_ | impl⟩ := l
  · exact accounts_pure rfl
  · exact (accounts_closeSocket impl.socket).bind fun _ => accounts_pure rfl

theorem accounts_bind (endpoint : IpEndpoint) (backlog : Int) (l : TcpListener) :
    Accounts Event.access l.owned (bind N endpoint backlog l) (fun r => r.2.owned) := by
  obtain ⟨_ | impl⟩ := l
  · exact accounts_pure rfl
  unfold bind
  simp only
  split_ifs
  · exact accounts_pure rfl
  refine accounts_reopen ?_ ?_ ?_
  · intro address
    simp [onSocket_setReuseAddress, onSocket_bindSocket, onSocket_listenSocket]
  · intro e
    exact accounts_pure rfl
  · rintro ((_ | e) | ⟨socket, address⟩)
    · exact accounts_pure rfl
    · exact accounts_pure rfl
    · exact accounts_pure rfl

/-- The handle of an accepted stream. -/
def acceptedBy : Result TcpStream → Multiset Handle
  | .ok s => s.owned
  | .error _ => 0

/-- The listener keeps its handle, and the accepted one belongs to the stream. -/
theorem accounts_accept (l : TcpListener) :
    Accounts Event.access l.owned (accept N l) (fun r => l.owned + acceptedBy r) := by
  obtain ⟨_ | ⟨_ | listening, options⟩⟩ := l
  · exact accounts_pure rfl
  · exact accounts_pure rfl
  unfold accept
  change Accounts Event.access {listening} _ (fun r => {listening} + acceptedBy r)
  refine (accounts_acceptSocket (Multiset.mem_singleton_self listening)).bind fun r => ?_
  cases r with
  | error e => exact accounts_pure rfl
  | ok accepted =>
      have hmem : accepted.socket ∈ ({listening} : Multiset Handle) + {accepted.socket} :=
        Multiset.mem_add.2 (Or.inr (Multiset.mem_singleton_self _))
      refine Accounts.bind (accounts_on hmem fun _ => rfl) fun r => ?_
      cases r with
      | error e =>
          exact ((accounts_closeSocket (some accepted.socket)).frame {listening}).bind
            fun _ => accounts_pure rfl
      | ok u => exact accounts_pure rfl

theorem accounts_localEndpoint (l : TcpListener) :
    Accounts Event.access l.owned (localEndpoint N l) (fun _ => l.owned) := by
  unfold localEndpoint
  cases hsocket : l.socket with
  | none => exact accounts_pure rfl
  | some socket => exact accounts_addressOf (mem_owned.2 hsocket)

end TcpListener

namespace UdpSocket

/-- The handle the socket owns. -/
def owned (u : UdpSocket) : Multiset Handle := Custody.owned u.socket

theorem accounts_close (u : UdpSocket) : Accounts Event.access u.owned u.close owned := by
  obtain ⟨_ | impl⟩ := u
  · exact accounts_pure rfl
  · exact (accounts_closeSocket impl.socket).bind fun _ => accounts_pure rfl

theorem accounts_bind (endpoint : IpEndpoint) (u : UdpSocket) :
    Accounts Event.access u.owned (bind N endpoint u) (fun r => r.2.owned) := by
  obtain ⟨_ | impl⟩ := u
  · exact accounts_pure rfl
  unfold bind
  simp only
  split_ifs
  · exact accounts_pure rfl
  refine accounts_reopen ?_ ?_ ?_
  · intro address
    simp [onSocket_applyOptions, onSocket_bindSocket]
  · intro e
    exact accounts_pure rfl
  · rintro ((_ | e) | ⟨socket, address⟩)
    · exact accounts_pure rfl
    · exact accounts_pure rfl
    · exact accounts_pure rfl

/-- Whoever is told that the socket is open finds it in the implementation. -/
theorem returns_ensureOpen (address : NativeAddress) (impl : Impl) :
    Returns (ensureOpen N address impl) fun r => ∀ socket, r.1 = .ok socket →
      r.2.socket = some socket := by
  unfold ensureOpen
  cases hsocket : impl.socket with
  | some socket =>
      simp only
      split_ifs
      · refine returns_pure fun socket' h => ?_
        cases h
        exact hsocket
      · exact returns_pure fun socket' h => by cases h
  | none =>
      refine returns_bind fun r => ?_
      cases r with
      | error e => exact returns_pure fun socket' h => by cases h
      | ok socket =>
          refine returns_bind fun r => ?_
          cases r with
          | error e => exact returns_bind fun _ => returns_pure fun socket' h => by cases h
          | ok u =>
              refine returns_pure fun socket' h => ?_
              cases h
              rfl

theorem accounts_ensureOpen (address : NativeAddress) (impl : Impl) :
    Accounts Event.access (Custody.owned impl.socket) (ensureOpen N address impl)
      (fun r => Custody.owned r.2.socket) := by
  unfold ensureOpen
  cases hsocket : impl.socket with
  | some socket =>
      simp only
      split_ifs
      · exact accounts_pure (by rw [hsocket])
      · exact accounts_pure (by rw [hsocket])
  | none =>
      refine (accounts_createSocket address .datagram).bind fun r => ?_
      cases r with
      | error e => exact accounts_pure (by rw [hsocket]; rfl)
      | ok socket =>
          refine (onSocket_applyOptions impl.options socket).bind fun r => ?_
          cases r with
          | error e =>
              exact (accounts_closeSocket (some socket)).bind fun _ =>
                accounts_pure (by rw [hsocket]; rfl)
          | ok u => exact accounts_pure rfl

/-- `send_to` makes its native sends on the socket that `ensure_open` vouches for. -/
theorem accounts_sendDatagram {impl : Impl} {socket : Handle} (h : impl.socket = some socket)
    (address : NativeAddress) (payload : List UInt8) :
    Accounts Event.access (Custody.owned impl.socket) (sendDatagram N socket address payload)
      (fun _ => Custody.owned impl.socket) :=
  accounts_on (mem_owned.2 h) fun _ => rfl

theorem accounts_sendLoop (endpoint : IpEndpoint) (payload : List UInt8)
    (addresses : List NativeAddress) (lastError : Option Error) (impl : Impl) :
    Accounts Event.access (Custody.owned impl.socket)
      (sendLoop N endpoint payload addresses lastError impl) (fun r => Custody.owned r.2.socket) := by
  induction addresses generalizing lastError impl with
  | nil => cases lastError <;> exact accounts_pure rfl
  | cons address addresses ih =>
      unfold sendLoop
      refine (accounts_ensureOpen address impl).bind_of_returns (returns_ensureOpen address impl)
        fun r hr => ?_
      obtain ⟨e | socket, impl'⟩ := r
      · exact ih _ impl'
      · refine (accounts_sendDatagram (hr socket rfl) address payload).bind fun r => ?_
        cases r with
        | error e => exact ih _ impl'
        | ok sent => exact accounts_pure rfl

theorem accounts_sendTo (endpoint : IpEndpoint) (payload : List UInt8) (u : UdpSocket) :
    Accounts Event.access u.owned (sendTo N endpoint payload u) (fun r => r.2.owned) := by
  obtain ⟨_ | impl⟩ := u
  · exact accounts_pure rfl
  unfold sendTo
  simp only
  split_ifs
  · exact accounts_pure rfl
  · exact accounts_pure rfl
  cases impl.cachedFor endpoint with
  | some address =>
      refine (accounts_ensureOpen address impl).bind_of_returns (returns_ensureOpen address impl)
        fun r hr => ?_
      obtain ⟨e | socket, impl'⟩ := r
      · exact accounts_pure rfl
      · exact (accounts_sendDatagram (hr socket rfl) address payload).bind fun _ =>
          accounts_pure rfl
  | none =>
      refine (accounts_idle fun _ => rfl).bind fun r => ?_
      cases r with
      | error e => exact accounts_pure rfl
      | ok addresses =>
          exact (accounts_sendLoop endpoint payload addresses none impl).bind fun _ =>
            accounts_pure rfl

theorem accounts_receive (maximumSize : Nat) (u : UdpSocket) :
    Accounts Event.access u.owned (receive N maximumSize u) (fun _ => u.owned) := by
  unfold receive
  cases hsocket : u.socket with
  | none => exact accounts_pure rfl
  | some socket =>
      have hmem : socket ∈ u.owned := mem_owned.2 hsocket
      simp only
      split_ifs
      · exact accounts_pure rfl
      refine (accounts_on hmem fun _ => rfl).bind fun r => ?_
      cases r with
      | error e => exact accounts_pure rfl
      | ok received =>
          refine (accounts_idle fun _ => rfl).bind fun r => ?_
          cases r with
          | error e => exact accounts_pure rfl
          | ok endpoint => exact accounts_pure rfl

theorem accounts_localEndpoint (u : UdpSocket) :
    Accounts Event.access u.owned (localEndpoint N u) (fun _ => u.owned) := by
  unfold localEndpoint
  cases hsocket : u.socket with
  | none => exact accounts_pure rfl
  | some socket => exact accounts_addressOf (mem_owned.2 hsocket)

end UdpSocket

namespace Object

/-- The handle the object owns. -/
def owned (o : Object) : Multiset Handle := Custody.owned o.handle

theorem accounts_close (o : Object) : Accounts Event.access o.owned o.close owned := by
  cases o with
  | stream s => exact s.accounts_close.bind fun _ => accounts_pure rfl
  | listener l => exact l.accounts_close.bind fun _ => accounts_pure rfl
  | udp u => exact u.accounts_close.bind fun _ => accounts_pure rfl

/-- A closed object owns nothing. -/
theorem returns_close (o : Object) : Returns o.close (fun o' => o'.owned = 0) := by
  cases o with
  | stream s => obtain ⟨_ | impl⟩ := s <;> exact fun _ => rfl
  | listener l => obtain ⟨_ | impl⟩ := l <;> exact fun _ => rfl
  | udp u => obtain ⟨_ | impl⟩ := u <;> exact fun _ => rfl

theorem accounts_run (method : Method) (o : Object) :
    Accounts Event.access o.owned (run N method o) owned := by
  cases o with
  | stream s =>
      cases method with
      | connect endpoint => exact (s.accounts_connect endpoint).bind fun _ => accounts_pure rfl
      | reconnect => exact s.accounts_reconnect.bind fun _ => accounts_pure rfl
      | send bytes => exact (s.accounts_send bytes).bind fun _ => accounts_pure rfl
      | sendAll bytes => exact (s.accounts_sendAll bytes).bind fun _ => accounts_pure rfl
      | receive size => exact (s.accounts_receive size).bind fun _ => accounts_pure rfl
      | close => exact accounts_close (.stream s)
      | _ => exact accounts_pure rfl
  | listener l =>
      cases method with
      | listen endpoint backlog =>
          exact (l.accounts_bind endpoint backlog).bind fun _ => accounts_pure rfl
      | localEndpoint => exact l.accounts_localEndpoint.bind fun _ => accounts_pure rfl
      | close => exact accounts_close (.listener l)
      | _ => exact accounts_pure rfl
  | udp u =>
      cases method with
      | bind endpoint => exact (u.accounts_bind endpoint).bind fun _ => accounts_pure rfl
      | sendTo endpoint payload =>
          exact (u.accounts_sendTo endpoint payload).bind fun _ => accounts_pure rfl
      | receiveFrom size => exact (u.accounts_receive size).bind fun _ => accounts_pure rfl
      | localEndpoint => exact u.accounts_localEndpoint.bind fun _ => accounts_pure rfl
      | close => exact accounts_close (.udp u)
      | _ => exact accounts_pure rfl

@[simp] theorem owned_movedFrom (o : Object) : o.movedFrom.owned = 0 := by
  cases o <;> rfl

end Object

/-! ## Whole programs -/

/-- The handle owned in a slot. -/
def slotOwned : Option Object → Multiset Handle
  | none => 0
  | some o => o.owned

namespace World

/-- The invariant between operations: the discipline was kept so far, and what is
open is what the objects own. -/
structure Sound (w : World) : Prop where
  disciplined : Disciplined Event.access w.log
  open_eq : openHandles w.log = (w.objects.map slotOwned).sum

/-- A program that answers for one slot keeps the world sound. -/
theorem Sound.update {w : World} (h : w.Sound) {id : Nat} {o : Object}
    (hid : w.objects[id]? = some (some o)) {α : Type} {m : Net α} {T : α → Multiset Handle}
    (hm : Accounts Event.access o.owned m T) {slot : Option Object}
    (hslot : slotOwned slot = T (m.run w.log).1) :
    Sound { objects := w.objects.set id slot, log := (m.run w.log).2 } := by
  obtain ⟨F, hF, hset⟩ := exists_frame slotOwned hid
  obtain ⟨hd, hheld, -⟩ := hm F w.log h.disciplined (h.open_eq.trans hF)
  refine ⟨hd, hheld.trans ?_⟩
  rw [hset slot, hslot]

/-- A new object that owns nothing yet. -/
theorem Sound.append {w : World} (h : w.Sound) {o : Object} (ho : o.owned = 0) :
    Sound { w with objects := w.objects ++ [some o] } := by
  refine ⟨h.disciplined, h.open_eq.trans ?_⟩
  simp [slotOwned, ho]

/-- Moving hands the handle on to a slot further back; nothing is opened or closed. -/
theorem Sound.moveConstruct {w : World} (h : w.Sound) {source : Nat} {o : Object}
    (hid : w.objects[source]? = some (some o)) :
    Sound { w with objects := w.objects.set source (some o.movedFrom) ++ [some o] } := by
  obtain ⟨F, hF, hset⟩ := exists_frame slotOwned hid
  refine ⟨h.disciplined, h.open_eq.trans ?_⟩
  rw [List.map_append, List.sum_append, hset, hF]
  simp [slotOwned]

/-- The target closes its own handle before it takes over the source's. -/
theorem Sound.moveAssign {w : World} (h : w.Sound) {target source : Nat} {t s : Object}
    (hne : target ≠ source) (ht : w.objects[target]? = some (some t))
    (hs : w.objects[source]? = some (some s)) :
    Sound { objects := (w.objects.set target (some s)).set source (some s.movedFrom)
            log := (t.close.run w.log).2 } := by
  obtain ⟨F, hF, hset⟩ := exists_frame_two slotOwned hne ht hs
  -- while the target closes its handle, the source's is one of the others
  have hopen : openHandles w.log = F + s.owned + t.owned := by
    rw [h.open_eq, hF, add_assoc, add_comm s.owned]
    rfl
  obtain ⟨hd, hheld, -⟩ := t.accounts_close (F + s.owned) w.log h.disciplined hopen
  refine ⟨hd, hheld.trans ?_⟩
  rw [hset, t.returns_close w.log]
  simp [slotOwned]

/-- An accepted stream brings its own handle along. -/
theorem Sound.accept {w : World} (h : w.Sound) {id : Nat} {l : TcpListener}
    (hid : w.objects[id]? = some (some (.listener l))) :
    (w.step N (.accept id)).Sound := by
  obtain ⟨F, hF, -⟩ := exists_frame slotOwned hid
  have haccept := @TcpListener.accounts_accept N l F w.log h.disciplined (h.open_eq.trans hF)
  unfold World.step
  simp only [hid]
  cases hrun : (l.accept N).run w.log with
  | mk r log =>
      rw [hrun] at haccept
      cases r with
      | error e =>
          refine ⟨haccept.1, haccept.2.1.trans ?_⟩
          rw [hF]
          exact congrArg (F + ·) (add_zero l.owned)
      | ok s =>
          refine ⟨haccept.1, haccept.2.1.trans ?_⟩
          rw [List.map_append, List.sum_append, hF, add_assoc]
          exact congrArg (fun S => F + (l.owned + S)) (add_zero s.owned).symm

/-- Every operation keeps the world sound. -/
theorem Sound.step {w : World} (h : w.Sound) (op : Op) : (w.step N op).Sound := by
  cases op with
  | newStream options reconnect => exact h.append rfl
  | newListener options => exact h.append rfl
  | newUdp options => exact h.append rfl
  | call id method =>
      unfold World.step
      simp only
      split
      · rename_i o hid
        exact h.update hid (o.accounts_run method) rfl
      · exact h
  | accept id =>
      rcases hid : w.objects[id]? with _ | _ | s | l | u
      case some.some.listener => exact h.accept hid
      all_goals simpa [World.step, hid] using h
  | moveConstruct source =>
      unfold World.step
      simp only
      split
      · rename_i o hid
        exact h.moveConstruct hid
      · exact h
  | moveAssign target source =>
      unfold World.step
      simp only
      split_ifs with hself
      · exact h
      split
      · rename_i t s ht hs
        split_ifs
        · exact h.moveAssign hself ht hs
        · exact h
      · exact h
  | destroy id =>
      unfold World.step
      simp only
      split
      · rename_i o hid
        exact h.update hid o.accounts_close (o.returns_close w.log).symm
      · exact h

theorem sound_start : Sound {} := ⟨trivial, rfl⟩

/-- Every reachable world is sound. -/
theorem sound_run (ops : List Op) : (World.run N ops).Sound := by
  induction ops using List.reverseRecOn with
  | nil => exact sound_start
  | append_singleton ops op ih =>
      unfold World.run at ih ⊢
      rw [List.foldl_append]
      exact ih.step op

theorem mem_slotOwned {h : Handle} {slot : Option Object} :
    h ∈ slotOwned slot ↔ ∃ o, slot = some o ∧ o.handle = some h := by
  cases slot with
  | none => simp [slotOwned]
  | some o => simp [slotOwned, Object.owned]

/-- What the objects of the world store, and what became of every handle. -/
structure OwnedOnce (w : World) : Prop where
  /-- The open handles are those stored in live objects. -/
  open_iff : ∀ h, h ∈ openHandles w.log ↔
    ∃ (id : Nat) (o : Object), w.objects[id]? = some (some o) ∧ o.handle = some h
  /-- No handle is stored in two objects. -/
  one_owner : ∀ {id id' : Nat} {o o' : Object} {h : Handle},
    w.objects[id]? = some (some o) → w.objects[id']? = some (some o') →
    o.handle = some h → o'.handle = some h → id = id'
  /-- At every moment, every opening of a handle but the one of an open handle has
  been followed by a closing, and there were no more closings than that. -/
  closed_once : ∀ (h : Handle) {later earlier : Log}, w.log = later ++ earlier →
    opened Event.access h earlier =
      closed Event.access h earlier + if h ∈ openHandles earlier then 1 else 0
  /-- Every native call was made on a handle that was open at the time. -/
  call_on_open : ∀ {later earlier : Log} {e : Event} {h : Handle},
    w.log = later ++ e :: earlier → e.access.on = some h → h ∈ openHandles earlier
  /-- When no object is left, no handle is open. -/
  none_left : (∀ slot ∈ w.objects, slot = none) → openHandles w.log = 0

theorem Sound.ownedOnce {w : World} (hw : w.Sound) : w.OwnedOnce where
  open_iff h := by
    rw [hw.open_eq, mem_row]
    simp only [mem_slotOwned]
    constructor
    · rintro ⟨id, slot, hid, o, rfl, ho⟩
      exact ⟨id, o, hid, ho⟩
    · rintro ⟨id, o, hid, ho⟩
      exact ⟨id, some o, hid, o, rfl, ho⟩
  one_owner hid hid' ho ho' := by
    have hnodup : (w.objects.map slotOwned).sum.Nodup := hw.open_eq ▸ nodup_held hw.disciplined
    exact slot_unique hnodup hid hid' (mem_slotOwned.mpr ⟨_, rfl, ho⟩)
      (mem_slotOwned.mpr ⟨_, rfl, ho'⟩)
  closed_once h later earlier hlog := by
    have hd : Disciplined Event.access earlier := (hlog ▸ hw.disciplined).earlier
    rw [opened_eq hd h, Multiset.count_eq_of_nodup (nodup_held hd)]
    rfl
  call_on_open hlog hon := (hlog ▸ hw.disciplined).mem_held hon
  none_left hnone := by
    rw [hw.open_eq]
    refine Multiset.eq_zero_of_forall_notMem fun h hh => ?_
    obtain ⟨i, slot, hi, hslot⟩ := mem_row.mp hh
    rw [hnone slot (List.mem_of_getElem? hi)] at hslot
    exact Multiset.notMem_zero h hslot

end World

/-- Whatever a program does with its streams, listeners and UDP sockets, and whichever
native calls fail, native handles are owned exactly once. -/
theorem handles_owned_once (N : Native) (ops : List Op) : (World.run N ops).OwnedOnce :=
  (World.sound_run ops).ownedOnce

-- an accepted stream outlives its listener, after a move into another stream
example :
    openHandles (World.run .obliging [.newListener {}, .call 0 (.listen ⟨"localhost", 80⟩ 8),
      .accept 0, .newStream {} {}, .moveAssign 2 1, .destroy 0]).log = {2} := by decide

end Transport
end Vosp
