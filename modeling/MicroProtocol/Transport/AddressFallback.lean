import MicroProtocol.Lib.Logged
import MicroProtocol.Transport.Udp

/-!
# Going through the addresses of an endpoint

`TcpStream::connect`, `TcpListener::bind` and `UdpSocket::bind` resolve an endpoint and go
through its addresses: each gets a socket, which is prepared by a fixed row of native calls
and closed again if one of them fails.  Here this is told from the calls that are made,
against any operating system.

* `Opening` — which of the three it is.
* `Attempt` — the calls for one address, from the first to the last, and how they end.
* `Searched` — the attempts for the addresses in order: all of them failed, or all up to the
  address that was opened.
* `Opening.Runs` — a whole call, with the closing of the old socket and the resolution.
* `address_fallback_complete` — the three methods are of this kind.  So none of them fails
  while an address is left, which is not true of `UdpSocket::send_to`.
-/

namespace Vosp
namespace Transport

open Detail Logged

/-- A native call that prepares a new socket for an address. -/
abbrev Preparation := Handle → NativeAddress → Result Unit → Event

/-- What the methods that open a socket do not have in common. -/
structure Opening where
  type : SocketType
  passive : Bool
  preparations : List Preparation
  /-- The error of an endpoint that has no addresses. -/
  unresolved : Error

namespace Opening

/-- `TcpStream::connect`. -/
def connect (options : IoOptions) : Opening where
  type := .stream
  passive := false
  preparations :=
    [fun socket _ r => .applyOptions socket options r,
      fun socket address r => .connectSocket socket address r]
  unresolved := ⟨.connectFailed, "no usable TCP endpoint was resolved", 0⟩

/-- `TcpListener::bind`. -/
def listen (backlog : Int) : Opening where
  type := .stream
  passive := true
  preparations :=
    [fun socket _ r => .setReuseAddress socket r,
      fun socket address r => .bindSocket socket address r,
      fun socket _ r => .listenSocket socket backlog r]
  unresolved := ⟨.bindFailed, "no usable TCP bind endpoint was resolved", 0⟩

/-- `UdpSocket::bind`. -/
def bind (options : IoOptions) : Opening where
  type := .datagram
  passive := true
  preparations :=
    [fun socket _ r => .applyOptions socket options r,
      fun socket address r => .bindSocket socket address r]
  unresolved := ⟨.bindFailed, "no usable UDP bind endpoint was resolved", 0⟩

variable (o : Opening)

/-- The calls made for one address, oldest first. -/
inductive Attempt (address : NativeAddress) : List Event → Result Handle → Prop where
  | notCreated (e : Error) : Attempt address [.createSocket address o.type (.error e)] (.error e)
  /-- A preparation failed, and the socket was closed. -/
  | notPrepared {done rest : List Preparation} {preparation : Preparation}
      (hrow : o.preparations = done ++ preparation :: rest) (socket : Handle) (e : Error) :
      Attempt address
        (.createSocket address o.type (.ok socket) ::
          (done.map fun before => before socket address (.ok ())) ++
          [preparation socket address (.error e), .shutdown socket, .close socket])
        (.error e)
  | opened (socket : Handle) :
      Attempt address
        (.createSocket address o.type (.ok socket) ::
          o.preparations.map fun preparation => preparation socket address (.ok ()))
        (.ok socket)

/-- Attempts that failed, with their calls and their errors, one for each address. -/
abbrev AllFailed (addresses : List NativeAddress) (attempts : List (List Event × Error)) : Prop :=
  List.Forall₂ (fun address attempt => o.Attempt address attempt.1 (.error attempt.2))
    addresses attempts

/-- The calls made for a list of addresses, oldest first, and the result of the loop.
`last` is the error of the addresses before. -/
inductive Searched (last : Option Error) : List NativeAddress → List Event →
    Except (Option Error) (Handle × NativeAddress) → Prop where
  /-- Every address was tried; the error is that of the last one. -/
  | exhausted {addresses : List NativeAddress} {attempts : List (List Event × Error)}
      (hfailed : o.AllFailed addresses attempts) :
      Searched last addresses (attempts.map Prod.fst).flatten
        (.error ((attempts.getLast?.map Prod.snd).or last))
  /-- The addresses before the one that was opened were tried. -/
  | found {tried rest : List NativeAddress} {attempts : List (List Event × Error)}
      (hfailed : o.AllFailed tried attempts) {address : NativeAddress} {calls : List Event}
      {socket : Handle} (hopened : o.Attempt address calls (.ok socket)) :
      Searched last (tried ++ address :: rest) ((attempts.map Prod.fst).flatten ++ calls)
        (.ok (socket, address))

/-- What the method returns. -/
def verdict : Except (Option Error) (Handle × NativeAddress) → Result Unit
  | .ok _ => .ok ()
  | .error (some e) => .error e
  | .error none => .error o.unresolved

/-- The socket the object has then. -/
def opened : Except (Option Error) (Handle × NativeAddress) → Option Handle
  | .ok (socket, _) => some socket
  | .error _ => none

/-- The calls of `close_socket`, newest first. -/
def closing : Option Handle → Log
  | none => []
  | some socket => [.close socket, .shutdown socket]

/-- A call of the method on an object with the socket `socket`: what it returns, the socket
of the object afterwards, and the log. -/
inductive Runs (endpoint : IpEndpoint) (socket : Option Handle) (before : Log) :
    Result Unit → Option Handle → Log → Prop where
  | notResolved (e : Error) :
      Runs endpoint socket before (.error e) none
        (.resolve endpoint o.type o.passive (.error e) :: (closing socket ++ before))
  | searched {addresses : List NativeAddress} {calls : List Event}
      {result : Except (Option Error) (Handle × NativeAddress)}
      (hsearched : o.Searched none addresses calls result) :
      Runs endpoint socket before (o.verdict result) (opened result)
        (calls.reverse ++
          .resolve endpoint o.type o.passive (.ok addresses) :: (closing socket ++ before))

end Opening

/-! ## The address loop -/

/-- The steps make the calls of the row. -/
def Follow (address : NativeAddress) (steps : List (Handle → Net (Result Unit)))
    (row : List Preparation) : Prop :=
  List.Forall₂ (fun step preparation => ∀ socket log,
    ((step socket).run log).2 = preparation socket address ((step socket).run log).1 :: log)
    steps row

/-- The preparation of a socket stops at the first call that fails. -/
theorem prepare_calls {address : NativeAddress} {steps : List (Handle → Net (Result Unit))}
    {row : List Preparation} (h : Follow address steps row) (socket : Handle) (log : Log) :
    (prepare socket steps).run log =
        (.ok (), (row.map fun preparation => preparation socket address (.ok ())).reverse ++ log) ∨
      ∃ done preparation rest e, row = done ++ preparation :: rest ∧
        (prepare socket steps).run log =
          (.error e, preparation socket address (.error e) ::
            ((done.map fun before => before socket address (.ok ())).reverse ++ log)) := by
  induction h generalizing log with
  | nil => exact .inl rfl
  | @cons step preparation steps row hstep _ ih =>
      unfold prepare
      rw [run_bind, hstep socket log]
      cases ((step socket).run log).1 with
      | error e => exact .inr ⟨[], preparation, row, e, rfl, rfl⟩
      | ok u =>
          obtain hall | ⟨done, failing, rest, e, rfl, hfail⟩ :=
            ih (preparation socket address (.ok ()) :: log)
          · exact .inl (hall.trans (by simp))
          · exact .inr ⟨preparation :: done, failing, rest, e, rfl, hfail.trans (by simp)⟩

theorem run_closeSocket (socket : Option Handle) (log : Log) :
    (closeSocket socket).run log = ((), Opening.closing socket ++ log) := by
  cases socket <;> rfl

variable {N : Native} {o : Opening}

/-- An attempt that fails, and the rest of the loop. -/
theorem Opening.Searched.cons {address : NativeAddress} {addresses : List NativeAddress}
    {calls calls' : List Event} {e : Error} {last : Option Error}
    {result : Except (Option Error) (Handle × NativeAddress)}
    (hattempt : o.Attempt address calls (.error e))
    (h : o.Searched (some e) addresses calls' result) :
    o.Searched last (address :: addresses) (calls ++ calls') result := by
  cases h with
  | @exhausted _ attempts hfailed =>
      have hall : o.Searched last (address :: addresses) _ _ :=
        .exhausted (List.Forall₂.cons (a := address) (b := (calls, e)) hattempt hfailed)
      have hlast : ((((calls, e) :: attempts).getLast?.map Prod.snd).or last) =
          ((attempts.getLast?.map Prod.snd).or (some e)) := by
        rw [List.getLast?_cons]
        cases attempts.getLast? <;> rfl
      rw [hlast] at hall
      exact hall
  | @found tried rest attempts hfailed _ _ _ hopened =>
      have hall : o.Searched last (address :: tried ++ _ :: rest) _ _ :=
        .found (List.Forall₂.cons (a := address) (b := (calls, e)) hattempt hfailed) hopened
      rw [List.map_cons, List.flatten_cons, List.append_assoc] at hall
      exact hall

/-- The loop goes on after every attempt that fails, and stops at the first that does
not. -/
theorem openFirst_calls {steps : NativeAddress → List (Handle → Net (Result Unit))}
    (h : ∀ address, Follow address (steps address) o.preparations)
    (addresses : List NativeAddress) (last : Option Error) (log : Log) :
    ∃ calls, o.Searched last addresses calls
        ((openFirst N o.type steps addresses last).run log).1 ∧
      ((openFirst N o.type steps addresses last).run log).2 = calls.reverse ++ log := by
  induction addresses generalizing last log with
  | nil => exact ⟨[], @Opening.Searched.exhausted o last [] [] .nil, rfl⟩
  | cons address addresses ih =>
      unfold openFirst
      simp only [run_bind, createSocket, run_call]
      cases N.createSocket log address o.type with
      | error e =>
          obtain ⟨calls, hsearched, hlog⟩ :=
            ih (some e) (.createSocket address o.type (.error e) :: log)
          refine ⟨_, hsearched.cons (.notCreated e), ?_⟩
          simpa using hlog
      | ok socket =>
          obtain hall | ⟨done, preparation, rest, e, hrow, hfail⟩ :=
            prepare_calls (h address) socket (.createSocket address o.type (.ok socket) :: log)
          · simp only [run_bind, hall]
            refine ⟨_, @Opening.Searched.found o last [] addresses [] .nil _ _ _ (.opened socket),
              ?_⟩
            change _ ++ _ = _
            simp
          · simp only [run_bind, hfail, run_closeSocket]
            obtain ⟨calls, hsearched, hlog⟩ := ih (some e) (Opening.closing (some socket) ++
              preparation socket address (.error e) ::
                ((done.map fun before => before socket address (.ok ())).reverse ++
                  .createSocket address o.type (.ok socket) :: log))
            refine ⟨_, hsearched.cons (.notPrepared hrow socket e), ?_⟩
            simpa [Opening.closing] using hlog

/-! ## The methods -/

/-- The part that the three methods share, up to what they make of the result. -/
theorem runs_reopen {ω : Type} {endpoint : IpEndpoint} {socket : Option Handle}
    {steps : NativeAddress → List (Handle → Net (Result Unit))}
    (h : ∀ address, Follow address (steps address) o.preparations)
    {onError : Error → Net (Result Unit × ω)}
    {onOpen : Except (Option Error) (Handle × NativeAddress) → Net (Result Unit × ω)}
    (socketOf : ω → Option Handle)
    (herror : ∀ e, ∃ x, onError e = pure (.error e, x) ∧ socketOf x = none)
    (hopen : ∀ r, ∃ x, onOpen r = pure (o.verdict r, x) ∧ socketOf x = Opening.opened r)
    (before : Log) {m : Net (Result Unit × ω)}
    (hm : m = do
      closeSocket socket
      match ← resolve N endpoint o.type o.passive with
      | .error e => onError e
      | .ok addresses => openFirst N o.type steps addresses none >>= onOpen) :
    o.Runs endpoint socket before (m.run before).1.1 (socketOf (m.run before).1.2)
      (m.run before).2 := by
  subst hm
  simp only [run_bind, run_closeSocket, resolve, run_call]
  cases N.resolve (Opening.closing socket ++ before) endpoint o.type o.passive with
  | error e =>
      obtain ⟨x, hx, hsocket⟩ := herror e
      simp only [hx, run_pure, hsocket]
      exact .notResolved e
  | ok addresses =>
      obtain ⟨calls, hsearched, hlog⟩ := openFirst_calls (N := N) h addresses none
        (.resolve endpoint o.type o.passive (.ok addresses) :: (Opening.closing socket ++ before))
      obtain ⟨x, hx, hsocket⟩ := hopen ((openFirst N o.type steps addresses none).run
        (.resolve endpoint o.type o.passive (.ok addresses) ::
          (Opening.closing socket ++ before))).1
      simp only [run_bind, hx, run_pure, hsocket, hlog]
      exact .searched hsearched

/-- **The fallback over addresses is complete.**  For a valid endpoint, valid options and
whatever the operating system answers: `connect` and both `bind`s close the old socket,
resolve the endpoint once and try its addresses in order, each with one socket that is
closed again unless it is the one that could be prepared to the end.  That socket becomes
the object's, and no address after it is tried.  They fail only if the resolution did or
every address did, with the error of the last one. -/
theorem address_fallback_complete (N : Native) {endpoint : IpEndpoint}
    (hendpoint : endpoint.valid = true) (before : Log) :
    (∀ impl : TcpStream.Impl, impl.options.valid = true → impl.reconnectPolicy.valid = true →
      (Opening.connect impl.options).Runs endpoint impl.socket before
        ((TcpStream.connect N endpoint ⟨some impl⟩).run before).1.1
        ((TcpStream.connect N endpoint ⟨some impl⟩).run before).1.2.socket
        ((TcpStream.connect N endpoint ⟨some impl⟩).run before).2) ∧
    (∀ (impl : TcpListener.Impl) (backlog : Int), 0 < backlog → backlog ≤ 65535 →
      impl.acceptedStreamOptions.valid = true →
      (Opening.listen backlog).Runs endpoint impl.socket before
        ((TcpListener.bind N endpoint backlog ⟨some impl⟩).run before).1.1
        ((TcpListener.bind N endpoint backlog ⟨some impl⟩).run before).1.2.socket
        ((TcpListener.bind N endpoint backlog ⟨some impl⟩).run before).2) ∧
    ∀ impl : UdpSocket.Impl, impl.options.valid = true →
      (Opening.bind impl.options).Runs endpoint impl.socket before
        ((UdpSocket.bind N endpoint ⟨some impl⟩).run before).1.1
        ((UdpSocket.bind N endpoint ⟨some impl⟩).run before).1.2.socket
        ((UdpSocket.bind N endpoint ⟨some impl⟩).run before).2 := by
  refine ⟨?_, ?_, ?_⟩
  · intro impl hoptions hpolicy
    refine runs_reopen (o := .connect impl.options) (fun address => ?_) TcpStream.socket
      (fun e => ⟨_, rfl, rfl⟩) ?_ before (if_neg ?_)
    · exact .cons (fun _ _ => rfl) (.cons (fun _ _ => rfl) .nil)
    · rintro ((_ | e) | ⟨socket, address⟩) <;> exact ⟨_, rfl, rfl⟩
    · simp [hendpoint, hoptions, hpolicy]
  · intro impl backlog hpos hle hoptions
    refine runs_reopen (o := .listen backlog) (fun address => ?_) TcpListener.socket
      (fun e => ⟨_, rfl, rfl⟩) ?_ before (if_neg ?_)
    · exact .cons (fun _ _ => rfl) (.cons (fun _ _ => rfl) (.cons (fun _ _ => rfl) .nil))
    · rintro ((_ | e) | ⟨socket, address⟩) <;> exact ⟨_, rfl, rfl⟩
    · simp [hendpoint, hoptions]
      omega
  · intro impl hoptions
    refine runs_reopen (o := .bind impl.options) (fun address => ?_) UdpSocket.socket
      (fun e => ⟨_, rfl, rfl⟩) ?_ before (if_neg ?_)
    · exact .cons (fun _ _ => rfl) (.cons (fun _ _ => rfl) .nil)
    · rintro ((_ | e) | ⟨socket, address⟩) <;> exact ⟨_, rfl, rfl⟩
    · simp [hendpoint, hoptions]

/-- An operating system on which only addresses of family 10 can be connected to, and the
first address of every endpoint is of family 2. -/
def secondOnly : Native :=
  { Native.obliging with
    resolve := fun _ _ _ _ => .ok [{ family := 2 }, { family := 10 }]
    connectSocket := fun _ _ address =>
      if address.family = 2 then failure .connectFailed "connect failed" 111 else .ok () }

theorem address_fallback_complete_second :
    (Opening.connect {}).Runs ⟨"peer", 80⟩ none [] (.ok ()) (some 1)
      [.connectSocket 1 { family := 10 } (.ok ()), .applyOptions 1 {} (.ok ()),
        .createSocket { family := 10 } .stream (.ok 1), .close 1, .shutdown 1,
        .connectSocket 1 { family := 2 } (failure .connectFailed "connect failed" 111),
        .applyOptions 1 {} (.ok ()), .createSocket { family := 2 } .stream (.ok 1),
        .resolve ⟨"peer", 80⟩ .stream false (.ok [{ family := 2 }, { family := 10 }])] :=
  (address_fallback_complete secondOnly (by decide) []).1 {} (by decide) (by decide)

end Transport
end Vosp
