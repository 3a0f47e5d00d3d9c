import MicroProtocol.Transport.Udp

/-!
# Programs that use the transport

A `World` is what a program that uses the transport has made of it: its live
objects, each in a slot of its own, and the log of all native calls.  An operation
`Op` is a construction, a method call, a move or a destruction; the slot of an
object is its identity, and a destroyed object leaves its slot empty for good.

`Object.run` says what a method call does to its object, and `Object.reply` what it returns.
An operation that no C++ program can contain, such as a call on an object that
does not exist or of a method its class does not have, changes nothing.
-/

namespace Vosp
namespace Transport

/-- A live object. -/
inductive Object where
  | stream (s : TcpStream)
  | listener (l : TcpListener)
  | udp (u : UdpSocket)
  deriving DecidableEq, Repr

/-- A call of a method that makes native calls, `TcpListener::accept` apart. -/
inductive Method where
  | connect (endpoint : IpEndpoint)
  | reconnect
  | send (bytes : List UInt8)
  | sendAll (bytes : List UInt8)
  | receive (size : Nat)
  | listen (endpoint : IpEndpoint) (backlog : Int)
  | bind (endpoint : IpEndpoint)
  | sendTo (endpoint : IpEndpoint) (payload : List UInt8)
  | receiveFrom (maximumSize : Nat)
  | localEndpoint
  | close
  deriving DecidableEq, Repr

/-- An operation of the program. -/
inductive Op where
  | newStream (options : IoOptions) (reconnect : ReconnectPolicy)
  | newListener (acceptedStreamOptions : IoOptions)
  | newUdp (options : IoOptions)
  | call (id : Nat) (method : Method)
  /-- The accepted stream becomes a new object. -/
  | accept (id : Nat)
  /-- A new object is move-constructed from `source`. -/
  | moveConstruct (source : Nat)
  | moveAssign (target source : Nat)
  | destroy (id : Nat)
  deriving DecidableEq, Repr

namespace Object

/-- The valid handle stored in the object. -/
def handle : Object → Option Handle
  | .stream s => s.socket
  | .listener l => l.socket
  | .udp u => u.socket

/-- What moving from the object leaves behind. -/
def movedFrom : Object → Object
  | .stream _ => .stream .movedFrom
  | .listener _ => .listener .movedFrom
  | .udp _ => .udp .movedFrom

/-- Whether the objects are of one class. -/
def sameClass : Object → Object → Bool
  | .stream _, .stream _ => true
  | .listener _, .listener _ => true
  | .udp _, .udp _ => true
  | _, _ => false

/-- The `close` of the object's class. -/
def close : Object → Net Object
  | .stream s => do
      let s ← s.close
      pure (.stream s)
  | .listener l => do
      let l ← l.close
      pure (.listener l)
  | .udp u => do
      let u ← u.close
      pure (.udp u)

/-- A method call on the object. -/
def run (N : Native) : Method → Object → Net Object
  | .connect endpoint, .stream s => do
      let (_, s) ← s.connect N endpoint
      pure (.stream s)
  | .reconnect, .stream s => do
      let (_, s) ← s.reconnect N
      pure (.stream s)
  | .send bytes, .stream s => do
      let (_, s) ← s.send N bytes
      pure (.stream s)
  | .sendAll bytes, .stream s => do
      let (_, s) ← s.sendAll N bytes
      pure (.stream s)
  | .receive size, .stream s => do
      let (_, s) ← s.receive N size
      pure (.stream s)
  | .listen endpoint backlog, .listener l => do
      let (_, l) ← l.bind N endpoint backlog
      pure (.listener l)
  | .localEndpoint, .listener l => do
      let _ ← l.localEndpoint N
      pure (.listener l)
  | .bind endpoint, .udp u => do
      let (_, u) ← u.bind N endpoint
      pure (.udp u)
  | .sendTo endpoint payload, .udp u => do
      let (_, u) ← u.sendTo N endpoint payload
      pure (.udp u)
  | .receiveFrom maximumSize, .udp u => do
      let _ ← u.receive N maximumSize
      pure (.udp u)
  | .localEndpoint, .udp u => do
      let _ ← u.localEndpoint N
      pure (.udp u)
  | .close, o => o.close
  | _, o => pure o

end Object

/-- The result of a method call. -/
inductive Reply where
  | done (r : Result Unit)
  | count (r : Result Nat)
  | bytes (r : Result (List UInt8))
  | datagram (r : Result Datagram)
  | endpoint (r : Result IpEndpoint)
  /-- `close` returns nothing. -/
  | nothing
  deriving DecidableEq

/-- What a method call on the object returns. -/
def Object.reply (N : Native) : Method → Object → Net Reply
  | .connect endpoint, .stream s => do
      let (r, _) ← s.connect N endpoint
      pure (.done r)
  | .reconnect, .stream s => do
      let (r, _) ← s.reconnect N
      pure (.done r)
  | .send bytes, .stream s => do
      let (r, _) ← s.send N bytes
      pure (.count r)
  | .sendAll bytes, .stream s => do
      let (r, _) ← s.sendAll N bytes
      pure (.count r)
  | .receive size, .stream s => do
      let (r, _) ← s.receive N size
      pure (.bytes r)
  | .listen endpoint backlog, .listener l => do
      let (r, _) ← l.bind N endpoint backlog
      pure (.done r)
  | .localEndpoint, .listener l => do
      let r ← l.localEndpoint N
      pure (.endpoint r)
  | .bind endpoint, .udp u => do
      let (r, _) ← u.bind N endpoint
      pure (.done r)
  | .sendTo endpoint payload, .udp u => do
      let (r, _) ← u.sendTo N endpoint payload
      pure (.count r)
  | .receiveFrom maximumSize, .udp u => do
      let r ← u.receive N maximumSize
      pure (.datagram r)
  | .localEndpoint, .udp u => do
      let r ← u.localEndpoint N
      pure (.endpoint r)
  | .close, o => do
      let _ ← o.close
      pure .nothing
  | _, _ => pure .nothing

/-- The live objects and the log. -/
structure World where
  objects : List (Option Object) := []
  log : Log := []

namespace World

variable (N : Native)

/-- One operation. -/
def step (w : World) : Op → World
  | .newStream options reconnect =>
      { w with objects := w.objects ++ [some (.stream (.construct options reconnect))] }
  | .newListener options =>
      { w with objects := w.objects ++ [some (.listener (.construct options))] }
  | .newUdp options => { w with objects := w.objects ++ [some (.udp (.construct options))] }
  | .call id method =>
      match w.objects[id]? with
      | some (some o) =>
          let (o, log) := (o.run N method).run w.log
          { objects := w.objects.set id (some o), log := log }
      | _ => w
  | .accept id =>
      match w.objects[id]? with
      | some (some (.listener l)) =>
          match (l.accept N).run w.log with
          | (.ok s, log) => { objects := w.objects ++ [some (.stream s)], log := log }
          | (.error _, log) => { w with log := log }
      | _ => w
  | .moveConstruct source =>
      match w.objects[source]? with
      | some (some o) =>
          { w with objects := w.objects.set source (some o.movedFrom) ++ [some o] }
      | _ => w
  | .moveAssign target source =>
      if target = source then w
      else
        match w.objects[target]?, w.objects[source]? with
        | some (some t), some (some s) =>
            if t.sameClass s then
              { objects := (w.objects.set target (some s)).set source (some s.movedFrom)
                log := (t.close.run w.log).2 }
            else w
        | _, _ => w
  | .destroy id =>
      match w.objects[id]? with
      | some (some o) =>
          { objects := w.objects.set id none, log := (o.close.run w.log).2 }
      | _ => w

/-- A program from its start. -/
def run (ops : List Op) : World := ops.foldl (step N) {}

end World

end Transport
end Vosp
