import MicroProtocol.Transport.SendAll
import MicroProtocol.Transport.UdpFamily

/-!
# Objects that cannot be used

An object without a handle (never opened, closed, closed after an error, or moved from)
can do little, and one that was moved from cannot even be opened again.  `owes` says which
error each operation then has to report.  Every method has its own guard for that, in its
own place among its other tests, and `send_all` has none: it leaves the matter to `send`,
which it does not call when there is nothing to send.

* `World.answer` — what an operation returns, with the values forgotten.
* `Object.owes`, `World.owes` — the code an operation owes to an object in its state.
* `unusable_refuses_iff` — the debt is paid, without a native call and without a change,
  by everything but `send_all` of nothing; and `close` does nothing.
-/

namespace Vosp
namespace Transport

open Detail Logged

/-- Whether there is an error, and which; the value is forgotten. -/
def outcome {α : Type} (r : Result α) : Result Unit := r.map fun _ => ()

/-- The same for a reply. -/
def Reply.outcome : Reply → Option (Result Unit)
  | .done r => some (Transport.outcome r)
  | .count r => some (Transport.outcome r)
  | .bytes r => some (Transport.outcome r)
  | .datagram r => some (Transport.outcome r)
  | .endpoint r => some (Transport.outcome r)
  | .nothing => none

namespace Object

/-- The outcome of a method call on the object; nothing for `close` and for the methods that
the class does not have. -/
def answer (N : Native) (log : Log) (method : Method) (o : Object) : Option (Result Unit) :=
  ((o.reply N method).run log).1.outcome

/-- The error that a method owes to the state of its object: `not_connected` where it needs a
handle and there is none, and the errors of objects that were moved from. -/
def owes : Method → Object → Option ErrorCode
  | .send _, .stream s | .sendAll _, .stream s | .receive _, .stream s =>
      if s.socket = none then some .notConnected else none
  | .connect _, .stream s => if s.implementation = none then some .invalidArgument else none
  | .reconnect, .stream s => if s.implementation = none then some .notConnected else none
  | .listen _ _, .listener l => if l.implementation = none then some .invalidArgument else none
  | .localEndpoint, .listener l => if l.socket = none then some .notConnected else none
  | .bind _, .udp u | .sendTo _ _, .udp u =>
      if u.implementation = none then some .invalidArgument else none
  | .receiveFrom _, .udp u | .localEndpoint, .udp u =>
      if u.socket = none then some .notConnected else none
  | _, _ => none

end Object

/-! ## Methods -/

namespace TcpStream

variable {N : Native} {s : TcpStream}

theorem receive_of_closed (h : s.socket = none) (size : Nat) :
    s.receive N size = pure (failure .notConnected "TCP stream is not connected", s) := by
  simp [receive, h]

end TcpStream

namespace TcpListener

variable {N : Native} {l : TcpListener}

theorem accept_of_closed (h : l.socket = none) :
    l.accept N = pure (failure .notConnected "TCP listener is not active") := by
  obtain ⟨_ | impl⟩ := l
  · rfl
  · have himpl : impl.socket = none := h
    simp [accept, himpl]

theorem localEndpoint_of_closed (h : l.socket = none) :
    l.localEndpoint N = pure (failure .notConnected "TCP listener is not active") := by
  simp [localEndpoint, h]

end TcpListener

namespace UdpSocket

variable {N : Native} {u : UdpSocket}

theorem receive_of_closed (h : u.socket = none) (maximumSize : Nat) :
    u.receive N maximumSize = pure (failure .notConnected "UDP socket is not open") := by
  simp [receive, h]

theorem localEndpoint_of_closed (h : u.socket = none) :
    u.localEndpoint N = pure (failure .notConnected "UDP socket is not open") := by
  simp [localEndpoint, h]

end UdpSocket

/-! ## Objects -/

/-- The call is refused with the code: it reports an error with it, makes no native call and
leaves the object as it is. -/
def Object.Refuses (N : Native) (log : Log) (o : Object) (method : Method) (code : ErrorCode) :
    Prop :=
  (∃ e : Error, o.answer N log method = some (.error e) ∧ e.code = code) ∧
    (o.run N method).run log = (o, log)

namespace Object

variable {N : Native} {log : Log} {method : Method} {code : ErrorCode}

/-- A method that changes its object, when it only returns an error. -/
theorem refuses_of_pure {α σ : Type} (f : σ → Object) {a : σ} {m : Net (Result α × σ)} {e : Error}
    (hm : m = pure (.error e, a))
    (hanswer : (f a).answer N log method = some (outcome (m.run log).1.1))
    (hrun : (f a).run N method = do
      let (_, a) ← m
      pure (f a)) : Refuses N log (f a) method e.code := by
  subst hm
  refine ⟨⟨e, hanswer, rfl⟩, ?_⟩
  rw [hrun]
  rfl

/-- The same for a method that does not change its object. -/
theorem refuses_of_pure_const {α : Type} {o : Object} {m : Net (Result α)} {e : Error}
    (hm : m = pure (.error e))
    (hanswer : o.answer N log method = some (outcome (m.run log).1))
    (hrun : o.run N method = do
      let _ ← m
      pure o) : Refuses N log o method e.code := by
  subst hm
  refine ⟨⟨e, hanswer, rfl⟩, ?_⟩
  rw [hrun]
  rfl

theorem refuses_stream {s : TcpStream} (h : owes method (.stream s) = some code)
    (hne : method ≠ .sendAll []) : Refuses N log (.stream s) method code := by
  cases method with
  | connect endpoint =>
      obtain ⟨_ | impl⟩ := s
      · cases h
        exact refuses_of_pure stream (m := TcpStream.connect N endpoint ⟨none⟩) rfl rfl rfl
      · cases h
  | reconnect =>
      obtain ⟨_ | impl⟩ := s
      · cases h
        exact refuses_of_pure stream (m := TcpStream.reconnect N ⟨none⟩) rfl rfl rfl
      · cases h
  | send bytes =>
      obtain ⟨hclosed, rfl⟩ : s.socket = none ∧ .notConnected = code := by simpa [owes] using h
      exact refuses_of_pure stream (TcpStream.send_of_closed hclosed bytes) rfl rfl
  | sendAll bytes =>
      obtain ⟨hclosed, rfl⟩ : s.socket = none ∧ .notConnected = code := by simpa [owes] using h
      have hbytes : bytes ≠ [] := fun hnil => hne (congrArg _ hnil)
      exact refuses_of_pure stream (TcpStream.sendAll_of_closed hclosed hbytes) rfl rfl
  | receive size =>
      obtain ⟨hclosed, rfl⟩ : s.socket = none ∧ .notConnected = code := by simpa [owes] using h
      exact refuses_of_pure stream (TcpStream.receive_of_closed hclosed size) rfl rfl
  | _ => cases h

theorem refuses_listener {l : TcpListener} (h : owes method (.listener l) = some code) :
    Refuses N log (.listener l) method code := by
  cases method with
  | listen endpoint backlog =>
      obtain ⟨_ | impl⟩ := l
      · cases h
        exact refuses_of_pure listener (m := TcpListener.bind N endpoint backlog ⟨none⟩) rfl rfl rfl
      · cases h
  | localEndpoint =>
      obtain ⟨hclosed, rfl⟩ : l.socket = none ∧ .notConnected = code := by simpa [owes] using h
      exact refuses_of_pure_const (TcpListener.localEndpoint_of_closed hclosed) rfl rfl
  | _ => cases h

theorem refuses_udp {u : UdpSocket} (h : owes method (.udp u) = some code) :
    Refuses N log (.udp u) method code := by
  cases method with
  | bind endpoint =>
      obtain ⟨_ | impl⟩ := u
      · cases h
        exact refuses_of_pure udp (m := UdpSocket.bind N endpoint ⟨none⟩) rfl rfl rfl
      · cases h
  | sendTo endpoint payload =>
      obtain ⟨_ | impl⟩ := u
      · cases h
        exact refuses_of_pure udp (m := UdpSocket.sendTo N endpoint payload ⟨none⟩) rfl rfl rfl
      · cases h
  | receiveFrom maximumSize =>
      obtain ⟨hclosed, rfl⟩ : u.socket = none ∧ .notConnected = code := by simpa [owes] using h
      exact refuses_of_pure_const (UdpSocket.receive_of_closed hclosed maximumSize) rfl rfl
  | localEndpoint =>
      obtain ⟨hclosed, rfl⟩ : u.socket = none ∧ .notConnected = code := by simpa [owes] using h
      exact refuses_of_pure_const (UdpSocket.localEndpoint_of_closed hclosed) rfl rfl
  | _ => cases h

/-- Every method but one pays what it owes. -/
theorem refuses {o : Object} (h : owes method o = some code) (hne : method ≠ .sendAll []) :
    Refuses N log o method code := by
  cases o with
  | stream s => exact refuses_stream h hne
  | listener l => exact refuses_listener h
  | udp u => exact refuses_udp h

/-- `send_all` of nothing succeeds on every stream. -/
theorem answer_sendAll_nil (s : TcpStream) :
    (stream s).answer N log (.sendAll []) = some (.ok ()) := by
  have hreply : (stream s).reply N (.sendAll []) = pure (.count (.ok 0)) := by
    rw [reply, TcpStream.sendAll_nil]
    rfl
  rw [answer, hreply]
  rfl

/-- The `close` of an object without a handle; a UDP socket then has no family to forget. -/
theorem close_of_closed {o : Object} (h : o.handle = none)
    (hfamily : ∀ impl, o = .udp ⟨some impl⟩ → impl.family = 0) : o.close.run log = (o, log) := by
  match o with
  | .stream ⟨none⟩ => rfl
  | .listener ⟨none⟩ => rfl
  | .udp ⟨none⟩ => rfl
  | .stream ⟨some impl⟩ =>
      have hsocket : impl.socket = none := h
      obtain ⟨_, _, _, _⟩ := impl
      subst hsocket
      rfl
  | .listener ⟨some impl⟩ =>
      have hsocket : impl.socket = none := h
      obtain ⟨_, _⟩ := impl
      subst hsocket
      rfl
  | .udp ⟨some impl⟩ =>
      have hsocket : impl.socket = none := h
      have hzero := hfamily impl rfl
      obtain ⟨_, _, _, _, _⟩ := impl
      subst hsocket hzero
      rfl

end Object

/-! ## Worlds -/

namespace World

variable (N : Native)

/-- What an operation returns; nothing for a construction, a move or a destruction. -/
def answer (w : World) : Op → Option (Result Unit)
  | .call id method =>
      match w.objects[id]? with
      | some (some o) => o.answer N w.log method
      | _ => none
  | .accept id =>
      match w.objects[id]? with
      | some (some (.listener l)) => some (outcome ((l.accept N).run w.log).1)
      | _ => none
  | _ => none

/-- The error that an operation owes to the state of its object. -/
def owes (w : World) : Op → Option ErrorCode
  | .call id method =>
      match w.objects[id]? with
      | some (some o) => o.owes method
      | _ => none
  | .accept id =>
      match w.objects[id]? with
      | some (some (.listener l)) => if l.socket = none then some .notConnected else none
      | _ => none
  | _ => none

/-- The operation is refused with the code, and nothing has happened: no native call was
made and every object is as before. -/
def Refuses (w : World) (op : Op) (code : ErrorCode) : Prop :=
  (∃ e : Error, w.answer N op = some (.error e) ∧ e.code = code) ∧ w.step N op = w

variable {N} {w : World} {id : Nat} {o : Object}

theorem step_call_of_run (hid : w.objects[id]? = some (some o)) {method : Method}
    (hrun : (o.run N method).run w.log = (o, w.log)) : w.step N (.call id method) = w := by
  have hset : w.objects.set id (some o) = w.objects := by
    obtain ⟨hlt, heq⟩ := List.getElem?_eq_some_iff.1 hid
    rw [← heq, List.set_getElem_self]
  simp only [step, hid, hrun, hset]

theorem refuses_call {method : Method} {code : ErrorCode} (h : w.owes (.call id method) = some code)
    (hne : method ≠ .sendAll []) : w.Refuses N (.call id method) code := by
  rcases hid : w.objects[id]? with _ | _ | o
  · simp [owes, hid] at h
  · simp [owes, hid] at h
  · have howes : o.owes method = some code := by simpa [owes, hid] using h
    have hrefuses : o.Refuses N w.log method code := Object.refuses howes hne
    obtain ⟨⟨e, hanswer, hcode⟩, hrun⟩ := hrefuses
    exact ⟨⟨e, by simpa [answer, hid] using hanswer, hcode⟩, step_call_of_run hid hrun⟩

theorem refuses_accept {code : ErrorCode} (h : w.owes (.accept id) = some code) :
    w.Refuses N (.accept id) code := by
  match hid : w.objects[id]? with
  | none | some none | some (some (.stream _)) | some (some (.udp _)) => simp [owes, hid] at h
  | some (some (.listener l)) =>
      obtain ⟨hclosed, rfl⟩ : l.socket = none ∧ .notConnected = code := by
        simpa [owes, hid] using h
      have haccept := TcpListener.accept_of_closed (N := N) hclosed
      refine ⟨⟨⟨.notConnected, "TCP listener is not active", 0⟩, ?_, rfl⟩, ?_⟩
      · simp only [answer, hid, haccept]
        rfl
      · simp only [step, hid, haccept]
        rfl

/-- `send_all` of nothing reports no error, whatever it owes. -/
theorem not_refuses_sendAll_nil {code : ErrorCode} :
    ¬ w.Refuses N (.call id (.sendAll [])) code := by
  rintro ⟨⟨e, hanswer, -⟩, -⟩
  match hid : w.objects[id]? with
  | none | some none => simp [answer, hid] at hanswer
  | some (some (.listener _)) | some (some (.udp _)) =>
      -- the class has no such method
      simp only [answer, hid] at hanswer
      cases hanswer
  | some (some (.stream s)) => simp [answer, hid, Object.answer_sendAll_nil] at hanswer

/-- In a reachable world a UDP socket without a handle has no family. -/
theorem family_of_closed {ops : List Op} {impl : UdpSocket.Impl}
    (hid : (run N ops).objects[id]? = some (some (.udp ⟨some impl⟩)))
    (hclosed : impl.socket = none) : impl.family = 0 := by
  have hany : Answers N fun _ _ _ => True := fun _ _ _ _ _ => trivial
  have hsane := ((saneInvariant hany).of_run ops).object hid
  exact ((UdpSocket.sane_iff _ impl).1 hsane).family_of_closed hclosed

/-- Closing again, however often. -/
theorem close_of_closed {ops : List Op} (hid : (run N ops).objects[id]? = some (some o))
    (hclosed : o.handle = none) (n : Nat) :
    (List.replicate n (.call id .close)).foldl (step N) (run N ops) = run N ops := by
  have hrun : (o.run N .close).run (run N ops).log = (o, (run N ops).log) := by
    have hclose : o.run N .close = o.close := by
      cases o with
      | stream s => rfl
      | listener l => rfl
      | udp u => rfl
    rw [hclose]
    refine Object.close_of_closed hclosed fun impl himpl => ?_
    subst himpl
    exact family_of_closed hid hclosed
  induction n with
  | zero => rfl
  | succ n ih =>
      rw [List.replicate_succ, List.foldl_cons, step_call_of_run hid hrun]
      exact ih

end World

/-- **Unusable objects refuse, except that sending nothing succeeds.**  After any history,
an operation that owes an error because its object has no handle, or was moved from, is
refused with that error, without a native call and without a change, exactly if it is not
`send_all` of an empty span; and closing an object without a handle does nothing, however
often it is repeated. -/
theorem unusable_refuses_iff (N : Native) (ops : List Op) :
    let w := World.run N ops
    (∀ (op : Op) (code : ErrorCode), w.owes op = some code →
      (w.Refuses N op code ↔ ¬ ∃ id, op = .call id (.sendAll []))) ∧
    (∀ (id : Nat) (o : Object), w.objects[id]? = some (some o) → o.handle = none → ∀ n,
      (List.replicate n (.call id .close)).foldl (World.step N) w = w) := by
  intro w
  refine ⟨fun op code howes => ⟨?_, fun hne => ?_⟩, fun id o hid hclosed n =>
    World.close_of_closed hid hclosed n⟩
  · rintro hrefuses ⟨id, rfl⟩
    exact World.not_refuses_sendAll_nil hrefuses
  · cases op with
    | call id method => exact World.refuses_call howes fun hm => hne ⟨id, by rw [hm]⟩
    | accept id => exact World.refuses_accept howes
    | _ => cases howes

/-- After a move from a stream, `send` of nothing is refused there, `send_all` of nothing is
not, and closing it twice does nothing. -/
theorem unusable_refuses_iff_movedFrom :
    let w := World.run .obliging [.newStream {} {}, .moveConstruct 0]
    w.Refuses .obliging (.call 0 (.send [])) .notConnected ∧
      ¬ w.Refuses .obliging (.call 0 (.sendAll [])) .notConnected ∧
      (List.replicate 2 (.call 0 .close)).foldl (World.step .obliging) w = w := by
  obtain ⟨hrefuses, hclose⟩ :=
    unusable_refuses_iff .obliging [.newStream {} {}, .moveConstruct 0]
  refine ⟨(hrefuses _ _ rfl).2 (by simp), fun h => (hrefuses _ _ rfl).1 h ⟨0, rfl⟩, ?_⟩
  exact hclose 0 (.stream .movedFrom) rfl rfl 2

/-- A stream that was moved from has no socket, and yet reports that everything was sent. -/
theorem sendAll_nothing_succeeds :
    let w := World.run .obliging [.newStream {} {}, .moveConstruct 0]
    w.objects[0]? = some (some (.stream .movedFrom)) ∧
      w.owes (.call 0 (.sendAll [])) = some .notConnected ∧
      w.answer .obliging (.call 0 (.sendAll [])) = some (.ok ()) :=
  ⟨rfl, rfl, Object.answer_sendAll_nil .movedFrom⟩

end Transport
end Vosp
