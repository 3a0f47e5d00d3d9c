import MicroProtocol.Transport.Calls
import MicroProtocol.Transport.Invariants
import MicroProtocol.Transport.Sockets

/-!
# `TcpStream::reconnect` is bounded

A `reconnect` is a row of `connect` attempts with a pause after each one that
failed, except the last.  `schedule` says which attempts and pauses, `Performs`
that they are what was done: each attempt is a run of `connect`, each pause a
call of `sleep_for`, and nothing else happens.

* `backoff` — the length of the pauses, in closed form; the capped doubling of the
  source computes it (`backoff_succ`).
* `Ready` — a stored endpoint is valid and so are the options and the policy it
  was stored under; every method keeps it.
* `reconnectLoop_spec` — the loop, by induction on the attempts that are left.
* `reconnect_bounded` — `reconnect` on any stream a program can get hold of.

Native calls blame the caller's arguments only if there is something wrong with
them; that is `ReportsArguments`, and `Layer.reportsArguments` for the two files the
calls are in.
-/

namespace Vosp
namespace Transport

open Custody Detail Logged

/-- The result does not blame the caller's arguments. -/
def Blameless {α : Type} (r : Result α) : Prop := ∀ e, r = .error e → e.code ≠ .invalidArgument

theorem blameless_ok {α : Type} (a : α) : Blameless (.ok a) := by
  intro e he
  cases he

theorem blameless_error {α : Type} {e : Error} (h : e.code ≠ .invalidArgument) :
    Blameless (.error e : Result α) := by
  intro e' he
  cases he
  exact h

/-- The native layer reports `invalid_argument` for an invalid endpoint and for
invalid options, and in no other case. -/
structure ReportsArguments (N : Native) : Prop where
  resolve : ∀ log endpoint type passive, endpoint.valid = true →
    Blameless (N.resolve log endpoint type passive)
  createSocket : ∀ log address type, Blameless (N.createSocket log address type)
  applyOptions : ∀ log socket options, options.valid = true →
    Blameless (N.applyOptions log socket options)
  connectSocket : ∀ log socket address, Blameless (N.connectSocket log socket address)

theorem blameless_checked {α β : Type} {code : ErrorCode} (hcode : code ≠ .invalidArgument)
    (message : Int → String) (wrap : α → β) (r : Except Int α) :
    Blameless (checked code message wrap r) := by
  cases r with
  | error native => exact blameless_error hcode
  | ok a => exact blameless_ok _

/-- Starting the network may fail, but not because of an argument. -/
theorem Layer.blameless_after_init (layer : Layer) {α : Type} {r : Result α} (hr : Blameless r) :
    Blameless (layer.dialect.initializeNetwork >>= fun _ => r) := by
  cases hinit : layer.dialect.initializeNetwork with
  | error e =>
      refine blameless_error ?_
      rw [layer.initializeNetwork_code hinit]
      exact nofun
  | ok u => exact hr

theorem Sockets.blameless_setTimeout (d : Dialect) (sys : Sys) (log : Log) (socket : Handle)
    (option : OptionName) (timeout : Int) :
    Blameless (setTimeout d sys log socket option timeout) := by
  unfold setTimeout
  split_ifs
  · exact blameless_ok _
  · exact blameless_checked (by decide) _ _ _

/-- Both files check the arguments they are given, and blame nothing else on them. -/
theorem Layer.reportsArguments (layer : Layer) : ReportsArguments layer.native where
  resolve := by
    intro log endpoint type passive hvalid
    refine layer.blameless_after_init ?_
    rw [if_neg (by simp [hvalid])]
    dsimp only
    split
    · exact blameless_error (by nofun)
    · split_ifs
      · exact blameless_error (by nofun)
      · exact blameless_ok _
  createSocket := fun log address type =>
    layer.blameless_after_init (blameless_checked (by decide) _ _ _)
  applyOptions := by
    intro log socket options hvalid
    show Blameless (Sockets.applyOptions layer.dialect layer.sys log socket options)
    unfold Sockets.applyOptions
    rw [if_neg (by simp [hvalid])]
    have hreceive := Sockets.blameless_setTimeout layer.dialect layer.sys log socket
      .receiveTimeout options.receiveTimeout
    split
    · rename_i e heq
      exact blameless_error (hreceive e heq)
    · exact Sockets.blameless_setTimeout _ _ _ _ _ _
  connectSocket := fun log socket address => blameless_checked (by decide) _ _ _

/-! ## The pauses -/

namespace ReconnectPolicy

/-- The pause after attempt `k`, in exact integers. -/
def backoff (policy : ReconnectPolicy) (k : Nat) : Int :=
  min (policy.initialDelay * 2 ^ k) policy.maximumDelay

variable {policy : ReconnectPolicy}

theorem valid_iff : policy.valid = true ↔ 0 < policy.maxAttempts ∧
    policy.maxAttempts ≤ hardAttemptLimit ∧ 0 ≤ policy.initialDelay ∧
    policy.initialDelay ≤ policy.maximumDelay := by
  simp only [valid, Bool.and_eq_true, decide_eq_true_eq]
  tauto

theorem backoff_zero (h : policy.valid = true) : policy.backoff 0 = policy.initialDelay := by
  obtain ⟨-, -, -, hle⟩ := valid_iff.1 h
  rw [backoff, pow_zero, mul_one]
  exact min_eq_left hle

theorem scaled_nonneg (h : policy.valid = true) (k : Nat) : 0 ≤ policy.initialDelay * 2 ^ k := by
  obtain ⟨-, -, hnonneg, -⟩ := valid_iff.1 h
  exact mul_nonneg hnonneg (pow_nonneg (by decide) k)

/-- The capped doubling of the source. -/
theorem backoff_succ (h : policy.valid = true) (k : Nat) :
    min (policy.backoff k * 2) policy.maximumDelay = policy.backoff (k + 1) := by
  have hscaled := scaled_nonneg h k
  obtain ⟨-, -, hnonneg, hle⟩ := valid_iff.1 h
  rw [backoff, backoff, pow_succ, ← mul_assoc]
  omega

/-- A source that does not pause does not double either, and need not. -/
theorem backoff_succ_of_not_pos (h : policy.valid = true) {k : Nat} (hk : ¬ 0 < policy.backoff k) :
    policy.backoff (k + 1) = policy.backoff k := by
  have hscaled := scaled_nonneg h k
  obtain ⟨-, -, hnonneg, hle⟩ := valid_iff.1 h
  rw [backoff] at hk
  rw [backoff, backoff, pow_succ, ← mul_assoc]
  have hzero : policy.initialDelay = 0 := by
    by_contra hne
    have hpos : 0 < policy.initialDelay * 2 ^ k :=
      mul_pos (lt_of_le_of_ne hnonneg (Ne.symm hne)) (pow_pos (by decide) k)
    omega
  rw [hzero]
  omega

theorem backoff_le (policy : ReconnectPolicy) (k : Nat) : policy.backoff k ≤ policy.maximumDelay :=
  min_le_right _ _

theorem backoff_mono (h : policy.valid = true) (k : Nat) :
    policy.backoff k ≤ policy.backoff (k + 1) := by
  have hscaled := scaled_nonneg h k
  rw [backoff, backoff, pow_succ, ← mul_assoc]
  omega

end ReconnectPolicy

namespace TcpStream

/-! ## What a stored endpoint stands for -/

/-- The endpoint that `reconnect` goes back to. -/
def endpoint (s : TcpStream) : Option IpEndpoint := s.implementation.bind Impl.endpoint

/-- The conditions under which `connect` goes ahead. -/
structure Impl.Accepts (impl : Impl) (endpoint : IpEndpoint) : Prop where
  endpoint : endpoint.valid = true
  options : impl.options.valid = true
  policy : impl.reconnectPolicy.valid = true

/-- What is stored is in order. -/
def Ready (s : TcpStream) : Prop :=
  ∀ impl endpoint, s.implementation = some impl → impl.endpoint = some endpoint →
    impl.Accepts endpoint

variable {N : Native}

theorem Impl.Accepts.not_refused {impl : Impl} {endpoint : IpEndpoint} (h : impl.Accepts endpoint) :
    ¬ (endpoint.valid = false ∨ impl.options.valid = false ∨
      impl.reconnectPolicy.valid = false) := by
  simp [h.endpoint, h.options, h.policy]

theorem ready_movedFrom : Ready movedFrom := by
  intro impl endpoint himpl
  cases himpl

theorem ready_of_no_endpoint {impl : Impl} (h : impl.endpoint = none) : Ready ⟨some impl⟩ := by
  intro impl' endpoint himpl hendpoint
  cases himpl
  rw [h] at hendpoint
  cases hendpoint

theorem Ready.close {s : TcpStream} (h : s.Ready) : Returns s.close Ready := by
  obtain ⟨_ | impl⟩ := s
  · exact returns_pure h
  refine returns_bind fun _ => returns_pure ?_
  intro impl' endpoint himpl hendpoint
  cases himpl
  obtain ⟨hvalid, hoptions, hpolicy⟩ := h impl endpoint rfl hendpoint
  exact ⟨hvalid, hoptions, hpolicy⟩

theorem Ready.send {s : TcpStream} (h : s.Ready) (bytes : List UInt8) :
    Returns (s.send N bytes) (fun r => r.2.Ready) := by
  unfold TcpStream.send
  cases s.socket with
  | none => exact returns_pure h
  | some socket =>
      dsimp only
      split_ifs
      · exact returns_pure h
      refine returns_bind fun r => ?_
      cases r with
      | error e => exact h.close.bind fun s' h' => returns_pure h'
      | ok sent => exact returns_pure h

theorem Ready.sendAllFrom {s : TcpStream} (h : s.Ready) (bytes : List UInt8) (offset : Nat) :
    Returns (sendAllFrom N bytes offset s) (fun r => r.2.Ready) := by
  induction hleft : bytes.length - offset using Nat.strong_induction_on generalizing offset s with
  | _ left ih =>
      subst hleft
      unfold TcpStream.sendAllFrom
      split_ifs with hlt
      swap
      · exact returns_pure h
      refine (h.send (bytes.drop offset)).bind fun r hr => ?_
      obtain ⟨e | _ | sent, s'⟩ := r
      · exact returns_pure hr
      · exact hr.close.bind fun s'' h'' => returns_pure h''
      · exact ih _ (by omega) hr _ rfl

theorem Ready.receive {s : TcpStream} (h : s.Ready) (size : Nat) :
    Returns (s.receive N size) (fun r => r.2.Ready) := by
  unfold TcpStream.receive
  cases s.socket with
  | none => exact returns_pure h
  | some socket =>
      dsimp only
      split_ifs
      · exact returns_pure h
      refine returns_bind fun r => ?_
      obtain e | _ | ⟨byte, bytes⟩ := r
      · exact h.close.bind fun s' h' => returns_pure h'
      · exact h.close.bind fun s' h' => returns_pure h'
      · exact returns_pure h

/-! ## One attempt -/

/-- An attempt stores the endpoint, and the stream is connected if it succeeds and
not connected if it fails. -/
theorem returns_connect {impl : Impl} {endpoint : IpEndpoint} (h : impl.Accepts endpoint) :
    Returns (connect N endpoint ⟨some impl⟩) (fun r => ∃ socket : Option Handle,
      r.2 = ⟨some { impl with socket := socket, endpoint := some endpoint }⟩ ∧
      (r.1 = .ok () ↔ socket.isSome = true)) := by
  unfold connect
  dsimp only
  rw [if_neg h.not_refused]
  refine returns_bind fun _ => returns_bind fun r => ?_
  cases r with
  | error e => exact returns_pure ⟨none, rfl, by simp⟩
  | ok addresses =>
      refine returns_bind fun r => ?_
      rcases r with (_ | e) | ⟨socket, address⟩
      · exact returns_pure ⟨none, rfl, by simp [failure]⟩
      · exact returns_pure ⟨none, rfl, by simp⟩
      · exact returns_pure ⟨some socket, rfl, by simp⟩

theorem Ready.connect {s : TcpStream} (h : s.Ready) (endpoint : IpEndpoint) :
    Returns (s.connect N endpoint) (fun r => r.2.Ready) := by
  obtain ⟨_ | impl⟩ := s
  · exact returns_pure h
  by_cases haccepts : impl.Accepts endpoint
  · intro log
    obtain ⟨socket, hs, -⟩ := returns_connect (N := N) haccepts log
    rw [hs]
    intro impl' endpoint' himpl hendpoint
    cases himpl
    cases hendpoint
    exact ⟨haccepts.endpoint, haccepts.options, haccepts.policy⟩
  · unfold TcpStream.connect
    dsimp only
    rw [if_pos]
    · exact returns_pure h
    · by_contra hall
      simp only [not_or, Bool.not_eq_false] at hall
      exact haccepts ⟨hall.1, hall.2.1, hall.2.2⟩

theorem Ready.reconnectLoop {s : TcpStream} (h : s.Ready) (endpoint : IpEndpoint)
    (policy : ReconnectPolicy) (attempts : Nat) (delay : Int) (lastError : Option Error) :
    Returns (reconnectLoop N endpoint policy attempts delay lastError s) (fun r => r.2.Ready) := by
  induction attempts generalizing delay lastError s with
  | zero => exact returns_pure h
  | succ attempts ih =>
      unfold TcpStream.reconnectLoop
      refine (h.connect endpoint).bind fun r hr => ?_
      obtain ⟨e | u, s'⟩ := r
      · dsimp only
        split_ifs
        · exact returns_bind fun _ => ih hr _ _
        · exact ih hr _ _
      · exact returns_pure hr

theorem Ready.reconnect {s : TcpStream} (h : s.Ready) :
    Returns (s.reconnect N) (fun r => r.2.Ready) := by
  obtain ⟨_ | ⟨socket, options, policy, _ | endpoint⟩⟩ := s
  · exact returns_pure h
  · exact returns_pure h
  unfold TcpStream.reconnect
  dsimp only
  split_ifs
  · exact returns_pure h
  · exact h.reconnectLoop _ _ _ _ _

end TcpStream

/-- The invariant for objects of any class. -/
def Object.Ready : Object → Prop
  | .stream s => s.Ready
  | _ => True

theorem Object.Ready.run {N : Native} (method : Method) {o : Object} (h : o.Ready) :
    Returns (o.run N method) Object.Ready := by
  cases o with
  | stream s =>
      cases method with
      | connect endpoint => exact (TcpStream.Ready.connect h endpoint).bind fun r hr => returns_pure hr
      | reconnect => exact (TcpStream.Ready.reconnect h).bind fun r hr => returns_pure hr
      | send bytes => exact (TcpStream.Ready.send h bytes).bind fun r hr => returns_pure hr
      | sendAll bytes => exact (TcpStream.Ready.sendAllFrom h bytes 0).bind fun r hr => returns_pure hr
      | receive size => exact (TcpStream.Ready.receive h size).bind fun r hr => returns_pure hr
      | close => exact (TcpStream.Ready.close h).bind fun s' hs => returns_pure hs
      | _ => exact returns_pure h
  -- no method makes a stream of another object
  | listener l => cases method <;> exact fun log => trivial
  | udp u => cases method <;> exact fun log => trivial

/-- A stream that is accepted has no endpoint to go back to. -/
theorem TcpListener.ready_accept {N : Native} (l : TcpListener) :
    Returns (l.accept N) (fun r => ∀ s, r = .ok s → s.Ready) := by
  obtain ⟨_ | ⟨_ | socket, options⟩⟩ := l
  · exact returns_pure fun s hs => by cases hs
  · exact returns_pure fun s hs => by cases hs
  refine returns_bind fun r => ?_
  cases r with
  | error e => exact returns_pure fun s hs => by cases hs
  | ok accepted =>
      refine returns_bind fun r => ?_
      cases r with
      | error e => exact returns_bind fun _ => returns_pure fun s hs => by cases hs
      | ok u =>
          refine returns_pure fun s hs => ?_
          cases hs
          exact TcpStream.ready_of_no_endpoint rfl

/-- Whatever a program does, a stored endpoint is in order. -/
theorem ready_of_run {N : Native} {ops : List Op} {id : Nat} {s : TcpStream}
    (hid : (World.run N ops).objects[id]? = some (some (.stream s))) : s.Ready := by
  refine forall_object (N := N) (P := Object.Ready) (fun _ _ => ?_) (fun _ => trivial)
    (fun _ => trivial) (fun o => ?_) (fun method o h => h.run method)
    (fun l _ => l.ready_accept) hid
  · exact TcpStream.ready_of_no_endpoint rfl
  · cases o with
    | stream s => exact TcpStream.ready_movedFrom
    | listener l => trivial
    | udp u => trivial

namespace TcpStream

variable {N : Native}

/-! ## An attempt with valid arguments blames nobody -/

theorem blameless_prepare {socket : Handle} {steps : List (Handle → Net (Result Unit))}
    (hsteps : ∀ step ∈ steps, Returns (step socket) Blameless) :
    Returns (prepare socket steps) Blameless := by
  induction steps with
  | nil => exact returns_pure (blameless_ok ())
  | cons step steps ih =>
      unfold prepare
      refine (hsteps step (List.mem_cons_self ..)).bind fun r hr => ?_
      cases r with
      | error e => exact returns_pure (blameless_error (hr e rfl))
      | ok u => exact ih fun step' h => hsteps step' (List.mem_cons_of_mem _ h)

theorem blameless_openFirst (hN : ReportsArguments N) {type : SocketType}
    {steps : NativeAddress → List (Handle → Net (Result Unit))}
    (hsteps : ∀ address, ∀ step ∈ steps address, ∀ socket, Returns (step socket) Blameless)
    (addresses : List NativeAddress) {lastError : Option Error}
    (hlast : ∀ e, lastError = some e → e.code ≠ .invalidArgument) :
    Returns (openFirst N type steps addresses lastError)
      (fun r => ∀ e, r = .error (some e) → e.code ≠ .invalidArgument) := by
  induction addresses generalizing lastError with
  | nil =>
      refine returns_pure fun e he => ?_
      cases he
      exact hlast e rfl
  | cons address addresses ih =>
      unfold openFirst
      refine Returns.bind (P := Blameless)
        (returns_call fun log => hN.createSocket log address type) fun r hr => ?_
      cases r with
      | error e => exact ih fun e' he => by cases he; exact hr e rfl
      | ok socket =>
          refine (blameless_prepare fun step hs => hsteps address step hs socket).bind fun r hr => ?_
          cases r with
          | error e => exact returns_bind fun _ => ih fun e' he => by cases he; exact hr e rfl
          | ok u => exact returns_pure fun e he => by cases he

theorem blameless_connect (hN : ReportsArguments N) {impl : Impl} {endpoint : IpEndpoint}
    (h : impl.Accepts endpoint) :
    Returns (connect N endpoint ⟨some impl⟩) (fun r => Blameless r.1) := by
  unfold connect
  dsimp only
  rw [if_neg h.not_refused]
  refine returns_bind fun _ => ?_
  refine Returns.bind (P := Blameless)
    (returns_call fun log => hN.resolve log endpoint .stream false h.endpoint) fun r hr => ?_
  cases r with
  | error e => exact returns_pure (blameless_error (hr e rfl))
  | ok addresses =>
      refine (blameless_openFirst hN ?_ addresses fun e he => by cases he).bind fun r hr => ?_
      · intro address step hstep socket
        simp only [List.mem_cons, List.not_mem_nil, or_false] at hstep
        rcases hstep with rfl | rfl
        · exact returns_call fun log => hN.applyOptions log socket _ h.options
        · exact returns_call fun log => hN.connectSocket log socket address
      · rcases r with (_ | e) | ⟨socket, address⟩
        · exact returns_pure (blameless_error (by nofun))
        · exact returns_pure (blameless_error (hr e rfl))
        · exact returns_pure (blameless_ok ())

/-! ## The whole of a reconnect -/

/-- What `reconnect` does, step by step. -/
inductive Step where
  | attempt (result : Result Unit)
  | pause (delay : Int)

/-- The pause after attempt `k`, where the source makes one. -/
def pauseAfter (policy : ReconnectPolicy) (k : Nat) : List Step :=
  if 0 < policy.backoff k then [.pause (policy.backoff k)] else []

/-- The attempts with these results, from attempt `k` on, with a pause between any
two of them and none after the last. -/
def schedule (policy : ReconnectPolicy) (k : Nat) : List (Result Unit) → List Step
  | [] => []
  | [result] => [.attempt result]
  | result :: next :: results =>
      .attempt result :: (pauseAfter policy k ++ schedule policy (k + 1) (next :: results))

/-- The steps are what happens between the first state and the second: an attempt is
a run of `connect` that returns its result, a pause is one call of `sleep_for`. -/
inductive Performs (N : Native) (endpoint : IpEndpoint) :
    List Step → TcpStream × Log → TcpStream × Log → Prop where
  | done (state : TcpStream × Log) : Performs N endpoint [] state state
  | attempt {s s' : TcpStream} {log log' : Log} {result : Result Unit} {steps : List Step}
      {last : TcpStream × Log} (hconnect : (s.connect N endpoint).run log = ((result, s'), log'))
      (hrest : Performs N endpoint steps (s', log') last) :
      Performs N endpoint (.attempt result :: steps) (s, log) last
  | pause {s : TcpStream} {log : Log} {delay : Int} {steps : List Step} {last : TcpStream × Log}
      (hrest : Performs N endpoint steps (s, .sleepFor delay :: log) last) :
      Performs N endpoint (.pause delay :: steps) (s, log) last

/-- A run that ended as `out` and is made of attempts with these results, of which
`attempts` were allowed. -/
structure Course (N : Native) (impl : Impl) (endpoint : IpEndpoint) (k attempts : Nat) (log : Log)
    (out : (Result Unit × TcpStream) × Log) (results : List (Result Unit)) : Prop where
  performs : Performs N endpoint (schedule impl.reconnectPolicy k results) (⟨some impl⟩, log)
    (out.1.2, out.2)
  nonempty : results ≠ []
  bounded : results.length ≤ attempts
  blameless : ∀ result ∈ results, Blameless result
  /-- Only the last attempt may have succeeded. -/
  stops : ∀ result ∈ results.dropLast, result ≠ .ok ()
  success : out.1.1 = .ok () → results.getLast? = some (.ok ()) ∧ out.1.2.connected = true
  failure : ∀ e, out.1.1 = .error e → results.length = attempts ∧ out.1.2.connected = false ∧
    out.1.2 = ⟨some { impl with socket := none, endpoint := some endpoint }⟩ ∧
    ∃ last, results.getLast? = some (.error last) ∧
      e = ⟨.retryLimitExceeded, "TCP reconnect retry limit exceeded", last.nativeCode⟩

variable {impl : Impl} {endpoint : IpEndpoint} {k attempts : Nat} {log log' : Log} {e : Error}

theorem schedule_cons (policy : ReconnectPolicy) (k : Nat) (result : Result Unit)
    {results : List (Result Unit)} (h : results ≠ []) :
    schedule policy k (result :: results)
      = .attempt result :: (pauseAfter policy k ++ schedule policy (k + 1) results) := by
  cases results with
  | nil => exact absurd rfl h
  | cons next results => rfl

/-- The log after the pause that follows attempt `k`. -/
def afterPause (policy : ReconnectPolicy) (k : Nat) (log : Log) : Log :=
  if 0 < policy.backoff k then .sleepFor (policy.backoff k) :: log else log

theorem Performs.pauseAfter {policy : ReconnectPolicy} {s : TcpStream} {steps : List Step}
    {last : TcpStream × Log} (h : Performs N endpoint steps (s, afterPause policy k log) last) :
    Performs N endpoint (pauseAfter policy k ++ steps) (s, log) last := by
  unfold afterPause at h
  unfold TcpStream.pauseAfter
  split_ifs at h ⊢ with hpos
  · exact .pause h
  · exact h

theorem course_of_success {s : TcpStream} (hconnected : s.connected = true)
    (hconnect : (connect N endpoint ⟨some impl⟩).run log = ((.ok (), s), log')) :
    Course N impl endpoint k (attempts + 1) log ((.ok (), s), log') [.ok ()] where
  performs := .attempt hconnect (.done _)
  nonempty := List.cons_ne_nil _ _
  bounded := Nat.succ_le_succ (Nat.zero_le _)
  blameless := by
    intro result hresult
    rw [List.mem_singleton.1 hresult]
    exact blameless_ok ()
  stops := fun result hresult => by cases hresult
  success := fun _ => ⟨rfl, hconnected⟩
  failure := fun e he => by cases he

theorem course_of_last (hblame : e.code ≠ .invalidArgument)
    (hconnect : (connect N endpoint ⟨some impl⟩).run log
      = ((.error e, ⟨some { impl with socket := none, endpoint := some endpoint }⟩), log')) :
    Course N impl endpoint k 1 log
      ((Transport.failure .retryLimitExceeded "TCP reconnect retry limit exceeded" e.nativeCode,
        ⟨some { impl with socket := none, endpoint := some endpoint }⟩), log') [.error e] where
  performs := .attempt hconnect (.done _)
  nonempty := List.cons_ne_nil _ _
  bounded := le_rfl
  blameless := by
    intro result hresult
    rw [List.mem_singleton.1 hresult]
    exact blameless_error hblame
  stops := fun result hresult => by cases hresult
  success := fun h => by cases h
  failure := by
    intro e' he
    cases he
    exact ⟨rfl, rfl, rfl, e, rfl, rfl⟩

/-- An attempt that fails, and the rest of the run. -/
theorem Course.cons {out : (Result Unit × TcpStream) × Log} {results : List (Result Unit)}
    (hblame : e.code ≠ .invalidArgument)
    (hconnect : (connect N endpoint ⟨some impl⟩).run log
      = ((.error e, ⟨some { impl with socket := none, endpoint := some endpoint }⟩), log'))
    (h : Course N { impl with socket := none, endpoint := some endpoint } endpoint (k + 1) attempts
      (afterPause impl.reconnectPolicy k log') out results) :
    Course N impl endpoint k (attempts + 1) log out (.error e :: results) where
  performs := by
    rw [schedule_cons _ _ _ h.nonempty]
    exact .attempt hconnect h.performs.pauseAfter
  nonempty := List.cons_ne_nil _ _
  bounded := Nat.succ_le_succ h.bounded
  blameless := by
    intro result hresult
    rcases List.mem_cons.1 hresult with rfl | hresult
    · exact blameless_error hblame
    · exact h.blameless result hresult
  stops := by
    intro result hresult
    rw [List.dropLast_cons_of_ne_nil h.nonempty] at hresult
    rcases List.mem_cons.1 hresult with rfl | hresult
    · exact fun he => by cases he
    · exact h.stops result hresult
  success := by
    intro hok
    obtain ⟨hlast, hconnected⟩ := h.success hok
    rw [List.getLast?_cons_of_ne_nil h.nonempty]
    exact ⟨hlast, hconnected⟩
  failure := by
    intro e' he
    obtain ⟨hlength, hconnected, hs, hlast⟩ := h.failure e' he
    rw [List.getLast?_cons_of_ne_nil h.nonempty, List.length_cons, hlength]
    exact ⟨rfl, hconnected, hs, hlast⟩

/-- The two ways an attempt can end. -/
theorem run_connect_cases (hN : ReportsArguments N) (h : impl.Accepts endpoint) (log : Log) :
    (∃ socket log', (connect N endpoint ⟨some impl⟩).run log
      = ((.ok (), ⟨some { impl with socket := some socket, endpoint := some endpoint }⟩), log')) ∨
    ∃ e log', e.code ≠ .invalidArgument ∧ (connect N endpoint ⟨some impl⟩).run log
      = ((.error e, ⟨some { impl with socket := none, endpoint := some endpoint }⟩), log') := by
  obtain ⟨socket, hs, hok⟩ := returns_connect (N := N) h log
  have hblame := blameless_connect hN h log
  rcases hconnect : (connect N endpoint ⟨some impl⟩).run log with ⟨⟨e | u, s⟩, log'⟩
  · rw [hconnect] at hs hok hblame
    obtain rfl : socket = none := by simpa using hok
    subst hs
    exact .inr ⟨e, log', hblame e rfl, rfl⟩
  · rw [hconnect] at hs hok
    obtain ⟨socket, rfl⟩ := Option.isSome_iff_exists.1 (hok.1 rfl)
    subst hs
    exact .inl ⟨socket, log', rfl⟩

/-- The pause of the source and its new delay, which is the next `backoff`. -/
theorem run_pause (h : impl.reconnectPolicy.valid = true) (attempts k : Nat) (s : TcpStream)
    (log : Log) :
    (if attempts + 1 > 0 ∧ impl.reconnectPolicy.backoff k > 0 then do
        sleepFor (impl.reconnectPolicy.backoff k)
        reconnectLoop N endpoint impl.reconnectPolicy (attempts + 1)
          (min (impl.reconnectPolicy.backoff k * 2) impl.reconnectPolicy.maximumDelay) (some e) s
      else reconnectLoop N endpoint impl.reconnectPolicy (attempts + 1)
        (impl.reconnectPolicy.backoff k) (some e) s).run log
      = (reconnectLoop N endpoint impl.reconnectPolicy (attempts + 1)
          (impl.reconnectPolicy.backoff (k + 1)) (some e) s).run
          (afterPause impl.reconnectPolicy k log) := by
  unfold afterPause
  by_cases hpos : 0 < impl.reconnectPolicy.backoff k
  · rw [if_pos ⟨Nat.succ_pos _, hpos⟩, if_pos hpos, ReconnectPolicy.backoff_succ h]
    rfl
  · rw [if_neg fun hboth => hpos hboth.2, if_neg hpos,
      ReconnectPolicy.backoff_succ_of_not_pos h hpos]

/-- **The loop of `reconnect`**, with at least one attempt left and the delay at
`backoff k`. -/
theorem reconnectLoop_spec (hN : ReportsArguments N) (attempts : Nat) (impl : Impl)
    (h : impl.Accepts endpoint) (k : Nat) (lastError : Option Error) (log : Log) :
    ∃ results, Course N impl endpoint k (attempts + 1) log
      ((reconnectLoop N endpoint impl.reconnectPolicy (attempts + 1)
        (impl.reconnectPolicy.backoff k) lastError ⟨some impl⟩).run log) results := by
  induction attempts generalizing impl k lastError log with
  | zero =>
      rw [reconnectLoop, run_bind]
      obtain ⟨socket, log', hconnect⟩ | ⟨e, log', hblame, hconnect⟩ := run_connect_cases hN h log
      · rw [hconnect]
        exact ⟨_, course_of_success rfl hconnect⟩
      · rw [hconnect]
        exact ⟨_, course_of_last hblame hconnect⟩
  | succ attempts ih =>
      rw [reconnectLoop, run_bind]
      obtain ⟨socket, log', hconnect⟩ | ⟨e, log', hblame, hconnect⟩ := run_connect_cases hN h log
      · rw [hconnect]
        exact ⟨_, course_of_success rfl hconnect⟩
      · rw [hconnect]
        dsimp only
        rw [run_pause h.policy]
        obtain ⟨results, hrest⟩ := ih { impl with socket := none, endpoint := some endpoint }
          ⟨h.endpoint, h.options, h.policy⟩ (k + 1) (some e)
          (afterPause impl.reconnectPolicy k log')
        exact ⟨_, hrest.cons hblame hconnect⟩

/-- The pauses of a log, newest first. -/
def slept (log : Log) : List Int :=
  log.filterMap fun
    | .sleepFor delay => some delay
    | _ => none

theorem slept_plain {e : Event} (he : e.plain = true) (log : Log) : slept (e :: log) = slept log := by
  cases e
  case sleepFor => cases he
  all_goals rfl

/-- An attempt does not sleep. -/
theorem slept_connect (endpoint : IpEndpoint) (s : TcpStream) (log : Log) :
    slept ((s.connect N endpoint).run log).2 = slept log := by
  have hmakes := makes_connect (N := N) (A := fun e => e.plain = true) (fun _ h => h) endpoint s
  refine hmakes.keeps (K := fun log' => slept log' = slept log) (fun e log' he hlog => ?_) log rfl
  rw [slept_plain he, hlog]

/-- **Bounded reconnect.**  Take either file below the transport, on any operating
system, any stream of any program, and any log.

If an endpoint is stored, it is valid and so are the options and the policy.  Then
`reconnect` makes between one and `max_attempts` attempts, `max_attempts` is at most
1024, and no attempt fails with `invalid_argument`.  It stops at the first success,
pauses once between attempts and not after the last, and pause `k` is `backoff k`,
which does not decrease with `k` and is never above `maximum_delay`; the attempts
themselves do not sleep.  On success the stream is connected.  On failure all
attempts were made, the error is `retry_limit_exceeded` with the native code of the
last one, and the stream is not connected but otherwise as it was, with its
endpoint.

If no endpoint is stored, it fails with `not_connected` and changes nothing. -/
theorem reconnect_bounded (layer : Layer) {ops : List Op} {id : Nat} {s : TcpStream}
    (hid : (World.run layer.native ops).objects[id]? = some (some (.stream s))) :
    (∀ impl endpoint, s.implementation = some impl → impl.endpoint = some endpoint →
      endpoint.valid = true ∧ impl.options.valid = true ∧ impl.reconnectPolicy.valid = true ∧
      impl.reconnectPolicy.maxAttempts ≤ 1024 ∧
      (∀ k, impl.reconnectPolicy.backoff k ≤ impl.reconnectPolicy.backoff (k + 1) ∧
        impl.reconnectPolicy.backoff k ≤ impl.reconnectPolicy.maximumDelay) ∧
      ∀ log, ∃ results, Course layer.native impl endpoint 0 impl.reconnectPolicy.maxAttempts log
        ((s.reconnect layer.native).run log) results) ∧
    (s.endpoint = none → ∀ log, (s.reconnect layer.native).run log
      = ((failure .notConnected "TCP reconnect requires a previous endpoint", s), log)) ∧
    ∀ endpoint (s' : TcpStream) log, slept ((s'.connect layer.native endpoint).run log).2 = slept log := by
  have hready := ready_of_run hid
  refine ⟨?_, ?_, slept_connect⟩
  · intro impl endpoint himpl hendpoint
    have haccepts := hready impl endpoint himpl hendpoint
    obtain ⟨hpos, hlimit, -, -⟩ := ReconnectPolicy.valid_iff.1 haccepts.policy
    refine ⟨haccepts.endpoint, haccepts.options, haccepts.policy, hlimit, fun k => ?_, fun log => ?_⟩
    · exact ⟨ReconnectPolicy.backoff_mono haccepts.policy k, ReconnectPolicy.backoff_le _ k⟩
    · obtain ⟨s⟩ := s
      cases himpl
      have hattempts : impl.reconnectPolicy.maxAttempts - 1 + 1 = impl.reconnectPolicy.maxAttempts := by
        omega
      have hspec := reconnectLoop_spec layer.reportsArguments
        (impl.reconnectPolicy.maxAttempts - 1) impl haccepts 0 none log
      rw [hattempts, ReconnectPolicy.backoff_zero haccepts.policy] at hspec
      unfold reconnect
      simp only [hendpoint, haccepts.policy, Bool.true_eq_false, if_false]
      exact hspec
  · intro hnone log
    obtain ⟨_ | ⟨socket, options, policy, _ | endpoint⟩⟩ := s
    · rfl
    · rfl
    · cases hnone

/-- An operating system on which every connection is refused. -/
def refusing : Layer := .posix { Sys.obliging with connect := fun _ _ _ => .error 111 }

theorem reconnect_bounded_refused : ∃ s,
    (World.run refusing.native [.newStream {} {}, .call 0 (.connect ⟨"peer", 80⟩)]).objects[0]?
      = some (some (.stream s)) ∧
    ∀ log, ∃ results, Course refusing.native { endpoint := some ⟨"peer", 80⟩ } ⟨"peer", 80⟩ 0 3 log
      ((s.reconnect refusing.native).run log) results := by
  have hid : (World.run refusing.native
      [.newStream {} {}, .call 0 (.connect ⟨"peer", 80⟩)]).objects[0]?
      = some (some (.stream ⟨some { endpoint := some ⟨"peer", 80⟩ }⟩)) := rfl
  refine ⟨_, hid, ?_⟩
  obtain ⟨hstored, -, -⟩ := reconnect_bounded refusing hid
  obtain ⟨-, -, -, -, -, hcourse⟩ := hstored _ ⟨"peer", 80⟩ rfl rfl
  exact hcourse

end TcpStream

end Transport
end Vosp
