import MicroProtocol.Lib.Relational
import MicroProtocol.Transport.World

/-!
# Native layers that are alike

The transport hands on the errors of the native layer, and makes its decisions on whether a
call failed, never on the text or the native code of an error.  It passes handles and
addresses on without looking into them; only the families of two addresses are compared.  So
for two native layers to be alike they may number their handles and lay out their addresses
differently.

* `AlikeBy`, `Alike` — related values or errors of the same code.
* `Partners` — a handle corresponds to the one that the same native call has opened on the
  other side.  How addresses correspond is a parameter, `same`.
* `Event.Alike`, `Log.Alike`, `Native.Alike` — calls, logs and native layers.
* `sim_…` — one lemma for every native call, and for the address loop.
-/

namespace Vosp
namespace Transport

open Detail Relational

/-! ## Results, calls and native layers -/

/-- Values that are related by `V`, or errors of the same code. -/
inductive AlikeBy {α : Type} (V : α → α → Prop) : Result α → Result α → Prop where
  | ok {a b : α} (h : V a b) : AlikeBy V (.ok a) (.ok b)
  | error {e e' : Error} (hcode : e.code = e'.code) : AlikeBy V (.error e) (.error e')

/-- The same value, or errors of the same code. -/
abbrev Alike {α : Type} : Result α → Result α → Prop := AlikeBy Eq

theorem AlikeBy.refl {α : Type} (r : Result α) : Alike r r := by
  cases r with
  | error e => exact .error rfl
  | ok a => exact .ok rfl

/-- The handles that correspond after two logs: opened by the same call, and not closed. -/
abbrev Partners (log log' : Log) : Handle → Handle → Prop := Partner Event.access log log'

/-- The same call on handles and addresses that correspond, with answers that are alike.  The
handles that a call opens need not be related, they become partners. -/
inductive Event.Alike (same : NativeAddress → NativeAddress → Prop)
    (partner : Handle → Handle → Prop) : Event → Event → Prop where
  | resolve {endpoint type passive r r'} (h : AlikeBy (List.Forall₂ same) r r') :
      Alike same partner (.resolve endpoint type passive r) (.resolve endpoint type passive r')
  | toEndpoint {address address' r r'} (ha : same address address') (h : Transport.Alike r r') :
      Alike same partner (.toEndpoint address r) (.toEndpoint address' r')
  | createSocket {address address' type r r'} (ha : same address address')
      (h : AlikeBy (fun _ _ => True) r r') :
      Alike same partner (.createSocket address type r) (.createSocket address' type r')
  | applyOptions {socket socket' options r r'} (hs : partner socket socket')
      (h : Transport.Alike r r') :
      Alike same partner (.applyOptions socket options r) (.applyOptions socket' options r')
  | setReuseAddress {socket socket' r r'} (hs : partner socket socket')
      (h : Transport.Alike r r') :
      Alike same partner (.setReuseAddress socket r) (.setReuseAddress socket' r')
  | connectSocket {socket socket' address address' r r'} (hs : partner socket socket')
      (ha : same address address') (h : Transport.Alike r r') :
      Alike same partner (.connectSocket socket address r) (.connectSocket socket' address' r')
  | bindSocket {socket socket' address address' r r'} (hs : partner socket socket')
      (ha : same address address') (h : Transport.Alike r r') :
      Alike same partner (.bindSocket socket address r) (.bindSocket socket' address' r')
  | listenSocket {socket socket' backlog r r'} (hs : partner socket socket')
      (h : Transport.Alike r r') :
      Alike same partner (.listenSocket socket backlog r) (.listenSocket socket' backlog r')
  | acceptSocket {socket socket' r r'} (hs : partner socket socket')
      (h : AlikeBy (fun a a' => same a.remote a'.remote) r r') :
      Alike same partner (.acceptSocket socket r) (.acceptSocket socket' r')
  | localAddress {socket socket' r r'} (hs : partner socket socket') (h : AlikeBy same r r') :
      Alike same partner (.localAddress socket r) (.localAddress socket' r')
  | sendSocket {socket socket' bytes r r'} (hs : partner socket socket')
      (h : Transport.Alike r r') :
      Alike same partner (.sendSocket socket bytes r) (.sendSocket socket' bytes r')
  | receiveSocket {socket socket' size r r'} (hs : partner socket socket')
      (h : Transport.Alike r r') :
      Alike same partner (.receiveSocket socket size r) (.receiveSocket socket' size r')
  | sendDatagram {socket socket' address address' payload r r'} (hs : partner socket socket')
      (ha : same address address') (h : Transport.Alike r r') :
      Alike same partner (.sendDatagram socket address payload r)
        (.sendDatagram socket' address' payload r')
  | receiveDatagram {socket socket' size r r'} (hs : partner socket socket')
      (h : AlikeBy (fun d d' => same d.remote d'.remote ∧ d.payload = d'.payload) r r') :
      Alike same partner (.receiveDatagram socket size r) (.receiveDatagram socket' size r')
  | shutdown {socket socket'} (hs : partner socket socket') :
      Alike same partner (.shutdown socket) (.shutdown socket')
  | close {socket socket'} (hs : partner socket socket') :
      Alike same partner (.close socket) (.close socket')
  | sleepFor (delay : Int) : Alike same partner (.sleepFor delay) (.sleepFor delay)

/-- The same calls in the same order, each on what corresponded at the time. -/
inductive Log.Alike (same : NativeAddress → NativeAddress → Prop) : Log → Log → Prop where
  | nil : Alike same [] []
  | cons {e e' log log'} (he : e.Alike same (Partners log log') e') (hlog : Alike same log log') :
      Alike same (e :: log) (e' :: log')

theorem Log.Alike.length_eq {same : NativeAddress → NativeAddress → Prop} {log log' : Log}
    (h : Log.Alike same log log') : log.length = log'.length := by
  induction h with
  | nil => rfl
  | cons _ _ ih => exact congrArg (· + 1) ih

/-- After logs that are alike, the native layers answer alike, and they tell families apart
alike. -/
structure Native.Alike (same : NativeAddress → NativeAddress → Prop) (N N' : Native) : Prop where
  family : ∀ {a a' b b'}, same a a' → same b b' → (a.family = b.family ↔ a'.family = b'.family)
  resolve : ∀ {log log'}, Log.Alike same log log' → ∀ endpoint type passive,
    AlikeBy (List.Forall₂ same) (N.resolve log endpoint type passive)
      (N'.resolve log' endpoint type passive)
  toEndpoint : ∀ {log log' a a'}, Log.Alike same log log' → same a a' →
    Transport.Alike (N.toEndpoint log a) (N'.toEndpoint log' a')
  createSocket : ∀ {log log' a a'}, Log.Alike same log log' → same a a' → ∀ type,
    AlikeBy (fun _ _ => True) (N.createSocket log a type) (N'.createSocket log' a' type)
  applyOptions : ∀ {log log' s s'}, Log.Alike same log log' → Partners log log' s s' →
    ∀ options, Transport.Alike (N.applyOptions log s options) (N'.applyOptions log' s' options)
  setReuseAddress : ∀ {log log' s s'}, Log.Alike same log log' → Partners log log' s s' →
    Transport.Alike (N.setReuseAddress log s) (N'.setReuseAddress log' s')
  connectSocket : ∀ {log log' s s' a a'}, Log.Alike same log log' → Partners log log' s s' →
    same a a' → Transport.Alike (N.connectSocket log s a) (N'.connectSocket log' s' a')
  bindSocket : ∀ {log log' s s' a a'}, Log.Alike same log log' → Partners log log' s s' →
    same a a' → Transport.Alike (N.bindSocket log s a) (N'.bindSocket log' s' a')
  listenSocket : ∀ {log log' s s'}, Log.Alike same log log' → Partners log log' s s' →
    ∀ backlog, Transport.Alike (N.listenSocket log s backlog) (N'.listenSocket log' s' backlog)
  acceptSocket : ∀ {log log' s s'}, Log.Alike same log log' → Partners log log' s s' →
    AlikeBy (fun a a' => same a.remote a'.remote) (N.acceptSocket log s) (N'.acceptSocket log' s')
  localAddress : ∀ {log log' s s'}, Log.Alike same log log' → Partners log log' s s' →
    AlikeBy same (N.localAddress log s) (N'.localAddress log' s')
  sendSocket : ∀ {log log' s s'}, Log.Alike same log log' → Partners log log' s s' →
    ∀ bytes, Transport.Alike (N.sendSocket log s bytes) (N'.sendSocket log' s' bytes)
  receiveSocket : ∀ {log log' s s'}, Log.Alike same log log' → Partners log log' s s' →
    ∀ size, Transport.Alike (N.receiveSocket log s size) (N'.receiveSocket log' s' size)
  sendDatagram : ∀ {log log' s s' a a'}, Log.Alike same log log' → Partners log log' s s' →
    same a a' → ∀ payload,
    Transport.Alike (N.sendDatagram log s a payload) (N'.sendDatagram log' s' a' payload)
  receiveDatagram : ∀ {log log' s s'}, Log.Alike same log log' → Partners log log' s s' →
    ∀ size, AlikeBy (fun d d' => same d.remote d'.remote ∧ d.payload = d'.payload)
      (N.receiveDatagram log s size) (N'.receiveDatagram log' s' size)

/-! ## The native calls in step -/

/-- The logs have grown alike, and no partners have been parted. -/
structure Onward (same : NativeAddress → NativeAddress → Prop) (log log' next next' : Log) :
    Prop where
  logs : Log.Alike same next next'
  partner : ∀ {h h'}, Partners log log' h h' → Partners next next' h h'

/-- The answers are alike, and all partners remain. -/
def Replied {α : Type} (same : NativeAddress → NativeAddress → Prop) (log log' : Log)
    (V : α → α → Prop) (r r' : Result α) (next next' : Log) : Prop :=
  AlikeBy V r r' ∧ Onward same log log' next next'

/-- What a call opened on both sides: partners that none of the earlier ones are. -/
structure Newcomers (log log' next next' : Log) (h h' : Handle) : Prop where
  partner : Partners next next' h h'
  apart : ∀ {g g'}, Partners log log' g g' → g ≠ h ∧ g' ≠ h'

section Calls

variable {same : NativeAddress → NativeAddress → Prop} {log log' next next' : Log}

theorem Onward.trans {last last' : Log} (h : Onward same log log' next next')
    (h' : Onward same next next' last last') : Onward same log log' last last' :=
  ⟨h'.logs, fun hp => h'.partner (h.partner hp)⟩

variable (hlog : Log.Alike same log log')

include hlog

/-- A call that opens and closes nothing. -/
theorem Onward.cons {e e' : Event} (he : e.Alike same (Partners log log') e')
    (hstill : e.access.opens = none ∧ e.access.closes = none)
    (hstill' : e'.access.opens = none ∧ e'.access.closes = none) :
    Onward same log log' (e :: log) (e' :: log') := by
  refine ⟨.cons he hlog, fun hp => hp.cons ?_ ?_ ?_ ?_⟩
  · simp [hstill.1]
  · simp [hstill.2]
  · simp [hstill'.1]
  · simp [hstill'.2]

theorem sim_still {α : Type} {V : α → α → Prop} {f f' : Log → Result α × Event}
    (hvalue : AlikeBy V (f log).1 (f' log').1)
    (hevent : (f log).2.Alike same (Partners log log') (f' log').2)
    (hstill : (f log).2.access.opens = none ∧ (f log).2.access.closes = none)
    (hstill' : (f' log').2.access.opens = none ∧ (f' log').2.access.closes = none) :
    Sim log log' (Custody.call f) (Custody.call f') (Replied same log log' V) :=
  sim_call ⟨hvalue, .cons hlog hevent hstill hstill'⟩

/-- Only the socket that is closed loses its partner. -/
theorem sim_closeSocket {socket socket' : Option Handle}
    (hs : Option.Rel (Partners log log') socket socket') :
    Sim log log' (closeSocket socket) (closeSocket socket')
      (fun _ _ next next' => Log.Alike same next next' ∧ ∀ {h h'}, Partners log log' h h' →
        socket ≠ some h → socket' ≠ some h' → Partners next next' h h') := by
  cases hs with
  | none => exact sim_pure ⟨hlog, fun hp _ _ => hp⟩
  | @some socket socket' hs =>
      refine Sim.bind (Q := fun _ _ next next' => Onward same log log' next next') ?_ ?_
      · exact sim_call (.cons hlog (.shutdown hs) ⟨rfl, rfl⟩ ⟨rfl, rfl⟩)
      · intro _ _ next next' honward
        refine sim_call ⟨.cons (.close (honward.partner hs)) honward.logs, fun hp hne hne' => ?_⟩
        exact (honward.partner hp).cons (by simp [Event.access]) hne (by simp [Event.access]) hne'

theorem sim_sleepFor (delay : Int) :
    Sim log log' (sleepFor delay) (sleepFor delay)
      (fun _ _ next next' => Onward same log log' next next') :=
  sim_call (.cons hlog (.sleepFor delay) ⟨rfl, rfl⟩ ⟨rfl, rfl⟩)

variable {N N' : Native} (h : N.Alike same N')

include h

theorem sim_resolve (endpoint : IpEndpoint) (type : SocketType) (passive : Bool) :
    Sim log log' (resolve N endpoint type passive) (resolve N' endpoint type passive)
      (Replied same log log' (List.Forall₂ same)) :=
  have hr := h.resolve hlog endpoint type passive
  sim_still hlog hr (.resolve hr) ⟨rfl, rfl⟩ ⟨rfl, rfl⟩

theorem sim_toEndpoint {address address' : NativeAddress} (ha : same address address') :
    Sim log log' (toEndpoint N address) (toEndpoint N' address') (Replied same log log' Eq) :=
  have hr := h.toEndpoint hlog ha
  sim_still hlog hr (.toEndpoint ha hr) ⟨rfl, rfl⟩ ⟨rfl, rfl⟩

theorem sim_createSocket {address address' : NativeAddress} (ha : same address address')
    (type : SocketType) :
    Sim log log' (createSocket N address type) (createSocket N' address' type)
      (fun r r' next next' => Log.Alike same next next' ∧ AlikeBy (Partners next next') r r') := by
  have hr := h.createSocket hlog ha type
  refine sim_call ⟨.cons (.createSocket ha hr) hlog, ?_⟩
  dsimp only
  revert hr
  generalize N.createSocket log address type = r
  generalize N'.createSocket log' address' type = r'
  intro hr
  cases hr with
  | error hcode => exact .error hcode
  | ok _ => exact .ok (partner_of_opens hlog.length_eq rfl rfl)

variable {socket socket' : Handle} (hs : Partners log log' socket socket')

include hs

theorem sim_applyOptions (options : IoOptions) :
    Sim log log' (applyOptions N options socket) (applyOptions N' options socket')
      (Replied same log log' Eq) :=
  have hr := h.applyOptions hlog hs options
  sim_still hlog hr (.applyOptions hs hr) ⟨rfl, rfl⟩ ⟨rfl, rfl⟩

theorem sim_setReuseAddress :
    Sim log log' (setReuseAddress N socket) (setReuseAddress N' socket')
      (Replied same log log' Eq) :=
  have hr := h.setReuseAddress hlog hs
  sim_still hlog hr (.setReuseAddress hs hr) ⟨rfl, rfl⟩ ⟨rfl, rfl⟩

theorem sim_connectSocket {address address' : NativeAddress} (ha : same address address') :
    Sim log log' (connectSocket N address socket) (connectSocket N' address' socket')
      (Replied same log log' Eq) :=
  have hr := h.connectSocket hlog hs ha
  sim_still hlog hr (.connectSocket hs ha hr) ⟨rfl, rfl⟩ ⟨rfl, rfl⟩

theorem sim_bindSocket {address address' : NativeAddress} (ha : same address address') :
    Sim log log' (bindSocket N address socket) (bindSocket N' address' socket')
      (Replied same log log' Eq) :=
  have hr := h.bindSocket hlog hs ha
  sim_still hlog hr (.bindSocket hs ha hr) ⟨rfl, rfl⟩ ⟨rfl, rfl⟩

theorem sim_listenSocket (backlog : Int) :
    Sim log log' (listenSocket N backlog socket) (listenSocket N' backlog socket')
      (Replied same log log' Eq) :=
  have hr := h.listenSocket hlog hs backlog
  sim_still hlog hr (.listenSocket hs hr) ⟨rfl, rfl⟩ ⟨rfl, rfl⟩

/-- The accepted sockets are new on both sides, so the partners of before remain. -/
theorem sim_acceptSocket :
    Sim log log' (acceptSocket N socket) (acceptSocket N' socket')
      (fun r r' next next' => Onward same log log' next next' ∧
        AlikeBy (fun a a' => Newcomers log log' next next' a.socket a'.socket) r r') := by
  have hr := h.acceptSocket hlog hs
  have hfresh := @N.accept_fresh log socket
  have hfresh' := @N'.accept_fresh log' socket'
  unfold acceptSocket
  refine sim_call ?_
  dsimp only
  revert hr hfresh hfresh'
  generalize N.acceptSocket log socket = r
  generalize N'.acceptSocket log' socket' = r'
  intro hr hfresh hfresh'
  have hevent : Event.Alike same (Partners log log') (.acceptSocket socket r)
      (.acceptSocket socket' r') := .acceptSocket hs hr
  cases hr with
  | error hcode => exact ⟨.cons hlog hevent ⟨rfl, rfl⟩ ⟨rfl, rfl⟩, .error hcode⟩
  | @ok accepted accepted' _ =>
      have hapart : ∀ {g g'}, Partners log log' g g' →
          g ≠ accepted.socket ∧ g' ≠ accepted'.socket := by
        intro g g' hp
        obtain ⟨hg, hg'⟩ := hp.mem_held
        exact ⟨fun heq => hfresh rfl (heq ▸ hg), fun heq => hfresh' rfl (heq ▸ hg')⟩
      refine ⟨⟨.cons hevent hlog, fun hp => ?_⟩, .ok ⟨partner_of_opens hlog.length_eq rfl rfl, hapart⟩⟩
      obtain ⟨hne, hne'⟩ := hapart hp
      exact hp.cons (by simp [Event.access, hne.symm]) (by simp [Event.access])
        (by simp [Event.access, hne'.symm]) (by simp [Event.access])

theorem sim_localAddress :
    Sim log log' (localAddress N socket) (localAddress N' socket')
      (Replied same log log' same) :=
  have hr := h.localAddress hlog hs
  sim_still hlog hr (.localAddress hs hr) ⟨rfl, rfl⟩ ⟨rfl, rfl⟩

theorem sim_sendSocket (bytes : List UInt8) :
    Sim log log' (sendSocket N socket bytes) (sendSocket N' socket' bytes)
      (Replied same log log' Eq) :=
  have hr := h.sendSocket hlog hs bytes
  sim_still hlog hr (.sendSocket hs hr) ⟨rfl, rfl⟩ ⟨rfl, rfl⟩

theorem sim_receiveSocket (size : Nat) :
    Sim log log' (receiveSocket N socket size) (receiveSocket N' socket' size)
      (Replied same log log' Eq) :=
  have hr := h.receiveSocket hlog hs size
  sim_still hlog hr (.receiveSocket hs hr) ⟨rfl, rfl⟩ ⟨rfl, rfl⟩

theorem sim_sendDatagram {address address' : NativeAddress} (ha : same address address')
    (payload : List UInt8) :
    Sim log log' (sendDatagram N socket address payload) (sendDatagram N' socket' address' payload)
      (Replied same log log' Eq) :=
  have hr := h.sendDatagram hlog hs ha payload
  sim_still hlog hr (.sendDatagram hs ha hr) ⟨rfl, rfl⟩ ⟨rfl, rfl⟩

theorem sim_receiveDatagram (size : Nat) :
    Sim log log' (receiveDatagram N socket size) (receiveDatagram N' socket' size)
      (Replied same log log' fun d d' => same d.remote d'.remote ∧ d.payload = d'.payload) :=
  have hr := h.receiveDatagram hlog hs size
  sim_still hlog hr (.receiveDatagram hs hr) ⟨rfl, rfl⟩ ⟨rfl, rfl⟩

/-- Asking for the address of a socket, as both `local_endpoint`s do. -/
theorem sim_addressOf :
    Sim log log'
      (do
        match ← localAddress N socket with
        | .error e => pure (.error e)
        | .ok address => toEndpoint N address)
      (do
        match ← localAddress N' socket' with
        | .error e => pure (.error e)
        | .ok address => toEndpoint N' address) (Replied same log log' Eq) := by
  refine (sim_localAddress hlog h hs).bind ?_
  rintro r r' next next' ⟨hr, honward⟩
  cases hr with
  | error hcode => exact sim_pure ⟨.error hcode, honward⟩
  | ok ha =>
      obtain ⟨hr, honward'⟩ := sim_toEndpoint honward.logs h ha
      exact ⟨hr, honward.trans honward'⟩

end Calls

/-! ## The address loop -/

/-- The address loop ended with sockets and addresses that correspond, or with last errors of
the same code. -/
inductive OpenedAlike (same : NativeAddress → NativeAddress → Prop)
    (partner : Handle → Handle → Prop) : Except (Option Error) (Handle × NativeAddress) →
    Except (Option Error) (Handle × NativeAddress) → Prop where
  | ok {socket socket' address address'} (hs : partner socket socket')
      (ha : same address address') :
      OpenedAlike same partner (.ok (socket, address)) (.ok (socket', address'))
  | none : OpenedAlike same partner (.error none) (.error none)
  | some {e e' : Error} (hcode : e.code = e'.code) :
      OpenedAlike same partner (.error (some e)) (.error (some e'))

/-- The last errors of two loops. -/
def LastAlike : Option Error → Option Error → Prop := Option.Rel fun e e' => e.code = e'.code

/-- Steps that keep in step. -/
def StepsAlike (same : NativeAddress → NativeAddress → Prop)
    (steps steps' : List (Handle → Net (Result Unit))) : Prop :=
  List.Forall₂ (fun step step' => ∀ {log log' socket socket'}, Log.Alike same log log' →
    Partners log log' socket socket' →
    Sim log log' (step socket) (step' socket') (Replied same log log' Eq)) steps steps'

section AddressLoop

variable {same : NativeAddress → NativeAddress → Prop} {log log' : Log}
  (hlog : Log.Alike same log log')

include hlog

theorem sim_prepare {steps steps' : List (Handle → Net (Result Unit))}
    (hsteps : StepsAlike same steps steps') {socket socket' : Handle}
    (hs : Partners log log' socket socket') :
    Sim log log' (prepare socket steps) (prepare socket' steps')
      (fun r r' next next' => Alike r r' ∧ Log.Alike same next next' ∧
        Partners next next' socket socket') := by
  induction hsteps generalizing log log' with
  | nil => exact sim_pure ⟨.ok rfl, hlog, hs⟩
  | cons hstep _ ih =>
      unfold prepare
      refine (hstep hlog hs).bind ?_
      rintro r r' next next' ⟨hr, honward⟩
      cases hr with
      | ok _ => exact ih honward.logs (honward.partner hs)
      | error hcode => exact sim_pure ⟨.error hcode, honward.logs, honward.partner hs⟩

variable {N N' : Native} (h : N.Alike same N')

include h

theorem sim_openFirst {type : SocketType}
    {steps steps' : NativeAddress → List (Handle → Net (Result Unit))}
    (hsteps : ∀ {a a'}, same a a' → StepsAlike same (steps a) (steps' a'))
    {addresses addresses' : List NativeAddress} (haddresses : List.Forall₂ same addresses addresses')
    {last last' : Option Error} (hlast : LastAlike last last') :
    Sim log log' (openFirst N type steps addresses last)
      (openFirst N' type steps' addresses' last')
      (fun r r' next next' => Log.Alike same next next' ∧
        OpenedAlike same (Partners next next') r r') := by
  induction haddresses generalizing log log' last last' with
  | nil =>
      cases hlast with
      | none => exact sim_pure ⟨hlog, .none⟩
      | some hcode => exact sim_pure ⟨hlog, .some hcode⟩
  | cons ha _ ih =>
      unfold openFirst
      refine (sim_createSocket hlog h ha type).bind ?_
      rintro r r' log log' ⟨hlog, hr⟩
      cases hr with
      | error hcode => exact ih hlog (.some hcode)
      | ok hs =>
          refine (sim_prepare hlog (hsteps ha) hs).bind ?_
          rintro r r' log log' ⟨hr, hlog, hs⟩
          cases hr with
          | ok _ => exact sim_pure ⟨hlog, .ok hs ha⟩
          | error hcode =>
              refine (sim_closeSocket hlog (.some hs)).bind ?_
              rintro _ _ log log' ⟨hlog, -⟩
              exact ih hlog (.some hcode)

/-- The way `connect` and both `bind`s open a socket anew. -/
theorem sim_reopen {α : Type} {socket socket' : Option Handle}
    (hs : Option.Rel (Partners log log') socket socket') {endpoint : IpEndpoint}
    {type : SocketType} {passive : Bool}
    {steps steps' : NativeAddress → List (Handle → Net (Result Unit))}
    (hsteps : ∀ {a a'}, same a a' → StepsAlike same (steps a) (steps' a'))
    {onError onError' : Error → Net α}
    {onOpen onOpen' : Except (Option Error) (Handle × NativeAddress) → Net α}
    {Q : α → α → Log → Log → Prop}
    (herror : ∀ {log log' e e'}, Log.Alike same log log' → e.code = e'.code →
      Sim log log' (onError e) (onError' e') Q)
    (hopen : ∀ {log log' r r'}, Log.Alike same log log' →
      OpenedAlike same (Partners log log') r r' → Sim log log' (onOpen r) (onOpen' r') Q) :
    Sim log log'
      (do
        closeSocket socket
        match ← resolve N endpoint type passive with
        | .error e => onError e
        | .ok addresses => openFirst N type steps addresses none >>= onOpen)
      (do
        closeSocket socket'
        match ← resolve N' endpoint type passive with
        | .error e => onError' e
        | .ok addresses => openFirst N' type steps' addresses none >>= onOpen') Q := by
  refine (sim_closeSocket hlog hs).bind ?_
  rintro _ _ log log' ⟨hlog, -⟩
  refine (sim_resolve hlog h endpoint type passive).bind ?_
  rintro r r' log log' ⟨hr, honward⟩
  cases hr with
  | error hcode => exact herror honward.logs hcode
  | ok haddresses =>
      refine (sim_openFirst honward.logs h hsteps haddresses .none).bind ?_
      rintro r r' log log' ⟨hlog, hr⟩
      exact hopen hlog hr

end AddressLoop

end Transport
end Vosp
