import MicroProtocol.Transport.Calls
import MicroProtocol.Transport.Invariants
import MicroProtocol.Transport.Sockets

/-!
# The address family of a UDP socket

A UDP socket keeps the family of its handle in a field of its own, beside the
handle and the two halves of the cache.  Four fields, written by `bind`, by the
lazy opening of `send_to` and by `close`, with error exits in between: `Consistent`
says how they belong together, in view of what the log knows about the handle and
about the cached address.

* `createdWith` — the address that an open handle was created with.
* `Consistent` — the invariant of a socket; `Proper` — what is asked of every
  datagram that is sent.
* `ensureOpen_spec`, `sendLoop_spec` — the two parts of `send_to`.
* `family_discipline` — both hold in every reachable world.

The invariant is proved for any property `G` of what datagram endpoints resolve to.
For the two files below the transport `G` is `NamesFamilies`: zero is `AF_UNSPEC`,
which no socket address has.
-/

namespace Vosp
namespace Transport

open Custody Detail Logged

/-- Whatever a datagram endpoint resolves to has the property `G`. -/
def Answers (N : Native) (G : IpEndpoint → Bool → List NativeAddress → Prop) : Prop :=
  ∀ log endpoint passive addresses, N.resolve log endpoint .datagram passive = .ok addresses →
    G endpoint passive addresses

/-- Every address has a family. -/
def NamesFamilies (_ : IpEndpoint) (_ : Bool) (addresses : List NativeAddress) : Prop :=
  ∀ address ∈ addresses, address.family ≠ 0

theorem Sockets.resolve_subset {d : Dialect} {sys : Sys} {log : Log} {endpoint : IpEndpoint}
    {type : SocketType} {passive : Bool} {addresses : List NativeAddress}
    (h : resolve d sys log endpoint type passive = .ok addresses) :
    ∃ host service entries, sys.getaddrinfo log host service type passive = .ok entries ∧
      addresses ⊆ entries := by
  unfold resolve at h
  cases hinit : d.initializeNetwork with
  | error e =>
      rw [hinit] at h
      cases h
  | ok u =>
      rw [hinit] at h
      change (if endpoint.valid = false then _ else _) = _ at h
      split at h
      · cases h
      split at h
      · cases h
      · rename_i entries hentries
        dsimp only at h
        split at h
        · cases h
        · cases h
          exact ⟨_, _, entries, hentries, List.filter_subset_self _⟩

theorem Layer.namesFamilies (layer : Layer) : Answers layer.native NamesFamilies := by
  intro log endpoint passive addresses h address hmem
  obtain ⟨host, service, entries, hentries, hsub⟩ := Sockets.resolve_subset h
  exact layer.sys.getaddrinfo_family hentries address (hsub hmem)

/-! ## What the log knows about a handle -/

/-- The address a socket is created with. -/
def Event.creation : Event → Option NativeAddress
  | .createSocket address _ _ => some address
  | _ => none

/-- The address that the handle was created with, while it is open. -/
def createdWith (handle : Handle) : Log → Option NativeAddress
  | [] => none
  | e :: log =>
      if e.access.opens = some handle then e.creation
      else if e.access.closes = some handle then none
      else createdWith handle log

theorem createdWith_still {e : Event} (he : e.Still) (handle : Handle) (log : Log) :
    createdWith handle (e :: log) = createdWith handle log := by
  rw [createdWith, he.1, he.2]
  rfl

theorem createdWith_spares {F : Multiset Handle} {calls : Log} (h : Spares Event.access F calls)
    {handle : Handle} (hmem : handle ∈ F) (log : Log) :
    createdWith handle (calls ++ log) = createdWith handle log := by
  induction calls with
  | nil => rfl
  | cons e calls ih =>
      obtain ⟨hopens, hcloses⟩ := h e (List.mem_cons_self ..) handle hmem
      rw [List.cons_append, createdWith, if_neg hopens, if_neg hcloses]
      exact ih fun e' he' => h e' (List.mem_cons_of_mem _ he')

/-- A handle that was created and not closed since is open. -/
theorem mem_openHandles_of_createdWith {handle : Handle} {address : NativeAddress} {log : Log}
    (h : createdWith handle log = some address) : handle ∈ openHandles log := by
  induction log with
  | nil => cases h
  | cons e log ih =>
      rw [createdWith] at h
      show handle ∈ openHandles log - owned e.access.closes + owned e.access.opens
      split_ifs at h with hopens hcloses
      · exact Multiset.mem_add.2 (.inr (mem_owned.2 hopens))
      · refine Multiset.mem_add.2 (.inl ?_)
        cases hclosed : e.access.closes with
        | none => simpa using ih h
        | some other =>
            have hne : handle ≠ other := by
              rintro rfl
              exact hcloses hclosed
            rw [owned_some, Multiset.sub_singleton]
            exact (Multiset.mem_erase_of_ne hne).2 (ih h)

/-- The address is among those that `G` allows. -/
def Known (G : IpEndpoint → Bool → List NativeAddress → Prop) (address : NativeAddress) : Prop :=
  ∃ endpoint passive addresses, G endpoint passive addresses ∧ address ∈ addresses

/-- The log has a resolve of the endpoint that returned these addresses. -/
def Resolved (endpoint : IpEndpoint) (addresses : List NativeAddress) (log : Log) : Prop :=
  .resolve endpoint .datagram false (.ok addresses) ∈ log

/-- The address was returned by a resolve of the endpoint, and a datagram was sent
to it. -/
def Vouched (endpoint : IpEndpoint) (address : NativeAddress) (log : Log) : Prop :=
  (∃ addresses, address ∈ addresses ∧ Resolved endpoint addresses log) ∧
    ∃ socket payload sent, Event.sendDatagram socket address payload (.ok sent) ∈ log

theorem Vouched.append {endpoint : IpEndpoint} {address : NativeAddress} {log : Log}
    (h : Vouched endpoint address log) (calls : Log) : Vouched endpoint address (calls ++ log) := by
  obtain ⟨⟨addresses, hmem, hresolved⟩, socket, payload, sent, hsent⟩ := h
  exact ⟨⟨addresses, hmem, List.mem_append_right _ hresolved⟩, socket, payload, sent,
    List.mem_append_right _ hsent⟩

/-! ## The invariants -/

/-- What every datagram has to be like: sent on an open handle, to an address of the
family the handle was created with, and not too large. -/
def Proper (e : Event) (earlier : Log) : Prop :=
  ∀ socket address payload result, e = .sendDatagram socket address payload result →
    socket ∈ openHandles earlier ∧ payload.length ≤ UdpSocket.maximumPayloadSize ∧
    ∃ created, createdWith socket earlier = some created ∧ created.family = address.family

theorem proper_of_noDatagram {e : Event} (he : e.noDatagram = true) (earlier : Log) :
    Proper e earlier := by
  rintro socket address payload result rfl
  cases he

theorem always_proper_cons {e : Event} (he : e.noDatagram = true) {log : Log}
    (h : Always Proper log) : Always Proper (e :: log) := ⟨proper_of_noDatagram he log, h⟩

namespace UdpSocket

/-- How the fields of a socket belong together. -/
structure Consistent (G : IpEndpoint → Bool → List NativeAddress → Prop) (log : Log)
    (impl : Impl) : Prop where
  family_of_closed : impl.socket = none → impl.family = 0
  created : ∀ handle, impl.socket = some handle → ∃ address,
    createdWith handle log = some address ∧ address.family = impl.family ∧ Known G address
  cached_iff : impl.cachedEndpoint.isSome = true ↔ impl.cachedAddress.isSome = true
  vouched : ∀ endpoint address, impl.cachedEndpoint = some endpoint →
    impl.cachedAddress = some address → Vouched endpoint address log
  allowed : ∀ endpoint address, impl.cachedEndpoint = some endpoint →
    impl.cachedAddress = some address → ∃ addresses, G endpoint false addresses ∧ address ∈ addresses

variable {N : Native} {G : IpEndpoint → Bool → List NativeAddress → Prop} {log : Log} {impl : Impl}

theorem consistent_new (log : Log) (options : IoOptions) :
    Consistent G log { options := options } where
  family_of_closed := fun _ => rfl
  created := fun handle h => by cases h
  cached_iff := by simp
  vouched := fun endpoint address h => by cases h
  allowed := fun endpoint address h => by cases h

/-- Calls that spare the socket's own handle do no harm. -/
theorem Consistent.append (h : Consistent G log impl) {calls : Log}
    (hspares : Spares Event.access (Custody.owned impl.socket) calls) :
    Consistent G (calls ++ log) impl where
  family_of_closed := h.family_of_closed
  created := by
    intro handle hsocket
    rw [createdWith_spares hspares (mem_owned.2 hsocket)]
    exact h.created handle hsocket
  cached_iff := h.cached_iff
  vouched := fun endpoint address he ha => (h.vouched endpoint address he ha).append calls
  allowed := h.allowed

theorem Consistent.still (h : Consistent G log impl) {e : Event} (he : e.Still) :
    Consistent G (e :: log) impl := by
  have hspares : Spares Event.access (Custody.owned impl.socket) [e] := by
    intro e' he' handle _
    rw [List.mem_singleton.1 he', he.1, he.2]
    exact ⟨nofun, nofun⟩
  exact h.append hspares

theorem Consistent.of_closed (h : Consistent G log impl) (hsocket : impl.socket = none)
    (e : Event) : Consistent G (e :: log) impl := by
  have hspares : Spares Event.access (Custody.owned impl.socket) [e] := by
    intro e' _ handle hmem
    rw [hsocket] at hmem
    cases hmem
  exact h.append hspares

theorem Consistent.closed (h : Consistent G log impl) :
    Consistent G log { impl with socket := none, family := 0 } where
  family_of_closed := fun _ => rfl
  created := fun handle h => by cases h
  cached_iff := h.cached_iff
  vouched := h.vouched
  allowed := h.allowed

theorem Consistent.opened (h : Consistent G log impl) {handle : Handle} {address : NativeAddress}
    (hcreated : createdWith handle log = some address) (hknown : Known G address) :
    Consistent G log { impl with socket := some handle, family := address.family } where
  family_of_closed := fun h => by cases h
  created := by
    intro handle' h'
    cases h'
    exact ⟨address, hcreated, rfl, hknown⟩
  cached_iff := h.cached_iff
  vouched := h.vouched
  allowed := h.allowed

theorem Consistent.cache (h : Consistent G log impl) {endpoint : IpEndpoint}
    {address : NativeAddress} (hvouched : Vouched endpoint address log)
    (hallowed : ∃ addresses, G endpoint false addresses ∧ address ∈ addresses) :
    Consistent G log { impl with cachedEndpoint := some endpoint, cachedAddress := some address } where
  family_of_closed := h.family_of_closed
  created := h.created
  cached_iff := by simp
  vouched := by
    intro endpoint' address' he ha
    cases he
    cases ha
    exact hvouched
  allowed := by
    intro endpoint' address' he ha
    cases he
    cases ha
    exact hallowed

theorem Consistent.allowed_of_cachedFor (h : Consistent G log impl) {endpoint : IpEndpoint}
    {address : NativeAddress} (hcached : impl.cachedFor endpoint = some address) :
    ∃ addresses, G endpoint false addresses ∧ address ∈ addresses := by
  unfold Impl.cachedFor at hcached
  split_ifs at hcached with hendpoint
  exact h.allowed endpoint address hendpoint hcached

/-- An open handle was created with an address of the recorded family. -/
def Impl.InFamily (impl : Impl) (log : Log) : Prop :=
  ∀ handle, impl.socket = some handle → ∃ address,
    createdWith handle log = some address ∧ address.family = impl.family

theorem Consistent.inFamily (h : Consistent G log impl) : impl.InFamily log := by
  intro handle hsocket
  obtain ⟨address, hcreated, hfamily, -⟩ := h.created handle hsocket
  exact ⟨address, hcreated, hfamily⟩

theorem Impl.inFamily_of_closed (hclosed : impl.socket = none) (log : Log) :
    impl.InFamily log := by
  intro handle hsocket
  rw [hclosed] at hsocket
  cases hsocket

/-! ## Opening a socket -/

/-- The address loop returns a socket that was created with its address. -/
theorem openFirst_spec {K : Log → Prop} (hK : ∀ e log, e.plain = true → K log → K (e :: log))
    {type : SocketType} {steps : NativeAddress → List (Handle → Net (Result Unit))}
    (hsteps : ∀ address, ∀ step ∈ steps address, ∀ socket,
      Makes (fun e => e.Still ∧ e.plain = true) (step socket))
    (addresses : List NativeAddress) (lastError : Option Error) :
    Ensures K (openFirst N type steps addresses lastError) (fun r log => K log ∧
      ∀ socket address, r = .ok (socket, address) →
        address ∈ addresses ∧ createdWith socket log = some address) := by
  induction addresses generalizing lastError with
  | nil => exact ensures_pure fun log h => ⟨h, fun socket address hr => by cases hr⟩
  | cons address addresses ih =>
      have hnext : ∀ lastError, Ensures K (openFirst N type steps addresses lastError)
          (fun r log => K log ∧ ∀ socket address', r = .ok (socket, address') →
            address' ∈ address :: addresses ∧ createdWith socket log = some address') := by
        intro lastError
        refine (ih lastError).imp (fun log h => h) fun r log h => ⟨h.1, fun socket address' hr => ?_⟩
        obtain ⟨hmem, hcreated⟩ := h.2 socket address' hr
        exact ⟨List.mem_cons_of_mem _ hmem, hcreated⟩
      unfold openFirst
      refine Ensures.bind (Q := fun r log => K log ∧
        ∀ socket, r = .ok socket → createdWith socket log = some address) ?_ fun r => ?_
      · refine ensures_call fun log h => ⟨hK _ log rfl h, fun socket hr => ?_⟩
        simp only at hr
        rw [hr, createdWith]
        exact if_pos rfl
      cases r with
      | error e => exact (hnext _).imp (fun log h => h.1) fun r log h => h
      | ok socket =>
          -- the preparation leaves the handle as it is
          refine Ensures.bind (Q := fun _ log => K log ∧ createdWith socket log = some address) ?_
            fun r => ?_
          · refine ((makes_prepare fun step hs => hsteps address step hs socket).keeps ?_).imp
              (fun log h => ⟨h.1, h.2 socket rfl⟩) fun r log h => h
            intro e log he h
            exact ⟨hK e log he.2 h.1, by rw [createdWith_still he.1, h.2]⟩
          cases r with
          | error e =>
              refine Ensures.bind (Q := fun _ => K) ?_ fun _ => hnext _
              refine ((makes_closeSocket (fun e he => he) (some socket)).keeps hK).imp
                (fun log h => h.1) fun _ log h => h
          | ok u =>
              refine ensures_pure fun log h => ⟨h.1, fun socket' address' hr => ?_⟩
              cases hr
              exact ⟨List.mem_cons_self .., h.2⟩

/-- A socket that is used has been created for the family of the address. -/
def Serves (address : NativeAddress) (log : Log) (r : Result Handle × Impl) : Prop :=
  ∀ socket, r.1 = .ok socket →
    ∃ created, createdWith socket log = some created ∧ created.family = address.family

/-- `ensure_open`. -/
theorem ensureOpen_spec {K : Log → Prop} (hK : ∀ e log, e.plain = true → K log → K (e :: log))
    {address : NativeAddress} (hknown : Known G address) (impl : Impl) :
    Ensures (fun log => K log ∧ Consistent G log impl) (ensureOpen N address impl)
      (fun r log => K log ∧ Consistent G log r.2 ∧ Serves address log r) := by
  unfold ensureOpen
  cases hsocket : impl.socket with
  | some socket =>
      dsimp only
      split_ifs with hsame
      · refine ensures_pure fun log h => ⟨h.1, h.2, fun socket' hr => ?_⟩
        cases hr
        obtain ⟨created, hcreated, heq, -⟩ := h.2.created socket hsocket
        exact ⟨created, hcreated, heq.trans hsame.symm⟩
      · exact ensures_pure fun log h => ⟨h.1, h.2, fun socket' hr => by cases hr⟩
  | none =>
      dsimp only
      refine Ensures.bind (Q := fun r log => (K log ∧ Consistent G log impl) ∧
        ∀ socket, r = .ok socket → createdWith socket log = some address) ?_ fun r => ?_
      · refine ensures_call fun log h => ⟨⟨hK _ log rfl h.1, h.2.of_closed hsocket _⟩, ?_⟩
        intro socket hr
        simp only at hr
        rw [hr, createdWith]
        exact if_pos rfl
      cases r with
      | error e => exact ensures_pure fun log h => ⟨h.1.1, h.1.2, fun socket hr => by cases hr⟩
      | ok socket =>
          refine Ensures.bind (Q := fun _ log => (K log ∧ Consistent G log impl) ∧
            createdWith socket log = some address) ?_ fun r => ?_
          · refine ensures_call fun log h => ⟨⟨hK _ log rfl h.1.1, h.1.2.of_closed hsocket _⟩, ?_⟩
            rw [createdWith_still ⟨rfl, rfl⟩, h.2 socket rfl]
          cases r with
          | error e =>
              refine Ensures.bind (Q := fun _ log => K log ∧ Consistent G log impl) ?_ fun _ => ?_
              · refine ((makes_closeSocket (fun e he => he) (some socket)).keeps ?_).imp
                  (fun log h => h.1) fun _ log h => h
                exact fun e log he h => ⟨hK e log he h.1, h.2.of_closed hsocket e⟩
              · exact ensures_pure fun log h => ⟨h.1, h.2, fun socket hr => by cases hr⟩
          | ok u =>
              refine ensures_pure fun log h => ⟨h.1.1, h.1.2.opened h.2 hknown, ?_⟩
              intro socket' hr
              cases hr
              exact ⟨address, h.2, rfl⟩

/-! ## Sending -/

/-- A datagram on a socket that serves its address is a proper one. -/
theorem proper_sendDatagram {address : NativeAddress} {r : Result Handle × Impl} {socket : Handle}
    (hserves : Serves address log r) (hr : r.1 = .ok socket) {payload : List UInt8}
    (hsize : payload.length ≤ maximumPayloadSize) (result : Result Nat) :
    Proper (.sendDatagram socket address payload result) log := by
  rintro socket' address' payload' result' ⟨⟩
  obtain ⟨created, hcreated, hfamily⟩ := hserves socket hr
  exact ⟨mem_openHandles_of_createdWith hcreated, hsize, created, hcreated, hfamily⟩

/-- The address loop of `send_to`. -/
theorem sendLoop_spec (endpoint : IpEndpoint) {payload : List UInt8}
    (hsize : payload.length ≤ maximumPayloadSize) {resolved : List NativeAddress}
    (hG : G endpoint false resolved) {addresses : List NativeAddress}
    (hsub : addresses ⊆ resolved) (lastError : Option Error) (impl : Impl) :
    Ensures (fun log => (Always Proper log ∧ Resolved endpoint resolved log) ∧ Consistent G log impl)
      (sendLoop N endpoint payload addresses lastError impl)
      (fun r log => Always Proper log ∧ Consistent G log r.2) := by
  induction addresses generalizing lastError impl with
  | nil => cases lastError <;> exact ensures_pure fun log h => ⟨h.1.1, h.2⟩
  | cons address addresses ih =>
      have hmem : address ∈ resolved := hsub (List.mem_cons_self ..)
      have hrest : addresses ⊆ resolved := fun a ha => hsub (List.mem_cons_of_mem _ ha)
      have hK : ∀ (e : Event) (log : Log), e.plain = true →
          (Always Proper log ∧ Resolved endpoint resolved log) →
          Always Proper (e :: log) ∧ Resolved endpoint resolved (e :: log) := fun e log he h =>
        ⟨always_proper_cons (Event.noDatagram_of_plain he) h.1, List.mem_cons_of_mem _ h.2⟩
      unfold sendLoop
      refine (ensureOpen_spec hK ⟨endpoint, false, resolved, hG, hmem⟩ impl).bind fun r => ?_
      obtain ⟨e | socket, impl'⟩ := r
      · exact (ih hrest _ impl').imp (fun log h => ⟨h.1, h.2.1⟩) fun r log h => h
      refine Ensures.bind (Q := fun result log =>
        ((Always Proper log ∧ Resolved endpoint resolved log) ∧ Consistent G log impl') ∧
          ∀ sent, result = .ok sent → Vouched endpoint address log) ?_ fun result => ?_
      · refine ensures_call fun log h => ⟨⟨⟨⟨?_, h.1.1⟩, List.mem_cons_of_mem _ h.1.2⟩,
          h.2.1.still ⟨rfl, rfl⟩⟩, fun sent hsent => ?_⟩
        · exact proper_sendDatagram h.2.2 rfl hsize _
        · simp only at hsent
          rw [hsent]
          exact ⟨⟨resolved, hmem, List.mem_cons_of_mem _ h.1.2⟩, socket, payload, sent,
            List.mem_cons_self ..⟩
      cases result with
      | error e => exact (ih hrest _ impl').imp (fun log h => h.1) fun r log h => h
      | ok sent =>
          refine ensures_pure fun log h => ⟨h.1.1.1, ?_⟩
          exact h.1.2.cache (h.2 sent rfl) ⟨resolved, hG, hmem⟩

/-- The invariant of a socket object. -/
def Sane (G : IpEndpoint → Bool → List NativeAddress → Prop) (log : Log) (u : UdpSocket) : Prop :=
  ∀ impl, u.implementation = some impl → Consistent G log impl

theorem sane_iff (log : Log) (impl : Impl) : Sane G log ⟨some impl⟩ ↔ Consistent G log impl := by
  constructor
  · exact fun h => h impl rfl
  · rintro h impl' ⟨⟩
    exact h

theorem sane_movedFrom (log : Log) : Sane G log ⟨none⟩ := by
  intro impl h
  cases h

/-- The cached path of `send_to`. -/
theorem sendCached_spec {payload : List UInt8} (hsize : payload.length ≤ maximumPayloadSize)
    {address : NativeAddress} (hknown : Known G address) (impl : Impl) :
    Ensures (fun log => Always Proper log ∧ Consistent G log impl) (do
      match ← ensureOpen N address impl with
      | (.error e, impl) => pure (.error e, (⟨some impl⟩ : UdpSocket))
      | (.ok socket, impl) => do
          let sent ← sendDatagram N socket address payload
          pure (sent, ⟨some impl⟩)) (fun r log => Always Proper log ∧ Sane G log r.2) := by
  refine (ensureOpen_spec (fun e log he h => always_proper_cons
    (Event.noDatagram_of_plain he) h) hknown impl).bind fun r => ?_
  obtain ⟨e | socket, impl'⟩ := r
  · exact ensures_pure fun log h => ⟨h.1, (sane_iff log impl').2 h.2.1⟩
  refine Ensures.bind (Q := fun _ log => Always Proper log ∧ Consistent G log impl') ?_
    fun sent => ensures_pure fun log h => ⟨h.1, (sane_iff log impl').2 h.2⟩
  refine ensures_call fun log h => ⟨⟨?_, h.1⟩, h.2.1.still ⟨rfl, rfl⟩⟩
  exact proper_sendDatagram h.2.2 rfl hsize _

theorem sendTo_spec (hN : Answers N G) (endpoint : IpEndpoint) (payload : List UInt8)
    (u : UdpSocket) :
    Ensures (fun log => Always Proper log ∧ Sane G log u) (u.sendTo N endpoint payload)
      (fun r log => Always Proper log ∧ Sane G log r.2) := by
  obtain ⟨_ | impl⟩ := u
  · exact ensures_pure fun log h => h
  unfold sendTo
  dsimp only
  split_ifs with hinvalid hlarge
  · exact ensures_pure fun log h => h
  · exact ensures_pure fun log h => h
  have hsize : payload.length ≤ maximumPayloadSize := Nat.le_of_not_lt hlarge
  cases hcached : impl.cachedFor endpoint with
  | some address =>
      dsimp only
      refine Ensures.of_fact (fun log h => ((sane_iff log impl).1 h.2).allowed_of_cachedFor hcached)
        fun hallowed => ?_
      have hknown : Known G address := ⟨endpoint, false, hallowed⟩
      exact (sendCached_spec hsize hknown impl).imp
        (fun log h => ⟨h.1, (sane_iff log impl).1 h.2⟩) fun r log h => h
  | none =>
      dsimp only
      refine Ensures.bind (Q := fun r log => (Always Proper log ∧ Consistent G log impl) ∧
        ∀ addresses, r = .ok addresses →
          Resolved endpoint addresses log ∧ G endpoint false addresses) ?_ fun r => ?_
      · refine ensures_call fun log h => ⟨⟨always_proper_cons rfl h.1,
          ((sane_iff log impl).1 h.2).still ⟨rfl, rfl⟩⟩, fun addresses hr => ?_⟩
        simp only at hr
        rw [hr]
        exact ⟨List.mem_cons_self .., hN log endpoint false addresses hr⟩
      cases r with
      | error e => exact ensures_pure fun log h => ⟨h.1.1, (sane_iff log impl).2 h.1.2⟩
      | ok addresses =>
          refine Ensures.of_fact (fun log h => (h.2 addresses rfl).2) fun hG => ?_
          refine Ensures.bind ((sendLoop_spec endpoint hsize hG
            (List.Subset.refl addresses) none impl).imp ?_ fun r log h => h) fun r => ?_
          · exact fun log h => ⟨⟨h.1.1, (h.2 addresses rfl).1⟩, h.1.2⟩
          · exact ensures_pure fun log h => ⟨h.1, (sane_iff log r.2).2 h.2⟩

/-! ## The other methods -/

/-- What a socket that has just been closed keeps, whatever plain calls follow. -/
theorem closed_plain (impl : Impl) {e : Event} (he : e.plain = true) {log : Log}
    (h : Always Proper log ∧ Consistent G log { impl with socket := none, family := 0 }) :
    Always Proper (e :: log) ∧ Consistent G (e :: log) { impl with socket := none, family := 0 } :=
  ⟨always_proper_cons (Event.noDatagram_of_plain he) h.1, h.2.of_closed rfl e⟩

theorem closeSocket_spec (impl : Impl) :
    Ensures (fun log => Always Proper log ∧ Sane G log ⟨some impl⟩) (closeSocket impl.socket)
      (fun _ log => Always Proper log ∧
        Consistent G log { impl with socket := none, family := 0 }) := by
  refine ((makes_closeSocket (fun e he => he) impl.socket).keeps
    fun e log he h => closed_plain impl he h).imp ?_ fun _ log h => h
  exact fun log h => ⟨h.1, ((sane_iff log impl).1 h.2).closed⟩

theorem close_spec (u : UdpSocket) :
    Ensures (fun log => Always Proper log ∧ Sane G log u) u.close
      (fun u' log => Always Proper log ∧ Sane G log u') := by
  obtain ⟨_ | impl⟩ := u
  · exact ensures_pure fun log h => h
  refine (closeSocket_spec impl).bind fun _ => ensures_pure fun log h => ?_
  exact ⟨h.1, (sane_iff log _).2 h.2⟩

theorem bind_spec (hN : Answers N G) (endpoint : IpEndpoint) (u : UdpSocket) :
    Ensures (fun log => Always Proper log ∧ Sane G log u) (u.bind N endpoint)
      (fun r log => Always Proper log ∧ Sane G log r.2) := by
  obtain ⟨_ | impl⟩ := u
  · exact ensures_pure fun log h => h
  unfold bind
  dsimp only
  split_ifs with hinvalid
  · exact ensures_pure fun log h => h
  refine (closeSocket_spec impl).bind fun _ => ?_
  refine Ensures.bind (Q := fun r log => (Always Proper log ∧
    Consistent G log { impl with socket := none, family := 0 }) ∧
      ∀ addresses, r = .ok addresses → G endpoint true addresses) ?_ fun r => ?_
  · refine ensures_call fun log h => ⟨closed_plain impl rfl h, fun addresses hr => ?_⟩
    exact hN log endpoint true addresses hr
  cases r with
  | error e => exact ensures_pure fun log h => ⟨h.1.1, (sane_iff log _).2 h.1.2⟩
  | ok addresses =>
      refine Ensures.of_fact (fun log h => h.2 addresses rfl) fun hG => ?_
      refine Ensures.bind ((openFirst_spec (K := fun log => Always Proper log ∧
        Consistent G log { impl with socket := none, family := 0 })
        (fun e log he h => closed_plain impl he h) ?_ addresses none).imp (fun log h => h.1)
          fun r log h => h) fun r => ?_
      · intro address step hstep socket
        simp only [List.mem_cons, List.not_mem_nil, or_false] at hstep
        rcases hstep with rfl | rfl
        · exact makes_call fun log => ⟨⟨rfl, rfl⟩, rfl⟩
        · exact makes_call fun log => ⟨⟨rfl, rfl⟩, rfl⟩
      · rcases r with (_ | e) | ⟨socket, address⟩
        · exact ensures_pure fun log h => ⟨h.1.1, (sane_iff log _).2 h.1.2⟩
        · exact ensures_pure fun log h => ⟨h.1.1, (sane_iff log _).2 h.1.2⟩
        · refine ensures_pure fun log h => ⟨h.1.1, (sane_iff log _).2 ?_⟩
          obtain ⟨hmem, hcreated⟩ := h.2 socket address rfl
          exact h.1.2.opened hcreated ⟨endpoint, true, addresses, hG, hmem⟩

/-- Methods that make still and plain calls only. -/
theorem sane_of_makes {α : Type} {m : Net α}
    (hm : Makes (fun e => e.Still ∧ e.plain = true) m) (u : UdpSocket) :
    Ensures (fun log => Always Proper log ∧ Sane G log u) m
      (fun _ log => Always Proper log ∧ Sane G log u) := by
  refine hm.keeps fun e log he h => ⟨always_proper_cons (Event.noDatagram_of_plain he.2) h.1, ?_⟩
  exact fun impl himpl => (h.2 impl himpl).still he.1

end UdpSocket

/-! ## Every reachable world -/

/-- The invariant for objects of any class. -/
def Object.Sane (G : IpEndpoint → Bool → List NativeAddress → Prop) (log : Log) : Object → Prop
  | .udp u => u.Sane G log
  | _ => True

variable {N : Native} {G : IpEndpoint → Bool → List NativeAddress → Prop}

/-- Methods that send no datagrams keep what was sent proper. -/
theorem always_proper_of_makes {α : Type} {m : Net α} (hm : Makes (fun e => e.noDatagram = true) m)
    {P : Log → Prop} : Ensures (fun log => Always Proper log ∧ P log) m (fun _ => Always Proper) :=
  (hm.keeps fun _ _ he h => always_proper_cons he h).imp (fun _ h => h.1) fun _ _ h => h

/-- Such methods of a stream or a listener, of which the invariant asks nothing more. -/
theorem sane_of_noDatagram {α : Type} {m : Net α} (f : α → Object)
    (hf : ∀ a log, (f a).Sane G log) (hm : Makes (fun e => e.noDatagram = true) m)
    {P : Log → Prop} :
    Ensures (fun log => Always Proper log ∧ P log) (m >>= fun a => pure (f a))
      (fun o log => Always Proper log ∧ o.Sane G log) := by
  refine (always_proper_of_makes hm).bind fun a => ?_
  exact ensures_pure fun log h => ⟨h, hf a log⟩

theorem TcpStream.sane_run (method : Method) (s : TcpStream) {P : Log → Prop} :
    Ensures (fun log => Always Proper log ∧ P log) ((Object.stream s).run N method)
      (fun o log => Always Proper log ∧ o.Sane G log) := by
  have hA : ∀ e : Event, e.plain = true → e.noDatagram = true := fun e => Event.noDatagram_of_plain
  cases method with
  | connect endpoint =>
      exact sane_of_noDatagram (fun r => .stream r.2) (fun _ _ => trivial)
        (s.makes_connect hA endpoint)
  | reconnect =>
      exact sane_of_noDatagram (fun r => .stream r.2) (fun _ _ => trivial)
        (s.makes_reconnect hA fun _ => rfl)
  | send bytes =>
      exact sane_of_noDatagram (fun r => .stream r.2) (fun _ _ => trivial) (s.makes_send hA bytes)
  | sendAll bytes =>
      exact sane_of_noDatagram (fun r => .stream r.2) (fun _ _ => trivial)
        (s.makes_sendAllFrom hA bytes 0)
  | receive size =>
      exact sane_of_noDatagram (fun r => .stream r.2) (fun _ _ => trivial) (s.makes_receive hA size)
  | close => exact sane_of_noDatagram .stream (fun _ _ => trivial) (s.makes_close hA)
  | _ => exact ensures_pure fun log h => ⟨h.1, trivial⟩

theorem TcpListener.sane_run (method : Method) (l : TcpListener) {P : Log → Prop} :
    Ensures (fun log => Always Proper log ∧ P log) ((Object.listener l).run N method)
      (fun o log => Always Proper log ∧ o.Sane G log) := by
  have hA : ∀ e : Event, e.plain = true → e.noDatagram = true := fun e => Event.noDatagram_of_plain
  cases method with
  | listen endpoint backlog =>
      exact sane_of_noDatagram (fun r => .listener r.2) (fun _ _ => trivial)
        (l.makes_bind hA endpoint backlog)
  | localEndpoint =>
      exact sane_of_noDatagram (fun _ => .listener l) (fun _ _ => trivial)
        (l.makes_localEndpoint fun e _ => hA e)
  | close => exact sane_of_noDatagram .listener (fun _ _ => trivial) (l.makes_close hA)
  | _ => exact ensures_pure fun log h => ⟨h.1, trivial⟩

theorem UdpSocket.sane_run (hN : Answers N G) (method : Method) (u : UdpSocket) :
    Ensures (fun log => Always Proper log ∧ u.Sane G log) ((Object.udp u).run N method)
      (fun o log => Always Proper log ∧ o.Sane G log) := by
  cases method with
  | bind endpoint => exact (bind_spec hN endpoint u).bind fun r => ensures_pure fun log h => h
  | sendTo endpoint payload =>
      exact (sendTo_spec hN endpoint payload u).bind fun r => ensures_pure fun log h => h
  | receiveFrom maximumSize =>
      refine (sane_of_makes ?_ u).bind fun r => ensures_pure fun log h => h
      exact u.makes_receive (fun e hstill hplain => ⟨hstill, hplain⟩) maximumSize
  | localEndpoint =>
      refine (sane_of_makes ?_ u).bind fun r => ensures_pure fun log h => h
      exact u.makes_localEndpoint fun e hstill hplain => ⟨hstill, hplain⟩
  | close => exact (close_spec u).bind fun u' => ensures_pure fun log h => h
  | _ => exact ensures_pure fun log h => h

theorem saneInvariant (hN : Answers N G) :
    ObjectInvariant N (fun log o => o.Sane G log) (Always Proper) where
  start := trivial
  newStream := fun _ _ _ => trivial
  newListener := fun _ _ => trivial
  newUdp := fun log options => (UdpSocket.sane_iff log _).2 (UdpSocket.consistent_new log options)
  movedFrom := by
    intro log o
    cases o with
    | stream s => trivial
    | listener l => trivial
    | udp u => exact UdpSocket.sane_movedFrom log
  run := by
    intro method o
    cases o with
    | stream s => exact s.sane_run method
    | listener l => exact l.sane_run method
    | udp u => exact u.sane_run hN method
  accept := by
    intro l
    refine (always_proper_of_makes (l.makes_accept fun e => Event.noDatagram_of_plain)).imp
      (fun log h => h) fun r log h => ⟨h, trivial, fun s _ => trivial⟩
  stable := by
    intro log calls o h hspares
    cases o with
    | stream s => trivial
    | listener l => trivial
    | udp u =>
        intro impl himpl
        refine (h impl himpl).append ?_
        obtain ⟨impl'⟩ := u
        cases himpl
        exact hspares

/-- **Family discipline.**  In every state a program can reach, the recorded family of
a UDP socket is 0 exactly if the socket is not open, and otherwise the family of the
address its handle was created with; both halves of the cache are there or neither
is, and the cached address is one that a resolve of the cached endpoint returned and
a datagram was sent to.  And every datagram ever sent was sent on an open handle, to
an address of that handle's family, with at most 65507 bytes. -/
theorem family_discipline (layer : Layer) (ops : List Op) :
    (∀ (id : Nat) (impl : UdpSocket.Impl),
        (World.run layer.native ops).objects[id]? = some (some (.udp ⟨some impl⟩)) →
      (impl.family = 0 ↔ impl.socket = none) ∧
      (∀ handle, impl.socket = some handle → ∃ address,
        createdWith handle (World.run layer.native ops).log = some address ∧
          address.family = impl.family) ∧
      (impl.cachedEndpoint.isSome = true ↔ impl.cachedAddress.isSome = true) ∧
      ∀ endpoint address, impl.cachedEndpoint = some endpoint →
        impl.cachedAddress = some address →
          Vouched endpoint address (World.run layer.native ops).log) ∧
    ∀ later earlier socket address payload result,
      (World.run layer.native ops).log
        = later ++ .sendDatagram socket address payload result :: earlier →
      socket ∈ openHandles earlier ∧ payload.length ≤ 65507 ∧
      ∃ created, createdWith socket earlier = some created ∧ created.family = address.family := by
  have hkeeps := (saneInvariant layer.namesFamilies).of_run ops
  constructor
  · intro id impl hid
    have hconsistent := (UdpSocket.sane_iff _ impl).1 (hkeeps.object hid)
    refine ⟨⟨fun hzero => ?_, hconsistent.family_of_closed⟩, hconsistent.inFamily,
      hconsistent.cached_iff, hconsistent.vouched⟩
    -- an open handle was created with an address that has a family
    by_contra hopen
    obtain ⟨handle, hsocket⟩ := Option.ne_none_iff_exists'.1 hopen
    obtain ⟨address, -, hfamily, endpoint, passive, addresses, hnames, hmem⟩ :=
      hconsistent.created handle hsocket
    exact hnames address hmem (hfamily.trans hzero)
  · intro later earlier socket address payload result hlog
    have halways := hkeeps.log
    rw [hlog] at halways
    exact halways.at socket address payload result rfl

theorem family_discipline_sent : ∃ impl, (World.run (Layer.posix .obliging).native
    [.newUdp {}, .call 0 (.sendTo ⟨"peer", 53⟩ [1, 2, 3])]).objects[0]?
      = some (some (.udp ⟨some impl⟩)) ∧
    impl.family = 2 ∧ (impl.family = 0 ↔ impl.socket = none) ∧
    impl.cachedEndpoint = some ⟨"peer", 53⟩ := by
  let impl : UdpSocket.Impl :=
    { socket := some 1, family := 2, cachedEndpoint := some ⟨"peer", 53⟩,
      cachedAddress := some { storage := [127, 0, 0, 1], family := 2 } }
  have hid : (World.run (Layer.posix .obliging).native
      [.newUdp {}, .call 0 (.sendTo ⟨"peer", 53⟩ [1, 2, 3])]).objects[0]?
      = some (some (.udp ⟨some impl⟩)) := rfl
  obtain ⟨hfamily, -⟩ := (family_discipline (.posix .obliging) _).1 0 impl hid
  exact ⟨impl, hid, rfl, hfamily, rfl⟩

end Transport
end Vosp
