import MicroProtocol.Transport.UdpFamily

/-!
# Which addresses `UdpSocket::send_to` falls back on

`send_to` goes through the addresses an endpoint resolves to until a datagram is
sent.  On an operating system whose answers depend only on what it is asked
(`Outcomes`, `Steady`) the walk has a closed form: it is a search in the addresses
that the socket serves, and these are all of one family.  A socket that is open
serves the addresses of its own family (`sendLoop_of_open`).  One that is not open is
opened for the first address for which that is possible, and stays open, whatever
becomes of the datagram: from there on it serves that family alone
(`sendLoop_of_closed`).  `TcpStream::connect` and `UdpSocket::bind` close the socket
in that place.

* `Outcomes.served` — the addresses an unopened socket serves.
* `sendTo_of_closed` — what `send_to` does on an unopened socket.
* `fallback_complete_iff` — when it reaches every usable address, and
  `fallback_blocked` — a resolve for which it does not.
-/

namespace Vosp
namespace Transport

open Custody Detail Logged

/-- What an operating system answers when its answers depend only on the question. -/
structure Outcomes where
  resolves : IpEndpoint → Result (List NativeAddress)
  creates : NativeAddress → Bool
  configures : IoOptions → NativeAddress → Bool
  sends : NativeAddress → List UInt8 → Bool

namespace Outcomes

variable (E : Outcomes)

/-- A socket can be created for the address and configured. -/
def opens (options : IoOptions) (address : NativeAddress) : Bool :=
  E.creates address && (options.valid && E.configures options address)

/-- Create, configure and send all succeed. -/
def usable (options : IoOptions) (payload : List UInt8) (address : NativeAddress) : Bool :=
  E.opens options address && E.sends address payload

/-- `N` answers the calls of `send_to` like that.  A socket is known by the address it
was created with; `apply_options` refuses invalid options, and a datagram can be sent
on any open socket of the family of its address. -/
structure Steady (N : Native) : Prop where
  resolve : ∀ log endpoint, N.resolve log endpoint .datagram false = E.resolves endpoint
  create : ∀ log address, (N.createSocket log address .datagram).isOk = E.creates address
  configure : ∀ log socket created options, createdWith socket log = some created →
    (N.applyOptions log socket options).isOk = (options.valid && E.configures options created)
  send : ∀ log socket created address payload, createdWith socket log = some created →
    created.family = address.family →
    (N.sendDatagram log socket address payload).isOk = E.sends address payload

/-- An answer that is fixed beforehand. -/
def answer {α : Type} (granted : Bool) (a : α) (code : ErrorCode) (message : String) : Result α :=
  if granted then .ok a else failure code message

theorem isOk_answer {α : Type} (granted : Bool) (a : α) (code : ErrorCode) (message : String) :
    (answer granted a code message).isOk = granted := by
  cases granted <;> rfl

/-- The plainest operating system of this kind. -/
def native : Native :=
  { Native.obliging with
    resolve := fun _ endpoint _ _ => E.resolves endpoint
    createSocket := fun log address _ =>
      answer (E.creates address) (freshHandle log) .socketCreationFailed "socket failed"
    applyOptions := fun log socket options =>
      answer (options.valid && ((createdWith socket log).map (E.configures options)).getD true) ()
        .optionFailed "setsockopt failed"
    sendDatagram := fun _ _ address payload =>
      answer (E.sends address payload) payload.length .sendFailed "sendto failed"
    create_fresh := by
      intro log address type socket h
      cases hcreates : E.creates address with
      | false =>
          rw [hcreates] at h
          cases h
      | true =>
          rw [hcreates] at h
          cases h
          exact freshHandle_notMem log }

theorem steady_native : E.Steady E.native where
  resolve := fun _ _ => rfl
  create := fun log address => isOk_answer ..
  configure := by
    intro log socket created options hcreated
    refine (isOk_answer ..).trans ?_
    rw [hcreated]
    rfl
  send := fun log socket created address payload _ _ => isOk_answer ..

/-- The addresses an unopened socket serves: the first that can be opened, and those
of its family after it. -/
def served (options : IoOptions) (addresses : List NativeAddress) : List NativeAddress :=
  match addresses.dropWhile fun address => !E.opens options address with
  | [] => []
  | opener :: rest => opener :: rest.filter fun address => address.family = opener.family

/-- What can be opened is not passed over on the way to the opener. -/
theorem mem_dropWhile {options : IoOptions} {address : NativeAddress}
    (hopens : E.opens options address = true) {addresses : List NativeAddress}
    (hmem : address ∈ addresses) :
    address ∈ addresses.dropWhile fun address => !E.opens options address := by
  induction addresses with
  | nil => cases hmem
  | cons other addresses ih =>
      cases hother : E.opens options other with
      | true =>
          rw [List.dropWhile_cons_of_neg (by simp [hother])]
          exact hmem
      | false =>
          rw [List.dropWhile_cons_of_pos (by simp [hother])]
          rcases List.mem_cons.1 hmem with rfl | hmem
          · rw [hopens] at hother
            cases hother
          · exact ih hmem

theorem exists_usable_iff (options : IoOptions) (payload : List UInt8)
    (addresses : List NativeAddress) :
    (∃ address ∈ addresses, E.usable options payload address = true) ↔
      ∃ address ∈ addresses.dropWhile (fun address => !E.opens options address),
        E.usable options payload address = true := by
  constructor
  · rintro ⟨address, hmem, husable⟩
    exact ⟨address, E.mem_dropWhile (Bool.and_eq_true_iff.1 husable).1 hmem, husable⟩
  · rintro ⟨address, hmem, husable⟩
    exact ⟨address, (List.dropWhile_sublist _).subset hmem, husable⟩

theorem served_cons_of_opens {options : IoOptions} {address : NativeAddress}
    (h : E.opens options address = true) (addresses : List NativeAddress) :
    E.served options (address :: addresses)
      = address :: addresses.filter fun other => other.family = address.family := by
  simp [served, h]

theorem served_cons_of_not_opens {options : IoOptions} {address : NativeAddress}
    (h : E.opens options address = false) (addresses : List NativeAddress) :
    E.served options (address :: addresses) = E.served options addresses := by
  simp [served, h]

end Outcomes

/-- The addresses that a socket serves, in the order in which they are tried. -/
def UdpSocket.Impl.serves (impl : Impl) (E : Outcomes) (addresses : List NativeAddress) :
    List NativeAddress :=
  match impl.socket with
  | some _ => addresses.filter fun address => address.family = impl.family
  | none => E.served impl.options addresses

/-- The address of the newest call, if that is a datagram that was sent. -/
def delivered : Log → Option NativeAddress
  | .sendDatagram _ address _ (.ok _) :: _ => some address
  | _ => none

namespace UdpSocket

variable {N : Native} {E : Outcomes} {impl : Impl} {log : Log} {payload : List UInt8}

/-- A send that found `hit` to deliver to: it succeeds if there is one, and delivers
there. -/
structure Finds {α : Type} (out : (Result Nat × α) × Log) (hit : Option NativeAddress) : Prop where
  isOk_eq : out.1.1.isOk = hit.isSome
  delivers : ∀ address, hit = some address → delivered out.2 = some address

/-! ## Opening -/

/-- A socket that is open stays as it is, and will do for the addresses of its family. -/
theorem ensureOpen_of_open {socket : Handle} (hsocket : impl.socket = some socket)
    (address : NativeAddress) :
    ensureOpen N address impl = pure (if address.family = impl.family then .ok socket
      else failure .sendFailed "UDP endpoint does not match the open socket family", impl) := by
  unfold ensureOpen
  simp only [hsocket]
  split_ifs
  · rfl
  · rfl

/-- A socket that is not open is opened for the address, if that is possible, and is as
it was if not. -/
theorem run_ensureOpen_of_closed (hN : E.Steady N) (hclosed : impl.socket = none)
    (address : NativeAddress) (log : Log) :
    (E.opens impl.options address = true ∧ ∃ socket log',
      (ensureOpen N address impl).run log
        = ((.ok socket, { impl with socket := some socket, family := address.family }), log') ∧
      createdWith socket log' = some address) ∨
    (E.opens impl.options address = false ∧ ∃ e log',
      (ensureOpen N address impl).run log = ((.error e, impl), log')) := by
  unfold ensureOpen
  simp only [hclosed, run_bind, createSocket, run_call]
  have hcreate := hN.create log address
  cases hsocket : N.createSocket log address .datagram with
  | error e =>
      rw [hsocket] at hcreate
      refine .inr ⟨?_, e, _, rfl⟩
      rw [Outcomes.opens, ← hcreate]
      rfl
  | ok socket =>
      rw [hsocket] at hcreate
      have hcreated : createdWith socket (.createSocket address .datagram (.ok socket) :: log)
          = some address := if_pos rfl
      have hconfigure := hN.configure _ socket address impl.options hcreated
      simp only [run_bind, applyOptions, run_call]
      rw [Outcomes.opens, ← hcreate, ← hconfigure]
      cases N.applyOptions (.createSocket address .datagram (.ok socket) :: log) socket
          impl.options with
      | error e => exact .inr ⟨rfl, e, _, rfl⟩
      | ok u =>
          refine .inl ⟨rfl, socket, _, rfl, ?_⟩
          rw [createdWith_still ⟨rfl, rfl⟩]
          exact hcreated

/-! ## The walk -/

/-- The search for an address that takes the datagram, where the first has answered. -/
theorem find?_of_answer {answer : Result Nat} {address : NativeAddress}
    (hsend : answer.isOk = E.sends address payload) (rest : List NativeAddress) :
    (address :: rest).find? (fun address => E.sends address payload)
      = if answer.isOk then some address
        else rest.find? fun address => E.sends address payload := by
  rw [List.find?_cons, ← hsend]
  cases answer with
  | ok sent => rfl
  | error e => rfl

/-- A datagram on a socket that serves its address, and the rest of the walk if it
could not be sent. -/
theorem finds_send {socket : Handle} {address : NativeAddress} {endpoint : IpEndpoint}
    {addresses rest : List NativeAddress}
    (hsend : (N.sendDatagram log socket address payload).isOk = E.sends address payload)
    (hrest : ∀ e, Finds ((sendLoop N endpoint payload addresses (some e) impl).run
      (.sendDatagram socket address payload (.error e) :: log))
      (rest.find? fun address => E.sends address payload)) :
    Finds (StateT.run (do
      match ← sendDatagram N socket address payload with
      | .error e => sendLoop N endpoint payload addresses (some e) impl
      | .ok sent => pure (.ok sent, { impl with
          cachedEndpoint := some endpoint, cachedAddress := some address })) log)
      ((address :: rest).find? fun address => E.sends address payload) := by
  simp only [run_bind, sendDatagram, run_call]
  rw [find?_of_answer hsend]
  cases N.sendDatagram log socket address payload with
  | ok sent => exact ⟨rfl, fun address' h => h⟩
  | error e => exact hrest e

theorem finds_nothing (endpoint : IpEndpoint) (lastError : Option Error) :
    Finds ((sendLoop N endpoint payload [] lastError impl).run log) none := by
  cases lastError with
  | none => exact ⟨rfl, fun address h => by cases h⟩
  | some e => exact ⟨rfl, fun address h => by cases h⟩

/-- An open socket searches the addresses of its family. -/
theorem sendLoop_of_open (hN : E.Steady N) {socket : Handle} {created : NativeAddress}
    (hsocket : impl.socket = some socket) (hcreated : createdWith socket log = some created)
    (hfamily : created.family = impl.family) (endpoint : IpEndpoint)
    (addresses : List NativeAddress) (lastError : Option Error) :
    Finds ((sendLoop N endpoint payload addresses lastError impl).run log)
      ((addresses.filter fun address => address.family = impl.family).find?
        fun address => E.sends address payload) := by
  induction addresses generalizing log lastError with
  | nil => exact finds_nothing endpoint lastError
  | cons address addresses ih =>
      unfold sendLoop
      rw [run_bind, ensureOpen_of_open hsocket]
      by_cases hsame : address.family = impl.family
      · rw [if_pos hsame, List.filter_cons_of_pos (by simpa using hsame)]
        refine finds_send (hN.send log socket created address payload hcreated
          (hfamily.trans hsame.symm)) fun e => ih ?_ _
        rw [createdWith_still ⟨rfl, rfl⟩]
        exact hcreated
      · -- an address of another family is passed over
        rw [if_neg hsame, List.filter_cons_of_neg (by simpa using hsame)]
        exact ih hcreated _

/-- A socket that is not open searches the addresses it serves. -/
theorem sendLoop_of_closed (hN : E.Steady N) (hclosed : impl.socket = none) (endpoint : IpEndpoint)
    (addresses : List NativeAddress) (lastError : Option Error) :
    Finds ((sendLoop N endpoint payload addresses lastError impl).run log)
      ((E.served impl.options addresses).find? fun address => E.sends address payload) := by
  induction addresses generalizing log lastError with
  | nil => exact finds_nothing endpoint lastError
  | cons address addresses ih =>
      unfold sendLoop
      rw [run_bind]
      rcases run_ensureOpen_of_closed hN hclosed address log with
        ⟨hopens, socket, log', hrun, hcreated⟩ | ⟨hopens, e, log', hrun⟩
      · rw [hrun, E.served_cons_of_opens hopens]
        refine finds_send (hN.send log' socket address address payload hcreated rfl) fun e => ?_
        -- the socket stays open, for the family of this address
        refine sendLoop_of_open hN rfl ?_ rfl endpoint addresses _
        rw [createdWith_still ⟨rfl, rfl⟩]
        exact hcreated
      · rw [hrun, E.served_cons_of_not_opens hopens]
        exact ih _

/-- The arguments that `send_to` does not refuse at once. -/
def Impl.Accepts (impl : Impl) (endpoint : IpEndpoint) (payload : List UInt8) : Prop :=
  (endpoint.valid = true ∧ impl.options.valid = true) ∧ payload.length ≤ maximumPayloadSize

theorem Impl.Accepts.not_refused {endpoint : IpEndpoint} (h : impl.Accepts endpoint payload) :
    ¬ (endpoint.valid = false ∨ impl.options.valid = false) := by
  simp [h.1]

/-- `send_to` for an endpoint that is not cached searches what the socket serves. -/
theorem sendTo_of_not_cached (hN : E.Steady N) (hfamily : impl.InFamily log)
    {endpoint : IpEndpoint} (hcache : impl.cachedFor endpoint = none)
    (haccepts : impl.Accepts endpoint payload) {addresses : List NativeAddress}
    (hresolves : E.resolves endpoint = .ok addresses) :
    Finds (((⟨some impl⟩ : UdpSocket).sendTo N endpoint payload).run log)
      ((impl.serves E addresses).find? fun address => E.sends address payload) := by
  unfold sendTo
  dsimp only
  rw [if_neg haccepts.not_refused, if_neg (Nat.not_lt.2 haccepts.2), hcache]
  simp only [run_bind, resolve, run_call, hN.resolve, hresolves]
  have hfinds : Finds ((sendLoop N endpoint payload addresses none impl).run
      (.resolve endpoint .datagram false (.ok addresses) :: log))
      ((impl.serves E addresses).find? fun address => E.sends address payload) := by
    unfold Impl.serves
    cases hsocket : impl.socket with
    | none => exact sendLoop_of_closed hN hsocket endpoint addresses none
    | some socket =>
        obtain ⟨created, hcreated, hsame⟩ := hfamily socket hsocket
        refine sendLoop_of_open hN hsocket ?_ hsame endpoint addresses none
        rw [createdWith_still ⟨rfl, rfl⟩]
        exact hcreated
  exact ⟨hfinds.isOk_eq, hfinds.delivers⟩

end UdpSocket

/-! ## Completeness of the fallback -/

/-- The family of the first address that can be opened is the right one: if it refuses
the datagram, no address of another family would take it, and if it takes it, there
is an address that could have been opened and sent to by itself. -/
def Outcomes.OpenerServes (E : Outcomes) (options : IoOptions) (payload : List UInt8)
    (addresses : List NativeAddress) : Prop :=
  ∀ opener rest, addresses.dropWhile (fun address => !E.opens options address) = opener :: rest →
    ((∀ address ∈ opener :: rest, address.family = opener.family →
        E.sends address payload = false) →
      ∀ address ∈ rest, address.family ≠ opener.family → E.usable options payload address = false) ∧
    ((∃ address ∈ opener :: rest, address.family = opener.family ∧
        E.sends address payload = true) →
      ∃ address ∈ opener :: rest, E.usable options payload address = true)

/-- The search of an unopened socket, in terms of the opener. -/
theorem Outcomes.served_find_iff (E : Outcomes) (payload : List UInt8) {options : IoOptions}
    {addresses : List NativeAddress} {opener : NativeAddress} {rest : List NativeAddress}
    (h : addresses.dropWhile (fun address => !E.opens options address) = opener :: rest) :
    ((E.served options addresses).find? fun address => E.sends address payload).isSome = true ↔
      ∃ address ∈ opener :: rest, address.family = opener.family ∧
        E.sends address payload = true := by
  rw [served, h, List.find?_isSome]
  constructor
  · rintro ⟨address, hmem, hsends⟩
    rcases List.mem_cons.1 hmem with rfl | hmem
    · exact ⟨address, List.mem_cons_self .., rfl, hsends⟩
    · obtain ⟨hrest, hfamily⟩ := List.mem_filter.1 hmem
      exact ⟨address, List.mem_cons_of_mem _ hrest, by simpa using hfamily, hsends⟩
  · rintro ⟨address, hmem, hfamily, hsends⟩
    refine ⟨address, ?_, hsends⟩
    rcases List.mem_cons.1 hmem with rfl | hmem
    · exact List.mem_cons_self ..
    · exact List.mem_cons_of_mem _ (List.mem_filter.2 ⟨hmem, by simpa using hfamily⟩)

/-- If nothing can be opened, nothing is served and nothing is usable. -/
theorem Outcomes.not_usable_of_no_opener (E : Outcomes) {options : IoOptions}
    (payload : List UInt8) {addresses : List NativeAddress}
    (h : addresses.dropWhile (fun address => !E.opens options address) = []) :
    ¬ ∃ address ∈ addresses, E.usable options payload address = true := by
  rw [E.exists_usable_iff, h]
  rintro ⟨address, hmem, -⟩
  cases hmem

/-- Where there is an opener, what it serves and what is usable agree exactly if the
opener's family is the right one. -/
theorem Outcomes.openerServes_iff (E : Outcomes) {options : IoOptions} (payload : List UInt8)
    {addresses : List NativeAddress} {opener : NativeAddress} {rest : List NativeAddress}
    (h : addresses.dropWhile (fun address => !E.opens options address) = opener :: rest) :
    ((∃ address ∈ opener :: rest, address.family = opener.family ∧ E.sends address payload = true) ↔
      ∃ address ∈ opener :: rest, E.usable options payload address = true) ↔
    E.OpenerServes options payload addresses := by
  constructor
  · intro hagree opener' rest' h'
    obtain ⟨rfl, rfl⟩ : opener = opener' ∧ rest = rest' := by
      rw [h] at h'
      exact List.cons.inj h'
    refine ⟨fun hrefused address hmem _ => ?_, hagree.1⟩
    by_contra husable
    obtain ⟨other, hother, hfamily, hsends⟩ :=
      hagree.2 ⟨address, List.mem_cons_of_mem _ hmem, by simpa using husable⟩
    rw [hrefused other hother hfamily] at hsends
    cases hsends
  · intro hserves
    obtain ⟨hrefused, htaken⟩ := hserves opener rest h
    refine ⟨htaken, ?_⟩
    rintro ⟨address, hmem, husable⟩
    have hsends : E.sends address payload = true := (Bool.and_eq_true_iff.1 husable).2
    by_cases hfamily : address.family = opener.family
    · exact ⟨address, hmem, hfamily, hsends⟩
    -- a usable address of another family: the opener's family cannot have refused
    by_contra hnone
    have hrest : address ∈ rest := by
      rcases List.mem_cons.1 hmem with rfl | hrest
      · exact absurd rfl hfamily
      · exact hrest
    have hunusable := hrefused (fun other hother hsame => ?_) address hrest hfamily
    · rw [hunusable] at husable
      cases husable
    · by_contra htrue
      exact hnone ⟨other, hother, hsame, by simpa using htrue⟩

/-- **When the fallback is complete.**  On an unopened socket with no cache entry for
the endpoint, `send_to` succeeds exactly if some address of the resolve is usable —
provided the family of the first address that can be opened is the right one, and
only then. -/
theorem fallback_complete_iff {N : Native} {E : Outcomes} (hN : E.Steady N)
    {impl : UdpSocket.Impl} (hclosed : impl.socket = none) {endpoint : IpEndpoint}
    (hcache : impl.cachedFor endpoint = none) (hendpoint : endpoint.valid = true)
    {payload : List UInt8} (hsize : payload.length ≤ 65507) {addresses : List NativeAddress}
    (hresolves : E.resolves endpoint = .ok addresses) (log : Log) :
    ((((⟨some impl⟩ : UdpSocket).sendTo N endpoint payload).run log).1.1.isOk = true ↔
      ∃ address ∈ addresses, E.usable impl.options payload address = true) ↔
    E.OpenerServes impl.options payload addresses := by
  cases hoptions : impl.options.valid with
  | false =>
      -- invalid options: nothing can be configured, and `send_to` says so at once
      have hdrop : addresses.dropWhile (fun address => !E.opens impl.options address) = [] := by
        rw [List.dropWhile_eq_nil_iff]
        intro address _
        simp [Outcomes.opens, hoptions]
      have hfails : (((⟨some impl⟩ : UdpSocket).sendTo N endpoint payload).run log).1.1.isOk
          = false := by
        unfold UdpSocket.sendTo
        dsimp only
        rw [if_pos (.inr hoptions)]
        rfl
      constructor
      · intro _ opener rest h
        rw [hdrop] at h
        cases h
      · intro _
        rw [hfails]
        exact iff_of_false Bool.false_ne_true (E.not_usable_of_no_opener payload hdrop)
  | true =>
      have hfinds := UdpSocket.sendTo_of_not_cached hN
        (UdpSocket.Impl.inFamily_of_closed hclosed log) hcache ⟨⟨hendpoint, hoptions⟩, hsize⟩
        hresolves
      have hserves : impl.serves E addresses = E.served impl.options addresses := by
        rw [UdpSocket.Impl.serves, hclosed]
      rw [hfinds.isOk_eq, hserves]
      cases hdrop : addresses.dropWhile (fun address => !E.opens impl.options address) with
      | nil =>
          have hserved : E.served impl.options addresses = [] := by rw [Outcomes.served, hdrop]
          rw [hserved]
          refine iff_of_true (iff_of_false Bool.false_ne_true
            (E.not_usable_of_no_opener payload hdrop)) ?_
          intro opener rest h
          rw [hdrop] at h
          cases h
      | cons opener rest =>
          rw [E.served_find_iff payload hdrop, E.exists_usable_iff, hdrop]
          exact E.openerServes_iff payload hdrop

/-- A host with an address of either family, of which only the second takes datagrams. -/
def Outcomes.v6Only : Outcomes where
  resolves _ := .ok [{ storage := [192, 0, 2, 1], family := 2 },
    { storage := [32, 1, 13, 184], family := 10 }]
  creates _ := true
  configures _ _ := true
  sends address _ := decide (address.family = 10)

theorem fallback_blocked : Outcomes.v6Only.Steady Outcomes.v6Only.native ∧
    (((UdpSocket.construct {}).sendTo Outcomes.v6Only.native ⟨"peer", 53⟩ [1]).run []).1.1
      = failure .sendFailed "UDP endpoint does not match the open socket family" ∧
    Outcomes.v6Only.usable {} [1] { storage := [32, 1, 13, 184], family := 10 } = true ∧
    ¬ ((((UdpSocket.construct {}).sendTo Outcomes.v6Only.native ⟨"peer", 53⟩ [1]).run []).1.1.isOk
        = true ↔
      ∃ address ∈ [{ storage := [192, 0, 2, 1], family := 2 },
        ({ storage := [32, 1, 13, 184], family := 10 } : NativeAddress)],
        Outcomes.v6Only.usable {} [1] address = true) := by
  refine ⟨Outcomes.steady_native _, rfl, rfl, ?_⟩
  intro h
  exact Bool.false_ne_true (h.2 ⟨{ storage := [32, 1, 13, 184], family := 10 }, by simp, rfl⟩)

/-- A host of which both addresses take datagrams. -/
def Outcomes.bothFamilies : Outcomes := { Outcomes.v6Only with sends := fun _ _ => true }

theorem fallback_complete_iff_both :
    ((((UdpSocket.construct {}).sendTo Outcomes.bothFamilies.native ⟨"peer", 53⟩ [1]).run
        []).1.1.isOk = true ↔
      ∃ address ∈ [{ storage := [192, 0, 2, 1], family := 2 },
        ({ storage := [32, 1, 13, 184], family := 10 } : NativeAddress)],
        Outcomes.bothFamilies.usable {} [1] address = true) ↔
    Outcomes.bothFamilies.OpenerServes {} [1] [{ storage := [192, 0, 2, 1], family := 2 },
      { storage := [32, 1, 13, 184], family := 10 }] :=
  fallback_complete_iff (Outcomes.steady_native _) rfl rfl rfl (by decide) rfl []

end Transport
end Vosp
