import MicroProtocol.Transport.UdpFallback

/-!
# The cache of `UdpSocket::send_to`

The last destination of a UDP socket is cached: as long as datagrams go to the same
endpoint, `send_to` does not resolve it again but sends to the cached address.  This
file compares that with a socket in the same state whose cache has been emptied.

* `sendTo_emptied` — where the endpoint is not cached, the cache makes no difference
  at all.
* `sendTo_of_cached` — where it is, the cached address takes the place of the whole
  resolve.
* `cached_send_last_destination` — the two compared, for every socket a program can
  have; `cached_send_elsewhere` — they need not send to the same address, because the
  last destination is not always the first choice.
-/

namespace Vosp
namespace Transport

open Custody Detail Logged

namespace UdpSocket

/-- The implementation with nothing in its cache. -/
def Impl.uncached (impl : Impl) : Impl := { impl with cachedEndpoint := none, cachedAddress := none }

/-- The socket with nothing in its cache. -/
def emptied (u : UdpSocket) : UdpSocket := ⟨u.implementation.map Impl.uncached⟩

/-- The address `send_to` uses without resolving the endpoint. -/
def cachedFor (u : UdpSocket) (endpoint : IpEndpoint) : Option NativeAddress :=
  u.implementation.bind fun impl => impl.cachedFor endpoint

@[simp] theorem cachedFor_uncached (impl : Impl) (endpoint : IpEndpoint) :
    impl.uncached.cachedFor endpoint = none := by
  simp [Impl.uncached, Impl.cachedFor]

variable {N : Native} {E : Outcomes} {impl : Impl} {log : Log} {endpoint : IpEndpoint}
  {payload : List UInt8}

/-! ## An endpoint that is not cached -/

theorem run_ensureOpen_uncached (address : NativeAddress) (impl : Impl) (log : Log) :
    (ensureOpen N address impl.uncached).run log
      = ((((ensureOpen N address impl).run log).1.1,
          ((ensureOpen N address impl).run log).1.2.uncached),
        ((ensureOpen N address impl).run log).2) := by
  cases hsocket : impl.socket with
  | some socket =>
      have huncached : impl.uncached.socket = some socket := hsocket
      rw [ensureOpen_of_open huncached, ensureOpen_of_open hsocket]
      rfl
  | none =>
      have huncached : impl.uncached.socket = none := hsocket
      unfold ensureOpen
      simp only [hsocket, huncached, run_bind, createSocket, run_call]
      cases N.createSocket log address .datagram with
      | error e => rfl
      | ok socket =>
          have hoptions : impl.uncached.options = impl.options := rfl
          simp only [run_bind, applyOptions, run_call, hoptions]
          cases N.applyOptions _ socket impl.options with
          | error e => rfl
          | ok u => rfl

theorem run_sendLoop_uncached (addresses : List NativeAddress) (lastError : Option Error)
    (impl : Impl) (log : Log) :
    ((sendLoop N endpoint payload addresses lastError impl.uncached).run log).1.1
        = ((sendLoop N endpoint payload addresses lastError impl).run log).1.1 ∧
      ((sendLoop N endpoint payload addresses lastError impl.uncached).run log).2
        = ((sendLoop N endpoint payload addresses lastError impl).run log).2 := by
  induction addresses generalizing lastError impl log with
  | nil => cases lastError <;> exact ⟨rfl, rfl⟩
  | cons address addresses ih =>
      unfold sendLoop
      simp only [run_bind, run_ensureOpen_uncached]
      rcases (ensureOpen N address impl).run log with ⟨⟨e | socket, impl'⟩, log'⟩
      · exact ih _ impl' log'
      simp only [run_bind, sendDatagram, run_call]
      cases N.sendDatagram log' socket address payload with
      | error e => exact ih _ impl' _
      | ok sent => exact ⟨rfl, rfl⟩

/-- Without an entry for the endpoint, the cache makes no difference: same result, same
calls. -/
theorem sendTo_emptied {u : UdpSocket} (hcache : u.cachedFor endpoint = none) (log : Log) :
    ((u.emptied.sendTo N endpoint payload).run log).1.1
        = ((u.sendTo N endpoint payload).run log).1.1 ∧
      ((u.emptied.sendTo N endpoint payload).run log).2
        = ((u.sendTo N endpoint payload).run log).2 := by
  obtain ⟨_ | impl⟩ := u
  · exact ⟨rfl, rfl⟩
  have himpl : impl.cachedFor endpoint = none := hcache
  show ((sendTo N endpoint payload ⟨some impl.uncached⟩).run log).1.1 = _ ∧
    ((sendTo N endpoint payload ⟨some impl.uncached⟩).run log).2 = _
  unfold sendTo
  simp only [cachedFor_uncached, himpl]
  have hoptions : impl.uncached.options = impl.options := rfl
  rw [hoptions]
  split_ifs
  · exact ⟨rfl, rfl⟩
  · exact ⟨rfl, rfl⟩
  simp only [run_bind, resolve, run_call]
  cases N.resolve log endpoint .datagram false with
  | error e => exact ⟨rfl, rfl⟩
  | ok addresses => exact run_sendLoop_uncached addresses none impl _

/-! ## An endpoint that is cached -/

/-- One datagram, and no more. -/
theorem finds_one {α : Type} {socket : Handle} {address : NativeAddress} (a : α)
    (hsend : (N.sendDatagram log socket address payload).isOk = E.sends address payload) :
    Finds ((N.sendDatagram log socket address payload, a),
        .sendDatagram socket address payload (N.sendDatagram log socket address payload) :: log)
      ([address].find? fun address => E.sends address payload) := by
  rw [find?_of_answer hsend]
  cases N.sendDatagram log socket address payload with
  | ok sent => exact ⟨rfl, fun address' h => h⟩
  | error e => exact ⟨rfl, fun address' h => by cases h⟩

/-- The cached address takes the place of the whole resolve. -/
theorem sendTo_of_cached (hN : E.Steady N) (hfamily : impl.InFamily log)
    {address : NativeAddress} (hcache : impl.cachedFor endpoint = some address)
    (haccepts : impl.Accepts endpoint payload) :
    Finds (((⟨some impl⟩ : UdpSocket).sendTo N endpoint payload).run log)
      ((impl.serves E [address]).find? fun address => E.sends address payload) := by
  unfold sendTo
  dsimp only
  rw [if_neg haccepts.not_refused, if_neg (Nat.not_lt.2 haccepts.2), hcache]
  simp only [run_bind]
  unfold Impl.serves
  cases hsocket : impl.socket with
  | some socket =>
      obtain ⟨created, hcreated, hown⟩ := hfamily socket hsocket
      rw [ensureOpen_of_open hsocket]
      by_cases hsame : address.family = impl.family
      · rw [if_pos hsame, List.filter_cons_of_pos (by simpa using hsame)]
        exact finds_one _ (hN.send log socket created address payload hcreated
          (hown.trans hsame.symm))
      · rw [if_neg hsame, List.filter_cons_of_neg (by simpa using hsame)]
        exact ⟨rfl, fun address' h => by cases h⟩
  | none =>
      dsimp only
      rcases run_ensureOpen_of_closed hN hsocket address log with
        ⟨hopens, socket, log', hrun, hcreated⟩ | ⟨hopens, e, log', hrun⟩
      · rw [hrun, E.served_cons_of_opens hopens]
        exact finds_one _ (hN.send log' socket address address payload hcreated rfl)
      · rw [hrun, E.served_cons_of_not_opens hopens]
        exact ⟨rfl, fun address' h => by cases h⟩

/-- A datagram is only sent if the arguments are in order. -/
theorem accepted_of_isOk (h : ((sendTo N endpoint payload ⟨some impl⟩).run log).1.1.isOk = true) :
    impl.Accepts endpoint payload := by
  unfold sendTo at h
  dsimp only at h
  split_ifs at h with hinvalid hlarge
  · cases h
  · cases h
  · simp only [not_or, Bool.not_eq_false] at hinvalid
    exact ⟨hinvalid, Nat.le_of_not_lt hlarge⟩

end UdpSocket

/-- The first address that can be opened, if there is one, is of this address's family. -/
def Outcomes.OpensFirst (E : Outcomes) (options : IoOptions) (address : NativeAddress)
    (addresses : List NativeAddress) : Prop :=
  ∀ opener rest, addresses.dropWhile (fun address => !E.opens options address) = opener :: rest →
    opener.family = address.family

namespace UdpSocket

variable {N : Native} {E : Outcomes} {impl : Impl} {log : Log} {endpoint : IpEndpoint}
  {payload : List UInt8} {address : NativeAddress} {addresses : List NativeAddress}

/-- Alone, an address is served if the socket is of its family or can be opened for
it. -/
theorem mem_serves_singleton {other : NativeAddress} :
    other ∈ impl.serves E [address] ↔ other = address ∧
      if impl.socket.isSome then address.family = impl.family
      else E.opens impl.options address = true := by
  unfold Impl.serves
  cases impl.socket with
  | some socket =>
      show other ∈ [address].filter _ ↔ _
      rw [List.mem_filter, List.mem_singleton]
      constructor
      · rintro ⟨rfl, hfamily⟩
        exact ⟨rfl, by simpa using hfamily⟩
      · rintro ⟨rfl, hfamily⟩
        exact ⟨rfl, by simpa using hfamily⟩
  | none =>
      show other ∈ E.served impl.options [address] ↔ _
      cases hopens : E.opens impl.options address with
      | true =>
          rw [E.served_cons_of_opens hopens]
          simp
      | false =>
          rw [E.served_cons_of_not_opens hopens]
          simp [Outcomes.served]

/-- What is served alone is served in the list too, unless the socket is opened for
another family. -/
theorem mem_serves_of_singleton (halone : address ∈ impl.serves E [address])
    (hmem : address ∈ addresses)
    (hfirst : impl.socket.isSome = true ∨ E.OpensFirst impl.options address addresses) :
    address ∈ impl.serves E addresses := by
  obtain ⟨-, hserves⟩ := mem_serves_singleton.1 halone
  unfold Impl.serves
  cases hsocket : impl.socket with
  | some socket =>
      rw [hsocket] at hserves
      exact List.mem_filter.2 ⟨hmem, by simpa using hserves⟩
  | none =>
      rw [hsocket] at hserves hfirst
      have hopens : E.opens impl.options address = true := by simpa using hserves
      have hopener : E.OpensFirst impl.options address addresses := by simpa using hfirst
      have hrest := E.mem_dropWhile hopens hmem
      show address ∈ E.served impl.options addresses
      unfold Outcomes.served
      cases hdrop : addresses.dropWhile (fun address => !E.opens impl.options address) with
      | nil =>
          rw [hdrop] at hrest
          cases hrest
      | cons opener rest =>
          rw [hdrop] at hrest
          rcases List.mem_cons.1 hrest with rfl | hrest
          · exact List.mem_cons_self ..
          · refine List.mem_cons_of_mem _ (List.mem_filter.2 ⟨hrest, ?_⟩)
            simpa using (hopener opener rest hdrop).symm

/-- And what is served in the list is served alone, if it can be opened. -/
theorem mem_singleton_of_serves (hserved : address ∈ impl.serves E addresses)
    (hopens : impl.socket.isSome = true ∨ E.opens impl.options address = true) :
    address ∈ impl.serves E [address] := by
  refine mem_serves_singleton.2 ⟨rfl, ?_⟩
  unfold Impl.serves at hserved
  cases hsocket : impl.socket with
  | some socket =>
      rw [hsocket] at hserved
      simpa using (List.mem_filter.1 hserved).2
  | none =>
      rw [hsocket] at hopens
      simpa using hopens

/-- The call asks for the addresses of an endpoint. -/
def asksName : Event → Bool
  | .resolve .. => true
  | _ => false

/-- With an entry for the endpoint, `send_to` does not resolve it. -/
theorem makes_sendTo_of_cached (hcache : impl.cachedFor endpoint = some address) :
    Makes (fun e => asksName e = false) ((⟨some impl⟩ : UdpSocket).sendTo N endpoint payload) := by
  unfold sendTo
  dsimp only
  rw [hcache]
  split_ifs
  · exact makes_pure
  · exact makes_pure
  refine (makes_ensureOpen (fun _ _ _ => rfl) (fun _ _ _ => rfl) (fun _ => rfl) (fun _ => rfl)
    address impl).bind fun r => ?_
  obtain ⟨e | socket, impl'⟩ := r
  · exact makes_pure
  · exact Makes.bind (makes_call fun log => rfl) fun sent => makes_pure

/-- `send_to` on a socket that has the endpoint cached at `address`, against `send_to`
on the same socket with its cache emptied. -/
structure SendsToLast (E : Outcomes) (impl : Impl) (endpoint : IpEndpoint)
    (address : NativeAddress) (log : Log) (cached plain : (Result Nat × UdpSocket) × Log) :
    Prop where
  /-- The cached address is one that the endpoint resolves to. -/
  resolves : ∃ addresses, E.resolves endpoint = .ok addresses ∧ address ∈ addresses
  asks_nothing : ∃ calls, cached.2 = calls ++ log ∧ ∀ e ∈ calls, asksName e = false
  delivers : cached.1.1.isOk = true → delivered cached.2 = some address
  /-- What the cache delivers would be delivered without it, to this or another address,
  unless the socket is still to be opened and another family comes first. -/
  sound : ∀ addresses, E.resolves endpoint = .ok addresses → cached.1.1.isOk = true →
    (impl.socket.isSome = true ∨ E.OpensFirst impl.options address addresses) →
    plain.1.1.isOk = true
  /-- Where the cached address is the one that is chosen without the cache, the cache
  makes no difference. -/
  agrees : plain.1.1.isOk = true → delivered plain.2 = some address →
    (impl.socket.isSome = true ∨ E.opens impl.options address = true) →
    cached.1.1.isOk = true ∧ delivered cached.2 = delivered plain.2

/-- A search that can only find the cached address. -/
theorem Finds.of_singleton {out : (Result Nat × UdpSocket) × Log}
    (h : Finds out ((impl.serves E [address]).find? fun address => E.sends address payload)) :
    (out.1.1.isOk = true ↔
        address ∈ impl.serves E [address] ∧ E.sends address payload = true) ∧
      (out.1.1.isOk = true → delivered out.2 = some address) := by
  have honly : ∀ other ∈ impl.serves E [address], other = address := fun other hother =>
    (mem_serves_singleton.1 hother).1
  rw [h.isOk_eq]
  constructor
  · rw [List.find?_isSome]
    constructor
    · rintro ⟨other, hother, hsends⟩
      obtain rfl := honly other hother
      exact ⟨hother, hsends⟩
    · rintro ⟨hmem, hsends⟩
      exact ⟨address, hmem, hsends⟩
  · intro hsome
    obtain ⟨other, hfound⟩ := Option.isSome_iff_exists.1 hsome
    obtain rfl := honly other (List.mem_of_find?_eq_some hfound)
    exact h.delivers other hfound

/-- With its cache emptied, the socket searches all it serves of the resolve. -/
theorem sendTo_uncached (hN : E.Steady N) (hfamily : impl.InFamily log)
    (haccepts : impl.Accepts endpoint payload) (hresolves : E.resolves endpoint = .ok addresses) :
    Finds (((⟨some impl.uncached⟩ : UdpSocket).sendTo N endpoint payload).run log)
      ((impl.serves E addresses).find? fun address => E.sends address payload) := by
  have huncached : impl.uncached.InFamily log := hfamily
  exact sendTo_of_not_cached hN huncached (cachedFor_uncached impl endpoint) haccepts hresolves

theorem sendsToLast (hN : E.Steady N) (hfamily : impl.InFamily log)
    (hcache : impl.cachedFor endpoint = some address)
    (hresolves : E.resolves endpoint = .ok addresses) (hmem : address ∈ addresses)
    (payload : List UInt8) :
    SendsToLast E impl endpoint address log
      (((⟨some impl⟩ : UdpSocket).sendTo N endpoint payload).run log)
      (((⟨some impl.uncached⟩ : UdpSocket).sendTo N endpoint payload).run log) where
  resolves := ⟨addresses, hresolves, hmem⟩
  asks_nothing := makes_sendTo_of_cached hcache log
  delivers := by
    intro hok
    have hcached := sendTo_of_cached hN hfamily hcache (accepted_of_isOk hok)
    exact hcached.of_singleton.2 hok
  sound := by
    intro addresses' hresolves' hok hfirst
    obtain rfl : addresses = addresses' := Except.ok.inj (hresolves.symm.trans hresolves')
    have haccepts := accepted_of_isOk hok
    have hcached := sendTo_of_cached hN hfamily hcache haccepts
    obtain ⟨halone, hsends⟩ := hcached.of_singleton.1.1 hok
    have hplain := sendTo_uncached hN hfamily haccepts hresolves
    rw [hplain.isOk_eq, List.find?_isSome]
    exact ⟨address, mem_serves_of_singleton halone hmem hfirst, hsends⟩
  agrees := by
    intro hok hdelivered hopens
    have huncached : impl.uncached.Accepts endpoint payload := accepted_of_isOk hok
    have haccepts : impl.Accepts endpoint payload := huncached
    have hplain := sendTo_uncached hN hfamily haccepts hresolves
    have hcached := sendTo_of_cached hN hfamily hcache haccepts
    -- the search without the cache ended at the cached address
    rw [hplain.isOk_eq] at hok
    obtain ⟨other, hfound⟩ := Option.isSome_iff_exists.1 hok
    have hother : some other = some address := (hplain.delivers other hfound).symm.trans hdelivered
    cases hother
    have halone := mem_singleton_of_serves (List.mem_of_find?_eq_some hfound) hopens
    have hsends := List.find?_some hfound
    have hsent := hcached.of_singleton.1.2 ⟨halone, hsends⟩
    exact ⟨hsent, (hcached.of_singleton.2 hsent).trans hdelivered.symm⟩

end UdpSocket

/-! ## Every reachable socket -/

/-- The cache makes no difference to a send: it succeeds with the cache exactly if it
succeeds without, and on success goes to the same address. -/
def CacheTransparent (N : Native) (u : UdpSocket) (endpoint : IpEndpoint) (payload : List UInt8)
    (log : Log) : Prop :=
  (((u.sendTo N endpoint payload).run log).1.1.isOk = true ↔
      ((u.emptied.sendTo N endpoint payload).run log).1.1.isOk = true) ∧
    (((u.sendTo N endpoint payload).run log).1.1.isOk = true →
      delivered ((u.sendTo N endpoint payload).run log).2
        = delivered ((u.emptied.sendTo N endpoint payload).run log).2)

/-- **The cached path sends to the last destination.**  Take any operating system
whose answers depend only on the questions, and any UDP socket of any program on it.

Where the endpoint is not cached, `send_to` has the same result and makes the same
calls as with the cache emptied.  Where it is, the cached address is one of those that
the endpoint resolves to; `send_to` does not resolve it again, and if it succeeds, the
datagram went to the cached address.  In that case it could have been sent without the
cache too, if the socket is open or would not be opened for another family first.  And
if without the cache the datagram goes to the cached address, it goes there with the
cache as well, if the socket is open or can be opened for it. -/
theorem cached_send_last_destination {N : Native} {E : Outcomes} (hN : E.Steady N)
    {ops : List Op} {id : Nat} {u : UdpSocket}
    (hid : (World.run N ops).objects[id]? = some (some (.udp u))) (endpoint : IpEndpoint)
    (payload : List UInt8) :
    (u.cachedFor endpoint = none →
      ((u.emptied.sendTo N endpoint payload).run (World.run N ops).log).1.1
          = ((u.sendTo N endpoint payload).run (World.run N ops).log).1.1 ∧
        ((u.emptied.sendTo N endpoint payload).run (World.run N ops).log).2
          = ((u.sendTo N endpoint payload).run (World.run N ops).log).2) ∧
    ∀ impl address, u.implementation = some impl → impl.cachedFor endpoint = some address →
      UdpSocket.SendsToLast E impl endpoint address (World.run N ops).log
        ((u.sendTo N endpoint payload).run (World.run N ops).log)
        ((u.emptied.sendTo N endpoint payload).run (World.run N ops).log) := by
  refine ⟨fun hcache => UdpSocket.sendTo_emptied hcache _, ?_⟩
  intro impl address himpl hcache
  obtain ⟨implementation⟩ := u
  cases himpl
  -- what the cache and the log say about a reachable socket
  have hanswers : Answers N fun endpoint passive addresses =>
      passive = false → E.resolves endpoint = .ok addresses := by
    rintro log endpoint passive addresses h rfl
    rw [← hN.resolve log endpoint, h]
  have hkeeps := (saneInvariant hanswers).of_run ops
  have hconsistent := (UdpSocket.sane_iff _ impl).1 (hkeeps.object hid)
  obtain ⟨addresses, hresolves, hmem⟩ := hconsistent.allowed_of_cachedFor hcache
  exact UdpSocket.sendsToLast hN hconsistent.inFamily hcache (hresolves rfl) hmem payload

/-- A host with two addresses, of which the first takes small datagrams only. -/
def Outcomes.narrowFirst : Outcomes where
  resolves _ := .ok [{ storage := [192, 0, 2, 1], family := 2 },
    { storage := [192, 0, 2, 2], family := 2 }]
  creates _ := true
  configures _ _ := true
  sends address payload :=
    decide (address.storage = [192, 0, 2, 2]) || decide (payload.length ≤ 1)

/-- The socket after a datagram that was too large for the first address. -/
def afterLarge : World := World.run Outcomes.narrowFirst.native
  [.newUdp {}, .call 0 (.sendTo ⟨"peer", 53⟩ [1, 2])]

theorem cached_send_elsewhere : Outcomes.narrowFirst.Steady Outcomes.narrowFirst.native ∧
    ∃ u, afterLarge.objects[0]? = some (some (.udp u)) ∧
      delivered ((u.sendTo Outcomes.narrowFirst.native ⟨"peer", 53⟩ [1]).run afterLarge.log).2
        = some { storage := [192, 0, 2, 2], family := 2 } ∧
      delivered ((u.emptied.sendTo Outcomes.narrowFirst.native ⟨"peer", 53⟩ [1]).run
        afterLarge.log).2 = some { storage := [192, 0, 2, 1], family := 2 } ∧
      ¬ CacheTransparent Outcomes.narrowFirst.native u ⟨"peer", 53⟩ [1] afterLarge.log := by
  let impl : UdpSocket.Impl :=
    { socket := some 1, family := 2, cachedEndpoint := some ⟨"peer", 53⟩,
      cachedAddress := some { storage := [192, 0, 2, 2], family := 2 } }
  let u : UdpSocket := ⟨some impl⟩
  have hcached : delivered ((u.sendTo Outcomes.narrowFirst.native ⟨"peer", 53⟩ [1]).run
      afterLarge.log).2 = some { storage := [192, 0, 2, 2], family := 2 } := rfl
  have hplain : delivered ((u.emptied.sendTo Outcomes.narrowFirst.native ⟨"peer", 53⟩ [1]).run
      afterLarge.log).2 = some { storage := [192, 0, 2, 1], family := 2 } := rfl
  refine ⟨Outcomes.steady_native _, u, rfl, hcached, hplain, ?_⟩
  intro h
  have hsame := h.2 rfl
  rw [hcached, hplain] at hsame
  cases hsame

theorem cached_send_last_destination_large :
    ∃ u impl, afterLarge.objects[0]? = some (some (.udp u)) ∧ u.implementation = some impl ∧
      impl.cachedFor ⟨"peer", 53⟩ = some { storage := [192, 0, 2, 2], family := 2 } ∧
      UdpSocket.SendsToLast Outcomes.narrowFirst impl ⟨"peer", 53⟩
        { storage := [192, 0, 2, 2], family := 2 } afterLarge.log
        ((u.sendTo Outcomes.narrowFirst.native ⟨"peer", 53⟩ [1]).run afterLarge.log)
        ((u.emptied.sendTo Outcomes.narrowFirst.native ⟨"peer", 53⟩ [1]).run afterLarge.log) := by
  let impl : UdpSocket.Impl :=
    { socket := some 1, family := 2, cachedEndpoint := some ⟨"peer", 53⟩,
      cachedAddress := some { storage := [192, 0, 2, 2], family := 2 } }
  have hid : afterLarge.objects[0]? = some (some (.udp ⟨some impl⟩)) := rfl
  refine ⟨⟨some impl⟩, impl, hid, rfl, rfl, ?_⟩
  exact (cached_send_last_destination (Outcomes.steady_native _) hid ⟨"peer", 53⟩ [1]).2 impl _
    rfl rfl

end Transport
end Vosp
