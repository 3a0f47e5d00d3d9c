import MicroProtocol.Transport.Sockets
import MicroProtocol.Transport.TwinWorlds

/-!
# The two platforms agree

`socket_posix.cpp` and `socket_windows.cpp` wrap different operating systems.  Where the
systems do the same, so does the transport: a program cannot tell the two apart, but for
the texts and the native codes of its errors.

* `Sys.Corresponds` — two operating systems that do the same.  They number handles and
  families and lay out addresses differently, pass a timeout as a different value, show a
  datagram that is too large in a different way, and fail with native codes of their own.
* `stoul_toString` — the port of an address is read back from its text, whatever the width
  of an `unsigned long`.
* `Sys.Corresponds.alike` — the native layers are alike.
* `platforms_agree` — so is what any program makes of them.
-/

namespace Vosp
namespace Transport

open Relational

/-- Both calls succeed with values that are related by `V`, or both fail. -/
inductive Same {α : Type} (V : α → α → Prop) : Except Int α → Except Int α → Prop where
  | ok {a b : α} (h : V a b) : Same V (.ok a) (.ok b)
  | error (code code' : Int) : Same V (.error code) (.error code')

/-- How a received datagram shows up on POSIX and on Windows. -/
inductive SameDatagram (same : NativeAddress → NativeAddress → Prop) (size : Nat) :
    Except Int (NativeAddress × List UInt8) → Except Int (NativeAddress × List UInt8) → Prop where
  | received {remote remote' payload} (hremote : same remote remote')
      (h : payload.length ≤ size) :
      SameDatagram same size (.ok (remote, payload)) (.ok (remote', payload))
  | tooLarge {remote payload} (h : size < payload.length) :
      SameDatagram same size (.ok (remote, payload)) (.error wsaeMsgSize)
  | failed (code : Int) {code' : Int} (h : code' ≠ wsaeMsgSize) :
      SameDatagram same size (.error code) (.error code')

/-- The milliseconds a timeout stands for. -/
def OptionValue.duration : OptionValue → Option Int
  | .timeval seconds microseconds => some (seconds * 1000 + microseconds / 1000)
  | .milliseconds value => some value
  | .enabled => none

/-- The longest timeout that Windows can be given, some 50 days. -/
def longestTimeout : Int := 4294967295

/-- The operating systems do the same, after native calls that had the same effects, for
handles that the same call has opened and for addresses that correspond by `same`.  A timeout
counts by its duration, and all that are too long for Windows count as one. -/
structure Sys.Corresponds (same : NativeAddress → NativeAddress → Prop) (posix windows : Sys) :
    Prop where
  /-- Addresses of one family correspond to addresses of one family. -/
  family : ∀ {a a' b b'}, same a a' → same b b' → (a.family = b.family ↔ a'.family = b'.family)
  storage : ∀ {a a'}, same a a' →
    (a.storage.length ≤ Sockets.storageSize ↔ a'.storage.length ≤ Sockets.storageSize)
  getaddrinfo : ∀ {log log'}, Log.Alike same log log' → ∀ host service type passive,
    Same (List.Forall₂ same) (posix.getaddrinfo log host service type passive)
      (windows.getaddrinfo log' host service type passive)
  getnameinfo : ∀ {log log' a a'}, Log.Alike same log log' → same a a' →
    Same Eq (posix.getnameinfo log a) (windows.getnameinfo log' a')
  /-- The flag `NI_NUMERICSERV` asks for the port in digits. -/
  numeric : ∀ {log address host service}, posix.getnameinfo log address = .ok (host, service) →
    ∃ port : UInt16, service = toString port.toNat
  socket : ∀ {log log' a a'}, Log.Alike same log log' → same a a' → ∀ type,
    Same (fun _ _ => True) (posix.socket log a.family type) (windows.socket log' a'.family type)
  timeout : ∀ {log log' s s'}, Log.Alike same log log' → Partners log log' s s' → ∀ option
    {value value' : OptionValue} {duration duration' : Int}, value.duration = some duration →
    value'.duration = some duration' → min duration longestTimeout = min duration' longestTimeout →
    Same Eq (posix.setsockopt log s option value) (windows.setsockopt log' s' option value')
  reuseAddress : ∀ {log log' s s'}, Log.Alike same log log' → Partners log log' s s' →
    Same Eq (posix.setsockopt log s .reuseAddress .enabled)
      (windows.setsockopt log' s' .reuseAddress .enabled)
  connect : ∀ {log log' s s' a a'}, Log.Alike same log log' → Partners log log' s s' →
    same a a' → Same Eq (posix.connect log s a) (windows.connect log' s' a')
  bind : ∀ {log log' s s' a a'}, Log.Alike same log log' → Partners log log' s s' →
    same a a' → Same Eq (posix.bind log s a) (windows.bind log' s' a')
  listen : ∀ {log log' s s'}, Log.Alike same log log' → Partners log log' s s' → ∀ backlog,
    Same Eq (posix.listen log s backlog) (windows.listen log' s' backlog)
  accept : ∀ {log log' s s'}, Log.Alike same log log' → Partners log log' s s' →
    Same (fun x y => same x.2 y.2) (posix.accept log s) (windows.accept log' s')
  getsockname : ∀ {log log' s s'}, Log.Alike same log log' → Partners log log' s s' →
    Same same (posix.getsockname log s) (windows.getsockname log' s')
  send : ∀ {log log' s s'}, Log.Alike same log log' → Partners log log' s s' → ∀ bytes,
    Same Eq (posix.send log s bytes) (windows.send log' s' bytes)
  recv : ∀ {log log' s s'}, Log.Alike same log log' → Partners log log' s s' → ∀ size,
    Same Eq (posix.recv log s size) (windows.recv log' s' size)
  sendto : ∀ {log log' s s' a a'}, Log.Alike same log log' → Partners log log' s s' →
    same a a' → ∀ payload,
    Same Eq (posix.sendto log s payload a) (windows.sendto log' s' payload a')
  recvfrom : ∀ {log log' s s'}, Log.Alike same log log' → Partners log log' s s' → ∀ size,
    SameDatagram same size (posix.recvfrom log s size) (windows.recvfrom log' s' size)

/-! ## The functions of the two files -/

/-- `std::stoul` reads a number in digits. -/
theorem stoul_of_digits {limit : Nat} {text : String} (hne : text.toList ≠ [])
    (hdigits : ∀ c ∈ text.toList, c.isDigit = true)
    (hlimit : Nat.ofDigitChars 10 text.toList 0 < limit) :
    stoul limit text = some (Nat.ofDigitChars 10 text.toList 0) := by
  obtain ⟨c, rest, htext⟩ := List.exists_cons_of_ne_nil hne
  have hc : 48 ≤ c.toNat ∧ c.toNat ≤ 57 := by
    have hdigit := hdigits c (by rw [htext]; exact List.mem_cons_self)
    rw [Char.isDigit_iff_toNat] at hdigit
    exact hdigit
  have hspace : text.toList.dropWhile (fun c => c = ' ' || (9 ≤ c.toNat && c.toNat ≤ 13)) =
      text.toList := by
    rw [htext, List.dropWhile_cons_of_neg]
    have hblank : c ≠ ' ' := by
      rintro rfl
      exact absurd hc.1 (by decide)
    simp [hblank]
    omega
  have hall : text.toList.takeWhile Char.isDigit = text.toList :=
    List.takeWhile_eq_self_iff.2 hdigits
  unfold stoul
  rw [hspace, htext]
  dsimp only
  -- a digit is no sign
  split
  · rename_i heq
    cases heq
    exact absurd hc.1 (by decide)
  · rename_i heq
    cases heq
    exact absurd hc.1 (by decide)
  · rw [← htext]
    dsimp only
    rw [hall]
    change (if text.toList = [] ∨ Nat.ofDigitChars 10 text.toList 0 ≥ limit then none else _) = _
    rw [if_neg (by simp [hne]; omega)]
    rfl

/-- In particular one that was written in digits. -/
theorem stoul_toString {limit n : Nat} (hn : n < limit) : stoul limit (toString n) = some n := by
  have htext : (toString n).toList = Nat.toDigits 10 n := Nat.toList_repr
  have hvalue : Nat.ofDigitChars 10 (toString n).toList 0 = n := by
    rw [htext]
    exact Nat.ofDigitChars_toDigits (by decide) (by decide)
  rw [stoul_of_digits, hvalue]
  · rw [htext]
    exact Nat.toDigits_ne_nil
  · intro c hc
    rw [htext] at hc
    exact Nat.isDigit_of_mem_toDigits (by decide) (by decide) hc
  · rwa [hvalue]

/-- A call of the operating system and the error made of its failure. -/
theorem Same.checked {α β : Type} {V : α → α → Prop} {W : β → β → Prop} {wrap : α → β}
    {r r' : Except Int α} (h : Same V r r') (hwrap : ∀ {a b}, V a b → W (wrap a) (wrap b))
    (code : ErrorCode) (message message' : Int → String) :
    AlikeBy W (checked code message wrap r) (checked code message' wrap r') := by
  cases h with
  | ok hab => exact .ok (hwrap hab)
  | error native native' => exact .error rfl

namespace Dialect

/-- POSIX passes a timeout exactly. -/
theorem duration_posix (sys : Sys) {timeout : Int} (h : 0 ≤ timeout) :
    ((posix sys).timeoutValue timeout).duration = some timeout := by
  change some (timeout.tdiv 1000 * 1000 + timeout.tmod 1000 * 1000 / 1000) = some timeout
  rw [Int.tdiv_eq_ediv_of_nonneg h, Int.tmod_eq_emod_of_nonneg h,
    Int.mul_ediv_cancel _ (by decide)]
  congr 1
  omega

/-- Windows passes it exactly up to the longest one. -/
theorem duration_windows (startup : Int) {timeout : Int} (h : 0 ≤ timeout) :
    ((windows startup).timeoutValue timeout).duration = some (min timeout longestTimeout) := by
  change some (((min timeout 4294967295).toNat % 2 ^ 32 : Nat) : Int)
    = some (min timeout longestTimeout)
  have hsmall : (min timeout 4294967295).toNat < 2 ^ 32 := by omega
  rw [Nat.mod_eq_of_lt hsmall, Int.toNat_of_nonneg (by omega)]
  rfl

end Dialect

namespace Sys.Corresponds

open Sockets

variable {same : NativeAddress → NativeAddress → Prop} {posix windows : Sys}
  (h : posix.Corresponds same windows) {log log' : Log} (hlog : Log.Alike same log log')

include h hlog

theorem resolve (endpoint : IpEndpoint) (type : SocketType) (passive : Bool) :
    AlikeBy (List.Forall₂ same) (Sockets.resolve (.posix posix) posix log endpoint type passive)
      (Sockets.resolve (.windows 0) windows log' endpoint type passive) := by
  unfold Sockets.resolve
  change AlikeBy _ (if endpoint.valid = false then _ else _)
    (if endpoint.valid = false then _ else _)
  by_cases hvalid : endpoint.valid = false
  · rw [if_pos hvalid, if_pos hvalid]
    exact .error rfl
  rw [if_neg hvalid, if_neg hvalid]
  have hentries := h.getaddrinfo hlog
    (if passive = true ∧ endpoint.host = "*" then none else some endpoint.host)
    (toString endpoint.port.toNat) type passive
  dsimp only
  generalize posix.getaddrinfo log _ _ type passive = r at hentries ⊢
  generalize windows.getaddrinfo log' _ _ type passive = r' at hentries ⊢
  cases hentries with
  | error code code' => exact .error rfl
  | @ok entries entries' hentries =>
      have hfit := List.rel_filter (p := fun a => a.storage.length ≤ storageSize)
        (q := fun a => a.storage.length ≤ storageSize) (fun a a' ha => by simpa using h.storage ha)
        hentries
      dsimp only
      generalize entries.filter _ = addresses at hfit ⊢
      generalize entries'.filter _ = addresses' at hfit ⊢
      cases hfit with
      | nil => exact .error rfl
      | cons ha hrest => exact .ok (.cons ha hrest)

theorem toEndpoint {address address' : NativeAddress} (ha : same address address') :
    Alike (Sockets.toEndpoint (.posix posix) posix log address)
      (Sockets.toEndpoint (.windows 0) windows log' address') := by
  unfold Sockets.toEndpoint
  have hname := h.getnameinfo hlog ha
  have hnumeric := @numeric same posix windows h log address
  revert hname hnumeric
  generalize posix.getnameinfo log address = r
  generalize windows.getnameinfo log' address' = r'
  intro hname hnumeric
  cases hname with
  | error code code' => exact .error rfl
  | @ok name name' heq =>
      obtain rfl : name = name' := heq
      obtain ⟨host, service⟩ := name
      obtain ⟨port, rfl⟩ := hnumeric rfl
      have hport := port.toNat_lt
      have hposix : stoul (Dialect.posix posix).unsignedLong (toString port.toNat) =
          some port.toNat := stoul_toString (lt_trans hport (by decide : 2 ^ 16 < 2 ^ 64))
      have hwindows : stoul (Dialect.windows 0).unsignedLong (toString port.toNat) =
          some port.toNat := stoul_toString (lt_trans hport (by decide : 2 ^ 16 < 2 ^ 32))
      dsimp only
      rw [hposix, hwindows]
      exact .ok rfl

variable {socket socket' : Handle} (hs : Partners log log' socket socket')

include hs

theorem setTimeout (option : OptionName) {timeout : Int} (ht : 0 ≤ timeout) :
    Alike (Sockets.setTimeout (.posix posix) posix log socket option timeout)
      (Sockets.setTimeout (.windows 0) windows log' socket' option timeout) := by
  unfold Sockets.setTimeout
  split_ifs
  · exact .ok rfl
  · refine (h.timeout hlog hs option (Dialect.duration_posix posix ht)
      (Dialect.duration_windows 0 ht) ?_).checked id _ _ _
    rw [min_assoc, min_self]

theorem applyOptions (options : IoOptions) :
    Alike (Sockets.applyOptions (.posix posix) posix log socket options)
      (Sockets.applyOptions (.windows 0) windows log' socket' options) := by
  unfold Sockets.applyOptions
  split_ifs with hvalid
  · exact .refl _
  obtain ⟨hreceive, hsend⟩ : options.receiveTimeout ≥ 0 ∧ options.sendTimeout ≥ 0 := by
    simpa [IoOptions.valid] using hvalid
  have hfirst := h.setTimeout hlog hs .receiveTimeout hreceive
  revert hfirst
  generalize Sockets.setTimeout (.posix posix) posix log socket .receiveTimeout _ = r
  generalize Sockets.setTimeout (.windows 0) windows log' socket' .receiveTimeout _ = r'
  intro hfirst
  cases hfirst with
  | error hcode => exact .error hcode
  | ok _ => exact h.setTimeout hlog hs .sendTimeout hsend

theorem receiveDatagram (size : Nat) :
    AlikeBy (fun d d' => same d.remote d'.remote ∧ d.payload = d'.payload)
      (Sockets.receiveDatagram (.posix posix) posix log socket size)
      (Sockets.receiveDatagram (.windows 0) windows log' socket' size) := by
  unfold Sockets.receiveDatagram
  have hdatagram := h.recvfrom hlog hs size
  generalize posix.recvfrom log socket size = r at hdatagram ⊢
  generalize windows.recvfrom log' socket' size = r' at hdatagram ⊢
  cases hdatagram with
  | @received remote remote' payload hremote hsize =>
      have hposix : (Dialect.posix posix).receivedDatagram size (.ok (remote, payload)) =
          .ok ⟨remote, payload⟩ := if_neg (by omega)
      rw [hposix]
      exact .ok ⟨hremote, rfl⟩
  | @tooLarge remote payload hsize =>
      have hposix : (Dialect.posix posix).receivedDatagram size (.ok (remote, payload)) =
          failure .datagramTooLarge "received UDP datagram exceeds the requested bound" :=
        if_pos hsize
      rw [hposix]
      exact .error rfl
  | @failed code code' hcode =>
      have hwindows : (Dialect.windows 0).receivedDatagram size (.error code') =
          failure .receiveFailed ("recvfrom" ++ " failed with WinSock error " ++ toString code')
            code' := if_neg hcode
      rw [hwindows]
      exact .error rfl

omit hlog hs

/-- The native layers are alike. -/
theorem alike : (Layer.posix posix).native.Alike same (Layer.windows windows 0).native where
  family := h.family
  resolve hlog := h.resolve hlog
  toEndpoint hlog ha := h.toEndpoint hlog ha
  createSocket hlog ha type := (h.socket hlog ha type).checked id ..
  applyOptions hlog hs := h.applyOptions hlog hs
  setReuseAddress hlog hs := (h.reuseAddress hlog hs).checked id ..
  connectSocket hlog hs ha := (h.connect hlog hs ha).checked id ..
  bindSocket hlog hs ha := (h.bind hlog hs ha).checked id ..
  listenSocket hlog hs backlog := (h.listen hlog hs backlog).checked id ..
  acceptSocket hlog hs := (h.accept hlog hs).checked (fun hremote => by exact hremote) ..
  localAddress hlog hs := (h.getsockname hlog hs).checked id ..
  sendSocket hlog hs bytes := (h.send hlog hs (bytes.take intMax)).checked id ..
  receiveSocket hlog hs size := (h.recv hlog hs (min size intMax)).checked id ..
  sendDatagram hlog hs ha payload := (h.sendto hlog hs ha payload).checked id ..
  receiveDatagram hlog hs := h.receiveDatagram hlog hs

end Sys.Corresponds

theorem freshHandle_add_notMem (log : Log) (n : Nat) : freshHandle log + n ∉ openHandles log := by
  intro hmem
  have hle : freshHandle log + n ≤ (openHandles log).sup := Multiset.le_sup hmem
  exact absurd ((Nat.le_add_right _ n).trans hle) (Nat.not_succ_le_self _)

/-- A system on which every call succeeds, with addresses of one family and with handles past
`first`. -/
def Sys.numbered (family : Int) (hfamily : family ≠ 0) (first : Handle) : Sys :=
  let address : NativeAddress := { storage := [127, 0, 0, 1], family := family }
  { Sys.obliging with
    getaddrinfo := fun _ _ _ _ _ => .ok [address]
    socket := fun log _ _ => .ok (freshHandle log + first)
    accept := fun log _ => .ok (freshHandle log + first, address)
    getsockname := fun _ _ => .ok address
    socket_fresh := by
      intro log family type socket h
      cases h
      exact freshHandle_add_notMem log first
    accept_fresh := by
      intro log listener accepted h
      cases h
      exact freshHandle_add_notMem log first
    getaddrinfo_family := by
      intro log host service type passive entries h
      cases h
      simpa using hfamily }

/-- With `AF_INET6` as on Linux, and datagrams of four bytes, as POSIX shows them. -/
def Sys.linuxDatagrams : Sys :=
  { Sys.numbered 10 (by decide) 2 with
    recvfrom := fun _ _ _ => .ok ({ storage := [1, 0, 0, 127], family := 10 }, [1, 2, 3, 4]) }

/-- With `AF_INET6` as on Windows, and the datagrams as Windows shows them. -/
def Sys.windowsDatagrams : Sys :=
  { Sys.numbered 23 (by decide) 99 with
    recvfrom := fun _ _ size =>
      if 4 ≤ size then .ok ({ storage := [1, 0, 0, 127], family := 23 }, [1, 2, 3, 4])
      else .error wsaeMsgSize }

/-- The same bytes under the two values of `AF_INET6`. -/
def sameInet6 (a a' : NativeAddress) : Prop :=
  a.storage = a'.storage ∧ a.family = 10 ∧ a'.family = 23

theorem Sys.corresponds_datagrams :
    Sys.linuxDatagrams.Corresponds sameInet6 Sys.windowsDatagrams where
  family ha hb := iff_of_true (ha.2.1.trans hb.2.1.symm) (ha.2.2.trans hb.2.2.symm)
  storage ha := by rw [ha.1]
  getaddrinfo _ _ _ _ _ := .ok (.cons ⟨rfl, rfl, rfl⟩ .nil)
  getnameinfo _ _ := .ok rfl
  numeric := by
    intro log address host service hname
    cases hname
    exact ⟨80, rfl⟩
  socket _ _ _ := .ok trivial
  timeout _ _ _ _ _ _ _ _ _ _ := .ok rfl
  reuseAddress _ _ := .ok rfl
  connect _ _ _ := .ok rfl
  bind _ _ _ := .ok rfl
  listen _ _ _ := .ok rfl
  accept _ _ := .ok ⟨rfl, rfl, rfl⟩
  getsockname _ _ := .ok ⟨rfl, rfl, rfl⟩
  send _ _ _ := .ok rfl
  recv _ _ _ := .ok rfl
  sendto _ _ _ _ := .ok rfl
  recvfrom _ _ size := by
    by_cases hsize : 4 ≤ size
    · change SameDatagram sameInet6 size _ (if 4 ≤ size then _ else _)
      rw [if_pos hsize]
      exact .received ⟨rfl, rfl, rfl⟩ hsize
    · change SameDatagram sameInet6 size _ (if 4 ≤ size then _ else _)
      rw [if_neg hsize]
      exact .tooLarge (by simpa using hsize)

/-- A socket that is bound and receives with room for two bytes. -/
def receiveTwo : List Op := [.newUdp {}, .call 0 (.bind ⟨"*", 53⟩), .call 0 (.receiveFrom 2)]

end Transport
end Vosp
