import MicroProtocol.Transport.Alike

/-!
# The methods on two native layers

On native layers that are alike, a method of two objects that differ only in their handles and
addresses makes the same native calls and returns results that are alike, and the objects it
leaves behind again differ only in handles and addresses.

* `TcpStream.Twin`, `TcpListener.Twin`, `UdpSocket.Twin` — objects that correspond, where the
  handles do; `mono` when the handles are related anew.
* `sim_…` — one lemma for every method.
-/

namespace Vosp
namespace Transport

open Detail Relational

/-! ## Objects that correspond -/

/-- The streams differ only in their sockets. -/
inductive TcpStream.Twin (partner : Handle → Handle → Prop) : TcpStream → TcpStream → Prop where
  | movedFrom : Twin partner ⟨none⟩ ⟨none⟩
  | mk {socket socket'} (hs : Option.Rel partner socket socket') (options policy endpoint) :
      Twin partner ⟨some ⟨socket, options, policy, endpoint⟩⟩
        ⟨some ⟨socket', options, policy, endpoint⟩⟩

/-- The listeners differ only in their sockets. -/
inductive TcpListener.Twin (partner : Handle → Handle → Prop) :
    TcpListener → TcpListener → Prop where
  | movedFrom : Twin partner ⟨none⟩ ⟨none⟩
  | mk {socket socket'} (hs : Option.Rel partner socket socket') (options) :
      Twin partner ⟨some ⟨socket, options⟩⟩ ⟨some ⟨socket', options⟩⟩

/-- The families of two addresses that correspond. -/
def SameFamily (same : NativeAddress → NativeAddress → Prop) (family family' : Int) : Prop :=
  ∃ a a', same a a' ∧ a.family = family ∧ a'.family = family'

/-- The sockets and the cached addresses correspond, and so do the families of open sockets. -/
inductive UdpSocket.Impl.Twin (same : NativeAddress → NativeAddress → Prop)
    (partner : Handle → Handle → Prop) : UdpSocket.Impl → UdpSocket.Impl → Prop where
  | mk {socket socket' family family' address address'} (hs : Option.Rel partner socket socket')
      (hfamily : socket = none ∨ SameFamily same family family') (ha : Option.Rel same address address')
      (options cachedEndpoint) :
      Twin same partner ⟨socket, options, family, cachedEndpoint, address⟩
        ⟨socket', options, family', cachedEndpoint, address'⟩

/-- The sockets differ only in handles and addresses. -/
inductive UdpSocket.Twin (same : NativeAddress → NativeAddress → Prop)
    (partner : Handle → Handle → Prop) : UdpSocket → UdpSocket → Prop where
  | movedFrom : Twin same partner ⟨none⟩ ⟨none⟩
  | mk {impl impl'} (h : Impl.Twin same partner impl impl') :
      Twin same partner ⟨some impl⟩ ⟨some impl'⟩

section Twins

variable {same : NativeAddress → NativeAddress → Prop} {partner partner' : Handle → Handle → Prop}

theorem rel_mono {socket socket' : Option Handle} (h : Option.Rel partner socket socket')
    (hpartner : ∀ {h h'}, socket = some h → socket' = some h' → partner h h' → partner' h h') :
    Option.Rel partner' socket socket' := by
  cases h with
  | none => exact .none
  | some hs => exact .some (hpartner rfl rfl hs)

/-- It suffices that the stream's own sockets are related anew. -/
theorem TcpStream.Twin.mono {s s' : TcpStream} (h : s.Twin partner s')
    (hpartner : ∀ {h h'}, s.socket = some h → s'.socket = some h' → partner h h' → partner' h h') :
    s.Twin partner' s' := by
  cases h with
  | movedFrom => exact .movedFrom
  | mk hs options policy endpoint => exact .mk (rel_mono hs hpartner) options policy endpoint

theorem TcpListener.Twin.mono {l l' : TcpListener} (h : l.Twin partner l')
    (hpartner : ∀ {h h'}, l.socket = some h → l'.socket = some h' → partner h h' → partner' h h') :
    l.Twin partner' l' := by
  cases h with
  | movedFrom => exact .movedFrom
  | mk hs options => exact .mk (rel_mono hs hpartner) options

theorem UdpSocket.Impl.Twin.mono {impl impl' : UdpSocket.Impl} (h : impl.Twin same partner impl')
    (hpartner : ∀ {h h'}, impl.socket = some h → impl'.socket = some h' → partner h h' →
      partner' h h') : impl.Twin same partner' impl' := by
  cases h with
  | mk hs hfamily ha options cachedEndpoint =>
      exact .mk (rel_mono hs hpartner) hfamily ha options cachedEndpoint

theorem UdpSocket.Twin.mono {u u' : UdpSocket} (h : u.Twin same partner u')
    (hpartner : ∀ {h h'}, u.socket = some h → u'.socket = some h' → partner h h' → partner' h h') :
    u.Twin same partner' u' := by
  cases h with
  | movedFrom => exact .movedFrom
  | mk h => exact .mk (h.mono hpartner)

theorem TcpStream.Twin.socket {s s' : TcpStream} (h : s.Twin partner s') :
    Option.Rel partner s.socket s'.socket := by
  cases h with
  | movedFrom => exact .none
  | mk hs => exact hs

theorem TcpListener.Twin.socket {l l' : TcpListener} (h : l.Twin partner l') :
    Option.Rel partner l.socket l'.socket := by
  cases h with
  | movedFrom => exact .none
  | mk hs => exact hs

theorem UdpSocket.Twin.socket {u u' : UdpSocket} (h : u.Twin same partner u') :
    Option.Rel partner u.socket u'.socket := by
  cases h with
  | movedFrom => exact .none
  | mk h =>
      cases h with
      | mk hs => exact hs

theorem UdpSocket.Impl.Twin.cachedFor {impl impl' : UdpSocket.Impl}
    (himpl : impl.Twin same partner impl') (endpoint : IpEndpoint) :
    Option.Rel same (impl.cachedFor endpoint) (impl'.cachedFor endpoint) := by
  cases himpl with
  | mk hs hfamily ha options cachedEndpoint =>
      unfold UdpSocket.Impl.cachedFor
      dsimp only
      split_ifs
      · exact ha
      · exact .none

end Twins

/-- The results are alike and the objects twins. -/
structure Agree {α ω : Type} (same : NativeAddress → NativeAddress → Prop)
    (Twin : (Handle → Handle → Prop) → ω → ω → Prop) (x y : Result α × ω) (log log' : Log) :
    Prop where
  logs : Log.Alike same log log'
  result : Alike x.1 y.1
  object : Twin (Partners log log') x.2 y.2

/-! ## The methods of `TcpStream` and `TcpListener` -/

section Methods

variable {same : NativeAddress → NativeAddress → Prop} {log log' : Log}
  (hlog : Log.Alike same log log')

include hlog

theorem TcpStream.sim_close {s s' : TcpStream} (hs : s.Twin (Partners log log') s') :
    Sim log log' s.close s'.close (fun s s' next next' => Log.Alike same next next' ∧
      s.Twin (Partners next next') s') := by
  cases hs with
  | movedFrom => exact sim_pure ⟨hlog, .movedFrom⟩
  | mk hs =>
      refine (sim_closeSocket hlog hs).bind ?_
      rintro _ _ log log' ⟨hlog, -⟩
      exact sim_pure ⟨hlog, .mk .none ..⟩

/-- What `send`, `send_all` and `receive` do when the connection is lost. -/
theorem TcpStream.sim_closeWith {s s' : TcpStream} (hs : s.Twin (Partners log log') s')
    {α : Type} {r r' : Result α} (hr : Alike r r') :
    Sim log log'
      (do
        let s ← s.close
        pure (r, s))
      (do
        let s ← s'.close
        pure (r', s)) (Agree same TcpStream.Twin) := by
  refine (sim_close hlog hs).bind ?_
  rintro s s' log log' ⟨hlog, hs⟩
  exact sim_pure ⟨hlog, hr, hs⟩

theorem TcpListener.sim_close {l l' : TcpListener} (hl : l.Twin (Partners log log') l') :
    Sim log log' l.close l'.close (fun l l' next next' => Log.Alike same next next' ∧
      l.Twin (Partners next next') l') := by
  cases hl with
  | movedFrom => exact sim_pure ⟨hlog, .movedFrom⟩
  | mk hs =>
      refine (sim_closeSocket hlog hs).bind ?_
      rintro _ _ log log' ⟨hlog, -⟩
      exact sim_pure ⟨hlog, .mk .none ..⟩

variable {N N' : Native} (h : N.Alike same N')

include h

namespace TcpStream

variable {s s' : TcpStream} (hs : s.Twin (Partners log log') s')

include hs

theorem sim_connect (endpoint : IpEndpoint) :
    Sim log log' (connect N endpoint s) (connect N' endpoint s') (Agree same Twin) := by
  cases hs with
  | movedFrom => exact sim_pure ⟨hlog, .refl _, .movedFrom⟩
  | mk hs options policy last =>
      unfold connect
      dsimp only
      split_ifs
      · exact sim_pure ⟨hlog, .refl _, .mk hs ..⟩
      refine sim_reopen hlog h hs (fun ha => ?_)
        (fun hlog hcode => sim_pure ⟨hlog, .error hcode, .mk .none ..⟩) ?_
      · exact .cons (fun hlog hs => sim_applyOptions hlog h hs options)
          (.cons (fun hlog hs => sim_connectSocket hlog h hs ha) .nil)
      · intro log log' r r' hlog hr
        cases hr with
        | ok hs ha => exact sim_pure ⟨hlog, .ok rfl, .mk (.some hs) ..⟩
        | none => exact sim_pure ⟨hlog, .refl _, .mk .none ..⟩
        | some hcode => exact sim_pure ⟨hlog, .error hcode, .mk .none ..⟩

/-- Only the native code of the reply depends on the last error. -/
theorem sim_reconnectLoop (endpoint : IpEndpoint) (policy : ReconnectPolicy) (attempts : Nat)
    (delay : Int) (last last' : Option Error) :
    Sim log log' (reconnectLoop N endpoint policy attempts delay last s)
      (reconnectLoop N' endpoint policy attempts delay last' s') (Agree same Twin) := by
  induction attempts generalizing delay last last' s s' log log' with
  | zero => exact sim_pure ⟨hlog, .error rfl, hs⟩
  | succ attempts ih =>
      unfold reconnectLoop
      refine (sim_connect hlog h hs endpoint).bind ?_
      rintro ⟨r, s⟩ ⟨r', s'⟩ log log' ⟨hlog, hr, hs⟩
      cases hr with
      | ok _ => exact sim_pure ⟨hlog, .ok rfl, hs⟩
      | error hcode =>
          dsimp only
          split_ifs
          · refine (sim_sleepFor hlog delay).bind ?_
            rintro _ _ log log' honward
            exact ih honward.logs (hs.mono fun _ _ => honward.partner) ..
          · exact ih hlog hs ..

theorem sim_reconnect :
    Sim log log' (reconnect N s) (reconnect N' s') (Agree same Twin) := by
  have htwin := hs
  cases hs with
  | movedFrom => exact sim_pure ⟨hlog, .refl _, htwin⟩
  | mk hs options policy last =>
      unfold reconnect
      dsimp only
      cases last with
      | none => exact sim_pure ⟨hlog, .refl _, htwin⟩
      | some endpoint =>
          dsimp only
          split_ifs
          · exact sim_pure ⟨hlog, .refl _, htwin⟩
          · exact sim_reconnectLoop hlog h htwin ..

theorem sim_send (bytes : List UInt8) :
    Sim log log' (send N bytes s) (send N' bytes s') (Agree same Twin) := by
  have hsocket := hs.socket
  unfold send
  generalize s.socket = x at hsocket ⊢
  generalize s'.socket = y at hsocket ⊢
  cases hsocket with
  | none => exact sim_pure ⟨hlog, .refl _, hs⟩
  | some hpartner =>
      dsimp only
      split_ifs
      · exact sim_pure ⟨hlog, .refl _, hs⟩
      refine (sim_sendSocket hlog h hpartner bytes).bind ?_
      rintro r r' log log' ⟨hr, honward⟩
      have hs := hs.mono fun _ _ => honward.partner
      cases hr with
      | ok heq => exact sim_pure ⟨honward.logs, .ok heq, hs⟩
      | error hcode => exact sim_closeWith honward.logs hs (.error hcode)

theorem sim_sendAllFrom (bytes : List UInt8) (offset : Nat) :
    Sim log log' (sendAllFrom N bytes offset s) (sendAllFrom N' bytes offset s')
      (Agree same Twin) := by
  induction hk : bytes.length - offset using Nat.strong_induction_on
    generalizing offset s s' log log' with
  | _ k ih =>
      rw [sendAllFrom.eq_def, sendAllFrom.eq_def N']
      split_ifs with hoffset
      swap
      · exact sim_pure ⟨hlog, .refl _, hs⟩
      refine (sim_send hlog h hs (bytes.drop offset)).bind ?_
      rintro ⟨r, s⟩ ⟨r', s'⟩ log log' ⟨hlog, hr, hs⟩
      cases hr with
      | error hcode => exact sim_pure ⟨hlog, .error hcode, hs⟩
      | @ok sent _ heq =>
          obtain rfl : sent = _ := heq
          cases sent with
          | zero => exact sim_closeWith hlog hs (.refl _)
          | succ sent => exact ih (bytes.length - (offset + (sent + 1))) (by omega) hlog hs _ rfl

theorem sim_receive (size : Nat) :
    Sim log log' (receive N size s) (receive N' size s') (Agree same Twin) := by
  have hsocket := hs.socket
  unfold receive
  generalize s.socket = x at hsocket ⊢
  generalize s'.socket = y at hsocket ⊢
  cases hsocket with
  | none => exact sim_pure ⟨hlog, .refl _, hs⟩
  | some hpartner =>
      dsimp only
      split_ifs
      · exact sim_pure ⟨hlog, .refl _, hs⟩
      refine (sim_receiveSocket hlog h hpartner size).bind ?_
      rintro r r' log log' ⟨hr, honward⟩
      have hs := hs.mono fun _ _ => honward.partner
      cases hr with
      | error hcode => exact sim_closeWith honward.logs hs (.error hcode)
      | @ok bytes _ heq =>
          obtain rfl : bytes = _ := heq
          cases bytes with
          | nil => exact sim_closeWith honward.logs hs (.refl _)
          | cons byte bytes => exact sim_pure ⟨honward.logs, .refl _, hs⟩

end TcpStream

namespace TcpListener

variable {l l' : TcpListener} (hl : l.Twin (Partners log log') l')

include hl

theorem sim_bind (endpoint : IpEndpoint) (backlog : Int) :
    Sim log log' (bind N endpoint backlog l) (bind N' endpoint backlog l') (Agree same Twin) := by
  cases hl with
  | movedFrom => exact sim_pure ⟨hlog, .refl _, .movedFrom⟩
  | mk hs options =>
      unfold bind
      dsimp only
      split_ifs
      · exact sim_pure ⟨hlog, .refl _, .mk hs options⟩
      refine sim_reopen hlog h hs (fun ha => ?_)
        (fun hlog hcode => sim_pure ⟨hlog, .error hcode, .mk .none options⟩) ?_
      · exact .cons (fun hlog hs => sim_setReuseAddress hlog h hs)
          (.cons (fun hlog hs => sim_bindSocket hlog h hs ha)
            (.cons (fun hlog hs => sim_listenSocket hlog h hs backlog) .nil))
      · intro log log' r r' hlog hr
        cases hr with
        | ok hs ha => exact sim_pure ⟨hlog, .ok rfl, .mk (.some hs) options⟩
        | none => exact sim_pure ⟨hlog, .refl _, .mk .none options⟩
        | some hcode => exact sim_pure ⟨hlog, .error hcode, .mk .none options⟩

/-- The listeners remain twins: of the two sockets only the new one may be closed. -/
theorem sim_accept :
    Sim log log' (accept N l) (accept N' l') (fun r r' next next' => Log.Alike same next next' ∧
      l.Twin (Partners next next') l' ∧ AlikeBy (TcpStream.Twin (Partners next next')) r r') := by
  have htwin := hl
  cases hl with
  | movedFrom => exact sim_pure ⟨hlog, htwin, .error rfl⟩
  | mk hs options =>
      cases hs with
      | none => exact sim_pure ⟨hlog, htwin, .error rfl⟩
      | some hs =>
          unfold accept
          dsimp only
          refine (sim_acceptSocket hlog h hs).bind ?_
          rintro r r' next next' ⟨honward, hr⟩
          have hl := htwin.mono fun _ _ => honward.partner
          cases hr with
          | error hcode => exact sim_pure ⟨honward.logs, hl, .error hcode⟩
          | ok hnew =>
              refine (sim_applyOptions honward.logs h hnew.partner options).bind ?_
              rintro r r' last last' ⟨hr, honward'⟩
              cases hr with
              | ok _ =>
                  exact sim_pure ⟨honward'.logs, hl.mono fun _ _ => honward'.partner,
                    .ok (.mk (.some (honward'.partner hnew.partner)) ..)⟩
              | error hcode =>
                  refine (sim_closeSocket honward'.logs (.some (honward'.partner hnew.partner))).bind ?_
                  rintro _ _ _ _ ⟨hlog, hkept⟩
                  refine sim_pure ⟨hlog, .mk (.some ?_) options, .error hcode⟩
                  obtain ⟨hne, hne'⟩ := hnew.apart hs
                  exact hkept ((honward.trans honward').partner hs) (by simpa using hne.symm)
                    (by simpa using hne'.symm)

theorem sim_localEndpoint :
    Sim log log' (localEndpoint N l) (localEndpoint N' l') (Replied same log log' Eq) := by
  have hsocket := hl.socket
  unfold localEndpoint
  generalize l.socket = x at hsocket ⊢
  generalize l'.socket = y at hsocket ⊢
  cases hsocket with
  | none => exact sim_pure ⟨.refl _, hlog, id⟩
  | some hs => exact sim_addressOf hlog h hs

end TcpListener

end Methods

/-! ## The methods of `UdpSocket` -/

namespace UdpSocket

section Methods

variable {same : NativeAddress → NativeAddress → Prop} {log log' : Log}
  (hlog : Log.Alike same log log')

include hlog

theorem sim_close {u u' : UdpSocket} (hu : u.Twin same (Partners log log') u') :
    Sim log log' u.close u'.close (fun u u' next next' => Log.Alike same next next' ∧
      u.Twin same (Partners next next') u') := by
  cases hu with
  | movedFrom => exact sim_pure ⟨hlog, .movedFrom⟩
  | mk htwin =>
      cases htwin with
      | mk hs hfamily ha =>
          refine (sim_closeSocket hlog hs).bind ?_
          rintro _ _ log log' ⟨hlog, -⟩
          exact sim_pure ⟨hlog, .mk (.mk .none (.inl rfl) ha ..)⟩

variable {N N' : Native} (h : N.Alike same N')

include h

theorem sim_bind {u u' : UdpSocket} (hu : u.Twin same (Partners log log') u')
    (endpoint : IpEndpoint) :
    Sim log log' (bind N endpoint u) (bind N' endpoint u') (Agree same (Twin same)) := by
  cases hu with
  | movedFrom => exact sim_pure ⟨hlog, .refl _, .movedFrom⟩
  | mk htwin =>
      cases htwin with
      | mk hs hfamily hcached options cachedEndpoint =>
          unfold bind
          dsimp only
          split_ifs
          · exact sim_pure ⟨hlog, .refl _, .mk (.mk hs hfamily hcached ..)⟩
          have hclosed {log log' : Log} : UdpSocket.Twin same (Partners log log')
              ⟨some ⟨none, options, 0, cachedEndpoint, _⟩⟩
              ⟨some ⟨none, options, 0, cachedEndpoint, _⟩⟩ :=
            .mk (.mk .none (.inl rfl) hcached ..)
          refine sim_reopen hlog h hs (fun ha => ?_)
            (fun hlog hcode => sim_pure ⟨hlog, .error hcode, hclosed⟩) ?_
          · exact .cons (fun hlog hs => sim_applyOptions hlog h hs options)
              (.cons (fun hlog hs => sim_bindSocket hlog h hs ha) .nil)
          · intro log log' r r' hlog hr
            cases hr with
            | @ok _ _ address address' hs ha =>
                exact sim_pure ⟨hlog, .ok rfl,
                  .mk (.mk (.some hs) (.inr ⟨address, address', ha, rfl, rfl⟩) hcached ..)⟩
            | none => exact sim_pure ⟨hlog, .refl _, hclosed⟩
            | some hcode => exact sim_pure ⟨hlog, .error hcode, hclosed⟩

/-- The families of open sockets are compared alike. -/
theorem sim_ensureOpen {address address' : NativeAddress} (ha : same address address')
    {impl impl' : Impl} (himpl : impl.Twin same (Partners log log') impl') :
    Sim log log' (ensureOpen N address impl) (ensureOpen N' address' impl')
      (fun x y next next' => Log.Alike same next next' ∧ AlikeBy (Partners next next') x.1 y.1 ∧
        x.2.Twin same (Partners next next') y.2) := by
  have htwin := himpl
  cases himpl with
  | mk hs hfamily hcached options cachedEndpoint =>
      unfold ensureOpen
      dsimp only
      cases hs with
      | some hs =>
          obtain ⟨a, a', hsame, rfl, rfl⟩ := hfamily.resolve_left (by simp)
          have hiff := h.family ha hsame
          dsimp only
          by_cases heq : address.family = a.family
          · rw [if_pos heq, if_pos (hiff.1 heq)]
            exact sim_pure ⟨hlog, .ok hs, htwin⟩
          · rw [if_neg heq, if_neg (mt hiff.2 heq)]
            exact sim_pure ⟨hlog, .error rfl, htwin⟩
      | none =>
          refine (sim_createSocket hlog h ha .datagram).bind ?_
          rintro r r' log log' ⟨hlog, hr⟩
          cases hr with
          | error hcode =>
              exact sim_pure ⟨hlog, .error hcode, .mk .none (.inl rfl) hcached ..⟩
          | ok hs =>
              refine (sim_applyOptions hlog h hs options).bind ?_
              rintro r r' log log' ⟨hr, honward⟩
              have hs := honward.partner hs
              cases hr with
              | ok _ =>
                  exact sim_pure ⟨honward.logs, .ok hs,
                    .mk (.some hs) (.inr ⟨address, address', ha, rfl, rfl⟩) hcached ..⟩
              | error hcode =>
                  refine (sim_closeSocket honward.logs (.some hs)).bind ?_
                  rintro _ _ log log' ⟨hlog, -⟩
                  exact sim_pure ⟨hlog, .error hcode, .mk .none (.inl rfl) hcached ..⟩

theorem sim_sendLoop (endpoint : IpEndpoint) (payload : List UInt8)
    {addresses addresses' : List NativeAddress} (haddresses : List.Forall₂ same addresses addresses')
    {last last' : Option Error} (hlast : LastAlike last last') {impl impl' : Impl}
    (himpl : impl.Twin same (Partners log log') impl') :
    Sim log log' (sendLoop N endpoint payload addresses last impl)
      (sendLoop N' endpoint payload addresses' last' impl') (Agree same (Impl.Twin same)) := by
  induction haddresses generalizing log log' last last' impl impl' with
  | nil =>
      cases hlast with
      | none => exact sim_pure ⟨hlog, .refl _, himpl⟩
      | some hcode => exact sim_pure ⟨hlog, .error hcode, himpl⟩
  | cons ha _ ih =>
      unfold sendLoop
      refine (sim_ensureOpen hlog h ha himpl).bind ?_
      rintro ⟨r, impl⟩ ⟨r', impl'⟩ log log' ⟨hlog, hr, himpl⟩
      cases hr with
      | error hcode => exact ih hlog (.some hcode) himpl
      | ok hs =>
          refine (sim_sendDatagram hlog h hs ha payload).bind ?_
          rintro r r' log log' ⟨hr, honward⟩
          have himpl := himpl.mono fun _ _ => honward.partner
          cases hr with
          | error hcode => exact ih honward.logs (.some hcode) himpl
          | ok heq =>
              cases himpl with
              | mk hs hfamily _ options cachedEndpoint =>
                  exact sim_pure ⟨honward.logs, .ok heq, .mk hs hfamily (.some ha) ..⟩

theorem sim_sendTo {u u' : UdpSocket} (hu : u.Twin same (Partners log log') u')
    (endpoint : IpEndpoint) (payload : List UInt8) :
    Sim log log' (sendTo N endpoint payload u) (sendTo N' endpoint payload u')
      (Agree same (Twin same)) := by
  cases hu with
  | movedFrom => exact sim_pure ⟨hlog, .refl _, .movedFrom⟩
  | @mk impl impl' himpl =>
      have hoptions : impl.options = impl'.options := by
        cases himpl
        rfl
      have hcached := himpl.cachedFor endpoint
      unfold sendTo
      dsimp only
      rw [hoptions]
      split_ifs
      · exact sim_pure ⟨hlog, .refl _, .mk himpl⟩
      · exact sim_pure ⟨hlog, .refl _, .mk himpl⟩
      generalize impl.cachedFor endpoint = x at hcached ⊢
      generalize impl'.cachedFor endpoint = y at hcached ⊢
      cases hcached with
      | some ha =>
          refine (sim_ensureOpen hlog h ha himpl).bind ?_
          rintro ⟨r, impl⟩ ⟨r', impl'⟩ log log' ⟨hlog, hr, himpl⟩
          cases hr with
          | error hcode => exact sim_pure ⟨hlog, .error hcode, .mk himpl⟩
          | ok hs =>
              refine (sim_sendDatagram hlog h hs ha payload).bind ?_
              rintro r r' log log' ⟨hr, honward⟩
              exact sim_pure ⟨honward.logs, hr, .mk (himpl.mono fun _ _ => honward.partner)⟩
      | none =>
          refine (sim_resolve hlog h endpoint .datagram false).bind ?_
          rintro r r' log log' ⟨hr, honward⟩
          have himpl := himpl.mono fun _ _ => honward.partner
          cases hr with
          | error hcode => exact sim_pure ⟨honward.logs, .error hcode, .mk himpl⟩
          | ok haddresses =>
              refine (sim_sendLoop honward.logs h endpoint payload haddresses .none himpl).bind ?_
              rintro ⟨r, impl⟩ ⟨r', impl'⟩ log log' ⟨hlog, hr, himpl⟩
              exact sim_pure ⟨hlog, hr, .mk himpl⟩

theorem sim_receive {u u' : UdpSocket} (hu : u.Twin same (Partners log log') u')
    (maximumSize : Nat) :
    Sim log log' (receive N maximumSize u) (receive N' maximumSize u')
      (Replied same log log' Eq) := by
  have hsocket := hu.socket
  unfold receive
  generalize u.socket = x at hsocket ⊢
  generalize u'.socket = y at hsocket ⊢
  cases hsocket with
  | none => exact sim_pure ⟨.refl _, hlog, id⟩
  | some hs =>
      dsimp only
      split_ifs
      · exact sim_pure ⟨.refl _, hlog, id⟩
      refine (sim_receiveDatagram hlog h hs maximumSize).bind ?_
      rintro r r' next next' ⟨hr, honward⟩
      cases hr with
      | error hcode => exact sim_pure ⟨.error hcode, honward⟩
      | ok hreceived =>
          obtain ⟨hremote, hpayload⟩ := hreceived
          refine (sim_toEndpoint honward.logs h hremote).bind ?_
          rintro r r' last last' ⟨hr, honward'⟩
          cases hr with
          | error hcode => exact sim_pure ⟨.error hcode, honward.trans honward'⟩
          | ok hendpoint => exact sim_pure ⟨.ok (by rw [hendpoint, hpayload]), honward.trans honward'⟩

theorem sim_localEndpoint {u u' : UdpSocket} (hu : u.Twin same (Partners log log') u') :
    Sim log log' (localEndpoint N u) (localEndpoint N' u') (Replied same log log' Eq) := by
  have hsocket := hu.socket
  unfold localEndpoint
  generalize u.socket = x at hsocket ⊢
  generalize u'.socket = y at hsocket ⊢
  cases hsocket with
  | none => exact sim_pure ⟨.refl _, hlog, id⟩
  | some hs => exact sim_addressOf hlog h hs

end Methods

end UdpSocket

end Transport
end Vosp
