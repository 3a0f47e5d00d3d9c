import MicroProtocol.Transport.Twins
import MicroProtocol.Transport.Invariants

/-!
# Programs on two native layers

A program that runs on native layers that are alike makes the same native calls on both and
keeps twins in its slots.  A method call keeps its own object and the object's twin in step
(`Object.sim_run`).  The handles of all other objects are spared on both sides, by custody, so
they remain partners (`World.Alike.update`).

* `Object.Twin`, `World.Alike` — objects and worlds that correspond.
* `Object.sim_run`, `Object.sim_reply` — a method call.
* `World.alike_run` — every program.
-/

namespace Vosp
namespace Transport

open Custody Detail Relational

/-- Objects of one class that are twins. -/
inductive Object.Twin (same : NativeAddress → NativeAddress → Prop)
    (partner : Handle → Handle → Prop) : Object → Object → Prop where
  | stream {s s'} (h : s.Twin partner s') : Twin same partner (.stream s) (.stream s')
  | listener {l l'} (h : l.Twin partner l') : Twin same partner (.listener l) (.listener l')
  | udp {u u'} (h : u.Twin same partner u') : Twin same partner (.udp u) (.udp u')

/-- Replies that are alike. -/
inductive Reply.Alike : Reply → Reply → Prop where
  | done {r r'} (h : Transport.Alike r r') : Alike (.done r) (.done r')
  | count {r r'} (h : Transport.Alike r r') : Alike (.count r) (.count r')
  | bytes {r r'} (h : Transport.Alike r r') : Alike (.bytes r) (.bytes r')
  | datagram {r r'} (h : Transport.Alike r r') : Alike (.datagram r) (.datagram r')
  | endpoint {r r'} (h : Transport.Alike r r') : Alike (.endpoint r) (.endpoint r')
  | nothing : Alike .nothing .nothing

/-! ## A method call -/

namespace Object

section Twins

variable {same : NativeAddress → NativeAddress → Prop} {partner partner' : Handle → Handle → Prop}
  {o o' : Object}

theorem Twin.mono (h : o.Twin same partner o')
    (hpartner : ∀ {h h'}, o.handle = some h → o'.handle = some h' → partner h h' → partner' h h') :
    o.Twin same partner' o' := by
  cases h with
  | stream h => exact .stream (h.mono hpartner)
  | listener h => exact .listener (h.mono hpartner)
  | udp h => exact .udp (h.mono hpartner)

theorem Twin.movedFrom (h : o.Twin same partner o') : o.movedFrom.Twin same partner' o'.movedFrom := by
  cases h with
  | stream _ => exact .stream .movedFrom
  | listener _ => exact .listener .movedFrom
  | udp _ => exact .udp .movedFrom

theorem Twin.sameClass {t t' : Object} (ht : t.Twin same partner t') (h : o.Twin same partner o') :
    t.sameClass o = t'.sameClass o' := by
  cases ht <;> cases h <;> rfl

end Twins

variable {same : NativeAddress → NativeAddress → Prop} {log log' : Log}
  (hlog : Log.Alike same log log') {o o' : Object} (ho : o.Twin same (Partners log log') o')

include hlog ho

theorem sim_close :
    Sim log log' o.close o'.close (fun o o' next next' => Log.Alike same next next' ∧
      o.Twin same (Partners next next') o') := by
  cases ho with
  | stream hs =>
      refine (TcpStream.sim_close hlog hs).bind ?_
      rintro s s' log log' ⟨hlog, hs⟩
      exact sim_pure ⟨hlog, .stream hs⟩
  | listener hl =>
      refine (TcpListener.sim_close hlog hl).bind ?_
      rintro l l' log log' ⟨hlog, hl⟩
      exact sim_pure ⟨hlog, .listener hl⟩
  | udp hu =>
      refine (UdpSocket.sim_close hlog hu).bind ?_
      rintro u u' log log' ⟨hlog, hu⟩
      exact sim_pure ⟨hlog, .udp hu⟩

variable {N N' : Native} (h : N.Alike same N')

include h

/-- A method leaves twins behind. -/
theorem sim_run (method : Method) :
    Sim log log' (o.run N method) (o'.run N' method)
      (fun o o' next next' => Log.Alike same next next' ∧ o.Twin same (Partners next next') o') := by
  have htwin := ho
  cases ho with
  | stream hs =>
      cases method with
      | connect endpoint =>
          exact (TcpStream.sim_connect hlog h hs endpoint).bind fun _ _ _ _ hxy =>
            sim_pure ⟨hxy.logs, .stream hxy.object⟩
      | reconnect =>
          exact (TcpStream.sim_reconnect hlog h hs).bind fun _ _ _ _ hxy =>
            sim_pure ⟨hxy.logs, .stream hxy.object⟩
      | send bytes =>
          exact (TcpStream.sim_send hlog h hs bytes).bind fun _ _ _ _ hxy =>
            sim_pure ⟨hxy.logs, .stream hxy.object⟩
      | sendAll bytes =>
          exact (TcpStream.sim_sendAllFrom hlog h hs bytes 0).bind fun _ _ _ _ hxy =>
            sim_pure ⟨hxy.logs, .stream hxy.object⟩
      | receive size =>
          exact (TcpStream.sim_receive hlog h hs size).bind fun _ _ _ _ hxy =>
            sim_pure ⟨hxy.logs, .stream hxy.object⟩
      | close => exact sim_close hlog htwin
      | _ => exact sim_pure ⟨hlog, htwin⟩
  | listener hl =>
      cases method with
      | listen endpoint backlog =>
          exact (TcpListener.sim_bind hlog h hl endpoint backlog).bind fun _ _ _ _ hxy =>
            sim_pure ⟨hxy.logs, .listener hxy.object⟩
      | localEndpoint =>
          exact (TcpListener.sim_localEndpoint hlog h hl).bind fun _ _ _ _ hr =>
            sim_pure ⟨hr.2.logs, htwin.mono fun _ _ => hr.2.partner⟩
      | close => exact sim_close hlog htwin
      | _ => exact sim_pure ⟨hlog, htwin⟩
  | udp hu =>
      cases method with
      | bind endpoint =>
          exact (UdpSocket.sim_bind hlog h hu endpoint).bind fun _ _ _ _ hxy =>
            sim_pure ⟨hxy.logs, .udp hxy.object⟩
      | sendTo endpoint payload =>
          exact (UdpSocket.sim_sendTo hlog h hu endpoint payload).bind fun _ _ _ _ hxy =>
            sim_pure ⟨hxy.logs, .udp hxy.object⟩
      | receiveFrom size =>
          exact (UdpSocket.sim_receive hlog h hu size).bind fun _ _ _ _ hr =>
            sim_pure ⟨hr.2.logs, htwin.mono fun _ _ => hr.2.partner⟩
      | localEndpoint =>
          exact (UdpSocket.sim_localEndpoint hlog h hu).bind fun _ _ _ _ hr =>
            sim_pure ⟨hr.2.logs, htwin.mono fun _ _ => hr.2.partner⟩
      | close => exact sim_close hlog htwin
      | _ => exact sim_pure ⟨hlog, htwin⟩

/-- What it returns is alike. -/
theorem sim_reply (method : Method) :
    Sim log log' (o.reply N method) (o'.reply N' method) (fun r r' _ _ => r.Alike r') := by
  have htwin := ho
  cases ho with
  | stream hs =>
      cases method with
      | connect endpoint =>
          exact (TcpStream.sim_connect hlog h hs endpoint).bind fun _ _ _ _ hxy =>
            sim_pure (.done hxy.result)
      | reconnect =>
          exact (TcpStream.sim_reconnect hlog h hs).bind fun _ _ _ _ hxy =>
            sim_pure (.done hxy.result)
      | send bytes =>
          exact (TcpStream.sim_send hlog h hs bytes).bind fun _ _ _ _ hxy =>
            sim_pure (.count hxy.result)
      | sendAll bytes =>
          exact (TcpStream.sim_sendAllFrom hlog h hs bytes 0).bind fun _ _ _ _ hxy =>
            sim_pure (.count hxy.result)
      | receive size =>
          exact (TcpStream.sim_receive hlog h hs size).bind fun _ _ _ _ hxy =>
            sim_pure (.bytes hxy.result)
      | close => exact (sim_close hlog htwin).bind fun _ _ _ _ _ => sim_pure .nothing
      | _ => exact sim_pure .nothing
  | listener hl =>
      cases method with
      | listen endpoint backlog =>
          exact (TcpListener.sim_bind hlog h hl endpoint backlog).bind fun _ _ _ _ hxy =>
            sim_pure (.done hxy.result)
      | localEndpoint =>
          exact (TcpListener.sim_localEndpoint hlog h hl).bind fun _ _ _ _ hr =>
            sim_pure (.endpoint hr.1)
      | close => exact (sim_close hlog htwin).bind fun _ _ _ _ _ => sim_pure .nothing
      | _ => exact sim_pure .nothing
  | udp hu =>
      cases method with
      | bind endpoint =>
          exact (UdpSocket.sim_bind hlog h hu endpoint).bind fun _ _ _ _ hxy =>
            sim_pure (.done hxy.result)
      | sendTo endpoint payload =>
          exact (UdpSocket.sim_sendTo hlog h hu endpoint payload).bind fun _ _ _ _ hxy =>
            sim_pure (.count hxy.result)
      | receiveFrom size =>
          exact (UdpSocket.sim_receive hlog h hu size).bind fun _ _ _ _ hr =>
            sim_pure (.datagram hr.1)
      | localEndpoint =>
          exact (UdpSocket.sim_localEndpoint hlog h hu).bind fun _ _ _ _ hr =>
            sim_pure (.endpoint hr.1)
      | close => exact (sim_close hlog htwin).bind fun _ _ _ _ _ => sim_pure .nothing
      | _ => exact sim_pure .nothing

end Object

/-! ## Programs -/

namespace World

/-- The logs are alike, and every slot is missing, empty or taken in both worlds, by twins in
the last case. -/
structure Alike (same : NativeAddress → NativeAddress → Prop) (w w' : World) : Prop where
  logs : Log.Alike same w.log w'.log
  slots : ∀ id : Nat, Option.Rel (Option.Rel (Object.Twin same (Partners w.log w'.log)))
    w.objects[id]? w'.objects[id]?

variable {same : NativeAddress → NativeAddress → Prop} {w w' : World}

theorem Alike.length_eq (hw : w.Alike same w') : w.objects.length = w'.objects.length := by
  have hmissing (id : Nat) : w.objects.length ≤ id ↔ w'.objects.length ≤ id := by
    rw [← List.getElem?_eq_none_iff, ← List.getElem?_eq_none_iff]
    have hslot := hw.slots id
    generalize w.objects[id]? = x at hslot ⊢
    generalize w'.objects[id]? = y at hslot ⊢
    cases hslot <;> simp
  exact le_antisymm ((hmissing _).2 le_rfl) ((hmissing _).1 le_rfl)

/-- A slot is missing, empty or taken by twins. -/
theorem Alike.slot (hw : w.Alike same w') (id : Nat) :
    (w.objects[id]? = none ∧ w'.objects[id]? = none) ∨
    (w.objects[id]? = some none ∧ w'.objects[id]? = some none) ∨
    ∃ o o', w.objects[id]? = some (some o) ∧ w'.objects[id]? = some (some o') ∧
      o.Twin same (Partners w.log w'.log) o' := by
  have hslot := hw.slots id
  generalize w.objects[id]? = x at hslot ⊢
  generalize w'.objects[id]? = y at hslot ⊢
  cases hslot with
  | none => exact .inl ⟨rfl, rfl⟩
  | some hslot =>
      cases hslot with
      | none => exact .inr (.inl ⟨rfl, rfl⟩)
      | some ho => exact .inr (.inr ⟨_, _, rfl, rfl, ho⟩)

theorem Alike.twin (hw : w.Alike same w') {id : Nat} {o o' : Object}
    (hid : w.objects[id]? = some (some o)) (hid' : w'.objects[id]? = some (some o')) :
    o.Twin same (Partners w.log w'.log) o' := by
  have hslot := hw.slots id
  rw [hid, hid'] at hslot
  cases hslot with
  | some hslot =>
      cases hslot with
      | some htwin => exact htwin

theorem Alike.set (hw : w.Alike same w') (id : Nat) {slot slot' : Option Object}
    (hslot : Option.Rel (Object.Twin same (Partners w.log w'.log)) slot slot') :
    Alike same { w with objects := w.objects.set id slot }
      { w' with objects := w'.objects.set id slot' } := by
  refine ⟨hw.logs, fun id' => ?_⟩
  simp only [List.getElem?_set, hw.length_eq]
  split_ifs
  · exact .some hslot
  · exact .none
  · exact hw.slots id'

theorem Alike.append (hw : w.Alike same w') {o o' : Object}
    (ho : o.Twin same (Partners w.log w'.log) o') :
    Alike same { w with objects := w.objects ++ [some o] }
      { w' with objects := w'.objects ++ [some o'] } := by
  refine ⟨hw.logs, fun id => ?_⟩
  simp only [List.getElem?_append, hw.length_eq, List.getElem?_singleton]
  split_ifs
  · exact hw.slots id
  · exact .some (.some ho)
  · exact .none

/-- Programs that answer for one slot on either side: what they make of the slot are twins,
and the other objects are not affected. -/
theorem Alike.update (hw : w.Alike same w') (hs : w.Sound) (hs' : w'.Sound) {id : Nat}
    {o o' : Object} (hid : w.objects[id]? = some (some o)) (hid' : w'.objects[id]? = some (some o'))
    {α : Type} {m m' : Net α} {T T' : α → Multiset Handle}
    (hm : Accounts Event.access o.owned m T) (hm' : Accounts Event.access o'.owned m' T')
    (hlogs : Log.Alike same (m.run w.log).2 (m'.run w'.log).2) {slot slot' : Option Object}
    (hslot : Option.Rel (Object.Twin same (Partners (m.run w.log).2 (m'.run w'.log).2))
      slot slot') :
    Alike same { objects := w.objects.set id slot, log := (m.run w.log).2 }
      { objects := w'.objects.set id slot', log := (m'.run w'.log).2 } := by
  refine ⟨hlogs, fun id' => ?_⟩
  simp only [List.getElem?_set, hw.length_eq]
  split_ifs with heq hlt
  · exact .some hslot
  · exact .none
  obtain ⟨calls, hcalls, hspares⟩ := hs.spares hid hm
  obtain ⟨calls', hcalls', hspares'⟩ := hs'.spares hid' hm'
  rw [hcalls, hcalls']
  rcases hw.slot id' with ⟨hx, hy⟩ | ⟨hx, hy⟩ | ⟨p, p', hx, hy, htwin⟩
  · rw [hx, hy]
    exact .none
  · rw [hx, hy]
    exact .some .none
  · rw [hx, hy]
    refine .some (.some (htwin.mono fun hh hh' hp => ?_))
    exact hp.append (hspares (Ne.symm heq) hx) (mem_owned.2 hh) (hspares' (Ne.symm heq) hy)
      (mem_owned.2 hh')

variable {N N' : Native}

/-- The listeners stay as they are, and the new streams are twins. -/
theorem Alike.accept (h : N.Alike same N') (hw : w.Alike same w') (hs : w.Sound) (hs' : w'.Sound)
    {id : Nat} {l l' : TcpListener} (hid : w.objects[id]? = some (some (.listener l)))
    (hid' : w'.objects[id]? = some (some (.listener l')))
    (hl : l.Twin (Partners w.log w'.log) l') :
    (w.step N (.accept id)).Alike same (w'.step N' (.accept id)) := by
  obtain ⟨hlogs, hl, hr⟩ := TcpListener.sim_accept hw.logs h hl
  have hupdate := hw.update hs hs' hid hid' l.accounts_accept l'.accounts_accept hlogs
    (.some (.listener hl))
  rw [set_slot hid, set_slot hid'] at hupdate
  unfold World.step
  simp only [hid, hid']
  revert hupdate hr
  rcases (l.accept N).run w.log with ⟨r, log⟩
  rcases (l'.accept N').run w'.log with ⟨r', log'⟩
  intro hr hupdate
  cases hr with
  | error _ => exact hupdate
  | ok hstream => exact hupdate.append (.stream hstream)

/-- The target is closed, and takes over what the source holds. -/
theorem Alike.moveAssign (hw : w.Alike same w') (hs : w.Sound) (hs' : w'.Sound)
    {target source : Nat} {t t' s s' : Object} (hne : target ≠ source)
    (ht : w.objects[target]? = some (some t)) (ht' : w'.objects[target]? = some (some t'))
    (hsource : w.objects[source]? = some (some s)) (hsource' : w'.objects[source]? = some (some s'))
    (htwin : t.Twin same (Partners w.log w'.log) t') :
    Alike same
      { objects := (w.objects.set target (some s)).set source (some s.movedFrom)
        log := (t.close.run w.log).2 }
      { objects := (w'.objects.set target (some s')).set source (some s'.movedFrom)
        log := (t'.close.run w'.log).2 } := by
  obtain ⟨hlogs, -⟩ := Object.sim_close hw.logs htwin
  have hclosed := hw.update hs hs' ht ht' t.accounts_close t'.accounts_close hlogs .none
  have hmoved : s.Twin same (Partners (t.close.run w.log).2 (t'.close.run w'.log).2) s' := by
    refine @Alike.twin _ _ _ hclosed source _ _ ?_ ?_
    · rw [List.getElem?_set_ne hne, hsource]
    · rw [List.getElem?_set_ne hne, hsource']
  have hmove := (hclosed.set target (.some hmoved)).set source (.some hmoved.movedFrom)
  simp only [List.set_set] at hmove
  exact hmove

/-- One operation. -/
theorem Alike.step (h : N.Alike same N') (hw : w.Alike same w') (hs : w.Sound) (hs' : w'.Sound)
    (op : Op) : (w.step N op).Alike same (w'.step N' op) := by
  cases op with
  | newStream options reconnect => exact hw.append (.stream (.mk .none ..))
  | newListener options => exact hw.append (.listener (.mk .none ..))
  | newUdp options => exact hw.append (.udp (.mk (.mk .none (.inl rfl) .none ..)))
  | call id method =>
      unfold World.step
      rcases hw.slot id with ⟨hid, hid'⟩ | ⟨hid, hid'⟩ | ⟨o, o', hid, hid', ho⟩
      · simpa only [hid, hid'] using hw
      · simpa only [hid, hid'] using hw
      · obtain ⟨hlogs, htwin⟩ := Object.sim_run hw.logs ho h method
        simp only [hid, hid']
        exact hw.update hs hs' hid hid' (o.accounts_run method) (o'.accounts_run method) hlogs
          (.some htwin)
  | accept id =>
      rcases hw.slot id with ⟨hid, hid'⟩ | ⟨hid, hid'⟩ | ⟨o, o', hid, hid', ho⟩
      · simpa only [World.step, hid, hid'] using hw
      · simpa only [World.step, hid, hid'] using hw
      · cases ho with
        | listener hl => exact hw.accept h hs hs' hid hid' hl
        | stream _ => simpa only [World.step, hid, hid'] using hw
        | udp _ => simpa only [World.step, hid, hid'] using hw
  | moveConstruct source =>
      unfold World.step
      rcases hw.slot source with ⟨hid, hid'⟩ | ⟨hid, hid'⟩ | ⟨o, o', hid, hid', ho⟩
      · simpa only [hid, hid'] using hw
      · simpa only [hid, hid'] using hw
      · simp only [hid, hid']
        exact (hw.set source (.some ho.movedFrom)).append ho
  | moveAssign target source =>
      unfold World.step
      dsimp only
      split_ifs with hself
      · exact hw
      rcases hw.slot target with ⟨ht, ht'⟩ | ⟨ht, ht'⟩ | ⟨t, t', ht, ht', htwin⟩
      · simpa only [ht, ht'] using hw
      · simpa only [ht, ht'] using hw
      rcases hw.slot source with ⟨hid, hid'⟩ | ⟨hid, hid'⟩ | ⟨s, s', hid, hid', ho⟩
      · simpa only [ht, ht', hid, hid'] using hw
      · simpa only [ht, ht', hid, hid'] using hw
      · simp only [ht, ht', hid, hid', htwin.sameClass ho]
        split_ifs
        · exact hw.moveAssign hs hs' hself ht ht' hid hid' htwin
        · exact hw
  | destroy id =>
      unfold World.step
      rcases hw.slot id with ⟨hid, hid'⟩ | ⟨hid, hid'⟩ | ⟨o, o', hid, hid', ho⟩
      · simpa only [hid, hid'] using hw
      · simpa only [hid, hid'] using hw
      · obtain ⟨hlogs, -⟩ := Object.sim_close hw.logs ho
        simp only [hid, hid']
        exact hw.update hs hs' hid hid' o.accounts_close o'.accounts_close hlogs .none

/-- Every program. -/
theorem alike_run (h : N.Alike same N') (ops : List Op) :
    (World.run N ops).Alike same (World.run N' ops) := by
  induction ops using List.reverseRecOn with
  | nil => exact ⟨.nil, fun _ => .none⟩
  | append_singleton ops op ih =>
      have hs := @sound_run N ops
      have hs' := @sound_run N' ops
      unfold World.run at ih hs hs' ⊢
      rw [List.foldl_append, List.foldl_append]
      exact ih.step h hs hs' op

end World

end Transport
end Vosp
