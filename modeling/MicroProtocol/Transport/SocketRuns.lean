import MicroProtocol.Transport.SocketProtocol

/-!
# The socket interface over whole programs

Every program keeps to the protocol of the socket interface, against every operating
system: no socket is used before its options are set, no connection after an error, and
none is left half open.

* `World.Staged`, `World.staged_run` — the invariant, over all objects of a program.
* `sockets_follow_protocol` — the protocol is obeyed.
* `failed_socket_closed` — what that says about a socket after a failed call.
-/

namespace Vosp
namespace Transport

open Custody Detail Typestate

variable {N : Native}

namespace Object

/-- The socket of a live object, in the stage its class stands for. -/
def staged : Object → Multiset (Handle × Stage)
  | .stream s => s.staged
  | .listener l => l.staged
  | .udp u => u.staged

theorem follows_close (o : Object) : Follows socketRules o.staged o.close staged := by
  cases o with
  | stream s => exact s.follows_close.bind fun _ => follows_pure rfl
  | listener l => exact l.follows_close.bind fun _ => follows_pure rfl
  | udp u => exact u.follows_close.bind fun _ => follows_pure rfl

theorem staged_of_close (o : Object) : Returns o.close (fun o' => o'.staged = 0) := by
  cases o with
  | stream s => obtain ⟨_ | impl⟩ := s <;> exact fun _ => rfl
  | listener l => obtain ⟨_ | impl⟩ := l <;> exact fun _ => rfl
  | udp u => obtain ⟨_ | impl⟩ := u <;> exact fun _ => rfl

@[simp] theorem staged_movedFrom (o : Object) : o.movedFrom.staged = 0 := by
  cases o <;> rfl

theorem follows_run (method : Method) (o : Object) :
    Follows socketRules o.staged (run N method o) staged := by
  cases o with
  | stream s =>
      cases method with
      | connect endpoint => exact (s.follows_connect endpoint).bind fun _ => follows_pure rfl
      | reconnect => exact s.follows_reconnect.bind fun _ => follows_pure rfl
      | send bytes => exact (s.follows_send bytes).bind fun _ => follows_pure rfl
      | sendAll bytes => exact (s.follows_sendAllFrom bytes 0).bind fun _ => follows_pure rfl
      | receive size => exact (s.follows_receive size).bind fun _ => follows_pure rfl
      | close => exact follows_close (.stream s)
      | _ => exact follows_pure rfl
  | listener l =>
      cases method with
      | listen endpoint backlog =>
          exact (l.follows_bind endpoint backlog).bind fun _ => follows_pure rfl
      | localEndpoint => exact l.follows_localEndpoint.bind fun _ => follows_pure rfl
      | close => exact follows_close (.listener l)
      | _ => exact follows_pure rfl
  | udp u =>
      cases method with
      | bind endpoint => exact (u.follows_bind endpoint).bind fun _ => follows_pure rfl
      | sendTo endpoint payload =>
          exact (u.follows_sendTo endpoint payload).bind fun _ => follows_pure rfl
      | receiveFrom size => exact (u.follows_receive size).bind fun _ => follows_pure rfl
      | localEndpoint => exact u.follows_localEndpoint.bind fun _ => follows_pure rfl
      | close => exact follows_close (.udp u)
      | _ => exact follows_pure rfl

end Object

/-- The socket of the object in a slot. -/
def slotStaged : Option Object → Multiset (Handle × Stage)
  | none => 0
  | some o => o.staged

namespace World

/-- The invariant between operations: the protocol was obeyed, and every open socket is
the socket of an object, in the stage that goes with it. -/
structure Staged (w : World) : Prop where
  obeys : socketRules.Obeys w.log
  graph : Graph (w.objects.map slotStaged).sum (socketRules.stages w.log)

theorem staged_start : Staged {} := ⟨trivial, graph_zero⟩

/-- A program that answers for one slot. -/
theorem Staged.update {w : World} (h : w.Staged) {id : Nat} {o : Object}
    (hid : w.objects[id]? = some (some o)) {α : Type} {m : Net α}
    {T : α → Multiset (Handle × Stage)} (hm : Follows socketRules o.staged m T)
    {slot : Option Object} (hslot : slotStaged slot = T (m.run w.log).1) :
    Staged { objects := w.objects.set id slot, log := (m.run w.log).2 } := by
  obtain ⟨F, hF, hset⟩ := exists_frame slotStaged hid
  obtain ⟨hobeys, hgraph⟩ := hm F w.log h.obeys (hF ▸ h.graph)
  refine ⟨hobeys, ?_⟩
  rw [hset slot, hslot]
  exact hgraph

/-- A new object that has no socket yet. -/
theorem Staged.append {w : World} (h : w.Staged) {o : Object} (ho : o.staged = 0) :
    Staged { w with objects := w.objects ++ [some o] } :=
  ⟨h.obeys, by simpa [slotStaged, ho] using h.graph⟩

theorem Staged.moveConstruct {w : World} (h : w.Staged) {source : Nat} {o : Object}
    (hid : w.objects[source]? = some (some o)) :
    Staged { w with objects := w.objects.set source (some o.movedFrom) ++ [some o] } := by
  obtain ⟨F, hF, hset⟩ := exists_frame slotStaged hid
  refine ⟨h.obeys, ?_⟩
  have hgraph := h.graph
  rw [hF] at hgraph
  rw [List.map_append, List.sum_append, hset]
  simpa [slotStaged] using hgraph

theorem Staged.moveAssign {w : World} (h : w.Staged) {target source : Nat} {t s : Object}
    (hne : target ≠ source) (ht : w.objects[target]? = some (some t))
    (hs : w.objects[source]? = some (some s)) :
    Staged { objects := (w.objects.set target (some s)).set source (some s.movedFrom)
             log := (t.close.run w.log).2 } := by
  obtain ⟨F, hF, hset⟩ := exists_frame_two slotStaged hne ht hs
  -- while the target closes its socket, the source's is one of the others
  have hopen : (w.objects.map slotStaged).sum = F + s.staged + t.staged := by
    rw [hF, add_assoc, add_comm s.staged]
    rfl
  obtain ⟨hobeys, hgraph⟩ := t.follows_close (F + s.staged) w.log h.obeys (hopen ▸ h.graph)
  refine ⟨hobeys, ?_⟩
  rw [t.staged_of_close w.log] at hgraph
  rw [hset]
  simpa [slotStaged] using hgraph

/-- An accepted stream brings its own socket along. -/
theorem Staged.accept {w : World} (h : w.Staged) {id : Nat} {l : TcpListener}
    (hid : w.objects[id]? = some (some (.listener l))) :
    (w.step N (.accept id)).Staged := by
  obtain ⟨F, hF, -⟩ := exists_frame slotStaged hid
  have haccept := @TcpListener.follows_accept N l F w.log h.obeys (hF ▸ h.graph)
  unfold World.step
  simp only [hid]
  cases hrun : (l.accept N).run w.log with
  | mk r log =>
      rw [hrun] at haccept
      cases r with
      | error e =>
          refine ⟨haccept.1, ?_⟩
          have hgraph := haccept.2
          change Graph (F + (l.staged + 0)) (socketRules.stages log) at hgraph
          rw [add_zero] at hgraph
          change Graph (w.objects.map slotStaged).sum (socketRules.stages log)
          rw [hF]
          exact hgraph
      | ok s =>
          refine ⟨haccept.1, ?_⟩
          have hgraph := haccept.2
          change Graph (F + (l.staged + s.staged)) (socketRules.stages log) at hgraph
          rw [← add_assoc] at hgraph
          change Graph ((w.objects ++ [some (Object.stream s)]).map slotStaged).sum
            (socketRules.stages log)
          rw [List.map_append, List.sum_append, hF]
          simpa [slotStaged, Object.staged] using hgraph

/-- Every operation keeps the invariant. -/
theorem Staged.step {w : World} (h : w.Staged) (op : Op) : (w.step N op).Staged := by
  cases op with
  | newStream options reconnect => exact h.append rfl
  | newListener options => exact h.append rfl
  | newUdp options => exact h.append rfl
  | call id method =>
      unfold World.step
      dsimp only
      split
      · rename_i o hid
        exact h.update hid (o.follows_run method) rfl
      · exact h
  | accept id =>
      rcases hid : w.objects[id]? with _ | _ | s | l | u
      case some.some.listener => exact h.accept hid
      all_goals simpa [World.step, hid] using h
  | moveConstruct source =>
      unfold World.step
      dsimp only
      split
      · rename_i o hid
        exact h.moveConstruct hid
      · exact h
  | moveAssign target source =>
      unfold World.step
      dsimp only
      split_ifs with hself
      · exact h
      split
      · rename_i t s ht hs
        split_ifs
        · exact h.moveAssign hself ht hs
        · exact h
      · exact h
  | destroy id =>
      unfold World.step
      dsimp only
      split
      · rename_i o hid
        exact h.update hid o.follows_close (o.staged_of_close w.log).symm
      · exact h

/-- Every reachable world keeps the protocol. -/
theorem staged_run (ops : List Op) : (World.run N ops).Staged := by
  induction ops using List.reverseRecOn with
  | nil => exact staged_start
  | append_singleton ops op ih =>
      unfold World.run at ih ⊢
      rw [List.foldl_append]
      exact ih.step op

end World

/-- The socket that a failed native call leaves without a use; an error of a datagram or of
a listening socket is not of this kind. -/
def Event.ruins : Event → Option Handle
  | .applyOptions socket _ (.error _) => some socket
  | .setReuseAddress socket (.error _) => some socket
  | .bindSocket socket _ (.error _) => some socket
  | .listenSocket socket _ (.error _) => some socket
  | .connectSocket socket _ (.error _) => some socket
  | .sendSocket socket _ (.error _) => some socket
  | .receiveSocket socket _ (.error _) => some socket
  | .receiveSocket socket _ (.ok []) => some socket
  | _ => none

namespace Event

theorem on_of_ruins {e : Event} {socket : Handle} (h : e.ruins = some socket) :
    e.access.on = some socket ∧ e.birth = none := by
  unfold ruins at h
  split at h
  all_goals cases h
  all_goals exact ⟨rfl, rfl⟩

/-- The stage after such a call, if it was allowed. -/
theorem next_of_ruins {e : Event} {socket : Handle} (h : e.ruins = some socket) {s : Stage}
    {r : Option Stage} (hnext : e.next s = some r) : r = some .failed := by
  unfold ruins at h
  split at h
  all_goals cases h
  all_goals
    rcases s with (_ | _) | _ | _ | _ | _ | _ | _ | _ | _ | _ <;>
      simp_all [next, Stage.orFailed]

/-- All that is allowed is to shut it down. -/
theorem eq_shutdown {e : Event} {socket : Handle} (hon : e.access.on = some socket)
    {r : Option Stage} (hnext : e.next .failed = some r) :
    e = .shutdown socket ∧ r = some .shut := by
  cases e with
  | shutdown socket' =>
      cases hon
      cases hnext
      exact ⟨rfl, rfl⟩
  | _ => cases hnext

/-- All that is allowed after that is to close it. -/
theorem eq_close {e : Event} {socket : Handle} (hon : e.access.on = some socket)
    {r : Option Stage} (hnext : e.next .shut = some r) : e = .close socket := by
  cases e with
  | close socket' =>
      cases hon
      rfl
  | _ => cases hnext

end Event

/-- The sockets of live objects are in use. -/
theorem Object.stage_in_use {o : Object} {socket : Handle} {s : Stage}
    (h : (socket, s) ∈ o.staged) : s ≠ .failed ∧ s ≠ .shut := by
  cases o with
  | stream t =>
      obtain ⟨_ | ⟨_ | socket', options, policy, endpoint⟩⟩ := t
      · cases h
      · cases h
      · cases Multiset.mem_singleton.1 h
        exact ⟨nofun, nofun⟩
  | listener l =>
      obtain ⟨_ | ⟨_ | socket', options⟩⟩ := l
      · cases h
      · cases h
      · cases Multiset.mem_singleton.1 h
        exact ⟨nofun, nofun⟩
  | udp u =>
      obtain ⟨_ | ⟨_ | socket', options, family, cachedEndpoint, cachedAddress⟩⟩ := u
      · cases h
      · cases h
      · cases Multiset.mem_singleton.1 h
        exact ⟨nofun, nofun⟩

/-- **A socket that has failed is shut down and closed, and not used in between.**  When a
native call failed on a socket that is being set up, bound or connected, or on a
connection, or the peer has closed the connection, then by the end of the operation the
next two calls on this socket have been `shutdown` and `close`. -/
theorem failed_socket_closed (N : Native) (ops : List Op) {later earlier : Log} {e : Event}
    {socket : Handle} (hlog : (World.run N ops).log = later ++ e :: earlier)
    (hruins : e.ruins = some socket) :
    ∃ after between before, later = after ++ .close socket :: (between ++ .shutdown socket :: before) ∧
      ∀ e' ∈ between ++ before, e'.access.on ≠ some socket := by
  have hsound := @World.staged_run N ops
  have hobeys := hsound.obeys
  have hin_use : ∀ s, socketRules.stages (World.run N ops).log socket = some s →
      s ≠ .failed ∧ s ≠ .shut := by
    intro s hs
    obtain ⟨id, _ | o, -, hmem⟩ := mem_row.1 ((hsound.graph.mem_iff socket s).2 hs)
    · cases hmem
    · exact o.stage_in_use hmem
  rw [hlog] at hobeys hin_use
  -- the call itself
  obtain ⟨hon, hbirth⟩ := Event.on_of_ruins hruins
  obtain ⟨s, hs, hallowed⟩ := hobeys.at.on socket hon
  obtain ⟨r, hr⟩ := Option.isSome_iff_exists.1 hallowed
  have hfailed : socketRules.stages (e :: earlier) socket = some .failed := by
    rw [Rules.stages_cons_of_not_opens (fun s hs => by cases hbirth.symm.trans hs),
      if_pos (show socketRules.on e = some socket from hon), hs, Option.bind_some, hr]
    exact Event.next_of_ruins hruins hr
  -- the first call after it
  obtain hstill | ⟨l, e₁, before, r₁, rfl, hbefore, hon₁, hnext₁, hstage₁⟩ :=
    hobeys.first_on hfailed
  · exact absurd rfl (hin_use _ hstill).1
  obtain ⟨rfl, rfl⟩ := Event.eq_shutdown hon₁ hnext₁
  -- and the second
  rw [List.append_assoc, List.cons_append] at hobeys hin_use
  obtain hstill | ⟨after, e₂, between, r₂, rfl, hbetween, hon₂, hnext₂, -⟩ :=
    hobeys.first_on hstage₁
  · exact absurd rfl (hin_use _ hstill).2
  obtain rfl := Event.eq_close hon₂ hnext₂
  refine ⟨after, between, before, by simp, fun e' he' => ?_⟩
  rcases List.mem_append.1 he' with he' | he'
  · exact hbetween e' he'
  · exact hbefore e' he'

/-- An operating system on which every peer hangs up at once. -/
def hangingUp : Native := { Native.obliging with receiveSocket := fun _ _ _ => .ok [] }

theorem failed_socket_closed_peer :
    ∃ after between before, [Event.close 1, .shutdown 1] =
        after ++ Event.close 1 :: (between ++ .shutdown 1 :: before) ∧
      ∀ e' ∈ between ++ before, e'.access.on ≠ some 1 :=
  @failed_socket_closed hangingUp
    [.newStream {} {}, .call 0 (.connect ⟨"peer", 80⟩), .call 0 (.receive 4)]
    [.close 1, .shutdown 1] _ (.receiveSocket 1 4 (.ok [])) 1 rfl rfl

end Transport
end Vosp
