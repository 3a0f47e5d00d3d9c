import MicroProtocol.Lib.Logged
import MicroProtocol.Transport.Ownership

/-!
# Invariants of the objects of a world

A property `I` of a live object, in view of the log, and a property `J` of the log
itself hold in every reachable world when every method keeps them for the object
it is called on.  What the methods of *other* objects do is settled here, once and
for all: by custody they neither open nor close the handle of an object that is
not theirs, so `I` only has to survive calls that spare the object's own handle.

* `ObjectInvariant` — the obligations, one for each way an object comes about or
  changes.
* `ObjectInvariant.of_run` — the induction over whole programs, and `forall_object`
  for properties in which the log does not occur.
-/

namespace Vosp
namespace Transport

open Custody Detail Logged

/-- What has to be shown for `I` and `J` to hold in every reachable world. -/
structure ObjectInvariant (N : Native) (I : Log → Object → Prop) (J : Log → Prop) : Prop where
  start : J []
  newStream : ∀ log options reconnect, I log (.stream (.construct options reconnect))
  newListener : ∀ log options, I log (.listener (.construct options))
  newUdp : ∀ log options, I log (.udp (.construct options))
  movedFrom : ∀ log o, I log (Object.movedFrom o)
  run : ∀ method o, Ensures (fun log => J log ∧ I log o) (o.run N method)
    (fun o' log => J log ∧ I log o')
  accept : ∀ l, Ensures (fun log => J log ∧ I log (.listener l)) (l.accept N)
    (fun r log => J log ∧ I log (.listener l) ∧ ∀ s, r = .ok s → I log (.stream s))
  /-- Calls on behalf of other objects do no harm. -/
  stable : ∀ {log calls o}, I log o → Spares Event.access o.owned calls → I (calls ++ log) o

namespace World

/-- The invariants hold of the log and of every live object. -/
structure Keeps (I : Log → Object → Prop) (J : Log → Prop) (w : World) : Prop where
  log : J w.log
  object : ∀ {id : Nat} {o : Object}, w.objects[id]? = some (some o) → I w.log o

variable {N : Native} {I : Log → Object → Prop} {J : Log → Prop}

/-- A program that answers for one slot leaves the handles of all others alone. -/
theorem Sound.spares {w : World} (h : w.Sound) {id : Nat} {o : Object}
    (hid : w.objects[id]? = some (some o)) {α : Type} {m : Net α} {T : α → Multiset Handle}
    (hm : Accounts Event.access o.owned m T) :
    ∃ calls, (m.run w.log).2 = calls ++ w.log ∧
      ∀ {id' : Nat} {o' : Object}, id' ≠ id → w.objects[id']? = some (some o') →
        Spares Event.access o'.owned calls := by
  obtain ⟨F, hF, hset⟩ := exists_frame slotOwned hid
  obtain ⟨-, -, calls, hcalls, hspares⟩ := hm F w.log h.disciplined (h.open_eq.trans hF)
  refine ⟨calls, hcalls, ?_⟩
  intro id' o' hne hid' e he handle hhandle
  -- what another object owns is part of what all others hold
  have hrow : handle ∈ ((w.objects.set id none).map slotOwned).sum := by
    refine mem_row.2 ⟨id', some o', ?_, hhandle⟩
    rw [List.getElem?_set_ne hne.symm, hid']
  rw [hset none] at hrow
  exact hspares e he handle (by simpa [slotOwned] using hrow)

/-- Putting back what a slot holds. -/
theorem set_slot {objects : List (Option Object)} {id : Nat} {slot : Option Object}
    (h : objects[id]? = some slot) : objects.set id slot = objects := by
  obtain ⟨hlt, rfl⟩ := List.getElem?_eq_some_iff.1 h
  exact List.set_getElem_self hlt

theorem Keeps.append {w : World} (hw : w.Keeps I J) {o : Object} (ho : I w.log o) :
    Keeps I J { w with objects := w.objects ++ [some o] } := by
  refine ⟨hw.log, ?_⟩
  intro id o' hid
  rcases Nat.lt_or_ge id w.objects.length with hlt | hge
  · simp only [List.getElem?_append_left hlt] at hid
    exact hw.object hid
  · simp only [List.getElem?_append_right hge] at hid
    obtain ⟨-, rfl⟩ : id - w.objects.length = 0 ∧ o = o' := by
      simpa [List.getElem?_singleton] using hid
    exact ho

theorem Keeps.set {w : World} (hw : w.Keeps I J) (id : Nat) {o : Object} (ho : I w.log o) :
    Keeps I J { w with objects := w.objects.set id (some o) } := by
  refine ⟨hw.log, ?_⟩
  intro id' o' hid
  simp only [List.getElem?_set] at hid
  split_ifs at hid with heq hlt
  · cases hid
    exact ho
  · exact hw.object hid

/-- A program that answers for one slot, whatever becomes of the slot. -/
theorem Keeps.update (H : ObjectInvariant N I J) {w : World} (hs : w.Sound) (hw : w.Keeps I J)
    {id : Nat} {o : Object} (hid : w.objects[id]? = some (some o)) {α : Type} {m : Net α}
    {T : α → Multiset Handle} (hm : Accounts Event.access o.owned m T) (hJ : J (m.run w.log).2)
    (slot : Option Object) (hslot : ∀ o', slot = some o' → I (m.run w.log).2 o') :
    Keeps I J { objects := w.objects.set id slot, log := (m.run w.log).2 } := by
  obtain ⟨calls, hcalls, hspares⟩ := hs.spares hid hm
  refine ⟨hJ, ?_⟩
  intro id' o' hid'
  simp only [List.getElem?_set] at hid'
  split_ifs at hid' with heq hlt
  · exact hslot o' (Option.some.inj hid')
  · have hold := hw.object hid'
    show I (m.run w.log).2 o'
    rw [hcalls]
    exact H.stable hold (hspares (Ne.symm heq) hid')

theorem Keeps.close (H : ObjectInvariant N I J) {w : World} (hw : w.Keeps I J) {id : Nat}
    {o : Object} (hid : w.objects[id]? = some (some o)) : J (o.close.run w.log).2 := by
  have hrun := H.run .close o w.log ⟨hw.log, hw.object hid⟩
  cases o <;> exact hrun.1

theorem Keeps.accept (H : ObjectInvariant N I J) {w : World} (hs : w.Sound) (hw : w.Keeps I J)
    {id : Nat} {l : TcpListener} (hid : w.objects[id]? = some (some (.listener l))) :
    Keeps I J (w.step N (.accept id)) := by
  obtain ⟨hJ, hl, hstream⟩ := H.accept l w.log ⟨hw.log, hw.object hid⟩
  have hupdate := hw.update H hs hid (TcpListener.accounts_accept l) hJ
    (some (.listener l)) (by rintro o ⟨⟩; exact hl)
  rw [set_slot hid] at hupdate
  unfold World.step
  simp only [hid]
  cases hrun : (l.accept N).run w.log with
  | mk r log =>
      rw [hrun] at hupdate hstream
      cases r with
      | error e => exact hupdate
      | ok s => exact hupdate.append (hstream s rfl)

theorem Keeps.moveAssign (H : ObjectInvariant N I J) {w : World} (hs : w.Sound)
    (hw : w.Keeps I J) {target source : Nat} {t s : Object} (hne : target ≠ source)
    (ht : w.objects[target]? = some (some t)) (hsource : w.objects[source]? = some (some s)) :
    Keeps I J { objects := (w.objects.set target (some s)).set source (some s.movedFrom)
                log := (t.close.run w.log).2 } := by
  have hclosed := hw.update H hs ht t.accounts_close (hw.close H ht) none
    (fun o h => by cases h)
  have hmoved : I (t.close.run w.log).2 s := by
    have hother : (w.objects.set target none)[source]? = some (some s) := by
      rw [List.getElem?_set_ne hne, hsource]
    exact hclosed.object hother
  have htarget := hclosed.set target hmoved
  simp only [List.set_set] at htarget
  exact htarget.set source (H.movedFrom _ s)

/-- Every operation keeps the invariants. -/
theorem Keeps.step (H : ObjectInvariant N I J) {w : World} (hs : w.Sound) (hw : w.Keeps I J)
    (op : Op) : Keeps I J (w.step N op) := by
  cases op with
  | newStream options reconnect => exact hw.append (H.newStream _ _ _)
  | newListener options => exact hw.append (H.newListener _ _)
  | newUdp options => exact hw.append (H.newUdp _ _)
  | call id method =>
      unfold World.step
      simp only
      split
      · rename_i o hid
        obtain ⟨hJ, ho⟩ := H.run method o w.log ⟨hw.log, hw.object hid⟩
        exact hw.update H hs hid (o.accounts_run method) hJ _ (by rintro o' ⟨⟩; exact ho)
      · exact hw
  | accept id =>
      rcases hid : w.objects[id]? with _ | _ | s | l | u
      case some.some.listener => exact hw.accept H hs hid
      all_goals simpa [World.step, hid] using hw
  | moveConstruct source =>
      unfold World.step
      simp only
      split
      · rename_i o hid
        exact (hw.set source (H.movedFrom _ o)).append (hw.object hid)
      · exact hw
  | moveAssign target source =>
      unfold World.step
      simp only
      split_ifs with hself
      · exact hw
      split
      · rename_i t s ht hsource
        split_ifs
        · exact hw.moveAssign H hs hself ht hsource
        · exact hw
      · exact hw
  | destroy id =>
      unfold World.step
      simp only
      split
      · rename_i o hid
        exact hw.update H hs hid o.accounts_close (hw.close H hid) none
          (fun o' h => by cases h)
      · exact hw

end World

variable {N : Native} {I : Log → Object → Prop} {J : Log → Prop}

/-- **The induction over programs.** -/
theorem ObjectInvariant.of_run (H : ObjectInvariant N I J) (ops : List Op) :
    (World.run N ops).Keeps I J := by
  induction ops using List.reverseRecOn with
  | nil => exact ⟨H.start, fun h => by cases h⟩
  | append_singleton ops op ih =>
      have hs := @World.sound_run N ops
      unfold World.run at ih hs ⊢
      rw [List.foldl_append]
      exact ih.step H hs op

/-- The induction for a property that is not about the log. -/
theorem forall_object {P : Object → Prop}
    (hstream : ∀ options reconnect, P (.stream (.construct options reconnect)))
    (hlistener : ∀ options, P (.listener (.construct options)))
    (hudp : ∀ options, P (.udp (.construct options)))
    (hmoved : ∀ o : Object, P o.movedFrom)
    (hrun : ∀ method o, P o → Returns (Object.run N method o) P)
    (haccept : ∀ l : TcpListener, P (.listener l) →
      Returns (l.accept N) (fun r => ∀ s, r = .ok s → P (.stream s)))
    {ops : List Op} {id : Nat} {o : Object}
    (hid : (World.run N ops).objects[id]? = some (some o)) : P o := by
  have H : ObjectInvariant N (fun _ => P) (fun _ => True) :=
    { start := trivial
      newStream := fun _ => hstream
      newListener := fun _ => hlistener
      newUdp := fun _ => hudp
      movedFrom := fun _ => hmoved
      run := fun method o log h => ⟨trivial, hrun method o h.2 log⟩
      accept := fun l log h => ⟨trivial, h.2, haccept l h.2 log⟩
      stable := fun h _ => h }
  exact (H.of_run ops).object hid

end Transport
end Vosp
