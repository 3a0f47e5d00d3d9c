import MicroProtocol.Lib.Machine
import MicroProtocol.Security.SecureBuffer

/-!
# Secrets stay in their buffers

A program makes buffers, moves them around, writes to them and destroys them, in any order.
`World` is what it has made: the heap, and the live buffers, each in a slot of its own that
stays empty once the buffer is destroyed.

* `valueMachine` — what the class is for: each buffer is a list of bytes, moving hands the
  list on, and nothing else knows of it.
* `Describes` — the invariant that connects the two: the slots with their contents, which
  account for the whole heap.  `describes_step` keeps it through every operation.
* `secrets_contained`, `storage_released_once` — on every run, no secret is left in memory
  and no block is released while it is in use.
-/

namespace Vosp
namespace Security

open Storage

/-- An operation of the program.  A buffer is named by its slot. -/
inductive Op where
  | construct
  | copyFrom (source : List UInt8) (maximumSize : ℕ)
  /-- A new buffer is move-constructed from `source`. -/
  | moveConstruct (source : ℕ)
  | moveAssign (target source : ℕ)
  /-- A write through `bytes()`; one outside of the range is not made. -/
  | write (id index : ℕ) (value : UInt8)
  | clear (id : ℕ)
  | destroy (id : ℕ)
  deriving DecidableEq, Repr

/-- The heap and the live buffers. -/
structure World where
  heap : Heap UInt8 := {}
  buffers : List (Option SecureBuffer) := []

/-- What is done with the object in a slot, if there is one. -/
def withSlot {α β : Type} (slots : List (Option α)) (id : ℕ) (idle : β) (f : α → β) : β :=
  match slots[id]? with
  | some (some a) => f a
  | _ => idle

namespace World

/-- One operation and its answer; only `copy_from` can fail.  An operation on a buffer that
does not exist changes nothing. -/
def step (w : World) : Op → Result Unit × World
  | .construct => (.ok (), { w with buffers := w.buffers ++ [some {}] })
  | .copyFrom source maximumSize =>
      match (SecureBuffer.copyFrom source maximumSize).run w.heap with
      | (.ok b, heap) => (.ok (), { heap := heap, buffers := w.buffers ++ [some b] })
      | (.error e, heap) => (.error e, { w with heap := heap })
  | .moveConstruct source =>
      withSlot w.buffers source (.ok (), w) fun other =>
        let ((this, other), heap) := other.moveConstruct.run w.heap
        (.ok (), { heap := heap, buffers := w.buffers.set source (some other) ++ [some this] })
  | .moveAssign target source =>
      withSlot w.buffers target (.ok (), w) fun this =>
        withSlot w.buffers source (.ok (), w) fun other =>
          -- `this != &other`
          if target ≠ source then
            let ((this, other), heap) := (this.moveAssign other).run w.heap
            (.ok (), { heap := heap
                       buffers := (w.buffers.set target (some this)).set source (some other) })
          else (.ok (), w)
  | .write id index value =>
      withSlot w.buffers id (.ok (), w) fun b =>
        let (_, heap) := (b.write index value).run w.heap
        (.ok (), { heap := heap, buffers := w.buffers.set id (some b) })
  | .clear id =>
      withSlot w.buffers id (.ok (), w) fun b =>
        let (b, heap) := b.clear.run w.heap
        (.ok (), { heap := heap, buffers := w.buffers.set id (some b) })
  | .destroy id =>
      withSlot w.buffers id (.ok (), w) fun b =>
        let (_, heap) := b.destroy.run w.heap
        (.ok (), { heap := heap, buffers := w.buffers.set id none })

/-- What `bytes()` shows of every live buffer. -/
def values (w : World) : List (Option (List UInt8)) :=
  w.buffers.map (Option.map fun b => b.bytes.contents w.heap)

end World

/-- Programs that use buffers. -/
def machine : Machine World Op (Result Unit) := ⟨{}, World.step⟩

/-- What `copy_from` answers. -/
def admission (source : List UInt8) (maximumSize : ℕ) : Result Unit :=
  if 1 ≤ source.length ∧ 1 ≤ maximumSize ∧ maximumSize ≤ SecureBuffer.hardMaximumSize then
    if source.length ≤ maximumSize then .ok ()
    else .error ⟨.limitExceeded, "secret exceeds secure buffer limit"⟩
  else .error ⟨.invalidArgument, "secure buffer size limit is invalid"⟩

/-- The same programs, over lists of bytes instead of buffers. -/
def valueMachine : Machine (List (Option (List UInt8))) Op (Result Unit) where
  init := []
  step a op :=
    match op with
    | .construct => (.ok (), a ++ [some []])
    | .copyFrom source maximumSize =>
        match admission source maximumSize with
        | .ok () => (.ok (), a ++ [some source])
        | .error e => (.error e, a)
    | .moveConstruct source =>
        withSlot a source (.ok (), a) fun xs => (.ok (), a.set source (some []) ++ [some xs])
    | .moveAssign target source =>
        withSlot a target (.ok (), a) fun _ =>
          withSlot a source (.ok (), a) fun ys =>
            if target ≠ source then (.ok (), (a.set target (some ys)).set source (some []))
            else (.ok (), a)
    | .write id index value =>
        withSlot a id (.ok (), a) fun xs => (.ok (), a.set id (some (xs.set index value)))
    | .clear id => withSlot a id (.ok (), a) fun _ => (.ok (), a.set id (some []))
    | .destroy id => withSlot a id (.ok (), a) fun _ => (.ok (), a.set id none)

/-! ## The invariant -/

/-- A slot with the contents of the buffer in it. -/
abbrev Slot := Option (Vec × List UInt8)

namespace Slot

def buffer (s : Slot) : Option SecureBuffer := s.map fun p => ⟨p.1⟩

def value (s : Slot) : Option (List UInt8) := s.map Prod.snd

def held : Slot → Multiset (Vec × List UInt8)
  | none => 0
  | some p => {p}

theorem mem_held {s : Slot} {p : Vec × List UInt8} : p ∈ s.held ↔ s = some p := by
  cases s with
  | none => simp [held]
  | some q => simp [held, eq_comm]

end Slot

/-- The slots describe the world: they are its buffers with what the heap holds for them, and
the heap holds nothing else. -/
structure Describes (g : List Slot) (w : World) : Prop where
  buffers_eq : w.buffers = g.map Slot.buffer
  holds : Holds w.heap (g.map Slot.held).sum

namespace Describes

variable {g : List Slot} {w : World} {α : Type} {m : StateM (Heap UInt8) α}
  {W : α → Multiset (Vec × List UInt8)}

theorem pointsTo (hd : Describes g w) {id : ℕ} {p : Vec × List UInt8}
    (hid : g[id]? = some (some p)) : PointsTo w.heap p.1 p.2 :=
  hd.holds.pointsTo p (Custody.mem_row.2 ⟨id, some p, hid, Slot.mem_held.2 rfl⟩)

theorem values_eq (hd : Describes g w) : w.values = g.map Slot.value := by
  refine List.ext_getElem? fun id => ?_
  rw [World.values, hd.buffers_eq, List.map_map, List.getElem?_map, List.getElem?_map]
  rcases hid : g[id]? with _ | _ | p
  · rfl
  · rfl
  · exact congrArg (some ∘ some) (hd.pointsTo hid).contents_eq

theorem buffer_eq (hd : Describes g w) (id : ℕ) : w.buffers[id]? = g[id]?.map Slot.buffer := by
  rw [hd.buffers_eq, List.getElem?_map]

/-- A live buffer, with its contents. -/
theorem exists_slot (hd : Describes g w) {id : ℕ} {b : SecureBuffer}
    (hid : w.buffers[id]? = some (some b)) : ∃ xs, g[id]? = some (some (b.bytes, xs)) := by
  rw [hd.buffer_eq] at hid
  rcases hg : g[id]? with _ | _ | ⟨v, xs⟩
  · simp [hg] at hid
  · simp [hg, Slot.buffer] at hid
  · obtain rfl : b = ⟨v⟩ := by simpa [hg, Slot.buffer, eq_comm] using hid
    exact ⟨xs, rfl⟩

/-- A program that takes over the buffer in one slot. -/
theorem update (hd : Describes g w) {id : ℕ} {p : Vec × List UInt8}
    (hid : g[id]? = some (some p)) (hm : Triple {p} m W) {s : Slot}
    (hs : s.held = W (m.run w.heap).1) :
    Describes (g.set id s)
      { heap := (m.run w.heap).2, buffers := w.buffers.set id s.buffer } := by
  obtain ⟨F, hF, hset⟩ := Custody.exists_frame Slot.held hid
  have hholds := hd.holds
  rw [hF] at hholds
  refine ⟨by rw [hd.buffers_eq, List.map_set], ?_⟩
  rw [hset, hs]
  exact hm F w.heap hholds

/-- A program that neither takes nor makes a buffer. -/
theorem keep (hd : Describes g w) (hm : Triple 0 m W) (hs : W (m.run w.heap).1 = 0) :
    Describes g { w with heap := (m.run w.heap).2 } := by
  have hholds := hd.holds
  rw [← add_zero (g.map Slot.held).sum] at hholds
  have hafter := hm _ w.heap hholds
  rw [hs, add_zero] at hafter
  exact ⟨hd.buffers_eq, hafter⟩

/-- A program that makes a new buffer. -/
theorem append (hd : Describes g w) (hm : Triple 0 m W) {s : Slot}
    (hs : s.held = W (m.run w.heap).1) :
    Describes (g ++ [s])
      { heap := (m.run w.heap).2, buffers := w.buffers ++ [s.buffer] } := by
  have hholds := hd.holds
  rw [← add_zero (g.map Slot.held).sum] at hholds
  refine ⟨by simp [hd.buffers_eq], ?_⟩
  rw [List.map_append, List.sum_append, List.map_singleton, List.sum_singleton, hs]
  exact hm _ w.heap hholds

/-- Moving to a new slot. -/
theorem moveConstruct (hd : Describes g w) {source : ℕ} {p : Vec × List UInt8}
    (hid : g[source]? = some (some p)) {s t : Slot} (hm : Triple {p} m W)
    (hs : t.held + s.held = W (m.run w.heap).1) :
    Describes (g.set source s ++ [t])
      { heap := (m.run w.heap).2, buffers := w.buffers.set source s.buffer ++ [t.buffer] } := by
  obtain ⟨F, hF, hset⟩ := Custody.exists_frame Slot.held hid
  have hholds := hd.holds
  rw [hF] at hholds
  refine ⟨by simp [hd.buffers_eq, List.map_set], ?_⟩
  rw [List.map_append, List.sum_append, List.map_singleton, List.sum_singleton, hset, add_assoc,
    add_comm s.held, hs]
  exact hm F w.heap hholds

/-- Moving from one slot to another. -/
theorem moveAssign (hd : Describes g w) {target source : ℕ} (hne : target ≠ source)
    {p q : Vec × List UInt8} (ht : g[target]? = some (some p)) (hs : g[source]? = some (some q))
    {t s : Slot} (hm : Triple ({p} + {q}) m W) (hslots : t.held + s.held = W (m.run w.heap).1) :
    Describes ((g.set target t).set source s)
      { heap := (m.run w.heap).2
        buffers := (w.buffers.set target t.buffer).set source s.buffer } := by
  obtain ⟨F, hF, hset⟩ := Custody.exists_frame_two Slot.held hne ht hs
  have hholds := hd.holds
  rw [hF] at hholds
  refine ⟨by simp [hd.buffers_eq, List.map_set], ?_⟩
  rw [hset, hslots]
  exact hm F w.heap hholds

end Describes

theorem describes_init : Describes [] {} := ⟨rfl, holds_init⟩

/-- The answer is the one the sizes call for. -/
theorem copyFrom_answer (source : List UInt8) (maximumSize : ℕ) (h : Heap UInt8) :
    ((SecureBuffer.copyFrom source maximumSize).run h).1.map (fun _ => ())
      = admission source maximumSize := by
  have hlimits : (source = [] ∨ maximumSize = 0 ∨ SecureBuffer.hardMaximumSize < maximumSize) ↔
      ¬ (1 ≤ source.length ∧ 1 ≤ maximumSize ∧ maximumSize ≤ SecureBuffer.hardMaximumSize) := by
    rw [← List.length_eq_zero_iff]
    omega
  unfold SecureBuffer.copyFrom admission
  by_cases hinvalid : source = [] ∨ maximumSize = 0 ∨ SecureBuffer.hardMaximumSize < maximumSize
  · rw [if_pos hinvalid, if_neg (hlimits.1 hinvalid)]
    rfl
  · rw [if_neg hinvalid, if_pos (not_not.1 fun hnot => hinvalid (hlimits.2 hnot))]
    by_cases hlong : maximumSize < source.length
    · rw [if_pos hlong, if_neg (not_le.2 hlong)]
      rfl
    · rw [if_neg hlong, if_pos (not_lt.1 hlong)]
      rfl

/-- A step of the world does what a step over lists of bytes does. -/
def Simulates (r : Result Unit × World) (a : Result Unit × List (Option (List UInt8))) : Prop :=
  ∃ g, Describes g r.2 ∧ a = (r.1, g.map Slot.value)

namespace Describes

variable {g : List Slot} {w : World}

theorem idle (hd : Describes g w) : Simulates (.ok (), w) (.ok (), g.map Slot.value) := ⟨g, hd, rfl⟩

/-- The two levels agree on which slots are in use. -/
theorem withSlot (hd : Describes g w) {id : ℕ} {f : SecureBuffer → Result Unit × World}
    {f' : List UInt8 → Result Unit × List (Option (List UInt8))}
    (hf : ∀ b xs, g[id]? = some (some (b.bytes, xs)) → Simulates (f b) (f' xs)) :
    Simulates (withSlot w.buffers id (.ok (), w) f)
      (withSlot (g.map Slot.value) id (.ok (), g.map Slot.value) f') := by
  unfold Security.withSlot
  rw [hd.buffer_eq, List.getElem?_map]
  rcases hid : g[id]? with _ | _ | ⟨v, xs⟩
  · exact hd.idle
  · exact hd.idle
  · exact hf ⟨v⟩ xs hid

end Describes

/-- **One step.**  Every operation keeps the invariant, and does to the contents what it does
to lists of bytes. -/
theorem simulates_step {g : List Slot} {w : World} (hd : Describes g w) (op : Op) :
    Simulates (w.step op) (valueMachine.step (g.map Slot.value) op) := by
  cases op with
  | construct =>
      have hnew : Triple (0 : Multiset (Vec × List UInt8)) (pure ()) fun _ => {(⟨none, 0⟩, [])} :=
        Triple.of_null (triple_pure (zero_add _))
      refine ⟨_, hd.append hnew (s := some (⟨none, 0⟩, [])) rfl, ?_⟩
      simp [World.step, valueMachine, Slot.value]
  | copyFrom source maximumSize =>
      have htriple := SecureBuffer.triple_copyFrom source maximumSize
      have hanswer := copyFrom_answer source maximumSize w.heap
      simp only [World.step, valueMachine, ← hanswer]
      rcases hrun : (SecureBuffer.copyFrom source maximumSize).run w.heap with ⟨e | b, heap⟩
      · have hkept := hd.keep htriple (by rw [hrun]; rfl)
        rw [hrun] at hkept
        exact ⟨g, hkept, rfl⟩
      · have hnew := hd.append htriple (s := some (b.bytes, source)) (by rw [hrun]; rfl)
        rw [hrun] at hnew
        refine ⟨_, hnew, ?_⟩
        simp [Except.map, Slot.value]
  | moveConstruct source =>
      refine hd.withSlot fun other xs hid => ?_
      rcases hrun : other.moveConstruct.run w.heap with ⟨⟨this, rest⟩, heap⟩
      have hmove := hd.moveConstruct hid (SecureBuffer.triple_moveConstruct other xs)
        (s := some (rest.bytes, [])) (t := some (this.bytes, xs)) (by rw [hrun]; rfl)
      rw [hrun] at hmove
      refine ⟨_, hmove, ?_⟩
      simp [Slot.value, List.map_set]
  | moveAssign target source =>
      refine hd.withSlot fun this xs ht => hd.withSlot fun other ys hs => ?_
      split_ifs with hne
      · rcases hrun : (this.moveAssign other).run w.heap with ⟨⟨this', rest⟩, heap⟩
        have hmove := hd.moveAssign hne ht hs (SecureBuffer.triple_moveAssign this other xs ys)
          (t := some (this'.bytes, ys)) (s := some (rest.bytes, [])) (by rw [hrun]; rfl)
        rw [hrun] at hmove
        refine ⟨_, hmove, ?_⟩
        simp [Slot.value, List.map_set]
      · exact hd.idle
  | write id index value =>
      refine hd.withSlot fun b xs hid => ?_
      refine ⟨_, hd.update hid (SecureBuffer.triple_write b xs index value)
        (s := some (b.bytes, xs.set index value)) rfl, Prod.ext rfl ?_⟩
      simp [Slot.value, List.map_set]
  | clear id =>
      refine hd.withSlot fun b xs hid => ?_
      refine ⟨_, hd.update hid (SecureBuffer.triple_clear b xs)
        (s := some ((b.clear.run w.heap).1.bytes, [])) rfl, Prod.ext rfl ?_⟩
      simp [Slot.value, List.map_set]
  | destroy id =>
      refine hd.withSlot fun b xs hid => ?_
      refine ⟨_, hd.update hid (SecureBuffer.triple_destroy b xs) (s := none) rfl, Prod.ext rfl ?_⟩
      simp [Slot.value, List.map_set]

/-- **Buffers refine lists of bytes.** -/
theorem refines : Machine.Refines machine valueMachine (fun w => ∃ g, Describes g w)
    World.values where
  init_inv := ⟨[], describes_init⟩
  init_abs := rfl
  step_inv := by
    rintro w op ⟨g, hd⟩
    obtain ⟨g', hd', -⟩ := simulates_step hd op
    exact ⟨g', hd'⟩
  step_out := by
    rintro w op ⟨g, hd⟩
    obtain ⟨g', -, heq⟩ := simulates_step hd op
    rw [hd.values_eq, heq]
    rfl
  step_abs := by
    rintro w op ⟨g, hd⟩
    obtain ⟨g', hd', heq⟩ := simulates_step hd op
    rw [hd.values_eq, heq]
    exact hd'.values_eq

/-! ## Sizes -/

/-- No value is larger than a buffer may be. -/
def Bounded (a : List (Option (List UInt8))) : Prop :=
  ∀ xs, some xs ∈ a → xs.length ≤ SecureBuffer.hardMaximumSize

namespace Bounded

variable {a : List (Option (List UInt8))} {xs : List UInt8}

theorem of_getElem? (ha : Bounded a) {id : ℕ} (hid : a[id]? = some (some xs)) :
    xs.length ≤ SecureBuffer.hardMaximumSize := ha xs (List.mem_of_getElem? hid)

theorem set (ha : Bounded a) (id : ℕ) {x : Option (List UInt8)} (hx : Bounded [x]) :
    Bounded (a.set id x) := by
  intro xs hmem
  rcases List.mem_or_eq_of_mem_set hmem with hmem | rfl
  · exact ha xs hmem
  · exact hx xs (by simp)

theorem append (ha : Bounded a) {x : Option (List UInt8)} (hx : Bounded [x]) :
    Bounded (a ++ [x]) := by
  intro xs hmem
  rcases List.mem_append.1 hmem with hmem | hmem
  · exact ha xs hmem
  · exact hx xs hmem

theorem none : Bounded [none] := by simp [Bounded]

theorem some (h : xs.length ≤ SecureBuffer.hardMaximumSize) : Bounded [some xs] := by
  simpa [Bounded] using h

theorem nil : Bounded [Option.some []] := some (Nat.zero_le _)

theorem withSlot (ha : Bounded a) {id : ℕ}
    {f : List UInt8 → Result Unit × List (Option (List UInt8))}
    (hf : ∀ xs, xs.length ≤ SecureBuffer.hardMaximumSize → Bounded (f xs).2) :
    Bounded (withSlot a id (.ok (), a) f).2 := by
  unfold Security.withSlot
  rcases hid : a[id]? with _ | _ | xs
  · exact ha
  · exact ha
  · exact hf xs (ha.of_getElem? hid)

end Bounded

/-- Only `copy_from` brings bytes in, and it has looked at their number. -/
theorem bounded_step {a : List (Option (List UInt8))} (ha : Bounded a) (op : Op) :
    Bounded (valueMachine.step a op).2 := by
  cases op with
  | construct => exact ha.append .nil
  | copyFrom source maximumSize =>
      simp only [valueMachine, admission]
      split_ifs with hlimits hlength
      · exact ha.append (.some (hlength.trans hlimits.2.2))
      · exact ha
      · exact ha
  | moveConstruct source => exact ha.withSlot fun xs hxs => (ha.set _ .nil).append (.some hxs)
  | moveAssign target source =>
      refine ha.withSlot fun _ _ => ha.withSlot fun ys hys => ?_
      split_ifs
      · exact (ha.set _ (.some hys)).set _ .nil
      · exact ha
  | write id index value =>
      refine ha.withSlot fun xs hxs => ha.set _ (.some ?_)
      rwa [List.length_set]
  | clear id => exact ha.withSlot fun _ _ => ha.set _ .nil
  | destroy id => exact ha.withSlot fun _ _ => ha.set _ .none

/-! ## Every run -/

/-- The buffer is live, and the block is its storage. -/
def World.Stores (w : World) (id : ℕ) (b : SecureBuffer) (k : ℕ) : Prop :=
  w.buffers[id]? = some (some b) ∧ b.bytes.block = some k

namespace Describes

variable {g : List Slot} {w : World}

/-- No two buffers share a block. -/
theorem stores_unique (hd : Describes g w) {id id' k : ℕ} {b b' : SecureBuffer}
    (h : w.Stores id b k) (h' : w.Stores id' b' k) : id' = id := by
  obtain ⟨xs, hid⟩ := hd.exists_slot h.1
  obtain ⟨ys, hid'⟩ := hd.exists_slot h'.1
  have hapart := hd.holds.apart
  rw [footprint_sum, List.map_map] at hapart
  refine Custody.slot_unique hapart hid' hid (h := k) ?_ ?_
  · simp [Slot.held, h'.2]
  · simp [Slot.held, h.2]

/-- A block that is not blank has an owner, whose range it is. -/
theorem exists_stores (hd : Describes g w) {k : ℕ} {bs : List UInt8}
    (hbs : w.heap.blocks[k]? = some bs) (hnot : ¬ Blank bs) :
    ∃ id b, w.Stores id b k ∧ bs.length = b.size := by
  have hmem : k ∈ footprint (g.map Slot.held).sum := by
    by_contra hout
    exact hnot (hd.holds.blank_rest k bs hbs hout)
  obtain ⟨p, hp, hk⟩ := Multiset.mem_bind.1 hmem
  obtain ⟨id, s, hid, hs⟩ := Custody.mem_row.1 hp
  obtain rfl := Slot.mem_held.1 hs
  have hblock : p.1.block = some k := Custody.mem_owned.1 hk
  refine ⟨id, ⟨p.1⟩, ⟨?_, hblock⟩, (hd.pointsTo hid).length_eq hblock hbs hnot⟩
  rw [hd.buffer_eq, hid]
  rfl

theorem size_eq (hd : Describes g w) {id : ℕ} {b : SecureBuffer}
    (hid : w.buffers[id]? = some (some b)) : b.size = (b.bytes.contents w.heap).length := by
  obtain ⟨xs, hslot⟩ := hd.exists_slot hid
  rw [(hd.pointsTo hslot).contents_eq]
  exact (hd.pointsTo hslot).size_eq

end Describes

/-- **The storage is managed.**  After any run, no block was released twice, and none that a
live buffer uses. -/
theorem storage_released_once (ops : List Op) :
    let w := machine.exec {} ops
    (w.heap.released.map Prod.fst).Nodup ∧
      ∀ id b k, w.Stores id b k → k ∉ w.heap.released.map Prod.fst := by
  obtain ⟨g, hd⟩ := refines.inv_of_reachable (machine.reachable_exec ops)
  refine ⟨hd.holds.released_once, fun id b k hstores => ?_⟩
  obtain ⟨xs, hslot⟩ := hd.exists_slot hstores.1
  exact (hd.pointsTo hslot).live hstores.2

/-- **No secret is abandoned.**  After any run, a block with a byte that is not zero is the
storage of exactly one live buffer, whose range is the whole block; and every block was zero
when it was released.  A move leaves the source empty and the target with what the source
held, and touches no other buffer; assigned to itself, a buffer stays as it is.  The size of
a buffer is the number of its bytes, which is at most 64 MiB. -/
theorem secrets_contained (ops : List Op) :
    let w := machine.exec {} ops
    (∀ (k : ℕ) (bs : List UInt8), w.heap.blocks[k]? = some bs → (∃ x ∈ bs, x ≠ 0) →
      ∃ id b, w.Stores id b k ∧ bs.length = b.size ∧ ∀ id' b', w.Stores id' b' k → id' = id) ∧
    (∀ r ∈ w.heap.released, ∀ x ∈ r.2, x = 0) ∧
    (∀ (source : ℕ) (xs : List UInt8), w.values[source]? = some (some xs) →
      (w.step (.moveConstruct source)).2.values = w.values.set source (some []) ++ [some xs]) ∧
    (∀ (target source : ℕ) (xs ys : List UInt8), target ≠ source →
      w.values[target]? = some (some xs) → w.values[source]? = some (some ys) →
      (w.step (.moveAssign target source)).2.values
        = (w.values.set target (some ys)).set source (some [])) ∧
    (∀ id : ℕ, (w.step (.moveAssign id id)).2 = w) ∧
    (∀ (id : ℕ) (b : SecureBuffer), w.buffers[id]? = some (some b) →
      b.size = (b.bytes.contents w.heap).length ∧
      (b.size = 0 ∨ 1 ≤ b.size ∧ b.size ≤ 64 * 1024 * 1024)) := by
  intro w
  obtain ⟨g, hd⟩ := refines.inv_of_reachable (machine.reachable_exec ops)
  change Describes g w at hd
  have hvalues : ∀ op, (w.step op).2.values = (valueMachine.step w.values op).2 :=
    fun op => refines.step_abs w op ⟨g, hd⟩
  have hbounded : Bounded w.values := by
    have hstart : Bounded valueMachine.init := by simp [Bounded, valueMachine]
    rw [show w.values = _ from refines.exec_eq ops]
    exact valueMachine.exec_induction (P := Bounded) (fun _ op ha => bounded_step ha op) hstart ops
  refine ⟨fun k bs hbs hsome => ?_, hd.holds.blank_released, fun source xs hs => ?_,
    fun target source xs ys hne ht hs => ?_, fun id => ?_, fun id b hid => ?_⟩
  · have hnot : ¬ Blank bs := by simpa [Blank] using hsome
    obtain ⟨id, b, hstores, hlength⟩ := hd.exists_stores hbs hnot
    exact ⟨id, b, hstores, hlength, fun id' b' h' => hd.stores_unique hstores h'⟩
  · rw [hvalues]
    simp [valueMachine, withSlot, hs]
  · rw [hvalues]
    simp [valueMachine, withSlot, ht, hs, hne]
  · rcases hid : w.buffers[id]? with _ | _ | b
    · simp [World.step, withSlot, hid]
    · simp [World.step, withSlot, hid]
    · simp [World.step, withSlot, hid]
  · have hvalue : w.values[id]? = some (some (b.bytes.contents w.heap)) := by
      simp [World.values, hid]
    have hsize := hd.size_eq hid
    have hle : b.size ≤ 64 * 1024 * 1024 := hsize.trans_le (hbounded.of_getElem? hvalue)
    exact ⟨hsize, by omega⟩

/-- A secret replaces another one: the block of the old one is released, and was blank. -/
theorem secrets_contained_replaced :
    let w := machine.exec {} [.copyFrom [7, 8] 16, .copyFrom [9] 16]
    w.values = [some [7, 8], some [9]] ∧
      (w.step (.moveAssign 1 0)).2.values = [some [], some [7, 8]] ∧
      (w.step (.moveAssign 1 0)).2.heap.released = [(1, [0])] :=
  ⟨rfl, (secrets_contained [.copyFrom [7, 8] 16, .copyFrom [9] 16]).2.2.2.1 1 0 [9] [7, 8]
    (by decide) rfl rfl, rfl⟩

end Security
end Vosp
