import MicroProtocol.Lib.Custody

/-!
# Storage: vectors, their blocks, and what is left in them

The elements of a vector are in a block of memory.  Vectors come and go and hand their
blocks to each other; what matters here is what stays behind in a block that no vector
uses, because somebody may read it.

* `Heap`, `Vec` and the operations on vectors — allocating, moving, clearing, overwriting,
  releasing.  Released blocks are remembered with what they held at that moment.
* `Holds h V` — the vectors `V`, with the given contents, are all that the heap has:
  no two share a block, and every other block and every released one is zero.
* `Triple V m W` — a program that turns the vectors `V` into the vectors `W`, whatever
  other vectors there are, with the rules for `pure`, `bind` and each operation.
-/

namespace Storage

variable {α β γ : Type}

/-- Blocks are numbered in the order of their allocation. -/
structure Heap (β : Type) where
  blocks : List (List β) := []
  /-- The released blocks and what they held when they were released, newest first. -/
  released : List (ℕ × List β) := []

/-- A vector: its block, if it has one, and how many elements of it are in use. -/
structure Vec where
  block : Option ℕ := none
  size : ℕ := 0
  deriving DecidableEq, Repr

namespace Vec

/-- The elements of the vector. -/
def contents (h : Heap β) (v : Vec) : List β :=
  match v.block with
  | none => []
  | some k => (h.blocks.getD k []).take v.size

/-- A new vector with the elements of a range; the block is as large as the range. -/
def ofList (xs : List β) : StateM (Heap β) Vec := fun h =>
  if xs = [] then ({}, h)
  else (⟨some h.blocks.length, xs.length⟩, { h with blocks := h.blocks ++ [xs] })

/-- The destructor of a vector. -/
def release (v : Vec) : StateM (Heap β) Unit := fun h =>
  match v.block with
  | none => ((), h)
  | some k => ((), { h with released := (k, h.blocks.getD k []) :: h.released })

/-- The move constructor of a vector: the new vector and what is left of the old. -/
def move (source : Vec) : Vec × Vec := (source, {})

/-- The move assignment of a vector: the target and what is left of the source. -/
def moveAssign (target source : Vec) : StateM (Heap β) (Vec × Vec) := do
  target.release
  pure (source, {})

/-- The block stays: only the size changes. -/
def clear (v : Vec) : Vec := { v with size := 0 }

/-- The elements are overwritten by zeros. -/
def zeroFill [Zero β] (v : Vec) : StateM (Heap β) Unit := fun h =>
  match v.block with
  | none => ((), h)
  | some k =>
      ((), { h with blocks := h.blocks.modify k (List.replicate v.size 0 ++ ·.drop v.size) })

/-- An element is overwritten. -/
def store (v : Vec) (i : ℕ) (x : β) : StateM (Heap β) Unit := fun h =>
  match v.block with
  | none => ((), h)
  | some k =>
      if i < v.size then ((), { h with blocks := h.blocks.modify k (·.set i x) }) else ((), h)

end Vec

/-- The block was not released. -/
def Heap.Live (h : Heap β) (k : ℕ) : Prop := k ∉ h.released.map Prod.fst

variable [Zero β]

/-- Nothing but zeros. -/
def Blank (xs : List β) : Prop := ∀ x ∈ xs, x = 0

theorem blank_replicate (n : ℕ) : Blank (List.replicate n (0 : β)) :=
  fun _ hx => List.eq_of_mem_replicate hx

/-- The vector holds `xs`: either they fill its block, or there are none and the block is
blank. -/
inductive PointsTo (h : Heap β) : Vec → List β → Prop
  | null : PointsTo h {} []
  | full {k : ℕ} {xs : List β} (hblock : h.blocks[k]? = some xs) (hlive : h.Live k) :
      PointsTo h ⟨some k, xs.length⟩ xs
  | cleared {k : ℕ} {bs : List β} (hblock : h.blocks[k]? = some bs) (hlive : h.Live k)
      (hblank : Blank bs) : PointsTo h ⟨some k, 0⟩ []

namespace PointsTo

variable {h h' : Heap β} {v : Vec} {xs : List β}

theorem of_full {k n : ℕ} (hblock : h.blocks[k]? = some xs) (hlive : h.Live k)
    (hn : n = xs.length) : PointsTo h ⟨some k, n⟩ xs := hn ▸ .full hblock hlive

theorem contents_eq (hp : PointsTo h v xs) : v.contents h = xs := by
  cases hp with
  | null => rfl
  | full hblock _ => simp [Vec.contents, hblock]
  | cleared _ _ _ => simp [Vec.contents]

theorem size_eq (hp : PointsTo h v xs) : v.size = xs.length := by
  cases hp with
  | null => rfl
  | full _ _ => rfl
  | cleared _ _ _ => rfl

theorem eq_null (hp : PointsTo h v xs) (hv : v.block = none) : v = {} := by
  cases hp with
  | null => rfl
  | full _ _ => cases hv
  | cleared _ _ _ => cases hv

/-- What there is to know about the block of a vector. -/
theorem exists_block {k : ℕ} (hp : PointsTo h v xs) (hk : v.block = some k) :
    ∃ bs, h.blocks[k]? = some bs ∧ h.Live k ∧
      (xs = bs ∧ v.size = bs.length ∨ xs = [] ∧ Blank bs) := by
  cases hp with
  | null => cases hk
  | full hblock hlive =>
      obtain rfl := Option.some.inj hk
      exact ⟨_, hblock, hlive, .inl ⟨rfl, rfl⟩⟩
  | cleared hblock hlive hblank =>
      obtain rfl := Option.some.inj hk
      exact ⟨_, hblock, hlive, .inr ⟨rfl, hblank⟩⟩

theorem live {k : ℕ} (hp : PointsTo h v xs) (hk : v.block = some k) : h.Live k := by
  obtain ⟨bs, -, hlive, -⟩ := hp.exists_block hk
  exact hlive

theorem lt_length {k : ℕ} (hp : PointsTo h v xs) (hk : v.block = some k) :
    k < h.blocks.length := by
  obtain ⟨bs, hblock, -, -⟩ := hp.exists_block hk
  exact (List.getElem?_eq_some_iff.1 hblock).1

/-- A block that is not blank is in use from end to end. -/
theorem length_eq {k : ℕ} {bs : List β} (hp : PointsTo h v xs) (hk : v.block = some k)
    (hbs : h.blocks[k]? = some bs) (hnot : ¬ Blank bs) : bs.length = v.size := by
  obtain ⟨cs, hblock, -, ⟨-, hsize⟩ | ⟨-, hblank⟩⟩ := hp.exists_block hk
  · obtain rfl := Option.some.inj (hblock.symm.trans hbs)
    exact hsize.symm
  · obtain rfl := Option.some.inj (hblock.symm.trans hbs)
    exact absurd hblank hnot

/-- Nothing is left in the block of a vector without elements. -/
theorem blank_of_nil {k : ℕ} (hp : PointsTo h v []) (hk : v.block = some k) :
    ∃ bs, h.blocks[k]? = some bs ∧ Blank bs := by
  obtain ⟨bs, hblock, -, ⟨rfl, -⟩ | ⟨-, hblank⟩⟩ := hp.exists_block hk
  · exact ⟨[], hblock, by simp [Blank]⟩
  · exact ⟨bs, hblock, hblank⟩

/-- A change elsewhere in the heap. -/
theorem frame (hp : PointsTo h v xs)
    (hblocks : ∀ k, v.block = some k → h'.blocks[k]? = h.blocks[k]?)
    (hlive : ∀ k, v.block = some k → h'.Live k) : PointsTo h' v xs := by
  cases hp with
  | null => exact .null
  | full hblock _ => exact .full ((hblocks _ rfl).trans hblock) (hlive _ rfl)
  | cleared hblock _ hblank => exact .cleared ((hblocks _ rfl).trans hblock) (hlive _ rfl) hblank

end PointsTo

/-- The blocks of the vectors. -/
def footprint (V : Multiset (Vec × List β)) : Multiset ℕ := V.bind fun p => Custody.owned p.1.block

omit [Zero β] in
@[simp] theorem footprint_add (V W : Multiset (Vec × List β)) :
    footprint (V + W) = footprint V + footprint W := Multiset.add_bind _ _ _

omit [Zero β] in
@[simp] theorem footprint_singleton (p : Vec × List β) :
    footprint {p} = Custody.owned p.1.block := Multiset.singleton_bind _ _

omit [Zero β] in
theorem footprint_sum (L : List (Multiset (Vec × List β))) :
    footprint L.sum = (L.map footprint).sum := by
  induction L with
  | nil => rfl
  | cons V L ih => simp [ih]

omit [Zero β] in
theorem mem_footprint {V : Multiset (Vec × List β)} {p : Vec × List β} (hp : p ∈ V) {k : ℕ}
    (hk : p.1.block = some k) : k ∈ footprint V :=
  Multiset.mem_bind.2 ⟨p, hp, Custody.mem_owned.2 hk⟩

/-- The heap is accounted for by the vectors `V`. -/
structure Holds (h : Heap β) (V : Multiset (Vec × List β)) : Prop where
  apart : (footprint V).Nodup
  pointsTo : ∀ p ∈ V, PointsTo h p.1 p.2
  blank_rest : ∀ k bs, h.blocks[k]? = some bs → k ∉ footprint V → Blank bs
  blank_released : ∀ r ∈ h.released, Blank r.2
  released_lt : ∀ r ∈ h.released, r.1 < h.blocks.length
  released_once : (h.released.map Prod.fst).Nodup

theorem holds_init : Holds ({} : Heap β) 0 where
  apart := Multiset.nodup_zero
  pointsTo := by simp
  blank_rest := by simp
  blank_released := by simp
  released_lt := by simp
  released_once := List.nodup_nil

namespace Holds

variable {h h' : Heap β} {F V : Multiset (Vec × List β)} {v v' : Vec} {xs ys : List β} {k : ℕ}

/-- A vector without a block needs no care. -/
theorem add_null_iff : Holds h (V + {({}, [])}) ↔ Holds h V := by
  have hfoot : footprint (V + {(({} : Vec), ([] : List β))}) = footprint V := by simp
  constructor
  · intro hh
    exact ⟨hfoot ▸ hh.apart, fun p hp => hh.pointsTo p (Multiset.mem_add.2 (.inl hp)),
      hfoot ▸ hh.blank_rest, hh.blank_released, hh.released_lt, hh.released_once⟩
  · intro hh
    refine ⟨hfoot.symm ▸ hh.apart, fun p hp => ?_, hfoot.symm ▸ hh.blank_rest,
      hh.blank_released, hh.released_lt, hh.released_once⟩
    rcases Multiset.mem_add.1 hp with hp | hp
    · exact hh.pointsTo p hp
    · rw [Multiset.mem_singleton.1 hp]
      exact .null

theorem pointsTo_last (hh : Holds h (F + {(v, xs)})) : PointsTo h v xs :=
  hh.pointsTo (v, xs) (by simp)

/-- The other vectors do not use the block. -/
theorem not_mem_rest (hh : Holds h (F + {(v, xs)})) (hv : v.block = some k) : k ∉ footprint F := by
  have hapart := hh.apart
  rw [footprint_add, footprint_singleton, hv, Multiset.nodup_add] at hapart
  exact fun hk => Multiset.disjoint_left.1 hapart.2.2 hk (Multiset.mem_singleton_self k)

theorem frame_rest (hh : Holds h (F + {(v, xs)})) (hv : v.block = some k)
    (hblocks : ∀ j, j ≠ k → h'.blocks[j]? = h.blocks[j]?)
    (hlive : ∀ j, j ≠ k → h.Live j → h'.Live j) {p : Vec × List β} (hp : p ∈ F) :
    PointsTo h' p.1 p.2 := by
  have hpoints := hh.pointsTo p (Multiset.mem_add.2 (.inl hp))
  have hne : ∀ j, p.1.block = some j → j ≠ k := by
    rintro j hj rfl
    exact hh.not_mem_rest hv (mem_footprint hp hj)
  exact hpoints.frame (fun j hj => hblocks j (hne j hj))
    fun j hj => hlive j (hne j hj) (hpoints.live hj)

/-- A vector keeps its block, and only that block changes. -/
theorem update (hh : Holds h (F + {(v, xs)})) (hv : v.block = some k) (hv' : v'.block = some k)
    (hlength : h'.blocks.length = h.blocks.length)
    (hblocks : ∀ j, j ≠ k → h'.blocks[j]? = h.blocks[j]?) (hreleased : h'.released = h.released)
    (hp : PointsTo h' v' ys) : Holds h' (F + {(v', ys)}) := by
  have hfoot : footprint (F + {(v', ys)}) = footprint (F + {(v, xs)}) := by simp [hv, hv']
  refine ⟨hfoot ▸ hh.apart, fun p hmem => ?_, fun j bs hj hnot => ?_, ?_, ?_, ?_⟩
  · rcases Multiset.mem_add.1 hmem with hmem | hmem
    · refine hh.frame_rest hv hblocks (fun j _ hlive => ?_) hmem
      rwa [Heap.Live, hreleased]
    · rw [Multiset.mem_singleton.1 hmem]
      exact hp
  · have hne : j ≠ k := by
      rintro rfl
      exact hnot (by simp [hv'])
    exact hh.blank_rest j bs (hblocks j hne ▸ hj) (hfoot ▸ hnot)
  · exact hreleased ▸ hh.blank_released
  · rw [hreleased, hlength]
    exact hh.released_lt
  · exact hreleased ▸ hh.released_once

/-- A vector without elements gives up its block. -/
theorem release (hh : Holds h (F + {(v, [])})) : Holds (v.release.run h).2 F := by
  cases hv : v.block with
  | none =>
      obtain rfl := hh.pointsTo_last.eq_null hv
      exact add_null_iff.1 hh
  | some k =>
      have hpoints := hh.pointsTo_last
      obtain ⟨bs, hbs, hblank⟩ := hpoints.blank_of_nil hv
      have hrun : (v.release.run h).2 = { h with released := (k, bs) :: h.released } := by
        change (v.release h).2 = _
        simp [Vec.release, hv, hbs]
      rw [hrun]
      refine ⟨?_, fun p hp => ?_, fun j cs hj hnot => ?_, ?_, ?_, ?_⟩
      · have hapart := hh.apart
        rw [footprint_add, Multiset.nodup_add] at hapart
        exact hapart.1
      · have hlive : ∀ j, j ≠ k → h.Live j →
            Heap.Live { h with released := (k, bs) :: h.released } j := by
          intro j hne hlive
          simpa [Heap.Live, hne] using hlive
        refine hh.frame_rest hv ?_ hlive hp
        exact fun _ _ => rfl
      · by_cases hjk : j = k
        · subst hjk
          obtain rfl := Option.some.inj (hbs.symm.trans hj)
          exact hblank
        · refine hh.blank_rest j cs hj ?_
          simpa [hv, hjk] using hnot
      · rintro r (_ | ⟨_, hr⟩)
        · exact hblank
        · exact hh.blank_released r hr
      · rintro r (_ | ⟨_, hr⟩)
        · exact hpoints.lt_length hv
        · exact hh.released_lt r hr
      · exact List.nodup_cons.2 ⟨hpoints.live hv, hh.released_once⟩

/-- A vector is allocated. -/
theorem ofList (hh : Holds h F) (xs : List β) :
    Holds ((Vec.ofList xs).run h).2 (F + {(((Vec.ofList xs).run h).1, xs)}) := by
  by_cases hxs : xs = []
  · subst hxs
    exact add_null_iff.2 hh
  have hrun : (Vec.ofList xs).run h
      = (⟨some h.blocks.length, xs.length⟩, { h with blocks := h.blocks ++ [xs] }) := if_neg hxs
  have hold : ∀ j, j < h.blocks.length → (h.blocks ++ [xs])[j]? = h.blocks[j]? :=
    fun j hj => List.getElem?_append_left hj
  have hlt : ∀ j ∈ footprint F, j < h.blocks.length := by
    intro j hj
    obtain ⟨p, hp, hj⟩ := Multiset.mem_bind.1 hj
    exact (hh.pointsTo p hp).lt_length (Custody.mem_owned.1 hj)
  have hfresh : h.blocks.length ∉ footprint F := fun hmem => (hlt _ hmem).ne rfl
  have hlive : h.Live h.blocks.length := by
    intro hmem
    obtain ⟨r, hr, hlength⟩ := List.mem_map.1 hmem
    exact (hh.released_lt r hr).ne hlength
  rw [hrun]
  refine ⟨?_, fun p hp => ?_, fun j bs hj hnot => ?_, hh.blank_released, fun r hr => ?_,
    hh.released_once⟩
  · rw [footprint_add, footprint_singleton, Multiset.nodup_add]
    refine ⟨hh.apart, Multiset.nodup_singleton _, Multiset.disjoint_left.2 fun {j} hj hmem => ?_⟩
    rw [Custody.owned_some, Multiset.mem_singleton] at hmem
    exact hfresh (hmem ▸ hj)
  · rcases Multiset.mem_add.1 hp with hp | hp
    · have hpoints := hh.pointsTo p hp
      exact hpoints.frame (fun j hj => hold j (hpoints.lt_length hj)) fun j hj => hpoints.live hj
    · rw [Multiset.mem_singleton.1 hp]
      exact .full List.getElem?_concat_length hlive
  · have hne : j ≠ h.blocks.length := by
      rintro rfl
      exact hnot (by simp)
    have hj' : j < h.blocks.length := by
      have := (List.getElem?_eq_some_iff.1 hj).1
      simp only [List.length_append, List.length_singleton] at this
      omega
    refine hh.blank_rest j bs ((hold j hj').symm.trans hj) fun hmem => hnot ?_
    rw [footprint_add]
    exact Multiset.mem_add.2 (.inl hmem)
  · exact (hh.released_lt r hr).trans_le (by simp)

/-- The block of a vector is rewritten in place. -/
theorem modify (hh : Holds h (F + {(v, xs)})) (hv : v.block = some k) {f : List β → List β}
    (hp : PointsTo { h with blocks := h.blocks.modify k f } v' ys) (hv' : v'.block = some k) :
    Holds { h with blocks := h.blocks.modify k f } (F + {(v', ys)}) :=
  hh.update hv hv' (List.length_modify _ _ _) (fun j hj => by simp [Ne.symm hj]) rfl hp

/-- The elements are overwritten by zeros. -/
theorem zeroFill (hh : Holds h (F + {(v, xs)})) :
    Holds (v.zeroFill.run h).2 (F + {(v, List.replicate xs.length 0)}) := by
  cases hh.pointsTo_last with
  | null => exact hh
  | full hblock hlive =>
      exact hh.modify rfl (.of_full (by simp [hblock]) hlive List.length_replicate.symm) rfl
  | cleared hblock hlive hblank =>
      exact hh.modify rfl (.cleared (by simp [hblock]) hlive hblank) rfl

/-- One element is overwritten. -/
theorem store (hh : Holds h (F + {(v, xs)})) (i : ℕ) (x : β) :
    Holds ((v.store i x).run h).2 (F + {(v, xs.set i x)}) := by
  cases hh.pointsTo_last with
  | null => exact hh
  | @full k _ hblock hlive =>
      by_cases hi : i < xs.length
      · have hrun : (((⟨some k, xs.length⟩ : Vec).store i x).run h).2
            = { h with blocks := h.blocks.modify k (·.set i x) } := by
          change (Vec.store _ i x h).2 = _
          simp [Vec.store, hi]
        rw [hrun]
        exact hh.modify rfl (.of_full (by simp [hblock]) hlive List.length_set.symm) rfl
      · have hrun : (((⟨some k, xs.length⟩ : Vec).store i x).run h).2 = h := by
          change (Vec.store _ i x h).2 = _
          simp [Vec.store, hi]
        rw [hrun, List.set_eq_of_length_le (not_lt.1 hi)]
        exact hh
  | cleared hblock hlive hblank => exact hh

/-- The size is set to zero after the elements were. -/
theorem clear (hh : Holds h (F + {(v, xs)})) (hxs : Blank xs) : Holds h (F + {(v.clear, [])}) := by
  cases hh.pointsTo_last with
  | null => exact hh
  | full hblock hlive => exact hh.update rfl rfl rfl (fun _ _ => rfl) rfl (.cleared hblock hlive hxs)
  | cleared hblock hlive hblank => exact hh

end Holds

/-! ## Programs -/

/-- The program `m` turns the vectors `V` into `W a`, where `a` is what it returns, and
leaves all others as they are. -/
def Triple (V : Multiset (Vec × List β)) (m : StateM (Heap β) α)
    (W : α → Multiset (Vec × List β)) : Prop :=
  ∀ F h, Holds h (F + V) → Holds (m.run h).2 (F + W (m.run h).1)

variable {V : Multiset (Vec × List β)} {m : StateM (Heap β) α} {W : α → Multiset (Vec × List β)}

theorem triple_pure {a : α} (h : V = W a) : Triple V (pure a) W := fun _ _ hh => h ▸ hh

theorem Triple.bind {f : α → StateM (Heap β) γ} {U : γ → Multiset (Vec × List β)}
    (hm : Triple V m W) (hf : ∀ a, Triple (W a) (f a) U) : Triple V (m >>= f) U :=
  fun F h hh => hf _ F _ (hm F h hh)

/-- Vectors that a program is not told about. -/
theorem Triple.frame (hm : Triple V m W) (R : Multiset (Vec × List β)) :
    Triple (R + V) m (fun a => R + W a) := by
  intro F h hh
  rw [← add_assoc] at hh ⊢
  exact hm (F + R) h hh

/-- A vector without a block may be thrown in. -/
theorem Triple.of_null (hm : Triple (V + {(({} : Vec), [])}) m W) : Triple V m W := by
  intro F h hh
  refine hm F h ?_
  rw [← add_assoc]
  exact Holds.add_null_iff.2 hh

theorem triple_ofList (xs : List β) : Triple 0 (Vec.ofList xs) (fun v => {(v, xs)}) := by
  intro F h hh
  rw [add_zero] at hh
  exact hh.ofList xs

theorem triple_release (v : Vec) : Triple {(v, ([] : List β))} v.release (fun _ => 0) := by
  intro F h hh
  rw [add_zero]
  exact hh.release

theorem triple_zeroFill (v : Vec) (xs : List β) :
    Triple {(v, xs)} v.zeroFill (fun _ => {(v, List.replicate xs.length 0)}) :=
  fun _ _ hh => hh.zeroFill

theorem triple_store (v : Vec) (xs : List β) (i : ℕ) (x : β) :
    Triple {(v, xs)} (v.store i x) (fun _ => {(v, xs.set i x)}) :=
  fun _ _ hh => hh.store i x

theorem triple_clear (v : Vec) {xs : List β} (hxs : Blank xs) :
    Triple {(v, xs)} (pure v.clear) (fun v' => {(v', [])}) :=
  fun _ _ hh => hh.clear hxs

end Storage
