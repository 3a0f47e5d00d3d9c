import MicroProtocol.Lib.Faulty

/-!
# Vectors that grow

A vector keeps its items in one block of memory.  Once they do not fit any more, it asks for
a larger block, whose size is up to its library.

* `reserve`, `append`, `copy` — the operations, as parts of methods that may throw.
* `computes_reserve`, `computes_append`, `computes_copy` — what they ask for: a vector with the
  room for what is appended asks for nothing.
* `Appends`, `Appends.bind`, `Appends.foldlM` — programs that only append, and need no more
  room than their items do.
-/

/-- The items of a vector, and the number of items that its block has room for. -/
structure Growable (α : Type) where
  items : List α := []
  capacity : Nat := 0

namespace Growable

open Faulty

variable {ε σ α β : Type}

/-- The block for `n` items that are reserved or copied at once; nothing is no block. -/
def block (note : Nat → ε) (n : Nat) : List ε := if n = 0 then [] else [note n]

section Operations

variable (note : Nat → ε) (grow : Nat → Nat → Nat)

/-- Room for `n` items in all, in a new block if need be. -/
def reserve (n : Nat) (v : Growable α) : Faulty ε σ (Growable α) :=
  if n ≤ v.capacity then pure v
  else do
    allocate (note n)
    pure { v with capacity := n }

/-- More items at the end.  A block that is too small is replaced by one as large as `grow`
says, for the capacity it had and the size it needs. -/
def append (v : Growable α) (piece : List α) : Faulty ε σ (Growable α) :=
  let size := v.items.length + piece.length
  if size ≤ v.capacity then pure { v with items := v.items ++ piece }
  else do
    let capacity := max size (grow v.capacity size)
    allocate (note capacity)
    pure ⟨v.items ++ piece, capacity⟩

/-- A new vector with `size` items that are copied from `piece`. -/
def copy (piece : List α) (size : Nat) : Faulty ε σ (List α) := do
  let v ← reserve note size {}
  let v ← append note grow v piece
  pure v.items

variable {note grow}

theorem computes_reserve (n : Nat) :
    Computes (reserve note n {} : Faulty ε σ (Growable α)) ⟨[], n⟩ (block note n) := by
  unfold reserve block
  by_cases hn : n = 0
  · subst hn
    exact computes_pure
  · rw [if_neg (by simpa using hn), if_neg hn]
    exact computes_allocate.bind computes_pure rfl

theorem computes_append {v : Growable α} {piece : List α}
    (h : v.items.length + piece.length ≤ v.capacity) :
    Computes (append note grow v piece : Faulty ε σ (Growable α))
      { v with items := v.items ++ piece } [] := by
  unfold append
  rw [if_pos h]
  exact computes_pure

theorem computes_copy {piece : List α} {size : Nat} (h : piece.length = size) :
    Computes (copy note grow piece size : Faulty ε σ (List α)) piece (block note size) := by
  have hroom : ([] : List α).length + piece.length ≤ size := by simp [h]
  refine (computes_reserve size).bind ?_ (List.nil_append _)
  exact (computes_append hroom).bind computes_pure rfl

end Operations

/-- Given the room for `piece`, the program appends it and asks for nothing. -/
def Appends (m : Growable α → Faulty ε σ (Growable α)) (piece : List α) : Prop :=
  ∀ v : Growable α, v.items.length + piece.length ≤ v.capacity →
    Computes (m v) { v with items := v.items ++ piece } []

theorem appends_append (note : Nat → ε) (grow : Nat → Nat → Nat) (piece : List α) :
    Appends (fun v => (append note grow v piece : Faulty ε σ (Growable α))) piece :=
  fun _ h => computes_append h

theorem appends_pure : Appends (pure : Growable α → Faulty ε σ (Growable α)) [] := by
  intro v _
  simpa using computes_pure

theorem Appends.bind {m m' : Growable α → Faulty ε σ (Growable α)} {piece piece' : List α}
    (h : Appends m piece) (h' : Appends m' piece') :
    Appends (fun v => m v >>= m') (piece ++ piece') := by
  intro v hroom
  rw [List.length_append] at hroom
  have hfirst := h v (by omega)
  have hsecond := h' { v with items := v.items ++ piece } (by simp; omega)
  rw [List.append_assoc] at hsecond
  exact hfirst.bind hsecond rfl

/-- A loop that appends a piece for each of its elements. -/
theorem Appends.foldlM {f : Growable α → β → Faulty ε σ (Growable α)} {piece : β → List α}
    (h : ∀ b, Appends (fun v => f v b) (piece b)) (bs : List β) :
    Appends (fun v => bs.foldlM f v) (bs.flatMap piece) := by
  induction bs with
  | nil => exact appends_pure
  | cons b bs ih =>
      simp only [List.foldlM_cons, List.flatMap_cons]
      exact (h b).bind ih

end Growable
