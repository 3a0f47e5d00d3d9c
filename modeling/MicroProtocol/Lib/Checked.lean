import Mathlib

/-!
# Checked execution

Unsigned arithmetic that wraps, a cast that drops bits and an index outside of
its sequence all go unnoticed by the program that makes them.  Run in `Option`
they do not: an operation without an exact result is `none`, and so is the whole
run it occurs in.  A program is then free of them on an input when its checked
run there is `some` of what the program computes.

* `sub`, `add`, `narrow`, `signed` — arithmetic and casts; `index`, `range` — access to a
  sequence.
* `either`, `both` — the operators `||` and `&&`, whose second operand is only
  run when the first does not decide.
* `bind_eq`, `ite_eq`, `guard_eq`, `guard_decide_eq` — a checked run is compared with
  the program step by step: one rule for an operation, and one for each way to branch.
-/

namespace Checked

variable {α β : Type}

/-- An unsigned difference. -/
def sub (a b : Nat) : Option Nat := if b ≤ a then some (a - b) else none

/-- A sum of a type whose greatest value is `bound`. -/
def add (bound a b : Nat) : Option Nat := if a + b ≤ bound then some (a + b) else none

/-- A cast to a type whose greatest value is `bound`. -/
def narrow (bound v : Nat) : Option Nat := if v ≤ bound then some v else none

/-- A value of a signed type of `bits + 1` bits. -/
def signed (bits : Nat) (v : Int) : Option Int :=
  if -2 ^ bits ≤ v ∧ v < 2 ^ bits then some v else none

/-- The element at an index. -/
def index (xs : List α) (i : Nat) : Option α := xs[i]?

/-- The `n` elements from index `i` on. -/
def range (xs : List α) (i n : Nat) : Option (List α) :=
  if i + n ≤ xs.length then some ((xs.drop i).take n) else none

/-- `c || rest`. -/
def either (c : Prop) [Decidable c] (rest : Option Bool) : Option Bool :=
  if c then some true else rest

/-- `c && rest`. -/
def both (c : Prop) [Decidable c] (rest : Option Bool) : Option Bool :=
  if c then rest else some false

theorem sub_eq {a b : Nat} (h : b ≤ a) : sub a b = some (a - b) := if_pos h

theorem add_eq {bound a b : Nat} (h : a + b ≤ bound) : add bound a b = some (a + b) := if_pos h

theorem narrow_eq {bound v : Nat} (h : v ≤ bound) : narrow bound v = some v := if_pos h

theorem signed_eq {bits : Nat} {v : Int} (hlower : -2 ^ bits ≤ v) (hupper : v < 2 ^ bits) :
    signed bits v = some v := if_pos ⟨hlower, hupper⟩

theorem signed_eq_none {bits : Nat} {v : Int} (h : 2 ^ bits ≤ v) : signed bits v = none :=
  if_neg fun hv => absurd hv.2 (not_lt.2 h)

theorem index_eq {xs : List α} {i : Nat} (h : i < xs.length) (fallback : α) :
    index xs i = some (xs.getD i fallback) := by
  rw [index, List.getD_eq_getElem?_getD, List.getElem?_eq_getElem h, Option.getD_some]

theorem range_eq {xs : List α} {i n : Nat} (h : i + n ≤ xs.length) :
    range xs i n = some ((xs.drop i).take n) := if_pos h

/-- The second operand of `||` has to be free of faults only where it is run. -/
theorem either_eq {c d : Prop} [Decidable c] [Decidable d] {rest : Option Bool}
    (h : ¬c → rest = some (decide d)) : either c rest = some (decide (c ∨ d)) := by
  by_cases hc : c
  · simp [either, hc]
  · simp [either, hc, h hc]

/-- The second operand of `&&` has to be free of faults only where it is run. -/
theorem both_eq {c : Prop} [Decidable c] {rest : Option Bool} {b : Bool}
    (h : c → rest = some b) : both c rest = some (decide c && b) := by
  by_cases hc : c
  · simp [both, hc, h hc]
  · simp [both, hc]

/-! ## Comparing a run with its program -/

/-- An operation that is free of faults, and the run after it. -/
theorem bind_eq {m : Option β} {v : β} {f : β → Option α} {r : Option α} (hm : m = some v)
    (hf : f v = r) : (m >>= f) = r := by
  rw [hm]
  exact hf

/-- Both branches have to be free of faults only where they are taken. -/
theorem ite_eq {c : Prop} [Decidable c] {x y : Option α} {a b : α} (hx : c → x = some a)
    (hy : ¬c → y = some b) : (if c then x else y) = some (if c then a else b) := by
  by_cases hc : c
  · rw [if_pos hc, if_pos hc]
    exact hx hc
  · rw [if_neg hc, if_neg hc]
    exact hy hc

/-- A branch that ends the run. -/
theorem guard_eq {c : Prop} [Decidable c] {y : Option α} {a b : α} (hy : ¬c → y = some b) :
    (if c then some a else y) = some (if c then a else b) := ite_eq (fun _ => rfl) hy

/-- A branch that ends the run, on a condition that was run itself. -/
theorem guard_decide_eq {c : Prop} [Decidable c] {y : Option α} {a b : α}
    (hy : ¬c → y = some b) :
    (if decide c = true then some a else y) = some (if c then a else b) := by
  simp only [decide_eq_true_eq]
  exact guard_eq hy

end Checked
