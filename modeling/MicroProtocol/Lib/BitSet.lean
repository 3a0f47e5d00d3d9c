import Mathlib

/-!
# A machine word as a finite set

A word of `w` bits stands for the set of the indices of its ones.  The word operations that
set, clear and test one bit are then the set operations, as long as the bit is in the word.

* `members` — the set a word stands for.
* `members_or`, `members_and_not`, `and_twoPow_ne_zero_iff` — insertion, removal and
  membership.
* `eq_zero_iff`, `toNat_lt_of_subset` — the empty word, and a bound for the word from a
  bound for its members.
-/

namespace BitSet

variable {w : ℕ}

/-- The indices of the ones. -/
def members (m : BitVec w) : Finset ℕ := (Finset.range w).filter fun i => m.getLsbD i = true

@[simp] theorem mem_members {m : BitVec w} {i : ℕ} : i ∈ members m ↔ m.getLsbD i = true := by
  rw [members, Finset.mem_filter, Finset.mem_range]
  exact ⟨fun h => h.2, fun h => ⟨BitVec.lt_of_getLsbD h, h⟩⟩

@[simp] theorem members_zero : members (0#w) = ∅ := by
  ext i
  simp

/-- The word with a single one. -/
theorem members_twoPow {i : ℕ} (hi : i < w) : members (BitVec.twoPow w i) = {i} := by
  ext j
  rw [mem_members, BitVec.getLsbD_twoPow, Finset.mem_singleton]
  simp [hi, eq_comm]

/-- Setting a bit. -/
theorem members_or {i : ℕ} (hi : i < w) (m : BitVec w) :
    members (m ||| BitVec.twoPow w i) = insert i (members m) := by
  ext j
  rw [mem_members, BitVec.getLsbD_or, Bool.or_eq_true, ← mem_members, ← mem_members,
    members_twoPow hi]
  simp [or_comm]

/-- Clearing a bit. -/
theorem members_and_not {i : ℕ} (hi : i < w) (m : BitVec w) :
    members (m &&& ~~~BitVec.twoPow w i) = (members m).erase i := by
  ext j
  rw [mem_members, BitVec.getLsbD_and, BitVec.getLsbD_not, Finset.mem_erase, mem_members]
  constructor
  · intro h
    simp only [Bool.and_eq_true, Bool.not_eq_true'] at h
    refine ⟨?_, h.1⟩
    rintro rfl
    simp [hi] at h
  · rintro ⟨hne, hj⟩
    simp [hj, BitVec.lt_of_getLsbD hj, hne]

theorem eq_zero_iff {m : BitVec w} : m = 0#w ↔ members m = ∅ := by
  constructor
  · rintro rfl
    exact members_zero
  · intro h
    refine BitVec.eq_of_getLsbD_eq fun i _ => ?_
    have hi : i ∉ members m := by simp [h]
    simpa using hi

theorem twoPow_ne_zero {i : ℕ} (hi : i < w) : BitVec.twoPow w i ≠ 0#w := by
  rw [Ne, eq_zero_iff, members_twoPow hi]
  exact Finset.singleton_ne_empty i

/-- Testing a bit. -/
theorem and_twoPow_ne_zero_iff {i : ℕ} (hi : i < w) (m : BitVec w) :
    m &&& BitVec.twoPow w i ≠ 0#w ↔ i ∈ members m := by
  rw [BitVec.and_twoPow, mem_members]
  by_cases hbit : m.getLsbD i = true
  · simpa only [hbit, if_true, iff_true] using twoPow_ne_zero hi
  · simp [hbit]

theorem toNat_lt_of_subset {m : BitVec w} {n : ℕ} (h : members m ⊆ Finset.range n) :
    m.toNat < 2 ^ n := by
  refine Nat.lt_pow_two_of_testBit _ fun i hi => ?_
  rw [BitVec.testBit_toNat]
  by_contra hbit
  have hmem := Finset.mem_range.1 (h (mem_members.2 (by simpa using hbit)))
  omega

end BitSet
