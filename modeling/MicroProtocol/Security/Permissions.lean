import MicroProtocol.Lib.BitSet
import MicroProtocol.Lib.Machine

/-!
# `PermissionSet` is a finite set

A `PermissionSet` keeps one bit for each permission in a 64-bit word.  Its methods take any
value of the enumeration, named or not, so the conversion of a value to a bit is where
everything could go wrong: a negative value, one that is too large, or two values that share
a bit.  `bitFor_eq` settles that once, for every underlying type.

* `PermissionType` — the template arguments, with the requirements on them.
* `PermissionSet` and its methods — `permissions.hpp`.
* `setMachine` — what the class is for: a finite set of indices in which only values in
  range can be put.  `refines` connects the two.
* `permissions_finite_set` — every history of calls, by the last call that concerns a
  permission.
-/

namespace Vosp
namespace Security

/-- The template arguments of `PermissionSet`: the signedness and the width of the underlying
type of the enumeration, and `Count`. -/
structure PermissionType where
  signed : Bool
  width : ℕ
  count : ℕ
  width_ge : 8 ≤ width
  width_le : width ≤ 64
  count_pos : 0 < count
  count_le : count ≤ 64

namespace PermissionType

variable {T : PermissionType}

/-- A value of the enumeration, by its bits.  All values of the underlying type are among
them, whether they have a name or not. -/
abbrev Permission (T : PermissionType) := BitVec T.width

/-- The number a value stands for. -/
def value (permission : T.Permission) : ℤ :=
  if T.signed then permission.toInt else permission.toNat

/-- The values the set is for. -/
def InRange (permission : T.Permission) : Prop :=
  0 ≤ value permission ∧ value permission < T.count

instance (permission : T.Permission) : Decidable (InRange permission) :=
  inferInstanceAs (Decidable (_ ∧ _))

/-- `bit_for`. -/
def bitFor (permission : T.Permission) : BitVec 64 :=
  if T.signed = true ∧ value permission < 0 then 0
  else
    -- the conversion to the unsigned type keeps the bits, the one to 64 bits adds zeros
    let index := permission.setWidth 64
    if index.toNat < T.count then 1#64 <<< index else 0

/-! ## Values and bits -/

theorem toNat_lt (p : T.Permission) : p.toNat < 2 ^ 64 :=
  p.isLt.trans_le (Nat.pow_le_pow_right (by decide) T.width_le)

/-- Only signed types have negative values. -/
theorem nonneg_iff {p : T.Permission} : 0 ≤ value p ↔ ¬ (T.signed = true ∧ value p < 0) := by
  cases hsigned : T.signed with
  | true => simp
  | false => simp [value, hsigned]

/-- A value that is not negative is the number its bits spell. -/
theorem value_eq_toNat {p : T.Permission} (h : 0 ≤ value p) : value p = p.toNat := by
  have hlt := p.isLt
  unfold value at h ⊢
  split_ifs at h ⊢
  · rw [BitVec.toInt_eq_toNat_cond] at h ⊢
    split_ifs at h ⊢
    · rfl
    · omega
  · rfl

theorem inRange_iff {p : T.Permission} : InRange p ↔ 0 ≤ value p ∧ p.toNat < T.count := by
  refine and_congr_right fun h => ?_
  rw [value_eq_toNat h, Nat.cast_lt]

/-- **One bit for each value in range, and none for any other.** -/
theorem bitFor_eq (p : T.Permission) :
    bitFor p = if InRange p then BitVec.twoPow 64 p.toNat else 0#64 := by
  have hindex : (p.setWidth 64).toNat = p.toNat := by
    rw [BitVec.toNat_setWidth, Nat.mod_eq_of_lt (toNat_lt p)]
  unfold bitFor
  by_cases hnegative : T.signed = true ∧ value p < 0
  · have hout : ¬ InRange p := fun h => nonneg_iff.1 h.1 hnegative
    rw [if_pos hnegative, if_neg hout]
    rfl
  · rw [if_neg hnegative]
    simp only [inRange_iff, nonneg_iff.2 hnegative, true_and, hindex, BitVec.shiftLeft_eq']
    rfl

theorem lt_of_inRange {p : T.Permission} (h : InRange p) : p.toNat < 64 :=
  (inRange_iff.1 h).2.trans_le T.count_le

theorem bitFor_eq_zero_iff {p : T.Permission} : bitFor p = 0 ↔ ¬ InRange p := by
  rw [bitFor_eq]
  by_cases h : InRange p
  · rw [if_pos h]
    exact iff_of_false (BitSet.twoPow_ne_zero (lt_of_inRange h)) (not_not.2 h)
  · simp [h]

/-- The test `grant` and `revoke` begin with, as a test of the value. -/
theorem ite_bitFor {α : Type*} (p : T.Permission) (refused : α) (accepted : BitVec 64 → α) :
    (if bitFor p = 0 then refused else accepted (bitFor p))
      = if InRange p then accepted (BitVec.twoPow 64 p.toNat) else refused := by
  by_cases h : InRange p
  · rw [if_neg fun hzero => bitFor_eq_zero_iff.1 hzero h, if_pos h, bitFor_eq, if_pos h]
  · rw [if_pos (bitFor_eq_zero_iff.2 h), if_neg h]

/-- Every index below `Count` is the bit of some value, even of the narrowest type. -/
theorem exists_inRange {i : ℕ} (hi : i < T.count) :
    ∃ p : T.Permission, InRange p ∧ p.toNat = i := by
  have hwidth : 2 ^ 7 ≤ 2 ^ (T.width - 1) := by
    refine Nat.pow_le_pow_right (by decide) ?_
    have := T.width_ge
    omega
  have hhalf : 2 ^ T.width = 2 * 2 ^ (T.width - 1) := by
    rw [← Nat.pow_succ']
    congr 1
    have := T.width_ge
    omega
  have hcount := T.count_le
  have htoNat : (BitVec.ofNat T.width i).toNat = i := by
    rw [BitVec.toNat_ofNat, Nat.mod_eq_of_lt (by omega)]
  refine ⟨BitVec.ofNat T.width i, ?_, htoNat⟩
  rw [inRange_iff, htoNat]
  refine ⟨?_, hi⟩
  unfold value
  split_ifs
  · rw [BitVec.toInt_eq_toNat_cond, htoNat, if_pos (by omega)]
    exact Int.natCast_nonneg i
  · exact Int.natCast_nonneg _

end PermissionType

open PermissionType

/-- `security::PermissionSet`. -/
structure PermissionSet (T : PermissionType) where
  mask : BitVec 64 := 0

namespace PermissionSet

variable {T : PermissionType}

/-- `grant`. -/
def grant (permission : T.Permission) (s : PermissionSet T) : Bool × PermissionSet T :=
  let bit := bitFor permission
  if bit = 0 then (false, s) else (true, { s with mask := s.mask ||| bit })

/-- `revoke`. -/
def revoke (permission : T.Permission) (s : PermissionSet T) : Bool × PermissionSet T :=
  let bit := bitFor permission
  if bit = 0 then (false, s) else (true, { s with mask := s.mask &&& ~~~bit })

/-- `allows`. -/
def allows (permission : T.Permission) (s : PermissionSet T) : Bool :=
  let bit := bitFor permission
  bit != 0 && (s.mask &&& bit) != 0

/-- `empty`. -/
def empty (s : PermissionSet T) : Bool := s.mask == 0

/-- `clear`. -/
def clear (s : PermissionSet T) : PermissionSet T := { s with mask := 0 }

/-- A call that changes the set. -/
inductive Op (T : PermissionType) where
  | grant (permission : T.Permission)
  | revoke (permission : T.Permission)
  | clear
  deriving DecidableEq

/-- The set as a machine; `clear` returns nothing. -/
def machine (T : PermissionType) : Machine (PermissionSet T) (Op T) (Option Bool) where
  init := {}
  step s op :=
    match op with
    | .grant p => ((s.grant p).1, (s.grant p).2)
    | .revoke p => ((s.revoke p).1, (s.revoke p).2)
    | .clear => (none, s.clear)

/-- The finite set that the class stands for. -/
def setMachine (T : PermissionType) : Machine (Finset ℕ) (Op T) (Option Bool) where
  init := ∅
  step S op :=
    match op with
    | .grant p => if InRange p then (true, insert p.toNat S) else (false, S)
    | .revoke p => if InRange p then (true, S.erase p.toNat) else (false, S)
    | .clear => (none, ∅)

/-! ## One call -/

theorem grant_eq (p : T.Permission) (s : PermissionSet T) :
    s.grant p = if InRange p then (true, ⟨s.mask ||| BitVec.twoPow 64 p.toNat⟩) else (false, s) :=
  ite_bitFor p (false, s) fun bit => (true, ⟨s.mask ||| bit⟩)

theorem revoke_eq (p : T.Permission) (s : PermissionSet T) :
    s.revoke p
      = if InRange p then (true, ⟨s.mask &&& ~~~BitVec.twoPow 64 p.toNat⟩) else (false, s) :=
  ite_bitFor p (false, s) fun bit => (true, ⟨s.mask &&& ~~~bit⟩)

theorem grant_fst_iff (p : T.Permission) (s : PermissionSet T) :
    (s.grant p).1 = true ↔ InRange p := by
  rw [grant_eq]
  split_ifs with h
  · simp [h]
  · simp [h]

theorem revoke_fst_iff (p : T.Permission) (s : PermissionSet T) :
    (s.revoke p).1 = true ↔ InRange p := by
  rw [revoke_eq]
  split_ifs with h
  · simp [h]
  · simp [h]

theorem allows_iff {p : T.Permission} {s : PermissionSet T} :
    s.allows p = true ↔ InRange p ∧ p.toNat ∈ BitSet.members s.mask := by
  have hsplit : s.allows p = true ↔ bitFor p ≠ 0 ∧ s.mask &&& bitFor p ≠ 0 := by simp [allows]
  rw [hsplit, Ne, bitFor_eq_zero_iff, not_not]
  refine and_congr_right fun h => ?_
  rw [bitFor_eq, if_pos h]
  exact BitSet.and_twoPow_ne_zero_iff (lt_of_inRange h) s.mask

/-- No bit is set that stands for no permission. -/
def Bounded (s : PermissionSet T) : Prop := BitSet.members s.mask ⊆ Finset.range T.count

/-- **The word refines the finite set.** -/
theorem refines (T : PermissionType) :
    Machine.Refines (machine T) (setMachine T) Bounded (fun s => BitSet.members s.mask) where
  init_inv := by simp [machine, Bounded]
  init_abs := BitSet.members_zero
  step_inv := by
    intro s op hs
    cases op with
    | grant p =>
        simp only [machine, grant_eq]
        split_ifs with h
        · rw [Bounded, BitSet.members_or (lt_of_inRange h), Finset.insert_subset_iff]
          exact ⟨Finset.mem_range.2 (inRange_iff.1 h).2, hs⟩
        · exact hs
    | revoke p =>
        simp only [machine, revoke_eq]
        split_ifs with h
        · rw [Bounded, BitSet.members_and_not (lt_of_inRange h)]
          exact (Finset.erase_subset _ _).trans hs
        · exact hs
    | clear => simp [machine, clear, Bounded]
  step_out := by
    intro s op _
    cases op with
    | grant p =>
        simp only [machine, setMachine, grant_eq]
        split_ifs
        · rfl
        · rfl
    | revoke p =>
        simp only [machine, setMachine, revoke_eq]
        split_ifs
        · rfl
        · rfl
    | clear => rfl
  step_abs := by
    intro s op _
    cases op with
    | grant p =>
        simp only [machine, setMachine, grant_eq]
        split_ifs with h
        · exact BitSet.members_or (lt_of_inRange h) s.mask
        · rfl
    | revoke p =>
        simp only [machine, setMachine, revoke_eq]
        split_ifs with h
        · exact BitSet.members_and_not (lt_of_inRange h) s.mask
        · rfl
    | clear => exact BitSet.members_zero

/-! ## Histories -/

/-- The calls that decide whether the permission is allowed. -/
def Op.concerns (p : T.Permission) : Op T → Bool
  | .grant q => q == p
  | .revoke q => q == p
  | .clear => true

/-- The last of them in a history. -/
def lastConcerning (p : T.Permission) (ops : List (Op T)) : Option (Op T) :=
  ops.reverse.find? (Op.concerns p)

theorem lastConcerning_concat (p : T.Permission) (ops : List (Op T)) (op : Op T) :
    lastConcerning p (ops ++ [op]) = if op.concerns p then some op else lastConcerning p ops := by
  rw [lastConcerning, List.reverse_append, List.reverse_singleton, List.singleton_append,
    List.find?_cons]
  cases op.concerns p with
  | true => rfl
  | false => rfl

/-- Two values in range do not share an index. -/
theorem eq_of_toNat_eq {p q : T.Permission} (h : p.toNat = q.toNat) : p = q := BitVec.toNat_inj.1 h

/-- A call that does not concern a permission leaves it as it is. -/
theorem mem_step_of_not_concerns {p : T.Permission} {op : Op T} (h : op.concerns p = false)
    (S : Finset ℕ) : p.toNat ∈ ((setMachine T).step S op).2 ↔ p.toNat ∈ S := by
  have hne : ∀ {q : T.Permission}, (q == p) = false → p.toNat ≠ q.toNat := by
    intro q hq heq
    simp [eq_of_toNat_eq heq] at hq
  cases op with
  | grant q =>
      simp only [setMachine]
      split_ifs
      · simp [hne h]
      · rfl
  | revoke q =>
      simp only [setMachine]
      split_ifs
      · simp [hne h]
      · rfl
  | clear => cases h

/-- A call that concerns a permission in range decides about it, whatever was there before. -/
theorem mem_step_of_concerns {p : T.Permission} (hp : InRange p) {op : Op T}
    (h : op.concerns p = true) (S : Finset ℕ) :
    p.toNat ∈ ((setMachine T).step S op).2 ↔ op = .grant p := by
  cases op with
  | grant q =>
      obtain rfl : q = p := beq_iff_eq.1 h
      simp [setMachine, hp]
  | revoke q =>
      obtain rfl : q = p := beq_iff_eq.1 h
      simp [setMachine, hp]
  | clear => simp [setMachine]

/-- In the finite set, a permission in range is there exactly if it was put there last. -/
theorem mem_setMachine_iff {p : T.Permission} (hp : InRange p) (ops : List (Op T)) :
    p.toNat ∈ (setMachine T).exec ∅ ops ↔ lastConcerning p ops = some (.grant p) := by
  -- induction on the history, from its end
  induction ops using List.reverseRecOn with
  | nil => simp [lastConcerning]
  | append_singleton ops op ih =>
      rw [Machine.exec_append, Machine.exec_cons, Machine.exec_nil, lastConcerning_concat]
      cases hop : op.concerns p with
      | true => simp [mem_step_of_concerns hp hop]
      | false => simpa [mem_step_of_not_concerns hop] using ih

/-- A call for one permission says nothing about another. -/
theorem Bounded.allows_step {s : PermissionSet T} (hs : s.Bounded) {q : T.Permission} {op : Op T}
    (h : op.concerns q = false) : ((machine T).step s op).2.allows q = s.allows q := by
  have hset := (refines T).step_abs s op hs
  rw [Bool.eq_iff_iff, allows_iff, allows_iff, hset, mem_step_of_not_concerns h]

theorem Bounded.empty_iff {s : PermissionSet T} (hs : s.Bounded) :
    s.empty = true ↔ ∀ p : T.Permission, s.allows p = false := by
  rw [PermissionSet.empty, beq_iff_eq]
  constructor
  · intro hzero p
    rw [Bool.eq_false_iff, Ne, allows_iff, BitSet.eq_zero_iff.1 hzero]
    simp
  · intro hnone
    refine BitSet.eq_zero_iff.2 (Finset.eq_empty_of_forall_notMem fun i hi => ?_)
    -- a bit that is set is the bit of a permission
    obtain ⟨p, hp, rfl⟩ := exists_inRange (Finset.mem_range.1 (hs hi))
    have hallowed : s.allows p = true := allows_iff.2 ⟨hp, hi⟩
    rw [hnone p] at hallowed
    cases hallowed

/-- **A finite set.**  Take any enumeration, any `Count` and any history of `grant`, `revoke`
and `clear` with any values.  A permission is allowed exactly if it is in range and the last
call that concerns it is its `grant`.  `grant` and `revoke` return whether their argument is
in range, and if it is not they change nothing; neither has an effect on other permissions.
The mask is below `2 ^ Count`, and the set is empty exactly if nothing is allowed. -/
theorem permissions_finite_set (T : PermissionType) (ops : List (Op T)) :
    let s := (machine T).exec {} ops
    (∀ p : T.Permission, s.allows p = true ↔
      (0 ≤ value p ∧ value p < T.count) ∧ lastConcerning p ops = some (.grant p)) ∧
    (∀ p : T.Permission,
      ((s.grant p).1 = true ↔ 0 ≤ value p ∧ value p < T.count) ∧
      ((s.revoke p).1 = true ↔ 0 ≤ value p ∧ value p < T.count) ∧
      (¬ (0 ≤ value p ∧ value p < T.count) → (s.grant p).2 = s ∧ (s.revoke p).2 = s)) ∧
    (∀ p q : T.Permission, q ≠ p →
      (s.grant p).2.allows q = s.allows q ∧ (s.revoke p).2.allows q = s.allows q) ∧
    s.mask.toNat < 2 ^ T.count ∧
    (s.empty = true ↔ ∀ p : T.Permission, s.allows p = false) := by
  intro s
  have hbounded : s.Bounded := (refines T).inv_of_reachable ((machine T).reachable_exec ops)
  have hset : BitSet.members s.mask = (setMachine T).exec ∅ ops := (refines T).exec_eq ops
  refine ⟨fun p => ?_, fun p => ⟨?_, ?_, fun hout => ?_⟩, fun p q hne => ?_, ?_, hbounded.empty_iff⟩
  · rw [allows_iff, hset]
    exact and_congr_right fun hp => mem_setMachine_iff hp ops
  · exact grant_fst_iff p s
  · exact revoke_fst_iff p s
  · have hp : ¬ InRange p := hout
    rw [grant_eq, revoke_eq, if_neg hp, if_neg hp]
    exact ⟨rfl, rfl⟩
  · have hother : (p == q) = false := beq_eq_false_iff_ne.2 hne.symm
    have hgrant := hbounded.allows_step (show (Op.grant p).concerns q = false from hother)
    have hrevoke := hbounded.allows_step (show (Op.revoke p).concerns q = false from hother)
    exact ⟨hgrant, hrevoke⟩
  · exact BitSet.toNat_lt_of_subset hbounded

/-- A signed type of eight bits, where `255` stands for `-1`. -/
theorem permissions_finite_set_signed :
    let T : PermissionType := ⟨true, 8, 3, by decide, by decide, by decide, by decide⟩
    let s := (machine T).exec {} [.grant 2#8, .revoke 2#8, .grant 0#8, .grant 255#8]
    s.allows (0#8 : T.Permission) = true ∧ s.allows (2#8 : T.Permission) = false ∧
      (s.grant (255#8 : T.Permission)).2 = s := by
  intro T s
  obtain ⟨hallows, hanswers, -⟩ :=
    permissions_finite_set T [.grant 2#8, .revoke 2#8, .grant 0#8, .grant 255#8]
  refine ⟨(hallows 0#8).2 (by decide), ?_, ((hanswers 255#8).2.2 (by decide)).1⟩
  exact Bool.eq_false_iff.2 fun h => absurd ((hallows 2#8).1 h) (by decide)

end PermissionSet

end Security
end Vosp
