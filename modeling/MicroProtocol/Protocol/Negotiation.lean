import MicroProtocol.Protocol.Types

/-!
# Version negotiation

`negotiate_version` never looks for a common version.  It takes the greater of the two
lower ends and the lesser of the two upper ends and compares them.  This file shows that
this finds what it should.

* `VersionRange.valid`, `contains`, `negotiateVersion` — the functions of `types.hpp`.
* `common` — the set of versions that both peers support.
* `negotiateVersion_eq_some_iff` — the result is the greatest element of that set;
  `negotiateVersion_eq_none_iff` — there is none exactly if the set is empty.
* `negotiation_agrees` — the same in terms of `contains`, together with the agreement of
  the two peers.
-/

namespace Vosp
namespace Protocol

/-! ## Versions in their order -/

namespace Version

/-- The members in the order of their declaration, which is how a defaulted `operator<=>`
compares them. -/
def key (v : Version) : ℕ ×ₗ ℕ := toLex (v.major.toNat, v.minor.toNat)

theorem key_injective : Function.Injective key := by
  rintro ⟨major, minor⟩ ⟨major', minor'⟩ h
  have hpair : (major.toNat, minor.toNat) = (major'.toNat, minor'.toNat) := h
  simp only [Prod.mk.injEq, UInt16.toNat_inj] at hpair
  rw [hpair.1, hpair.2]

/-- `operator<=>`. -/
instance : LinearOrder Version := LinearOrder.lift' key key_injective

theorem le_iff {v w : Version} : v ≤ w ↔
    v.major.toNat < w.major.toNat ∨ v.major.toNat = w.major.toNat ∧ v.minor.toNat ≤ w.minor.toNat :=
  Prod.Lex.toLex_le_toLex

theorem major_le {v w : Version} (h : v ≤ w) : v.major.toNat ≤ w.major.toNat := by
  rcases le_iff.1 h with h | ⟨h, -⟩
  · exact h.le
  · exact h.le

/-- `compatible_with`. -/
def compatibleWith (v peer : Version) : Bool := v.major == peer.major

end Version

/-- `protocol::VersionRange`. -/
structure VersionRange where
  minimum : Version := {}
  maximum : Version := {}
  deriving DecidableEq, Repr

namespace VersionRange

/-- `valid`. -/
def valid (r : VersionRange) : Bool :=
  decide (r.minimum ≤ r.maximum) && r.minimum.major == r.maximum.major

/-- `contains`. -/
def contains (r : VersionRange) (version : Version) : Bool :=
  r.valid && decide (version ≥ r.minimum) && decide (version ≤ r.maximum)

theorem contains_iff {r : VersionRange} {v : Version} :
    r.contains v = true ↔ r.valid = true ∧ v ∈ Set.Icc r.minimum r.maximum := by
  simp [contains, and_assoc]

/-- A range covers one major version. -/
theorem major_of_contains {r : VersionRange} {v : Version} (h : r.contains v = true) :
    v.major = r.minimum.major := by
  obtain ⟨hvalid, hlow, hhigh⟩ := contains_iff.1 h
  simp only [valid, Bool.and_eq_true, decide_eq_true_eq, beq_iff_eq] at hvalid
  -- the major lies between two that are equal
  have hmin := Version.major_le hlow
  have hmax := Version.major_le hhigh
  rw [← hvalid.2] at hmax
  exact UInt16.toNat_inj.1 (le_antisymm hmax hmin)

end VersionRange

/-- `negotiate_version`. -/
def negotiateVersion (localRange remote : VersionRange) : Option Version :=
  if localRange.valid = false ∨ remote.valid = false then none
  else
    let lower := max localRange.minimum remote.minimum
    let upper := min localRange.maximum remote.maximum
    if lower > upper then none else some upper

/-! ## The greatest common version -/

/-- The versions that both peers support. -/
def common (a b : VersionRange) : Set Version :=
  {v | a.contains v = true ∧ b.contains v = true}

theorem common_eq_empty_of_invalid {a b : VersionRange} (h : a.valid = false ∨ b.valid = false) :
    common a b = ∅ := by
  refine Set.eq_empty_of_forall_notMem fun v hv => ?_
  have ha := (VersionRange.contains_iff.1 hv.1).1
  have hb := (VersionRange.contains_iff.1 hv.2).1
  simp [ha, hb] at h

/-- What two valid ranges have in common is a range again. -/
theorem common_eq_Icc {a b : VersionRange} (ha : a.valid = true) (hb : b.valid = true) :
    common a b = Set.Icc (max a.minimum b.minimum) (min a.maximum b.maximum) := by
  rw [← Set.Icc_inter_Icc]
  ext v
  simp only [common, VersionRange.contains_iff, ha, hb, true_and, Set.mem_ofPred_eq, Set.mem_inter_iff]

/-- The result as the three cases of the source have it. -/
theorem negotiateVersion_cases (a b : VersionRange) :
    (negotiateVersion a b = none ∧ common a b = ∅) ∨
    ∃ v, negotiateVersion a b = some v ∧ IsGreatest (common a b) v := by
  unfold negotiateVersion
  by_cases hinvalid : a.valid = false ∨ b.valid = false
  · rw [if_pos hinvalid]
    exact .inl ⟨rfl, common_eq_empty_of_invalid hinvalid⟩
  rw [if_neg hinvalid]
  simp only [not_or, Bool.not_eq_false] at hinvalid
  rw [common_eq_Icc hinvalid.1 hinvalid.2]
  dsimp only
  by_cases hcross : max a.minimum b.minimum > min a.maximum b.maximum
  · rw [if_pos hcross]
    exact .inl ⟨rfl, Set.Icc_eq_empty (not_le.2 hcross)⟩
  · rw [if_neg hcross]
    exact .inr ⟨_, rfl, isGreatest_Icc (not_lt.1 hcross)⟩

/-- **The result is the greatest common version.** -/
theorem negotiateVersion_eq_some_iff {a b : VersionRange} {v : Version} :
    negotiateVersion a b = some v ↔ IsGreatest (common a b) v := by
  rcases negotiateVersion_cases a b with ⟨hnone, hempty⟩ | ⟨u, hsome, hgreatest⟩
  · rw [hnone, hempty]
    simp [IsGreatest]
  · rw [hsome, Option.some.injEq]
    constructor
    · rintro rfl
      exact hgreatest
    · exact hgreatest.unique

theorem negotiateVersion_eq_none_iff {a b : VersionRange} :
    negotiateVersion a b = none ↔ common a b = ∅ := by
  rcases negotiateVersion_cases a b with ⟨hnone, hempty⟩ | ⟨u, hsome, hgreatest⟩
  · exact iff_of_true hnone hempty
  · refine iff_of_false (by simp [hsome]) ?_
    exact Set.Nonempty.ne_empty ⟨u, hgreatest.1⟩

theorem common_comm (a b : VersionRange) : common a b = common b a := by
  ext v
  exact and_comm

theorem negotiateVersion_comm (a b : VersionRange) :
    negotiateVersion a b = negotiateVersion b a := by
  refine Option.ext fun v => ?_
  rw [negotiateVersion_eq_some_iff, negotiateVersion_eq_some_iff, common_comm]

/-- The result is of the major that both ranges cover. -/
theorem compatibleWith_of_common {a b : VersionRange} {v w : Version} (hv : v ∈ common a b)
    (hw : a.contains w = true ∨ b.contains w = true) : v.compatibleWith w = true := by
  rw [Version.compatibleWith, beq_iff_eq]
  rcases hw with hw | hw
  · rw [VersionRange.major_of_contains hv.1, VersionRange.major_of_contains hw]
  · rw [VersionRange.major_of_contains hv.2, VersionRange.major_of_contains hw]

/-- **Negotiation.**  For any two ranges, valid or not, `negotiate_version` returns the
greatest version that both contain, and nothing exactly if they have none in common.  Both
peers get the same answer, and it is compatible with every version either of them
supports. -/
theorem negotiation_agrees (a b : VersionRange) :
    (∀ v, negotiateVersion a b = some v ↔
      a.contains v = true ∧ b.contains v = true ∧
        ∀ w, a.contains w = true → b.contains w = true → w ≤ v) ∧
    (negotiateVersion a b = none ↔ ¬ ∃ v, a.contains v = true ∧ b.contains v = true) ∧
    negotiateVersion a b = negotiateVersion b a ∧
    ∀ v, negotiateVersion a b = some v →
      ∀ w, a.contains w = true ∨ b.contains w = true → v.compatibleWith w = true := by
  refine ⟨fun v => ?_, ?_, negotiateVersion_comm a b, fun v hv w hw => ?_⟩
  · rw [negotiateVersion_eq_some_iff]
    constructor
    · rintro ⟨⟨ha, hb⟩, hupper⟩
      exact ⟨ha, hb, fun w hwa hwb => hupper ⟨hwa, hwb⟩⟩
    · rintro ⟨ha, hb, hupper⟩
      exact ⟨⟨ha, hb⟩, fun w hw => hupper w hw.1 hw.2⟩
  · rw [negotiateVersion_eq_none_iff, Set.eq_empty_iff_forall_notMem, not_exists]
    rfl
  · exact compatibleWith_of_common (negotiateVersion_eq_some_iff.1 hv).1 hw

-- the ranges of `test_versioning`
example : negotiateVersion ⟨⟨1, 0⟩, ⟨1, 5⟩⟩ ⟨⟨1, 2⟩, ⟨1, 3⟩⟩ = some ⟨1, 3⟩ := by decide

example : negotiateVersion ⟨⟨1, 0⟩, ⟨1, 5⟩⟩ ⟨⟨2, 0⟩, ⟨2, 1⟩⟩ = none := by decide

end Protocol
end Vosp
