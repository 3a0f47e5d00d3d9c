import MicroProtocol.Lib.Logged
import MicroProtocol.Protocol.Wire
import MicroProtocol.Security.SecureBuffer

/-!
# Authentication tags

The helpers of `security/protocol.hpp`, which put the tag of a provider into an extension
and take it out again, and `constant_time_equal`, which compares two tags.

The comparison is there twice: once as the value it computes, and once as the program with
everything that an observer of its timing can see, the branches it takes and the bytes it
loads.

* `constantTimeEqual_iff` — it is equality.
* `content_independent` — and what is observed depends on the two lengths only.
* `authenticationExtension_eq_ok_iff` — the helpers are inverse to each other, but only the
  one that makes extensions has a bound.
-/

namespace Vosp

namespace Protocol

/-- `protocol::ExtensionId`. -/
inductive ExtensionId where
  | contentType
  | compression
  | checksum
  | authentication
  | traceContext
  | applicationFirst
  deriving DecidableEq, Repr

/-- The identifier on the wire. -/
def ExtensionId.code : ExtensionId → UInt16
  | .contentType => 1
  | .compression => 2
  | .checksum => 3
  | .authentication => 4
  | .traceContext => 5
  | .applicationFirst => 1024

end Protocol

namespace Security

open Logged
open Custody (call)
open Protocol (Extension ExtensionId byteAt)

/-! ## Comparing -/

/-- `constant_time_equal`. -/
def constantTimeEqual (left right : List UInt8) : Bool :=
  if left.length ≠ right.length then false
  else
    let difference := (List.range left.length).foldl
      (fun difference index => difference ||| (byteAt left index ^^^ byteAt right index)) 0
    difference == 0

/-- The two spans of a comparison. -/
inductive Operand where
  | left
  | right
  deriving DecidableEq, Repr

/-- What can be seen of a program from outside. -/
inductive Observation where
  | branch (taken : Bool)
  | load (operand : Operand) (index : Nat)
  deriving DecidableEq, Repr

namespace Observed

/-- A condition that decides where the program goes on. -/
def branch (condition : Bool) : StateM (List Observation) Bool :=
  call fun _ => (condition, .branch condition)

/-- A load from memory: its address can be seen, not the byte. -/
def load (operand : Operand) (bytes : List UInt8) (index : Nat) :
    StateM (List Observation) UInt8 :=
  call fun _ => (byteAt bytes index, .load operand index)

/-- The loop of `constant_time_equal` over the indices that are left. -/
def differenceOver (left right : List UInt8) :
    List Nat → UInt8 → StateM (List Observation) UInt8
  | [], difference => do
      let _ ← branch false
      pure difference
  | index :: indices, difference => do
      let _ ← branch true
      let l ← load .left left index
      let r ← load .right right index
      differenceOver left right indices (difference ||| (l ^^^ r))

/-- `constant_time_equal`, and what is observed of it. -/
def constantTimeEqual (left right : List UInt8) : StateM (List Observation) Bool := do
  if ← branch (left.length ≠ right.length) then pure false
  else
    let difference ← differenceOver left right (List.range left.length) 0
    pure (difference == 0)

end Observed

/-- The observations of one iteration, the last one first. -/
def iteration (index : Nat) : List Observation :=
  [.load .right index, .load .left index, .branch true]

/-- What is observed of a comparison, in terms of the lengths. -/
def observations (left right : Nat) : List Observation :=
  if left ≠ right then [.branch true]
  else .branch false :: ((List.range left).reverse.flatMap iteration ++ [.branch false])

theorem branch_yields (condition : Bool) :
    Yields (Observed.branch condition) condition [.branch condition] := yields_call

theorem load_yields (operand : Operand) (bytes : List UInt8) (index : Nat) :
    Yields (Observed.load operand bytes index) (byteAt bytes index) [.load operand index] :=
  yields_call

theorem differenceOver_yields (left right : List UInt8) (indices : List Nat)
    (difference : UInt8) :
    Yields (Observed.differenceOver left right indices difference)
      (indices.foldl (fun difference index =>
        difference ||| (byteAt left index ^^^ byteAt right index)) difference)
      (.branch false :: indices.reverse.flatMap iteration) := by
  induction indices generalizing difference with
  | nil =>
      intro log
      rfl
  | cons index indices ih =>
      intro log
      rw [Observed.differenceOver, run_bind, branch_yields true log, run_bind,
        load_yields .left left index _, run_bind, load_yields .right right index _, ih _ _,
        List.reverse_cons, List.flatMap_append, List.flatMap_singleton]
      simp [iteration]

/-- The program computes `constantTimeEqual`, and shows the lengths. -/
theorem constantTimeEqual_yields (left right : List UInt8) :
    Yields (Observed.constantTimeEqual left right) (constantTimeEqual left right)
      (observations left.length right.length) := by
  intro log
  rw [Observed.constantTimeEqual, run_bind, branch_yields _ log]
  by_cases hlength : left.length ≠ right.length
  · rw [constantTimeEqual, observations, if_pos hlength, if_pos hlength,
      if_pos (decide_eq_true hlength), decide_eq_true hlength]
    rfl
  · rw [constantTimeEqual, observations, if_neg hlength, if_neg hlength,
      if_neg (by simpa using hlength), run_bind,
      differenceOver_yields left right (List.range left.length) 0 _, run_pure,
      decide_eq_false hlength]
    simp

theorem foldl_or_eq_zero_iff (f : Nat → UInt8) (indices : List Nat) (difference : UInt8) :
    indices.foldl (fun difference index => difference ||| f index) difference = 0 ↔
      difference = 0 ∧ ∀ index ∈ indices, f index = 0 := by
  induction indices generalizing difference with
  | nil => simp
  | cons index indices ih =>
      rw [List.foldl_cons, ih, UInt8.or_eq_zero_iff, List.forall_mem_cons, and_assoc]

/-- The comparison is equality. -/
theorem constantTimeEqual_iff (left right : List UInt8) :
    constantTimeEqual left right = true ↔ left = right := by
  unfold constantTimeEqual
  by_cases hlength : left.length = right.length
  · rw [if_neg (by simpa using hlength)]
    simp only [beq_iff_eq]
    rw [foldl_or_eq_zero_iff]
    constructor
    · rintro ⟨-, hbytes⟩
      refine List.ext_getElem hlength fun index hleft hright => ?_
      have hbyte := UInt8.xor_eq_zero_iff.1 (hbytes index (List.mem_range.2 hleft))
      rwa [byteAt, byteAt, List.getD_eq_getElem _ _ hleft, List.getD_eq_getElem _ _ hright] at hbyte
    · rintro rfl
      simp
  · rw [if_pos hlength]
    simp only [Bool.false_eq_true, false_iff]
    intro h
    exact hlength (congrArg List.length h)

/-- **`constant_time_equal` is equality, and its control flow does not depend on the
contents.**  The branches it takes and the addresses it loads from are a function of the
two lengths. -/
theorem content_independent (left right : List UInt8) :
    (constantTimeEqual left right = true ↔ left = right) ∧
      (Observed.constantTimeEqual left right).run [] =
        (constantTimeEqual left right, observations left.length right.length) := by
  refine ⟨constantTimeEqual_iff left right, ?_⟩
  have hrun := constantTimeEqual_yields left right []
  rwa [List.append_nil] at hrun

/-! ## Tags in extensions -/

/-- `default_maximum_authentication_tag_size`, also the default for the maximum of
`authentication_extension`. -/
def defaultMaximumAuthenticationTagSize : Nat := 4096

/-- `authentication_extension`. -/
def authenticationExtension (tag : List UInt8) (maximumSize : Nat) : Result Extension :=
  if tag = [] ∨ maximumSize = 0 ∨ maximumSize > defaultMaximumAuthenticationTagSize then
    .error ⟨.invalidArgument, "authentication tag limit is invalid"⟩
  else if tag.length > maximumSize then
    .error ⟨.limitExceeded, "authentication tag exceeds its limit"⟩
  else
    .ok ⟨ExtensionId.authentication.code, tag⟩

/-- `authentication_tag`. -/
def authenticationTag (extension : Extension) : Result (List UInt8) :=
  if extension.id ≠ ExtensionId.authentication.code ∨ extension.value = [] then
    .error ⟨.invalidExtension, "extension is not an authentication tag"⟩
  else
    .ok extension.value

theorem authenticationTag_eq_ok_iff {e : Extension} {tag : List UInt8} :
    authenticationTag e = .ok tag ↔ e = ⟨ExtensionId.authentication.code, tag⟩ ∧ tag ≠ [] := by
  obtain ⟨id, value⟩ := e
  unfold authenticationTag
  constructor
  · intro h
    split at h
    · cases h
    · rename_i hid
      cases h
      push Not at hid
      exact ⟨by rw [← hid.1], hid.2⟩
  · rintro ⟨h, hne⟩
    cases h
    rw [if_neg (by simpa using hne)]

theorem authenticationExtension_eq_ok_iff {tag : List UInt8} {maximumSize : Nat}
    {e : Extension} :
    authenticationExtension tag maximumSize = .ok e ↔
      authenticationTag e = .ok tag ∧ tag.length ≤ maximumSize ∧ maximumSize ≤ 4096 := by
  rw [authenticationTag_eq_ok_iff]
  unfold authenticationExtension defaultMaximumAuthenticationTagSize
  constructor
  · intro h
    split at h
    · cases h
    split at h
    · cases h
    · rename_i hlimit hsize
      cases h
      push Not at hlimit
      exact ⟨⟨rfl, hlimit.1⟩, by omega, hlimit.2.2⟩
  · rintro ⟨⟨rfl, hne⟩, hsize, hmax⟩
    have hpos := List.length_pos_iff.2 hne
    rw [if_neg, if_neg (by omega)]
    rintro (h | h | h)
    · exact hne h
    · omega
    · omega

end Security
end Vosp
