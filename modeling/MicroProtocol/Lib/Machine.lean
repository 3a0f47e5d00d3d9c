import Mathlib

/-!
# Machines that answer: runs, invariants, refinement

An object with methods is a machine: a state, and for each call an answer and a
next state.  A history of calls is a list, so a statement about *every history*
is a statement about every list, and its proof is always the same induction.
That induction is done here, once.

* `exec`, `outs` — the state after a history and the answers along it.
* `Reachable` and `Reachable.induction` — what holds at the start and is kept by
  every call holds in every reachable state.
* `Along`, `cost` — what is asked of every call of a history, and what the calls cost
  together; `cost_le` is the method of potentials.
* `Refines` — a concrete machine refines an abstract one through an abstraction
  function, under an invariant; `Refines.outs_eq` and `Refines.exec_eq` say that
  no history of calls can tell the two apart.
-/

/-- A machine with states `σ`, calls `ι` and answers `ο`. -/
structure Machine (σ ι ο : Type) where
  init : σ
  step : σ → ι → ο × σ

namespace Machine

variable {σ τ ι ο : Type}

section Runs

variable (M : Machine σ ι ο)

/-- The state after a history of calls. -/
def exec (s : σ) : List ι → σ
  | [] => s
  | i :: is => exec (M.step s i).2 is

/-- The answers along a history of calls. -/
def outs (s : σ) : List ι → List ο
  | [] => []
  | i :: is => (M.step s i).1 :: outs (M.step s i).2 is

@[simp] theorem exec_nil (s : σ) : M.exec s [] = s := rfl

@[simp] theorem exec_cons (s : σ) (i : ι) (is : List ι) :
    M.exec s (i :: is) = M.exec (M.step s i).2 is := rfl

theorem exec_append (s : σ) (is js : List ι) :
    M.exec s (is ++ js) = M.exec (M.exec s is) js := by
  induction is generalizing s with
  | nil => rfl
  | cons i is ih => exact ih _

@[simp] theorem outs_nil (s : σ) : M.outs s [] = [] := rfl

@[simp] theorem outs_cons (s : σ) (i : ι) (is : List ι) :
    M.outs s (i :: is) = (M.step s i).1 :: M.outs (M.step s i).2 is := rfl

/-- What every call keeps, every history keeps. -/
theorem exec_induction {P : σ → Prop} (hstep : ∀ s i, P s → P (M.step s i).2) {s : σ} (hs : P s)
    (is : List ι) : P (M.exec s is) := by
  induction is generalizing s with
  | nil => exact hs
  | cons i is ih => exact ih (hstep s i hs)

/-- A state some history of calls leads to. -/
def Reachable (s : σ) : Prop := ∃ is, M.exec M.init is = s

theorem reachable_exec (is : List ι) : M.Reachable (M.exec M.init is) := ⟨is, rfl⟩

variable {M}

/-- What holds at the start and is kept by every call holds in every reachable
state. -/
theorem Reachable.induction {P : σ → Prop} (hinit : P M.init)
    (hstep : ∀ s i, P s → P (M.step s i).2) {s : σ} (hs : M.Reachable s) : P s := by
  obtain ⟨is, rfl⟩ := hs
  exact M.exec_induction hstep hinit is

section Cost

variable (M)

/-- Every call of the history has the property `G`, in the state it is made in. -/
def Along (G : σ → ι → Prop) (s : σ) : List ι → Prop
  | [] => True
  | i :: is => G s i ∧ Along G (M.step s i).2 is

/-- What the calls of a history cost together, when the call `i` costs `c s i` in the
state `s`. -/
def cost (c : σ → ι → Nat) (s : σ) : List ι → Nat
  | [] => 0
  | i :: is => c s i + cost c (M.step s i).2 is

theorem along_of_forall {G : σ → ι → Prop} (h : ∀ s i, G s i) (s : σ) (is : List ι) :
    M.Along G s is := by
  induction is generalizing s with
  | nil => trivial
  | cons i is ih => exact ⟨h s i, ih _⟩

variable {M}

/-- **The method of potentials.**  If every call, under the invariant, pays for what it costs
and for what it adds to the potential, then the payments cover the cost of the history. -/
theorem cost_le {Inv : σ → Prop} (hinv : ∀ s i, Inv s → Inv (M.step s i).2) {G : σ → ι → Prop}
    (c pay : σ → ι → Nat) (potential : σ → Nat)
    (hstep : ∀ s i, Inv s → G s i → c s i + potential (M.step s i).2 ≤ potential s + pay s i)
    {s : σ} (hs : Inv s) {is : List ι} (h : M.Along G s is) :
    M.cost c s is + potential (M.exec s is) ≤ potential s + M.cost pay s is := by
  induction is generalizing s with
  | nil => simp [cost]
  | cons i is ih =>
      have hfirst := hstep s i hs h.1
      have hrest := ih (hinv s i hs) h.2
      simp only [cost, exec_cons]
      omega

end Cost

end Runs

/-- The concrete machine `C` refines the abstract machine `A`: states that keep
the invariant `Inv` answer every call as their abstraction does, and go on to
the abstraction's next state. -/
structure Refines (C : Machine σ ι ο) (A : Machine τ ι ο) (Inv : σ → Prop) (abs : σ → τ) :
    Prop where
  init_inv : Inv C.init
  init_abs : abs C.init = A.init
  step_inv : ∀ s i, Inv s → Inv (C.step s i).2
  step_out : ∀ s i, Inv s → (C.step s i).1 = (A.step (abs s) i).1
  step_abs : ∀ s i, Inv s → abs (C.step s i).2 = (A.step (abs s) i).2

namespace Refines

variable {C : Machine σ ι ο} {A : Machine τ ι ο} {Inv : σ → Prop} {abs : σ → τ}

theorem inv_of_reachable (R : Refines C A Inv abs) {s : σ} (hs : C.Reachable s) : Inv s :=
  hs.induction R.init_inv R.step_inv

theorem outs_eq_of_inv (R : Refines C A Inv abs) {s : σ} (hs : Inv s) (is : List ι) :
    C.outs s is = A.outs (abs s) is := by
  induction is generalizing s with
  | nil => rfl
  | cons i is ih =>
      rw [outs_cons, outs_cons, R.step_out s i hs, ih (R.step_inv s i hs), R.step_abs s i hs]

theorem exec_eq_of_inv (R : Refines C A Inv abs) {s : σ} (hs : Inv s) (is : List ι) :
    abs (C.exec s is) = A.exec (abs s) is := by
  induction is generalizing s with
  | nil => rfl
  | cons i is ih => rw [exec_cons, exec_cons, ih (R.step_inv s i hs), R.step_abs s i hs]

/-- **No history tells the two machines apart by their answers.** -/
theorem outs_eq (R : Refines C A Inv abs) (is : List ι) :
    C.outs C.init is = A.outs A.init is := by
  rw [R.outs_eq_of_inv R.init_inv, R.init_abs]

/-- After every history the concrete state abstracts to the abstract one. -/
theorem exec_eq (R : Refines C A Inv abs) (is : List ι) :
    abs (C.exec C.init is) = A.exec A.init is := by
  rw [R.exec_eq_of_inv R.init_inv, R.init_abs]

end Refines
end Machine
