import MicroProtocol.Lib.Custody

/-!
# Pre- and postconditions for programs with a log

A program that only ever adds to its log is described by what the log has to be
like before and what it is like afterwards, together with what the program
returned.  `Ensures P m Q` says so for one program; the rules follow the way
programs are written.

Some properties of a log are about every call in it, in view of the calls before:
`Always G log`.  They are invariants of a program when each of its calls is made
in a situation that `G` allows.

* `run_pure`, `run_bind`, `run_call` — running a program, for symbolic execution.
* `ensures_pure`, `Ensures.bind`, `ensures_call`, `Ensures.imp`, `Ensures.of_fact` — the
  rules.
* `Makes`, `makes_pure`, `Makes.bind`, `makes_call` — which calls a program makes, and
  `Makes.keeps` for what such calls leave alone.
* `Yields`, `yields_pure`, `Yields.bind`, `yields_call` — a program whose value and calls are
  known exactly, whatever was called before.
* `Always`, `Always.at` — what holds of every call, and of one of them.
-/

namespace Logged

open Custody (call)

variable {ε α β : Type}

/-! ## Running -/

theorem run_pure (a : α) (log : List ε) : (pure a : StateM (List ε) α).run log = (a, log) := rfl

theorem run_bind (m : StateM (List ε) α) (f : α → StateM (List ε) β) (log : List ε) :
    (m >>= f).run log = (f (m.run log).1).run (m.run log).2 := rfl

theorem run_call (f : List ε → α × ε) (log : List ε) :
    (call f).run log = ((f log).1, (f log).2 :: log) := rfl

/-! ## Programs -/

/-- Started on a log with `P`, the program ends with `Q`. -/
def Ensures (P : List ε → Prop) (m : StateM (List ε) α) (Q : α → List ε → Prop) : Prop :=
  ∀ log, P log → Q (m.run log).1 (m.run log).2

variable {P P' : List ε → Prop} {Q Q' : α → List ε → Prop} {m : StateM (List ε) α}

theorem ensures_pure {a : α} (h : ∀ log, P log → Q a log) : Ensures P (pure a) Q := h

theorem Ensures.bind {f : α → StateM (List ε) β} {R : β → List ε → Prop} (hm : Ensures P m Q)
    (hf : ∀ a, Ensures (Q a) (f a) R) : Ensures P (m >>= f) R := by
  intro log hlog
  exact hf _ _ (hm log hlog)

theorem ensures_call {f : List ε → α × ε} (h : ∀ log, P log → Q (f log).1 ((f log).2 :: log)) :
    Ensures P (call f) Q := h

/-- A stronger precondition and a weaker postcondition. -/
theorem Ensures.imp (hm : Ensures P m Q) (hpre : ∀ log, P' log → P log)
    (hpost : ∀ a log, Q a log → Q' a log) : Ensures P' m Q' := by
  intro log hlog
  exact hpost _ _ (hm log (hpre log hlog))

/-- A fact that the precondition contains and that is not about the log may be used
in the proof. -/
theorem Ensures.of_fact {q : Prop} (hq : ∀ log, P log → q) (h : q → Ensures P m Q) :
    Ensures P m Q := by
  intro log hlog
  exact h (hq log hlog) log hlog

/-- Every call that the program makes has the property `A`. -/
def Makes (A : ε → Prop) (m : StateM (List ε) α) : Prop :=
  ∀ log, ∃ calls, (m.run log).2 = calls ++ log ∧ ∀ e ∈ calls, A e

variable {A : ε → Prop}

theorem makes_pure {a : α} : Makes A (pure a) := fun _ => ⟨[], rfl, fun _ h => by cases h⟩

theorem Makes.bind {f : α → StateM (List ε) β} (hm : Makes A m) (hf : ∀ a, Makes A (f a)) :
    Makes A (m >>= f) := by
  intro log
  obtain ⟨calls, hcalls, hA⟩ := hm log
  obtain ⟨calls', hcalls', hA'⟩ := hf (m.run log).1 (m.run log).2
  refine ⟨calls' ++ calls, ?_, ?_⟩
  · rw [List.append_assoc, ← hcalls]
    exact hcalls'
  · intro e he
    rcases List.mem_append.1 he with he | he
    · exact hA' e he
    · exact hA e he

theorem makes_call {f : List ε → α × ε} (h : ∀ log, A (f log).2) : Makes A (call f) := by
  intro log
  refine ⟨[(f log).2], rfl, ?_⟩
  intro e he
  rw [List.mem_singleton.1 he]
  exact h log

/-- What no call with the property `A` can spoil, the program keeps. -/
theorem Makes.keeps (hm : Makes A m) {K : List ε → Prop} (hK : ∀ e log, A e → K log → K (e :: log)) :
    Ensures K m (fun _ => K) := by
  intro log hlog
  obtain ⟨calls, hcalls, hA⟩ := hm log
  rw [hcalls]
  clear hcalls
  induction calls with
  | nil => exact hlog
  | cons e calls ih =>
      have he := hA e (List.mem_cons_self ..)
      exact hK e _ he (ih fun e' he' => hA e' (List.mem_cons_of_mem _ he'))

/-- The program returns `a` and makes exactly `calls`, the last one first. -/
def Yields (m : StateM (List ε) α) (a : α) (calls : List ε) : Prop :=
  ∀ log, m.run log = (a, calls ++ log)

theorem yields_pure {a : α} : Yields (pure a) a ([] : List ε) := fun _ => rfl

theorem Yields.bind {f : α → StateM (List ε) β} {a : α} {b : β} {calls calls' : List ε}
    (hm : Yields m a calls) (hf : Yields (f a) b calls') :
    Yields (m >>= f) b (calls' ++ calls) := by
  intro log
  rw [run_bind, hm log, hf (calls ++ log), List.append_assoc]

theorem yields_call {a : α} {e : ε} : Yields (call fun _ => (a, e)) a [e] := fun _ => rfl

/-! ## Logs -/

/-- Every call of the log has the property `G`, in view of the calls before it. -/
def Always (G : ε → List ε → Prop) : List ε → Prop
  | [] => True
  | e :: log => G e log ∧ Always G log

theorem Always.at {G : ε → List ε → Prop} {later earlier : List ε} {e : ε}
    (h : Always G (later ++ e :: earlier)) : G e earlier := by
  induction later with
  | nil => exact h.1
  | cons e' later ih => exact ih h.2

end Logged
