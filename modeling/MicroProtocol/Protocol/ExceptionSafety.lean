import MicroProtocol.Protocol.StreamAllocation

/-!
# A decoder that runs out of memory

Every allocation may throw `std::bad_alloc`.  The codec has no state to lose.  A
`StreamDecoder` has: `push` may have erased consumed bytes by the time it throws, and `next`
is in the middle of copying a message.

* `Allocating.step_cases` — a call returns what it always does, or throws and leaves the unread
  bytes as they were.
* `Allocating.calls_spec` — a program that catches every exception, as the byte queue sees it.
* `exception_safe` — so it can go on: all its other calls are answered as if those that threw
  had not been made, and a call throws only if an allocation of its own has failed.
-/

namespace Vosp
namespace Protocol

open StreamDecoder (Call Answer)

namespace Allocating

variable {p : Platform} (grow : Nat → Nat → Nat) {d : Decoder p}

/-- The two ways a call can end. -/
theorem step_cases (h : d.Tidy) (call : Call) (grants : Block → List Block → Bool)
    (log : List Block) :
    (∃ d' made, (step grow call).run grants d log =
        (some (d.toStreamDecoder.step call).1, d', made ++ log) ∧
      d'.toStreamDecoder = (d.toStreamDecoder.step call).2) ∨
    ∃ d' made, (step grow call).run grants d log = (none, d', made ++ log) ∧ Unharmed d d' := by
  obtain ⟨d', requests, hperforms, hd', -⟩ := step_handles grow h call
  by_cases hall : Faulty.Granted grants log requests
  · exact .inl ⟨d', requests, hperforms.returned hall, hd'⟩
  · obtain ⟨e, earlier, left, -, -, hrun, hunharmed⟩ := hperforms.thrown hall
    exact .inr ⟨left, e :: earlier, hrun, hunharmed⟩

/-- The calls that have been answered. -/
def answered : List Call → List (Option Answer) → List Call
  | call :: calls, some _ :: answers => call :: answered calls answers
  | _ :: calls, none :: answers => answered calls answers
  | _, _ => []

/-- What is true after a program on `d`: its answers are those of the byte queue to the calls
that were answered. -/
structure Served (d : Decoder p) (calls : List Call) (answers : List (Option Answer))
    (d' : Decoder p) : Prop where
  outs : answers.reduceOption =
    (ByteQueue.machine d.limits).outs d.unread (answered calls answers)
  unread_eq : d'.unread = (ByteQueue.machine d.limits).exec d.unread (answered calls answers)
  tidy : d'.Tidy

/-- After a call that was answered. -/
theorem Served.answered {call : Call} {calls : List Call} {d₁ d' : Decoder p}
    {answers : List (Option Answer)} (h : d.Tidy)
    (hd₁ : d₁.toStreamDecoder = (d.toStreamDecoder.step call).2)
    (hrest : Served d₁ calls answers d') :
    Served d (call :: calls) (some (d.toStreamDecoder.step call).1 :: answers) d' := by
  -- the decoder and the queue take the same step
  have hrefines := StreamDecoder.refines d.limits
  have hinv : d.toStreamDecoder.limits = d.limits ∧ d.toStreamDecoder.Tidy := ⟨rfl, h⟩
  obtain ⟨hlimits, -⟩ := hrefines.step_inv _ call hinv
  have hout := hrefines.step_out _ call hinv
  have habs := hrefines.step_abs _ call hinv
  rw [StreamDecoder.machine_step, ← hd₁] at hlimits habs
  rw [StreamDecoder.machine_step] at hout
  obtain ⟨houts, hunread, htidy⟩ := hrest
  rw [hlimits, habs] at houts hunread
  refine ⟨?_, hunread, htidy⟩
  rw [List.reduceOption_cons_of_some, houts, Allocating.answered, Machine.outs_cons, hout]

/-- After a call that threw. -/
theorem Served.thrown {call : Call} {calls : List Call} {d₁ d' : Decoder p}
    {answers : List (Option Answer)} (hunharmed : Unharmed d d₁)
    (hrest : Served d₁ calls answers d') : Served d (call :: calls) (none :: answers) d' := by
  obtain ⟨houts, hunread, htidy⟩ := hrest
  rw [hunharmed.limits_eq, hunharmed.unread_eq] at houts hunread
  exact ⟨houts, hunread, htidy⟩

/-- **A program that catches every exception**: calls that threw do not exist. -/
theorem calls_spec (h : d.Tidy) (calls : List Call) (grants : Block → List Block → Bool)
    (log : List Block) :
    ∃ answers d' made,
      (Allocating.calls grow calls).run grants d log = (some answers, d', made ++ log) ∧
      Served d calls answers d' := by
  induction calls generalizing d log with
  | nil => exact ⟨[], d, [], rfl, rfl, rfl, h⟩
  | cons call calls ih =>
      rcases step_cases grow h call grants log with
        ⟨d₁, made, hrun, hd₁⟩ | ⟨d₁, made, hrun, hunharmed⟩
      · have htidy : d₁.Tidy := by
          rw [hd₁]
          exact ((StreamDecoder.refines d.limits).step_inv _ call ⟨rfl, h⟩).2
        obtain ⟨answers, d', later, hrest, hserved⟩ := ih htidy (made ++ log)
        refine ⟨_, d', later ++ made, ?_, hserved.answered h hd₁⟩
        rw [run_calls_cons, hrun]
        dsimp only
        rw [hrest, List.append_assoc]
        rfl
      · obtain ⟨answers, d', later, hrest, hserved⟩ := ih hunharmed.tidy (made ++ log)
        refine ⟨_, d', later ++ made, ?_, hserved.thrown hunharmed⟩
        rw [run_calls_cons, hrun]
        dsimp only
        rw [hrest, List.append_assoc]
        rfl

end Allocating

namespace StreamDecoder

variable {p : Platform}

open Allocating (answered)

/-- **Exceptions do no harm.**  Whichever allocations of a program fail, the calls that threw
`std::bad_alloc` might as well not have been made: all others have the answers that a
decoder gives to them alone, and what is left to read is the same.  No message is lost or
returned twice, so a call that threw can be repeated.  And whatever is called after the
program, the call throws if and only if one of the allocations that it made itself was
refused. -/
theorem exception_safe (grants : Block → List Block → Bool) (grow : Nat → Nat → Nat)
    (L : Limits p) (calls : List Call) :
    ∃ answers d requests,
      (Allocating.calls grow calls).run grants { limits := L } [] = (some answers, d, requests) ∧
      answers.reduceOption = (machine L).outs (machine L).init (answered calls answers) ∧
      d.unread = ((machine L).exec (machine L).init (answered calls answers)).unread ∧
      ∀ call, let after := (Allocating.step grow call).run grants d requests
        ∃ made, after.2.2 = made ++ requests ∧
          (after.1 = none ↔
            ∃ e earlier, e :: earlier <:+ made ∧ grants e (earlier ++ requests) = false) := by
  obtain ⟨answers, d, made, hrun, hserved⟩ :=
    Allocating.calls_spec grow (d := { limits := L }) (tidy_init L) calls grants []
  refine ⟨answers, d, _, hrun, ?_, ?_, fun call => ?_⟩
  · rw [hserved.outs, (refines L).outs_eq]
    rfl
  · rw [hserved.unread_eq, (refines L).exec_eq]
    rfl
  · obtain ⟨d', asked, hperforms, -, -⟩ := Allocating.step_handles grow hserved.tidy call
    exact hperforms.throws_iff grants _

/-- The payload cannot be copied at first, and is when `next()` is called again. -/
example : ((Allocating.calls (fun n _ => 2 * n)
    [.push [86, 83, 80, 49, 0, 32, 0, 0, 0, 1, 0, 0, 0, 0, 0, 7, 0, 0, 0, 0, 0, 0, 0, 0, 0, 0, 0, 1,
      0, 0, 0, 0, 9], .next, .next]).run (fun _ log => log.length ≠ 1)
      { limits := smallTestLimits } []).1.map (·.map Option.isSome) = some [true, false, true] := by
  decide

end StreamDecoder
end Protocol
end Vosp
