import MicroProtocol.Lib.Custody

/-!
# Typestate: handles that go through stages

The handles of an interface are in stages, and which calls may be made on a handle depends
on its stage.  `Rules` says so: a call that is allowed moves its handle on to another stage
or ends it, and a call may open a new handle, in its first stage.

As with custody, reasoning about a program is reasoning about the handles it is
responsible for.  `Follows S m T` says that a program that starts out responsible for the
handles of `S`, in the stages given there, obeys the rules and ends up responsible for
those of `T a`, whatever stages the handles of everybody else are in, and leaves those
where they are.

* `stages` — the stage of every handle after the calls of a log.
* `Obeys` — every call was allowed at the time, and what was opened was not open;
  `Obeys.first_on` says what may come next for an open handle.
* `Graph` — a multiset of handles with their stages, as a map.
* `Follows` with `follows_pure`, `Follows.bind`, `Follows.frame` and the rules for single
  calls, `follows_idle`, `follows_on`, `follows_open` and `follows_on_open`.
-/

namespace Typestate

open Custody (call Returns)

/-- The rules of an interface with handles `η`, stages `σ` and calls `ε`. -/
structure Rules (η σ ε : Type) where
  /-- The handle a call is made on. -/
  on : ε → Option η
  /-- The handle a call opens, with its first stage. -/
  opens : ε → Option (η × σ)
  /-- What a call does to the stage of the handle it is made on: the outer `none` says that
  it is not allowed, the inner one that the handle is gone. -/
  next : ε → σ → Option (Option σ)

variable {η σ ε α β : Type} [DecidableEq η]

/-- The stages when a handle is opened in its first stage. -/
def opening (o : Option (η × σ)) (g : η → Option σ) : η → Option σ :=
  match o with
  | none => g
  | some (h, s) => Function.update g h (some s)

namespace Rules

variable (R : Rules η σ ε)

/-- The stages after a call. -/
def advance (e : ε) (g : η → Option σ) : η → Option σ :=
  opening (R.opens e) (match R.on e with
    | none => g
    | some h => Function.update g h ((g h).bind fun s => (R.next e s).join))

/-- The stages after the calls of a log, newest first; no stage means that the handle is
not open. -/
def stages : List ε → η → Option σ
  | [] => fun _ => none
  | e :: log => R.advance e (stages log)

/-- The call is made on a handle whose stage allows it, and opens one that is not open. -/
structure Allows (e : ε) (g : η → Option σ) : Prop where
  on : ∀ h, R.on e = some h → ∃ s, g h = some s ∧ (R.next e s).isSome = true
  opens : ∀ h s, R.opens e = some (h, s) → g h = none

/-- Every call of the log was allowed at the time. -/
def Obeys : List ε → Prop
  | [] => True
  | e :: log => R.Allows e (R.stages log) ∧ Obeys log

variable {R}

/-- The stage of a handle that the call does not open. -/
theorem stages_cons_of_not_opens {e : ε} {h : η} (hne : ∀ s, R.opens e ≠ some (h, s))
    (log : List ε) :
    R.stages (e :: log) h =
      if R.on e = some h then (R.stages log h).bind fun s => (R.next e s).join
      else R.stages log h := by
  have hmoved : R.stages (e :: log) h = (match R.on e with
      | none => R.stages log
      | some h => Function.update (R.stages log) h
          ((R.stages log h).bind fun s => (R.next e s).join)) h := by
    rw [stages, advance]
    rcases hopens : R.opens e with _ | ⟨h', s'⟩
    · rfl
    · rw [opening, Function.update_of_ne]
      rintro rfl
      exact hne s' hopens
  rw [hmoved]
  cases R.on e with
  | none => rfl
  | some h' =>
      by_cases hh : h' = h
      · subst hh
        simp
      · simp [hh, Function.update_of_ne (Ne.symm hh)]

/-- Where a handle has its stage from: it was opened, moved on, or left alone. -/
theorem stages_cons_eq_some {e : ε} {log : List ε} {h : η} {s : σ}
    (hs : R.stages (e :: log) h = some s) :
    (∃ s', R.opens e = some (h, s')) ∨
      ∃ s', R.stages log h = some s' ∧
        (R.on e = some h ∧ R.next e s' = some (some s) ∨ R.on e ≠ some h ∧ s' = s) := by
  by_cases hopens : ∃ s', R.opens e = some (h, s')
  · exact .inl hopens
  rw [stages_cons_of_not_opens (not_exists.1 hopens)] at hs
  split_ifs at hs with hon
  · obtain ⟨s', hs', hnext⟩ := Option.bind_eq_some_iff.1 hs
    exact .inr ⟨s', hs', .inl ⟨hon, Option.join_eq_some_iff.1 hnext⟩⟩
  · exact .inr ⟨s, hs, .inr ⟨hon, rfl⟩⟩

/-- Every call was allowed by the stages at the time. -/
theorem Obeys.at {later earlier : List ε} {e : ε} (h : R.Obeys (later ++ e :: earlier)) :
    R.Allows e (R.stages earlier) := by
  induction later with
  | nil => exact h.1
  | cons e' later ih => exact ih h.2

/-- What happens next to an open handle: nothing, or a call that its stage allows. -/
theorem Obeys.first_on {later earlier : List ε} {h : η} {s : σ}
    (hobeys : R.Obeys (later ++ earlier)) (hs : R.stages earlier h = some s) :
    R.stages (later ++ earlier) h = some s ∨
      ∃ l e l' r, later = l ++ e :: l' ∧ (∀ e' ∈ l', R.on e' ≠ some h) ∧ R.on e = some h ∧
        R.next e s = some r ∧ R.stages (e :: (l' ++ earlier)) h = r := by
  -- the calls so far are on other handles, or the call in question is among them
  suffices hor : (R.stages (later ++ earlier) h = some s ∧ ∀ e' ∈ later, R.on e' ≠ some h) ∨
      ∃ l e l' r, later = l ++ e :: l' ∧ (∀ e' ∈ l', R.on e' ≠ some h) ∧ R.on e = some h ∧
        R.next e s = some r ∧ R.stages (e :: (l' ++ earlier)) h = r from
    hor.imp_left And.left
  induction later with
  | nil => exact .inl ⟨hs, by simp⟩
  | cons e later ih =>
      obtain ⟨hstage, hothers⟩ | ⟨l, e', l', r, rfl, hfound⟩ := ih hobeys.2
      · have hnot : ∀ s', R.opens e ≠ some (h, s') := by
          intro s' hopens
          exact absurd (hstage.symm.trans (hobeys.1.opens h s' hopens)) (by simp)
        have hcons := stages_cons_of_not_opens hnot (later ++ earlier)
        rw [hstage] at hcons
        by_cases hon : R.on e = some h
        · obtain ⟨s', hs', hnext⟩ := hobeys.1.on h hon
          obtain rfl : s = s' := Option.some.inj (hstage.symm.trans hs')
          obtain ⟨r, hr⟩ := Option.isSome_iff_exists.1 hnext
          refine .inr ⟨[], e, later, r, rfl, hothers, hon, hr, ?_⟩
          simpa [hon, hr] using hcons
        · refine .inl ⟨by simpa [hon] using hcons, ?_⟩
          simpa [hon] using hothers
      · exact .inr ⟨e :: l, e', l', r, rfl, hfound⟩

end Rules

/-! ## Maps as multisets -/

/-- The handle `h` in the stage `r`, if it has one. -/
def tagged (h : η) (r : Option σ) : Multiset (η × σ) := Custody.owned (r.map fun s => (h, s))

omit [DecidableEq η] in
@[simp] theorem tagged_none (h : η) : tagged h (none : Option σ) = 0 := rfl

omit [DecidableEq η] in
@[simp] theorem tagged_some (h : η) (s : σ) : tagged h (some s) = {(h, s)} := rfl

omit [DecidableEq η] in
theorem mem_tagged {h h' : η} {r : Option σ} {s : σ} :
    (h', s) ∈ tagged h r ↔ h' = h ∧ r = some s := by
  cases r with
  | none => simp
  | some s' => simp [eq_comm]

/-- The multiset is the graph of the map. -/
structure Graph (M : Multiset (η × σ)) (g : η → Option σ) : Prop where
  nodup : (M.map Prod.fst).Nodup
  mem_iff : ∀ h s, (h, s) ∈ M ↔ g h = some s

omit [DecidableEq η] in
theorem graph_zero : Graph (0 : Multiset (η × σ)) (fun _ => none) :=
  ⟨by simp, by simp⟩

omit [DecidableEq η] in
/-- What is in one part of a graph is not in the other. -/
theorem Graph.not_mem {F : Multiset (η × σ)} {h : η} {s : σ} {g : η → Option σ}
    (hg : Graph (F + {(h, s)}) g) (s' : σ) : (h, s') ∉ F := by
  intro hmem
  have hnodup := hg.nodup
  rw [Multiset.map_add, Multiset.map_singleton, Multiset.nodup_add] at hnodup
  exact Multiset.disjoint_left.1 hnodup.2.2 (Multiset.mem_map_of_mem Prod.fst hmem)
    (Multiset.mem_singleton_self h)

/-- A handle of the graph moves on, or is gone. -/
theorem Graph.move {F : Multiset (η × σ)} {h : η} {s : σ} {g : η → Option σ}
    (hg : Graph (F + {(h, s)}) g) (r : Option σ) :
    Graph (F + tagged h r) (Function.update g h r) := by
  refine ⟨?_, fun h' s' => ?_⟩
  · refine Multiset.nodup_of_le ?_ hg.nodup
    cases r <;> simp
  · by_cases hh : h' = h
    · subst hh
      simp [hg.not_mem s', mem_tagged]
    · rw [Function.update_of_ne hh, ← hg.mem_iff]
      simp [mem_tagged, hh]

/-- A handle is added to the graph when it is opened. -/
theorem Graph.opening {M : Multiset (η × σ)} {g : η → Option σ} (hg : Graph M g)
    {o : Option (η × σ)} (hfresh : ∀ h s, o = some (h, s) → g h = none) :
    Graph (M + Custody.owned o) (opening o g) := by
  rcases o with _ | ⟨h, s⟩
  · simpa [Typestate.opening] using hg
  have hnot : ∀ s', (h, s') ∉ M := by
    intro s' hmem
    rw [hg.mem_iff, hfresh h s rfl] at hmem
    cases hmem
  refine ⟨?_, fun h' s' => ?_⟩
  · rw [Custody.owned_some, Multiset.map_add, Multiset.map_singleton, add_comm,
      Multiset.singleton_add, Multiset.nodup_cons]
    refine ⟨fun hmem => ?_, hg.nodup⟩
    obtain ⟨⟨h', s'⟩, hmem', rfl⟩ := Multiset.mem_map.1 hmem
    exact hnot s' hmem'
  · by_cases hh : h' = h
    · subst hh
      simp [Typestate.opening, hnot s', eq_comm]
    · rw [Typestate.opening, Function.update_of_ne hh, ← hg.mem_iff]
      simp [hh]

/-! ## Programs -/

variable (R : Rules η σ ε)

/-- `m` follows the rules: responsible for the handles of `S` before, it is responsible for
those of `T a` after returning `a`, and the stages `F` of all others are as they were. -/
def Follows (S : Multiset (η × σ)) (m : StateM (List ε) α) (T : α → Multiset (η × σ)) : Prop :=
  ∀ (F : Multiset (η × σ)) (log : List ε), R.Obeys log → Graph (F + S) (R.stages log) →
    R.Obeys (m.run log).2 ∧ Graph (F + T (m.run log).1) (R.stages (m.run log).2)

variable {R} {S : Multiset (η × σ)} {m : StateM (List ε) α} {T : α → Multiset (η × σ)}

theorem follows_pure {a : α} (h : S = T a) : Follows R S (pure a) T := by
  intro F log hobeys hgraph
  exact ⟨hobeys, h ▸ hgraph⟩

/-- In sequence, where the second program may rely on what the first returns. -/
theorem Follows.bind_of_returns {f : α → StateM (List ε) β} {U : β → Multiset (η × σ)}
    {P : α → Prop} (hm : Follows R S m T) (hP : Returns m P)
    (hf : ∀ a, P a → Follows R (T a) (f a) U) : Follows R S (m >>= f) U := by
  intro F log hobeys hgraph
  obtain ⟨hobeys', hgraph'⟩ := hm F log hobeys hgraph
  exact hf _ (hP log) F _ hobeys' hgraph'

theorem Follows.bind {f : α → StateM (List ε) β} {U : β → Multiset (η × σ)}
    (hm : Follows R S m T) (hf : ∀ a, Follows R (T a) (f a) U) : Follows R S (m >>= f) U :=
  hm.bind_of_returns (P := fun _ => True) (fun _ => trivial) fun a _ => hf a

/-- Handles that a program is not told about can be added to both sides. -/
theorem Follows.frame (h : Follows R S m T) (F : Multiset (η × σ)) :
    Follows R (F + S) m (fun a => F + T a) := by
  intro G log hobeys hgraph
  rw [← add_assoc] at hgraph ⊢
  exact h (G + F) log hobeys hgraph

/-- A call that is made on no handle and opens none. -/
theorem follows_idle {f : List ε → α × ε} (hon : ∀ log, R.on (f log).2 = none)
    (hopens : ∀ log, R.opens (f log).2 = none) : Follows R S (call f) (fun _ => S) := by
  intro F log hobeys hgraph
  have hstages : R.stages ((f log).2 :: log) = R.stages log := by
    simp [Rules.stages, Rules.advance, opening, hon, hopens]
  refine ⟨⟨⟨?_, ?_⟩, hobeys⟩, ?_⟩
  · simp [hon]
  · simp [hopens]
  · change Graph (F + S) (R.stages ((f log).2 :: log))
    rwa [hstages]

/-- A call on a handle the program is responsible for. -/
theorem follows_on {f : List ε → α × ε} {h : η} {s : σ} {r : α → Option σ}
    (hon : ∀ log, R.on (f log).2 = some h) (hopens : ∀ log, R.opens (f log).2 = none)
    (hnext : ∀ log, R.next (f log).2 s = some (r (f log).1)) :
    Follows R {(h, s)} (call f) (fun a => tagged h (r a)) := by
  intro F log hobeys hgraph
  have hstage : R.stages log h = some s := (hgraph.mem_iff h s).1 (by simp)
  have hstages : R.stages ((f log).2 :: log) =
      Function.update (R.stages log) h (r (f log).1) := by
    simp [Rules.stages, Rules.advance, opening, hon, hopens, hstage, hnext]
  refine ⟨⟨⟨?_, ?_⟩, hobeys⟩, ?_⟩
  · intro h' hh'
    rw [hon] at hh'
    cases hh'
    exact ⟨s, hstage, by simp [hnext]⟩
  · simp [hopens]
  · change Graph (F + tagged h (r (f log).1)) (R.stages ((f log).2 :: log))
    rw [hstages]
    exact hgraph.move _

/-- A call that may open a handle, made on the handle `h` that the program is responsible
for; `h` keeps its stage. -/
theorem follows_on_open {f : List ε → α × ε} {h : η} {s : σ}
    {o : α → Option (η × σ)} (hon : ∀ log, R.on (f log).2 = some h)
    (hopens : ∀ log, R.opens (f log).2 = o (f log).1)
    (hnext : ∀ log, R.next (f log).2 s = some (some s))
    (hfresh : ∀ log, R.Obeys log → ∀ h' s', o (f log).1 = some (h', s') → R.stages log h' = none) :
    Follows R {(h, s)} (call f) (fun a => {(h, s)} + Custody.owned (o a)) := by
  intro F log hobeys hgraph
  have hstage : R.stages log h = some s := (hgraph.mem_iff h s).1 (by simp)
  have hstages : R.stages ((f log).2 :: log) = opening (o (f log).1) (R.stages log) := by
    have hsame : Function.update (R.stages log) h (some s) = R.stages log := by
      rw [← hstage, Function.update_eq_self]
    simp [Rules.stages, Rules.advance, hon, hopens, hstage, hnext, hsame]
  refine ⟨⟨⟨?_, ?_⟩, hobeys⟩, ?_⟩
  · intro h' hh'
    rw [hon] at hh'
    cases hh'
    exact ⟨s, hstage, by simp [hnext]⟩
  · intro h' s' hh'
    rw [hopens] at hh'
    exact hfresh log hobeys h' s' hh'
  · change Graph (F + ({(h, s)} + Custody.owned (o (f log).1))) (R.stages ((f log).2 :: log))
    rw [hstages, ← add_assoc]
    exact hgraph.opening (hfresh log hobeys)

/-- A call on no handle that may open one. -/
theorem follows_open {f : List ε → α × ε} {o : α → Option (η × σ)}
    (hon : ∀ log, R.on (f log).2 = none) (hopens : ∀ log, R.opens (f log).2 = o (f log).1)
    (hfresh : ∀ log, R.Obeys log → ∀ h' s', o (f log).1 = some (h', s') → R.stages log h' = none) :
    Follows R 0 (call f) (fun a => Custody.owned (o a)) := by
  intro F log hobeys hgraph
  rw [add_zero] at hgraph
  have hstages : R.stages ((f log).2 :: log) = opening (o (f log).1) (R.stages log) := by
    simp [Rules.stages, Rules.advance, hon, hopens]
  refine ⟨⟨⟨?_, ?_⟩, hobeys⟩, ?_⟩
  · simp [hon]
  · intro h' s' hh'
    rw [hopens] at hh'
    exact hfresh log hobeys h' s' hh'
  · change Graph (F + Custody.owned (o (f log).1)) (R.stages ((f log).2 :: log))
    rw [hstages]
    exact hgraph.opening (hfresh log hobeys)

end Typestate
