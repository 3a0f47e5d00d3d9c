import Mathlib

/-!
# Custody: a logic for programs that open and close handles

A program talks to an interface that hands out handles: some calls open one, some
close one, some only use one.  The log of all calls, newest first, determines which
handles are held, and whether the program kept the discipline of the interface:
no call is made on a handle that is not held.

Reasoning about a program is reasoning about what *it* is responsible for.  As in
separation logic, `Accounts S m T` says that a program `m` that starts out
responsible for the handles `S` keeps the discipline and ends up responsible for
exactly the handles `T a`, where `a` is what it returns, whatever other handles
are held by others at the time.

* `held`, `Disciplined` — the handles held after a log, and the discipline.
* `nodup_held`, `opened_eq` — under the discipline no handle is held twice, and
  each opening is followed by at most one closing.
* `Accounts`, `Spares` with `accounts_pure`, `Accounts.bind`, `Accounts.frame` and the rules
  for single calls, `accounts_call` and `accounts_call_on`.
* `exists_frame`, `exists_frame_two`, `mem_row`, `slot_unique` — the custody of many owners: when one of
  them changes, what they hold together, and that they do not share.
-/

namespace Custody

variable {η ε α β σ : Type}

/-- What one call does: the handle it is made on, the handle it opens and the
handle it closes. -/
structure Access (η : Type) where
  on : Option η := none
  opens : Option η := none
  closes : Option η := none

/-- The handles of an owner of at most one. -/
def owned : Option η → Multiset η
  | none => 0
  | some h => {h}

@[simp] theorem owned_none : owned (none : Option η) = 0 := rfl

@[simp] theorem owned_some (h : η) : owned (some h) = {h} := rfl

@[simp] theorem mem_owned {h : η} {o : Option η} : h ∈ owned o ↔ o = some h := by
  cases o with
  | none => simp
  | some g => simp [eq_comm]

variable [DecidableEq η] (access : ε → Access η)

/-! ## The log -/

/-- The handles held after the calls of the log. -/
def held : List ε → Multiset η
  | [] => 0
  | e :: log => held log - owned (access e).closes + owned (access e).opens

/-- Calls are made only on handles that are held, and what is opened was not. -/
def Disciplined : List ε → Prop
  | [] => True
  | e :: log =>
      (∀ h, (access e).on = some h → h ∈ held access log) ∧
      (∀ h, (access e).opens = some h → h ∉ held access log) ∧
      owned (access e).closes ≤ held access log ∧ Disciplined log

/-- How often the handle was opened. -/
def opened (h : η) (log : List ε) : Nat := log.countP fun e => (access e).opens = some h

/-- How often the handle was closed. -/
def closed (h : η) (log : List ε) : Nat := log.countP fun e => (access e).closes = some h

variable {access}

/-- No handle is held twice. -/
theorem nodup_held {log : List ε} (hd : Disciplined access log) : (held access log).Nodup := by
  induction log with
  | nil => exact Multiset.nodup_zero
  | cons e log ih =>
      obtain ⟨-, hopens, -, hlog⟩ := hd
      have hless : (held access log - owned (access e).closes).Nodup :=
        Multiset.nodup_of_le (Multiset.sub_le_self _ _) (ih hlog)
      unfold held
      cases hopen : (access e).opens with
      | none => simpa using hless
      | some h =>
          rw [owned_some, add_comm, Multiset.singleton_add, Multiset.nodup_cons]
          exact ⟨fun hmem => hopens h hopen (Multiset.mem_of_le (Multiset.sub_le_self _ _) hmem),
            hless⟩

theorem count_owned (h : η) (o : Option η) :
    (owned o).count h = if o = some h then 1 else 0 := by
  cases o with
  | none => simp
  | some g => simp [Multiset.count_singleton, eq_comm]

/-- Every closing closes an opening of its own: the openings of a handle are its
closings, and one more while it is held. -/
theorem opened_eq {log : List ε} (hd : Disciplined access log) (h : η) :
    opened access h log = closed access h log + (held access log).count h := by
  induction log with
  | nil => rfl
  | cons e log ih =>
      obtain ⟨-, -, hcloses, hlog⟩ := hd
      have hle := Multiset.count_le_of_le h hcloses
      have hrest := ih hlog
      unfold opened closed at hrest ⊢
      rw [held, List.countP_cons, List.countP_cons, Multiset.count_add, Multiset.count_sub,
        count_owned, count_owned]
      rw [count_owned] at hle
      simp only [decide_eq_true_eq]
      omega

/-- The discipline was kept at every earlier moment. -/
theorem Disciplined.earlier {later earlier : List ε} (hd : Disciplined access (later ++ earlier)) :
    Disciplined access earlier := by
  induction later with
  | nil => exact hd
  | cons e later ih => exact ih hd.2.2.2

/-- Every call was made on a handle that was held at the time. -/
theorem Disciplined.mem_held {later earlier : List ε} {e : ε} {h : η}
    (hd : Disciplined access (later ++ e :: earlier)) (hon : (access e).on = some h) :
    h ∈ held access earlier := hd.earlier.1 h hon

/-! ## Programs -/

variable (access)

/-- Calls that neither open nor close a handle of `F`. -/
def Spares (F : Multiset η) (calls : List ε) : Prop :=
  ∀ e ∈ calls, ∀ h ∈ F, (access e).opens ≠ some h ∧ (access e).closes ≠ some h

/-- `m` accounts for its handles: responsible for `S` before, it is responsible for
`T a` after returning `a`, and the handles `F` of everybody else are left alone. -/
def Accounts (S : Multiset η) (m : StateM (List ε) α) (T : α → Multiset η) : Prop :=
  ∀ (F : Multiset η) (log : List ε), Disciplined access log → held access log = F + S →
    Disciplined access (m.run log).2 ∧ held access (m.run log).2 = F + T (m.run log).1 ∧
    ∃ calls, (m.run log).2 = calls ++ log ∧ Spares access F calls

/-- A call: what it returns and what is logged may depend on the log so far. -/
def call (f : List ε → α × ε) : StateM (List ε) α := fun log => ((f log).1, (f log).2 :: log)

/-- Whatever the log, `m` returns a value with the property `P`. -/
def Returns (m : StateM (List ε) α) (P : α → Prop) : Prop := ∀ log, P (m.run log).1

theorem returns_pure {a : α} {P : α → Prop} (h : P a) : Returns (ε := ε) (pure a) P := fun _ => h

theorem returns_call {f : List ε → α × ε} {P : α → Prop} (h : ∀ log, P (f log).1) :
    Returns (call f) P := h

theorem Returns.bind {m : StateM (List ε) α} {f : α → StateM (List ε) β} {P : α → Prop}
    {Q : β → Prop} (hm : Returns m P) (hf : ∀ a, P a → Returns (f a) Q) : Returns (m >>= f) Q :=
  fun log => hf _ (hm log) _

theorem returns_bind {m : StateM (List ε) α} {f : α → StateM (List ε) β} {P : β → Prop}
    (hf : ∀ a, Returns (f a) P) : Returns (m >>= f) P := fun _ => hf _ _

variable {access} {S : Multiset η} {m : StateM (List ε) α} {T : α → Multiset η}

theorem accounts_pure {a : α} (h : S = T a) : Accounts access S (pure a) T := by
  intro F log hd hheld
  exact ⟨hd, h ▸ hheld, [], rfl, fun e he => by cases he⟩

/-- In sequence, where the second program may rely on what the first returns. -/
theorem Accounts.bind_of_returns {f : α → StateM (List ε) β} {U : β → Multiset η} {P : α → Prop}
    (hm : Accounts access S m T) (hP : Returns m P)
    (hf : ∀ a, P a → Accounts access (T a) (f a) U) : Accounts access S (m >>= f) U := by
  intro F log hd hheld
  obtain ⟨hd', hheld', calls, hcalls, hspares⟩ := hm F log hd hheld
  obtain ⟨hd'', hheld'', calls', hcalls', hspares'⟩ := hf _ (hP log) F _ hd' hheld'
  refine ⟨hd'', hheld'', calls' ++ calls, ?_, ?_⟩
  · rw [List.append_assoc, ← hcalls]
    exact hcalls'
  · intro e he
    rcases List.mem_append.1 he with he | he
    · exact hspares' e he
    · exact hspares e he

theorem Accounts.bind {f : α → StateM (List ε) β} {U : β → Multiset η} (hm : Accounts access S m T)
    (hf : ∀ a, Accounts access (T a) (f a) U) : Accounts access S (m >>= f) U :=
  hm.bind_of_returns (P := fun _ => True) (fun _ => trivial) fun a _ => hf a

/-- Handles that a program is not told about can be added to both sides. -/
theorem Accounts.frame (h : Accounts access S m T) (R : Multiset η) :
    Accounts access (R + S) m (fun a => R + T a) := by
  intro F log hd hheld
  obtain ⟨hd', hheld', calls, hcalls, hspares⟩ := h (F + R) log hd (by rw [hheld, add_assoc])
  refine ⟨hd', by rw [hheld', add_assoc], calls, hcalls, ?_⟩
  intro e he g hg
  exact hspares e he g (Multiset.mem_add.2 (.inl hg))

/-- The rule for a single call. -/
theorem accounts_call {f : List ε → α × ε}
    (hon : ∀ log h, (access (f log).2).on = some h → h ∈ S)
    (hopens : ∀ log h, (access (f log).2).opens = some h → h ∉ held access log)
    (hcloses : ∀ log, owned (access (f log).2).closes ≤ S)
    (hT : ∀ log, T (f log).1 = S - owned (access (f log).2).closes + owned (access (f log).2).opens) :
    Accounts access S (call f) T := by
  intro F log hd hheld
  have hle : S ≤ held access log := hheld ▸ Multiset.le_add_left S F
  have hapart : (F + S).Nodup := hheld ▸ nodup_held hd
  refine ⟨⟨fun h hh => Multiset.mem_of_le hle (hon log h hh), hopens log, (hcloses log).trans hle,
    hd⟩, ?_, [(f log).2], rfl, ?_⟩
  · change held access log - owned (access (f log).2).closes + owned (access (f log).2).opens
      = F + T (f log).1
    rw [hheld, hT, add_tsub_assoc_of_le (hcloses log), add_assoc]
  · intro e he g hg
    obtain rfl : e = (f log).2 := List.mem_singleton.1 he
    refine ⟨fun hopen => hopens log g hopen ?_, fun hclose => ?_⟩
    · rw [hheld]
      exact Multiset.mem_add.2 (.inl hg)
    · -- what is closed is the program's own
      have hown : g ∈ S := Multiset.mem_of_le (hcloses log) (mem_owned.2 hclose)
      exact Multiset.disjoint_left.1 (Multiset.nodup_add.1 hapart).2.2 hg hown

/-- A call that neither opens nor closes anything. -/
theorem accounts_call_on {f : List ε → α × ε}
    (hon : ∀ log h, (access (f log).2).on = some h → h ∈ S)
    (hopens : ∀ log, (access (f log).2).opens = none)
    (hcloses : ∀ log, (access (f log).2).closes = none) :
    Accounts access S (call f) (fun _ => S) := by
  refine accounts_call hon (fun log h hh => ?_) (fun log => ?_) (fun log => ?_)
  · rw [hopens log] at hh
    cases hh
  · rw [hcloses log]
    exact Multiset.zero_le S
  · rw [hcloses log, hopens log]
    simp

/-! ## Many owners -/

omit [DecidableEq η] in
/-- The handles of a row of owners, when the owner in slot `i` is looked at on its
own: the others hold `F`, and go on doing so when the owner changes. -/
theorem exists_frame (owner : σ → Multiset η) {slots : List σ} {i : Nat} {s : σ}
    (h : slots[i]? = some s) :
    ∃ F, (slots.map owner).sum = F + owner s ∧
      ∀ s', ((slots.set i s').map owner).sum = F + owner s' := by
  induction slots generalizing i with
  | nil => simp at h
  | cons t slots ih =>
      cases i with
      | zero =>
          obtain rfl : t = s := by simpa using h
          exact ⟨(slots.map owner).sum, by simp [add_comm], fun s' => by simp [add_comm]⟩
      | succ i =>
          obtain ⟨F, hF, hset⟩ := ih (by simpa using h)
          refine ⟨owner t + F, by simp [hF, add_assoc], fun s' => ?_⟩
          rw [List.set_cons_succ, List.map_cons, List.sum_cons, hset s', add_assoc]

omit [DecidableEq η] in
/-- The same for the owners in two slots. -/
theorem exists_frame_two (owner : σ → Multiset η) {slots : List σ} {i j : Nat} {s t : σ}
    (hne : i ≠ j) (hi : slots[i]? = some s) (hj : slots[j]? = some t) :
    ∃ F, (slots.map owner).sum = F + (owner s + owner t) ∧
      ∀ s' t', (((slots.set i s').set j t').map owner).sum = F + (owner s' + owner t') := by
  induction slots generalizing i j with
  | nil => simp at hi
  | cons u slots ih =>
      cases i with
      | zero =>
          cases j with
          | zero => exact absurd rfl hne
          | succ j =>
              obtain rfl : u = s := by simpa using hi
              have hj' : slots[j]? = some t := by simpa using hj
              obtain ⟨F, hF, hset⟩ := exists_frame owner hj'
              refine ⟨F, by simp [hF, add_left_comm], fun s' t' => ?_⟩
              rw [List.set_cons_zero, List.set_cons_succ, List.map_cons, List.sum_cons, hset,
                add_left_comm]
      | succ i =>
          cases j with
          | zero =>
              obtain rfl : u = t := by simpa using hj
              have hi' : slots[i]? = some s := by simpa using hi
              obtain ⟨F, hF, hset⟩ := exists_frame owner hi'
              refine ⟨F, by simp [hF, add_comm, add_left_comm], fun s' t' => ?_⟩
              rw [List.set_cons_succ, List.set_cons_zero, List.map_cons, List.sum_cons, hset,
                add_left_comm, add_comm (owner t')]
          | succ j =>
              obtain ⟨F, hF, hset⟩ := ih (fun h => hne (congrArg Nat.succ h)) (by simpa using hi)
                (by simpa using hj)
              refine ⟨owner u + F, by simp [hF, add_assoc], fun s' t' => ?_⟩
              rw [List.set_cons_succ, List.set_cons_succ, List.map_cons, List.sum_cons, hset s' t',
                add_assoc]

omit [DecidableEq η] in
/-- What a row of owners holds is held by one of them. -/
theorem mem_row {owner : σ → Multiset η} {slots : List σ} {h : η} :
    h ∈ (slots.map owner).sum ↔ ∃ (i : Nat) (s : σ), slots[i]? = some s ∧ h ∈ owner s := by
  have hbind : h ∈ (slots : Multiset σ).bind owner ↔ ∃ s ∈ (slots : Multiset σ), h ∈ owner s :=
    Multiset.mem_bind
  refine hbind.trans ⟨?_, ?_⟩
  · rintro ⟨s, hs, hh⟩
    obtain ⟨i, hi⟩ := List.mem_iff_getElem?.mp (Multiset.mem_coe.mp hs)
    exact ⟨i, s, hi, hh⟩
  · rintro ⟨i, s, hi, hh⟩
    exact ⟨s, Multiset.mem_coe.mpr (List.mem_of_getElem? hi), hh⟩

omit [DecidableEq η] in
/-- When nothing is held twice, no two slots hold the same handle. -/
theorem slot_unique {owner : σ → Multiset η} {slots : List σ} {i j : Nat} {s t : σ} {h : η}
    (hnodup : (slots.map owner).sum.Nodup) (hi : slots[i]? = some s) (hj : slots[j]? = some t)
    (hs : h ∈ owner s) (ht : h ∈ owner t) : i = j := by
  induction slots generalizing i j with
  | nil => simp at hi
  | cons u slots ih =>
      rw [List.map_cons, List.sum_cons, Multiset.nodup_add] at hnodup
      obtain ⟨-, hrest, hdisjoint⟩ := hnodup
      have hapart : ∀ {k : Nat} {v : σ}, slots[k]? = some v → h ∈ owner v → h ∉ owner u := by
        intro k v hk hv hu
        exact Multiset.disjoint_left.mp hdisjoint hu (mem_row.mpr ⟨k, v, hk, hv⟩)
      cases i with
      | zero =>
          cases j with
          | zero => rfl
          | succ j =>
              obtain rfl : u = s := by simpa using hi
              exact absurd hs (hapart (by simpa using hj) ht)
      | succ i =>
          cases j with
          | zero =>
              obtain rfl : u = t := by simpa using hj
              exact absurd ht (hapart (by simpa using hi) hs)
          | succ j => exact congrArg Nat.succ (ih hrest (by simpa using hi) (by simpa using hj))

end Custody
