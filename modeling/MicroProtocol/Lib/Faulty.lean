import Mathlib

/-!
# Methods that ask for memory

A method works on an object and asks for memory.  A request that is refused makes it throw:
the method ends there, and its object stays in the state it had at that moment.  Which
requests are refused is up to `grants`, that is told the request and those before it.

* `Faulty`, `allocate`, `attempt` — the methods.
* `Performs` — what a call asks for, what it returns if everything is granted, and what is
  true of the object if something is refused.
* `Performs.bind` and so on — the rules for programs.
* `Computes` — methods that leave the object alone.
-/

/-- A method of an object of type `σ` with requests in `ε`: from the object and the requests so
far, the newest first, to what it returns, unless it throws, the object and the requests. -/
structure Faulty (ε σ α : Type) where
  run : (grants : ε → List ε → Bool) → σ → List ε → Option α × σ × List ε

namespace Faulty

variable {ε σ α β : Type}

instance : Monad (Faulty ε σ) where
  pure a := ⟨fun _ s log => (some a, s, log)⟩
  bind m f := ⟨fun grants s log =>
    let r := m.run grants s log
    match r.1 with
    | some a => (f a).run grants r.2.1 r.2.2
    | none => (none, r.2)⟩

/-- The object. -/
def get : Faulty ε σ σ := ⟨fun _ s log => (some s, s, log)⟩

/-- Change the object. -/
def modify (f : σ → σ) : Faulty ε σ Unit := ⟨fun _ s log => (some (), f s, log)⟩

/-- Ask for memory. -/
def allocate (e : ε) : Faulty ε σ Unit :=
  ⟨fun grants s log => (if grants e log then some () else none, s, e :: log)⟩

/-- Call the method and catch what it throws. -/
def attempt (m : Faulty ε σ α) : Faulty ε σ (Option α) := ⟨fun grants s log =>
  (some (m.run grants s log).1, (m.run grants s log).2)⟩

section Runs

variable {grants : ε → List ε → Bool} {s s' : σ} {log log' : List ε} {m : Faulty ε σ α}

theorem run_bind_of_some {a : α} (h : m.run grants s log = (some a, s', log'))
    (f : α → Faulty ε σ β) : (m >>= f).run grants s log = (f a).run grants s' log' := by
  simp only [Bind.bind, h]

theorem run_bind_of_none (h : m.run grants s log = (none, s', log')) (f : α → Faulty ε σ β) :
    (m >>= f).run grants s log = (none, s', log') := by
  simp only [Bind.bind, h]

end Runs

/-! ## Requests -/

/-- All requests of the list are granted, in their order, after those of the log. -/
def Granted (grants : ε → List ε → Bool) (log : List ε) : List ε → Prop
  | [] => True
  | e :: earlier => Granted grants log earlier ∧ grants e (earlier ++ log) = true

theorem granted_append {grants : ε → List ε → Bool} {log later earlier : List ε} :
    Granted grants log (later ++ earlier) ↔
      Granted grants log earlier ∧ Granted grants (earlier ++ log) later := by
  induction later with
  | nil => simp [Granted]
  | cons e later ih => simp only [List.cons_append, Granted, ih, List.append_assoc, and_assoc]

theorem Granted.of_suffix {grants : ε → List ε → Bool} {log requests earlier : List ε} {e : ε}
    (h : Granted grants log requests) (hsuffix : e :: earlier <:+ requests) :
    grants e (earlier ++ log) = true := by
  obtain ⟨later, rfl⟩ := hsuffix
  exact (granted_append.1 h).1.2

theorem granted_always (log requests : List ε) : Granted (fun _ _ => true) log requests := by
  induction requests with
  | nil => trivial
  | cons e requests ih => exact ⟨ih, rfl⟩

/-! ## What a method does -/

/-- Called on `s`, the method asks for `requests`, of which the last one is the first in the
list.  If they are granted, it returns `a` and leaves `s'`.  Otherwise it throws at the first
that is refused, and leaves something that satisfies `E`. -/
structure Performs (m : Faulty ε σ α) (s : σ) (a : α) (s' : σ) (requests : List ε)
    (E : σ → Prop) : Prop where
  returned : ∀ {grants log}, Granted grants log requests →
    m.run grants s log = (some a, s', requests ++ log)
  thrown : ∀ {grants log}, ¬ Granted grants log requests →
    ∃ e earlier left, e :: earlier <:+ requests ∧ grants e (earlier ++ log) = false ∧
      m.run grants s log = (none, left, e :: (earlier ++ log)) ∧ E left

section Rules

variable {m : Faulty ε σ α} {s s' s'' : σ} {a : α} {b : β} {requests later all : List ε}
  {E : σ → Prop}

theorem performs_pure : Performs (pure a : Faulty ε σ α) s a s [] E :=
  ⟨fun _ => rfl, fun h => absurd trivial h⟩

theorem performs_modify {g : σ → σ} : Performs (modify g : Faulty ε σ Unit) s () (g s) [] E :=
  ⟨fun _ => rfl, fun h => absurd trivial h⟩

theorem performs_allocate {e : ε} (hE : E s) : Performs (allocate e) s () s [e] E := by
  refine ⟨fun {grants log} h => ?_, fun {grants log} h => ?_⟩
  · have hgranted : grants e log = true := h.2
    simp [allocate, hgranted]
  · have hrefused : grants e log = false := by simpa [Granted] using h
    exact ⟨e, [], s, List.suffix_refl _, hrefused, by simp [allocate, hrefused], hE⟩

theorem Performs.bind {f : α → Faulty ε σ β} (h : Performs m s a s' requests E)
    (hf : Performs (f a) s' b s'' later E) (hlater : later ++ requests = all) :
    Performs (m >>= f) s b s'' all E := by
  subst hlater
  refine ⟨fun {grants log} hall => ?_, fun {grants log} hnot => ?_⟩
  · obtain ⟨hfirst, hrest⟩ := granted_append.1 hall
    rw [run_bind_of_some (h.returned hfirst), hf.returned hrest, List.append_assoc]
  · by_cases hfirst : Granted grants log requests
    · have hrest : ¬ Granted grants (requests ++ log) later :=
        fun hlater => hnot (granted_append.2 ⟨hfirst, hlater⟩)
      obtain ⟨e, earlier, left, ⟨rest, rfl⟩, hrefused, hrun, hE⟩ := hf.thrown hrest
      refine ⟨e, earlier ++ requests, left, ⟨rest, by simp⟩, ?_, ?_, hE⟩
      · rwa [List.append_assoc]
      · rw [run_bind_of_some (h.returned hfirst), hrun, List.append_assoc]
    · obtain ⟨e, earlier, left, ⟨rest, rfl⟩, hrefused, hrun, hE⟩ := h.thrown hfirst
      exact ⟨e, earlier, left, ⟨later ++ rest, by simp⟩, hrefused, run_bind_of_none hrun f, hE⟩

/-- Looking at the object, and going on. -/
theorem performs_get_bind {f : σ → Faulty ε σ β} (h : Performs (f s) s b s' requests E) :
    Performs (get >>= f) s b s' requests E :=
  ⟨fun hall => h.returned hall, fun hnot => h.thrown hnot⟩

/-- Changing the object, and going on. -/
theorem performs_modify_bind {g : σ → σ} {f : Unit → Faulty ε σ β}
    (h : Performs (f ()) (g s) b s' requests E) :
    Performs (modify g >>= f) s b s' requests E :=
  ⟨fun hall => h.returned hall, fun hnot => h.thrown hnot⟩

/-- **A method throws exactly if a request that it made was refused.** -/
theorem Performs.throws_iff (h : Performs m s a s' requests E) (grants : ε → List ε → Bool)
    (log : List ε) :
    ∃ made, (m.run grants s log).2.2 = made ++ log ∧
      ((m.run grants s log).1 = none ↔
        ∃ e earlier, e :: earlier <:+ made ∧ grants e (earlier ++ log) = false) := by
  by_cases hall : Granted grants log requests
  · rw [h.returned hall]
    refine ⟨requests, rfl, iff_of_false (by simp) ?_⟩
    rintro ⟨e, earlier, hsuffix, hrefused⟩
    rw [hall.of_suffix hsuffix] at hrefused
    cases hrefused
  · obtain ⟨e, earlier, left, -, hrefused, hrun, -⟩ := h.thrown hall
    rw [hrun]
    exact ⟨e :: earlier, rfl, fun _ => ⟨e, earlier, List.suffix_refl _, hrefused⟩, fun _ => rfl⟩

end Rules

/-! ## Methods that only compute -/

/-- On every object, the method asks for `requests`, leaves the object alone, and returns `a`
unless it throws. -/
def Computes (m : Faulty ε σ α) (a : α) (requests : List ε) : Prop :=
  ∀ (s : σ) (E : σ → Prop), E s → Performs m s a s requests E

section Computes

variable {m : Faulty ε σ α} {a : α} {b : β} {requests later all : List ε}

theorem computes_pure : Computes (pure a : Faulty ε σ α) a [] := fun _ _ _ => performs_pure

theorem computes_allocate {e : ε} : Computes (allocate e : Faulty ε σ Unit) () [e] :=
  fun _ _ hE => performs_allocate hE

theorem Computes.bind {f : α → Faulty ε σ β} (h : Computes m a requests)
    (hf : Computes (f a) b later) (hlater : later ++ requests = all) :
    Computes (m >>= f) b all :=
  fun s E hE => (h s E hE).bind (hf s E hE) hlater

/-- A method with a single request. -/
theorem Computes.run_one {e : ε} (h : Computes m a [e]) (grants : ε → List ε → Bool) (s : σ)
    (log : List ε) :
    m.run grants s log = (if grants e log then some a else none, s, e :: log) := by
  have hperforms := h s (· = s) rfl
  cases hgrants : grants e log with
  | true => exact hperforms.returned ⟨trivial, hgrants⟩
  | false =>
      have hnot : ¬ Granted grants log [e] := fun hall => by
        rw [show grants e log = true from hall.2] at hgrants
        cases hgrants
      obtain ⟨e', earlier, left, hsuffix, -, hrun, rfl⟩ := hperforms.thrown hnot
      obtain ⟨rfl, rfl⟩ : e' = e ∧ earlier = [] := by
        rcases List.suffix_cons_iff.1 hsuffix with heq | hnil
        · exact List.cons.inj heq
        · exact absurd (List.suffix_nil.1 hnil) (List.cons_ne_nil _ _)
      exact hrun

end Computes

end Faulty
