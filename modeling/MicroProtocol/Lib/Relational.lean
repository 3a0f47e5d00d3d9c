import MicroProtocol.Lib.Custody

/-!
# Two programs in step

Two programs that do the same on interfaces of their own: what one returns and leaves
behind is related to what the other does.

* `Sim s t m m' Q` — started in the states `s` and `t`, the programs end with values and
  states that are related by `Q`; `sim_pure`, `Sim.bind` and `sim_call` are the rules.
* `Partner` — the two interfaces number their handles as they like, so a handle of one
  corresponds to the handle of the other that was opened by the same call.  Partners are
  held, and remain partners until one of them is closed.
-/

namespace Relational

open Custody

variable {σ τ ε η α β γ δ : Type}

/-! ## Programs -/

/-- Started in `s` and `t`, the programs end in `Q`. -/
def Sim (s : σ) (t : τ) (m : StateM σ α) (m' : StateM τ β) (Q : α → β → σ → τ → Prop) : Prop :=
  Q (m.run s).1 (m'.run t).1 (m.run s).2 (m'.run t).2

variable {s : σ} {t : τ} {m : StateM σ α} {m' : StateM τ β} {Q : α → β → σ → τ → Prop}

theorem sim_pure {a : α} {b : β} (h : Q a b s t) : Sim s t (pure a) (pure b) Q := h

theorem Sim.bind {f : α → StateM σ γ} {f' : β → StateM τ δ} {Q' : γ → δ → σ → τ → Prop}
    (h : Sim s t m m' Q) (hf : ∀ a b s t, Q a b s t → Sim s t (f a) (f' b) Q') :
    Sim s t (m >>= f) (m' >>= f') Q' := hf _ _ _ _ h

/-- Two calls, each logged by its own side. -/
theorem sim_call {log log' : List ε} {f f' : List ε → α × ε} {Q : α → α → List ε → List ε → Prop}
    (h : Q (f log).1 (f' log').1 ((f log).2 :: log) ((f' log').2 :: log')) :
    Sim log log' (call f) (call f') Q := h

/-! ## Partners -/

section Partners

variable [DecidableEq η] (access : ε → Access η)

/-- The call that opened the handle, counted from the start, as long as it is held. -/
def birth : List ε → η → Option Nat
  | [], _ => none
  | e :: log, h =>
      if (access e).opens = some h then some log.length
      else if (access e).closes = some h then none
      else birth log h

/-- The handles were opened by the same call, and both are held. -/
def Partner (log log' : List ε) (h h' : η) : Prop :=
  ∃ n, birth access log h = some n ∧ birth access log' h' = some n

variable {access} {log log' : List ε} {h h' : η}

theorem birth_cons_of_spared {e : ε} (hopens : (access e).opens ≠ some h)
    (hcloses : (access e).closes ≠ some h) : birth access (e :: log) h = birth access log h := by
  rw [birth, if_neg hopens, if_neg hcloses]

theorem birth_append_of_spares {F : Multiset η} {calls : List ε} (hspares : Spares access F calls)
    (hmem : h ∈ F) : birth access (calls ++ log) h = birth access log h := by
  induction calls with
  | nil => rfl
  | cons e calls ih =>
      obtain ⟨hopens, hcloses⟩ := hspares e List.mem_cons_self h hmem
      rw [List.cons_append, birth_cons_of_spared hopens hcloses]
      exact ih fun e he => hspares e (List.mem_cons_of_mem _ he)

theorem mem_held_of_birth {n : Nat} (hbirth : birth access log h = some n) :
    h ∈ held access log := by
  induction log with
  | nil => cases hbirth
  | cons e log ih =>
      unfold birth at hbirth
      split_ifs at hbirth with hopens hcloses
      · exact Multiset.mem_add.2 (.inr (mem_owned.2 hopens))
      · have hnot : h ∉ owned (access e).closes := fun hmem => hcloses (mem_owned.1 hmem)
        have hless : h ∈ held access log - owned (access e).closes := by
          rw [← Multiset.count_pos, Multiset.count_sub, Multiset.count_eq_zero_of_notMem hnot]
          exact Multiset.count_pos.2 (ih hbirth)
        exact Multiset.mem_add.2 (.inl hless)

theorem Partner.mem_held (hp : Partner access log log' h h') :
    h ∈ held access log ∧ h' ∈ held access log' := by
  obtain ⟨n, hn, hn'⟩ := hp
  exact ⟨mem_held_of_birth hn, mem_held_of_birth hn'⟩

/-- Calls that spare the one and calls that spare the other. -/
theorem Partner.append {F F' : Multiset η} {calls calls' : List ε}
    (hp : Partner access log log' h h') (hspares : Spares access F calls) (hmem : h ∈ F)
    (hspares' : Spares access F' calls') (hmem' : h' ∈ F') :
    Partner access (calls ++ log) (calls' ++ log') h h' := by
  obtain ⟨n, hn, hn'⟩ := hp
  exact ⟨n, by rw [birth_append_of_spares hspares hmem, hn],
    by rw [birth_append_of_spares hspares' hmem', hn']⟩

theorem Partner.cons {e e' : ε} (hp : Partner access log log' h h')
    (hopens : (access e).opens ≠ some h) (hcloses : (access e).closes ≠ some h)
    (hopens' : (access e').opens ≠ some h') (hcloses' : (access e').closes ≠ some h') :
    Partner access (e :: log) (e' :: log') h h' := by
  obtain ⟨n, hn, hn'⟩ := hp
  exact ⟨n, by rw [birth_cons_of_spared hopens hcloses, hn],
    by rw [birth_cons_of_spared hopens' hcloses', hn']⟩

/-- What one call opens on both sides. -/
theorem partner_of_opens {e e' : ε} (hlength : log.length = log'.length)
    (hopens : (access e).opens = some h) (hopens' : (access e').opens = some h') :
    Partner access (e :: log) (e' :: log') h h' :=
  ⟨log.length, if_pos hopens, by rw [hlength]; exact if_pos hopens'⟩

end Partners

end Relational
