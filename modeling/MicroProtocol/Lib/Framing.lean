import Mathlib

/-!
# Framing: cutting a stream into items as its bytes arrive

A *framer* looks at the bytes received so far and gives one of three verdicts:
the stream is unacceptable, more bytes are needed, or the first `n` bytes are a
complete item.  The laws of a `Framer` say that a verdict of the first or the
third kind is final: it does not depend on bytes that have not arrived yet, nor,
for a complete item, on any byte after the item.

Nothing more is needed for the facts a receiver relies on, whatever the format:

* `parse` — the items, the error if there is one, and the unread rest of a byte
  string.
* `parse_append` — **fragmentation independence**: parsing the first part,
  and then the rest of it together with the second part, is parsing the whole.
* `Underway` — the invariant of a receiver that takes items off a stream of
  which it has seen only a part.
* `needs_of_lt` — a proper beginning of a complete item is always
  recognised as incomplete, never refused and never taken for an item.
* `parse_take_flatten` — **cut streams**: a sequence of complete items that
  breaks off anywhere parses into exactly the items that arrived in full.
* `parse_of_isPrefix` — the same for a sequence in which the receiver refuses some of
  the items.
* `Agree`, `Agree.parse` — receivers of one format that differ in what they refuse as a
  matter of policy get the same items, as far as they get.
-/

namespace Framing

/-- What inspecting the bytes received so far can tell. -/
inductive Verdict (β ε : Type) where
  /-- No continuation makes the stream acceptable. -/
  | refused (error : ε)
  /-- Nothing can be said before `required` bytes are there. -/
  | needs (required : Nat)
  /-- The first `size` bytes are the item `item`. -/
  | ready (size : Nat) (item : β)

/-- A framer over bytes of type `α`, with items in `β` and errors in `ε`. -/
structure Framer (α β ε : Type) where
  /-- The verdict on the bytes received so far. -/
  inspect : List α → Verdict β ε
  /-- Nothing is decided before the first byte. -/
  nil_needs : ∃ r, inspect [] = .needs r
  /-- A refusal is final. -/
  refused_append : ∀ {q e}, inspect q = .refused e → ∀ s, inspect (q ++ s) = .refused e
  /-- Items are not empty. -/
  ready_pos : ∀ {q n b}, inspect q = .ready n b → 0 < n
  /-- A complete item has arrived in full. -/
  ready_le : ∀ {q n b}, inspect q = .ready n b → n ≤ q.length
  /-- A complete item depends on its own bytes only. -/
  ready_local : ∀ {q n b}, inspect q = .ready n b →
    ∀ t, t.take n = q.take n → inspect t = .ready n b

/-- The outcome of parsing a byte string to its end. -/
structure Parse (α β ε : Type) where
  items : List β
  error : Option ε
  rest : List α

namespace Framer

variable {α β ε : Type} (F : Framer α β ε)

theorem ready_append {q : List α} {n : Nat} {b : β} (h : F.inspect q = .ready n b) (s : List α) :
    F.inspect (q ++ s) = .ready n b :=
  F.ready_local h _ (List.take_append_of_le_length (F.ready_le h))

theorem length_drop_lt {q : List α} {n : Nat} {b : β} (h : F.inspect q = .ready n b) :
    (q.drop n).length < q.length := by
  have hpos := F.ready_pos h
  have hle := F.ready_le h
  rw [List.length_drop]
  omega

/-- A part that is not enough for an item is shorter than the item. -/
theorem lt_of_needs {q s : List α} {r n : Nat} {b : β} (hq : F.inspect q = .needs r)
    (h : F.inspect (q ++ s) = .ready n b) : q.length < n := by
  by_contra hge
  have hready := F.ready_local h q (List.take_append_of_le_length (by omega)).symm
  rw [hq] at hready
  cases hready

/-- Take items off the front until the bytes run out or are refused. -/
def parse (q : List α) : Parse α β ε :=
  match _h : F.inspect q with
  | .refused e => ⟨[], some e, q⟩
  | .needs _ => ⟨[], none, q⟩
  | .ready n b => ⟨b :: (parse (q.drop n)).items, (parse (q.drop n)).error, (parse (q.drop n)).rest⟩
termination_by q.length
decreasing_by all_goals exact F.length_drop_lt _h

theorem parse_refused {q : List α} {e : ε} (h : F.inspect q = .refused e) :
    F.parse q = ⟨[], some e, q⟩ := by
  rw [parse.eq_def, h]

theorem parse_needs {q : List α} {r : Nat} (h : F.inspect q = .needs r) :
    F.parse q = ⟨[], none, q⟩ := by
  rw [parse.eq_def, h]

theorem parse_ready {q : List α} {n : Nat} {b : β} (h : F.inspect q = .ready n b) :
    F.parse q = ⟨b :: (F.parse (q.drop n)).items, (F.parse (q.drop n)).error,
      (F.parse (q.drop n)).rest⟩ := by
  rw [parse.eq_def, h]

/-- To prove something of every byte string it is enough to prove it of the
refused and the incomplete ones, and of one that starts with an item whenever it
holds after that item. -/
theorem parse_induction {M : List α → Prop} (refused : ∀ q e, F.inspect q = .refused e → M q)
    (needs : ∀ q r, F.inspect q = .needs r → M q)
    (ready : ∀ q n b, F.inspect q = .ready n b → M (q.drop n) → M q) (q : List α) : M q := by
  induction hn : q.length using Nat.strong_induction_on generalizing q with
  | _ k ih =>
      cases h : F.inspect q with
      | refused e => exact refused q e h
      | needs r => exact needs q r h
      | ready n b =>
          refine ready q n b h (ih _ ?_ _ rfl)
          rw [← hn]
          exact F.length_drop_lt h

/-! ## Fragmentation -/

/-- An error found in a part of the stream is the error of the whole stream, and
hides whatever comes later. -/
theorem parse_append_of_error {q : List α} {e : ε} (h : (F.parse q).error = some e) (s : List α) :
    (F.parse (q ++ s)).items = (F.parse q).items ∧ (F.parse (q ++ s)).error = some e := by
  induction q using F.parse_induction with
  | refused q e' hq =>
      rw [F.parse_refused hq] at h
      rw [F.parse_refused (F.refused_append hq s), F.parse_refused hq]
      exact ⟨rfl, h⟩
  | needs q r hq =>
      rw [F.parse_needs hq] at h
      exact absurd h (by simp)
  | ready q n b hq ih =>
      rw [F.parse_ready hq] at h
      rw [F.parse_ready (F.ready_append hq s), F.parse_ready hq,
        List.drop_append_of_le_length (F.ready_le hq)]
      obtain ⟨hitems, herror⟩ := ih h
      exact ⟨by rw [hitems], herror⟩

/-- **Fragmentation independence.**  If the first part of a stream is free of
errors, parsing the whole stream is parsing that part and then its rest together
with the second part. -/
theorem parse_append {q : List α} (h : (F.parse q).error = none) (s : List α) :
    F.parse (q ++ s) = ⟨(F.parse q).items ++ (F.parse ((F.parse q).rest ++ s)).items,
      (F.parse ((F.parse q).rest ++ s)).error, (F.parse ((F.parse q).rest ++ s)).rest⟩ := by
  induction q using F.parse_induction with
  | refused q e hq =>
      rw [F.parse_refused hq] at h
      exact absurd h (by simp)
  | needs q r hq =>
      rw [F.parse_needs hq]
      rfl
  | ready q n b hq ih =>
      rw [F.parse_ready hq] at h ⊢
      rw [F.parse_ready (F.ready_append hq s), List.drop_append_of_le_length (F.ready_le hq), ih h]
      rfl

/-- An error ends the parse: whatever comes later is left over. -/
theorem parse_append_error {q : List α} {e : ε} (h : (F.parse q).error = some e) (s : List α) :
    F.parse (q ++ s) = ⟨(F.parse q).items, some e, (F.parse q).rest ++ s⟩ := by
  induction q using F.parse_induction with
  | refused q e' hq =>
      rw [F.parse_refused hq] at h
      cases h
      rw [F.parse_refused (F.refused_append hq s), F.parse_refused hq]
  | needs q r hq =>
      rw [F.parse_needs hq] at h
      exact absurd h (by simp)
  | ready q n b hq ih =>
      rw [F.parse_ready hq] at h
      rw [F.parse_ready (F.ready_append hq s), F.parse_ready hq,
        List.drop_append_of_le_length (F.ready_le hq), ih h]

/-- What is left over is never itself the beginning of an item. -/
theorem parse_rest {q : List α} (h : (F.parse q).error = none) :
    F.parse (F.parse q).rest = ⟨[], none, (F.parse q).rest⟩ := by
  induction q using F.parse_induction with
  | refused q e hq =>
      rw [F.parse_refused hq] at h
      exact absurd h (by simp)
  | needs q r hq =>
      rw [F.parse_needs hq]
      exact F.parse_needs hq
  | ready q n b hq ih =>
      rw [F.parse_ready hq] at h ⊢
      exact ih h

/-! ## Receivers -/

/-- A receiver of the stream `t` is on its way: the items `out` have been taken
off, and the bytes `q` are what is left to parse. -/
def Underway (t : List α) (out : List β) (q : List α) : Prop :=
  F.parse t = ⟨out ++ (F.parse q).items, (F.parse q).error, (F.parse q).rest⟩

theorem underway_start (t : List α) : F.Underway t [] t := rfl

/-- Taking off the item at the front.  The bytes `s` have not been seen yet. -/
theorem Underway.ready {F : Framer α β ε} {t q s : List α} {out : List β} {n : Nat} {b : β}
    (h : F.Underway t out (q ++ s)) (hq : F.inspect q = .ready n b) :
    F.Underway t (out ++ [b]) (q.drop n ++ s) := by
  unfold Underway at h ⊢
  rw [h, F.parse_ready (F.ready_append hq s), List.drop_append_of_le_length (F.ready_le hq),
    List.append_assoc]
  rfl

/-- More of the stream arrives. -/
theorem Underway.append {F : Framer α β ε} {t q : List α} {out : List β}
    (h : F.Underway t out q) (s : List α) : F.Underway (t ++ s) out (q ++ s) := by
  unfold Underway at h ⊢
  cases herror : (F.parse q).error with
  | some e =>
      have ht : (F.parse t).error = some e := by
        rw [h]
        exact herror
      rw [F.parse_append_error ht, F.parse_append_error herror, h]
  | none =>
      have ht : (F.parse t).error = none := by
        rw [h]
        exact herror
      rw [F.parse_append ht, F.parse_append herror, h, List.append_assoc]

/-- A receiver only refuses what is refusable: the whole stream has the error. -/
theorem Underway.refused {F : Framer α β ε} {t q s : List α} {out : List β} {e : ε}
    (h : F.Underway t out (q ++ s)) (hq : F.inspect q = .refused e) :
    (F.parse t).items = out ∧ (F.parse t).error = some e := by
  unfold Underway at h
  rw [h, F.parse_refused (F.refused_append hq s), List.append_nil]
  exact ⟨rfl, rfl⟩

/-- A receiver that has seen everything and waits for more has parsed the stream. -/
theorem Underway.needs {F : Framer α β ε} {t q : List α} {out : List β} {r : Nat}
    (h : F.Underway t out q) (hq : F.inspect q = .needs r) : F.parse t = ⟨out, none, q⟩ := by
  unfold Underway at h
  rw [h, F.parse_needs hq, List.append_nil]

/-! ## Cut streams -/

/-- A proper beginning of a complete item is recognised as incomplete. -/
theorem needs_of_lt {f : List α} {b : β} (hf : F.inspect f = .ready f.length b) {c : Nat}
    (hc : c < f.length) : ∃ r, F.inspect (f.take c) = .needs r := by
  cases h : F.inspect (f.take c) with
  | refused e =>
      have hwhole := F.refused_append h (f.drop c)
      rw [List.take_append_drop, hf] at hwhole
      cases hwhole
  | needs r => exact ⟨r, rfl⟩
  | ready n b' =>
      -- the verdict would be about the whole of `f`, which is longer
      have hle := F.ready_le h
      have hwhole := F.ready_append h (f.drop c)
      rw [List.take_append_drop, hf] at hwhole
      rw [List.length_take] at hle
      injection hwhole with hn _
      omega

/-- A complete item at the front of a stream is parsed first. -/
theorem parse_frame_append {f : List α} {b : β} (hf : F.inspect f = .ready f.length b)
    (s : List α) : F.parse (f ++ s) = ⟨b :: (F.parse s).items, (F.parse s).error,
      (F.parse s).rest⟩ := by
  rw [F.parse_ready (F.ready_append hf s), List.drop_left]

/-- **Cut streams.**  A stream of complete items, broken off after `c` bytes,
parses without error into exactly the items that lie inside those bytes, and
leaves the bytes of the one item that was cut. -/
theorem parse_take_flatten {frames : List (List α × β)}
    (hframes : ∀ fr ∈ frames, F.inspect fr.1 = .ready fr.1.length fr.2) {c : Nat}
    (hc : c ≤ (frames.map Prod.fst).flatten.length) :
    ∃ j ≤ frames.length,
      (F.parse ((frames.map Prod.fst).flatten.take c)).items = (frames.take j).map Prod.snd ∧
      (F.parse ((frames.map Prod.fst).flatten.take c)).error = none ∧
      (F.parse ((frames.map Prod.fst).flatten.take c)).rest.length +
        ((frames.take j).map Prod.fst).flatten.length = c ∧
      ∀ i < frames.length, i < j ↔ ((frames.take (i + 1)).map Prod.fst).flatten.length ≤ c := by
  induction frames generalizing c with
  | nil =>
      obtain ⟨r, hr⟩ := F.nil_needs
      have hc0 : c = 0 := by simpa using hc
      subst hc0
      refine ⟨0, le_rfl, ?_⟩
      rw [List.take_zero, F.parse_needs hr]
      simp
  | cons fr frames ih =>
      have hf : F.inspect fr.1 = .ready fr.1.length fr.2 := hframes fr (List.mem_cons_self ..)
      have hrest := fun a ha => hframes a (List.mem_cons_of_mem fr ha)
      rw [List.map_cons, List.flatten_cons] at hc ⊢
      rw [List.length_append] at hc
      by_cases hlen : fr.1.length ≤ c
      · -- the first item arrived in full; the cut is somewhere after it
        obtain ⟨j, hj, hitems, herror, hleft, hinside⟩ := ih hrest (c := c - fr.1.length) (by omega)
        have htake : (fr.1 ++ (frames.map Prod.fst).flatten).take c
            = fr.1 ++ (frames.map Prod.fst).flatten.take (c - fr.1.length) := by
          rw [List.take_append, List.take_of_length_le hlen]
        refine ⟨j + 1, by simpa using hj, ?_⟩
        rw [htake, F.parse_frame_append hf, List.take_succ_cons]
        refine ⟨by rw [hitems]; rfl, herror, ?_, ?_⟩
        · simp only [List.map_cons, List.flatten_cons, List.length_append]
          omega
        · intro i hi
          cases i with
          | zero => simpa using hlen
          | succ i =>
              have hi' : i < frames.length := by simpa using hi
              have := hinside i hi'
              simp only [List.take_succ_cons, List.map_cons, List.flatten_cons, List.length_append]
              omega
      · -- the cut is inside the first item
        have hlt : c < fr.1.length := not_le.1 hlen
        obtain ⟨r, hr⟩ := F.needs_of_lt hf hlt
        refine ⟨0, Nat.zero_le _, ?_⟩
        rw [List.take_append_of_le_length hlt.le, F.parse_needs hr]
        refine ⟨rfl, rfl, ?_, ?_⟩
        · simpa using hlt.le
        · intro i hi
          rw [List.take_succ_cons]
          simp only [List.map_cons, List.flatten_cons, List.length_append]
          omega

/-- **Streams that the receiver may refuse.**  Every item of the stream is either
complete for the receiver or refused by it once it is there.  Of any beginning of the
stream it takes the items up to some point.  If it stops with an error, the next item is
one that it refuses, for that reason; otherwise it has taken all items that arrived in
full. -/
theorem parse_of_isPrefix {frames : List (List α × β)}
    (hframes : ∀ fr ∈ frames, F.inspect fr.1 = .ready fr.1.length fr.2 ∨
      ∃ e, F.inspect fr.1 = .refused e)
    {t : List α} (ht : t <+: (frames.map Prod.fst).flatten) :
    ∃ j ≤ frames.length, (F.parse t).items = (frames.take j).map Prod.snd ∧
      (∀ e, (F.parse t).error = some e →
        ∃ fr, frames[j]? = some fr ∧ F.inspect fr.1 = .refused e) ∧
      ((F.parse t).error = none → ∀ i < frames.length,
        i < j ↔ ((frames.take (i + 1)).map Prod.fst).flatten.length ≤ t.length) := by
  induction frames generalizing t with
  | nil =>
      obtain ⟨r, hr⟩ := F.nil_needs
      obtain rfl : t = [] := List.prefix_nil.1 ht
      exact ⟨0, le_rfl, by simp [F.parse_needs hr], by simp [F.parse_needs hr], by simp⟩
  | cons fr frames ih =>
      have hfirst := hframes fr (List.mem_cons_self ..)
      rw [List.map_cons, List.flatten_cons] at ht
      by_cases hlen : fr.1.length ≤ t.length
      · -- the first item arrived in full
        obtain ⟨t', rfl⟩ : fr.1 <+: t := List.prefix_of_prefix_length_le
          (List.prefix_append ..) ht hlen
        rw [List.prefix_append_right_inj] at ht
        rcases hfirst with hready | ⟨e, hrefused⟩
        · obtain ⟨j, hj, hitems, herror, hinside⟩ :=
            ih (fun a ha => hframes a (List.mem_cons_of_mem fr ha)) ht
          refine ⟨j + 1, by simpa using hj, ?_⟩
          rw [F.parse_frame_append hready]
          refine ⟨by simp [hitems], by simpa using herror, ?_⟩
          intro hnone i hi
          cases i with
          | zero => simp
          | succ i =>
              have := hinside hnone i (by simpa using hi)
              simp only [List.take_succ_cons, List.map_cons, List.flatten_cons, List.length_append]
              omega
        · refine ⟨0, Nat.zero_le _, ?_⟩
          rw [F.parse_refused (F.refused_append hrefused t')]
          refine ⟨rfl, ?_, by simp⟩
          rintro _ ⟨⟩
          exact ⟨fr, rfl, hrefused⟩
      · -- the stream breaks off inside the first item
        have hcut : t <+: fr.1 := List.prefix_of_prefix_length_le ht (List.prefix_append ..)
          (not_le.1 hlen).le
        obtain ⟨s, hs⟩ := hcut
        have hnone : ∀ i < (fr :: frames).length, i < 0 ↔
            (((fr :: frames).take (i + 1)).map Prod.fst).flatten.length ≤ t.length := by
          intro i _
          simp only [List.take_succ_cons, List.map_cons, List.flatten_cons, List.length_append]
          omega
        refine ⟨0, Nat.zero_le _, ?_⟩
        cases h : F.inspect t with
        | needs r =>
            rw [F.parse_needs h]
            exact ⟨rfl, by simp, fun _ => hnone⟩
        | refused e =>
            rw [F.parse_refused h]
            refine ⟨rfl, ?_, by simp⟩
            rintro _ ⟨⟩
            exact ⟨fr, rfl, hs ▸ F.refused_append h s⟩
        | ready n b =>
            -- the verdict would be about the whole item, which is longer
            have hle := F.ready_le h
            have hwhole := F.ready_append h s
            rw [hs] at hwhole
            rcases hfirst with hready | ⟨e, hrefused⟩
            · rw [hready] at hwhole
              injection hwhole with hn _
              omega
            · rw [hrefused] at hwhole
              cases hwhole

/-! ## Receivers with policies of their own -/

/-- The items of a beginning are a beginning of the items. -/
theorem items_append (q s : List α) : (F.parse q).items <+: (F.parse (q ++ s)).items := by
  cases herror : (F.parse q).error with
  | some e => rw [(F.parse_append_of_error herror s).1]
  | none =>
      rw [F.parse_append herror s]
      exact List.prefix_append _ _

/-- Two framers that give the same verdict, unless one of them refuses the bytes with an
error that is a matter of its policy. -/
def Agree (policy policy' : ε → Prop) (F F' : Framer α β ε) : Prop :=
  ∀ q, F.inspect q = F'.inspect q ∨ (∃ e, F.inspect q = .refused e ∧ policy e) ∨
    ∃ e, F'.inspect q = .refused e ∧ policy' e

/-- Then they parse the same, or the one that stops earlier stops for its policy. -/
theorem Agree.parse {policy policy' : ε → Prop} {F F' : Framer α β ε}
    (h : Agree policy policy' F F') (q : List α) :
    F.parse q = F'.parse q ∨
      ((F.parse q).items <+: (F'.parse q).items ∧ ∃ e, (F.parse q).error = some e ∧ policy e) ∨
      ((F'.parse q).items <+: (F.parse q).items ∧ ∃ e, (F'.parse q).error = some e ∧ policy' e) := by
  induction q using F.parse_induction with
  | refused q e hq =>
      rcases h q with hsame | ⟨e', he', hpolicy⟩ | ⟨e', he', hpolicy⟩
      · rw [hq] at hsame
        exact .inl (by rw [F.parse_refused hq, F'.parse_refused hsame.symm])
      · rw [F.parse_refused he']
        exact .inr (.inl ⟨⟨_, rfl⟩, e', rfl, hpolicy⟩)
      · rw [F'.parse_refused he']
        exact .inr (.inr ⟨⟨_, rfl⟩, e', rfl, hpolicy⟩)
  | needs q r hq =>
      rcases h q with hsame | ⟨e', he', -⟩ | ⟨e', he', hpolicy⟩
      · rw [hq] at hsame
        exact .inl (by rw [F.parse_needs hq, F'.parse_needs hsame.symm])
      · rw [hq] at he'
        cases he'
      · rw [F'.parse_refused he']
        exact .inr (.inr ⟨⟨_, rfl⟩, e', rfl, hpolicy⟩)
  | ready q n b hq ih =>
      rcases h q with hsame | ⟨e', he', -⟩ | ⟨e', he', hpolicy⟩
      · rw [hq] at hsame
        rw [F.parse_ready hq, F'.parse_ready hsame.symm]
        rcases ih with hrest | ⟨hrest, herror⟩ | ⟨hrest, herror⟩
        · exact .inl (by rw [hrest])
        · exact .inr (.inl ⟨(List.prefix_cons_inj b).2 hrest, herror⟩)
        · exact .inr (.inr ⟨(List.prefix_cons_inj b).2 hrest, herror⟩)
      · rw [hq] at he'
        cases he'
      · rw [F'.parse_refused he']
        exact .inr (.inr ⟨⟨_, rfl⟩, e', rfl, hpolicy⟩)

end Framer
end Framing
