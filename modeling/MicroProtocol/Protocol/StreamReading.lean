import MicroProtocol.Protocol.StreamDelivery

/-!
# Reading a stream as it arrives

A session that is offered its bytes little by little, with no promise about what they
are.  `Session.Reads` is its invariant: what it delivered, what its decoder holds and what
it has still to push is what parsing all the bytes offered so far gives, and an error it
answered is the error of those bytes.

A session whose bytes have no error can always come to rest, `Reads.settles`, unless it was
offered a chunk that its buffer has no room for.

When the bytes are frames, made under the limits of somebody else, `parse_beginning` says
what parsing any beginning of them gives.
-/

namespace Vosp
namespace Protocol

open FrameCodec StreamDecoder

variable {p : Platform}

/-! ## Frames under the limits of the receiver -/

/-- A receiver takes a frame that fits its limits and refuses any other, on its header. -/
theorem verdict_wireLayout_cases {L : Limits p} (hL : L.Valid) {m : Message}
    (hm : Representable m) :
    Fits L m ∧ verdict L (wireLayout m) = .ready (wireLayout m).length m ∨
      ¬ Fits L m ∧ ∃ e, verdict L (wireLayout m) = .refused e ∧ e.code = .limitExceeded := by
  by_cases hfits : Fits L m
  · exact .inl ⟨hfits, verdict_wireLayout hL hfits⟩
  obtain ⟨e, he, hcode⟩ := decodePrefix_of_not_fits hL hm hfits []
  rw [List.append_nil] at he
  refine .inr ⟨hfits, e, ?_, hcode⟩
  cases hprobe : probe L (wireLayout m) with
  | error e' =>
      rw [decodePrefix_of_error hprobe] at he
      cases he
      exact verdict_of_error hprobe
  | ok r =>
      -- neither outcome of a probe goes with the error
      cases hstate : r.state with
      | incomplete =>
          rw [decodePrefix_of_incomplete hprobe hstate] at he
          cases he
          cases hcode
      | ready =>
          obtain ⟨hcomplete, -⟩ := (probe_ready_iff hL).1 ⟨hprobe, hstate⟩
          rw [decodePrefix_of_complete hL hcomplete] at he
          cases he

/-- Any beginning of a stream of frames, parsed under the limits of the receiver. -/
theorem parse_beginning {L : Limits p} (hL : L.Valid) {messages : List Message}
    (hm : ∀ m ∈ messages, Representable m) {t : List UInt8}
    (ht : t <+: (messages.map wireLayout).flatten) :
    ∃ j ≤ messages.length, ((framer L hL).parse t).items = messages.take j ∧
      (∀ e, ((framer L hL).parse t).error = some e →
        ∃ m, messages[j]? = some m ∧ ¬ Fits L m ∧ e.code = .limitExceeded) ∧
      (((framer L hL).parse t).error = none → ∀ i < messages.length,
        i < j ↔ ((messages.take (i + 1)).map wireLayout).flatten.length ≤ t.length) := by
  -- the library speaks of pairs of an item and its bytes
  have hbytes : ∀ ms : List Message,
      (ms.map fun m => (wireLayout m, m)).map Prod.fst = ms.map wireLayout := by
    simp [Function.comp_def]
  have hitems : ∀ ms : List Message, (ms.map fun m => (wireLayout m, m)).map Prod.snd = ms := by
    simp [Function.comp_def]
  have hframes : ∀ fr ∈ messages.map fun m => (wireLayout m, m),
      (framer L hL).inspect fr.1 = .ready fr.1.length fr.2 ∨
        ∃ e, (framer L hL).inspect fr.1 = .refused e := by
    intro fr hfr
    obtain ⟨m, hmem, rfl⟩ := List.mem_map.1 hfr
    rcases verdict_wireLayout_cases hL (hm m hmem) with ⟨-, hready⟩ | ⟨-, e, hrefused, -⟩
    · exact .inl hready
    · exact .inr ⟨e, hrefused⟩
  obtain ⟨j, hj, hparse, herror, hinside⟩ :=
    (framer L hL).parse_of_isPrefix hframes (t := t) (by rwa [hbytes])
  simp only [← List.map_take, hbytes, hitems, List.length_map, List.getElem?_map] at *
  refine ⟨j, hj, hparse, ?_, hinside⟩
  intro e he
  obtain ⟨fr, hfr, hrefused⟩ := herror e he
  obtain ⟨m, hget, rfl⟩ := Option.map_eq_some_iff.1 hfr
  have hmem : m ∈ messages := List.mem_of_getElem? hget
  rcases verdict_wireLayout_cases hL (hm m hmem) with ⟨-, hready⟩ | ⟨hfits, e', he', hcode⟩
  · rw [framer_inspect, hready] at hrefused
    cases hrefused
  · rw [framer_inspect, he'] at hrefused
    cases hrefused
    exact ⟨m, hget, hfits, hcode⟩

namespace Session

/-- A chunk has arrived, to be pushed after those before it. -/
def offer (s : Session p) (chunk : List UInt8) : Session p :=
  { s with pending := s.pending ++ [chunk] }

/-- The session has been offered the bytes `t`: what it delivered, holds and has still to push
is what parsing `t` gives, and an answer that is an error stands for good. -/
structure Reads (L : Limits p) (hL : L.Valid) (t : List UInt8) (s : Session p) : Prop where
  limits_eq : s.decoder.limits = L
  tidy : s.decoder.Tidy
  underway : (framer L hL).Underway t s.delivered (s.decoder.unread ++ s.pending.flatten)
  error_eq : ∀ e, Except.error e ∈ s.answers → verdict L s.decoder.unread = .refused e

theorem reads_start (L : Limits p) (hL : L.Valid) : Reads L hL [] (start L []) :=
  ⟨rfl, tidy_init L, (framer L hL).underway_start _, by simp [start]⟩

variable {L : Limits p} {hL : L.Valid} {t : List UInt8} {s : Session p}

theorem Reads.offer (h : Reads L hL t s) (chunk : List UInt8) :
    Reads L hL (t ++ chunk) (s.offer chunk) := by
  refine ⟨h.limits_eq, h.tidy, ?_, h.error_eq⟩
  have hmore := h.underway.append chunk
  rwa [List.append_assoc, ← List.flatten_concat] at hmore

/-- A push, accepted or not, leaves the bytes of the stream where they are. -/
theorem Reads.push (h : Reads L hL t s) : Reads L hL t (s.turn .push) := by
  obtain ⟨rfl, htidy, hunder, herrors⟩ := h
  cases hpending : s.pending with
  | nil =>
      rw [turn_push_nil hpending]
      exact ⟨rfl, htidy, hunder, herrors⟩
  | cons chunk rest =>
      have hqueue := actsAsQueue_of_tidy htidy
      obtain ⟨-, -, hlimits, htidy'⟩ := push_spec htidy chunk
      have hok := hqueue.unread_of_push chunk
      have hfail := hqueue.push_error chunk
      rw [hpending, List.flatten_cons] at hunder
      cases hpush : s.decoder.push chunk with
      | mk answer decoder =>
          rw [hpush] at hlimits htidy' hok hfail
          cases answer with
          | ok u =>
              rw [turn_push_accepted hpending hpush]
              have hunread : decoder.unread = s.decoder.unread ++ chunk := hok rfl
              refine ⟨hlimits, htidy', ?_, fun e he => ?_⟩
              · rw [hunread, List.append_assoc]
                exact hunder
              · rw [hunread]
                exact (framer _ hL).refused_append (herrors e he) chunk
          | error e =>
              rw [turn_push_refused hpending hpush]
              have hunread : decoder.unread = s.decoder.unread := (hfail e rfl).1
              refine ⟨hlimits, htidy', ?_, fun e' he => ?_⟩
              · rw [hunread, List.flatten_cons]
                exact hunder
              · rw [hunread]
                exact herrors e' he

/-- Whatever `next()` answers, it is what parsing the bytes gives next. -/
theorem Reads.next (h : Reads L hL t s) : Reads L hL t (s.turn .next) := by
  obtain ⟨hlimits, htidy, hunder, herrors⟩ := h
  obtain ⟨hanswers, hunread, hlimits', htidy', hpending⟩ := turn_next_eq hlimits htidy hL
  cases hverdict : verdict L s.decoder.unread with
  | refused e =>
      rw [hverdict] at hanswers hunread
      refine ⟨hlimits', htidy', ?_, fun e' he => ?_⟩
      · rw [delivered, hanswers, messagesOf_append, hunread, hpending]
        change (framer L hL).Underway t (s.delivered ++ []) _
        rw [List.append_nil]
        exact hunder
      · rw [hunread]
        rw [hanswers, List.mem_append, List.mem_singleton] at he
        rcases he with he | he
        · exact herrors e' he
        · cases he
          exact hverdict
  | needs r =>
      rw [hverdict] at hanswers hunread
      refine ⟨hlimits', htidy', ?_, fun e' he => ?_⟩
      · rw [delivered, hanswers, messagesOf_append, hunread, hpending]
        change (framer L hL).Underway t (s.delivered ++ []) _
        rw [List.append_nil]
        exact hunder
      · rw [hunread]
        have he' : Except.error e' ∈ s.answers := by
          simpa [hanswers, ByteQueue.ofVerdict] using he
        exact herrors e' he'
  | ready n m =>
      rw [hverdict] at hanswers hunread
      refine ⟨hlimits', htidy', ?_, fun e' he => ?_⟩
      · rw [delivered, hanswers, messagesOf_append, hunread, hpending]
        exact hunder.ready hverdict
      · have he' : Except.error e' ∈ s.answers := by
          simpa [hanswers, ByteQueue.ofVerdict] using he
        rw [herrors e' he'] at hverdict
        cases hverdict

theorem Reads.turn (h : Reads L hL t s) (turn : Turn) : Reads L hL t (s.turn turn) := by
  cases turn with
  | push => exact h.push
  | next => exact h.next

theorem Reads.run (h : Reads L hL t s) (turns : List Turn) : Reads L hL t (s.run turns) := by
  induction turns generalizing s with
  | nil => exact h
  | cons turn turns ih => exact ih (h.turn turn)

/-- What was delivered is the beginning of what parsing gives. -/
theorem Reads.delivered_prefix (h : Reads L hL t s) :
    s.delivered <+: ((framer L hL).parse t).items :=
  ⟨_, (congrArg Framing.Parse.items h.underway).symm⟩

/-- After an error the rest of the bytes gives nothing more. -/
theorem Reads.parse_of_error (h : Reads L hL t s) {e : Error} (he : Except.error e ∈ s.answers) :
    ((framer L hL).parse t).items = s.delivered ∧ ((framer L hL).parse t).error = some e :=
  h.underway.refused (h.error_eq e he)

/-- When everything is pushed and `next()` has nothing to return, all of it was delivered. -/
theorem Reads.parse_of_waiting (h : Reads L hL t s) (hpending : s.pending = [])
    (hnext : s.decoder.next.1 = .ok none) :
    (framer L hL).parse t = ⟨s.delivered, none, s.decoder.unread⟩ := by
  rw [(next_spec h.tidy).1, h.limits_eq] at hnext
  obtain ⟨r, hr⟩ := (ByteQueue.next_none_iff hL).1 hnext
  have hunder := h.underway
  rw [hpending, List.flatten_nil, List.append_nil] at hunder
  exact hunder.needs hr

/-! ## Coming to rest -/

theorem run_append (s : Session p) (turns turns' : List Turn) :
    s.run (turns ++ turns') = (s.run turns).run turns' := List.foldl_append

/-- Bytes without an error are drained by calling `next()` often enough. -/
theorem Reads.drains (h : Reads L hL t s) (herror : ((framer L hL).parse t).error = none) :
    ∃ turns, (s.run turns).decoder.next.1 = .ok none ∧ (s.run turns).pending = s.pending := by
  induction hn : s.decoder.unread.length using Nat.strong_induction_on generalizing s with
  | _ n ih =>
      obtain ⟨-, hunread, -, -, hpending⟩ := turn_next_eq h.limits_eq h.tidy hL
      cases hverdict : verdict L s.decoder.unread with
      | refused e =>
          obtain ⟨-, hrefused⟩ := h.underway.refused hverdict
          rw [herror] at hrefused
          cases hrefused
      | needs r =>
          refine ⟨[], ?_, rfl⟩
          rw [run_nil, (next_spec h.tidy).1, h.limits_eq]
          exact (ByteQueue.next_none_iff hL).2 ⟨r, hverdict⟩
      | ready k m =>
          rw [hverdict] at hunread
          have hlt : (s.turn .next).decoder.unread.length < n := by
            rw [hunread, ← hn]
            exact (framer L hL).length_drop_lt hverdict
          obtain ⟨turns, hnext, hrest⟩ := ih _ hlt h.next rfl
          exact ⟨.next :: turns, hnext, hrest.trans hpending⟩

/-- A session that waits for more takes a chunk that leaves room for one frame but a byte. -/
theorem Reads.accepts (h : Reads L hL t s) (hnext : s.decoder.next.1 = .ok none)
    {chunk : List UInt8} {rest : List (List UInt8)} (hpending : s.pending = chunk :: rest)
    (hchunk : chunk.length + L.maxFrameSize ≤ L.maxBufferedBytes + 1) :
    (s.turn .push).pending = rest := by
  rw [(next_spec h.tidy).1, h.limits_eq] at hnext
  obtain ⟨r, hneeds⟩ := (ByteQueue.next_none_iff hL).1 hnext
  obtain ⟨inspected, hprobe, hstate, -⟩ := (verdict_needs_iff hL).1 hneeds
  have hwaiting := probe_incomplete hL hprobe hstate
  have hqueue := actsAsQueue_of_tidy h.tidy
  rw [h.limits_eq] at hqueue
  have hok : (s.decoder.push chunk).1 = .ok () :=
    (hqueue.push_ok_iff chunk).2 ⟨(Limits.valid_iff L).2 hL, by omega⟩
  rw [turn_push_accepted hpending (Prod.ext hok rfl)]

/-- **Coming to rest.**  Some pushes and calls of `next()` leave nothing to be pushed and nothing
to be returned. -/
theorem Reads.settles (h : Reads L hL t s) (herror : ((framer L hL).parse t).error = none)
    (hchunks : ∀ chunk ∈ s.pending, chunk.length + L.maxFrameSize ≤ L.maxBufferedBytes + 1) :
    ∃ turns, (s.run turns).pending = [] ∧ (s.run turns).decoder.next.1 = .ok none := by
  induction hpending : s.pending generalizing s with
  | nil =>
      obtain ⟨turns, hnext, hrest⟩ := h.drains herror
      exact ⟨turns, hrest.trans hpending, hnext⟩
  | cons chunk rest ih =>
      obtain ⟨turns, hnext, hsame⟩ := h.drains herror
      have hpushed := (h.run turns).accepts hnext (hsame.trans hpending)
        (hchunks chunk (hpending ▸ List.mem_cons_self ..))
      obtain ⟨turns', hdone⟩ := ih (h.run turns).push
        (fun chunk' hmem => hchunks chunk' (by
          rw [hpending]
          exact List.mem_cons_of_mem _ (hpushed ▸ hmem)))
        hpushed
      refine ⟨turns ++ .push :: turns', ?_⟩
      rw [run_append]
      exact hdone

end Session
end Protocol
end Vosp
