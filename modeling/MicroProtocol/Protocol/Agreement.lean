import MicroProtocol.Protocol.StreamReading

/-!
# What receivers agree on

`Limits` are the policy of one receiver, and `size_t` is the size of its platform.  Neither
is part of the format.  So two receivers of one stream may stop at different places, but
they do not get different messages.

* `walkExtensions_platform`, `messageAt_platform` — the loops over the extensions do not
  depend on the platform.
* `probe_agree` — two codecs give the same verdict, or one refuses the header for its limits.
* `Limits.Within` — one set of limits allows all that another one does.
* `receivers_agree` — two receivers with their own limits and platforms, that see their own
  beginnings of one stream in their own pieces: one has delivered a beginning of what the
  other has.
-/

namespace Vosp
namespace Protocol

open FrameCodec

variable {p q : Platform}

/-! ## Platforms -/

namespace FrameCodec

/-- One step of the walk, in exact arithmetic. -/
theorem walkExtensions_succ {header : List UInt8} (hlen : header.length ≤ 65535)
    {count cursor : Nat} (hcursor : cursor ≤ header.length) :
    walkExtensions p header (count + 1) cursor =
      if header.length < cursor + 4 then
        failure .malformedFrame "protocol extension header is truncated"
      else if header.length < cursor + 4 + valueSizeAt header cursor then
        failure .malformedFrame "protocol extension value is truncated"
      else walkExtensions p header count (cursor + 4 + valueSizeAt header cursor) := by
  have hmax := p.uint32Max_le_sizeMax
  have hsize := valueSizeAt_lt header cursor
  have hsub : p.sub header.length cursor = header.length - cursor :=
    Platform.sub_eq (by omega) hcursor
  have hadd : p.add cursor 2 = cursor + 2 := Platform.add_eq (by omega)
  have hadd' : p.add cursor 4 = cursor + 4 := Platform.add_eq (by omega)
  have hadd'' : p.add (cursor + 4) (valueSizeAt header cursor)
      = cursor + 4 + valueSizeAt header cursor := Platform.add_eq (by omega)
  rw [walkExtensions, hsub]
  by_cases hshort : header.length < cursor + 4
  · rw [if_pos (by omega), if_pos hshort]
  · have hsub' : p.sub header.length (cursor + 4) = header.length - (cursor + 4) :=
      Platform.sub_eq (by omega) (by omega)
    rw [if_neg (by omega), if_neg hshort]
    simp only [hadd, hadd', hsub']
    rw [← valueSizeAt, hadd'']
    by_cases hvalue : header.length < cursor + 4 + valueSizeAt header cursor
    · rw [if_pos (by omega), if_pos hvalue]
    · rw [if_neg (by omega), if_neg hvalue]

theorem walkExtensions_platform {header : List UInt8} (hlen : header.length ≤ 65535)
    {count cursor : Nat} (hcursor : cursor ≤ header.length) :
    walkExtensions p header count cursor = walkExtensions q header count cursor := by
  induction count generalizing cursor with
  | zero => rfl
  | succ count ih =>
      rw [walkExtensions_succ hlen hcursor, walkExtensions_succ hlen hcursor]
      split_ifs with hshort hvalue
      · rfl
      · rfl
      · exact ih (by omega)

theorem validateExtensions_platform {header : List UInt8} (hlen : header.length ≤ 65535)
    (hge : wireHeaderSize ≤ header.length) (count : Nat) :
    validateExtensions p header count = validateExtensions q header count := by
  rw [validateExtensions, validateExtensions, walkExtensions_platform (q := q) hlen hge]

/-- The message of a complete frame is the same on all platforms. -/
theorem messageAt_platform {L : Limits p} (hL : L.Valid) {input : List UInt8}
    (h : Complete L input) : messageAt q input = messageAt p input := by
  have hread := messageAt_wireLayout (q := q) (input.drop (frameSizeOf input))
    (h.fits.representable hL)
  rwa [h.wireLayout_messageAt, List.take_append_drop] at hread

/-! ## Limits -/

/-- All that a well-formed header can be refused for is the limits. -/
theorem headerVerdict_cases (L : Limits p) (L' : Limits q) (input : List UInt8) :
    headerVerdict L input = headerVerdict L' input ∨
      (∃ e, headerVerdict L input = some e ∧ e.code = .limitExceeded) ∨
      (HeaderOk L input ∧ ∃ e, headerVerdict L' input = some e ∧ e.code = .limitExceeded) := by
  by_cases hfixed : readU16 input 30 ≠ 0 ∨ headerSizeOf input < wireHeaderSize
  · refine .inl ?_
    rw [headerVerdict, headerVerdict, if_pos hfixed, if_pos hfixed]
  · have hreserved : readU16 input 30 = 0 := by
      by_contra hne
      exact hfixed (.inl hne)
    have hge : 32 ≤ headerSizeOf input := by
      rw [wireHeaderSize] at hfixed
      omega
    cases hverdict : headerVerdict L input with
    | some e => exact .inr (.inl ⟨e, rfl, headerVerdict_code hreserved hge hverdict⟩)
    | none =>
        cases hverdict' : headerVerdict L' input with
        | none => exact .inl rfl
        | some e => exact .inr (.inr ⟨headerVerdict_eq_none_iff.1 hverdict, e, rfl,
            headerVerdict_code hreserved hge hverdict'⟩)

/-- Two codecs probe the same, or one refuses the header for its limits. -/
theorem probe_agree {L : Limits p} {L' : Limits q} (hL : L.Valid) (hL' : L'.Valid)
    (input : List UInt8) :
    probe L input = probe L' input ∨
      (∃ e, probe L input = .error e ∧ e.code = .limitExceeded) ∨
      (HeaderOk L input ∧ ¬ HeaderOk L' input ∧
        ∃ e, probe L' input = .error e ∧ e.code = .limitExceeded) := by
  rw [probe_eq hL, probe_eq hL']
  -- as long as no limit is looked at, the two do the same
  by_cases h4 : input.length < 4
  · rw [if_pos h4, if_pos h4]
    exact .inl rfl
  rw [if_neg h4, if_neg h4]
  by_cases hmagic : readU32 input 0 ≠ wireMagic
  · rw [if_pos hmagic, if_pos hmagic]
    exact .inl rfl
  rw [if_neg hmagic, if_neg hmagic]
  by_cases h32 : input.length < 32
  · rw [if_pos h32, if_pos h32]
    exact .inl rfl
  rw [if_neg h32, if_neg h32]
  rcases headerVerdict_cases L L' input with hsame | ⟨e, he, hcode⟩ | ⟨hok, e, he, hcode⟩
  · refine .inl ?_
    rw [hsame]
    cases hverdict : headerVerdict L' input with
    | some e => rfl
    | none =>
        have hge := (headerVerdict_eq_none_iff.1 hverdict).header_ge
        by_cases hheader : input.length < headerSizeOf input
        · simp only [if_pos hheader]
        simp only [if_neg hheader]
        have hlen : (input.take (headerSizeOf input)).length = headerSizeOf input := by
          rw [List.length_take, Nat.min_eq_left (by omega)]
        rw [validateExtensions_platform (q := q) (by rw [hlen]; exact headerSizeOf_le input)
          (by rw [hlen]; exact hge)]
  · rw [he]
    exact .inr (.inl ⟨e, rfl, hcode⟩)
  · rw [he]
    refine .inr (.inr ⟨hok, fun hok' => ?_, e, rfl, hcode⟩)
    rw [headerVerdict_eq_none_iff.2 hok'] at he
    cases he

theorem verdict_eq_of_probe_eq {L : Limits p} {L' : Limits q} (hL : L.Valid) (hL' : L'.Valid)
    {input : List UInt8} (h : probe L input = probe L' input) :
    verdict L input = verdict L' input := by
  cases hprobe : probe L input with
  | error e =>
      rw [verdict_of_error hprobe, verdict_of_error (h.symm.trans hprobe)]
  | ok r =>
      have hprobe' := h.symm.trans hprobe
      cases hstate : r.state with
      | incomplete => rw [verdict_of_incomplete hprobe hstate, verdict_of_incomplete hprobe' hstate]
      | ready =>
          obtain ⟨hcomplete, -⟩ := (probe_ready_iff hL).1 ⟨hprobe, hstate⟩
          obtain ⟨hcomplete', -⟩ := (probe_ready_iff hL').1 ⟨hprobe', hstate⟩
          rw [verdict_of_decoded hL (decodePrefix_of_complete hL hcomplete),
            verdict_of_decoded hL' (decodePrefix_of_complete hL' hcomplete'),
            messageAt_platform (q := q) hL hcomplete]

end FrameCodec

/-- Whatever the limits `L` allow, `L'` allow. -/
structure Limits.Within (L : Limits p) (L' : Limits q) : Prop where
  frame_le : L.maxFrameSize ≤ L'.maxFrameSize
  payload_le : L.maxPayloadSize ≤ L'.maxPayloadSize
  extensions_le : L.maxExtensionBytes ≤ L'.maxExtensionBytes
  count_le : L.maxExtensionCount ≤ L'.maxExtensionCount

theorem Limits.Within.headerOk {L : Limits p} {L' : Limits q} (h : L.Within L')
    {input : List UInt8} (hok : HeaderOk L input) : HeaderOk L' input where
  reserved_eq := hok.reserved_eq
  header_ge := hok.header_ge
  count_le := hok.count_le.trans h.count_le
  extensions_le := hok.extensions_le.trans (Nat.add_le_add_left h.extensions_le 32)
  payload_le := hok.payload_le.trans h.payload_le
  frame_le := hok.frame_le.trans h.frame_le

/-- The codecs as framers: a matter of policy is what is refused with `limit_exceeded`. -/
theorem framers_agree {L : Limits p} {L' : Limits q} (hL : L.Valid) (hL' : L'.Valid) :
    Framing.Framer.Agree (fun e => e.code = .limitExceeded)
      (fun e => e.code = .limitExceeded ∧ ¬ L.Within L') (framer L hL) (framer L' hL') := by
  intro input
  simp only [framer_inspect]
  rcases probe_agree hL hL' input with hsame | ⟨e, he, hcode⟩ | ⟨hok, hnot, e, he, hcode⟩
  · exact .inl (verdict_eq_of_probe_eq hL hL' hsame)
  · exact .inr (.inl ⟨e, verdict_of_error he, hcode⟩)
  · exact .inr (.inr ⟨e, verdict_of_error he, hcode, fun hwithin => hnot (hwithin.headerOk hok)⟩)

/-- Wider limits accept at least as much of a stream. -/
theorem Limits.Within.items_isPrefix {L : Limits p} {L' : Limits q} (h : L.Within L')
    (hL : L.Valid) (hL' : L'.Valid) (stream : List UInt8) :
    ((framer L hL).parse stream).items <+: ((framer L' hL').parse stream).items := by
  rcases (framers_agree hL hL').parse stream with hsame | ⟨hle, -⟩ | ⟨-, -, -, -, hnot⟩
  · rw [hsame]
  · exact hle
  · exact absurd h hnot

/-! ## Receivers -/

namespace Session

theorem reads_chunks (L : Limits p) (hL : L.Valid) (chunks : List (List UInt8)) :
    Reads L hL chunks.flatten (start L chunks) :=
  ⟨rfl, StreamDecoder.tidy_init L, (framer L hL).underway_start _, by simp [start]⟩

/-- What a receiver of a beginning of the stream has delivered, the whole stream gives. -/
theorem Reads.delivered_of_isPrefix {L : Limits p} {hL : L.Valid} {t stream : List UInt8}
    {s : Session p} (h : Reads L hL t s) (ht : t <+: stream) :
    s.delivered <+: ((framer L hL).parse stream).items := by
  obtain ⟨rest, rfl⟩ := ht
  exact h.delivered_prefix.trans ((framer L hL).items_append t rest)

/-- And what it has refused, the whole stream is refused for. -/
theorem Reads.refused_of_isPrefix {L : Limits p} {hL : L.Valid} {t stream : List UInt8}
    {s : Session p} (h : Reads L hL t s) (ht : t <+: stream) {e : Error}
    (he : Except.error e ∈ s.answers) :
    ((framer L hL).parse stream).items = s.delivered ∧
      ((framer L hL).parse stream).error = some e := by
  obtain ⟨rest, rfl⟩ := ht
  obtain ⟨hitems, herror⟩ := h.parse_of_error he
  obtain ⟨hitems', herror'⟩ := (framer L hL).parse_append_of_error herror rest
  exact ⟨hitems'.trans hitems, herror'⟩

end Session

/-- **Receivers agree.**  Two receivers, each with its own limits and on its own platform, get
beginnings of one stream of bytes in their own pieces, and each pushes and calls `next()` in
its own order.  At any moment one has delivered a beginning of what the other has.  If one
was answered with an error that is not `limit_exceeded`, the other does not deliver more,
and any error it gets is the same one or its own `limit_exceeded`.  And if its limits allow
all that those of the other do, it delivers whatever the other delivers: it has done so once
it was answered with an error, and also once it has pushed as much of the stream as the other
got and `next()` has nothing to return. -/
theorem receivers_agree (L : Limits p) (L' : Limits q) (hL : L.valid = true)
    (hL' : L'.valid = true) (stream : List UInt8) (chunks chunks' : List (List UInt8))
    (hchunks : chunks.flatten <+: stream) (hchunks' : chunks'.flatten <+: stream)
    (turns turns' : List Turn) :
    let s := (Session.start L chunks).run turns
    let s' := (Session.start L' chunks').run turns'
    (s.delivered <+: s'.delivered ∨ s'.delivered <+: s.delivered) ∧
    (∀ e, Except.error e ∈ s.answers → e.code ≠ .limitExceeded →
      s'.delivered <+: s.delivered ∧
        ∀ e', Except.error e' ∈ s'.answers → e' = e ∨ e'.code = .limitExceeded) ∧
    (L'.Within L → ∀ e, Except.error e ∈ s.answers → s'.delivered <+: s.delivered) ∧
    (L'.Within L → chunks'.flatten <+: chunks.flatten → s.pending = [] →
      s.decoder.next.1 = .ok none → s'.delivered <+: s.delivered) := by
  intro s s'
  have hV : L.Valid := (Limits.valid_iff L).1 hL
  have hV' : L'.Valid := (Limits.valid_iff L').1 hL'
  have hreads : s.Reads L hV chunks.flatten := (Session.reads_chunks L hV chunks).run turns
  have hreads' : s'.Reads L' hV' chunks'.flatten :=
    (Session.reads_chunks L' hV' chunks').run turns'
  have hitems := hreads.delivered_of_isPrefix hchunks
  have hitems' := hreads'.delivered_of_isPrefix hchunks'
  refine ⟨?_, ?_, ?_, ?_⟩
  · rcases (framers_agree hV hV').parse stream with hsame | ⟨hle, -⟩ | ⟨hle, -⟩
    · rw [hsame] at hitems
      exact List.prefix_or_prefix_of_prefix hitems hitems'
    · exact List.prefix_or_prefix_of_prefix (hitems.trans hle) hitems'
    · exact List.prefix_or_prefix_of_prefix hitems (hitems'.trans hle)
  · intro e he hcode
    obtain ⟨hall, herror⟩ := hreads.refused_of_isPrefix hchunks he
    rw [← hall]
    rcases (framers_agree hV hV').parse stream with
      hsame | ⟨-, e', he', hcode'⟩ | ⟨hle, e', he', hcode', -⟩
    · refine ⟨by rw [hsame]; exact hitems', fun e'' he'' => .inl ?_⟩
      obtain ⟨-, herror'⟩ := hreads'.refused_of_isPrefix hchunks' he''
      rw [hsame, herror'] at herror
      exact Option.some.inj herror
    · rw [herror] at he'
      cases he'
      exact absurd hcode' hcode
    · refine ⟨hitems'.trans hle, fun e'' he'' => .inr ?_⟩
      obtain ⟨-, herror'⟩ := hreads'.refused_of_isPrefix hchunks' he''
      rw [he'] at herror'
      cases herror'
      exact hcode'
  · intro hwithin e he
    obtain ⟨hall, -⟩ := hreads.refused_of_isPrefix hchunks he
    rw [← hall]
    exact hitems'.trans (hwithin.items_isPrefix hV' hV stream)
  · intro hwithin hmore hpending hnext
    have hread := hreads'.delivered_of_isPrefix hmore
    have hall := hwithin.items_isPrefix hV' hV chunks.flatten
    rw [hreads.parse_of_waiting hpending hnext] at hall
    exact hread.trans hall

/-- After a frame comes a header with a reserved field that is not zero.  The receiver that
was told so has delivered the message of the frame, and one that has not read so far no more;
nor does this one deliver more than a receiver with wider limits that has read just as far. -/
theorem receivers_agree_bad_header :
    let narrow := (Session.start smallTestLimits [wireLayout {}, [86, 83]]).run
      [.push, .next, .push, .next]
    narrow.delivered <+: ((Session.start defaultLimits
        [wireLayout {} ++ (wireLayout {}).take 31 ++ [9]]).run [.push, .next, .next]).delivered ∧
      narrow.delivered <+: ((Session.start defaultLimits [wireLayout {} ++ [86], [83]]).run
        [.push, .push, .next]).delivered := by
  constructor
  · exact ((receivers_agree defaultLimits smallTestLimits (by decide) (by decide) _ _ _
      (List.prefix_refl _) (by decide) [.push, .next, .next] [.push, .next, .push, .next]).2.1
      ⟨.malformedFrame, "protocol frame header is malformed"⟩ (by decide) (by decide)).1
  · exact (receivers_agree defaultLimits smallTestLimits (by decide) (by decide) _ _ _
      (List.prefix_refl _) (by decide) [.push, .push, .next] [.push, .next, .push, .next]).2.2.2
      ⟨by decide, by decide, by decide, by decide⟩ (by decide) (by decide) (by decide)

end Protocol
end Vosp
