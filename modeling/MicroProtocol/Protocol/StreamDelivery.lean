import MicroProtocol.Protocol.StreamDecoder

/-!
# Streams of frames, delivered through a decoder

What a peer receives when it pushes the pieces of a stream into a
`StreamDecoder` as they come and calls `next()` when it likes.

* `Session` — a decoder, the chunks that are still to be pushed, and every answer
  of `next()` so far.  A refused chunk stays at the head of the queue.
* `delivery` — **end-to-end delivery**: whatever the chunking, the schedule of
  calls and the byte at which the connection ends, no `next()` fails, what was
  delivered is a beginning of what was sent, and in the end exactly the frames
  that arrived in full have been delivered.
* `drain`, `feed`, `decodeAll` — the loop of the README, and decoding the
  whole stream at once.
* `fragmentation_independent` — the two agree on arbitrary bytes, so the outcome
  does not depend on how the bytes were cut.
-/

namespace Vosp
namespace Protocol

open FrameCodec StreamDecoder

variable {p : Platform}

/-! ## Sessions -/

/-- A decoder in the middle of receiving a stream. -/
structure Session (p : Platform) where
  decoder : StreamDecoder p
  /-- The chunks that have not been accepted yet. -/
  pending : List (List UInt8)
  /-- What `next()` has returned so far, oldest first. -/
  answers : List (Result (Option Message)) := []

/-- The receiver either tries to push the next chunk, or calls `next()`. -/
inductive Turn where
  | push
  | next
  deriving DecidableEq, Repr

namespace Session

/-- A session at its start. -/
def start (L : Limits p) (chunks : List (List UInt8)) : Session p where
  decoder := { limits := L }
  pending := chunks

/-- One turn.  A refused chunk is kept, to be pushed again later. -/
def turn (s : Session p) : Turn → Session p
  | .push =>
      match s.pending with
      | [] => s
      | chunk :: rest =>
          match s.decoder.push chunk with
          | (.ok (), decoder) => { s with decoder := decoder, pending := rest }
          | (.error _, decoder) => { s with decoder := decoder }
  | .next => { s with decoder := s.decoder.next.2, answers := s.answers ++ [s.decoder.next.1] }

theorem turn_push_nil {s : Session p} (h : s.pending = []) : s.turn .push = s := by
  unfold turn
  rw [h]

theorem turn_push_accepted {s : Session p} {chunk : List UInt8} {rest : List (List UInt8)}
    {decoder : StreamDecoder p} (h : s.pending = chunk :: rest)
    (hpush : s.decoder.push chunk = (.ok (), decoder)) :
    s.turn .push = ⟨decoder, rest, s.answers⟩ := by
  simp only [turn, h, hpush]

theorem turn_push_refused {s : Session p} {chunk : List UInt8} {rest : List (List UInt8)}
    {decoder : StreamDecoder p} {e : Error} (h : s.pending = chunk :: rest)
    (hpush : s.decoder.push chunk = (.error e, decoder)) :
    s.turn .push = ⟨decoder, chunk :: rest, s.answers⟩ := by
  simp only [turn, h, hpush]

/-- Turns in any order. -/
def run (s : Session p) (turns : List Turn) : Session p := turns.foldl turn s

@[simp] theorem run_nil (s : Session p) : s.run [] = s := rfl

/-- The messages among the answers. -/
def messagesOf (answers : List (Result (Option Message))) : List Message :=
  answers.filterMap fun answer =>
    match answer with
    | .ok (some m) => some m
    | _ => none

/-- The messages delivered so far. -/
def delivered (s : Session p) : List Message := messagesOf s.answers

theorem messagesOf_append (as bs : List (Result (Option Message))) :
    messagesOf (as ++ bs) = messagesOf as ++ messagesOf bs := List.filterMap_append

/-- The invariant of a session that receives the stream `t`. -/
structure Receives (L : Limits p) (hL : L.Valid) (t : List UInt8) (s : Session p) : Prop where
  limits_eq : s.decoder.limits = L
  tidy : s.decoder.Tidy
  underway : (framer L hL).Underway t s.delivered (s.decoder.unread ++ s.pending.flatten)
  no_error : ∀ e, Except.error e ∉ s.answers

theorem receives_start (L : Limits p) (hL : L.Valid) (chunks : List (List UInt8)) :
    Receives L hL chunks.flatten (start L chunks) :=
  ⟨rfl, tidy_init L, (framer L hL).underway_start _, by simp [start]⟩

variable {L : Limits p} {hL : L.Valid} {t : List UInt8} {s : Session p}

/-- A push, accepted or not, leaves the bytes of the stream where they are. -/
theorem Receives.push (h : Receives L hL t s) : Receives L hL t (s.turn .push) := by
  obtain ⟨rfl, htidy, hunder, hno⟩ := h
  cases hpending : s.pending with
  | nil =>
      rw [turn_push_nil hpending]
      exact ⟨rfl, htidy, hunder, hno⟩
  | cons chunk rest =>
      have hqueue := actsAsQueue_of_tidy htidy
      obtain ⟨-, -, hlimits, htidy'⟩ := push_spec htidy chunk
      have hok := hqueue.unread_of_push chunk
      have herror := hqueue.push_error chunk
      rw [hpending, List.flatten_cons] at hunder
      cases hpush : s.decoder.push chunk with
      | mk answer decoder =>
          rw [hpush] at hlimits htidy' hok herror
          cases answer with
          | ok u =>
              rw [turn_push_accepted hpending hpush]
              refine ⟨hlimits, htidy', ?_, hno⟩
              rw [hok rfl, List.append_assoc]
              exact hunder
          | error e =>
              rw [turn_push_refused hpending hpush]
              refine ⟨hlimits, htidy', ?_, hno⟩
              rw [(herror e rfl).1, List.flatten_cons]
              exact hunder

/-- What `next()` does to a session is decided by the verdict on the unread
bytes. -/
theorem turn_next_eq (hlimits : s.decoder.limits = L) (htidy : s.decoder.Tidy) (hL : L.Valid) :
    (s.turn .next).answers =
        s.answers ++ [(ByteQueue.ofVerdict s.decoder.unread (verdict L s.decoder.unread)).1] ∧
      (s.turn .next).decoder.unread =
        (ByteQueue.ofVerdict s.decoder.unread (verdict L s.decoder.unread)).2 ∧
      (s.turn .next).decoder.limits = L ∧ (s.turn .next).decoder.Tidy ∧
      (s.turn .next).pending = s.pending := by
  subst hlimits
  obtain ⟨hanswer, hunread, hlimits, htidy'⟩ := next_spec htidy
  rw [ByteQueue.next_eq hL] at hanswer hunread
  refine ⟨?_, hunread, hlimits, htidy', rfl⟩
  rw [← hanswer]
  rfl

/-- `next()` never fails on a stream that has no error, and what it returns is
the next item of the stream. -/
theorem Receives.next (ht : ((framer L hL).parse t).error = none) (h : Receives L hL t s) :
    Receives L hL t (s.turn .next) := by
  obtain ⟨hlimits, htidy, hunder, hno⟩ := h
  obtain ⟨hanswers, hunread, hlimits', htidy', hpending⟩ := turn_next_eq hlimits htidy hL
  cases hverdict : verdict L s.decoder.unread with
  | refused e =>
      have herror := (hunder.refused hverdict).2
      rw [ht] at herror
      cases herror
  | needs r =>
      rw [hverdict] at hanswers hunread
      refine ⟨hlimits', htidy', ?_, ?_⟩
      · rw [delivered, hanswers, messagesOf_append, hunread, hpending]
        change (framer L hL).Underway t (s.delivered ++ []) _
        rw [List.append_nil]
        exact hunder
      · rw [hanswers]
        simpa [ByteQueue.ofVerdict] using hno
  | ready n m =>
      rw [hverdict] at hanswers hunread
      refine ⟨hlimits', htidy', ?_, ?_⟩
      · rw [delivered, hanswers, messagesOf_append, hunread, hpending]
        exact hunder.ready hverdict
      · rw [hanswers]
        simpa [ByteQueue.ofVerdict] using hno

/-- The invariant holds after any turns. -/
theorem Receives.run (ht : ((framer L hL).parse t).error = none) (h : Receives L hL t s)
    (turns : List Turn) : Receives L hL t (s.run turns) := by
  induction turns generalizing s with
  | nil => exact h
  | cons turn turns ih =>
      cases turn with
      | push => exact ih h.push
      | next => exact ih (h.next ht)

/-- A session with nothing left to do: everything is pushed, and the probe waits. -/
structure Quiet (L : Limits p) (hL : L.Valid) (t : List UInt8) (s : Session p) : Prop where
  receives : Receives L hL t s
  pending_eq : s.pending = []
  waiting : ∃ r, verdict L s.decoder.unread = .needs r

/-- Nothing wakes it up. -/
theorem Quiet.turn (ht : ((framer L hL).parse t).error = none) (h : Quiet L hL t s) (turn : Turn) :
    Quiet L hL t (s.turn turn) := by
  obtain ⟨hreceives, hpending, r, hr⟩ := h
  cases turn with
  | push =>
      rw [turn_push_nil hpending]
      exact ⟨hreceives, hpending, r, hr⟩
  | next =>
      obtain ⟨-, hunread, -, -, hpending'⟩ :=
        turn_next_eq hreceives.limits_eq hreceives.tidy hL
      rw [hr] at hunread
      refine ⟨hreceives.next ht, hpending'.trans hpending, r, ?_⟩
      rw [hunread]
      exact hr

theorem Quiet.run (ht : ((framer L hL).parse t).error = none) (h : Quiet L hL t s)
    (turns : List Turn) : Quiet L hL t (s.run turns) := by
  induction turns generalizing s with
  | nil => exact h
  | cons turn turns ih => exact ih (h.turn ht turn)

/-- It has delivered all there was. -/
theorem Quiet.parse_eq (h : Quiet L hL t s) :
    (framer L hL).parse t = ⟨s.delivered, none, s.decoder.unread⟩ := by
  obtain ⟨hreceives, hpending, r, hr⟩ := h
  have hunder := hreceives.underway
  rw [hpending, List.flatten_nil, List.append_nil] at hunder
  exact hunder.needs hr

end Session

/-! ## End-to-end delivery -/

/-- What `encode` accepts, one by one, is what a list of frames is made of. -/
theorem frames_eq_map {L : Limits p} {messages : List Message} {frames : List (List UInt8)}
    (h : List.Forall₂ (fun m f => encode L m = .ok f) messages frames) :
    frames = messages.map wireLayout ∧ ∀ m ∈ messages, Fits L m := by
  induction h with
  | nil => simp
  | cons hm _ ih =>
      obtain ⟨-, hfits, rfl⟩ := encode_eq_ok_iff.1 hm
      obtain ⟨rfl, hrest⟩ := ih
      exact ⟨rfl, List.forall_mem_cons.2 ⟨hfits, hrest⟩⟩

/-- The codec's verdict on a frame that `encode` made. -/
theorem verdict_wireLayout {L : Limits p} (hL : L.Valid) {m : Message} (h : Fits L m) :
    verdict L (wireLayout m) = .ready (wireLayout m).length m := by
  have hdecode := decodePrefix_of_fits hL h []
  rw [List.append_nil] at hdecode
  exact verdict_of_decoded hL hdecode

/-- A cut stream of frames, parsed to its end: no error, exactly the messages
whose frames are complete, and the bytes of the one that is not. -/
theorem parse_cut_frames {L : Limits p} (hL : L.Valid) {messages : List Message}
    {frames : List (List UInt8)}
    (hframes : List.Forall₂ (fun m f => encode L m = .ok f) messages frames) {c : Nat}
    (hc : c ≤ frames.flatten.length) :
    ((framer L hL).parse (frames.flatten.take c)).error = none ∧
      ∃ j ≤ messages.length,
        ((framer L hL).parse (frames.flatten.take c)).items = messages.take j ∧
        (∀ i < messages.length, i < j ↔ (frames.take (i + 1)).flatten.length ≤ c) ∧
        ((framer L hL).parse (frames.flatten.take c)).rest.length +
          (frames.take j).flatten.length = c := by
  obtain ⟨rfl, hfits⟩ := frames_eq_map hframes
  -- the library speaks of pairs of an item and its bytes
  have hbytes : ∀ ms : List Message,
      (ms.map fun m => (wireLayout m, m)).map Prod.fst = ms.map wireLayout := by
    intro ms
    rw [List.map_map]
    rfl
  have hitems : ∀ ms : List Message, (ms.map fun m => (wireLayout m, m)).map Prod.snd = ms := by
    intro ms
    rw [List.map_map]
    exact List.map_id ms
  have hready : ∀ fr ∈ messages.map fun m => (wireLayout m, m),
      (framer L hL).inspect fr.1 = .ready fr.1.length fr.2 := by
    intro fr hfr
    obtain ⟨m, hm, rfl⟩ := List.mem_map.1 hfr
    exact verdict_wireLayout hL (hfits m hm)
  have hcut := (framer L hL).parse_take_flatten hready (c := c) (by rwa [hbytes])
  simp only [hbytes, hitems, ← List.map_take, List.length_map] at hcut ⊢
  obtain ⟨j, hj, hdelivered, herror, hrest, hinside⟩ := hcut
  exact ⟨herror, j, hj, hdelivered, hinside, hrest⟩

/-- **End-to-end delivery.**  `messages` are sent as `frames`, the connection
breaks after `c` bytes, those bytes arrive as `chunks`, and the receiver pushes
and calls `next()` in any order.  No `next()` ever fails, and at any time a
beginning of `messages` has been delivered.  Once all chunks are pushed and
`next()` has come back empty, the messages delivered, then and ever after, are
exactly those whose frames lie inside the `c` bytes, and the buffer holds the
rest of them, the beginning of the frame that was cut. -/
theorem delivery (L : Limits p) (hL : L.valid = true) (messages : List Message)
    (frames : List (List UInt8))
    (hframes : List.Forall₂ (fun m f => encode L m = .ok f) messages frames) (c : Nat)
    (hc : c ≤ frames.flatten.length) (chunks : List (List UInt8))
    (hchunks : chunks.flatten = frames.flatten.take c) (turns : List Turn) :
    (∀ e, Except.error e ∉ ((Session.start L chunks).run turns).answers) ∧
    ((Session.start L chunks).run turns).delivered <+: messages ∧
    (((Session.start L chunks).run turns).pending = [] →
      ((Session.start L chunks).run turns).decoder.next.1 = .ok none →
      ∀ more : List Turn, ∃ j ≤ messages.length,
        (((Session.start L chunks).run turns).run (.next :: more)).delivered = messages.take j ∧
        (∀ i < messages.length, i < j ↔ (frames.take (i + 1)).flatten.length ≤ c) ∧
        (((Session.start L chunks).run turns).run (.next :: more)).decoder.bufferedSize +
          (frames.take j).flatten.length = c) := by
  have hV : L.Valid := (Limits.valid_iff L).1 hL
  obtain ⟨herror, j, hj, hitems, hinside, hrest⟩ := parse_cut_frames hV hframes hc
  rw [← hchunks] at herror hitems hrest
  have hreceives := (Session.receives_start L hV chunks).run herror turns
  set s := (Session.start L chunks).run turns
  refine ⟨hreceives.no_error, ?_, ?_⟩
  · have hsplit := congrArg Framing.Parse.items hreceives.underway
    rw [hitems] at hsplit
    calc s.delivered <+: messages.take j := ⟨_, hsplit.symm⟩
      _ <+: messages := List.take_prefix j messages
  · intro hpending hnone more
    have hquiet : s.Quiet L hV chunks.flatten := by
      refine ⟨hreceives, hpending, ?_⟩
      rw [(next_spec hreceives.tidy).1, hreceives.limits_eq] at hnone
      exact (ByteQueue.next_none_iff hV).1 hnone
    have hlater := hquiet.run herror (.next :: more)
    have hparse := hlater.parse_eq
    rw [hparse] at hitems hrest
    refine ⟨j, hj, hitems, hinside, ?_⟩
    rw [hlater.receives.tidy.bufferedSize_eq]
    exact hrest

/-- Two frames of 33 bytes, cut after 40: the first message is delivered and seven
bytes stay behind. -/
theorem delivery_of_two_frames :
    ((Session.start smallTestLimits [(wireLayout { payload := [9] }).take 10,
        (wireLayout { payload := [9] }).drop 10 ++ [86, 83, 80, 49, 0, 32, 0]]).run
          [.push, .next, .push, .next, .next]).delivered = [{ payload := [9] }] := by
  obtain ⟨j, hj, hdelivered, hinside, -⟩ := (delivery smallTestLimits (by decide)
    [{ payload := [9] }, { payload := [9] }]
    [wireLayout { payload := [9] }, wireLayout { payload := [9] }]
    (.cons (by decide) (.cons (by decide) .nil)) 40 (by decide)
    [(wireLayout { payload := [9] }).take 10,
      (wireLayout { payload := [9] }).drop 10 ++ [86, 83, 80, 49, 0, 32, 0]] (by decide)
    [.push, .next, .push, .next]).2.2 (by decide) (by decide) []
  have hfirst : 0 < j := (hinside 0 (by decide)).2 (by decide)
  have hsecond : ¬ 1 < j := mt (hinside 1 (by decide)).1 (by decide)
  obtain rfl : j = 1 := by omega
  exact hdelivered

/-! ## Draining after every push -/

/-- What a drain loop ended with. -/
structure Drained (p : Platform) where
  messages : List Message
  error : Option Error
  decoder : StreamDecoder p

/-- Call `next()` until it returns nothing or an error, at most `fuel` times. -/
def drain : Nat → StreamDecoder p → Option (Drained p)
  | 0, _ => none
  | fuel + 1, d =>
      match d.next with
      | (.error e, d) => some ⟨[], some e, d⟩
      | (.ok none, d) => some ⟨[], none, d⟩
      | (.ok (some m), d) => (drain fuel d).map fun r => { r with messages := m :: r.messages }

/-- The outcome of feeding a decoder. -/
inductive Fed where
  /-- A push was refused. -/
  | rejected (error : Error)
  /-- A drain loop did not end within its fuel. -/
  | unfinished
  | finished (messages : List Message) (error : Option Error)

/-- The outcome, given what was returned earlier. -/
def Fed.after (earlier : List Message) : Fed → Fed
  | .finished messages error => .finished (earlier ++ messages) error
  | fed => fed

/-- Push each chunk and drain the decoder after it, stopping at the first error. -/
def feed (fuel : Nat) : StreamDecoder p → List (List UInt8) → Fed
  | _, [] => .finished [] none
  | d, chunk :: chunks =>
      match d.push chunk with
      | (.error e, _) => .rejected e
      | (.ok (), d) =>
          match drain fuel d with
          | none => .unfinished
          | some ⟨messages, some e, _⟩ => .finished messages (some e)
          | some ⟨messages, none, d⟩ => (feed fuel d chunks).after messages

/-- A decoded frame is not empty, so decoding the rest of the input ends. -/
theorem length_drop_consumed {L : Limits p} {s : List UInt8} {d : DecodedFrame}
    (h : decodePrefix L s = .ok d) : (s.drop d.consumed).length < s.length := by
  have hL := valid_of_decodePrefix h
  obtain ⟨hcomplete, rfl⟩ := (decodePrefix_eq_ok_iff hL).1 h
  have hge := hcomplete.frameSize_ge
  have h32 := hcomplete.length_ge
  change (s.drop (frameSizeOf s)).length < s.length
  rw [List.length_drop]
  omega

/-- Decode a whole byte string frame by frame; `insufficient_data` and an empty
rest mean that there are no more messages. -/
def decodeAll (L : Limits p) (s : List UInt8) : List Message × Option Error :=
  if s = [] then ([], none)
  else
    match _h : decodePrefix L s with
    | .error e => if e.code = .insufficientData then ([], none) else ([], some e)
    | .ok d => (d.message :: (decodeAll L (s.drop d.consumed)).1, (decodeAll L (s.drop d.consumed)).2)
termination_by s.length
decreasing_by all_goals exact length_drop_consumed _h

section Drain

variable {L : Limits p} (hL : L.Valid)

include hL

/-- `insufficient_data` is never the error of a probe: it stands for `incomplete`
only. -/
theorem probe_error_code {input : List UInt8} {e : Error} (h : probe L input = .error e) :
    e.code ≠ .insufficientData := by
  rw [probe_eq_iff hL] at h
  cases h with
  | badMagic _ _ => decide
  | badHeader _ _ hverdict =>
      unfold headerVerdict at hverdict
      split_ifs at hverdict <;> (cases hverdict; decide)
  | badExtensions _ _ _ _ hext =>
      unfold validateExtensions at hext
      split at hext
      · rename_i e' hwalk
        cases hext
        rw [walkExtensions_error_code hwalk]
        decide
      · split at hext
        · cases hext
          decide
        · cases hext

/-- Nothing has been decided about an empty input. -/
theorem ne_nil_of_verdict {s : List UInt8} (h : ∀ n, verdict L s ≠ .needs n) : s ≠ [] := by
  rintro rfl
  obtain ⟨n, hn⟩ := (framer L hL).nil_needs
  exact h n hn

theorem decodeAll_of_refused {s : List UInt8} {e : Error} (h : verdict L s = .refused e) :
    decodeAll L s = ([], some e) := by
  have hprobe := verdict_refused_iff.1 h
  have hne : s ≠ [] := ne_nil_of_verdict hL (by simp [h])
  rw [decodeAll.eq_def, if_neg hne, decodePrefix_of_error hprobe]
  exact if_neg (probe_error_code hL hprobe)

theorem decodeAll_of_needs {s : List UInt8} {r : Nat} (h : verdict L s = .needs r) :
    decodeAll L s = ([], none) := by
  obtain ⟨r', hprobe, hstate, -⟩ := (verdict_needs_iff hL).1 h
  rw [decodeAll.eq_def, decodePrefix_of_incomplete hprobe hstate]
  exact ite_self _

theorem decodeAll_of_ready {s : List UInt8} {n : Nat} {m : Message}
    (h : verdict L s = .ready n m) :
    decodeAll L s = (m :: (decodeAll L (s.drop n)).1, (decodeAll L (s.drop n)).2) := by
  have hne : s ≠ [] := ne_nil_of_verdict hL (by simp [h])
  rw [decodeAll.eq_def, if_neg hne, (verdict_ready_iff hL).1 h]

/-- Decoding everything at once is parsing with the codec's verdicts. -/
theorem decodeAll_eq_parse (s : List UInt8) :
    decodeAll L s = (((framer L hL).parse s).items, ((framer L hL).parse s).error) := by
  induction s using (framer L hL).parse_induction with
  | refused q e hq => rw [decodeAll_of_refused hL hq, (framer L hL).parse_refused hq]
  | needs q r hq => rw [decodeAll_of_needs hL hq, (framer L hL).parse_needs hq]
  | ready q n m hq ih => rw [decodeAll_of_ready hL hq, (framer L hL).parse_ready hq, ih]

/-- **The drain loop ends**, with what parsing the unread bytes gives: one call for
every 32 unread bytes and one more are always enough. -/
theorem drain_eq {fuel : Nat} {d : StreamDecoder p} (hlimits : d.limits = L) (htidy : d.Tidy)
    (hfuel : d.unread.length / 32 < fuel) :
    ∃ d', drain fuel d = some ⟨((framer L hL).parse d.unread).items,
        ((framer L hL).parse d.unread).error, d'⟩ ∧
      d'.limits = L ∧ d'.Tidy ∧ d'.unread = ((framer L hL).parse d.unread).rest := by
  induction fuel generalizing d with
  | zero => exact absurd hfuel (Nat.not_lt_zero _)
  | succ fuel ih =>
      obtain ⟨hanswer, hunread, hlimits', htidy'⟩ := next_spec htidy
      rw [hlimits, ByteQueue.next_eq hL] at hanswer hunread
      rw [hlimits] at hlimits'
      cases hnext : d.next with
      | mk answer d' =>
          rw [hnext] at hanswer hunread hlimits' htidy'
          cases hverdict : verdict L d.unread with
          | refused e =>
              rw [hverdict] at hanswer hunread
              obtain rfl : answer = .error e := hanswer
              rw [(framer L hL).parse_refused hverdict]
              exact ⟨d', by simp only [drain, hnext], hlimits', htidy', hunread⟩
          | needs r =>
              rw [hverdict] at hanswer hunread
              obtain rfl : answer = .ok none := hanswer
              rw [(framer L hL).parse_needs hverdict]
              exact ⟨d', by simp only [drain, hnext], hlimits', htidy', hunread⟩
          | ready n m =>
              rw [hverdict] at hanswer hunread
              obtain rfl : answer = .ok (some m) := hanswer
              have hdrop : d'.unread = d.unread.drop n := hunread
              obtain ⟨hge, hle⟩ := ready_bounds hL hverdict
              have hshorter : d'.unread.length / 32 < fuel := by
                rw [hdrop, List.length_drop]
                omega
              obtain ⟨d'', hdrain, hrest⟩ := ih hlimits' htidy' hshorter
              rw [hdrop] at hdrain hrest
              rw [(framer L hL).parse_ready hverdict]
              exact ⟨d'', by simp only [drain, hnext, hdrain, Option.map_some], hrest⟩

/-- One chunk: it is refused, or the decoder returns what parsing the unread bytes
and the chunk gives, and goes on with what is left of them. -/
theorem feed_cons {fuel : Nat} {d : StreamDecoder p} (hlimits : d.limits = L) (htidy : d.Tidy)
    (hfuel : L.maxBufferedBytes / 32 < fuel) (chunk : List UInt8) (chunks : List (List UInt8)) :
    (∃ e, feed fuel d (chunk :: chunks) = .rejected e) ∨
      ∃ d', d'.limits = L ∧ d'.Tidy ∧
        d'.unread = ((framer L hL).parse (d.unread ++ chunk)).rest ∧
        feed fuel d (chunk :: chunks) =
          match ((framer L hL).parse (d.unread ++ chunk)).error with
          | some e => .finished ((framer L hL).parse (d.unread ++ chunk)).items (some e)
          | none => (feed fuel d' chunks).after ((framer L hL).parse (d.unread ++ chunk)).items := by
  obtain ⟨-, -, hlimits', htidy'⟩ := push_spec htidy chunk
  have hok := (actsAsQueue_of_tidy htidy).unread_of_push chunk
  cases hpush : d.push chunk with
  | mk answer d' =>
      rw [hpush] at hlimits' htidy' hok
      cases answer with
      | error e => exact Or.inl ⟨e, by simp only [feed, hpush]⟩
      | ok u =>
          replace hlimits' : d'.limits = L := hlimits'.trans hlimits
          have hlen : d'.buffer.length ≤ L.maxBufferedBytes := hlimits' ▸ htidy'.length_le
          have hshort : d'.unread.length / 32 < fuel := by
            rw [length_unread]
            omega
          obtain ⟨d'', hdrain, hlimits'', htidy'', hrest⟩ := drain_eq hL hlimits' htidy' hshort
          rw [hok rfl] at hdrain hrest
          refine Or.inr ⟨d'', hlimits'', htidy'', hrest, ?_⟩
          cases herror : ((framer L hL).parse (d.unread ++ chunk)).error with
          | some e =>
              rw [herror] at hdrain
              simp only [feed, hpush, hdrain]
          | none =>
              rw [herror] at hdrain
              simp only [feed, hpush, hdrain]

/-- Feeding a decoder that is waiting gives what parsing everything gives, unless
a push is refused. -/
theorem feed_eq {fuel : Nat} {d : StreamDecoder p} {chunks : List (List UInt8)}
    (hlimits : d.limits = L) (htidy : d.Tidy) (hfuel : L.maxBufferedBytes / 32 < fuel)
    (hwaiting : (framer L hL).parse d.unread = ⟨[], none, d.unread⟩) :
    (∃ e, feed fuel d chunks = .rejected e) ∨
      feed fuel d chunks = .finished ((framer L hL).parse (d.unread ++ chunks.flatten)).items
        ((framer L hL).parse (d.unread ++ chunks.flatten)).error := by
  induction chunks generalizing d with
  | nil =>
      rw [List.flatten_nil, List.append_nil, hwaiting]
      exact Or.inr rfl
  | cons chunk chunks ih =>
      rcases feed_cons hL hlimits htidy hfuel chunk chunks with
        hrejected | ⟨d', hlimits', htidy', hrest, hfeed⟩
      · exact Or.inl hrejected
      rw [hfeed, List.flatten_cons, ← List.append_assoc]
      cases herror : ((framer L hL).parse (d.unread ++ chunk)).error with
      | some e =>
          obtain ⟨hitems, hwhole⟩ := (framer L hL).parse_append_of_error herror chunks.flatten
          rw [hitems, hwhole]
          exact Or.inr rfl
      | none =>
          have hwaiting' := (framer L hL).parse_rest herror
          rw [← hrest] at hwaiting'
          rw [(framer L hL).parse_append herror, ← hrest]
          rcases ih hlimits' htidy' hwaiting' with ⟨e, he⟩ | hfinished
          · exact Or.inl ⟨e, by rw [he]; rfl⟩
          · exact Or.inr (by rw [hfinished]; rfl)

end Drain

/-- **Fragmentation independence.**  Every message that `next()` returns takes at
least 32 bytes off the buffer, so draining always ends.  Feed a new decoder the
bytes `s` in chunks, draining it after every push: if no push is refused, the
messages and the final error are those of decoding `s` at once, so they are the
same for any two ways of cutting `s`. -/
theorem fragmentation_independent (L : Limits p) (hL : L.valid = true) (s : List UInt8) :
    (∀ d, (machine L).Reachable d →
      (∀ m, d.next.1 = .ok (some m) → d.next.2.bufferedSize + 32 ≤ d.bufferedSize) ∧
      ∀ fuel, d.bufferedSize / 32 < fuel → ∃ r, drain fuel d = some r) ∧
    (∀ fuel chunks, L.maxBufferedBytes / 32 < fuel → chunks.flatten = s →
      (∃ e, feed fuel (machine L).init chunks = .rejected e) ∨
        feed fuel (machine L).init chunks = .finished (decodeAll L s).1 (decodeAll L s).2) ∧
    (∀ fuel chunks chunks' messages messages' error error', L.maxBufferedBytes / 32 < fuel →
      chunks.flatten = s → chunks'.flatten = s →
      feed fuel (machine L).init chunks = .finished messages error →
      feed fuel (machine L).init chunks' = .finished messages' error' →
      messages = messages' ∧ error = error') := by
  have hV : L.Valid := (Limits.valid_iff L).1 hL
  have hfeed : ∀ fuel chunks, L.maxBufferedBytes / 32 < fuel → chunks.flatten = s →
      (∃ e, feed fuel (machine L).init chunks = .rejected e) ∨
        feed fuel (machine L).init chunks = .finished (decodeAll L s).1 (decodeAll L s).2 := by
    intro fuel chunks hfuel hchunks
    obtain ⟨r, hr⟩ := (framer L hV).nil_needs
    rw [decodeAll_eq_parse hV, ← hchunks]
    exact feed_eq (d := (machine L).init) hV rfl (tidy_init L) hfuel
      ((framer L hV).parse_needs hr)
  refine ⟨?_, hfeed, ?_⟩
  · intro d hd
    obtain ⟨hlimits, htidy⟩ := tidy_of_reachable hd
    constructor
    · intro m hm
      obtain ⟨hanswer, hunread, -, htidy'⟩ := next_spec htidy
      rw [hanswer, hlimits] at hm
      obtain ⟨n, hready, hdrop⟩ := ByteQueue.next_some hV hm
      obtain ⟨hge, hle⟩ := ready_bounds hV hready
      rw [htidy'.bufferedSize_eq, htidy.bufferedSize_eq, hunread, hlimits, hdrop,
        List.length_drop]
      omega
    · intro fuel hfuel
      rw [htidy.bufferedSize_eq] at hfuel
      obtain ⟨d', hdrain, -⟩ := drain_eq hV hlimits htidy hfuel
      exact ⟨_, hdrain⟩
  · intro fuel chunks chunks' messages messages' error error' hfuel hchunks hchunks' h h'
    rcases hfeed fuel chunks hfuel hchunks with ⟨e, he⟩ | hfinished
    · rw [h] at he
      cases he
    rcases hfeed fuel chunks' hfuel hchunks' with ⟨e, he⟩ | hfinished'
    · rw [h'] at he
      cases he
    rw [h] at hfinished
    rw [h'] at hfinished'
    cases hfinished
    cases hfinished'
    exact ⟨rfl, rfl⟩

/-- A wrong magic that arrives in two chunks is the error of the whole. -/
theorem fragmentation_independent_bad_magic :
    decodeAll smallTestLimits [0, 0, 0, 0, 1] =
      ([], some ⟨.invalidMagic, "protocol frame magic mismatch"⟩) := by
  have hfeed : feed 2 (machine smallTestLimits).init [[0, 0], [0, 0, 1]] =
      .finished [] (some ⟨.invalidMagic, "protocol frame magic mismatch"⟩) := rfl
  rcases (fragmentation_independent smallTestLimits (by decide) [0, 0, 0, 0, 1]).2.1 2
    [[0, 0], [0, 0, 1]] (by decide) (by decide) with ⟨e, he⟩ | hfinished
  · rw [hfeed] at he
    cases he
  · rw [hfeed] at hfinished
    injection hfinished with hmessages herror
    exact Prod.ext hmessages.symm herror.symm

end Protocol
end Vosp
