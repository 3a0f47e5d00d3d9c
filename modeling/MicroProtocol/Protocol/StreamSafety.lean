import MicroProtocol.Protocol.StreamDecoder

/-!
# What a stream decoder never does

Two promises of `CONTRACTS.md` about every reachable decoder, drawn from the
byte queue that it refines.

* `never_wedged` — it never asks for bytes that it would refuse: whenever
  `next()` has nothing to return, the bytes that the probe is waiting for are
  accepted, and a full buffer always yields a message or an error.
* `error_until_reset` — it never recovers by itself: after an error every
  `next()` repeats that error, no byte is dropped, and only `reset()` makes it as
  good as new.
-/

namespace Vosp
namespace Protocol
namespace StreamDecoder

open FrameCodec

variable {p : Platform}

/-! ## Asking for more -/

/-- Under valid limits nothing has been decided about an empty queue: the probe
is the initial one. -/
theorem probe_nil {L : Limits p} (hL : L.Valid) : probe L [] = .ok {} :=
  (probe_eq_iff hL).2 (.noMagic (by simp))

/-- **The decoder cannot wedge.**  When `next()` returns nothing, the probe of the
buffer is short of at least one byte, and any bytes up to what it requires are
accepted; so with a full buffer `next()` never returns nothing. -/
theorem never_wedged (L : Limits p) (hL : L.valid = true) (d : StreamDecoder p)
    (hd : (machine L).Reachable d) :
    (d.next.1 = .ok none → ∃ r, probe L d.unread = .ok r ∧ r.state = .incomplete ∧
      (d.unread = [] → r = {}) ∧ 1 ≤ r.requiredSize - d.bufferedSize ∧
      ∀ bytes : List UInt8, bytes.length ≤ r.requiredSize - d.bufferedSize →
        (d.push bytes).1 = .ok ()) ∧
    (d.bufferedSize = L.maxBufferedBytes → d.next.1 ≠ .ok none) := by
  have hV : L.Valid := (Limits.valid_iff L).1 hL
  obtain ⟨rfl, htidy⟩ := tidy_of_reachable hd
  have hqueue := actsAsQueue_of_tidy htidy
  have hframe := hV.frame_le_buffered
  have hwaiting : d.next.1 = .ok none → ∃ r, probe d.limits d.unread = .ok r ∧
      r.state = .incomplete ∧ d.unread.length < r.requiredSize ∧
      r.requiredSize ≤ d.limits.maxFrameSize := by
    intro hnone
    rw [(next_spec htidy).1] at hnone
    obtain ⟨n, hneeds⟩ := (ByteQueue.next_none_iff hV).1 hnone
    obtain ⟨r, hprobe, hstate, -⟩ := (verdict_needs_iff hV).1 hneeds
    exact ⟨r, hprobe, hstate, probe_incomplete hV hprobe hstate⟩
  rw [hqueue.bufferedSize_eq]
  constructor
  · intro hnone
    obtain ⟨r, hprobe, hstate, hlt, hle⟩ := hwaiting hnone
    refine ⟨r, hprobe, hstate, ?_, by omega, ?_⟩
    · intro hempty
      rw [hempty, probe_nil hV] at hprobe
      exact (Except.ok.inj hprobe).symm
    · intro bytes hbytes
      exact (hqueue.push_ok_iff bytes).2 ⟨hL, by omega⟩
  · intro hfull hnone
    obtain ⟨r, -, -, hlt, hle⟩ := hwaiting hnone
    omega

/-- Room for 40 bytes, of which 32 are a consumed frame and 5 the beginning of the next: the 27
bytes that this one lacks are accepted, after a compaction. -/
theorem never_wedged_behind_consumed :
    let d := (machine smallTestLimits).exec (machine smallTestLimits).init
      [.push (wireLayout {} ++ (wireLayout {}).take 5), .next]
    d.cursor = 32 ∧ d.buffer.length = 37 ∧ (d.push ((wireLayout {}).drop 5)).1 = .ok () ∧
      (d.push ((wireLayout {}).drop 5)).2.cursor = 0 := by
  intro d
  have hnone : d.next.1 = .ok none := by decide
  obtain ⟨r, hprobe, -, -, -, hpush⟩ := (never_wedged smallTestLimits (by decide) d
    ((machine smallTestLimits).reachable_exec _)).1 hnone
  have hr : probe smallTestLimits d.unread = .ok {} := by decide
  obtain rfl : r = {} := Except.ok.inj (hprobe.symm.trans hr)
  exact ⟨by decide, by decide, hpush _ (by decide), by decide⟩

/-! ## Failing for good -/

/-- The bytes of the pushes that were accepted along a history of calls. -/
def acceptedBytes : List Call → List Answer → List UInt8
  | .push bytes :: calls, .pushed (.ok ()) :: answers => bytes ++ acceptedBytes calls answers
  | _ :: calls, _ :: answers => acceptedBytes calls answers
  | _, _ => []

/-- One call on a queue that the probe refuses. -/
theorem byteQueue_step_refused {L : Limits p} (hL : L.Valid) {q : List UInt8} {e : Error}
    (hq : probe L q = .error e) {call : Call} (hcall : call ≠ .reset) :
    probe L (ByteQueue.step L q call).2 = .error e ∧
      (∀ r, (ByteQueue.step L q call).1 = .returned r → r = .error e) ∧
      ∀ calls answers, (ByteQueue.step L q call).2 ++ acceptedBytes calls answers =
        q ++ acceptedBytes (call :: calls) ((ByteQueue.step L q call).1 :: answers) := by
  cases call with
  | push bytes =>
      rcases ByteQueue.push_cases L q bytes with
        ⟨-, hpush⟩ | ⟨-, -, hpush⟩ | ⟨-, -, hpush⟩
      · simp only [ByteQueue.step, hpush]
        exact ⟨hq, by simp, fun calls answers => rfl⟩
      · simp only [ByteQueue.step, hpush]
        refine ⟨probe_append_of_error hL hq bytes, by simp, fun calls answers => ?_⟩
        rw [acceptedBytes, List.append_assoc]
      · simp only [ByteQueue.step, hpush]
        exact ⟨hq, by simp, fun calls answers => rfl⟩
  | next =>
      have hnext : ByteQueue.next L q = (.error e, q) := by
        rw [ByteQueue.next_eq hL, verdict_of_error hq]
        rfl
      simp only [ByteQueue.step, hnext]
      refine ⟨hq, ?_, fun calls answers => rfl⟩
      intro r hr
      exact (Answer.returned.inj hr).symm
  | reset => exact absurd rfl hcall

/-- A history without `reset()` on a queue that the probe refuses. -/
theorem byteQueue_exec_refused {L : Limits p} (hL : L.Valid) {q : List UInt8} {e : Error}
    (hq : probe L q = .error e) {calls : List Call} (hcalls : Call.reset ∉ calls) :
    probe L ((ByteQueue.machine L).exec q calls) = .error e ∧
      (∀ r, Answer.returned r ∈ (ByteQueue.machine L).outs q calls → r = .error e) ∧
      (ByteQueue.machine L).exec q calls =
        q ++ acceptedBytes calls ((ByteQueue.machine L).outs q calls) := by
  induction calls generalizing q with
  | nil => simpa [acceptedBytes] using hq
  | cons call calls ih =>
      have hcall : call ≠ .reset := fun h => hcalls (h ▸ List.mem_cons_self ..)
      obtain ⟨hprobe, hanswer, hbytes⟩ := byteQueue_step_refused hL hq hcall
      obtain ⟨hlast, hanswers, hexec⟩ := ih hprobe fun h => hcalls (List.mem_cons_of_mem call h)
      rw [Machine.exec_cons, Machine.outs_cons, ByteQueue.machine_step]
      refine ⟨hlast, ?_, ?_⟩
      · intro r hr
        rcases List.mem_cons.1 hr with hfirst | hrest
        · exact hanswer r hfirst.symm
        · exact hanswers r hrest
      · rw [hexec]
        exact hbytes _ _

theorem probe_of_next_error {d : StreamDecoder p} (h : d.Tidy) {e : Error}
    (he : d.next.1 = .error e) : d.limits.Valid ∧ probe d.limits d.unread = .error e := by
  rw [(next_spec h).1] at he
  have hne : d.unread ≠ [] := by
    intro hempty
    rw [ByteQueue.next, if_pos hempty] at he
    cases he
  have hL := h.valid_of_unread hne
  exact ⟨hL, verdict_refused_iff.1 ((ByteQueue.next_error_iff hL).1 he)⟩

/-- **Failing closed.**  Once `next()` has returned an error, every `next()` of
any history without `reset()` returns the same error, and the buffer only grows,
by exactly the accepted bytes.  After `reset()` no history can tell the decoder
from a new one. -/
theorem error_until_reset (L : Limits p) (d : StreamDecoder p) (hd : (machine L).Reachable d)
    (e : Error) (he : d.next.1 = .error e) (calls : List Call) (hcalls : Call.reset ∉ calls) :
    (∀ r, Answer.returned r ∈ (machine L).outs d calls → r = .error e) ∧
      ((machine L).exec d calls).unread =
        d.unread ++ acceptedBytes calls ((machine L).outs d calls) ∧
      ((machine L).exec d calls).bufferedSize =
        d.bufferedSize + (acceptedBytes calls ((machine L).outs d calls)).length ∧
      ((machine L).exec d calls).next.1 = .error e ∧
      ∀ calls', (machine L).outs ((machine L).exec d calls).reset calls' =
          (machine L).outs (machine L).init calls' ∧
        (machine L).exec ((machine L).exec d calls).reset calls' =
          (machine L).exec (machine L).init calls' := by
  have hinv := tidy_of_reachable hd
  have hinv' : ((machine L).exec d calls).limits = L ∧ ((machine L).exec d calls).Tidy :=
    (machine L).exec_induction (refines L).step_inv hinv calls
  have hreset : ((machine L).exec d calls).reset = (machine L).init := by
    rw [machine_init, reset, hinv'.1]
  have houts := (refines L).outs_eq_of_inv hinv calls
  have hexec := (refines L).exec_eq_of_inv hinv calls
  obtain ⟨rfl, htidy⟩ := hinv
  obtain ⟨hL, hprobe⟩ := probe_of_next_error htidy he
  obtain ⟨hlast, hanswers, hbytes⟩ := byteQueue_exec_refused hL hprobe hcalls
  rw [← houts] at hanswers hbytes
  rw [← hexec] at hlast hbytes
  refine ⟨hanswers, hbytes, ?_, ?_, ?_⟩
  · rw [hinv'.2.bufferedSize_eq, hbytes, List.length_append, htidy.bufferedSize_eq]
  · rw [(next_spec hinv'.2).1, hinv'.1, ByteQueue.next_error_iff hL]
    exact verdict_of_error hlast
  · intro calls'
    rw [hreset]
    exact ⟨rfl, rfl⟩

/-- Four bytes that are not the magic, then three more and another `next()`: the
error stays and so do the seven bytes. -/
theorem error_until_reset_bad_magic :
    ((machine smallTestLimits).exec ⟨smallTestLimits, [0, 0, 0, 0], 0⟩
        [.push [1, 2, 3], .next]).bufferedSize = 7 ∧
      ((machine smallTestLimits).exec ⟨smallTestLimits, [0, 0, 0, 0], 0⟩
        [.push [1, 2, 3], .next]).next.1 =
          .error ⟨.invalidMagic, "protocol frame magic mismatch"⟩ := by
  have h := error_until_reset smallTestLimits ⟨smallTestLimits, [0, 0, 0, 0], 0⟩
    ⟨[.push [0, 0, 0, 0]], rfl⟩ ⟨.invalidMagic, "protocol frame magic mismatch"⟩ (by decide)
    [.push [1, 2, 3], .next] (by decide)
  exact ⟨h.2.2.1, h.2.2.2.1⟩

end StreamDecoder
end Protocol
end Vosp
