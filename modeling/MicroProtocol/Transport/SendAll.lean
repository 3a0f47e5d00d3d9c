import MicroProtocol.Lib.Logged
import MicroProtocol.Transport.Sockets
import MicroProtocol.Transport.Tcp

/-!
# `TcpStream::send_all` is all or closed

The operating system may take any part of the bytes it is offered, so `send_all`
calls `send` again and again with what is left, and both of them may close the
stream.  What went out is read off the log: `transmitted` puts together the parts
that the native sends reported, and `closings` lists the handles that were
closed.

* `SendsAtMost` — a native send reports no more than it was offered.
* `run_send` — the three ways a `send` of a connected stream can end.
* `AllOrClosed` — either all the rest goes out and the stream is as it was, or a part
  of it does and the stream is closed; `sendAllFrom_spec` — so ends the loop, from any
  offset on.
* `send_all_or_closed` — the same for `send_all`, with what it means for later
  sends.
-/

namespace Vosp
namespace Transport

open Detail Logged

/-- A native send reports at most what it was offered. -/
def SendsAtMost (N : Native) : Prop :=
  ∀ log socket bytes n, N.sendSocket log socket bytes = .ok n → n ≤ min bytes.length intMax

theorem Layer.sendsAtMost (layer : Layer) : SendsAtMost layer.native := by
  intro log socket bytes n h
  obtain ⟨sent, hsend, rfl⟩ := Sockets.checked_eq_ok_iff.1 h
  have hle := layer.sys.send_le hsend
  rw [List.length_take, min_comm] at hle
  exact hle

/-- The bytes a native send took. -/
def Event.taken : Event → List UInt8
  | .sendSocket _ bytes (.ok n) => bytes.take n
  | _ => []

/-- The bytes that the native sends of a log took, oldest first. -/
def transmitted : Log → List UInt8
  | [] => []
  | e :: log => transmitted log ++ e.taken

/-- The handles that were closed, newest first. -/
def closings (log : Log) : List Handle :=
  log.filterMap fun
    | .close socket => some socket
    | _ => none

/-- The number of native sends. -/
def sends (log : Log) : Nat :=
  log.countP fun
    | .sendSocket .. => true
    | _ => false

theorem transmitted_append (calls log : Log) :
    transmitted (calls ++ log) = transmitted log ++ transmitted calls := by
  induction calls with
  | nil => simp [transmitted]
  | cons e calls ih => rw [List.cons_append, transmitted, transmitted, ih, List.append_assoc]

theorem closings_append (calls log : Log) :
    closings (calls ++ log) = closings calls ++ closings log := List.filterMap_append

theorem sends_append (calls log : Log) : sends (calls ++ log) = sends calls + sends log :=
  List.countP_append

namespace TcpStream

variable {N : Native}

/-- The stream after `close`. -/
def closed (s : TcpStream) : TcpStream :=
  ⟨s.implementation.map fun impl => { impl with socket := none }⟩

@[simp] theorem socket_closed (s : TcpStream) : s.closed.socket = none := by
  obtain ⟨_ | impl⟩ := s <;> rfl

theorem run_close {s : TcpStream} {socket : Handle} (hs : s.socket = some socket) (log : Log) :
    s.close.run log = (s.closed, .close socket :: .shutdown socket :: log) := by
  obtain ⟨_ | ⟨_ | handle, options, policy, endpoint⟩⟩ := s
  · cases hs
  · cases hs
  · cases hs
    rfl

/-- A stream that is not connected makes no native send. -/
theorem send_of_closed {s : TcpStream} (hs : s.socket = none) (bytes : List UInt8) :
    s.send N bytes = pure (failure .notConnected "TCP stream is not connected", s) := by
  simp [send, hs]

/-- The only method without a guard of its own: `send` reports the error, if it is called. -/
theorem sendAll_of_closed {s : TcpStream} (hs : s.socket = none) {bytes : List UInt8}
    (hbytes : bytes ≠ []) :
    s.sendAll N bytes = pure (failure .notConnected "TCP stream is not connected", s) := by
  have hlength : 0 < bytes.length := List.length_pos_iff.2 hbytes
  rw [sendAll, sendAllFrom, if_pos hlength, send_of_closed hs]
  rfl

theorem sendAll_nil (s : TcpStream) : s.sendAll N [] = pure (.ok 0, s) := by
  rw [sendAll, sendAllFrom]
  rfl

/-- A connected stream passes the bytes on; when that fails it closes. -/
theorem run_send {s : TcpStream} {socket : Handle} (hs : s.socket = some socket)
    {bytes : List UInt8} (hne : bytes ≠ []) (log : Log) :
    (s.send N bytes).run log =
      match N.sendSocket log socket bytes with
      | .ok n => ((.ok n, s), .sendSocket socket bytes (.ok n) :: log)
      | .error e => ((.error e, s.closed),
          .close socket :: .shutdown socket :: .sendSocket socket bytes (.error e) :: log) := by
  rw [send, hs]
  simp only [if_neg hne, run_bind, sendSocket, run_call]
  cases N.sendSocket log socket bytes with
  | ok n => rfl
  | error e =>
      simp only [run_bind, run_close hs]
      rfl

/-- One iteration of `send_all`, after a native send that took something. -/
theorem run_sendAllFrom_of_sent {s : TcpStream} {socket : Handle} (hs : s.socket = some socket)
    {bytes : List UInt8} {offset n : Nat} {log : Log} (hlt : offset < bytes.length)
    (hsent : N.sendSocket log socket (bytes.drop offset) = .ok (n + 1)) :
    (sendAllFrom N bytes offset s).run log = (sendAllFrom N bytes (offset + (n + 1)) s).run
      (.sendSocket socket (bytes.drop offset) (.ok (n + 1)) :: log) := by
  have hne : bytes.drop offset ≠ [] := by simpa using hlt
  rw [sendAllFrom.eq_def N bytes offset, if_pos hlt]
  simp only [run_bind, run_send hs hne, hsent]

/-- What becomes of the bytes that are left of `total`: either all of them go out and
the stream is as it was, or a part of them does and the stream is closed, once. -/
def AllOrClosed (s : TcpStream) (socket : Handle) (total : Nat) (rest : List UInt8) (log : Log)
    (out : (Result Nat × TcpStream) × Log) : Prop :=
  ∃ calls, out.2 = calls ++ log ∧ sends calls ≤ rest.length ∧
    ((out.1 = (.ok total, s) ∧ transmitted calls = rest ∧ closings calls = []) ∨
      ∃ e, out.1 = (.error e, s.closed) ∧ transmitted calls <+: rest ∧ closings calls = [socket])

/-- A native send that took nothing, after which the stream is closed. -/
theorem allOrClosed_closed {s : TcpStream} {socket : Handle} {total : Nat} {rest : List UInt8}
    (hne : rest ≠ []) {answer : Result Nat}
    (htaken : (Event.sendSocket socket rest answer).taken = []) (e : Error) (log : Log) :
    AllOrClosed s socket total rest log ((.error e, s.closed),
      .close socket :: .shutdown socket :: .sendSocket socket rest answer :: log) := by
  refine ⟨[.close socket, .shutdown socket, .sendSocket socket rest answer], rfl, ?_, .inr ?_⟩
  · show 1 ≤ rest.length
    exact List.length_pos_iff.2 hne
  · refine ⟨e, rfl, ?_, rfl⟩
    have hnothing : transmitted [.close socket, .shutdown socket, .sendSocket socket rest answer]
        = [] := by
      simp only [transmitted, htaken]
      rfl
    rw [hnothing]
    exact List.nil_prefix

/-- A native send that took a part, and the rest. -/
theorem AllOrClosed.after {s : TcpStream} {socket : Handle} {total n : Nat} {rest : List UInt8}
    {log : Log} {out : (Result Nat × TcpStream) × Log} (hpos : 0 < n) (hle : n ≤ rest.length)
    (h : AllOrClosed s socket total (rest.drop n) (.sendSocket socket rest (.ok n) :: log) out) :
    AllOrClosed s socket total rest log out := by
  obtain ⟨calls, hcalls, hsends, hend⟩ := h
  have hpart : transmitted (calls ++ [.sendSocket socket rest (.ok n)])
      = rest.take n ++ transmitted calls := by
    rw [transmitted_append]
    rfl
  have hclosings : closings (calls ++ [.sendSocket socket rest (.ok n)]) = closings calls := by
    rw [closings_append]
    exact List.append_nil _
  refine ⟨calls ++ [.sendSocket socket rest (.ok n)], ?_, ?_, ?_⟩
  · rw [List.append_assoc]
    exact hcalls
  · rw [sends_append]
    rw [List.length_drop] at hsends
    show sends calls + 1 ≤ rest.length
    omega
  · rw [hclosings, hpart]
    rcases hend with ⟨hrun, htrans, hclose⟩ | ⟨e, hrun, htrans, hclose⟩
    · refine .inl ⟨hrun, ?_, hclose⟩
      rw [htrans, List.take_append_drop]
    · refine .inr ⟨e, hrun, ?_, hclose⟩
      have hprefix := (List.prefix_append_right_inj (rest.take n)).2 htrans
      rwa [List.take_append_drop] at hprefix

/-- **The loop of `send_all`**, from `offset` on. -/
theorem sendAllFrom_spec (hN : SendsAtMost N) {s : TcpStream} {socket : Handle}
    (hs : s.socket = some socket) (bytes : List UInt8) {offset : Nat}
    (hoffset : offset ≤ bytes.length) (log : Log) :
    AllOrClosed s socket bytes.length (bytes.drop offset) log
      ((sendAllFrom N bytes offset s).run log) := by
  -- induction on what is left to send
  induction hleft : bytes.length - offset using Nat.strong_induction_on generalizing offset log with
  | _ left ih =>
      subst hleft
      by_cases hdone : offset < bytes.length
      swap
      · obtain rfl : offset = bytes.length := by omega
        rw [sendAllFrom, if_neg hdone, run_pure, List.drop_length]
        exact ⟨[], rfl, Nat.zero_le _, .inl ⟨rfl, rfl, rfl⟩⟩
      have hne : bytes.drop offset ≠ [] := by simpa using hdone
      cases hsent : N.sendSocket log socket (bytes.drop offset) with
      | error e =>
          rw [sendAllFrom, if_pos hdone]
          simp only [run_bind, run_send hs hne, hsent]
          exact allOrClosed_closed hne rfl e log
      | ok n =>
          have hle := (hN log socket (bytes.drop offset) n hsent).trans (Nat.min_le_left _ _)
          cases n with
          | zero =>
              rw [sendAllFrom, if_pos hdone]
              simp only [run_bind, run_send hs hne, hsent, run_close hs]
              exact allOrClosed_closed hne rfl _ log
          | succ n =>
              rw [run_sendAllFrom_of_sent hs hdone hsent]
              refine AllOrClosed.after (Nat.succ_pos n) hle ?_
              rw [List.length_drop] at hle
              rw [List.drop_drop]
              exact ih (bytes.length - (offset + (n + 1))) (by omega) (by omega) _ rfl

/-- **`send_all` is all or closed.**  On a connected stream it makes at most one
native send for each byte.  If it returns `n`, that is the length of the span, the
bytes transmitted during the call are the span, and the stream is the same,
still connected.  If it fails, the bytes transmitted are a prefix of the span, the
stream is no longer connected and its handle was closed once, and no later `send`
or `send_all` makes a native call. -/
theorem send_all_or_closed (hN : SendsAtMost N) {s : TcpStream} {socket : Handle}
    (hs : s.socket = some socket) (bytes : List UInt8) (log : Log) :
    ∃ calls, ((s.sendAll N bytes).run log).2 = calls ++ log ∧
      sends calls ≤ bytes.length ∧
      (∀ n, ((s.sendAll N bytes).run log).1.1 = .ok n →
        n = bytes.length ∧ transmitted calls = bytes ∧ closings calls = [] ∧
        ((s.sendAll N bytes).run log).1.2 = s ∧
        ((s.sendAll N bytes).run log).1.2.connected = true) ∧
      ∀ e, ((s.sendAll N bytes).run log).1.1 = .error e →
        transmitted calls <+: bytes ∧ closings calls = [socket] ∧
        ((s.sendAll N bytes).run log).1.2.connected = false ∧
        ∀ (more : List UInt8) (later : Log),
          (((s.sendAll N bytes).run log).1.2.send N more).run later
            = ((failure .notConnected "TCP stream is not connected",
                ((s.sendAll N bytes).run log).1.2), later) ∧
          ((((s.sendAll N bytes).run log).1.2.sendAll N more).run later).2 = later := by
  obtain ⟨calls, hcalls, hsends, hend⟩ := sendAllFrom_spec hN hs bytes (Nat.zero_le _) log
  rw [List.drop_zero] at hsends hend
  refine ⟨calls, hcalls, hsends, ?_, ?_⟩
  · intro n hn
    obtain ⟨hrun, htrans, hclose⟩ | ⟨e, hrun, -, -⟩ := hend
    · rw [sendAll, hrun] at hn
      cases hn
      refine ⟨rfl, htrans, hclose, ?_, ?_⟩
      · rw [sendAll, hrun]
      · rw [sendAll, hrun, connected, hs]
        rfl
    · rw [sendAll, hrun] at hn
      cases hn
  · intro e he
    obtain ⟨hrun, -, -⟩ | ⟨e', hrun, htrans, hclose⟩ := hend
    · rw [sendAll, hrun] at he
      cases he
    · rw [sendAll, hrun]
      refine ⟨htrans, hclose, ?_, ?_⟩
      · rw [connected, socket_closed]
        rfl
      · intro more later
        rw [send_of_closed s.socket_closed]
        refine ⟨rfl, ?_⟩
        by_cases hmore : more = []
        · rw [hmore, sendAll_nil]
          rfl
        · rw [sendAll_of_closed s.socket_closed hmore]
          rfl

/-- A system that sends at most two bytes at a time. -/
def dribbling : Sys :=
  { Sys.obliging with
    send := fun _ _ bytes => .ok (min bytes.length 2)
    send_le := by
      intro log socket bytes sent h
      cases h
      exact Nat.min_le_left _ _ }

/-- Five bytes go out in three native sends, on both platforms. -/
theorem send_all_or_closed_in_parts :
    let s : TcpStream := ⟨some { socket := some 7 }⟩
    let posix := (s.sendAll (Layer.posix dribbling).native [1, 2, 3, 4, 5]).run []
    let windows := (s.sendAll (Layer.windows dribbling 0).native [1, 2, 3, 4, 5]).run []
    posix.1.1 = .ok 5 ∧ transmitted posix.2 = [1, 2, 3, 4, 5] ∧ sends posix.2 ≤ 5 ∧
      windows.1.1 = .ok 5 ∧ transmitted windows.2 = [1, 2, 3, 4, 5] ∧ sends windows.2 ≤ 5 := by
  intro s posix windows
  have hposix : posix.1.1 = .ok 5 := by
    simp only [posix, sendAll]
    rw [run_sendAllFrom_of_sent (n := 1) rfl (by decide) rfl,
      run_sendAllFrom_of_sent (n := 1) rfl (by decide) rfl,
      run_sendAllFrom_of_sent (n := 0) rfl (by decide) rfl, sendAllFrom]
    rfl
  have hwindows : windows.1.1 = .ok 5 := by
    simp only [windows, sendAll]
    rw [run_sendAllFrom_of_sent (n := 1) rfl (by decide) rfl,
      run_sendAllFrom_of_sent (n := 1) rfl (by decide) rfl,
      run_sendAllFrom_of_sent (n := 0) rfl (by decide) rfl, sendAllFrom]
    rfl
  obtain ⟨calls, hcalls, hsends, hok, -⟩ :=
    send_all_or_closed (Layer.posix dribbling).sendsAtMost (s := s) rfl [1, 2, 3, 4, 5] []
  obtain ⟨calls', hcalls', hsends', hok', -⟩ :=
    send_all_or_closed (Layer.windows dribbling 0).sendsAtMost (s := s) rfl [1, 2, 3, 4, 5] []
  rw [List.append_nil] at hcalls hcalls'
  subst hcalls hcalls'
  exact ⟨hposix, (hok 5 hposix).2.1, hsends, hwindows, (hok' 5 hwindows).2.1, hsends'⟩

end TcpStream
end Transport
end Vosp
