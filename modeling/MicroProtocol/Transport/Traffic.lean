import MicroProtocol.Transport.SendAll

/-!
# The traffic of a TCP stream

What `send_all`, `receive` and `close` do to the two byte strings that a connection is
about: the bytes that the native sends took, `transmitted`, and the bytes that the
native receives gave, `received`.

* `received` — the bytes that were received, read off the log.
* `run_receive` — the ways a `receive` of a connected stream can end.
* `sendAll_traffic`, `receive_traffic`, `close_traffic` — each method on any stream, whether it
  is connected or not.
-/

namespace Vosp
namespace Transport

open Detail Logged

/-- The bytes a native receive gave. -/
def Event.given : Event → List UInt8
  | .receiveSocket _ _ (.ok bytes) => bytes
  | _ => []

/-- The bytes that the native receives of a log gave, oldest first. -/
def received : Log → List UInt8
  | [] => []
  | e :: log => received log ++ e.given

/-- A native receive gives no more than there is room for. -/
def ReceivesAtMost (N : Native) : Prop :=
  ∀ log socket size bytes, N.receiveSocket log socket size = .ok bytes → bytes.length ≤ size

/-- The bytes that a receive returned. -/
def bytesOf : Result (List UInt8) → List UInt8
  | .ok bytes => bytes
  | .error _ => []

namespace TcpStream

variable {N : Native}

/-- A connected stream returns what the native call gave; no bytes mean that the peer is
gone, and end the connection as an error does. -/
theorem run_receive {s : TcpStream} {socket : Handle} (hs : s.socket = some socket) {size : Nat}
    (hsize : size ≠ 0) (log : Log) :
    (s.receive N size).run log =
      match N.receiveSocket log socket size with
      | .error e => ((.error e, s.closed),
          .close socket :: .shutdown socket :: .receiveSocket socket size (.error e) :: log)
      | .ok [] => ((failure .peerClosed "TCP peer closed the stream", s.closed),
          .close socket :: .shutdown socket :: .receiveSocket socket size (.ok []) :: log)
      | .ok (byte :: bytes) =>
          ((.ok (byte :: bytes), s), .receiveSocket socket size (.ok (byte :: bytes)) :: log) := by
  rw [receive, hs]
  simp only [if_neg hsize, run_bind, receiveSocket, run_call]
  rcases N.receiveSocket log socket size with e | _ | ⟨byte, bytes⟩
  · simp only [run_bind, run_close hs]
    rfl
  · simp only [run_bind, run_close hs]
    rfl
  · rfl

/-- A call of `receive`: what it returns is what arrived. -/
theorem receive_traffic (size : Nat) (s : TcpStream) (log : Log) :
    received ((s.receive N size).run log).2
        = received log ++ bytesOf ((s.receive N size).run log).1.1 ∧
      transmitted ((s.receive N size).run log).2 = transmitted log ∧
      (((s.receive N size).run log).1.2.connected = true → s.connected = true) ∧
      ∀ bytes, ((s.receive N size).run log).1.1 = .ok bytes → bytes ≠ [] →
        ∃ socket, N.receiveSocket log socket size = .ok bytes := by
  cases hs : s.socket with
  | none =>
      simp only [receive, hs, run_pure]
      simp [bytesOf, failure]
  | some socket =>
      by_cases hsize : size = 0
      · simp only [receive, hs, if_pos hsize, run_pure]
        simp [bytesOf]
      rw [run_receive hs hsize]
      rcases hgiven : N.receiveSocket log socket size with e | _ | ⟨byte, bytes⟩
      · simp [received, transmitted, Event.given, Event.taken, bytesOf, connected]
      · simp [received, transmitted, Event.given, Event.taken, bytesOf, connected, failure]
      · refine ⟨rfl, by simp [transmitted, Event.taken], id, ?_⟩
        rintro _ ⟨⟩ -
        exact ⟨socket, hgiven⟩

/-- Closing moves no bytes. -/
theorem close_traffic (s : TcpStream) (log : Log) :
    received (s.close.run log).2 = received log ∧
      transmitted (s.close.run log).2 = transmitted log ∧
      (s.close.run log).1.connected = false := by
  obtain ⟨_ | ⟨_ | handle, options, policy, endpoint⟩⟩ := s
  · exact ⟨rfl, rfl, rfl⟩
  · exact ⟨rfl, rfl, rfl⟩
  · rw [run_close rfl]
    simp [received, transmitted, Event.given, Event.taken, connected]

/-- A call that gives no bytes and ends the connection. -/
theorem received_ended {e : Event} (he : e.given = []) (socket : Handle) (log : Log) :
    received (.close socket :: .shutdown socket :: e :: log) = received log := by
  change ((received log ++ e.given) ++ []) ++ [] = received log
  simp [he]

/-- `send_all` makes native sends and at most one native close, and receives nothing. -/
theorem received_sendAllFrom (bytes : List UInt8) (offset : Nat) (s : TcpStream) (log : Log) :
    received ((sendAllFrom N bytes offset s).run log).2 = received log := by
  -- induction on what is left to send
  induction hleft : bytes.length - offset using Nat.strong_induction_on
    generalizing offset s log with
  | _ left ih =>
      subst hleft
      rw [sendAllFrom]
      split_ifs with hdone
      swap
      · rfl
      cases hs : s.socket with
      | none =>
          rw [send_of_closed hs]
          rfl
      | some socket =>
          have hne : bytes.drop offset ≠ [] := by
            intro hnil
            rw [List.drop_eq_nil_iff] at hnil
            omega
          simp only [run_bind, run_send hs hne]
          rcases N.sendSocket log socket (bytes.drop offset) with e | _ | n
          · exact received_ended rfl socket log
          · simp only [run_bind, run_close hs]
            exact received_ended rfl socket log
          · refine (ih _ (by omega) _ s _ rfl).trans ?_
            simp [received, Event.given]

/-- A call of `send_all`: a part of the bytes goes out, none of them unless the stream is
connected, and all of them if it is connected afterwards. -/
theorem sendAll_traffic (hN : SendsAtMost N) (bytes : List UInt8) (s : TcpStream) (log : Log) :
    received ((s.sendAll N bytes).run log).2 = received log ∧
      ∃ sent, transmitted ((s.sendAll N bytes).run log).2 = transmitted log ++ sent ∧
        sent <+: bytes ∧ (s.connected = true ∨ sent = []) ∧
        (((s.sendAll N bytes).run log).1.2.connected = true →
          s.connected = true ∧ sent = bytes) := by
  refine ⟨received_sendAllFrom bytes 0 s log, ?_⟩
  cases hs : s.socket with
  | none =>
      refine ⟨[], ?_⟩
      by_cases hempty : bytes = []
      · rw [hempty, sendAll_nil]
        exact ⟨(List.append_nil _).symm, List.nil_prefix, .inr rfl, fun h => ⟨h, rfl⟩⟩
      · rw [sendAll_of_closed hs hempty]
        refine ⟨(List.append_nil _).symm, List.nil_prefix, .inr rfl, fun h => ?_⟩
        change s.connected = true at h
        simp [connected, hs] at h
  | some socket =>
      obtain ⟨calls, hcalls, -, hend⟩ := sendAllFrom_spec hN hs bytes (Nat.zero_le _) log
      rw [List.drop_zero] at hend
      have hconnected : s.connected = true := by simp [connected, hs]
      refine ⟨transmitted calls, ?_⟩
      rw [sendAll, hcalls, transmitted_append]
      rcases hend with ⟨hrun, htrans, -⟩ | ⟨e, hrun, htrans, -⟩
      · rw [hrun]
        exact ⟨rfl, by rw [htrans], .inl hconnected, fun h => ⟨h, htrans⟩⟩
      · rw [hrun]
        refine ⟨rfl, htrans, .inl hconnected, fun h => ?_⟩
        simp [connected] at h

end TcpStream
end Transport
end Vosp
