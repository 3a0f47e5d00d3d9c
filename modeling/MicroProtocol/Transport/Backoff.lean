import MicroProtocol.Lib.Checked
import MicroProtocol.Transport.Reconnect

/-!
# The doubling in `TcpStream::reconnect` under checked execution

The pause between two attempts is doubled first and capped afterwards, in signed 64-bit
milliseconds.  `Reconnect` computes in exact integers; here the loop is run once more with a
product that is `none` when it does not fit.

`ReconnectPolicy::valid` bounds the delays from below only, so the doubling can go wrong for
a policy that it accepts.

* `Sanitized.reconnect` — `reconnect` with a checked product.
* `DoublesExactly` — every product that a run can come to fits, and `doublesExactly_iff`
  for what that means for the three numbers of the policy.
* `Sanitized.reconnectLoop_eq`, `Sanitized.reconnectLoop_none` — the loop, with and without
  that property, by induction on the attempts that are left.
* `backoff_exact_iff` — the policies for which `reconnect` never overflows.
-/

namespace Vosp
namespace Transport

open Custody Detail Logged

namespace TcpStream
namespace Sanitized

variable (N : Native)

/-- The loop of `TcpStream::reconnect`. -/
def reconnectLoop (endpoint : IpEndpoint) (policy : ReconnectPolicy) :
    Nat → Int → Option Error → TcpStream → Net (Option (Result Unit × TcpStream))
  | 0, _, lastError, s =>
      pure (some (failure .retryLimitExceeded "TCP reconnect retry limit exceeded"
        (match lastError with
          | some e => e.nativeCode
          | none => 0), s))
  | attempts + 1, delay, _, s => do
      match ← connect N endpoint s with
      | (.ok (), s) => pure (some (.ok (), s))
      | (.error e, s) =>
          if attempts > 0 ∧ delay > 0 then do
            sleepFor delay
            match Checked.signed 63 (delay * 2) with
            | none => pure none
            | some doubled =>
                reconnectLoop endpoint policy attempts (min doubled policy.maximumDelay) (some e) s
          else reconnectLoop endpoint policy attempts delay (some e) s

/-- `TcpStream::reconnect`. -/
def reconnect (s : TcpStream) : Net (Option (Result Unit × TcpStream)) :=
  match s.implementation with
  | none =>
      pure (some (failure .notConnected "TCP reconnect requires a previous endpoint", s))
  | some impl =>
      match impl.endpoint with
      | none => pure (some (failure .notConnected "TCP reconnect requires a previous endpoint", s))
      | some endpoint =>
          if impl.reconnectPolicy.valid = false then
            pure (some (failure .invalidArgument "TCP reconnect policy is invalid", s))
          else
            reconnectLoop N endpoint impl.reconnectPolicy impl.reconnectPolicy.maxAttempts
              impl.reconnectPolicy.initialDelay none s

end Sanitized
end TcpStream

/-! ## Policies -/

namespace ReconnectPolicy

/-- The doubling after attempt `k` fits, for every attempt that is followed by another. -/
def DoublesExactly (policy : ReconnectPolicy) : Prop :=
  ∀ k, k + 1 < policy.maxAttempts → policy.backoff k * 2 < 2 ^ 63

variable {policy : ReconnectPolicy}

theorem scaled_le (h : policy.valid = true) {j k : Nat} (hjk : j ≤ k) :
    policy.initialDelay * 2 ^ j ≤ policy.initialDelay * 2 ^ k := by
  obtain ⟨-, -, hnonneg, -⟩ := valid_iff.1 h
  exact mul_le_mul_of_nonneg_left (pow_le_pow_right₀ (by decide) hjk) hnonneg

/-- Either the cap keeps the delay small, or the attempts run out before it is large. -/
theorem doublesExactly_iff (h : policy.valid = true) (hmaximum : policy.maximumDelay < 2 ^ 63) :
    policy.DoublesExactly ↔ policy.maximumDelay < 2 ^ 62 ∨
      policy.initialDelay * 2 ^ (policy.maxAttempts - 1) < 2 ^ 63 := by
  obtain ⟨hpos, -, -, hle⟩ := valid_iff.1 h
  constructor
  · intro hexact
    rcases Nat.lt_or_ge 1 policy.maxAttempts with hmany | hone
    · -- the last product is the largest
      obtain ⟨k, hk⟩ : ∃ k, policy.maxAttempts = k + 2 := ⟨policy.maxAttempts - 2, by omega⟩
      have hlast := hexact k (by omega)
      have hscaled : policy.initialDelay * 2 ^ (k + 1) = policy.initialDelay * 2 ^ k * 2 := by ring
      rw [hk, show k + 2 - 1 = k + 1 from rfl, hscaled]
      unfold backoff at hlast
      omega
    · right
      rw [show policy.maxAttempts - 1 = 0 by omega, pow_zero, mul_one]
      omega
  · rintro (hcap | hfew) k hk
    · have := policy.backoff_le k
      omega
    · have hscaled := scaled_le h (show k + 1 ≤ policy.maxAttempts - 1 by omega)
      have hbackoff : policy.backoff k ≤ policy.initialDelay * 2 ^ k := min_le_left _ _
      rw [pow_succ, ← mul_assoc] at hscaled
      omega

theorem backoff_nonneg (h : policy.valid = true) (k : Nat) : 0 ≤ policy.backoff k := by
  have hscaled := scaled_nonneg h k
  obtain ⟨-, -, hnonneg, hle⟩ := valid_iff.1 h
  unfold backoff
  omega

/-- If there is ever a pause, there is one after the first attempt. -/
theorem backoff_pos (h : policy.valid = true) {j : Nat} (hj : 0 < policy.backoff j) (k : Nat) :
    0 < policy.backoff k := by
  obtain ⟨-, -, hnonneg, hle⟩ := valid_iff.1 h
  have hinitial : 0 < policy.initialDelay := by
    by_contra hnot
    have hzero : policy.initialDelay = 0 := by omega
    rw [backoff, hzero, zero_mul] at hj
    omega
  have hscaled : 0 < policy.initialDelay * 2 ^ k := mul_pos hinitial (pow_pos (by decide) k)
  unfold backoff
  omega

end ReconnectPolicy

namespace TcpStream
namespace Sanitized

variable {N : Native} {endpoint : IpEndpoint} {policy : ReconnectPolicy}

/-- The delay the loop has come to is `backoff k`, so its next product is one that fits. -/
theorem reconnectLoop_eq (hvalid : policy.valid = true) (hexact : policy.DoublesExactly)
    {attempts k : Nat} (hk : k + attempts = policy.maxAttempts) (lastError : Option Error)
    (s : TcpStream) :
    reconnectLoop N endpoint policy attempts (policy.backoff k) lastError s
      = some <$> TcpStream.reconnectLoop N endpoint policy attempts (policy.backoff k) lastError s := by
  induction attempts generalizing k lastError s with
  | zero => rfl
  | succ attempts ih =>
      rw [reconnectLoop, TcpStream.reconnectLoop, map_bind]
      refine bind_congr fun r => ?_
      obtain ⟨e | u, s'⟩ := r
      · simp only
        split_ifs with hpause
        · have hfits : Checked.signed 63 (policy.backoff k * 2) = some (policy.backoff k * 2) := by
            have hnonneg := ReconnectPolicy.backoff_nonneg hvalid k
            exact Checked.signed_eq (by omega) (hexact k (by omega))
          rw [map_bind]
          refine bind_congr fun _ => ?_
          rw [hfits]
          dsimp only
          rw [ReconnectPolicy.backoff_succ hvalid]
          exact ih (by omega) _ _
        · by_cases hmore : attempts = 0
          · subst hmore
            rfl
          · rw [← ReconnectPolicy.backoff_succ_of_not_pos hvalid (k := k) (by omega)]
            exact ih (by omega) _ _
      · rfl

/-- `reconnect` computes what it is meant to. -/
theorem reconnect_eq {impl : Impl} (hexact : impl.reconnectPolicy.DoublesExactly) :
    reconnect N ⟨some impl⟩ = some <$> TcpStream.reconnect N ⟨some impl⟩ := by
  unfold reconnect TcpStream.reconnect
  cases hendpoint : impl.endpoint with
  | none => simp only [hendpoint, map_pure]
  | some endpoint =>
      simp only [hendpoint]
      split_ifs with hinvalid
      · rw [map_pure]
      · have hvalid : impl.reconnectPolicy.valid = true := by simpa using hinvalid
        rw [← ReconnectPolicy.backoff_zero hvalid]
        exact reconnectLoop_eq hvalid hexact (Nat.zero_add _) none ⟨some impl⟩

end Sanitized

/-! ## A host that cannot be resolved -/

/-- An operating system that knows no host. -/
def unresolving : Layer :=
  .posix { Sys.obliging with
    getaddrinfo := fun _ _ _ _ _ => .error 1
    getaddrinfo_family := by
      intro log host service type passive entries h
      cases h }

/-- What `connect` leaves behind when it fails. -/
def Impl.failed (impl : Impl) (endpoint : IpEndpoint) : Impl :=
  { impl with socket := none, endpoint := some endpoint }

theorem connect_unresolving {impl : Impl} {endpoint : IpEndpoint} (h : impl.Accepts endpoint) :
    ∃ e, ∀ log, ((connect unresolving.native endpoint ⟨some impl⟩).run log).1
      = (.error e, ⟨some (impl.failed endpoint)⟩) := by
  have hresolve : ∃ e, ∀ log, unresolving.native.resolve log endpoint .stream false = .error e := by
    refine ⟨⟨.addressResolutionFailed, unresolving.dialect.resolutionMessage 1, 1⟩, fun log => ?_⟩
    change (if endpoint.valid = false then _ else _) = _
    rw [if_neg (by simp [h.endpoint])]
    rfl
  obtain ⟨e, hresolve⟩ := hresolve
  refine ⟨e, fun log => ?_⟩
  have haccepts : ¬ (endpoint.valid = false ∨ impl.options.valid = false ∨
      impl.reconnectPolicy.valid = false) := by simp [h.endpoint, h.options, h.policy]
  simp only [connect, if_neg haccepts, resolve, run_bind, run_call, hresolve, run_pure]
  rfl

namespace Sanitized

/-- Once a product does not fit, every run of failed attempts comes to it. -/
theorem reconnectLoop_none {policy : ReconnectPolicy} (hvalid : policy.valid = true)
    {endpoint : IpEndpoint} {impl : Impl} (haccepts : impl.Accepts endpoint) {j : Nat}
    (hj : j + 1 < policy.maxAttempts) (hover : 2 ^ 63 ≤ policy.backoff j * 2)
    {attempts k : Nat} (hk : k + attempts = policy.maxAttempts) (hkj : k ≤ j)
    (lastError : Option Error) (log : Log) :
    ((reconnectLoop unresolving.native endpoint policy attempts (policy.backoff k) lastError
      ⟨some impl⟩).run log).1 = none := by
  induction attempts generalizing k lastError impl log with
  | zero => omega
  | succ attempts ih =>
      obtain ⟨e, hconnect⟩ := connect_unresolving haccepts
      have hpause : attempts > 0 ∧ policy.backoff k > 0 :=
        ⟨by omega, ReconnectPolicy.backoff_pos hvalid (j := j) (by omega) k⟩
      rw [reconnectLoop, run_bind, hconnect]
      simp only [if_pos hpause, run_bind]
      by_cases hfits : policy.backoff k * 2 < 2 ^ 63
      · have hne : k ≠ j := by
          rintro rfl
          omega
        rw [Checked.signed_eq (by omega) hfits]
        dsimp only
        rw [ReconnectPolicy.backoff_succ hvalid]
        have hnext : (impl.failed endpoint).Accepts endpoint :=
          ⟨haccepts.endpoint, haccepts.options, haccepts.policy⟩
        exact ih hnext (by omega) (by omega) _ _
      · rw [Checked.signed_eq_none (not_lt.1 hfits)]
        rfl

end Sanitized

/-- The stream of a program that has failed to connect once. -/
theorem run_connect_unresolving {policy : ReconnectPolicy} (hvalid : policy.valid = true) :
    (World.run unresolving.native
      [.newStream {} policy, .call 0 (.connect ⟨"peer", 80⟩)]).objects[0]?
      = some (some (.stream ⟨some { reconnectPolicy := policy, endpoint := some ⟨"peer", 80⟩ }⟩)) := by
  have haccepts : Impl.Accepts { reconnectPolicy := policy } ⟨"peer", 80⟩ := ⟨rfl, rfl, hvalid⟩
  obtain ⟨e, hconnect⟩ := connect_unresolving haccepts
  have hrun := hconnect []
  simp only [World.run, List.foldl_cons, List.foldl_nil, World.step, List.nil_append,
    List.getElem?_cons_zero, Object.run, run_bind, TcpStream.construct, hrun]
  rfl

/-- **When the doubling is exact.**  For a policy that `valid` accepts, with delays that are
signed 64-bit numbers, no product in any `reconnect` of any program leaves the signed 64-bit
range exactly if the maximum is below `2 ^ 62` milliseconds, or the attempts run out before
the delay gets there. -/
theorem backoff_exact_iff (policy : ReconnectPolicy) (hvalid : policy.valid = true)
    (hmaximum : policy.maximumDelay < 2 ^ 63) :
    (∀ (N : Native) (ops : List Op) (slot : Nat) (impl : Impl),
      (World.run N ops).objects[slot]? = some (some (.stream ⟨some impl⟩)) →
      impl.reconnectPolicy = policy →
      (Sanitized.reconnect N ⟨some impl⟩).run (World.run N ops).log
        = Prod.map some id ((TcpStream.reconnect N ⟨some impl⟩).run (World.run N ops).log)) ↔
    policy.maximumDelay < 2 ^ 62 ∨
      policy.initialDelay * 2 ^ (policy.maxAttempts - 1) < 2 ^ 63 := by
  rw [← ReconnectPolicy.doublesExactly_iff hvalid hmaximum]
  constructor
  · intro hexact k hk
    by_contra hover
    have himpl := run_connect_unresolving hvalid
    have hrun := congrArg Prod.fst (hexact unresolving.native _ 0 _ himpl rfl)
    have haccepts : Impl.Accepts { reconnectPolicy := policy, endpoint := some ⟨"peer", 80⟩ }
        ⟨"peer", 80⟩ := ⟨rfl, rfl, hvalid⟩
    have hnone := Sanitized.reconnectLoop_none hvalid haccepts hk (not_lt.1 hover)
      (Nat.zero_add _) (Nat.zero_le _) none
    rw [ReconnectPolicy.backoff_zero hvalid] at hnone
    simp only [Sanitized.reconnect, hvalid, Bool.true_eq_false, if_false, hnone] at hrun
    cases hrun
  · intro hexact N ops slot impl _ hpolicy
    subst hpolicy
    rw [Sanitized.reconnect_eq hexact]
    rfl

/-- The default policy is one of them. -/
theorem backoff_exact_iff_default :
    let w := World.run refusing.native [.newStream {} {}, .call 0 (.connect ⟨"peer", 80⟩)]
    (Sanitized.reconnect refusing.native ⟨some { endpoint := some ⟨"peer", 80⟩ }⟩).run w.log
      = Prod.map some id
        ((reconnect refusing.native ⟨some { endpoint := some ⟨"peer", 80⟩ }⟩).run w.log) :=
  (backoff_exact_iff {} rfl (by decide)).2 (.inl (by decide)) refusing.native _ 0 _ rfl rfl

/-- A delay of `2 ^ 62` milliseconds is accepted, and cannot be doubled. -/
theorem backoff_overflows :
    let policy : ReconnectPolicy := ⟨2, 2 ^ 62, 2 ^ 62⟩
    let w := World.run unresolving.native [.newStream {} policy, .call 0 (.connect ⟨"peer", 80⟩)]
    let s : TcpStream := ⟨some { reconnectPolicy := policy, endpoint := some ⟨"peer", 80⟩ }⟩
    policy.valid = true ∧ policy.maximumDelay < 2 ^ 63 ∧
      w.objects[0]? = some (some (.stream s)) ∧
      ((Sanitized.reconnect unresolving.native s).run w.log).1 = none :=
  ⟨by decide, by decide, rfl, rfl⟩

end TcpStream

end Transport
end Vosp
