import Mathlib

/-!
# Transport values and errors

The data of `vosp::transport`: endpoints, options and policies with their `valid`
checks, owning datagrams, and the error model, which unlike the protocol's
carries a native error code.

`std::chrono::milliseconds` are integers.  A `NativeAddress` is the address bytes
and the family; a `NativeSocket` is a handle or the invalid value, so an
`Option Handle`.
-/

namespace Vosp
namespace Transport

/-- `transport::ErrorCode`. -/
inductive ErrorCode where
  | invalidArgument
  | addressResolutionFailed
  | socketCreationFailed
  | optionFailed
  | bindFailed
  | listenFailed
  | acceptFailed
  | connectFailed
  | sendFailed
  | receiveFailed
  | peerClosed
  | notConnected
  | retryLimitExceeded
  | datagramTooLarge
  | platformInitializationFailed
  deriving DecidableEq, Repr

/-- `transport::Error`. -/
structure Error where
  code : ErrorCode
  message : String
  nativeCode : Int := 0
  deriving DecidableEq, Repr

/-- `transport::Result`, an `std::expected`. -/
abbrev Result (α : Type) := Except Error α

/-- `detail::failure`. -/
def failure {α : Type} (code : ErrorCode) (message : String) (nativeCode : Int := 0) : Result α :=
  .error ⟨code, message, nativeCode⟩

/-- `IpEndpoint`. -/
structure IpEndpoint where
  host : String := ""
  port : UInt16 := 0
  deriving DecidableEq, Repr

/-- `IpEndpoint::valid`. -/
def IpEndpoint.valid (endpoint : IpEndpoint) : Bool := decide (endpoint.host ≠ "")

/-- `IoOptions`, in milliseconds. -/
structure IoOptions where
  receiveTimeout : Int := 0
  sendTimeout : Int := 0
  deriving DecidableEq, Repr

/-- `IoOptions::valid`. -/
def IoOptions.valid (options : IoOptions) : Bool :=
  decide (options.receiveTimeout ≥ 0) && decide (options.sendTimeout ≥ 0)

/-- `ReconnectPolicy`, in milliseconds. -/
structure ReconnectPolicy where
  maxAttempts : Nat := 3
  initialDelay : Int := 10
  maximumDelay : Int := 1000
  deriving DecidableEq, Repr

/-- `ReconnectPolicy::hard_attempt_limit`. -/
def ReconnectPolicy.hardAttemptLimit : Nat := 1024

/-- `ReconnectPolicy::valid`. -/
def ReconnectPolicy.valid (policy : ReconnectPolicy) : Bool :=
  decide (policy.maxAttempts > 0) && decide (policy.maxAttempts ≤ hardAttemptLimit) &&
    decide (policy.initialDelay ≥ 0) && decide (policy.maximumDelay ≥ policy.initialDelay)

/-- `Datagram`. -/
structure Datagram where
  endpoint : IpEndpoint := {}
  payload : List UInt8 := []
  deriving DecidableEq, Repr

/-! ## The types of `socket_platform.hpp` -/

/-- `detail::SocketType`. -/
inductive SocketType where
  | stream
  | datagram
  deriving DecidableEq, Repr

/-- The value of a valid `detail::NativeSocket`. -/
abbrev Handle := Nat

/-- `detail::NativeAddress`; `storage` are the bytes in use. -/
structure NativeAddress where
  storage : List UInt8 := []
  family : Int := 0
  deriving DecidableEq, Repr

/-- `detail::AcceptedSocket`. -/
structure AcceptedSocket where
  socket : Handle
  remote : NativeAddress
  deriving DecidableEq, Repr

/-- `detail::ReceivedDatagram`, with the bytes it wrote to its output: their number
is the field `size` of the source. -/
structure ReceivedDatagram where
  remote : NativeAddress
  payload : List UInt8 := []
  deriving DecidableEq, Repr

end Transport
end Vosp
