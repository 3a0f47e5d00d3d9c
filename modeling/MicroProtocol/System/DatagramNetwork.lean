import MicroProtocol.Protocol.FrameRoundTrip
import MicroProtocol.Transport.UdpTraffic

/-!
# A network of UDP sockets that carry frames

Over UDP, every datagram is one complete frame.  Any number of nodes send and receive, on
either platform and each with limits of its own, and the network loses, repeats and
reorders datagrams as it likes.

* `Node`, `Node.act` — a program with a `UdpSocket` and a `FrameCodec`.
* `Network.Step` — one node acts; what its operating system gives it is some datagram that
  somebody has sent.
* `Network.Faithful` — the invariant of the whole network.
* `datagrams_faithful` — every message that is decoded was sent by somebody, and nothing
  fails to decode but what the receiver's limits do not allow.
-/

namespace Vosp
namespace System

open Protocol (Limits Message wireLayout)
open Protocol.FrameCodec (encode decode Fits Representable)
open Transport (Layer Sys Log IpEndpoint IoOptions UdpSocket launched)

/-- A program that exchanges messages in datagrams. -/
structure Node (p : Platform) where
  /-- The limits of its `FrameCodec`. -/
  limits : Limits p
  socket : UdpSocket
  log : Log := []
  /-- The messages whose frames `send_to` has sent, oldest first. -/
  posted : List Message := []
  /-- What it made of the datagrams it received, with where they came from. -/
  arrived : List (IpEndpoint × Protocol.Result Message) := []

/-- What a node can do. -/
inductive Errand where
  | bind (endpoint : IpEndpoint)
  /-- Encode a message and send the frame. -/
  | post (endpoint : IpEndpoint) (message : Message)
  /-- Receive a datagram of at most `maximumSize` bytes and decode it. -/
  | take (maximumSize : Nat)
  | close

namespace Node

variable {p : Platform}

/-- One action, on the platform `layer`. -/
def act (layer : Layer) (a : Node p) : Errand → Node p
  | .bind endpoint =>
      let ((_, socket), log) := (a.socket.bind layer.native endpoint).run a.log
      { a with socket := socket, log := log }
  | .post endpoint message =>
      match encode a.limits message with
      | .error _ => a
      | .ok frame =>
          match (a.socket.sendTo layer.native endpoint frame).run a.log with
          | ((.ok _, socket), log) =>
              { a with socket := socket, log := log, posted := a.posted ++ [message] }
          | ((.error _, socket), log) => { a with socket := socket, log := log }
  | .take maximumSize =>
      match (a.socket.receive layer.native maximumSize).run a.log with
      | (.ok datagram, log) =>
          { a with
            log := log
            arrived := a.arrived ++ [(datagram.endpoint, decode a.limits datagram.payload)] }
      | (.error _, log) => { a with log := log }
  | .close =>
      let (socket, log) := a.socket.close.run a.log
      { a with socket := socket, log := log }

end Node

section Network

variable {ι : Type} [DecidableEq ι] {p : ι → Platform}

/-- The nodes of a network. -/
abbrev Network (p : ι → Platform) := (i : ι) → Node (p i)

namespace Network

omit [DecidableEq ι] in
/-- Nothing has been sent yet. -/
def start (limits : (i : ι) → Limits (p i)) (options : ι → IoOptions) : Network p :=
  fun i => { limits := limits i, socket := .construct (options i) }

/-- What UDP promises to a node: a datagram it receives has been sent, and is whole. -/
def Carries (sys : Sys) (net : Network p) (i : ι) : Prop :=
  ∀ socket size remote payload, sys.recvfrom (net i).log socket size = .ok (remote, payload) →
    ∃ j, payload ∈ launched (net j).log

/-- One node acts, on a platform `layer` that is whatever answers its calls at that
moment. -/
inductive Step (net : Network p) : Network p → Prop where
  | act {layer : Layer} (i : ι) (errand : Errand) (hcarry : Carries layer.sys net i) :
      Step net (Function.update net i ((net i).act layer errand))

/-- Steps of the nodes in any order. -/
abbrev Run : Network p → Network p → Prop := Relation.ReflTransGen Step

/-- What a node may have made of a datagram: the message `m` that somebody sent, or the
complaint that `m` is beyond its limits. -/
def Reading {q : Platform} (L : Limits q) (m : Message) (r : Protocol.Result Message) : Prop :=
  r = .ok m ∨ ∃ e, r = .error e ∧ e.code = .limitExceeded ∧ ∀ f, encode L m ≠ .ok f

/-- The invariant. -/
structure Faithful (limits : (i : ι) → Limits (p i)) (net : Network p) : Prop where
  limits_eq : ∀ i, (net i).limits = limits i
  representable : ∀ i, ∀ m ∈ (net i).posted, Representable m
  launched_eq : ∀ i, launched (net i).log = (net i).posted.map wireLayout
  arrived : ∀ i, (limits i).Valid → ∀ endpoint r, (endpoint, r) ∈ (net i).arrived →
    ∃ j, ∃ m ∈ (net j).posted, Reading (limits i) m r

omit [DecidableEq ι] in
theorem faithful_start (limits : (i : ι) → Limits (p i)) (options : ι → IoOptions) :
    Faithful limits (start limits options) :=
  ⟨fun _ => rfl, by simp [start], fun _ => rfl, by simp [start]⟩

/-- A whole frame is read as its message, or refused for the receiver's limits. -/
theorem reading_wireLayout {q : Platform} {L : Limits q} (hL : L.Valid) {m : Message}
    (hm : Representable m) : Reading L m (decode L (wireLayout m)) := by
  by_cases hfits : Fits L m
  · have hdecode := Protocol.FrameCodec.decodePrefix_of_fits hL hfits []
    rw [List.append_nil] at hdecode
    exact .inl (Protocol.FrameCodec.decode_eq_ok_iff.2 hdecode)
  · obtain ⟨e, he, hcode⟩ := Protocol.FrameCodec.decodePrefix_of_not_fits hL hm hfits []
    rw [List.append_nil] at he
    refine .inr ⟨e, Protocol.FrameCodec.decode_of_error he, hcode, fun f hf => hfits ?_⟩
    exact (Protocol.FrameCodec.encode_eq_ok_iff.1 hf).2.1

section Steps

variable {limits : (i : ι) → Limits (p i)} {net : Network p} {i : ι}

/-- A node is replaced by one that has posted `posted` more and received `arrived` more. -/
theorem Faithful.update (h : Faithful limits net) {a : Node (p i)} (posted : List Message)
    (arrived : List (IpEndpoint × Protocol.Result Message)) (hlimits : a.limits = (net i).limits)
    (hposted : a.posted = (net i).posted ++ posted) (hnew : ∀ m ∈ posted, Representable m)
    (hlaunched : launched a.log = launched (net i).log ++ posted.map wireLayout)
    (harrived : a.arrived = (net i).arrived ++ arrived)
    (hread : (limits i).Valid → ∀ endpoint r, (endpoint, r) ∈ arrived →
      ∃ j, ∃ m ∈ (net j).posted, Reading (limits i) m r) :
    Faithful limits (Function.update net i a) := by
  -- what has been posted stays posted
  have hgrows : ∀ j, ∀ m ∈ (net j).posted, m ∈ (Function.update net i a j).posted := by
    intro j m hm
    by_cases hj : j = i
    · subst hj
      rw [Function.update_self, hposted]
      exact List.mem_append_left _ hm
    · rwa [Function.update_of_ne hj]
  refine ⟨fun j => ?_, fun j => ?_, fun j => ?_, fun j hL endpoint r hr => ?_⟩
  · by_cases hj : j = i
    · subst hj
      rw [Function.update_self, hlimits, h.limits_eq]
    · rw [Function.update_of_ne hj, h.limits_eq]
  · by_cases hj : j = i
    · subst hj
      rw [Function.update_self, hposted]
      intro m hm
      rcases List.mem_append.1 hm with hm | hm
      · exact h.representable j m hm
      · exact hnew m hm
    · rw [Function.update_of_ne hj]
      exact h.representable j
  · by_cases hj : j = i
    · subst hj
      rw [Function.update_self, hlaunched, hposted, List.map_append, h.launched_eq]
    · rw [Function.update_of_ne hj, h.launched_eq]
  · have hsource : ∃ k, ∃ m ∈ (net k).posted, Reading (limits j) m r := by
      by_cases hj : j = i
      · subst hj
        rw [Function.update_self, harrived] at hr
        rcases List.mem_append.1 hr with hr | hr
        · exact h.arrived j hL endpoint r hr
        · exact hread hL endpoint r hr
      · rw [Function.update_of_ne hj] at hr
        exact h.arrived j hL endpoint r hr
    obtain ⟨k, m, hm, hreading⟩ := hsource
    exact ⟨k, m, hgrows k m hm, hreading⟩

/-- A node that sends and receives nothing. -/
theorem Faithful.idle (h : Faithful limits net) {socket : UdpSocket} {log : Log}
    (hlog : launched log = launched (net i).log) :
    Faithful limits (Function.update net i { net i with socket := socket, log := log }) :=
  h.update [] [] rfl (by simp) (by simp) (by simpa using hlog) (by simp)
    (by simp)

/-- A node posts a message. -/
theorem Faithful.post (h : Faithful limits net) (layer : Layer) (endpoint : IpEndpoint)
    (message : Message) :
    Faithful limits (Function.update net i ((net i).act layer (.post endpoint message))) := by
  simp only [Node.act]
  cases hframe : encode (net i).limits message with
  | error e =>
      rw [Function.update_eq_self]
      exact h
  | ok frame =>
      obtain ⟨hvalid, hfits, rfl⟩ := Protocol.FrameCodec.encode_eq_ok_iff.1 hframe
      have hsent := UdpSocket.sendTo_launched (N := layer.native) endpoint (wireLayout message)
        (net i).socket _ (net i).log rfl
      dsimp only
      split
      · rename_i sent socket log hrun
        rw [hrun] at hsent
        refine h.update [message] [] rfl rfl ?_ hsent (by simp) (by simp)
        intro m hm
        rw [List.mem_singleton.1 hm]
        exact hfits.representable hvalid
      · rename_i e socket log hrun
        rw [hrun] at hsent
        exact h.idle (by simpa [Transport.dispatched] using hsent)

/-- A node receives. -/
theorem Faithful.take (h : Faithful limits net) {layer : Layer} (hcarry : Carries layer.sys net i)
    (maximumSize : Nat) :
    Faithful limits (Function.update net i ((net i).act layer (.take maximumSize))) := by
  have hquiet := Transport.Launched.of_makes (UdpSocket.makes_receive
    (fun e _ he => Transport.Event.noDatagram_of_plain he) maximumSize (net i).socket
    (N := layer.native)) _ (net i).log rfl
  simp only [Node.act]
  split
  · rename_i datagram log hrun
    obtain ⟨socket, given, hgiven, hpayload⟩ :=
      @UdpSocket.receive_given layer.native maximumSize (net i).socket (net i).log datagram
        (by rw [hrun])
    obtain ⟨j, hj⟩ := hcarry socket maximumSize given.remote given.payload
      (layer.receiveDatagram_given hgiven)
    rw [h.launched_eq, hpayload] at hj
    obtain ⟨m, hm, hframe⟩ := List.mem_map.1 hj
    rw [hrun] at hquiet
    refine h.update [] [(datagram.endpoint, _)] rfl (by simp) (by simp)
      (by simpa using hquiet) rfl ?_
    intro hL endpoint r hr
    cases List.mem_singleton.1 hr
    refine ⟨j, m, hm, ?_⟩
    rw [h.limits_eq, ← hframe]
    exact reading_wireLayout hL (h.representable j m hm)
  · rename_i e log hrun
    rw [hrun] at hquiet
    exact h.idle hquiet

/-- **Every step keeps the network faithful.** -/
theorem Faithful.step (h : Faithful limits net) {net' : Network p} (hstep : net.Step net') :
    Faithful limits net' := by
  obtain ⟨i, errand, hcarry⟩ := hstep
  rename_i layer
  cases errand with
  | bind endpoint =>
      exact h.idle (Transport.Launched.of_makes
        (UdpSocket.makes_noDatagram_bind endpoint (net i).socket) _ (net i).log rfl)
  | post endpoint message => exact h.post layer endpoint message
  | take maximumSize => exact h.take hcarry maximumSize
  | close =>
      exact h.idle (Transport.Launched.of_makes
        (UdpSocket.makes_noDatagram_close (net i).socket) _ (net i).log rfl)

theorem Faithful.run (h : Faithful limits net) {net' : Network p} (hrun : net.Run net') :
    Faithful limits net' := by
  induction hrun with
  | refl => exact h
  | tail _ hstep ih => exact ih.step hstep

end Steps

end Network

/-- **Datagrams are faithful.**  The nodes act in any order and the network loses, repeats
and reorders what they send.  Every message whose `send_to` succeeded went out as one
datagram, once and whole.  Whatever a node receives decodes to a message that was sent,
or is refused with `limit_exceeded`, and then it is a message that the receiver could not
have encoded itself; a datagram is never read as half a frame, two frames or another
message. -/
theorem datagrams_faithful (limits : (i : ι) → Limits (p i)) (options : ι → IoOptions)
    {net : Network p} (hrun : (Network.start limits options).Run net) (i : ι) :
    launched (net i).log = (net i).posted.map wireLayout ∧
    ((limits i).valid = true → ∀ endpoint r, (endpoint, r) ∈ (net i).arrived →
      ∃ j, ∃ m ∈ (net j).posted,
        r = .ok m ∨
        ∃ e, r = .error e ∧ e.code = .limitExceeded ∧ ∀ f, encode (limits i) m ≠ .ok f) := by
  have h := (Network.faithful_start limits options).run hrun
  exact ⟨h.launched_eq i, fun hvalid => h.arrived i ((Limits.valid_iff _).1 hvalid)⟩

end Network

/-- An operating system on which `datagram` is all there is to be received. -/
def delivering (datagram : Option (List UInt8)) : Layer :=
  .posix { Sys.obliging with
    recvfrom := fun _ _ _ =>
      match datagram with
      | none => .error 11
      | some payload => .ok ({ family := 2 }, payload) }

/-- A message of two bytes. -/
def twoBytes : Message := { type := 7, payload := [1, 2] }

/-- Two nodes with small limits. -/
def newNetwork : Network (fun _ : Bool => .bits64) :=
  .start (fun _ => Protocol.smallTestLimits) (fun _ => {})

/-- One node is bound, and the other has sent it a message. -/
def afterSend : Network (fun _ : Bool => .bits64) :=
  let bound := Function.update newNetwork true
    ((newNetwork true).act (delivering none) (.bind ⟨"*", 53⟩))
  Function.update bound false ((bound false).act (delivering none) (.post ⟨"peer", 53⟩ twoBytes))

/-- The first node has received it. -/
def afterReceive : Network (fun _ : Bool => .bits64) :=
  Function.update afterSend true
    ((afterSend true).act (delivering (some (wireLayout twoBytes))) (.take 100))

theorem run_afterReceive : newNetwork.Run afterReceive := by
  have hnone : ∀ net : Network (fun _ : Bool => .bits64), ∀ i,
      Network.Carries (delivering none).sys net i := by
    intro net i socket size remote payload h
    cases h
  refine .tail (.tail (.single (.act true _ (hnone _ true))) (.act false _ (hnone _ false)))
    (.act true _ ?_)
  intro socket size remote payload h
  cases h
  exact ⟨false, by decide⟩

/-- It was read as a message that was sent. -/
theorem datagrams_faithful_two_bytes :
    (afterReceive true).arrived = [(⟨"127.0.0.1", 80⟩, .ok twoBytes)] ∧
      ∃ j, twoBytes ∈ (afterReceive j).posted := by
  have harrived : (afterReceive true).arrived = [(⟨"127.0.0.1", 80⟩, .ok twoBytes)] := by decide
  refine ⟨harrived, ?_⟩
  obtain ⟨j, m, hm, hr | ⟨e, hr, -⟩⟩ := (datagrams_faithful _ _ run_afterReceive true).2 (by decide)
    ⟨"127.0.0.1", 80⟩ (.ok twoBytes) (by rw [harrived]; exact List.mem_singleton_self _)
  · cases hr
    exact ⟨j, hm⟩
  · cases hr

end System
end Vosp
