import MicroProtocol.System.Connection

/-!
# A chain of proxies

`WIRE_FORMAT.md` leaves unknown flags and extensions opaque, so that a proxy can hand them
on.  A proxy is a program with two connections: it decodes what comes in on the one, encodes
the messages again and sends them out on the other.  Here there is any number of them in a
row, each with its own limits and platform, and all of them at work at the same time.

* `Chain.Step` — a step of any node.  A proxy posts the messages that were delivered to it, one
  after the other.
* `Chain.Relays` — the invariant: every connection conveys, and every proxy has handed on a
  beginning of what it got.
* `proxies_transparent` — **what comes out is what went in**, message by message and, on
  every connection of the chain, byte by byte.
-/

namespace Vosp
namespace System

open Protocol (Limits Message Session Turn wireLayout)
open Protocol.FrameCodec (encode)
open Transport (Native Handle TcpStream SendsAtMost transmitted received)

/-! ## What an action leaves alone -/

namespace Peer

variable {p : Platform} {N : Native} {a : Peer p} {action : Action}

theorem posted_of_ne_post (h : ∀ m, action ≠ .post m) : (a.act N action).posted = a.posted := by
  cases action with
  | post m => exact absurd rfl (h m)
  | take size =>
      simp only [act]
      split <;> rfl
  | turn turn => rfl
  | close => rfl

/-- Posting adds the message, or nothing if it cannot be encoded. -/
theorem posted_post (m : Message) :
    (a.act N (.post m)).posted = a.posted ∨ (a.act N (.post m)).posted = a.posted ++ [m] := by
  simp only [act]
  split
  · exact .inl rfl
  · exact .inr rfl

/-- Nothing that was delivered is taken back. -/
theorem delivered_act : a.session.delivered <+: (a.act N action).session.delivered := by
  cases action with
  | post m =>
      simp only [act]
      split <;> exact List.prefix_refl _
  | take size =>
      simp only [act]
      split <;> exact List.prefix_refl _
  | turn turn =>
      cases turn with
      | push =>
          simp only [act, Session.turn]
          split
          · exact List.prefix_refl _
          · split <;> exact List.prefix_refl _
      | next =>
          simp only [act, Session.turn, Session.delivered, Session.messagesOf_append]
          exact List.prefix_append _ _
  | close => exact List.prefix_refl _

end Peer

/-! ## The chain -/

/-- One connection of the chain: the end that sends towards the destination, and the end that
receives from the source. -/
structure Hop (p q : Platform) where
  outbound : Peer p
  inbound : Peer q

/-- The source sends on the hop `0`; the proxy `i` receives on the hop `i` and sends on the
hop `i + 1`. -/
abbrev Chain (p q : Nat → Platform) := (i : Nat) → Hop (p i) (q i)

namespace Chain

variable {p q : Nat → Platform}

/-- All connections have been made. -/
def start (outbound : (i : Nat) → Limits (p i)) (inbound : (i : Nat) → Limits (q i))
    (socket socket' : Nat → Handle) : Chain p q := fun i =>
  { outbound := .connected (outbound i) (socket i)
    inbound := .connected (inbound i) (socket' i) }

/-- The chain after an action at the sending end of a hop. -/
def sends (N : Native) (c : Chain p q) (i : Nat) (action : Action) : Chain p q :=
  Function.update c i { c i with outbound := (c i).outbound.act N action }

/-- The chain after an action at the receiving end of a hop. -/
def receives (N : Native) (c : Chain p q) (i : Nat) (action : Action) : Chain p q :=
  Function.update c i { c i with inbound := (c i).inbound.act N action }

section Frame

variable (N : Native) (c : Chain p q) (i : Nat) (action : Action)

theorem sends_outbound : (c.sends N i action i).outbound = (c i).outbound.act N action := by
  rw [sends, Function.update_self]

theorem sends_outbound_of_ne {j : Nat} (h : j ≠ i) :
    (c.sends N i action j).outbound = (c j).outbound := by
  rw [sends, Function.update_of_ne h]

theorem sends_inbound (j : Nat) : (c.sends N i action j).inbound = (c j).inbound := by
  by_cases h : j = i
  · subst h
    rw [sends, Function.update_self]
  · rw [sends, Function.update_of_ne h]

theorem receives_inbound : (c.receives N i action i).inbound = (c i).inbound.act N action := by
  rw [receives, Function.update_self]

theorem receives_inbound_of_ne {j : Nat} (h : j ≠ i) :
    (c.receives N i action j).inbound = (c j).inbound := by
  rw [receives, Function.update_of_ne h]

theorem receives_outbound (j : Nat) : (c.receives N i action j).outbound = (c j).outbound := by
  by_cases h : j = i
  · subst h
    rw [receives, Function.update_self]
  · rw [receives, Function.update_of_ne h]

end Frame

/-- One node acts, with whatever operating system it has at that moment. -/
inductive Step (c : Chain p q) : Chain p q → Prop where
  /-- The source posts a message of its own. -/
  | source {N : Native} (m : Message) (hsend : SendsAtMost N) : Step c (c.sends N 0 (.post m))
  /-- A proxy posts the first message delivered to it that it has not posted yet. -/
  | forward {N : Native} (i : Nat) {m : Message} (hsend : SendsAtMost N)
      (hnext : (c i).inbound.session.delivered[(c (i + 1)).outbound.posted.length]? = some m) :
      Step c (c.sends N (i + 1) (.post m))
  /-- Whatever else happens at a sending end. -/
  | sender {N : Native} (i : Nat) {action : Action} (hsend : SendsAtMost N)
      (haction : ∀ m, action ≠ .post m) : Step c (c.sends N i action)
  /-- Whatever happens at a receiving end, which gets what the sending end has sent. -/
  | receiver {N : Native} (i : Nat) (action : Action) (hsend : SendsAtMost N)
      (hcarry : ∀ socket size bytes, N.receiveSocket (c i).inbound.log socket size = .ok bytes →
        received (c i).inbound.log ++ bytes <+: transmitted (c i).outbound.log) :
      Step c (c.receives N i action)

/-- Steps of all nodes in any order. -/
abbrev Run : Chain p q → Chain p q → Prop := Relation.ReflTransGen Step

variable {inbound : (i : Nat) → Limits (q i)} {hinbound : ∀ i, (inbound i).Valid}

/-- Every connection conveys, and every proxy has handed on a beginning of what it got. -/
structure Relays (hinbound : ∀ i, (inbound i).Valid) (c : Chain p q) : Prop where
  conveys : ∀ i, Conveys (inbound i) (hinbound i) (c i).outbound (c i).inbound
  handed : ∀ i, (c (i + 1)).outbound.posted <+: (c i).inbound.session.delivered

theorem relays_start (hinbound : ∀ i, (inbound i).Valid) (outbound : (i : Nat) → Limits (p i))
    (socket socket' : Nat → Handle) : (start outbound inbound socket socket').Relays hinbound where
  conveys _ := .of_fresh rfl rfl rfl rfl
  handed _ := List.prefix_refl _

variable {c c' : Chain p q} {N : Native}

/-- An action at a sending end, after which the node has still posted only what it was given. -/
theorem Relays.sends (h : c.Relays hinbound) (hsend : SendsAtMost N) {i : Nat} {action : Action}
    (hposted : ∀ j, i = j + 1 →
      ((c i).outbound.act N action).posted <+: (c j).inbound.session.delivered) :
    (c.sends N i action).Relays hinbound where
  conveys j := by
    rw [sends_inbound]
    by_cases hj : j = i
    · subst hj
      rw [sends_outbound]
      exact (h.conveys j).sender hsend action
    · rw [sends_outbound_of_ne _ _ _ _ hj]
      exact h.conveys j
  handed j := by
    rw [sends_inbound]
    by_cases hj : j + 1 = i
    · subst hj
      rw [sends_outbound]
      exact hposted j rfl
    · rw [sends_outbound_of_ne _ _ _ _ hj]
      exact h.handed j

/-- An action at a receiving end. -/
theorem Relays.receives (h : c.Relays hinbound) (hsend : SendsAtMost N) {i : Nat} {action : Action}
    (hcarry : ∀ socket size bytes, N.receiveSocket (c i).inbound.log socket size = .ok bytes →
      received (c i).inbound.log ++ bytes <+: transmitted (c i).outbound.log) :
    (c.receives N i action).Relays hinbound where
  conveys j := by
    rw [receives_outbound]
    by_cases hj : j = i
    · subst hj
      rw [receives_inbound]
      exact (h.conveys j).receiver hsend hcarry action
    · rw [receives_inbound_of_ne _ _ _ _ hj]
      exact h.conveys j
  handed j := by
    rw [receives_outbound]
    refine (h.handed j).trans ?_
    by_cases hj : j = i
    · subst hj
      rw [receives_inbound]
      exact Peer.delivered_act
    · rw [receives_inbound_of_ne _ _ _ _ hj]

/-- The next message after a beginning makes a longer beginning. -/
theorem append_isPrefix {ms ms' : List Message} {m : Message} (h : ms <+: ms')
    (hm : ms'[ms.length]? = some m) : ms ++ [m] <+: ms' := by
  obtain ⟨rest, rfl⟩ := h
  rw [List.getElem?_append_right le_rfl, Nat.sub_self] at hm
  cases rest with
  | nil => cases hm
  | cons m' rest =>
      cases hm
      exact ⟨rest, by simp⟩

theorem Relays.step (h : c.Relays hinbound) (hstep : c.Step c') : c'.Relays hinbound := by
  cases hstep with
  | source m hsend =>
      refine h.sends hsend fun j hj => ?_
      omega
  | forward i hsend hnext =>
      refine h.sends hsend fun j hj => ?_
      cases hj
      rcases Peer.posted_post (N := _) (a := (c (i + 1)).outbound) _ with hsame | hmore
      · rw [hsame]
        exact h.handed i
      · rw [hmore]
        exact append_isPrefix (h.handed i) hnext
  | sender i hsend haction =>
      refine h.sends hsend fun j hj => ?_
      subst hj
      rw [Peer.posted_of_ne_post haction]
      exact h.handed j
  | receiver i action hsend hcarry => exact h.receives hsend hcarry

theorem Relays.run (h : c.Relays hinbound) (hrun : c.Run c') : c'.Relays hinbound := by
  induction hrun with
  | refl => exact h
  | tail _ hstep ih => exact ih.step hstep

/-- What is posted anywhere was posted by the source. -/
theorem Relays.posted_isPrefix (h : c.Relays hinbound) (k : Nat) :
    (c k).outbound.posted <+: (c 0).outbound.posted := by
  induction k with
  | zero => exact List.prefix_refl _
  | succ k ih => exact (h.handed k).trans ((h.conveys k).delivered_isPrefix.trans ih)

end Chain

/-- All that was sent on the hop has been read, and the sending end is still connected. -/
structure Hop.Quiet {p q : Platform} (hop : Hop p q) : Prop where
  arrived : received hop.inbound.log = transmitted hop.outbound.log
  pushed : hop.inbound.session.pending = []
  drained : hop.inbound.session.decoder.next.1 = .ok none
  connected : hop.outbound.stream.connected = true

/-- **Proxies are transparent.**  The source and any number of proxies act in any order.  The
messages delivered at the end of any hop are a beginning of those that the source posted,
with all flags and extensions, and the bytes sent on the hop are a beginning of the source's
own bytes.  A `next()` fails only with `limit_exceeded`, at a message of the source that the
limits of this receiver do not allow.  And once every hop so far is quiet and every proxy
has posted what it got, all messages have been delivered. -/
theorem proxies_transparent {p q : Nat → Platform} (outbound : (i : Nat) → Limits (p i))
    (inbound : (i : Nat) → Limits (q i)) (hvalid : ∀ i, (inbound i).valid = true)
    (socket socket' : Nat → Handle) {c : Chain p q}
    (hrun : (Chain.start outbound inbound socket socket').Run c) (k : Nat) :
    (c k).inbound.session.delivered <+: (c 0).outbound.posted ∧
    transmitted (c k).outbound.log <+: ((c 0).outbound.posted.map wireLayout).flatten ∧
    (∀ e, Except.error e ∈ (c k).inbound.session.answers → e.code = .limitExceeded ∧
      ∃ m, (c 0).outbound.posted[(c k).inbound.session.delivered.length]? = some m ∧
        ∀ f, encode (inbound k) m ≠ .ok f) ∧
    ((∀ i ≤ k, (c i).Quiet) →
      (∀ i < k, (c (i + 1)).outbound.posted = (c i).inbound.session.delivered) →
      (c k).inbound.session.delivered = (c 0).outbound.posted) := by
  have hinbound : ∀ i, (inbound i).Valid := fun i => (Limits.valid_iff _).1 (hvalid i)
  have h := (Chain.relays_start hinbound outbound socket socket').run hrun
  have hposted := h.posted_isPrefix k
  refine ⟨(h.conveys k).delivered_isPrefix.trans hposted, ?_, ?_, ?_⟩
  · refine (h.conveys k).sent.trans ?_
    obtain ⟨rest, hrest⟩ := hposted
    rw [← hrest, List.map_append, List.flatten_append]
    exact List.prefix_append _ _
  · intro e he
    obtain ⟨hcode, m, hm, hfits⟩ := (h.conveys k).refused he
    refine ⟨hcode, m, ?_, hfits⟩
    obtain ⟨rest, hrest⟩ := hposted
    rw [← hrest, List.getElem?_append_left (List.getElem?_eq_some_iff.1 hm).1]
    exact hm
  · intro hquiet hhanded
    -- hop by hop, from the source on
    induction k with
    | zero =>
        obtain ⟨harrived, hpushed, hdrained, hconnected⟩ := hquiet 0 le_rfl
        exact (h.conveys 0).all_delivered hpushed hdrained harrived hconnected
    | succ k ih =>
        obtain ⟨harrived, hpushed, hdrained, hconnected⟩ := hquiet (k + 1) le_rfl
        have hbefore := ih (h.posted_isPrefix k) (fun i hi => hquiet i (by omega))
          (fun i hi => hhanded i (by omega))
        rw [(h.conveys (k + 1)).all_delivered hpushed hdrained harrived hconnected,
          hhanded k (by omega), hbefore]

/-- A chain of peers with small limits. -/
def newChain : Chain (fun _ => .bits64) (fun _ => .bits64) :=
  .start (fun _ => Protocol.smallTestLimits) (fun _ => Protocol.smallTestLimits) id id

/-- The receiving end of the hop `i` takes the frame, pushes it and calls `next()`. -/
def readOne (c : Chain (fun _ => .bits64) (fun _ => .bits64)) (i : Nat) :
    Chain (fun _ => .bits64) (fun _ => .bits64) :=
  ((c.receives (holding (wireLayout oneByte)) i (.take 64)).receives (holding []) i
    (.turn .push)).receives (holding []) i (.turn .next)

/-- The operating system carries what there is to be received. -/
theorem step_receives {c : Chain (fun _ => .bits64) (fun _ => .bits64)} {bytes : List UInt8}
    {i : Nat} {action : Action}
    (h : received (c i).inbound.log ++ bytes <+: transmitted (c i).outbound.log) :
    c.Step (c.receives (holding bytes) i action) := by
  refine .receiver i action (sendsAtMost_holding bytes) fun socket size given hgiven => ?_
  cases hgiven
  exact h

/-- The source has posted a message, and the first proxy has read it. -/
def firstRead : Chain (fun _ => .bits64) (fun _ => .bits64) :=
  readOne (newChain.sends (holding []) 0 (.post oneByte)) 0

/-- The proxy has posted it in turn, and the next node has read it. -/
def secondRead : Chain (fun _ => .bits64) (fun _ => .bits64) :=
  readOne (firstRead.sends (holding []) 1 (.post oneByte)) 1

/-- A receiving end that has not done anything reads what was posted. -/
theorem run_readOne {c : Chain (fun _ => .bits64) (fun _ => .bits64)} {i : Nat}
    {socket socket' : Handle}
    (hc : c i = ⟨postedOne socket, Peer.connected Protocol.smallTestLimits socket'⟩) :
    c.Run (readOne c i) := by
  unfold readOne
  refine .tail (.tail (.single (step_receives ?_)) (step_receives ?_)) (step_receives ?_)
  · rw [hc]
    exact ⟨[], rfl⟩
  · simp only [Chain.receives, Function.update_self, hc]
    exact ⟨[], rfl⟩
  · simp only [Chain.receives, Function.update_self, hc]
    exact ⟨[], rfl⟩

theorem sends_first : newChain.sends (holding []) 0 (.post oneByte) =
    Function.update newChain 0 ⟨postedOne 0, Peer.connected Protocol.smallTestLimits 0⟩ := by
  have hsource : (newChain 0).outbound = Peer.connected Protocol.smallTestLimits 0 := rfl
  rw [Chain.sends, hsource, post_oneByte]
  rfl

theorem sends_second : firstRead.sends (holding []) 1 (.post oneByte) =
    Function.update firstRead 1 ⟨postedOne 1, Peer.connected Protocol.smallTestLimits 1⟩ := by
  have hproxy : (firstRead 1).outbound = Peer.connected Protocol.smallTestLimits 1 := rfl
  rw [Chain.sends, hproxy, post_oneByte]
  rfl

theorem run_secondRead : newChain.Run secondRead := by
  have hsource : newChain.sends (holding []) 0 (.post oneByte) 0
      = ⟨postedOne 0, Peer.connected Protocol.smallTestLimits 0⟩ := by
    rw [sends_first, Function.update_self]
  have hproxy : firstRead.sends (holding []) 1 (.post oneByte) 1
      = ⟨postedOne 1, Peer.connected Protocol.smallTestLimits 1⟩ := by
    rw [sends_second, Function.update_self]
  have hfirst : newChain.Run firstRead :=
    .head (.source oneByte (sendsAtMost_holding [])) (run_readOne hsource)
  refine hfirst.trans (.head (.forward 0 (sendsAtMost_holding []) ?_) (run_readOne hproxy))
  rw [firstRead, sends_first]
  decide

/-- One message through one proxy. -/
theorem proxies_transparent_one_byte :
    (secondRead 1).inbound.session.delivered = [oneByte] := by
  have h := (proxies_transparent _ _ (fun _ => by decide) id id run_secondRead 1).2.2.2
  have hread : secondRead = readOne (Function.update (readOne (Function.update newChain 0
      ⟨postedOne 0, Peer.connected Protocol.smallTestLimits 0⟩) 0) 1
      ⟨postedOne 1, Peer.connected Protocol.smallTestLimits 1⟩) 1 := by
    rw [secondRead, sends_second, firstRead, sends_first]
  rw [hread] at h ⊢
  refine h ?_ ?_
  · intro i hi
    interval_cases i
    · exact ⟨by decide, by decide, by decide, by decide⟩
    · exact ⟨by decide, by decide, by decide, by decide⟩
  · intro i hi
    interval_cases i
    decide

end System
end Vosp
