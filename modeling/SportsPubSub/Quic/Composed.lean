import SportsPubSub.Lib.DatagramNet
import SportsPubSub.Quic.Client
import SportsPubSub.Quic.Entries

/-!
# The composed Mini-QUIC system

One broker, publishers indexed by `ι`, subscribers indexed by `κ`, and a network
that loses, duplicates, delays and reorders but does not forge. Every program
sends full-size packets. The schedule decides who moves, which datagram is
delivered and what the clocks read. Sockets are bound to different addresses
than the broker's; nothing else is assumed about addresses and conn_ids here.
-/
namespace SportsPubSub.Quic.Composed
open Lib.Posix Lib.Reactive Lib.DatagramNet Packet Broker Entries Client

structure Deployment (ι κ : Type) where
  brokerAddr : SockaddrIn
  publisher : ι → Publisher
  subscriber : κ → Listener
  publisher_elsewhere : ∀ i, (publisher i).addr ≠ brokerAddr
  subscriber_elsewhere : ∀ k, (subscriber k).addr ≠ brokerAddr

variable {ι κ : Type}

/-- The local states of the programs and everything sent so far. -/
structure State (ι κ : Type) where
  broker : BrokerState
  pubs : ι → PubState
  subscribed : κ → Bool
  net : Net SockaddrIn MiniQuicPacket

inductive Act (ι κ : Type) where
  | brokerReads (pos : Nat) (fwdMs : Nat → UInt64) (now : UInt64)
  | brokerIdles (now : UInt64)
  | publisherSends (i : ι)
  | publisherWaits (i : ι) (arrival : Option Nat)
  | subscriberStarts (k : κ)
  | subscriberReads (k : κ) (pos : Nat)

/-- What a step leaves behind: a transmission of a publisher, the return value of
`send_with_retx`, a packet handled by the broker with the table it found and the
packets it sent, an entry whose outstanding packet an ACK cleared, a
retransmission of the broker, a packet displayed and acknowledged. -/
inductive Event (ι κ : Type) where
  | transmitted (i : ι) (attempt : Nat) (pkt : MiniQuicPacket)
  | reported (i : ι) (pkt : MiniQuicPacket) (incoming : Option MiniQuicPacket) (ok : Bool)
  | handled (pos : Nat) (src : SockaddrIn) (pkt : MiniQuicPacket) (subs : List Subscriber)
      (sends : List Send)
  | cleared (entry : Subscriber)
  | resent (x : Send)
  | displayed (k : κ) (pos : Nat) (pkt : MiniQuicPacket)
  deriving DecidableEq, Repr

def State.initial (D : Deployment ι κ) (junk : Buffer) : State ι κ :=
  ⟨BrokerState.initial junk, fun i => (D.publisher i).call 0, fun _ => false, []⟩

/-- The broker's `sendto` calls as datagrams. -/
def posted (D : Deployment ι κ) (sends : List Send) : Net SockaddrIn MiniQuicPacket :=
  sends.map fun x => ⟨D.brokerAddr, x.dest, x.pkt⟩

/-- The entry whose outstanding packet the PKT_ACK branch clears. -/
def clearedEntry (subs : List Subscriber) (packet : MiniQuicPacket) : Option Subscriber :=
  if packet.type = pktAck then subs.find? (ackMatches packet) else none

/-- The events of one pass of the broker. -/
def passEvents (b : BrokerState) (pass : Pass) (pos : Nat) : List (Event ι κ) :=
  (match receivedPacket b pass with
    | none => []
    | some (src, packet) =>
        .handled pos src packet b.subs (handled b pass).2 ::
          (clearedEntry b.subs packet).toList.map .cleared) ++
  (retransmissionTimer pass.now (handled b pass).1).2.map .resent

def brokerPass (D : Deployment ι κ) (s : State ι κ) (pass : Pass) (pos : Nat) :
    State ι κ × List (Event ι κ) :=
  let (b, sends) := broker s.broker pass
  ({ s with broker := b, net := s.net ++ posted D sends }, passEvents s.broker pass pos)

theorem brokerPass_net (D : Deployment ι κ) (s : State ι κ) (pass : Pass) (pos : Nat) :
    (brokerPass D s pass pos).1.net = s.net ++ posted D (broker s.broker pass).2 := rfl

theorem mem_passEvents (b : BrokerState) (pass : Pass) (pos : Nat) (e : Event ι κ)
    (h : e ∈ passEvents b pass pos) :
    (∃ src p, receivedPacket b pass = some (src, p) ∧
        e = .handled pos src p b.subs (handled b pass).2) ∨
      (∃ entry, e = .cleared entry) ∨
      ∃ x ∈ (retransmissionTimer pass.now (handled b pass).1).2, e = .resent x := by
  unfold passEvents at h
  rcases List.mem_append.mp h with arrival | timer
  · split at arrival
    · cases arrival
    · next src p received =>
      rcases List.mem_cons.mp arrival with rfl | cleared
      · exact .inl ⟨src, p, received, rfl⟩
      · obtain ⟨entry, -, rfl⟩ := List.mem_map.mp cleared
        exact .inr (.inl ⟨entry, rfl⟩)
  · obtain ⟨x, hx, rfl⟩ := List.mem_map.mp timer
    exact .inr (.inr ⟨x, hx, rfl⟩)

/-- What `recvfrom` gives a client: nothing, or the datagram at a position. -/
def arriving (net : Net SockaddrIn MiniQuicPacket) (here : SockaddrIn) :
    Option Nat → Option (Option MiniQuicPacket)
  | none => some none
  | some pos => (deliver net here pos).map fun g => some g.body

variable [DecidableEq κ]

/-- What subscriber `k` displays, each packet with its position in the network. -/
def displays (k : κ) (trace : List (Event ι κ)) : List (Nat × MiniQuicPacket) :=
  trace.filterMap fun
    | .displayed k' pos q => if k' = k then some (pos, q) else none
    | _ => none

theorem mem_displays (k : κ) (trace : List (Event ι κ)) (pos : Nat) (q : MiniQuicPacket) :
    (pos, q) ∈ displays k trace ↔ Event.displayed k pos q ∈ trace := by
  unfold displays
  rw [List.mem_filterMap]
  constructor
  · rintro ⟨e, he, shown⟩
    split at shown
    · next k' pos' q' =>
      split at shown
      · next same =>
        simp only [Option.some.injEq, Prod.mk.injEq] at shown
        obtain ⟨rfl, rfl⟩ := shown
        rw [← same]
        exact he
      · cases shown
    · cases shown
  · intro shown
    exact ⟨_, shown, by simp⟩

variable [DecidableEq ι]

def step (D : Deployment ι κ) : Lib.Reactive.System (State ι κ) (Act ι κ) (Event ι κ)
  | s, .brokerReads pos fwdMs now =>
      (deliver s.net D.brokerAddr pos).map fun g =>
        brokerPass D s (Pass.reading g.src g.body fwdMs now) pos
  | s, .brokerIdles now => some (brokerPass D s (Pass.idle now) 0)
  | s, .publisherSends i =>
      ((D.publisher i).transmit (s.pubs i)).map fun (next, pkt) =>
        ({ s with
            pubs := Function.update s.pubs i next,
            net := s.net ++ [⟨(D.publisher i).addr, D.brokerAddr, pkt⟩] },
          match next with
          | .waiting _ attempt => [.transmitted i attempt pkt]
          | _ => [])
  | s, .publisherWaits i arrival =>
      match arriving s.net (D.publisher i).addr arrival with
      | none => none
      | some incoming =>
          ((D.publisher i).resume incoming (s.pubs i)).map fun (next, reports) =>
            ({ s with pubs := Function.update s.pubs i next },
              reports.map fun (pkt, ok) => .reported i pkt incoming ok)
  | s, .subscriberStarts k =>
      if s.subscribed k then none
      else some
        ({ s with
            subscribed := Function.update s.subscribed k true,
            net := s.net ++
              [⟨(D.subscriber k).addr, D.brokerAddr, (D.subscriber k).subReq⟩] }, [])
  | s, .subscriberReads k pos =>
      if s.subscribed k then
        (deliver s.net (D.subscriber k).addr pos).map fun g =>
          match (D.subscriber k).receive g.body with
          | none => (s, [])
          | some ack =>
              ({ s with net := s.net ++ [⟨(D.subscriber k).addr, D.brokerAddr, ack⟩] },
                [.displayed k pos g.body])
      else none

/-- `trace` is what some schedule can leave behind. -/
def Run (D : Deployment ι κ) (final : State ι κ) (trace : List (Event ι κ)) : Prop :=
  ∃ junk schedule, exec (step D) (State.initial D junk) schedule = some (final, trace)

/-- What a schedule leaves behind, for runs on fixed inputs. -/
def leaves (D : Deployment ι κ) (junk : Buffer) (schedule : List (Act ι κ)) :
    List (Event ι κ) :=
  match exec (step D) (State.initial D junk) schedule with
  | none => []
  | some (_, trace) => trace

theorem run_leaves (D : Deployment ι κ) (junk : Buffer) (schedule : List (Act ι κ))
    (last : Event ι κ) (ends : (leaves D junk schedule).getLast? = some last) :
    ∃ final, Run D final ((leaves D junk schedule).dropLast ++ [last]) := by
  rw [List.dropLast_append_getLast? last ends]
  unfold leaves at ends ⊢
  split
  · next refused =>
    rw [refused] at ends
    cases ends
  · next final trace taken => exact ⟨final, junk, schedule, taken⟩

/-- What one step can do to the whole system. -/
inductive Moves (D : Deployment ι κ) (s : State ι κ) : State ι κ → List (Event ι κ) → Prop
  | passed (pass : Pass) (pos : Nat)
      (genuine : ∀ src packet, receivedPacket s.broker pass = some (src, packet) →
        s.net[pos]? = some ⟨src, D.brokerAddr, packet⟩) :
      Moves D s (brokerPass D s pass pos).1 (passEvents s.broker pass pos)
  | transmitted (i : ι) (k attempt : Nat) (pkt : MiniQuicPacket)
      (ready : s.pubs i = .transmit k attempt) (own : (D.publisher i).packets[k]? = some pkt) :
      Moves D s
        { s with
          pubs := Function.update s.pubs i (.waiting k attempt),
          net := s.net ++ [⟨(D.publisher i).addr, D.brokerAddr, pkt⟩] }
        [.transmitted i attempt pkt]
  | reported (i : ι) (k attempt : Nat) (pkt : MiniQuicPacket) (g : Datagram SockaddrIn MiniQuicPacket)
      (waits : s.pubs i = .waiting k attempt) (own : (D.publisher i).packets[k]? = some pkt)
      (sent : g ∈ s.net) (addressed : g.dst = (D.publisher i).addr)
      (acked : waitForAck pkt.connId pkt.streamId pkt.pktNum (some g.body) = true) :
      Moves D s { s with pubs := Function.update s.pubs i ((D.publisher i).call (k + 1)) }
        [.reported i pkt (some g.body) true]
  | retried (i : ι) (k attempt : Nat) (waits : s.pubs i = .waiting k attempt) :
      Moves D s { s with pubs := Function.update s.pubs i (.transmit k (attempt + 1)) } []
  | failed (i : ι) (pkt : MiniQuicPacket) (incoming : Option MiniQuicPacket) :
      Moves D s { s with pubs := Function.update s.pubs i .aborted }
        [.reported i pkt incoming false]
  | started (k : κ) :
      Moves D s
        { s with
          subscribed := Function.update s.subscribed k true,
          net := s.net ++ [⟨(D.subscriber k).addr, D.brokerAddr, (D.subscriber k).subReq⟩] }
        []
  | ignored : Moves D s s []
  | displayed (k : κ) (pos : Nat) (g : Datagram SockaddrIn MiniQuicPacket)
      (found : s.net[pos]? = some g) (addressed : g.dst = (D.subscriber k).addr)
      (mine : g.body.connId = (D.subscriber k).connId) (data : g.body.type = pktData) :
      Moves D s
        { s with
          net := s.net ++
            [⟨(D.subscriber k).addr, D.brokerAddr, ackFor (D.subscriber k).connId g.body⟩] }
        [.displayed k pos g.body]

/-- No step takes anything back from the network. -/
theorem moves_net (D : Deployment ι κ) (s next : State ι κ) (events : List (Event ι κ))
    (moves : Moves D s next events) : ∃ more, next.net = s.net ++ more := by
  cases moves with
  | passed pass pos genuine => exact ⟨_, rfl⟩
  | transmitted i k attempt pkt ready own => exact ⟨_, rfl⟩
  | reported i k attempt pkt g waits own sent addressed acked => exact ⟨[], by simp⟩
  | retried i k attempt waits => exact ⟨[], by simp⟩
  | failed i pkt incoming => exact ⟨[], by simp⟩
  | started k => exact ⟨_, rfl⟩
  | ignored => exact ⟨[], by simp⟩
  | displayed k pos g found addressed mine data => exact ⟨_, rfl⟩

/-- Every step is one of the moves. -/
theorem step_moves (D : Deployment ι κ) (s next : State ι κ) (a : Act ι κ)
    (events : List (Event ι κ)) (h : step D s a = some (next, events)) :
    Moves D s next events := by
  cases a with
  | brokerReads pos fwdMs now =>
    simp only [step, Option.map_eq_some_iff] at h
    obtain ⟨g, found, h⟩ := h
    cases h
    obtain ⟨sent, addressed⟩ := deliver_some _ _ _ _ found
    apply Moves.passed
    intro src packet received
    rw [receivedPacket_reading, Option.some.injEq, Prod.mk.injEq] at received
    obtain ⟨rfl, rfl⟩ := received
    rw [sent, ← addressed]
  | brokerIdles now =>
    simp only [step, Option.some.injEq] at h
    cases h
    apply Moves.passed
    intro src packet received
    cases received
  | publisherSends i =>
    simp only [step, Option.map_eq_some_iff] at h
    obtain ⟨⟨after, pkt⟩, sends, h⟩ := h
    obtain ⟨k, attempt, ready, rfl, own⟩ := transmit_some _ _ _ _ sends
    cases h
    exact .transmitted i k attempt pkt ready own
  | publisherWaits i arrival =>
    simp only [step] at h
    split at h
    · cases h
    · next incoming arrived =>
      simp only [Option.map_eq_some_iff] at h
      obtain ⟨⟨after, reports⟩, resumes, h⟩ := h
      cases h
      obtain ⟨k, attempt, pkt, waits, own, out⟩ := resume_some _ _ _ _ _ resumes
      rcases out with ⟨acked, rfl, rfl⟩ | ⟨rfl, rfl⟩ | ⟨rfl, rfl⟩
      · cases arrival with
        | none =>
          simp only [arriving, Option.some.injEq] at arrived
          subst arrived
          simp [waitForAck] at acked
        | some pos =>
          simp only [arriving, Option.map_eq_some_iff] at arrived
          obtain ⟨g, found, rfl⟩ := arrived
          obtain ⟨sent, addressed⟩ := deliver_some _ _ _ _ found
          exact .reported i k attempt pkt g waits own (List.mem_of_getElem? sent) addressed acked
      · exact .retried i k attempt waits
      · exact .failed i pkt incoming
  | subscriberStarts k =>
    simp only [step] at h
    split at h
    · cases h
    · cases h
      exact .started k
  | subscriberReads k pos =>
    simp only [step] at h
    split at h
    · simp only [Option.map_eq_some_iff] at h
      obtain ⟨g, found, h⟩ := h
      obtain ⟨sent, addressed⟩ := deliver_some _ _ _ _ found
      split at h
      · cases h
        exact .ignored
      · next ack shown =>
        cases h
        obtain ⟨mine, data, rfl⟩ := receive_some _ _ _ shown
        exact .displayed k pos g sent addressed mine data
    · cases h

/-- The invariant rule of the composed system. -/
theorem run_invariant (D : Deployment ι κ) (Inv : List (Event ι κ) → State ι κ → Prop)
    (start : ∀ junk, Inv [] (State.initial D junk))
    (keep : ∀ trace s next events, Inv trace s → Moves D s next events →
      Inv (trace ++ events) next)
    (final : State ι κ) (trace : List (Event ι κ)) (run : Run D final trace) : Inv trace final := by
  obtain ⟨junk, schedule, h⟩ := run
  exact exec_invariant (step D) Inv
    (fun trace s a next events inv taken =>
      keep trace s next events inv (step_moves D s next a events taken))
    schedule _ final trace (start junk) h

/-- Socket addresses for runs on fixed inputs. -/
def brokerHost : SockaddrIn := ⟨afInet, 0x0100007F, 0x901F⟩
def hostS : SockaddrIn := ⟨afInet, 0x0100007F, 7000⟩
def hostP : SockaddrIn := ⟨afInet, 0x0100007F, 7001⟩
def hostQ : SockaddrIn := ⟨afInet, 0x0100007F, 7002⟩

end SportsPubSub.Quic.Composed
