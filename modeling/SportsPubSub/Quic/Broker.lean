import SportsPubSub.Lib.Reactive
import SportsPubSub.Quic.Packet

/-!
# The Mini-QUIC broker

Source: quic/broker_quic.c, `main` and its helpers. One input is one pass of the
`while (1)` loop: the datagram that `select` and `recvfrom` delivered, if any,
and the clock readings taken on the way. `subs[0 .. subs_count)` is a list; the
entries behind it are still zeroed by `memset`. The `printf` lines are left out.
The loops of windows/broker_quic_win.c are the same; its socket calls and its
clock have other names.
-/
namespace SportsPubSub.Quic.Broker
open Lib.Posix Lib.Reactive Packet

/-- `subscriber_t`. -/
structure Subscriber where
  connId : UInt32
  addr : SockaddrIn
  hasOutstanding : Bool
  outstanding : MiniQuicPacket
  lastSendMs : UInt64
  retries : Nat
  deriving DecidableEq, Repr

/-- One `sendto` of the broker. -/
structure Send where
  dest : SockaddrIn
  pkt : MiniQuicPacket
  deriving DecidableEq, Repr

def maxSubs : Nat := 10
def retxTimeoutMs : UInt64 := 500
def maxRetries : Nat := 5

/-- `send_ack`. -/
def sendAck (dest : SockaddrIn) (forPkt : MiniQuicPacket) : Send :=
  ⟨dest, ackFor forPkt.connId forPkt⟩

/-- The registration inside the PKT_HANDSHAKE branch. -/
def registerSubscriber (subs : List Subscriber) (client : SockaddrIn) (packet : MiniQuicPacket) :
    List Subscriber :=
  let already := subs.any fun s => s.connId == packet.connId
  if !already && subs.length < maxSubs then
    subs ++ [⟨packet.connId, client, false, zeroPacket, 0, 0⟩]
  else subs

/-- The PKT_HANDSHAKE branch: stream 0 asks for registration, every handshake is
acknowledged, whether or not it registered anything. -/
def handshakeBranch (subs : List Subscriber) (client : SockaddrIn) (packet : MiniQuicPacket) :
    List Subscriber × List Send :=
  (if packet.streamId = 0 then registerSubscriber subs client packet else subs,
    [sendAck client packet])

/-- The copy addressed to one subscriber: its own conn_id, the sender's stream
and number, the payload as a C string. -/
def fwdPkt (packet : MiniQuicPacket) (connId : UInt32) : MiniQuicPacket :=
  ⟨pktData, connId, packet.streamId, packet.pktNum, copyPayload packet.payload.bytes⟩

/-- One iteration of the forward loop; `ms` is its own reading of the clock. The
slot is overwritten without looking at `has_outstanding`. -/
def loadOutstanding (packet : MiniQuicPacket) (ms : UInt64) (s : Subscriber) : Subscriber :=
  { s with
    hasOutstanding := true, outstanding := fwdPkt packet s.connId, lastSendMs := ms, retries := 0 }

def forwardLoop (packet : MiniQuicPacket) (fwdMs : Nat → UInt64) :
    Nat → List Subscriber → List Subscriber × List Send
  | _, [] => ([], [])
  | i, s :: rest =>
      let (subs, sends) := forwardLoop packet fwdMs (i + 1) rest
      (loadOutstanding packet (fwdMs i) s :: subs, ⟨s.addr, fwdPkt packet s.connId⟩ :: sends)

/-- The PKT_DATA branch: acknowledge the sender, then forward to every entry. -/
def dataBranch (subs : List Subscriber) (client : SockaddrIn) (packet : MiniQuicPacket)
    (fwdMs : Nat → UInt64) : List Subscriber × List Send :=
  let (subs, sends) := forwardLoop packet fwdMs 0 subs
  (subs, sendAck client packet :: sends)

/-- The nested tests of the PKT_ACK branch on one entry. -/
def ackMatches (packet : MiniQuicPacket) (s : Subscriber) : Bool :=
  s.connId == packet.connId && s.hasOutstanding &&
    s.outstanding.pktNum == packet.pktNum && s.outstanding.streamId == packet.streamId

def clearOutstanding (s : Subscriber) : Subscriber :=
  { s with hasOutstanding := false, lastSendMs := 0, retries := 0 }

/-- The PKT_ACK branch: the first match is cleared and the loop breaks. -/
def ackBranch (packet : MiniQuicPacket) : List Subscriber → List Subscriber
  | [] => []
  | s :: rest =>
      if ackMatches packet s then clearOutstanding s :: rest else s :: ackBranch packet rest

/-- The reaction to a received packet; other types are ignored. -/
def handlePacket (subs : List Subscriber) (client : SockaddrIn) (packet : MiniQuicPacket)
    (fwdMs : Nat → UInt64) : List Subscriber × List Send :=
  if packet.type = pktHandshake then handshakeBranch subs client packet
  else if packet.type = pktData then dataBranch subs client packet fwdMs
  else if packet.type = pktAck then (ackBranch packet subs, [])
  else (subs, [])

/-- One iteration of the retransmission timer; the difference is the source's
64-bit unsigned one. Giving up leaves `retries` and `last_send_ms` as they are. -/
def timerStep (now : UInt64) (s : Subscriber) : Subscriber × List Send :=
  if !s.hasOutstanding then (s, [])
  else if now - s.lastSendMs < retxTimeoutMs then (s, [])
  else if s.retries ≥ maxRetries then ({ s with hasOutstanding := false }, [])
  else ({ s with retries := s.retries + 1, lastSendMs := now }, [⟨s.addr, s.outstanding⟩])

def retransmissionTimer (now : UInt64) (subs : List Subscriber) : List Subscriber × List Send :=
  (subs.map fun s => (timerStep now s).1, subs.flatMap fun s => (timerStep now s).2)

/-- The local variables of `main`; `packet` is the reused receive buffer. -/
structure BrokerState where
  subs : List Subscriber
  packet : Buffer
  deriving DecidableEq, Repr

/-- After `memset(subs, 0, sizeof(subs))`; the buffer is never initialised. -/
def BrokerState.initial (junk : Buffer) : BrokerState := ⟨[], junk⟩

/-- One pass of the loop: the datagram read, if any (`fwdMs i` is the clock
reading of the i-th forward), and the reading taken by the timer. -/
structure Pass where
  arrival : Option (SockaddrIn × Bytes)
  fwdMs : Nat → UInt64
  now : UInt64

/-- The packet that the branches see in this pass: what the buffer holds after
`recvfrom`, provided `received > 0`. -/
def receivedPacket (b : BrokerState) (pass : Pass) : Option (SockaddrIn × MiniQuicPacket) :=
  match pass.arrival with
  | none => none
  | some (client, datagram) =>
      if datagram = [] then none else some (client, (b.packet.receive datagram).decode)

def broker : Machine BrokerState Pass Send := fun b pass =>
  let buffer := match pass.arrival with
    | none => b.packet
    | some (_, datagram) => b.packet.receive datagram
  let (subs, sends) := match receivedPacket b pass with
    | none => (b.subs, [])
    | some (client, packet) => handlePacket b.subs client packet pass.fwdMs
  let (subs, resent) := retransmissionTimer pass.now subs
  (⟨subs, buffer⟩, sends ++ resent)

/-- A pass that reads a full-size packet, as the three programs send them. -/
def Pass.reading (client : SockaddrIn) (p : MiniQuicPacket) (fwdMs : Nat → UInt64)
    (now : UInt64) : Pass :=
  ⟨some (client, encode p), fwdMs, now⟩

/-- A pass in which nothing arrives. -/
def Pass.idle (now : UInt64) : Pass := ⟨none, fun _ => now, now⟩

@[simp] theorem receivedPacket_reading (b : BrokerState) (client : SockaddrIn)
    (p : MiniQuicPacket) (fwdMs : Nat → UInt64) (now : UInt64) :
    receivedPacket b (Pass.reading client p fwdMs now) = some (client, p) := by
  have full : encode p ≠ [] := by
    intro h
    have len := length_encode p
    simp [h, packetSize] at len
  simp [receivedPacket, Pass.reading, full]

@[simp] theorem receivedPacket_idle (b : BrokerState) (now : UInt64) :
    receivedPacket b (Pass.idle now) = none := rfl

/-- The packets received along a run, in order. -/
def receivedPackets : BrokerState → List Pass → List (SockaddrIn × MiniQuicPacket)
  | _, [] => []
  | b, pass :: rest => (receivedPacket b pass).toList ++ receivedPackets (broker b pass).1 rest

theorem receivedPackets_append (b : BrokerState) (before after : List Pass) :
    receivedPackets b (before ++ after) =
      receivedPackets b before ++ receivedPackets (runFrom broker b before) after := by
  induction before generalizing b with
  | nil => rfl
  | cons pass rest ih =>
    simp only [List.cons_append, receivedPackets, runFrom_cons, ih, List.append_assoc]

/-- Every packet of a run was received in one of its passes. -/
theorem receivedPackets_split (b : BrokerState) (history : List Pass)
    (r : SockaddrIn × MiniQuicPacket) (mem : r ∈ receivedPackets b history) :
    ∃ before pass after, history = before ++ pass :: after ∧
      receivedPacket (runFrom broker b before) pass = some r := by
  induction history generalizing b with
  | nil => cases mem
  | cons pass rest ih =>
    rcases List.mem_append.mp mem with here | later
    · exact ⟨[], pass, rest, rfl, Option.mem_toList.mp here⟩
    · obtain ⟨before, next, after, rfl, arrived⟩ := ih _ later
      exact ⟨pass :: before, next, after, rfl, arrived⟩

end SportsPubSub.Quic.Broker
