import SportsPubSub.Quic.Packet

/-!
# The Mini-QUIC publisher and subscriber programs

Source: quic/publisher_quic.c and quic/subscriber_quic.c. The publisher is a
state machine between the two system calls of `send_with_retx`: it transmits, and
it waits for at most one datagram. The table `eventos` is a parameter, short
enough for `pkt_counter` not to wrap. `sleep`, the `printf` lines and the clock
are left out.
-/
namespace SportsPubSub.Quic.Client
open Lib.Posix Packet

/-- One run of publisher_quic.c: its socket, `my_conn_id` and what it publishes. -/
structure Publisher where
  addr : SockaddrIn
  connId : UInt32
  eventos : List Bytes
  counted : eventos.length + 1 < UInt32.size

/-- The three events of the program. -/
def eventos : List Bytes :=
  [ascii "Empieza el partido", ascii "Tarjeta Amarilla Min 12", ascii "GOL Min 32!!"]

def Publisher.program (addr : SockaddrIn) (connId : UInt32) : Publisher :=
  ⟨addr, connId, Client.eventos, by decide⟩

/-- Value of `pkt_counter++` for the packet at position `k` of the program. -/
def pktCounter (k : Nat) : UInt32 := UInt32.ofNat (k + 1)

def Publisher.handshake (P : Publisher) : MiniQuicPacket :=
  ⟨pktHandshake, P.connId, 99, pktCounter 0, copyPayload (ascii "HOLA_BROKER")⟩

def Publisher.dataPkt (P : Publisher) (i : Nat) (evento : Bytes) : MiniQuicPacket :=
  ⟨pktData, P.connId, 5, pktCounter (i + 1), copyPayload evento⟩

/-- The packets given to `send_with_retx`, in program order. -/
def Publisher.packets (P : Publisher) : List MiniQuicPacket :=
  P.handshake :: P.eventos.mapIdx P.dataPkt

def maxRetries : Nat := 5

/-- `wait_for_ack`, given what `select` and `recvfrom` delivered (`none` on a
timeout or an error). The sender's address is not looked at. -/
def waitForAck (connId streamId pktNum : UInt32) (incoming : Option MiniQuicPacket) : Bool :=
  match incoming with
  | none => false
  | some p => p.type == pktAck && p.connId == connId && p.streamId == streamId &&
      p.pktNum == pktNum

/-- Where the publisher stands: in the call of `send_with_retx` for packet `k`,
before `sendto` or inside `wait_for_ack`, or past its last call. -/
inductive PubState where
  | transmit (k attempt : Nat)
  | waiting (k attempt : Nat)
  | finished
  | aborted
  deriving DecidableEq, Repr

/-- Entry of the `k`-th call. -/
def Publisher.call (P : Publisher) (k : Nat) : PubState :=
  if k < P.packets.length then .transmit k 0 else .finished

/-- The `sendto` of an attempt. -/
def Publisher.transmit (P : Publisher) : PubState → Option (PubState × MiniQuicPacket)
  | .transmit k attempt => P.packets[k]?.map fun pkt => (.waiting k attempt, pkt)
  | _ => none

/-- The return of `wait_for_ack`: the call returns 1, the loop goes on, or the
call returns 0 and the program aborts. -/
def Publisher.resume (P : Publisher) (incoming : Option MiniQuicPacket) :
    PubState → Option (PubState × List (MiniQuicPacket × Bool))
  | .waiting k attempt => P.packets[k]?.map fun pkt =>
      if waitForAck pkt.connId pkt.streamId pkt.pktNum incoming then
        (P.call (k + 1), [(pkt, true)])
      else if attempt + 1 ≤ maxRetries then (.transmit k (attempt + 1), [])
      else (.aborted, [(pkt, false)])
  | _ => none

/-- One run of subscriber_quic.c: its socket and `my_conn_id`. -/
structure Listener where
  addr : SockaddrIn
  connId : UInt32

/-- `sub_req`. -/
def Listener.subReq (S : Listener) : MiniQuicPacket :=
  ⟨pktHandshake, S.connId, 0, 1, copyPayload (ascii "SUBSCRIBE")⟩

/-- One turn of the receive loop: the news to print with the ACK sent back, or
nothing when the packet is not DATA for this connection. -/
def Listener.receive (S : Listener) (incoming : MiniQuicPacket) : Option MiniQuicPacket :=
  if incoming.connId = S.connId ∧ incoming.type = pktData then some (ackFor S.connId incoming)
  else none

/-- What an accepted acknowledgement says. -/
theorem waitForAck_iff (connId streamId pktNum : UInt32) (incoming : Option MiniQuicPacket) :
    waitForAck connId streamId pktNum incoming = true ↔
      ∃ p, incoming = some p ∧ p.type = pktAck ∧ p.connId = connId ∧ p.streamId = streamId ∧
        p.pktNum = pktNum := by
  cases incoming with
  | none => simp [waitForAck]
  | some p => simp [waitForAck, and_assoc]

theorem toNat_pktCounter (P : Publisher) (k : Nat) (hk : k < P.packets.length) :
    (pktCounter k).toNat = k + 1 := by
  have bound := P.counted
  simp only [Publisher.packets, List.length_cons, List.length_mapIdx] at hk
  exact UInt32.toNat_ofNat_of_lt' (by omega)

/-- The packet at position `k`: the handshake on stream 99, then DATA on stream 5. -/
theorem packets_at (P : Publisher) (k : Nat) (pkt : MiniQuicPacket)
    (h : P.packets[k]? = some pkt) :
    pkt.connId = P.connId ∧ pkt.pktNum.toNat = k + 1 ∧
      ((k = 0 ∧ pkt.type = pktHandshake ∧ pkt.streamId = 99) ∨
        (pkt.type = pktData ∧ pkt.streamId = 5 ∧ ∃ evento, pkt.payload = copyPayload evento)) := by
  have hk : k < P.packets.length := (List.getElem?_eq_some_iff.mp h).1
  have counter := toNat_pktCounter P k hk
  cases k with
  | zero =>
    simp only [Publisher.packets, List.getElem?_cons_zero, Option.some.injEq] at h
    subst h
    exact ⟨rfl, counter, .inl ⟨rfl, rfl, rfl⟩⟩
  | succ i =>
    simp only [Publisher.packets, List.getElem?_cons_succ, List.getElem?_mapIdx,
      Option.map_eq_some_iff] at h
    obtain ⟨evento, -, rfl⟩ := h
    exact ⟨rfl, counter, .inr ⟨rfl, rfl, evento, rfl⟩⟩

theorem mem_packets (P : Publisher) (pkt : MiniQuicPacket) (h : pkt ∈ P.packets) :
    ∃ k : Nat, P.packets[k]? = some pkt := List.mem_iff_getElem?.mp h

theorem packets_connId (P : Publisher) (pkt : MiniQuicPacket) (h : pkt ∈ P.packets) :
    pkt.connId = P.connId := by
  obtain ⟨k, hk⟩ := mem_packets P pkt h
  exact (packets_at P k pkt hk).1

theorem packets_not_ack (P : Publisher) (pkt : MiniQuicPacket) (h : pkt ∈ P.packets) :
    pkt.type ≠ pktAck := by
  obtain ⟨k, hk⟩ := mem_packets P pkt h
  rcases (packets_at P k pkt hk).2.2 with ⟨-, hand, -⟩ | ⟨data, -⟩
  · simp [hand]
  · simp [data]

/-- A publisher never asks for registration. -/
theorem packets_stream (P : Publisher) (pkt : MiniQuicPacket) (h : pkt ∈ P.packets) :
    pkt.streamId ≠ 0 := by
  obtain ⟨k, hk⟩ := mem_packets P pkt h
  rcases (packets_at P k pkt hk).2.2 with ⟨-, -, stream⟩ | ⟨-, stream, -⟩
  · rw [stream]
    decide
  · rw [stream]
    decide

/-- The number identifies a packet of one publisher. -/
theorem packets_identified (P : Publisher) (p q : MiniQuicPacket) (hp : p ∈ P.packets)
    (hq : q ∈ P.packets) (same : p.pktNum = q.pktNum) : p = q := by
  obtain ⟨i, hi⟩ := mem_packets P p hp
  obtain ⟨j, hj⟩ := mem_packets P q hq
  have numi := (packets_at P i p hi).2.1
  have numj := (packets_at P j q hj).2.1
  have position : i = j := by
    rw [same] at numi
    omega
  subst position
  rw [hi] at hj
  exact Option.some.inj hj

theorem transmit_some (P : Publisher) (s next : PubState) (pkt : MiniQuicPacket)
    (h : P.transmit s = some (next, pkt)) :
    ∃ k attempt, s = .transmit k attempt ∧ next = .waiting k attempt ∧
      P.packets[k]? = some pkt := by
  cases s with
  | transmit k attempt =>
    simp only [Publisher.transmit, Option.map_eq_some_iff, Prod.mk.injEq] at h
    obtain ⟨p, hp, rfl, rfl⟩ := h
    exact ⟨k, attempt, rfl, rfl, hp⟩
  | waiting k attempt => cases h
  | finished => cases h
  | aborted => cases h

/-- The three ways out of a wait. -/
theorem resume_some (P : Publisher) (incoming : Option MiniQuicPacket) (s next : PubState)
    (reports : List (MiniQuicPacket × Bool)) (h : P.resume incoming s = some (next, reports)) :
    ∃ k attempt pkt, s = .waiting k attempt ∧ P.packets[k]? = some pkt ∧
      ((waitForAck pkt.connId pkt.streamId pkt.pktNum incoming = true ∧
          next = P.call (k + 1) ∧ reports = [(pkt, true)]) ∨
        (next = .transmit k (attempt + 1) ∧ reports = []) ∨
        (next = .aborted ∧ reports = [(pkt, false)])) := by
  cases s with
  | waiting k attempt =>
    simp only [Publisher.resume, Option.map_eq_some_iff] at h
    obtain ⟨pkt, hp, h⟩ := h
    refine ⟨k, attempt, pkt, rfl, hp, ?_⟩
    split at h
    · next acked =>
      cases h
      exact .inl ⟨acked, rfl, rfl⟩
    · split at h
      · cases h
        exact .inr (.inl ⟨rfl, rfl⟩)
      · cases h
        exact .inr (.inr ⟨rfl, rfl⟩)
  | transmit k attempt => cases h
  | finished => cases h
  | aborted => cases h

/-- A displayed packet is DATA for this connection, and it is acknowledged. -/
theorem receive_some (S : Listener) (incoming ack : MiniQuicPacket)
    (h : S.receive incoming = some ack) :
    incoming.connId = S.connId ∧ incoming.type = pktData ∧ ack = ackFor S.connId incoming := by
  unfold Listener.receive at h
  split at h
  · next accepted =>
    cases h
    exact ⟨accepted.1, accepted.2, rfl⟩
  · cases h

end SportsPubSub.Quic.Client
