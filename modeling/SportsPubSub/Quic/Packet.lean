import SportsPubSub.Lib.LittleEndian

/-!
# The packed packet of Mini-QUIC

Source: `mini_quic_packet`, the same declaration in quic/broker_quic.c,
publisher_quic.c and subscriber_quic.c. The three programs exchange the structure
as it lies in memory: one type byte, three 32-bit words (little endian, no
conversion to network order) and 256 payload bytes. A receive buffer keeps what
a shorter datagram does not overwrite.
-/
namespace SportsPubSub.Quic.Packet
open Lib.Posix Lib.LittleEndian

def payloadSize : Nat := 256
def packetSize : Nat := 269

def pktHandshake : UInt8 := 1
def pktData : UInt8 := 2
def pktAck : UInt8 := 3

@[simp] theorem pktHandshake_ne_pktData : pktHandshake ≠ pktData := by decide
@[simp] theorem pktHandshake_ne_pktAck : pktHandshake ≠ pktAck := by decide
@[simp] theorem pktData_ne_pktAck : pktData ≠ pktAck := by decide

structure Payload where
  bytes : Bytes
  size_eq : bytes.length = payloadSize
  deriving DecidableEq, Repr

structure MiniQuicPacket where
  type : UInt8
  connId : UInt32
  streamId : UInt32
  pktNum : UInt32
  payload : Payload
  deriving DecidableEq, Repr

/-- `memset(&packet, 0, sizeof(packet))`. -/
def zeroPayload : Payload := ⟨List.replicate payloadSize 0, by simp⟩

def zeroPacket : MiniQuicPacket := ⟨0, 0, 0, 0, zeroPayload⟩

/-- `strncpy(dst.payload, src, sizeof(dst.payload) - 1)` into a zeroed packet. -/
def copyPayload (src : Bytes) : Payload :=
  ⟨strncpy (payloadSize - 1) src ++ [0], by simp [payloadSize]⟩

/-- Copying a copied payload changes nothing: its string has at most 255 characters. -/
theorem copyPayload_copyPayload (src : Bytes) :
    copyPayload (copyPayload src).bytes = copyPayload src := by
  have same : strncpy (payloadSize - 1) (copyPayload src).bytes = strncpy (payloadSize - 1) src := by
    apply strncpy_congr
    rw [copyPayload, text_append_nul, text_strncpy, List.take_take, Nat.min_self]
  simp only [copyPayload, same] at same ⊢

/-- `memcpy(ack.payload, "ACK", 3)` into a zeroed packet. -/
def ackPayload : Payload := ⟨ascii "ACK" ++ List.replicate 253 0, by
  rw [List.length_append, List.length_replicate]
  rfl⟩

/-- The acknowledgement of a packet: its identification fields under type ACK. -/
def ackFor (connId : UInt32) (p : MiniQuicPacket) : MiniQuicPacket :=
  ⟨pktAck, connId, p.streamId, p.pktNum, ackPayload⟩

/-- The 13 header bytes as they lie in memory. -/
def headerBytes (type : UInt8) (connId streamId pktNum : UInt32) : Bytes :=
  type :: (wordBytes connId ++ (wordBytes streamId ++ wordBytes pktNum))

@[simp] theorem length_headerBytes (type : UInt8) (connId streamId pktNum : UInt32) :
    (headerBytes type connId streamId pktNum).length = 13 := by
  simp [headerBytes]

/-- The bytes passed to `sendto(sock, &packet, sizeof(packet), ...)`. -/
def encode (p : MiniQuicPacket) : Bytes :=
  headerBytes p.type p.connId p.streamId p.pktNum ++ p.payload.bytes

@[simp] theorem length_encode (p : MiniQuicPacket) : (encode p).length = packetSize := by
  simp [encode, p.payload.size_eq, payloadSize, packetSize]

/-- A `mini_quic_packet` variable used as a receive buffer. -/
structure Buffer where
  bytes : Bytes
  size_eq : bytes.length = packetSize
  deriving DecidableEq, Repr

def zeroBuffer : Buffer := ⟨List.replicate packetSize 0, List.length_replicate⟩

/-- `recvfrom(sock, &packet, sizeof(packet), ...)`: the datagram overwrites a
prefix, a longer one is truncated. -/
def Buffer.receive (b : Buffer) (datagram : Bytes) : Buffer :=
  ⟨datagram.take packetSize ++ b.bytes.drop datagram.length, by
    simp only [List.length_append, List.length_take, List.length_drop, b.size_eq]
    omega⟩

/-- The fields of the buffer. -/
def Buffer.decode (b : Buffer) : MiniQuicPacket where
  type := b.bytes.headD 0
  connId := wordAt b.bytes 1
  streamId := wordAt b.bytes 5
  pktNum := wordAt b.bytes 9
  payload := ⟨b.bytes.drop 13, by simp [b.size_eq, packetSize, payloadSize]⟩

/-- A full-size packet is read as it was sent, whatever the buffer held. -/
@[simp] theorem decode_receive_encode (b : Buffer) (p : MiniQuicPacket) :
    (b.receive (encode p)).decode = p := by
  have whole : (b.receive (encode p)).bytes = encode p := by
    have none : b.bytes.drop (encode p).length = [] := by simp [b.size_eq]
    simp only [Buffer.receive, none, List.append_nil]
    rw [List.take_of_length_le (by simp)]
  have hconn : wordAt (encode p) 1 = p.connId :=
    wordAt_append [p.type] _ p.connId 1 rfl
  have hstream : wordAt (encode p) 5 = p.streamId := by
    have h := wordAt_append (p.type :: wordBytes p.connId)
      (wordBytes p.pktNum ++ p.payload.bytes) p.streamId 5 (by simp)
    simpa [encode, headerBytes] using h
  have hnum : wordAt (encode p) 9 = p.pktNum := by
    have h := wordAt_append (p.type :: (wordBytes p.connId ++ wordBytes p.streamId))
      p.payload.bytes p.pktNum 9 (by simp)
    simpa [encode, headerBytes] using h
  have hpayload : (encode p).drop 13 = p.payload.bytes :=
    List.drop_left' (length_headerBytes _ _ _ _)
  cases p
  simp only [Buffer.decode, whole, hconn, hstream, hnum, hpayload]
  rfl

end SportsPubSub.Quic.Packet
