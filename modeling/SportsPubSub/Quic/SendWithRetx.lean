import SportsPubSub.Lib.Retry
import SportsPubSub.Quic.Client

/-!
# What `send_with_retx` reports

Source: `wait_for_ack` and `send_with_retx` of quic/publisher_quic.c, on a schedule of
full-size datagrams; windows/publisher_quic_win.c has the same two loops. Any
datagram ends the window of an attempt, so strays use up the attempts. Times are
microseconds, and only `select` takes any.
-/
namespace SportsPubSub.Quic.SendWithRetx
open Lib.Posix Lib.Retry Packet Client

/-- TIMEOUT_MS as the `timeval` of `select`. -/
def timeoutUs : Nat := 500 * 1000

/-- `wait_for_ack` with the time: when it returns, what it returns, what stays queued. -/
def waitForAckAt (pkt : MiniQuicPacket) (now : Nat) (queue : List (Timed MiniQuicPacket)) :
    Nat × Bool × List (Timed MiniQuicPacket) :=
  let (later, incoming, rest) := window timeoutUs now queue
  (later, waitForAck pkt.connId pkt.streamId pkt.pktNum incoming, rest)

/-- The loop of `send_with_retx` with so many attempts left: the times of its
transmissions and its result. -/
def sendLoop (pkt : MiniQuicPacket) : Nat → Nat → List (Timed MiniQuicPacket) → List Nat × Bool
  | 0, _, _ => ([], false)
  | attempts + 1, now, queue =>
      let (later, acked, rest) := waitForAckAt pkt now queue
      if acked then ([now], true)
      else
        let (times, result) := sendLoop pkt attempts later rest
        (now :: times, result)

/-- The datagram is an ACK of the packet. -/
def acknowledges (pkt incoming : MiniQuicPacket) : Bool :=
  waitForAck pkt.connId pkt.streamId pkt.pktNum (some incoming)

/-- The publisher's own machine, given the datagrams that its windows read: the times of
its transmissions and the report of the call. -/
def driven (P : Publisher) : Nat → PubState → Nat → List (Timed MiniQuicPacket) →
    List Nat × List (MiniQuicPacket × Bool)
  | 0, _, _, _ => ([], [])
  | attempts + 1, state, now, queue =>
      let (later, incoming, rest) := window timeoutUs now queue
      match (P.transmit state).bind fun sent => P.resume incoming sent.1 with
      | none => ([], [])
      | some (next, []) =>
          let (times, reports) := driven P attempts next later rest
          (now :: times, reports)
      | some (_, reports) => ([now], reports)

/-- From any attempt of a call on, the machine transmits when the loop does and reports
the result of the loop. -/
theorem driven_eq (P : Publisher) (k : Nat) (pkt : MiniQuicPacket) (hk : P.packets[k]? = some pkt)
    (attempt attempts now : Nat) (queue : List (Timed MiniQuicPacket))
    (left : attempt + attempts = maxRetries) :
    driven P (attempts + 1) (.transmit k attempt) now queue =
      ((sendLoop pkt (attempts + 1) now queue).1,
        [(pkt, (sendLoop pkt (attempts + 1) now queue).2)]) := by
  induction attempts generalizing attempt now queue with
  | zero =>
    have last : ¬ attempt + 1 ≤ maxRetries := by omega
    cases acked : waitForAck pkt.connId pkt.streamId pkt.pktNum (window timeoutUs now queue).2.1
    · simp only [driven, sendLoop, waitForAckAt, Publisher.transmit, Publisher.resume, hk, acked,
        last, Option.map_some, Option.bind_some, Bool.false_eq_true, if_false]
    · simp only [driven, sendLoop, waitForAckAt, Publisher.transmit, Publisher.resume, hk, acked,
        Option.map_some, Option.bind_some, if_true]
  | succ attempts ih =>
    have more : attempt + 1 ≤ maxRetries := by omega
    have next := fun later rest => ih (attempt + 1) later rest (by omega)
    rw [driven, sendLoop]
    cases acked : waitForAck pkt.connId pkt.streamId pkt.pktNum (window timeoutUs now queue).2.1
    · simp only [waitForAckAt, Publisher.transmit, Publisher.resume, hk, acked, more, next,
        Option.map_some, Option.bind_some, Bool.false_eq_true, if_false, if_true]
    · simp only [waitForAckAt, Publisher.transmit, Publisher.resume, hk, acked, Option.map_some,
        Option.bind_some, if_true]

end SportsPubSub.Quic.SendWithRetx
