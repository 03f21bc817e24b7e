import SportsPubSub.Quic.Provenance

/-!
# What a Mini-QUIC acknowledgement proves

Two readers of ACKs. The publisher accepts one that carries its conn_id, stream
and number: it is then answered by the broker for that very packet. The broker
clears an entry on one that carries the subscriber's conn_id, the stream and the
number, and these do not identify a DATA packet when several publishers number
theirs alike.
-/
namespace SportsPubSub.Quic.AckSoundness
open Lib.Posix Lib.Reactive Lib.DatagramNet Packet Broker Entries Client Composed Provenance

variable {ι κ : Type}

/-- A packet that the broker handled from a publisher's address is one of that
publisher's packets, when no other client has the address. -/
theorem handled_from_publisher (D : Deployment ι κ)
    (apart : Function.Injective fun i => (D.publisher i).addr)
    (separate : ∀ i k, (D.publisher i).addr ≠ (D.subscriber k).addr)
    (trace : List (Event ι κ)) (h : Justified (Justification D) trace) (i : ι) (pos : Nat)
    (p : MiniQuicPacket) (subs : List Subscriber) (sends : List Send)
    (handled : .handled pos (D.publisher i).addr p subs sends ∈ trace) :
    p ∈ (D.publisher i).packets := by
  obtain ⟨origin, -⟩ := justified_at D trace h _ handled
  rcases origin_to_broker D trace _ p origin with
    ⟨j, attempt, same, own, -⟩ | ⟨k, same, -⟩ | ⟨k, pos', q, same, -⟩
  · rw [apart same]
    exact own
  · exact absurd same (separate i k)
  · exact absurd same (separate i k)

/-- The copy `q` under `connId` was made from a DATA packet of the publisher
with conn_id `pubConn`. -/
def CameFrom (trace : List (Event ι κ)) (pubConn connId : UInt32) (q : MiniQuicPacket) : Prop :=
  ∃ pos src d subs sends, Event.handled pos src d subs sends ∈ trace ∧ d.type = pktData ∧
    d.connId = pubConn ∧ q = fwdPkt d connId

theorem copied_cameFrom (trace : List (Event ι κ)) (connId : UInt32) (q : MiniQuicPacket)
    (h : Copied trace connId q) : ∃ pubConn, CameFrom trace pubConn connId q := by
  obtain ⟨pos, src, d, subs, sends, mem, data, same⟩ := h
  exact ⟨d.connId, pos, src, d, subs, sends, mem, data, rfl, same⟩

/-- Copies with the same number from the same publisher are the same copy. -/
theorem cameFrom_same (D : Deployment ι κ)
    (publishers : Function.Injective fun i => (D.publisher i).connId)
    (trace : List (Event ι κ)) (h : Justified (Justification D) trace)
    (pubConn connId : UInt32) (q r : MiniQuicPacket) (hq : CameFrom trace pubConn connId q)
    (hr : CameFrom trace pubConn connId r) (number : q.pktNum = r.pktNum) : q = r := by
  obtain ⟨pos, src, d, subs, sends, mem, data, conn, rfl⟩ := hq
  obtain ⟨pos', src', d', subs', sends', mem', data', conn', rfl⟩ := hr
  obtain ⟨i, attempt, own, -⟩ := handled_data D trace h _ _ _ _ _ mem data
  obtain ⟨j, attempt', own', -⟩ := handled_data D trace h _ _ _ _ _ mem' data'
  have samePublisher : i = j := by
    apply publishers
    dsimp only
    rw [← packets_connId _ _ own, ← packets_connId _ _ own', conn, conn']
  subst samePublisher
  rw [packets_identified _ d d' own own' number]

/-- Two publishers and one subscriber, for runs on fixed inputs. -/
def twoPublishers : Deployment Bool Unit where
  brokerAddr := brokerHost
  publisher first :=
    if first then ⟨hostP, 1, [ascii "Empieza el partido"], by decide⟩
    else ⟨hostQ, 2, [ascii "GOL Min 32!!"], by decide⟩
  subscriber _ := ⟨hostS, 7⟩
  publisher_elsewhere := by decide
  subscriber_elsewhere _ := by decide

/-- The broker reads the datagram at a position, all clocks at 0. -/
def reads (pos : Nat) : Act Bool Unit := .brokerReads pos (fun _ => 0) 0

/-- The subscriber registers and the first publisher gets through its handshake
and sends its DATA packet, which the broker forwards. -/
def firstNews : List (Act Bool Unit) :=
  [.subscriberStarts (), reads 0, .publisherSends true, reads 2, .publisherWaits true (some 3),
    .publisherSends true, reads 4]

/-- The two publishers' DATA packets: same stream, same number. -/
def newsOf (first : Bool) : MiniQuicPacket :=
  (twoPublishers.publisher first).dataPkt 0
    (if first then ascii "Empieza el partido" else ascii "GOL Min 32!!")

variable [DecidableEq ι] [DecidableEq κ]

/-- A publisher's success report is sound: the broker has handled the packet from
the publisher's address, issued the accepted ACK for it and, for DATA, a copy to
every entry of the table it found. -/
theorem success_report_sound (D : Deployment ι κ)
    (apart : Function.Injective fun i => (D.publisher i).addr)
    (separate : ∀ i k, (D.publisher i).addr ≠ (D.subscriber k).addr)
    (final : State ι κ) (before after : List (Event ι κ)) (i : ι) (p : MiniQuicPacket)
    (incoming : Option MiniQuicPacket)
    (run : Run D final (before ++ .reported i p incoming true :: after)) :
    ∃ pos subs sends, Event.handled pos (D.publisher i).addr p subs sends ∈ before ∧
      incoming = some (ackFor p.connId p) ∧ sendAck (D.publisher i).addr p ∈ sends ∧
      (p.type = pktData → ∀ e ∈ subs, ⟨e.addr, fwdPkt p e.connId⟩ ∈ sends) := by
  have justified := (genuine_run D final _ run).justified
  obtain ⟨own, g, origin, addressed, arrived, accepted⟩ := justified _ _ _ rfl rfl
  have past := justified.before
  have client : g.dst ≠ D.brokerAddr := by
    rw [addressed]
    exact D.publisher_elsewhere i
  obtain ⟨ack, isAck, type, conn, stream, num⟩ := (waitForAck_iff _ _ _ _).mp accepted
  have body : ack = g.body := Option.some.inj (isAck.symm.trans arrived)
  rcases (origin_to_client D before g origin client).2 with
    ⟨pos, p', subs, sends, handled, issued, answer⟩ | ⟨k, -, copy⟩
  · rw [addressed] at handled issued
    have own' := handled_from_publisher D apart separate before past i pos p' subs sends handled
    rw [body, answer] at num
    -- the numbers of one publisher's packets are different, so the ACK names `p`
    have same : p' = p := packets_identified _ p' p own' own num
    subst same
    obtain ⟨-, -, fwdMs, hsends⟩ := justified_at D before past _ handled
    refine ⟨pos, subs, sends, handled, ?_, issued, ?_⟩
    · rw [arrived, answer]
    · intro data e he
      rw [hsends]
      exact handlePacket_data_sends subs _ p' fwdMs data e he
  · obtain ⟨pos, src, d, subs, sends, -, -, forwarded⟩ := copy
    rw [body, forwarded] at type
    exact absurd type (by simp [fwdPkt])

theorem success_report_sound_sample :
    ∃ pos subs sends,
      Event.handled pos hostP (newsOf true) subs sends ∈ (leaves twoPublishers zeroBuffer
        (firstNews ++ [.publisherWaits true (some 5)])).dropLast ∧
      sendAck hostP (newsOf true) ∈ sends ∧
      ∀ e ∈ subs, ⟨e.addr, fwdPkt (newsOf true) e.connId⟩ ∈ sends := by
  obtain ⟨final, run⟩ := run_leaves twoPublishers zeroBuffer
    (firstNews ++ [.publisherWaits true (some 5)])
    (.reported true (newsOf true) (some (ackFor 1 (newsOf true))) true) (by decide +kernel)
  obtain ⟨pos, subs, sends, handled, -, issued, copies⟩ :=
    success_report_sound twoPublishers (by unfold Function.Injective; decide +kernel)
      (fun i ⟨⟩ => by revert i; decide +kernel) final _ [] true (newsOf true) _ run
  exact ⟨pos, subs, sends, handled, issued, copies rfl⟩

/-- An ACK that clears an entry was sent by its subscriber, who had displayed and
acknowledged a copy with the same stream and number. When both copies came from
the same publisher they are the same packet. -/
theorem cleared_after_receipt (D : Deployment ι κ)
    (subscribers : Function.Injective fun k => (D.subscriber k).connId)
    (publishers : Function.Injective fun i => (D.publisher i).connId)
    (final : State ι κ) (before after : List (Event ι κ)) (e : Subscriber)
    (run : Run D final (before ++ .cleared e :: after)) :
    ∃ k pos q, e.connId = (D.subscriber k).connId ∧ e.addr = (D.subscriber k).addr ∧
      Event.displayed k pos q ∈ before ∧ q.connId = e.connId ∧
      q.streamId = e.outstanding.streamId ∧ q.pktNum = e.outstanding.pktNum ∧
      (∃ P, CameFrom before P e.connId q) ∧ (∃ P, CameFrom before P e.connId e.outstanding) ∧
      ∀ P, CameFrom before P e.connId q → CameFrom before P e.connId e.outstanding →
        q = e.outstanding := by
  have justified := (genuine_run D final _ run).justified
  have past := justified.before
  obtain ⟨⟨k, conn, addr, held⟩, pending, pos, src, ack, subs, sends, handled, isAck, matched⟩ :=
    justified _ _ _ rfl
  simp only [ackMatches, Bool.and_eq_true, beq_iff_eq] at matched
  obtain ⟨⟨⟨hconn, -⟩, hnum⟩, hstream⟩ := matched
  obtain ⟨origin, -⟩ := justified_at D before past _ handled
  rcases origin_to_broker D before src ack origin with
    ⟨i, attempt, -, own, -⟩ | ⟨k', -, rfl⟩ | ⟨k', pos', q, -, rfl, shown⟩
  · exact absurd isAck (packets_not_ack _ _ own)
  · exact absurd isAck (by simp [Listener.subReq])
  · have mine : k = k' := subscribers (conn.symm.trans hconn)
    subst mine
    obtain ⟨qconn, copy⟩ := displayed_copied D before past k pos' q shown
    rw [qconn, ← conn] at copy
    refine ⟨k, pos', q, conn, addr, shown, qconn.trans conn.symm, hstream.symm, hnum.symm,
      copied_cameFrom _ _ _ copy, copied_cameFrom _ _ _ (held pending), ?_⟩
    intro P hq hout
    exact cameFrom_same D publishers before past P e.connId q e.outstanding hq hout hnum.symm

theorem cleared_after_receipt_sample :
    ∃ pos q, Event.displayed () pos q ∈ (leaves twoPublishers zeroBuffer
        (firstNews ++ [.subscriberReads () 6, reads 7])).dropLast ∧
      q.streamId = 5 ∧ q.pktNum = 2 := by
  obtain ⟨final, run⟩ := run_leaves twoPublishers zeroBuffer
    (firstNews ++ [.subscriberReads () 6, reads 7])
    (.cleared ⟨7, hostS, true, fwdPkt (newsOf true) 7, 0, 0⟩) (by decide +kernel)
  obtain ⟨k, pos, q, -, -, shown, -, stream, num, -⟩ :=
    cleared_after_receipt twoPublishers (fun _ _ _ => rfl)
      (by unfold Function.Injective; decide +kernel) final _ [] _ run
  exact ⟨pos, q, shown, stream, num⟩

/-- The first publisher's copy is displayed and acknowledged; before that ACK
arrives the second publisher's packet with the same stream and number takes the
slot; the late ACK then clears a packet that the subscriber never received. -/
theorem cleared_without_receipt :
    ¬ ∀ (D : Deployment Bool Unit), (Function.Injective fun k => (D.subscriber k).connId) →
      (Function.Injective fun i => (D.publisher i).connId) →
      ∀ (final : State Bool Unit) (before after : List (Event Bool Unit)) (e : Subscriber),
        Run D final (before ++ .cleared e :: after) →
        ∃ k pos, e.connId = (D.subscriber k).connId ∧
          Event.displayed k pos e.outstanding ∈ before := by
  intro claim
  obtain ⟨final, run⟩ := run_leaves twoPublishers zeroBuffer
    (firstNews ++ [.subscriberReads () 6, .publisherSends false, reads 8,
      .publisherWaits false (some 9), .publisherSends false, reads 10, reads 7])
    (.cleared ⟨7, hostS, true, fwdPkt (newsOf false) 7, 0, 0⟩) (by decide +kernel)
  obtain ⟨⟨⟩, pos, -, shown⟩ := claim twoPublishers (fun _ _ _ => rfl)
    (by unfold Function.Injective; decide +kernel) final _ [] _ run
  have seen := List.mem_map_of_mem (f := Prod.snd) ((mem_displays () _ pos _).mpr shown)
  change fwdPkt (newsOf false) 7 ∈ _ at seen
  revert seen
  decide +kernel

end SportsPubSub.Quic.AckSoundness
