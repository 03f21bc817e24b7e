import SportsPubSub.Quic.Outstanding

/-!
# Where forwarded news come from

The broker sends a DATA packet in two places, the forward loop and the timer. The
outstanding packet of every entry is a copy of one DATA packet received before,
through overwriting, acknowledgements and retransmissions; so every copy ever
sent is. For full-size datagrams the copy is spelled out byte by byte, with the
semantics of `memset` followed by `strncpy`.
-/
namespace SportsPubSub.Quic.Forwarding
open Lib.Posix Lib.Reactive Lib.LittleEndian Packet Broker Entries Outstanding

/-- `q` is the copy, under `connId`, of a DATA packet received before. -/
def CopyOf (received : List (SockaddrIn × MiniQuicPacket)) (connId : UInt32)
    (q : MiniQuicPacket) : Prop :=
  ∃ r ∈ received, r.2.type = pktData ∧ q = fwdPkt r.2 connId

/-- The outstanding packets are such copies. -/
def Held (received : List (SockaddrIn × MiniQuicPacket)) (subs : List Subscriber) : Prop :=
  ∀ s ∈ subs, s.hasOutstanding = true → CopyOf received s.connId s.outstanding

theorem CopyOf.mono {received more : List (SockaddrIn × MiniQuicPacket)} {connId : UInt32}
    {q : MiniQuicPacket} (h : CopyOf received connId q) : CopyOf (received ++ more) connId q := by
  obtain ⟨r, mem, rest⟩ := h
  exact ⟨r, List.mem_append_left _ mem, rest⟩

theorem held_handled (b : BrokerState) (pass : Pass) (inv : TableInv b.subs)
    (received : List (SockaddrIn × MiniQuicPacket)) (held : Held received b.subs) :
    Held (received ++ (receivedPacket b pass).toList) (handled b pass).1 := by
  unfold handled
  cases arrived : receivedPacket b pass with
  | none => exact fun s hs pending => (held s hs pending).mono
  | some arrival =>
    obtain ⟨client, packet⟩ := arrival
    intro t ht pending
    rcases mem_handlePacket_subs b.subs client packet pass.fwdMs inv t ht with
      ⟨e, he, conn, -, origin⟩ | ⟨-, rfl⟩
    · rw [conn]
      rcases origin pending with ⟨-, before, same⟩ | ⟨data, same⟩
      · rw [same]
        exact (held e he before).mono
      · exact ⟨(client, packet), by simp, data, same⟩
    · cases pending

theorem held_timer (now : UInt64) (subs : List Subscriber)
    (received : List (SockaddrIn × MiniQuicPacket)) (held : Held received subs) :
    Held received (retransmissionTimer now subs).1 := by
  intro t ht pending
  obtain ⟨e, he, conn, -, same, before⟩ := mem_timer_subs now subs t ht
  rw [conn, same]
  exact held e he (before pending)

theorem held_run (junk : Buffer) (history : List Pass) :
    Held (receivedPackets (BrokerState.initial junk) history)
      (runFrom broker (BrokerState.initial junk) history).subs :=
  table_run Held
    (fun received b pass inv held => held_timer pass.now _ _ (held_handled b pass inv received held))
    (fun s hs => by cases hs) junk history

/-- Every DATA packet of a pass is for an entry of the table and is a copy. -/
theorem sends_copied (b : BrokerState) (pass : Pass) (inv : TableInv b.subs)
    (received : List (SockaddrIn × MiniQuicPacket)) (held : Held received b.subs) (x : Send)
    (sent : x ∈ (broker b pass).2) (data : x.pkt.type = pktData) :
    ∃ s ∈ (broker b pass).1.subs, x.dest = s.addr ∧ x.pkt.connId = s.connId ∧
      CopyOf (received ++ (receivedPacket b pass).toList) s.connId x.pkt := by
  rw [broker_sends] at sent
  rcases List.mem_append.mp sent with first | again
  · cases arrived : receivedPacket b pass with
    | none => simp [handled, arrived] at first
    | some arrival =>
      obtain ⟨client, packet⟩ := arrival
      simp only [handled, arrived] at first
      rcases mem_handlePacket_sends b.subs client packet pass.fwdMs x first with
        rfl | ⟨isData, e, he, rfl⟩
      · exact absurd data (by simp [sendAck, ackFor, Ne.symm pktData_ne_pktAck])
      · obtain ⟨i, hi⟩ := List.mem_iff_getElem?.mp he
        obtain ⟨entry, -⟩ := broker_entry b pass inv i e hi
        have same := entryPass_identity ((receivedPacket b pass).map Prod.snd) (pass.fwdMs i)
          pass.now e
        refine ⟨_, List.mem_of_getElem? entry, same.2.symm, same.1.symm, ?_⟩
        rw [same.1]
        exact ⟨(client, packet), by simp, isData, rfl⟩
  · obtain ⟨e, he, hx⟩ := List.mem_flatMap.mp again
    obtain ⟨pending, rfl⟩ := mem_timerStep pass.now e x hx
    have addressed := (tableInv_handled b pass inv).addressed e he pending
    have frame := timerStep_frame pass.now e
    refine ⟨(timerStep pass.now e).1, List.mem_map_of_mem he, frame.2.1.symm,
      addressed.2.trans frame.1.symm, ?_⟩
    rw [frame.1]
    exact held_handled b pass inv received held e he pending

/-- The datagrams read along a run. -/
def arrivals (passes : List Pass) : List (SockaddrIn × Bytes) := passes.filterMap (·.arrival)

/-- Every datagram fills the packet structure. -/
def FullSize (passes : List Pass) : Prop := ∀ a ∈ arrivals passes, a.2.length = packetSize

theorem receive_full (b : Buffer) (datagram : Bytes) (full : datagram.length = packetSize) :
    (b.receive datagram).bytes = datagram := by
  have nothing : b.bytes.drop datagram.length = [] := by
    rw [List.drop_eq_nil_iff, b.size_eq, full]
  rw [Buffer.receive]
  dsimp only
  rw [nothing, List.append_nil, List.take_of_length_le (Nat.le_of_eq full)]

/-- A received packet is what the buffer holds after one of the datagrams. -/
theorem mem_receivedPackets (b : BrokerState) (passes : List Pass)
    (r : SockaddrIn × MiniQuicPacket) (mem : r ∈ receivedPackets b passes) :
    ∃ (buffer : Buffer) (datagram : Bytes), (r.1, datagram) ∈ arrivals passes ∧
      r.2 = (buffer.receive datagram).decode := by
  induction passes generalizing b with
  | nil => cases mem
  | cons pass rest ih =>
    rcases List.mem_append.mp mem with here | later
    · have arrived := Option.mem_toList.mp here
      unfold receivedPacket at arrived
      split at arrived
      · cases arrived
      · next client datagram read =>
        split at arrived
        · cases arrived
        · cases arrived
          refine ⟨b.packet, datagram, ?_, rfl⟩
          exact List.mem_filterMap.mpr ⟨pass, List.mem_cons_self, read⟩
    · obtain ⟨buffer, datagram, old, same⟩ := ih _ later
      refine ⟨buffer, datagram, ?_, same⟩
      obtain ⟨p, hp, read⟩ := List.mem_filterMap.mp old
      exact List.mem_filterMap.mpr ⟨p, List.mem_cons_of_mem _ hp, read⟩

/-- The payload characters that a copy keeps. -/
def keptText (datagram : Bytes) : Bytes := text ((datagram.drop 13).take 255)

/-- The packet carries the news of one datagram: its stream and number, and its
payload cut at the first NUL or after 255 bytes and filled up with NULs. -/
structure CarriesNewsOf (datagram : Bytes) (p : MiniQuicPacket) : Prop where
  isData : datagram.head? = some pktData
  streamId : p.streamId = wordAt datagram 5
  pktNum : p.pktNum = wordAt datagram 9
  payload : p.payload.bytes =
    keptText datagram ++ List.replicate (payloadSize - (keptText datagram).length) 0

theorem length_keptText (datagram : Bytes) : (keptText datagram).length ≤ 255 := by
  have cut : (keptText datagram).length ≤ ((datagram.drop 13).take 255).length :=
    (List.takeWhile_prefix _).length_le
  exact Nat.le_trans cut (by rw [List.length_take]; exact Nat.min_le_left _ _)

theorem carriesNewsOf_fwdPkt (buffer : Buffer) (datagram : Bytes) (connId : UInt32)
    (full : datagram.length = packetSize)
    (data : (buffer.receive datagram).decode.type = pktData) :
    CarriesNewsOf datagram (fwdPkt (buffer.receive datagram).decode connId) := by
  have whole := receive_full buffer datagram full
  have kept : (text (datagram.drop 13)).take 255 = keptText datagram :=
    List.take_takeWhile
  have short := length_keptText datagram
  refine ⟨?_, ?_, ?_, ?_⟩
  · simp only [Buffer.decode, whole] at data
    cases datagram with
    | nil => cases full
    | cons first rest => simpa using data
  · simp only [fwdPkt, Buffer.decode, whole]
  · simp only [fwdPkt, Buffer.decode, whole]
  · simp only [fwdPkt, copyPayload, Buffer.decode, whole, strncpy, payloadSize, Nat.add_one_sub_one,
      kept]
    rw [List.append_assoc, ← List.replicate_succ']
    congr 2
    omega

/-- What `printf("%s")` shows of a forwarded payload. -/
theorem text_carried (datagram : Bytes) (p : MiniQuicPacket) (h : CarriesNewsOf datagram p) :
    text p.payload.bytes = keptText datagram := by
  have chars : ∀ c ∈ keptText datagram, (c != 0) = true := by
    intro c hc
    simpa using mem_text_ne_zero _ c hc
  rw [h.payload, text, List.takeWhile_append_of_pos chars, List.takeWhile_replicate]
  simp

/-- A payload with a terminator is kept whole. -/
theorem keptText_terminated (datagram : Bytes) (full : datagram.length = packetSize)
    (terminated : 0 ∈ datagram.drop 13) : keptText datagram = text (datagram.drop 13) := by
  have short : (text (datagram.drop 13)).length ≤ 255 := by
    have inside : (text (datagram.drop 13)).length < (datagram.drop 13).length := by
      apply Nat.lt_of_le_of_ne (List.takeWhile_prefix _).length_le
      intro whole
      have all := (List.takeWhile_prefix (· != 0) (l := datagram.drop 13)).eq_of_length whole
      have noZero := List.takeWhile_eq_self_iff.mp all 0 terminated
      simp at noZero
    rw [List.length_drop, full, packetSize] at inside
    omega
  have kept : (text (datagram.drop 13)).take 255 = keptText datagram := List.take_takeWhile
  rw [← kept, List.take_of_length_le short]

/-- Every DATA packet that the broker sends carries the conn_id of the entry it is
sent to and the news of one DATA datagram read before; its text ends inside the
payload field and is the sender's when that was terminated. -/
theorem news_genuine (junk : Buffer) (history : List Pass) (pass : Pass)
    (full : FullSize (history ++ [pass])) (x : Send)
    (sent : x ∈ (broker (runFrom broker (BrokerState.initial junk) history) pass).2)
    (data : x.pkt.type = pktData) :
    (∃ s ∈ (broker (runFrom broker (BrokerState.initial junk) history) pass).1.subs,
        x.dest = s.addr ∧ x.pkt.connId = s.connId) ∧
      (text x.pkt.payload.bytes).length < payloadSize ∧
      ∃ a ∈ arrivals (history ++ [pass]), CarriesNewsOf a.2 x.pkt ∧
        (0 ∈ a.2.drop 13 → text x.pkt.payload.bytes = text (a.2.drop 13)) := by
  have inv := tableInv_run junk history
  have held := held_run junk history
  obtain ⟨s, hs, dest, conn, r, mem, isData, same⟩ := sends_copied _ pass inv _ held x sent data
  have passes : receivedPackets (BrokerState.initial junk) (history ++ [pass]) =
      receivedPackets (BrokerState.initial junk) history ++
        (receivedPacket (runFrom broker (BrokerState.initial junk) history) pass).toList := by
    rw [receivedPackets_append, receivedPackets, receivedPackets, List.append_nil]
  rw [← passes] at mem
  obtain ⟨buffer, datagram, arrived, decoded⟩ := mem_receivedPackets _ _ r mem
  have size := full _ arrived
  rw [decoded] at isData same
  have carries := carriesNewsOf_fwdPkt buffer datagram s.connId size isData
  rw [← same] at carries
  refine ⟨⟨s, hs, dest, conn⟩, ?_, _, arrived, carries, ?_⟩
  · rw [text_carried datagram x.pkt carries]
    exact Nat.lt_succ_of_le (length_keptText datagram)
  · intro terminated
    rw [text_carried datagram x.pkt carries, keptText_terminated datagram size terminated]

/-- A payload of 256 characters without a NUL is cut at 255. -/
def unterminated : Bytes := headerBytes pktData 1 5 2 ++ List.replicate payloadSize 65

theorem news_genuine_sample :
    (text (fwdPkt (zeroBuffer.receive unterminated).decode 7).payload.bytes).length < payloadSize :=
  (news_genuine zeroBuffer [subscribeA] ⟨some (hostP, unterminated), fun _ => 0, 0⟩
    (by unfold FullSize; decide +kernel)
    ⟨hostA, fwdPkt (zeroBuffer.receive unterminated).decode 7⟩ (by decide +kernel) rfl).2.1

end SportsPubSub.Quic.Forwarding
