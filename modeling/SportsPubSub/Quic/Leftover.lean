import SportsPubSub.Quic.Entries

/-!
# What a datagram reveals of the reused receive buffer

`recvfrom` overwrites only a prefix of `packet`, and the branches run as soon as
`received > 0`. The reaction to a datagram is compared over all leftover
contents of the buffer: `SelfContained` is the exact condition under which they
do not matter, found by asking which bytes each branch reads.
-/
namespace SportsPubSub.Quic.Leftover
open Lib.Posix Lib.LittleEndian Packet Broker Entries

/-- The reaction to one datagram: the new table and the packets sent. -/
def handleDatagram (subs : List Subscriber) (buffer : Buffer) (client : SockaddrIn)
    (datagram : Bytes) (fwdMs : Nat → UInt64) : List Subscriber × List Send :=
  handlePacket subs client (buffer.receive datagram).decode fwdMs

/-- The reaction is the same for any two leftover contents. -/
def LeftoverFree (subs : List Subscriber) (client : SockaddrIn) (datagram : Bytes)
    (fwdMs : Nat → UInt64) : Prop :=
  ∀ junk junk' : Buffer, handleDatagram subs junk client datagram fwdMs =
    handleDatagram subs junk' client datagram fwdMs

/-- The 13 bytes of the ACK that would clear an entry. -/
def clearingHeader (s : Subscriber) : Bytes :=
  headerBytes pktAck s.connId s.outstanding.streamId s.outstanding.pktNum

/-- The datagram contains every byte that its branch reads. A handshake needs
its header for the answer. A DATA packet needs its header and, when there is
somebody to forward to, its text up to a NUL or 255 characters. An ACK needs its
header unless its bytes already differ from every clearing one. -/
def SelfContained (subs : List Subscriber) (datagram : Bytes) : Prop :=
  (datagram.headD 0 = pktHandshake → 13 ≤ datagram.length) ∧
  (datagram.headD 0 = pktData → 13 ≤ datagram.length ∧
    (subs ≠ [] → 268 ≤ datagram.length ∨ 0 ∈ datagram.drop 13)) ∧
  (datagram.headD 0 = pktAck → datagram.length < 13 →
    ∀ s ∈ subs, s.hasOutstanding = true → ¬ datagram <+: clearingHeader s)

/-- Bytes of the buffer after reception, for a datagram that fits. -/
theorem receive_bytes (b : Buffer) (datagram : Bytes) (fits : datagram.length ≤ packetSize) :
    (b.receive datagram).bytes = datagram ++ b.bytes.drop datagram.length := by
  simp only [Buffer.receive]
  rw [List.take_of_length_le fits]

theorem decode_type (b : Buffer) (datagram : Bytes) (nonempty : datagram ≠ [])
    (fits : datagram.length ≤ packetSize) :
    (b.receive datagram).decode.type = datagram.headD 0 := by
  cases datagram with
  | nil => exact absurd rfl nonempty
  | cons first rest => simp [Buffer.decode, receive_bytes b _ fits]

theorem wordAt_receive (b : Buffer) (datagram : Bytes) (fits : datagram.length ≤ packetSize)
    (offset : Nat) (inside : offset + 4 ≤ datagram.length) :
    wordAt (b.receive datagram).bytes offset = wordAt datagram offset := by
  apply wordAt_congr
  rw [receive_bytes b datagram fits, List.drop_append_of_le_length (by omega),
    List.take_append_of_le_length (by simp; omega)]

/-- With a complete header only the payload can differ. -/
theorem header_determined (datagram : Bytes) (fits : datagram.length ≤ packetSize)
    (header : 13 ≤ datagram.length) (junk junk' : Buffer) :
    (junk.receive datagram).decode =
      { (junk'.receive datagram).decode with
        payload := (junk.receive datagram).decode.payload } := by
  have nonempty : datagram ≠ [] := by
    rintro rfl
    simp at header
  have htype : (junk.receive datagram).decode.type = (junk'.receive datagram).decode.type := by
    rw [decode_type _ _ nonempty fits, decode_type _ _ nonempty fits]
  have hword : ∀ offset, offset + 4 ≤ 13 →
      wordAt (junk.receive datagram).bytes offset = wordAt (junk'.receive datagram).bytes offset := by
    intro offset inside
    rw [wordAt_receive _ _ fits _ (by omega), wordAt_receive _ _ fits _ (by omega)]
  have hconn : (junk.receive datagram).decode.connId = (junk'.receive datagram).decode.connId :=
    hword 1 (by omega)
  have hstream :
      (junk.receive datagram).decode.streamId = (junk'.receive datagram).decode.streamId :=
    hword 5 (by omega)
  have hnum : (junk.receive datagram).decode.pktNum = (junk'.receive datagram).decode.pktNum :=
    hword 9 (by omega)
  simp only [← htype, ← hconn, ← hstream, ← hnum]

theorem handshakeBranch_congr (subs : List Subscriber) (client : SockaddrIn)
    (p : MiniQuicPacket) (payload : Payload) :
    handshakeBranch subs client { p with payload := payload } = handshakeBranch subs client p :=
  rfl

theorem ackBranch_congr (subs : List Subscriber) (p : MiniQuicPacket) (payload : Payload) :
    ackBranch { p with payload := payload } subs = ackBranch p subs := by
  induction subs with
  | nil => rfl
  | cons s rest ih => simp [ackBranch, ackMatches, ih]

theorem forwardLoop_congr (subs : List Subscriber) (p : MiniQuicPacket) (payload : Payload)
    (fwdMs : Nat → UInt64) (k : Nat)
    (same : copyPayload payload.bytes = copyPayload p.payload.bytes) :
    forwardLoop { p with payload := payload } fwdMs k subs = forwardLoop p fwdMs k subs := by
  induction subs generalizing k with
  | nil => rfl
  | cons s rest ih => simp [forwardLoop, loadOutstanding, fwdPkt, same, ih]

/-- The copied text is determined by a NUL or by 255 received characters. -/
theorem copyPayload_determined (datagram : Bytes) (fits : datagram.length ≤ packetSize)
    (header : 13 ≤ datagram.length)
    (content : 268 ≤ datagram.length ∨ 0 ∈ datagram.drop 13) (junk junk' : Buffer) :
    copyPayload (junk.receive datagram).decode.payload.bytes =
      copyPayload (junk'.receive datagram).decode.payload.bytes := by
  have split : ∀ b : Buffer, (b.receive datagram).decode.payload.bytes =
      datagram.drop 13 ++ b.bytes.drop datagram.length := by
    intro b
    simp only [Buffer.decode, receive_bytes b datagram fits]
    rw [List.drop_append_of_le_length header]
  have cut : ∀ rest : Bytes, (text (datagram.drop 13 ++ rest)).take (payloadSize - 1) =
      (text (datagram.drop 13)).take (payloadSize - 1) := by
    intro rest
    by_cases nul : 0 ∈ datagram.drop 13
    · have stops : text (datagram.drop 13 ++ rest) = text (datagram.drop 13) := by
        unfold text
        rw [List.takeWhile_append, if_neg]
        intro whole
        have all := List.takeWhile_eq_self_iff.mp (List.takeWhile_prefix _ |>.eq_of_length whole)
        simpa using all 0 nul
      rw [stops]
    · have long : 268 ≤ datagram.length := content.resolve_right nul
      have noNul : ∀ c ∈ datagram.drop 13, (c != 0) = true := by
        intro c hc
        simp only [bne_iff_ne, ne_eq]
        rintro rfl
        exact nul hc
      unfold text
      rw [List.takeWhile_append_of_pos noNul, List.takeWhile_eq_self_iff.mpr noNul]
      rw [List.take_append_of_le_length (by simp [payloadSize]; omega)]
  unfold copyPayload
  congr 2
  apply strncpy_congr
  rw [split, split, cut, cut]

theorem handlePacket_congr (subs : List Subscriber) (client : SockaddrIn) (p : MiniQuicPacket)
    (payload : Payload) (fwdMs : Nat → UInt64)
    (same : p.type = pktData → subs ≠ [] →
      copyPayload payload.bytes = copyPayload p.payload.bytes) :
    handlePacket subs client { p with payload := payload } fwdMs =
      handlePacket subs client p fwdMs := by
  unfold handlePacket
  dsimp only
  split
  · exact handshakeBranch_congr subs client p payload
  · split
    · next data =>
      have loop : forwardLoop { p with payload := payload } fwdMs 0 subs =
          forwardLoop p fwdMs 0 subs := by
        by_cases empty : subs = []
        · rw [empty]
          rfl
        · exact forwardLoop_congr subs p payload fwdMs 0 (same data empty)
      unfold dataBranch
      rw [loop]
      rfl
    · split
      · rw [ackBranch_congr]
      · rfl

/-- An ACK that no outstanding entry is waiting for changes nothing. -/
theorem ackBranch_unmatched (p : MiniQuicPacket) (subs : List Subscriber)
    (none : ∀ s ∈ subs, ackMatches p s = false) : ackBranch p subs = subs := by
  induction subs with
  | nil => rfl
  | cons s rest ih =>
    have tail := ih (fun t ht => none t (List.mem_cons_of_mem _ ht))
    simp [ackBranch, none s List.mem_cons_self, tail]

/-- The header of a received packet, byte by byte. -/
theorem header_of_decode (b : Buffer) :
    b.bytes.take 13 =
      headerBytes b.decode.type b.decode.connId b.decode.streamId b.decode.pktNum := by
  have size := b.size_eq
  have words : ∀ offset, offset + 4 ≤ 13 →
      wordBytes (wordAt b.bytes offset) = (b.bytes.drop offset).take 4 := fun offset inside =>
    wordBytes_wordAt b.bytes offset (by rw [size]; simp only [packetSize]; omega)
  have fields : headerBytes b.decode.type b.decode.connId b.decode.streamId b.decode.pktNum =
      b.bytes.headD 0 :: ((b.bytes.drop 1).take 4 ++
        ((b.bytes.drop 5).take 4 ++ (b.bytes.drop 9).take 4)) := by
    rw [← words 1 (by omega), ← words 5 (by omega), ← words 9 (by omega)]
    rfl
  rw [fields]
  cases hb : b.bytes with
  | nil => simp [hb, packetSize] at size
  | cons first rest =>
    have pieces : rest.take 12 = rest.take 4 ++ ((rest.drop 4).take 4 ++ (rest.drop 8).take 4) := by
      rw [show (12 : Nat) = 4 + 8 from rfl, List.take_add, show (8 : Nat) = 4 + 4 from rfl,
        List.take_add, List.drop_drop]
    simp [pieces]

/-- Self-contained datagrams are answered independently of the leftover. -/
theorem leftoverFree_of_selfContained (subs : List Subscriber) (client : SockaddrIn)
    (datagram : Bytes) (fwdMs : Nat → UInt64) (nonempty : datagram ≠ [])
    (fits : datagram.length ≤ packetSize) (contained : SelfContained subs datagram) :
    LeftoverFree subs client datagram fwdMs := by
  obtain ⟨handshake, data, ack⟩ := contained
  intro junk junk'
  have typed : ∀ b : Buffer, (b.receive datagram).decode.type = datagram.headD 0 :=
    fun b => decode_type b datagram nonempty fits
  unfold handleDatagram
  by_cases header : 13 ≤ datagram.length
  · rw [header_determined datagram fits header junk junk']
    apply handlePacket_congr
    intro isData subscribed
    exact copyPayload_determined datagram fits header
      ((data (by rw [← typed junk', isData])).2 subscribed) junk junk'
  · have notHandshake : datagram.headD 0 ≠ pktHandshake := fun h => header (handshake h)
    have notData : datagram.headD 0 ≠ pktData := fun h => header (data h).1
    unfold handlePacket
    simp only [typed, notHandshake, notData, if_false]
    split
    · next isAck =>
      have unmatched : ∀ b : Buffer, ackBranch (b.receive datagram).decode subs = subs := by
        intro b
        apply ackBranch_unmatched
        intro s hs
        by_contra matched
        simp only [Bool.not_eq_false, ackMatches, Bool.and_eq_true, beq_iff_eq] at matched
        obtain ⟨⟨⟨conn, pending⟩, num⟩, stream⟩ := matched
        have whole := header_of_decode (b.receive datagram)
        rw [typed, isAck, ← conn, ← stream, ← num, receive_bytes b datagram fits,
          List.take_append] at whole
        apply ack isAck (by omega) s hs pending
        rw [clearingHeader, ← whole, List.take_of_length_le (by omega)]
        exact List.prefix_append _ _
      rw [unmatched, unmatched]
    · rfl

/-- A leftover that continues the datagram with chosen bytes. -/
theorem receive_continued (datagram rest : Bytes)
    (fits : datagram.length + rest.length ≤ packetSize) :
    ((zeroBuffer.receive (datagram ++ rest)).receive datagram).bytes =
      datagram ++ (rest ++ List.replicate (packetSize - (datagram.length + rest.length)) 0) := by
  rw [receive_bytes _ datagram (by omega), receive_bytes _ _ (by simpa using fits)]
  simp only [zeroBuffer, List.drop_replicate, List.length_append, List.append_assoc,
    List.drop_left]

/-- Packets of one type whose headers differ differ in an identification field. -/
theorem header_ne (datagram : Bytes) (nonempty : datagram ≠ [])
    (fits : datagram.length ≤ packetSize) (junk junk' : Buffer)
    (differ : (junk.receive datagram).bytes.take 13 ≠ (junk'.receive datagram).bytes.take 13)
    (conn : (junk.receive datagram).decode.connId = (junk'.receive datagram).decode.connId)
    (stream : (junk.receive datagram).decode.streamId = (junk'.receive datagram).decode.streamId) :
    (junk.receive datagram).decode.pktNum ≠ (junk'.receive datagram).decode.pktNum := by
  intro num
  apply differ
  rw [header_of_decode, header_of_decode, decode_type _ _ nonempty fits,
    decode_type _ _ nonempty fits, conn, stream, num]

/-- Fill a short header with one byte value; its last byte is that value. -/
theorem short_header_byte (datagram : Bytes) (short : datagram.length < 13) (c : UInt8) :
    (((zeroBuffer.receive (datagram ++ List.replicate (13 - datagram.length) c)).receive
      datagram).bytes.take 13)[12]? = some c := by
  rw [receive_continued _ _ (by simp [packetSize]; omega), List.getElem?_take_of_lt (by omega),
    List.getElem?_append_right (by omega), List.getElem?_append_left (by simp; omega),
    List.getElem?_replicate, if_pos (by omega)]

/-- Two leftovers under which a short datagram is acknowledged differently. -/
theorem short_header_acks (datagram : Bytes) (nonempty : datagram ≠ [])
    (short : datagram.length < 13) (client : SockaddrIn) :
    ∃ junk junk' : Buffer, sendAck client (junk.receive datagram).decode ≠
      sendAck client (junk'.receive datagram).decode := by
  refine ⟨zeroBuffer.receive (datagram ++ List.replicate (13 - datagram.length) 0),
    zeroBuffer.receive (datagram ++ List.replicate (13 - datagram.length) 1), ?_⟩
  intro same
  simp only [sendAck, ackFor, Send.mk.injEq, MiniQuicPacket.mk.injEq, true_and, and_true] at same
  refine header_ne datagram nonempty (by simp only [packetSize]; omega) _ _ ?_ same.1 same.2.1
    same.2.2
  intro equal
  have bytes := congrArg (fun l => l[12]?) equal
  simp only [short_header_byte datagram short] at bytes
  cases bytes

/-- Two ACK headers that never clear the same entry leave different tables, if
one of them clears something. -/
theorem ackBranch_differs (p p' : MiniQuicPacket) (subs : List Subscriber)
    (disjoint : ∀ s, ackMatches p s = true → ackMatches p' s = false)
    (hit : ∃ s ∈ subs, ackMatches p s = true) : ackBranch p subs ≠ ackBranch p' subs := by
  have changes : ∀ q s, ackMatches q s = true → clearOutstanding s ≠ s := by
    intro q s matched same
    simp only [ackMatches, Bool.and_eq_true] at matched
    have idle := congrArg Subscriber.hasOutstanding same
    rw [matched.1.1.2] at idle
    cases idle
  induction subs with
  | nil =>
    obtain ⟨s, hs, -⟩ := hit
    cases hs
  | cons s rest ih =>
    unfold ackBranch
    by_cases here : ackMatches p s = true
    · have miss := disjoint s here
      simp only [here, miss, if_true, Bool.false_eq_true, if_false, ne_eq, List.cons.injEq, not_and]
      exact fun same => absurd same (changes p s here)
    · have later : ∃ t ∈ rest, ackMatches p t = true := by
        obtain ⟨t, ht, matched⟩ := hit
        rcases List.mem_cons.mp ht with rfl | ht
        · exact absurd matched here
        · exact ⟨t, ht, matched⟩
      by_cases other : ackMatches p' s = true
      · simp only [here, other, if_true, Bool.false_eq_true, if_false, ne_eq, List.cons.injEq,
          not_and]
        exact fun same => absurd same.symm (changes p' s other)
      · simp only [here, other, Bool.false_eq_true, if_false, ne_eq, List.cons.injEq, true_and]
        exact ih later

/-- A short ACK that could be the clearing one: the leftover decides. -/
theorem short_ack_differs (subs : List Subscriber) (datagram : Bytes) (nonempty : datagram ≠ [])
    (short : datagram.length < 13) (isAck : datagram.headD 0 = pktAck) (s : Subscriber)
    (hs : s ∈ subs) (pending : s.hasOutstanding = true) (possible : datagram <+: clearingHeader s) :
    ∃ junk junk' : Buffer, ackBranch (junk.receive datagram).decode subs ≠
      ackBranch (junk'.receive datagram).decode subs := by
  have fits : datagram.length ≤ packetSize := by
    simp only [packetSize]
    omega
  obtain ⟨rest, hrest⟩ := possible
  have len : datagram.length + rest.length = 13 := by
    rw [← List.length_append, hrest, clearingHeader, length_headerBytes]
  let junk := zeroBuffer.receive (datagram ++ rest)
  have whole : (junk.receive datagram).bytes.take 13 = clearingHeader s := by
    rw [receive_continued _ _ (by simp only [packetSize]; omega), ← List.append_assoc, hrest]
    exact List.take_left' (by simp [clearingHeader])
  have last : 12 < (clearingHeader s).length := by simp [clearingHeader]
  let junk' := zeroBuffer.receive
    (datagram ++ List.replicate (13 - datagram.length) ((clearingHeader s)[12] + 1))
  refine ⟨junk, junk', ackBranch_differs _ _ _ ?_ ⟨s, hs, ?_⟩⟩
  · intro t matched
    by_contra matched'
    simp only [Bool.not_eq_false, ackMatches, Bool.and_eq_true, beq_iff_eq] at matched matched'
    refine header_ne datagram nonempty fits junk junk' ?_ (matched.1.1.1.symm.trans matched'.1.1.1)
      (matched.2.symm.trans matched'.2) (matched.1.2.symm.trans matched'.1.2)
    intro equal
    have bytes := congrArg (fun l => l[12]?) equal
    simp only [whole, junk', short_header_byte datagram short, List.getElem?_eq_getElem last,
      Option.some.injEq] at bytes
    simp at bytes
  · have header := header_of_decode (junk.receive datagram)
    rw [whole, clearingHeader, decode_type _ _ nonempty fits, isAck] at header
    have words : ∀ a b : UInt32, wordBytes a = wordBytes b → a = b := by
      intro a b same
      have ha := wordAt_append [] [] a 0 rfl
      have hb := wordAt_append [] [] b 0 rfl
      rw [← ha, ← hb, same]
    simp only [headerBytes, List.cons.injEq, true_and] at header
    obtain ⟨conn, tail⟩ := List.append_inj header (by simp)
    obtain ⟨stream, num⟩ := List.append_inj tail (by simp)
    simp [ackMatches, pending, words _ _ conn, words _ _ stream, words _ _ num]

/-- A DATA text that ends with the datagram: the leftover continues it. -/
theorem open_text_differs (datagram : Bytes) (header : 13 ≤ datagram.length)
    (short : datagram.length < 268) (noNul : 0 ∉ datagram.drop 13) :
    ∃ junk junk' : Buffer, copyPayload (junk.receive datagram).decode.payload.bytes ≠
      copyPayload (junk'.receive datagram).decode.payload.bytes := by
  refine ⟨zeroBuffer.receive (datagram ++ []), zeroBuffer.receive (datagram ++ [1]), ?_⟩
  have chars : ∀ c ∈ datagram.drop 13, (c != 0) = true := by
    intro c hc
    simp only [bne_iff_ne, ne_eq]
    rintro rfl
    exact noNul hc
  have payload : ∀ rest : Bytes, datagram.length + rest.length ≤ packetSize →
      ((zeroBuffer.receive (datagram ++ rest)).receive datagram).decode.payload.bytes =
        datagram.drop 13 ++
          (rest ++ List.replicate (packetSize - (datagram.length + rest.length)) 0) := by
    intro rest fits
    simp only [Buffer.decode, receive_continued _ _ fits]
    rw [List.drop_append_of_le_length header]
  intro same
  have stored := congrArg (fun p : Payload => text (p.bytes.take (payloadSize - 1))) same
  simp only [copyPayload] at stored
  rw [List.take_left' (length_strncpy _ _), List.take_left' (length_strncpy _ _), text_strncpy,
    text_strncpy, payload [] (by simp [packetSize]; omega), payload [1] (by simp [packetSize]; omega)]
    at stored
  have lengths := congrArg List.length stored
  simp only [text, List.takeWhile_append_of_pos chars, List.nil_append, List.takeWhile_replicate,
    List.length_take, List.length_append, List.singleton_append, List.takeWhile_cons,
    List.length_drop, payloadSize] at lengths
  simp at lengths
  omega

/-- Exactly the self-contained datagrams are handled without leakage: for every
table, sender and clock, and every datagram of 1 to 269 bytes. -/
theorem leftoverFree_iff (subs : List Subscriber) (client : SockaddrIn) (datagram : Bytes)
    (fwdMs : Nat → UInt64) (nonempty : 1 ≤ datagram.length)
    (fits : datagram.length ≤ packetSize) :
    LeftoverFree subs client datagram fwdMs ↔ SelfContained subs datagram := by
  have filled : datagram ≠ [] := List.ne_nil_of_length_pos nonempty
  have typed : ∀ b : Buffer, (b.receive datagram).decode.type = datagram.headD 0 :=
    fun b => decode_type b datagram filled fits
  refine ⟨?_, leftoverFree_of_selfContained subs client datagram fwdMs filled fits⟩
  intro free
  have reaction := fun junk junk' => free junk junk'
  unfold handleDatagram handlePacket at reaction
  simp only [typed] at reaction
  refine ⟨?_, ?_, ?_⟩
  · intro isHandshake
    by_contra short
    obtain ⟨junk, junk', differ⟩ := short_header_acks datagram filled (by omega) client
    have same := congrArg Prod.snd (reaction junk junk')
    simp only [isHandshake, if_true, handshakeBranch, List.cons.injEq, and_true] at same
    exact differ same
  · intro isData
    have notHandshake : pktData ≠ pktHandshake := pktHandshake_ne_pktData.symm
    have same := fun junk junk' => congrArg Prod.snd (reaction junk junk')
    simp only [isData, notHandshake, if_false, if_true, dataBranch, (forwardLoop_eq _ _ _ _).2,
      List.cons.injEq] at same
    constructor
    · by_contra short
      obtain ⟨junk, junk', differ⟩ := short_header_acks datagram filled (by omega) client
      exact differ (same junk junk').1
    · intro subscribed
      by_contra unterminated
      rw [not_or] at unterminated
      have header : 13 ≤ datagram.length := by
        by_contra short
        obtain ⟨junk, junk', differ⟩ := short_header_acks datagram filled (by omega) client
        exact differ (same junk junk').1
      obtain ⟨junk, junk', differ⟩ :=
        open_text_differs datagram header (by omega) unterminated.2
      obtain ⟨s, rest, rfl⟩ := List.exists_cons_of_ne_nil subscribed
      have copies := (same junk junk').2
      simp only [List.map_cons, List.cons.injEq, Send.mk.injEq, fwdPkt, MiniQuicPacket.mk.injEq]
        at copies
      exact differ copies.1.2.2.2.2.2
  · intro isAck short s hs pending possible
    obtain ⟨junk, junk', differ⟩ :=
      short_ack_differs subs datagram filled short isAck s hs pending possible
    have same := congrArg Prod.fst (reaction junk junk')
    simp only [isAck, pktHandshake_ne_pktAck.symm, pktData_ne_pktAck.symm, if_false, if_true]
      at same
    exact differ same

theorem leftoverFree_iff_sample :
    LeftoverFree [] ⟨afInet, 0x0100007F, 7000⟩ [1] (fun _ => 0) ↔ SelfContained [] [1] :=
  leftoverFree_iff [] ⟨afInet, 0x0100007F, 7000⟩ [1] (fun _ => 0) (by decide) (by decide)

/-- What an earlier stream-99 handshake leaves in the buffer. -/
def usedBuffer : Buffer := zeroBuffer.receive (encode ⟨pktHandshake, 1, 99, 1, zeroPayload⟩)

/-- A one-byte handshake registers its sender or not, depending on the stream_id
that an earlier datagram left behind. -/
theorem one_byte_handshake_leaks :
    ¬ ∀ (subs : List Subscriber) (client : SockaddrIn) (datagram : Bytes)
        (fwdMs : Nat → UInt64), 1 ≤ datagram.length → datagram.length ≤ packetSize →
      LeftoverFree subs client datagram fwdMs := by
  intro claim
  have same := claim [] ⟨afInet, 0x0100007F, 7000⟩ [1] (fun _ => 0) (by decide) (by decide)
    zeroBuffer usedBuffer
  revert same
  decide +kernel

end SportsPubSub.Quic.Leftover
