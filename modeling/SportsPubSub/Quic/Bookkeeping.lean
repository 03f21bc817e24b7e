import SportsPubSub.Quic.Outstanding

/-!
# Bookkeeping of the subscriber table

The same slots are written by registration, forwarding, acknowledgement and the
retransmission timer. What they keep is stated per entry and carried to the
table by `mem_handlePacket`; it holds after the received packet of a pass and
after its timer alike. The count of transmissions per loaded copy follows from
the entry by entry description of a pass.
-/
namespace SportsPubSub.Quic.Bookkeeping
open Lib.Posix Lib.Reactive Packet Broker Entries Outstanding

/-- Last byte of the payload field of the packed structure. -/
def lastPayloadByte (p : MiniQuicPacket) : Option UInt8 := p.payload.bytes[payloadSize - 1]?

/-- What one entry keeps. -/
structure EntrySound (s : Subscriber) : Prop where
  bounded : s.retries ≤ maxRetries
  terminated : s.hasOutstanding = true → lastPayloadByte s.outstanding = some 0

/-- What `subs[0 .. subs_count)` is at every moment. -/
structure Sound (subs : List Subscriber) : Prop where
  room : subs.length ≤ maxSubs
  distinct : (subs.map (·.connId)).Nodup
  bounded : ∀ s ∈ subs, s.retries ≤ maxRetries
  outstanding : ∀ s ∈ subs, s.hasOutstanding = true →
    s.outstanding.type = pktData ∧ s.outstanding.connId = s.connId ∧
      lastPayloadByte s.outstanding = some 0

theorem lastPayloadByte_fwdPkt (packet : MiniQuicPacket) (connId : UInt32) :
    lastPayloadByte (fwdPkt packet connId) = some 0 := by
  have size : (strncpy (payloadSize - 1) packet.payload.bytes).length = payloadSize - 1 :=
    length_strncpy _ _
  simp only [lastPayloadByte, fwdPkt, copyPayload]
  rw [List.getElem?_append_right (Nat.le_of_eq size), size, Nat.sub_self]
  rfl

theorem entrySound_new (client : SockaddrIn) (packet : MiniQuicPacket) :
    EntrySound (newEntry client packet) :=
  ⟨Nat.zero_le _, fun pending => by cases pending⟩

theorem entrySound_handle (packet : MiniQuicPacket) (ms : UInt64) (s : Subscriber)
    (h : EntrySound s) : EntrySound (entryHandle packet ms s).1 := by
  unfold entryHandle
  split
  · exact ⟨Nat.zero_le _, fun _ => lastPayloadByte_fwdPkt packet s.connId⟩
  · split
    · exact ⟨Nat.zero_le _, fun pending => by cases pending⟩
    · exact h

theorem entrySound_timer (now : UInt64) (s : Subscriber) (h : EntrySound s) :
    EntrySound (timerStep now s).1 := by
  unfold timerStep
  split
  · exact h
  · next pending =>
    split
    · exact h
    · split
      · exact ⟨h.bounded, fun idle => by cases idle⟩
      · next more =>
        have room := Nat.not_le.mp more
        exact ⟨room, h.terminated⟩

theorem sound_of_entries (subs : List Subscriber) (inv : TableInv subs)
    (entries : ∀ s ∈ subs, EntrySound s) : Sound subs where
  room := inv.room
  distinct := inv.distinct
  bounded := fun s hs => (entries s hs).bounded
  outstanding := by
    intro s hs pending
    obtain ⟨type, connId⟩ := inv.addressed s hs pending
    exact ⟨type, connId, (entries s hs).terminated pending⟩

theorem entries_handled (b : BrokerState) (pass : Pass) (inv : TableInv b.subs)
    (entries : ∀ s ∈ b.subs, EntrySound s) : ∀ s ∈ (handled b pass).1, EntrySound s := by
  unfold handled
  split
  · exact entries
  · next client packet _ =>
    intro t ht
    rcases mem_handlePacket b.subs client packet pass.fwdMs inv t ht with
      ⟨i, s, hs, rfl⟩ | ⟨-, rfl⟩
    · exact entrySound_handle packet _ s (entries s (List.mem_of_getElem? hs))
    · exact entrySound_new client packet

theorem entries_timer (now : UInt64) (subs : List Subscriber)
    (entries : ∀ s ∈ subs, EntrySound s) : ∀ s ∈ (retransmissionTimer now subs).1, EntrySound s := by
  intro t ht
  obtain ⟨s, hs, rfl⟩ := List.mem_map.mp ht
  exact entrySound_timer now s (entries s hs)

theorem entries_run (junk : Buffer) (history : List Pass) :
    ∀ s ∈ (runFrom broker (BrokerState.initial junk) history).subs, EntrySound s := by
  have both := runFrom_invariant broker
    (fun b => TableInv b.subs ∧ ∀ s ∈ b.subs, EntrySound s)
    (fun b pass inv => ⟨tableInv_broker b pass inv.1,
      entries_timer pass.now _ (entries_handled b pass inv.1 inv.2)⟩)
    (BrokerState.initial junk) history
    ⟨tableInv_run junk [], by simp [BrokerState.initial]⟩
  exact both.2

/-- An ACK leaves every entry of another conn_id as it is. -/
theorem ack_frame (b : BrokerState) (pass : Pass) (inv : TableInv b.subs) (client : SockaddrIn)
    (ack : MiniQuicPacket) (received : receivedPacket b pass = some (client, ack))
    (isAck : ack.type = pktAck) (i : Nat) (s : Subscriber) (hs : b.subs[i]? = some s)
    (other : s.connId ≠ ack.connId) : (handled b pass).1[i]? = some s := by
  have notData : ack.type ≠ pktData := by simp [isAck, Ne.symm pktData_ne_pktAck]
  have noMatch : ackMatches ack s = false := by simp [ackMatches, other]
  have entry := handlePacket_entry b.subs client ack pass.fwdMs inv i s hs
  simp only [entryHandle, notData, noMatch, if_false] at entry
  simpa [handled, received] using entry

theorem ack_length (b : BrokerState) (pass : Pass) (client : SockaddrIn)
    (ack : MiniQuicPacket) (received : receivedPacket b pass = some (client, ack))
    (isAck : ack.type = pktAck) : (handled b pass).1.length = b.subs.length := by
  have notHand : ack.type ≠ pktHandshake := by simp [isAck, Ne.symm pktHandshake_ne_pktAck]
  have same : identities (handled b pass).1 = identities b.subs := by
    rcases identities_handlePacket b.subs client ack pass.fwdMs with kept | ⟨new, -⟩
    · simpa [handled, received] using kept
    · exact absurd new.1 notHand
  exact length_of_identities _ _ same

/-- The table invariant: after every pass and between the received packet and
the timer of the next one, with positions and conn_ids fixed for good and ACKs
confined to the entry of their conn_id. -/
theorem table_sound (junk : Buffer) (history : List Pass) :
    let b := runFrom broker (BrokerState.initial junk) history
    Sound b.subs ∧ (∀ pass, Sound (handled b pass).1) ∧
      (∀ (rest : List Pass) (i : Nat) (s : Subscriber), b.subs[i]? = some s →
        ∃ t, (runFrom broker b rest).subs[i]? = some t ∧ t.connId = s.connId) ∧
      ∀ pass client ack, receivedPacket b pass = some (client, ack) → ack.type = pktAck →
        (handled b pass).1.length = b.subs.length ∧
          ∀ (i : Nat) (s : Subscriber), b.subs[i]? = some s → s.connId ≠ ack.connId →
            (handled b pass).1[i]? = some s := by
  intro b
  have inv := tableInv_run junk history
  have entries := entries_run junk history
  refine ⟨sound_of_entries _ inv entries, ?_, ?_, ?_⟩
  · intro pass
    exact sound_of_entries _ (tableInv_handled b pass inv) (entries_handled b pass inv entries)
  · intro rest i s hs
    obtain ⟨t, ht, conn, -⟩ := entry_stays b rest inv i s hs
    exact ⟨t, ht, conn⟩
  · intro pass client ack received isAck
    exact ⟨ack_length b pass client ack received isAck, fun i s hs other =>
      ack_frame b pass inv client ack received isAck i s hs other⟩

/-- What has been sent to an entry since its slot was loaded with `copy`: nothing
but this copy, at most 1 + MAX_RETRIES times, and as often as `retries` says
while it is outstanding. -/
structure Counted (dest : SockaddrIn) (copy : MiniQuicPacket) (sent : List Send)
    (t : Subscriber) : Prop where
  connId : t.connId = copy.connId
  addr : t.addr = dest
  only : sent = List.replicate sent.length ⟨dest, copy⟩
  bound : sent.length ≤ 1 + maxRetries
  held : t.hasOutstanding = true → t.outstanding = copy ∧ sent.length = t.retries + 1

theorem counted_load (packet : MiniQuicPacket) (ms : UInt64) (s : Subscriber) :
    Counted s.addr (fwdPkt packet s.connId) [⟨s.addr, fwdPkt packet s.connId⟩]
      (loadOutstanding packet ms s) :=
  ⟨rfl, rfl, rfl, Nat.le_add_right 1 maxRetries, fun _ => ⟨rfl, rfl⟩⟩

/-- A packet other than DATA sends nothing to an entry and keeps the count. -/
theorem counted_handle (dest : SockaddrIn) (copy : MiniQuicPacket) (sent : List Send)
    (t : Subscriber) (h : Counted dest copy sent t) (packet : MiniQuicPacket) (ms : UInt64)
    (notData : packet.type ≠ pktData) :
    Counted dest copy (sent ++ (entryHandle packet ms t).2) (entryHandle packet ms t).1 := by
  unfold entryHandle
  rw [if_neg notData]
  split
  · rw [List.append_nil]
    exact ⟨h.connId, h.addr, h.only, h.bound, fun idle => by cases idle⟩
  · rw [List.append_nil]
    exact h

/-- The timer raises the count and `retries` together and stops at the limit. -/
theorem counted_timer (dest : SockaddrIn) (copy : MiniQuicPacket) (sent : List Send)
    (t : Subscriber) (h : Counted dest copy sent t) (now : UInt64) :
    Counted dest copy (sent ++ (timerStep now t).2) (timerStep now t).1 := by
  unfold timerStep
  split
  · rw [List.append_nil]
    exact h
  · next pending =>
    have held := h.held (by simpa using pending)
    split
    · rw [List.append_nil]
      exact h
    · split
      · rw [List.append_nil]
        exact ⟨h.connId, h.addr, h.only, h.bound, fun idle => by cases idle⟩
      · next more =>
        have room := Nat.not_le.mp more
        have size : (sent ++ [(⟨t.addr, t.outstanding⟩ : Send)]).length = sent.length + 1 := by
          simp
        refine ⟨h.connId, h.addr, ?_, ?_, fun _ => ⟨held.1, ?_⟩⟩
        · rw [size, List.replicate_succ', ← h.only, h.addr, held.1]
        · rw [size, held.2]
          omega
        · rw [size, held.2]

/-- One pass that reads no DATA packet. -/
theorem counted_pass (dest : SockaddrIn) (copy : MiniQuicPacket) (sent : List Send)
    (t : Subscriber) (h : Counted dest copy sent t) (received : Option MiniQuicPacket)
    (ms now : UInt64) (noData : ∀ p ∈ received, p.type ≠ pktData) :
    Counted dest copy (sent ++ (entryPass received ms now t).2) (entryPass received ms now t).1 := by
  cases received with
  | none => exact counted_timer dest copy sent t h now
  | some packet =>
    have kept := counted_handle dest copy sent t h packet ms (noData packet rfl)
    have timer := counted_timer dest copy _ _ kept now
    rw [List.append_assoc] at timer
    exact timer

/-- An entry with nothing outstanding is silent and stays so until DATA arrives. -/
theorem silent_pass (t : Subscriber) (idle : t.hasOutstanding = false)
    (received : Option MiniQuicPacket) (ms now : UInt64) (noData : ∀ p ∈ received, p.type ≠ pktData) :
    (entryPass received ms now t).2 = [] ∧
      (entryPass received ms now t).1.hasOutstanding = false := by
  cases received with
  | none => simp [entryPass, timerStep, idle]
  | some packet =>
    have notData := noData packet rfl
    have noMatch : ackMatches packet t = false := by simp [ackMatches, idle]
    simp [entryPass, entryHandle, notData, noMatch, timerStep, idle]

/-- The received packets contain no DATA. -/
def NoData (b : BrokerState) (passes : List Pass) : Prop :=
  ∀ p ∈ receivedPackets b passes, p.2.type ≠ pktData

theorem noData_append (b : BrokerState) (before after : List Pass)
    (h : NoData b (before ++ after)) : NoData b before ∧ NoData (runFrom broker b before) after := by
  unfold NoData at h
  rw [receivedPackets_append] at h
  exact ⟨fun p hp => h p (List.mem_append_left _ hp), fun p hp => h p (List.mem_append_right _ hp)⟩

theorem counted_run (dest : SockaddrIn) (copy : MiniQuicPacket) (sent : List Send)
    (rest : List Pass) (b : BrokerState) (inv : TableInv b.subs) (i : Nat) (t : Subscriber)
    (ht : b.subs[i]? = some t) (h : Counted dest copy sent t) (noData : NoData b rest) :
    ∃ final, (runFrom broker b rest).subs[i]? = some final ∧
      Counted dest copy (sent ++ dataTo copy.connId (outputsFrom broker b rest)) final := by
  have whole := entry_run (fun p => p.type ≠ pktData) (fun _ sent t => Counted dest copy sent t)
    (by
      intro _ sent t arrival ms now counted ok
      apply counted_pass dest copy sent t counted
      intro p hp
      obtain ⟨q, hq, rfl⟩ := Option.map_eq_some_iff.mp hp
      exact ok q hq)
    rest b inv i t ht [] sent h noData
  rw [h.connId] at whole
  exact whole

theorem silent_run (rest : List Pass) (b : BrokerState) (inv : TableInv b.subs) (i : Nat)
    (t : Subscriber) (ht : b.subs[i]? = some t) (idle : t.hasOutstanding = false)
    (noData : NoData b rest) : dataTo t.connId (outputsFrom broker b rest) = [] := by
  obtain ⟨final, -, silent, -⟩ := entry_run (fun p => p.type ≠ pktData)
    (fun _ sent t => sent = [] ∧ t.hasOutstanding = false)
    (by
      rintro _ sent t arrival ms now ⟨rfl, idle⟩ ok
      have step := silent_pass t idle (arrival.map Prod.snd) ms now (by
        intro p hp
        obtain ⟨q, hq, rfl⟩ := Option.map_eq_some_iff.mp hp
        exact ok q hq)
      exact ⟨step.1, step.2⟩)
    rest b inv i t ht [] [] ⟨rfl, idle⟩ noData
  simpa using silent

/-- The packet acknowledges `copy`. -/
def Acknowledges (ack copy : MiniQuicPacket) : Prop :=
  ack.type = pktAck ∧ ack.connId = copy.connId ∧ ack.streamId = copy.streamId ∧
    ack.pktNum = copy.pktNum

/-- The timer's give-up branch is taken for the entry. -/
def GivesUp (now : UInt64) (t : Subscriber) : Prop :=
  t.hasOutstanding = true ∧ ¬ now - t.lastSendMs < retxTimeoutMs ∧ maxRetries ≤ t.retries

/-- A matching ACK silences the entry within its own pass. -/
theorem silent_acknowledged (dest : SockaddrIn) (copy : MiniQuicPacket) (sent : List Send)
    (t : Subscriber) (h : Counted dest copy sent t) (ack : MiniQuicPacket) (ms now : UInt64)
    (acknowledges : Acknowledges ack copy) :
    (entryPass (some ack) ms now t).2 = [] ∧
      (entryPass (some ack) ms now t).1.hasOutstanding = false := by
  obtain ⟨isAck, conn, stream, num⟩ := acknowledges
  have notData : ack.type ≠ pktData := by simp [isAck, Ne.symm pktData_ne_pktAck]
  cases pending : t.hasOutstanding with
  | false =>
    apply silent_pass t pending
    intro p hp
    rw [Option.mem_some.mp hp] at notData
    exact notData
  | true =>
    obtain ⟨same, -⟩ := h.held pending
    have hit : ackMatches ack t = true := by
      simp [ackMatches, pending, same, h.connId, conn, stream, num]
    simp [entryPass, entryHandle, isAck, Ne.symm pktData_ne_pktAck, hit, clearOutstanding, timerStep]

theorem silent_givesUp (t : Subscriber) (received : Option MiniQuicPacket) (ms now : UInt64)
    (noData : ∀ p ∈ received, p.type ≠ pktData)
    (stops : GivesUp now (entryReceive received ms t).1) :
    (entryPass received ms now t).2 = [] ∧
      (entryPass received ms now t).1.hasOutstanding = false := by
  obtain ⟨pending, due, spent⟩ := stops
  have quiet : (entryReceive received ms t).2 = [] := by
    cases received with
    | none => rfl
    | some packet =>
      simp only [entryReceive, entryHandle, noData packet rfl, if_false]
      split <;> rfl
  rw [entryPass_eq, quiet]
  simp [timerStep, pending, due, spent]

/-- Once a pass has silenced an entry, nothing is sent to it until DATA arrives. -/
theorem silent_from (b : BrokerState) (inv : TableInv b.subs) (i : Nat) (t : Subscriber)
    (ht : b.subs[i]? = some t) (next : Pass) (more : List Pass) (noData : NoData b (next :: more))
    (silenced : (entryPass ((receivedPacket b next).map Prod.snd) (next.fwdMs i) next.now t).2 = [] ∧
      (entryPass ((receivedPacket b next).map Prod.snd) (next.fwdMs i) next.now t).1.hasOutstanding =
        false) : dataTo t.connId (outputsFrom broker b (next :: more)) = [] := by
  obtain ⟨entry, own⟩ := broker_entry b next inv i t ht
  have same := entryPass_identity ((receivedPacket b next).map Prod.snd) (next.fwdMs i) next.now t
  have later : NoData (broker b next).1 more := fun p hp => noData p (List.mem_append_right _ hp)
  have silent := silent_run more _ (tableInv_broker b next inv) i _ entry silenced.2 later
  rw [same.1] at silent
  rw [outputsFrom_cons, dataTo_append, own, silenced.1, silent]
  rfl

/-- The life of one loaded copy, up to the next DATA packet: what the entry is sent
is this copy alone, at most 1 + MAX_RETRIES times and `retries` + 1 times while it
is outstanding, after every pass and between the received packet and the timer;
and the entry is sent nothing from a matching ACK, from the give-up branch or from
any state with nothing outstanding onwards. -/
def BoundedLife (b : BrokerState) (load : Pass) (d : MiniQuicPacket) (i : Nat) (s : Subscriber)
    (rest : List Pass) : Prop :=
  let loaded := (broker b load).1
  let copy := fwdPkt d s.connId
  let sent := fun passes => dataTo s.connId ((broker b load).2 ++ outputsFrom broker loaded passes)
  (∃ t, (handled b load).1[i]? = some t ∧
      Counted s.addr copy (dataTo s.connId (handled b load).2) t) ∧
    (∃ t, (runFrom broker loaded rest).subs[i]? = some t ∧ Counted s.addr copy (sent rest) t) ∧
    ∀ before next more, rest = before ++ next :: more →
      let now := runFrom broker loaded before
      (∃ t, (handled now next).1[i]? = some t ∧
          Counted s.addr copy (sent before ++ dataTo s.connId (handled now next).2) t) ∧
        (((∃ t, now.subs[i]? = some t ∧ t.hasOutstanding = false) ∨
            (∃ ack, receivedPacket now next = some ack ∧ Acknowledges ack.2 copy) ∨
            ∃ t, (handled now next).1[i]? = some t ∧ GivesUp next.now t) →
          dataTo s.connId (outputsFrom broker now (next :: more)) = [])

/-- One pass of that life, from the state that `before` has led to. -/
theorem boundedLife_pass (now : BrokerState) (inv : TableInv now.subs) (i : Nat) (t : Subscriber)
    (ht : now.subs[i]? = some t) (dest : SockaddrIn) (copy : MiniQuicPacket) (sent : List Send)
    (counted : Counted dest copy sent t) (next : Pass) (more : List Pass)
    (noData : NoData now (next :: more)) :
    (∃ t, (handled now next).1[i]? = some t ∧
        Counted dest copy (sent ++ dataTo copy.connId (handled now next).2) t) ∧
      (((∃ t, now.subs[i]? = some t ∧ t.hasOutstanding = false) ∨
          (∃ ack, receivedPacket now next = some ack ∧ Acknowledges ack.2 copy) ∨
          ∃ t, (handled now next).1[i]? = some t ∧ GivesUp next.now t) →
        dataTo copy.connId (outputsFrom broker now (next :: more)) = []) := by
  have noDataHere : ∀ p ∈ (receivedPacket now next).map Prod.snd, p.type ≠ pktData := by
    intro p hp
    obtain ⟨q, hq, rfl⟩ := Option.map_eq_some_iff.mp hp
    exact noData q (List.mem_append_left _ (Option.mem_toList.mpr hq))
  obtain ⟨mid, midSent⟩ := handled_entry now next inv i t ht
  rw [← counted.connId, midSent]
  constructor
  · refine ⟨_, mid, ?_⟩
    cases arrival : (receivedPacket now next).map Prod.snd with
    | none => simpa [entryReceive] using counted
    | some packet => exact counted_handle _ _ _ t counted packet _ (noDataHere packet arrival)
  · intro silenced
    apply silent_from now inv i t ht next more noData
    rcases silenced with ⟨u, hu, idle⟩ | ⟨ack, arrived, acknowledges⟩ | ⟨u, hu, stops⟩
    · rw [ht, Option.some.injEq] at hu
      subst hu
      exact silent_pass t idle _ _ _ noDataHere
    · rw [arrived, Option.map_some]
      exact silent_acknowledged _ _ _ t counted ack.2 _ _ acknowledges
    · rw [mid, Option.some.injEq] at hu
      subst hu
      exact silent_givesUp t _ _ _ noDataHere stops

theorem boundedLife_from (b : BrokerState) (inv : TableInv b.subs) (load : Pass)
    (client : SockaddrIn) (d : MiniQuicPacket) (i : Nat) (s : Subscriber) (rest : List Pass)
    (received : receivedPacket b load = some (client, d)) (data : d.type = pktData)
    (registered : b.subs[i]? = some s) (noData : NoData (broker b load).1 rest) :
    BoundedLife b load d i s rest := by
  have loadedInv := tableInv_broker b load inv
  obtain ⟨handledEntry, handledSent⟩ := handled_entry b load inv i s registered
  obtain ⟨entry, own⟩ := broker_entry b load inv i s registered
  simp only [received, Option.map_some, entryPass_eq, entryReceive, entryHandle, data, if_true]
    at handledEntry handledSent entry own
  have first := counted_load d (load.fwdMs i) s
  have start := counted_timer _ _ _ _ first load.now
  have run : ∀ passes, NoData (broker b load).1 passes →
      ∃ t, (runFrom broker (broker b load).1 passes).subs[i]? = some t ∧
        Counted s.addr (fwdPkt d s.connId)
          (dataTo s.connId ((broker b load).2 ++ outputsFrom broker (broker b load).1 passes)) t := by
    intro passes quiet
    rw [dataTo_append, own]
    exact counted_run s.addr (fwdPkt d s.connId) _ passes _ loadedInv i _ entry start quiet
  refine ⟨⟨_, handledEntry, by rw [handledSent]; exact first⟩, run rest noData, ?_⟩
  rintro before next more rfl
  obtain ⟨quiet, onwards⟩ := noData_append _ before (next :: more) noData
  obtain ⟨t, ht, counted⟩ := run before quiet
  exact boundedLife_pass _
    (runFrom_invariant broker (fun b => TableInv b.subs) tableInv_broker _ before loadedInv)
    i t ht s.addr (fwdPkt d s.connId) _ counted next more onwards

/-- In every run, each DATA packet gives each registered entry a bounded life of
its copy, up to the next DATA packet. -/
theorem retransmission_bounded (junk : Buffer) (history : List Pass) (load : Pass)
    (client : SockaddrIn) (d : MiniQuicPacket) (i : Nat) (s : Subscriber) (rest : List Pass)
    (received : receivedPacket (runFrom broker (BrokerState.initial junk) history) load =
      some (client, d))
    (data : d.type = pktData)
    (registered : (runFrom broker (BrokerState.initial junk) history).subs[i]? = some s)
    (noData : NoData (broker (runFrom broker (BrokerState.initial junk) history) load).1 rest) :
    BoundedLife (runFrom broker (BrokerState.initial junk) history) load d i s rest :=
  boundedLife_from _ (tableInv_run junk history) load client d i s rest received data registered
    noData

/-- One retransmission, then the ACK of the copy. -/
theorem retransmission_bounded_sample :
    BoundedLife (runFrom broker (BrokerState.initial zeroBuffer) [subscribeA]) (publishP 2)
      (dataP 2) 0 ⟨7, hostA, false, zeroPacket, 0, 0⟩
      [Pass.idle 700, .reading hostA (ackFor 7 (dataP 2)) (fun _ => 0) 800] :=
  retransmission_bounded zeroBuffer [subscribeA] (publishP 2) hostP (dataP 2) 0 _ _
    (receivedPacket_reading _ _ _ _ _) rfl (by decide +kernel) (by unfold NoData; decide +kernel)

end SportsPubSub.Quic.Bookkeeping
