import SportsPubSub.Lib.KeyedList
import SportsPubSub.Quic.Broker

/-!
# The entries of the Mini-QUIC broker do not interfere

One pass of the broker is described entry by entry: `entryPass` says what happens
to one registered subscriber and which DATA packets are sent for it, and
`broker_entry` shows that the three loops of the source do exactly that to every
entry, because conn_ids are distinct. Positions never change; a registration
appends. Everything about outstanding copies is derived from this description.
-/
namespace SportsPubSub.Quic.Entries
open Lib.Posix Lib.Reactive Lib.KeyedList Packet Broker

/-- What a received packet does to one entry. -/
def entryHandle (packet : MiniQuicPacket) (ms : UInt64) (s : Subscriber) :
    Subscriber × List Send :=
  if packet.type = pktData then
    (loadOutstanding packet ms s, [⟨s.addr, fwdPkt packet s.connId⟩])
  else if packet.type = pktAck ∧ ackMatches packet s = true then (clearOutstanding s, [])
  else (s, [])

/-- One pass on one entry: the received packet, then the timer. -/
def entryPass (received : Option MiniQuicPacket) (ms now : UInt64) (s : Subscriber) :
    Subscriber × List Send :=
  let (s, sent) := match received with
    | none => (s, [])
    | some packet => entryHandle packet ms s
  let (s, resent) := timerStep now s
  (s, sent ++ resent)

/-- The entry fields that no pass ever writes. -/
theorem entryHandle_identity (packet : MiniQuicPacket) (ms : UInt64) (s : Subscriber) :
    (entryHandle packet ms s).1.connId = s.connId ∧ (entryHandle packet ms s).1.addr = s.addr := by
  unfold entryHandle
  split
  · exact ⟨rfl, rfl⟩
  · split <;> exact ⟨rfl, rfl⟩

/-- The timer only touches the bookkeeping fields. -/
theorem timerStep_frame (now : UInt64) (s : Subscriber) :
    (timerStep now s).1.connId = s.connId ∧ (timerStep now s).1.addr = s.addr ∧
      (timerStep now s).1.outstanding = s.outstanding := by
  unfold timerStep
  split
  · exact ⟨rfl, rfl, rfl⟩
  · split
    · exact ⟨rfl, rfl, rfl⟩
    · split <;> exact ⟨rfl, rfl, rfl⟩

theorem entryPass_identity (received : Option MiniQuicPacket) (ms now : UInt64) (s : Subscriber) :
    (entryPass received ms now s).1.connId = s.connId ∧
      (entryPass received ms now s).1.addr = s.addr := by
  cases received with
  | none => exact ⟨(timerStep_frame now s).1, (timerStep_frame now s).2.1⟩
  | some packet =>
    have same := entryHandle_identity packet ms s
    have frame := timerStep_frame now (entryHandle packet ms s).1
    exact ⟨frame.1.trans same.1, frame.2.1.trans same.2⟩

/-- What the timer sends for an entry is its outstanding packet. -/
theorem mem_timerStep (now : UInt64) (s : Subscriber) (x : Send) (h : x ∈ (timerStep now s).2) :
    s.hasOutstanding = true ∧ x = ⟨s.addr, s.outstanding⟩ := by
  unfold timerStep at h
  split at h
  · simp at h
  · next pending =>
    split at h
    · simp at h
    · split at h
      · simp at h
      · exact ⟨by simpa using pending, by simpa using h⟩

/-- The table invariant: capacity, distinct conn_ids, and every outstanding
packet is a DATA packet addressed to its own entry. -/
structure TableInv (subs : List Subscriber) : Prop where
  room : subs.length ≤ maxSubs
  distinct : (subs.map (·.connId)).Nodup
  addressed : ∀ s ∈ subs, s.hasOutstanding = true →
    s.outstanding.type = pktData ∧ s.outstanding.connId = s.connId

theorem forwardLoop_eq (packet : MiniQuicPacket) (fwdMs : Nat → UInt64) (k : Nat)
    (subs : List Subscriber) :
    (forwardLoop packet fwdMs k subs).1 =
        subs.mapIdx (fun i s => loadOutstanding packet (fwdMs (k + i)) s) ∧
      (forwardLoop packet fwdMs k subs).2 =
        subs.map (fun s => ⟨s.addr, fwdPkt packet s.connId⟩) := by
  induction subs generalizing k with
  | nil => exact ⟨rfl, rfl⟩
  | cons s rest ih =>
    obtain ⟨hsubs, hsends⟩ := ih (k + 1)
    constructor
    · simp only [forwardLoop, hsubs, List.mapIdx_cons, Nat.add_zero]
      congr 2
      funext i t
      rw [Nat.add_right_comm, Nat.add_assoc]
    · simp only [forwardLoop, hsends, List.map_cons]

/-- With distinct conn_ids the search of the PKT_ACK branch is a map: at most
one entry matches, so breaking out of the loop loses nothing. -/
theorem ackBranch_eq_map (packet : MiniQuicPacket) (subs : List Subscriber)
    (distinct : (subs.map (·.connId)).Nodup) :
    ackBranch packet subs =
      subs.map (fun s => if ackMatches packet s then clearOutstanding s else s) := by
  induction subs with
  | nil => rfl
  | cons s rest ih =>
    rw [List.map_cons, List.nodup_cons] at distinct
    by_cases hit : ackMatches packet s = true
    · have others : ∀ t ∈ rest, ackMatches packet t = false := by
        intro t ht
        by_contra matched
        have ht' : t.connId = packet.connId := by
          simp only [ackMatches, Bool.not_eq_false, Bool.and_eq_true, beq_iff_eq] at matched
          exact matched.1.1.1
        have hs' : s.connId = packet.connId := by
          simp only [ackMatches, Bool.and_eq_true, beq_iff_eq] at hit
          exact hit.1.1.1
        exact distinct.1 (hs'.trans ht'.symm ▸ List.mem_map_of_mem ht)
      have same : rest.map (fun t => if ackMatches packet t then clearOutstanding t else t) = rest := by
        conv_rhs => rw [← List.map_id rest]
        apply List.map_congr_left
        intro t ht
        simp [others t ht]
      simp [ackBranch, hit, same]
    · simp [ackBranch, hit, ih distinct.2]

theorem registerSubscriber_getElem (subs : List Subscriber) (client : SockaddrIn)
    (packet : MiniQuicPacket) (i : Nat) (s : Subscriber) (hs : subs[i]? = some s) :
    (registerSubscriber subs client packet)[i]? = some s := by
  have hi : i < subs.length := (List.getElem?_eq_some_iff.mp hs).1
  unfold registerSubscriber
  dsimp only
  split
  · rw [List.getElem?_append_left hi, hs]
  · exact hs

/-- A received packet acts on every entry by `entryHandle`. -/
theorem handlePacket_entry (subs : List Subscriber) (client : SockaddrIn)
    (packet : MiniQuicPacket) (fwdMs : Nat → UInt64) (inv : TableInv subs) (i : Nat)
    (s : Subscriber) (hs : subs[i]? = some s) :
    (handlePacket subs client packet fwdMs).1[i]? =
      some (entryHandle packet (fwdMs i) s).1 := by
  unfold handlePacket entryHandle
  split
  · next hand =>
    rw [if_neg (by simp [hand]), if_neg (by simp [hand])]
    unfold handshakeBranch
    dsimp only
    split
    · exact registerSubscriber_getElem subs client packet i s hs
    · exact hs
  · split
    · simp only [dataBranch, (forwardLoop_eq packet fwdMs 0 subs).1, List.getElem?_mapIdx, hs,
        Nat.zero_add, Option.map_some]
    · split
      · next hack =>
        rw [ackBranch_eq_map packet subs inv.distinct, List.getElem?_map, hs]
        by_cases hit : ackMatches packet s = true <;> simp [hack, hit]
      · next hack => simp [hack, hs]

/-- The DATA packets sent to one conn_id. -/
def dataTo (connId : UInt32) (sends : List Send) : List Send :=
  sends.filter fun x => x.pkt.type = pktData ∧ x.pkt.connId = connId

@[simp] theorem dataTo_append (connId : UInt32) (a b : List Send) :
    dataTo connId (a ++ b) = dataTo connId a ++ dataTo connId b := by
  simp [dataTo]

theorem dataTo_eq (connId : UInt32) (sends : List Send)
    (data : ∀ x ∈ sends, x.pkt.type = pktData) :
    dataTo connId sends = sends.filter fun x => x.pkt.connId = connId := by
  apply List.filter_congr
  intro x hx
  simp [data x hx]

/-- The DATA packets that a received packet makes the broker send to an entry. -/
theorem handlePacket_dataTo (subs : List Subscriber) (client : SockaddrIn)
    (packet : MiniQuicPacket) (fwdMs : Nat → UInt64) (inv : TableInv subs) (ms : UInt64)
    (s : Subscriber) (hs : s ∈ subs) :
    dataTo s.connId (handlePacket subs client packet fwdMs).2 = (entryHandle packet ms s).2 := by
  have noAck : dataTo s.connId [sendAck client packet] = [] := by
    simp [dataTo, sendAck, ackFor, pktAck, pktData]
  unfold handlePacket entryHandle
  split
  · next hand =>
    rw [if_neg (by simp [hand]), if_neg (by simp [hand])]
    exact noAck
  · split
    · have forwarded := filter_flatMap_distinct subs (·.connId) inv.distinct
        (fun t => [(⟨t.addr, fwdPkt packet t.connId⟩ : Send)]) (·.pkt.connId)
        (by intro t _ y hy; rw [List.mem_singleton.mp hy]; rfl) s hs
      have flat : (forwardLoop packet fwdMs 0 subs).2 =
          subs.flatMap (fun t => [(⟨t.addr, fwdPkt packet t.connId⟩ : Send)]) := by
        rw [(forwardLoop_eq packet fwdMs 0 subs).2, List.map_eq_flatMap]
      have data : ∀ x ∈ (forwardLoop packet fwdMs 0 subs).2, x.pkt.type = pktData := by
        intro x hx
        rw [(forwardLoop_eq packet fwdMs 0 subs).2] at hx
        obtain ⟨t, -, rfl⟩ := List.mem_map.mp hx
        rfl
      calc
        dataTo s.connId (dataBranch subs client packet fwdMs).2
            = dataTo s.connId ([sendAck client packet] ++ (forwardLoop packet fwdMs 0 subs).2) := rfl
        _ = dataTo s.connId (forwardLoop packet fwdMs 0 subs).2 := by
            rw [dataTo_append, noAck, List.nil_append]
        _ = [⟨s.addr, fwdPkt packet s.connId⟩] := by
            rw [dataTo_eq _ _ data, flat]
            exact forwarded
    · split
      · split <;> rfl
      · next hack => simp [hack, dataTo]

theorem retransmissionTimer_dataTo (now : UInt64) (subs : List Subscriber) (inv : TableInv subs)
    (s : Subscriber) (hs : s ∈ subs) :
    dataTo s.connId (retransmissionTimer now subs).2 = (timerStep now s).2 := by
  have content : ∀ t ∈ subs, ∀ x ∈ (timerStep now t).2,
      x.pkt.type = pktData ∧ x.pkt.connId = t.connId := by
    intro t ht x hx
    obtain ⟨pending, rfl⟩ := mem_timerStep now t x hx
    exact inv.addressed t ht pending
  rw [dataTo_eq]
  · exact filter_flatMap_distinct subs (·.connId) inv.distinct _ (·.pkt.connId)
      (fun t ht x hx => (content t ht x hx).2) s hs
  · intro x hx
    obtain ⟨t, ht, hxt⟩ := List.mem_flatMap.mp hx
    exact (content t ht x hxt).1

/-- Who is registered, at which position and under which address. -/
def identities (subs : List Subscriber) : List (UInt32 × SockaddrIn) :=
  subs.map fun s => (s.connId, s.addr)

/-- Tables with the same identities have the same conn_ids at the same positions. -/
theorem connIds_of_identities (a b : List Subscriber) (same : identities a = identities b) :
    a.map (·.connId) = b.map (·.connId) := by
  simpa [identities, Function.comp_def] using congrArg (List.map Prod.fst) same

theorem length_of_identities (a b : List Subscriber) (same : identities a = identities b) :
    a.length = b.length := by
  simpa [identities] using congrArg List.length same

theorem identities_forwardLoop (packet : MiniQuicPacket) (fwdMs : Nat → UInt64) (k : Nat)
    (subs : List Subscriber) :
    identities (forwardLoop packet fwdMs k subs).1 = identities subs := by
  induction subs generalizing k with
  | nil => rfl
  | cons s rest ih =>
    have tail := ih (k + 1)
    simp only [identities] at tail ⊢
    simp [forwardLoop, loadOutstanding, tail]

theorem identities_ackBranch (packet : MiniQuicPacket) (subs : List Subscriber) :
    identities (ackBranch packet subs) = identities subs := by
  induction subs with
  | nil => rfl
  | cons s rest ih =>
    simp only [identities] at ih ⊢
    unfold ackBranch
    split
    · simp [clearOutstanding]
    · simp [ih]

theorem identities_timer (now : UInt64) (subs : List Subscriber) :
    identities (retransmissionTimer now subs).1 = identities subs := by
  simp only [identities, retransmissionTimer, List.map_map]
  apply List.map_congr_left
  intro s _
  simp [(timerStep_frame now s).1, (timerStep_frame now s).2.1]

/-- The slot written by a registration. -/
def newEntry (client : SockaddrIn) (packet : MiniQuicPacket) : Subscriber :=
  ⟨packet.connId, client, false, zeroPacket, 0, 0⟩

/-- The packet registers its sender: a stream-0 handshake with a new conn_id,
while there is room. -/
def Registers (subs : List Subscriber) (packet : MiniQuicPacket) : Prop :=
  packet.type = pktHandshake ∧ packet.streamId = 0 ∧ subs.length < maxSubs ∧
    packet.connId ∉ subs.map (·.connId)

/-- A received packet leaves everybody in place, or appends one new entry. -/
theorem identities_handlePacket (subs : List Subscriber) (client : SockaddrIn)
    (packet : MiniQuicPacket) (fwdMs : Nat → UInt64) :
    identities (handlePacket subs client packet fwdMs).1 = identities subs ∨
      (Registers subs packet ∧
        (handlePacket subs client packet fwdMs).1 = subs ++ [newEntry client packet]) := by
  unfold handlePacket
  split
  · next hand =>
    unfold handshakeBranch registerSubscriber
    dsimp only
    split
    · next control =>
      split
      · next fresh =>
        right
        simp only [Bool.and_eq_true, Bool.not_eq_true', List.any_eq_false, beq_iff_eq,
          decide_eq_true_eq] at fresh
        refine ⟨⟨hand, control, fresh.2, ?_⟩, rfl⟩
        intro mem
        obtain ⟨t, ht, same⟩ := List.mem_map.mp mem
        exact fresh.1 t ht same
      · exact .inl rfl
    · exact .inl rfl
  · left
    split
    · exact identities_forwardLoop packet fwdMs 0 subs
    · split
      · exact identities_ackBranch packet subs
      · rfl

/-- The entries after a received packet: the old ones after their own step, and
perhaps a new one. -/
theorem mem_handlePacket (subs : List Subscriber) (client : SockaddrIn) (packet : MiniQuicPacket)
    (fwdMs : Nat → UInt64) (inv : TableInv subs) (t : Subscriber)
    (h : t ∈ (handlePacket subs client packet fwdMs).1) :
    (∃ i s, subs[i]? = some s ∧ t = (entryHandle packet (fwdMs i) s).1) ∨
      (Registers subs packet ∧ t = newEntry client packet) := by
  rcases identities_handlePacket subs client packet fwdMs with same | ⟨new, appended⟩
  · left
    have len := length_of_identities _ _ same
    obtain ⟨i, hi⟩ := List.mem_iff_getElem?.mp h
    have hlt : i < subs.length := len ▸ (List.getElem?_eq_some_iff.mp hi).1
    have hs := List.getElem?_eq_getElem hlt
    rw [handlePacket_entry subs client packet fwdMs inv i _ hs, Option.some.injEq] at hi
    exact ⟨i, _, hs, hi.symm⟩
  · have old := h
    rw [appended] at old
    rcases List.mem_append.mp old with kept | added
    · left
      obtain ⟨i, hi⟩ := List.mem_iff_getElem?.mp kept
      refine ⟨i, t, hi, ?_⟩
      simp [entryHandle, new.1]
    · exact .inr ⟨new, List.mem_singleton.mp added⟩

theorem tableInv_handlePacket (subs : List Subscriber) (client : SockaddrIn)
    (packet : MiniQuicPacket) (fwdMs : Nat → UInt64) (inv : TableInv subs) :
    TableInv (handlePacket subs client packet fwdMs).1 := by
  have addressed : ∀ t ∈ (handlePacket subs client packet fwdMs).1, t.hasOutstanding = true →
      t.outstanding.type = pktData ∧ t.outstanding.connId = t.connId := by
    intro t ht
    rcases mem_handlePacket subs client packet fwdMs inv t ht with ⟨i, s, hs, rfl⟩ | ⟨-, rfl⟩
    · have before := inv.addressed s (List.mem_of_getElem? hs)
      unfold entryHandle
      split
      · exact fun _ => ⟨rfl, rfl⟩
      · split
        · intro pending
          cases pending
        · exact before
    · intro pending
      cases pending
  rcases identities_handlePacket subs client packet fwdMs with same | ⟨new, appended⟩
  · have len : (handlePacket subs client packet fwdMs).1.length = subs.length := by
      simpa [identities] using congrArg List.length same
    refine ⟨by rw [len]; exact inv.room, ?_, addressed⟩
    rw [connIds_of_identities _ _ same]
    exact inv.distinct
  · obtain ⟨-, -, room, fresh⟩ := new
    rw [appended] at addressed ⊢
    refine ⟨by simpa using Nat.succ_le_of_lt room, ?_, addressed⟩
    rw [List.map_append, List.nodup_append]
    refine ⟨inv.distinct, by simp, ?_⟩
    intro a ha b hb same
    simp only [List.map_cons, List.map_nil, List.mem_singleton] at hb
    rw [same, hb] at ha
    exact fresh ha

/-- The entries after a received packet: kept, loaded with its copy, or new. -/
theorem mem_handlePacket_subs (subs : List Subscriber) (src : SockaddrIn) (p : MiniQuicPacket)
    (fwdMs : Nat → UInt64) (inv : TableInv subs) (t : Subscriber)
    (h : t ∈ (handlePacket subs src p fwdMs).1) :
    (∃ e ∈ subs, t.connId = e.connId ∧ t.addr = e.addr ∧ (t.hasOutstanding = true →
        (p.type ≠ pktData ∧ e.hasOutstanding = true ∧ t.outstanding = e.outstanding) ∨
          (p.type = pktData ∧ t.outstanding = fwdPkt p e.connId))) ∨
      (Registers subs p ∧ t = newEntry src p) := by
  rcases mem_handlePacket subs src p fwdMs inv t h with ⟨i, e, he, rfl⟩ | new
  · left
    have same := entryHandle_identity p (fwdMs i) e
    refine ⟨e, List.mem_of_getElem? he, same.1, same.2, ?_⟩
    unfold entryHandle
    split
    · next data => exact fun _ => .inr ⟨data, rfl⟩
    · next other =>
      split
      · intro pending
        cases pending
      · exact fun pending => .inl ⟨other, pending, rfl⟩
  · exact .inr new

/-- The entries after the timer carry the packets they carried before. -/
theorem mem_timer_subs (now : UInt64) (subs : List Subscriber) (t : Subscriber)
    (h : t ∈ (retransmissionTimer now subs).1) :
    ∃ e ∈ subs, t.connId = e.connId ∧ t.addr = e.addr ∧ t.outstanding = e.outstanding ∧
      (t.hasOutstanding = true → e.hasOutstanding = true) := by
  obtain ⟨e, he, rfl⟩ := List.mem_map.mp h
  have frame := timerStep_frame now e
  refine ⟨e, he, frame.1, frame.2.1, frame.2.2, ?_⟩
  intro pending
  by_contra idle
  rw [Bool.not_eq_true] at idle
  simp [timerStep, idle] at pending

/-- The packets a received packet makes the broker send. -/
theorem mem_handlePacket_sends (subs : List Subscriber) (src : SockaddrIn) (p : MiniQuicPacket)
    (fwdMs : Nat → UInt64) (x : Send) (h : x ∈ (handlePacket subs src p fwdMs).2) :
    x = sendAck src p ∨ (p.type = pktData ∧ ∃ e ∈ subs, x = ⟨e.addr, fwdPkt p e.connId⟩) := by
  unfold handlePacket at h
  split at h
  · exact .inl (List.mem_singleton.mp h)
  · split at h
    · next data =>
      simp only [dataBranch, (forwardLoop_eq p fwdMs 0 subs).2, List.mem_cons, List.mem_map] at h
      rcases h with rfl | ⟨e, he, rfl⟩
      · exact .inl rfl
      · exact .inr ⟨data, e, he, rfl⟩
    · split at h
      · cases h
      · cases h

/-- A DATA packet is acknowledged and copied to every entry. -/
theorem handlePacket_data_sends (subs : List Subscriber) (src : SockaddrIn) (p : MiniQuicPacket)
    (fwdMs : Nat → UInt64) (data : p.type = pktData) (e : Subscriber) (he : e ∈ subs) :
    ⟨e.addr, fwdPkt p e.connId⟩ ∈ (handlePacket subs src p fwdMs).2 := by
  have other : p.type ≠ pktHandshake := by simp [data, Ne.symm pktHandshake_ne_pktData]
  rw [handlePacket, if_neg other, if_pos data]
  simp only [dataBranch, (forwardLoop_eq p fwdMs 0 subs).2, List.mem_cons, List.mem_map]
  exact Or.inr ⟨e, he, rfl⟩

theorem tableInv_timer (now : UInt64) (subs : List Subscriber) (inv : TableInv subs) :
    TableInv (retransmissionTimer now subs).1 := by
  have same := identities_timer now subs
  refine ⟨?_, ?_, ?_⟩
  · simpa [retransmissionTimer] using inv.room
  · rw [connIds_of_identities _ _ same]
    exact inv.distinct
  · intro t ht pending
    obtain ⟨s, hs, rfl⟩ := List.mem_map.mp ht
    have was : s.hasOutstanding = true := by
      by_contra idle
      rw [Bool.not_eq_true] at idle
      simp [timerStep, idle] at pending
    rw [(timerStep_frame now s).1, (timerStep_frame now s).2.2]
    exact inv.addressed s hs was

/-- The table after the received packet of a pass, before the timer runs. -/
def handled (b : BrokerState) (pass : Pass) : List Subscriber × List Send :=
  match receivedPacket b pass with
  | none => (b.subs, [])
  | some (client, packet) => handlePacket b.subs client packet pass.fwdMs

theorem broker_subs (b : BrokerState) (pass : Pass) :
    (broker b pass).1.subs = (retransmissionTimer pass.now (handled b pass).1).1 := rfl

theorem broker_sends (b : BrokerState) (pass : Pass) :
    (broker b pass).2 =
      (handled b pass).2 ++ (retransmissionTimer pass.now (handled b pass).1).2 := rfl

theorem tableInv_handled (b : BrokerState) (pass : Pass) (inv : TableInv b.subs) :
    TableInv (handled b pass).1 := by
  unfold handled
  split
  · exact inv
  · exact tableInv_handlePacket _ _ _ _ inv

theorem tableInv_broker (b : BrokerState) (pass : Pass) (inv : TableInv b.subs) :
    TableInv (broker b pass).1.subs :=
  tableInv_timer _ _ (tableInv_handled b pass inv)

theorem tableInv_run (junk : Buffer) (history : List Pass) :
    TableInv (runFrom broker (BrokerState.initial junk) history).subs :=
  runFrom_invariant broker (fun b => TableInv b.subs) tableInv_broker _ history
    ⟨by simp [BrokerState.initial], by simp [BrokerState.initial], by simp [BrokerState.initial]⟩

/-- The invariant rule for the table along a run: what holds of the packets received
so far and of the entries. -/
theorem table_run (Inv : List (SockaddrIn × MiniQuicPacket) → List Subscriber → Prop)
    (keep : ∀ received b pass, TableInv b.subs → Inv received b.subs →
      Inv (received ++ (receivedPacket b pass).toList) (broker b pass).1.subs)
    (start : Inv [] []) (junk : Buffer) (history : List Pass) :
    Inv (receivedPackets (BrokerState.initial junk) history)
      (runFrom broker (BrokerState.initial junk) history).subs := by
  have general : ∀ (passes : List Pass) (b : BrokerState) (received), TableInv b.subs →
      Inv received b.subs →
        Inv (received ++ receivedPackets b passes) (runFrom broker b passes).subs := by
    intro passes
    induction passes with
    | nil =>
      intro b received _ here
      simpa [receivedPackets] using here
    | cons pass rest ih =>
      intro b received inv here
      have next := ih _ _ (tableInv_broker b pass inv) (keep received b pass inv here)
      rw [List.append_assoc] at next
      exact next
  exact general history (BrokerState.initial junk) [] (tableInv_run junk []) start

/-- The first half of a pass on one entry. -/
def entryReceive (received : Option MiniQuicPacket) (ms : UInt64) (s : Subscriber) :
    Subscriber × List Send :=
  match received with
  | none => (s, [])
  | some packet => entryHandle packet ms s

theorem entryPass_eq (received : Option MiniQuicPacket) (ms now : UInt64) (s : Subscriber) :
    entryPass received ms now s =
      ((timerStep now (entryReceive received ms s).1).1,
        (entryReceive received ms s).2 ++ (timerStep now (entryReceive received ms s).1).2) := by
  cases received with
  | none => rfl
  | some packet => rfl

theorem entryReceive_identity (received : Option MiniQuicPacket) (ms : UInt64) (s : Subscriber) :
    (entryReceive received ms s).1.connId = s.connId ∧
      (entryReceive received ms s).1.addr = s.addr := by
  cases received with
  | none => exact ⟨rfl, rfl⟩
  | some packet => exact entryHandle_identity packet ms s

/-- Between the received packet and the timer. -/
theorem handled_entry (b : BrokerState) (pass : Pass) (inv : TableInv b.subs) (i : Nat)
    (s : Subscriber) (hs : b.subs[i]? = some s) :
    let own := entryReceive ((receivedPacket b pass).map Prod.snd) (pass.fwdMs i) s
    (handled b pass).1[i]? = some own.1 ∧ dataTo s.connId (handled b pass).2 = own.2 := by
  intro own
  cases received : receivedPacket b pass with
  | none =>
    simp only [own, handled, received, Option.map_none, entryReceive]
    exact ⟨hs, rfl⟩
  | some arrival =>
    obtain ⟨client, packet⟩ := arrival
    simp only [own, handled, received, Option.map_some, entryReceive]
    exact ⟨handlePacket_entry b.subs client packet pass.fwdMs inv i s hs,
      handlePacket_dataTo b.subs client packet pass.fwdMs inv (pass.fwdMs i) s
        (List.mem_of_getElem? hs)⟩

/-- Entry by entry description of a pass: the entry at position `i` takes its own
step, and the DATA packets sent to its conn_id are its own. -/
theorem broker_entry (b : BrokerState) (pass : Pass) (inv : TableInv b.subs) (i : Nat)
    (s : Subscriber) (hs : b.subs[i]? = some s) :
    let own := entryPass ((receivedPacket b pass).map Prod.snd) (pass.fwdMs i) pass.now s
    (broker b pass).1.subs[i]? = some own.1 ∧ dataTo s.connId (broker b pass).2 = own.2 := by
  intro own
  obtain ⟨entry, sent⟩ := handled_entry b pass inv i s hs
  have same := entryReceive_identity ((receivedPacket b pass).map Prod.snd) (pass.fwdMs i) s
  have timer := retransmissionTimer_dataTo pass.now _ (tableInv_handled b pass inv) _
    (List.mem_of_getElem? entry)
  rw [same.1] at timer
  simp only [own, entryPass_eq]
  constructor
  · rw [broker_subs]
    simp [retransmissionTimer, entry]
  · rw [broker_sends, dataTo_append, timer, sent]

/-- Nobody moves: the entry at a position keeps its conn_id and its address. -/
theorem entry_stays (b : BrokerState) (passes : List Pass) (inv : TableInv b.subs) (i : Nat)
    (s : Subscriber) (hs : b.subs[i]? = some s) :
    ∃ t, (runFrom broker b passes).subs[i]? = some t ∧ t.connId = s.connId ∧ t.addr = s.addr := by
  induction passes generalizing b s with
  | nil => exact ⟨s, hs, rfl, rfl⟩
  | cons pass rest ih =>
    obtain ⟨entry, -⟩ := broker_entry b pass inv i s hs
    obtain ⟨t, ht, conn, addr⟩ := ih _ (tableInv_broker b pass inv) _ entry
    have same := entryPass_identity ((receivedPacket b pass).map Prod.snd) (pass.fwdMs i) pass.now s
    exact ⟨t, ht, conn.trans same.1, addr.trans same.2⟩

/-- The invariant rule for one entry along a run, as long as what every pass reads is
allowed for the entry it finds: what holds of the packets received so far, of the DATA
packets sent for the entry and of the entry itself. -/
theorem entry_run_while (Ok : Subscriber → Option (SockaddrIn × MiniQuicPacket) → Prop)
    (Inv : List (SockaddrIn × MiniQuicPacket) → List Send → Subscriber → Prop)
    (keep : ∀ received sent t arrival ms now, Inv received sent t → Ok t arrival →
      Inv (received ++ arrival.toList)
        (sent ++ (entryPass (arrival.map Prod.snd) ms now t).2)
        (entryPass (arrival.map Prod.snd) ms now t).1)
    (rest : List Pass) (b : BrokerState) (inv : TableInv b.subs) (i : Nat) (t : Subscriber)
    (ht : b.subs[i]? = some t) (received : List (SockaddrIn × MiniQuicPacket))
    (sent : List Send) (start : Inv received sent t)
    (allowed : ∀ before pass after u, rest = before ++ pass :: after →
      (runFrom broker b before).subs[i]? = some u →
        Ok u (receivedPacket (runFrom broker b before) pass)) :
    ∃ final, (runFrom broker b rest).subs[i]? = some final ∧
      Inv (received ++ receivedPackets b rest)
        (sent ++ dataTo t.connId (outputsFrom broker b rest)) final := by
  induction rest generalizing b t received sent with
  | nil => exact ⟨t, ht, by simpa [receivedPackets, dataTo] using start⟩
  | cons pass rest ih =>
    obtain ⟨entry, own⟩ := broker_entry b pass inv i t ht
    have here : Ok t (receivedPacket b pass) := allowed [] pass rest t rfl ht
    have later : ∀ before next after u, rest = before ++ next :: after →
        (runFrom broker (broker b pass).1 before).subs[i]? = some u →
          Ok u (receivedPacket (runFrom broker (broker b pass).1 before) next) := by
      intro before next after u split hu
      exact allowed (pass :: before) next after u (by rw [split, List.cons_append]) hu
    have next := keep received sent t (receivedPacket b pass) (pass.fwdMs i) pass.now start here
    have same := entryPass_identity ((receivedPacket b pass).map Prod.snd) (pass.fwdMs i) pass.now t
    obtain ⟨final, hfinal, done⟩ := ih _ (tableInv_broker b pass inv) _ entry _ _ next later
    refine ⟨final, hfinal, ?_⟩
    rw [same.1, List.append_assoc, ← own, List.append_assoc, ← dataTo_append] at done
    exact done

/-- The same when all packets received are of a kind. -/
theorem entry_run (Ok : MiniQuicPacket → Prop)
    (Inv : List (SockaddrIn × MiniQuicPacket) → List Send → Subscriber → Prop)
    (keep : ∀ received sent t arrival ms now, Inv received sent t →
      (∀ p ∈ (arrival : Option (SockaddrIn × MiniQuicPacket)), Ok p.2) →
      Inv (received ++ arrival.toList)
        (sent ++ (entryPass (arrival.map Prod.snd) ms now t).2)
        (entryPass (arrival.map Prod.snd) ms now t).1)
    (rest : List Pass) (b : BrokerState) (inv : TableInv b.subs) (i : Nat) (t : Subscriber)
    (ht : b.subs[i]? = some t) (received : List (SockaddrIn × MiniQuicPacket))
    (sent : List Send) (start : Inv received sent t)
    (kind : ∀ p ∈ receivedPackets b rest, Ok p.2) :
    ∃ final, (runFrom broker b rest).subs[i]? = some final ∧
      Inv (received ++ receivedPackets b rest)
        (sent ++ dataTo t.connId (outputsFrom broker b rest)) final := by
  apply entry_run_while (fun _ arrival => ∀ p ∈ arrival, Ok p.2) Inv keep rest b inv i t ht
    received sent start
  rintro before pass after u rfl - p arrived
  apply kind
  rw [receivedPackets_append]
  apply List.mem_append_right
  exact List.mem_append_left _ (Option.mem_toList.mpr arrived)

end SportsPubSub.Quic.Entries
