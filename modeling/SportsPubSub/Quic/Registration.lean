import SportsPubSub.Quic.Forwarding

/-!
# Registration

A stream-0 handshake is acknowledged whatever became of it. It registers its
conn_id once, while there is room, and the entry keeps the address it was
registered from: a handshake repeated later is acknowledged and changes nothing.
Both halves follow from one invariant, which ties the table to the handshakes
received so far.
-/
namespace SportsPubSub.Quic.Registration
open Lib.Posix Lib.Reactive Packet Broker Entries Outstanding Forwarding

/-- A stream-0 handshake finds its conn_id registered afterwards, unless it is a
new one and the table is full. -/
theorem handshake_registers (subs : List Subscriber) (client : SockaddrIn)
    (packet : MiniQuicPacket) (fwdMs : Nat → UInt64) (hand : packet.type = pktHandshake)
    (control : packet.streamId = 0) :
    packet.connId ∈ (handlePacket subs client packet fwdMs).1.map (·.connId) ↔
      packet.connId ∈ subs.map (·.connId) ∨ subs.length < maxSubs := by
  constructor
  · intro after
    rcases identities_handlePacket subs client packet fwdMs with same | ⟨new, -⟩
    · rw [connIds_of_identities _ _ same] at after
      exact .inl after
    · exact .inr new.2.2.1
  · intro possible
    rw [handlePacket, if_pos hand, handshakeBranch, if_pos control, registerSubscriber]
    dsimp only
    split
    · simp
    · next kept =>
      rcases possible with old | room
      · exact old
      · simp only [Bool.and_eq_true, Bool.not_eq_true', decide_eq_true_eq, not_and] at kept
        by_contra fresh
        refine (not_lt_of_ge (Nat.not_lt.mp (kept ?_))) room
        rw [List.any_eq_false]
        intro s hs same
        exact fresh (beq_iff_eq.mp same ▸ List.mem_map_of_mem hs)

theorem connIds_broker (b : BrokerState) (pass : Pass) :
    (broker b pass).1.subs.map (·.connId) = (handled b pass).1.map (·.connId) :=
  connIds_of_identities _ _ (identities_timer pass.now _)

theorem length_broker (b : BrokerState) (pass : Pass) :
    (broker b pass).1.subs.length = (handled b pass).1.length :=
  length_of_identities _ _ (identities_timer pass.now _)

/-- Every handshake is acknowledged. -/
theorem handshake_acknowledged (b : BrokerState) (pass : Pass) (client : SockaddrIn)
    (p : MiniQuicPacket) (received : receivedPacket b pass = some (client, p))
    (hand : p.type = pktHandshake) : sendAck client p ∈ (broker b pass).2 := by
  rw [broker_sends, handled, received]
  simp [handlePacket, hand, handshakeBranch]

/-- The conn_id has an entry from now on, and every DATA packet read from now on is
forwarded to it. -/
def ServedFrom (b : BrokerState) (c : UInt32) : Prop :=
  c ∈ b.subs.map (·.connId) ∧
    ∃ i : Nat, ∀ rest next src d,
      receivedPacket (runFrom broker b rest) next = some (src, d) → d.type = pktData →
        ∃ s, (runFrom broker b rest).subs[i]? = some s ∧ s.connId = c ∧
          ⟨s.addr, fwdPkt d c⟩ ∈ (broker (runFrom broker b rest) next).2

theorem servedFrom_iff (b : BrokerState) (inv : TableInv b.subs) (c : UInt32) :
    ServedFrom b c ↔ c ∈ b.subs.map (·.connId) := by
  constructor
  · exact fun served => served.1
  · intro mem
    obtain ⟨s, hs, rfl⟩ := List.mem_map.mp mem
    obtain ⟨i, hi⟩ := List.mem_iff_getElem?.mp hs
    refine ⟨mem, i, ?_⟩
    intro rest next src d received data
    obtain ⟨t, ht, conn, -⟩ := entry_stays b rest inv i s hi
    refine ⟨t, ht, conn, ?_⟩
    rw [broker_sends, handled, received, ← conn]
    exact List.mem_append_left _
      (handlePacket_data_sends _ src d next.fwdMs data t (List.mem_of_getElem? ht))

/-- An acknowledged subscription is served exactly when the conn_id was registered
before or the table has room. -/
theorem acknowledged_served (junk : Buffer) (history : List Pass) (pass : Pass)
    (client : SockaddrIn) (p : MiniQuicPacket)
    (received : receivedPacket (runFrom broker (BrokerState.initial junk) history) pass =
      some (client, p))
    (hand : p.type = pktHandshake) (control : p.streamId = 0) :
    let b := runFrom broker (BrokerState.initial junk) history
    (sendAck client p ∈ (broker b pass).2 → ServedFrom (broker b pass).1 p.connId) ↔
      p.connId ∈ b.subs.map (·.connId) ∨ b.subs.length < maxSubs := by
  intro b
  have acknowledged := handshake_acknowledged b pass client p received hand
  have inv := tableInv_broker b pass (tableInv_run junk history)
  have after : (handled b pass).1 = (handlePacket b.subs client p pass.fwdMs).1 := by
    rw [handled, received]
  rw [servedFrom_iff _ inv, connIds_broker, after,
    ← handshake_registers b.subs client p pass.fwdMs hand control]
  exact ⟨fun h => h acknowledged, fun h _ => h⟩

/-- A subscription sent by some client. -/
def subscribe (client : SockaddrIn) (connId : UInt32) : Pass :=
  .reading client ⟨pktHandshake, connId, 0, 1, copyPayload (ascii "SUBSCRIBE")⟩ (fun _ => 0) 0

theorem acknowledged_served_sample :
    ServedFrom (broker (BrokerState.initial zeroBuffer) (subscribe hostA 7)).1 7 :=
  (acknowledged_served zeroBuffer [] (subscribe hostA 7) hostA _
    (receivedPacket_reading _ _ _ _ _) rfl rfl).mpr (.inr (by decide)) (by decide +kernel)

/-- Ten conn_ids subscribe, one after the other. -/
def tenSubscribers : List Pass := (List.range 10).map fun i => subscribe hostA i.toUInt32

/-- The eleventh is acknowledged and has no entry. -/
theorem eleventh_not_served :
    ¬ (sendAck hostP ⟨pktHandshake, 10, 0, 1, copyPayload (ascii "SUBSCRIBE")⟩ ∈
          (broker (runFrom broker (BrokerState.initial zeroBuffer) tenSubscribers)
            (subscribe hostP 10)).2 →
        ServedFrom (broker (runFrom broker (BrokerState.initial zeroBuffer) tenSubscribers)
          (subscribe hostP 10)).1 10) := by
  intro served
  have acknowledged : sendAck hostP ⟨pktHandshake, 10, 0, 1, copyPayload (ascii "SUBSCRIBE")⟩ ∈
      (broker (runFrom broker (BrokerState.initial zeroBuffer) tenSubscribers)
        (subscribe hostP 10)).2 := by decide +kernel
  have absent : (10 : UInt32) ∉ (broker (runFrom broker (BrokerState.initial zeroBuffer)
      tenSubscribers) (subscribe hostP 10)).1.subs.map (·.connId) := by decide +kernel
  exact absent (served acknowledged).1

/-- Where the stream-0 handshakes with a conn_id came from, in order; every one of
them was acknowledged. -/
def claimants (c : UInt32) (received : List (SockaddrIn × MiniQuicPacket)) : List SockaddrIn :=
  (received.filter fun r =>
    r.2.type = pktHandshake ∧ r.2.streamId = 0 ∧ r.2.connId = c).map Prod.fst

@[simp] theorem claimants_append (c : UInt32) (old new : List (SockaddrIn × MiniQuicPacket)) :
    claimants c (old ++ new) = claimants c old ++ claimants c new := by
  simp [claimants]

theorem mem_claimants (c : UInt32) (received : List (SockaddrIn × MiniQuicPacket))
    (a : SockaddrIn) (h : a ∈ claimants c received) :
    ∃ p, (a, p) ∈ received ∧ p.type = pktHandshake ∧ p.streamId = 0 ∧ p.connId = c := by
  obtain ⟨⟨src, p⟩, mem, rfl⟩ := List.mem_map.mp h
  obtain ⟨old, claims⟩ := List.mem_filter.mp mem
  exact ⟨p, old, by simpa using claims⟩

/-- What the handshakes so far say about the table: an entry has the address of the
first one that carried its conn_id, and while there is room no conn_id that asked
for an entry is without one. -/
structure Bound (received : List (SockaddrIn × MiniQuicPacket)) (subs : List Subscriber) :
    Prop where
  first : ∀ s ∈ subs, (claimants s.connId received).head? = some s.addr
  listed : subs.length < maxSubs → ∀ c, claimants c received ≠ [] → c ∈ subs.map (·.connId)

theorem bound_handlePacket (received : List (SockaddrIn × MiniQuicPacket))
    (subs : List Subscriber) (client : SockaddrIn) (packet : MiniQuicPacket)
    (fwdMs : Nat → UInt64) (inv : TableInv subs) (bound : Bound received subs) :
    Bound (received ++ [(client, packet)]) (handlePacket subs client packet fwdMs).1 := by
  have old : ∀ c, c ∈ subs.map (·.connId) →
      c ∈ (handlePacket subs client packet fwdMs).1.map (·.connId) := by
    intro c mem
    rcases identities_handlePacket subs client packet fwdMs with same | ⟨-, appended⟩
    · rw [connIds_of_identities _ _ same]
      exact mem
    · rw [appended, List.map_append]
      exact List.mem_append_left _ mem
  constructor
  · intro t ht
    rcases mem_handlePacket_subs subs client packet fwdMs inv t ht with
      ⟨e, he, conn, addr, -⟩ | ⟨⟨hand, control, room, fresh⟩, rfl⟩
    · have head := bound.first e he
      rw [claimants_append, conn, addr, List.head?_append, head]
      rfl
    · have none : claimants packet.connId received = [] := by
        by_contra asked
        exact fresh (bound.listed room _ asked)
      have claims : claimants packet.connId [(client, packet)] = [client] := by
        simp [claimants, hand, control]
      rw [claimants_append]
      simp only [newEntry, none, claims]
      rfl
  · intro room c asked
    have roomBefore : subs.length < maxSubs := by
      rcases identities_handlePacket subs client packet fwdMs with same | ⟨new, -⟩
      · exact length_of_identities _ _ same ▸ room
      · exact new.2.2.1
    by_cases before : claimants c received = []
    · rw [claimants_append, before, List.nil_append] at asked
      obtain ⟨a, ha⟩ := List.exists_mem_of_ne_nil _ asked
      obtain ⟨p, mem, hand, control, rfl⟩ := mem_claimants c _ a ha
      cases List.mem_singleton.mp mem
      exact (handshake_registers subs client packet fwdMs hand control).mpr (.inr roomBefore)
    · exact old c (bound.listed roomBefore c before)

theorem bound_broker (received : List (SockaddrIn × MiniQuicPacket)) (b : BrokerState)
    (pass : Pass) (inv : TableInv b.subs) (bound : Bound received b.subs) :
    Bound (received ++ (receivedPacket b pass).toList) (broker b pass).1.subs := by
  have half : Bound (received ++ (receivedPacket b pass).toList) (handled b pass).1 := by
    unfold handled
    cases arrived : receivedPacket b pass with
    | none => simpa using bound
    | some arrival => exact bound_handlePacket received _ _ _ _ inv bound
  constructor
  · intro t ht
    obtain ⟨e, he, conn, addr, -⟩ := mem_timer_subs pass.now _ t ht
    rw [conn, addr]
    exact half.first e he
  · rw [length_broker, connIds_broker]
    exact half.listed

theorem bound_run (junk : Buffer) (history : List Pass) :
    Bound (receivedPackets (BrokerState.initial junk) history)
      (runFrom broker (BrokerState.initial junk) history).subs :=
  table_run Bound bound_broker
    ⟨fun s hs => (by cases hs), fun _ c asked => absurd rfl asked⟩ junk history

/-- Whatever is forwarded or retransmitted to a conn_id goes to the source of the
latest handshake that carried it. -/
def FollowsClient (b : BrokerState) (c : UInt32) (history : List Pass) : Prop :=
  ∀ before pass after, history = before ++ pass :: after →
    ∀ x ∈ dataTo c (broker (runFrom broker b before) pass).2,
      (claimants c (receivedPackets b (before ++ [pass]))).getLast? = some x.dest

/-- The same if, at any moment of the run, a DATA packet is read next. -/
def KeepsSession (b : BrokerState) (c : UInt32) (history : List Pass) : Prop :=
  ∀ before after, history = before ++ after →
    ∀ next src d, receivedPacket (runFrom broker b before) next = some (src, d) →
      d.type = pktData → FollowsClient b c (before ++ [next])

/-- Whatever is sent to a conn_id goes to the source of the first handshake. -/
theorem sent_to_first (junk : Buffer) (before : List Pass) (pass : Pass) (c : UInt32) (x : Send)
    (hx : x ∈ dataTo c (broker (runFrom broker (BrokerState.initial junk) before) pass).2) :
    (claimants c (receivedPackets (BrokerState.initial junk) (before ++ [pass]))).head? =
      some x.dest := by
  have inv := tableInv_run junk before
  obtain ⟨sent, content⟩ := List.mem_filter.mp hx
  simp only [decide_eq_true_eq] at content
  have held := held_run junk before
  obtain ⟨s, hs, dest, conn, -⟩ := sends_copied _ pass inv _ held x sent content.1
  have bound := bound_run junk (before ++ [pass])
  rw [runFrom_append] at bound
  have head := bound.first s hs
  rw [← conn, content.2, ← dest] at head
  exact head

/-- A conn_id registered later was registered before, or there was room. -/
theorem registered_back (rest : List Pass) (b : BrokerState) (c : UInt32)
    (later : c ∈ (runFrom broker b rest).subs.map (·.connId)) :
    c ∈ b.subs.map (·.connId) ∨ b.subs.length < maxSubs := by
  induction rest generalizing b with
  | nil => exact .inl later
  | cons pass rest ih =>
    have next := ih _ later
    rw [connIds_broker, length_broker] at next
    unfold handled at next
    split at next
    · exact next
    · next client packet _ =>
      rcases identities_handlePacket b.subs client packet pass.fwdMs with same | ⟨new, -⟩
      · rw [connIds_of_identities _ _ same, length_of_identities _ _ same] at next
        exact next
      · exact .inr new.2.2.1

theorem receivedPackets_snoc (b : BrokerState) (before : List Pass) (pass : Pass) :
    receivedPackets b (before ++ [pass]) =
      receivedPackets b before ++ (receivedPacket (runFrom broker b before) pass).toList := by
  rw [receivedPackets_append, receivedPackets, receivedPackets, List.append_nil]

/-- A DATA packet read next adds no handshake. -/
theorem claimants_data (b : BrokerState) (before : List Pass) (next : Pass) (src : SockaddrIn)
    (d : MiniQuicPacket) (received : receivedPacket (runFrom broker b before) next = some (src, d))
    (data : d.type = pktData) (c : UInt32) :
    claimants c (receivedPackets b (before ++ [next])) = claimants c (receivedPackets b before) := by
  have none : claimants c [(src, d)] = [] := by
    simp [claimants, data, Ne.symm pktHandshake_ne_pktData]
  rw [receivedPackets_snoc, received, Option.toList_some, claimants_append, none, List.append_nil]

/-- When all handshakes of a conn_id come from one address, the first is the latest. -/
theorem follows_of_same (junk : Buffer) (c : UInt32) (history : List Pass) (a : SockaddrIn)
    (same : ∀ x ∈ claimants c (receivedPackets (BrokerState.initial junk) history), x = a) :
    FollowsClient (BrokerState.initial junk) c history := by
  intro before pass after split x hx
  have head := sent_to_first junk before pass c x hx
  have part : ∀ y ∈ claimants c (receivedPackets (BrokerState.initial junk) (before ++ [pass])),
      y = a := by
    intro y hy
    apply same y
    rw [split, List.append_cons, receivedPackets_append, claimants_append]
    exact List.mem_append_left _ hy
  have all := List.eq_replicate_of_mem part
  rw [all] at head ⊢
  rw [List.head?_replicate] at head
  rw [List.getLast?_replicate]
  exact head

/-- A DATA packet read next reaches the source of the latest handshake only if that
is the source of the first. -/
theorem latest_of_keeps (junk : Buffer) (before after : List Pass) (c : UInt32)
    (keeps : KeepsSession (BrokerState.initial junk) c (before ++ after))
    (here : c ∈ (runFrom broker (BrokerState.initial junk) before).subs.map (·.connId)) :
    (claimants c (receivedPackets (BrokerState.initial junk) before)).getLast? =
      (claimants c (receivedPackets (BrokerState.initial junk) before)).head? := by
  obtain ⟨t, ht, rfl⟩ := List.mem_map.mp here
  have head := (bound_run junk before).first t ht
  let d : MiniQuicPacket := ⟨pktData, 0, 0, 0, zeroPayload⟩
  let next : Pass := .reading t.addr d (fun _ => 0) 0
  have received : receivedPacket (runFrom broker (BrokerState.initial junk) before) next =
      some (t.addr, d) := receivedPacket_reading _ _ _ _ _
  have sent : ⟨t.addr, fwdPkt d t.connId⟩ ∈
      dataTo t.connId (broker (runFrom broker (BrokerState.initial junk) before) next).2 := by
    refine List.mem_filter.mpr ⟨?_, by simp [fwdPkt]⟩
    rw [broker_sends, handled, received]
    exact List.mem_append_left _ (handlePacket_data_sends _ _ d next.fwdMs rfl t ht)
  have follows := keeps before after rfl next t.addr d received rfl before next [] rfl _ sent
  rw [claimants_data _ before next t.addr d received rfl] at follows
  exact follows.trans head.symm

/-- The session follows the client exactly when the client never moves. -/
theorem migration_exact (junk : Buffer) (history : List Pass) (c : UInt32)
    (registered : c ∈ (runFrom broker (BrokerState.initial junk) history).subs.map (·.connId)) :
    (FollowsClient (BrokerState.initial junk) c history ∧
        KeepsSession (BrokerState.initial junk) c history) ↔
      ∃ a, ∀ x ∈ claimants c (receivedPackets (BrokerState.initial junk) history), x = a := by
  constructor
  · rintro ⟨-, keeps⟩
    obtain ⟨s, hs, rfl⟩ := List.mem_map.mp registered
    have head := (bound_run junk history).first s hs
    refine ⟨s.addr, ?_⟩
    intro a ha
    obtain ⟨p, mem, hand, control, conn⟩ := mem_claimants _ _ a ha
    obtain ⟨before, pass, after, split, arrived⟩ := receivedPackets_split _ history _ mem
    -- right after this handshake the conn_id is registered and a DATA packet may be read
    let now := runFrom broker (BrokerState.initial junk) (before ++ [pass])
    have latest : (claimants s.connId (receivedPackets (BrokerState.initial junk)
        (before ++ [pass]))).getLast? = some a := by
      have claims : claimants s.connId [(a, p)] = [a] := by simp [claimants, hand, control, conn]
      rw [receivedPackets_snoc, arrived, Option.toList_some, claimants_append, claims,
        List.getLast?_append]
      rfl
    have here : s.connId ∈ now.subs.map (·.connId) := by
      rw [split, List.append_cons, runFrom_append] at registered
      rcases registered_back after now s.connId registered with mem | room
      · exact mem
      · apply (bound_run junk (before ++ [pass])).listed room
        intro none
        rw [none] at latest
        cases latest
    rw [split, List.append_cons] at keeps head
    have same := latest_of_keeps junk (before ++ [pass]) after s.connId keeps here
    rw [latest] at same
    rw [receivedPackets_append, claimants_append, List.head?_append, ← same] at head
    exact Option.some.inj head
  · rintro ⟨a, same⟩
    refine ⟨follows_of_same junk c history a same, ?_⟩
    rintro before after rfl next src d received data
    apply follows_of_same junk c (before ++ [next]) a
    intro x hx
    rw [claimants_data _ before next src d received data] at hx
    apply same x
    rw [receivedPackets_append, claimants_append]
    exact List.mem_append_left _ hx

theorem migration_exact_sample :
    FollowsClient (BrokerState.initial zeroBuffer) 7 [subscribe hostA 7, publishP 2] ∧
      KeepsSession (BrokerState.initial zeroBuffer) 7 [subscribe hostA 7, publishP 2] :=
  (migration_exact zeroBuffer [subscribe hostA 7, publishP 2] 7 (by decide +kernel)).mpr
    ⟨hostA, by decide +kernel⟩

/-- The subscriber after a change of network. -/
def movedA : SockaddrIn := ⟨afInet, 0x0100007F, 7002⟩

/-- It subscribes again under its conn_id, and the news still go to the old address. -/
theorem moved_not_followed :
    (7 : UInt32) ∈ (runFrom broker (BrokerState.initial zeroBuffer)
        [subscribe hostA 7, subscribe movedA 7, publishP 2]).subs.map (·.connId) ∧
      ¬ FollowsClient (BrokerState.initial zeroBuffer) 7
        [subscribe hostA 7, subscribe movedA 7, publishP 2] := by
  refine ⟨by decide +kernel, ?_⟩
  intro follows
  have latest := follows [subscribe hostA 7, subscribe movedA 7] (publishP 2) [] rfl
    ⟨hostA, fwdPkt (dataP 2) 7⟩ (by decide +kernel)
  have moved : claimants 7 (receivedPackets (BrokerState.initial zeroBuffer)
      ([subscribe hostA 7, subscribe movedA 7] ++ [publishP 2])) = [hostA, movedA] := by
    decide +kernel
  rw [moved] at latest
  revert latest
  decide

end SportsPubSub.Quic.Registration
