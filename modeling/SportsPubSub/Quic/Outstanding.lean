import SportsPubSub.Quic.Entries

/-!
# What becomes of an acknowledged DATA packet

Each entry has one outstanding slot. After a DATA packet is forwarded, its copy
stays in the slot until it is acknowledged or was transmitted 1 + MAX_RETRIES
times, unless a different DATA packet takes the slot: forwarding does not look at
`has_outstanding`. The counting invariant is per entry and is carried along runs
by `entry_run_while`.
-/
namespace SportsPubSub.Quic.Outstanding
open Lib.Posix Lib.Reactive Packet Broker Entries

/-- Entry `i` holds `copy` as outstanding. -/
def Holds (b : BrokerState) (i : Nat) (copy : MiniQuicPacket) : Prop :=
  ∃ t, b.subs[i]? = some t ∧ t.hasOutstanding = true ∧ t.outstanding = copy

/-- One of the packets acknowledges `copy`. -/
def Acked (received : List (SockaddrIn × MiniQuicPacket)) (copy : MiniQuicPacket) : Prop :=
  ∃ p ∈ received, p.2.type = pktAck ∧ p.2.connId = copy.connId ∧
    p.2.streamId = copy.streamId ∧ p.2.pktNum = copy.pktNum

/-- How often `copy` was handed to `sendto` for `dest`. -/
def transmissions (dest : SockaddrIn) (copy : MiniQuicPacket) (sends : List Send) : Nat :=
  sends.count ⟨dest, copy⟩

theorem transmissions_append (dest : SockaddrIn) (copy : MiniQuicPacket) (a b : List Send) :
    transmissions dest copy (a ++ b) = transmissions dest copy a + transmissions dest copy b :=
  List.count_append

/-- Only the DATA packets to the copy's own conn_id count. -/
theorem transmissions_dataTo (dest : SockaddrIn) (copy : MiniQuicPacket) (sends : List Send)
    (data : copy.type = pktData) :
    transmissions dest copy (dataTo copy.connId sends) = transmissions dest copy sends := by
  unfold transmissions dataTo
  rw [List.count_filter]
  simp [data]

/-- The life of one copy in one entry: outstanding, with more transmissions than
`retries` says, or acknowledged, or transmitted as often as the timer would. -/
structure Tracked (dest : SockaddrIn) (copy : MiniQuicPacket)
    (received : List (SockaddrIn × MiniQuicPacket)) (count : Nat) (t : Subscriber) : Prop where
  connId : t.connId = copy.connId
  addr : t.addr = dest
  data : copy.type = pktData
  fate : (t.hasOutstanding = true ∧ t.outstanding = copy ∧ t.retries + 1 ≤ count) ∨
    Acked received copy ∨ 1 + maxRetries ≤ count

theorem Acked.append {received more : List (SockaddrIn × MiniQuicPacket)} {copy : MiniQuicPacket}
    (h : Acked received copy) : Acked (received ++ more) copy := by
  obtain ⟨p, mem, rest⟩ := h
  exact ⟨p, List.mem_append_left _ mem, rest⟩

/-- The timer keeps the count: a retransmission raises both sides, giving up is
only possible at 1 + MAX_RETRIES. -/
theorem tracked_timer (dest : SockaddrIn) (copy : MiniQuicPacket)
    (received : List (SockaddrIn × MiniQuicPacket)) (count : Nat) (t : Subscriber) (now : UInt64)
    (h : Tracked dest copy received count t) :
    Tracked dest copy received (count + transmissions dest copy (timerStep now t).2)
      (timerStep now t).1 := by
  have frame := timerStep_frame now t
  refine ⟨frame.1.trans h.connId, frame.2.1.trans h.addr, h.data, ?_⟩
  rcases h.fate with ⟨pending, held, counted⟩ | acked | often
  · unfold timerStep
    simp only [pending, Bool.not_true, Bool.false_eq_true, if_false]
    split
    · exact .inl ⟨pending, held, by simpa [transmissions] using counted⟩
    · split
      · next last =>
        right
        right
        simp only [transmissions, List.count_nil]
        omega
      · next more =>
        refine .inl ⟨rfl, held, ?_⟩
        simp only [transmissions, h.addr, held, List.count_singleton_self]
        omega
  · exact .inr (.inl acked)
  · exact .inr (.inr (Nat.le_add_right_of_le often))

/-- A received packet takes the slot away only when it is DATA with another copy; an
equal copy starts the retries again and is one more transmission. -/
theorem tracked_handle (dest : SockaddrIn) (copy : MiniQuicPacket)
    (received : List (SockaddrIn × MiniQuicPacket)) (count : Nat) (t : Subscriber)
    (client : SockaddrIn) (packet : MiniQuicPacket) (ms : UInt64)
    (h : Tracked dest copy received count t)
    (kept : t.hasOutstanding = true → t.outstanding = copy → packet.type = pktData →
      fwdPkt packet copy.connId = copy) :
    Tracked dest copy (received ++ [(client, packet)])
      (count + transmissions dest copy (entryHandle packet ms t).2)
      (entryHandle packet ms t).1 := by
  have same := entryHandle_identity packet ms t
  refine ⟨same.1.trans h.connId, same.2.trans h.addr, h.data, ?_⟩
  rcases h.fate with ⟨pending, held, counted⟩ | acked | often
  · by_cases data : packet.type = pktData
    · have again : fwdPkt packet t.connId = copy := by
        rw [h.connId]
        exact kept pending held data
      left
      simp only [entryHandle, data, if_true, loadOutstanding, again, transmissions, h.addr,
        List.count_singleton_self, true_and]
      omega
    · simp only [entryHandle, data, if_false]
      split
      · next hit =>
        obtain ⟨isAck, matched⟩ := hit
        simp only [ackMatches, Bool.and_eq_true, beq_iff_eq] at matched
        obtain ⟨⟨⟨conn, -⟩, num⟩, stream⟩ := matched
        refine .inr (.inl ⟨(client, packet), by simp, isAck, ?_, ?_, ?_⟩)
        · exact conn.symm.trans h.connId
        · rw [← stream, held]
        · rw [← num, held]
      · exact .inl ⟨pending, held, Nat.le_add_right_of_le counted⟩
  · exact .inr (.inl acked.append)
  · exact .inr (.inr (Nat.le_add_right_of_le often))

/-- What one pass reads leaves the slot to `copy`, if the entry holds it. -/
def Leaves (copy : MiniQuicPacket) (t : Subscriber)
    (arrival : Option (SockaddrIn × MiniQuicPacket)) : Prop :=
  ∀ p ∈ arrival, t.hasOutstanding = true → t.outstanding = copy → p.2.type = pktData →
    fwdPkt p.2 copy.connId = copy

theorem tracked_pass (dest : SockaddrIn) (copy : MiniQuicPacket)
    (received : List (SockaddrIn × MiniQuicPacket)) (sent : List Send) (t : Subscriber)
    (arrival : Option (SockaddrIn × MiniQuicPacket)) (ms now : UInt64)
    (h : Tracked dest copy received (transmissions dest copy sent) t)
    (leaves : Leaves copy t arrival) :
    Tracked dest copy (received ++ arrival.toList)
      (transmissions dest copy (sent ++ (entryPass (arrival.map Prod.snd) ms now t).2))
      (entryPass (arrival.map Prod.snd) ms now t).1 := by
  rw [transmissions_append]
  cases arrival with
  | none =>
    have timer := tracked_timer dest copy received _ t now h
    simpa [entryPass] using timer
  | some arrival =>
    obtain ⟨client, packet⟩ := arrival
    have handled := tracked_handle dest copy received _ t client packet ms h (leaves _ rfl)
    have timer := tracked_timer dest copy _ _ _ now handled
    rw [Nat.add_assoc, ← transmissions_append] at timer
    exact timer

/-- Handling a DATA packet starts the life of its copy in every entry. -/
theorem tracked_load (b : BrokerState) (pass : Pass) (inv : TableInv b.subs) (i : Nat)
    (s : Subscriber) (hs : b.subs[i]? = some s) (client : SockaddrIn) (d : MiniQuicPacket)
    (received : receivedPacket b pass = some (client, d)) (data : d.type = pktData) :
    ∃ next, (broker b pass).1.subs[i]? = some next ∧
      Tracked s.addr (fwdPkt d s.connId) []
        (transmissions s.addr (fwdPkt d s.connId) (broker b pass).2) next := by
  obtain ⟨entry, sent⟩ := broker_entry b pass inv i s hs
  refine ⟨_, entry, ?_⟩
  have loaded : Tracked s.addr (fwdPkt d s.connId) [] 1
      (loadOutstanding d (pass.fwdMs i) s) :=
    ⟨rfl, rfl, rfl, .inl ⟨rfl, rfl, Nat.le_refl 1⟩⟩
  have timer := tracked_timer _ _ _ _ _ pass.now loaded
  have first : transmissions s.addr (fwdPkt d s.connId) [⟨s.addr, fwdPkt d s.connId⟩] = 1 :=
    List.count_singleton_self
  rw [← transmissions_dataTo s.addr (fwdPkt d s.connId) _ rfl,
    show (fwdPkt d s.connId).connId = s.connId from rfl, sent]
  simp only [received, Option.map_some, entryPass, entryHandle, data, if_true]
  rw [transmissions_append, first]
  exact timer

/-- The three ways out that a handled DATA packet has for entry `i`. -/
def Accounted (b : BrokerState) (pass : Pass) (d : MiniQuicPacket) (i : Nat) (s : Subscriber)
    (rest : List Pass) : Prop :=
  let after := (broker b pass).1
  let copy := fwdPkt d s.connId
  Holds (runFrom broker after rest) i copy ∨ Acked (receivedPackets after rest) copy ∨
    1 + maxRetries ≤
      transmissions s.addr copy ((broker b pass).2 ++ outputsFrom broker after rest)

/-- Entry `i` still holds `copy` when the pass reads a DATA packet with another copy
for it. -/
def Overwrites (b : BrokerState) (pass : Pass) (i : Nat) (copy : MiniQuicPacket) : Prop :=
  Holds b i copy ∧ ∃ client p, receivedPacket b pass = some (client, p) ∧ p.type = pktData ∧
    fwdPkt p copy.connId ≠ copy

/-- An acknowledged DATA packet is outstanding, acknowledged or transmitted
1 + MAX_RETRIES times, for every entry registered when it was handled, unless the copy
of a different DATA packet took its slot while it was outstanding. -/
theorem acknowledged_data_accounted (junk : Buffer) (history : List Pass) (pass : Pass)
    (client : SockaddrIn) (d : MiniQuicPacket) (i : Nat) (s : Subscriber) (rest : List Pass)
    (received : receivedPacket (runFrom broker (BrokerState.initial junk) history) pass =
      some (client, d))
    (data : d.type = pktData)
    (registered : (runFrom broker (BrokerState.initial junk) history).subs[i]? = some s) :
    Accounted (runFrom broker (BrokerState.initial junk) history) pass d i s rest ∨
      ∃ before next after, rest = before ++ next :: after ∧
        Overwrites (runFrom broker (BrokerState.initial junk) (history ++ pass :: before)) next i
          (fwdPkt d s.connId) := by
  have inv := tableInv_run junk history
  simp only [runFrom_append, runFrom_cons]
  generalize runFrom broker (BrokerState.initial junk) history = b at *
  by_cases overwritten : ∃ before next after, rest = before ++ next :: after ∧
      Overwrites (runFrom broker (broker b pass).1 before) next i (fwdPkt d s.connId)
  · exact .inr overwritten
  · left
    have leaves : ∀ before next after u, rest = before ++ next :: after →
        (runFrom broker (broker b pass).1 before).subs[i]? = some u →
          Leaves (fwdPkt d s.connId) u
            (receivedPacket (runFrom broker (broker b pass).1 before) next) := by
      intro before next after u split hu p arrived pending held isData
      by_contra other
      exact overwritten ⟨before, next, after, split, ⟨u, hu, pending, held⟩, p.1, p.2, arrived,
        isData, other⟩
    obtain ⟨t, ht, start⟩ := tracked_load b pass inv i s registered client d received data
    obtain ⟨final, hfinal, done⟩ := entry_run_while (Leaves (fwdPkt d s.connId))
      (fun received sent t => Tracked s.addr (fwdPkt d s.connId) received
        (transmissions s.addr (fwdPkt d s.connId) sent) t)
      (tracked_pass s.addr (fwdPkt d s.connId)) rest _ (tableInv_broker b pass inv) i t ht
      [] _ start leaves
    rw [transmissions_append, start.connId, transmissions_dataTo _ _ _ start.data,
      ← transmissions_append] at done
    rcases done.fate with ⟨pending, held, -⟩ | acked | often
    · exact .inl ⟨final, hfinal, pending, held⟩
    · exact .inr (.inl acked)
    · exact .inr (.inr often)

/-- One subscriber and one publisher, for runs on fixed inputs. -/
def hostA : SockaddrIn := ⟨afInet, 0x0100007F, 7000⟩
def hostP : SockaddrIn := ⟨afInet, 0x0100007F, 7001⟩

def subscribeA : Pass :=
  .reading hostA ⟨pktHandshake, 7, 0, 1, copyPayload (ascii "SUBSCRIBE")⟩ (fun _ => 0) 0

def dataP (num : UInt32) : MiniQuicPacket :=
  ⟨pktData, 1, 5, num, copyPayload (ascii "GOL Min 32!!")⟩

def publishP (num : UInt32) : Pass := .reading hostP (dataP num) (fun _ => 0) 0

theorem acknowledged_data_accounted_sample :
    Accounted (runFrom broker (BrokerState.initial zeroBuffer) [subscribeA]) (publishP 2)
        (dataP 2) 0 ⟨7, hostA, false, zeroPacket, 0, 0⟩ [publishP 2, Pass.idle 700] ∨
      ∃ before next after, [publishP 2, Pass.idle 700] = before ++ next :: after ∧
        Overwrites (runFrom broker (BrokerState.initial zeroBuffer)
          ([subscribeA] ++ publishP 2 :: before)) next 0 (fwdPkt (dataP 2) 7) :=
  acknowledged_data_accounted zeroBuffer [subscribeA] (publishP 2) hostP (dataP 2) 0 _ _
    (receivedPacket_reading _ _ _ _ _) rfl (by decide +kernel)

/-- The next DATA packet takes the slot: its predecessor, acknowledged to the
publisher and sent once, is then neither outstanding nor acknowledged. -/
theorem acknowledged_data_overwritten :
    ¬ ∀ (junk : Buffer) (history : List Pass) (pass : Pass) (client : SockaddrIn)
        (d : MiniQuicPacket) (i : Nat) (s : Subscriber) (rest : List Pass),
      receivedPacket (runFrom broker (BrokerState.initial junk) history) pass = some (client, d) →
      d.type = pktData →
      sendAck client d ∈ (broker (runFrom broker (BrokerState.initial junk) history) pass).2 →
      (runFrom broker (BrokerState.initial junk) history).subs[i]? = some s →
      Accounted (runFrom broker (BrokerState.initial junk) history) pass d i s rest := by
  intro claim
  have counterexample := claim zeroBuffer [subscribeA] (publishP 2) hostP (dataP 2) 0
    ⟨7, hostA, false, zeroPacket, 0, 0⟩ [publishP 3] (receivedPacket_reading _ _ _ _ _) rfl
    (by decide +kernel) (by decide +kernel)
  rcases counterexample with ⟨t, ht, -, held⟩ | ⟨p, mem, isAck, -⟩ | often
  · have holdsNext : (runFrom broker (BrokerState.initial zeroBuffer)
        [subscribeA, publishP 2, publishP 3]).subs.map (·.outstanding.pktNum) = [3] := by
      decide +kernel
    have here : t ∈ (runFrom broker (BrokerState.initial zeroBuffer)
        [subscribeA, publishP 2, publishP 3]).subs := List.mem_of_getElem? ht
    have num : t.outstanding.pktNum ∈ [(3 : UInt32)] := by
      rw [← holdsNext]
      exact List.mem_map_of_mem here
    rw [held] at num
    revert num
    decide +kernel
  · simp only [publishP, receivedPackets, receivedPacket_reading, Option.toList_some,
      List.append_nil, List.mem_singleton] at mem
    subst mem
    revert isAck
    decide +kernel
  · revert often
    decide +kernel

end SportsPubSub.Quic.Outstanding
