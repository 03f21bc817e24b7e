import SportsPubSub.Quic.Composed

/-!
# Where every Mini-QUIC datagram comes from

`Origin` lists the five ways a datagram can have entered the network, each with
the earlier event that produced it. One invariant carries the origins, the table
entries and the justification of every event along all runs of the composed
system; the acknowledgement results only read it.
-/
namespace SportsPubSub.Quic.Provenance
open Lib.Posix Lib.Reactive Lib.DatagramNet Packet Broker Entries Client Composed

variable {ι κ : Type}

/-- `q` is the copy, under `connId`, of a DATA packet that the broker handled. -/
def Copied (trace : List (Event ι κ)) (connId : UInt32) (q : MiniQuicPacket) : Prop :=
  ∃ pos src d subs sends, Event.handled pos src d subs sends ∈ trace ∧ d.type = pktData ∧
    q = fwdPkt d connId

inductive Origin (D : Deployment ι κ) (trace : List (Event ι κ)) :
    Datagram SockaddrIn MiniQuicPacket → Prop
  | published (i : ι) (attempt : Nat) (pkt : MiniQuicPacket)
      (own : pkt ∈ (D.publisher i).packets) (sent : .transmitted i attempt pkt ∈ trace) :
      Origin D trace ⟨(D.publisher i).addr, D.brokerAddr, pkt⟩
  | requested (k : κ) :
      Origin D trace ⟨(D.subscriber k).addr, D.brokerAddr, (D.subscriber k).subReq⟩
  | confirmed (k : κ) (pos : Nat) (q : MiniQuicPacket) (shown : .displayed k pos q ∈ trace) :
      Origin D trace
        ⟨(D.subscriber k).addr, D.brokerAddr, ackFor (D.subscriber k).connId q⟩
  | answered (pos : Nat) (src : SockaddrIn) (p : MiniQuicPacket) (subs : List Subscriber)
      (sends : List Send) (handled : .handled pos src p subs sends ∈ trace)
      (issued : sendAck src p ∈ sends) (outside : src ≠ D.brokerAddr) :
      Origin D trace ⟨D.brokerAddr, src, ackFor p.connId p⟩
  | forwarded (k : κ) (q : MiniQuicPacket) (copy : Copied trace (D.subscriber k).connId q) :
      Origin D trace ⟨D.brokerAddr, (D.subscriber k).addr, q⟩

/-- A table entry belongs to a subscriber of the deployment, and its outstanding
packet is the copy of a DATA packet handled before. -/
def Entry (D : Deployment ι κ) (trace : List (Event ι κ)) (e : Subscriber) : Prop :=
  ∃ k, e.connId = (D.subscriber k).connId ∧ e.addr = (D.subscriber k).addr ∧
    (e.hasOutstanding = true → Copied trace e.connId e.outstanding)

theorem Copied.mono {trace more : List (Event ι κ)} {connId : UInt32} {q : MiniQuicPacket}
    (h : Copied trace connId q) : Copied (trace ++ more) connId q := by
  obtain ⟨pos, src, d, subs, sends, mem, rest⟩ := h
  exact ⟨pos, src, d, subs, sends, List.mem_append_left _ mem, rest⟩

theorem Origin.mono {D : Deployment ι κ} {trace more : List (Event ι κ)}
    {g : Datagram SockaddrIn MiniQuicPacket} (h : Origin D trace g) :
    Origin D (trace ++ more) g := by
  cases h with
  | published i attempt pkt own sent =>
    exact .published i attempt pkt own (List.mem_append_left _ sent)
  | requested k => exact .requested k
  | confirmed k pos q shown => exact .confirmed k pos q (List.mem_append_left _ shown)
  | answered pos src p subs sends handled issued outside =>
    exact .answered pos src p subs sends (List.mem_append_left _ handled) issued outside
  | forwarded k q copy => exact .forwarded k q copy.mono

theorem Entry.mono {D : Deployment ι κ} {trace more : List (Event ι κ)} {e : Subscriber}
    (h : Entry D trace e) : Entry D (trace ++ more) e := by
  obtain ⟨k, conn, addr, held⟩ := h
  exact ⟨k, conn, addr, fun pending => (held pending).mono⟩

/-- What reaches the broker: packets of publishers, requests and confirmations. -/
theorem origin_to_broker (D : Deployment ι κ) (trace : List (Event ι κ)) (src : SockaddrIn)
    (p : MiniQuicPacket) (h : Origin D trace ⟨src, D.brokerAddr, p⟩) :
    (∃ i attempt, src = (D.publisher i).addr ∧ p ∈ (D.publisher i).packets ∧
        Event.transmitted i attempt p ∈ trace) ∨
      (∃ k, src = (D.subscriber k).addr ∧ p = (D.subscriber k).subReq) ∨
      (∃ k pos q, src = (D.subscriber k).addr ∧ p = ackFor (D.subscriber k).connId q ∧
        Event.displayed k pos q ∈ trace) := by
  generalize hg : (⟨src, D.brokerAddr, p⟩ : Datagram SockaddrIn MiniQuicPacket) = g at h
  cases h with
  | published i attempt pkt own sent =>
    cases hg
    exact .inl ⟨i, attempt, rfl, own, sent⟩
  | requested k =>
    cases hg
    exact .inr (.inl ⟨k, rfl, rfl⟩)
  | confirmed k pos q shown =>
    cases hg
    exact .inr (.inr ⟨k, pos, q, rfl, rfl, shown⟩)
  | answered pos src' p' subs sends handled issued outside =>
    simp only [Datagram.mk.injEq] at hg
    exact absurd hg.2.1.symm outside
  | forwarded k q copy =>
    simp only [Datagram.mk.injEq] at hg
    exact absurd hg.2.1.symm (D.subscriber_elsewhere k)

/-- What reaches a client: answers of the broker and forwarded copies. -/
theorem origin_to_client (D : Deployment ι κ) (trace : List (Event ι κ))
    (g : Datagram SockaddrIn MiniQuicPacket) (h : Origin D trace g) (client : g.dst ≠ D.brokerAddr) :
    g.src = D.brokerAddr ∧
      ((∃ pos p subs sends, Event.handled pos g.dst p subs sends ∈ trace ∧
          sendAck g.dst p ∈ sends ∧ g.body = ackFor p.connId p) ∨
        (∃ k, g.dst = (D.subscriber k).addr ∧ Copied trace (D.subscriber k).connId g.body)) := by
  cases h with
  | published i attempt pkt own sent => exact absurd rfl client
  | requested k => exact absurd rfl client
  | confirmed k pos q shown => exact absurd rfl client
  | answered pos src p subs sends handled issued outside =>
    exact ⟨rfl, .inl ⟨pos, p, subs, sends, handled, issued, rfl⟩⟩
  | forwarded k q copy => exact ⟨rfl, .inr ⟨k, rfl, copy⟩⟩

/-- What an event presupposes about the events before it. -/
def Justification (D : Deployment ι κ) (before : List (Event ι κ)) : Event ι κ → Prop
  | .transmitted i _ pkt => pkt ∈ (D.publisher i).packets
  | .reported i pkt incoming ok => ok = true →
      pkt ∈ (D.publisher i).packets ∧ ∃ g, Origin D before g ∧ g.dst = (D.publisher i).addr ∧
        incoming = some g.body ∧ waitForAck pkt.connId pkt.streamId pkt.pktNum incoming = true
  | .handled _ src pkt subs sends => Origin D before ⟨src, D.brokerAddr, pkt⟩ ∧
      (∀ e ∈ subs, Entry D before e) ∧ ∃ fwdMs, sends = (handlePacket subs src pkt fwdMs).2
  | .cleared e => Entry D before e ∧ e.hasOutstanding = true ∧ ∃ pos src ack subs sends,
      Event.handled pos src ack subs sends ∈ before ∧ ack.type = pktAck ∧ ackMatches ack e = true
  | .resent _ => True
  | .displayed k _ q => q.connId = (D.subscriber k).connId ∧ q.type = pktData ∧
      ∃ src, Origin D before ⟨src, (D.subscriber k).addr, q⟩

/-- A justification does not depend on which later point it is asked at. -/
theorem Justification.mono {D : Deployment ι κ} {before more : List (Event ι κ)} {e : Event ι κ}
    (h : Justification D before e) : Justification D (before ++ more) e := by
  cases e with
  | transmitted i attempt pkt => exact h
  | reported i pkt incoming ok =>
    intro success
    obtain ⟨own, g, origin, rest⟩ := h success
    exact ⟨own, g, origin.mono, rest⟩
  | handled pos src pkt subs sends =>
    exact ⟨h.1.mono, fun e he => (h.2.1 e he).mono, h.2.2⟩
  | cleared entry =>
    obtain ⟨known, pending, pos, src, ack, subs, sends, mem, rest⟩ := h
    exact ⟨known.mono, pending, pos, src, ack, subs, sends, List.mem_append_left _ mem, rest⟩
  | resent x => trivial
  | displayed k pos q =>
    obtain ⟨conn, data, src, origin⟩ := h
    exact ⟨conn, data, src, origin.mono⟩

/-- Everything that happened is justified by what happened before it. -/
theorem justified_at (D : Deployment ι κ) (trace : List (Event ι κ))
    (h : Justified (Justification D) trace) (e : Event ι κ) (mem : e ∈ trace) :
    Justification D trace e :=
  h.of_mem (fun _ _ _ j => j.mono) e mem

/-- A DATA packet that the broker handled is a packet of some publisher. -/
theorem handled_data (D : Deployment ι κ) (trace : List (Event ι κ))
    (h : Justified (Justification D) trace) (pos : Nat) (src : SockaddrIn) (d : MiniQuicPacket)
    (subs : List Subscriber) (sends : List Send) (handled : .handled pos src d subs sends ∈ trace)
    (data : d.type = pktData) :
    ∃ i attempt, d ∈ (D.publisher i).packets ∧ Event.transmitted i attempt d ∈ trace := by
  obtain ⟨origin, -⟩ := justified_at D trace h _ handled
  rcases origin_to_broker D trace _ d origin with
    ⟨i, attempt, -, own, sent⟩ | ⟨k, -, rfl⟩ | ⟨k, pos', q, -, rfl, -⟩
  · exact ⟨i, attempt, own, sent⟩
  · exact absurd data (by simp [Listener.subReq])
  · exact absurd data (by simp [ackFor, Ne.symm pktData_ne_pktAck])

/-- A displayed packet is the copy of a DATA packet handled before. -/
theorem displayed_copied (D : Deployment ι κ) (trace : List (Event ι κ))
    (h : Justified (Justification D) trace) (k : κ) (pos : Nat) (q : MiniQuicPacket)
    (shown : .displayed k pos q ∈ trace) :
    q.connId = (D.subscriber k).connId ∧ Copied trace q.connId q := by
  obtain ⟨conn, data, src, origin⟩ := justified_at D trace h _ shown
  rcases (origin_to_client D trace _ origin (D.subscriber_elsewhere k)).2 with
    ⟨pos', p, subs, sends, -, -, isAck⟩ | ⟨k', -, copy⟩
  · rw [show q = ackFor p.connId p from isAck] at data
    exact absurd data (by simp [ackFor, Ne.symm pktData_ne_pktAck])
  · refine ⟨conn, ?_⟩
    obtain ⟨pos', src', d, subs, sends, mem, isData, same⟩ := copy
    change q = fwdPkt d (D.subscriber k').connId at same
    refine ⟨pos', src', d, subs, sends, mem, isData, ?_⟩
    rw [same]
    rfl

/-- All of it holds in every reachable state. -/
structure Genuine (D : Deployment ι κ) (trace : List (Event ι κ)) (s : State ι κ) : Prop where
  table : TableInv s.broker.subs
  net : ∀ g ∈ s.net, Origin D trace g
  entries : ∀ e ∈ s.broker.subs, Entry D trace e
  justified : Justified (Justification D) trace

theorem justified_append (D : Deployment ι κ) (trace events : List (Event ι κ))
    (old : Justified (Justification D) trace) (new : ∀ e ∈ events, Justification D trace e) :
    Justified (Justification D) (trace ++ events) :=
  old.append_all (fun _ _ _ h => h.mono) new

/-- The effect of a received packet on origins and entries, `T` being a trace
that records its handling. -/
theorem handled_genuine (D : Deployment ι κ) (T : List (Event ι κ)) (subs : List Subscriber)
    (src : SockaddrIn) (p : MiniQuicPacket) (fwdMs : Nat → UInt64) (pos : Nat)
    (table : TableInv subs) (entries : ∀ e ∈ subs, Entry D T e)
    (origin : Origin D T ⟨src, D.brokerAddr, p⟩)
    (recorded : Event.handled pos src p subs (handlePacket subs src p fwdMs).2 ∈ T) :
    (∀ t ∈ (handlePacket subs src p fwdMs).1, Entry D T t) ∧
      ∀ x ∈ (handlePacket subs src p fwdMs).2, Origin D T ⟨D.brokerAddr, x.dest, x.pkt⟩ := by
  have arrival := origin_to_broker D T src p origin
  have copied : ∀ connId, p.type = pktData → Copied T connId (fwdPkt p connId) :=
    fun connId data => ⟨pos, src, p, subs, _, recorded, data, rfl⟩
  constructor
  · intro t ht
    rcases mem_handlePacket_subs subs src p fwdMs table t ht with
      ⟨e, he, conn, addr, held⟩ | ⟨registers, rfl⟩
    · obtain ⟨k, hconn, haddr, hheld⟩ := entries e he
      refine ⟨k, conn.trans hconn, addr.trans haddr, ?_⟩
      intro pending
      rcases held pending with ⟨-, before, same⟩ | ⟨data, same⟩
      · rw [conn, same]
        exact hheld before
      · rw [conn, same]
        exact copied e.connId data
    · obtain ⟨hand, control, -⟩ := registers
      rcases arrival with ⟨i, attempt, -, own, -⟩ | ⟨k, rfl, rfl⟩ | ⟨k, pos', q, -, rfl, -⟩
      · exact absurd control (packets_stream _ _ own)
      · refine ⟨k, rfl, rfl, ?_⟩
        intro pending
        cases pending
      · exact absurd hand (by simp [ackFor, Ne.symm pktHandshake_ne_pktAck])
  · intro x hx
    have outside : src ≠ D.brokerAddr := by
      rcases arrival with ⟨i, -, rfl, -⟩ | ⟨k, rfl, -⟩ | ⟨k, -, -, rfl, -⟩
      · exact D.publisher_elsewhere i
      · exact D.subscriber_elsewhere k
      · exact D.subscriber_elsewhere k
    rcases mem_handlePacket_sends subs src p fwdMs x hx with rfl | ⟨data, e, he, rfl⟩
    · exact .answered pos src p subs _ recorded hx outside
    · obtain ⟨k, hconn, haddr, -⟩ := entries e he
      have copy := copied (D.subscriber k).connId data
      rw [hconn, haddr]
      exact .forwarded k _ copy

/-- The timer retransmits what the entries hold. -/
theorem timer_genuine (D : Deployment ι κ) (T : List (Event ι κ)) (subs : List Subscriber)
    (now : UInt64) (entries : ∀ e ∈ subs, Entry D T e) :
    (∀ t ∈ (retransmissionTimer now subs).1, Entry D T t) ∧
      ∀ x ∈ (retransmissionTimer now subs).2, Origin D T ⟨D.brokerAddr, x.dest, x.pkt⟩ := by
  constructor
  · intro t ht
    obtain ⟨e, he, conn, addr, held, pending⟩ := mem_timer_subs now subs t ht
    obtain ⟨k, hconn, haddr, hheld⟩ := entries e he
    refine ⟨k, conn.trans hconn, addr.trans haddr, ?_⟩
    intro now_pending
    rw [conn, held]
    exact hheld (pending now_pending)
  · intro x hx
    obtain ⟨e, he, hxe⟩ := List.mem_flatMap.mp hx
    obtain ⟨pending, rfl⟩ := mem_timerStep now e x hxe
    obtain ⟨k, hconn, haddr, hheld⟩ := entries e he
    have copy := hheld pending
    rw [hconn] at copy
    rw [haddr]
    exact .forwarded k _ copy

/-- One pass of the broker. -/
theorem genuine_pass (D : Deployment ι κ) (trace : List (Event ι κ)) (s : State ι κ)
    (inv : Genuine D trace s) (pass : Pass) (pos : Nat)
    (genuine : ∀ src packet, receivedPacket s.broker pass = some (src, packet) →
      s.net[pos]? = some ⟨src, D.brokerAddr, packet⟩) :
    Genuine D (trace ++ passEvents s.broker pass pos) (brokerPass D s pass pos).1 := by
  obtain ⟨arrivalOk, justified⟩ :
      ((∀ t ∈ (handled s.broker pass).1, Entry D (trace ++ passEvents s.broker pass pos) t) ∧
        ∀ x ∈ (handled s.broker pass).2,
          Origin D (trace ++ passEvents s.broker pass pos) ⟨D.brokerAddr, x.dest, x.pkt⟩) ∧
      Justified (Justification D) (trace ++ passEvents s.broker pass pos) := by
    cases received : receivedPacket s.broker pass with
    | none =>
      have idle : handled s.broker pass = (s.broker.subs, []) := by simp [handled, received]
      rw [idle]
      refine ⟨⟨fun t ht => (inv.entries t ht).mono, fun x hx => by cases hx⟩, ?_⟩
      apply justified_append D _ _ inv.justified
      intro e he
      simp only [passEvents, received, List.nil_append, List.mem_map] at he
      obtain ⟨x, -, rfl⟩ := he
      trivial
    | some arrival =>
      obtain ⟨src, p⟩ := arrival
      have origin := inv.net _ (List.mem_of_getElem? (genuine src p received))
      have acts : handled s.broker pass = handlePacket s.broker.subs src p pass.fwdMs := by
        simp [handled, received]
      have events : passEvents (ι := ι) (κ := κ) s.broker pass pos =
          [.handled pos src p s.broker.subs (handlePacket s.broker.subs src p pass.fwdMs).2] ++
            ((clearedEntry s.broker.subs p).toList.map .cleared ++
              (retransmissionTimer pass.now (handled s.broker pass).1).2.map .resent) := by
        simp [passEvents, received, acts]
      constructor
      · rw [acts]
        apply handled_genuine D _ _ src p pass.fwdMs pos inv.table
          (fun e he => (inv.entries e he).mono) origin.mono
        rw [events]
        simp
      · have first : Justified (Justification D) (trace ++ [.handled pos src p s.broker.subs
            (handlePacket s.broker.subs src p pass.fwdMs).2]) :=
          inv.justified.snoc ⟨origin, inv.entries, pass.fwdMs, rfl⟩
        rw [events, ← List.append_assoc]
        apply justified_append D _ _ first
        intro e he
        rcases List.mem_append.mp he with cleared | resent
        · obtain ⟨entry, found, rfl⟩ := List.mem_map.mp cleared
          unfold clearedEntry at found
          split at found
          · next isAck =>
            have hit := Option.mem_toList.mp found
            have known := inv.entries entry (List.mem_of_find?_eq_some hit)
            have matched := List.find?_some hit
            refine ⟨known.mono, ?_, pos, src, p, s.broker.subs, _,
              List.mem_append_right _ (List.mem_singleton_self _), isAck, matched⟩
            simp only [ackMatches, Bool.and_eq_true] at matched
            exact matched.1.1.2
          · cases found
        · obtain ⟨x, -, rfl⟩ := List.mem_map.mp resent
          trivial
  have timerOk := timer_genuine D _ _ pass.now arrivalOk.1
  refine ⟨tableInv_broker s.broker pass inv.table, ?_, ?_, justified⟩
  · intro g hg
    rw [brokerPass_net, broker_sends] at hg
    rcases List.mem_append.mp hg with old | new
    · exact (inv.net g old).mono
    · obtain ⟨x, hx, rfl⟩ := List.mem_map.mp new
      rcases List.mem_append.mp hx with direct | resent
      · exact arrivalOk.2 x direct
      · exact timerOk.2 x resent
  · exact timerOk.1

/-- A client sends one more datagram and leaves the broker alone. -/
theorem genuine_send (D : Deployment ι κ) (trace events : List (Event ι κ)) (s next : State ι κ)
    (inv : Genuine D trace s) (g : Datagram SockaddrIn MiniQuicPacket)
    (broker : next.broker = s.broker) (net : next.net = s.net ++ [g])
    (origin : Origin D (trace ++ events) g) (new : ∀ e ∈ events, Justification D trace e) :
    Genuine D (trace ++ events) next := by
  refine ⟨by rw [broker]; exact inv.table, ?_, ?_, justified_append D _ _ inv.justified new⟩
  · intro x hx
    rw [net] at hx
    rcases List.mem_append.mp hx with old | added
    · exact (inv.net x old).mono
    · rw [List.mem_singleton.mp added]
      exact origin
  · intro e he
    rw [broker] at he
    exact (inv.entries e he).mono

/-- A client moves without sending. -/
theorem genuine_local (D : Deployment ι κ) (trace events : List (Event ι κ)) (s next : State ι κ)
    (inv : Genuine D trace s) (broker : next.broker = s.broker) (net : next.net = s.net)
    (new : ∀ e ∈ events, Justification D trace e) : Genuine D (trace ++ events) next := by
  refine ⟨by rw [broker]; exact inv.table, ?_, ?_, justified_append D _ _ inv.justified new⟩
  · intro x hx
    rw [net] at hx
    exact (inv.net x hx).mono
  · intro e he
    rw [broker] at he
    exact (inv.entries e he).mono

variable [DecidableEq ι] [DecidableEq κ]

theorem genuine_step (D : Deployment ι κ) (trace : List (Event ι κ)) (s next : State ι κ)
    (events : List (Event ι κ)) (inv : Genuine D trace s) (moves : Moves D s next events) :
    Genuine D (trace ++ events) next := by
  cases moves with
  | passed pass pos genuine => exact genuine_pass D trace s inv pass pos genuine
  | transmitted i k attempt pkt ready own =>
    have mine := List.mem_of_getElem? own
    refine genuine_send D trace _ s _ inv _ rfl rfl ?_ ?_
    · exact .published i attempt pkt mine (by simp)
    · intro e he
      rw [List.mem_singleton.mp he]
      exact mine
  | reported i k attempt pkt g waits own sent addressed acked =>
    refine genuine_local D trace _ s _ inv rfl rfl ?_
    intro e he
    rw [List.mem_singleton.mp he]
    intro _
    exact ⟨List.mem_of_getElem? own, g, inv.net g sent, addressed, rfl, acked⟩
  | retried i k attempt waits =>
    refine genuine_local D trace _ s _ inv rfl rfl ?_
    intro e he
    cases he
  | failed i pkt incoming =>
    refine genuine_local D trace _ s _ inv rfl rfl ?_
    intro e he
    rw [List.mem_singleton.mp he]
    intro success
    cases success
  | started k =>
    refine genuine_send D trace _ s _ inv _ rfl rfl ?_ ?_
    · exact .requested k
    · intro e he
      cases he
  | ignored =>
    refine genuine_local D trace _ s _ inv rfl rfl ?_
    intro e he
    cases he
  | displayed k pos g found addressed mine data =>
    refine genuine_send D trace _ s _ inv _ rfl rfl ?_ ?_
    · exact .confirmed k pos g.body (by simp)
    · intro e he
      rw [List.mem_singleton.mp he]
      refine ⟨mine, data, g.src, ?_⟩
      rw [← addressed]
      exact inv.net g (List.mem_of_getElem? found)

theorem genuine_run (D : Deployment ι κ) (final : State ι κ) (trace : List (Event ι κ))
    (run : Run D final trace) : Genuine D trace final := by
  apply run_invariant D (Genuine D) _ (fun trace s next events => genuine_step D trace s next events)
    final trace run
  intro junk
  refine ⟨⟨?_, ?_, ?_⟩, ?_, ?_, justified_nil _⟩
  · exact Nat.zero_le _
  · exact List.nodup_nil
  · intro e he
    cases he
  · intro g hg
    cases hg
  · intro e he
    cases he

end SportsPubSub.Quic.Provenance
