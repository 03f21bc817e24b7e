import SportsPubSub.Quic.Provenance

/-!
# The order of the news on a subscriber's screen

No component filters duplicates or restores order: the broker forwards every
DATA packet it reads and the subscriber displays every copy it reads. What is
displayed is still genuine, and it appears in publication order when both
channels keep the order of sending. With `gap` 0 the channels may repeat a
datagram and both retransmission loops may run. With `gap` 1 a packet may be
sent and lost any number of times, but only one of its transmissions is read.
-/
namespace SportsPubSub.Quic.DisplayOrder
open Lib.Posix Lib.Reactive Lib.DatagramNet Packet Broker Entries Client Composed Provenance

variable {ι κ : Type}

def number (p : MiniQuicPacket) : Nat := p.pktNum.toNat

/-- The DATA packets the broker handles, each with its position in the network. -/
def handledData (trace : List (Event ι κ)) : List (Nat × MiniQuicPacket) :=
  trace.filterMap fun
    | .handled pos _ p _ _ => if p.type = pktData then some (pos, p) else none
    | _ => none

def handledNumbers (trace : List (Event ι κ)) : List Nat :=
  (handledData trace).map fun r => number r.2

/-- The broker handles no DATA number twice and sends no copy again. -/
structure Single (trace : List (Event ι κ)) : Prop where
  once : (handledNumbers trace).Nodup
  quiet : ∀ x, Event.resent x ∉ trace

/-- The DATA channel from the publishers to the broker. -/
def fromPublisher (D : Deployment ι κ) (g : Datagram SockaddrIn MiniQuicPacket) : Bool :=
  g.src != D.brokerAddr && g.body.type == pktData

/-- The DATA channel from the broker to the subscriber with a conn_id. -/
def toListener (D : Deployment ι κ) (connId : UInt32)
    (g : Datagram SockaddrIn MiniQuicPacket) : Bool :=
  g.src == D.brokerAddr && (g.body.type == pktData && g.body.connId == connId)

theorem handledData_append (a b : List (Event ι κ)) :
    handledData (a ++ b) = handledData a ++ handledData b := List.filterMap_append

theorem handledNumbers_append (a b : List (Event ι κ)) :
    handledNumbers (a ++ b) = handledNumbers a ++ handledNumbers b := by
  simp [handledNumbers, handledData_append]

theorem mem_handledData (trace : List (Event ι κ)) (r : Nat × MiniQuicPacket)
    (h : r ∈ handledData trace) :
    r.2.type = pktData ∧ ∃ src subs sends, Event.handled r.1 src r.2 subs sends ∈ trace := by
  unfold handledData at h
  obtain ⟨e, he, found⟩ := List.mem_filterMap.mp h
  split at found
  · next pos src p subs sends =>
    split at found
    · next data =>
      cases found
      exact ⟨data, src, subs, sends, he⟩
    · cases found
  · cases found

/-- The DATA packet of a pass, if it reads one. -/
theorem handledData_passEvents (b : BrokerState) (pass : Pass) (pos : Nat) :
    handledData (passEvents (ι := ι) (κ := κ) b pass pos) =
      match receivedPacket b pass with
      | none => []
      | some (_, p) => if p.type = pktData then [(pos, p)] else [] := by
  have quiet : ∀ xs : List Subscriber, handledData (xs.map (Event.cleared (ι := ι) (κ := κ))) = [] := by
    intro xs
    simp [handledData]
  have silent : ∀ xs : List Send, handledData (xs.map (Event.resent (ι := ι) (κ := κ))) = [] := by
    intro xs
    simp [handledData]
  unfold passEvents
  rw [handledData_append, silent, List.append_nil]
  cases received : receivedPacket b pass with
  | none => rfl
  | some arrival =>
    obtain ⟨src, p⟩ := arrival
    dsimp only
    rw [← List.singleton_append, handledData_append, quiet, List.append_nil]
    by_cases data : p.type = pktData <;> simp [handledData, data]

/-- Where an event's datagram lies in the network. -/
def Located (D : Deployment ι κ) (net : Net SockaddrIn MiniQuicPacket) : Event ι κ → Prop
  | .handled pos src p _ _ => net[pos]? = some ⟨src, D.brokerAddr, p⟩
  | .displayed k pos q => ∃ src, net[pos]? = some ⟨src, (D.subscriber k).addr, q⟩
  | _ => True

theorem Located.mono {D : Deployment ι κ} {net : Net SockaddrIn MiniQuicPacket} {e : Event ι κ}
    (h : Located D net e) (more : Net SockaddrIn MiniQuicPacket) : Located D (net ++ more) e := by
  cases e with
  | handled pos src p subs sends => exact getElem?_grows net more pos _ h
  | displayed k pos q =>
    obtain ⟨src, found⟩ := h
    exact ⟨src, getElem?_grows net more pos _ found⟩
  | transmitted i attempt pkt => trivial
  | reported i pkt incoming ok => trivial
  | cleared entry => trivial
  | resent x => trivial

/-- The broker's sends on one channel. -/
theorem labels_posted (D : Deployment ι κ) (connId : UInt32) (sends : List Send) :
    labels (toListener D connId) number (posted D sends) =
      (dataTo connId sends).map fun x => number x.pkt := by
  unfold labels posted dataTo
  rw [List.filter_map, List.map_map]
  congr 1
  apply List.filter_congr
  intro x _
  simp [toListener, Bool.beq_eq_decide_eq]

/-- A received packet puts at most its own copy on a subscriber's channel. -/
theorem handlePacket_labels (connId : UInt32) (subs : List Subscriber) (src : SockaddrIn)
    (p : MiniQuicPacket) (fwdMs : Nat → UInt64) (inv : TableInv subs) :
    dataTo connId (handlePacket subs src p fwdMs).2 = [] ∨
      (p.type = pktData ∧
        (dataTo connId (handlePacket subs src p fwdMs).2).map (fun x => number x.pkt) =
          [number p]) := by
  by_cases registered : ∃ e ∈ subs, e.connId = connId
  · obtain ⟨e, he, rfl⟩ := registered
    rw [handlePacket_dataTo subs src p fwdMs inv 0 e he]
    unfold entryHandle
    split
    · next data => exact .inr ⟨data, rfl⟩
    · split
      · exact .inl rfl
      · exact .inl rfl
  · left
    unfold dataTo
    rw [List.filter_eq_nil_iff]
    intro x hx
    rcases mem_handlePacket_sends subs src p fwdMs x hx with rfl | ⟨-, e, he, rfl⟩
    · simp [sendAck, ackFor, Ne.symm pktData_ne_pktAck]
    · have other : e.connId ≠ connId := fun same => registered ⟨e, he, same⟩
      simp [fwdPkt, other]

/-- The packet read in a pass: its copy goes out at most once, and every pending
entry holds either that copy or what it held before. -/
theorem handled_summary (b : BrokerState) (pass : Pass) (pos : Nat) (connId : UInt32)
    (inv : TableInv b.subs) :
    let new := handledNumbers (passEvents (ι := ι) (κ := κ) b pass pos)
    ((dataTo connId (handled b pass).2).map (fun x => number x.pkt) = [] ∨
        (dataTo connId (handled b pass).2).map (fun x => number x.pkt) = new) ∧
      ∀ t ∈ (handled b pass).1, t.hasOutstanding = true →
        (new = [] ∧ ∃ e ∈ b.subs, e.hasOutstanding = true ∧ t.outstanding = e.outstanding) ∨
          new = [number t.outstanding] := by
  intro new
  have hnew : new = match receivedPacket b pass with
      | none => []
      | some (_, p) => if p.type = pktData then [number p] else [] := by
    simp only [new, handledNumbers, handledData_passEvents]
    split
    · rfl
    · split <;> rfl
  cases received : receivedPacket b pass with
  | none =>
    have idle : handled b pass = (b.subs, []) := by simp [handled, received]
    rw [received] at hnew
    rw [idle]
    exact ⟨.inl rfl, fun t ht pending => .inl ⟨hnew, t, ht, pending, rfl⟩⟩
  | some arrival =>
    obtain ⟨src, p⟩ := arrival
    have acts : handled b pass = handlePacket b.subs src p pass.fwdMs := by
      simp [handled, received]
    rw [received] at hnew
    dsimp only at hnew
    rw [acts]
    constructor
    · rcases handlePacket_labels connId b.subs src p pass.fwdMs inv with silent | ⟨data, sent⟩
      · left
        rw [silent, List.map_nil]
      · right
        rw [hnew, sent, if_pos data]
    · intro t ht pending
      rcases mem_handlePacket_subs b.subs src p pass.fwdMs inv t ht with
        ⟨e, he, -, -, held⟩ | ⟨-, rfl⟩
      · rcases held pending with ⟨other, before, same⟩ | ⟨data, same⟩
        · exact .inl ⟨by rw [hnew, if_neg other], e, he, before, same⟩
        · right
          rw [hnew, if_pos data, same]
          rfl
      · cases pending

/-- The publisher's DATA numbers in the network against its next transmission. -/
def Ahead (sent : List Nat) : PubState → Prop
  | .transmit k _ => ∀ n ∈ sent, n ≤ k + 1
  | .waiting k _ => ∀ n ∈ sent, n ≤ k + 1
  | .finished => True
  | .aborted => True

/-- The broker reads DATA in the order of sending; strict order takes more. -/
structure Calm (gap : Nat) (trace : List (Event ι κ)) : Prop where
  inOrder : Spaced 0 ((handledData trace).map Prod.fst)
  single : gap = 0 ∨ Single trace

theorem Single.before {trace more : List (Event ι κ)} (h : Single (trace ++ more)) :
    Single trace := by
  refine ⟨?_, fun x mem => h.quiet x (List.mem_append_left _ mem)⟩
  have once := h.once
  rw [handledNumbers_append] at once
  exact (List.nodup_append.mp once).1

theorem Calm.before {gap : Nat} {trace more : List (Event ι κ)} (h : Calm gap (trace ++ more)) :
    Calm gap trace := by
  refine ⟨?_, h.single.imp_right Single.before⟩
  have spaced := h.inOrder
  rw [handledData_append, List.map_append] at spaced
  exact spaced.left

/-- Along a calm run every stage carries the DATA numbers in order: published,
handled, held as outstanding, forwarded. -/
structure InOrder (D : Deployment Unit κ) (connId : UInt32) (gap : Nat)
    (trace : List (Event Unit κ)) (s : State Unit κ) : Prop where
  ahead : Ahead (labels (fromPublisher D) number s.net) (s.pubs ())
  published : Spaced 0 (labels (fromPublisher D) number s.net)
  held : ∀ e ∈ s.broker.subs, e.hasOutstanding = true →
    (handledNumbers trace).getLast? = some (number e.outstanding)
  forwarded : ∀ n ∈ labels (toListener D connId) number s.net, n ∈ handledNumbers trace
  delivered : Spaced gap (labels (toListener D connId) number s.net)

/-- What the broker handles is in order because the publisher's channel is. -/
theorem handledNumbers_spaced (D : Deployment ι κ) (gap : Nat) (small : gap ≤ 1)
    (trace : List (Event ι κ)) (net : Net SockaddrIn MiniQuicPacket)
    (located : ∀ e ∈ trace, Located D net e) (genuine : ∀ g ∈ net, Origin D trace g)
    (published : Spaced 0 (labels (fromPublisher D) number net)) (calm : Calm gap trace) :
    Spaced gap (handledNumbers trace) := by
  have inOrder : Spaced 0 (handledNumbers trace) := by
    apply spaced_reads 0 (fromPublisher D) number net published _ _ calm.inOrder
    intro r hr
    obtain ⟨data, src, subs, sends, mem⟩ := mem_handledData trace r hr
    have found : net[r.1]? = some ⟨src, D.brokerAddr, r.2⟩ := located _ mem
    refine ⟨_, found, ?_, rfl⟩
    have outside : src ≠ D.brokerAddr := by
      rcases origin_to_broker D trace src r.2 (genuine _ (List.mem_of_getElem? found)) with
        ⟨i, -, rfl, -⟩ | ⟨k, rfl, -⟩ | ⟨k, -, -, rfl, -⟩
      · exact D.publisher_elsewhere i
      · exact D.subscriber_elsewhere k
      · exact D.subscriber_elsewhere k
    simp [fromPublisher, outside, data]
  rcases calm.single with none | single
  · rw [none]
    exact inOrder
  · have strict := inOrder.strict single.once
    unfold Spaced at strict ⊢
    exact strict.imp fun lt => by omega

/-- Numbers of one pass behind those of the passes before: at most one forward,
then only repetitions of the last number, if there are any. -/
theorem spaced_pass (gap : Nat) (old first again handledBefore new : List Nat)
    (delivered : Spaced gap old) (known : ∀ n ∈ old, n ∈ handledBefore)
    (sound : Spaced gap (handledBefore ++ new)) (atMostNew : first = [] ∨ first = new)
    (repeats : ∀ n ∈ again, gap = 0 ∧ (handledBefore ++ new).getLast? = some n) :
    Spaced gap (old ++ (first ++ again)) := by
  have across := (List.pairwise_append.mp sound).2.2
  have hfirst : ∀ n ∈ first, n ∈ new := by
    intro n hn
    rcases atMostNew with rfl | rfl
    · cases hn
    · exact hn
  have front : Spaced gap (old ++ first) := by
    apply delivered.append
    · rcases atMostNew with rfl | rfl
      · exact spaced_nil gap
      · exact (List.pairwise_append.mp sound).2.1
    · intro x hx y hy
      exact across x (known x hx) y (hfirst y hy)
  rw [← List.append_assoc]
  apply front.append
  · apply List.pairwise_of_forall_mem_list
    intro x hx y hy
    obtain ⟨none, lastx⟩ := repeats x hx
    obtain ⟨-, lasty⟩ := repeats y hy
    have same : x = y := Option.some.inj (lastx.symm.trans lasty)
    omega
  · intro x hx y hy
    obtain ⟨none, last⟩ := repeats y hy
    have mem : x ∈ handledBefore ++ new := by
      rcases List.mem_append.mp hx with inOld | inFirst
      · exact List.mem_append_left _ (known x inOld)
      · exact List.mem_append_right _ (hfirst x inFirst)
    have le := sound.le_last last x mem
    omega

/-- The broker adds nothing to the publisher's channel. -/
theorem pass_published (D : Deployment ι κ) (s : State ι κ) (pass : Pass) (pos : Nat) :
    labels (fromPublisher D) number (brokerPass D s pass pos).1.net =
      labels (fromPublisher D) number s.net := by
  rw [brokerPass_net, labels_append, labels_outside _ _ (posted D _), List.append_nil]
  intro g hg
  obtain ⟨x, -, rfl⟩ := List.mem_map.mp hg
  simp [fromPublisher]

theorem inOrder_pass (D : Deployment Unit κ) (connId : UInt32) (gap : Nat)
    (trace : List (Event Unit κ)) (s : State Unit κ) (pass : Pass) (pos : Nat)
    (inv : InOrder D connId gap trace s) (table : TableInv s.broker.subs)
    (sound : Spaced gap (handledNumbers (trace ++ passEvents s.broker pass pos)))
    (single : gap = 0 ∨ Single (trace ++ passEvents s.broker pass pos)) :
    InOrder D connId gap (trace ++ passEvents s.broker pass pos) (brokerPass D s pass pos).1 := by
  obtain ⟨direct, pendings⟩ := handled_summary (ι := Unit) (κ := κ) s.broker pass pos connId table
  rw [handledNumbers_append] at sound
  have afterHandling : ∀ t ∈ (handled s.broker pass).1, t.hasOutstanding = true →
      (handledNumbers (trace ++ passEvents s.broker pass pos)).getLast? =
        some (number t.outstanding) := by
    intro t ht pending
    rw [handledNumbers_append]
    rcases pendings t ht pending with ⟨none, e, he, before, same⟩ | new
    · rw [none, List.append_nil, same]
      exact inv.held e he before
    · rw [new, List.getLast?_concat]
  have repeats : ∀ n ∈ (dataTo connId (retransmissionTimer pass.now (handled s.broker pass).1).2).map
        (fun x => number x.pkt),
      gap = 0 ∧ (handledNumbers (trace ++ passEvents s.broker pass pos)).getLast? = some n := by
    intro n hn
    obtain ⟨x, hx, rfl⟩ := List.mem_map.mp hn
    have resent := List.mem_of_mem_filter hx
    constructor
    · have mem : Event.resent x ∈ trace ++ passEvents s.broker pass pos :=
        List.mem_append_right _ (List.mem_append_right _ (List.mem_map_of_mem resent))
      exact single.resolve_right fun alone => alone.quiet x mem
    · obtain ⟨e, he, hxe⟩ := List.mem_flatMap.mp resent
      obtain ⟨pending, rfl⟩ := mem_timerStep pass.now e x hxe
      exact afterHandling e he pending
  have published := pass_published D s pass pos
  have grown : labels (toListener D connId) number (brokerPass D s pass pos).1.net =
      labels (toListener D connId) number s.net ++
        ((dataTo connId (handled s.broker pass).2).map (fun x => number x.pkt) ++
          (dataTo connId (retransmissionTimer pass.now (handled s.broker pass).1).2).map
            (fun x => number x.pkt)) := by
    rw [brokerPass_net, labels_append, labels_posted, broker_sends, dataTo_append, List.map_append]
  refine ⟨?_, ?_, ?_, ?_, ?_⟩
  · rw [published]
    exact inv.ahead
  · rw [published]
    exact inv.published
  · intro t ht pending
    obtain ⟨e, he, -, -, same, before⟩ := mem_timer_subs pass.now _ t ht
    rw [same]
    exact afterHandling e he (before pending)
  · intro n hn
    rw [grown] at hn
    rw [handledNumbers_append]
    rcases List.mem_append.mp hn with old | new
    · exact List.mem_append_left _ (inv.forwarded n old)
    · rcases List.mem_append.mp new with first | again
      · rcases direct with none | some
        · rw [none] at first
          cases first
        · rw [some] at first
          exact List.mem_append_right _ first
      · have last := (repeats n again).2
        rw [handledNumbers_append] at last
        exact List.mem_of_getLast? last
  · rw [grown]
    rw [handledNumbers_append] at repeats
    exact spaced_pass gap _ _ _ _ _ inv.delivered inv.forwarded sound direct repeats

/-- A client sends a packet that is not DATA. -/
theorem inOrder_quiet (D : Deployment Unit κ) (connId : UInt32) (gap : Nat)
    (trace events : List (Event Unit κ)) (s next : State Unit κ)
    (inv : InOrder D connId gap trace s) (broker : next.broker = s.broker)
    (pubs : Ahead (labels (fromPublisher D) number s.net) (next.pubs ()))
    (more : Net SockaddrIn MiniQuicPacket) (net : next.net = s.net ++ more)
    (noData : ∀ g ∈ more, g.body.type ≠ pktData) (unhandled : handledData events = []) :
    InOrder D connId gap (trace ++ events) next := by
  have same : handledNumbers (trace ++ events) = handledNumbers trace := by
    simp [handledNumbers, handledData_append, unhandled]
  have sent : labels (fromPublisher D) number next.net = labels (fromPublisher D) number s.net := by
    rw [net, labels_append, labels_outside _ _ more, List.append_nil]
    intro g hg
    simp [fromPublisher, noData g hg]
  have received : labels (toListener D connId) number next.net =
      labels (toListener D connId) number s.net := by
    rw [net, labels_append, labels_outside _ _ more, List.append_nil]
    intro g hg
    simp [toListener, noData g hg]
  refine ⟨?_, ?_, ?_, ?_, ?_⟩
  · rw [sent]
    exact pubs
  · rw [sent]
    exact inv.published
  · rw [broker, same]
    exact inv.held
  · rw [received, same]
    exact inv.forwarded
  · rw [received]
    exact inv.delivered

/-- The publisher moves on without sending. -/
theorem inOrder_called (D : Deployment Unit κ) (connId : UInt32) (gap : Nat)
    (trace events : List (Event Unit κ)) (s : State Unit κ) (inv : InOrder D connId gap trace s)
    (i : Unit) (stage : PubState)
    (ahead : Ahead (labels (fromPublisher D) number s.net) stage)
    (unhandled : handledData events = []) :
    InOrder D connId gap (trace ++ events) { s with pubs := Function.update s.pubs i stage } := by
  cases i
  refine inOrder_quiet D connId gap trace events s _ inv rfl ?_ [] (by simp) (by simp) unhandled
  dsimp only
  rw [Function.update_self]
  exact ahead

/-- The publisher sends: handshake and retransmissions included. -/
theorem inOrder_transmitted (D : Deployment Unit κ) (connId : UInt32) (gap : Nat)
    (trace : List (Event Unit κ)) (s : State Unit κ) (inv : InOrder D connId gap trace s)
    (k attempt : Nat) (pkt : MiniQuicPacket) (ready : s.pubs () = .transmit k attempt)
    (own : (D.publisher ()).packets[k]? = some pkt) :
    InOrder D connId gap (trace ++ [.transmitted () attempt pkt])
      { s with
        pubs := Function.update s.pubs () (.waiting k attempt),
        net := s.net ++ [⟨(D.publisher ()).addr, D.brokerAddr, pkt⟩] } := by
  have num : number pkt = k + 1 := (packets_at _ k pkt own).2.1
  have bound := inv.ahead
  rw [ready] at bound
  have elsewhere := D.publisher_elsewhere ()
  by_cases data : pkt.type = pktData
  · have sent : labels (fromPublisher D) number
        (s.net ++ [⟨(D.publisher ()).addr, D.brokerAddr, pkt⟩]) =
          labels (fromPublisher D) number s.net ++ [k + 1] := by
      rw [labels_append]
      simp [labels, fromPublisher, elsewhere, data, num]
    have received : labels (toListener D connId) number
        (s.net ++ [⟨(D.publisher ()).addr, D.brokerAddr, pkt⟩]) =
          labels (toListener D connId) number s.net := by
      rw [labels_append]
      simp [labels, toListener, elsewhere]
    have same : handledNumbers (trace ++ [Event.transmitted () attempt pkt]) =
        handledNumbers trace := by
      simp [handledNumbers, handledData]
    refine ⟨?_, ?_, ?_, ?_, ?_⟩
    · dsimp only
      rw [sent, Function.update_self]
      intro n hn
      rcases List.mem_append.mp hn with old | new
      · exact bound n old
      · rw [List.mem_singleton.mp new]
    · dsimp only
      rw [sent]
      apply inv.published.append (spaced_singleton 0 _)
      intro x hx y hy
      rw [List.mem_singleton.mp hy]
      exact bound x hx
    · rw [same]
      exact inv.held
    · dsimp only
      rw [received, same]
      exact inv.forwarded
    · dsimp only
      rw [received]
      exact inv.delivered
  · refine inOrder_quiet D connId gap trace _ s _ inv rfl ?_
      [⟨(D.publisher ()).addr, D.brokerAddr, pkt⟩] rfl ?_ ?_
    · dsimp only
      rw [Function.update_self]
      exact bound
    · intro g hg
      rw [List.mem_singleton.mp hg]
      exact data
    · simp [handledData]

variable [DecidableEq ι] [DecidableEq κ]

/-- Events keep pointing at their datagrams. -/
theorem located_step (D : Deployment ι κ) (trace : List (Event ι κ)) (s next : State ι κ)
    (events : List (Event ι κ)) (inv : ∀ e ∈ trace, Located D s.net e)
    (moves : Moves D s next events) : ∀ e ∈ trace ++ events, Located D next.net e := by
  obtain ⟨more, grown⟩ := moves_net D s next events moves
  have new : ∀ e ∈ events, Located D s.net e := by
    intro e he
    cases moves with
    | passed pass pos genuine =>
      rcases mem_passEvents s.broker pass pos e he with
        ⟨src, p, received, rfl⟩ | ⟨entry, rfl⟩ | ⟨x, -, rfl⟩
      · exact genuine src p received
      · trivial
      · trivial
    | transmitted i k attempt pkt ready own =>
      rw [List.mem_singleton.mp he]
      trivial
    | reported i k attempt pkt g waits own sent addressed acked =>
      rw [List.mem_singleton.mp he]
      trivial
    | retried i k attempt waits => cases he
    | failed i pkt incoming =>
      rw [List.mem_singleton.mp he]
      trivial
    | started k => cases he
    | ignored => cases he
    | displayed k pos g found addressed mine data =>
      rw [List.mem_singleton.mp he]
      refine ⟨g.src, ?_⟩
      rw [← addressed]
      exact found
  intro e he
  rw [grown]
  rcases List.mem_append.mp he with old | recent
  · exact (inv e old).mono more
  · exact (new e recent).mono more

/-- Calm runs are in order at every stage. -/
theorem inOrder_step (D : Deployment Unit κ) (connId : UInt32) (gap : Nat) (small : gap ≤ 1)
    (trace : List (Event Unit κ)) (s next : State Unit κ) (events : List (Event Unit κ))
    (genuine : Genuine D trace s) (genuineNext : Genuine D (trace ++ events) next)
    (located : ∀ e ∈ trace ++ events, Located D next.net e) (calm : Calm gap (trace ++ events))
    (inv : InOrder D connId gap trace s) (moves : Moves D s next events) :
    InOrder D connId gap (trace ++ events) next := by
  cases moves with
  | passed pass pos arrives =>
    apply inOrder_pass D connId gap trace s pass pos inv genuine.table _ calm.single
    apply handledNumbers_spaced D gap small _ _ located genuineNext.net _ calm
    rw [pass_published]
    exact inv.published
  | transmitted i k attempt pkt ready own =>
    cases i
    exact inOrder_transmitted D connId gap trace s inv k attempt pkt ready own
  | reported i k attempt pkt g waits own sent addressed acked =>
    have ahead := inv.ahead
    rw [waits] at ahead
    apply inOrder_called D connId gap trace _ s inv i _ _ rfl
    unfold Publisher.call
    split
    · intro n hn
      have le := ahead n hn
      omega
    · trivial
  | retried i k attempt waits =>
    have ahead := inv.ahead
    rw [waits] at ahead
    exact inOrder_called D connId gap trace _ s inv i _ ahead rfl
  | failed i pkt incoming => exact inOrder_called D connId gap trace _ s inv i _ trivial rfl
  | started k =>
    refine inOrder_quiet D connId gap trace _ s _ inv rfl inv.ahead
      [⟨(D.subscriber k).addr, D.brokerAddr, (D.subscriber k).subReq⟩] rfl ?_ rfl
    intro g hg
    rw [List.mem_singleton.mp hg]
    simp [Listener.subReq]
  | ignored => simpa using inv
  | displayed k pos g found addressed mine data =>
    refine inOrder_quiet D connId gap trace _ s _ inv rfl inv.ahead
      [⟨(D.subscriber k).addr, D.brokerAddr, ackFor (D.subscriber k).connId g.body⟩] rfl ?_ rfl
    intro x hx
    rw [List.mem_singleton.mp hx]
    simp [ackFor, Ne.symm pktData_ne_pktAck]

theorem inOrder_run (D : Deployment Unit κ) (connId : UInt32) (gap : Nat) (small : gap ≤ 1)
    (final : State Unit κ) (trace : List (Event Unit κ)) (run : Run D final trace) :
    Genuine D trace final ∧ (∀ e ∈ trace, Located D final.net e) ∧
      (Calm gap trace → InOrder D connId gap trace final) := by
  apply run_invariant D (fun trace s => Genuine D trace s ∧ (∀ e ∈ trace, Located D s.net e) ∧
    (Calm gap trace → InOrder D connId gap trace s)) _ _ final trace run
  · intro junk
    refine ⟨genuine_run D _ [] ⟨junk, [], rfl⟩, fun e he => (by cases he), fun _ => ?_⟩
    refine ⟨?_, spaced_nil 0, ?_, ?_, spaced_nil gap⟩
    · simp only [State.initial, Publisher.call]
      split
      · intro n hn
        cases hn
      · trivial
    · intro e he
      cases he
    · intro n hn
      cases hn
  · intro trace s next events ⟨genuine, located, ordered⟩ moves
    have genuineNext := genuine_step D trace s next events genuine moves
    have locatedNext := located_step D trace s next events located moves
    exact ⟨genuineNext, locatedNext, fun calm => inOrder_step D connId gap small trace s next events
      genuine genuineNext locatedNext calm (ordered calm.before) moves⟩

/-- Along a calm run, reading the copies in order displays the news in order. -/
theorem displays_spaced (D : Deployment Unit κ) (gap : Nat) (small : gap ≤ 1) (k : κ)
    (final : State Unit κ) (trace : List (Event Unit κ)) (run : Run D final trace)
    (calm : Calm gap trace) (reads : Spaced gap ((displays k trace).map Prod.fst)) :
    Spaced gap ((displays k trace).map fun r => number r.2) := by
  obtain ⟨genuine, located, ordered⟩ :=
    inOrder_run D (D.subscriber k).connId gap small final trace run
  apply spaced_reads gap (toListener D (D.subscriber k).connId) number final.net
    (ordered calm).delivered _ _ reads
  intro r hr
  have shown := (mem_displays k trace r.1 r.2).mp hr
  obtain ⟨conn, data, -⟩ := justified_at D trace genuine.justified _ shown
  obtain ⟨src, found⟩ := located _ shown
  have origin := genuine.net _ (List.mem_of_getElem? found)
  have fromBroker : src = D.brokerAddr :=
    (origin_to_client D trace _ origin (D.subscriber_elsewhere k)).1
  exact ⟨_, found, by simp [toListener, fromBroker, data, conn], rfl⟩

/-- A displayed packet is, conn_id apart, a DATA packet that a publisher sent. -/
theorem displayed_published (D : Deployment ι κ) (final : State ι κ)
    (before after : List (Event ι κ)) (k : κ) (pos : Nat) (q : MiniQuicPacket)
    (run : Run D final (before ++ .displayed k pos q :: after)) :
    ∃ i attempt d, Event.transmitted i attempt d ∈ before ∧ d ∈ (D.publisher i).packets ∧
      q = { d with connId := (D.subscriber k).connId } := by
  have justified := (genuine_run D final _ run).justified
  have past := justified.before
  obtain ⟨conn, copy⟩ := displayed_copied D _ justified.upto k pos q (by simp)
  obtain ⟨pos', src, d, subs, sends, handled, data, same⟩ := copy
  have earlier : Event.handled pos' src d subs sends ∈ before := by
    rcases List.mem_append.mp handled with old | here
    · exact old
    · cases List.mem_singleton.mp here
  obtain ⟨i, attempt, own, sent⟩ := handled_data D before past pos' src d subs sends earlier data
  refine ⟨i, attempt, d, sent, own, ?_⟩
  obtain ⟨n, hn⟩ := mem_packets _ d own
  rcases (packets_at _ n d hn).2.2 with ⟨-, hand, -⟩ | ⟨-, -, evento, payload⟩
  · exact absurd hand (by simp [data, Ne.symm pktHandshake_ne_pktData])
  · rw [same, ← conn]
    simp only [fwdPkt, payload, copyPayload_copyPayload, data]

/-- The two DATA channels are read in the order of sending. -/
def InSendingOrder (k : κ) (trace : List (Event ι κ)) : Prop :=
  Spaced 0 ((handledData trace).map Prod.fst) ∧ Spaced 0 ((displays k trace).map Prod.fst)

/-- The subscriber is not sent again what it reads: only losses are made up for. -/
def NotSentAgain (k : κ) (net : Net SockaddrIn MiniQuicPacket) (trace : List (Event ι κ)) :
    Prop :=
  ∀ pos q later, Event.displayed k pos q ∈ trace → pos < later → net[later]? ≠ net[pos]?

omit [DecidableEq ι] in
/-- Behind the end of the network nothing is sent. -/
theorem notSentAgain_of_inside (k : κ) (net : Net SockaddrIn MiniQuicPacket)
    (trace : List (Event ι κ))
    (inside : ∀ r ∈ displays k trace, r.1 < net.length ∧
      ∀ later < net.length, r.1 < later → net[later]? ≠ net[r.1]?) : NotSentAgain k net trace := by
  intro pos q later shown behind
  obtain ⟨here, others⟩ := inside (pos, q) ((mem_displays k trace pos q).mpr shown)
  by_cases sent : later < net.length
  · exact others later sent behind
  · rw [List.getElem?_eq_none (Nat.le_of_not_lt sent), List.getElem?_eq_getElem here]
    exact nofun

/-- A displayed packet was read from a datagram of the broker, and is a packet of the
publisher's program with the subscriber's conn_id. -/
theorem displayed_copy (D : Deployment Unit κ) (final : State Unit κ)
    (trace : List (Event Unit κ)) (run : Run D final trace) (k : κ) (pos : Nat)
    (q : MiniQuicPacket) (shown : Event.displayed k pos q ∈ trace) :
    final.net[pos]? = some ⟨D.brokerAddr, (D.subscriber k).addr, q⟩ ∧
      ∃ d ∈ (D.publisher ()).packets, q = { d with connId := (D.subscriber k).connId } := by
  obtain ⟨genuine, located, -⟩ := inOrder_run D (D.subscriber k).connId 0 (by omega) final trace run
  obtain ⟨src, found⟩ := located _ shown
  have origin := genuine.net _ (List.mem_of_getElem? found)
  have fromBroker : src = D.brokerAddr :=
    (origin_to_client D trace _ origin (D.subscriber_elsewhere k)).1
  obtain ⟨before, after, rfl⟩ := List.append_of_mem shown
  obtain ⟨⟨⟩, attempt, d, -, own, copy⟩ := displayed_published D final before after k pos q run
  rw [fromBroker] at found
  exact ⟨found, d, own, copy⟩

/-- Displayed packets with one number were read from equal datagrams. -/
theorem displayed_twice (D : Deployment Unit κ) (final : State Unit κ)
    (trace : List (Event Unit κ)) (run : Run D final trace) (k : κ) (pos later : Nat)
    (q q' : MiniQuicPacket) (first : Event.displayed k pos q ∈ trace)
    (second : Event.displayed k later q' ∈ trace) (same : number q = number q') :
    final.net[later]? = final.net[pos]? := by
  obtain ⟨found, d, own, rfl⟩ := displayed_copy D final trace run k pos q first
  obtain ⟨found', d', own', rfl⟩ := displayed_copy D final trace run k later q' second
  obtain ⟨n, hn⟩ := mem_packets _ d own
  obtain ⟨n', hn'⟩ := mem_packets _ d' own'
  -- the number of a packet is one more than its place in the program
  have num : number d = n + 1 := (packets_at _ n d hn).2.1
  have num' : number d' = n' + 1 := (packets_at _ n' d' hn').2.1
  have place : n = n' := by
    have equal : number d = number d' := same
    omega
  rw [place, hn', Option.some.injEq] at hn
  rw [found, found', hn]

/-- One publisher and one subscriber. Whatever the network does, what is displayed
is what the publisher sent. The numbers never decrease when both channels keep
the order of sending. When moreover the subscriber reads no datagram twice, they increase
strictly if the broker handles every number once and sends nothing again, however often
the publisher does, and also if whatever is sent to the subscriber again was lost. -/
theorem news_in_order (D : Deployment Unit Unit) (final : State Unit Unit)
    (trace : List (Event Unit Unit)) (run : Run D final trace) :
    (∀ before pos q after, trace = before ++ .displayed () pos q :: after →
      ∃ attempt d, Event.transmitted () attempt d ∈ before ∧ d ∈ (D.publisher ()).packets ∧
        q = { d with connId := (D.subscriber ()).connId }) ∧
    (InSendingOrder () trace →
      ((displays () trace).map fun r => r.2.pktNum.toNat).Pairwise (· ≤ ·)) ∧
    (InSendingOrder () trace → ((displays () trace).map Prod.fst).Nodup →
      (handledNumbers trace).Nodup → (∀ x, Event.resent x ∉ trace) →
        ((displays () trace).map fun r => r.2.pktNum.toNat).Pairwise (· < ·)) ∧
    (InSendingOrder () trace → ((displays () trace).map Prod.fst).Nodup →
      NotSentAgain () final.net trace →
        ((displays () trace).map fun r => r.2.pktNum.toNat).Pairwise (· < ·)) := by
  have weakly : InSendingOrder () trace →
      ((displays () trace).map fun r => r.2.pktNum.toNat).Pairwise (· ≤ ·) := by
    intro ordered
    have calm : Calm 0 trace := ⟨ordered.1, .inl rfl⟩
    exact displays_spaced D 0 (by omega) () final trace run calm ordered.2
  refine ⟨?_, weakly, ?_, ?_⟩
  · intro before pos q after split
    rw [split] at run
    obtain ⟨⟨⟩, attempt, d, sent, own, same⟩ := displayed_published D final before after () pos q run
    exact ⟨attempt, d, sent, own, same⟩
  · intro ordered different once quiet
    have calm : Calm 1 trace := ⟨ordered.1, .inr ⟨once, quiet⟩⟩
    exact displays_spaced D 1 (by omega) () final trace run calm (ordered.2.strict different)
  · intro ordered different notAgain
    have increasing := weakly ordered
    have forward := ordered.2.strict different
    unfold Spaced at forward
    rw [List.pairwise_map] at increasing forward ⊢
    apply (increasing.and forward).imp_of_mem
    intro r r' hr hr' both
    obtain ⟨le, before⟩ := both
    apply Nat.lt_of_le_of_ne le
    intro same
    have first := (mem_displays () trace r.1 r.2).mp hr
    have second := (mem_displays () trace r'.1 r'.2).mp hr'
    exact notAgain r.1 r.2 r'.1 first before
      (displayed_twice D final trace run () r.1 r'.1 r.2 r'.2 first second same)

/-- One publisher and one subscriber, for runs on fixed inputs. -/
def onePublisher : Deployment Unit Unit where
  brokerAddr := brokerHost
  publisher _ := Publisher.program hostP 1
  subscriber _ := ⟨hostS, 9⟩
  publisher_elsewhere _ := by decide
  subscriber_elsewhere _ := by decide

/-- The first event goes out and its forwarded copy is read twice. -/
def duplicatedCopy : List (Act Unit Unit) :=
  [.subscriberStarts (), .brokerReads 0 (fun _ => 0) 0, .publisherSends (),
    .brokerReads 2 (fun _ => 0) 0, .publisherWaits () (some 3), .publisherSends (),
    .brokerReads 4 (fun _ => 0) 0, .subscriberReads () 6, .subscriberReads () 6]

/-- The first event is lost on its way to the broker and sent again, then the second
one goes through at once. -/
def lostEvent : List (Act Unit Unit) :=
  [.subscriberStarts (), .brokerReads 0 (fun _ => 0) 0, .publisherSends (),
    .brokerReads 2 (fun _ => 0) 0, .publisherWaits () (some 3), .publisherSends (),
    .publisherWaits () none, .publisherSends (), .brokerReads 5 (fun _ => 0) 0,
    .subscriberReads () 7, .publisherWaits () (some 6), .publisherSends (),
    .brokerReads 9 (fun _ => 0) 0, .subscriberReads () 11]

/-- The copy of the first event is lost on its way to the subscriber and sent again by
the timer. -/
def lostCopy : List (Act Unit Unit) :=
  [.subscriberStarts (), .brokerReads 0 (fun _ => 0) 0, .publisherSends (),
    .brokerReads 2 (fun _ => 0) 0, .publisherWaits () (some 3), .publisherSends (),
    .brokerReads 4 (fun _ => 0) 0, .brokerIdles 500, .subscriberReads () 7,
    .publisherWaits () (some 5), .publisherSends (), .brokerReads 9 (fun _ => 500) 500,
    .subscriberReads () 11]

theorem news_in_order_sample :
    ((displays () (leaves onePublisher zeroBuffer lostEvent)).map
      fun r => r.2.pktNum.toNat).Pairwise (· < ·) ∧
    ((displays () (traceOf (step onePublisher) (State.initial onePublisher zeroBuffer)
      lostCopy)).map fun r => r.2.pktNum.toNat).Pairwise (· < ·) := by
  constructor
  · obtain ⟨final, run⟩ := run_leaves onePublisher zeroBuffer lostEvent
      (.displayed () 11
        (fwdPkt ((Publisher.program hostP 1).dataPkt 1 (ascii "Tarjeta Amarilla Min 12")) 9))
      (by decide +kernel)
    rw [List.dropLast_append_getLast? _ (by decide +kernel)] at run
    have ordered : InSendingOrder () (leaves onePublisher zeroBuffer lostEvent) := by
      unfold InSendingOrder Spaced
      decide +kernel
    have quiet : (leaves onePublisher zeroBuffer lostEvent).filterMap
        (fun | .resent x => some x | _ => none) = [] := by
      decide +kernel
    apply (news_in_order onePublisher final _ run).2.2.1 ordered (by decide +kernel)
      (by decide +kernel)
    intro x mem
    cases List.filterMap_eq_nil_iff.mp quiet _ mem
  · obtain ⟨final, taken⟩ := exec_traceOf (step onePublisher)
      (State.initial onePublisher zeroBuffer) lostCopy (by decide +kernel)
    have ordered : InSendingOrder () (traceOf (step onePublisher)
        (State.initial onePublisher zeroBuffer) lostCopy) := by
      unfold InSendingOrder Spaced
      decide +kernel
    have inside : (exec (step onePublisher) (State.initial onePublisher zeroBuffer) lostCopy).all
        (fun r : State Unit Unit × List (Event Unit Unit) =>
          decide (∀ d ∈ displays () r.2, d.1 < r.1.net.length ∧
            ∀ later < r.1.net.length, d.1 < later → r.1.net[later]? ≠ r.1.net[d.1]?)) = true := by
      decide +kernel
    rw [taken, Option.all_some, decide_eq_true_iff] at inside
    exact (news_in_order onePublisher final _ ⟨zeroBuffer, lostCopy, taken⟩).2.2.2 ordered
      (by decide +kernel) (notSentAgain_of_inside () final.net _ inside)

/-- A copy that the network duplicates is displayed twice. -/
theorem news_repeated :
    ¬ ∀ (D : Deployment Unit Unit) (final : State Unit Unit) (trace : List (Event Unit Unit)),
      Run D final trace →
        ((displays () trace).map fun r => r.2.pktNum.toNat).Pairwise (· < ·) := by
  intro claim
  obtain ⟨final, run⟩ := run_leaves onePublisher zeroBuffer duplicatedCopy
    (.displayed () 6 (fwdPkt ((Publisher.program hostP 1).dataPkt 0 (ascii "Empieza el partido")) 9))
    (by decide +kernel)
  have strict := claim onePublisher final _ run
  revert strict
  decide +kernel

end SportsPubSub.Quic.DisplayOrder
