import SportsPubSub.Udp.AsmTable

/-!
# The assembly UDP broker and the C broker

udp_asm/broker_udp.s against udp_C/broker_udp.c: from any contents of the frame
and of `g_topics`, with `g_n_topics` zero, every history of datagrams gives the
same sends, the same lines and the same table, and no access leaves the frame or
`g_topics`. One lemma for each piece of code between two labels.
-/
namespace SportsPubSub.Udp.AsmBroker
open Lib.Posix Lib.LittleEndian Lib.Memory Lib.Memory.Region Lib.Reactive Protocol
open Broker (TopicBucket Topics)

theorem SenderHolds.keep {frame frame' : Region 2880} {lo hi : Nat} {client : SockaddrIn}
    (h : SenderHolds frame client) (kept : KeptOutside lo hi frame frame') (above : 32 ≤ lo) :
    SenderHolds frame' client := by
  obtain ⟨sinZero, len, held⟩ := h
  refine ⟨sinZero, len, kept _ _ held ?_⟩
  rw [length_sockaddrBytes, len]
  omega

/-- One pass of `.L2` looks at the last byte that is still part of the string. -/
theorem stripLoop_spec {size : Nat} (s : Bytes) (rdi rdx : Nat) (frame : Region size)
    (inside : rdx ≤ s.length)
    (held : frame.Holds rdi (s.take rdx ++ [0])) :
    ∃ frame', stripLoop frame rdi rdx = some frame' ∧
      frame'.Holds rdi (s.take (scanEnd isCrlf s rdx) ++ [0]) ∧
      KeptOutside rdi (rdi + rdx) frame frame' := by
  induction rdx generalizing frame with
  | zero => exact ⟨frame, rfl, held, keptOutside_refl _ _ _⟩
  | succ rdx ih =>
    have here : rdx < s.length := inside
    have len : (s.take rdx).length = rdx := by
      rw [List.length_take]
      omega
    have before := held
    rw [List.take_succ_eq_append_getElem here, holds_append, holds_append, len] at held
    obtain ⟨⟨front, last⟩, -⟩ := held
    simp only [stripLoop, byte_of_holds last, Option.bind_eq_bind, Option.bind_some, scanEnd,
      List.getElem?_eq_getElem here]
    by_cases crlf : s[rdx] = 10 ∨ s[rdx] = 13
    · have isEnd : isCrlf s[rdx] = true := by simpa [isCrlf, charLf, charCr] using crlf
      obtain ⟨f, stored, nul, kept⟩ := frame.store_spec (rdi + rdx) [0] last.room
      have shorter : f.Holds rdi (s.take rdx ++ [0]) := by
        rw [holds_append, len]
        exact ⟨front.store stored (.inl (by omega)), nul⟩
      obtain ⟨frame', run, result, keptLoop⟩ := ih f (by omega) shorter
      refine ⟨frame', ?_, ?_, ?_⟩
      · rw [if_pos crlf, stored]
        exact run
      · rw [if_pos isEnd]
        exact result
      · rw [List.length_singleton] at kept
        exact (kept.widen (by omega) (by omega)).trans (keptLoop.widen (by omega) (by omega))
    · have notEnd : ¬ isCrlf s[rdx] = true := by simpa [isCrlf, charLf, charCr] using crlf
      refine ⟨frame, by rw [if_neg crlf], ?_, keptOutside_refl _ _ _⟩
      rw [if_neg notEnd]
      exact before

/-- `strip_trailing_crlf` leaves the string of the C function and writes nothing
behind it. -/
theorem stripTrailingCrlf_spec (frame : Region 2880) (rdi : Nat) (s : Bytes)
    (held : frame.StringHolds rdi s) :
    ∃ frame', stripTrailingCrlf frame rdi = some frame' ∧
      frame'.StringHolds rdi (Broker.stripTrailingCrlf s) ∧
      KeptOutside rdi (rdi + s.length) frame frame' := by
  have whole : s.take s.length = s := List.take_length
  obtain ⟨frame', run, result, kept⟩ := stripLoop_spec s rdi s.length frame (Nat.le_refl _)
    (by rw [whole]; exact held.1)
  refine ⟨frame', ?_, ⟨result, fun nul => held.2 (List.mem_of_mem_take nul)⟩, kept⟩
  rw [stripTrailingCrlf, held.string]
  exact run

/-- `send_datagram` is the C function; its result is read with `cmpl $1`. -/
theorem sendDatagram_spec (frame : Region 2880) (ok : Bool) (rsi : Nat) (text : Bytes)
    (dest : SockaddrIn) (held : frame.string rsi = some text) :
    ∃ eax, sendDatagram frame ok rsi dest = some (eax, (Broker.sendDatagram ok text dest).2) ∧
      (eax < 1 ↔ (Broker.sendDatagram ok text dest).1 = 0) := by
  have failed : ((0xffffffff : UInt32) < 1) ↔ ((-1 : Int) = 0) := by decide
  have done : ((0 : UInt32) < 1) ↔ ((0 : Int) = 0) := by decide
  simp only [sendDatagram, held, Option.bind_eq_bind, Option.bind_some, Broker.sendDatagram]
  by_cases long : text.length > 1400
  · rw [if_pos long, if_pos (show text.length > pubsubUdpMaxMsg from long)]
    exact ⟨_, rfl, failed⟩
  · rw [if_neg long, if_neg (show ¬ text.length > pubsubUdpMaxMsg from long)]
    cases ok with
    | true => exact ⟨_, rfl, done⟩
    | false => exact ⟨_, rfl, failed⟩

/-- The answer fits its buffer, so `.L76` is not reached. -/
theorem answer_spec (net : Nat → Bool) (st : State) (topics : Topics)
    (held : TableHolds st topics) (i : Nat) (b : TopicBucket) (at_i : topics[i]? = some b)
    (payload : Bytes) (named : st.frame.StringHolds 1444 payload) (short : payload.length ≤ 63)
    (client : SockaddrIn) (sender : SenderHolds st.frame client) :
    ∃ frame, answer net st (UInt32.ofNat i) = some ({ st with frame },
      ((Broker.sendDatagram (net 0) (subOkText payload) client).2 ++
        [Broker.Effect.log (.suscripcionRegistrada payload client b.subs.length)]).map
          .effect) := by
  have inside : i < topics.length := (List.getElem?_eq_some_iff.mp at_i).1
  have many := held.many
  have slotHeld := held.slots i b at_i
  have few := slotHeld.few
  have len := length_subOkText payload
  have free : 0 ∉ subOkText payload := by
    have lit : 0 ∉ pubsubUdpPrefixSubOk := by decide
    have lf : (0 : UInt8) ≠ charLf := by decide
    simp only [subOkText, List.mem_append, List.mem_singleton, not_or]
    exact ⟨⟨lit, named.2⟩, lf⟩
  obtain ⟨frame, printed, out, kept⟩ := st.frame.snprintf_spec 32 1400 (subOkText payload)
    (by omega) (by omega)
  rw [List.take_of_length_le (by omega)] at out
  obtain ⟨sinZero, -, address⟩ := sender.keep kept (by omega)
  obtain ⟨eax, sent, -⟩ := sendDatagram_spec frame (net 0) 32 (subOkText payload) client
    (string_of_holds out free)
  have printed' : st.frame.snprintf 32 1400 (pubsubUdpPrefixSubOk ++ payload ++ [charLf]) =
      some (frame, (subOkText payload).length) := printed
  have fits : ¬ (subOkText payload).length > 1399 := by omega
  refine ⟨frame, ?_⟩
  simp only [answer, named.string, printed', Option.bind_eq_bind, Option.bind_some, if_neg fits,
    sockaddr_of_holds address, sent, slot_ofNat i (by omega), word_of_holds slotHeld.count,
    (named.keep kept (by omega)).string, toNat_ofNat b.subs.length (by omega), List.map_append,
    List.map_cons, List.map_nil]

/-- `.L37`: `add_subscriber_to_topic` and the rest of `handle_subscribe`. -/
theorem register_spec (net : Nat → Bool) (st : State) (topics : Topics)
    (held : TableHolds st topics) (i : Nat) (inside : i < topics.length) (payload : Bytes)
    (named : st.frame.StringHolds 1444 payload) (short : payload.length ≤ 63)
    (client : SockaddrIn) (sender : SenderHolds st.frame client) :
    ∃ st', register net st (UInt32.ofNat i) = some (st',
        ((Broker.addSubscriberToTopic topics i client).2 ++
          (Broker.sendDatagram (net 0) (subOkText payload) client).2 ++
          [Broker.Effect.log (.suscripcionRegistrada payload client
            (((Broker.addSubscriberToTopic topics i client).1[i]?.map
              fun b => b.subs.length).getD 0))]).map .effect) ∧
      TableHolds st' (Broker.addSubscriberToTopic topics i client).1 := by
  obtain ⟨gTopics, added, held'⟩ := addSubscriber_spec st topics held i inside client sender
  have stays : i < (Broker.addSubscriberToTopic topics i client).1.length := by
    rw [length_addSubscriberToTopic]
    exact inside
  have at_i := List.getElem?_eq_getElem stays
  obtain ⟨frame, answered⟩ := answer_spec net { st with gTopics } _ held' i _ at_i payload named
    short client sender
  refine ⟨{ st with frame, gTopics }, ?_, ?_⟩
  · simp only [register, added, answered, Option.bind_eq_bind, Option.bind_some, at_i,
      Option.map_some, Option.getD_some, List.map_append, List.append_assoc]
  · exact ⟨held'.many, held'.counter, held'.slots⟩

theorem signed_index (i : Nat) (topics : Topics) (many : topics.length ≤ 64)
    (inside : i < topics.length) : ¬ signed (indexWord (some i)) < 0 := by
  rw [indexWord, signed_ofNat i (by omega)]
  omega

theorem findTopicIndex_lt (topics : Topics) (topic : Bytes) (i : Nat)
    (found : Broker.findTopicIndex topics topic = some i) : i < topics.length :=
  (List.findIdx?_eq_some_iff_findIdx_eq.mp found).1

/-- `.L68` is `handle_subscribe`. -/
theorem subscribe_spec (net : Nat → Bool) (st : State) (topics : Topics)
    (held : TableHolds st topics) (payload : Bytes) (named : st.frame.StringHolds 1444 payload)
    (client : SockaddrIn) (sender : SenderHolds st.frame client) :
    ∃ st', subscribe net st =
        some (st', (Broker.handleSubscribe net topics payload client).2.map .effect) ∧
      TableHolds st' (Broker.handleSubscribe net topics payload client).1 := by
  obtain ⟨frame, stripped, named, kept⟩ := stripTrailingCrlf_spec st.frame 1444 payload named
  have sender := sender.keep kept (by omega)
  have held : TableHolds { st with frame } topics := ⟨held.many, held.counter, held.slots⟩
  obtain ⟨first, loaded, empty⟩ := named.byte
  simp only [subscribe, stripped, Option.bind_eq_bind, Option.bind_some, loaded, named.string,
    Broker.handleSubscribe]
  generalize Broker.stripTrailingCrlf payload = payload at *
  by_cases none : payload = []
  · rw [if_pos (empty.mpr none), if_pos none]
    exact ⟨_, rfl, held⟩
  · rw [if_neg (fun nul => none (empty.mp nul)), if_neg none]
    by_cases space : (strchr payload charSpace).isSome = true
    · have space' : (strchr payload 32).isSome = true := space
      rw [if_pos space, if_pos space']
      exact ⟨_, rfl, held⟩
    · have space' : ¬ (strchr payload 32).isSome = true := space
      rw [if_neg space, if_neg space']
      by_cases long : payload.length > 63
      · rw [if_pos long, if_pos (show payload.length > pubsubUdpMaxTopicLen from long)]
        exact ⟨_, rfl, held⟩
      · rw [if_neg long, if_neg (show ¬ payload.length > pubsubUdpMaxTopicLen from long)]
        have short : payload.length ≤ 63 := Nat.le_of_not_lt long
        have subOk : snprintf pubsubUdpMaxMsg (subOkText payload) =
            (subOkText payload, (subOkText payload).length) := by
          apply snprintf_fits
          rw [length_subOkText, pubsubUdpMaxMsg]
          omega
        have fits : ¬ (subOkText payload).length ≥ pubsubUdpMaxMsg := by
          rw [length_subOkText, pubsubUdpMaxMsg]
          omega
        rw [findTopicIndex_spec _ topics held 1444 payload named.string]
        simp only [Option.bind_some, Broker.ensureTopicIndex]
        cases found : Broker.findTopicIndex topics payload with
        | some i =>
          have inside := findTopicIndex_lt topics payload i found
          rw [if_neg (signed_index i topics held.many inside)]
          simp only [subOk, if_neg fits]
          exact register_spec net _ topics held i inside payload named short client sender
        | none =>
          rw [if_pos (by rw [signed_indexWord_none]; decide)]
          simp only [Broker.addTopicBucket]
          by_cases full : topics.length ≥ pubsubUdpMaxTopics
          · rw [newTopic_full _ topics held full]
            simp only [if_pos full, Option.bind_some]
            exact ⟨_, rfl, held⟩
          · obtain ⟨st', created, sameFrame, held'⟩ := newTopic_room _ topics held
              (Nat.lt_of_not_le full) payload named.string named.2 short
            have stored : (snprintf (pubsubUdpMaxTopicLen + 1) payload).1 = payload := by
              rw [snprintf_fits]
              exact Nat.lt_succ_of_le short
            rw [created]
            simp only [if_neg full, Option.bind_some, stored, subOk, if_neg fits]
            exact register_spec net st' _ held' topics.length (by simp) payload
              (by rw [sameFrame]; exact named) short client (by rw [sameFrame]; exact sender)

/-- One pass of `.L56` sends to address `i`. Induction on the passes left; the count
in memory is read again after each send. -/
theorem forwardLoop_spec (net : Nat → Bool) (st : State) (off : Nat) (b : TopicBucket)
    (held : SlotHolds st.gTopics off b) (out : Bytes) (text : st.frame.string 32 = some out)
    (passes i : Nat) (r14d : UInt32) (left : i + passes = b.subs.length)
    (some_left : 0 < passes) :
    forwardLoop net st off passes (UInt32.ofNat i) r14d (off + 64 + i * 16) =
      some (r14d + UInt32.ofNat (Broker.forwardLoop net out i (b.subs.drop i)).1,
        (Broker.forwardLoop net out i (b.subs.drop i)).2.map .effect) := by
  have few := held.few
  induction passes generalizing i r14d with
  | zero => omega
  | succ passes ih =>
    have inside : i < b.subs.length := by omega
    obtain ⟨sinZero, -, stored⟩ := held.entries i b.subs[i] (List.getElem?_eq_getElem inside)
    obtain ⟨eax, sent, result⟩ := sendDatagram_spec st.frame (net i) 32 out b.subs[i] text
    rw [List.drop_eq_getElem_cons inside]
    simp only [forwardLoop, sockaddr_of_holds stored, toNat_ofNat i (by omega), sent,
      word_of_holds held.count, ofNat_succ, signed_ofNat (i + 1) (by omega),
      signed_ofNat b.subs.length (by omega), Option.bind_eq_bind, Option.bind_some,
      Broker.forwardLoop]
    have counted : (if eax < 1 then r14d + 1 else r14d) = r14d +
        UInt32.ofNat (if (Broker.sendDatagram (net i) out b.subs[i]).1 = 0 then 1 else 0) := by
      by_cases done : eax < 1
      · rw [if_pos done, if_pos (result.mp done)]
        rfl
      · rw [if_neg done, if_neg (fun h => done (result.mpr h))]
        exact (UInt32.add_zero r14d).symm
    by_cases last : i + 1 = b.subs.length
    · have stop : ¬ ((i + 1 : Nat) : Int) < b.subs.length := by omega
      rw [if_neg stop, counted, List.drop_eq_nil_of_le (by omega)]
      simp only [Broker.forwardLoop, List.append_nil]
    · have more : ((i + 1 : Nat) : Int) < b.subs.length := by omega
      have place : off + 64 + i * 16 + 16 = off + 64 + (i + 1) * 16 := by omega
      rw [if_pos more, place, ih (i + 1) _ (by omega) (by omega), counted]
      simp only [Option.bind_some, List.map_append, Option.some.injEq, Prod.mk.injEq, and_true]
      rw [UInt32.add_assoc, ← UInt32.ofNat_add]
      congr 2
      split <;> omega

theorem forwardLoop_le (net : Nat → Bool) (out : Bytes) (i : Nat) (subs : List SockaddrIn) :
    (Broker.forwardLoop net out i subs).1 ≤ subs.length := by
  induction subs generalizing i with
  | nil => exact Nat.le_refl 0
  | cons dest rest ih =>
    have later := ih (i + 1)
    simp only [Broker.forwardLoop, List.length_cons]
    split <;> omega

theorem forward_spec (net : Nat → Bool) (st : State) (topics : Topics)
    (held : TableHolds st topics) (i : Nat) (b : TopicBucket) (at_i : topics[i]? = some b)
    (out : Bytes) (text : st.frame.string 32 = some out) :
    ∃ r14d, forward net st (UInt32.ofNat i) =
        some (r14d, (Broker.forwardLoop net out 0 b.subs).2.map .effect) ∧
      r14d.toNat = (Broker.forwardLoop net out 0 b.subs).1 := by
  have inside : i < topics.length := (List.getElem?_eq_some_iff.mp at_i).1
  have many := held.many
  have slotHeld := held.slots i b at_i
  have few := slotHeld.few
  have bound := forwardLoop_le net out 0 b.subs
  simp only [forward, slot_ofNat i (by omega), word_of_holds slotHeld.count,
    signed_ofNat b.subs.length (by omega), toNat_ofNat b.subs.length (by omega),
    Option.bind_eq_bind, Option.bind_some]
  by_cases empty : b.subs.length = 0
  · rw [if_pos (by omega), List.length_eq_zero_iff.mp empty]
    exact ⟨0, rfl, rfl⟩
  · rw [if_neg (by omega)]
    have run := forwardLoop_spec net st (i * 2116) b slotHeld out text b.subs.length 0 0
      (by omega) (by omega)
    simp only [Nat.zero_mul, Nat.add_zero, List.drop_zero, UInt32.zero_add] at run
    refine ⟨_, run, ?_⟩
    rw [toNat_ofNat _ (by omega)]

/-- The two strings that `*sep = 0` makes of the payload. -/
theorem split_spec (frame : Region 2880) (payload : Bytes) (named : frame.StringHolds 1444 payload)
    (sep : Nat) (found : strchr payload charBar = some sep) :
    ∃ frame', frame.store (1444 + sep) [0] = some frame' ∧
      frame'.StringHolds 1444 (payload.take sep) ∧
      frame'.StringHolds (1444 + sep + 1) (payload.drop (sep + 1)) ∧
      KeptOutside (1444 + sep) (1444 + sep + 1) frame frame' := by
  have inside : sep < payload.length :=
    (List.findIdx?_eq_some_iff_findIdx_eq.mp found).1
  have len : (payload.take sep).length = sep := by
    rw [List.length_take]
    omega
  have body := named.drop (sep + 1) (by omega)
  have all := named.1
  rw [← List.take_append_drop sep payload, List.append_assoc, holds_append, len] at all
  obtain ⟨front, back⟩ := all
  have room := back.room
  rw [List.length_append, List.length_singleton] at room
  obtain ⟨frame', stored, nul, kept⟩ := frame.store_spec (1444 + sep) [0]
    (by rw [List.length_singleton]; omega)
  rw [List.length_singleton] at kept
  refine ⟨frame', stored, ⟨?_, fun nul => named.2 (List.mem_of_mem_take nul)⟩, ?_, kept⟩
  · rw [holds_append, len]
    exact ⟨kept _ _ front (by omega), nul⟩
  · exact body.keep kept (by omega)

/-- The code after the second `strncmp` is `handle_publish`. -/
theorem publish_spec (net : Nat → Bool) (st : State) (topics : Topics)
    (held : TableHolds st topics) (payload : Bytes) (named : st.frame.StringHolds 1444 payload) :
    ∃ st', publish net st =
        some (st', (Broker.handlePublish net topics payload).map .effect) ∧
      TableHolds st' topics := by
  obtain ⟨frame, stripped, named, -⟩ := stripTrailingCrlf_spec st.frame 1444 payload named
  have held : ∀ frame, TableHolds { st with frame } topics :=
    fun _ => ⟨held.many, held.counter, held.slots⟩
  simp only [publish, stripped, Option.bind_eq_bind, Option.bind_some, named.string,
    Broker.handlePublish]
  generalize Broker.stripTrailingCrlf payload = payload at *
  have bar : strchr payload 124 = strchr payload charBar := rfl
  rw [bar]
  cases found : strchr payload charBar with
  | none => exact ⟨_, rfl, held frame⟩
  | some sep =>
    obtain ⟨frame, cut, topic, body, -⟩ := split_spec frame payload named sep found
    obtain ⟨first, loaded, empty⟩ := topic.byte
    simp only [cut, loaded, Option.bind_some]
    generalize payload.take sep = name at *
    generalize payload.drop (sep + 1) = rest at *
    by_cases none : name = []
    · rw [if_pos (empty.mpr none), if_pos none]
      exact ⟨_, rfl, held frame⟩
    · rw [if_neg (fun nul => none (empty.mp nul)), if_neg none,
        findTopicIndex_spec _ topics (held frame) 1444 name topic.string]
      simp only [Option.bind_some, topic.string, body.string]
      cases located : Broker.findTopicIndex topics name with
      | none =>
        rw [if_pos (by rw [signed_indexWord_none]; decide)]
        exact ⟨_, rfl, held frame⟩
      | some i =>
        have inside := findTopicIndex_lt topics name i located
        have at_i : topics[i]? = some topics[i] := List.getElem?_eq_getElem inside
        rw [if_neg (signed_index i topics (held frame).many inside)]
        have free : 0 ∉ newsText name rest := by
          have lit : 0 ∉ pubsubUdpPrefixNews := by decide
          have sepByte : (0 : UInt8) ≠ charBar := by decide
          have lf : (0 : UInt8) ≠ charLf := by decide
          simp only [newsText, List.mem_append, List.mem_singleton, not_or]
          exact ⟨⟨⟨⟨lit, topic.2⟩, sepByte⟩, body.2⟩, lf⟩
        obtain ⟨frame', printed, out, kept⟩ := frame.snprintf_spec 32 1400 (newsText name rest)
          (by omega) (by omega)
        have printed' : frame.snprintf 32 1400
            (pubsubUdpPrefixNews ++ name ++ [charBar] ++ rest ++ [charLf]) =
            some (frame', (newsText name rest).length) := printed
        simp only [printed', Option.bind_some]
        by_cases long : (newsText name rest).length > 1399
        · have long' : (snprintf pubsubUdpMaxMsg (newsText name rest)).2 ≥ pubsubUdpMaxMsg := long
          rw [if_pos long, if_pos long']
          exact ⟨_, rfl, held frame'⟩
        · have short : ¬ (newsText name rest).length ≥ pubsubUdpMaxMsg := long
          have fits : snprintf pubsubUdpMaxMsg (newsText name rest) =
              (newsText name rest, (newsText name rest).length) :=
            snprintf_fits _ _ (Nat.lt_of_not_le short)
          rw [fits, if_neg long, if_neg short]
          rw [List.take_of_length_le (by omega)] at out
          obtain ⟨r14d, forwarded, count⟩ := forward_spec net { st with frame := frame' } topics
            (held frame') i _ at_i _ (string_of_holds out free)
          have topic := topic.keep kept (by omega)
          refine ⟨{ st with frame := frame' }, ?_, held frame'⟩
          simp only [indexWord, forwarded, topic.string, count, Option.bind_some, at_i, Option.map_some, Option.getD_some, List.map_append, List.map_cons, List.map_nil]

/-- What `recvfrom` and the NUL after it leave in the frame. -/
theorem received_spec (frame : Region 2880) (arrival : Arrival) :
    ∃ f₁ f₂ f₃ f₄, frame.store 12 (wordBytes 16) = some f₁ ∧
      f₁.store 16 (sockaddrBytes arrival.received.client arrival.sinZero) = some f₂ ∧
      f₂.store 1440 arrival.received.datagram = some f₃ ∧
      f₃.store (1440 + arrival.received.datagram.length) [0] = some f₄ ∧
      f₄.StringHolds 1440 (text arrival.received.datagram) ∧
      SenderHolds f₄ arrival.received.client := by
  have fits := arrival.received.fits
  have size : (sockaddrBytes arrival.received.client arrival.sinZero).length = 16 := by
    rw [length_sockaddrBytes, arrival.padded]
  simp only [pubsubUdpMaxMsg] at fits
  obtain ⟨f₁, length, -, -⟩ := frame.store_spec 12 (wordBytes 16) (by rw [length_wordBytes]; omega)
  obtain ⟨f₂, client, sender, -⟩ := f₁.store_spec 16
    (sockaddrBytes arrival.received.client arrival.sinZero) (by omega)
  obtain ⟨f₃, data, received, kept₃⟩ := f₂.store_spec 1440 arrival.received.datagram (by omega)
  obtain ⟨f₄, ended, nul, kept₄⟩ := f₃.store_spec (1440 + arrival.received.datagram.length) [0]
    (by rw [List.length_singleton]; omega)
  refine ⟨f₁, f₂, f₃, f₄, length, client, data, ended, ⟨?_, ?_⟩, arrival.sinZero, arrival.padded,
    ?_⟩
  · apply holds_text
    rw [holds_append]
    exact ⟨kept₄ _ _ received (by omega), nul⟩
  · intro zero
    exact mem_text_ne_zero _ _ zero rfl
  · exact kept₄ _ _ (kept₃ _ _ sender (by omega)) (by omega)

/-- One pass of the loop of `main` is one pass of the C loop. -/
theorem broker_spec (st : State) (topics : Topics) (arrival : Arrival)
    (held : TableHolds st topics) :
    ∃ next, broker st arrival =
        some (next, (Broker.broker topics arrival.received).2.map .effect) ∧
      TableHolds next (Broker.broker topics arrival.received).1 := by
  obtain ⟨f₁, f₂, f₃, f₄, length, client, data, ended, buf, sender⟩ :=
    received_spec st.frame arrival
  have held : ∀ frame, TableHolds { st with frame } topics :=
    fun _ => ⟨held.many, held.counter, held.slots⟩
  simp only [broker, length, client, data, Option.bind_eq_bind, Option.bind_some, Broker.broker]
  by_cases empty : arrival.received.datagram = []
  · rw [if_pos (by rw [empty]; rfl), if_pos empty]
    exact ⟨_, rfl, held f₃⟩
  · rw [if_neg (fun zero => empty (List.length_eq_zero_iff.mp zero)), if_neg empty]
    simp only [ended, buf.string, Option.bind_some, length_pubsubUdpPrefixSub,
      length_pubsubUdpPrefixPub]
    generalize text arrival.received.datagram = datagram at buf ⊢
    -- the string after either prefix starts at 1444
    have payload : ∀ lit : Bytes, lit.length = 4 → strncmpEq datagram lit 4 = true →
        f₄.StringHolds 1444 (datagram.drop 4) := by
      intro lit four same
      rw [← four, strncmpEq_length, four] at same
      have long : 4 ≤ datagram.length := by
        have len := congrArg List.length same
        rw [List.length_take] at len
        omega
      exact buf.drop 4 long
    by_cases sub : strncmpEq datagram pubsubUdpPrefixSub 4 = true
    · rw [if_pos sub, if_pos sub]
      exact subscribe_spec _ _ topics (held f₄) _ (payload _ length_pubsubUdpPrefixSub sub) _ sender
    · rw [if_neg sub, if_neg sub]
      by_cases pub : strncmpEq datagram pubsubUdpPrefixPub 4 = true
      · rw [if_pos pub, if_pos pub]
        exact publish_spec _ _ topics (held f₄) _ (payload _ length_pubsubUdpPrefixPub pub)
      · rw [if_neg pub, if_neg pub]
        exact ⟨_, rfl, held f₄⟩

/-- At the start no slot is in use, whatever the memory holds. -/
theorem tableHolds_nil (frame : Region 2880) (gTopics : Region 135424) :
    TableHolds ⟨frame, gTopics, 0⟩ [] :=
  ⟨Nat.zero_le _, rfl, fun i b h => by simp at h⟩

/-- The assembly broker and the C broker are one program: every history is executed
without a fault, with the effects of the C broker in their order and with its
table in memory at the end. -/
theorem run_refines_c (frame : Region 2880) (gTopics : Region 135424) (history : List Arrival) :
    ∃ final, exec broker ⟨frame, gTopics, 0⟩ history =
        some (final, (outputsFrom Broker.broker [] (history.map Arrival.received)).map .effect) ∧
      TableHolds final (runFrom Broker.broker [] (history.map Arrival.received)) :=
  exec_simulates broker Broker.broker Arrival.received Output.effect TableHolds
    (fun st topics arrival held => broker_spec st topics arrival held) history _ _
    (tableHolds_nil frame gTopics)

end SportsPubSub.Udp.AsmBroker
