import SportsPubSub.Udp.AsmBroker

/-!
# The topic table in memory

How the bytes of `g_topics` in udp_asm/broker_udp.s stand for the table of the C
broker, and what each subroutine that reads or writes them does: the two searches,
the new slot and the new address. A slot's unused bytes are arbitrary, so the
relation does not depend on what `rep stosq` clears.
-/
namespace SportsPubSub.Udp.AsmBroker
open Lib.Posix Lib.LittleEndian Lib.Memory Lib.Memory.Region Protocol
open Broker (TopicBucket Topics)

/-- A slot holds a bucket of the C broker. -/
structure SlotHolds (gTopics : Region 135424) (off : Nat) (b : TopicBucket) : Prop where
  name : gTopics.Holds off (b.topic ++ [0])
  free : 0 ∉ b.topic
  short : b.topic.length ≤ 63
  count : gTopics.Holds (off + 2112) (wordBytes (UInt32.ofNat b.subs.length))
  few : b.subs.length ≤ 128
  entries : ∀ i a, b.subs[i]? = some a → ∃ sinZero, sinZero.length = 8 ∧
    gTopics.Holds (off + 64 + i * 16) (sockaddrBytes a sinZero)

/-- The slots in use are the table of the C broker. -/
structure TableHolds (st : State) (topics : Topics) : Prop where
  many : topics.length ≤ 64
  counter : st.gNTopics = UInt32.ofNat topics.length
  slots : ∀ i b, topics[i]? = some b → SlotHolds st.gTopics (i * 2116) b

/-- Writes outside a slot keep it. -/
theorem SlotHolds.keep {gTopics gTopics' : Region 135424} {off lo hi : Nat} {b : TopicBucket}
    (h : SlotHolds gTopics off b) (kept : KeptOutside lo hi gTopics gTopics')
    (apart : off + 2116 ≤ lo ∨ hi ≤ off) : SlotHolds gTopics' off b := by
  have short := h.short
  have few := h.few
  constructor
  · apply kept off _ h.name
    simp only [List.length_append, List.length_singleton]
    omega
  · exact h.free
  · exact short
  · apply kept _ _ h.count
    rw [length_wordBytes]
    omega
  · exact few
  · intro i a hi
    obtain ⟨sinZero, len, held⟩ := h.entries i a hi
    have inside : i < b.subs.length := (List.getElem?_eq_some_iff.mp hi).1
    refine ⟨sinZero, len, ?_⟩
    apply kept _ _ held
    rw [length_sockaddrBytes]
    omega

theorem slot_ofNat (i : Nat) (small : i < 2147483648) : slot (UInt32.ofNat i) = i * 2116 := by
  rw [slot, toNat_ofNat i small]

/-- An index as `find_topic_index` returns it. -/
def indexWord : Option Nat → UInt32
  | some i => UInt32.ofNat i
  | none => 0xffffffff

theorem signed_indexWord_none : signed (indexWord none) = -1 := by decide

/-- One pass of `.L9` decides about slot `i`, so the loop finds the first slot from
`i` on that has the name. Induction on the passes left. -/
theorem findLoop_spec (st : State) (topics : Topics) (held : TableHolds st topics) (s : Bytes)
    (passes i : Nat) (left : i + passes = topics.length) (some_left : 0 < passes) :
    findLoop st.gTopics s (UInt32.ofNat topics.length) passes (UInt32.ofNat i) (i * 2116) =
      some (indexWord (((topics.drop i).findIdx? fun b => strcmpEq b.topic s).map (i + ·))) := by
  have many := held.many
  induction passes generalizing i with
  | zero => omega
  | succ passes ih =>
    have inside : i < topics.length := by omega
    have here := held.slots i topics[i] (List.getElem?_eq_getElem inside)
    have name := string_of_holds here.name here.free
    rw [List.drop_eq_getElem_cons inside, List.findIdx?_cons]
    simp only [findLoop, name, Option.bind_eq_bind, Option.bind_some]
    by_cases same : strcmpEq topics[i].topic s = true
    · simp only [same, if_true, Option.map_some, indexWord, Nat.add_zero]
    · simp only [same, if_false, Bool.false_eq_true]
      rw [ofNat_succ]
      by_cases last : i + 1 = topics.length
      · have done : topics.drop (i + 1) = [] := List.drop_eq_nil_of_le (by omega)
        rw [if_pos (by rw [last]), done]
        rfl
      · have more : UInt32.ofNat (i + 1) ≠ UInt32.ofNat topics.length := by
          rw [Ne, ofNat_inj _ _ (by omega) (by omega)]
          exact last
        have later := ih (i + 1) (by omega) (by omega)
        rw [Nat.add_mul, Nat.one_mul] at later
        rw [if_neg more, later, Option.map_map]
        congr 3
        funext k
        simp only [Function.comp_apply]
        omega

theorem findTopicIndex_spec (st : State) (topics : Topics) (held : TableHolds st topics)
    (rdi : Nat) (s : Bytes) (named : st.frame.string rdi = some s) :
    findTopicIndex st rdi = some (indexWord (Broker.findTopicIndex topics s)) := by
  have many := held.many
  rw [findTopicIndex, held.counter, signed_ofNat _ (by omega)]
  by_cases empty : topics.length = 0
  · rw [if_pos (by omega), List.length_eq_zero_iff.mp empty]
    rfl
  · rw [if_neg (by omega), named, toNat_ofNat _ (by omega)]
    have found := findLoop_spec st topics held s topics.length 0 (by omega) (by omega)
    simp only [Nat.zero_mul, List.drop_zero, Nat.zero_add, Option.map_id'] at found
    exact found

theorem sameSender_spec (gTopics : Region 135424) (rax : Nat) (s client : SockaddrIn)
    (sinZero : Bytes) (stored : gTopics.Holds rax (sockaddrBytes s sinZero)) :
    sameSender gTopics rax client.sinFamily client.sinAddr client.sinPort =
      some (Broker.sockaddrInEqual s client) := by
  obtain ⟨family, port, addr⟩ := fields_of_holds stored
  simp only [sameSender, family, port, addr, Option.bind_eq_bind, Option.bind_some,
    Broker.sockaddrInEqual]
  by_cases sameFamily : s.sinFamily = client.sinFamily
  · by_cases sameAddr : s.sinAddr = client.sinAddr
    · by_cases samePort : s.sinPort = client.sinPort <;> simp [sameFamily, sameAddr, samePort]
    · simp [sameFamily, sameAddr]
  · simp [sameFamily]

/-- One pass of `.L43` compares one stored address with the sender. -/
theorem searchLoop_spec (gTopics : Region 135424) (off : Nat) (b : TopicBucket)
    (held : SlotHolds gTopics off b) (client : SockaddrIn) (passes i : Nat)
    (left : i + passes = b.subs.length) (some_left : 0 < passes) :
    searchLoop gTopics client.sinFamily client.sinAddr client.sinPort
        (off + 64 + b.subs.length * 16) passes (off + 64 + i * 16) =
      some ((b.subs.drop i).any fun s => Broker.sockaddrInEqual s client) := by
  induction passes generalizing i with
  | zero => omega
  | succ passes ih =>
    have inside : i < b.subs.length := by omega
    obtain ⟨sinZero, -, stored⟩ := held.entries i b.subs[i] (List.getElem?_eq_getElem inside)
    rw [List.drop_eq_getElem_cons inside, List.any_cons]
    have equal : sameSender gTopics (off + 64 + i * 16) client.sinFamily client.sinAddr
        client.sinPort = some (Broker.sockaddrInEqual b.subs[i] client) :=
      sameSender_spec gTopics _ b.subs[i] client sinZero stored
    simp only [searchLoop, equal, Option.bind_eq_bind, Option.bind_some]
    cases same : Broker.sockaddrInEqual b.subs[i] client with
    | true => simp
    | false =>
      simp only [Bool.false_eq_true, if_false, Bool.false_or]
      by_cases last : i + 1 = b.subs.length
      · rw [if_pos (by omega), List.drop_eq_nil_of_le (by omega)]
        rfl
      · rw [if_neg (by omega), ← ih (i + 1) (by omega) (by omega)]
        congr 1
        omega

/-- The sender as `recvfrom` left it in the frame. -/
def SenderHolds (frame : Region 2880) (client : SockaddrIn) : Prop :=
  ∃ sinZero, sinZero.length = 8 ∧ frame.Holds 16 (sockaddrBytes client sinZero)

theorem known_spec (st : State) (topics : Topics) (held : TableHolds st topics) (i : Nat)
    (b : TopicBucket) (at_i : topics[i]? = some b) (client : SockaddrIn)
    (sender : SenderHolds st.frame client) :
    known st (UInt32.ofNat i) (UInt32.ofNat b.subs.length) =
      some (b.subs.any fun s => Broker.sockaddrInEqual s client) := by
  have inside : i < topics.length := (List.getElem?_eq_some_iff.mp at_i).1
  have many := held.many
  have slotHeld := held.slots i b at_i
  have few := slotHeld.few
  obtain ⟨sinZero, -, stored⟩ := sender
  obtain ⟨family, port, addr⟩ := fields_of_holds stored
  rw [known, signed_ofNat _ (by omega), slot_ofNat _ (by omega)]
  by_cases empty : b.subs.length = 0
  · rw [if_pos (by omega), List.length_eq_zero_iff.mp empty]
    rfl
  · rw [if_neg (by omega), family, port, addr, toNat_ofNat _ (by omega)]
    have found := searchLoop_spec st.gTopics (i * 2116) b slotHeld client b.subs.length 0
      (by omega) (by omega)
    simp only [Nat.zero_mul, Nat.add_zero, List.drop_zero] at found
    exact found

/-- Appending to a list that stands in memory: the old elements are where they
were, the new one is the last. -/
theorem getElem?_concat_cases {α : Type*} (xs : List α) (x y : α) (i : Nat)
    (h : (xs ++ [x])[i]? = some y) : xs[i]? = some y ∨ i = xs.length ∧ y = x := by
  by_cases old : i < xs.length
  · left
    rwa [List.getElem?_append_left old] at h
  · right
    rw [List.getElem?_append_right (by omega), List.getElem?_singleton] at h
    split at h
    · next last => exact ⟨by omega, (Option.some.inj h).symm⟩
    · cases h

/-- The store of one more address extends the bucket. -/
theorem SlotHolds.extend {gTopics g g' : Region 135424} {off : Nat} {b : TopicBucket}
    {client : SockaddrIn} {sinZero : Bytes} (h : SlotHolds gTopics off b)
    (room : b.subs.length < 128) (len : sinZero.length = 8)
    (counted : gTopics.store (off + 2112) (wordBytes (UInt32.ofNat (b.subs.length + 1))) = some g)
    (written : g.store (off + (b.subs.length + 4) * 16) (sockaddrBytes client sinZero) = some g') :
    SlotHolds g' off { b with subs := b.subs ++ [client] } := by
  have short := h.short
  have size : (sockaddrBytes client sinZero).length = 16 := by rw [length_sockaddrBytes, len]
  have keep : ∀ at' bytes, gTopics.Holds at' bytes →
      at' + bytes.length ≤ off + (b.subs.length + 4) * 16 → g'.Holds at' bytes := by
    intro at' bytes held before
    exact (held.store counted (.inl (by omega))).store written (.inl before)
  constructor
  · apply keep _ _ h.name
    simp only [List.length_append, List.length_singleton]
    omega
  · exact h.free
  · exact short
  · rw [List.length_append, List.length_singleton]
    apply (holds_store counted).store written
    right
    omega
  · rw [List.length_append, List.length_singleton]
    omega
  · intro i a hi
    rcases getElem?_concat_cases b.subs client a i hi with old | ⟨rfl, rfl⟩
    · have inside : i < b.subs.length := (List.getElem?_eq_some_iff.mp old).1
      obtain ⟨zero, zeroLen, held⟩ := h.entries i a old
      refine ⟨zero, zeroLen, keep _ _ held ?_⟩
      rw [length_sockaddrBytes]
      omega
    · refine ⟨sinZero, len, ?_⟩
      have place : off + 64 + b.subs.length * 16 = off + (b.subs.length + 4) * 16 := by omega
      rw [place]
      exact holds_store written

theorem length_addSubscriberToTopic (topics : Topics) (i : Nat) (addr : SockaddrIn) :
    (Broker.addSubscriberToTopic topics i addr).1.length = topics.length := by
  unfold Broker.addSubscriberToTopic
  split
  · rfl
  · split
    · rfl
    · split
      · rfl
      · exact List.length_set

/-- `.L37` up to `.L42` is `add_subscriber_to_topic`. -/
theorem addSubscriber_spec (st : State) (topics : Topics) (held : TableHolds st topics) (i : Nat)
    (inside : i < topics.length) (client : SockaddrIn) (sender : SenderHolds st.frame client) :
    ∃ gTopics, addSubscriber st (UInt32.ofNat i) = some ({ st with gTopics },
        (Broker.addSubscriberToTopic topics i client).2.map .effect) ∧
      TableHolds { st with gTopics } (Broker.addSubscriberToTopic topics i client).1 := by
  have many := held.many
  have at_i : topics[i]? = some topics[i] := List.getElem?_eq_getElem inside
  generalize topics[i] = b at at_i
  have slotHeld := held.slots i b at_i
  have few := slotHeld.few
  have found := known_spec st topics held i b at_i client sender
  simp only [addSubscriber, slot_ofNat i (by omega), word_of_holds slotHeld.count, found,
    signed_ofNat b.subs.length (by omega), toNat_ofNat b.subs.length (by omega),
    string_of_holds slotHeld.name slotHeld.free, Option.bind_eq_bind, Option.bind_some,
    Broker.addSubscriberToTopic, at_i]
  split
  · exact ⟨st.gTopics, rfl, held⟩
  · by_cases full : b.subs.length ≥ pubsubUdpMaxSubsPerTopic
    · have jump : (b.subs.length : Int) > 127 := by
        simp only [pubsubUdpMaxSubsPerTopic] at full
        omega
      rw [if_pos jump, if_pos full]
      exact ⟨st.gTopics, rfl, held⟩
    · have room : b.subs.length < 128 := Nat.lt_of_not_le full
      have stays : ¬ (b.subs.length : Int) > 127 := by omega
      obtain ⟨sinZero, len, stored⟩ := sender
      have size : (sockaddrBytes client sinZero).length = 16 := by rw [length_sockaddrBytes, len]
      have loaded := stored.load 16 size
      obtain ⟨g, counted, -, keptCount⟩ := st.gTopics.store_spec (i * 2116 + 2112)
        (wordBytes (UInt32.ofNat (b.subs.length + 1))) (by rw [length_wordBytes]; omega)
      obtain ⟨g', written, -, keptEntry⟩ := g.store_spec
        (i * 2116 + (b.subs.length + 4) * 16) (sockaddrBytes client sinZero) (by omega)
      rw [if_neg stays, if_neg full]
      simp only [ofNat_succ, counted, loaded, written, Option.bind_some]
      refine ⟨g', rfl, ?_⟩
      rw [length_wordBytes] at keptCount
      rw [size] at keptEntry
      have kept : KeptOutside (i * 2116) (i * 2116 + 2116) st.gTopics g' :=
        (keptCount.widen (by omega) (by omega)).trans (keptEntry.widen (by omega) (by omega))
      constructor
      · rw [List.length_set]
        exact many
      · rw [List.length_set]
        exact held.counter
      · intro j c at_j
        rw [List.getElem?_set] at at_j
        split at at_j
        · next here =>
          subst here
          cases at_j
          exact slotHeld.extend room len counted written
        · exact (held.slots j c at_j).keep kept (by omega)

/-- `.L75` with every slot taken. -/
theorem newTopic_full (st : State) (topics : Topics) (held : TableHolds st topics)
    (full : topics.length ≥ pubsubUdpMaxTopics) : newTopic st = some (st, none) := by
  have many := held.many
  simp only [pubsubUdpMaxTopics] at full
  rw [newTopic, held.counter, signed_ofNat _ (by omega), if_pos (by omega)]

/-- `.L75` takes the next slot. Its five writes stay inside the slot, whether its
address is a multiple of eight or only of four. -/
theorem newTopic_room (st : State) (topics : Topics) (held : TableHolds st topics)
    (room : topics.length < pubsubUdpMaxTopics) (payload : Bytes)
    (named : st.frame.string 1444 = some payload) (free : 0 ∉ payload)
    (short : payload.length ≤ 63) :
    ∃ st', newTopic st = some (st', some (UInt32.ofNat topics.length)) ∧
      st'.frame = st.frame ∧ TableHolds st' (topics ++ [⟨payload, []⟩]) := by
  simp only [pubsubUdpMaxTopics] at room
  have whole : payload.take 63 = payload := List.take_of_length_le short
  have eight : (List.replicate 8 (0 : UInt8)).length = 8 := rfl
  obtain ⟨g₁, head, -, kept₁⟩ := st.gTopics.store_spec (topics.length * 2116)
    (List.replicate 8 0) (by omega)
  obtain ⟨g₂, tail, -, kept₂⟩ := g₁.store_spec (topics.length * 2116 + 2108)
    (List.replicate 8 0) (by omega)
  generalize rdi_eq : (topics.length * 2116 + 8) / 8 * 8 = rdi
  generalize ecx_eq : (topics.length * 2116 + 2116 - rdi) / 8 = ecx
  have cleared : (List.replicate (8 * ecx) (0 : UInt8)).length = 8 * ecx := List.length_replicate
  obtain ⟨g₃, stosq, -, kept₃⟩ := g₂.store_spec rdi (List.replicate (8 * ecx) 0) (by omega)
  obtain ⟨g₄, printed, name, kept₄⟩ := g₃.snprintf_spec (topics.length * 2116) 64 payload
    (by omega) (by omega)
  obtain ⟨g₅, counted, count, kept₅⟩ := g₄.store_spec (topics.length * 2116 + 2112)
    (wordBytes 0) (by rw [length_wordBytes]; omega)
  rw [eight] at kept₁ kept₂
  rw [cleared] at kept₃
  rw [length_wordBytes] at kept₅
  rw [whole] at name
  have kept : KeptOutside (topics.length * 2116) (topics.length * 2116 + 2116) st.gTopics g₅ :=
    (kept₁.widen (by omega) (by omega)).trans <| (kept₂.widen (by omega) (by omega)).trans <|
      (kept₃.widen (by omega) (by omega)).trans <| (kept₄.widen (by omega) (by omega)).trans <|
        kept₅.widen (by omega) (by omega)
  refine ⟨{ st with gTopics := g₅, gNTopics := UInt32.ofNat (topics.length + 1) }, ?_, rfl, ?_⟩
  · simp only [newTopic, held.counter, signed_ofNat topics.length (by omega),
      slot_ofNat topics.length (by omega), head, tail, rdi_eq, ecx_eq, stosq, named, printed,
      counted, ofNat_succ, Option.bind_eq_bind, Option.bind_some]
    rw [if_neg (by omega), if_pos (by omega)]
  · constructor
    · simp only [List.length_append, List.length_singleton]
      omega
    · simp only [List.length_append, List.length_singleton]
    · intro i b at_i
      rcases getElem?_concat_cases topics _ b i at_i with old | ⟨rfl, rfl⟩
      · have inside : i < topics.length := (List.getElem?_eq_some_iff.mp old).1
        exact (held.slots i b old).keep kept (by omega)
      · constructor
        · apply kept₅ _ _ name
          simp only [List.length_append, List.length_singleton]
          omega
        · exact free
        · exact short
        · exact count
        · simp
        · intro j a hj
          simp at hj

end SportsPubSub.Udp.AsmBroker
