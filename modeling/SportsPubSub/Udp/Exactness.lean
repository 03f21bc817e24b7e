import SportsPubSub.Udp.Provenance

/-!
# What a subscriber displays when nothing is lost

`expectedLines` says, from the datagrams that reached the broker and nothing else,
which lines the program at an address has to print, whoever sent those datagrams and
whatever they contain. With a channel from the broker that keeps everything once and
in order, broker and subscriber together print exactly these lines.
-/
namespace SportsPubSub.Udp.Exactness
open Lib.Posix Lib.Reactive Lib.BoundedMultimap
open Protocol Broker Routing Subscription Publication Subscriber Provenance

/-- Topic and body of a publication, `none` when the datagram is none. -/
def pubParts (datagram : Bytes) : Option (Bytes × Bytes) :=
  let payload := ((text datagram).drop 4).rdropWhile isCrlf
  if (text datagram).take 4 = pubsubUdpPrefixPub then
    match strchr payload charBar with
    | none => none
    | some 0 => none
    | some (k + 1) => some (payload.take (k + 1), payload.drop (k + 2))
  else none

theorem pubText_of_pubParts (datagram topic body : Bytes)
    (h : pubParts datagram = some (topic, body)) : PubText datagram topic body := by
  simp only [pubParts] at h
  split at h
  · next isPub =>
    split at h
    · cases h
    · cases h
    · next k found =>
      simp only [Option.some.injEq, Prod.mk.injEq] at h
      obtain ⟨rfl, rfl⟩ := h
      refine ⟨(text datagram).drop 4, ?_, ?_, ?_, ?_⟩
      · rw [← isPub, List.take_append_drop]
      · obtain ⟨inside, here, -⟩ := List.findIdx?_eq_some_iff_getElem.mp found
        simp only [beq_iff_eq] at here
        rw [← here, ← List.drop_eq_getElem_cons inside, List.take_append_drop]
      · intro bar
        obtain ⟨inside, -, before⟩ := List.findIdx?_eq_some_iff_getElem.mp found
        obtain ⟨j, hj, same⟩ := List.mem_iff_getElem.mp bar
        have early : j < k + 1 := by
          rw [List.length_take] at hj
          omega
        have other := before j early
        rw [List.getElem_take] at same
        simp [same] at other
      · obtain ⟨inside, -, -⟩ := List.findIdx?_eq_some_iff_getElem.mp found
        intro empty
        have len := congrArg List.length empty
        rw [List.length_take, List.length_nil] at len
        omega
  · cases h

/-- `handle_subscribe` on a valid topic answers when the topic has a slot. -/
theorem handleSubscribe_exact (net : Nat → Bool) (topics : Topics) (payload topic : Bytes)
    (client : SockaddrIn) (named : payload.rdropWhile isCrlf = topic) (nonempty : topic ≠ [])
    (token : charSpace ∉ topic) (short : topic.length ≤ pubsubUdpMaxTopicLen) :
    datagramsSent (handleSubscribe net topics payload client).2 =
      if (ensureTopicIndex topics topic).2.isSome then [(subOkText topic, client)] else [] := by
  have noSpace : strchr topic charSpace = none := (strchr_none_iff _ _).mpr token
  have fits : (subOkText topic).length < pubsubUdpMaxMsg := by
    rw [length_subOkText]
    simp only [pubsubUdpMaxTopicLen, pubsubUdpMaxMsg] at short ⊢
    omega
  unfold handleSubscribe
  simp only [stripTrailingCrlf_eq, named, if_neg nonempty, noSpace, Option.isSome_none,
    Bool.false_eq_true, if_false, gt_iff_lt, Nat.not_lt.mpr short]
  rcases ensureTopicIndex topics topic with ⟨next, _ | ti⟩
  · rfl
  · obtain ⟨warnings, logged, -⟩ := Registry.addSubscriber_warnings next ti client
    simp only [snprintf_fits _ _ fits, ge_iff_le, Nat.not_le.mpr fits, if_false, logged,
      datagramsSent_append, Registry.datagramsSent_logs, datagramsSent_sendDatagram,
      datagramsSent_log, Option.isSome_some, if_true]
    rfl

/-- A topic without a slot is not in the table. -/
theorem ensured_iff (topics : Topics) (topic : Bytes) (client : SockaddrIn)
    (short : topic.length ≤ pubsubUdpMaxTopicLen) :
    (ensureTopicIndex topics topic).2.isSome = true ↔
      topic ∈ keys (view (register topics topic client)) := by
  cases ensured : ensureTopicIndex topics topic with
  | mk next ti =>
    cases ti with
    | some i =>
      have stored := ensureTopicIndex_some topics next topic i client short ensured
      simp [stored]
    | none =>
      have same := Registry.ensureTopicIndex_none topics next topic ensured
      have absent : topic ∉ keys (view topics) := by
        rw [← findTopicIndex_none]
        unfold ensureTopicIndex at ensured
        split at ensured
        · cases ensured
        · next missing => exact missing
      have table : register topics topic client = topics := by
        rw [register, ensured]
        exact same
      simp [table, absent]

/-- A valid subscription is answered exactly when its topic is in the table then. -/
theorem sent_subscription (topics : Topics) (arrival : Arrival) (topic : Bytes)
    (parsed : subTopic arrival.datagram = some topic) :
    datagramsSent (broker topics arrival).2 =
      if topic ∈ keys (view (broker topics arrival).1) then [(subOkText topic, arrival.client)]
      else [] := by
  have table := broker_table topics arrival
  rw [parsed] at table
  obtain ⟨nonempty, token, short⟩ := subTopic_some _ _ parsed
  obtain ⟨isSub, named⟩ : (text arrival.datagram).take 4 = pubsubUdpPrefixSub ∧
      ((text arrival.datagram).drop 4).rdropWhile isCrlf = topic := by
    simp only [subTopic, Option.ite_none_right_eq_some, Option.some.injEq] at parsed
    exact ⟨parsed.1.1, parsed.2⟩
  have full : arrival.datagram ≠ [] := by
    intro empty
    rw [empty] at isSub
    exact absurd isSub (by decide)
  have reached : broker topics arrival = handleSubscribe arrival.net topics
      ((text arrival.datagram).drop 4) arrival.client := by
    unfold broker
    simp only [if_neg full, strncmpEq_length]
    rw [length_pubsubUdpPrefixSub, if_pos isSub]
  rw [table, reached,
    handleSubscribe_exact _ topics _ topic _ named nonempty token short]
  simp only [ensured_iff topics topic arrival.client short]

/-- A datagram that is neither makes the broker send nothing. -/
theorem sent_nothing (topics : Topics) (arrival : Arrival)
    (noSub : subTopic arrival.datagram = none) (noPub : pubParts arrival.datagram = none) :
    datagramsSent (broker topics arrival).2 = [] := by
  by_cases isPub : (text arrival.datagram).take 4 = pubsubUdpPrefixPub
  · have payload : text arrival.datagram =
        pubsubUdpPrefixPub ++ (text arrival.datagram).drop 4 := by
      rw [← isPub, List.take_append_drop]
    rw [broker_pub topics arrival _ payload]
    simp only [pubParts, if_pos isPub] at noPub
    simp only [handlePublish, stripTrailingCrlf_eq]
    split at noPub
    · next found =>
      rw [found]
      rfl
    · next found =>
      rw [found]
      rfl
    · cases noPub
  · have reaction := Registry.broker_reaction topics arrival
    generalize (broker topics arrival).1 = next at reaction
    generalize (broker topics arrival).2 = effects at reaction
    cases reaction with
    | dropped lines quiet long => simp
    | confirmed topic next warnings extremos parsed kept full =>
      rw [noSub] at parsed
      cases parsed
    | forwarded i b body sent prefixed slot short =>
      have first := List.prefix_iff_eq_take.mp prefixed
      rw [Protocol.length_pubsubUdpPrefixPub] at first
      exact absurd first.symm isPub

/-- The lines that a publication arriving at the broker after `before` means for the
program at `me`. -/
def expectedStory (me brokerAddr : SockaddrIn) (before : List Arrival) (datagram : Bytes) :
    List Line :=
  match pubParts datagram with
  | some (topic, body) =>
      if (newsText topic body).length < pubsubUdpMaxMsg ∧ me ∈ recipients before topic then
        [.noticiaEnVivo topic brokerAddr (body ++ [charLf])]
      else []
  | none => []

/-- The same for any datagram. -/
def expectedLine (me brokerAddr : SockaddrIn) (before : List Arrival) (arrival : Arrival) :
    List Line :=
  (subTopic arrival.datagram).elim (expectedStory me brokerAddr before arrival.datagram)
    fun topic =>
      if (keys (table (subscriptions (before ++ [arrival])))).contains topic ∧
          arrival.client = me then
        [.suscripcionOk brokerAddr (printedName topic)]
      else []

/-- The lines for a whole history, `before` having arrived already. -/
def expectedLines (me brokerAddr : SockaddrIn) : List Arrival → List Arrival → List Line
  | _, [] => []
  | before, arrival :: rest =>
      expectedLine me brokerAddr before arrival ++
        expectedLines me brokerAddr (before ++ [arrival]) rest

/-- The datagrams for one address, each from the broker's. -/
def readBy (me brokerAddr : SockaddrIn) (sent : List (Bytes × SockaddrIn)) :
    List (SockaddrIn × Bytes) :=
  (sent.filter fun x => x.2 = me).map fun x => (brokerAddr, x.1)

theorem readBy_append (me brokerAddr : SockaddrIn) (xs ys : List (Bytes × SockaddrIn)) :
    readBy me brokerAddr (xs ++ ys) = readBy me brokerAddr xs ++ readBy me brokerAddr ys := by
  simp [readBy]

theorem text_nul_free (datagram : Bytes) : 0 ∉ text datagram :=
  fun nul => mem_text_ne_zero _ _ nul rfl

theorem subTopic_nul_free (datagram topic : Bytes) (parsed : subTopic datagram = some topic) :
    0 ∉ topic := by
  simp only [subTopic, Option.ite_none_right_eq_some, Option.some.injEq] at parsed
  obtain ⟨-, rfl⟩ := parsed
  intro nul
  exact text_nul_free datagram (List.mem_of_mem_drop ((List.rdropWhile_prefix _ _).subset nul))

theorem pubText_nul_free (datagram topic body : Bytes) (parsed : PubText datagram topic body) :
    0 ∉ topic ∧ 0 ∉ body := by
  obtain ⟨payload, whole, split, -, -⟩ := parsed
  have free : 0 ∉ topic ++ charBar :: body := by
    rw [← split]
    intro nul
    apply text_nul_free datagram
    rw [whole]
    exact List.mem_append_right _ ((List.rdropWhile_prefix _ _).subset nul)
  simp only [List.mem_append, List.mem_cons, not_or] at free
  exact ⟨free.1, free.2.2⟩

/-- Reading one accepted datagram prints what its text says. -/
theorem read_one (brokerAddr : SockaddrIn) (buf : Buffer) (datagram : Bytes) (lines : List Line)
    (ipv4 : brokerAddr.sinFamily = afInet) (fits : datagram.length ≤ pubsubUdpMaxMsg)
    (shown : dispatch (text datagram) brokerAddr = lines) :
    outputsFrom (subscriber brokerAddr) buf [(brokerAddr, datagram)] = lines := by
  have accepted : udpFromBroker brokerAddr brokerAddr = true := by
    simp [udpFromBroker, ipv4]
  rw [outputsFrom_cons, outputsFrom_nil, List.append_nil,
    subscriber_lines _ _ buf _ fits accepted, shown]

/-- One reaction of the broker, read by the program at `me`. -/
theorem reaction_read (me brokerAddr : SockaddrIn) (ipv4 : brokerAddr.sinFamily = afInet)
    (before : List Arrival) (arrival : Arrival) (buf : Buffer) :
    outputsFrom (subscriber brokerAddr) buf (readBy me brokerAddr
        (datagramsSent (broker (runFrom broker [] before) arrival).2)) =
      expectedLine me brokerAddr before arrival := by
  unfold expectedLine
  cases isSub : subTopic arrival.datagram with
  | some topic =>
    have next : (broker (runFrom broker [] before) arrival).1 =
        runFrom broker [] (before ++ [arrival]) := by
      rw [runFrom_append]
      rfl
    rw [sent_subscription _ arrival topic isSub, next, run_table, Option.elim_some]
    simp only [List.contains_iff_mem]
    by_cases stored : topic ∈ keys (table (subscriptions (before ++ [arrival])))
    · by_cases mine : arrival.client = me
      · have fits : (subOkText topic).length ≤ pubsubUdpMaxMsg := by
          have short := (subTopic_some _ _ isSub).2.2
          rw [length_subOkText, pubsubUdpMaxMsg]
          simp only [pubsubUdpMaxTopicLen] at short
          omega
        have mine' : readBy me brokerAddr [(subOkText topic, arrival.client)] =
            [(brokerAddr, subOkText topic)] := by simp [readBy, mine]
        simp only [if_pos stored, if_pos (And.intro stored mine), mine']
        exact read_one brokerAddr buf _ _ ipv4 fits
          (subOkText_lines topic (subTopic_nul_free _ _ isSub) brokerAddr)
      · have other : readBy me brokerAddr [(subOkText topic, arrival.client)] = [] := by
          simp [readBy, mine]
        simp only [if_pos stored, mine, and_false, if_false, other]
        rfl
    · simp only [stored, false_and, if_false]
      rfl
  | none =>
    rw [Option.elim_none, expectedStory]
    cases isPub : pubParts arrival.datagram with
    | none =>
      rw [sent_nothing _ arrival isSub isPub]
      rfl
    | some parts =>
      obtain ⟨topic, body⟩ := parts
      have parsed := pubText_of_pubParts _ _ _ isPub
      obtain ⟨ht, hb⟩ := pubText_nul_free _ _ _ parsed
      obtain ⟨-, -, -, bar, -⟩ := id parsed
      rw [broker_publish _ arrival topic body parsed, valuesAt_run]
      by_cases fits : (newsText topic body).length < pubsubUdpMaxMsg
      · have unique : (recipients before topic).Nodup := by
          rw [← valuesAt_run]
          exact ((onlyAppended [] before).2 topic).2
        have mine : readBy me brokerAddr
            ((recipients before topic).map fun dest => (newsText topic body, dest)) =
            if me ∈ recipients before topic then [(brokerAddr, newsText topic body)] else [] := by
          by_cases mem : me ∈ recipients before topic
          · rw [readBy, List.filter_map, if_pos mem]
            simp only [Function.comp_def]
            rw [List.filter_eq, List.count_eq_one_of_mem unique mem]
            rfl
          · rw [readBy, List.filter_map, if_neg mem]
            simp only [Function.comp_def]
            rw [List.filter_eq, List.count_eq_zero_of_not_mem mem]
            rfl
        rw [if_pos fits, mine]
        by_cases mem : me ∈ recipients before topic
        · have short : topic.length ≤ pubsubUdpMaxTopicLen := by
            rw [← valuesAt_run] at mem
            exact (TopicNames.bucket_name before topic me mem).short
          simp only [if_pos mem, if_pos (And.intro fits mem)]
          exact read_one brokerAddr buf _ _ ipv4 fits.le (newsText_lines topic body ht hb bar short _)
        · simp only [mem, and_false, if_false]
          rfl
      · simp only [fits, false_and, if_false]
        rfl

/-- Broker and subscriber together. Any datagrams from anywhere reach the broker; the
program at `me` reads everything that the broker hands over for it, once and in order,
and prints the expected lines, no more and no less. -/
theorem display_exact (me : SockaddrIn) (ip : UInt32) (port : UInt16) (history : List Arrival)
    (buf : Buffer) :
    outputsFrom (subscriber ⟨afInet, ip, port⟩) buf
        (readBy me ⟨afInet, ip, port⟩ (datagramsSent (outputsFrom broker [] history))) =
      expectedLines me ⟨afInet, ip, port⟩ [] history := by
  generalize origin : (⟨afInet, ip, port⟩ : SockaddrIn) = brokerAddr
  have ipv4 : brokerAddr.sinFamily = afInet := by rw [← origin]
  suffices all : ∀ before rest buf, outputsFrom (subscriber brokerAddr) buf
      (readBy me brokerAddr (datagramsSent (outputsFrom broker (runFrom broker [] before) rest))) =
      expectedLines me brokerAddr before rest from all [] history buf
  intro before rest
  induction rest generalizing before with
  | nil =>
    intro buf
    rfl
  | cons arrival rest ih =>
    intro buf
    have next : (broker (runFrom broker [] before) arrival).1 =
        runFrom broker [] (before ++ [arrival]) := by
      rw [runFrom_append]
      rfl
    rw [outputsFrom_cons, datagramsSent_append, readBy_append, outputsFrom_append, next,
      ih (before ++ [arrival]), reaction_read me brokerAddr ipv4]
    rfl

end SportsPubSub.Udp.Exactness
