import SportsPubSub.Udp.Publication

/-!
# The topic table and what one datagram does to it

Every datagram leaves the table as it is, appends one address to one bucket, or
appends one bucket with one address. The invariant of the table, the atomicity of
a subscription and the range of all array accesses follow from these three cases.
-/
namespace SportsPubSub.Udp.Registry
open Lib.Posix Lib.Reactive Lib.BoundedMultimap
open Protocol Broker Routing Subscription Publication

/-- One subscription was added: to the bucket of its topic, or in a new bucket
behind all others. -/
inductive Registered (topics : Topics) (topic : Bytes) (client : SockaddrIn) : Topics → Prop
  | known (i : Nat) (b : TopicBucket) (slot : topics[i]? = some b) (name : b.topic = topic)
      (first : ∀ j b', j < i → topics[j]? = some b' → b'.topic ≠ topic) (fresh : client ∉ b.subs)
      (room : b.subs.length < pubsubUdpMaxSubsPerTopic) :
      Registered topics topic client (topics.set i { b with subs := b.subs ++ [client] })
  | new (absent : topic ∉ keys (view topics)) (room : topics.length < pubsubUdpMaxTopics) :
      Registered topics topic client (topics ++ [⟨topic, [client]⟩])

/-- A lookup returns the first slot that holds the topic. -/
theorem findTopicIndex_slot (topics : Topics) (topic : Bytes) (i : Nat)
    (h : findTopicIndex topics topic = some i) :
    ∃ b, topics[i]? = some b ∧ b.topic = topic ∧
      ∀ j b', j < i → topics[j]? = some b' → b'.topic ≠ topic := by
  rw [findTopicIndex, List.findIdx?_eq_some_iff_getElem] at h
  obtain ⟨hi, here, before⟩ := h
  refine ⟨topics[i], List.getElem?_eq_getElem hi, (strcmpEq_iff _ _).mp here, ?_⟩
  intro j b' earlier slot same
  obtain ⟨hj, rfl⟩ := List.getElem?_eq_some_iff.mp slot
  exact before j earlier ((strcmpEq_iff _ _).mpr same)

/-- What `add_subscriber_to_topic` does to the bucket it is given. -/
theorem addSubscriber_cases (topics : Topics) (i : Nat) (b : TopicBucket) (addr : SockaddrIn)
    (slot : topics[i]? = some b) :
    (addSubscriberToTopic topics i addr).1 = topics ∨
      (addr ∉ b.subs ∧ b.subs.length < pubsubUdpMaxSubsPerTopic ∧
        (addSubscriberToTopic topics i addr).1 =
          topics.set i { b with subs := b.subs ++ [addr] }) := by
  simp only [addSubscriberToTopic, slot]
  split
  · exact .inl rfl
  · next absent =>
    rw [any_sockaddrInEqual] at absent
    split
    · exact .inl rfl
    · next room => exact .inr ⟨absent, Nat.lt_of_not_ge room, rfl⟩

/-- The registration of a subscription is one of the two, or nothing. -/
theorem register_cases (topics : Topics) (topic : Bytes) (client : SockaddrIn)
    (short : topic.length ≤ pubsubUdpMaxTopicLen) :
    register topics topic client = topics ∨
      Registered topics topic client (register topics topic client) := by
  unfold register ensureTopicIndex
  cases found : findTopicIndex topics topic with
  | some i =>
    obtain ⟨b, slot, name, first⟩ := findTopicIndex_slot topics topic i found
    rcases addSubscriber_cases topics i b client slot with same | ⟨fresh, room, added⟩
    · exact .inl same
    · right
      dsimp only
      rw [added]
      exact .known i b slot name first fresh room
  | none =>
    have absent := (findTopicIndex_none topics topic).mp found
    by_cases full : topics.length ≥ pubsubUdpMaxTopics
    · simp [addTopicBucket, full]
    · have room : topics.length < pubsubUdpMaxTopics := Nat.lt_of_not_ge full
      have stored : (snprintf (pubsubUdpMaxTopicLen + 1) topic).1 = topic := by
        rw [snprintf_fits _ _ (by omega)]
      -- the new bucket is empty, so its first address always finds room
      have added : (addSubscriberToTopic (topics ++ [⟨topic, []⟩]) topics.length client).1 =
          topics ++ [⟨topic, [client]⟩] := by
        simp [addSubscriberToTopic, pubsubUdpMaxSubsPerTopic]
      simp only [addTopicBucket, if_neg full, stored, added]
      exact .inr (.new absent room)

/-- What one datagram does to the table. -/
theorem broker_cases (topics : Topics) (arrival : Arrival) :
    (broker topics arrival).1 = topics ∨ ∃ topic, subTopic arrival.datagram = some topic ∧
      Registered topics topic arrival.client (broker topics arrival).1 := by
  rw [broker_table]
  cases parsed : subTopic arrival.datagram with
  | none => exact .inl rfl
  | some topic =>
    have short := (subTopic_some _ _ parsed).2.2
    rcases register_cases topics topic arrival.client short with same | added
    · exact .inl same
    · exact .inr ⟨topic, rfl, added⟩

/-- A name that a bucket may have. -/
structure TopicName (topic : Bytes) : Prop where
  nonempty : topic ≠ []
  short : topic.length ≤ pubsubUdpMaxTopicLen
  nulFree : 0 ∉ topic
  token : charSpace ∉ topic
  stripped : endsInCrlf topic = false

theorem topicName_of_subTopic (datagram topic : Bytes) (parsed : subTopic datagram = some topic) :
    TopicName topic := by
  obtain ⟨nonempty, token, short⟩ := subTopic_some datagram topic parsed
  simp only [subTopic, Option.ite_none_right_eq_some, Option.some.injEq] at parsed
  obtain ⟨-, rfl⟩ := parsed
  refine ⟨nonempty, short, ?_, token, ?_⟩
  · intro nul
    have inText := List.mem_of_mem_drop ((List.rdropWhile_prefix _ _).subset nul)
    exact mem_text_ne_zero _ _ inText rfl
  · rw [endsInCrlf, List.getLast?_eq_some_getLast nonempty, Option.any_some]
    exact Bool.eq_false_iff.mpr (List.rdropWhile_last_not isCrlf _ nonempty)

/-- The representation invariant of `g_topics` and `g_n_topics`. -/
structure TableInv (topics : Topics) : Prop where
  bounded : topics.length ≤ pubsubUdpMaxTopics
  distinct : (keys (view topics)).Nodup
  names : ∀ b ∈ topics, TopicName b.topic
  sizes : ∀ b ∈ topics, 1 ≤ b.subs.length ∧ b.subs.length ≤ pubsubUdpMaxSubsPerTopic
  endpoints : ∀ b ∈ topics, b.subs.Pairwise fun x y => sockaddrInEqual x y = false

theorem sockaddrInEqual_false (a b : SockaddrIn) : sockaddrInEqual a b = false ↔ a ≠ b := by
  rw [← Bool.not_eq_true, sockaddrInEqual_iff]

/-- An appended address keeps a bucket within its bounds. -/
theorem bucket_append (subs : List SockaddrIn) (client : SockaddrIn) (fresh : client ∉ subs)
    (old : subs.Pairwise fun x y => sockaddrInEqual x y = false) :
    (subs ++ [client]).Pairwise fun x y => sockaddrInEqual x y = false := by
  refine List.pairwise_append.mpr ⟨old, List.pairwise_singleton _ _, ?_⟩
  intro x hx y hy
  rw [sockaddrInEqual_false, List.mem_singleton.mp hy]
  rintro rfl
  exact fresh hx

theorem tableInv_registered (topics next : Topics) (topic : Bytes) (client : SockaddrIn)
    (inv : TableInv topics) (name : TopicName topic)
    (added : Registered topics topic client next) : TableInv next := by
  cases added with
  | known i b slot same first fresh room =>
    have mem : b ∈ topics := List.mem_of_getElem? slot
    have bounds := inv.sizes b mem
    have names : keys (view (topics.set i { b with subs := b.subs ++ [client] })) =
        keys (view topics) := by
      have inside : i < (keys (view topics)).length := by
        simpa [keys] using (List.getElem?_eq_some_iff.mp slot).1
      have here : (keys (view topics))[i] = b.topic := by
        have := (List.getElem?_eq_some_iff.mp slot).2
        simp [keys, view, this]
      rw [view_set, keys, List.map_set, ← keys, ← here, List.set_getElem_self]
    constructor
    · rw [List.length_set]
      exact inv.bounded
    · rw [names]
      exact inv.distinct
    · intro b' hb'
      rcases List.mem_or_eq_of_mem_set hb' with old | rfl
      · exact inv.names b' old
      · exact inv.names b mem
    · intro b' hb'
      rcases List.mem_or_eq_of_mem_set hb' with old | rfl
      · exact inv.sizes b' old
      · simp only [List.length_append, List.length_singleton]
        omega
    · intro b' hb'
      rcases List.mem_or_eq_of_mem_set hb' with old | rfl
      · exact inv.endpoints b' old
      · exact bucket_append b.subs client fresh (inv.endpoints b mem)
  | new absent room =>
    constructor
    · simp only [List.length_append, List.length_singleton]
      omega
    · have names : keys (view (topics ++ [⟨topic, [client]⟩])) = keys (view topics) ++ [topic] := by
        simp [keys, view]
      rw [names, List.nodup_append]
      refine ⟨inv.distinct, List.nodup_singleton _, ?_⟩
      rintro t ht t' ht' rfl
      exact absent (List.mem_singleton.mp ht' ▸ ht)
    · intro b hb
      rcases List.mem_append.mp hb with old | here
      · exact inv.names b old
      · rw [List.mem_singleton.mp here]
        exact name
    · intro b hb
      rcases List.mem_append.mp hb with old | here
      · exact inv.sizes b old
      · rw [List.mem_singleton.mp here]
        simp [pubsubUdpMaxSubsPerTopic]
    · intro b hb
      rcases List.mem_append.mp hb with old | here
      · exact inv.endpoints b old
      · rw [List.mem_singleton.mp here]
        exact List.pairwise_singleton _ _

theorem tableInv_broker (topics : Topics) (arrival : Arrival) (inv : TableInv topics) :
    TableInv (broker topics arrival).1 := by
  rcases broker_cases topics arrival with same | ⟨topic, parsed, added⟩
  · rw [same]
    exact inv
  · exact tableInv_registered topics _ topic arrival.client inv
      (topicName_of_subTopic _ _ parsed) added

theorem tableInv_run (history : List Arrival) : TableInv (runFrom broker [] history) :=
  runFrom_invariant broker TableInv tableInv_broker [] history
    ⟨by decide, List.nodup_nil, fun b hb => (by cases hb), fun b hb => (by cases hb),
      fun b hb => (by cases hb)⟩

/-- The calls of `sendto`, in order. -/
def sendtos (effects : List Effect) : List (Bytes × SockaddrIn) :=
  effects.filterMap fun e => match e with
    | .sendto text dest => some (text, dest)
    | _ => none

@[simp] theorem sendtos_append (a b : List Effect) : sendtos (a ++ b) = sendtos a ++ sendtos b := by
  simp [sendtos]

@[simp] theorem sendtos_logs (lines : List Diagnostic) : sendtos (lines.map .log) = [] := by
  simp [sendtos, List.filterMap_map]

@[simp] theorem sendtos_log (line : Diagnostic) : sendtos [.log line] = [] := rfl

@[simp] theorem datagramsSent_logs (lines : List Diagnostic) :
    datagramsSent (lines.map .log) = [] := by
  simp [datagramsSent, List.filterMap_map]

/-- The lines that say a text did not fit. -/
def overflows (effects : List Effect) : Bool :=
  effects.any fun e => e = .log .mensajeDemasiadoLargo || e = .log .respuestaDemasiadoLarga

@[simp] theorem overflows_append (a b : List Effect) :
    overflows (a ++ b) = (overflows a || overflows b) := List.any_append

/-- A text within the limit is passed on to `sendto`. -/
theorem sendDatagram_short (ok : Bool) (text : Bytes) (dest : SockaddrIn)
    (short : text.length ≤ pubsubUdpMaxMsg) :
    sendtos (sendDatagram ok text dest).2 = [(text, dest)] ∧
      overflows (sendDatagram ok text dest).2 = false := by
  unfold sendDatagram
  rw [if_neg (Nat.not_lt.mpr short)]
  cases ok with
  | true => exact ⟨rfl, by simp [overflows]⟩
  | false => exact ⟨rfl, by simp [overflows]⟩

theorem forwardLoop_short (net : Nat → Bool) (out : Bytes) (i : Nat) (subs : List SockaddrIn)
    (short : out.length ≤ pubsubUdpMaxMsg) :
    sendtos (forwardLoop net out i subs).2 = subs.map (fun dest => (out, dest)) ∧
      overflows (forwardLoop net out i subs).2 = false := by
  induction subs generalizing i with
  | nil => exact ⟨rfl, rfl⟩
  | cons dest rest ih =>
    obtain ⟨here, quiet⟩ := sendDatagram_short (net i) out dest short
    obtain ⟨later, still⟩ := ih (i + 1)
    simp only [forwardLoop, sendtos_append, overflows_append, here, later, quiet, still]
    exact ⟨rfl, rfl⟩

/-- What one datagram can make the broker do. -/
inductive Reaction (topics : Topics) (arrival : Arrival) : Topics → List Effect → Prop
  | dropped (lines : List Diagnostic) (quiet : overflows (lines.map .log) = false)
      (long : .newsDemasiadoLargo ∈ lines →
        pubsubUdpMaxMsg ≤ (text arrival.datagram).length + 2) :
      Reaction topics arrival topics (lines.map .log)
  | confirmed (topic : Bytes) (next : Topics) (warnings : List Diagnostic) (extremos : Nat)
      (parsed : subTopic arrival.datagram = some topic)
      (kept : next = topics ∨ Registered topics topic arrival.client next)
      (full : ∀ w ∈ warnings, ∃ t, w = .maximoDeExtremos t) :
      Reaction topics arrival next
        (warnings.map .log ++ (sendDatagram (arrival.net 0) (subOkText topic) arrival.client).2 ++
          [.log (.suscripcionRegistrada topic arrival.client extremos)])
  | forwarded (i : Nat) (b : TopicBucket) (body : Bytes) (sent : Nat)
      (isPub : pubsubUdpPrefixPub <+: text arrival.datagram) (slot : topics[i]? = some b)
      (short : (newsText b.topic body).length < pubsubUdpMaxMsg) :
      Reaction topics arrival topics
        ((forwardLoop arrival.net (newsText b.topic body) 0 b.subs).2 ++
          [.log (.pubReenviado b.topic sent)])

/-- One refusal line, and nothing else. -/
theorem Reaction.refused (topics : Topics) (arrival : Arrival) (line : Diagnostic)
    (quiet : overflows [.log line] = false) (other : .newsDemasiadoLargo ≠ line) :
    Reaction topics arrival topics [.log line] :=
  .dropped [line] quiet fun mem => absurd (List.mem_singleton.mp mem) other

theorem addSubscriber_warnings (topics : Topics) (i : Nat) (addr : SockaddrIn) :
    ∃ lines : List Diagnostic, (addSubscriberToTopic topics i addr).2 = lines.map .log ∧
      ∀ w ∈ lines, ∃ t, w = .maximoDeExtremos t := by
  unfold addSubscriberToTopic
  split
  · exact ⟨[], rfl, by simp⟩
  · next b _ =>
    split
    · exact ⟨[], rfl, by simp⟩
    · split
      · exact ⟨[.maximoDeExtremos b.topic], rfl, by simp⟩
      · exact ⟨[], rfl, by simp⟩

/-- Without a free slot the table stays as it is. -/
theorem ensureTopicIndex_none (topics next : Topics) (topic : Bytes)
    (h : ensureTopicIndex topics topic = (next, none)) : next = topics := by
  unfold ensureTopicIndex addTopicBucket at h
  split at h
  · cases h
  · split at h
    · cases h
      rfl
    · cases h

/-- The exits of `handle_subscribe`: the answer always fits its buffer. -/
theorem handleSubscribe_reaction (topics : Topics) (arrival : Arrival) (payload : Bytes)
    (isSub : text arrival.datagram = pubsubUdpPrefixSub ++ payload) :
    Reaction topics arrival
      (handleSubscribe arrival.net topics payload arrival.client).1
      (handleSubscribe arrival.net topics payload arrival.client).2 := by
  have parsed : ∀ topic, payload.rdropWhile isCrlf = topic → topic ≠ [] → charSpace ∉ topic →
      topic.length ≤ pubsubUdpMaxTopicLen → subTopic arrival.datagram = some topic := by
    rintro topic rfl nonempty token short
    simp only [subTopic, isSub]
    rw [List.drop_left' (by simp), List.take_left' (by simp)]
    exact if_pos ⟨rfl, nonempty, token, short⟩
  unfold handleSubscribe
  simp only [stripTrailingCrlf_eq]
  generalize payload.rdropWhile isCrlf = topic at parsed
  by_cases empty : topic = []
  · simp only [empty, if_true]
    exact .refused topics arrival .subSinTema (by decide) (by decide)
  · by_cases space : (strchr topic charSpace).isSome
    · simp only [empty, space, if_true, if_false]
      exact .refused topics arrival (.temaConEspacios topic) (by simp [overflows]) (by simp)
    · have token : charSpace ∉ topic := (strchr_none_iff _ _).mp (by simpa using space)
      by_cases long : topic.length > pubsubUdpMaxTopicLen
      · simp only [empty, space, long, if_true, if_false, Bool.false_eq_true]
        exact .refused topics arrival (.temaDemasiadoLargo pubsubUdpMaxTopicLen) (by decide)
          (by decide)
      · have short := Nat.not_lt.mp long
        have kept := register_cases topics topic arrival.client short
        have fits : (subOkText topic).length < pubsubUdpMaxMsg := by
          rw [length_subOkText]
          simp only [pubsubUdpMaxTopicLen, pubsubUdpMaxMsg] at short ⊢
          omega
        simp only [empty, space, long, if_false, Bool.false_eq_true]
        unfold register at kept
        rcases ensured : ensureTopicIndex topics topic with ⟨next, _ | ti⟩
        · obtain rfl := ensureTopicIndex_none topics next topic ensured
          exact .refused next arrival .tablaLlena (by decide) (by decide)
        · rw [ensured] at kept
          obtain ⟨warnings, logged, full⟩ := addSubscriber_warnings next ti arrival.client
          simp only [snprintf_fits _ _ fits, ge_iff_le, Nat.not_le.mpr fits, if_false, logged]
          exact .confirmed topic _ warnings _ (parsed topic rfl empty token short) kept full

/-- The exits of `handle_publish`: the answer is two bytes longer than the datagram. -/
theorem handlePublish_reaction (topics : Topics) (arrival : Arrival) (payload : Bytes)
    (isPub : text arrival.datagram = pubsubUdpPrefixPub ++ payload) :
    Reaction topics arrival topics (handlePublish arrival.net topics payload) := by
  have stripped : (stripTrailingCrlf payload).length ≤ payload.length := List.length_take_le' _ _
  have size : (text arrival.datagram).length = payload.length + 4 := by
    rw [isPub, List.length_append, length_pubsubUdpPrefixPub, Nat.add_comm]
  unfold handlePublish
  dsimp only
  split
  · exact .refused topics arrival .pubSinSeparador (by decide) (by decide)
  · next sep bar =>
    have inside := (List.findIdx?_eq_some_iff_getElem.mp bar).1
    split
    · exact .refused topics arrival .pubTemaVacio (by decide) (by decide)
    · split
      · exact .refused topics arrival (.pubSinExtremos _) (by simp [overflows]) (by simp)
      · next ti found =>
        split
        · next full =>
          refine .dropped [.newsDemasiadoLargo] (by decide) fun _ => ?_
          simp only [snprintf, length_newsText, List.length_take, List.length_drop] at full
          omega
        · next room =>
          obtain ⟨b, slot, name, -⟩ := findTopicIndex_slot topics _ ti found
          have short := Nat.lt_of_not_ge room
          simp only [snprintf] at short
          rw [snprintf_fits _ _ short, ← name] at *
          simp only [slot, Option.map_some, Option.getD_some]
          exact .forwarded ti b _ _ ⟨payload, isPub.symm⟩ slot short

/-- One pass of the loop is one of the reactions. -/
theorem broker_reaction (topics : Topics) (arrival : Arrival) :
    Reaction topics arrival (broker topics arrival).1 (broker topics arrival).2 := by
  unfold broker
  split
  · exact .dropped [] rfl fun mem => by cases mem
  · dsimp only
    split
    · next isSub =>
      rw [strncmpEq_length] at isSub
      exact handleSubscribe_reaction topics arrival _
        ((List.prefix_iff_eq_append.mp (isSub ▸ List.take_prefix _ _)).symm)
    · split
      · next isPub =>
        rw [strncmpEq_length] at isPub
        exact handlePublish_reaction topics arrival _
          ((List.prefix_iff_eq_append.mp (isPub ▸ List.take_prefix _ _)).symm)
      · exact .refused topics arrival (.noReconocido _) (by simp [overflows]) (by simp)

/-- The array accesses of `handle_subscribe` and `handle_publish` stay inside
`g_topics` and inside the `subs` of a bucket. -/
structure IndicesInRange (topics : Topics) : Prop where
  unique : ∀ (i : Nat) (b : TopicBucket), topics[i]? = some b →
    findTopicIndex topics b.topic = some i
  found : ∀ topic i, findTopicIndex topics topic = some i → i < topics.length
  ensured : ∀ topic next i, ensureTopicIndex topics topic = (next, some i) →
    i < next.length ∧ next.length ≤ pubsubUdpMaxTopics
  appended : ∀ (i : Nat) (b : TopicBucket) (addr : SockaddrIn), topics[i]? = some b →
    (addSubscriberToTopic topics i addr).1 ≠ topics → b.subs.length < pubsubUdpMaxSubsPerTopic

theorem TableInv.indices {topics : Topics} (inv : TableInv topics) : IndicesInRange topics where
  unique := by
    intro i b slot
    cases found : findTopicIndex topics b.topic with
    | none =>
      have absent := (findTopicIndex_none topics b.topic).mp found
      exact absurd (List.mem_map_of_mem (List.mem_map_of_mem (List.mem_of_getElem? slot))) absent
    | some j =>
      obtain ⟨b', slot', same, -⟩ := findTopicIndex_slot topics b.topic j found
      have inside := (List.getElem?_eq_some_iff.mp slot).1
      have inside' := (List.getElem?_eq_some_iff.mp slot').1
      have key : ∀ (k : Nat) (c : TopicBucket), topics[k]? = some c →
          (keys (view topics))[k]? = some c.topic := by
        intro k c here
        simp [keys, view, here]
      have equal : j = i := (List.getElem?_inj (by simpa [keys] using inside') inv.distinct).mp
        ((key j b' slot').trans ((congrArg some same).trans (key i b slot).symm))
      rw [equal]
  found := fun topic i found => (findTopicIndex_some topics topic i found).1
  ensured := by
    intro topic next i ensured
    unfold ensureTopicIndex at ensured
    split at ensured
    · next found =>
      cases ensured
      exact ⟨(findTopicIndex_some topics topic i found).1, inv.bounded⟩
    · unfold addTopicBucket at ensured
      split at ensured
      · cases ensured
      · next room =>
        cases ensured
        simp only [List.length_append, List.length_singleton]
        omega
  appended := by
    intro i b addr slot changed
    rcases addSubscriber_cases topics i b addr slot with same | ⟨-, room, -⟩
    · exact absurd same changed
    · exact room

/-- One datagram makes at most as many sends as a bucket has places. -/
theorem Reaction.sends_le {topics next : Topics} {arrival : Arrival} {effects : List Effect}
    (inv : TableInv topics) (reaction : Reaction topics arrival next effects) :
    (datagramsSent effects).length ≤ pubsubUdpMaxSubsPerTopic := by
  cases reaction with
  | dropped lines quiet long => simp
  | confirmed topic next warnings extremos parsed kept full => simp [pubsubUdpMaxSubsPerTopic]
  | forwarded i b body sent isPub slot short =>
    simp only [datagramsSent_append, datagramsSent_forwardLoop, datagramsSent_log,
      List.append_nil, List.length_map]
    exact (inv.sizes b (List.mem_of_getElem? slot)).2

/-- Every text handed to `send_datagram` is within its limit and goes to `sendto`. -/
theorem Reaction.sent {topics next : Topics} {arrival : Arrival} {effects : List Effect}
    (reaction : Reaction topics arrival next effects) :
    sendtos effects = datagramsSent effects ∧ overflows effects = false := by
  cases reaction with
  | dropped lines quiet long => exact ⟨by simp, quiet⟩
  | confirmed topic next warnings extremos parsed kept full =>
    have fits : (subOkText topic).length ≤ pubsubUdpMaxMsg := by
      have short := (subTopic_some _ _ parsed).2.2
      rw [length_subOkText]
      simp only [pubsubUdpMaxTopicLen, pubsubUdpMaxMsg] at short ⊢
      omega
    obtain ⟨here, still⟩ :=
      sendDatagram_short (arrival.net 0) (subOkText topic) arrival.client fits
    have quiet : overflows (warnings.map .log) = false := by
      rw [overflows, List.any_map, List.any_eq_false]
      intro w warning
      obtain ⟨t, rfl⟩ := full w warning
      simp
    simp only [sendtos_append, sendtos_logs, here, sendtos_log, datagramsSent_append,
      datagramsSent_logs, datagramsSent_sendDatagram, datagramsSent_log, overflows_append, quiet,
      still]
    exact ⟨trivial, by simp [overflows]⟩
  | forwarded i b body sent isPub slot short =>
    obtain ⟨here, still⟩ := forwardLoop_short arrival.net _ 0 b.subs short.le
    simp only [sendtos_append, here, sendtos_log, datagramsSent_append, datagramsSent_forwardLoop,
      datagramsSent_log, overflows_append, still]
    exact ⟨trivial, by simp [overflows]⟩

/-- The representation invariant in every reachable state, with the accesses and
the number of sends that follow from it. -/
theorem table_invariant (history : List Arrival) :
    let topics := runFrom broker [] history
    TableInv topics ∧ IndicesInRange topics ∧
      ∀ arrival, (sendtos (broker topics arrival).2).length ≤ pubsubUdpMaxSubsPerTopic ∧
        (datagramsSent (broker topics arrival).2).length ≤ pubsubUdpMaxSubsPerTopic := by
  intro topics
  have inv := tableInv_run history
  refine ⟨inv, inv.indices, ?_⟩
  intro arrival
  have reaction := broker_reaction topics arrival
  have bound := reaction.sends_le inv
  rw [reaction.sent.1]
  exact ⟨bound, bound⟩

theorem overflows_false (effects : List Effect) (quiet : overflows effects = false) :
    .log .mensajeDemasiadoLargo ∉ effects ∧ .log .respuestaDemasiadoLarga ∉ effects := by
  constructor
  · intro mem
    have no := List.any_eq_false.mp quiet _ mem
    simp at no
  · intro mem
    have no := List.any_eq_false.mp quiet _ mem
    simp at no

/-- A datagram that is not answered with `OK SUB` leaves the table as it is. One that
changes the table adds its source under one topic, and is answered once, to its
source. No answer is too long for its buffer, and only `SUB ` datagrams change the
table. -/
theorem datagram_atomic (history : List Arrival) (arrival : Arrival) :
    let topics := runFrom broker [] history
    let next := (broker topics arrival).1
    let effects := (broker topics arrival).2
    ((∀ topic dest, (subOkText topic, dest) ∉ datagramsSent effects) → next = topics) ∧
      (next ≠ topics → ∃ topic, Registered topics topic arrival.client next ∧
        datagramsSent effects = [(subOkText topic, arrival.client)]) ∧
      .log .respuestaDemasiadoLarga ∉ effects ∧
      (¬ pubsubUdpPrefixSub <+: text arrival.datagram → next = topics) := by
  intro topics next effects
  have reaction : Reaction topics arrival next effects := broker_reaction topics arrival
  have quiet := (overflows_false effects reaction.sent.2).2
  clear_value next effects
  cases reaction with
  | dropped lines silent long =>
    exact ⟨fun _ => rfl, fun changed => absurd rfl changed, quiet, fun _ => rfl⟩
  | forwarded i b body sent isPub slot short =>
    exact ⟨fun _ => rfl, fun changed => absurd rfl changed, quiet, fun _ => rfl⟩
  | confirmed topic next' warnings extremos parsed kept full =>
    have answer : datagramsSent (warnings.map .log ++
        (sendDatagram (arrival.net 0) (subOkText topic) arrival.client).2 ++
          [.log (.suscripcionRegistrada topic arrival.client extremos)]) =
        [(subOkText topic, arrival.client)] := by simp
    refine ⟨?_, ?_, quiet, ?_⟩
    · intro unanswered
      refine absurd ?_ (unanswered topic arrival.client)
      rw [answer]
      exact List.mem_singleton_self _
    · intro changed
      rcases kept with same | added
      · exact absurd same changed
      · exact ⟨topic, added, answer⟩
    · intro other
      simp only [subTopic, Option.ite_none_right_eq_some] at parsed
      exact absurd (parsed.1.1 ▸ List.take_prefix _ _) other

end SportsPubSub.Udp.Registry
