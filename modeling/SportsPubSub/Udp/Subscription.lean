import SportsPubSub.Udp.Routing

/-!
# What an `OK SUB` answer promises

The answer of `handle_subscribe` does not say whether the address was stored.
Both outcomes are permanent: a stored address is served by every later
publication, and an address refused by a full bucket is never served. The
permanence rests on the closed form: later datagrams only append.
-/
namespace SportsPubSub.Udp.Subscription
open Lib.Posix Lib.Reactive Lib.BoundedMultimap Protocol Broker Routing

/-- The bucket of a topic in a table, empty when there is none. -/
abbrev bucket (topics : Topics) (topic : Bytes) : List SockaddrIn := valuesAt (view topics) topic

/-- Every publication on the topic that fits is handed over for `a` exactly once. -/
def Served (topics : Topics) (topic : Bytes) (a : SockaddrIn) : Prop :=
  ∀ publication body, PubText publication.datagram topic body →
    (newsText topic body).length < pubsubUdpMaxMsg →
    (datagramsSent (broker topics publication).2).filter (fun sent => sent.2 = a) =
      [(newsText topic body, a)]

/-- No publication on the topic is handed over for `a`. -/
def Unserved (topics : Topics) (topic : Bytes) (a : SockaddrIn) : Prop :=
  a ∉ bucket topics topic ∧
    ∀ publication body, PubText publication.datagram topic body →
      ∀ text, (text, a) ∉ datagramsSent (broker topics publication).2

/-- Topics and addresses only get company behind them, and never a double. -/
def OnlyAppended (before after : Topics) : Prop :=
  keys (view before) <+: keys (view after) ∧
    ∀ topic, bucket before topic <+: bucket after topic ∧ (bucket after topic).Nodup

theorem view_injective (a b : Topics) (h : view a = view b) : a = b := by
  have recover : ∀ topics : Topics,
      (view topics).map (fun e => (⟨e.1, e.2⟩ : TopicBucket)) = topics := by
    intro topics
    simp [view, Function.comp_def]
  rw [← recover a, ← recover b, h]

/-- After registration the topic is in the table, unless the table was full. -/
theorem ensureTopicIndex_some (topics next : Topics) (topic : Bytes) (i : Nat)
    (client : SockaddrIn)
    (short : topic.length ≤ pubsubUdpMaxTopicLen)
    (h : ensureTopicIndex topics topic = (next, some i)) :
    topic ∈ keys (view (register topics topic client)) := by
  have slot : ∃ hi : i < next.length, next[i].topic = topic := by
    unfold ensureTopicIndex at h
    cases found : findTopicIndex topics topic with
    | some j =>
      simp only [found, Prod.mk.injEq, Option.some.injEq] at h
      obtain ⟨rfl, rfl⟩ := h
      exact findTopicIndex_some topics topic j found
    | none =>
      simp only [found, addTopicBucket] at h
      split at h
      · cases h
      · simp only [Prod.mk.injEq, Option.some.injEq] at h
        obtain ⟨rfl, rfl⟩ := h
        rw [snprintf_fits _ _ (by omega)]
        exact ⟨by simp, by simp⟩
  obtain ⟨hi, hslot⟩ := slot
  have entry : (topic, addBounded pubsubUdpMaxSubsPerTopic next[i].subs client) ∈
      view (register topics topic client) := by
    simp only [register, h]
    rw [view_addSubscriber next i hi, hslot]
    exact List.mem_set (by simpa using hi) _
  exact List.mem_map_of_mem entry

/-- The only texts that `handle_subscribe` hands to `send_datagram` are the
confirmation of a valid topic that is in the table afterwards. -/
theorem handleSubscribe_sent (net : Nat → Bool) (topics : Topics) (payload text : Bytes)
    (client dest : SockaddrIn)
    (h : (text, dest) ∈ datagramsSent (handleSubscribe net topics payload client).2) :
    let topic := payload.rdropWhile isCrlf
    (topic ≠ [] ∧ charSpace ∉ topic ∧ topic.length ≤ pubsubUdpMaxTopicLen) ∧
      text = subOkText topic ∧ dest = client ∧
      topic ∈ keys (view (register topics topic client)) := by
  unfold handleSubscribe at h
  simp only [stripTrailingCrlf_eq] at h
  generalize payload.rdropWhile isCrlf = topic at h ⊢
  split at h
  · simp at h
  next hempty =>
    split at h
    · simp at h
    next hspace =>
      split at h
      · simp at h
      next hlong =>
        have short := Nat.not_lt.mp hlong
        have noSpace : charSpace ∉ topic := by
          rw [← strchr_none_iff]
          simpa using hspace
        cases ensured : ensureTopicIndex topics topic with
        | mk next ti =>
          cases ti with
          | none => simp [ensured] at h
          | some i =>
            have small : (subOkText topic).length < pubsubUdpMaxMsg := by
              rw [length_subOkText]
              simp only [pubsubUdpMaxTopicLen, pubsubUdpMaxMsg] at short ⊢
              omega
            have warning : datagramsSent (addSubscriberToTopic next i client).2 = [] := by
              unfold addSubscriberToTopic
              split
              · rfl
              · split
                · rfl
                · split <;> rfl
            simp only [ensured, snprintf_fits _ _ small, ge_iff_le, Nat.not_le.mpr small, if_false,
              datagramsSent_append, warning, datagramsSent_sendDatagram, datagramsSent_log,
              List.nil_append, List.append_nil, List.mem_singleton, Prod.mk.injEq] at h
            exact ⟨⟨hempty, noSpace, short⟩, h.1, h.2,
              ensureTopicIndex_some topics next topic i client short ensured⟩

/-- NEWS texts are the only ones that `handle_publish` hands out. -/
theorem handlePublish_news (net : Nat → Bool) (topics : Topics) (payload text : Bytes)
    (dest : SockaddrIn) (h : (text, dest) ∈ datagramsSent (handlePublish net topics payload)) :
    ∃ topic body, text = newsText topic body := by
  unfold handlePublish at h
  cases hsep : strchr (stripTrailingCrlf payload) charBar with
  | none => simp [hsep] at h
  | some sep =>
    simp only [hsep] at h
    split at h
    · simp at h
    · split at h
      · simp at h
      · split at h
        · simp at h
        · next fits =>
          have short : (newsText ((stripTrailingCrlf payload).take sep)
              ((stripTrailingCrlf payload).drop (sep + 1))).length < pubsubUdpMaxMsg := by
            simpa [snprintf] using fits
          simp only [snprintf_fits _ _ short, datagramsSent_append, datagramsSent_forwardLoop,
            datagramsSent_log, List.append_nil, List.mem_map, Prod.mk.injEq] at h
          obtain ⟨_, _, rfl, _⟩ := h
          exact ⟨_, _, rfl⟩

/-- An `OK SUB` answer identifies the datagram that caused it. -/
theorem answered_subscription (topics : Topics) (arrival : Arrival) (topic : Bytes)
    (a : SockaddrIn) (h : (subOkText topic, a) ∈ datagramsSent (broker topics arrival).2) :
    subTopic arrival.datagram = some topic ∧ arrival.client = a ∧
      topic ∈ keys (view (broker topics arrival).1) := by
  have table := broker_table topics arrival
  unfold broker at h
  split at h
  · simp [datagramsSent] at h
  · simp only [strncmpEq_length] at h
    rw [length_pubsubUdpPrefixSub] at h
    split at h
    · next isSub =>
      obtain ⟨valid, same, dest, mem⟩ := handleSubscribe_sent _ _ _ _ _ _ h
      have named := subOkText_injective _ _ same
      have parsed : subTopic arrival.datagram = some topic := by
        unfold subTopic
        rw [if_pos ⟨isSub, valid⟩, ← named]
      rw [parsed] at table
      refine ⟨parsed, dest.symm, ?_⟩
      rw [table, named]
      exact mem
    · split at h
      · obtain ⟨_, _, news⟩ := handlePublish_news _ _ _ _ _ h
        exact absurd news (subOkText_ne_newsText _ _ _)
      · simp at h

theorem onlyAppended (history rest : List Arrival) :
    OnlyAppended (runFrom broker [] history) (runFrom broker (runFrom broker [] history) rest) := by
  rw [← runFrom_append]
  constructor
  · rw [run_table, run_table, subscriptions_append]
    exact keys_grow _ _ _ _
  · intro topic
    rw [bucket, bucket, run_table, run_table, subscriptions_append]
    exact ⟨valuesAt_grows _ _ _ _ _, nodup_valuesAt _ _ _ _⟩

/-- An address stays stored, whatever comes next. -/
theorem stored_stays (history rest : List Arrival) (topic : Bytes) (a : SockaddrIn)
    (stored : a ∈ bucket (runFrom broker [] history) topic) :
    a ∈ bucket (runFrom broker [] (history ++ rest)) topic := by
  rw [runFrom_append]
  exact ((onlyAppended history rest).2 topic).1.subset stored

theorem bucket_final (history rest : List Arrival) (topic : Bytes)
    (full : (bucket (runFrom broker [] history) topic).length = pubsubUdpMaxSubsPerTopic) :
    bucket (runFrom broker (runFrom broker [] history) rest) topic =
      bucket (runFrom broker [] history) topic := by
  rw [bucket, run_table] at full
  rw [← runFrom_append, bucket, bucket, run_table, run_table, subscriptions_append]
  exact valuesAt_of_full _ _ _ _ _ full

theorem served_of_mem (history : List Arrival) (topic : Bytes) (a : SockaddrIn)
    (mem : a ∈ bucket (runFrom broker [] history) topic) :
    Served (runFrom broker [] history) topic a := by
  intro publication body parsed fits
  have unique : (bucket (runFrom broker [] history) topic).Nodup :=
    ((onlyAppended [] history).2 topic).2
  have one : (bucket (runFrom broker [] history) topic).filter (fun dest => dest = a) = [a] := by
    rw [List.filter_eq, List.count_eq_one_of_mem unique mem]
    rfl
  rw [broker_publish _ _ topic body parsed, if_pos fits, List.filter_map]
  simp only [Function.comp_def]
  rw [one]
  rfl

theorem unserved_of_not_mem (topics : Topics) (topic : Bytes) (a : SockaddrIn)
    (absent : a ∉ bucket topics topic) : Unserved topics topic a := by
  refine ⟨absent, ?_⟩
  intro publication body parsed text sent
  rw [broker_publish _ _ topic body parsed] at sent
  split at sent
  · obtain ⟨dest, mem, eq⟩ := List.mem_map.mp sent
    exact absent ((Prod.mk.inj eq).2 ▸ mem)
  · simp at sent

/-- The promise. After `OK SUB t` to `a`, either `a` is stored and every later
publication that fits is handed to `send_datagram` for `a` exactly once, or the
bucket was full without `a`, nothing changed and `a` never receives `t`. In
both cases the table only ever grows at the end. -/
theorem okSub_promise (history : List Arrival) (arrival : Arrival) (topic : Bytes)
    (a : SockaddrIn)
    (answered : (subOkText topic, a) ∈
      datagramsSent (broker (runFrom broker [] history) arrival).2) :
    let before := runFrom broker [] history
    let after := (broker before arrival).1
    ((a ∈ bucket after topic ∧ ∀ rest, Served (runFrom broker after rest) topic a) ∨
      ((bucket before topic).length = pubsubUdpMaxSubsPerTopic ∧ a ∉ bucket before topic ∧
        after = before ∧ ∀ rest, Unserved (runFrom broker after rest) topic a)) ∧
    ∀ rest, OnlyAppended before (runFrom broker before rest) := by
  intro before after
  refine ⟨?_, onlyAppended history⟩
  obtain ⟨parsed, rfl, admitted⟩ := answered_subscription before arrival topic a answered
  have step : view after = table (subscriptions history ++ [(topic, arrival.client)]) := by
    have h := broker_refines before (subscriptions history) arrival (run_table history)
    simpa [subscriptions, parsed] using h
  have start : table (subscriptions history) = view before := (run_table history).symm
  have ahead : after = runFrom broker [] (history ++ [arrival]) := by
    rw [runFrom_append]
    rfl
  rw [show keys (view (broker before arrival).1) = keys (view after) from rfl, step] at admitted
  rcases insert_outcome _ pubsubUdpMaxSubsPerTopic (by decide) _ topic arrival.client admitted
    with stored | ⟨full, absent, same⟩
  · left
    have mem : arrival.client ∈ bucket after topic := by
      rw [bucket, step]
      exact stored
    refine ⟨mem, ?_⟩
    intro rest
    rw [ahead] at mem
    have kept := stored_stays (history ++ [arrival]) rest topic arrival.client mem
    rw [ahead, ← runFrom_append]
    exact served_of_mem _ topic arrival.client kept
  · right
    have unchanged : after = before := view_injective _ _ (by rw [step, ← start]; exact same)
    unfold table at start
    rw [start] at full absent
    refine ⟨full, absent, unchanged, ?_⟩
    intro rest
    apply unserved_of_not_mem
    rw [unchanged, bucket_final history rest topic full]
    exact absent

theorem okSub_promise_sample :
    let before := runFrom broker [] [sampleSub]
    let after := (broker before sampleSub).1
    ((sampleSub.client ∈ bucket after (ascii "A_vs_B") ∧
        ∀ rest, Served (runFrom broker after rest) (ascii "A_vs_B") sampleSub.client) ∨
      ((bucket before (ascii "A_vs_B")).length = pubsubUdpMaxSubsPerTopic ∧
        sampleSub.client ∉ bucket before (ascii "A_vs_B") ∧ after = before ∧
        ∀ rest, Unserved (runFrom broker after rest) (ascii "A_vs_B") sampleSub.client)) ∧
    ∀ rest, OnlyAppended before (runFrom broker before rest) :=
  okSub_promise [sampleSub] sampleSub (ascii "A_vs_B") sampleSub.client (by decide)

end SportsPubSub.Udp.Subscription
