import SportsPubSub.Lib.BoundedMultimap
import SportsPubSub.Udp.Broker

/-!
# Routing of the UDP broker as a function of the history

The abstract broker is a capacity-limited multimap from topics to addresses.
One datagram is one insertion or nothing; hence the table after any history is
the closed form over the valid subscriptions of that history, and a publication
reaches exactly the addresses which that closed form lists.
-/
namespace SportsPubSub.Udp.Routing
open Lib.Posix Lib.Reactive Lib.BoundedMultimap Protocol Broker

/-- The table as a multimap; buckets and entries correspond one to one. -/
def view (topics : Topics) : List (Bytes × List SockaddrIn) :=
  topics.map fun b => (b.topic, b.subs)

@[simp] theorem view_nil : view [] = [] := rfl

@[simp] theorem length_view (topics : Topics) : (view topics).length = topics.length := by
  simp [view]

theorem view_set (topics : Topics) (i : Nat) (b : TopicBucket) :
    view (topics.set i b) = (view topics).set i (b.topic, b.subs) := by
  simp [view, List.map_set]

theorem stripTrailingCrlf_eq (s : Bytes) : stripTrailingCrlf s = s.rdropWhile isCrlf := by
  rw [stripTrailingCrlf, take_scanEnd isCrlf s s.length (Nat.le_refl _), List.take_length]

theorem sockaddrInEqual_iff (a b : SockaddrIn) : sockaddrInEqual a b = true ↔ a = b := by
  cases a
  cases b
  simp [sockaddrInEqual, and_assoc]

theorem any_sockaddrInEqual (subs : List SockaddrIn) (addr : SockaddrIn) :
    subs.any (fun s => sockaddrInEqual s addr) = true ↔ addr ∈ subs := by
  simp only [List.any_eq_true, sockaddrInEqual_iff]
  constructor
  · rintro ⟨s, mem, rfl⟩
    exact mem
  · intro mem
    exact ⟨addr, mem, rfl⟩

/-- A successful lookup returns a slot that holds the topic. -/
theorem findTopicIndex_some (topics : Topics) (topic : Bytes) (i : Nat)
    (h : findTopicIndex topics topic = some i) :
    ∃ hi : i < topics.length, topics[i].topic = topic := by
  rw [findTopicIndex, List.findIdx?_eq_some_iff_getElem] at h
  obtain ⟨hi, hc, -⟩ := h
  exact ⟨hi, (strcmpEq_iff _ _).mp hc⟩

theorem findTopicIndex_none (topics : Topics) (topic : Bytes) :
    findTopicIndex topics topic = none ↔ topic ∉ keys (view topics) := by
  simp only [findTopicIndex, List.findIdx?_eq_none_iff, keys, view, List.map_map, List.mem_map,
    Function.comp_apply, not_exists, not_and]
  constructor
  · intro h b mem heq
    have := h b mem
    simp [strcmpEq, heq] at this
  · intro h b mem
    simpa [strcmpEq] using h b mem

/-- Registering an address in slot `i` is the bounded insertion into that slot. -/
theorem view_addSubscriber (topics : Topics) (i : Nat) (hi : i < topics.length)
    (addr : SockaddrIn) :
    view (addSubscriberToTopic topics i addr).1 =
      (view topics).set i
        (topics[i].topic, addBounded pubsubUdpMaxSubsPerTopic topics[i].subs addr) := by
  have unchanged : (view topics).set i (topics[i].topic, topics[i].subs) = view topics := by
    rw [← view_set topics i topics[i], List.set_getElem_self]
  unfold addSubscriberToTopic addBounded
  simp only [List.getElem?_eq_getElem hi, any_sockaddrInEqual]
  split
  · exact unchanged.symm
  · split
    · next full => rw [if_neg (Nat.not_lt.mpr full), unchanged]
    · next room => rw [if_pos (Nat.lt_of_not_ge room), view_set]

/-- The registration part of `handle_subscribe`: the table it leaves behind. -/
def register (topics : Topics) (topic : Bytes) (client : SockaddrIn) : Topics :=
  match ensureTopicIndex topics topic with
  | (topics, none) => topics
  | (topics, some ti) => (addSubscriberToTopic topics ti client).1

/-- The nested lookups of the source implement multimap insertion. -/
theorem view_register (topics : Topics) (topic : Bytes) (client : SockaddrIn)
    (unique : (keys (view topics)).Nodup) (short : topic.length ≤ pubsubUdpMaxTopicLen) :
    view (register topics topic client) =
      insertBounded pubsubUdpMaxTopics pubsubUdpMaxSubsPerTopic (view topics) topic client := by
  unfold register ensureTopicIndex insertBounded
  cases found : findTopicIndex topics topic with
  | some i =>
    obtain ⟨hi, rfl⟩ := findTopicIndex_some topics topic i found
    have known : topics[i].topic ∈ keys (view topics) := by
      by_contra absent
      rw [(findTopicIndex_none _ _).mpr absent] at found
      cases found
    have hv : i < (view topics).length := by simpa using hi
    have update := map_update_eq_set (view topics) unique i hv
      (fun e => (e.1, addBounded pubsubUdpMaxSubsPerTopic e.2 client))
    have slot : (view topics)[i] = (topics[i].topic, topics[i].subs) := by simp [view]
    rw [slot] at update
    rw [if_pos known, update]
    exact view_addSubscriber topics i hi client
  | none =>
    have absent := (findTopicIndex_none topics topic).mp found
    simp only [if_neg absent, addTopicBucket, length_view]
    by_cases full : topics.length ≥ pubsubUdpMaxTopics
    · simp [full, Nat.not_lt.mpr full]
    · have room : topics.length < pubsubUdpMaxTopics := Nat.lt_of_not_ge full
      have stored : (snprintf (pubsubUdpMaxTopicLen + 1) topic).1 = topic := by
        rw [snprintf_fits _ _ (by omega)]
      have hi : topics.length < (topics ++ [⟨topic, []⟩] : Topics).length := by simp
      simp only [if_neg full, if_pos room, stored]
      rw [view_addSubscriber _ _ hi]
      simp [view]

/-- `handle_subscribe` registers exactly the nonempty, space-free, short topics. -/
theorem handleSubscribe_table (net : Nat → Bool) (topics : Topics) (payload : Bytes)
    (client : SockaddrIn) :
    (handleSubscribe net topics payload client).1 =
      let topic := payload.rdropWhile isCrlf
      if topic ≠ [] ∧ charSpace ∉ topic ∧ topic.length ≤ pubsubUdpMaxTopicLen then
        register topics topic client
      else topics := by
  unfold handleSubscribe register
  simp only [stripTrailingCrlf_eq]
  generalize payload.rdropWhile isCrlf = topic
  by_cases hempty : topic = []
  · simp [hempty]
  · by_cases hspace : charSpace ∈ topic
    · have found : (strchr topic charSpace).isSome := by
        rw [Option.isSome_iff_ne_none]
        exact fun h => (strchr_none_iff _ _).mp h hspace
      simp [hempty, hspace, found]
    · have notFound : strchr topic charSpace = none := (strchr_none_iff _ _).mpr hspace
      by_cases hlong : topic.length > pubsubUdpMaxTopicLen
      · simp [hempty, notFound, hlong, Nat.not_le.mpr hlong]
      · simp only [hempty, notFound, hlong, hspace, if_false, Option.isSome_none,
          Bool.false_eq_true, ne_eq, not_false_eq_true, true_and, Nat.not_lt.mp hlong, if_true]
        rcases ensureTopicIndex topics topic with ⟨next, _ | ti⟩
        · rfl
        · dsimp only
          split <;> rfl

/-- One datagram is one insertion of its subscription, or nothing. -/
theorem broker_table (topics : Topics) (arrival : Arrival) :
    (broker topics arrival).1 =
      match subTopic arrival.datagram with
      | some topic => register topics topic arrival.client
      | none => topics := by
  unfold broker subTopic
  by_cases hempty : arrival.datagram = []
  · simp [hempty, text, pubsubUdpPrefixSub, ascii]
  · simp only [hempty, if_false, strncmpEq_length]
    rw [length_pubsubUdpPrefixSub]
    by_cases hsub : (text arrival.datagram).take 4 = pubsubUdpPrefixSub
    · rw [if_pos hsub, handleSubscribe_table]
      simp only [hsub, true_and]
      split <;> rfl
    · simp only [hsub, if_false, false_and]
      split <;> rfl

/-- The subscriptions that a history makes, malformed datagrams left out. -/
def subscriptions (history : List Arrival) : List (Bytes × SockaddrIn) :=
  history.filterMap fun a => (subTopic a.datagram).map fun topic => (topic, a.client)

theorem subscriptions_append (history more : List Arrival) :
    subscriptions (history ++ more) = subscriptions history ++ subscriptions more := by
  simp [subscriptions]

/-- The table described by a sequence of subscriptions. -/
abbrev table (subs : List (Bytes × SockaddrIn)) : List (Bytes × List SockaddrIn) :=
  closedForm pubsubUdpMaxTopics pubsubUdpMaxSubsPerTopic subs

theorem nodup_keys_table (subs : List (Bytes × SockaddrIn)) : (keys (table subs)).Nodup := by
  rw [keys_closedForm]
  exact nodup_firstDistinct _ _

/-- The refinement step: a datagram extends the closed form by its subscription. -/
theorem broker_refines (topics : Topics) (subs : List (Bytes × SockaddrIn)) (arrival : Arrival)
    (h : view topics = table subs) :
    view (broker topics arrival).1 = table (subs ++ subscriptions [arrival]) := by
  rw [broker_table]
  cases parsed : subTopic arrival.datagram with
  | none => simpa [subscriptions, parsed] using h
  | some topic =>
    have short := (subTopic_some _ _ parsed).2.2
    have unique : (keys (view topics)).Nodup := by
      rw [h]
      exact nodup_keys_table subs
    have tail : subscriptions [arrival] = [(topic, arrival.client)] := by
      simp [subscriptions, parsed]
    rw [view_register topics topic arrival.client unique short, h, tail]
    exact insertBounded_closedForm _ _ subs topic arrival.client

/-- The table after any history, from any table that is already described. -/
theorem run_refines (history : List Arrival) (topics : Topics)
    (subs : List (Bytes × SockaddrIn)) (h : view topics = table subs) :
    view (runFrom broker topics history) = table (subs ++ subscriptions history) := by
  induction history generalizing topics subs with
  | nil => simpa [subscriptions] using h
  | cons arrival rest ih =>
    rw [runFrom_cons, ih _ _ (broker_refines topics subs arrival h), List.append_assoc,
      ← subscriptions_append]
    rfl

theorem run_table (history : List Arrival) :
    view (runFrom broker [] history) = table (subscriptions history) := by
  simpa using run_refines history [] [] (by simp [closedForm])

/-- The addresses that a publication on `topic` must reach after a history. -/
def recipients (history : List Arrival) (topic : Bytes) : List SockaddrIn :=
  if topic ∈ firstDistinct pubsubUdpMaxTopics ((subscriptions history).map Prod.fst) then
    firstDistinct pubsubUdpMaxSubsPerTopic (offered (subscriptions history) topic)
  else []

theorem valuesAt_run (history : List Arrival) (topic : Bytes) :
    valuesAt (view (runFrom broker [] history)) topic = recipients history topic := by
  rw [run_table, valuesAt_closedForm, recipients]
  by_cases admitted :
      topic ∈ firstDistinct pubsubUdpMaxTopics ((subscriptions history).map Prod.fst)
  · rw [if_pos admitted, if_pos admitted]
  · rw [if_neg admitted, if_neg admitted]

@[simp] theorem datagramsSent_append (a b : List Effect) :
    datagramsSent (a ++ b) = datagramsSent a ++ datagramsSent b := by
  simp [datagramsSent]

@[simp] theorem datagramsSent_log (line : Diagnostic) : datagramsSent [.log line] = [] := rfl

/-- Whatever `sendto` answers, one call of `send_datagram` is recorded. -/
@[simp] theorem datagramsSent_sendDatagram (ok : Bool) (text : Bytes) (dest : SockaddrIn) :
    datagramsSent (sendDatagram ok text dest).2 = [(text, dest)] := by
  unfold sendDatagram
  split
  · rfl
  · split <;> rfl

theorem datagramsSent_forwardLoop (net : Nat → Bool) (out : Bytes) (i : Nat)
    (subs : List SockaddrIn) :
    datagramsSent (forwardLoop net out i subs).2 = subs.map fun dest => (out, dest) := by
  induction subs generalizing i with
  | nil => rfl
  | cons dest rest ih =>
    simp [forwardLoop, ih]

/-- The bucket that `handle_publish` iterates over holds the topic's values. -/
theorem bucket_eq_valuesAt (topics : Topics) (topic : Bytes) :
    ((findTopicIndex topics topic).bind fun i => (topics[i]?).map fun b => b.subs).getD [] =
      valuesAt (view topics) topic := by
  induction topics with
  | nil => rfl
  | cons b rest ih =>
    by_cases h : b.topic = topic
    · simp [findTopicIndex, valuesAt, view, strcmpEq, h, List.findIdx?_cons]
    · rw [show valuesAt (view (b :: rest)) topic = valuesAt (view rest) topic by
        simp [valuesAt, view, h], ← ih]
      have differ : strcmpEq b.topic topic = false := by simpa [strcmpEq] using h
      simp only [findTopicIndex, List.findIdx?_cons, differ, Bool.false_eq_true, if_false]
      cases List.findIdx? (fun b => strcmpEq b.topic topic) rest <;> simp

/-- What `handle_publish` hands to `send_datagram` once the text is split: the
NEWS text for every value of the topic, or nothing when it overflows `out`. -/
theorem handlePublish_sent (net : Nat → Bool) (topics : Topics) (payload topic body : Bytes)
    (split : payload.rdropWhile isCrlf = topic ++ charBar :: body) (bar : charBar ∉ topic)
    (nonempty : topic ≠ []) :
    datagramsSent (handlePublish net topics payload) =
      if (newsText topic body).length < pubsubUdpMaxMsg then
        (valuesAt (view topics) topic).map fun dest => (newsText topic body, dest)
      else [] := by
  have sep := strchr_append topic body charBar bar
  have htopic : (topic ++ charBar :: body).take topic.length = topic := by simp
  have hbody : (topic ++ charBar :: body).drop (topic.length + 1) = body := by
    rw [← List.drop_drop]
    simp
  rw [← bucket_eq_valuesAt]
  unfold handlePublish
  simp only [stripTrailingCrlf_eq, split, sep, htopic, hbody, if_neg nonempty]
  cases findTopicIndex topics topic with
  | none => simp
  | some i =>
    by_cases fits : (newsText topic body).length < pubsubUdpMaxMsg
    · rw [snprintf_fits _ _ fits]
      simp [fits, Nat.not_le.mpr fits, datagramsSent_forwardLoop]
    · simp [snprintf, fits, Nat.not_lt.mp fits]

/-- A datagram that begins with `PUB ` goes to `handle_publish`. -/
theorem broker_pub (topics : Topics) (arrival : Arrival) (payload : Bytes)
    (hpub : text arrival.datagram = pubsubUdpPrefixPub ++ payload) :
    broker topics arrival = (topics, handlePublish arrival.net topics payload) := by
  have hempty : arrival.datagram ≠ [] := by
    intro h
    simp [h, text, pubsubUdpPrefixPub, ascii] at hpub
  have notSub : (pubsubUdpPrefixPub ++ payload).take 4 ≠ pubsubUdpPrefixSub := by
    rw [List.take_left' (by simp)]
    decide
  have isPub : (pubsubUdpPrefixPub ++ payload).take 4 = pubsubUdpPrefixPub :=
    List.take_left' (by simp)
  unfold broker
  simp only [hempty, if_false, hpub, strncmpEq_length]
  rw [length_pubsubUdpPrefixSub, length_pubsubUdpPrefixPub, if_neg notSub, if_pos isPub,
    List.drop_left' (by simp)]

/-- The reaction to a publication, over the table in which it arrives. -/
theorem broker_publish (topics : Topics) (arrival : Arrival) (topic body : Bytes)
    (parsed : PubText arrival.datagram topic body) :
    datagramsSent (broker topics arrival).2 =
      if (newsText topic body).length < pubsubUdpMaxMsg then
        (valuesAt (view topics) topic).map fun dest => (newsText topic body, dest)
      else [] := by
  obtain ⟨payload, hpub, split, bar, nonempty⟩ := parsed
  rw [broker_pub topics arrival payload hpub]
  exact handlePublish_sent arrival.net topics payload topic body split bar nonempty

/-- Routing over whole histories: a publication is handed to `send_datagram`
exactly once for each recipient named by the history, in order of first
subscription, and for nobody else, whatever the `sendto` calls answer. -/
theorem routing_exact (history : List Arrival) (publication : Arrival) (topic body : Bytes)
    (parsed : PubText publication.datagram topic body)
    (fits : (newsText topic body).length < pubsubUdpMaxMsg) :
    datagramsSent (broker (runFrom broker [] history) publication).2 =
        (recipients history topic).map (fun dest => (newsText topic body, dest)) ∧
      (recipients history topic).Nodup := by
  constructor
  · rw [broker_publish _ publication topic body parsed, if_pos fits, valuesAt_run]
  · rw [← valuesAt_run, run_table]
    exact nodup_valuesAt _ _ _ _

/-- A subscription and a publication on the wire. -/
def sampleSub : Arrival :=
  ⟨⟨afInet, 0x0100007F, 7000⟩, ascii "SUB A_vs_B\n", by decide, fun _ => true⟩

def samplePub : Arrival :=
  ⟨⟨afInet, 0x0100007F, 7001⟩, ascii "PUB A_vs_B|GOL|1-0\r\n", by decide, fun _ => false⟩

theorem samplePub_text : PubText samplePub.datagram (ascii "A_vs_B") (ascii "GOL|1-0") :=
  ⟨ascii "A_vs_B|GOL|1-0\r\n", by decide, by decide, by decide, by decide⟩

theorem routing_exact_sample :
    datagramsSent (broker (runFrom broker [] [sampleSub]) samplePub).2 =
        (recipients [sampleSub] (ascii "A_vs_B")).map
          (fun dest => (newsText (ascii "A_vs_B") (ascii "GOL|1-0"), dest)) ∧
      (recipients [sampleSub] (ascii "A_vs_B")).Nodup :=
  routing_exact [sampleSub] samplePub _ _ samplePub_text (by decide)

end SportsPubSub.Udp.Routing
