import SportsPubSub.Udp.Registry

/-!
# The topic as subscriber and publisher name it

Both programs check the topic argument, and neither check is the broker's: it
ignores an empty topic and strips the line end of a `SUB` payload, which is the
topic, while in a `PUB` payload the topic comes before the separator and is left
as it is.
-/
namespace SportsPubSub.Udp.TopicNames
open Lib.Posix Lib.Reactive Lib.BoundedMultimap
open Protocol Broker Routing Subscription Publisher Subscriber Publication Registry

theorem text_subText (topic : Bytes) (ht : 0 ∉ topic) :
    text (subText topic) = pubsubUdpPrefixSub ++ (topic ++ [charLf]) := by
  have chars : 0 ∉ subText topic := by
    simp only [subText, List.mem_append, ht, or_false, not_or]
    decide
  rw [text_of_nul_free _ chars, subText, List.append_assoc]

theorem rdropWhile_of_stripped (s : Bytes) (stripped : endsInCrlf s = false) :
    s.rdropWhile isCrlf = s := by
  rcases List.eq_nil_or_concat s with rfl | ⟨init, last, rfl⟩
  · rfl
  · have kept : isCrlf last = false := by simpa [endsInCrlf] using stripped
    rw [List.concat_eq_append]
    exact List.rdropWhile_concat_neg _ _ _ (by simp [kept])

/-- The topic that the broker reads off a `SUB`. -/
theorem subTopic_subText (topic : Bytes) (ht : 0 ∉ topic) (nonempty : topic ≠ [])
    (token : charSpace ∉ topic) (short : topic.length ≤ pubsubUdpMaxTopicLen)
    (stripped : endsInCrlf topic = false) : subTopic (subText topic) = some topic := by
  have name : (topic ++ [charLf]).rdropWhile isCrlf = topic := by
    rw [List.rdropWhile_concat_pos _ _ _ (by decide), rdropWhile_of_stripped topic stripped]
  simp only [subTopic, text_subText topic ht]
  rw [List.drop_left' (by simp), List.take_left' (by simp), name]
  exact if_pos ⟨rfl, nonempty, token, short⟩

/-- With a free slot and no bucket full, the source of a subscription is registered. -/
theorem subscribed_stored (history : List Arrival) (sub : Arrival) (topic : Bytes)
    (parsed : subTopic sub.datagram = some topic)
    (free : (runFrom broker [] history).length < pubsubUdpMaxTopics)
    (room : (bucket (runFrom broker [] history) topic).length < pubsubUdpMaxSubsPerTopic) :
    sub.client ∈ bucket (runFrom broker [] (history ++ [sub])) topic := by
  have tail : subscriptions [sub] = [(topic, sub.client)] := by simp [subscriptions, parsed]
  rw [bucket, run_table] at room
  rw [← length_view, run_table] at free
  rw [bucket, run_table, subscriptions_append, tail]
  exact insert_stored _ _ _ topic sub.client free room

/-- Only proper names have subscribers. -/
theorem bucket_name (history : List Arrival) (topic : Bytes) (a : SockaddrIn)
    (mem : a ∈ bucket (runFrom broker [] history) topic) : TopicName topic := by
  obtain ⟨arrival, -, parsed⟩ := stored_topic history topic (mem_keys_of_mem_valuesAt _ _ a mem)
  exact topicName_of_subTopic _ _ parsed

/-- A topic that both programs accept. Whatever the broker handles after a subscription,
a publication on it reaches the subscriber exactly when the topic is not empty, does not
end in a line end, and the NEWS text fits the broker's buffer. -/
theorem topic_agreement (history rest : List Arrival) (topic body : Bytes) (sub pub : Arrival)
    (ht : 0 ∉ topic) (hb : 0 ∉ body) (ends : endsInCrlf body = false)
    (subscriberAccepts : checkArgv topic = .ok ()) (publisherAccepts : checkTopic topic = .ok ())
    (free : (runFrom broker [] history).length < pubsubUdpMaxTopics)
    (room : ∀ t, (bucket (runFrom broker [] history) t).length < pubsubUdpMaxSubsPerTopic)
    (subscribed : sendSub topic = .ok sub.datagram)
    (published : buildPubDatagram sendPubBuf topic body = .ok pub.datagram) :
    (newsText topic body, sub.client) ∈
        datagramsSent (broker (runFrom broker [] (history ++ sub :: rest)) pub).2 ↔
      topic ≠ [] ∧ endsInCrlf topic = false ∧ (newsText topic body).length < pubsubUdpMaxMsg := by
  obtain ⟨token, bar, short⟩ := checkTopic_ok topic publisherAccepts
  have named : sub.datagram = subText topic := by
    rw [sendSub_accepted topic subscriberAccepts] at subscribed
    exact (Except.ok.inj subscribed).symm
  have built : pub.datagram = pubText topic body := by
    unfold buildPubDatagram at published
    dsimp only at published
    split at published
    · cases published
    · next fits =>
      simp only [snprintf] at fits
      rw [snprintf_fits _ _ (Nat.lt_of_not_ge fits)] at published
      exact (Except.ok.inj published).symm
  have sent := broker_pubText_sent (history ++ sub :: rest) pub topic body ht hb ends built
  rw [publishedTopic_of_no_bar topic bar] at sent
  rw [sent]
  constructor
  · intro reached
    split at reached
    · next fits =>
      obtain ⟨a, mem, -⟩ := List.mem_map.mp reached
      have name := bucket_name (history ++ sub :: rest) topic a mem
      exact ⟨name.nonempty, name.stripped, fits⟩
    · cases reached
  · rintro ⟨nonempty, stripped, fits⟩
    rw [if_pos fits]
    have parsed : subTopic sub.datagram = some topic := by
      rw [named]
      exact subTopic_subText topic ht nonempty token short stripped
    have stored := subscribed_stored history sub topic parsed free (room topic)
    have kept := stored_stays (history ++ [sub]) rest topic sub.client stored
    rw [List.append_assoc, List.singleton_append] at kept
    exact List.mem_map_of_mem kept

/-- Another subscriber of the topic comes between the subscription and the publication. -/
theorem topic_agreement_sample :
    (newsText (ascii "A_vs_B") (ascii "GOL"), sampleSub.client) ∈
      datagramsSent (broker (runFrom broker [] [sampleSub,
          ⟨⟨afInet, 0x0100007F, 7002⟩, subText (ascii "A_vs_B"), by decide, fun _ => true⟩])
        ⟨⟨afInet, 0x0100007F, 7001⟩, pubText (ascii "A_vs_B") (ascii "GOL"), by decide,
          fun _ => true⟩).2 :=
  (topic_agreement []
    [⟨⟨afInet, 0x0100007F, 7002⟩, subText (ascii "A_vs_B"), by decide, fun _ => true⟩]
    (ascii "A_vs_B") (ascii "GOL") sampleSub
    ⟨⟨afInet, 0x0100007F, 7001⟩, pubText (ascii "A_vs_B") (ascii "GOL"), by decide, fun _ => true⟩
    (by decide) (by decide) (by decide) (by decide) (by decide) (by decide)
    (fun _ => (by decide : 0 < pubsubUdpMaxSubsPerTopic)) (by decide) (by decide)).mpr
    ⟨by decide, by decide, by decide⟩

/-- A topic argument with a line end, as both programs send it. -/
def lineEndSub : Arrival :=
  ⟨⟨afInet, 0x0100007F, 7000⟩, subText (ascii "A\n"), by decide, fun _ => true⟩

def lineEndPub : Arrival :=
  ⟨⟨afInet, 0x0100007F, 7001⟩, pubText (ascii "A\n") (ascii "GOL"), by decide, fun _ => true⟩

/-- The subscription is confirmed, for another topic than the one published on. -/
theorem line_end_not_forwarded :
    checkArgv (ascii "A\n") = .ok () ∧ checkTopic (ascii "A\n") = .ok () ∧
      sendSub (ascii "A\n") = .ok lineEndSub.datagram ∧
      buildPubDatagram sendPubBuf (ascii "A\n") (ascii "GOL") = .ok lineEndPub.datagram ∧
      datagramsSent (broker [] lineEndSub).2 = [(subOkText (ascii "A"), lineEndSub.client)] ∧
      datagramsSent (broker (runFrom broker [] [lineEndSub]) lineEndPub).2 = [] := by
  decide

end SportsPubSub.Udp.TopicNames
