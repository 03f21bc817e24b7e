import SportsPubSub.Udp.Publisher
import SportsPubSub.Udp.Subscriber
import SportsPubSub.Udp.Subscription

/-!
# What becomes of a published text

The publisher puts topic and body together, the broker strips the line end, splits
at the first separator and puts them together again, the subscriber splits once
more. For a topic without separator the text survives all of it. A topic with a
separator can be subscribed to and is confirmed, but a publication on it is taken
for one on the part before the separator.
-/
namespace SportsPubSub.Udp.Publication
open Lib.Posix Lib.Reactive Lib.BoundedMultimap
open Protocol Broker Routing Subscription Publisher Subscriber

def endsInCrlf (s : Bytes) : Bool := s.getLast?.any isCrlf

/-- The broker removes the line end that the publisher added, and nothing else. -/
theorem strip_payload (topic body : Bytes) (ends : endsInCrlf body = false) :
    (topic ++ charBar :: (body ++ [charLf])).rdropWhile isCrlf = topic ++ charBar :: body := by
  have shape : topic ++ charBar :: (body ++ [charLf]) = (topic ++ charBar :: body) ++ [charLf] := by
    simp
  rw [shape, List.rdropWhile_concat_pos _ _ _ (by decide)]
  rcases List.eq_nil_or_concat body with rfl | ⟨init, last, rfl⟩
  · exact List.rdropWhile_concat_neg _ _ _ (by decide)
  · have kept : isCrlf last = false := by simpa [endsInCrlf] using ends
    rw [List.concat_eq_append, ← List.cons_append, ← List.append_assoc]
    exact List.rdropWhile_concat_neg _ _ _ (by simp [kept])

theorem text_pubText (topic body : Bytes) (ht : 0 ∉ topic) (hb : 0 ∉ body) :
    text (pubText topic body) =
      pubsubUdpPrefixPub ++ (topic ++ charBar :: (body ++ [charLf])) := by
  have chars : 0 ∉ pubText topic body := by
    simp only [pubText, List.mem_append, ht, hb, or_false, not_or]
    decide
  rw [text_of_nul_free _ chars, pubText]
  simp

/-- The topic that `handle_publish` reads off a publication on `topic`. -/
def publishedTopic (topic : Bytes) : Bytes := topic.takeWhile (· != charBar)

theorem publishedTopic_of_no_bar (topic : Bytes) (bar : charBar ∉ topic) :
    publishedTopic topic = topic := by
  rw [publishedTopic, List.takeWhile_eq_self_iff]
  intro c hc
  simp only [bne_iff_ne, ne_eq]
  rintro rfl
  exact bar hc

/-- The first separator of the payload ends the published topic. -/
theorem split_published (topic body : Bytes) :
    charBar ∉ publishedTopic topic ∧ ∃ rest, topic ++ charBar :: body =
      publishedTopic topic ++ charBar :: rest := by
  constructor
  · intro mem
    simpa using List.mem_takeWhile_imp mem
  · induction topic with
    | nil => exact ⟨body, rfl⟩
    | cons c more ih =>
      by_cases bar : c = charBar
      · exact ⟨more ++ charBar :: body, by simp [publishedTopic, bar]⟩
      · obtain ⟨rest, tail⟩ := ih
        refine ⟨rest, ?_⟩
        simp only [publishedTopic, List.cons_append, List.takeWhile_cons, bne_iff_ne, ne_eq, bar,
          not_false_eq_true, if_true] at tail ⊢
        rw [tail]

/-- Where the name ends is not visible in the forwarded text. -/
theorem newsText_congr (t b t' b' : Bytes) (same : t ++ charBar :: b = t' ++ charBar :: b') :
    newsText t b = newsText t' b' := by
  have shape : ∀ x y : Bytes, newsText x y =
      pubsubUdpPrefixNews ++ ((x ++ charBar :: y) ++ [charLf]) := by
    intro x y
    simp [newsText]
  rw [shape, shape, same]

theorem handlePublish_no_topic (net : Nat → Bool) (topics : Topics) (payload rest : Bytes)
    (split : payload.rdropWhile isCrlf = charBar :: rest) :
    datagramsSent (handlePublish net topics payload) = [] := by
  have sep : strchr (charBar :: rest) charBar = some 0 := strchr_append [] rest charBar (by simp)
  unfold handlePublish
  simp only [stripTrailingCrlf_eq, split, sep]
  rfl

/-- The topics of a reachable table were named by subscriptions. -/
theorem stored_topic (history : List Arrival) (topic : Bytes)
    (stored : topic ∈ keys (view (runFrom broker [] history))) :
    ∃ arrival ∈ history, subTopic arrival.datagram = some topic := by
  rw [run_table, keys_closedForm] at stored
  obtain ⟨⟨t, a⟩, mem, rfl⟩ := List.mem_map.mp (mem_of_mem_firstDistinct _ _ _ stored)
  obtain ⟨arrival, old, named⟩ := List.mem_filterMap.mp mem
  obtain ⟨t', parsed, same⟩ := Option.map_eq_some_iff.mp named
  cases same
  exact ⟨arrival, old, parsed⟩

theorem stored_nul_free (history : List Arrival) (topic : Bytes)
    (stored : topic ∈ keys (view (runFrom broker [] history))) : 0 ∉ topic := by
  obtain ⟨arrival, -, parsed⟩ := stored_topic history topic stored
  simp only [subTopic, Option.ite_none_right_eq_some, Option.some.injEq] at parsed
  obtain ⟨-, rfl⟩ := parsed
  intro nul
  have inText := List.mem_of_mem_drop ((List.rdropWhile_prefix _ _).subset nul)
  exact mem_text_ne_zero _ _ inText rfl

theorem bucket_nil (history : List Arrival) : bucket (runFrom broker [] history) [] = [] := by
  apply List.eq_nil_iff_forall_not_mem.mpr
  intro a mem
  obtain ⟨arrival, -, parsed⟩ := stored_topic history [] (mem_keys_of_mem_valuesAt _ _ a mem)
  exact (subTopic_some _ _ parsed).1 rfl

/-- The reaction to the datagram built for a topic and a body: the bucket of the
published topic is served, with the text of the whole, unless that text does not fit. -/
theorem broker_pubText_sent (history : List Arrival) (arrival : Arrival) (topic body : Bytes)
    (ht : 0 ∉ topic) (hb : 0 ∉ body) (ends : endsInCrlf body = false)
    (built : arrival.datagram = pubText topic body) :
    datagramsSent (broker (runFrom broker [] history) arrival).2 =
      if (newsText topic body).length < pubsubUdpMaxMsg then
        (bucket (runFrom broker [] history) (publishedTopic topic)).map
          fun dest => (newsText topic body, dest)
      else [] := by
  have payload := text_pubText topic body ht hb
  rw [← built] at payload
  have stripped := strip_payload topic body ends
  obtain ⟨bar, rest, split⟩ := split_published topic body
  rw [split] at stripped
  by_cases empty : publishedTopic topic = []
  · rw [empty, bucket_nil, broker_pub _ arrival _ payload, List.map_nil, ite_self]
    rw [empty] at stripped
    exact handlePublish_no_topic _ _ _ rest stripped
  · have whole := newsText_congr topic body _ rest split
    rw [broker_publish _ arrival (publishedTopic topic) rest ⟨_, payload, stripped, bar, empty⟩,
      ← whole]

theorem broker_pubText (history : List Arrival) (arrival : Arrival) (topic body : Bytes)
    (ht : 0 ∉ topic) (hb : 0 ∉ body) (ends : endsInCrlf body = false)
    (fits : (newsText topic body).length < pubsubUdpMaxMsg)
    (built : arrival.datagram = pubText topic body) :
    datagramsSent (broker (runFrom broker [] history) arrival).2 =
      (bucket (runFrom broker [] history) (publishedTopic topic)).map
        fun dest => (newsText topic body, dest) := by
  rw [broker_pubText_sent history arrival topic body ht hb ends built, if_pos fits]

/-- The round trip. What `send_pub` sends for a topic and a body reaches every
address of the topic's bucket as one datagram, and the subscriber shows the topic
and the body that were put in. -/
theorem round_trip (history : List Arrival) (topic body : Bytes) (a : SockaddrIn)
    (accepted : checkTopic topic = .ok ()) (hb : 0 ∉ body) (ends : endsInCrlf body = false)
    (fits : (newsText topic body).length ≤ pubsubUdpMaxMsg - 1)
    (registered : a ∈ bucket (runFrom broker [] history) topic) :
    ∃ datagram, buildPubDatagram sendPubBuf topic body = .ok datagram ∧
      ∀ arrival : Arrival, arrival.datagram = datagram → ∃ news,
        (datagramsSent (broker (runFrom broker [] history) arrival).2).filter
            (fun sent => sent.2 = a) = [(news, a)] ∧
          ∀ origin server buf, udpFromBroker origin server = true →
            (subscriber server buf (origin, news)).2 =
              [.noticiaEnVivo topic origin (body ++ [charLf])] := by
  obtain ⟨-, bar, short⟩ := checkTopic_ok topic accepted
  have stored := mem_keys_of_mem_valuesAt _ _ a registered
  have ht := stored_nul_free history topic stored
  have room : (newsText topic body).length < pubsubUdpMaxMsg := Nat.lt_of_le_pred (by decide) fits
  have size : (newsText topic body).length = (pubText topic body).length + 1 := by
    rw [length_pubText]
    simp only [newsText, List.length_append, length_pubsubUdpPrefixNews, List.length_singleton]
    omega
  refine ⟨pubText topic body, buildPubDatagram_fits _ _ _ (by rw [sendPubBuf]; omega), ?_⟩
  intro arrival built
  refine ⟨newsText topic body, ?_, ?_⟩
  · obtain ⟨named, -, parsed⟩ := stored_topic history topic stored
    have nonempty := (subTopic_some _ _ parsed).1
    have payload := text_pubText topic body ht hb
    rw [← built] at payload
    exact served_of_mem history topic a registered arrival body
      ⟨_, payload, strip_payload topic body ends, bar, nonempty⟩ room
  · intro origin server buf genuine
    have whole : text (newsText topic body) = newsText topic body := by
      apply text_of_nul_free
      simp only [newsText, List.mem_append, ht, hb, or_false, not_or]
      decide
    rw [subscriber_lines server origin buf _ room.le genuine, whole]
    exact dispatch_newsText topic body origin bar (Nat.lt_succ_of_le short)

/-- A body with a separator, both protocol words and an inner newline. -/
theorem round_trip_sample :
    ∃ datagram, buildPubDatagram sendPubBuf (ascii "A_vs_B") (ascii "GOL|1-0 NEWS PUB \n(VAR)") =
        .ok datagram ∧
      ∀ arrival : Arrival, arrival.datagram = datagram → ∃ news,
        (datagramsSent (broker (runFrom broker [] [sampleSub]) arrival).2).filter
            (fun sent => sent.2 = sampleSub.client) = [(news, sampleSub.client)] ∧
          ∀ origin server buf, udpFromBroker origin server = true →
            (subscriber server buf (origin, news)).2 =
              [.noticiaEnVivo (ascii "A_vs_B") origin
                (ascii "GOL|1-0 NEWS PUB \n(VAR)" ++ [charLf])] :=
  round_trip [sampleSub] _ _ sampleSub.client (by decide) (by decide) (by decide) (by decide)
    (by decide)

/-- A publication on a confirmed topic reaches its whole bucket exactly when that
bucket is served under the part of the topic before its first separator. -/
theorem publishable_exact (history : List Arrival) (arrival : Arrival) (topic body : Bytes)
    (confirmed : topic ∈ keys (view (runFrom broker [] history)))
    (hb : 0 ∉ body) (ends : endsInCrlf body = false)
    (fits : (newsText topic body).length < pubsubUdpMaxMsg)
    (built : arrival.datagram = pubText topic body) :
    let topics := runFrom broker [] history
    (∀ a ∈ bucket topics topic, (newsText topic body, a) ∈
        datagramsSent (broker topics arrival).2) ↔
      (charBar ∈ topic → ∀ a ∈ bucket topics topic, a ∈ bucket topics (publishedTopic topic)) := by
  intro topics
  have sent := broker_pubText history arrival topic body (stored_nul_free history topic confirmed)
    hb ends fits built
  have one : ∀ a, (newsText topic body, a) ∈ datagramsSent (broker topics arrival).2 ↔
      a ∈ bucket topics (publishedTopic topic) := by
    intro a
    simp [topics, sent]
  constructor
  · intro reached _ a mem
    exact (one a).mp (reached a mem)
  · intro served a mem
    rw [one]
    by_cases bar : charBar ∈ topic
    · exact served bar a mem
    · rw [publishedTopic_of_no_bar topic bar]
      exact mem

theorem publishable_exact_sample :
    (newsText (ascii "A_vs_B") (ascii "GOL"), sampleSub.client) ∈
      datagramsSent (broker (runFrom broker [] [sampleSub])
        ⟨⟨afInet, 0x0100007F, 7001⟩, pubText (ascii "A_vs_B") (ascii "GOL"), by decide,
          fun _ => true⟩).2 :=
  (publishable_exact [sampleSub] _ (ascii "A_vs_B") (ascii "GOL") (by decide) (by decide)
    (by decide) (by decide) rfl).mpr (fun bar => absurd bar (by decide)) sampleSub.client
    (by decide)

/-- A confirmed topic that no publication reaches. -/
def barSub : Arrival :=
  ⟨⟨afInet, 0x0100007F, 7000⟩, ascii "SUB A|B\n", by decide, fun _ => true⟩

def barPub : Arrival :=
  ⟨⟨afInet, 0x0100007F, 7001⟩, pubText (ascii "A|B") (ascii "GOL"), by decide, fun _ => true⟩

theorem bar_not_publishable :
    (subOkText (ascii "A|B"), barSub.client) ∈ datagramsSent (broker [] barSub).2 ∧
      ascii "A|B" ∈ keys (view (runFrom broker [] [barSub])) ∧
      ¬ ∀ a ∈ bucket (runFrom broker [] [barSub]) (ascii "A|B"),
        (newsText (ascii "A|B") (ascii "GOL"), a) ∈
          datagramsSent (broker (runFrom broker [] [barSub]) barPub).2 := by
  decide

end SportsPubSub.Udp.Publication
