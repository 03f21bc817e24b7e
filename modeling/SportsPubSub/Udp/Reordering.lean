import SportsPubSub.Udp.Publication

/-!
# Subscriptions in another order

UDP may deliver datagrams in another order and more than once. While no capacity
is reached the table depends on the set of subscriptions alone, up to the order of
its buckets and of the addresses inside them.
-/
namespace SportsPubSub.Udp.Reordering
open Lib.Posix Lib.Reactive Lib.BoundedMultimap
open Protocol Broker Routing Subscription Publication

/-- What of an arrival is on the wire. -/
def wire (a : Arrival) : SockaddrIn × Bytes := (a.client, a.datagram)

/-- `h'` is `h` in another order, with any of its datagrams repeated any number of
times. The outcomes of the `sendto` calls may differ. -/
def Rearranged (h h' : List Arrival) : Prop :=
  ∃ extra, (∀ x ∈ extra, x ∈ h.map wire) ∧ (h'.map wire).Perm (h.map wire ++ extra)

/-- At most as many topics, and addresses under each of them, as the table holds. -/
structure WithinCapacity (subs : List (Bytes × SockaddrIn)) : Prop where
  topics : (subs.map Prod.fst).toFinset.card ≤ pubsubUdpMaxTopics
  endpoints : ∀ topic, (offered subs topic).toFinset.card ≤ pubsubUdpMaxSubsPerTopic

theorem Rearranged.same_wire {h h' : List Arrival} (moved : Rearranged h h')
    (x : SockaddrIn × Bytes) : x ∈ h.map wire ↔ x ∈ h'.map wire := by
  obtain ⟨extra, repeated, perm⟩ := moved
  rw [perm.mem_iff, List.mem_append]
  constructor
  · exact .inl
  · rintro (old | again)
    · exact old
    · exact repeated x again

/-- The subscriptions are read off the wire. -/
theorem subscriptions_wire (history : List Arrival) :
    subscriptions history =
      (history.map wire).filterMap fun x => (subTopic x.2).map fun topic => (topic, x.1) := by
  rw [subscriptions, List.filterMap_map]
  rfl

theorem Rearranged.same_subscriptions {h h' : List Arrival} (moved : Rearranged h h')
    (p : Bytes × SockaddrIn) : p ∈ subscriptions h ↔ p ∈ subscriptions h' := by
  simp only [subscriptions_wire, List.mem_filterMap, moved.same_wire]

/-- Whatever follows, both runs have the same addresses under every topic. -/
theorem bucket_perm (h h' rest : List Arrival) (moved : Rearranged h h')
    (within : WithinCapacity (subscriptions h)) (topic : Bytes) :
    (bucket (runFrom broker [] (h ++ rest)) topic).Perm
      (bucket (runFrom broker [] (h' ++ rest)) topic) := by
  rw [bucket, bucket, run_table, run_table, subscriptions_append, subscriptions_append]
  exact valuesAt_perm _ _ _ _ _ moved.same_subscriptions within.topics within.endpoints topic

/-- A payload is a publication on some topic, or nothing is sent for it. -/
theorem payload_cases (payload : Bytes) :
    (∃ topic body, payload.rdropWhile isCrlf = topic ++ charBar :: body ∧ charBar ∉ topic ∧
      topic ≠ []) ∨
      ∀ net topics, datagramsSent (handlePublish net topics payload) = [] := by
  by_cases bar : charBar ∈ payload.rdropWhile isCrlf
  · obtain ⟨topic, body, split, first⟩ := List.eq_append_cons_of_mem bar
    by_cases empty : topic = []
    · subst empty
      exact .inr fun net topics => handlePublish_no_topic net topics payload body split
    · exact .inl ⟨topic, body, split, first, empty⟩
  · right
    intro net topics
    have none := (strchr_none_iff _ _).mpr bar
    simp only [handlePublish, stripTrailingCrlf_eq, none]
    rfl

/-- The addresses that a publication reaches, in two tables with the same buckets. -/
theorem publication_perm (topics topics' : Topics) (publication : Arrival)
    (same : ∀ topic, (bucket topics topic).Perm (bucket topics' topic))
    (isPub : pubsubUdpPrefixPub <+: text publication.datagram) :
    (datagramsSent (broker topics publication).2).Perm
      (datagramsSent (broker topics' publication).2) := by
  obtain ⟨payload, shape⟩ := isPub
  rw [broker_pub topics publication payload shape.symm,
    broker_pub topics' publication payload shape.symm]
  rcases payload_cases payload with ⟨topic, body, split, bar, nonempty⟩ | silent
  · dsimp only
    rw [handlePublish_sent _ topics payload topic body split bar nonempty,
      handlePublish_sent _ topics' payload topic body split bar nonempty]
    split
    · exact (same topic).map _
    · exact List.Perm.nil
  · dsimp only
    rw [silent, silent]

/-- No address is sent a publication twice. -/
theorem publication_once (history : List Arrival) (publication : Arrival)
    (isPub : pubsubUdpPrefixPub <+: text publication.datagram) :
    ((datagramsSent (broker (runFrom broker [] history) publication).2).map Prod.snd).Nodup := by
  obtain ⟨payload, shape⟩ := isPub
  rw [broker_pub _ publication payload shape.symm]
  rcases payload_cases payload with ⟨topic, body, split, bar, nonempty⟩ | silent
  · dsimp only
    rw [handlePublish_sent _ _ payload topic body split bar nonempty]
    split
    · rw [List.map_map]
      simpa [Function.comp_def] using ((onlyAppended [] history).2 topic).2
    · exact List.nodup_nil
  · dsimp only
    rw [silent]
    exact List.nodup_nil

/-- Reordered and repeated subscriptions leave the same pairs of topic and address,
and every later publication, after any further datagrams, reaches the same
addresses, each of them once. -/
theorem reordering_insensitive (h h' : List Arrival) (moved : Rearranged h h')
    (within : WithinCapacity (subscriptions h)) :
    (∀ topic a, a ∈ bucket (runFrom broker [] h) topic ↔
        a ∈ bucket (runFrom broker [] h') topic) ∧
      ∀ rest publication, pubsubUdpPrefixPub <+: text publication.datagram →
        let sent := datagramsSent (broker (runFrom broker [] (h ++ rest)) publication).2
        let sent' := datagramsSent (broker (runFrom broker [] (h' ++ rest)) publication).2
        sent.Perm sent' ∧ (sent.map Prod.snd).Nodup ∧ (sent'.map Prod.snd).Nodup := by
  constructor
  · intro topic a
    have perm := bucket_perm h h' [] moved within topic
    rw [List.append_nil, List.append_nil] at perm
    exact perm.mem_iff
  · intro rest publication isPub
    exact ⟨publication_perm _ _ publication (bucket_perm h h' rest moved within) isPub,
      publication_once _ publication isPub, publication_once _ publication isPub⟩

/-- A second subscriber on the same topic. -/
def sampleSub2 : Arrival :=
  ⟨⟨afInet, 0x0100007F, 7003⟩, sampleSub.datagram, sampleSub.fits, fun _ => false⟩

theorem reordering_insensitive_sample :
    sampleSub2.client ∈ bucket (runFrom broker [] [sampleSub, sampleSub2]) (ascii "A_vs_B") ↔
      sampleSub2.client ∈
        bucket (runFrom broker [] [sampleSub2, sampleSub, sampleSub2]) (ascii "A_vs_B") := by
  have within : WithinCapacity (subscriptions [sampleSub, sampleSub2]) := by
    have pairs : subscriptions [sampleSub, sampleSub2] =
        [(ascii "A_vs_B", sampleSub.client), (ascii "A_vs_B", sampleSub2.client)] := by decide
    constructor
    · decide
    · intro topic
      have few : (offered (subscriptions [sampleSub, sampleSub2]) topic).length ≤ 2 := by
        rw [pairs, offered, List.length_map]
        exact List.length_filter_le _ _
      exact (List.toFinset_card_le _).trans (few.trans (by decide))
  exact (reordering_insensitive [sampleSub, sampleSub2] [sampleSub2, sampleSub, sampleSub2]
    ⟨[wire sampleSub2], by decide, by decide⟩ within).1 _ _

end SportsPubSub.Udp.Reordering
