import SportsPubSub.Udp.Composed

/-!
# Where every line of a UDP subscriber comes from

`Origin` lists the four ways a datagram can have entered the network of the
composed system, each with the earlier events that led to it. One invariant carries
the origins, the table and the justification of every displayed line along all runs.
-/
namespace SportsPubSub.Udp.Provenance
open Lib.Posix Lib.Reactive Lib.DatagramNet Lib.BoundedMultimap
open Protocol Broker Routing Subscription Publisher Subscriber Publication Registry TopicNames
open Composed

variable {ι κ : Type}

/-- A program at `a` has sent a `SUB` that the broker takes for `topic`. -/
def Asked (D : Deployment ι κ) (trace : List (Event ι κ)) (a : SockaddrIn) (topic : Bytes) :
    Prop :=
  ∃ k t, Event.asked k t ∈ trace ∧ (D.subscriber k).addr = a ∧ t.rdropWhile isCrlf = topic

/-- A publisher of `topic` has sent the body. -/
def Published (D : Deployment ι κ) (trace : List (Event ι κ)) (topic cuerpo : Bytes) : Prop :=
  ∃ i, (D.publisher i).topic = topic ∧ Event.published i (pubText topic cuerpo) ∈ trace

inductive Origin (D : Deployment ι κ) (trace : List (Event ι κ)) :
    Datagram SockaddrIn Bytes → Prop
  | published (i : ι) (cuerpo datagram : Bytes)
      (text : Noticia (D.publisher i).topic cuerpo datagram)
      (sent : .published i datagram ∈ trace) :
      Origin D trace ⟨(D.publisher i).addr, D.brokerAddr, datagram⟩
  | asked (k : κ) (t : Bytes) (own : t ∈ (D.subscriber k).topics) (sent : .asked k t ∈ trace) :
      Origin D trace ⟨(D.subscriber k).addr, D.brokerAddr, subText t⟩
  | confirmed (k : κ) (t : Bytes) (own : t ∈ (D.subscriber k).topics)
      (sent : .asked k t ∈ trace) :
      Origin D trace ⟨D.brokerAddr, (D.subscriber k).addr, subOkText (t.rdropWhile isCrlf)⟩
  | forwarded (i : ι) (cuerpo datagram : Bytes) (a : SockaddrIn)
      (text : Noticia (D.publisher i).topic cuerpo datagram)
      (sent : .published i datagram ∈ trace) (wanted : Asked D trace a (D.publisher i).topic) :
      Origin D trace ⟨D.brokerAddr, a, newsText (D.publisher i).topic cuerpo⟩

theorem Asked.mono {D : Deployment ι κ} {trace more : List (Event ι κ)} {a : SockaddrIn}
    {topic : Bytes} (h : Asked D trace a topic) : Asked D (trace ++ more) a topic := by
  obtain ⟨k, t, mem, rest⟩ := h
  exact ⟨k, t, List.mem_append_left _ mem, rest⟩

theorem Origin.mono {D : Deployment ι κ} {trace more : List (Event ι κ)}
    {g : Datagram SockaddrIn Bytes} (h : Origin D trace g) : Origin D (trace ++ more) g := by
  cases h with
  | published i cuerpo datagram text sent =>
    exact .published i cuerpo datagram text (List.mem_append_left _ sent)
  | asked k t own sent => exact .asked k t own (List.mem_append_left _ sent)
  | confirmed k t own sent => exact .confirmed k t own (List.mem_append_left _ sent)
  | forwarded i cuerpo datagram a text sent wanted =>
    exact .forwarded i cuerpo datagram a text (List.mem_append_left _ sent) wanted.mono

/-- The broker's table comes from arrivals whose subscriptions were all sent. -/
def TableFrom (D : Deployment ι κ) (trace : List (Event ι κ)) (topics : Topics) : Prop :=
  ∃ history, topics = runFrom broker [] history ∧ ∀ arrival ∈ history, ∀ topic,
    subTopic arrival.datagram = some topic → Asked D trace arrival.client topic

theorem TableFrom.mono {D : Deployment ι κ} {trace more : List (Event ι κ)} {topics : Topics}
    (h : TableFrom D trace topics) : TableFrom D (trace ++ more) topics := by
  obtain ⟨history, run, all⟩ := h
  exact ⟨history, run, fun arrival mem topic parsed => (all arrival mem topic parsed).mono⟩

/-- Handling one more datagram. -/
theorem TableFrom.step {D : Deployment ι κ} {trace : List (Event ι κ)} {topics : Topics}
    (h : TableFrom D trace topics) (arrival : Arrival)
    (asked : ∀ topic, subTopic arrival.datagram = some topic →
      Asked D trace arrival.client topic) :
    TableFrom D trace (broker topics arrival).1 := by
  obtain ⟨history, rfl, all⟩ := h
  refine ⟨history ++ [arrival], by rw [runFrom_append]; rfl, ?_⟩
  intro other mem
  rcases List.mem_append.mp mem with old | new
  · exact all other old
  · rw [List.mem_singleton.mp new]
    exact asked

/-- The addresses of a bucket asked for its topic. -/
theorem TableFrom.bucket {D : Deployment ι κ} {trace : List (Event ι κ)} {topics : Topics}
    (h : TableFrom D trace topics) (topic : Bytes) (a : SockaddrIn)
    (mem : a ∈ bucket topics topic) : Asked D trace a topic := by
  obtain ⟨history, rfl, all⟩ := h
  rw [Subscription.bucket, valuesAt_run, recipients] at mem
  split at mem
  · obtain ⟨⟨t, client⟩, pair, rfl⟩ := List.mem_map.mp (mem_of_mem_firstDistinct _ _ _ mem)
    obtain ⟨made, same⟩ := List.mem_filter.mp pair
    obtain ⟨arrival, old, named⟩ := List.mem_filterMap.mp made
    obtain ⟨t', parsed, equal⟩ := Option.map_eq_some_iff.mp named
    simp only [decide_eq_true_eq] at same
    cases equal
    rw [same] at parsed
    exact all arrival old topic parsed
  · cases mem

/-- A publisher's datagram is no subscription. -/
theorem subTopic_noticia (topic cuerpo datagram : Bytes) (free : 0 ∉ topic)
    (text : Noticia topic cuerpo datagram) : subTopic datagram = none := by
  rw [subTopic, text.whole, text_pubText topic cuerpo free text.free]
  apply if_neg
  rw [List.take_left' (by simp)]
  intro isSub
  exact absurd isSub.1 (by decide)

/-- What the broker reads off a subscriber's `SUB`. -/
theorem subTopic_of_subText (t topic : Bytes) (free : 0 ∉ t)
    (h : subTopic (subText t) = some topic) : topic = t.rdropWhile isCrlf := by
  simp only [subTopic, text_subText t free, Option.ite_none_right_eq_some, Option.some.injEq] at h
  obtain ⟨-, rfl⟩ := h
  rw [List.drop_left' (by simp), List.rdropWhile_concat_pos _ _ _ (by decide)]

/-- The only answer to a subscriber's `SUB` is its confirmation. -/
theorem datagramsSent_subText (topics : Topics) (arrival : Arrival) (t : Bytes) (free : 0 ∉ t)
    (own : arrival.datagram = subText t) (x : Bytes × SockaddrIn)
    (h : x ∈ datagramsSent (broker topics arrival).2) :
    x = (subOkText (t.rdropWhile isCrlf), arrival.client) := by
  have reaction := broker_reaction topics arrival
  generalize (broker topics arrival).1 = next at reaction
  generalize (broker topics arrival).2 = effects at reaction h
  cases reaction with
  | dropped lines quiet long => simp at h
  | confirmed topic next warnings extremos parsed kept full =>
    rw [own] at parsed
    rw [← subTopic_of_subText t topic free parsed]
    simpa using h
  | forwarded i b body sent isPub slot short =>
    rw [own, text_subText t free] at isPub
    have first := List.prefix_iff_eq_take.mp isPub
    rw [length_pubsubUdpPrefixPub, List.take_left' (by simp)] at first
    exact absurd first (by decide)

theorem length_news {topic cuerpo datagram : Bytes} (text : Noticia topic cuerpo datagram) :
    (newsText topic cuerpo).length ≤ 1126 := by
  have size := text.size
  rw [text.whole, length_pubText] at size
  rw [length_newsText]
  omega

/-- The answers to a publisher's datagram are its NEWS for the bucket of the topic. -/
theorem datagramsSent_noticia (history : List Arrival) (p : Publicador) (arrival : Arrival)
    (cuerpo datagram : Bytes) (text : Noticia p.topic cuerpo datagram)
    (own : arrival.datagram = datagram) :
    datagramsSent (broker (runFrom broker [] history) arrival).2 =
      (bucket (runFrom broker [] history) p.topic).map
        fun dest => (newsText p.topic cuerpo, dest) := by
  obtain ⟨-, bar, -⟩ := checkTopic_ok p.topic p.accepted
  have fits : (newsText p.topic cuerpo).length < pubsubUdpMaxMsg :=
    Nat.lt_of_le_of_lt (length_news text) (by decide)
  rw [broker_pubText history arrival p.topic cuerpo p.argument text.free text.ends fits
    (own.trans text.whole), publishedTopic_of_no_bar p.topic bar]

/-- Only what `send_datagram` was given can be in an answer. -/
theorem mem_answers (D : Deployment ι κ) (topics : Topics) (arrival : Arrival)
    (g : Datagram SockaddrIn Bytes) (h : g ∈ answers D topics arrival) :
    g.src = D.brokerAddr ∧ (g.body, g.dst) ∈ datagramsSent (broker topics arrival).2 := by
  obtain ⟨x, mem, rfl⟩ := List.mem_map.mp h
  have sent := (taken_sublist _).subset mem
  rw [(broker_reaction topics arrival).sent.1] at sent
  exact ⟨rfl, sent⟩

theorem checkArgv_short (t : Bytes) (h : checkArgv t = .ok ()) :
    t.length ≤ pubsubUdpMaxTopicLen := by
  unfold checkArgv at h
  split at h
  · cases h
  · split at h
    · cases h
    · next short => exact Nat.not_lt.mp short

/-- A subscriber's topic is short enough for its `SUB` to arrive whole. -/
theorem arrivalOf_subText (D : Deployment ι κ) (k : κ) (t : Bytes)
    (own : t ∈ (D.subscriber k).topics) (net : Nat → Bool) (src dst : SockaddrIn) :
    (arrivalOf ⟨src, dst, subText t⟩ net).datagram = subText t := by
  have short := checkArgv_short t ((D.subscriber k).accepted t own)
  have fits : (subText t).length ≤ pubsubUdpMaxMsg := by
    rw [length_subText, pubsubUdpMaxMsg]
    simp only [pubsubUdpMaxTopicLen] at short
    omega
  exact List.take_of_length_le fits

theorem arrivalOf_noticia (topic cuerpo datagram : Bytes) (text : Noticia topic cuerpo datagram)
    (net : Nat → Bool) (src dst : SockaddrIn) :
    (arrivalOf ⟨src, dst, datagram⟩ net).datagram = datagram :=
  List.take_of_length_le (text.size.trans (by decide))

/-- The reaction of the broker keeps the origins and the table explained. -/
theorem handled_origin (D : Deployment ι κ) (trace : List (Event ι κ)) (topics : Topics)
    (table : TableFrom D trace topics) (g : Datagram SockaddrIn Bytes) (net : Nat → Bool)
    (origin : Origin D trace g) (addressed : g.dst = D.brokerAddr) :
    TableFrom D trace (broker topics (arrivalOf g net)).1 ∧
      ∀ x ∈ answers D topics (arrivalOf g net), Origin D trace x ∧ x.dst ≠ D.brokerAddr := by
  cases origin with
  | published i cuerpo datagram text sent =>
    have own := arrivalOf_noticia _ _ _ text net (D.publisher i).addr D.brokerAddr
    obtain ⟨history, rfl, -⟩ := id table
    constructor
    · apply table.step
      intro topic parsed
      rw [own, subTopic_noticia _ _ _ (D.publisher i).argument text] at parsed
      cases parsed
    · intro x mem
      obtain ⟨src, sentTo⟩ := mem_answers D _ _ x mem
      rw [datagramsSent_noticia history (D.publisher i) _ cuerpo datagram text own] at sentTo
      obtain ⟨a, inBucket, same⟩ := List.mem_map.mp sentTo
      obtain ⟨src', dst, body⟩ := x
      simp only [Prod.mk.injEq] at same src
      obtain ⟨rfl, rfl⟩ := same
      have wanted := table.bucket _ a inBucket
      obtain ⟨k, t, -, elsewhere, -⟩ := id wanted
      rw [src]
      exact ⟨.forwarded i cuerpo datagram a text sent wanted, elsewhere ▸ D.elsewhere k⟩
  | asked k t own sent =>
    have whole := arrivalOf_subText D k t own net (D.subscriber k).addr D.brokerAddr
    have free := (D.subscriber k).arguments t own
    constructor
    · apply table.step
      intro topic parsed
      rw [whole] at parsed
      exact ⟨k, t, sent, rfl, (subTopic_of_subText t topic free parsed).symm⟩
    · intro x mem
      obtain ⟨src, sentTo⟩ := mem_answers D _ _ x mem
      have same := datagramsSent_subText topics _ t free whole _ sentTo
      obtain ⟨src', dst, body⟩ := x
      simp only [Prod.mk.injEq] at same src
      obtain ⟨rfl, rfl⟩ := same
      rw [src]
      exact ⟨.confirmed k t own sent, D.elsewhere k⟩
  | confirmed k t own sent => exact absurd addressed (D.elsewhere k)
  | forwarded i cuerpo datagram a text sent wanted =>
    obtain ⟨k, t, -, rfl, -⟩ := wanted
    exact absurd addressed (D.elsewhere k)

/-- The name in a confirmation, as it is printed: up to its first CR or LF. -/
def printedName (topic : Bytes) : Bytes := topic.takeWhile fun c => !isCrlf c

theorem printedName_eq (topic : Bytes) :
    (topic ++ [charLf]).take (strcspn (topic ++ [charLf]) isCrlf) = printedName topic := by
  have lf : isCrlf charLf = true := by decide
  rw [strcspn, printedName]
  induction topic with
  | nil => simp [List.findIdx_cons, lf]
  | cons c rest ih =>
    rw [List.cons_append, List.findIdx_cons, List.takeWhile_cons]
    cases crlf : isCrlf c with
    | true => simp
    | false => simpa using ih

theorem subOkText_lines (topic : Bytes) (free : 0 ∉ topic) (origin : SockaddrIn) :
    dispatch (text (subOkText topic)) origin = [.suscripcionOk origin (printedName topic)] := by
  have chars : 0 ∉ subOkText topic := by
    simp only [subOkText, List.mem_append, free, or_false, not_or]
    decide
  rw [text_of_nul_free _ chars, subOkText, List.append_assoc, dispatch_subOk, printedName_eq]

theorem newsText_lines (topic cuerpo : Bytes) (ht : 0 ∉ topic) (hc : 0 ∉ cuerpo)
    (bar : charBar ∉ topic) (short : topic.length ≤ pubsubUdpMaxTopicLen) (origin : SockaddrIn) :
    dispatch (text (newsText topic cuerpo)) origin =
      [.noticiaEnVivo topic origin (cuerpo ++ [charLf])] := by
  have chars : 0 ∉ newsText topic cuerpo := by
    simp only [newsText, List.mem_append, ht, hc, or_false, not_or]
    decide
  rw [text_of_nul_free _ chars]
  exact dispatch_newsText topic cuerpo origin bar (Nat.lt_succ_of_le short)

/-- What a displayed line says about the events before it. -/
def Shown (D : Deployment ι κ) (before : List (Event ι κ)) (k : κ) : Line → Prop
  | .noticiaEnVivo partido origen texto => origen = D.brokerAddr ∧
      Asked D before (D.subscriber k).addr partido ∧
      ∃ cuerpo, texto = cuerpo ++ [charLf] ∧ Published D before partido cuerpo
  | .suscripcionOk origen partido => origen = D.brokerAddr ∧
      ∃ topic, Asked D before (D.subscriber k).addr topic ∧ partido = printedName topic
  | .newsSinSeparador _ _ => False
  | .datagramaNoEstandar _ _ => False

/-- A line printed by a subscriber shows a confirmation or the text of a NEWS. -/
theorem origin_printed (D : Deployment ι κ) (trace : List (Event ι κ)) (k : κ) (buf : Buffer)
    (g : Datagram SockaddrIn Bytes) (origin : Origin D trace g)
    (addressed : g.dst = (D.subscriber k).addr) (line : Line)
    (h : line ∈ (subscriber D.brokerAddr buf (g.src, g.body)).2) :
    (∃ topic, Asked D trace (D.subscriber k).addr topic ∧
      line = .suscripcionOk D.brokerAddr (printedName topic)) ∨
    ∃ topic cuerpo, g.body = newsText topic cuerpo ∧
      (Asked D trace (D.subscriber k).addr topic ∧ Published D trace topic cuerpo) ∧
      line = .noticiaEnVivo topic D.brokerAddr (cuerpo ++ [charLf]) := by
  cases origin with
  | published i cuerpo datagram text sent => exact absurd addressed.symm (D.elsewhere k)
  | asked k' t own sent => exact absurd addressed.symm (D.elsewhere k)
  | confirmed k' t own sent =>
    by_cases accepted : udpFromBroker D.brokerAddr D.brokerAddr = true
    · have free : 0 ∉ t.rdropWhile isCrlf := fun nul =>
        (D.subscriber k').arguments t own ((List.rdropWhile_prefix _ _).subset nul)
      have fits : (subOkText (t.rdropWhile isCrlf)).length ≤ pubsubUdpMaxMsg := by
        have whole := checkArgv_short t ((D.subscriber k').accepted t own)
        have stripped := (List.rdropWhile_prefix isCrlf t).length_le
        rw [length_subOkText, pubsubUdpMaxMsg]
        simp only [pubsubUdpMaxTopicLen] at whole
        omega
      rw [subscriber_lines _ _ buf _ fits accepted, subOkText_lines _ free,
        List.mem_singleton] at h
      exact .inl ⟨_, ⟨k', t, sent, addressed, rfl⟩, h⟩
    · simp [subscriber, accepted] at h
  | forwarded i cuerpo datagram a text sent wanted =>
    obtain ⟨-, bar, short⟩ := checkTopic_ok _ (D.publisher i).accepted
    by_cases accepted : udpFromBroker D.brokerAddr D.brokerAddr = true
    · have fits : (newsText (D.publisher i).topic cuerpo).length ≤ pubsubUdpMaxMsg :=
        (length_news text).trans (by decide)
      rw [subscriber_lines _ _ buf _ fits accepted,
        newsText_lines _ _ (D.publisher i).argument text.free bar short, List.mem_singleton] at h
      rw [text.whole] at sent
      dsimp only at addressed
      exact .inr ⟨_, cuerpo, rfl, ⟨addressed ▸ wanted, i, rfl, sent⟩, h⟩
    · simp [subscriber, accepted] at h

theorem origin_lines (D : Deployment ι κ) (trace : List (Event ι κ)) (k : κ) (buf : Buffer)
    (g : Datagram SockaddrIn Bytes) (origin : Origin D trace g)
    (addressed : g.dst = (D.subscriber k).addr) (line : Line)
    (h : line ∈ (subscriber D.brokerAddr buf (g.src, g.body)).2) :
    Shown D trace k line := by
  rcases origin_printed D trace k buf g origin addressed line h with
    ⟨topic, wanted, rfl⟩ | ⟨topic, cuerpo, -, ⟨wanted, sent⟩, rfl⟩
  · exact ⟨rfl, topic, wanted, rfl⟩
  · exact ⟨rfl, wanted, cuerpo, rfl, sent⟩

/-- Displayed lines are explained; the other events need no explanation. -/
def Explained (D : Deployment ι κ) (before : List (Event ι κ)) : Event ι κ → Prop
  | .displayed k _ line => Shown D before k line
  | _ => True

/-- The invariant of the composed system. -/
structure Inv (D : Deployment ι κ) (trace : List (Event ι κ)) (s : State ι κ) : Prop where
  net : ∀ g ∈ s.net, Origin D trace g
  table : TableFrom D trace s.topics
  explained : Justified (Explained D) trace

theorem Shown.mono {D : Deployment ι κ} {before more : List (Event ι κ)} {k : κ} {line : Line}
    (h : Shown D before k line) : Shown D (before ++ more) k line := by
  cases line with
  | noticiaEnVivo partido origen texto =>
    obtain ⟨from', wanted, cuerpo, shown, i, topic, sent⟩ := h
    exact ⟨from', wanted.mono, cuerpo, shown, i, topic, List.mem_append_left _ sent⟩
  | suscripcionOk origen partido =>
    obtain ⟨from', topic, wanted, shown⟩ := h
    exact ⟨from', topic, wanted.mono, shown⟩
  | newsSinSeparador origen buf => exact h
  | datagramaNoEstandar origen buf => exact h

theorem inv_start (D : Deployment ι κ) (junk : κ → Buffer) :
    Inv D [] (State.initial junk) where
  net := fun _ mem => absurd mem List.not_mem_nil
  table := ⟨[], rfl, fun _ mem => absurd mem List.not_mem_nil⟩
  explained := justified_nil _

variable [DecidableEq ι] [DecidableEq κ]

/-- Each move keeps the invariant. -/
theorem inv_moves (D : Deployment ι κ) (trace : List (Event ι κ)) (s next : State ι κ)
    (events : List (Event ι κ)) (inv : Inv D trace s) (moves : Moves D s next events) :
    Inv D (trace ++ events) next := by
  have old : ∀ g ∈ s.net, Origin D (trace ++ events) g := fun g mem => (inv.net g mem).mono
  cases moves with
  | published i datagram own =>
    obtain ⟨cuerpo, text⟩ := datagrams_whole _ _ own
    refine ⟨?_, inv.table.mono, inv.explained.snoc trivial⟩
    intro g mem
    rcases List.mem_append.mp mem with before | new
    · exact old g before
    · rw [List.mem_singleton.mp new]
      exact .published i cuerpo datagram text (by simp)
  | asked k topic own =>
    refine ⟨?_, inv.table.mono, inv.explained.snoc trivial⟩
    intro g mem
    rcases List.mem_append.mp mem with before | new
    · exact old g before
    · rw [List.mem_singleton.mp new]
      exact .asked k topic own (by simp)
  | handled pos net g found addressed =>
    obtain ⟨table, sends⟩ := handled_origin D trace s.topics inv.table g net
      (inv.net g (List.mem_of_getElem? found)) addressed
    refine ⟨?_, table.mono, inv.explained.snoc trivial⟩
    intro x mem
    rcases List.mem_append.mp mem with before | new
    · exact old x before
    · exact (sends x new).1.mono
  | displayed k pos g found addressed =>
    refine ⟨old, inv.table.mono, ?_⟩
    apply inv.explained.append
    intro before e after split
    have mem : e ∈ (subscriber D.brokerAddr (s.buf k) (g.src, g.body)).2.map (.displayed k pos) := by
      rw [split]
      exact List.mem_append_right _ List.mem_cons_self
    obtain ⟨line, printed, rfl⟩ := List.mem_map.mp mem
    exact (origin_lines D trace k (s.buf k) g (inv.net g (List.mem_of_getElem? found)) addressed
      line printed).mono

theorem run_inv (D : Deployment ι κ) (final : State ι κ) (trace : List (Event ι κ))
    (run : Run D final trace) : Inv D trace final :=
  run_invariant D (Inv D) (inv_start D) (inv_moves D) final trace run

/-- Nothing a subscriber prints is made up, whatever is lost, repeated, delayed or
reordered: a story is the body that a publisher of its topic sent before, on a topic
that this subscriber's address asked for; a confirmation is for such a topic; and the
two lines for datagrams of another form are never printed. -/
theorem display_sound (D : Deployment ι κ) (final : State ι κ) (trace : List (Event ι κ))
    (run : Run D final trace) : Justified (Explained D) trace :=
  (run_inv D final trace run).explained

/-- A publisher and a subscriber of one topic, for runs on fixed inputs. -/
def brokerHost : SockaddrIn := ⟨afInet, 0x0100007F, 0x2823⟩

def journalist : Publicador where
  addr := ⟨afInet, 0x0100007F, 7001⟩
  options := { Sizes.sampleOptions with deterministic := true }
  world := Sizes.sampleWorld
  topic := ascii "A"
  lines := []
  accepted := rfl
  argument := by decide

def reader : Suscriptor where
  addr := ⟨afInet, 0x0100007F, 7000⟩
  topics := [ascii "A"]
  accepted := by
    intro t mem
    rw [List.mem_singleton.mp mem]
    rfl
  arguments := by decide

def pair : Deployment Unit Unit where
  brokerAddr := brokerHost
  publisher := fun _ => journalist
  subscriber := fun _ => reader
  elsewhere := fun _ => by decide

/-- The subscription, one story, and the story read before the confirmation. -/
def storyRun : List (Act Unit Unit) :=
  [.subscriberAsks (), .brokerReads 0 fun _ => true, .publisherSends (),
    .brokerReads 2 fun _ => true, .subscriberReads () 3]

def storyTrace : List (Event Unit Unit) :=
  traceOf (step pair) (State.initial fun _ => zeroBuffer) storyRun

theorem story_run : ∃ final, Run pair final storyTrace := by
  have some_event : storyTrace ≠ [] := by decide +kernel
  obtain ⟨final, taken⟩ := exec_traceOf _ _ _ some_event
  exact ⟨final, _, _, taken⟩

theorem display_sound_story :
    storyTrace.getLast? = some (.displayed () 3 (.noticiaEnVivo (ascii "A") brokerHost
        (ascii "[#1/1] Inicia el partido: A contra Rival. Saque inicial para A.\n"))) ∧
      Justified (Explained pair) storyTrace := by
  obtain ⟨final, run⟩ := story_run
  exact ⟨by decide +kernel, display_sound pair final storyTrace run⟩

end SportsPubSub.Udp.Provenance
