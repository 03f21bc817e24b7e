import SportsPubSub.Udp.AsmSubscriberRefines
import SportsPubSub.Udp.Provenance

/-!
# The UDP system of the assembly programs

The three programs of udp_asm, each in its own memory, on the network of the composed
system and under the same schedules. A publisher and the subscriptions of a subscriber
run without input, so what they send is computed from the start; broker and receive loop
take one pass for each datagram. The system moves in step with that of the C programs:
the same datagrams are sent and the same stories shown, and what it shows for a
confirmation is known.
-/
namespace SportsPubSub.Udp.AsmSystem
open Lib.Posix Lib.Strtoul Lib.Memory Lib.Reactive Lib.DatagramNet
open Protocol Composed AsmSubscriberMain
open Publisher (pubText)
open Subscriber (Line Buffer subText sendSub_accepted)
open SubscriberMain (Host Suceso Salida htons shown subscribeAll sendSubCalls)
open AsmPublisher (optionWords)
open AsmBroker (TableHolds)

variable {ι κ : Type}

/-- The programs of a deployment as they are started: the broker's address as the
subscribers are given it, their arguments, and what all memory holds. -/
structure Instalacion (D : Deployment ι κ) where
  ip : UInt32
  port : UInt16
  brokerAddr_eq : D.brokerAddr = ⟨afInet, ip, htons port⟩
  argv : κ → List CString
  enough : ∀ k, 3 < (argv k).length
  topics_eq : ∀ k, ((argv k).drop 3).map CString.bytes = (D.subscriber k).topics
  brokerFrame : Region 2880
  gTopics : Region 135424
  sendPubFrame : ι → Nat → Region 2952
  publisherFrame : ι → Region 1736
  subscriberFrame : κ → Region 1560

/-- The datagrams of a publisher. -/
def Instalacion.published {D : Deployment ι κ} (M : Instalacion D) (i : ι) :
    Option (List Bytes) := do
  let p := D.publisher i
  let pasos ← AsmPublisher.publisher (optionWords p.options) p.world (M.sendPubFrame i) p.topic
    p.lines (M.publisherFrame i)
  some (posted pasos)

/-- All calls succeed. -/
def calls (ip : UInt32) : Host := ⟨true, fun _ => some ip, fun _ => some 0⟩

def datagrams : List Suceso → List (Bytes × SockaddrIn)
  | [] => []
  | .sendto datagram dest :: rest => (datagram, dest) :: datagrams rest
  | _ :: rest => datagrams rest

/-- The frame that a subscriber reads with, and its subscriptions with their
destinations. -/
def Instalacion.asked {D : Deployment ι κ} (M : Instalacion D) (k : κ) :
    Option (Region 1560 × List (Bytes × SockaddrIn)) := do
  let (frame, sucesos, _) ← subscribe (calls M.ip) (M.argv k) M.port.toUInt64 M.ip
    (M.subscriberFrame k)
  some (frame, datagrams sucesos)

/-- `frames` is `none` for a program that has left its frame. -/
structure State (ι κ : Type) where
  broker : AsmBroker.State
  pubs : ι → Nat
  subs : κ → Nat
  frames : κ → Option (Region 1560)
  net : Net SockaddrIn Bytes

def State.initial {D : Deployment ι κ} (M : Instalacion D) : State ι κ :=
  ⟨⟨M.brokerFrame, M.gTopics, 0⟩, fun _ => 0, fun _ => 0, fun k => (M.asked k).map Prod.fst, []⟩

/-- A choice of the schedule, and what a `recvfrom` leaves in `sin_zero`. -/
structure Act (ι κ : Type) where
  act : Composed.Act ι κ
  sinZero : Bytes
  padded : sinZero.length = 8

/-- As in the system of the C programs, but for the texts that subscribers write. -/
inductive Event (ι κ : Type) where
  | published (i : ι) (datagram : Bytes)
  | asked (k : κ) (datagram : Bytes)
  | handled (pos : Nat) (src : SockaddrIn) (datagram : Bytes)
  | displayed (k : κ) (pos : Nat) (salida : Salida Bytes)
  deriving DecidableEq

/-- The calls among the outputs of the broker. -/
def effects : List AsmBroker.Output → List Broker.Effect
  | [] => []
  | .effect e :: rest => e :: effects rest
  | .truncated _ _ :: rest => effects rest

theorem published_eq {D : Deployment ι κ} (M : Instalacion D) (i : ι) :
    M.published i = some (D.publisher i).datagrams := by
  simp only [Instalacion.published, AsmPublisher.publisher_spec _ _ _ _ (D.publisher i).argument,
    Option.bind_eq_bind, Option.bind_some]
  rfl

/-- Accepted topics are all sent. -/
theorem datagrams_subscribeAll (ip : UInt32) (broker : SockaddrIn) (k : Nat) (topics : List CString)
    (accepted : ∀ t ∈ topics, Subscriber.checkArgv t.bytes = .ok ()) :
    datagrams (subscribeAll (calls ip) broker k topics).1 =
      topics.map fun t => (subText t.bytes, broker) := by
  induction topics generalizing k with
  | nil => rfl
  | cons topic rest ih =>
    have here := accepted topic List.mem_cons_self
    have later := ih (k + 1) fun t mem => accepted t (List.mem_cons_of_mem _ mem)
    simp only [subscribeAll, here, sendSubCalls, sendSub_accepted _ here, calls]
    exact congrArg _ later

theorem asked_eq {D : Deployment ι κ} (M : Instalacion D) (k : κ) :
    ∃ frame, M.asked k = some (frame, (D.subscriber k).topics.map fun t =>
      (subText t, D.brokerAddr)) ∧ BrokerHolds frame D.brokerAddr := by
  obtain ⟨frame, ran, held⟩ := subscribe_spec (calls M.ip) (M.argv k) M.port.toUInt64 M.ip
    (M.subscriberFrame k) (M.enough k)
  have small : M.port.toUInt64.toUInt16 = M.port := by simp
  rw [small, ← M.brokerAddr_eq] at ran held
  refine ⟨frame, ?_, held⟩
  have accepted : ∀ t ∈ (M.argv k).drop 3, Subscriber.checkArgv t.bytes = .ok () := by
    intro t mem
    apply (D.subscriber k).accepted
    rw [← M.topics_eq]
    exact List.mem_map_of_mem mem
  simp only [Instalacion.asked, ran, Option.bind_eq_bind, Option.bind_some,
    datagrams_subscribeAll _ _ _ _ accepted, ← M.topics_eq, List.map_map]
  rfl

theorem effects_map (es : List Broker.Effect) : effects (es.map .effect) = es := by
  induction es with
  | nil => rfl
  | cons e rest ih => exact congrArg (e :: ·) ih

/-- An event of the assembly programs and the one of the C programs at the same place. -/
inductive Matches : Event ι κ → Composed.Event ι κ → Prop
  | published (i : ι) (datagram : Bytes) : Matches (.published i datagram) (.published i datagram)
  | asked (k : κ) (topic : Bytes) : Matches (.asked k (subText topic)) (.asked k topic)
  | handled (pos : Nat) (src : SockaddrIn) (datagram : Bytes) :
      Matches (.handled pos src datagram) (.handled pos src datagram)
  | story (k : κ) (pos : Nat) (partido texto : Bytes) (origen : SockaddrIn) :
      Matches (.displayed k pos (.inr (shown (.noticiaEnVivo partido origen texto))))
        (.displayed k pos (.noticiaEnVivo partido origen texto))
  | confirmation (k : κ) (pos : Nat) (topic : Bytes) (origen : SockaddrIn) :
      Matches (.displayed k pos (.inr (shown (.datagramaNoEstandar origen (subOkText topic)))))
        (.displayed k pos (.suscripcionOk origen (Provenance.printedName topic)))

/-- A program at `a` has sent a `SUB` that the broker takes for `topic`. -/
def Asked (D : Deployment ι κ) (trace : List (Event ι κ)) (a : SockaddrIn) (topic : Bytes) :
    Prop :=
  ∃ k t, Event.asked k (subText t) ∈ trace ∧ (D.subscriber k).addr = a ∧
    t.rdropWhile isCrlf = topic

/-- A publisher of `topic` has sent the body. -/
def Published (D : Deployment ι κ) (trace : List (Event ι κ)) (topic cuerpo : Bytes) : Prop :=
  ∃ i, (D.publisher i).topic = topic ∧ Event.published i (pubText topic cuerpo) ∈ trace

/-- The two things that a subscriber writes, with the events that they say happened. -/
inductive Told (D : Deployment ι κ) (before : List (Event ι κ)) (k : κ) : Salida Bytes → Prop
  | story (partido cuerpo : Bytes) (wanted : Asked D before (D.subscriber k).addr partido)
      (sent : Published D before partido cuerpo) :
      Told D before k
        (.inr (shown (.noticiaEnVivo partido D.brokerAddr (cuerpo ++ [charLf]))))
  | confirmation (topic : Bytes) (wanted : Asked D before (D.subscriber k).addr topic) :
      Told D before k (.inr (shown (.datagramaNoEstandar D.brokerAddr (subOkText topic))))

/-- Texts are explained; the other events need no explanation. -/
def Explained (D : Deployment ι κ) (before : List (Event ι κ)) : Event ι κ → Prop
  | .displayed k _ salida => Told D before k salida
  | _ => True

theorem matches_mem {trace : List (Event ι κ)} {ctrace : List (Composed.Event ι κ)}
    (matching : List.Forall₂ Matches trace ctrace) (c : Composed.Event ι κ) (mem : c ∈ ctrace) :
    ∃ e ∈ trace, Matches e c := by
  induction matching with
  | nil => cases mem
  | cons here later ih =>
    rcases List.mem_cons.mp mem with rfl | rest
    · exact ⟨_, List.mem_cons_self, here⟩
    · obtain ⟨e, old, matched⟩ := ih rest
      exact ⟨e, List.mem_cons_of_mem _ old, matched⟩

/-- What the C programs have sent, the assembly programs have sent. -/
theorem asked_matches {D : Deployment ι κ} {trace : List (Event ι κ)}
    {ctrace : List (Composed.Event ι κ)} (matching : List.Forall₂ Matches trace ctrace)
    {a : SockaddrIn} {topic : Bytes} (asked : Provenance.Asked D ctrace a topic) :
    Asked D trace a topic := by
  obtain ⟨k, t, mem, own, name⟩ := asked
  obtain ⟨e, mem', matched⟩ := matches_mem matching _ mem
  cases matched
  exact ⟨k, t, mem', own, name⟩

theorem published_matches {trace : List (Event ι κ)}
    {ctrace : List (Composed.Event ι κ)} (matching : List.Forall₂ Matches trace ctrace)
    (i : ι) (datagram : Bytes) (sent : Composed.Event.published i datagram ∈ ctrace) :
    .published i datagram ∈ trace := by
  obtain ⟨e, mem, matched⟩ := matches_mem matching _ sent
  cases matched
  exact mem

theorem Told.mono {D : Deployment ι κ} {before more : List (Event ι κ)} {k : κ}
    {salida : Salida Bytes} (h : Told D before k salida) : Told D (before ++ more) k salida := by
  have grow : ∀ {a topic}, Asked D before a topic → Asked D (before ++ more) a topic := by
    intro a topic asked
    obtain ⟨k, t, mem, rest⟩ := asked
    exact ⟨k, t, List.mem_append_left _ mem, rest⟩
  cases h with
  | story partido cuerpo wanted sent =>
    obtain ⟨i, own, mem⟩ := sent
    exact .story partido cuerpo (grow wanted) ⟨i, own, List.mem_append_left _ mem⟩
  | confirmation topic wanted => exact .confirmation topic (grow wanted)

theorem Explained.mono {D : Deployment ι κ} (before more : List (Event ι κ)) (e : Event ι κ)
    (h : Explained D before e) : Explained D (before ++ more) e := by
  cases e with
  | displayed k pos salida => exact Told.mono h
  | published i datagram => trivial
  | asked k datagram => trivial
  | handled pos src datagram => trivial

/-- What a subscriber reads is a confirmation or a story; the assembly program and the C
program show what matches, and it is explained. -/
theorem read_spec (D : Deployment ι κ) (trace : List (Event ι κ))
    (ctrace : List (Composed.Event ι κ)) (matching : List.Forall₂ Matches trace ctrace) (k : κ)
    (pos : Nat) (g : Datagram SockaddrIn Bytes) (origin : Provenance.Origin D ctrace g)
    (addressed : g.dst = (D.subscriber k).addr) (frame : Region 1560)
    (held : BrokerHolds frame D.brokerAddr) (buf : Buffer) (sinZero : Bytes)
    (padded : sinZero.length = 8) :
    ∃ frame' salidas, l13 frame ⟨some (g.src, g.body), sinZero, padded⟩ = some (frame', salidas) ∧
      BrokerHolds frame' D.brokerAddr ∧ (∀ salida ∈ salidas, Told D trace k salida) ∧
      List.Forall₂ Matches (salidas.map (.displayed k pos : _ → Event ι κ))
        ((Subscriber.subscriber D.brokerAddr buf (g.src, g.body)).2.map (.displayed k pos)) := by
  by_cases accepted : Subscriber.udpFromBroker g.src D.brokerAddr = true
  · obtain ⟨frame', stack, line, ran, whole, writes, ends, -⟩ :=
      l13_accepted D.brokerAddr frame held ⟨some (g.src, g.body), sinZero, padded⟩ g.src g.body rfl
        accepted
    refine ⟨frame', _, ran, ends, ?_⟩
    cases origin with
    | published i cuerpo datagram text sent => exact absurd addressed.symm (D.elsewhere k)
    | asked k' t own sent => exact absurd addressed.symm (D.elsewhere k)
    | confirmed k' t own sent =>
      have free : 0 ∉ t.rdropWhile isCrlf := fun nul =>
        (D.subscriber k').arguments t own ((List.rdropWhile_prefix _ _).subset nul)
      have fits : (subOkText (t.rdropWhile isCrlf)).length ≤ 1400 := by
        have whole := Provenance.checkArgv_short t ((D.subscriber k').accepted t own)
        have stripped := (List.rdropWhile_prefix isCrlf t).length_le
        rw [length_subOkText]
        simp only [pubsubUdpMaxTopicLen] at whole
        omega
      have split : subOkText (t.rdropWhile isCrlf) =
          pubsubUdpPrefixSubOk ++ (t.rdropWhile isCrlf ++ [charLf]) := List.append_assoc _ _ _
      have chars : 0 ∉ subOkText (t.rdropWhile isCrlf) := by
        simp only [subOkText, List.mem_append, free, or_false, not_or]
        decide
      rw [List.take_of_length_le fits, text_of_nul_free _ chars, split] at whole
      rw [AsmSubscriber.branches_named stack _ _ (by simp) whole, ← split] at writes
      cases writes
      rw [Subscriber.subscriber_lines _ _ buf _ fits accepted, Provenance.subOkText_lines _ free]
      refine ⟨?_, .cons (.confirmation k pos _ _) .nil⟩
      intro salida mem
      rw [List.mem_singleton.mp mem]
      exact .confirmation _ (asked_matches matching ⟨k', t, sent, addressed, rfl⟩)
    | forwarded i cuerpo datagram a text' sent wanted =>
      obtain ⟨-, bar, short⟩ := Publisher.checkTopic_ok _ (D.publisher i).accepted
      have fits : (newsText (D.publisher i).topic cuerpo).length ≤ 1400 :=
        (Provenance.length_news text').trans (by decide)
      have lines := Provenance.newsText_lines _ _ (D.publisher i).argument text'.free bar short
        D.brokerAddr
      rw [List.take_of_length_le fits] at whole
      have other : ¬ pubsubUdpPrefixSubOk <+: AsmSubscriber.stringAt stack 112 := by
        rintro ⟨rest, split⟩
        rw [← whole, ← split, Subscriber.dispatch_subOk] at lines
        cases lines
      rw [AsmSubscriber.branches_other stack _ other, whole, lines] at writes
      cases writes
      rw [Subscriber.subscriber_lines _ _ buf _ fits accepted, lines]
      refine ⟨?_, .cons (.story k pos _ _ _) .nil⟩
      intro salida mem
      rw [List.mem_singleton.mp mem]
      have posted := published_matches matching i datagram sent
      rw [text'.whole] at posted
      dsimp only at addressed
      exact .story _ cuerpo (asked_matches matching (addressed ▸ wanted)) ⟨i, rfl, posted⟩
  · obtain ⟨frame', ran, ends⟩ := l13_refused D.brokerAddr frame held
      ⟨some (g.src, g.body), sinZero, padded⟩ g.src g.body rfl accepted
    refine ⟨frame', [], ran, ends, fun _ mem => absurd mem List.not_mem_nil, ?_⟩
    rw [Bool.not_eq_true] at accepted
    simp only [Subscriber.subscriber, accepted, Bool.not_false, if_true, List.map_nil]
    exact .nil

/-- The traces and the states of the two systems between two steps. -/
structure Alike (D : Deployment ι κ) (trace : List (Event ι κ))
    (ctrace : List (Composed.Event ι κ)) (s : State ι κ) (t : Composed.State ι κ) : Prop where
  table : TableHolds s.broker t.topics
  pubs : s.pubs = t.pubs
  subs : s.subs = t.subs
  net : s.net = t.net
  frames : ∀ k, ∃ frame, s.frames k = some frame ∧ BrokerHolds frame D.brokerAddr
  events : List.Forall₂ Matches trace ctrace
  explained : Justified (Explained D) trace
  inv : Provenance.Inv D ctrace t

theorem alike_initial (D : Deployment ι κ) (M : Instalacion D) (junk : κ → Buffer) :
    Alike D [] [] (State.initial M) (Composed.State.initial junk) where
  table := AsmBroker.tableHolds_nil _ _
  pubs := rfl
  subs := rfl
  net := rfl
  frames := by
    intro k
    obtain ⟨frame, asked, held⟩ := asked_eq M k
    exact ⟨frame, by simp only [State.initial, asked, Option.map_some], held⟩
  events := .nil
  explained := justified_nil _
  inv := Provenance.inv_start D junk

variable [DecidableEq ι] [DecidableEq κ]

def step (D : Deployment ι κ) (M : Instalacion D) : System (State ι κ) (Act ι κ) (Event ι κ) :=
  fun s a =>
    match a.act with
    | .publisherSends i => do
        let sends ← M.published i
        let datagram ← sends[s.pubs i]?
        some
          ({ s with
              pubs := Function.update s.pubs i (s.pubs i + 1),
              net := s.net ++ [⟨(D.publisher i).addr, D.brokerAddr, datagram⟩] },
            [.published i datagram])
    | .subscriberAsks k => do
        let (_, sends) ← M.asked k
        let (datagram, dest) ← sends[s.subs k]?
        some
          ({ s with
              subs := Function.update s.subs k (s.subs k + 1),
              net := s.net ++ [⟨(D.subscriber k).addr, dest, datagram⟩] },
            [.asked k datagram])
    | .brokerReads pos net => do
        let g ← deliver s.net D.brokerAddr pos
        let (broker, outputs) ← AsmBroker.broker s.broker ⟨arrivalOf g net, a.sinZero, a.padded⟩
        some
          ({ s with
              broker,
              net := s.net ++ (taken (effects outputs)).map fun x => ⟨D.brokerAddr, x.2, x.1⟩ },
            [.handled pos g.src g.body])
    | .subscriberReads k pos => do
        let (_, sends) ← M.asked k
        if s.subs k = sends.length then
          let g ← deliver s.net (D.subscriber k).addr pos
          let frame ← s.frames k
          let (frame, salidas) ← l13 frame ⟨some (g.src, g.body), a.sinZero, a.padded⟩
          some ({ s with frames := Function.update s.frames k (some frame) },
            salidas.map (.displayed k pos))
        else none

/-- What a schedule of the assembly programs can leave behind. -/
def Run (D : Deployment ι κ) (M : Instalacion D) (final : State ι κ) (trace : List (Event ι κ)) :
    Prop :=
  ∃ schedule, exec (step D M) (State.initial M) schedule = some (final, trace)

/-- Both systems refuse an action, or both take it. -/
theorem alike_step (D : Deployment ι κ) (M : Instalacion D) (trace : List (Event ι κ))
    (ctrace : List (Composed.Event ι κ)) (s : State ι κ) (t : Composed.State ι κ) (a : Act ι κ)
    (alike : Alike D trace ctrace s t) :
    Option.Rel (fun x y => Alike D (trace ++ x.2) (ctrace ++ y.2) x.1 y.1)
      (step D M s a) (Composed.step D t a.act) := by
  obtain ⟨broker, pubs, subs, frames, net⟩ := s
  obtain ⟨table, same, same', same'', held, events, explained, inv⟩ := alike
  dsimp only at table same same' same'' held
  subst same same' same''
  -- the C side keeps its own invariant
  have keep := fun act next news taken => Provenance.inv_moves D ctrace t next news inv
    (Composed.step_moves D t next act news taken)
  obtain ⟨act, sinZero, padded⟩ := a
  cases act with
  | publisherSends i =>
    simp only [step, published_eq, Option.bind_eq_bind, Option.bind_some]
    cases found : (D.publisher i).datagrams[t.pubs i]? with
    | none =>
      simp only [Composed.step, found]
      exact .none
    | some datagram =>
      have taken : Composed.step D t (.publisherSends i) = some
          ({ t with
              pubs := Function.update t.pubs i (t.pubs i + 1),
              net := t.net ++ [⟨(D.publisher i).addr, D.brokerAddr, datagram⟩] },
            [.published i datagram]) := by
        simp only [Composed.step, found, Option.map_some]
      rw [taken]
      exact .some ⟨table, rfl, rfl, rfl, held,
        List.rel_append events (.cons (.published _ _) .nil), explained.snoc trivial,
        keep _ _ _ taken⟩
  | subscriberAsks k =>
    obtain ⟨frame, asked, -⟩ := asked_eq M k
    simp only [step, asked, Option.bind_eq_bind, Option.bind_some, List.getElem?_map]
    cases found : (D.subscriber k).topics[t.subs k]? with
    | none =>
      simp only [Composed.step, found]
      exact .none
    | some topic =>
      have accepted := (D.subscriber k).accepted topic (List.mem_of_getElem? found)
      have taken : Composed.step D t (.subscriberAsks k) = some
          ({ t with
              subs := Function.update t.subs k (t.subs k + 1),
              net := t.net ++ [⟨(D.subscriber k).addr, D.brokerAddr, subText topic⟩] },
            [.asked k topic]) := by
        simp only [Composed.step, found, sendSub_accepted topic accepted]
      rw [taken]
      exact .some ⟨table, rfl, rfl, rfl, held,
        List.rel_append events (.cons (.asked _ _) .nil), explained.snoc trivial,
        keep _ _ _ taken⟩
  | brokerReads pos net =>
    simp only [step, Option.bind_eq_bind]
    cases found : deliver t.net D.brokerAddr pos with
    | none =>
      simp only [Composed.step, found]
      exact .none
    | some g =>
      have taken : Composed.step D t (.brokerReads pos net) = some
          ({ t with
              topics := (Broker.broker t.topics (arrivalOf g net)).1,
              net := t.net ++ answers D t.topics (arrivalOf g net) },
            [.handled pos g.src g.body]) := by
        simp only [Composed.step, found, Option.map_some]
      obtain ⟨next, ran, after⟩ := AsmBroker.broker_spec broker t.topics
        ⟨arrivalOf g net, sinZero, padded⟩ table
      rw [taken]
      simp only [ran, Option.bind_some, effects_map]
      exact .some ⟨after, rfl, rfl, rfl, held,
        List.rel_append events (.cons (.handled _ _ _) .nil), explained.snoc trivial,
        keep _ _ _ taken⟩
  | subscriberReads k pos =>
    obtain ⟨start, asked, -⟩ := asked_eq M k
    simp only [step, asked, Option.bind_eq_bind, Option.bind_some, List.length_map]
    by_cases all : t.subs k = (D.subscriber k).topics.length
    · cases found : deliver t.net (D.subscriber k).addr pos with
      | none =>
        simp only [Composed.step, found, if_pos all]
        exact .none
      | some g =>
        have taken : Composed.step D t (.subscriberReads k pos) = some
            ({ t with
                buf := Function.update t.buf k
                  (Subscriber.subscriber D.brokerAddr (t.buf k) (g.src, g.body)).1 },
              (Subscriber.subscriber D.brokerAddr (t.buf k) (g.src, g.body)).2.map
                (.displayed k pos)) := by
          simp only [Composed.step, found, if_pos all, Option.map_some]
        obtain ⟨sent, addressed⟩ := deliver_some _ _ _ _ found
        obtain ⟨frame, has, own⟩ := held k
        obtain ⟨frame', salidas, ran, own', told, shows⟩ := read_spec D trace ctrace events k pos g
          (inv.net g (List.mem_of_getElem? sent)) addressed frame own (t.buf k) sinZero padded
        rw [taken]
        simp only [if_pos all, has, ran, Option.bind_some]
        refine .some ⟨table, rfl, rfl, rfl, ?_, List.rel_append events shows, ?_, keep _ _ _ taken⟩
        · intro k'
          by_cases same : k' = k
          · rw [same]
            exact ⟨frame', Function.update_self .., own'⟩
          · obtain ⟨frame'', has', own''⟩ := held k'
            exact ⟨frame'', (Function.update_of_ne same ..).trans has', own''⟩
        · apply explained.append_all Explained.mono
          intro e mem
          obtain ⟨salida, written, rfl⟩ := List.mem_map.mp mem
          exact told salida written
    · simp only [Composed.step, if_neg all]
      exact .none

theorem alike_run (D : Deployment ι κ) (M : Instalacion D) (junk : κ → Buffer)
    (schedule : List (Act ι κ)) :
    Option.Rel (fun x y => Alike D x.2 y.2 x.1 y.1)
      (exec (step D M) (State.initial M) schedule)
      (exec (Composed.step D) (Composed.State.initial junk) (schedule.map Act.act)) :=
  exec_lockstep (step D M) (Composed.step D) Act.act (Alike D) (alike_step D M) schedule [] [] _ _
    (alike_initial D M junk)

/-- The system of the assembly programs moves in step with that of the C programs: under
every schedule both are refused or both go through, and then the same datagrams have been
sent, the broker's memory holds the C broker's table, and the events match one by one. -/
theorem runs_in_step (D : Deployment ι κ) (M : Instalacion D) (junk : κ → Buffer)
    (schedule : List (Act ι κ)) :
    Option.Rel
      (fun x y => x.1.net = y.1.net ∧ TableHolds x.1.broker y.1.topics ∧
        List.Forall₂ Matches x.2 y.2)
      (exec (step D M) (State.initial M) schedule)
      (exec (Composed.step D) (Composed.State.initial junk) (schedule.map Act.act)) := by
  have together := alike_run D M junk schedule
  generalize exec (step D M) (State.initial M) schedule = x at together ⊢
  generalize exec (Composed.step D) _ _ = y at together ⊢
  cases together with
  | none => exact .none
  | some alike => exact .some ⟨alike.net, alike.table, alike.events⟩

/-- Nothing that an assembly subscriber writes is made up: a story is the body that a
publisher of its topic sent before, on a topic that this subscriber's address asked for,
and every other text is the confirmation of such a topic, as a datagram of another form. -/
theorem texts_explained (D : Deployment ι κ) (M : Instalacion D) (final : State ι κ)
    (trace : List (Event ι κ)) (run : Run D M final trace) : Justified (Explained D) trace := by
  obtain ⟨schedule, ran⟩ := run
  have together := alike_run D M (fun _ => Subscriber.zeroBuffer) schedule
  rw [ran] at together
  generalize exec (Composed.step D) _ _ = y at together
  cases together with
  | some alike => exact alike.explained

/-- The pair of programs whose story the C programs tell in `Provenance`. -/
def pairInstalled : Instalacion Provenance.pair where
  ip := 0x0100007F
  port := 9000
  brokerAddr_eq := by decide
  argv := fun _ => [⟨ascii "subscriber_udp_asm", by decide⟩, ⟨ascii "127.0.0.1", by decide⟩,
    ⟨ascii "9000", by decide⟩, ⟨ascii "A", Provenance.journalist.argument⟩]
  enough := fun _ => by decide
  topics_eq := fun _ => rfl
  brokerFrame := ⟨List.replicate 2880 0, List.length_replicate⟩
  gTopics := ⟨List.replicate 135424 0, List.length_replicate⟩
  sendPubFrame := fun _ _ => ⟨List.replicate 2952 0, List.length_replicate⟩
  publisherFrame := fun _ => ⟨List.replicate 1736 0, List.length_replicate⟩
  subscriberFrame := fun _ => ⟨List.replicate 1560 0, List.length_replicate⟩

def storyActs : List (Act Unit Unit) :=
  Provenance.storyRun.map fun act => ⟨act, List.replicate 8 0, rfl⟩

theorem texts_explained_story : ∃ trace, List.Forall₂ Matches trace Provenance.storyTrace ∧
    Justified (Explained Provenance.pair) trace := by
  have some_event : Provenance.storyTrace ≠ [] := by decide +kernel
  obtain ⟨final, taken⟩ := exec_traceOf _ _ _ some_event
  have together := alike_run Provenance.pair pairInstalled (fun _ => Subscriber.zeroBuffer)
    storyActs
  have same : storyActs.map Act.act = Provenance.storyRun := by
    rw [storyActs, List.map_map]
    exact List.map_id _
  rw [same, taken] at together
  cases ran : exec (step Provenance.pair pairInstalled) (State.initial pairInstalled) storyActs with
  | none =>
    rw [ran] at together
    cases together
  | some x =>
    rw [ran] at together
    cases together with
    | some alike =>
      exact ⟨x.2, alike.events,
        texts_explained Provenance.pair pairInstalled x.1 x.2 ⟨storyActs, ran⟩⟩

end SportsPubSub.Udp.AsmSystem
