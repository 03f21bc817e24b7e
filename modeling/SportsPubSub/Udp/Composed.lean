import Mathlib.Logic.Function.Basic
import SportsPubSub.Lib.DatagramNet
import SportsPubSub.Udp.Demo
import SportsPubSub.Udp.TopicNames

/-!
# The composed UDP system

One broker, publishers indexed by `ι`, subscribers indexed by `κ`, and a network
that loses, duplicates, delays and reorders but does not forge. Each program runs
as in its own module: a publisher sends what a run of `main` sends, a subscriber
sends one `SUB` for each argument and then reads, the broker loops over
`recvfrom`. The schedule decides who moves, which datagram is delivered and which
`sendto` of the broker fails; a client whose own `sendto` fails is one whose datagram
is never delivered and that does not move again.
-/
namespace SportsPubSub.Udp.Composed
open Lib.Posix Lib.Decimal Lib.Reactive Lib.DatagramNet
open Protocol Broker Routing Publisher Subscriber Publication Registry Sizes Demo TopicNames

/-- The datagrams of a run that `send` took, in order: a failed call is followed by
its error. -/
def posted : List Paso → List Bytes
  | [] => []
  | .send _ :: .fallo .sendFallo :: rest => posted rest
  | .send datagram :: rest => datagram :: posted rest
  | _ :: rest => posted rest

/-- The datagrams of a reaction that `sendto` took, with their destinations. -/
def taken : List Effect → List (Bytes × SockaddrIn)
  | [] => []
  | .sendto _ _ :: .log .sendtoFallo :: rest => taken rest
  | .sendto datagram dest :: rest => (datagram, dest) :: taken rest
  | _ :: rest => taken rest

/-- publisher_udp.c after its arguments were accepted. An argument has no NUL. -/
structure Publicador where
  addr : SockaddrIn
  options : Options
  world : World
  topic : Bytes
  lines : List StdinLine
  accepted : checkTopic topic = .ok ()
  argument : 0 ∉ topic

def Publicador.datagrams (p : Publicador) : List Bytes :=
  posted (publisher p.options p.world p.topic p.lines)

/-- subscriber_udp.c with its topic arguments. -/
structure Suscriptor where
  addr : SockaddrIn
  topics : List Bytes
  accepted : ∀ t ∈ topics, checkArgv t = .ok ()
  arguments : ∀ t ∈ topics, 0 ∉ t

structure Deployment (ι κ : Type) where
  brokerAddr : SockaddrIn
  publisher : ι → Publicador
  subscriber : κ → Suscriptor
  elsewhere : ∀ k, (subscriber k).addr ≠ brokerAddr

variable {ι κ : Type}

/-- The table of the broker, how far each client has got, and everything sent. -/
structure State (ι κ : Type) where
  topics : Topics
  pubs : ι → Nat
  subs : κ → Nat
  buf : κ → Buffer
  net : Net SockaddrIn Bytes

inductive Act (ι κ : Type) where
  | publisherSends (i : ι)
  | subscriberAsks (k : κ)
  | brokerReads (pos : Nat) (net : Nat → Bool)
  | subscriberReads (k : κ) (pos : Nat)

/-- What a step leaves behind: a datagram of a publisher, a subscription sent, a
datagram handled by the broker, a line printed by a subscriber. -/
inductive Event (ι κ : Type) where
  | published (i : ι) (datagram : Bytes)
  | asked (k : κ) (topic : Bytes)
  | handled (pos : Nat) (src : SockaddrIn) (datagram : Bytes)
  | displayed (k : κ) (pos : Nat) (line : Line)
  deriving DecidableEq

def State.initial (junk : κ → Buffer) : State ι κ :=
  ⟨[], fun _ => 0, fun _ => 0, junk, []⟩

/-- `recvfrom` of the broker: at most `PUBSUB_UDP_MAX_MSG` bytes are stored. -/
def arrivalOf (g : Datagram SockaddrIn Bytes) (net : Nat → Bool) : Arrival :=
  ⟨g.src, g.body.take pubsubUdpMaxMsg, by
    rw [List.length_take]
    exact Nat.min_le_left _ _, net⟩

/-- What the broker's pass adds to the network. -/
def answers (D : Deployment ι κ) (topics : Topics) (arrival : Arrival) : Net SockaddrIn Bytes :=
  (taken (broker topics arrival).2).map fun x => ⟨D.brokerAddr, x.2, x.1⟩

variable [DecidableEq ι] [DecidableEq κ]

def step (D : Deployment ι κ) : Lib.Reactive.System (State ι κ) (Act ι κ) (Event ι κ)
  | s, .publisherSends i =>
      ((D.publisher i).datagrams[s.pubs i]?).map fun datagram =>
        ({ s with
            pubs := Function.update s.pubs i (s.pubs i + 1),
            net := s.net ++ [⟨(D.publisher i).addr, D.brokerAddr, datagram⟩] },
          [.published i datagram])
  | s, .subscriberAsks k =>
      match (D.subscriber k).topics[s.subs k]? with
      | none => none
      | some topic =>
          match sendSub topic with
          | .error _ => none
          | .ok datagram =>
              some
                ({ s with
                    subs := Function.update s.subs k (s.subs k + 1),
                    net := s.net ++ [⟨(D.subscriber k).addr, D.brokerAddr, datagram⟩] },
                  [.asked k topic])
  | s, .brokerReads pos net =>
      (deliver s.net D.brokerAddr pos).map fun g =>
        ({ s with
            topics := (broker s.topics (arrivalOf g net)).1,
            net := s.net ++ answers D s.topics (arrivalOf g net) },
          [.handled pos g.src g.body])
  | s, .subscriberReads k pos =>
      if s.subs k = (D.subscriber k).topics.length then
        (deliver s.net (D.subscriber k).addr pos).map fun g =>
          let (buf, lines) := subscriber D.brokerAddr (s.buf k) (g.src, g.body)
          ({ s with buf := Function.update s.buf k buf }, lines.map (.displayed k pos))
      else none

/-- `trace` is what some schedule can leave behind. -/
def Run (D : Deployment ι κ) (final : State ι κ) (trace : List (Event ι κ)) : Prop :=
  ∃ junk schedule, exec (step D) (State.initial junk) schedule = some (final, trace)

/-- What one step can do to the whole system. -/
inductive Moves (D : Deployment ι κ) (s : State ι κ) : State ι κ → List (Event ι κ) → Prop
  | published (i : ι) (datagram : Bytes) (own : datagram ∈ (D.publisher i).datagrams) :
      Moves D s
        { s with
          pubs := Function.update s.pubs i (s.pubs i + 1),
          net := s.net ++ [⟨(D.publisher i).addr, D.brokerAddr, datagram⟩] }
        [.published i datagram]
  | asked (k : κ) (topic : Bytes) (own : topic ∈ (D.subscriber k).topics) :
      Moves D s
        { s with
          subs := Function.update s.subs k (s.subs k + 1),
          net := s.net ++ [⟨(D.subscriber k).addr, D.brokerAddr, subText topic⟩] }
        [.asked k topic]
  | handled (pos : Nat) (net : Nat → Bool) (g : Datagram SockaddrIn Bytes)
      (found : s.net[pos]? = some g) (addressed : g.dst = D.brokerAddr) :
      Moves D s
        { s with
          topics := (broker s.topics (arrivalOf g net)).1,
          net := s.net ++ answers D s.topics (arrivalOf g net) }
        [.handled pos g.src g.body]
  | displayed (k : κ) (pos : Nat) (g : Datagram SockaddrIn Bytes)
      (found : s.net[pos]? = some g) (addressed : g.dst = (D.subscriber k).addr) :
      Moves D s
        { s with
          buf := Function.update s.buf k
            (subscriber D.brokerAddr (s.buf k) (g.src, g.body)).1 }
        ((subscriber D.brokerAddr (s.buf k) (g.src, g.body)).2.map (.displayed k pos))

/-- Every step is one of the moves. -/
theorem step_moves (D : Deployment ι κ) (s next : State ι κ) (a : Act ι κ)
    (events : List (Event ι κ)) (h : step D s a = some (next, events)) :
    Moves D s next events := by
  cases a with
  | publisherSends i =>
    simp only [step, Option.map_eq_some_iff] at h
    obtain ⟨datagram, own, h⟩ := h
    cases h
    exact .published i datagram (List.mem_of_getElem? own)
  | subscriberAsks k =>
    simp only [step] at h
    split at h
    · cases h
    · next topic own =>
      have mem := List.mem_of_getElem? own
      rw [sendSub_accepted topic ((D.subscriber k).accepted topic mem)] at h
      cases h
      exact .asked k topic mem
  | brokerReads pos net =>
    simp only [step, Option.map_eq_some_iff] at h
    obtain ⟨g, found, h⟩ := h
    obtain ⟨sent, addressed⟩ := deliver_some _ _ _ _ found
    cases h
    exact .handled pos net g sent addressed
  | subscriberReads k pos =>
    simp only [step] at h
    split at h
    · simp only [Option.map_eq_some_iff] at h
      obtain ⟨g, found, h⟩ := h
      obtain ⟨sent, addressed⟩ := deliver_some _ _ _ _ found
      cases h
      exact .displayed k pos g sent addressed
    · cases h

/-- The invariant rule of the composed system. -/
theorem run_invariant (D : Deployment ι κ) (Inv : List (Event ι κ) → State ι κ → Prop)
    (start : ∀ junk, Inv [] (State.initial junk))
    (keep : ∀ trace s next events, Inv trace s → Moves D s next events →
      Inv (trace ++ events) next)
    (final : State ι κ) (trace : List (Event ι κ)) (run : Run D final trace) : Inv trace final := by
  obtain ⟨junk, schedule, h⟩ := run
  exact exec_invariant (step D) Inv
    (fun trace s a next events inv taken =>
      keep trace s next events inv (step_moves D s next a events taken))
    schedule _ final trace (start junk) h

theorem mem_posted (pasos : List Paso) (datagram : Bytes) (h : datagram ∈ posted pasos) :
    .send datagram ∈ pasos := by
  induction pasos using posted.induct with
  | case1 => cases h
  | case2 d rest ih =>
    simp only [posted] at h
    exact List.mem_cons_of_mem _ (List.mem_cons_of_mem _ (ih h))
  | case3 d rest follows ih =>
    rw [posted] at h
    · rcases List.mem_cons.mp h with rfl | later
      · exact List.mem_cons_self
      · exact List.mem_cons_of_mem _ (ih later)
    · exact follows
  | case4 paso rest other other' ih =>
    rw [posted] at h
    · exact List.mem_cons_of_mem _ (ih h)
    · exact other
    · exact other'

/-- A datagram that was taken was passed to `sendto`. -/
theorem taken_sublist (effects : List Effect) : (taken effects).Sublist (sendtos effects) := by
  induction effects using taken.induct with
  | case1 => exact .slnil
  | case2 d dest rest ih => exact .cons _ ih
  | case3 d dest rest follows ih =>
    rw [taken]
    · exact .cons_cons _ ih
    · exact follows
  | case4 e rest other other' ih =>
    have skip : sendtos (e :: rest) = sendtos rest := by
      cases e with
      | sendDatagram d dest => rfl
      | sendto d dest => exact absurd rfl (other' d dest)
      | log line => rfl
    rw [taken, skip]
    · exact ih
    · exact other
    · exact other'

/-- A whole text on a topic: the body has no NUL and does not end in a line end. -/
structure Noticia (topic cuerpo datagram : Bytes) : Prop where
  whole : datagram = pubText topic cuerpo
  free : 0 ∉ cuerpo
  ends : endsInCrlf cuerpo = false
  size : datagram.length ≤ 1125

theorem padded_nul_free (width n : Nat) : 0 ∉ padded width n := by
  simp only [padded, List.mem_append, List.mem_replicate, decimal_nul_free, or_false, not_and]
  intro _
  decide

theorem signedDecimal_nul_free (z : Int) : 0 ∉ signedDecimal z := by
  unfold signedDecimal
  split
  · rw [List.mem_cons, not_or]
    exact ⟨by decide, decimal_nul_free _⟩
  · exact decimal_nul_free _

theorem millisText_nul_free (clock : Clock) : 0 ∉ millisText clock := by
  simp only [millisText, List.mem_append, padded_nul_free, or_false, not_or]
  decide

theorem timestampText_nul_free (clock : Clock) : 0 ∉ timestampText clock := by
  unfold timestampText
  split
  · exact List.not_mem_nil
  · simp only [dateText, List.mem_append, padded_nul_free, signedDecimal_nul_free,
      millisText_nul_free, or_false, not_or]
    decide

theorem stampText_nul_free (clock : Clock) (deterministic : Bool) (seq0 nDemo : Nat) :
    0 ∉ stampText clock deterministic seq0 nDemo := by
  unfold stampText
  split
  · simp only [sequenceText, List.mem_append, decimal_nul_free, or_false, not_or]
    decide
  · exact timestampText_nul_free clock

/-- The mark of the time ends in a blank. -/
theorem timestampText_ends (clock : Clock) : endsInCrlf (timestampText clock) = false := by
  unfold timestampText
  split
  · rfl
  · rw [endsInCrlf, millisText, ← List.append_assoc, List.getLast?_append]
    rfl

/-- A stripped line behind a text that does not end in a line end. -/
theorem ends_stripped (front s : Bytes) (ends : endsInCrlf front = false) :
    endsInCrlf (front ++ s.rdropWhile isCrlf) = false := by
  by_cases empty : s.rdropWhile isCrlf = []
  · rw [empty, List.append_nil]
    exact ends
  · have last := List.rdropWhile_last_not isCrlf s empty
    rw [endsInCrlf, List.getLast?_append, List.getLast?_eq_getLast_of_ne_nil empty]
    simpa using last

/-- Whatever a publisher's `send` takes is a whole text on its topic. -/
theorem datagrams_whole (p : Publicador) (datagram : Bytes) (h : datagram ∈ p.datagrams) :
    ∃ cuerpo, Noticia p.topic cuerpo datagram := by
  have short := (checkTopic_ok p.topic p.accepted).2.2
  obtain ⟨hh, ha⟩ := teams_nul_free p.topic p.argument
  have demo := demoLoop_intended p.options p.world p.topic short
    (fun d => ∃ cuerpo, Noticia p.topic cuerpo d)
    (fun i inside => by
      have message := timelineText_nul_free (i % matchTimelineLen) _ _ hh ha
      refine ⟨_, rfl, ?_, ?_, (event_whole p.options p.world p.topic short i inside).2.2⟩
      · simp only [List.mem_append, stampText_nul_free, message, or_false, not_false_eq_true]
      · rw [endsInCrlf, List.getLast?_append, timelineText_ends]
        rfl)
    0 p.options.autoCount (Nat.zero_add _)
  have stdin := stdinLoop_intended p.options p.world p.topic short
    (fun d => ∃ cuerpo, Noticia p.topic cuerpo d) p.lines
    (fun k line read => by
      refine ⟨_, rfl, ?_, ends_stripped _ _ (timestampText_ends _),
        (stampedDatagram_whole (p.world.clock k) p.topic _ false 0 0 short
          (length_stdinBody line) (by decide) (by decide)).2⟩
      rw [List.mem_append, not_or]
      refine ⟨timestampText_nul_free _, ?_⟩
      intro nul
      exact mem_text_ne_zero _ _ ((List.rdropWhile_prefix _ _).subset nul) rfl)
    p.options.autoCount
  have sent := mem_posted _ _ h
  simp only [publisher, topicToTeams_whole p.topic short] at sent
  split at sent
  · rcases List.mem_append.mp sent with early | late
    · exact demo _ early
    · exact stdin _ late
  · exact demo _ sent

end SportsPubSub.Udp.Composed
