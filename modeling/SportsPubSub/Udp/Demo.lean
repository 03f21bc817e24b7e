import Mathlib.Data.List.Nodup
import Mathlib.Data.List.Range
import SportsPubSub.Udp.Sizes

/-!
# The deterministic demo

With `-d` every event carries its number instead of the time. What is sent then
depends on the topic and the number of events alone, and the number is read back from
the NEWS text: it follows the first separator, which the topic does not contain.
-/
namespace SportsPubSub.Udp.Demo
open Lib.Posix Lib.Decimal Lib.Reactive Lib.BoundedMultimap
open Protocol Broker Routing Subscription Publication Publisher Registry Sizes

def sentBytes : Paso → Option Bytes
  | .send datagram => some datagram
  | _ => none

/-- The datagrams of a run, in order. -/
def sends (pasos : List Paso) : List Bytes := pasos.filterMap sentBytes

/-- A run of the program with `-d` and `n` events, in which every `send` succeeds. -/
structure DemoRun (n : Nat) where
  options : Options
  world : World
  lines : List StdinLine
  count : options.autoCount = n
  deterministic : options.deterministic = true
  succeeds : ∀ k, world.sendOk k = true

/-- What the demo loop of the run sends; the lines of stdin come later. -/
def DemoRun.demo {n : Nat} (run : DemoRun n) (topic : Bytes) : List Bytes :=
  (sends (publisher run.options run.world topic run.lines)).take n

/-- The body of event `i`. -/
def demoBody (topic : Bytes) (n i : Nat) : Bytes :=
  sequenceText i n ++ timelineText (i % matchTimelineLen) (teams topic).1 (teams topic).2

/-- The number of the event behind the first separator: digits between `[#` and `/`. -/
def newsIndex (news : Bytes) : Option Nat :=
  match strchr news charBar with
  | none => none
  | some sep =>
      let body := news.drop (sep + 1)
      if body.take 2 = ascii "[#" then some (decimalValue ((body.drop 2).takeWhile isDigit) - 1)
      else none

/-- The broker sends this to `a` when the datagram arrives, in some reachable state. -/
def ForwardedFor (datagram news : Bytes) (a : SockaddrIn) : Prop :=
  ∃ history, ∃ arrival : Arrival, arrival.datagram = datagram ∧
    (news, a) ∈ datagramsSent (broker (runFrom broker [] history) arrival).2

theorem newsIndex_append (front rest : Bytes) (n i : Nat) (bar : charBar ∉ front) :
    newsIndex (front ++ charBar :: (sequenceText i n ++ rest)) = some i := by
  have found := strchr_append front (sequenceText i n ++ rest) charBar bar
  have behind : (front ++ charBar :: (sequenceText i n ++ rest)).drop (front.length + 1) =
      ascii "[#" ++ (decimal (i + 1) ++ 47 :: (decimal n ++ ascii "] " ++ rest)) := by
    rw [List.drop_append, List.drop_of_length_le (by omega)]
    simp [sequenceText, ascii]
  have digits := takeWhile_decimal (i + 1) 47 (decimal n ++ ascii "] " ++ rest) (by decide)
  simp only [newsIndex, found, behind]
  rw [List.take_left' (by rfl), List.drop_left' (by rfl), if_pos rfl, digits,
    decimalValue_decimal, Nat.add_sub_cancel]

/-- The number is read off any text that has topic and body behind a literal. -/
theorem newsIndex_numbered (literal topic : Bytes) (n i : Nat) (hl : charBar ∉ literal)
    (bar : charBar ∉ topic) :
    newsIndex (literal ++ topic ++ [charBar] ++ demoBody topic n i ++ [charLf]) = some i := by
  have front : charBar ∉ literal ++ topic := by
    rw [List.mem_append, not_or]
    exact ⟨hl, bar⟩
  have shape : literal ++ topic ++ [charBar] ++ demoBody topic n i ++ [charLf] =
      (literal ++ topic) ++ charBar :: (sequenceText i n ++
        (timelineText (i % matchTimelineLen) (teams topic).1 (teams topic).2 ++ [charLf])) := by
    simp [demoBody]
  rw [shape]
  exact newsIndex_append _ _ n i front

theorem newsIndex_newsText (topic : Bytes) (n i : Nat) (bar : charBar ∉ topic) :
    newsIndex (newsText topic (demoBody topic n i)) = some i :=
  newsIndex_numbered pubsubUdpPrefixNews topic n i (by decide) bar

/-- The number stands at the same place in the datagram of the publisher. -/
theorem newsIndex_pubText (topic : Bytes) (n i : Nat) (bar : charBar ∉ topic) :
    newsIndex (pubText topic (demoBody topic n i)) = some i :=
  newsIndex_numbered pubsubUdpPrefixPub topic n i (by decide) bar

theorem sends_append (xs ys : List Paso) : sends (xs ++ ys) = sends xs ++ sends ys :=
  List.filterMap_append

theorem sends_pause (options : Options) (world : World) (i : Nat) :
    sends (pause options world i) = [] := by
  have any : ∀ waitMs : Nat,
      sends (if waitMs > 0 then [Paso.usleep (waitMs * 1000)] else []) = [] := by
    intro waitMs
    split <;> rfl
  exact any _

theorem sends_sendPub (options : Options) (world : World) (k : Nat) (topic body : Bytes)
    (seq0 nDemo : Nat) (datagram : Bytes) (succeeds : world.sendOk k = true)
    (built : stampedDatagram (world.clock k) topic body options.deterministic seq0 nDemo =
      .ok datagram) :
    sends (sendPub options world k topic body seq0 nDemo).1 = [datagram] ∧
      (sendPub options world k topic body seq0 nDemo).2 = true := by
  simp only [sendPub, built, succeeds, if_true, and_true]
  cases options.quiet <;> rfl

/-- One turn of the loop sends the numbered event, and the loop runs to its end. -/
theorem demoLoop_sends (options : Options) (world : World) (topic : Bytes)
    (short : topic.length ≤ pubsubUdpMaxTopicLen) (numbered : options.deterministic = true)
    (succeeds : ∀ k, world.sendOk k = true) (i todo : Nat)
    (inside : i + todo = options.autoCount) :
    sends (demoLoop options world topic (teams topic).1 (teams topic).2 i todo).1 =
        (List.range' i todo).map (fun j => pubText topic (demoBody topic options.autoCount j)) ∧
      (demoLoop options world topic (teams topic).1 (teams topic).2 i todo).2 = true := by
  induction todo generalizing i with
  | zero => exact ⟨rfl, rfl⟩
  | succ todo ih =>
    obtain ⟨room, built, -⟩ := event_whole options world topic short i (by omega)
    have stamp : stampText (world.clock i) options.deterministic i options.autoCount =
        sequenceText i options.autoCount := by
      simp [stampText, numbered, options.count_pos]
    rw [stamp] at built
    obtain ⟨one, ok⟩ := sends_sendPub options world i topic _ i options.autoCount _ (succeeds i)
      built
    obtain ⟨later, done⟩ := ih (i + 1) (by omega)
    simp only [demoLoop, buildTimelineMessage, snprintf_fits _ _ room, ge_iff_le,
      Nat.not_le.mpr room, if_false, ok, if_true, done, and_true, sends_append, sends_pause, one,
      later]
    rfl

/-- What the demo sends depends on nothing but the topic and the number of events. -/
theorem demo_eq {n : Nat} (run : DemoRun n) (topic : Bytes)
    (short : topic.length ≤ pubsubUdpMaxTopicLen) :
    run.demo topic = (List.range n).map fun i => pubText topic (demoBody topic n i) := by
  obtain ⟨sent, done⟩ := demoLoop_sends run.options run.world topic short run.deterministic
    run.succeeds 0 run.options.autoCount (Nat.zero_add _)
  rw [run.count, ← List.range_eq_range'] at sent
  rw [run.count] at done
  simp only [DemoRun.demo, publisher, topicToTeams_whole topic short, run.count, done, if_true,
    sends_append, sent]
  exact List.take_left' (by simp)

theorem teams_nul_free (topic : Bytes) (ht : 0 ∉ topic) :
    0 ∉ (teams topic).1 ∧ 0 ∉ (teams topic).2 := by
  have other : 0 ∉ rival := by decide
  unfold teams
  split
  · exact ⟨ht, other⟩
  · exact ⟨ht, other⟩
  · refine ⟨fun mem => ht (List.mem_of_mem_take mem), ?_⟩
    dsimp only
    split
    · exact other
    · exact fun mem => ht (List.mem_of_mem_drop mem)

theorem timelineText_nul_free (idx : Nat) (home away : Bytes) (hh : 0 ∉ home) (ha : 0 ∉ away) :
    0 ∉ timelineText idx home away := by
  unfold timelineText
  split <;> simp [ascii, raya, aAguda, enye, oAguda, hh, ha]

/-- Every message ends in a full stop. -/
theorem timelineText_ends (idx : Nat) (home away : Bytes) :
    (timelineText idx home away).getLast? = some 46 := by
  unfold timelineText
  split
  all_goals first
    | (rw [List.getLast?_append]; rfl)
    | rfl

theorem demoBody_nul_free (topic : Bytes) (n i : Nat) (ht : 0 ∉ topic) :
    0 ∉ demoBody topic n i := by
  obtain ⟨hh, ha⟩ := teams_nul_free topic ht
  have message := timelineText_nul_free (i % matchTimelineLen) _ _ hh ha
  simp only [demoBody, sequenceText, List.mem_append, message, decimal_nul_free, or_false,
    not_or]
  decide

theorem demoBody_ends (topic : Bytes) (n i : Nat) : endsInCrlf (demoBody topic n i) = false := by
  rw [endsInCrlf, demoBody, List.getLast?_append, timelineText_ends]
  rfl

/-- The broker forwards event `i` to the whole bucket of the topic, whole. -/
theorem broker_demo (history : List Arrival) (arrival : Arrival) (topic : Bytes) (n i : Nat)
    (accepted : checkTopic topic = .ok ()) (ht : 0 ∉ topic) (inside : i < n) (few : n ≤ 100000)
    (built : arrival.datagram = pubText topic (demoBody topic n i)) :
    datagramsSent (broker (runFrom broker [] history) arrival).2 =
      (bucket (runFrom broker [] history) topic).map
        fun dest => (newsText topic (demoBody topic n i), dest) := by
  obtain ⟨-, bar, short⟩ := checkTopic_ok topic accepted
  have names := length_teams topic short
  have message := length_timelineText (i % matchTimelineLen) _ _ names.1 names.2
  have number := length_sequenceText i n (by omega) few
  have fits : (newsText topic (demoBody topic n i)).length < pubsubUdpMaxMsg := by
    rw [length_newsText, demoBody, List.length_append, pubsubUdpMaxMsg]
    simp only [pubsubUdpMaxTopicLen] at short
    omega
  rw [broker_pubText history arrival topic _ ht (demoBody_nul_free topic n i ht)
    (demoBody_ends topic n i) fits built, publishedTopic_of_no_bar topic bar]

/-- Two runs of the demo on one topic send the same datagrams, no two of them alike. The
broker forwards each as a NEWS text that carries its number, so a subscriber's NEWS
tell which events were lost. -/
theorem demo_identifies_losses {n : Nat} (run other : DemoRun n) (topic : Bytes)
    (accepted : checkTopic topic = .ok ()) (ht : 0 ∉ topic) :
    run.demo topic = other.demo topic ∧ (run.demo topic).length = n ∧ (run.demo topic).Nodup ∧
      (∀ i datagram, (run.demo topic)[i]? = some datagram → ∃ news, newsIndex news = some i ∧
        ∀ history (arrival : Arrival), arrival.datagram = datagram →
          datagramsSent (broker (runFrom broker [] history) arrival).2 =
            (bucket (runFrom broker [] history) topic).map fun dest => (news, dest)) ∧
      ∀ a (received : List Bytes),
        (∀ news ∈ received, ∃ datagram ∈ run.demo topic, ForwardedFor datagram news a) →
        ∀ i datagram, (run.demo topic)[i]? = some datagram →
          ((∃ news ∈ received, ForwardedFor datagram news a) ↔
            some i ∈ received.map newsIndex) := by
  obtain ⟨-, bar, short⟩ := checkTopic_ok topic accepted
  have few : n ≤ 100000 := run.count ▸ run.options.count_le
  have sent := demo_eq run topic short
  have same := demo_eq other topic short
  have event : ∀ i datagram, (run.demo topic)[i]? = some datagram →
      i < n ∧ datagram = pubText topic (demoBody topic n i) := by
    intro i datagram h
    rw [sent, List.getElem?_map, Option.map_eq_some_iff] at h
    obtain ⟨j, at_i, rfl⟩ := h
    obtain ⟨inside, rfl⟩ := List.getElem?_eq_some_iff.mp at_i
    rw [List.length_range] at inside
    rw [List.getElem_range]
    exact ⟨inside, rfl⟩
  have forwarded : ∀ i news a, i < n →
      ForwardedFor (pubText topic (demoBody topic n i)) news a →
      news = newsText topic (demoBody topic n i) := by
    rintro i news a inside ⟨history, arrival, built, mem⟩
    rw [broker_demo history arrival topic n i accepted ht inside few built] at mem
    obtain ⟨dest, -, pair⟩ := List.mem_map.mp mem
    exact (Prod.mk.inj pair).1.symm
  refine ⟨sent.trans same.symm, by rw [sent]; simp, ?_, ?_, ?_⟩
  · -- the numbers are distinct
    apply List.Nodup.of_map newsIndex
    rw [sent, List.map_map]
    have numbers : (newsIndex ∘ fun i => pubText topic (demoBody topic n i)) = some :=
      funext fun i => newsIndex_pubText topic n i bar
    rw [numbers]
    exact List.nodup_range.map (Option.some_injective Nat)
  · intro i datagram h
    obtain ⟨inside, rfl⟩ := event i datagram h
    exact ⟨newsText topic (demoBody topic n i), newsIndex_newsText topic n i bar,
      fun history arrival built => broker_demo history arrival topic n i accepted ht inside few
        built⟩
  · intro a received genuine i datagram h
    obtain ⟨inside, rfl⟩ := event i datagram h
    constructor
    · rintro ⟨news, mem, fwd⟩
      rw [List.mem_map]
      refine ⟨news, mem, ?_⟩
      rw [forwarded i news a inside fwd]
      exact newsIndex_newsText topic n i bar
    · intro numbered
      obtain ⟨news, mem, number⟩ := List.mem_map.mp numbered
      obtain ⟨d, old, fwd⟩ := genuine news mem
      obtain ⟨j, at_j⟩ := List.mem_iff_getElem?.mp old
      obtain ⟨insideJ, rfl⟩ := event j d at_j
      -- the number names one event only
      rw [forwarded j news a insideJ fwd, newsIndex_newsText topic n j bar] at number
      cases number
      exact ⟨news, mem, fwd⟩

/-- Two runs of two events whose clocks and flags differ. -/
def quickRun : DemoRun 2 :=
  ⟨⟨2, true, false, true, true, by decide, by decide⟩, sampleWorld, [], rfl, rfl, fun _ => rfl⟩

def slowRun : DemoRun 2 :=
  ⟨⟨2, false, true, false, true, by decide, by decide⟩,
    ⟨fun k => ⟨k % 1000, by omega, none⟩, fun i => i, fun _ => true⟩,
    [⟨ascii "GOL", by decide⟩], rfl, rfl, fun _ => rfl⟩

theorem demo_identifies_losses_sample :
    quickRun.demo (ascii "A_vs_B") = slowRun.demo (ascii "A_vs_B") ∧
      (quickRun.demo (ascii "A_vs_B")).length = 2 :=
  have whole := demo_identifies_losses quickRun slowRun (ascii "A_vs_B") (by decide) (by decide)
  ⟨whole.1, whole.2.1⟩

end SportsPubSub.Udp.Demo
