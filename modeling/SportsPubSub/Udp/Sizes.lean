import SportsPubSub.Udp.Publisher
import SportsPubSub.Udp.Registry

/-!
# The size limits of the UDP programs

The header allows texts of 1400 bytes, and every buffer that receives one has room
for its NUL as well, but for the `out` of `handle_publish`. The publisher's texts
stay far below: whatever the topic, the clock and the lines of stdin, no buffer cuts
any of them, and the broker's answer fits.
-/
namespace SportsPubSub.Udp.Sizes
open Lib.Posix Lib.Decimal Lib.Reactive Lib.BoundedMultimap
open Protocol Broker Routing Subscription Publication Publisher Registry

/-- A text within the limit of the header is forwarded exactly when it leaves room
for a NUL. The limit of `send_datagram` is never exceeded. -/
theorem news_forwarded_iff (history : List Arrival) (arrival : Arrival) (topic body : Bytes)
    (parsed : PubText arrival.datagram topic body)
    (stored : topic ∈ keys (view (runFrom broker [] history)))
    (limit : (newsText topic body).length ≤ pubsubUdpMaxMsg) :
    let topics := runFrom broker [] history
    ((∀ a ∈ bucket topics topic,
        (newsText topic body, a) ∈ sendtos (broker topics arrival).2) ↔
      (newsText topic body).length ≠ pubsubUdpMaxMsg) ∧
      ∀ other : Arrival, .log .mensajeDemasiadoLargo ∉ (broker topics other).2 := by
  intro topics
  have never : ∀ other : Arrival, .log .mensajeDemasiadoLargo ∉ (broker topics other).2 :=
    fun other => (overflows_false _ (broker_reaction topics other).sent.2).1
  refine ⟨?_, never⟩
  rw [(broker_reaction topics arrival).sent.1, broker_publish topics arrival topic body parsed]
  constructor
  · intro served full
    -- a stored topic has a subscriber, and nothing is sent to it
    obtain ⟨e, mem, name⟩ := List.mem_map.mp stored
    obtain ⟨b, here, rfl⟩ := List.mem_map.mp mem
    have inv := tableInv_run history
    obtain ⟨i, slot⟩ := List.mem_iff_getElem?.mp here
    have values : bucket topics topic = b.subs := by
      have found := inv.indices.unique i b slot
      rw [bucket, ← bucket_eq_valuesAt, ← name]
      simp [topics, found, slot]
    obtain ⟨a, first⟩ := List.exists_mem_of_length_pos (inv.sizes b here).1
    have sent := served a (values ▸ first)
    rw [if_neg (by omega)] at sent
    cases sent
  · intro short a mem
    rw [if_pos (by omega)]
    exact List.mem_map_of_mem mem

theorem news_forwarded_iff_sample :
    (newsText (ascii "A_vs_B") (ascii "GOL|1-0"), sampleSub.client) ∈
      sendtos (broker (runFrom broker [] [sampleSub]) samplePub).2 :=
  (news_forwarded_iff [sampleSub] samplePub _ _ samplePub_text (by decide) (by decide)).1.mpr
    (by decide) sampleSub.client (by decide)

/-- A body that makes the NEWS text on topic `A` exactly 1400 bytes long. -/
def fullBody : Bytes := List.replicate 1392 120

def shortSub : Arrival :=
  ⟨⟨afInet, 0x0100007F, 7000⟩, ascii "SUB A\n", by decide, fun _ => true⟩

theorem length_fullBody : fullBody.length = 1392 := List.length_replicate

theorem fullBody_plain (c : UInt8) (other : c ≠ 120) : c ∉ fullBody := by
  intro mem
  exact other (List.eq_of_mem_replicate mem)

def fullPub : Arrival :=
  ⟨⟨afInet, 0x0100007F, 7001⟩, pubText (ascii "A") fullBody, by
    rw [length_pubText, length_fullBody]
    decide, fun _ => true⟩

theorem fullPub_text : PubText fullPub.datagram (ascii "A") fullBody := by
  have ends : endsInCrlf fullBody = false := by
    rw [endsInCrlf, fullBody, List.getLast?_replicate]
    rfl
  exact ⟨_, text_pubText _ _ (by decide) (fullBody_plain 0 (by decide)),
    strip_payload _ _ ends, by decide, by decide⟩

/-- It is as long as the header allows, and it is dropped. -/
theorem full_news_dropped :
    fullPub.datagram.length ≤ pubsubUdpMaxMsg ∧ PubText fullPub.datagram (ascii "A") fullBody ∧
      (newsText (ascii "A") fullBody).length ≤ pubsubUdpMaxMsg ∧
      shortSub.client ∈ bucket (runFrom broker [] [shortSub]) (ascii "A") ∧
      sendtos (broker (runFrom broker [] [shortSub]) fullPub).2 = [] := by
  have size : (newsText (ascii "A") fullBody).length = pubsubUdpMaxMsg := by
    rw [length_newsText, length_fullBody]
    rfl
  refine ⟨fullPub.fits, fullPub_text, size.le, by decide, ?_⟩
  rw [(broker_reaction _ fullPub).sent.1, broker_publish _ fullPub _ _ fullPub_text, size]
  exact if_neg (Nat.lt_irrefl _)

/-- The teams that a topic names, without regard to any buffer. -/
def teams (topic : Bytes) : Bytes × Bytes :=
  match strstr (ascii "_vs_") topic with
  | none => (topic, rival)
  | some 0 => (topic, rival)
  | some (k + 1) =>
      (topic.take (k + 1), if topic.drop (k + 5) = [] then rival else topic.drop (k + 5))

/-- `home` and `away` hold the whole names. -/
theorem topicToTeams_whole (topic : Bytes) (short : topic.length ≤ pubsubUdpMaxTopicLen) :
    topicToTeams topic teamSize teamSize = teams topic := by
  have room : topic.length < teamSize := Nat.lt_succ_of_le short
  have whole : (snprintf teamSize topic).1 = topic := by rw [snprintf_fits _ _ room]
  have other : (snprintf teamSize rival).1 = rival := by decide
  unfold topicToTeams teams
  cases found : strstr (ascii "_vs_") topic with
  | none => simp only [whole, other]
  | some k =>
    cases k with
    | zero => simp only [whole, other]
    | succ k =>
      have inside := strstr_inside _ _ _ found
      have away : (snprintf teamSize (topic.drop (k + 1 + 4))).1 = topic.drop (k + 5) := by
        rw [snprintf_fits _ _ (by rw [List.length_drop]; omega)]
      have home : ¬ k + 1 ≥ teamSize := by omega
      simp only [away, other, if_neg home]

theorem length_teams (topic : Bytes) (short : topic.length ≤ pubsubUdpMaxTopicLen) :
    (teams topic).1.length ≤ pubsubUdpMaxTopicLen ∧
      (teams topic).2.length ≤ pubsubUdpMaxTopicLen := by
  have other : rival.length ≤ pubsubUdpMaxTopicLen := by decide
  unfold teams
  split
  · exact ⟨short, other⟩
  · exact ⟨short, other⟩
  · next k _ =>
    constructor
    · exact (List.length_take_le' _ _).trans short
    · dsimp only
      split
      · exact other
      · rw [List.length_drop]
        omega

/-- Every template with two full names stays below `sizeof msgbuf`. -/
theorem length_timelineText (idx : Nat) (home away : Bytes)
    (hh : home.length ≤ pubsubUdpMaxTopicLen) (ha : away.length ≤ pubsubUdpMaxTopicLen) :
    (timelineText idx home away).length ≤ 238 := by
  simp only [pubsubUdpMaxTopicLen] at hh ha
  unfold timelineText
  split <;> simp [ascii, raya, aAguda, enye, oAguda] <;> omega

/-- The longest year has eleven characters. -/
theorem length_dateText (tm : Tm) : (dateText tm).length ≤ 27 := by
  have bounds := tm.year_int
  have mon := tm.mon_lt
  have mday := tm.mday_le
  have hour := tm.hour_lt
  have min := tm.min_lt
  have sec := tm.sec_le
  have year := length_signedDecimal_le (tm.tmYear + 1900) 10 (by decide) (by omega)
  simp only [dateText, List.length_append,
    length_padded 2 (tm.tmMon + 1) (by decide) (by omega),
    length_padded 2 tm.tmMday (by decide) (by omega),
    length_padded 2 tm.tmHour (by decide) (by omega),
    length_padded 2 tm.tmMin (by decide) (by omega),
    length_padded 2 tm.tmSec (by decide) (by omega)]
  simp [ascii]
  omega

theorem length_millisText (clock : Clock) : (millisText clock).length = 6 := by
  have usec := clock.usec_lt
  simp only [millisText, List.length_append,
    length_padded 3 (clock.tvUsec / 1000) (by decide) (by omega)]
  rfl

/-- The mark that `body_with_timestamp` puts in front of a body; none when there is no
local time. -/
def timestampText (clock : Clock) : Bytes :=
  match clock.localtime with
  | none => []
  | some tm => dateText tm ++ millisText clock

theorem length_timestampText (clock : Clock) : (timestampText clock).length ≤ 33 := by
  unfold timestampText
  split
  · simp
  · next tm _ =>
    have date := length_dateText tm
    rw [List.length_append, length_millisText]
    omega

theorem formatted_fits (fallo : Fallo) (outSz : Nat) (whole : Bytes) (fits : whole.length < outSz) :
    formatted fallo outSz whole = .ok whole := by
  rw [formatted, snprintf_fits _ _ fits]
  exact if_neg (Nat.not_le.mpr fits)

/-- `ts` holds the whole date and the whole fraction. -/
theorem bodyWithTimestamp_whole (outSz : Nat) (clock : Clock) (body : Bytes)
    (fits : body.length + 33 < outSz) :
    bodyWithTimestamp outSz clock body = .ok (timestampText clock ++ body) := by
  unfold bodyWithTimestamp timestampText
  cases clock.localtime with
  | none => exact formatted_fits _ _ _ (by omega)
  | some tm =>
    have date := length_dateText tm
    have millis := length_millisText clock
    have room : (dateText tm).length < tsSize := Nat.lt_of_le_of_lt date (by decide)
    have fraction : (snprintf (tsSize - (dateText tm).length) (millisText clock)).1 =
        millisText clock := by
      rw [snprintf_fits _ _ (by rw [millis, tsSize]; omega)]
    simp only [strftime, if_pos room, fraction]
    apply formatted_fits
    simp only [List.length_append]
    omega

theorem length_sequenceText (seq0 nDemo : Nat) (inside : seq0 < 100000) (few : nDemo ≤ 100000) :
    (sequenceText seq0 nDemo).length ≤ 17 := by
  have position := length_decimal_le (seq0 + 1) 6 (by decide) (by omega)
  have total := length_decimal_le nDemo 6 (by decide) (by omega)
  simp only [sequenceText, List.length_append]
  simp [ascii]
  omega

/-- What `apply_body_stamp` puts in front of a body. -/
def stampText (clock : Clock) (deterministic : Bool) (seq0 nDemo : Nat) : Bytes :=
  if deterministic && nDemo > 0 then sequenceText seq0 nDemo else timestampText clock

/-- `stamped` and `buf` hold the whole texts. -/
theorem stampedDatagram_whole (clock : Clock) (topic body : Bytes) (deterministic : Bool)
    (seq0 nDemo : Nat) (short : topic.length ≤ pubsubUdpMaxTopicLen) (line : body.length ≤ 1023)
    (inside : seq0 < 100000) (few : nDemo ≤ 100000) :
    stampedDatagram clock topic body deterministic seq0 nDemo =
        .ok (pubText topic (stampText clock deterministic seq0 nDemo ++ body)) ∧
      (pubText topic (stampText clock deterministic seq0 nDemo ++ body)).length ≤ 1125 := by
  have marked : applyBodyStamp pubsubUdpMaxMsg clock body deterministic seq0 nDemo =
      .ok (stampText clock deterministic seq0 nDemo ++ body) ∧
      (stampText clock deterministic seq0 nDemo).length ≤ 33 := by
    have number := length_sequenceText seq0 nDemo inside few
    unfold applyBodyStamp stampText
    split
    · refine ⟨formatted_fits _ _ _ ?_, number.trans (by decide)⟩
      rw [List.length_append, pubsubUdpMaxMsg]
      omega
    · exact ⟨bodyWithTimestamp_whole _ clock body (by rw [pubsubUdpMaxMsg]; omega),
        length_timestampText clock⟩
  have size : (pubText topic (stampText clock deterministic seq0 nDemo ++ body)).length ≤ 1125 := by
    have mark := marked.2
    rw [length_pubText, List.length_append]
    simp only [pubsubUdpMaxTopicLen] at short
    omega
  refine ⟨?_, size⟩
  simp only [stampedDatagram, marked.1]
  exact buildPubDatagram_fits _ _ _ (Nat.lt_of_le_of_lt size (by decide))

/-- Every event has room in `msgbuf`, and its datagram is whole. -/
theorem event_whole (options : Options) (world : World) (topic : Bytes)
    (short : topic.length ≤ pubsubUdpMaxTopicLen) (i : Nat) (inside : i < options.autoCount) :
    let body := timelineText (i % matchTimelineLen) (teams topic).1 (teams topic).2
    let mark := stampText (world.clock i) options.deterministic i options.autoCount
    body.length < msgbufSize ∧
      stampedDatagram (world.clock i) topic body options.deterministic i options.autoCount =
        .ok (pubText topic (mark ++ body)) ∧
      (pubText topic (mark ++ body)).length ≤ 1125 := by
  intro body mark
  have names := length_teams topic short
  have message : body.length ≤ 238 := length_timelineText _ _ _ names.1 names.2
  have count := options.count_le
  exact ⟨Nat.lt_of_le_of_lt message (by decide),
    stampedDatagram_whole (world.clock i) topic body options.deterministic i options.autoCount short
      (message.trans (by decide)) (by omega) count⟩

/-- What the program means to send: the whole texts, of the demo and of stdin. -/
inductive Whole (options : Options) (world : World) (topic : Bytes) (lines : List StdinLine) :
    Bytes → Prop
  | demo (i : Nat) (inside : i < options.autoCount) :
      Whole options world topic lines
        (pubText topic (stampText (world.clock i) options.deterministic i options.autoCount ++
          timelineText (i % matchTimelineLen) (teams topic).1 (teams topic).2))
  | stdin (k : Nat) (line : StdinLine) (read : line ∈ lines) :
      Whole options world topic lines
        (pubText topic (timestampText (world.clock k) ++
          (text line.bytes).rdropWhile isCrlf))

/-- A step that sends a good datagram, or fails for no other reason than `send`. -/
def Intended (good : Bytes → Prop) : Paso → Prop
  | .send datagram => good datagram
  | .fallo f => f = .sendFallo
  | .usleep _ => True
  | .enviado _ => True

theorem sendPub_intended (options : Options) (world : World) (k : Nat) (topic body : Bytes)
    (seq0 nDemo : Nat) (good : Bytes → Prop) (datagram : Bytes)
    (built : stampedDatagram (world.clock k) topic body options.deterministic seq0 nDemo =
      .ok datagram) (isGood : good datagram) :
    ∀ paso ∈ (sendPub options world k topic body seq0 nDemo).1, Intended good paso := by
  simp only [sendPub, built]
  intro paso mem
  split at mem
  · rcases List.mem_cons.mp mem with rfl | confirmed
    · exact isGood
    · split at confirmed
      · cases confirmed
      · rw [List.mem_singleton.mp confirmed]
        trivial
  · rcases List.mem_cons.mp mem with rfl | failed
    · exact isGood
    · rw [List.mem_singleton.mp failed]
      rfl

theorem pause_intended (options : Options) (world : World) (i : Nat) (good : Bytes → Prop) :
    ∀ paso ∈ pause options world i, Intended good paso := by
  intro paso mem
  have any : ∀ waitMs : Nat, paso ∈ (if waitMs > 0 then [Paso.usleep (waitMs * 1000)] else []) →
      Intended good paso := by
    intro waitMs here
    split at here
    · rw [List.mem_singleton.mp here]
      trivial
    · cases here
  exact any _ mem

/-- The demo loop: every message fits `msgbuf` and every datagram is whole. -/
theorem demoLoop_intended (options : Options) (world : World) (topic : Bytes)
    (short : topic.length ≤ pubsubUdpMaxTopicLen) (good : Bytes → Prop)
    (isGood : ∀ i, i < options.autoCount →
      good (pubText topic (stampText (world.clock i) options.deterministic i options.autoCount ++
        timelineText (i % matchTimelineLen) (teams topic).1 (teams topic).2)))
    (i todo : Nat) (inside : i + todo = options.autoCount) :
    ∀ paso ∈ (demoLoop options world topic (teams topic).1 (teams topic).2 i todo).1,
      Intended good paso := by
  induction todo generalizing i with
  | zero =>
    intro paso mem
    cases mem
  | succ todo ih =>
    obtain ⟨room, built, -⟩ := event_whole options world topic short i (by omega)
    have sent := sendPub_intended options world i topic _ i options.autoCount good _ built
      (isGood i (by omega))
    have waiting := pause_intended options world i good
    have later := ih (i + 1) (by omega)
    simp only [demoLoop, buildTimelineMessage, snprintf_fits _ _ room, ge_iff_le,
      Nat.not_le.mpr room, if_false]
    intro paso mem
    split at mem
    · simp only [List.mem_append] at mem
      rcases mem with (early | here) | rest
      · exact waiting paso early
      · exact sent paso here
      · exact later paso rest
    · rcases List.mem_append.mp mem with early | here
      · exact waiting paso early
      · exact sent paso here

theorem strip_eq (s : Bytes) : Publisher.stripTrailingCrlf s = s.rdropWhile isCrlf := by
  rw [Publisher.stripTrailingCrlf, take_scanEnd isCrlf s s.length (Nat.le_refl _),
    List.take_length]

theorem length_stdinBody (line : StdinLine) :
    ((text line.bytes).rdropWhile isCrlf).length ≤ 1023 :=
  ((List.rdropWhile_prefix isCrlf _).length_le.trans
    (List.takeWhile_prefix _).length_le).trans line.size_le

/-- The stdin loop: every line is sent whole behind the time, without its line end. -/
theorem stdinLoop_intended (options : Options) (world : World) (topic : Bytes)
    (short : topic.length ≤ pubsubUdpMaxTopicLen) (good : Bytes → Prop) (lines : List StdinLine)
    (isGood : ∀ (k : Nat), ∀ line ∈ lines, good (pubText topic (timestampText (world.clock k) ++
      (text line.bytes).rdropWhile isCrlf))) (k : Nat) :
    ∀ paso ∈ stdinLoop options world topic k lines, Intended good paso := by
  induction lines generalizing k with
  | nil =>
    intro paso mem
    cases mem
  | cons line rest ih =>
    have later := ih fun k line mem => isGood k line (List.mem_cons_of_mem _ mem)
    have built := (stampedDatagram_whole (world.clock k) topic _ options.deterministic 0 0 short
      (length_stdinBody line) (by decide) (by decide)).1
    have plain : stampText (world.clock k) options.deterministic 0 0 =
        timestampText (world.clock k) := by simp [stampText]
    rw [plain] at built
    have sent := sendPub_intended options world k topic _ 0 0 good _ built
      (isGood k line List.mem_cons_self)
    simp only [stdinLoop, strip_eq]
    intro paso mem
    split at mem
    · exact later k paso mem
    · split at mem
      · rcases List.mem_append.mp mem with here | rest
        · exact sent paso here
        · exact later (k + 1) paso rest
      · exact sent paso mem

theorem sendDatagram_logs (ok : Bool) (text : Bytes) (dest : SockaddrIn) (line : Diagnostic)
    (h : .log line ∈ (sendDatagram ok text dest).2) :
    line = .mensajeDemasiadoLargo ∨ line = .sendtoFallo := by
  unfold sendDatagram at h
  split at h
  · exact .inl (by simpa using h)
  · split at h
    · simp at h
    · exact .inr (by simpa using h)

theorem forwardLoop_logs (net : Nat → Bool) (out : Bytes) (i : Nat) (subs : List SockaddrIn)
    (line : Diagnostic) (h : .log line ∈ (forwardLoop net out i subs).2) :
    line = .mensajeDemasiadoLargo ∨ line = .sendtoFallo := by
  induction subs generalizing i with
  | nil => cases h
  | cons dest rest ih =>
    rcases List.mem_append.mp h with here | later
    · exact sendDatagram_logs _ _ _ _ here
    · exact ih _ later

/-- A short datagram is never dropped for its length. -/
theorem broker_short (topics : Topics) (arrival : Arrival)
    (short : arrival.datagram.length + 2 < pubsubUdpMaxMsg) :
    .log .newsDemasiadoLargo ∉ (broker topics arrival).2 := by
  have size : (text arrival.datagram).length ≤ arrival.datagram.length :=
    (List.takeWhile_prefix _).length_le
  have reaction := broker_reaction topics arrival
  generalize (broker topics arrival).1 = next at reaction
  generalize (broker topics arrival).2 = effects at reaction ⊢
  intro mem
  cases reaction with
  | dropped lines quiet long =>
    have bound := long (by simpa using mem)
    omega
  | confirmed topic next warnings extremos parsed kept full =>
    simp only [List.mem_append, List.mem_map, List.mem_singleton] at mem
    rcases mem with (⟨w, warning, same⟩ | answer) | last
    · obtain ⟨t, rfl⟩ := full w warning
      cases same
    · rcases sendDatagram_logs _ _ _ _ answer with other | other
      · cases other
      · cases other
    · cases last
  | forwarded i b body sent isPub slot fits =>
    rcases List.mem_append.mp mem with loop | last
    · rcases forwardLoop_logs _ _ _ _ _ loop with other | other
      · cases other
      · cases other
    · simp at last

/-- Nothing that the publisher puts together is too long for a buffer: not for its own,
which all hold the whole texts, and not for the broker's. -/
theorem size_budget (options : Options) (world : World) (topic : Bytes) (lines : List StdinLine)
    (accepted : checkTopic topic = .ok ()) :
    topicToTeams topic teamSize teamSize = teams topic ∧
      (∀ f, .fallo f ∈ publisher options world topic lines → f = .sendFallo) ∧
      ∀ datagram, .send datagram ∈ publisher options world topic lines →
        Whole options world topic lines datagram ∧ datagram.length ≤ pubsubUdpMaxMsg ∧
          ∀ topics (arrival : Arrival), arrival.datagram = datagram →
            .log .newsDemasiadoLargo ∉ (broker topics arrival).2 := by
  have short := (checkTopic_ok topic accepted).2.2
  have intended : ∀ paso ∈ publisher options world topic lines,
      Intended (fun d => Whole options world topic lines d ∧ d.length ≤ 1125) paso := by
    have demo := demoLoop_intended options world topic short
      (fun d => Whole options world topic lines d ∧ d.length ≤ 1125)
      (fun i inside => ⟨.demo i inside, (event_whole options world topic short i inside).2.2⟩)
      0 options.autoCount (Nat.zero_add _)
    have stdin := stdinLoop_intended options world topic short
      (fun d => Whole options world topic lines d ∧ d.length ≤ 1125) lines
      (fun k line read => ⟨.stdin k line read, (stampedDatagram_whole (world.clock k) topic _
        false 0 0 short (length_stdinBody line) (by decide) (by decide)).2⟩)
      options.autoCount
    simp only [publisher, topicToTeams_whole topic short]
    intro paso mem
    split at mem
    · rcases List.mem_append.mp mem with early | late
      · exact demo paso early
      · exact stdin paso late
    · exact demo paso mem
  refine ⟨topicToTeams_whole topic short, fun f mem => intended _ mem, ?_⟩
  intro datagram mem
  obtain ⟨whole, size⟩ := intended _ mem
  refine ⟨whole, size.trans (by decide), ?_⟩
  rintro topics arrival rfl
  exact broker_short topics arrival (Nat.lt_of_le_of_lt (Nat.add_le_add_right size 2) (by decide))

/-- A run of one event on the longest topic, in a year of ten digits, with one line of
stdin. -/
def sampleOptions : Options := ⟨1, true, false, true, false, by decide, by decide⟩

def sampleTm : Tm :=
  ⟨2147481747, 11, 31, 23, 59, 60, by decide, by decide, by decide, by decide, by decide,
    by decide⟩

def sampleWorld : World := ⟨fun _ => ⟨999999, by decide, some sampleTm⟩, fun _ => 0, fun _ => true⟩

def longTopic : Bytes := ascii "AAAAAAAAAAAAAAAAAAAAAAAAAAAAAAAAAAAAAAAAAAAAAAAAAAAAAAAAAAAAAAA"

theorem size_budget_sample :
    topicToTeams longTopic teamSize teamSize = teams longTopic ∧
      (∀ f, .fallo f ∈ publisher sampleOptions sampleWorld longTopic
        [⟨ascii "GOL", by decide⟩] → f = .sendFallo) ∧
      ∀ datagram, .send datagram ∈ publisher sampleOptions sampleWorld longTopic
          [⟨ascii "GOL", by decide⟩] →
        Whole sampleOptions sampleWorld longTopic [⟨ascii "GOL", by decide⟩] datagram ∧
          datagram.length ≤ pubsubUdpMaxMsg ∧
          ∀ topics (arrival : Arrival), arrival.datagram = datagram →
            .log .newsDemasiadoLargo ∉ (broker topics arrival).2 :=
  size_budget sampleOptions sampleWorld longTopic [⟨ascii "GOL", by decide⟩] (by decide)

end SportsPubSub.Udp.Sizes
