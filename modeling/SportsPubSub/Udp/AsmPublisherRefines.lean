import SportsPubSub.Udp.AsmBrokerRefines
import SportsPubSub.Udp.AsmPublisher
import SportsPubSub.Udp.Composed

/-!
# The assembly UDP publisher and the C publisher

udp_asm/publisher_udp.s against udp_C/publisher_udp.c: from any contents of the
frames, every command line, clock, input and outcome of `send` gives the same pauses,
datagrams and lines, and no access leaves a frame. The test that the compiler dropped
would never have failed.
-/
namespace SportsPubSub.Udp.AsmPublisher
open Lib.Posix Lib.Decimal Lib.LittleEndian Lib.Memory Lib.Strtoul Protocol Publisher Arguments
open Composed (padded_nul_free signedDecimal_nul_free millisText_nul_free)
open Lib.Memory.Region hiding snprintf

/-- The multiplication is the division, for all that `tv_usec` can be: the reciprocal
is too large by 152 / 1000 only. -/
theorem thousandth_eq (usec : Nat) (small : usec < 1000000) :
    thousandth usec = (usec / 1000 : Nat) := by
  have upper : (usec : Int) * 2361183241434822607 / 18446744073709551616 / 128 =
      (usec / 1000 : Nat) := by
    rw [Int.ediv_ediv_of_nonneg (by decide)]
    omega
  have sign : (usec : Int) / 9223372036854775808 = 0 := by omega
  calc
    thousandth usec = (usec : Int) * 2361183241434822607 / 18446744073709551616 / 128 -
        (usec : Int) / 9223372036854775808 := by
      simp only [thousandth, Int.shiftRight_eq_div_pow]
      rfl
    _ = (usec / 1000 : Nat) := by rw [upper, sign, Int.sub_zero]

/-- What `snprintf` and the jump leave is what the C code goes on with. -/
def Leaves (dst : Nat) (result : Option (Except Fallo (Region 2952))) : Except Fallo Bytes → Prop
  | .error fallo => result = some (.error fallo)
  | .ok out => ∃ stack, result = some (.ok stack) ∧ stack.StringHolds dst out

theorem printed_spec (fallo : Fallo) (stack : Region 2952) (dst limit : Nat) (whole : Bytes)
    (room : dst + limit ≤ 2952) (positive : 0 < limit) (free : 0 ∉ whole) :
    Leaves dst (printed fallo stack dst limit whole) (formatted fallo limit whole) := by
  obtain ⟨stack', stored, held, -⟩ := snprintf_string stack dst limit whole room positive free
  have same : formatted fallo limit whole =
      if whole.length ≥ limit then .error fallo else .ok (whole.take (limit - 1)) := rfl
  simp only [printed, stored, Option.bind_eq_bind, Option.bind_some]
  by_cases cut : whole.length ≥ limit
  · rw [same, if_pos (by omega), if_pos cut]
    rfl
  · rw [same, if_neg (by omega), if_neg cut]
    exact ⟨stack', rfl, held⟩

theorem dateText_nul_free (tm : Tm) : 0 ∉ dateText tm := by
  simp only [dateText, List.mem_append, padded_nul_free, signedDecimal_nul_free, or_false, not_or]
  decide

/-- `.L9`, with the microseconds and the date in the frame. -/
theorem stampTime_spec (stack : Region 2952) (clock : Clock) (date body : Bytes)
    (usec : stack.Holds 8 (leBytes 8 clock.tvUsec)) (dated : stack.StringHolds 16 date)
    (short : date.length < tsSize) (free : 0 ∉ body) :
    Leaves 1536 (stampTime stack body)
      (formatted .cuerpoConMarcaDemasiadoLargo pubsubUdpMaxMsg
        (date ++ (snprintf (tsSize - date.length) (millisText clock)).1 ++ body)) := by
  have micros : leNat (leBytes 8 clock.tvUsec) = clock.tvUsec := by
    have bound : clock.tvUsec < 256 ^ 8 := clock.usec_lt.trans (by decide)
    exact leNat_leBytes 8 _ bound
  have millis : ascii "." ++ padded 3 (thousandth clock.tvUsec).toNat ++ ascii "] " =
      millisText clock := by
    rw [thousandth_eq _ clock.usec_lt, Int.toNat_natCast]
    rfl
  rw [tsSize] at short
  obtain ⟨stack', stored, fraction, kept⟩ := snprintf_string stack (16 + date.length)
    (48 - date.length) (millisText clock) (by omega) (by omega) (millisText_nul_free clock)
  have joined : stack'.StringHolds 16
      (date ++ (millisText clock).take (48 - date.length - 1)) := by
    have front := dated.1
    rw [holds_append] at front
    refine ⟨?_, fun nul => (List.mem_append.mp nul).elim dated.2 fraction.2⟩
    rw [List.append_assoc, holds_append]
    exact ⟨kept _ _ front.1 (.inl (Nat.le_refl _)), fraction.1⟩
  have whole := List.mem_append.not.mpr (not_or.mpr ⟨joined.2, free⟩)
  have print := printed_spec .cuerpoConMarcaDemasiadoLargo stack' 1536 1400 _
    (by decide) (by decide) whole
  simp only [stampTime, dated.string, usec.load 8 (length_leBytes 8 _), micros, millis, stored,
    joined.string, Option.bind_eq_bind, Option.bind_some]
  exact print

theorem bodyWithTimestamp_spec (stack : Region 2952) (clock : Clock) (body : Bytes)
    (free : 0 ∉ body) :
    Leaves 1536 (bodyWithTimestamp stack clock body)
      (Publisher.bodyWithTimestamp pubsubUdpMaxMsg clock body) := by
  obtain ⟨s, stored, usec, -⟩ := stack.store_spec 8 (leBytes 8 clock.tvUsec)
    (by rw [length_leBytes]; decide)
  have plain := printed_spec .cuerpoDemasiadoLargo s 1536 1400 body (by decide) (by decide) free
  simp only [bodyWithTimestamp, stored, Option.bind_eq_bind, Option.bind_some,
    Publisher.bodyWithTimestamp]
  cases clock.localtime with
  | none => exact plain
  | some tm =>
    dsimp only
    by_cases short : (dateText tm).length < tsSize
    · have date : strftime tsSize tm = some (dateText tm) := if_pos short
      obtain ⟨s', storedDate, held, kept⟩ := store_string s 16 (dateText tm)
        (Nat.add_lt_of_lt_sub' (short.trans (by decide))) (dateText_nul_free tm)
      have usec' := kept _ _ usec (.inl (by rw [length_leBytes]))
      simp only [show strftime 48 tm = _ from date, date, storedDate, Option.bind_some]
      exact stampTime_spec s' clock _ body usec' held short free
    · have date : strftime tsSize tm = none := if_neg short
      simp only [show strftime 48 tm = _ from date, date]
      exact plain

/-- A flag of the options as `main` stores it. -/
def flagWord (b : Bool) : UInt32 := if b then 1 else 0

theorem flagWord_eq_zero (b : Bool) : flagWord b = 0 ↔ b = false := by
  cases b <;> decide

theorem applyBodyStamp_spec (stack : Region 2952) (clock : Clock) (body : Bytes)
    (deterministic : Bool) (seq0 nDemo : Nat) (inside : seq0 < 2147483647)
    (few : nDemo < 2147483648) (free : 0 ∉ body) :
    Leaves 1536 (applyBodyStamp stack clock body (flagWord deterministic) (UInt32.ofNat seq0)
        (UInt32.ofNat nDemo))
      (Publisher.applyBodyStamp pubsubUdpMaxMsg clock body deterministic seq0 nDemo) := by
  have timed := bodyWithTimestamp_spec stack clock body free
  have position : signed (UInt32.ofNat seq0 + 1) = ((seq0 + 1 : Nat) : Int) := by
    rw [ofNat_succ, signed_ofNat _ (by omega)]
  simp only [applyBodyStamp, Publisher.applyBodyStamp, flagWord_eq_zero, signed_ofNat _ few,
    position]
  cases deterministic with
  | false => exact timed
  | true =>
    by_cases demo : nDemo = 0
    · rw [if_neg (by decide), if_pos (by omega), if_neg (by simp [demo])]
      exact timed
    · have whole : 0 ∉ sequenceText seq0 nDemo ++ body := by
        simp only [sequenceText, List.mem_append, decimal_nul_free, free, or_false, not_or]
        decide
      rw [if_neg (by decide), if_neg (by omega), if_pos (by simp; omega)]
      exact printed_spec .cuerpoConPrefijoDemasiadoLargo stack 1536 1400 _
        (by decide) (by decide) whole

/-- `send_pub` is the C function; 0 in `eax` is success. -/
theorem sendPub_spec (options : Options) (world : World) (k : Nat) (stack : Region 2952)
    (topic body : Bytes) (seq0 nDemo : Nat) (inside : seq0 < 2147483647)
    (few : nDemo < 2147483648) (named : 0 ∉ topic) (free : 0 ∉ body) :
    ∃ eax, sendPub stack (world.clock k) (world.sendOk k) (flagWord options.quiet) topic body
        (flagWord options.deterministic) (UInt32.ofNat seq0) (UInt32.ofNat nDemo) =
        some ((Publisher.sendPub options world k topic body seq0 nDemo).1, eax) ∧
      (eax = 0 ↔ (Publisher.sendPub options world k topic body seq0 nDemo).2 = true) := by
  have failed : ((0xffffffff : UInt32) = 0) ↔ false = true := by decide
  have done : ((0 : UInt32) = 0) ↔ true = true := by decide
  have stamp := applyBodyStamp_spec stack (world.clock k) body options.deterministic seq0 nDemo
    inside few free
  simp only [sendPub, Publisher.sendPub, stampedDatagram]
  cases marked : Publisher.applyBodyStamp pubsubUdpMaxMsg (world.clock k) body
      options.deterministic seq0 nDemo with
  | error fallo =>
    rw [marked] at stamp
    simp only [show _ = _ from stamp, Option.bind_eq_bind, Option.bind_some]
    exact ⟨_, rfl, failed⟩
  | ok stamped =>
    rw [marked] at stamp
    obtain ⟨s, ran, held⟩ := stamp
    have whole : 0 ∉ pubText topic stamped := by
      simp only [pubText, List.mem_append, named, held.2, or_false, not_or]
      decide
    have built : Leaves 128 (printed .mensajeDemasiadoLargo s 128 1401
        (pubsubUdpPrefixPub ++ topic ++ [charBar] ++ stamped ++ [charLf]))
        (buildPubDatagram sendPubBuf topic stamped) :=
      printed_spec .mensajeDemasiadoLargo s 128 1401 (pubText topic stamped)
        (by decide) (by decide) whole
    simp only [ran, held.string, Option.bind_eq_bind, Option.bind_some]
    cases assembled : buildPubDatagram sendPubBuf topic stamped with
    | error fallo =>
      rw [assembled] at built
      simp only [show _ = _ from built, Option.bind_some]
      exact ⟨_, rfl, failed⟩
    | ok buf =>
      rw [assembled] at built
      obtain ⟨s', written, text⟩ := built
      simp only [written, text.string, Option.bind_some]
      cases world.sendOk k with
      | false => exact ⟨_, rfl, failed⟩
      | true =>
        cases options.quiet with
        | false => exact ⟨_, rfl, done⟩
        | true => exact ⟨_, rfl, done⟩

/-- The strings of the teams in the frame of `main`; neither fills its buffer. -/
structure TeamsHold (frame : Region 1736) (home away : Bytes) : Prop where
  atHome : frame.StringHolds 1632 home
  atAway : frame.StringHolds 1568 away
  home_le : home.length ≤ 63
  away_le : away.length ≤ 63

/-- What is written below the teams leaves them. -/
theorem TeamsHold.keep {frame frame' : Region 1736} {home away : Bytes} {lo hi : Nat}
    (h : TeamsHold frame home away) (kept : KeptOutside lo hi frame frame') (below : hi ≤ 1568) :
    TeamsHold frame' home away where
  atHome := h.atHome.keep kept (.inr (by omega))
  atAway := h.atAway.keep kept (.inr below)
  home_le := h.home_le
  away_le := h.away_le

theorem rivalAway_spec (frame : Region 1736) :
    ∃ frame', rivalAway frame = some frame' ∧ frame'.StringHolds 1568 rival ∧
      KeptOutside 1568 1632 frame frame' := by
  obtain ⟨f, stored, front, kept⟩ := frame.store_spec 1568 (leBytes 4 1635150162) (by decide)
  obtain ⟨f', stored', back, kept'⟩ := f.store_spec 1572 (leBytes 2 108) (by decide)
  have whole : rival ++ [0] = leBytes 4 1635150162 ++ leBytes 2 108 := by decide
  refine ⟨f', ?_, ⟨?_, by decide⟩, ?_⟩
  · simp only [rivalAway, stored, Option.bind_eq_bind, Option.bind_some, stored']
  · rw [whole, holds_append]
    exact ⟨kept' _ _ front (.inl (by decide)), back⟩
  · exact (kept.widen (by decide) (by decide)).trans (kept'.widen (by decide) (by decide))

/-- `.L93`. -/
theorem rivalTeams_spec (frame : Region 1736) (topic : Bytes) (named : 0 ∉ topic) :
    ∃ frame', (do
        let (frame, _) ← frame.snprintf 1632 64 topic
        rivalAway frame) = some frame' ∧
      TeamsHold frame' (snprintf teamSize topic).1 (snprintf teamSize rival).1 := by
  obtain ⟨f, stored, home, -⟩ := snprintf_string frame 1632 64 topic (by decide) (by decide) named
  obtain ⟨f', ran, away, kept⟩ := rivalAway_spec f
  refine ⟨f', ?_, ?_, away, ?_, by decide⟩
  · simp only [stored, Option.bind_eq_bind, Option.bind_some, ran]
  · exact home.keep kept (.inr (by decide))
  · exact List.length_take_le _ _

theorem topicToTeams_spec (frame : Region 1736) (topic : Bytes) (named : 0 ∉ topic) :
    ∃ frame', topicToTeams frame topic = some frame' ∧
      TeamsHold frame' (Publisher.topicToTeams topic teamSize teamSize).1
        (Publisher.topicToTeams topic teamSize teamSize).2 := by
  unfold topicToTeams Publisher.topicToTeams
  cases found : strstr (ascii "_vs_") topic with
  | none => exact rivalTeams_spec frame topic named
  | some k =>
    cases k with
    | zero => exact rivalTeams_spec frame topic named
    | succ k =>
      have inside := strstr_inside _ _ _ found
      have cut : (if k + 1 ≥ teamSize then teamSize - 1 else k + 1) = min (k + 1) 63 := by
        have size : teamSize = 63 + 1 := rfl
        split
        · omega
        · omega
      have len : (topic.take (min (k + 1) 63)).length = min (k + 1) 63 := by
        rw [List.length_take]
        omega
      obtain ⟨f₁, copied, name, -⟩ := frame.store_spec 1632 (topic.take (min (k + 1) 63))
        (by omega)
      obtain ⟨f₂, ended, nul, kept₂⟩ := f₁.store_spec (1632 + min (k + 1) 63) [0]
        (by rw [List.length_singleton]; omega)
      obtain ⟨f₃, printed, away, kept₃⟩ := snprintf_string f₂ 1568 64 (topic.drop (k + 1 + 4))
        (by decide) (by decide) (fun nul => named (List.mem_of_mem_drop nul))
      have home : f₂.StringHolds 1632 (topic.take (min (k + 1) 63)) := by
        refine ⟨?_, fun nul => named (List.mem_of_mem_take nul)⟩
        rw [holds_append, len]
        exact ⟨kept₂ _ _ name (.inl (by omega)), nul⟩
      have home' := home.keep kept₃ (.inr (by decide))
      obtain ⟨c, first, empty⟩ := away.byte
      simp only [copied, ended, printed, first, cut, Option.bind_eq_bind, Option.bind_some]
      have bound : ((topic.drop (k + 1 + 4)).take 63).length ≤ 63 := List.length_take_le _ _
      by_cases none : c = 0
      · obtain ⟨f₄, ran, other, kept₄⟩ := rivalAway_spec f₃
        refine ⟨f₄, ?_, ?_⟩
        · rw [if_pos none]
          exact ran
        · rw [if_pos (show (snprintf teamSize (topic.drop (k + 1 + 4))).1 = [] from empty.mp none)]
          exact ⟨home'.keep kept₄ (.inr (by decide)), other, by omega, by decide⟩
      · refine ⟨f₃, if_neg none, ?_⟩
        rw [if_neg (show (snprintf teamSize (topic.drop (k + 1 + 4))).1 ≠ [] from
          fun h => none (empty.mpr h))]
        exact ⟨home', away, by omega, bound⟩

/-- `.L59`: six bytes of the second store are written again by the third. -/
theorem segundoTiempo_spec (frame : Region 1736) :
    ∃ frame', (do
        let frame ← frame.store 32 (leBytes 8 7286931302352776777)
        let frame ← frame.store 40 (leBytes 8 7236850738175090796)
        let frame ← frame.store 42 (leBytes 8 2337197157207467379)
        frame.store 50 (leBytes 8 13070377591073140)) = some frame' ∧
      frame'.Holds 32 (ascii "Inicia el segundo tiempo." ++ [0]) ∧
      KeptOutside 32 544 frame frame' := by
  obtain ⟨f₁, stored₁, held₁, kept₁⟩ := frame.store_spec 32 (leBytes 8 7286931302352776777)
    (by decide)
  obtain ⟨f₂, stored₂, held₂, kept₂⟩ := f₁.store_spec 40 (leBytes 8 7236850738175090796)
    (by decide)
  obtain ⟨f₃, stored₃, held₃, kept₃⟩ := f₂.store_spec 42 (leBytes 8 2337197157207467379)
    (by decide)
  obtain ⟨f₄, stored₄, held₄, kept₄⟩ := f₃.store_spec 50 (leBytes 8 13070377591073140)
    (by decide)
  have overlap : leBytes 8 7236850738175090796 =
      ascii "l " ++ leBytes 6 110425578890611 := by decide
  have whole : ascii "Inicia el segundo tiempo." ++ [0] =
      leBytes 8 7286931302352776777 ++ (ascii "l " ++
        (leBytes 8 2337197157207467379 ++ leBytes 8 13070377591073140)) := by decide
  rw [overlap, holds_append] at held₂
  refine ⟨f₄, ?_, ?_, ?_⟩
  · simp only [stored₁, stored₂, stored₃, stored₄, Option.bind_eq_bind, Option.bind_some]
  · rw [whole, holds_append, holds_append, holds_append]
    refine ⟨?_, ?_, ?_, held₄⟩
    · exact kept₄ _ _ (kept₃ _ _ (kept₂ _ _ held₁ (by decide)) (by decide)) (by decide)
    · exact kept₄ _ _ (kept₃ _ _ held₂.1 (by decide)) (by decide)
    · exact kept₄ _ _ held₃ (by decide)
  · exact (kept₁.widen (by decide) (by decide)).trans ((kept₂.widen (by decide) (by decide)).trans
      ((kept₃.widen (by decide) (by decide)).trans (kept₄.widen (by decide) (by decide))))

/-- Every block of the jump table leaves the text of the C function, which fits. -/
theorem message_spec (frame : Region 1736) (home away : Bytes) (rbx : Nat)
    (teams : TeamsHold frame home away) :
    ∃ frame', message frame rbx = some frame' ∧
      frame'.StringHolds 32 (timelineText rbx home away) ∧ KeptOutside 32 544 frame frame' := by
  have len := Sizes.length_timelineText rbx home away teams.home_le teams.away_le
  have free := Demo.timelineText_nul_free rbx home away teams.atHome.2 teams.atAway.2
  -- a text that is copied with its NUL
  have copy : ∃ f, frame.store 32 (timelineText rbx home away ++ [0]) = some f ∧
      f.StringHolds 32 (timelineText rbx home away) ∧ KeptOutside 32 544 frame f := by
    obtain ⟨f, stored, held, kept⟩ := store_string frame 32 (timelineText rbx home away)
      (by omega) free
    exact ⟨f, stored, held, kept.widen (Nat.le_refl _) (by omega)⟩
  unfold message
  simp only [teams.atHome.string, teams.atAway.string, Option.bind_eq_bind, Option.bind_some]
  split
  · exact copy
  · obtain ⟨f, ran, held, kept⟩ := segundoTiempo_spec frame
    exact ⟨f, ran, ⟨held, free⟩, kept⟩
  · exact copy
  · obtain ⟨f, printed, held, kept⟩ := snprintf_string frame 32 512 (timelineText rbx home away)
      (by decide) (by decide) free
    rw [List.take_of_length_le (by omega)] at held
    refine ⟨f, ?_, held, kept⟩
    simp only [printed, Option.bind_some]

/-- What the options leave in the frame. -/
def optionWords (options : Options) : Variables where
  fastBurst := flagWord options.fastBurst
  randomSkipSleep := flagWord options.randomSkipSleep
  autoCount := UInt32.ofNat options.autoCount
  deterministic := flagWord options.deterministic
  quiet := flagWord options.quiet

theorem matchTimeline_le : ∀ idx < 15, matchTimeline.getD idx 0 ≤ 3100 := by
  decide

/-- `imull $1000` does not overflow. -/
theorem sleep_spec (waitMs : Nat) (small : waitMs ≤ 3100) :
    sleep (UInt32.ofNat waitMs) = if waitMs > 0 then [.usleep (waitMs * 1000)] else [] := by
  have none : UInt32.ofNat waitMs = 0 ↔ waitMs = 0 :=
    ofNat_inj waitMs 0 (by omega) (by decide)
  have micros : (UInt32.ofNat waitMs * 1000).toNat = waitMs * 1000 := by
    have thousand : (1000 : UInt32).toNat = 1000 := rfl
    rw [UInt32.toNat_mul, toNat_ofNat _ (by omega), thousand, Nat.mod_eq_of_lt (by omega)]
  by_cases zero : waitMs = 0
  · rw [sleep, if_pos (none.mpr zero), if_neg (by omega)]
  · rw [sleep, if_neg (mt none.mp zero), if_pos (by omega), micros]

theorem wait_spec (options : Options) (rand waitMs : Nat) (small : waitMs ≤ 3100) :
    wait (optionWords options) rand (UInt32.ofNat waitMs) =
      let waitMs := if options.fastBurst then 0
        else if options.randomSkipSleep && rand % 2 = 1 then 0 else waitMs
      if waitMs > 0 then [.usleep (waitMs * 1000)] else [] := by
  have asleep := sleep_spec waitMs small
  simp only [wait, skip, optionWords, ne_eq, flagWord_eq_zero]
  cases options.fastBurst with
  | true => rfl
  | false =>
    cases options.randomSkipSleep with
    | false => exact asleep
    | true =>
      by_cases odd : rand % 2 = 1
      · simp [odd]
      · simp [odd, asleep]

/-- The pause before an event. `.L48`, where a new cycle starts, does the same as `.L47`
with 2500. -/
theorem pause_spec (options : Options) (world : World) (i : Nat) (small : i < 2147483648) :
    pause (optionWords options) (world.rand i) i (i % 15) = Publisher.pause options world i := by
  have zero : UInt32.ofNat i = 0 ↔ i = 0 := ofNat_inj i 0 small (by decide)
  simp only [pause, zero]
  by_cases first : i = 0
  · subst first
    exact wait_spec options (world.rand 0) 0 (by decide)
  · rw [if_neg first]
    by_cases cycle : i % 15 = 0
    · have cycle' : i % matchTimelineLen = 0 := cycle
      have waited := wait_spec options (world.rand i) 2500 (by decide)
      simp only [Publisher.pause, if_neg first, cycle', if_pos, kBetweenCyclePauseMs, if_pos cycle]
      rw [← waited]
      simp only [wait]
      split
      · rfl
      · rfl
    · have cycle' : ¬ i % matchTimelineLen = 0 := cycle
      simp only [Publisher.pause, if_neg first, if_neg cycle', if_neg cycle]
      exact wait_spec options (world.rand i) _ (matchTimeline_le _ (Nat.mod_lt _ (by decide)))

/-- The loop at `.L70`, event by event; the message of the C code always fits. -/
theorem demoLoop_spec (options : Options) (world : World) (junk : Nat → Region 2952)
    (topic home away : Bytes) (named : 0 ∉ topic) (i todo : Nat)
    (count : i + todo = options.autoCount) (frame : Region 1736)
    (teams : TeamsHold frame home away) :
    ∃ frame', demoLoop (optionWords options) world junk topic (todo + 1) frame i =
        some ((Publisher.demoLoop options world topic home away i todo).1, frame',
          (Publisher.demoLoop options world topic home away i todo).2) ∧
      KeptOutside 32 544 frame frame' := by
  have limit := options.count_le
  have total : signed (optionWords options).autoCount = options.autoCount :=
    signed_ofNat _ (by omega)
  induction todo generalizing i frame with
  | zero =>
    refine ⟨frame, ?_, keptOutside_refl _ _ _⟩
    rw [demoLoop, total, signed_ofNat _ (by omega), if_pos (by omega)]
    rfl
  | succ todo ih =>
    obtain ⟨f, ran, msg, kept⟩ := message_spec frame home away (i % 15) teams
    obtain ⟨eax, sent, result⟩ := sendPub_spec options world i (junk i) topic
      (timelineText (i % 15) home away) i options.autoCount (by omega) (by omega) named msg.2
    have room : (timelineText (i % 15) home away).length < msgbufSize :=
      Nat.lt_of_le_of_lt (Sizes.length_timelineText _ _ _ teams.home_le teams.away_le) (by decide)
    have text : buildTimelineMessage msgbufSize (i % 15) home away =
        (timelineText (i % 15) home away, (timelineText (i % 15) home away).length) :=
      snprintf_fits _ _ room
    have len : matchTimelineLen = 15 := rfl
    have waited := pause_spec options world i (by omega)
    obtain ⟨f', later, kept'⟩ := ih (i + 1) (by omega) f (teams.keep kept (by decide))
    have words : sendPub (junk i) (world.clock i) (world.sendOk i) (optionWords options).quiet
        topic (timelineText (i % 15) home away) (optionWords options).deterministic
        (UInt32.ofNat i) (optionWords options).autoCount = _ := sent
    rw [demoLoop, total, signed_ofNat _ (by omega), if_neg (by omega)]
    simp only [ran, msg.string, words, waited, later, Option.bind_eq_bind, Option.bind_some,
      Publisher.demoLoop, len, text, if_neg (Nat.not_le.mpr room)]
    by_cases ok : (Publisher.sendPub options world i topic (timelineText (i % 15) home away) i
        options.autoCount).2 = true
    · refine ⟨f', ?_, kept.trans kept'⟩
      rw [if_neg (not_not.mpr (result.mpr ok)), if_pos ok]
    · refine ⟨f, ?_, kept⟩
      rw [if_pos (mt result.mp ok), if_neg ok]

/-- The loop at `.L77`, line by line. -/
theorem stdinLoop_spec (options : Options) (world : World) (junk : Nat → Region 2952)
    (topic : Bytes) (named : 0 ∉ topic) (k : Nat) (lines : List StdinLine) (frame : Region 1736) :
    stdinLoop (optionWords options) world junk topic k lines frame =
      some (Publisher.stdinLoop options world topic k lines) := by
  induction lines generalizing k frame with
  | nil => rfl
  | cons line rest ih =>
    have size := line.size_le
    obtain ⟨f, read, held, -⟩ := frame.store_spec 544 (line.bytes ++ [0])
      (by rw [List.length_append, List.length_singleton]; omega)
    have line' : f.StringHolds 544 (text line.bytes) :=
      ⟨holds_text held, fun nul => mem_text_ne_zero _ _ nul rfl⟩
    obtain ⟨f', stripped, body, -⟩ := AsmBroker.stripLoop_spec (text line.bytes) 544
      (text line.bytes).length f (Nat.le_refl _) (by rw [List.take_length]; exact line'.1)
    have body' : f'.StringHolds 544 (stripTrailingCrlf (text line.bytes)) :=
      ⟨body, fun nul => line'.2 (List.mem_of_mem_take nul)⟩
    obtain ⟨c, first, empty⟩ := body'.byte
    simp only [stdinLoop, read, line'.string, stripped, first, Option.bind_eq_bind,
      Option.bind_some, Publisher.stdinLoop, empty]
    by_cases none : stripTrailingCrlf (text line.bytes) = []
    · rw [if_pos none, if_pos none]
      exact ih k f'
    · obtain ⟨eax, sent, result⟩ := sendPub_spec options world k (junk k) topic
        (stripTrailingCrlf (text line.bytes)) 0 0 (by decide) (by decide) named body'.2
      have words : sendPub (junk k) (world.clock k) (world.sendOk k) (optionWords options).quiet
          topic (stripTrailingCrlf (text line.bytes)) (optionWords options).deterministic 0 0 =
          _ := sent
      rw [if_neg none, if_neg none]
      simp only [body'.string, words, ih, Option.bind_some]
      by_cases ok : (Publisher.sendPub options world k topic
          (stripTrailingCrlf (text line.bytes)) 0 0).2 = true
      · rw [if_neg (not_not.mpr (result.mpr ok)), if_pos ok]
      · rw [if_pos (mt result.mp ok), if_neg ok]

theorem publisher_spec (options : Options) (world : World) (junk : Nat → Region 2952)
    (topic : Bytes) (named : 0 ∉ topic) (lines : List StdinLine) (frame : Region 1736) :
    publisher (optionWords options) world junk topic lines frame =
      some (Publisher.publisher options world topic lines) := by
  have limit := options.count_le
  have count : (optionWords options).autoCount.toNat = options.autoCount :=
    toNat_ofNat _ (by omega)
  obtain ⟨f, named', teams⟩ := topicToTeams_spec frame topic named
  obtain ⟨f', demo, -⟩ := demoLoop_spec options world junk topic _ _ named 0 options.autoCount
    (Nat.zero_add _) f teams
  simp only [publisher, Publisher.publisher, named', count, demo,
    stdinLoop_spec options world junk topic named, Option.bind_eq_bind, Option.bind_some]
  split
  · rfl
  · rfl

/-- One comparison after a subtraction is the two comparisons of the C code. -/
theorem number_eq (last max : UInt64) (next : last.toNat + 1 = max.toNat) (arg : CString) :
    number last arg = checkNumber max arg := by
  have above : (strtoul arg).1 - 1 > last ↔ (strtoul arg).1 = 0 ∨ (strtoul arg).1 > max := by
    have bound := max.toNat_lt
    have value := (strtoul arg).1.toNat_lt
    have one : (1 : UInt64).toNat = 1 := rfl
    have zero : (strtoul arg).1 = 0 ↔ (strtoul arg).1.toNat = 0 := UInt64.toNat_inj.symm
    rw [gt_iff_lt, gt_iff_lt, UInt64.lt_iff_toNat_lt, UInt64.lt_iff_toNat_lt, UInt64.toNat_sub,
      zero, one]
    omega
  simp only [number, checkNumber, above]
  by_cases moved : (strtoul arg).2 = 0
  · rw [if_pos moved, if_pos (.inl moved)]
  · by_cases more : arg.at (strtoul arg).2 ≠ 0
    · rw [if_neg moved, if_pos more, if_pos (.inr (.inl more))]
    · simp only [moved, more, if_false, false_or]

/-- The options that have no value, behind the comparison with `-f`. -/
theorem flag_spec (options : Options) (arg : Bytes) (other : strcmpEq arg (ascii "-f") = false) :
    flag (optionWords options) arg = (flagOption options arg).map optionWords := by
  simp only [flag, flagOption, other, Bool.false_eq_true, if_false]
  by_cases r : strcmpEq arg (ascii "-r") = true
  · rw [if_pos r, if_pos r]
    rfl
  · rw [if_neg r, if_neg r]
    by_cases q : strcmpEq arg (ascii "-q") = true
    · rw [if_pos q, if_pos q]
      rfl
    · rw [if_neg q, if_neg q]
      by_cases d : strcmpEq arg (ascii "-d") = true
      · rw [if_pos d, if_pos d]
        rfl
      · rw [if_neg d, if_neg d]
        rfl

/-- A bad number ends the argument loop of the C code. -/
theorem parseOptions_invalid (options : Options) (arg value : CString) (rest : List CString)
    (n : strcmpEq arg.bytes (ascii "-n") = true) (bad : checkNumber 100000 value = none) :
    parseOptions options (arg :: value :: rest) = .error .valorInvalidoParaN := by
  rw [parseOptions, if_pos n]
  split
  · rfl
  · next v good => cases bad.symm.trans good

theorem parseOptions_count (options : Options) (arg value : CString) (rest : List CString)
    (n : strcmpEq arg.bytes (ascii "-n") = true) (v : UInt64)
    (good : checkNumber 100000 value = some v) :
    parseOptions options (arg :: value :: rest) =
      parseOptions { options with
        autoCount := v.toNat
        count_pos := (checkNumber_range 100000 value v good).1
        count_le := (checkNumber_range 100000 value v good).2 } rest := by
  rw [parseOptions, if_pos n]
  split
  · next bad => cases bad.symm.trans good
  · next w good' =>
    cases good.symm.trans good'
    rfl

/-- The loop at `.L23`. The comparison with `-f` behind a last `-n` never succeeds. -/
theorem argumentLoop_spec (argv : List CString) (passes ebx : Nat) (options : Options)
    (inside : ebx < argv.length) (enough : argv.length ≤ ebx + passes) :
    argumentLoop argv passes ebx (optionWords options) =
      some ((parseOptions options (argv.drop ebx)).map optionWords) := by
  induction passes generalizing ebx options with
  | zero => omega
  | succ passes ih =>
    -- `.L30`
    have next : ∀ (j : Nat) (o : Options), ebx ≤ j →
        (if argv.length ≤ j + 1 then some (.ok (optionWords o))
          else argumentLoop argv passes (j + 1) (optionWords o)) =
          some ((parseOptions o (argv.drop (j + 1))).map optionWords) := by
      intro j o later
      by_cases last : argv.length ≤ j + 1
      · rw [if_pos last, List.drop_of_length_le last]
        rfl
      · rw [if_neg last]
        exact ih (j + 1) o (by omega) (by omega)
    have here : argv[ebx]? = some argv[ebx] := List.getElem?_eq_getElem inside
    rw [List.drop_eq_getElem_cons inside]
    generalize argv[ebx] = arg at here
    by_cases n : strcmpEq arg.bytes (ascii "-n") = true
    · have f : strcmpEq arg.bytes (ascii "-f") = false := by
        rw [(strcmpEq_iff _ _).mp n]
        decide
      by_cases value : ebx + 1 < argv.length
      · have there : argv[ebx + 1]? = some argv[ebx + 1] := List.getElem?_eq_getElem value
        have same : number 99999 argv[ebx + 1] = checkNumber 100000 argv[ebx + 1] :=
          number_eq 99999 100000 (by decide) _
        rw [List.drop_eq_getElem_cons value]
        generalize argv[ebx + 1] = number' at there same
        simp only [argumentLoop, here, there, n, if_true, if_pos value, same, Option.bind_eq_bind,
          Option.bind_some]
        cases read : checkNumber 100000 number' with
        | none => rw [parseOptions_invalid options arg number' _ n read]; rfl
        | some rax =>
          have range := checkNumber_range 100000 number' rax read
          rw [parseOptions_count options arg number' _ n rax read]
          exact next (ebx + 1)
            { options with autoCount := rax.toNat, count_pos := range.1, count_le := range.2 }
            (Nat.le_succ ebx)
      · have last : argv.drop (ebx + 1) = [] := List.drop_of_length_le (by omega)
        have step := fun o => next ebx o (Nat.le_refl _)
        rw [last] at step
        rw [last, parseOptions]
        simp only [argumentLoop, here, n, if_true, if_neg value, f, flag_spec options _ f,
          Option.bind_eq_bind, Option.bind_some, Bool.false_eq_true, if_false]
        cases flagOption options arg.bytes with
        | error rechazo => rfl
        | ok o => exact step o
    · -- both sides look at the one argument only
      have alone : argumentLoop argv (passes + 1) ebx (optionWords options) =
          some ((flagOption options arg.bytes).bind fun o =>
            (parseOptions o (argv.drop (ebx + 1))).map optionWords) := by
        simp only [argumentLoop, here, if_neg n, Option.bind_eq_bind, Option.bind_some]
        by_cases f : strcmpEq arg.bytes (ascii "-f") = true
        · have fast : flagOption options arg.bytes = .ok { options with fastBurst := true } :=
            if_pos f
          rw [if_pos f, fast]
          exact next ebx { options with fastBurst := true } (Nat.le_refl _)
        · rw [if_neg f, flag_spec options _ (Bool.not_eq_true _ ▸ f)]
          cases flagOption options arg.bytes with
          | error rechazo => rfl
          | ok o => exact next ebx o (Nat.le_refl _)
      rw [alone]
      cases rest : argv.drop (ebx + 1) with
      | nil =>
        rw [parseOptions]
        cases flagOption options arg.bytes with
        | error rechazo => rfl
        | ok o => rfl
      | cons value rest' =>
        rw [parseOptions, if_neg n]
        cases flagOption options arg.bytes with
        | error rechazo => rfl
        | ok o => rfl

/-- `.L81` changes nothing. -/
theorem seeded_spec (options : Options) : seeded (optionWords options) = optionWords options := by
  unfold seeded
  split
  · rfl
  · next random =>
    split
    · rfl
    · next deterministic =>
      simp only [optionWords, flagWord_eq_zero, Bool.not_eq_false] at random deterministic
      simp only [optionWords, random, deterministic]

/-- The checks of the port and of the topic. -/
theorem checked_spec (portArg topic : CString) :
    checked portArg topic =
      match checkPort portArg, checkTopic topic.bytes with
      | .error rechazo, _ => .error rechazo
      | .ok _, .error fallo => .error (.tema fallo)
      | .ok port, .ok () => .ok port := by
  have named : checkTopic topic.bytes =
      if (strchr topic.bytes 32).isSome then .error .temaConSeparadores
      else if (strchr topic.bytes 124).isSome then .error .temaConSeparadores
      else if topic.bytes.length > 63 then .error (.temaDemasiadoLargo 63)
      else .ok () := by
    change (if (strchr topic.bytes 32).isSome || (strchr topic.bytes 124).isSome then _ else _) = _
    cases (strchr topic.bytes 32).isSome with
    | true => rfl
    | false =>
      cases (strchr topic.bytes 124).isSome with
      | true => rfl
      | false => rfl
  rw [checked, number_eq 65534 65535 (by decide), checkPort, named]
  cases checkNumber 65535 portArg with
  | none => rfl
  | some rbx =>
    dsimp only
    split
    · rfl
    · split
      · rfl
      · split
        · rfl
        · rfl

/-- With no option `.L98` is taken. -/
theorem options_spec (program brokerIp portArg topic : CString) (rest : List CString) :
    options (program :: brokerIp :: portArg :: topic :: rest) =
      some ((parseOptions defaultOptions rest).map optionWords) := by
  cases rest with
  | nil => rfl
  | cons arg rest =>
    have loop := argumentLoop_spec (program :: brokerIp :: portArg :: topic :: arg :: rest)
      (rest.length + 5) 4 defaultOptions (by simp) (by simp)
    have kept : ∀ e : Except Rechazo Options,
        (e.map optionWords).map seeded = e.map optionWords := by
      intro e
      cases e with
      | error rechazo => rfl
      | ok o => exact congrArg Except.ok (seeded_spec o)
    rw [options, if_neg (by simp)]
    exact (congrArg (Option.map (Except.map seeded)) loop).trans (congrArg some (kept _))

/-- The whole program, from the command line on. -/
theorem main_refines_c (program : CString) (args : List CString) (world : World)
    (junk : Nat → Region 2952) (lines : List StdinLine) (frame : Region 1736) :
    main (program :: args) world junk lines frame =
      some ((publisherArguments args).map fun a =>
        (a.brokerIp, a.port, Publisher.publisher a.options world a.topic.bytes lines)) := by
  match args with
  | [] => rfl
  | [_] => rfl
  | [_, _] => rfl
  | brokerIp :: portArg :: topic :: rest =>
    have arguments : (program :: brokerIp :: portArg :: topic :: rest)[3]? = some topic ∧
        (program :: brokerIp :: portArg :: topic :: rest)[2]? = some portArg ∧
        (program :: brokerIp :: portArg :: topic :: rest)[1]? = some brokerIp := ⟨rfl, rfl, rfl⟩
    obtain ⟨third, second, first⟩ := arguments
    have enough : ¬ (program :: brokerIp :: portArg :: topic :: rest).length ≤ 3 := by simp
    simp only [main, if_neg enough, options_spec, third, second, first, checked_spec,
      publisherArguments, Option.bind_eq_bind, Option.bind_some]
    cases parseOptions defaultOptions rest with
    | error rechazo => rfl
    | ok options =>
      cases checkPort portArg with
      | error rechazo => rfl
      | ok port =>
        cases checkTopic topic.bytes with
        | error fallo => rfl
        | ok accepted =>
          have ran := publisher_spec options world junk topic.bytes topic.nul_free lines frame
          simp only [Except.map, ran, Option.bind_some]
          rfl

end SportsPubSub.Udp.AsmPublisher
