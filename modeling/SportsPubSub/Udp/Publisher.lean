import SportsPubSub.Lib.Decimal
import SportsPubSub.Udp.Protocol

/-!
# The UDP publisher

Source: udp_C/publisher_udp.c. The checks that `main` makes on the topic argument,
the texts that `send_pub` puts together for one message, and the two sending loops.
The errors are the lines written to stderr, with the values they print. The clock,
`rand` and the outcome of each `send` are inputs; the options are the values that
the argument loop leaves behind. Set-up of the socket and the lines printed outside
the loops are left out.
-/
namespace SportsPubSub.Udp.Publisher
open Lib.Posix Lib.Decimal Protocol

inductive Fallo where
  | temaConSeparadores
  | temaDemasiadoLargo (max : Nat)
  | mensajeDemasiadoLargo
  | cuerpoDemasiadoLargo
  | cuerpoConMarcaDemasiadoLargo
  | cuerpoConPrefijoDemasiadoLargo
  | eventoDemasiadoLargo
  | sendFallo
  deriving DecidableEq, Repr

/-- The topic checks of `main`. -/
def checkTopic (topic : Bytes) : Except Fallo Unit :=
  if (strchr topic charSpace).isSome || (strchr topic charBar).isSome then
    .error .temaConSeparadores
  else if topic.length > pubsubUdpMaxTopicLen then
    .error (.temaDemasiadoLargo pubsubUdpMaxTopicLen)
  else .ok ()

/-- `PUB <tema>|<cuerpo>\n`. -/
def pubText (topic body : Bytes) : Bytes :=
  pubsubUdpPrefixPub ++ topic ++ [charBar] ++ body ++ [charLf]

/-- `build_pub_datagram`: the string left in `out`, which holds `out_sz` bytes. -/
def buildPubDatagram (outSz : Nat) (topic body : Bytes) : Except Fallo Bytes :=
  let (out, w) := snprintf outSz (pubText topic body)
  if w ≥ outSz then .error .mensajeDemasiadoLargo else .ok out

/-- The size of `buf` in `send_pub`. -/
def sendPubBuf : Nat := pubsubUdpMaxMsg + 1

def rival : Bytes := ascii "Rival"

/-- `topic_to_teams`: the strings left in `home` and `away`. -/
def topicToTeams (topic : Bytes) (homeSz awaySz : Nat) : Bytes × Bytes :=
  match strstr (ascii "_vs_") topic with
  | none => ((snprintf homeSz topic).1, (snprintf awaySz rival).1)
  | some 0 => ((snprintf homeSz topic).1, (snprintf awaySz rival).1)
  | some (k + 1) =>
      let hlen := if k + 1 ≥ homeSz then homeSz - 1 else k + 1
      let away := (snprintf awaySz (topic.drop (k + 1 + 4))).1
      (topic.take hlen, if away = [] then (snprintf awaySz rival).1 else away)

/-- The characters of the messages that are not ASCII, in UTF-8. -/
def raya : Bytes := [0xE2, 0x80, 0x94]
def aAguda : Bytes := [0xC3, 0xA1]
def enye : Bytes := [0xC3, 0xB1]
def oAguda : Bytes := [0xC3, 0xB3]

/-- The format strings of `build_timeline_message`, filled in. -/
def timelineText (idx : Nat) (home away : Bytes) : Bytes :=
  match idx with
  | 0 => ascii "Inicia el partido: " ++ home ++ ascii " contra " ++ away ++
      ascii ". Saque inicial para " ++ home ++ ascii "."
  | 1 => ascii "Minuto 5: primera llegada clara, disparo desviado."
  | 2 => ascii "Minuto 12: tarjeta amarilla al #8 de " ++ away ++ ascii "."
  | 3 => ascii "Minuto 18: GOL de " ++ home ++ ascii " " ++ raya ++ ascii " asistencia del #10."
  | 4 => ascii "Minuto 24: Cambio: entra #14, sale #7 (" ++ away ++ ascii ")."
  | 5 => ascii "Minuto 31: GOL de " ++ away ++ ascii " de cabeza tras tiro de esquina."
  | 6 => ascii "Minuto 38: Tarjeta amarilla al #10 de " ++ home ++ ascii "."
  | 7 => ascii "Minuto 45+1: Fin del primer tiempo. Marcador 1-1 (" ++ home ++ ascii " - " ++
      away ++ ascii ")."
  | 8 => ascii "Inicia el segundo tiempo."
  | 9 => ascii "Minuto 58: GOL de " ++ home ++ ascii " al contraataque (marcador 2-1)."
  | 10 => ascii "Minuto 67: Cambio doble en " ++ away ++ ascii "."
  | 11 => ascii "Minuto 74: Tarjeta roja directa al #4 de " ++ away ++ ascii "."
  | 12 => ascii "Minuto 81: GOL de " ++ home ++ ascii " de penal " ++ raya ++ ascii " marcador 3-1."
  | 13 => ascii "Minuto 90: El " ++ aAguda ++ ascii "rbitro a" ++ enye ++ ascii "ade 4 minutos."
  | 14 => ascii "Final del partido: victoria de " ++ home ++ ascii " 3-1 sobre " ++ away ++ ascii "."
  | _ => ascii "Actualizaci" ++ oAguda ++ ascii "n en vivo (" ++ home ++ ascii " vs " ++ away ++
      ascii ")."

/-- `build_timeline_message`: the string left in `out` and the length returned. -/
def buildTimelineMessage (outSz idx : Nat) (home away : Bytes) : Bytes × Nat :=
  snprintf outSz (timelineText idx home away)

/-- What `localtime_r` stores: a year that fits an `int`, and the ranges of the
C standard for the other fields. -/
structure Tm where
  tmYear : Int
  tmMon : Nat
  tmMday : Nat
  tmHour : Nat
  tmMin : Nat
  tmSec : Nat
  year_int : -2147483648 ≤ tmYear ∧ tmYear ≤ 2147483647
  mon_lt : tmMon < 12
  mday_le : tmMday ≤ 31
  hour_lt : tmHour < 24
  min_lt : tmMin < 60
  sec_le : tmSec ≤ 60

/-- One reading of the clock: `tv_usec`, and the broken-down time unless
`localtime_r` fails. -/
structure Clock where
  tvUsec : Nat
  usec_lt : tvUsec < 1000000
  localtime : Option Tm

/-- The text of `"[%Y-%m-%d %H:%M:%S"`. -/
def dateText (tm : Tm) : Bytes :=
  ascii "[" ++ signedDecimal (tm.tmYear + 1900) ++ ascii "-" ++ padded 2 (tm.tmMon + 1) ++
    ascii "-" ++ padded 2 tm.tmMday ++ ascii " " ++ padded 2 tm.tmHour ++ ascii ":" ++
    padded 2 tm.tmMin ++ ascii ":" ++ padded 2 tm.tmSec

/-- `strftime(ts, max, ...)`: `none` when it returns 0, because the text with its NUL
does not fit. -/
def strftime (max : Nat) (tm : Tm) : Option Bytes :=
  if (dateText tm).length < max then some (dateText tm) else none

/-- The text of `".%03ld] "`. -/
def millisText (clock : Clock) : Bytes :=
  ascii "." ++ padded 3 (clock.tvUsec / 1000) ++ ascii "] "

/-- The size of `ts` in `body_with_timestamp`. -/
def tsSize : Nat := 48

/-- `snprintf(out, out_sz, ...)` with the test of its result. -/
def formatted (fallo : Fallo) (outSz : Nat) (whole : Bytes) : Except Fallo Bytes :=
  let (out, w) := snprintf outSz whole
  if w ≥ outSz then .error fallo else .ok out

/-- `body_with_timestamp`: the string left in `out`. -/
def bodyWithTimestamp (outSz : Nat) (clock : Clock) (body : Bytes) : Except Fallo Bytes :=
  match clock.localtime with
  | none => formatted .cuerpoDemasiadoLargo outSz body
  | some tm =>
      match strftime tsSize tm with
      | none => formatted .cuerpoDemasiadoLargo outSz body
      | some date =>
          let ts := date ++ (snprintf (tsSize - date.length) (millisText clock)).1
          formatted .cuerpoConMarcaDemasiadoLargo outSz (ts ++ body)

/-- The text of `"[#%d/%d] "`. -/
def sequenceText (seq0 nDemo : Nat) : Bytes :=
  ascii "[#" ++ decimal (seq0 + 1) ++ ascii "/" ++ decimal nDemo ++ ascii "] "

/-- `apply_body_stamp`: the string left in `out`. -/
def applyBodyStamp (outSz : Nat) (clock : Clock) (body : Bytes) (deterministic : Bool)
    (seq0 nDemo : Nat) : Except Fallo Bytes :=
  if deterministic && nDemo > 0 then
    formatted .cuerpoConPrefijoDemasiadoLargo outSz (sequenceText seq0 nDemo ++ body)
  else bodyWithTimestamp outSz clock body

/-- The first half of `send_pub`: what it hands to `send`. -/
def stampedDatagram (clock : Clock) (topic body : Bytes) (deterministic : Bool)
    (seq0 nDemo : Nat) : Except Fallo Bytes :=
  match applyBodyStamp pubsubUdpMaxMsg clock body deterministic seq0 nDemo with
  | .error fallo => .error fallo
  | .ok stamped => buildPubDatagram sendPubBuf topic stamped

/-- What the options leave in the variables of `main`. -/
structure Options where
  autoCount : Nat
  fastBurst : Bool
  randomSkipSleep : Bool
  quiet : Bool
  deterministic : Bool
  count_pos : 0 < autoCount
  count_le : autoCount ≤ 100000

/-- What a run reads: the clock at the `k`-th call of `send_pub`, the `i`-th result of
`rand`, whether the `k`-th `send` succeeds. -/
structure World where
  clock : Nat → Clock
  rand : Nat → Nat
  sendOk : Nat → Bool

/-- What a run does: a pause, a `send`, its confirmation on stdout, or an error, after
which nothing more is sent. -/
inductive Paso where
  | usleep (micros : Nat)
  | send (datagram : Bytes)
  | enviado (datagram : Bytes)
  | fallo (f : Fallo)
  deriving DecidableEq, Repr

/-- `send_pub`, called for the `k`-th time: whether it returned 0. -/
def sendPub (options : Options) (world : World) (k : Nat) (topic body : Bytes)
    (seq0 nDemo : Nat) : List Paso × Bool :=
  match stampedDatagram (world.clock k) topic body options.deterministic seq0 nDemo with
  | .error fallo => ([.fallo fallo], false)
  | .ok buf =>
      if world.sendOk k then
        (.send buf :: (if options.quiet then [] else [.enviado buf]), true)
      else ([.send buf, .fallo .sendFallo], false)

/-- `match_timeline`: the delays before each event. -/
def matchTimeline : List Nat :=
  [0, 1150, 3100, 850, 1950, 1050, 920, 1550, 2800, 480, 2250, 780, 1680, 1320, 1100]

def matchTimelineLen : Nat := 15

def kBetweenCyclePauseMs : Nat := 2500

/-- The pause before event `i` of the demo. -/
def pause (options : Options) (world : World) (i : Nat) : List Paso :=
  let idx := i % matchTimelineLen
  let waitMs :=
    if i = 0 then matchTimeline.getD 0 0
    else if idx = 0 then kBetweenCyclePauseMs
    else matchTimeline.getD idx 0
  let waitMs :=
    if options.fastBurst then 0
    else if options.randomSkipSleep && world.rand i % 2 = 1 then 0
    else waitMs
  if waitMs > 0 then [.usleep (waitMs * 1000)] else []

/-- The size of `msgbuf`. -/
def msgbufSize : Nat := 512

/-- The demo loop from event `i` on, with `todo` events left: whether it ran to its
end. -/
def demoLoop (options : Options) (world : World) (topic home away : Bytes) :
    Nat → Nat → List Paso × Bool
  | _, 0 => ([], true)
  | i, todo + 1 =>
      let waiting := pause options world i
      let (msgbuf, mw) := buildTimelineMessage msgbufSize (i % matchTimelineLen) home away
      if mw ≥ msgbufSize then (waiting ++ [.fallo .eventoDemasiadoLargo], false)
      else
        let (pasos, ok) := sendPub options world i topic msgbuf i options.autoCount
        if ok then
          let (later, done) := demoLoop options world topic home away (i + 1) todo
          (waiting ++ pasos ++ later, done)
        else (waiting ++ pasos, false)

/-- What one `fgets(line, sizeof line, stdin)` stores before the NUL. -/
structure StdinLine where
  bytes : Bytes
  size_le : bytes.length ≤ 1023

/-- `strip_trailing_crlf` of this program. -/
def stripTrailingCrlf (s : Bytes) : Bytes := s.take (scanEnd isCrlf s s.length)

/-- The stdin loop; `k` counts the calls of `send_pub`. -/
def stdinLoop (options : Options) (world : World) (topic : Bytes) :
    Nat → List StdinLine → List Paso
  | _, [] => []
  | k, line :: rest =>
      let body := stripTrailingCrlf (text line.bytes)
      if body = [] then stdinLoop options world topic k rest
      else
        let (pasos, ok) := sendPub options world k topic body 0 0
        if ok then pasos ++ stdinLoop options world topic (k + 1) rest else pasos

/-- The sizes of `home` and `away`. -/
def teamSize : Nat := 64

/-- A run of the program after its arguments were accepted. -/
def publisher (options : Options) (world : World) (topic : Bytes) (lines : List StdinLine) :
    List Paso :=
  let (home, away) := topicToTeams topic teamSize teamSize
  let (pasos, ok) := demoLoop options world topic home away 0 options.autoCount
  if ok then pasos ++ stdinLoop options world topic options.autoCount lines else pasos

/-- An accepted topic is a short token that the separator does not occur in. -/
theorem checkTopic_ok (topic : Bytes) (h : checkTopic topic = .ok ()) :
    charSpace ∉ topic ∧ charBar ∉ topic ∧ topic.length ≤ pubsubUdpMaxTopicLen := by
  unfold checkTopic at h
  split at h
  · cases h
  · next separators =>
    split at h
    · cases h
    · next short =>
      simp only [Bool.or_eq_true, not_or, Bool.not_eq_true, Option.isSome_eq_false_iff,
        Option.isNone_iff_eq_none] at separators
      exact ⟨(strchr_none_iff _ _).mp separators.1, (strchr_none_iff _ _).mp separators.2,
        Nat.not_lt.mp short⟩

theorem length_pubText (topic body : Bytes) :
    (pubText topic body).length = topic.length + body.length + 6 := by
  simp only [pubText, List.length_append, length_pubsubUdpPrefixPub, List.length_singleton]
  omega

/-- A datagram is built exactly when it fits the buffer, and then it is the text. -/
theorem buildPubDatagram_fits (outSz : Nat) (topic body : Bytes)
    (fits : (pubText topic body).length < outSz) :
    buildPubDatagram outSz topic body = .ok (pubText topic body) := by
  rw [buildPubDatagram, snprintf_fits _ _ fits]
  exact if_neg (Nat.not_le.mpr fits)

end SportsPubSub.Udp.Publisher
