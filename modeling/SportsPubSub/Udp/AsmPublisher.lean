import SportsPubSub.Udp.AsmBroker
import SportsPubSub.Udp.Arguments

/-!
# The assembly UDP publisher

Source: udp_asm/publisher_udp.s, under its labels. `main` has a frame of 1736 bytes
with the options at 0 to 16, the message at 32, the line read at 544, the visiting
team at 1568 and the home team at 1632; `send_pub` has one of 2952 bytes with the
microseconds at 8, the time at 16, the datagram at 128 and the stamped body at 1536.
What the frames hold when they are entered is an input. The compiler has left out
the test of what `snprintf` returns for a message, turned the division by 1000 into a
multiplication, and stores some messages without `snprintf`. Socket set-up and the
lines printed outside the loops are left out, as in `Udp.Publisher`.
-/
namespace SportsPubSub.Udp.AsmPublisher
open Lib.Posix Lib.Decimal Lib.LittleEndian Lib.Memory Lib.Strtoul Protocol
open Publisher (Fallo Paso Clock World StdinLine timelineText matchTimeline)
open Arguments (Rechazo)

/-- The options in the frame of `main`: 0, 4, 8, 12 and 16. -/
structure Variables where
  fastBurst : UInt32
  randomSkipSleep : UInt32
  autoCount : UInt32
  deterministic : UInt32
  quiet : UInt32
  deriving DecidableEq, Repr

/-- `tv_usec / 1000L`: `imulq` with the reciprocal, `sarq $7` on its upper half, and
the sign. -/
def thousandth (rcx : Int) : Int :=
  (rcx * 2361183241434822607) >>> (64 : Nat) >>> (7 : Nat) - rcx >>> (63 : Nat)

/-- The calls of `snprintf` on `stamped` and `buf` with the jump behind them; `limit`
is the size of the buffer. -/
def printed (fallo : Fallo) (stack : Region 2952) (dst limit : Nat) (formatted : Bytes) :
    Option (Except Fallo (Region 2952)) := do
  let (stack, eax) ← stack.snprintf dst limit formatted
  if eax > limit - 1 then some (.error fallo) else some (.ok stack)

/-- `.L9`: the fraction is printed behind the date, then both before the body. -/
def stampTime (stack : Region 2952) (body : Bytes) : Option (Except Fallo (Region 2952)) := do
  let rdi := (← stack.string 16).length
  let rcx := thousandth (leNat (← stack.load 8 8))
  let (stack, _) ← stack.snprintf (16 + rdi) (48 - rdi)
    (ascii "." ++ padded 3 rcx.toNat ++ ascii "] ")
  printed .cuerpoConMarcaDemasiadoLargo stack 1536 1400 ((← stack.string 16) ++ body)

/-- `.L2`: `body_with_timestamp`. Both ways to have no time end in the same texts. -/
def bodyWithTimestamp (stack : Region 2952) (clock : Clock) (body : Bytes) :
    Option (Except Fallo (Region 2952)) := do
  let stack ← stack.store 8 (leBytes 8 clock.tvUsec)
  match clock.localtime with
  | none => printed .cuerpoDemasiadoLargo stack 1536 1400 body
  | some tm =>
      match Publisher.strftime 48 tm with
      | none => printed .cuerpoDemasiadoLargo stack 1536 1400 body
      | some date => stampTime (← stack.store 16 (date ++ [0])) body

/-- The start of `send_pub`: `apply_body_stamp`. -/
def applyBodyStamp (stack : Region 2952) (clock : Clock) (body : Bytes)
    (r8d r9d eax : UInt32) : Option (Except Fallo (Region 2952)) :=
  if r8d = 0 then bodyWithTimestamp stack clock body
  else if signed eax ≤ 0 then bodyWithTimestamp stack clock body
  else
    printed .cuerpoConPrefijoDemasiadoLargo stack 1536 1400
      (ascii "[#" ++ signedDecimal (signed (r9d + 1)) ++ ascii "/" ++ signedDecimal (signed eax) ++
        ascii "] " ++ body)

/-- `send_pub` with the value it leaves in `eax`; `ebx` is `quiet`. -/
def sendPub (stack : Region 2952) (clock : Clock) (sendOk : Bool) (ebx : UInt32)
    (topic body : Bytes) (r8d r9d eax : UInt32) : Option (List Paso × UInt32) := do
  match ← applyBodyStamp stack clock body r8d r9d eax with
  | .error fallo => some ([.fallo fallo], 0xffffffff)
  | .ok stack =>
      -- `.L3`
      match ← printed .mensajeDemasiadoLargo stack 128 1401
          (pubsubUdpPrefixPub ++ topic ++ [charBar] ++ (← stack.string 1536) ++ [charLf]) with
      | .error fallo => some ([.fallo fallo], 0xffffffff)
      | .ok stack =>
          let buf ← stack.string 128
          if sendOk then
            if ebx = 0 then some ([.send buf, .enviado buf], ebx) else some ([.send buf], 0)
          else some ([.send buf, .fallo .sendFallo], 0xffffffff)

/-- `.L93` and `.L105`: `Rival` in two stores. -/
def rivalAway (frame : Region 1736) : Option (Region 1736) := do
  let frame ← frame.store 1568 (leBytes 4 1635150162)
  frame.store 1572 (leBytes 2 108)

/-- `topic_to_teams` in `main`, after `connect`. -/
def topicToTeams (frame : Region 1736) (topic : Bytes) : Option (Region 1736) :=
  match strstr (ascii "_vs_") topic with
  | none => do
      let (frame, _) ← frame.snprintf 1632 64 topic
      rivalAway frame
  | some 0 => do
      let (frame, _) ← frame.snprintf 1632 64 topic
      rivalAway frame
  | some (k + 1) => do
      let rdx := min (k + 1) 63
      let frame ← frame.store 1632 (topic.take rdx)
      let frame ← frame.store (1632 + rdx) [0]
      let (frame, _) ← frame.snprintf 1568 64 (topic.drop (k + 1 + 4))
      if (← frame.byte 1568) = 0 then rivalAway frame else some frame

/-- The table at `.L53` and its blocks. `rep movsb` copies a text with its NUL; `.L59`
writes one in four stores that overlap. -/
def message (frame : Region 1736) (rbx : Nat) : Option (Region 1736) := do
  let home ← frame.string 1632
  let away ← frame.string 1568
  match rbx with
  | 1 => frame.store 32 ((timelineText 1 home away ++ [0]).take 51)
  | 8 => do
      let frame ← frame.store 32 (leBytes 8 7286931302352776777)
      let frame ← frame.store 40 (leBytes 8 7236850738175090796)
      let frame ← frame.store 42 (leBytes 8 2337197157207467379)
      frame.store 50 (leBytes 8 13070377591073140)
  | 13 => frame.store 32 ((timelineText 13 home away ++ [0]).take 41)
  | _ => do
      let (frame, _) ← frame.snprintf 32 512 (timelineText rbx home away)
      some frame

/-- `.L50` and `.L84`. -/
def sleep (waitMs : UInt32) : List Paso :=
  if waitMs = 0 then [] else [.usleep (waitMs * 1000).toNat]

/-- `.L83`: an odd number skips the pause. -/
def skip (rand : Nat) (waitMs : UInt32) : List Paso :=
  if rand % 2 = 1 then [] else sleep waitMs

/-- `.L47` and `.L108`. -/
def wait (v : Variables) (rand : Nat) (waitMs : UInt32) : List Paso :=
  if v.fastBurst ≠ 0 then []
  else if v.randomSkipSleep ≠ 0 then skip rand waitMs
  else sleep waitMs

/-- From `.L70` to `.L49`, with `rbx = r15 % 15`; `.L48` has its own tests of the
options. -/
def pause (v : Variables) (rand : Nat) (r15 rbx : Nat) : List Paso :=
  if UInt32.ofNat r15 = 0 then wait v rand 0
  else if rbx = 0 then
    if v.fastBurst ≠ 0 then []
    else if v.randomSkipSleep ≠ 0 then skip rand 2500
    else [.usleep ((2500 : UInt32) * 1000).toNat]
  else wait v rand (UInt32.ofNat (matchTimeline.getD rbx 0))

/-- `.L70` to `.L109`: events from `r15` on, with the passes left before `r15` has run
through the values of an `int`. The last component says whether `.L110` was reached. -/
def demoLoop (v : Variables) (world : World) (junk : Nat → Region 2952) (topic : Bytes) :
    Nat → Region 1736 → Nat → Option (List Paso × Region 1736 × Bool)
  | 0, _, _ => none
  | passes + 1, frame, r15 => do
      if signed v.autoCount ≤ signed (UInt32.ofNat r15) then some ([], frame, true)
      else
        let rbx := r15 % 15
        let waiting := pause v (world.rand r15) r15 rbx
        let frame ← message frame rbx
        let (pasos, eax) ← sendPub (junk r15) (world.clock r15) (world.sendOk r15) v.quiet
          topic (← frame.string 32) v.deterministic (UInt32.ofNat r15) v.autoCount
        if eax ≠ 0 then some (waiting ++ pasos, frame, false)
        else
          let (later, frame, done) ← demoLoop v world junk topic passes frame (r15 + 1)
          some (waiting ++ pasos ++ later, frame, done)

/-- `.L77`: `fgets` and the calls of `send_pub`, of which `k` counts all. `.L74` and
`.L76` are the loop that the broker has as a function. -/
def stdinLoop (v : Variables) (world : World) (junk : Nat → Region 2952) (topic : Bytes) :
    Nat → List StdinLine → Region 1736 → Option (List Paso)
  | _, [], _ => some []
  | k, line :: rest, frame => do
      let frame ← frame.store 544 (line.bytes ++ [0])
      let frame ← AsmBroker.stripLoop frame 544 (← frame.string 544).length
      if (← frame.byte 544) = 0 then stdinLoop v world junk topic k rest frame
      else
        let (pasos, eax) ← sendPub (junk k) (world.clock k) (world.sendOk k) v.quiet topic
          (← frame.string 544) v.deterministic 0 0
        if eax ≠ 0 then some pasos
        else
          let later ← stdinLoop v world junk topic (k + 1) rest frame
          some (pasos ++ later)

/-- `main` from the call of `strstr` on. -/
def publisher (v : Variables) (world : World) (junk : Nat → Region 2952) (topic : Bytes)
    (lines : List StdinLine) (frame : Region 1736) : Option (List Paso) := do
  let frame ← topicToTeams frame topic
  let (pasos, frame, done) ← demoLoop v world junk topic (v.autoCount.toNat + 1) frame 0
  if done then
    let later ← stdinLoop v world junk topic v.autoCount.toNat lines frame
    some (pasos ++ later)
  else some pasos

/-- The tests behind a call of `strtoul`; one unsigned comparison excludes 0 and what is
too large. -/
def number (last : UInt64) (arg : CString) : Option UInt64 :=
  let (rax, stop) := strtoul arg
  if stop = 0 then none
  else if arg.at stop ≠ 0 then none
  else if rax - 1 > last then none
  else some rax

/-- `.L82`. -/
def flag (v : Variables) (rbp : Bytes) : Except Rechazo Variables :=
  if strcmpEq rbp (ascii "-r") then .ok { v with randomSkipSleep := 1 }
  else if strcmpEq rbp (ascii "-q") then .ok { v with quiet := 1 }
  else if strcmpEq rbp (ascii "-d") then .ok { v with deterministic := 1 }
  else .error (.argumentoDesconocido rbp)

/-- `.L23` to `.L30`, with the passes left. `-f` is compared in two places; the second,
after a `-n` without a value, would leave the loop. -/
def argumentLoop (argv : List CString) :
    Nat → Nat → Variables → Option (Except Rechazo Variables)
  | 0, _, _ => none
  | passes + 1, ebx, v => do
      let next := fun ebx v =>
        if argv.length ≤ ebx + 1 then some (.ok v) else argumentLoop argv passes (ebx + 1) v
      let rbp ← argv[ebx]?
      if strcmpEq rbp.bytes (ascii "-n") then
        if ebx + 1 < argv.length then
          match number 99999 (← argv[ebx + 1]?) with
          | none => some (.error .valorInvalidoParaN)
          | some rax => next (ebx + 1) { v with autoCount := rax.toUInt32 }
        else if strcmpEq rbp.bytes (ascii "-f") then some (.ok { v with fastBurst := 1 })
        else
          match flag v rbp.bytes with
          | .error rechazo => some (.error rechazo)
          | .ok v => next ebx v
      else if strcmpEq rbp.bytes (ascii "-f") then next ebx { v with fastBurst := 1 }
      else
        match flag v rbp.bytes with
        | .error rechazo => some (.error rechazo)
        | .ok v => next ebx v

/-- `.L81`: with both options `4(%rsp)` is overwritten, and stays different from 0. -/
def seeded (v : Variables) : Variables :=
  if v.randomSkipSleep = 0 then v
  else if v.deterministic = 0 then v
  else { v with randomSkipSleep := v.deterministic }

/-- The options on the way to `.L24`. -/
def options (argv : List CString) : Option (Except Rechazo Variables) :=
  if argv.length ≤ 4 then some (.ok ⟨0, 0, 12, 0, 0⟩)
  else (argumentLoop argv argv.length 4 ⟨0, 0, 12, 0, 0⟩).map (Except.map seeded)

/-- What `.L24` and `.L35` refuse, and the port that is stored. -/
def checked (portArg topic : CString) : Except Rechazo UInt16 :=
  match number 65534 portArg with
  | none => .error (.puertoInvalido portArg.bytes)
  | some rbx =>
      if (strchr topic.bytes 32).isSome then .error (.tema .temaConSeparadores)
      else if (strchr topic.bytes 124).isSome then .error (.tema .temaConSeparadores)
      else if topic.bytes.length > 63 then .error (.tema (.temaDemasiadoLargo 63))
      else .ok rbx.toUInt16

/-- `main`: a line on stderr, or the address and port of the broker and what follows. -/
def main (argv : List CString) (world : World) (junk : Nat → Region 2952)
    (lines : List StdinLine) (frame : Region 1736) :
    Option (Except Rechazo (CString × UInt16 × List Paso)) := do
  if argv.length ≤ 3 then some (.error .uso)
  else
    match ← options argv with
    | .error rechazo => some (.error rechazo)
    | .ok v =>
        let topic ← argv[3]?
        match checked (← argv[2]?) topic with
        | .error rechazo => some (.error rechazo)
        | .ok port =>
            let pasos ← publisher v world junk topic.bytes lines frame
            some (.ok (← argv[1]?, port, pasos))

end SportsPubSub.Udp.AsmPublisher
