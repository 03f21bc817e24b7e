import SportsPubSub.Udp.AsmPublisherRefines
import SportsPubSub.Udp.AsmSubscriber
import SportsPubSub.Udp.SubscriberMain

/-!
# The assembly UDP subscriber from its command line to the terminal

Source: udp_asm/subscriber_udp.s, block by block under its labels. The frame of `main`
has 1560 bytes: the length for `recvfrom` at 12, the sender at 16, its address as a text
at 32, the topic of a story at 48, `buf` at 112 and the broker at 1520. What it holds at
the start is an input, and so are the eight bytes of `sin_zero` that `recvfrom` stores.
A reading beyond the frame is a fault; that there is none is part of the comparison with
the C program. `setvbuf`, `fflush` and `close` are left out, as there.
-/
namespace SportsPubSub.Udp.AsmSubscriberMain
open Lib.Posix Lib.Decimal Lib.LittleEndian Lib.Memory Lib.Strtoul Lib.Reactive Protocol
open Subscriber (Line Buffer checkArgv sendSub)
open SubscriberMain (Host Suceso Salida htons inetNtop estandar shown)

/-- `rolw $8`. -/
def rolw8 (w : UInt16) : UInt16 := w <<< 8 ||| w >>> 8

/-- `.L7`, with the passes left before `r14d` has run through its values. The flag says
whether `.L13` is reached. -/
def l7 (host : Host) (argv : List CString) :
    Nat → Nat → Region 1560 → Option (Region 1560 × List Suceso × Bool)
  | 0, _, _ => none
  | passes + 1, r14, frame => do
      let r12 ← argv[r14]?
      if (strchr r12.bytes 32).isSome then
        some (frame, [.tema (.temaConEspacios r12.bytes)], false)
      else if r12.bytes.length > 63 then
        some (frame, [.tema (.temaDemasiadoLargo r12.bytes)], false)
      else
        let (frame, eax) ← frame.snprintf 112 1401 (pubsubUdpPrefixSub ++ r12.bytes ++ [charLf])
        if eax > 1400 then some (frame, [.tema .subDemasiadoLargo], false)
        else
          let datagram ← frame.load 112 eax
          let dest ← frame.sockaddr 1520
          match host.sendto (r14 - 3) with
          | none => some (frame, [.sendto datagram dest, .sendtoFallo], false)
          | some rdx =>
              let here := [.sendto datagram dest, .registrado r12.bytes rdx]
              if argv.length ≤ r14 + 1 then
                some (frame, here ++ [.suscripcionesEnviadas], true)
              else
                let (frame, later, reached) ← l7 host argv passes (r14 + 1) frame
                some (frame, here ++ later, reached)

/-- `%s:%u` with 32(%rsp) and `bp`. -/
def origin (frame : Region 1560) (bp : UInt16) : Option Bytes := do
  let fromstr ← frame.string 32
  some (fromstr ++ ascii ":" ++ decimal bp.toNat)

/-- `.L35`: `%.*s` with 120(%rsp). -/
def l35 (frame : Region 1560) (bp : UInt16) : Option Bytes := do
  let rest ← frame.string 120
  let ecx := strcspn rest isCrlf
  some (ascii "\n[subscriber] Suscripcion OK desde " ++ (← origin frame bp) ++
    ascii " -> partido \"" ++ rest.take ecx ++ ascii "\"\n")

/-- From the `cmpb` behind `.LC21` to `.L20`, with `.L37`. -/
def lineEnd (frame : Region 1560) (r12 : Nat) : Option Bytes := do
  if (← frame.byte (r12 + 1)) = 0 then some []
  else if (strchr (← frame.string (r12 + 1)) 10).isSome then some []
  else some [10]

/-- The `NEWS` part, with `.L36`; `rep movsb` copies the topic to 48(%rsp). -/
def news (frame : Region 1560) (bp : UInt16) : Option (Region 1560 × Bytes) := do
  let p ← frame.string 117
  match strchr p 124 with
  | none =>
      some (frame, ascii "\n[subscriber] [" ++ (← origin frame bp) ++ ascii "] " ++
        (← frame.string 112))
  | some sep =>
      let r12 := 117 + sep
      let rax := if sep > 63 then 63 else sep
      let frame ← frame.store 48 (← frame.load 117 rax)
      let frame ← frame.store (48 + rax) [0]
      let r14 := r12 + 1
      some (frame, ascii "\n---------- NOTICIA EN VIVO ----------\n" ++
        ascii "  Partido: " ++ (← frame.string 48) ++ ascii "\n" ++
        ascii "  Origen:  " ++ (← origin frame bp) ++ ascii "\n" ++
        ascii "  Texto:   " ++ (← frame.string r14) ++ (← lineEnd frame r12) ++
        ascii "---------------------------------------\n")

/-- The two calls of `strncmp`, and `.L18`. -/
def branches (frame : Region 1560) (bp : UInt16) : Option (Region 1560 × Bytes) := do
  let buf ← frame.string 112
  if strncmpEq buf AsmSubscriber.lc13 8 then some (frame, ← l35 frame bp)
  else if strncmpEq buf AsmSubscriber.lc16 5 then news frame bp
  else
    some (frame, ascii "\n[subscriber] [" ++ (← origin frame bp) ++ ascii "] (datagrama no " ++
      estandar ++ ascii ") " ++ buf)

/-- The result of a `recvfrom`, `none` for -1, and what it leaves in `sin_zero`. -/
structure Recibido where
  result : Option (SockaddrIn × Bytes)
  sinZero : Bytes
  padded : sinZero.length = 8

/-- `.L13`, with `.L34`. -/
def l13 : System (Region 1560) Recibido (Salida Bytes) := fun frame recibido => do
  let frame ← frame.store 12 (wordBytes 16)
  match recibido.result with
  | none => some (frame, [.inl .recvfromFallo])
  | some (sender, datagram) =>
      let read := datagram.take 1400
      let frame ← frame.store 16 (sockaddrBytes sender recibido.sinZero)
      let frame ← frame.store 112 read
      let frame ← frame.store (112 + read.length) [0]
      if (← frame.half 16) ≠ 2 then some (frame, [])
      else if (← frame.half 1520) ≠ 2 then some (frame, [])
      else if (← frame.half 18) ≠ (← frame.half 1522) then some (frame, [])
      else
        let frame ← frame.store 32 (inetNtop (← frame.word 20) ++ [0])
        let bp := rolw8 (← frame.half 18)
        let (frame, text) ← branches frame bp
        some (frame, [.inr text])

/-- `memset`, `sin_family` and `sin_port` of the broker's address at `off`, as both clients
have them. -/
def clearAt {size : Nat} (off : Nat) (port : UInt16) (frame : Region size) :
    Option (Region size) := do
  let frame ← frame.store (off + 4) (leBytes 8 0)
  let frame ← frame.store (off + 12) (leBytes 4 0)
  let frame ← frame.store off (leBytes 2 2)
  frame.store (off + 2) (leBytes 2 (rolw8 port).toNat)

/-- `.L5` up to the call of `inet_pton`: the address of the broker but for `sin_addr`. -/
def clear (r12 : UInt64) (frame : Region 1560) : Option (Region 1560) :=
  clearAt 1520 r12.toUInt16 frame

/-- From there to `.L13`. -/
def subscribe (host : Host) (argv : List CString) (r12 : UInt64) (sinAddr : UInt32)
    (frame : Region 1560) : Option (Region 1560 × List Suceso × Bool) := do
  let frame ← clear r12 frame
  let frame ← frame.store 1524 (wordBytes sinAddr)
  l7 host argv argv.length 3 frame

/-- `main` from `.L5` on, for a model of the passes of `.L13`. -/
def l5 {τ : Type} (pass : System (Region 1560) Recibido (Salida τ)) (host : Host)
    (argv : List CString) (r15 : CString) (r12 : UInt64) (frame : Region 1560)
    (received : List Recibido) : Option (List (Salida τ)) := do
  if !host.socket then some [.inl .socketFallo]
  else
    match host.inetPton r15.bytes with
    | none =>
        let _ ← clear r12 frame
        some [.inl (.direccionInvalida r15.bytes)]
    | some sinAddr =>
        let (frame, calls, reached) ← subscribe host argv r12 sinAddr frame
        if reached then
          let (_, later) ← exec pass frame received
          some (calls.map .inl ++ later)
        else some (calls.map .inl)

/-- `main` with a model of the passes of `.L13`; the port passes the test that the
publisher has. -/
def mainWith {τ : Type} (pass : System (Region 1560) Recibido (Salida τ)) (host : Host)
    (argv : List CString) (frame : Region 1560) (received : List Recibido) :
    Option (List (Salida τ)) := do
  if argv.length ≤ 3 then some [.inl (.argumentos .uso)]
  else
    let r15 ← argv[1]?
    let port ← argv[2]?
    match AsmPublisher.number 65534 port with
    | none => some [.inl (.argumentos (.puertoInvalido port.bytes))]
    | some r12 => l5 pass host argv r15 r12 frame received

/-- `main`. -/
def main (host : Host) (argv : List CString) (frame : Region 1560) (received : List Recibido) :
    Option (List (Salida Bytes)) := mainWith l13 host argv frame received

end SportsPubSub.Udp.AsmSubscriberMain
