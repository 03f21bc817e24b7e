import SportsPubSub.Lib.Memory
import SportsPubSub.Udp.Routing

/-!
# The assembly UDP broker

Source: udp_asm/broker_udp.s, block by block under its labels. The stack frame of
`main` and `g_topics` are byte regions, registers are local values under their
own names, and a fault of an access is `none`. In the frame the length for
`recvfrom` is at 12, the sender at 16, the text to be sent at 32 and the datagram
at 1440; a slot of `g_topics` has 2116 bytes with the addresses from 64 on and
their number at 2112. Calls of the C library read and write the regions as
documented. Socket set-up and the port argument are outside this module.
-/
namespace SportsPubSub.Udp.AsmBroker
open Lib.Posix Lib.LittleEndian Lib.Memory Lib.Reactive Protocol

structure State where
  frame : Region 2880
  gTopics : Region 135424
  gNTopics : UInt32

/-- What the program does that can be seen: the effects of the C broker, and a
line of which `fwrite` is given fewer bytes than it has. -/
inductive Output where
  | effect (e : Broker.Effect)
  | truncated (line : Broker.Diagnostic) (count : Nat)
  deriving DecidableEq, Repr

/-- `imulq $2116`: the offset of a slot. A negative index, taken unsigned, is
out of `g_topics` as the sign-extended one is. -/
def slot (index : UInt32) : Nat := index.toNat * 2116

/-- `.L2` and `.L4`: `rdx` counts down from `strlen`. -/
def stripLoop {size : Nat} (frame : Region size) (rbx : Nat) : Nat → Option (Region size)
  | 0 => some frame
  | rdx + 1 => do
      let al ← frame.byte (rbx + rdx)
      if al = 10 ∨ al = 13 then stripLoop (← frame.store (rbx + rdx) [0]) rbx rdx
      else some frame

def stripTrailingCrlf (frame : Region 2880) (rdi : Nat) : Option (Region 2880) := do
  stripLoop frame rdi (← frame.string rdi).length

/-- `.L9`, with the passes left before `ebx` has run through all its values. -/
def findLoop (gTopics : Region 135424) (r12 : Bytes) (r13d : UInt32) :
    Nat → UInt32 → Nat → Option UInt32
  | 0, _, _ => none
  | passes + 1, ebx, rbp => do
      if strcmpEq (← gTopics.string rbp) r12 then some ebx
      else if ebx + 1 = r13d then some 0xffffffff
      else findLoop gTopics r12 r13d passes (ebx + 1) (rbp + 2116)

def findTopicIndex (st : State) (rdi : Nat) : Option UInt32 := do
  if signed st.gNTopics ≤ 0 then some 0xffffffff
  else findLoop st.gTopics (← st.frame.string rdi) st.gNTopics st.gNTopics.toNat 0 0

/-- `send_datagram`; `ok` is the outcome of its `sendto`. -/
def sendDatagram (frame : Region 2880) (ok : Bool) (rsi : Nat) (rdx : SockaddrIn) :
    Option (UInt32 × List Broker.Effect) := do
  let text ← frame.string rsi
  if text.length > 1400 then
    some (0xffffffff, [.sendDatagram text rdx, .log .mensajeDemasiadoLargo])
  else if ok then some (0, [.sendDatagram text rdx, .sendto text rdx])
  else some (0xffffffff, [.sendDatagram text rdx, .sendto text rdx, .log .sendtoFallo])

/-- `.L75`: a new slot, `none` for the jump to `.L38`. The `rep stosq` clears what
the two single stores around it leave. -/
def newTopic (st : State) : Option (State × Option UInt32) := do
  let eax := st.gNTopics
  if signed eax > 63 then some (st, none)
  else
    let rbx := slot eax
    let gTopics ← st.gTopics.store rbx (List.replicate 8 0)
    let gTopics ← gTopics.store (rbx + 2108) (List.replicate 8 0)
    let rdi := (rbx + 8) / 8 * 8
    let ecx := (rbx + 2116 - rdi) / 8
    let gTopics ← gTopics.store rdi (List.replicate (8 * ecx) 0)
    let (gTopics, _) ← gTopics.snprintf rbx 64 (← st.frame.string 1444)
    let gTopics ← gTopics.store (rbx + 2112) (wordBytes 0)
    let ebx := st.gNTopics
    let st := { st with gTopics, gNTopics := ebx + 1 }
    some (st, if signed ebx ≥ 0 then some ebx else none)

/-- The three comparisons at `.L43`: family, address, port. -/
def sameSender (gTopics : Region 135424) (rax : Nat) (cx : UInt16) (r8d : UInt32)
    (r9w : UInt16) : Option Bool := do
  if (← gTopics.half rax) ≠ cx then some false
  else if (← gTopics.word (rax + 4)) ≠ r8d then some false
  else if (← gTopics.half (rax + 2)) ≠ r9w then some false
  else some true

/-- `.L43` and `.L41`, with the passes left as in `findLoop`. -/
def searchLoop (gTopics : Region 135424) (cx : UInt16) (r8d : UInt32) (r9w : UInt16)
    (rsi : Nat) : Nat → Nat → Option Bool
  | 0, _ => none
  | passes + 1, rax => do
      if ← sameSender gTopics rax cx r8d r9w then some true
      else if rax + 16 = rsi then some false
      else searchLoop gTopics cx r8d r9w rsi passes (rax + 16)

/-- Whether the jump out of `.L43` is taken; with no address stored `.L40` follows
at once. -/
def known (st : State) (ebx edi : UInt32) : Option Bool := do
  if signed edi ≤ 0 then some false
  else
    let rax := slot ebx + 64
    searchLoop st.gTopics (← st.frame.half 16) (← st.frame.word 20) (← st.frame.half 18)
      (rax + edi.toNat * 16) edi.toNat rax

/-- `.L37` up to `.L42`: the sender is stored unless it is there already or the
slot is full (`.L77`). The count is written before the address. -/
def addSubscriber (st : State) (ebx : UInt32) : Option (State × List Output) := do
  let edi ← st.gTopics.word (slot ebx + 2112)
  if ← known st ebx edi then some (st, [])
  else if signed edi > 127 then
    some (st, [.effect (.log (.maximoDeExtremos (← st.gTopics.string (slot ebx))))])
  else
    let gTopics ← st.gTopics.store (slot ebx + 2112) (wordBytes (edi + 1))
    let gTopics ← gTopics.store (slot ebx + (edi.toNat + 4) * 16) (← st.frame.load 16 16)
    some ({ st with gTopics }, [])

/-- `.L42`: the answer, then the line that reports it. `.L76` writes 30 bytes of a
line of 49. -/
def answer (net : Nat → Bool) (st : State) (ebx : UInt32) : Option (State × List Output) := do
  let payload ← st.frame.string 1444
  let (frame, eax) ← st.frame.snprintf 32 1400 (pubsubUdpPrefixSubOk ++ payload ++ [charLf])
  if eax > 1399 then some ({ st with frame }, [.truncated .respuestaDemasiadoLarga 30])
  else
    let client ← frame.sockaddr 16
    let (_, effects) ← sendDatagram frame (net 0) 32 client
    let r12d ← st.gTopics.word (slot ebx + 2112)
    let payload ← frame.string 1444
    some ({ st with frame },
      effects.map .effect ++ [.effect (.log (.suscripcionRegistrada payload client r12d.toNat))])

/-- `.L37`: registration and answer. -/
def register (net : Nat → Bool) (st : State) (ebx : UInt32) : Option (State × List Output) := do
  let (st, warning) ← addSubscriber st ebx
  let (st, effects) ← answer net st ebx
  some (st, warning ++ effects)

/-- `.L68`: a datagram that starts with `SUB `. -/
def subscribe (net : Nat → Bool) (st : State) : Option (State × List Output) := do
  let frame ← stripTrailingCrlf st.frame 1444
  let st := { st with frame }
  if (← frame.byte 1444) = 0 then some (st, [.effect (.log .subSinTema)])
  else
    let payload ← frame.string 1444
    if (strchr payload 32).isSome then
      some (st, [.effect (.log (.temaConEspacios payload))])
    else if payload.length > 63 then some (st, [.effect (.log (.temaDemasiadoLargo 63))])
    else
      let ebx ← findTopicIndex st 1444
      if signed ebx < 0 then
        let (st, created) ← newTopic st
        match created with
        | none => some (st, [.effect (.log .tablaLlena)])
        | some ebx => register net st ebx
      else register net st ebx

/-- `.L56`: a loop left at the bottom, `ebx` counting the passes made and `r14d`
the datagrams that were sent. -/
def forwardLoop (net : Nat → Bool) (st : State) (r13 : Nat) :
    Nat → UInt32 → UInt32 → Nat → Option (UInt32 × List Output)
  | 0, _, _, _ => none
  | passes + 1, ebx, r14d, r12 => do
      let dest ← st.gTopics.sockaddr r12
      let (eax, effects) ← sendDatagram st.frame (net ebx.toNat) 32 dest
      let r14d := if eax < 1 then r14d + 1 else r14d
      let effects := effects.map Output.effect
      if signed (ebx + 1) < signed (← st.gTopics.word (r13 + 2112)) then
        let (r14d, later) ← forwardLoop net st r13 passes (ebx + 1) r14d (r12 + 16)
        some (r14d, effects ++ later)
      else some (r14d, effects)

/-- The test before `.L56`: without an address the loop is not entered. -/
def forward (net : Nat → Bool) (st : State) (r13d : UInt32) : Option (UInt32 × List Output) := do
  let count ← st.gTopics.word (slot r13d + 2112)
  if signed count ≤ 0 then some (0, [])
  else forwardLoop net st (slot r13d) count.toNat 0 0 (slot r13d + 64)

/-- A datagram that starts with `PUB `. -/
def publish (net : Nat → Bool) (st : State) : Option (State × List Output) := do
  let frame ← stripTrailingCrlf st.frame 1444
  match strchr (← frame.string 1444) 124 with
  | none => some ({ st with frame }, [.effect (.log .pubSinSeparador)])
  | some sep =>
      let r12 := 1444 + sep
      let frame ← frame.store r12 [0]
      let st := { st with frame }
      if (← frame.byte 1444) = 0 then some (st, [.effect (.log .pubTemaVacio)])
      else
        let r13d ← findTopicIndex st 1444
        if signed r13d < 0 then
          some (st, [.effect (.log (.pubSinExtremos (← frame.string 1444)))])
        else
          let body ← frame.string (r12 + 1)
          let topic ← frame.string 1444
          let (frame, eax) ← frame.snprintf 32 1400
            (pubsubUdpPrefixNews ++ topic ++ [charBar] ++ body ++ [charLf])
          let st := { st with frame }
          if eax > 1399 then some (st, [.effect (.log .newsDemasiadoLargo)])
          else
            let (r14d, effects) ← forward net st r13d
            let topic ← frame.string 1444
            some (st, effects ++ [.effect (.log (.pubReenviado topic r14d.toNat))])

/-- What `recvfrom` stores: an arrival of the C broker and the bytes it leaves in
`sin_zero`. -/
structure Arrival where
  received : Broker.Arrival
  sinZero : Bytes
  padded : sinZero.length = 8

/-- `.L29`: one pass of the loop of `main`. -/
def broker : System State Arrival Output := fun st arrival => do
  let frame ← st.frame.store 12 (wordBytes 16)
  let frame ← frame.store 16 (sockaddrBytes arrival.received.client arrival.sinZero)
  let frame ← frame.store 1440 arrival.received.datagram
  let rax := arrival.received.datagram.length
  if rax = 0 then some ({ st with frame }, [])
  else
    let frame ← frame.store (1440 + rax) [0]
    let st := { st with frame }
    let buf ← frame.string 1440
    if strncmpEq buf pubsubUdpPrefixSub 4 then subscribe arrival.received.net st
    else if strncmpEq buf pubsubUdpPrefixPub 4 then publish arrival.received.net st
    else some (st, [.effect (.log (.noReconocido (buf.take 40)))])

end SportsPubSub.Udp.AsmBroker
