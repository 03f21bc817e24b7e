import SportsPubSub.Udp.AsmSubscriberRefines
import SportsPubSub.Udp.PublisherMain

/-!
# The assembly UDP publisher from its command line to its exit status

Source: udp_asm/publisher_udp.s, `main`, around the loops of `Udp.AsmPublisher`. The
address of the broker is at 1696(%rsp). `r13d` holds what `inet_pton` returned, which is 1;
it is kept at 28(%rsp) during the demo and is the exit status of a program that fails
behind that call. `setvbuf` and `close` are left out, as in the C program, and so are the
end pointers that `strtoul` stores in the frame.
-/
namespace SportsPubSub.Udp.AsmPublisher
open Lib.Posix Lib.Decimal Lib.LittleEndian Lib.Memory Lib.Strtoul Protocol
open Publisher (Paso World StdinLine checkTopic teamSize)
open Arguments (Rechazo PublisherArguments parseOptions defaultOptions checkPort)
open AsmSubscriberMain (rolw8 clearAt clearAt_spec)
open PublisherMain (Host Suceso linea)

/-- `.L81` and `.L31`, with the call of `srand`: `xorl` drops the upper half of the time. -/
def l81 (host : Host) (v : Variables) : List Suceso :=
  if v.randomSkipSleep = 0 then []
  else if v.deterministic = 0 then [.srand (host.getpid ^^^ host.time.toUInt32)]
  else [.srand 1]

/-- `.L42` to `.L46`. -/
def l42 (v : Variables) (rbp : CString) (rbx : UInt16) (r14 : CString) : List Suceso :=
  [.printed (ascii "[publisher] Broker " ++ rbp.bytes ++ ascii ":" ++ decimal rbx.toNat ++
      ascii ", tema '" ++ r14.bytes ++ ascii "', " ++ signedDecimal (signed v.autoCount) ++
      ascii " evento(s)")] ++
  (if v.fastBurst ≠ 0 then [.printed (ascii " [modo -f: sin pausas]\n")]
    else if v.randomSkipSleep = 0 then
      [.printed (ascii " (intervalos de la " ++ linea ++ ascii " de tiempo).\n")]
    else [.printed (ascii " [modo -r: ~50% pausas en 0 ms]\n")]) ++
  if v.deterministic ≠ 0 then
    [.printed (ascii "[publisher] Modo -d: payloads de la demo repetibles [#i/" ++
      signedDecimal (signed v.autoCount) ++
      ascii "]; tras la demo, stdin sigue con hora real.\n")]
  else []

/-- `.L110` and `.L72`. -/
def l110 (v : Variables) : List Suceso :=
  (if v.quiet ≠ 0 then
    [.printed (ascii "[publisher] " ++ signedDecimal (signed v.autoCount) ++
      ascii " mensaje(s) demo UDP enviado(s) (-q: sin eco por mensaje).\n")]
    else []) ++
  [.printed (ascii "[publisher] Mensajes demo enviados. Escriba " ++ linea ++
    ascii "s adicionales (Enter para enviar, EOF/Ctrl+D para terminar):\n")]

/-- `.L38` behind `connect`. -/
def l38 (v : Variables) (world : World) (junk : Nat → Region 2952) (rbp : CString)
    (rbx : UInt16) (r14 : CString) (lines : List StdinLine) (r13 : UInt32)
    (frame : Region 1736) : Option (List Suceso × UInt32) := do
  let frame ← topicToTeams frame r14.bytes
  let frame ← frame.store 28 (wordBytes r13)
  let (demo, frame, done) ← demoLoop v world junk r14.bytes (v.autoCount.toNat + 1) frame 0
  if done then
    let more ← stdinLoop v world junk r14.bytes v.autoCount.toNat lines frame
    some (l42 v rbp rbx r14 ++ demo.map .paso ++ l110 v ++ more.map .paso, 0)
  else
    -- `.L109`
    some (l42 v rbp rbx r14 ++ demo.map .paso, ← frame.word 28)

/-- `.L35` behind the test of the length, with `.L103` and `.L104`. -/
def l35 (host : Host) (v : Variables) (world : World) (junk : Nat → Region 2952)
    (rbp : CString) (rbx : UInt16) (r14 : CString) (lines : List StdinLine)
    (frame : Region 1736) : Option (List Suceso × UInt32) := do
  if !host.socket then some ([.socketFallo], 1)
  else
    let frame ← clearAt 1696 rbx frame
    match host.inetPton rbp.bytes with
    | none => some ([.direccionInvalida rbp.bytes], 1)
    | some sinAddr =>
        let r13 := 1
        let frame ← frame.store 1700 (wordBytes sinAddr)
        let dest ← frame.sockaddr 1696
        if !host.connect dest then some ([.connect dest, .connectFallo], r13)
        else
          let (sucesos, eax) ← l38 v world junk rbp rbx r14 lines r13 frame
          some (.connect dest :: sucesos, eax)

/-- `.L24`. -/
def l24 (host : Host) (argv : List CString) (v : Variables) (world : World)
    (junk : Nat → Region 2952) (lines : List StdinLine) (frame : Region 1736) :
    Option (List Suceso × UInt32) := do
  let rbp ← argv[1]?
  let r14 ← argv[3]?
  match checked (← argv[2]?) r14 with
  | .error rechazo => some ([.argumentos rechazo], 1)
  | .ok rbx => l35 host v world junk rbp rbx r14 lines frame

/-- `main` with what it leaves in `eax`. -/
def program (host : Host) (argv : List CString) (world : World) (junk : Nat → Region 2952)
    (lines : List StdinLine) (frame : Region 1736) : Option (List Suceso × UInt32) := do
  let v : Variables := ⟨0, 0, 12, 0, 0⟩
  if argv.length ≤ 3 then some ([.argumentos .uso], 1)
  else if argv.length ≤ 4 then l24 host argv v world junk lines frame
  else
    match ← argumentLoop argv argv.length 4 v with
    | .error rechazo => some ([.argumentos rechazo], 1)
    | .ok v =>
        let (sucesos, eax) ← l24 host argv (seeded v) world junk lines frame
        some (l81 host v ++ sucesos, eax)

/-- The seed is the same number of 32 bits. -/
theorem l81_spec (host : Host) (options : Publisher.Options) :
    l81 host (optionWords options) = PublisherMain.seed host options := by
  have low : (host.time ^^^ host.getpid.toUInt64).toUInt32 =
      host.getpid ^^^ host.time.toUInt32 := by
    rw [UInt64.toUInt32_xor, UInt32.toUInt32_toUInt64, UInt32.xor_comm]
  unfold l81 PublisherMain.seed
  rw [low]
  cases random : options.randomSkipSleep <;> cases fixed : options.deterministic <;>
    simp [optionWords, random, fixed, flagWord]

/-- `%d` of the number of events. -/
theorem count_spec (options : Publisher.Options) :
    signedDecimal (signed (optionWords options).autoCount) = decimal options.autoCount := by
  have limit := options.count_le
  have value : signed (optionWords options).autoCount = (options.autoCount : Int) :=
    signed_ofNat _ (by omega)
  rw [value]
  rfl

theorem l42_spec (a : PublisherArguments) :
    l42 (optionWords a.options) a.brokerIp a.port a.topic = PublisherMain.saludo a := by
  unfold l42 PublisherMain.saludo
  rw [count_spec]
  cases fast : a.options.fastBurst <;> cases random : a.options.randomSkipSleep <;>
    cases fixed : a.options.deterministic <;> simp [optionWords, fast, random, fixed, flagWord]

theorem l110_spec (options : Publisher.Options) :
    l110 (optionWords options) = PublisherMain.demoEnviada options := by
  unfold l110 PublisherMain.demoEnviada
  rw [count_spec]
  cases quiet : options.quiet <;> simp [optionWords, quiet, flagWord]

/-- The loops with the lines around them; the exit status is still at 28(%rsp). -/
theorem l38_spec (a : PublisherArguments) (world : World) (junk : Nat → Region 2952)
    (lines : List StdinLine) (frame : Region 1736) :
    l38 (optionWords a.options) world junk a.brokerIp a.port a.topic lines 1 frame =
      some (PublisherMain.fromConnect a world lines) := by
  have limit := a.options.count_le
  have count : (optionWords a.options).autoCount.toNat = a.options.autoCount :=
    toNat_ofNat _ (by omega)
  obtain ⟨f, named, teams⟩ := topicToTeams_spec frame a.topic.bytes a.topic.nul_free
  obtain ⟨f', stored, status, kept⟩ := f.store_spec 28 (wordBytes 1)
    (by rw [length_wordBytes]; decide)
  rw [length_wordBytes] at kept
  obtain ⟨f'', demo, kept'⟩ := demoLoop_spec a.options world junk a.topic.bytes _ _
    a.topic.nul_free 0 a.options.autoCount (Nat.zero_add _) f' (teams.keep kept (by decide))
  have result : f''.word 28 = some 1 :=
    Region.word_of_holds (kept' _ _ status (.inl (by rw [length_wordBytes])))
  simp only [l38, named, stored, count, demo, result,
    stdinLoop_spec a.options world junk a.topic.bytes a.topic.nul_free, Option.bind_eq_bind,
    Option.bind_some, PublisherMain.fromConnect, l42_spec a, l110_spec]
  split
  · rfl
  · rfl

/-- The address that is handed to `connect` is put together in the frame. -/
theorem l35_spec (host : Host) (a : PublisherArguments) (world : World)
    (junk : Nat → Region 2952) (lines : List StdinLine) (frame : Region 1736) :
    l35 host (optionWords a.options) world junk a.brokerIp a.port a.topic lines frame =
      some (PublisherMain.fromSocket host a world lines) := by
  unfold l35 PublisherMain.fromSocket
  cases host.socket with
  | false => rfl
  | true =>
    cases address : host.inetPton a.brokerIp.bytes with
    | none =>
      obtain ⟨f, -, cleared, -⟩ := clearAt_spec frame 1696 a.port 0 (by decide)
      simp only [cleared, Option.bind_eq_bind, Option.bind_some]
      rfl
    | some sinAddr =>
      obtain ⟨f, f', cleared, stored, held⟩ := clearAt_spec frame 1696 a.port sinAddr (by decide)
      have dest := Region.sockaddr_of_holds held
      simp only [cleared, stored, dest, l38_spec, Option.bind_eq_bind, Option.bind_some,
        Bool.not_true, Bool.false_eq_true, if_false]
      split
      · rfl
      · rfl

theorem l24_spec (host : Host) (argv : List CString) (brokerIp portArg topic : CString)
    (first : argv[1]? = some brokerIp) (second : argv[2]? = some portArg)
    (third : argv[3]? = some topic) (options : Publisher.Options) (world : World)
    (junk : Nat → Region 2952) (lines : List StdinLine) (frame : Region 1736) :
    l24 host argv (optionWords options) world junk lines frame =
      some (match checkPort portArg, checkTopic topic.bytes with
        | .error rechazo, _ => ([.argumentos rechazo], 1)
        | .ok _, .error fallo => ([.argumentos (.tema fallo)], 1)
        | .ok port, .ok () =>
            PublisherMain.fromSocket host ⟨options, brokerIp, port, topic⟩ world lines) := by
  simp only [l24, first, second, third, checked_spec, Option.bind_eq_bind, Option.bind_some]
  cases checkPort portArg with
  | error rechazo => rfl
  | ok port =>
    cases checkTopic topic.bytes with
    | error fallo => rfl
    | ok accepted => exact l35_spec host ⟨options, brokerIp, port, topic⟩ world junk lines frame

/-- The whole program, from the command line to the exit status: the same complaints,
seeds, address, lines, datagrams and pauses in the same order. -/
theorem program_refines_c (host : Host) (name : CString) (args : List CString) (world : World)
    (junk : Nat → Region 2952) (lines : List StdinLine) (frame : Region 1736) :
    program host (name :: args) world junk lines frame =
      some (PublisherMain.main host args world lines) := by
  match args with
  | [] => rfl
  | [_] => rfl
  | [_, _] => rfl
  | brokerIp :: portArg :: topic :: rest =>
    have checks := fun options => l24_spec host (name :: brokerIp :: portArg :: topic :: rest)
      brokerIp portArg topic rfl rfl rfl options world junk lines frame
    have enough : ¬ (name :: brokerIp :: portArg :: topic :: rest).length ≤ 3 := by simp
    unfold program PublisherMain.main
    rw [if_neg enough]
    cases rest with
    | nil =>
      refine (checks defaultOptions).trans ?_
      simp only [parseOptions]
      cases checkPort portArg with
      | error rechazo => rfl
      | ok port =>
        cases checkTopic topic.bytes with
        | error fallo => rfl
        | ok accepted => rfl
    | cons arg rest =>
      have loop := argumentLoop_spec (name :: brokerIp :: portArg :: topic :: arg :: rest)
        (rest.length + 5) 4 defaultOptions (by simp) (by simp)
      have behind : (name :: brokerIp :: portArg :: topic :: arg :: rest).drop 4 = arg :: rest := rfl
      have more : ¬ (name :: brokerIp :: portArg :: topic :: arg :: rest).length ≤ 4 := by simp
      rw [behind] at loop
      rw [if_neg more]
      refine (congrArg (Option.bind · _) loop).trans ?_
      dsimp only
      cases parseOptions defaultOptions (arg :: rest) with
      | error rechazo => rfl
      | ok options =>
        simp only [Except.map, Option.bind_some, seeded_spec, checks, l81_spec]
        cases checkPort portArg with
        | error rechazo => rfl
        | ok port =>
          cases checkTopic topic.bytes with
          | error fallo => rfl
          | ok accepted => rfl

end SportsPubSub.Udp.AsmPublisher
