import SportsPubSub.Udp.SubscriberMain

/-!
# The UDP publisher from its command line to its exit status

Source: udp_C/publisher_udp.c, all of `main`. The calls whose outcome is not up to the
program are inputs: `socket`, `inet_pton`, `connect`, `time` and `getpid` here, the others
in `World`. `setvbuf` and `close` are left out.
-/
namespace SportsPubSub.Udp.PublisherMain
open Lib.Posix Lib.Decimal Lib.Strtoul Protocol Publisher
open Arguments (Rechazo PublisherArguments parseOptions defaultOptions checkPort publisherArguments)
open SubscriberMain (htons)

structure Host where
  socket : Bool
  inetPton : Bytes → Option UInt32
  connect : SockaddrIn → Bool
  time : UInt64
  getpid : UInt32

/-- What the program does, in order. -/
inductive Suceso where
  | argumentos (rechazo : Rechazo)
  | srand (seed : UInt32)
  | socketFallo
  | direccionInvalida (brokerIp : Bytes)
  | connect (dest : SockaddrIn)
  | connectFallo
  | printed (texto : Bytes)
  | paso (p : Paso)
  deriving DecidableEq, Repr

def exitSuccess : UInt32 := 0
def exitFailure : UInt32 := 1

/-- `línea` and `líneas`, in UTF-8 as the source has them. -/
def linea : Bytes := ascii "l" ++ [195, 173] ++ ascii "nea"

/-- The calls of `srand`: the seed is an `unsigned`, `time_t` is wider. -/
def seed (host : Host) (options : Options) : List Suceso :=
  if options.randomSkipSleep then
    if options.deterministic then [.srand 1]
    else [.srand (host.time ^^^ host.getpid.toUInt64).toUInt32]
  else []

/-- The lines in front of the demo loop. -/
def saludo (a : PublisherArguments) : List Suceso :=
  [.printed (ascii "[publisher] Broker " ++ a.brokerIp.bytes ++ ascii ":" ++
      decimal a.port.toNat ++ ascii ", tema '" ++ a.topic.bytes ++ ascii "', " ++
      decimal a.options.autoCount ++ ascii " evento(s)")] ++
  (if a.options.fastBurst then [.printed (ascii " [modo -f: sin pausas]\n")]
    else if a.options.randomSkipSleep then [.printed (ascii " [modo -r: ~50% pausas en 0 ms]\n")]
    else [.printed (ascii " (intervalos de la " ++ linea ++ ascii " de tiempo).\n")]) ++
  if a.options.deterministic then
    [.printed (ascii "[publisher] Modo -d: payloads de la demo repetibles [#i/" ++
      decimal a.options.autoCount ++ ascii "]; tras la demo, stdin sigue con hora real.\n")]
  else []

/-- The lines behind it. -/
def demoEnviada (options : Options) : List Suceso :=
  (if options.quiet then
    [.printed (ascii "[publisher] " ++ decimal options.autoCount ++
      ascii " mensaje(s) demo UDP enviado(s) (-q: sin eco por mensaje).\n")]
    else []) ++
  [.printed (ascii "[publisher] Mensajes demo enviados. Escriba " ++ linea ++
    ascii "s adicionales (Enter para enviar, EOF/Ctrl+D para terminar):\n")]

/-- `main` behind `connect`: a message of the demo that is not sent ends the program with
a failure, a line from stdin does not. -/
def fromConnect (a : PublisherArguments) (world : World) (lines : List StdinLine) :
    List Suceso × UInt32 :=
  let (home, away) := topicToTeams a.topic.bytes teamSize teamSize
  let (pasos, ok) := demoLoop a.options world a.topic.bytes home away 0 a.options.autoCount
  if ok then
    (saludo a ++ pasos.map .paso ++ demoEnviada a.options ++
      (stdinLoop a.options world a.topic.bytes a.options.autoCount lines).map .paso, exitSuccess)
  else (saludo a ++ pasos.map .paso, exitFailure)

/-- `main` from the call of `socket` on. -/
def fromSocket (host : Host) (a : PublisherArguments) (world : World) (lines : List StdinLine) :
    List Suceso × UInt32 :=
  if !host.socket then ([.socketFallo], exitFailure)
  else
    match host.inetPton a.brokerIp.bytes with
    | none => ([.direccionInvalida a.brokerIp.bytes], exitFailure)
    | some sinAddr =>
        let broker : SockaddrIn := ⟨afInet, sinAddr, htons a.port⟩
        if !host.connect broker then ([.connect broker, .connectFallo], exitFailure)
        else
          let (sucesos, status) := fromConnect a world lines
          (.connect broker :: sucesos, status)

/-- `main`, with the value it returns. -/
def main (host : Host) (args : List CString) (world : World) (lines : List StdinLine) :
    List Suceso × UInt32 :=
  match args with
  | brokerIp :: portArg :: topic :: rest =>
      match parseOptions defaultOptions rest with
      | .error rechazo => ([.argumentos rechazo], exitFailure)
      | .ok options =>
          match checkPort portArg, checkTopic topic.bytes with
          | .error rechazo, _ => (seed host options ++ [.argumentos rechazo], exitFailure)
          | .ok _, .error fallo =>
              (seed host options ++ [.argumentos (.tema fallo)], exitFailure)
          | .ok port, .ok () =>
              let (sucesos, status) := fromSocket host ⟨options, brokerIp, port, topic⟩ world lines
              (seed host options ++ sucesos, status)
  | _ => ([.argumentos .uso], exitFailure)

/-- The steps of the two loops. -/
def pasos : List Suceso → List Paso
  | [] => []
  | .paso p :: rest => p :: pasos rest
  | _ :: rest => pasos rest

theorem pasos_append (xs ys : List Suceso) : pasos (xs ++ ys) = pasos xs ++ pasos ys := by
  induction xs with
  | nil => rfl
  | cons x rest ih => cases x <;> simp [pasos, ih]

theorem pasos_map (ps : List Paso) : pasos (ps.map .paso) = ps := by
  induction ps with
  | nil => rfl
  | cons p rest ih => exact congrArg (p :: ·) ih

/-- The calls between the checks and the demo all succeed. -/
def Connected (host : Host) (a : PublisherArguments) : Prop :=
  host.socket = true ∧ ∃ sinAddr, host.inetPton a.brokerIp.bytes = some sinAddr ∧
    host.connect ⟨afInet, sinAddr, htons a.port⟩ = true

theorem pasos_fromConnect (a : PublisherArguments) (world : World) (lines : List StdinLine) :
    pasos (fromConnect a world lines).1 = publisher a.options world a.topic.bytes lines := by
  have silent : pasos (saludo a) = [] := by
    unfold saludo
    cases a.options.fastBurst <;> cases a.options.randomSkipSleep <;>
      cases a.options.deterministic <;> rfl
  have silent' : pasos (demoEnviada a.options) = [] := by
    unfold demoEnviada
    cases a.options.quiet <;> rfl
  simp only [fromConnect, publisher]
  split
  · simp only [pasos_append, pasos_map, silent, silent', List.nil_append, List.append_nil]
  · simp only [pasos_append, pasos_map, silent, List.nil_append]

theorem pasos_seed (host : Host) (options : Options) : pasos (seed host options) = [] := by
  unfold seed
  cases options.randomSkipSleep <;> cases options.deterministic <;> rfl

/-- A program that has accepted its arguments and is connected runs the two loops. -/
theorem pasos_main (host : Host) (args : List CString) (a : PublisherArguments) (world : World)
    (lines : List StdinLine) (accepted : publisherArguments args = .ok a)
    (connected : Connected host a) :
    pasos (main host args world lines).1 = publisher a.options world a.topic.bytes lines := by
  obtain ⟨socket, sinAddr, address, answers⟩ := connected
  unfold publisherArguments at accepted
  split at accepted
  · next brokerIp portArg topic rest =>
    cases parsed : parseOptions defaultOptions rest with
    | error rechazo => simp [parsed, bind, Except.bind] at accepted
    | ok options =>
      cases checked : checkPort portArg with
      | error rechazo => simp [parsed, checked, bind, Except.bind] at accepted
      | ok port =>
        cases named : checkTopic topic.bytes with
        | error fallo =>
          simp [parsed, checked, named, bind, Except.bind, Except.mapError] at accepted
        | ok done =>
          simp only [parsed, checked, named, bind, Except.bind, Except.mapError] at accepted
          cases accepted
          simp only [main, parsed, checked, named, fromSocket, socket, Bool.not_true,
            Bool.false_eq_true, if_false, address, answers, pasos_append, pasos_seed,
            List.nil_append]
          exact pasos_fromConnect _ world lines
  · cases accepted

end SportsPubSub.Udp.PublisherMain
