import SportsPubSub.Lib.Strtoul
import SportsPubSub.Tcp.Broker

/-!
# The TCP publishers and subscribers

Source: tcp/tcp_C/publisher_tcp.c and subscriber_tcp.c, and publisher_tcp.asm and
subscriber_tcp.asm in tcp/tcp_asm, from the return of `connect` on. A publisher
reads nothing, so it is the list of what it does. A subscriber prints something for
every `recv` that returns data; the lines around its loop are left out.
-/
namespace SportsPubSub.Tcp.Clients
open Lib.Posix Lib.Strtoul Broker

/-- `(argc > 1) ? argv[1] : ...`. -/
def argv1 (otherwise : Bytes) : List CString → Bytes
  | [] => otherwise
  | arg :: _ => arg.bytes

def eventos : List Bytes := [
  ascii "Inicio del partido",
  ascii "Tiro de esquina para el equipo local",
  ascii "GOOOL del equipo local al minuto 12",
  ascii "Tarjeta amarilla al numero 8 del visitante",
  ascii "Fin del primer tiempo. Marcador: 1-0",
  ascii "Inicio del segundo tiempo",
  ascii "Cambio: jugador 11 entra por jugador 7",
  ascii "GOOOL del visitante al minuto 67. Empate 1-1",
  ascii "Tarjeta roja al numero 4 del local al minuto 88",
  ascii "Fin del partido. Resultado final: 1-1"]

/-- `mensaje` after its `snprintf`. -/
def mensaje (partido evento : Bytes) : Bytes :=
  (snprintf bufferSize (ascii "[" ++ partido ++ ascii "] " ++ evento)).1

/-- What a publisher does. The result of `send` is not looked at. -/
inductive Paso where
  | print (line : Bytes)
  | send (data : Bytes)
  | sleep
  | close
  deriving DecidableEq, Repr

/-- `main` of publisher_tcp.c. -/
def publisherTcp (args : List CString) : List Paso :=
  let partido := argv1 (ascii "Partido General") args
  [.print (ascii "[Publisher] Conectado. Transmitiendo: " ++ partido ++ ascii "\n\n")] ++
    eventos.flatMap (fun evento =>
      [.send (mensaje partido evento),
        .print (ascii "[Publisher] Enviado: " ++ mensaje partido evento ++ ascii "\n"), .sleep]) ++
    [.print (ascii "\n[Publisher] Listo.\n"), .close]

/-- `msg0` to `msg9`, with the NUL at which `strlen_sub` stops. -/
def msgs : List Bytes := [
  ascii "[Colombia vs Brasil] Inicio del partido" ++ [0xA, 0],
  ascii "[Colombia vs Brasil] Tiro de esquina para el equipo local" ++ [0xA, 0],
  ascii "[Colombia vs Brasil] GOOOL del equipo local al minuto 12" ++ [0xA, 0],
  ascii "[Colombia vs Brasil] Tarjeta amarilla al numero 8 del visitante" ++ [0xA, 0],
  ascii "[Colombia vs Brasil] Fin del primer tiempo. Marcador: 1-0" ++ [0xA, 0],
  ascii "[Colombia vs Brasil] Inicio del segundo tiempo" ++ [0xA, 0],
  ascii "[Colombia vs Brasil] Cambio: jugador 11 entra por jugador 7" ++ [0xA, 0],
  ascii "[Colombia vs Brasil] GOOOL del visitante al minuto 67. Empate 1-1" ++ [0xA, 0],
  ascii "[Colombia vs Brasil] Tarjeta roja al numero 4 del local al minuto 88" ++ [0xA, 0],
  ascii "[Colombia vs Brasil] Fin del partido. Resultado final: 1-1" ++ [0xA, 0]]

/-- `send_msg`. -/
def sendMsg (rsi : Bytes) : List Paso := [.send (text rsi), .print (text rsi), .sleep]

/-- `_start` of publisher_tcp.asm. -/
def publisherAsm : List Paso :=
  [.print (ascii "[Publisher] Conectado al broker.\n")] ++ msgs.flatMap sendMsg ++
    [.print (ascii "[Publisher] Transmision finalizada.\n"), .close]

inductive Publicador where
  | tcpC (args : List CString)
  | tcpAsm

def Publicador.pasos : Publicador → List Paso
  | .tcpC args => publisherTcp args
  | .tcpAsm => publisherAsm

inductive Suscriptor where
  | tcpC (args : List CString)
  | tcpAsm

/-- The length that `recv` and `recvfrom` are given. -/
def Suscriptor.recvLen : Suscriptor → Nat
  | .tcpC _ => bufferSize - 1
  | .tcpAsm => 1024

/-- A text between what the program prints around it. -/
def Suscriptor.framed : Suscriptor → Bytes → Bytes
  | .tcpC args, shown =>
      ascii "[" ++ argv1 (ascii "Suscriptor") args ++ ascii "] >> " ++ shown ++ ascii "\n"
  | .tcpAsm, shown => ascii "[Subscriber] >> " ++ shown

/-- What is printed for the bytes of one `recv`: `%s` ends at a NUL, `write` does not. -/
def Suscriptor.pantalla (s : Suscriptor) (chunk : Bytes) : Bytes :=
  match s with
  | .tcpC _ => s.framed (text (chunk ++ [0]))
  | .tcpAsm => s.framed chunk

/-- The bytes that some of the steps give to `send`. -/
def sentBytes (pasos : List Paso) : Bytes :=
  pasos.flatMap fun
    | .send data => data
    | _ => []

theorem sentBytes_append (a b : List Paso) : sentBytes (a ++ b) = sentBytes a ++ sentBytes b :=
  List.flatMap_append

theorem mem_sentBytes (pasos : List Paso) (b : UInt8) :
    b ∈ sentBytes pasos ↔ ∃ data, .send data ∈ pasos ∧ b ∈ data := by
  simp only [sentBytes, List.mem_flatMap]
  constructor
  · rintro ⟨paso, mem, inside⟩
    cases paso with
    | send data => exact ⟨data, mem, inside⟩
    | print line => cases inside
    | sleep => cases inside
    | close => cases inside
  · rintro ⟨data, mem, inside⟩
    exact ⟨_, mem, inside⟩

theorem argv1_nul_free (otherwise : Bytes) (args : List CString) (free : 0 ∉ otherwise) :
    0 ∉ argv1 otherwise args := by
  cases args with
  | nil => exact free
  | cons arg rest => exact arg.nul_free

theorem mensaje_nul_free (partido evento : Bytes) (hp : 0 ∉ partido) (he : 0 ∉ evento) :
    0 ∉ mensaje partido evento := by
  have front : 0 ∉ ascii "[" := by decide
  have back : 0 ∉ ascii "] " := by decide
  intro nul
  have inside := List.mem_of_mem_take nul
  simp only [List.mem_append, front, hp, back, he, or_self] at inside

/-- No program sends a NUL. -/
theorem Publicador.nul_free (p : Publicador) : 0 ∉ sentBytes p.pasos := by
  rw [mem_sentBytes]
  rintro ⟨data, mem, nul⟩
  cases p with
  | tcpC args =>
    simp only [Publicador.pasos, publisherTcp, List.mem_append, List.mem_flatMap, List.mem_cons,
      List.not_mem_nil, or_false, reduceCtorEq, false_or] at mem
    obtain ⟨evento, known, same⟩ := mem
    cases same
    have free : ∀ e ∈ eventos, 0 ∉ e := by decide
    exact mensaje_nul_free _ _ (argv1_nul_free _ _ (by decide)) (free evento known) nul
  | tcpAsm =>
    simp only [Publicador.pasos, publisherAsm, sendMsg, List.mem_append, List.mem_flatMap,
      List.mem_cons, List.not_mem_nil, or_false, reduceCtorEq, false_or] at mem
    obtain ⟨rsi, -, same⟩ := mem
    cases same
    exact mem_text_ne_zero _ _ nul rfl

/-- Without a NUL everything that was received is printed. -/
theorem Suscriptor.pantalla_whole (s : Suscriptor) (chunk : Bytes) (free : 0 ∉ chunk) :
    s.pantalla chunk = s.framed chunk := by
  cases s with
  | tcpC args => rw [pantalla, text_append_nul, text_of_nul_free chunk free]
  | tcpAsm => rfl

/-- The assembly publisher sends the events of the C publisher, each with a newline. -/
example : msgs.map text =
    eventos.map fun evento => mensaje (ascii "Colombia vs Brasil") evento ++ [0xA] := by
  decide

end SportsPubSub.Tcp.Clients
