import SportsPubSub.Lib.Posix
import SportsPubSub.Lib.Reactive

/-!
# The assembly TCP broker

Source: tcp/tcp_asm/broker_tcp.asm from the first `write` of `_start` on; the two
descriptors that `create_server` stored are given. One step is one system call: the
state stands right before it, the kernel answers, and the instructions up to the next
call run. Of the registers only r12 carries a value across a call; rcx, which
`syscall` destroys, is loaded from `num_subs` behind it.
-/
namespace SportsPubSub.Tcp.AsmBroker
open Lib.Posix Lib.Reactive

def strListo : Bytes := ascii "[Broker] Listo. Esperando subscribers...\n"
def strSubOk : Bytes := ascii "[Broker] Subscriber conectado.\n"
def strPubOk : Bytes := ascii "[Broker] Publisher conectado. Recibiendo mensajes...\n"
def strMsgOk : Bytes := ascii "[Broker] Mensaje reenviado a subscribers.\n"
def strPubOff : Bytes := ascii "[Broker] Publisher desconectado.\n"

/-- The system calls of the loops, under the label that each stands behind. -/
inductive Pc where
  | listo
  | loopSubs
  | subOk
  | esperarPublisher
  | pubOk
  | loopRecv
  | loopBroadcast
  | broadcastDone
  | publisherOff
  | cerrar
  deriving DecidableEq, Repr

/-- The variables of `.bss` and r12. -/
structure State where
  pc : Pc
  r12 : Nat
  sockPub : Int
  sockSub : Int
  subSocks : List Int
  numSubs : Nat
  clientPub : Int
  buffer : Bytes
  bytesRecv : Nat
  socks_size : subSocks.length = 10
  buffer_size : buffer.length = 1024
  deriving DecidableEq, Repr

/-- Before the first `write`; `.bss` is zeroed. -/
def State.initial (sockPub sockSub : Int) : State :=
  ⟨.listo, 0, sockPub, sockSub, List.replicate 10 0, 0, 0, List.replicate 1024 0, 0,
    List.length_replicate, List.length_replicate⟩

/-- A system call with its arguments; a `sendto` has the bytes it points to. -/
inductive Syscall where
  | write (text : Bytes)
  | accept (sock : Int)
  | recvfrom (sock : Int) (len : Nat)
  | sendto (sock : Int) (data : Bytes)
  | close (sock : Int)
  deriving DecidableEq, Repr

/-- What the kernel leaves in rax, or the bytes that `recvfrom` stored, of which rax is
the number. -/
inductive Answer where
  | value (rax : Int)
  | filled (chunk : Bytes)
  deriving DecidableEq, Repr

abbrev Event := Syscall × Answer

/-- The call that the state stands before. -/
def State.request (s : State) : Syscall :=
  match s.pc with
  | .listo => .write strListo
  | .loopSubs => .accept s.sockSub
  | .subOk => .write strSubOk
  | .esperarPublisher => .accept s.sockPub
  | .pubOk => .write strPubOk
  | .loopRecv => .recvfrom s.clientPub 1024
  | .loopBroadcast => .sendto (s.subSocks.getD s.r12 0) (s.buffer.take s.bytesRecv)
  | .broadcastDone => .write strMsgOk
  | .publisherOff => .write strPubOff
  | .cerrar => .close s.clientPub

/-- `.loop_subs`: `cmp qword [num_subs], 2` and `jge`. -/
def State.loopSubs (s : State) : State :=
  { s with pc := if s.numSubs ≥ 2 then .esperarPublisher else .loopSubs }

/-- `mov [rbx + rcx*8], rax` and `inc qword [num_subs]`: rax is not looked at. -/
def State.storeSub (s : State) (rax : Int) : State :=
  { s with
    pc := .subOk, subSocks := s.subSocks.set s.numSubs rax, numSubs := s.numSubs + 1,
    socks_size := by rw [List.length_set, s.socks_size] }

/-- `.loop_broadcast`: `cmp r12, [num_subs]` and `jge`. -/
def State.loopBroadcast (s : State) : State :=
  { s with pc := if s.r12 ≥ s.numSubs then .broadcastDone else .loopBroadcast }

/-- The first bytes of `buffer` are overwritten, and the broadcast begins. -/
def State.fill (s : State) (chunk : Bytes) (fits : chunk.length ≤ 1024) : State :=
  State.loopBroadcast { s with
    buffer := chunk ++ s.buffer.drop chunk.length, bytesRecv := chunk.length, r12 := 0,
    buffer_size := by
      rw [List.length_append, List.length_drop, s.buffer_size]
      omega }

/-- The instructions behind the call. `recvfrom` stores at least one byte and at most
1024, or leaves a result that is not positive. -/
def State.resume (s : State) : Answer → Option State
  | .filled chunk =>
      if h : s.pc = .loopRecv ∧ 0 < chunk.length ∧ chunk.length ≤ 1024 then
        some (s.fill chunk h.2.2)
      else none
  | .value rax =>
      match s.pc with
      | .listo => some s.loopSubs
      | .loopSubs => some (s.storeSub rax)
      | .subOk => some s.loopSubs
      | .esperarPublisher => some { s with pc := .pubOk, clientPub := rax }
      | .pubOk => some { s with pc := .loopRecv }
      | .loopRecv => if rax ≤ 0 then some { s with pc := .publisherOff } else none
      | .loopBroadcast => some (State.loopBroadcast { s with r12 := s.r12 + 1 })
      | .broadcastDone => some { s with pc := .loopRecv }
      | .publisherOff => some { s with pc := .cerrar }
      | .cerrar => some { s with pc := .esperarPublisher }

def asmBroker : System State Answer Event := fun s answer =>
  (s.resume answer).map fun next => (next, [(s.request, answer)])

/-- What one call can do. -/
inductive Moves (s : State) : State → Event → Prop
  | ready (rax : Int) (here : s.pc = .listo) : Moves s s.loopSubs (.write strListo, .value rax)
  | stored (rax : Int) (here : s.pc = .loopSubs) :
      Moves s (s.storeSub rax) (.accept s.sockSub, .value rax)
  | next (rax : Int) (here : s.pc = .subOk) : Moves s s.loopSubs (.write strSubOk, .value rax)
  | connected (rax : Int) (here : s.pc = .esperarPublisher) :
      Moves s { s with pc := .pubOk, clientPub := rax } (.accept s.sockPub, .value rax)
  | shown (rax : Int) (here : s.pc = .pubOk) :
      Moves s { s with pc := .loopRecv } (.write strPubOk, .value rax)
  | received (chunk : Bytes) (here : s.pc = .loopRecv) (fits : chunk.length ≤ 1024) :
      Moves s (s.fill chunk fits) (.recvfrom s.clientPub 1024, .filled chunk)
  | ended (rax : Int) (here : s.pc = .loopRecv) (off : rax ≤ 0) :
      Moves s { s with pc := .publisherOff } (.recvfrom s.clientPub 1024, .value rax)
  | sent (rax : Int) (here : s.pc = .loopBroadcast) :
      Moves s (State.loopBroadcast { s with r12 := s.r12 + 1 })
        (.sendto (s.subSocks.getD s.r12 0) (s.buffer.take s.bytesRecv), .value rax)
  | forwarded (rax : Int) (here : s.pc = .broadcastDone) :
      Moves s { s with pc := .loopRecv } (.write strMsgOk, .value rax)
  | off (rax : Int) (here : s.pc = .publisherOff) :
      Moves s { s with pc := .cerrar } (.write strPubOff, .value rax)
  | closed (rax : Int) (here : s.pc = .cerrar) :
      Moves s { s with pc := .esperarPublisher } (.close s.clientPub, .value rax)

/-- Every step is one of the moves. -/
theorem step_moves (s next : State) (answer : Answer) (events : List Event)
    (taken : asmBroker s answer = some (next, events)) :
    ∃ e, events = [e] ∧ Moves s next e := by
  simp only [asmBroker, Option.map_eq_some_iff, Prod.mk.injEq] at taken
  obtain ⟨t, resumed, rfl, rfl⟩ := taken
  refine ⟨_, rfl, ?_⟩
  cases answer with
  | filled chunk =>
    simp only [State.resume, Option.dite_none_right_eq_some, Option.some.injEq] at resumed
    obtain ⟨⟨here, -, fits⟩, rfl⟩ := resumed
    have request : s.request = .recvfrom s.clientPub 1024 := by simp only [State.request, here]
    rw [request]
    exact .received chunk here fits
  | value rax =>
    unfold State.resume at resumed
    unfold State.request
    cases here : s.pc with
    | listo =>
      simp only [here, Option.some.injEq] at resumed ⊢
      exact resumed ▸ .ready rax here
    | loopSubs =>
      simp only [here, Option.some.injEq] at resumed ⊢
      exact resumed ▸ .stored rax here
    | subOk =>
      simp only [here, Option.some.injEq] at resumed ⊢
      exact resumed ▸ .next rax here
    | esperarPublisher =>
      simp only [here, Option.some.injEq] at resumed ⊢
      exact resumed ▸ .connected rax here
    | pubOk =>
      simp only [here, Option.some.injEq] at resumed ⊢
      exact resumed ▸ .shown rax here
    | loopRecv =>
      simp only [here, Option.ite_none_right_eq_some, Option.some.injEq] at resumed ⊢
      obtain ⟨off, rfl⟩ := resumed
      exact .ended rax here off
    | loopBroadcast =>
      simp only [here, Option.some.injEq] at resumed ⊢
      exact resumed ▸ .sent rax here
    | broadcastDone =>
      simp only [here, Option.some.injEq] at resumed ⊢
      exact resumed ▸ .forwarded rax here
    | publisherOff =>
      simp only [here, Option.some.injEq] at resumed ⊢
      exact resumed ▸ .off rax here
    | cerrar =>
      simp only [here, Option.some.injEq] at resumed ⊢
      exact resumed ▸ .closed rax here

end SportsPubSub.Tcp.AsmBroker
