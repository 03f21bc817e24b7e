import SportsPubSub.Lib.Posix
import SportsPubSub.Lib.Reactive

/-!
# The threaded TCP broker

Source: tcp/tcp_C/broker_tcp.c. One step is what one thread does between two
points where another may act: a registration or removal section under
`sub_mutex`, one `send` of a broadcast that holds it, a `recv` that returns, an
`accept`, a `close`. Handler threads are numbered in the order of their
creation. `malloc`, the `printf` lines and failures of `pthread_create` are left
out; a `send` is recorded, its result is not used by the source. A process
killed by SIGPIPE is a run that stops.
-/
namespace SportsPubSub.Tcp.Broker
open Lib.Posix Lib.Reactive

def maxClients : Nat := 50
def bufferSize : Nat := 1024

/-- `int subscribers[MAX_CLIENTS]` and `num_sub`. -/
structure Table where
  subscribers : List Int
  numSub : Nat
  size_eq : subscribers.length = maxClients
  deriving DecidableEq, Repr

def Table.initial : Table := ⟨List.replicate maxClients 0, 0, List.length_replicate⟩

/-- The part of the array in use. -/
def Table.connected (t : Table) : List Int := t.subscribers.take t.numSub

/-- `subscribers[num_sub++] = sock`. There is no test of `num_sub`: past the end
of the array the write goes elsewhere. -/
def Table.add (t : Table) (sock : Int) : Table :=
  ⟨t.subscribers.set t.numSub sock, t.numSub + 1, by rw [List.length_set, t.size_eq]⟩

/-- The removal loop with `todo` entries left to look at, and the indices it
touches: the match is overwritten with the last entry and the loop breaks. -/
def Table.removeFrom (t : Table) (sock : Int) : Nat → Table × List Nat
  | 0 => (t, [])
  | todo + 1 =>
      let i := t.numSub - (todo + 1)
      if t.subscribers[i]? = some sock then
        let last := t.numSub - 1
        (⟨t.subscribers.set i (t.subscribers.getD last 0), last,
          by rw [List.length_set, t.size_eq]⟩, [i, last, i])
      else
        let (t', indices) := t.removeFrom sock todo
        (t', i :: indices)

def Table.remove (t : Table) (sock : Int) : Table × List Nat := t.removeFrom sock t.numSub

/-- Where `handle_subscriber` stands: before its first section, in its `recv`
loop, before its second section, before `close`, after it. -/
inductive SubStage where
  | spawned | registered | leaving | removed | closed
  deriving DecidableEq, Repr

/-- Where `handle_publisher` stands: in `recv`, before the lock of `broadcast`
with the received bytes, inside its loop at index `i`, before `close`, after it. -/
inductive PubStage where
  | receiving
  | holding (chunk : Bytes)
  | broadcasting (chunk : Bytes) (i : Nat)
  | ending
  | closed
  deriving DecidableEq, Repr

/-- A handler thread with the socket it was given. -/
inductive Handler where
  | subscriber (sock : Int) (stage : SubStage)
  | publisher (sock : Int) (stage : PubStage)
  deriving DecidableEq, Repr

inductive Role where
  | subscriber | publisher
  deriving DecidableEq, Repr

/-- The handler that an accept loop starts. -/
def Role.handler : Role → Int → Handler
  | .subscriber, sock => .subscriber sock .spawned
  | .publisher, sock => .publisher sock .receiving

/-- The descriptor that the handler has open. -/
def Handler.openSock : Handler → Option Int
  | .subscriber _ .closed => none
  | .publisher _ .closed => none
  | .subscriber sock _ => some sock
  | .publisher sock _ => some sock

/-- The descriptor of a handler that has registered and not yet unregistered. -/
def Handler.listed : Handler → Option Int
  | .subscriber sock .registered => some sock
  | .subscriber sock .leaving => some sock
  | _ => none

/-- `mutex` is the thread inside `broadcast`; the two sections of
`handle_subscriber` are single steps and need it free. After a write past the
array `corrupted` is set: C gives the program no meaning from there. -/
structure State where
  table : Table
  mutex : Option Nat
  handlers : List Handler
  corrupted : Bool
  deriving DecidableEq, Repr

def State.initial : State := ⟨Table.initial, none, [], false⟩

inductive Act where
  | accept (role : Role) (client : Int)
  | register (h : Nat)
  | recv (h : Nat) (chunk : Bytes)
  | recvEnds (h : Nat)
  | unregister (h : Nat)
  | lock (h : Nat)
  | sendNext (h : Nat)
  | unlock (h : Nat)
  | close (h : Nat)
  deriving DecidableEq, Repr

/-- What a step leaves behind. A `send` records the array index, the descriptor
and the handler whose connection the kernel finds under it. -/
inductive Event where
  | registered (h : Nat) (sock : Int) (index : Nat)
  | unregistered (h : Nat) (indices : List Nat)
  | received (h : Nat) (chunk : Bytes)
  | begun (h : Nat) (chunk : Bytes)
  | sent (sender index : Nat) (sock : Int) (dest : Option Nat) (chunk : Bytes)
  deriving DecidableEq, Repr

/-- The connection that a descriptor denotes at this moment. -/
def State.connection (s : State) (sock : Int) : Option Nat :=
  s.handlers.findIdx? fun x => decide (x.openSock = some sock)

def State.become (s : State) (h : Nat) (x : Handler) : State :=
  { s with handlers := s.handlers.set h x }

/-- `accept_publishers` and `accept_subscribers`: a failed `accept` is skipped. -/
def State.accept (s : State) (role : Role) (client : Int) : State :=
  if client < 0 then s else { s with handlers := s.handlers ++ [role.handler client] }

theorem become_here (s : State) (h : Nat) (x y : Handler) (here : s.handlers[h]? = some x) :
    (s.become h y).handlers[h]? = some y := by
  have inside : h < s.handlers.length := (List.getElem?_eq_some_iff.mp here).1
  simp [State.become, inside]

theorem become_other (s : State) (h k : Nat) (y : Handler) (other : k ≠ h) :
    (s.become h y).handlers[k]? = s.handlers[k]? := by
  simp [State.become, Ne.symm other]

theorem table_accept (s : State) (role : Role) (client : Int) :
    (s.accept role client).table = s.table := by
  unfold State.accept
  split
  · rfl
  · rfl

theorem mutex_accept (s : State) (role : Role) (client : Int) :
    (s.accept role client).mutex = s.mutex := by
  unfold State.accept
  split
  · rfl
  · rfl

/-- An accept changes no handler; it may add one at the end. -/
theorem handlers_accept (s : State) (role : Role) (client : Int) (k : Nat) :
    (s.accept role client).handlers[k]? = s.handlers[k]? ∨
      (s.handlers[k]? = none ∧
        (s.accept role client).handlers[k]? = some (role.handler client)) := by
  unfold State.accept
  split
  · exact .inl rfl
  · dsimp only
    rcases Nat.lt_trichotomy k s.handlers.length with old | new | beyond
    · exact .inl (List.getElem?_append_left old)
    · subst new
      exact .inr ⟨List.getElem?_eq_none (Nat.le_refl _), List.getElem?_concat_length⟩
    · left
      rw [List.getElem?_eq_none (by rw [List.length_append, List.length_singleton]; omega),
        List.getElem?_eq_none (by omega)]

def step : System State Act Event := fun s a =>
  if s.corrupted then none
  else match a with
  | .accept role client => some (s.accept role client, [])
  | .register h =>
      match s.handlers[h]? with
      | some (.subscriber sock .spawned) =>
          if s.mutex = none then
            some
              ({ s.become h (.subscriber sock .registered) with
                table := s.table.add sock,
                corrupted := !(s.table.numSub < maxClients) },
              [.registered h sock s.table.numSub])
          else none
      | _ => none
  | .recv h chunk =>
      match s.handlers[h]? with
      | some (.publisher sock .receiving) =>
          if 0 < chunk.length ∧ chunk.length ≤ bufferSize - 1 then
            some (s.become h (.publisher sock (.holding chunk)), [.received h chunk])
          else none
      | some (.subscriber _ .registered) => if chunk.length = 1 then some (s, []) else none
      | _ => none
  | .recvEnds h =>
      match s.handlers[h]? with
      | some (.publisher sock .receiving) => some (s.become h (.publisher sock .ending), [])
      | some (.subscriber sock .registered) => some (s.become h (.subscriber sock .leaving), [])
      | _ => none
  | .unregister h =>
      match s.handlers[h]? with
      | some (.subscriber sock .leaving) =>
          if s.mutex = none then
            some
              ({ s.become h (.subscriber sock .removed) with table := (s.table.remove sock).1 },
              [.unregistered h (s.table.remove sock).2])
          else none
      | _ => none
  | .lock h =>
      match s.handlers[h]? with
      | some (.publisher sock (.holding chunk)) =>
          if s.mutex = none then
            some
              ({ s.become h (.publisher sock (.broadcasting chunk 0)) with mutex := some h },
              [.begun h chunk])
          else none
      | _ => none
  | .sendNext h =>
      match s.handlers[h]? with
      | some (.publisher sock (.broadcasting chunk i)) =>
          if i < s.table.numSub then
            let dest := s.table.subscribers.getD i 0
            some
              (s.become h (.publisher sock (.broadcasting chunk (i + 1))),
              [.sent h i dest (s.connection dest) chunk])
          else none
      | _ => none
  | .unlock h =>
      match s.handlers[h]? with
      | some (.publisher sock (.broadcasting _ i)) =>
          if i < s.table.numSub then none
          else some ({ s.become h (.publisher sock .receiving) with mutex := none }, [])
      | _ => none
  | .close h =>
      match s.handlers[h]? with
      | some (.subscriber sock .removed) => some (s.become h (.subscriber sock .closed), [])
      | some (.publisher sock .ending) => some (s.become h (.publisher sock .closed), [])
      | _ => none

/-- What one step can do. -/
inductive Moves (s : State) : Act → State → List Event → Prop
  | accepted (role : Role) (client : Int) :
      Moves s (.accept role client) (s.accept role client) []
  | registered (h : Nat) (sock : Int) (here : s.handlers[h]? = some (.subscriber sock .spawned))
      (free : s.mutex = none) :
      Moves s (.register h)
        { s.become h (.subscriber sock .registered) with
          table := s.table.add sock,
          corrupted := !(s.table.numSub < maxClients) }
        [.registered h sock s.table.numSub]
  | received (h : Nat) (sock : Int) (chunk : Bytes)
      (here : s.handlers[h]? = some (.publisher sock .receiving)) :
      Moves s (.recv h chunk) (s.become h (.publisher sock (.holding chunk))) [.received h chunk]
  | skipped (h : Nat) (chunk : Bytes) : Moves s (.recv h chunk) s []
  | ended (h : Nat) (sock : Int) (here : s.handlers[h]? = some (.publisher sock .receiving)) :
      Moves s (.recvEnds h) (s.become h (.publisher sock .ending)) []
  | left (h : Nat) (sock : Int) (here : s.handlers[h]? = some (.subscriber sock .registered)) :
      Moves s (.recvEnds h) (s.become h (.subscriber sock .leaving)) []
  | unregistered (h : Nat) (sock : Int) (here : s.handlers[h]? = some (.subscriber sock .leaving))
      (free : s.mutex = none) :
      Moves s (.unregister h)
        { s.become h (.subscriber sock .removed) with table := (s.table.remove sock).1 }
        [.unregistered h (s.table.remove sock).2]
  | locked (h : Nat) (sock : Int) (chunk : Bytes)
      (here : s.handlers[h]? = some (.publisher sock (.holding chunk))) (free : s.mutex = none) :
      Moves s (.lock h)
        { s.become h (.publisher sock (.broadcasting chunk 0)) with mutex := some h }
        [.begun h chunk]
  | sent (h : Nat) (sock : Int) (chunk : Bytes) (i : Nat)
      (here : s.handlers[h]? = some (.publisher sock (.broadcasting chunk i)))
      (inside : i < s.table.numSub) :
      Moves s (.sendNext h) (s.become h (.publisher sock (.broadcasting chunk (i + 1))))
        [.sent h i (s.table.subscribers.getD i 0)
          (s.connection (s.table.subscribers.getD i 0)) chunk]
  | unlocked (h : Nat) (sock : Int) (chunk : Bytes) (i : Nat)
      (here : s.handlers[h]? = some (.publisher sock (.broadcasting chunk i)))
      (done : s.table.numSub ≤ i) :
      Moves s (.unlock h) { s.become h (.publisher sock .receiving) with mutex := none } []
  | closedSubscriber (h : Nat) (sock : Int)
      (here : s.handlers[h]? = some (.subscriber sock .removed)) :
      Moves s (.close h) (s.become h (.subscriber sock .closed)) []
  | closedPublisher (h : Nat) (sock : Int)
      (here : s.handlers[h]? = some (.publisher sock .ending)) :
      Moves s (.close h) (s.become h (.publisher sock .closed)) []

/-- Every step is one of the moves. -/
theorem step_moves (s next : State) (a : Act) (events : List Event)
    (h : step s a = some (next, events)) : Moves s a next events := by
  unfold step at h
  split at h
  · cases h
  · cases a with
    | accept role client =>
      cases h
      exact .accepted role client
    | register h' =>
      dsimp only at h
      split at h
      · next sock here =>
        split at h
        · next free =>
          cases h
          exact .registered h' sock here free
        · cases h
      · cases h
    | recv h' chunk =>
      dsimp only at h
      split at h
      · next sock here =>
        split at h
        · cases h
          exact .received h' sock chunk here
        · cases h
      · split at h
        · cases h
          exact .skipped h' chunk
        · cases h
      · cases h
    | recvEnds h' =>
      dsimp only at h
      split at h
      · next sock here =>
        cases h
        exact .ended h' sock here
      · next sock here =>
        cases h
        exact .left h' sock here
      · cases h
    | unregister h' =>
      dsimp only at h
      split at h
      · next sock here =>
        split at h
        · next free =>
          cases h
          exact .unregistered h' sock here free
        · cases h
      · cases h
    | lock h' =>
      dsimp only at h
      split at h
      · next sock chunk here =>
        split at h
        · next free =>
          cases h
          exact .locked h' sock chunk here free
        · cases h
      · cases h
    | sendNext h' =>
      dsimp only at h
      split at h
      · next sock chunk i here =>
        split at h
        · next inside =>
          cases h
          exact .sent h' sock chunk i here inside
        · cases h
      · cases h
    | unlock h' =>
      dsimp only at h
      split at h
      · next sock chunk i here =>
        split at h
        · cases h
        · next done =>
          cases h
          exact .unlocked h' sock chunk i here (Nat.le_of_not_lt done)
      · cases h
    | close h' =>
      dsimp only at h
      split at h
      · next sock here =>
        cases h
        exact .closedSubscriber h' sock here
      · next sock here =>
        cases h
        exact .closedPublisher h' sock here
      · cases h

/-- The one move behind each kind of event. -/
inductive Cause (s : State) : Act → Event → Prop
  | registered (h : Nat) (sock : Int) (here : s.handlers[h]? = some (.subscriber sock .spawned)) :
      Cause s (.register h) (.registered h sock s.table.numSub)
  | received (h : Nat) (sock : Int) (chunk : Bytes)
      (here : s.handlers[h]? = some (.publisher sock .receiving)) :
      Cause s (.recv h chunk) (.received h chunk)
  | unregistered (h : Nat) (sock : Int)
      (here : s.handlers[h]? = some (.subscriber sock .leaving)) :
      Cause s (.unregister h) (.unregistered h (s.table.remove sock).2)
  | begun (h : Nat) (sock : Int) (chunk : Bytes)
      (here : s.handlers[h]? = some (.publisher sock (.holding chunk))) :
      Cause s (.lock h) (.begun h chunk)
  | sent (h : Nat) (sock : Int) (chunk : Bytes) (i : Nat)
      (here : s.handlers[h]? = some (.publisher sock (.broadcasting chunk i)))
      (inside : i < s.table.numSub) :
      Cause s (.sendNext h) (.sent h i (s.table.subscribers.getD i 0)
        (s.connection (s.table.subscribers.getD i 0)) chunk)

/-- A step leaves at most one event behind. -/
theorem Moves.event {s next : State} {a : Act} {events : List Event}
    (moves : Moves s a next events) : events = [] ∨ ∃ e, events = [e] ∧ Cause s a e := by
  cases moves with
  | accepted role client => exact .inl rfl
  | registered h sock here free => exact .inr ⟨_, rfl, .registered h sock here⟩
  | received h sock chunk here => exact .inr ⟨_, rfl, .received h sock chunk here⟩
  | skipped h chunk => exact .inl rfl
  | ended h sock here => exact .inl rfl
  | left h sock here => exact .inl rfl
  | unregistered h sock here free => exact .inr ⟨_, rfl, .unregistered h sock here⟩
  | locked h sock chunk here free => exact .inr ⟨_, rfl, .begun h sock chunk here⟩
  | sent h sock chunk i here inside => exact .inr ⟨_, rfl, .sent h sock chunk i here inside⟩
  | unlocked h sock chunk i here done => exact .inl rfl
  | closedSubscriber h sock here => exact .inl rfl
  | closedPublisher h sock here => exact .inl rfl

end SportsPubSub.Tcp.Broker
