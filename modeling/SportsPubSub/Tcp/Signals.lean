import SportsPubSub.Tcp.Delivery

/-!
# Resets and SIGPIPE

Source: tcp/tcp_C/broker_tcp.c; its `send` calls have flags 0 and no handler is
installed. The world around the threads is added to their state: peers reset their
connections at any moment, and a `send` to a connection that was reset raises
SIGPIPE, which terminates the process. The kernel gives out fresh descriptors and
delivers nothing more from a reset connection. The only time at which a reset
subscriber endangers the process is before its handler's locked removal.
-/
namespace SportsPubSub.Tcp.Signals
open Lib Lib.Posix Lib.Reactive Broker Bounds Descriptors Delivery

/-- The broker process and the connections that their peers have reset. -/
structure World where
  broker : State
  resets : List Nat
  terminated : Bool
  deriving DecidableEq, Repr

def World.initial : World := ⟨State.initial, [], false⟩

/-- What happens next: a thread's step, or a reset of the connection of `h`. -/
inductive WorldAct where
  | thread (a : Act)
  | reset (h : Nat)
  deriving DecidableEq, Repr

/-- `recv` on a connection that was reset returns no bytes. -/
def readsFromReset (resets : List Nat) : Act → Bool
  | .recv h _ => resets.contains h
  | _ => false

/-- The `send` goes to a connection that was reset. -/
def raisesSigpipe (resets : List Nat) : Event → Bool
  | .sent _ _ _ (some h) _ => resets.contains h
  | _ => false

def worldStep : System World WorldAct Event := fun w a =>
  if w.terminated then none
  else match a with
  | .reset h =>
      match w.broker.handlers[h]?.bind Handler.openSock with
      | none => none
      | some _ => some ({ w with resets := h :: w.resets }, [])
  | .thread a =>
      if FreshAccept w.broker a ∧ readsFromReset w.resets a = false then
        match step w.broker a with
        | none => none
        | some (next, events) =>
            if events.any (raisesSigpipe w.resets) then some ({ w with terminated := true }, [])
            else some ({ w with broker := next }, events)
      else none

/-- What one step of the world can do. -/
inductive WorldMoves (w : World) : WorldAct → World → List Event → Prop
  | reset (h : Nat) : WorldMoves w (.reset h) { w with resets := h :: w.resets } []
  | killed (a : Act) (next : State) (events : List Event) (fresh : FreshAccept w.broker a)
      (taken : step w.broker a = some (next, events))
      (raised : events.any (raisesSigpipe w.resets) = true) :
      WorldMoves w (.thread a) { w with terminated := true } []
  | moved (a : Act) (next : State) (events : List Event) (fresh : FreshAccept w.broker a)
      (taken : step w.broker a = some (next, events))
      (quiet : events.any (raisesSigpipe w.resets) = false) :
      WorldMoves w (.thread a) { w with broker := next } events

theorem worldStep_moves (w next : World) (a : WorldAct) (events : List Event)
    (h : worldStep w a = some (next, events)) :
    w.terminated = false ∧ WorldMoves w a next events := by
  unfold worldStep at h
  split at h
  · cases h
  · next alive =>
    refine ⟨by simpa using alive, ?_⟩
    cases a with
    | reset k =>
      dsimp only at h
      split at h
      · cases h
      · cases h
        exact .reset k
    | thread a =>
      dsimp only at h
      split at h
      · next allowed =>
        split at h
        · cases h
        · next after events' taken =>
          split at h
          · next raised =>
            cases h
            exact .killed a after events' allowed.1 taken raised
          · next quiet =>
            cases h
            exact .moved a after events allowed.1 taken (by simpa using quiet)
      · cases h

/-- The next `send` of a broadcast meets, in the array, the socket of a subscriber
whose connection was reset and whose handler has not yet removed it. -/
def Exposed (w : World) : WorldAct → Prop
  | .thread (.sendNext sender) =>
      match w.broker.handlers[sender]?.bind loop with
      | none => False
      | some (_, i) =>
          i < w.broker.table.numSub ∧ ∃ victim ∈ w.resets,
            w.broker.handlers[victim]?.bind Handler.listed =
              some (w.broker.table.subscribers.getD i 0)
  | _ => False

instance (w : World) : (a : WorldAct) → Decidable (Exposed w a)
  | .reset _ => isFalse id
  | .thread (.sendNext sender) => by
      unfold Exposed
      dsimp only
      split
      · infer_instance
      · infer_instance
  | .thread (.accept _ _) => isFalse id
  | .thread (.register _) => isFalse id
  | .thread (.recv _ _) => isFalse id
  | .thread (.recvEnds _) => isFalse id
  | .thread (.unregister _) => isFalse id
  | .thread (.lock _) => isFalse id
  | .thread (.unlock _) => isFalse id
  | .thread (.close _) => isFalse id

theorem exposed_iff (w : World) (sender : Nat) (sock : Int) (chunk : Bytes) (i : Nat)
    (here : w.broker.handlers[sender]? = some (.publisher sock (.broadcasting chunk i))) :
    Exposed w (.thread (.sendNext sender)) ↔
      i < w.broker.table.numSub ∧ ∃ victim ∈ w.resets,
        w.broker.handlers[victim]?.bind Handler.listed =
          some (w.broker.table.subscribers.getD i 0) := by
  simp only [Exposed, here, Option.bind_some, loop]

/-- The world keeps what is known of the threads. -/
theorem world_step (trace : List Event) (w next : World) (a : WorldAct) (events : List Event)
    (inv : DeliveredUpToOverflow trace w.broker) (taken : worldStep w a = some (next, events)) :
    DeliveredUpToOverflow (trace ++ events) next.broker := by
  obtain ⟨-, moves⟩ := worldStep_moves w next a events taken
  cases moves with
  | reset h =>
    rw [List.append_nil]
    exact inv
  | killed a after events' fresh taken raised =>
    rw [List.append_nil]
    exact inv
  | moved a after events fresh taken quiet =>
    exact upToOverflow_step trace w.broker after a events inv fresh taken

/-- A `send` of a broadcast raises the signal exactly when it meets an exposed
socket: the descriptor in the array denotes the connection of the handler listed
with it, and no other. -/
theorem raised_iff_exposed (trace : List Event) (w : World) (next : State) (a : Act)
    (events : List Event) (inv : Coupled trace w.broker)
    (taken : step w.broker a = some (next, events)) :
    events.any (raisesSigpipe w.resets) = true ↔ Exposed w (.thread a) := by
  cases step_moves w.broker next a events taken with
  | sent h sock chunk i here inside =>
    rw [exposed_iff w h sock chunk i here]
    have mem := List.mem_of_getElem? (connected_getElem w.broker.table inv.table.bounded i inside)
    obtain ⟨owner, stage, found, connection, during⟩ := inv.owner _ mem
    rw [phaseOf, found] at during
    have listed := listed_of_during _ stage during
    simp only [connection, List.any_cons, List.any_nil, Bool.or_false, raisesSigpipe,
      List.contains_iff_mem]
    constructor
    · exact fun reset => ⟨inside, owner, reset, by rw [found, Option.bind_some, listed]⟩
    · rintro ⟨-, victim, reset, same⟩
      obtain ⟨x, found', listed'⟩ := Option.bind_eq_some_iff.mp same
      have denoted := UnorderedTable.findIdx?_owner Handler.openSock w.broker.handlers inv.distinct
        victim x _ found' (listed_open x _ listed').1
      have agree : some owner = some victim := connection.symm.trans denoted
      rw [Option.some.inj agree]
      exact reset
  | accepted role client => exact iff_of_false Bool.false_ne_true id
  | registered h sock here free => exact iff_of_false Bool.false_ne_true id
  | received h sock chunk here => exact iff_of_false Bool.false_ne_true id
  | skipped h chunk => exact iff_of_false Bool.false_ne_true id
  | ended h sock here => exact iff_of_false Bool.false_ne_true id
  | left h sock here => exact iff_of_false Bool.false_ne_true id
  | unregistered h sock here free => exact iff_of_false Bool.false_ne_true id
  | locked h sock chunk here free => exact iff_of_false Bool.false_ne_true id
  | unlocked h sock chunk i here done => exact iff_of_false Bool.false_ne_true id
  | closedSubscriber h sock here => exact iff_of_false Bool.false_ne_true id
  | closedPublisher h sock here => exact iff_of_false Bool.false_ne_true id

/-- The process is terminated by exactly the steps that are exposed. -/
theorem terminated_iff_exposed (trace : List Event) (w next : World) (a : WorldAct)
    (events : List Event) (inv : DeliveredUpToOverflow trace w.broker)
    (taken : worldStep w a = some (next, events)) :
    next.terminated = true ↔ Exposed w a := by
  obtain ⟨alive, moves⟩ := worldStep_moves w next a events taken
  cases moves with
  | reset h =>
    simp only [alive, Bool.false_eq_true, false_iff]
    exact id
  | killed a after events' fresh stepped raised =>
    have coupled := (inv.sound (step_sound w.broker after a events' stepped)).coupled
    simpa using (raised_iff_exposed trace w after a events' coupled stepped).mp raised
  | moved a after events fresh stepped quiet =>
    have coupled := (inv.sound (step_sound w.broker after a events stepped)).coupled
    rw [← raised_iff_exposed trace w after a events coupled stepped, quiet, alive]

/-- A terminated process takes no further step. -/
theorem exec_terminated (w final : World) (actions : List WorldAct) (trace : List Event)
    (dead : w.terminated = true) (run : exec worldStep w actions = some (final, trace)) :
    actions = [] ∧ final = w := by
  cases actions with
  | nil =>
    simp only [exec, Option.some.injEq, Prod.mk.injEq] at run
    exact ⟨rfl, run.1.symm⟩
  | cons a rest =>
    obtain ⟨next, events, later, taken, -⟩ := exec_cons worldStep w final a rest trace run
    have alive := (worldStep_moves w next a events taken).1
    rw [dead] at alive
    cases alive

/-- A run keeps the process alive exactly when none of its steps is exposed. -/
theorem alive_iff (actions : List WorldAct) (w final : World) (before trace : List Event)
    (alive : w.terminated = false) (inv : DeliveredUpToOverflow before w.broker)
    (run : exec worldStep w actions = some (final, trace)) :
    final.terminated = false ↔ Along worldStep (fun w a => ¬ Exposed w a) w actions := by
  induction actions generalizing w before trace with
  | nil =>
    simp only [exec, Option.some.injEq, Prod.mk.injEq] at run
    obtain ⟨rfl, rfl⟩ := run
    simp [Along, alive]
  | cons a rest ih =>
    obtain ⟨next, events, later, taken, tail, rfl⟩ := exec_cons worldStep w final a rest trace run
    have here := terminated_iff_exposed before w next a events inv taken
    have inv' := world_step before w next a events inv taken
    simp only [Along, ← here, taken, Option.some.injEq, Prod.mk.injEq]
    cases status : next.terminated with
    | true =>
      obtain ⟨-, rfl⟩ := exec_terminated next final rest later status tail
      simp [status]
    | false =>
      rw [ih next _ later status inv' tail]
      simp

/-- The broker is not terminated, and everybody is served: what each subscriber was
sent, with what the broadcast in progress still owes it, are the broadcasts from
its registration to its removal; when no broadcast is in progress it has them all. -/
def Survives (final : World) (trace : List Event) : Prop :=
  final.terminated = false ∧
    (∀ h, sentTo h trace ++ owed final.broker h = block h trace) ∧
    (final.broker.mutex = none → ∀ h, sentTo h trace = block h trace)

/-- In every run of threads, resets and kernel, the broker survives exactly when no
`send` of a broadcast meets the socket of a reset subscriber before the locked
removal of that subscriber. -/
theorem survives_iff (actions : List WorldAct) (final : World) (trace : List Event)
    (run : exec worldStep World.initial actions = some (final, trace)) :
    Survives final trace ↔
      Along worldStep (fun w a => ¬ Exposed w a) World.initial actions := by
  have start : DeliveredUpToOverflow [] World.initial.broker := delivered_initial.upToOverflow
  have inv := exec_invariant worldStep (fun trace w => DeliveredUpToOverflow trace w.broker)
    (fun trace w a next events inv taken => world_step trace w next a events inv taken)
    actions World.initial final trace start run
  rw [← alive_iff actions World.initial final [] trace rfl start run]
  constructor
  · exact fun survives => survives.1
  · intro alive
    refine ⟨alive, inv.blocks, ?_⟩
    intro free h
    rw [← inv.blocks h, owed_free final.broker free h, List.append_nil]

/-- Two subscribers and a publisher; the first subscriber's connection is reset. -/
def resetWhileListed : List WorldAct :=
  [.thread (.accept .subscriber 5), .thread (.accept .subscriber 6),
    .thread (.accept .publisher 7), .thread (.register 0), .thread (.register 1), .reset 0,
    .thread (.recv 2 (ascii "GOL"))]

/-- The handler removes it before the chunk is broadcast. -/
def removalFirst : List WorldAct :=
  resetWhileListed ++ [.thread (.recvEnds 0), .thread (.unregister 0), .thread (.lock 2),
    .thread (.sendNext 2), .thread (.unlock 2)]

/-- The chunk is broadcast first. -/
def broadcastFirst : List WorldAct :=
  resetWhileListed ++ [.thread (.lock 2), .thread (.sendNext 2)]

def worldOutcome (actions : List WorldAct) : World × List Event :=
  (exec worldStep World.initial actions).getD (World.initial, [])

theorem survives_iff_sample :
    Survives (worldOutcome removalFirst).1 (worldOutcome removalFirst).2 :=
  (survives_iff removalFirst (worldOutcome removalFirst).1 (worldOutcome removalFirst).2
    (by decide +kernel)).mpr (by decide +kernel)

/-- The broker dies inside the broadcast; the other subscriber gets nothing. -/
theorem killed_by_broadcast :
    ¬ ∀ (actions : List WorldAct) (final : World) (trace : List Event),
      exec worldStep World.initial actions = some (final, trace) → Survives final trace := by
  intro claim
  have survives := claim broadcastFirst (worldOutcome broadcastFirst).1
    (worldOutcome broadcastFirst).2 (by decide +kernel)
  have dead : (worldOutcome broadcastFirst).1.terminated = true := by decide +kernel
  have alive := survives.1
  rw [dead] at alive
  cases alive

end SportsPubSub.Tcp.Signals
