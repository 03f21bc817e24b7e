import SportsPubSub.Tcp.Clients
import SportsPubSub.Tcp.Integrity

/-!
# The composed TCP system

The threaded broker of tcp/tcp_C with publishers and subscribers of either kind.
`clients h` is the program behind the `h`-th accepted connection. A connection is a
queue of bytes in each direction that is used: `send` appends all its bytes, a
`recv` takes any non-empty piece from the front. The schedule decides who moves and
how long each piece is. A subscriber ends only when it is stopped from outside.
-/
namespace SportsPubSub.Tcp.Composed
open Lib.Posix Lib.Reactive Lib.Framing
open Broker Bounds Descriptors Delivery Integrity Clients

inductive Cliente where
  | publicador (program : Publicador)
  | suscriptor (program : Suscriptor)

/-- The port that the program connects to. -/
def Cliente.role : Cliente → Role
  | .publicador _ => .publisher
  | .suscriptor _ => .subscriber

def Cliente.pasos : Cliente → List Paso
  | .publicador program => program.pasos
  | .suscriptor _ => []

/-- The broker, how far each publisher has got, the bytes on their way, and the
subscribers that were stopped. -/
structure State where
  broker : Broker.State
  pc : Nat → Nat
  toBroker : Nat → Bytes
  toSubscriber : Nat → Bytes
  gone : Nat → Bool

inductive Act where
  | publisher (p : Nat)
  | broker (a : Broker.Act)
  | subscriberReads (h : Nat) (chunk : Bytes)
  | subscriberGoes (h : Nat)

inductive Event where
  | paso (p : Nat) (paso : Paso)
  | broker (e : Broker.Event)
  | shown (h : Nat) (pantalla : Bytes)
  deriving DecidableEq

def State.initial : State where
  broker := Broker.State.initial
  pc := fun _ => 0
  toBroker := fun _ => []
  toSubscriber := fun _ => []
  gone := fun _ => false

/-- The other side has closed the connection, and nothing is left in it. -/
def Closed (s : State) (h : Nat) : Cliente → Prop
  | .publicador program => s.pc h = program.pasos.length ∧ s.toBroker h = []
  | .suscriptor _ => s.gone h = true

instance (s : State) (h : Nat) : (c : Cliente) → Decidable (Closed s h c)
  | .publicador _ => inferInstanceAs (Decidable (_ ∧ _))
  | .suscriptor _ => inferInstanceAs (Decidable (_ = true))

/-- What the kernel can return to the broker: an unused descriptor for the next client,
bytes that were sent, the end of a connection. -/
def Returns (clients : Nat → Cliente) (s : State) : Broker.Act → Prop
  | .accept role client =>
      client < 0 ∨
        (client ∉ openSocks s.broker ∧ (clients s.broker.handlers.length).role = role)
  | .recv h chunk => chunk <+: s.toBroker h
  | .recvEnds h => Closed s h (clients h)
  | _ => True

instance (clients : Nat → Cliente) (s : State) : (a : Broker.Act) → Decidable (Returns clients s a)
  | .accept _ _ => inferInstanceAs (Decidable (_ ∨ _))
  | .recv _ chunk => inferInstanceAs (Decidable (chunk <+: _))
  | .recvEnds h => inferInstanceAs (Decidable (Closed s h (clients h)))
  | .register _ => isTrue trivial
  | .unregister _ => isTrue trivial
  | .lock _ => isTrue trivial
  | .sendNext _ => isTrue trivial
  | .unlock _ => isTrue trivial
  | .close _ => isTrue trivial

/-- The bytes that the broker took from a connection or put into one. -/
def State.carry (s : State) : Broker.Event → State
  | .received p chunk =>
      { s with toBroker := Function.update s.toBroker p ((s.toBroker p).drop chunk.length) }
  | .sent _ _ _ (some h) chunk =>
      { s with toSubscriber := Function.update s.toSubscriber h (s.toSubscriber h ++ chunk) }
  | _ => s

/-- What a step of a publisher puts into its connection. -/
def Paso.data : Paso → Bytes
  | .send data => data
  | _ => []

def step (clients : Nat → Cliente) : System State Act Event
  | s, .publisher p =>
      ((clients p).pasos[s.pc p]?).map fun paso =>
        ({ s with
            pc := Function.update s.pc p (s.pc p + 1),
            toBroker := Function.update s.toBroker p (s.toBroker p ++ Paso.data paso) },
          [.paso p paso])
  | s, .broker a =>
      if Returns clients s a then
        (Broker.step s.broker a).map fun x =>
          ({ x.2.foldl State.carry s with broker := x.1 }, x.2.map .broker)
      else none
  | s, .subscriberReads h chunk =>
      match clients h with
      | .publicador _ => none
      | .suscriptor program =>
          if s.gone h = false ∧ 0 < chunk.length ∧ chunk.length ≤ program.recvLen ∧
              chunk <+: s.toSubscriber h then
            some
              ({ s with
                  toSubscriber := Function.update s.toSubscriber h
                    ((s.toSubscriber h).drop chunk.length) },
                [.shown h (program.pantalla chunk)])
          else none
  | s, .subscriberGoes h =>
      match clients h with
      | .publicador _ => none
      | .suscriptor _ => some ({ s with gone := Function.update s.gone h true }, [])

/-- `trace` is what some schedule can leave behind. -/
def Run (clients : Nat → Cliente) (final : State) (trace : List Event) : Prop :=
  ∃ schedule, exec (step clients) State.initial schedule = some (final, trace)

/-- What one step can do to the whole system. -/
inductive Moves (clients : Nat → Cliente) (s : State) : State → List Event → Prop
  | posted (p : Nat) (paso : Paso) (own : (clients p).pasos[s.pc p]? = some paso) :
      Moves clients s
        { s with
          pc := Function.update s.pc p (s.pc p + 1),
          toBroker := Function.update s.toBroker p (s.toBroker p ++ Paso.data paso) }
        [.paso p paso]
  | relayed (a : Broker.Act) (next : Broker.State) (events : List Broker.Event)
      (returned : Returns clients s a) (taken : Broker.step s.broker a = some (next, events)) :
      Moves clients s { events.foldl State.carry s with broker := next } (events.map .broker)
  | shown (h : Nat) (program : Suscriptor) (chunk : Bytes)
      (here : clients h = .suscriptor program) (arrived : chunk <+: s.toSubscriber h) :
      Moves clients s
        { s with
          toSubscriber := Function.update s.toSubscriber h
            ((s.toSubscriber h).drop chunk.length) }
        [.shown h (program.pantalla chunk)]
  | stopped (h : Nat) : Moves clients s { s with gone := Function.update s.gone h true } []

/-- Every step is one of the moves. -/
theorem step_moves (clients : Nat → Cliente) (s next : State) (a : Act) (events : List Event)
    (h : step clients s a = some (next, events)) : Moves clients s next events := by
  cases a with
  | publisher p =>
    simp only [step, Option.map_eq_some_iff] at h
    obtain ⟨paso, own, h⟩ := h
    cases h
    exact .posted p paso own
  | broker a =>
    simp only [step, Option.ite_none_right_eq_some, Option.map_eq_some_iff] at h
    obtain ⟨returned, x, taken, h⟩ := h
    cases h
    exact .relayed a x.1 x.2 returned taken
  | subscriberReads h' chunk =>
    simp only [step] at h
    split at h
    · cases h
    · next program here =>
      simp only [Option.ite_none_right_eq_some] at h
      obtain ⟨⟨-, -, -, arrived⟩, h⟩ := h
      cases h
      exact .shown h' program chunk here arrived
  | subscriberGoes h' =>
    simp only [step] at h
    split at h
    · cases h
    · cases h
      exact .stopped h'

/-- What the broker has left behind. -/
def brokerTrace (trace : List Event) : List Broker.Event :=
  trace.filterMap fun
    | .broker e => some e
    | _ => none

/-- What the subscriber behind a connection has printed. -/
def screen (h : Nat) (trace : List Event) : List Bytes :=
  trace.filterMap fun
    | .shown k pantalla => if k = h then some pantalla else none
    | _ => none

theorem brokerTrace_append (a b : List Event) :
    brokerTrace (a ++ b) = brokerTrace a ++ brokerTrace b := List.filterMap_append

theorem brokerTrace_broker (events : List Broker.Event) :
    brokerTrace (events.map .broker) = events := by
  simp [brokerTrace, List.filterMap_map]

theorem screen_append (h : Nat) (a b : List Event) :
    screen h (a ++ b) = screen h a ++ screen h b := List.filterMap_append

theorem screen_broker (h : Nat) (events : List Broker.Event) :
    screen h (events.map .broker) = [] := by
  simp [screen, List.filterMap_map]

/-- Every byte is in one place: of what a publisher gave to `send`, the front was
received and the rest is on its way; of what the broker gave to `send`, the front is on
the screen, one text for each `recv`, and the rest is on its way. -/
structure Conserved (clients : Nat → Cliente) (trace : List Event) (s : State) : Prop where
  delivered : DeliveredUpToOverflow (brokerTrace trace) s.broker
  inbound : ∀ p, (receivedBy p (brokerTrace trace)).flatMap Prod.snd ++ s.toBroker p =
    sentBytes ((clients p).pasos.take (s.pc p))
  outbound : ∀ h program, clients h = .suscriptor program →
    ∃ chunks : List Bytes, screen h trace = chunks.map program.framed ∧
      chunks.flatten ++ s.toSubscriber h = (sentTo h (brokerTrace trace)).flatMap Prod.snd

theorem pasos_nul_free (c : Cliente) (k : Nat) : 0 ∉ sentBytes (c.pasos.take k) := by
  rw [mem_sentBytes]
  rintro ⟨data, mem, nul⟩
  cases c with
  | publicador program =>
    exact program.nul_free ((mem_sentBytes _ _).mpr ⟨data, List.mem_of_mem_take mem, nul⟩)
  | suscriptor program => simp [Cliente.pasos] at mem

/-- What is sent to a subscriber comes from the publishers, so no NUL is in it. -/
theorem Conserved.nul_free {clients : Nat → Cliente} {trace : List Event} {s : State}
    (inv : Conserved clients trace s) (h : Nat) :
    0 ∉ (sentTo h (brokerTrace trace)).flatMap Prod.snd := by
  intro nul
  obtain ⟨x, mem, inside⟩ := List.mem_flatMap.mp nul
  have earlier : x ∈ broadcasts (brokerTrace trace) := by
    have part : x ∈ block h (brokerTrace trace) := by
      rw [← inv.delivered.blocks h]
      exact List.mem_append_left _ mem
    exact List.mem_of_mem_drop ((block_starts h _).subset part)
  have received := broadcast_received _ _ inv.delivered.forwarded x earlier
  apply pasos_nul_free (clients x.1) (s.pc x.1)
  rw [← inv.inbound x.1]
  exact List.mem_append_left _ (List.mem_flatMap.mpr ⟨x, received, inside⟩)

theorem carry_pc (s : State) (e : Broker.Event) : (s.carry e).pc = s.pc := by
  unfold State.carry
  split
  · rfl
  · rfl
  · rfl

theorem carry_toSubscriber (s : State) (e : Broker.Event) (h : Nat) :
    (s.carry e).toSubscriber h = s.toSubscriber h ++ (sentTo h [e]).flatMap Prod.snd := by
  cases e with
  | sent sender index sock dest chunk =>
    cases dest with
    | none => simp [State.carry, sentTo]
    | some k =>
      by_cases own : k = h
      · subst own
        simp [State.carry, sentTo]
      · simp [State.carry, sentTo, own, Function.update_of_ne (Ne.symm own)]
  | registered k sock index => simp [State.carry, sentTo]
  | unregistered k indices => simp [State.carry, sentTo]
  | received k chunk => simp [State.carry, sentTo]
  | begun k chunk => simp [State.carry, sentTo]

/-- A `recv` takes what it returns off the front. -/
theorem carry_toBroker (s : State) (e : Broker.Event) (p : Nat)
    (arrived : ∀ k chunk, e = .received k chunk → chunk <+: s.toBroker k) :
    (receivedBy p [e]).flatMap Prod.snd ++ (s.carry e).toBroker p = s.toBroker p := by
  cases e with
  | received k chunk =>
    by_cases own : k = p
    · subst own
      obtain ⟨rest, split⟩ := arrived k chunk rfl
      simp [State.carry, receivedBy, ← split]
    · simp [State.carry, receivedBy, own, Function.update_of_ne (Ne.symm own)]
  | sent sender index sock dest chunk =>
    cases dest with
    | none => rfl
    | some k => rfl
  | registered k sock index => rfl
  | unregistered k indices => rfl
  | begun k chunk => rfl

/-- What a step of the broker does to the connections. -/
theorem carried (clients : Nat → Cliente) (s : State) (a : Broker.Act) (next : Broker.State)
    (events : List Broker.Event) (returned : Returns clients s a)
    (taken : Broker.step s.broker a = some (next, events)) :
    (events.foldl State.carry s).pc = s.pc ∧
      (∀ p, (receivedBy p events).flatMap Prod.snd ++ (events.foldl State.carry s).toBroker p =
        s.toBroker p) ∧
      ∀ h, (events.foldl State.carry s).toSubscriber h =
        s.toSubscriber h ++ (sentTo h events).flatMap Prod.snd := by
  rcases (Broker.step_moves _ _ _ _ taken).event with rfl | ⟨e, rfl, cause⟩
  · exact ⟨rfl, fun p => rfl, fun h => (List.append_nil _).symm⟩
  · refine ⟨carry_pc s e, fun p => carry_toBroker s e p ?_, carry_toSubscriber s e⟩
    rintro k chunk rfl
    cases cause with
    | received sock here => exact returned

theorem conserved_step (clients : Nat → Cliente) (trace : List Event) (s next : State)
    (events : List Event) (inv : Conserved clients trace s) (moves : Moves clients s next events) :
    Conserved clients (trace ++ events) next := by
  cases moves with
  | posted p paso own =>
    have same : brokerTrace (trace ++ [.paso p paso]) = brokerTrace trace := by
      rw [brokerTrace_append]
      exact List.append_nil _
    refine ⟨same ▸ inv.delivered, ?_, ?_⟩
    · intro q
      rw [same]
      by_cases this : q = p
      · subst this
        dsimp only
        rw [Function.update_self, Function.update_self, ← List.append_assoc, inv.inbound,
          List.take_add_one, own, sentBytes_append]
        cases paso with
        | send data => simp [Paso.data, sentBytes]
        | print line => rfl
        | sleep => rfl
        | close => rfl
      · dsimp only
        rw [Function.update_of_ne this, Function.update_of_ne this]
        exact inv.inbound q
    · intro h program here
      rw [same, screen_append]
      obtain ⟨chunks, shown, rest⟩ := inv.outbound h program here
      exact ⟨chunks, (List.append_nil _).trans shown, rest⟩
  | relayed a next events returned taken =>
    have fresh : FreshAccept s.broker a := by
      cases a with
      | accept role client => exact returned.imp id And.left
      | register h => trivial
      | recv h chunk => trivial
      | recvEnds h => trivial
      | unregister h => trivial
      | lock h => trivial
      | sendNext h => trivial
      | unlock h => trivial
      | close h => trivial
    obtain ⟨pc, toBroker, toSubscriber⟩ := carried clients s a next events returned taken
    have grown : brokerTrace (trace ++ events.map .broker) = brokerTrace trace ++ events := by
      rw [brokerTrace_append, brokerTrace_broker]
    refine ⟨?_, ?_, ?_⟩
    · rw [grown]
      exact upToOverflow_step _ _ _ a events inv.delivered fresh taken
    · intro p
      rw [grown, receivedBy_append, List.flatMap_append, List.append_assoc]
      dsimp only
      rw [toBroker, pc]
      exact inv.inbound p
    · intro h program here
      obtain ⟨chunks, shown, rest⟩ := inv.outbound h program here
      refine ⟨chunks, ?_, ?_⟩
      · rw [screen_append, screen_broker, List.append_nil]
        exact shown
      · rw [grown, sentTo_append, List.flatMap_append]
        dsimp only
        rw [toSubscriber, ← List.append_assoc, rest]
  | shown h program chunk here arrived =>
    have same : brokerTrace (trace ++ [.shown h (program.pantalla chunk)]) = brokerTrace trace := by
      rw [brokerTrace_append]
      exact List.append_nil _
    refine ⟨same ▸ inv.delivered, fun p => same ▸ inv.inbound p, ?_⟩
    intro k other there
    rw [same, screen_append]
    obtain ⟨chunks, shown, rest⟩ := inv.outbound k other there
    by_cases this : k = h
    · subst this
      cases here.symm.trans there
      obtain ⟨later, split⟩ := arrived
      have free : 0 ∉ chunk := by
        intro nul
        apply inv.nul_free k
        rw [← rest, ← split]
        exact List.mem_append_right _ (List.mem_append_left _ nul)
      refine ⟨chunks ++ [chunk], ?_, ?_⟩
      · rw [List.map_append, shown, program.pantalla_whole chunk free]
        simp [screen]
      · rw [← rest]
        simp [← split]
    · refine ⟨chunks, ?_, ?_⟩
      · simp [screen, Ne.symm this]
        exact shown
      · dsimp only
        rw [Function.update_of_ne this]
        exact rest
  | stopped h =>
    rw [List.append_nil]
    exact ⟨inv.delivered, inv.inbound, inv.outbound⟩

theorem conserved_initial (clients : Nat → Cliente) : Conserved clients [] State.initial where
  delivered := delivered_initial.upToOverflow
  inbound := fun _ => rfl
  outbound := fun _ _ _ => ⟨[], rfl, rfl⟩

theorem conserved_run (clients : Nat → Cliente) (final : State) (trace : List Event)
    (run : Run clients final trace) : Conserved clients trace final := by
  obtain ⟨schedule, taken⟩ := run
  exact exec_invariant (step clients) (Conserved clients)
    (fun trace s a next events inv taken =>
      conserved_step clients trace s next events inv (step_moves clients s next a events taken))
    schedule State.initial final trace (conserved_initial clients) taken

/-- A C subscriber, an assembly subscriber and the assembly publisher. -/
def trio (h : Nat) : Cliente :=
  if h = 0 then .suscriptor (.tcpC [])
  else if h = 1 then .suscriptor .tcpAsm
  else .publicador .tcpAsm

/-- The first message arrives in two pieces; the C subscriber is still to read the
second. -/
def trioRun : List Act :=
  [.broker (.accept .subscriber 5), .broker (.accept .subscriber 6), .broker (.register 0),
    .broker (.register 1), .broker (.accept .publisher 7), .publisher 2, .publisher 2,
    .broker (.recv 2 (ascii "[Colombia vs Brasil]")), .broker (.lock 2), .broker (.sendNext 2),
    .subscriberReads 0 (ascii "[Colombia vs Brasil]"), .broker (.sendNext 2),
    .broker (.unlock 2), .broker (.recv 2 (ascii " Inicio del partido
")), .broker (.lock 2),
    .broker (.sendNext 2), .broker (.sendNext 2), .broker (.unlock 2),
    .subscriberReads 1 (ascii "[Colombia vs Brasil] Inicio del partido
")]

def trioTrace : List Event := traceOf (step trio) State.initial trioRun

theorem trio_run : ∃ final, Run trio final trioTrace := by
  obtain ⟨final, taken⟩ := exec_traceOf (step trio) State.initial trioRun (by decide +kernel)
  exact ⟨final, trioRun, taken⟩

/-- Nothing is lost, doubled, reordered or made up on the way from the publishers to the
screens. Of each publisher's bytes the first were broadcast, the next are held by its
thread, the rest is on its way to the broker. Of the broadcasts between the registration
of a subscriber and its removal the first bytes are on its screen, the next on their way
to it, and the rest is what the broadcast in progress still owes it. -/
theorem bytes_conserved (clients : Nat → Cliente) (final : State) (trace : List Event)
    (run : Run clients final trace) :
    (∀ p, ((broadcasts (brokerTrace trace)).filter fun x => x.1 = p).flatMap Prod.snd ++
        (holding final.broker p).flatMap Prod.snd ++ final.toBroker p =
        sentBytes ((clients p).pasos.take (final.pc p))) ∧
      ∀ h program, clients h = .suscriptor program →
        ∃ chunks : List Bytes, screen h trace = chunks.map program.framed ∧
          chunks.flatten ++ final.toSubscriber h ++ (owed final.broker h).flatMap Prod.snd =
            (block h (brokerTrace trace)).flatMap Prod.snd := by
  have inv := conserved_run clients final trace run
  constructor
  · intro p
    rw [← List.flatMap_append, inv.delivered.forwarded p, inv.inbound p]
  · intro h program here
    obtain ⟨chunks, shown, rest⟩ := inv.outbound h program here
    refine ⟨chunks, shown, ?_⟩
    rw [rest, ← List.flatMap_append, inv.delivered.blocks h]

theorem bytes_conserved_trio : ∃ chunks : List Bytes,
    screen 0 trioTrace = chunks.map (Suscriptor.tcpC []).framed := by
  obtain ⟨final, run⟩ := trio_run
  obtain ⟨chunks, shown, -⟩ := (bytes_conserved trio final trioTrace run).2 0 (.tcpC []) rfl
  exact ⟨chunks, shown⟩

/-- Nothing is on its way, and no thread of the broker has a chunk. -/
structure Quiet (s : State) : Prop where
  toBroker : ∀ p, s.toBroker p = []
  toSubscriber : ∀ h, s.toSubscriber h = []
  unheld : ∀ p, holding s.broker p = []
  free : s.broker.mutex = none

theorem map_snd_merged (pieces : List (Nat × Bytes)) :
    (merged pieces).map Prod.snd = pieces.flatMap Prod.snd := by
  induction pieces with
  | nil => rfl
  | cons piece rest ih =>
    have own : (tagged piece.1 piece.2).map Prod.snd = piece.2 := by
      rw [tagged, List.map_map]
      exact List.map_id _
    rw [merged_cons, List.map_append, own, ih, List.flatMap_cons]

/-- The screen of a subscriber that was there before the first broadcast shows the
beginning of a merge of the publishers' streams, and all of it when the system is
quiet. Every `recv` of the subscriber makes a text of its own. -/
theorem screen_merge (clients : Nat → Cliente) (final : State) (trace : List Event)
    (run : Run clients final trace) (h : Nat) (program : Suscriptor)
    (here : clients h = .suscriptor program) (throughout : Throughout h (brokerTrace trace)) :
    ∃ (chunks : List Bytes) (stream : List (Nat × UInt8)),
      screen h trace = chunks.map program.framed ∧ stream.map Prod.snd = chunks.flatten ∧
        (∀ p, bytesOf p stream <+: sentBytes ((clients p).pasos.take (final.pc p))) ∧
        (Quiet final →
          ∀ p, bytesOf p stream = sentBytes ((clients p).pasos.take (final.pc p))) := by
  have inv := conserved_run clients final trace run
  obtain ⟨chunks, shown, rest⟩ := inv.outbound h program here
  have whole := sentTo_throughout _ _ inv.delivered.blocks h throughout
  have bytes : (streamTo h (brokerTrace trace)).map Prod.snd =
      chunks.flatten ++ final.toSubscriber h := (map_snd_merged _).trans rest.symm
  refine ⟨chunks, (streamTo h (brokerTrace trace)).take chunks.flatten.length, shown, ?_, ?_, ?_⟩
  · rw [List.map_take, bytes, List.take_left]
  · intro p
    have published : Published (fun q => [sentBytes ((clients q).pasos.take (final.pc q))])
        (brokerTrace trace) := by
      intro q
      rw [List.flatten_singleton, ← inv.inbound q]
      exact List.prefix_append _ _
    have part := published_part _ _ _ inv.delivered published h throughout p
    rw [List.flatten_singleton] at part
    exact (((List.take_prefix _ _).filter _).map _).trans part
  · intro quiet p
    have all : chunks.flatten.length = (streamTo h (brokerTrace trace)).length := by
      have len := congrArg List.length bytes
      rw [quiet.toSubscriber h, List.append_nil, List.length_map] at len
      exact len.symm
    have own := inv.delivered.forwarded p
    rw [quiet.unheld p, List.append_nil] at own
    have sent := inv.inbound p
    rw [quiet.toBroker p, List.append_nil] at sent
    rw [owed_free _ quiet.free h, List.append_nil] at whole
    rw [all, List.take_length, streamTo, bytesOf_merged, whole, own, sent]

theorem screen_merge_trio : ∃ (chunks : List Bytes) (stream : List (Nat × UInt8)),
    screen 1 trioTrace = chunks.map Suscriptor.tcpAsm.framed ∧
      stream.map Prod.snd = chunks.flatten := by
  obtain ⟨final, run⟩ := trio_run
  obtain ⟨chunks, stream, shown, merged, -⟩ := screen_merge trio final trioTrace run 1 .tcpAsm rfl
    ⟨by decide +kernel, by decide +kernel⟩
  exact ⟨chunks, stream, shown, merged⟩

/-- Subscribers that were there before the first broadcast show the same bytes in the
same order; one may be behind. -/
theorem screens_agree (clients : Nat → Cliente) (final : State) (trace : List Event)
    (run : Run clients final trace) (h k : Nat) (first second : Suscriptor)
    (hereFirst : clients h = .suscriptor first) (hereSecond : clients k = .suscriptor second)
    (since : Throughout h (brokerTrace trace)) (sinceToo : Throughout k (brokerTrace trace)) :
    ∃ a b : List Bytes, screen h trace = a.map first.framed ∧
      screen k trace = b.map second.framed ∧
        (a.flatten <+: b.flatten ∨ b.flatten <+: a.flatten) := by
  have inv := conserved_run clients final trace run
  have beginning : ∀ (j : Nat) (program : Suscriptor), clients j = .suscriptor program →
      Throughout j (brokerTrace trace) → ∃ chunks : List Bytes,
        screen j trace = chunks.map program.framed ∧
          chunks.flatten <+: (broadcasts (brokerTrace trace)).flatMap Prod.snd := by
    intro j program here throughout
    obtain ⟨chunks, shown, rest⟩ := inv.outbound j program here
    refine ⟨chunks, shown, ?_⟩
    rw [← sentTo_throughout _ _ inv.delivered.blocks j throughout, List.flatMap_append, ← rest,
      List.append_assoc]
    exact List.prefix_append _ _
  obtain ⟨a, shownFirst, partFirst⟩ := beginning h first hereFirst since
  obtain ⟨b, shownSecond, partSecond⟩ := beginning k second hereSecond sinceToo
  exact ⟨a, b, shownFirst, shownSecond, List.prefix_or_prefix_of_prefix partFirst partSecond⟩

theorem screens_agree_trio : ∃ a b : List Bytes,
    screen 0 trioTrace = a.map (Suscriptor.tcpC []).framed ∧
      screen 1 trioTrace = b.map Suscriptor.tcpAsm.framed ∧
        (a.flatten <+: b.flatten ∨ b.flatten <+: a.flatten) := by
  obtain ⟨final, run⟩ := trio_run
  exact screens_agree trio final trioTrace run 0 1 (.tcpC []) .tcpAsm rfl rfl
    ⟨by decide +kernel, by decide +kernel⟩ ⟨by decide +kernel, by decide +kernel⟩

end SportsPubSub.Tcp.Composed
