import SportsPubSub.Lib.Framing
import SportsPubSub.Tcp.Delivery

/-!
# Messages of several publishers

Source: tcp/tcp_C/broker_tcp.c with publisher_tcp.c, which writes its messages one
after the other, without a length or a delimiter. What `recv` returns is any piece
of that stream, and the mutex is held for one piece. So the stream to a subscriber
is a merge of the publishers' streams; whether it is made of whole messages
depends on where in their streams the broker turns from one to the next.
-/
namespace SportsPubSub.Tcp.Integrity
open Lib.Posix Lib.Reactive Lib.Framing Broker Bounds Descriptors Delivery

/-- The bytes passed to `send` for `h`, each with the publisher it came from. -/
def streamTo (h : Nat) (trace : List Event) : List (Nat × UInt8) := merged (sentTo h trace)

/-- TCP delivers each publisher's byte stream in order, cut in any way: what has
been received from `p` is the beginning of its messages put together. -/
def Published (messages : Nat → List Bytes) (trace : List Event) : Prop :=
  ∀ p, (receivedBy p trace).flatMap Prod.snd <+: (messages p).flatten

/-- Registered before the first broadcast, and not removed. -/
def Throughout (h : Nat) (trace : List Event) : Prop :=
  tracePhase h trace = .during ∧ start h trace = 0

/-- Every chunk that a `recv` returned has a byte. -/
def ChunksNonempty (trace : List Event) : Prop := ∀ p, ∀ x ∈ receivedBy p trace, x.2 ≠ []

theorem recv_nonempty (s next : State) (h : Nat) (chunk : Bytes) (events : List Event)
    (taken : step s (.recv h chunk) = some (next, events)) : chunk ≠ [] := by
  rintro rfl
  unfold step at taken
  dsimp only at taken
  split at taken
  · cases taken
  · split at taken
    · simp at taken
    · simp at taken
    · cases taken

theorem chunksNonempty_step (trace : List Event) (s next : State) (a : Act) (events : List Event)
    (inv : ChunksNonempty trace) (taken : step s a = some (next, events)) :
    ChunksNonempty (trace ++ events) := by
  intro p x mem
  rw [receivedBy_append] at mem
  rcases List.mem_append.mp mem with old | new
  · exact inv p x old
  · rcases (step_moves s next a events taken).event with rfl | ⟨e, rfl, cause⟩
    · cases new
    · cases cause with
      | received h sock chunk here =>
        have some := recv_nonempty s next h chunk _ taken
        have same : x = (h, chunk) := by
          by_cases own : h = p
          · simpa [receivedBy, own] using new
          · simp [receivedBy, own] at new
        rw [same]
        exact some
      | registered h sock here => cases new
      | unregistered h sock here => cases new
      | begun h sock chunk here => cases new
      | sent h sock chunk i here inside => cases new

theorem chunksNonempty_run (schedule : List Act) (final : State) (trace : List Event)
    (run : exec step State.initial schedule = some (final, trace)) : ChunksNonempty trace :=
  exec_invariant step (fun trace _ => ChunksNonempty trace)
    (fun trace s a next events inv taken => chunksNonempty_step trace s next a events inv taken)
    schedule State.initial final trace (fun p x mem => by cases mem) run

/-- A subscriber registered throughout is sent the broadcasts, from the first on. -/
theorem sentTo_throughout (trace : List Event) (s : State) (blocks : Exact trace s) (h : Nat)
    (throughout : Throughout h trace) : sentTo h trace ++ owed s h = broadcasts trace := by
  obtain ⟨during, first⟩ := throughout
  have present := (tracePhase_during h trace during).2
  rw [blocks h, block, first, List.drop_zero, upTo_of_absent _ _ present]

theorem bytesOf_merged (p : Nat) (pieces : List (Nat × Bytes)) :
    bytesOf p (merged pieces) = (pieces.filter fun x => x.1 = p).flatMap Prod.snd := by
  induction pieces with
  | nil => rfl
  | cons piece rest ih =>
    rw [merged_cons, bytesOf_append, ih]
    by_cases same : piece.1 = p
    · rw [← same, bytesOf_tagged]
      simp
    · rw [bytesOf_tagged_ne _ _ _ same]
      simp [same]

/-- A broadcast chunk was received from its publisher. -/
theorem broadcast_received (trace : List Event) (s : State) (forwarded : Forwarded trace s)
    (x : Nat × Bytes) (mem : x ∈ broadcasts trace) : x ∈ receivedBy x.1 trace := by
  rw [← forwarded x.1]
  apply List.mem_append_left
  exact List.mem_filter.mpr ⟨mem, by simp⟩

/-- Each publisher's part of the stream is the beginning of what it wrote. -/
theorem published_part (messages : Nat → List Bytes) (trace : List Event) (s : State)
    (inv : DeliveredUpToOverflow trace s) (published : Published messages trace) (h : Nat)
    (throughout : Throughout h trace) (p : Nat) :
    bytesOf p (streamTo h trace) <+: (messages p).flatten := by
  have whole := sentTo_throughout trace s inv.blocks h throughout
  have part : (sentTo h trace).filter (fun x => x.1 = p) <+: receivedBy p trace := by
    rw [← inv.forwarded p, ← whole, List.filter_append, List.append_assoc]
    exact List.prefix_append _ _
  obtain ⟨rest, split⟩ := part
  refine List.IsPrefix.trans ⟨rest.flatMap Prod.snd, ?_⟩ (published p)
  rw [streamTo, bytesOf_merged, ← split, List.flatMap_append]

/-- A subscriber registered throughout is sent every broadcast, and of each publisher
the bytes in their order. No message has bytes of another publisher inside exactly
when a message ends wherever the next broadcast is another publisher's; and the
stream consists of whole messages exactly when one ends at its last byte as well. -/
theorem whole_messages_iff (messages : Nat → List Bytes)
    (nonempty : ∀ p, ∀ m ∈ messages p, m ≠ []) (schedule : List Act) (final : State)
    (trace : List Event) (run : exec step State.initial schedule = some (final, trace))
    (fresh : Along step FreshAccept State.initial schedule) (published : Published messages trace)
    (h : Nat) (throughout : Throughout h trace) :
    sentTo h trace ++ owed final h = broadcasts trace ∧
      (∀ p, bytesOf p (streamTo h trace) <+: (messages p).flatten) ∧
      ((∃ more, Framed messages (streamTo h trace ++ more)) ↔
        SwitchesEnd messages (sentTo h trace)) ∧
      (Framed messages (streamTo h trace) ↔ PiecesEnd messages (sentTo h trace)) := by
  have inv := upToOverflow_run schedule final trace run fresh
  have whole := sentTo_throughout trace final inv.blocks h throughout
  have inOrder := published_part messages trace final inv published h throughout
  have chunks : ∀ x ∈ sentTo h trace, x.2 ≠ [] := by
    intro x mem
    have broadcast : x ∈ broadcasts trace := by
      rw [← whole]
      exact List.mem_append_left _ mem
    exact chunksNonempty_run schedule final trace run x.1 x
      (broadcast_received trace final inv.forwarded x broadcast)
  exact ⟨whole, inOrder, framed_extension_iff messages _ nonempty chunks inOrder,
    framed_merged_iff messages _ nonempty chunks inOrder⟩

/-- One subscriber and two publishers, one message each. -/
def twoMessages : Nat → List Bytes
  | 1 => [ascii "GOL"]
  | 2 => [ascii "FIN"]
  | _ => []

def connectThree : List Act :=
  [.accept .subscriber 5, .accept .publisher 6, .accept .publisher 7, .register 0]

/-- One turn of a publisher: a chunk is received and broadcast. -/
def turn (p : Nat) (chunk : Bytes) : List Act :=
  [.recv p chunk, .lock p, .sendNext p, .unlock p]

def turnEvents (p : Nat) (chunk : Bytes) : List Event :=
  [.received p chunk, .begun p chunk, .sent p 0 5 (some 0) chunk]

theorem twoMessages_fit (p : Nat) (m : Bytes) (mem : m ∈ twoMessages p) :
    m ≠ [] ∧ m.length < bufferSize := by
  unfold twoMessages at mem
  split at mem
  · rw [List.mem_singleton.mp mem]
    decide
  · rw [List.mem_singleton.mp mem]
    decide
  · cases mem

/-- Both messages have been received, the first one in one or in two pieces. -/
theorem twoMessages_received (trace : List Event)
    (first : (receivedBy 1 trace).flatMap Prod.snd = ascii "GOL")
    (second : (receivedBy 2 trace).flatMap Prod.snd = ascii "FIN")
    (nobody : ∀ p, p ≠ 1 → p ≠ 2 → receivedBy p trace = []) (p : Nat) :
    (receivedBy p trace).flatMap Prod.snd = (twoMessages p).flatten := by
  by_cases one : p = 1
  · rw [one, first]
    decide
  · by_cases two : p = 2
    · rw [two, second]
      decide
    · rw [nobody p one two]
      unfold twoMessages
      split
      · exact absurd rfl one
      · exact absurd rfl two
      · rfl

/-- Every chunk is one message. -/
def separate : List Act := connectThree ++ turn 1 (ascii "GOL") ++ turn 2 (ascii "FIN")

def separateTrace : List Event :=
  .registered 0 5 0 :: (turnEvents 1 (ascii "GOL") ++ turnEvents 2 (ascii "FIN"))

theorem whole_messages_iff_sample : Framed twoMessages (streamTo 0 separateTrace) := by
  have published : Published twoMessages separateTrace := by
    intro p
    rw [twoMessages_received separateTrace (by decide) (by decide)
      (by intro p one two
          simp [receivedBy, separateTrace, turnEvents, Ne.symm one, Ne.symm two]) p]
  have whole := whole_messages_iff twoMessages (fun p m mem => (twoMessages_fit p m mem).1) separate
    ((exec step State.initial separate).getD (State.initial, [])).1 separateTrace
    (by decide +kernel) (by decide +kernel) published 0 ⟨by decide +kernel, by decide +kernel⟩
  refine whole.2.2.2.mpr ?_
  have sent : sentTo 0 separateTrace = [(1, ascii "GOL"), (2, ascii "FIN")] := by decide
  rw [sent]
  intro before x after split pause
  rcases before with _ | ⟨_, _ | ⟨_, _⟩⟩
  · cases split
    exact ⟨1, by decide⟩
  · cases split
    exact ⟨1, by decide⟩
  · simp at split

/-- TCP cuts the first message in two, and the second comes in between. -/
def mixed : List Act :=
  connectThree ++ turn 1 (ascii "GO") ++ turn 2 (ascii "FIN") ++ turn 1 (ascii "L")

def mixedTrace : List Event :=
  .registered 0 5 0 ::
    (turnEvents 1 (ascii "GO") ++ turnEvents 2 (ascii "FIN") ++ turnEvents 1 (ascii "L"))

/-- Everything was received and broadcast, and the stream is `GOFINL`. -/
theorem whole_messages_fail :
    ¬ ∀ (messages : Nat → List Bytes),
      (∀ p, ∀ m ∈ messages p, m ≠ [] ∧ m.length < bufferSize) →
      ∀ (schedule : List Act) (final : State) (trace : List Event),
        exec step State.initial schedule = some (final, trace) →
        Along step FreshAccept State.initial schedule →
        (∀ p, (receivedBy p trace).flatMap Prod.snd = (messages p).flatten) →
        ∀ h, Throughout h trace → Framed messages (streamTo h trace) := by
  intro claim
  have received := twoMessages_received mixedTrace (by decide) (by decide)
    (by intro p one two
        simp [receivedBy, mixedTrace, turnEvents, Ne.symm one, Ne.symm two])
  have framed := claim twoMessages twoMessages_fit mixed
    ((exec step State.initial mixed).getD (State.initial, [])).1 mixedTrace (by decide +kernel)
    (by decide +kernel) received 0 ⟨by decide +kernel, by decide +kernel⟩
  -- the broker turns to the second publisher after two bytes of the first message
  have ends := framed.pausesAtEnds [(1, 71)] (1, 79) [(2, 70), (2, 73), (2, 78), (1, 76)]
    (by decide +kernel) (by decide)
  obtain ⟨k, size⟩ := ends
  cases k with
  | zero => cases size
  | succ k => cases k <;> cases size

end SportsPubSub.Tcp.Integrity
