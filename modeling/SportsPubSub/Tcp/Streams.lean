import SportsPubSub.Lib.KeyedList
import SportsPubSub.Tcp.AsmBroker
import SportsPubSub.Tcp.Integrity

/-!
# The streams that the two TCP brokers forward

When the publishers come one after another, the broadcasts of the threaded broker are
in the order of their publishers, so a subscriber is sent the publishers' streams one
behind the other. The assembly broker does one publisher after another anyway. Both
results hold however the streams are cut into chunks.
-/
namespace SportsPubSub.Tcp.Streams
open Lib.Posix Lib.Reactive Lib.KeyedList

section Threaded

open Broker Bounds Descriptors Delivery Integrity

/-- A publisher whose `recv` has not returned 0. -/
def active : Handler → Bool
  | .publisher _ .receiving => true
  | .publisher _ (.holding _) => true
  | .publisher _ (.broadcasting _ _) => true
  | _ => false

def isPublisher : Handler → Bool
  | .publisher _ _ => true
  | .subscriber _ _ => false

/-- A publisher is accepted only when `recv` has returned 0 for all before it. -/
def OneAtATime (s : State) : Act → Prop
  | .accept .publisher _ => ∀ x ∈ s.handlers, active x = false
  | _ => True

instance (s : State) : (a : Act) → Decidable (OneAtATime s a)
  | .accept .publisher _ => inferInstanceAs (Decidable (∀ x ∈ _, _))
  | .accept .subscriber _ => isTrue trivial
  | .register _ => isTrue trivial
  | .recv _ _ => isTrue trivial
  | .recvEnds _ => isTrue trivial
  | .unregister _ => isTrue trivial
  | .lock _ => isTrue trivial
  | .sendNext _ => isTrue trivial
  | .unlock _ => isTrue trivial
  | .close _ => isTrue trivial

/-- The publisher handlers, in the order of their connections. -/
def publishers (s : State) : List Nat :=
  (List.range s.handlers.length).filter fun p => (s.handlers[p]?).any isPublisher

/-- What `recv` has returned to each publisher handler, put together. -/
def publisherStreams (s : State) (trace : List Event) : List Bytes :=
  (publishers s).map fun p => (receivedBy p trace).flatMap Prod.snd

def ActiveAt (s : State) (p : Nat) : Prop := (s.handlers[p]?).any active = true

/-- The publishers take turns: one is active, and the broadcasts so far are in order
and not of a later one. -/
structure Turns (begun : List (Nat × Bytes)) (s : State) : Prop where
  alone : ∀ p q, ActiveAt s p → ActiveAt s q → p = q
  behind : ∀ x ∈ begun, ∀ p, ActiveAt s p → x.1 ≤ p
  sorted : begun.Pairwise fun x y => x.1 ≤ y.1
  known : ∀ x ∈ begun, x.1 ∈ publishers s

theorem mem_publishers (s : State) (p : Nat) :
    p ∈ publishers s ↔ (s.handlers[p]?).any isPublisher = true := by
  rw [publishers, List.mem_filter, List.mem_range]
  constructor
  · exact fun both => both.2
  · intro found
    refine ⟨?_, found⟩
    by_contra beyond
    rw [List.getElem?_eq_none (Nat.not_lt.mp beyond)] at found
    cases found

theorem activeAt_publisher (s : State) (p : Nat) (now : ActiveAt s p) : p ∈ publishers s := by
  rw [mem_publishers]
  rw [ActiveAt] at now
  cases here : s.handlers[p]? with
  | none =>
    rw [here] at now
    cases now
  | some x =>
    rw [here, Option.any_some] at now
    rw [Option.any_some]
    cases x with
    | subscriber sock stage => cases now
    | publisher sock stage => rfl

/-- A handler that moves on neither becomes active nor changes its role. -/
theorem turns_become (begun : List (Nat × Bytes)) (s next : State) (inv : Turns begun s)
    (h : Nat) (x y : Handler) (here : s.handlers[h]? = some x)
    (handlers : next.handlers = (s.become h y).handlers)
    (stays : active y = true → active x = true) (role : isPublisher y = isPublisher x) :
    Turns begun next := by
  have was : ∀ p, ActiveAt next p → ActiveAt s p := by
    intro p now
    rw [ActiveAt, handlers] at now
    by_cases same : p = h
    · rw [same, become_here s h x y here, Option.any_some] at now
      rw [ActiveAt, same, here, Option.any_some]
      exact stays now
    · rwa [become_other s h p y same] at now
  have kept : ∀ p, p ∈ publishers s → p ∈ publishers next := by
    intro p old
    rw [mem_publishers] at old ⊢
    rw [handlers]
    by_cases same : p = h
    · rw [same, here, Option.any_some] at old
      rw [same, become_here s h x y here, Option.any_some, role]
      exact old
    · rwa [become_other s h p y same]
  exact ⟨fun p q hp hq => inv.alone p q (was p hp) (was q hq),
    fun e he p hp => inv.behind e he p (was p hp), inv.sorted, fun e he => kept _ (inv.known e he)⟩

theorem turns_silent (trace events : List Event) (s next : State)
    (inv : Turns (broadcasts trace) s) (h : Nat) (x y : Handler) (here : s.handlers[h]? = some x)
    (handlers : next.handlers = (s.become h y).handlers)
    (stays : active y = true → active x = true) (role : isPublisher y = isPublisher x)
    (silent : broadcasts events = []) : Turns (broadcasts (trace ++ events)) next := by
  rw [broadcasts_append, silent, List.append_nil]
  exact turns_become _ s next inv h x y here handlers stays role

theorem accept_position (s : State) (role : Role) (client : Int) (p : Nat) (x : Handler)
    (absent : s.handlers[p]? = none) (new : (s.accept role client).handlers[p]? = some x) :
    p = s.handlers.length := by
  have inside : p < (s.accept role client).handlers.length :=
    (List.getElem?_eq_some_iff.mp new).1
  have beyond := List.getElem?_eq_none_iff.mp absent
  unfold State.accept at inside
  split at inside
  · omega
  · rw [List.length_append, List.length_singleton] at inside
    omega

theorem not_activeAt (s : State) (gone : ∀ x ∈ s.handlers, active x = false) (p : Nat) :
    ¬ ActiveAt s p := by
  intro now
  rw [ActiveAt] at now
  cases here : s.handlers[p]? with
  | none =>
    rw [here] at now
    cases now
  | some x =>
    rw [here, Option.any_some, gone x (List.mem_of_getElem? here)] at now
    cases now

/-- A new handler comes behind all others, and a new publisher is the only active one. -/
theorem turns_accept (begun : List (Nat × Bytes)) (s : State) (role : Role) (client : Int)
    (inv : Turns begun s) (alone : OneAtATime s (.accept role client)) :
    Turns begun (s.accept role client) := by
  have kept : ∀ p, p ∈ publishers s → p ∈ publishers (s.accept role client) := by
    intro p old
    rw [mem_publishers] at old ⊢
    rcases handlers_accept s role client p with same | ⟨absent, -⟩
    · rwa [same]
    · rw [absent] at old
      cases old
  have fresh : ∀ p, ActiveAt (s.accept role client) p →
      ActiveAt s p ∨ (p = s.handlers.length ∧ ∀ q, ¬ ActiveAt s q) := by
    intro p now
    rw [ActiveAt] at now
    rcases handlers_accept s role client p with same | ⟨absent, new⟩
    · rw [same] at now
      exact .inl now
    · right
      rw [new, Option.any_some] at now
      cases role with
      | subscriber => cases now
      | publisher =>
        exact ⟨accept_position s .publisher client p _ absent new, not_activeAt s alone⟩
  refine ⟨?_, ?_, inv.sorted, fun e he => kept _ (inv.known e he)⟩
  · intro p q hp hq
    rcases fresh p hp with oldP | ⟨newP, none⟩
    · rcases fresh q hq with oldQ | ⟨-, none⟩
      · exact inv.alone p q oldP oldQ
      · exact absurd oldP (none p)
    · rcases fresh q hq with oldQ | ⟨newQ, -⟩
      · exact absurd oldQ (none q)
      · exact newP.trans newQ.symm
  · intro e he p hp
    rcases fresh p hp with old | ⟨new, -⟩
    · exact inv.behind e he p old
    · have inside := (List.mem_filter.mp (inv.known e he)).1
      rw [List.mem_range] at inside
      omega

theorem turns_step (trace : List Event) (s next : State) (a : Act) (events : List Event)
    (inv : Turns (broadcasts trace) s) (alone : OneAtATime s a) (moves : Moves s a next events) :
    Turns (broadcasts (trace ++ events)) next := by
  cases moves with
  | accepted role client =>
    rw [List.append_nil]
    exact turns_accept _ s role client inv alone
  | locked h sock chunk here free =>
    have now : ActiveAt s h := by rw [ActiveAt, here]; rfl
    have moved := turns_become _ s
      { s.become h (.publisher sock (.broadcasting chunk 0)) with mutex := some h } inv h _ _ here
      rfl (fun _ => rfl) rfl
    have still : ActiveAt
        { s.become h (.publisher sock (.broadcasting chunk 0)) with mutex := some h } h := by
      rw [ActiveAt]
      dsimp only
      rw [become_here s h _ _ here]
      rfl
    rw [broadcasts_append]
    refine ⟨moved.alone, ?_, ?_, ?_⟩
    · intro e he p hp
      rcases List.mem_append.mp he with old | new
      · exact moved.behind e old p hp
      · rw [List.mem_singleton.mp new]
        exact (moved.alone h p still hp).le
    · rw [List.pairwise_append]
      refine ⟨inv.sorted, List.pairwise_singleton _ _, ?_⟩
      intro e he f hf
      rw [List.mem_singleton.mp hf]
      exact inv.behind e he h now
    · intro e he
      rcases List.mem_append.mp he with old | new
      · exact moved.known e old
      · rw [List.mem_singleton.mp new]
        exact activeAt_publisher _ h still
  | skipped h chunk =>
    rw [List.append_nil]
    exact inv
  | registered h sock here free =>
    exact turns_silent trace _ s _ inv h _ _ here rfl (fun on => by cases on) rfl rfl
  | received h sock chunk here =>
    exact turns_silent trace _ s _ inv h _ _ here rfl (fun _ => rfl) rfl rfl
  | ended h sock here =>
    exact turns_silent trace _ s _ inv h _ _ here rfl (fun on => by cases on) rfl rfl
  | left h sock here =>
    exact turns_silent trace _ s _ inv h _ _ here rfl (fun on => by cases on) rfl rfl
  | unregistered h sock here free =>
    exact turns_silent trace _ s _ inv h _ _ here rfl (fun on => by cases on) rfl rfl
  | sent h sock chunk i here inside =>
    exact turns_silent trace _ s _ inv h _ _ here rfl (fun _ => rfl) rfl rfl
  | unlocked h sock chunk i here done =>
    exact turns_silent trace _ s _ inv h _ _ here rfl (fun _ => rfl) rfl rfl
  | closedSubscriber h sock here =>
    exact turns_silent trace _ s _ inv h _ _ here rfl (fun on => by cases on) rfl rfl
  | closedPublisher h sock here =>
    exact turns_silent trace _ s _ inv h _ _ here rfl (fun on => by cases on) rfl rfl

theorem turns_run (schedule : List Act) (final : State) (trace : List Event)
    (run : exec step State.initial schedule = some (final, trace))
    (alone : Along step OneAtATime State.initial schedule) : Turns (broadcasts trace) final := by
  have start : Turns (broadcasts []) State.initial := by
    refine ⟨?_, ?_, .nil, ?_⟩
    · intro p q now
      cases now
    · intro x mem
      cases mem
    · intro x mem
      cases mem
  have whole := exec_invariant_along step OneAtATime (fun trace s => Turns (broadcasts trace) s)
    (fun trace s a next events inv here taken =>
      turns_step trace s next a events inv here (step_moves s next a events taken))
    schedule [] State.initial final trace start alone run
  simpa using whole

/-- When all publishers are gone, nothing is owed or held any more. -/
theorem settled (s : State) (gone : ∀ x ∈ s.handlers, active x = false) (h p : Nat) :
    owed s h = [] ∧ holding s p = [] := by
  have noLoop : ∀ k : Nat, s.handlers[k]?.bind loop = none := by
    intro k
    cases here : s.handlers[k]? with
    | none => rfl
    | some x =>
      have idle := gone x (List.mem_of_getElem? here)
      rw [Option.bind_some]
      unfold loop
      split
      · cases idle
      · rfl
  have flight : inFlight s = none := by
    unfold inFlight
    split
    · rfl
    · rw [noLoop, Option.map_none]
  constructor
  · rw [owed, flight]
  · rw [holding]
    cases here : s.handlers[p]? with
    | none => rfl
    | some x =>
      have idle := gone x (List.mem_of_getElem? here)
      rw [Option.bind_some]
      unfold held
      split
      · cases idle
      · rfl

/-- A subscriber registered throughout is sent the streams of the publishers, one behind
the other. -/
theorem sent_streams (schedule : List Act) (final : State) (trace : List Event)
    (run : exec step State.initial schedule = some (final, trace))
    (fresh : Along step FreshAccept State.initial schedule)
    (alone : Along step OneAtATime State.initial schedule)
    (gone : ∀ x ∈ final.handlers, active x = false) (h : Nat) (throughout : Throughout h trace) :
    (sentTo h trace).flatMap Prod.snd = (publisherStreams final trace).flatten := by
  have inv := upToOverflow_run schedule final trace run fresh
  have turns := turns_run schedule final trace run alone
  have whole := sentTo_throughout trace final inv.blocks h throughout
  rw [(settled final gone h 0).1, List.append_nil] at whole
  have order : (publishers final).Pairwise (· < ·) := List.pairwise_lt_range.filter _
  have groups := flatMap_filter_sorted (publishers final) (broadcasts trace) order turns.sorted
    turns.known
  have own : ∀ p, (broadcasts trace).filter (fun x => x.1 = p) = receivedBy p trace := by
    intro p
    have part := inv.forwarded p
    rwa [(settled final gone h p).2, List.append_nil] at part
  calc
    (sentTo h trace).flatMap Prod.snd
        = ((publishers final).flatMap fun p =>
            (broadcasts trace).filter fun x => x.1 = p).flatMap Prod.snd := by rw [whole, groups]
    _ = (publishers final).flatMap fun p => (receivedBy p trace).flatMap Prod.snd := by
        rw [List.flatMap_assoc]
        simp only [own]
    _ = (publisherStreams final trace).flatten := by
        rw [publisherStreams, ← List.flatMap_def]

/-- A run of broker_tcp.c in which the publishers come one after another and all have
ended; `streams` is what they sent. -/
structure ThreadedRun (streams : List Bytes) where
  schedule : List Act
  final : State
  trace : List Event
  run : exec step State.initial schedule = some (final, trace)
  fresh : Along step FreshAccept State.initial schedule
  alone : Along step OneAtATime State.initial schedule
  gone : ∀ x ∈ final.handlers, active x = false
  received : publisherStreams final trace = streams

end Threaded

section Assembly

open AsmBroker

/-- What `sendto` was given for a descriptor. -/
def bytesTo (sock : Int) (trace : List Event) : Bytes :=
  trace.flatMap fun
    | (.sendto dest data, _) => if dest = sock then data else []
    | _ => []

/-- What `recvfrom` stored. -/
def receivedBytes (trace : List Event) : Bytes :=
  trace.flatMap fun
    | (_, .filled chunk) => chunk
    | _ => []

/-- An accepted publisher begins a stream, a chunk extends the last one. -/
def extend (sockPub : Int) (streams : List Bytes) : Event → List Bytes
  | (_, .filled chunk) => streams.dropLast ++ [streams.getLastD [] ++ chunk]
  | (.accept sock, .value _) => if sock = sockPub then streams ++ [[]] else streams
  | _ => streams

/-- What `recvfrom` has stored for each publisher, put together. -/
def asmStreams (sockPub : Int) (trace : List Event) : List Bytes :=
  trace.foldl (extend sockPub) []

theorem flatten_extend (sockPub : Int) (streams : List Bytes) (e : Event) :
    (extend sockPub streams e).flatten = streams.flatten ++ receivedBytes [e] := by
  obtain ⟨call, answer⟩ := e
  cases answer with
  | filled chunk =>
    rcases List.eq_nil_or_concat streams with rfl | ⟨init, last, rfl⟩
    · simp [extend, receivedBytes]
    · simp [extend, receivedBytes]
  | value rax =>
    cases call with
    | accept sock =>
      by_cases same : sock = sockPub <;> simp [extend, receivedBytes, same]
    | write text => simp [extend, receivedBytes]
    | recvfrom sock len => simp [extend, receivedBytes]
    | sendto sock data => simp [extend, receivedBytes]
    | close sock => simp [extend, receivedBytes]

theorem receivedBytes_append (a b : List Event) :
    receivedBytes (a ++ b) = receivedBytes a ++ receivedBytes b := List.flatMap_append

theorem bytesTo_append (sock : Int) (a b : List Event) :
    bytesTo sock (a ++ b) = bytesTo sock a ++ bytesTo sock b := List.flatMap_append

/-- The streams put together are all that was received. -/
theorem flatten_asmStreams (sockPub : Int) (trace : List Event) :
    (asmStreams sockPub trace).flatten = receivedBytes trace := by
  induction trace using List.reverseRecOn with
  | nil => rfl
  | append_singleton before e ih =>
    rw [asmStreams, List.foldl_append, List.foldl_cons, List.foldl_nil, flatten_extend,
      receivedBytes_append, ← ih, asmStreams]

/-- Before both subscribers are stored. -/
def collecting (s : State) : Bool :=
  s.pc = .listo || s.pc = .loopSubs || s.pc = .subOk

/-- What `.loop_broadcast` has still to send to entry `i`. -/
def pending (s : State) (i : Nat) : Bytes :=
  if s.pc = .loopBroadcast ∧ s.r12 ≤ i then s.buffer.take s.bytesRecv else []

/-- The two entries hold different descriptors. -/
def Distinct (s : State) : Prop := s.subSocks[0]? ≠ s.subSocks[1]?

instance (s : State) : Decidable (Distinct s) := inferInstanceAs (Decidable (_ ≠ _))

theorem Distinct.index {s : State} (distinct : Distinct s) {i j : Nat} {sock : Int} (hi : i < 2)
    (hj : j < 2) (atI : s.subSocks[i]? = some sock) (atJ : s.subSocks[j]? = some sock) :
    i = j := by
  rcases Nat.le_one_iff_eq_zero_or_eq_one.mp (Nat.le_of_lt_succ hi) with rfl | rfl
  · rcases Nat.le_one_iff_eq_zero_or_eq_one.mp (Nat.le_of_lt_succ hj) with rfl | rfl
    · rfl
    · exact absurd (atI.trans atJ.symm) distinct
  · rcases Nat.le_one_iff_eq_zero_or_eq_one.mp (Nat.le_of_lt_succ hj) with rfl | rfl
    · exact absurd (atJ.trans atI.symm) distinct
    · rfl

/-- The position of the loops against what was received and sent. -/
structure Relayed (trace : List Event) (s : State) : Prop where
  few : s.numSubs ≤ 2
  room : s.pc = .loopSubs → s.numSubs < 2
  inside : s.pc = .loopBroadcast → s.r12 < s.numSubs
  early : collecting s = true → receivedBytes trace = [] ∧ ∀ sock, bytesTo sock trace = []
  both : collecting s = false → s.numSubs = 2
  relayed : collecting s = false → Distinct s → ∀ i sock, i < 2 → s.subSocks[i]? = some sock →
    bytesTo sock trace ++ pending s i = receivedBytes trace

/-- The call neither receives nor sends. -/
def Quiet (e : Event) : Prop := receivedBytes [e] = [] ∧ ∀ sock, bytesTo sock [e] = []

theorem quiet_write (text : Bytes) (rax : Int) : Quiet (.write text, .value rax) :=
  ⟨rfl, fun _ => rfl⟩

theorem quiet_accept (sock rax : Int) : Quiet (.accept sock, .value rax) :=
  ⟨rfl, fun _ => rfl⟩

/-- Nothing was received and nothing sent. -/
def Untouched (trace : List Event) : Prop :=
  receivedBytes trace = [] ∧ ∀ sock, bytesTo sock trace = []

theorem Untouched.quiet {trace : List Event} {e : Event} (nothing : Untouched trace)
    (quiet : Quiet e) : Untouched (trace ++ [e]) := by
  constructor
  · rw [receivedBytes_append, nothing.1, quiet.1, List.append_nil]
  · intro sock
    rw [bytesTo_append, nothing.2 sock, quiet.2 sock, List.append_nil]

/-- Before that, nothing has happened yet. -/
theorem relayed_of_collecting (trace : List Event) (s : State) (few : s.numSubs ≤ 2)
    (room : s.pc = .loopSubs → s.numSubs < 2) (still : collecting s = true)
    (nothing : Untouched trace) : Relayed trace s where
  few := few
  room := room
  inside := by
    intro here
    simp [collecting, here] at still
  early := fun _ => nothing
  both := by
    intro done
    rw [still] at done
    cases done
  relayed := by
    intro done
    rw [still] at done
    cases done

/-- Once both subscribers are stored, only the loop and the bytes matter. -/
theorem relayed_of_done (trace : List Event) (s : State) (two : s.numSubs = 2)
    (done : collecting s = false) (inside : s.pc = .loopBroadcast → s.r12 < s.numSubs)
    (relayed : Distinct s → ∀ i sock, i < 2 → s.subSocks[i]? = some sock →
      bytesTo sock trace ++ pending s i = receivedBytes trace) : Relayed trace s where
  few := two.le
  room := by
    intro here
    simp [collecting, here] at done
  inside := inside
  early := by
    intro still
    rw [done] at still
    cases still
  both := fun _ => two
  relayed := fun _ => relayed

/-- Between broadcasts a quiet call changes nothing that counts. -/
theorem relayed_quiet (trace : List Event) (s next : State) (e : Event) (inv : Relayed trace s)
    (quiet : Quiet e) (subs : next.numSubs = s.numSubs) (socks : next.subSocks = s.subSocks)
    (done : collecting s = false) (idle : s.pc ≠ .loopBroadcast) (done' : collecting next = false)
    (idle' : next.pc ≠ .loopBroadcast) : Relayed (trace ++ [e]) next := by
  apply relayed_of_done _ next (subs.trans (inv.both done)) done' fun here => absurd here idle'
  intro distinct i sock hi here
  unfold Distinct at distinct
  rw [socks] at distinct here
  have before := inv.relayed done distinct i sock hi here
  have none : pending s i = [] := if_neg fun both => idle both.1
  have none' : pending next i = [] := if_neg fun both => idle' both.1
  rw [none, List.append_nil] at before
  rw [receivedBytes_append, bytesTo_append, quiet.1, quiet.2 sock, none', before]
  simp

/-- The turn of `.loop_subs`: one more `accept`, or both subscribers are stored. -/
theorem relayed_loopSubs (trace : List Event) (s : State) (e : Event) (inv : Relayed trace s)
    (quiet : Quiet e) (still : collecting s = true) : Relayed (trace ++ [e]) s.loopSubs := by
  have nothing : Untouched (trace ++ [e]) := Untouched.quiet (inv.early still) quiet
  by_cases full : s.numSubs ≥ 2
  · have done : collecting s.loopSubs = false := by simp [State.loopSubs, collecting, full]
    refine relayed_of_done _ s.loopSubs (Nat.le_antisymm inv.few full) done ?_ ?_
    · simp [State.loopSubs, full]
    · intro _ i sock _ _
      have idle : pending s.loopSubs i = [] := if_neg (by simp [State.loopSubs, full])
      rw [nothing.1, nothing.2 sock, idle, List.append_nil]
  · have still' : collecting s.loopSubs = true := by simp [State.loopSubs, collecting, full]
    exact relayed_of_collecting _ s.loopSubs inv.few (fun _ => Nat.not_le.mp full) still' nothing

/-- A chunk is received, and the loop over the two entries begins. -/
theorem relayed_received (trace : List Event) (s : State) (chunk : Bytes)
    (fits : chunk.length ≤ 1024) (inv : Relayed trace s) (here : s.pc = .loopRecv) :
    Relayed (trace ++ [(.recvfrom s.clientPub 1024, .filled chunk)]) (s.fill chunk fits) := by
  have done : collecting s = false := by simp [collecting, here]
  have two := inv.both done
  have loop : (s.fill chunk fits).pc = .loopBroadcast := by
    simp [State.fill, State.loopBroadcast, two]
  have done' : collecting (s.fill chunk fits) = false := by simp [collecting, loop]
  refine relayed_of_done _ (s.fill chunk fits) two done' (fun _ => ?_) ?_
  · simp [State.fill, State.loopBroadcast, two]
  · intro distinct i sock hi entry
    have before := inv.relayed done distinct i sock hi entry
    have none : pending s i = [] := if_neg (by simp [here])
    have all : pending (s.fill chunk fits) i = chunk := by
      rw [pending, if_pos ⟨loop, by simp [State.fill, State.loopBroadcast]⟩]
      simp [State.fill, State.loopBroadcast]
    rw [none, List.append_nil] at before
    rw [all, receivedBytes_append, bytesTo_append, before]
    simp [bytesTo, receivedBytes]

/-- One `sendto` of the loop. -/
theorem relayed_sent (trace : List Event) (s : State) (rax : Int) (inv : Relayed trace s)
    (here : s.pc = .loopBroadcast) :
    Relayed (trace ++
        [(.sendto (s.subSocks.getD s.r12 0) (s.buffer.take s.bytesRecv), .value rax)])
      (State.loopBroadcast { s with r12 := s.r12 + 1 }) := by
  have done : collecting s = false := by simp [collecting, here]
  have two := inv.both done
  have index := inv.inside here
  have done' : collecting (State.loopBroadcast { s with r12 := s.r12 + 1 }) = false := by
    simp only [State.loopBroadcast, collecting]
    split <;> rfl
  refine relayed_of_done _ (State.loopBroadcast { s with r12 := s.r12 + 1 }) two done' ?_ ?_
  · simp only [State.loopBroadcast]
    split
    · intro other
      cases other
    · next more => exact fun _ => Nat.not_le.mp more
  · intro distinct i sock hi entry
    have before := inv.relayed done distinct i sock hi entry
    have current : s.subSocks[s.r12]? = some (s.subSocks.getD s.r12 0) := by
      have size := s.socks_size
      rw [List.getD_eq_getElem?_getD, List.getElem?_eq_getElem (by omega), Option.getD_some]
    have quiet : receivedBytes
        [(.sendto (s.subSocks.getD s.r12 0) (s.buffer.take s.bytesRecv), .value rax)] = [] := rfl
    rw [receivedBytes_append, bytesTo_append, quiet, List.append_nil, ← before]
    by_cases turn : s.r12 = i
    · -- the entry whose turn it is
      have own : s.subSocks.getD s.r12 0 = sock := by
        have entry' : s.subSocks[s.r12]? = some sock := turn ▸ entry
        exact Option.some.inj (current.symm.trans entry')
      have was : pending s i = s.buffer.take s.bytesRecv := if_pos ⟨here, turn.le⟩
      have none : pending (State.loopBroadcast { s with r12 := s.r12 + 1 }) i = [] :=
        if_neg fun both => by
          have later : s.r12 + 1 ≤ i := both.2
          omega
      rw [was, none, own]
      simp [bytesTo]
    · have foreign : s.subSocks.getD s.r12 0 ≠ sock := by
        intro same
        rw [same] at current
        exact turn (Distinct.index distinct (by omega) hi current entry)
      have same : pending (State.loopBroadcast { s with r12 := s.r12 + 1 }) i = pending s i := by
        by_cases later : s.r12 + 1 ≤ i
        · have on : (State.loopBroadcast { s with r12 := s.r12 + 1 }).pc = .loopBroadcast := by
            simp only [State.loopBroadcast]
            exact if_neg (by omega)
          rw [pending, pending, if_pos ⟨on, later⟩, if_pos ⟨here, by omega⟩]
          rfl
        · rw [pending, pending, if_neg fun both => later both.2, if_neg fun both => by omega]
      have nothing : bytesTo sock
          [(.sendto (s.subSocks.getD s.r12 0) (s.buffer.take s.bytesRecv), .value rax)] = [] := by
        simp only [bytesTo, List.flatMap_cons, List.flatMap_nil, List.append_nil, if_neg foreign]
      rw [same, nothing, List.append_nil]

theorem relayed_step (trace : List Event) (s next : State) (e : Event) (inv : Relayed trace s)
    (moves : Moves s next e) : Relayed (trace ++ [e]) next := by
  cases moves with
  | ready rax here =>
    exact relayed_loopSubs trace s _ inv (quiet_write _ rax) (by simp [collecting, here])
  | next rax here =>
    exact relayed_loopSubs trace s _ inv (quiet_write _ rax) (by simp [collecting, here])
  | stored rax here =>
    have nothing : Untouched trace := inv.early (by simp [collecting, here])
    exact relayed_of_collecting _ (s.storeSub rax) (inv.room here) (by simp [State.storeSub])
      (by simp [State.storeSub, collecting]) (nothing.quiet (quiet_accept s.sockSub rax))
  | connected rax here =>
    exact relayed_quiet trace s _ _ inv (quiet_accept _ rax) rfl rfl (by simp [collecting, here])
      (by simp [here]) rfl (by simp)
  | shown rax here =>
    exact relayed_quiet trace s _ _ inv (quiet_write _ rax) rfl rfl (by simp [collecting, here])
      (by simp [here]) rfl (by simp)
  | received chunk here fits => exact relayed_received trace s chunk fits inv here
  | ended rax here off =>
    exact relayed_quiet trace s _ _ inv ⟨rfl, fun _ => rfl⟩ rfl rfl (by simp [collecting, here])
      (by simp [here]) rfl (by simp)
  | sent rax here => exact relayed_sent trace s rax inv here
  | forwarded rax here =>
    exact relayed_quiet trace s _ _ inv (quiet_write _ rax) rfl rfl (by simp [collecting, here])
      (by simp [here]) rfl (by simp)
  | off rax here =>
    exact relayed_quiet trace s _ _ inv (quiet_write _ rax) rfl rfl (by simp [collecting, here])
      (by simp [here]) rfl (by simp)
  | closed rax here =>
    exact relayed_quiet trace s _ _ inv ⟨rfl, fun _ => rfl⟩ rfl rfl (by simp [collecting, here])
      (by simp [here]) rfl (by simp)

theorem relayed_initial (sockPub sockSub : Int) : Relayed [] (State.initial sockPub sockSub) :=
  relayed_of_collecting [] _ (Nat.zero_le 2) (fun here => by cases here) rfl ⟨rfl, fun _ => rfl⟩

theorem relayed_run (sockPub sockSub : Int) (answers : List Answer) (final : State)
    (trace : List Event)
    (run : exec asmBroker (State.initial sockPub sockSub) answers = some (final, trace)) :
    Relayed trace final :=
  exec_invariant asmBroker Relayed
    (fun trace s a next events inv taken => by
      obtain ⟨e, rfl, moves⟩ := step_moves s next a events taken
      exact relayed_step trace s next e inv moves)
    answers _ final trace (relayed_initial sockPub sockSub) run

/-- A run of broker_tcp.asm that waits for another publisher; `streams` is what the
publishers so far sent. The kernel has given the two subscribers different
descriptors. -/
structure AsmRun (streams : List Bytes) where
  sockPub : Int
  sockSub : Int
  answers : List Answer
  final : State
  trace : List Event
  run : exec asmBroker (State.initial sockPub sockSub) answers = some (final, trace)
  waiting : final.pc = .esperarPublisher
  distinct : Distinct final
  received : asmStreams sockPub trace = streams

/-- Both entries are sent the streams, one behind the other. -/
theorem AsmRun.sent {streams : List Bytes} (m : AsmRun streams) :
    m.final.numSubs = 2 ∧ ∀ i sock, i < 2 → m.final.subSocks[i]? = some sock →
      bytesTo sock m.trace = streams.flatten := by
  have inv := relayed_run m.sockPub m.sockSub m.answers m.final m.trace m.run
  have done : collecting m.final = false := by simp [collecting, m.waiting]
  refine ⟨inv.both done, ?_⟩
  intro i sock hi entry
  have whole := inv.relayed done m.distinct i sock hi entry
  have none : pending m.final i = [] := if_neg (by simp [m.waiting])
  rw [none, List.append_nil] at whole
  have all := flatten_asmStreams m.sockPub m.trace
  rw [m.received] at all
  rw [whole, all]

end Assembly

/-- Both brokers send a subscriber exactly the streams of the publishers, one behind the
other, however `recv` cuts them for the one and for the other. -/
theorem brokers_send_same (streams : List Bytes) (c : ThreadedRun streams) (m : AsmRun streams)
    (h : Nat) (throughout : Integrity.Throughout h c.trace) :
    (Delivery.sentTo h c.trace).flatMap Prod.snd = streams.flatten ∧
      m.final.numSubs = 2 ∧ ∀ i sock, i < 2 → m.final.subSocks[i]? = some sock →
        bytesTo sock m.trace = streams.flatten := by
  have threaded := sent_streams c.schedule c.final c.trace c.run c.fresh c.alone c.gone h throughout
  rw [c.received] at threaded
  exact ⟨threaded, m.sent⟩

/-- Two publishers, with a NUL in a stream, cut in two ways. -/
def sampleStreams : List Bytes := [ascii "GOL", [70, 0, 78]]

def threadedSchedule : List Broker.Act :=
  [.accept .subscriber 5, .accept .subscriber 6, .register 0, .register 1, .accept .publisher 7,
    .recv 2 (ascii "GO"), .lock 2, .sendNext 2, .sendNext 2, .unlock 2,
    .recv 2 (ascii "L"), .lock 2, .sendNext 2, .sendNext 2, .unlock 2, .recvEnds 2,
    .accept .publisher 8, .recv 3 [70, 0, 78], .close 2, .lock 3, .sendNext 3, .sendNext 3,
    .unlock 3, .recvEnds 3]

def threadedSample : ThreadedRun sampleStreams where
  schedule := threadedSchedule
  final := ((exec Broker.step Broker.State.initial threadedSchedule).getD
    (Broker.State.initial, [])).1
  trace := ((exec Broker.step Broker.State.initial threadedSchedule).getD
    (Broker.State.initial, [])).2
  run := by decide +kernel
  fresh := by decide +kernel
  alone := by decide +kernel
  gone := by decide +kernel
  received := by decide +kernel

def asmAnswers : List AsmBroker.Answer :=
  [.value 41, .value 5, .value 31, .value 6, .value 31, .value 7, .value 53,
    .filled (ascii "GOL"), .value 3, .value 3, .value 42, .value 0, .value 33, .value 0,
    .value 7, .value 53, .filled [70], .value 1, .value 1, .value 42,
    .filled [0, 78], .value 2, .value 2, .value 42, .value 0, .value 33, .value 0]

def asmSample : AsmRun sampleStreams where
  sockPub := 3
  sockSub := 4
  answers := asmAnswers
  final := ((exec AsmBroker.asmBroker (AsmBroker.State.initial 3 4) asmAnswers).getD
    (AsmBroker.State.initial 3 4, [])).1
  trace := ((exec AsmBroker.asmBroker (AsmBroker.State.initial 3 4) asmAnswers).getD
    (AsmBroker.State.initial 3 4, [])).2
  run := by decide +kernel
  waiting := by decide +kernel
  distinct := by decide +kernel
  received := by decide +kernel

theorem brokers_send_same_sample :
    (Delivery.sentTo 1 threadedSample.trace).flatMap Prod.snd = sampleStreams.flatten ∧
      asmSample.final.numSubs = 2 ∧ ∀ i sock, i < 2 → asmSample.final.subSocks[i]? = some sock →
        bytesTo sock asmSample.trace = sampleStreams.flatten :=
  brokers_send_same sampleStreams threadedSample asmSample 1
    ⟨by decide +kernel, by decide +kernel⟩

end SportsPubSub.Tcp.Streams
