import Mathlib.Data.List.Infix
import SportsPubSub.Tcp.Descriptors

/-!
# What each TCP subscriber is sent

The mutex puts all broadcasts into one global sequence. For every handler, what
was passed to `send` for its connection, followed by what the broadcast in
progress still owes it, is the block of that sequence between its registration
and its removal. Removals reorder the array only between broadcasts, so the
index loop meets every live subscriber exactly once.
-/
namespace SportsPubSub.Tcp.Delivery
open Lib.Posix Lib.Reactive Lib.UnorderedTable Broker Bounds Descriptors

/-- The global sequence of broadcasts: who sends what. -/
def broadcasts (trace : List Event) : List (Nat × Bytes) :=
  trace.filterMap fun
    | .begun h chunk => some (h, chunk)
    | _ => none

/-- What is passed to `send` for the connection of `h`. -/
def sentTo (h : Nat) (trace : List Event) : List (Nat × Bytes) :=
  trace.filterMap fun
    | .sent sender _ _ dest chunk => if dest = some h then some (sender, chunk) else none
    | _ => none

/-- What `recv` gave the publisher `p`. -/
def receivedBy (p : Nat) (trace : List Event) : List (Nat × Bytes) :=
  trace.filterMap fun
    | .received h chunk => if h = p then some (h, chunk) else none
    | _ => none

/-- Number of broadcasts before the registration of `h`. -/
def start (h : Nat) (trace : List Event) : Nat :=
  (broadcasts (upTo (isRegistration h) trace)).length

/-- The broadcasts between the registration of `h` and its removal. -/
def block (h : Nat) (trace : List Event) : List (Nat × Bytes) :=
  (broadcasts (upTo (isRemoval h) trace)).drop (start h trace)

/-- The loop of `broadcast` that a handler is in. -/
def loop : Handler → Option (Bytes × Nat)
  | .publisher _ (.broadcasting chunk i) => some (chunk, i)
  | _ => none

/-- The chunk that a handler has received and not yet begun to broadcast. -/
def held : Handler → Option Bytes
  | .publisher _ (.holding chunk) => some chunk
  | _ => none

/-- The broadcast in progress, with its sender and its index. -/
def inFlight (s : State) : Option (Nat × Bytes × Nat) :=
  match s.mutex with
  | none => none
  | some b => (s.handlers[b]?.bind loop).map fun x => (b, x)

/-- What the broadcast in progress has still to pass to `send` for `h`. -/
def owed (s : State) (h : Nat) : List (Nat × Bytes) :=
  match inFlight s with
  | none => []
  | some (b, chunk, i) =>
      if some h ∈ (s.table.connected.drop i).map s.connection then [(b, chunk)] else []

/-- What publisher `p` has received and not yet begun to broadcast. -/
def holding (s : State) (p : Nat) : List (Nat × Bytes) :=
  (s.handlers[p]?.bind held).toList.map fun chunk => (p, chunk)

theorem broadcasts_append (a b : List Event) :
    broadcasts (a ++ b) = broadcasts a ++ broadcasts b := List.filterMap_append

theorem sentTo_append (h : Nat) (a b : List Event) :
    sentTo h (a ++ b) = sentTo h a ++ sentTo h b := List.filterMap_append

theorem receivedBy_append (p : Nat) (a b : List Event) :
    receivedBy p (a ++ b) = receivedBy p a ++ receivedBy p b := List.filterMap_append

theorem start_le (h : Nat) (trace : List Event) :
    start h trace ≤ (broadcasts trace).length := by
  have whole : trace = upTo (isRegistration h) trace ++
      trace.dropWhile fun e => !isRegistration h e := List.takeWhile_append_dropWhile.symm
  unfold start
  conv_rhs => rw [whole, broadcasts_append, List.length_append]
  omega

/-- How the block of `h` grows: by every broadcast while `h` is live. -/
theorem block_append (h : Nat) (trace events : List Event)
    (registeredFirst : trace.any (isRemoval h) = true → trace.any (isRegistration h) = true)
    (noRegistration : events.any (isRegistration h) = false)
    (noRemoval : events.any (isRemoval h) = false) :
    block h (trace ++ events) =
      block h trace ++ if tracePhase h trace = .during then broadcasts events else [] := by
  unfold block start
  by_cases removed : trace.any (isRemoval h) = true
  · have registered := registeredFirst removed
    rw [upTo_append_of_present _ _ _ removed, upTo_append_of_present _ _ _ registered]
    simp [tracePhase, removed]
  · rw [Bool.not_eq_true] at removed
    have whole : (trace ++ events).any (isRemoval h) = false := by
      rw [List.any_append, removed, noRemoval]
      rfl
    rw [upTo_of_absent _ _ whole, upTo_of_absent _ _ removed]
    by_cases registered : trace.any (isRegistration h) = true
    · have le := start_le h trace
      unfold start at le
      rw [upTo_append_of_present _ _ _ registered, broadcasts_append,
        List.drop_append_of_le_length le]
      simp [tracePhase, removed, registered]
    · rw [Bool.not_eq_true] at registered
      have never : (trace ++ events).any (isRegistration h) = false := by
        rw [List.any_append, registered, noRegistration]
        rfl
      rw [upTo_of_absent _ _ never, upTo_of_absent _ _ registered]
      simp [tracePhase, removed, registered]

/-- Events that neither broadcast nor belong to a section of `h`. -/
theorem block_silent (h : Nat) (trace events : List Event)
    (registeredFirst : trace.any (isRemoval h) = true → trace.any (isRegistration h) = true)
    (noRegistration : events.any (isRegistration h) = false)
    (noRemoval : events.any (isRemoval h) = false) (silent : broadcasts events = []) :
    block h (trace ++ events) = block h trace := by
  rw [block_append h trace events registeredFirst noRegistration noRemoval, silent, ite_self,
    List.append_nil]

/-- A registration opens an empty block. -/
theorem block_registered (h : Nat) (sock : Int) (index : Nat) (trace : List Event)
    (unborn : tracePhase h trace = .before) :
    block h (trace ++ [.registered h sock index]) = block h trace := by
  obtain ⟨noRegistration, noRemoval⟩ := tracePhase_before h trace unborn
  unfold block start
  rw [upTo_append_of_absent _ _ _ noRegistration, upTo_append_of_absent _ _ _ noRemoval,
    upTo_of_absent _ _ noRegistration, upTo_of_absent _ _ noRemoval]
  simp [upTo, isRegistration, isRemoval, broadcasts]

/-- A removal freezes the block. -/
theorem block_unregistered (h : Nat) (indices : List Nat) (trace : List Event)
    (live : tracePhase h trace = .during) :
    block h (trace ++ [.unregistered h indices]) = block h trace := by
  obtain ⟨registration, noRemoval⟩ := tracePhase_during h trace live
  unfold block start
  rw [upTo_append_of_present _ _ _ registration, upTo_append_of_absent _ _ _ noRemoval,
    upTo_of_absent _ _ noRemoval]
  simp [upTo, isRemoval]

/-- A live subscriber is reached through its descriptor. -/
theorem connection_live (trace : List Event) (s : State) (inv : Coupled trace s) (h : Nat)
    (sock : Int) (live : Live trace h sock) : s.connection sock = some h := by
  obtain ⟨x, here, listed⟩ := (inv.live_iff h sock).mpr live
  exact findIdx?_owner Handler.openSock s.handlers inv.distinct h x sock here
    (listed_open x sock listed).1

/-- Which handlers a part of the array reaches is a matter of the past alone. -/
theorem reached_iff (trace : List Event) (s : State) (inv : Coupled trace s) (h : Nat)
    (socks : List Int) (part : ∀ sock ∈ socks, sock ∈ s.table.connected) :
    some h ∈ socks.map s.connection ↔ ∃ sock ∈ socks, Live trace h sock := by
  constructor
  · intro reached
    obtain ⟨sock, mem, connection⟩ := List.mem_map.mp reached
    obtain ⟨h', stage, found, connection', during⟩ := inv.owner sock (part sock mem)
    have same : h' = h := by
      rw [connection, Option.some.injEq] at connection'
      exact connection'.symm
    subst same
    rw [phaseOf, found] at during
    exact ⟨sock, mem, (inv.live_iff h' sock).mp ⟨_, found, listed_of_during sock stage during⟩⟩
  · rintro ⟨sock, mem, live⟩
    exact List.mem_map.mpr ⟨sock, mem, connection_live trace s inv h sock live⟩

/-- The whole array reaches exactly the live handlers. -/
theorem reached_all (trace : List Event) (s : State) (inv : Coupled trace s) (h : Nat) :
    some h ∈ s.table.connected.map s.connection ↔ tracePhase h trace = .during := by
  rw [reached_iff trace s inv h _ fun _ mem => mem]
  constructor
  · rintro ⟨sock, -, live⟩
    obtain ⟨x, here, listed⟩ := (inv.live_iff h sock).mpr live
    rw [← inv.phases h, phaseOf, here]
    exact (listed_iff_during x).mp (by rw [listed]; rfl)
  · intro during
    rw [← inv.phases h, phaseOf] at during
    split at during
    · cases during
    · next x here =>
      obtain ⟨sock, listed⟩ := Option.isSome_iff_exists.mp ((listed_iff_during x).mpr during)
      refine ⟨sock, ?_, (inv.live_iff h sock).mp ⟨x, here, listed⟩⟩
      exact inv.table.content.symm.subset (mem_keys Handler.listed s.handlers h x sock here listed)

/-- No connection is reached through two places of the array. -/
theorem connections_nodup (trace : List Event) (s : State) (inv : Coupled trace s) :
    (s.table.connected.map s.connection).Nodup := by
  have distinct : s.table.connected.Nodup := inv.table.content.nodup_iff.mpr inv.nodup
  apply distinct.map_on
  intro a ha b hb same
  obtain ⟨h, stage, found, connection, -⟩ := inv.owner a ha
  obtain ⟨h', stage', found', connection', -⟩ := inv.owner b hb
  rw [connection, connection', Option.some.injEq] at same
  subst same
  rw [found, Option.some.injEq, Handler.subscriber.injEq] at found'
  exact found'.1

theorem live_quiet (trace events : List Event) (quiet : Quiet events) (h : Nat) (sock : Int) :
    Live (trace ++ events) h sock ↔ Live trace h sock := by
  have noRegistration : ∀ index, Event.registered h sock index ∉ events := by
    intro index mem
    have no := List.any_eq_false.mp (quiet h).1 _ mem
    simp [isRegistration] at no
  have noRemoval : ∀ indices, Event.unregistered h indices ∉ events := by
    intro indices mem
    have no := List.any_eq_false.mp (quiet h).2 _ mem
    simp [isRemoval] at no
  simp [Live, noRegistration, noRemoval]

/-- A step between two sections reaches the same handlers through the same
numbers. -/
theorem reached_same (trace events : List Event) (s next : State) (inv : Coupled trace s)
    (inv' : Coupled (trace ++ events) next) (quiet : Quiet events) (table : next.table = s.table)
    (h : Nat) (socks : List Int) (part : ∀ sock ∈ socks, sock ∈ s.table.connected) :
    some h ∈ socks.map next.connection ↔ some h ∈ socks.map s.connection := by
  rw [reached_iff _ next inv' h socks (by rw [table]; exact part),
    reached_iff trace s inv h socks part]
  simp only [live_quiet trace events quiet]

/-- The broadcast in progress owes the same to everybody as long as neither the
array nor its index changes. -/
theorem owed_same (trace events : List Event) (s next : State) (inv : Coupled trace s)
    (inv' : Coupled (trace ++ events) next) (quiet : Quiet events) (table : next.table = s.table)
    (same : inFlight next = inFlight s) (h : Nat) : owed next h = owed s h := by
  unfold owed
  rw [same, table]
  split
  · rfl
  · next b chunk i _ =>
    simp only [reached_same trace events s next inv inv' quiet table h _
      fun _ mem => List.mem_of_mem_drop mem]

theorem inFlight_free (s : State) (free : s.mutex = none) : inFlight s = none := by
  rw [inFlight, free]

theorem owed_free (s : State) (free : s.mutex = none) (h : Nat) : owed s h = [] := by
  rw [owed, inFlight_free s free]

theorem owed_inFlight (s : State) (b : Nat) (chunk : Bytes) (i : Nat)
    (flight : inFlight s = some (b, chunk, i)) (h : Nat) :
    owed s h =
      if some h ∈ (s.table.connected.drop i).map s.connection then [(b, chunk)] else [] := by
  rw [owed, flight]

/-- Nothing is owed to a handler that is not live. -/
theorem owed_not_live (trace : List Event) (s : State) (inv : Coupled trace s) (h : Nat)
    (gone : tracePhase h trace ≠ .during) : owed s h = [] := by
  unfold owed
  split
  · rfl
  · next b chunk i _ =>
    rw [if_neg]
    intro reached
    apply gone
    rw [← reached_all trace s inv h]
    rw [List.map_drop] at reached
    exact List.mem_of_mem_drop reached

theorem become_view {β : Type} (f : Handler → Option β) (s : State) (h : Nat) (x y : Handler)
    (here : s.handlers[h]? = some x) (same : f y = f x) (k : Nat) :
    (s.become h y).handlers[k]?.bind f = s.handlers[k]?.bind f := by
  by_cases equal : k = h
  · rw [equal, become_here s h x y here, here, Option.bind_some, Option.bind_some, same]
  · rw [become_other s h k y equal]

theorem accept_view {β : Type} (f : Handler → Option β) (s : State) (role : Role) (client : Int)
    (silent : f (role.handler client) = none) (k : Nat) :
    (s.accept role client).handlers[k]?.bind f = s.handlers[k]?.bind f := by
  rcases handlers_accept s role client k with same | ⟨absent, new⟩
  · rw [same]
  · rw [absent, new, Option.bind_some, silent, Option.bind_none]

theorem new_not_looping (role : Role) (client : Int) : loop (role.handler client) = none := by
  cases role with
  | subscriber => rfl
  | publisher => rfl

theorem new_not_holding (role : Role) (client : Int) : held (role.handler client) = none := by
  cases role with
  | subscriber => rfl
  | publisher => rfl

/-- Only the holder of the mutex is inside the loop of `broadcast`. -/
def Exclusive (s : State) : Prop :=
  ∀ h x, s.handlers[h]?.bind loop = some x → s.mutex = some h

theorem exclusive_same (s next : State) (inv : Exclusive s)
    (view : ∀ k : Nat, next.handlers[k]?.bind loop = s.handlers[k]?.bind loop)
    (mutex : next.mutex = s.mutex) : Exclusive next := by
  intro k x inLoop
  rw [mutex]
  exact inv k x (view k ▸ inLoop)

theorem exclusive_step (s next : State) (a : Act) (events : List Event) (inv : Exclusive s)
    (moves : Moves s a next events) : Exclusive next := by
  cases moves with
  | accepted role client =>
    exact exclusive_same s _ inv (accept_view loop s role client (new_not_looping role client))
      (mutex_accept s role client)
  | registered h sock here free =>
    exact exclusive_same s _ inv (become_view loop s h _ _ here rfl) rfl
  | received h sock chunk here =>
    exact exclusive_same s _ inv (become_view loop s h _ _ here rfl) rfl
  | skipped h chunk => exact inv
  | ended h sock here => exact exclusive_same s _ inv (become_view loop s h _ _ here rfl) rfl
  | left h sock here => exact exclusive_same s _ inv (become_view loop s h _ _ here rfl) rfl
  | unregistered h sock here free =>
    exact exclusive_same s _ inv (become_view loop s h _ _ here rfl) rfl
  | locked h sock chunk here free =>
    intro k x inLoop
    by_cases same : k = h
    · rw [same]
    · have old := become_other s h k (.publisher sock (.broadcasting chunk 0)) same
      have owner := inv k x (old ▸ inLoop)
      rw [free] at owner
      cases owner
  | sent h sock chunk i here inside =>
    have holder := inv h (chunk, i) (by rw [here]; rfl)
    intro k x inLoop
    by_cases same : k = h
    · rw [same]
      exact holder
    · have old := become_other s h k (.publisher sock (.broadcasting chunk (i + 1))) same
      exact inv k x (old ▸ inLoop)
  | unlocked h sock chunk i here done =>
    have holder := inv h (chunk, i) (by rw [here]; rfl)
    intro k x inLoop
    by_cases same : k = h
    · have now := become_here s h _ (.publisher sock .receiving) here
      rw [same] at inLoop
      dsimp only at inLoop
      rw [now] at inLoop
      cases inLoop
    · have old := become_other s h k (.publisher sock .receiving) same
      have owner := inv k x (old ▸ inLoop)
      rw [holder, Option.some.injEq] at owner
      exact absurd owner.symm same
  | closedSubscriber h sock here =>
    exact exclusive_same s _ inv (become_view loop s h _ _ here rfl) rfl
  | closedPublisher h sock here =>
    exact exclusive_same s _ inv (become_view loop s h _ _ here rfl) rfl

/-- The publisher side: what was received is broadcast in that order, but for
the chunk still in hand. -/
def Forwarded (trace : List Event) (s : State) : Prop :=
  ∀ p, (broadcasts trace).filter (fun x => x.1 = p) ++ holding s p = receivedBy p trace

theorem forwarded_same (trace events : List Event) (s next : State) (inv : Forwarded trace s)
    (view : ∀ k : Nat, next.handlers[k]?.bind held = s.handlers[k]?.bind held)
    (begun : broadcasts events = []) (received : ∀ p, receivedBy p events = []) :
    Forwarded (trace ++ events) next := by
  intro p
  rw [broadcasts_append, receivedBy_append, begun, received p, List.append_nil, List.append_nil,
    ← inv p, holding, view p, holding]

theorem forwarded_step (trace : List Event) (s next : State) (a : Act) (events : List Event)
    (inv : Forwarded trace s) (moves : Moves s a next events) :
    Forwarded (trace ++ events) next := by
  cases moves with
  | accepted role client =>
    exact forwarded_same trace _ s _ inv
      (accept_view held s role client (new_not_holding role client)) rfl fun _ => rfl
  | skipped h chunk =>
    rw [List.append_nil]
    exact inv
  | received h sock chunk here =>
    intro p
    rw [broadcasts_append, receivedBy_append, ← inv p]
    by_cases same : p = h
    · subst same
      have now := become_here s p _ (.publisher sock (.holding chunk)) here
      simp [holding, now, here, held, broadcasts, receivedBy]
    · have old := become_other s h p (.publisher sock (.holding chunk)) same
      simp [holding, old, broadcasts, receivedBy, Ne.symm same]
  | locked h sock chunk here free =>
    intro p
    rw [broadcasts_append, receivedBy_append, ← inv p]
    by_cases same : p = h
    · subst same
      have now := become_here s p _ (.publisher sock (.broadcasting chunk 0)) here
      simp [holding, now, here, held, broadcasts, receivedBy]
    · have old := become_other s h p (.publisher sock (.broadcasting chunk 0)) same
      simp [holding, old, broadcasts, receivedBy, Ne.symm same]
  | registered h sock here free =>
    exact forwarded_same trace _ s _ inv (become_view held s h _ _ here rfl) rfl fun _ => rfl
  | ended h sock here =>
    exact forwarded_same trace _ s _ inv (become_view held s h _ _ here rfl) rfl fun _ => rfl
  | left h sock here =>
    exact forwarded_same trace _ s _ inv (become_view held s h _ _ here rfl) rfl fun _ => rfl
  | unregistered h sock here free =>
    exact forwarded_same trace _ s _ inv (become_view held s h _ _ here rfl) rfl fun _ => rfl
  | sent h sock chunk i here inside =>
    exact forwarded_same trace _ s _ inv (become_view held s h _ _ here rfl) rfl fun _ => rfl
  | unlocked h sock chunk i here done =>
    exact forwarded_same trace _ s _ inv (become_view held s h _ _ here rfl) rfl fun _ => rfl
  | closedSubscriber h sock here =>
    exact forwarded_same trace _ s _ inv (become_view held s h _ _ here rfl) rfl fun _ => rfl
  | closedPublisher h sock here =>
    exact forwarded_same trace _ s _ inv (become_view held s h _ _ here rfl) rfl fun _ => rfl

/-- The broadcast in progress is that of the handler inside the loop. -/
theorem inFlight_holder (s : State) (exclusive : Exclusive s) (h : Nat) (sock : Int)
    (chunk : Bytes) (i : Nat) (here : s.handlers[h]? = some (.publisher sock (.broadcasting chunk i))) :
    inFlight s = some (h, chunk, i) := by
  have holder := exclusive h (chunk, i) (by rw [here]; rfl)
  rw [inFlight, holder]
  dsimp only
  rw [here]
  rfl

theorem inFlight_same (s next : State)
    (view : ∀ k : Nat, next.handlers[k]?.bind loop = s.handlers[k]?.bind loop)
    (mutex : next.mutex = s.mutex) : inFlight next = inFlight s := by
  unfold inFlight
  rw [mutex]
  split
  · rfl
  · next b _ => rw [view b]

/-- The subscriber side: what was sent to a handler and what the broadcast in
progress owes it are its block of the global sequence. -/
def Exact (trace : List Event) (s : State) : Prop :=
  ∀ h, sentTo h trace ++ owed s h = block h trace

/-- A handler that has unregistered has registered. -/
def Ordered (trace : List Event) : Prop :=
  ∀ h, trace.any (isRemoval h) = true → trace.any (isRegistration h) = true

/-- Outside the sections, a step that broadcasts nothing leaves every block. -/
theorem exact_same (trace events : List Event) (s next : State) (ordered : Ordered trace)
    (blocks : Exact trace s) (coupled : Coupled trace s) (coupled' : Coupled (trace ++ events) next)
    (quiet : Quiet events) (table : next.table = s.table) (same : inFlight next = inFlight s)
    (begun : broadcasts events = []) (sent : ∀ h, sentTo h events = []) :
    Exact (trace ++ events) next := by
  intro h
  have frozen := block_silent h trace events (ordered h) (quiet h).1 (quiet h).2 begun
  rw [sentTo_append, sent h, List.append_nil, frozen, ← blocks h,
    owed_same trace events s next coupled coupled' quiet table same h]

/-- Starting a broadcast appends it to the blocks of the live handlers, and it is
owed to exactly these. -/
theorem exact_locked (trace : List Event) (s : State) (ordered : Ordered trace)
    (blocks : Exact trace s) (h : Nat) (sock : Int) (chunk : Bytes)
    (here : s.handlers[h]? = some (.publisher sock (.holding chunk))) (free : s.mutex = none)
    (coupled' : Coupled (trace ++ [.begun h chunk])
      { s.become h (.publisher sock (.broadcasting chunk 0)) with mutex := some h }) :
    Exact (trace ++ [.begun h chunk])
      { s.become h (.publisher sock (.broadcasting chunk 0)) with mutex := some h } := by
  intro k
  have sentBefore := blocks k
  rw [owed_free s free k, List.append_nil] at sentBefore
  have grown := block_append k trace [.begun h chunk] (ordered k) rfl rfl
  have reach := reached_all _ _ coupled' k
  rw [tracePhase_append k trace [.begun h chunk] rfl rfl] at reach
  have now := become_here s h _ (.publisher sock (.broadcasting chunk 0)) here
  have flight : inFlight { s.become h (.publisher sock (.broadcasting chunk 0)) with
      mutex := some h } = some (h, chunk, 0) := by
    simp [inFlight, now, loop]
  have debt : owed { s.become h (.publisher sock (.broadcasting chunk 0)) with
      mutex := some h } k = if tracePhase k trace = .during then [(h, chunk)] else [] := by
    simp only [owed_inFlight _ h chunk 0 flight k, List.drop_zero, reach]
  rw [sentTo_append, sentBefore, grown, debt, show sentTo k [.begun h chunk] = [] from rfl,
    List.append_nil]
  rfl

/-- One `send` of the loop: the chunk goes to the handler at the index, which is
reached nowhere later in the array; nobody else's debt changes. -/
theorem exact_sent (trace : List Event) (s : State) (ordered : Ordered trace)
    (blocks : Exact trace s) (exclusive : Exclusive s) (coupled : Coupled trace s) (h : Nat)
    (sock : Int) (chunk : Bytes) (i : Nat)
    (here : s.handlers[h]? = some (.publisher sock (.broadcasting chunk i)))
    (inside : i < s.table.numSub)
    (exclusive' : Exclusive (s.become h (.publisher sock (.broadcasting chunk (i + 1)))))
    (coupled' : Coupled (trace ++ [.sent h i (s.table.subscribers.getD i 0)
        (s.connection (s.table.subscribers.getD i 0)) chunk])
      (s.become h (.publisher sock (.broadcasting chunk (i + 1))))) :
    Exact (trace ++ [.sent h i (s.table.subscribers.getD i 0)
        (s.connection (s.table.subscribers.getD i 0)) chunk])
      (s.become h (.publisher sock (.broadcasting chunk (i + 1)))) := by
  have now := become_here s h _ (.publisher sock (.broadcasting chunk (i + 1))) here
  have size : i < s.table.connected.length := by
    rw [length_connected s.table coupled.table.bounded]
    exact inside
  have dest : s.table.subscribers.getD i 0 = s.table.connected[i] := by
    have read := connected_getElem s.table coupled.table.bounded i inside
    rw [List.getElem?_eq_getElem size, Option.some.injEq] at read
    exact read.symm
  have before := inFlight_holder s exclusive h sock chunk i here
  have after := inFlight_holder _ exclusive' h sock chunk (i + 1) now
  rw [dest] at coupled' ⊢
  intro k
  have frozen := block_silent k trace
    [.sent h i s.table.connected[i] (s.connection s.table.connected[i]) chunk] (ordered k) rfl rfl
    rfl
  have reach := reached_same trace _ s _ coupled coupled' (fun _ => ⟨rfl, rfl⟩) rfl k
    (s.table.connected.drop (i + 1)) fun _ mem => List.mem_of_mem_drop mem
  have distinct := (connections_nodup trace s coupled).sublist
    ((List.drop_sublist i s.table.connected).map s.connection)
  have debt := owed_inFlight s h chunk i before k
  have debtAfter := owed_inFlight _ h chunk (i + 1) after k
  rw [List.drop_eq_getElem_cons size, List.map_cons, List.nodup_cons] at distinct
  simp only [List.drop_eq_getElem_cons size, List.map_cons, List.mem_cons] at debt
  simp only [show (s.become h _).table = s.table from rfl, reach] at debtAfter
  rw [frozen, ← blocks k, sentTo_append, List.append_assoc, debt, debtAfter]
  by_cases mine : s.connection s.table.connected[i] = some k
  · rw [mine] at distinct ⊢
    rw [if_neg distinct.1]
    simp [sentTo]
  · simp [sentTo, mine, Ne.symm mine]

/-- The end of the loop: nothing is owed any more. -/
theorem exact_unlocked (trace : List Event) (s : State) (blocks : Exact trace s)
    (exclusive : Exclusive s) (coupled : Coupled trace s) (h : Nat) (sock : Int) (chunk : Bytes)
    (i : Nat) (here : s.handlers[h]? = some (.publisher sock (.broadcasting chunk i)))
    (done : s.table.numSub ≤ i) :
    Exact trace { s.become h (.publisher sock .receiving) with mutex := none } := by
  intro k
  have debt := owed_inFlight s h chunk i (inFlight_holder s exclusive h sock chunk i here) k
  have ended : s.table.connected.drop i = [] := by
    apply List.drop_eq_nil_of_le
    rw [length_connected s.table coupled.table.bounded]
    exact done
  rw [ended, List.map_nil, if_neg List.not_mem_nil] at debt
  rw [owed_free _ rfl k, ← blocks k, debt]

/-- A section sends nothing and nothing is owed around it. -/
theorem exact_section (trace events : List Event) (s next : State) (blocks : Exact trace s)
    (free : s.mutex = none) (free' : next.mutex = none) (sent : ∀ k, sentTo k events = [])
    (frozen : ∀ k, block k (trace ++ events) = block k trace) : Exact (trace ++ events) next := by
  intro k
  rw [owed_free next free' k, frozen k, ← blocks k, owed_free s free k, sentTo_append, sent k,
    List.append_nil]

/-- A registration opens the block of its handler and changes no other. -/
theorem exact_registered (trace : List Event) (s next : State) (ordered : Ordered trace)
    (blocks : Exact trace s) (h : Nat) (sock : Int) (index : Nat) (free : s.mutex = none)
    (free' : next.mutex = none) (unborn : tracePhase h trace = .before) :
    Exact (trace ++ [.registered h sock index]) next := by
  apply exact_section trace _ s next blocks free free' fun _ => rfl
  intro k
  by_cases same : h = k
  · subst same
    exact block_registered h sock index trace unborn
  · exact block_silent k trace _ (ordered k) (by simp [isRegistration, same]) rfl rfl

/-- A removal closes the block of its handler and changes no other. -/
theorem exact_unregistered (trace : List Event) (s next : State) (ordered : Ordered trace)
    (blocks : Exact trace s) (h : Nat) (indices : List Nat) (free : s.mutex = none)
    (free' : next.mutex = none) (live : tracePhase h trace = .during) :
    Exact (trace ++ [.unregistered h indices]) next := by
  apply exact_section trace _ s next blocks free free' fun _ => rfl
  intro k
  by_cases same : h = k
  · subst same
    exact block_unregistered h indices trace live
  · exact block_silent k trace _ (ordered k) rfl (by simp [isRemoval, same]) rfl

theorem exact_step (trace : List Event) (s next : State) (a : Act) (events : List Event)
    (ordered : Ordered trace) (blocks : Exact trace s) (exclusive : Exclusive s)
    (coupled : Coupled trace s) (assumed : Assumed s a) (moves : Moves s a next events) :
    Exact (trace ++ events) next := by
  have coupled' := coupled_step trace s next a events coupled assumed moves
  have exclusive' := exclusive_step s next a events exclusive moves
  have none : Quiet [] := fun h => ⟨rfl, rfl⟩
  cases moves with
  | accepted role client =>
    exact exact_same trace _ s _ ordered blocks coupled coupled' none (table_accept s role client)
      (inFlight_same s _ (accept_view loop s role client (new_not_looping role client))
        (mutex_accept s role client)) rfl fun _ => rfl
  | skipped h chunk =>
    rw [List.append_nil]
    exact blocks
  | registered h sock here free =>
    have unborn : tracePhase h trace = .before := by
      rw [← coupled.phases h, phaseOf, here]
      rfl
    refine exact_registered trace s _ ordered blocks h sock _ free ?_ unborn
    exact free
  | unregistered h sock here free =>
    have live : tracePhase h trace = .during := by
      rw [← coupled.phases h, phaseOf, here]
      rfl
    refine exact_unregistered trace s _ ordered blocks h _ free ?_ live
    exact free
  | locked h sock chunk here free =>
    exact exact_locked trace s ordered blocks h sock chunk here free coupled'
  | sent h sock chunk i here inside =>
    exact exact_sent trace s ordered blocks exclusive coupled h sock chunk i here inside exclusive'
      coupled'
  | unlocked h sock chunk i here done =>
    rw [List.append_nil]
    exact exact_unlocked trace s blocks exclusive coupled h sock chunk i here done
  | received h sock chunk here =>
    exact exact_same trace _ s _ ordered blocks coupled coupled' (fun _ => ⟨rfl, rfl⟩) rfl
      (inFlight_same s _ (become_view loop s h _ _ here rfl) rfl) rfl fun _ => rfl
  | ended h sock here =>
    exact exact_same trace _ s _ ordered blocks coupled coupled' none rfl
      (inFlight_same s _ (become_view loop s h _ _ here rfl) rfl) rfl fun _ => rfl
  | left h sock here =>
    exact exact_same trace _ s _ ordered blocks coupled coupled' none rfl
      (inFlight_same s _ (become_view loop s h _ _ here rfl) rfl) rfl fun _ => rfl
  | closedSubscriber h sock here =>
    exact exact_same trace _ s _ ordered blocks coupled coupled' none rfl
      (inFlight_same s _ (become_view loop s h _ _ here rfl) rfl) rfl fun _ => rfl
  | closedPublisher h sock here =>
    exact exact_same trace _ s _ ordered blocks coupled coupled' none rfl
      (inFlight_same s _ (become_view loop s h _ _ here rfl) rfl) rfl fun _ => rfl

/-- Only a removal can break the order, and it finds its handler registered. -/
theorem ordered_step (trace : List Event) (s next : State) (a : Act) (events : List Event)
    (ordered : Ordered trace) (coupled : Coupled trace s) (moves : Moves s a next events) :
    Ordered (trace ++ events) := by
  intro k removed
  rw [List.any_append] at removed ⊢
  by_cases old : trace.any (isRemoval k) = true
  · rw [ordered k old, Bool.true_or]
  · rw [Bool.not_eq_true] at old
    rw [old, Bool.false_or] at removed
    rcases moves.event with rfl | ⟨e, rfl, cause⟩
    · cases removed
    · cases cause with
      | unregistered h sock here =>
        have same : h = k := by simpa [isRemoval] using removed
        have live : tracePhase k trace = .during := by
          rw [← coupled.phases k, phaseOf, ← same, here]
          rfl
        rw [(tracePhase_during k trace live).1, Bool.true_or]
      | registered h sock here => cases removed
      | received h sock chunk here => cases removed
      | begun h sock chunk here => cases removed
      | sent h sock chunk i here inside => cases removed

/-- The invariant of delivery: what couples state and past, and both sides of
the broadcasts. -/
structure Delivered (trace : List Event) (s : State) : Prop where
  coupled : Coupled trace s
  exclusive : Exclusive s
  ordered : Ordered trace
  blocks : Exact trace s
  forwarded : Forwarded trace s

theorem delivered_step (trace : List Event) (s next : State) (a : Act) (events : List Event)
    (inv : Delivered trace s) (assumed : Assumed s a) (moves : Moves s a next events) :
    Delivered (trace ++ events) next where
  coupled := coupled_step trace s next a events inv.coupled assumed moves
  exclusive := exclusive_step s next a events inv.exclusive moves
  ordered := ordered_step trace s next a events inv.ordered inv.coupled moves
  blocks := exact_step trace s next a events inv.ordered inv.blocks inv.exclusive inv.coupled
    assumed moves
  forwarded := forwarded_step trace s next a events inv.forwarded moves

theorem delivered_initial : Delivered [] State.initial where
  coupled := coupled_initial
  exclusive := fun h x inLoop => by simp [State.initial] at inLoop
  ordered := fun h removed => by cases removed
  blocks := fun h => rfl
  forwarded := fun p => rfl

theorem delivered_run (schedule : List Act) (final : State) (trace : List Event)
    (run : exec step State.initial schedule = some (final, trace))
    (assumed : Along step Assumed State.initial schedule) : Delivered trace final := by
  have whole := exec_invariant_along step Assumed Delivered
    (fun trace s a next events inv here taken =>
      delivered_step trace s next a events inv here (step_moves s next a events taken))
    schedule [] State.initial final trace delivered_initial assumed run
  simpa using whole

/-- Both sides of the broadcasts without an assumption on the number of
subscribers: a registration past the end of the array is the last step of a run. -/
structure DeliveredUpToOverflow (trace : List Event) (s : State) : Prop where
  blocks : Exact trace s
  forwarded : Forwarded trace s
  sound : s.corrupted = false → Delivered trace s

theorem Delivered.upToOverflow {trace : List Event} {s : State} (inv : Delivered trace s) :
    DeliveredUpToOverflow trace s :=
  ⟨inv.blocks, inv.forwarded, fun _ => inv⟩

theorem step_sound (s next : State) (a : Act) (events : List Event)
    (taken : step s a = some (next, events)) : s.corrupted = false := by
  unfold step at taken
  split at taken
  · cases taken
  · next sound => simpa using sound

theorem upToOverflow_step (trace : List Event) (s next : State) (a : Act) (events : List Event)
    (inv : DeliveredUpToOverflow trace s) (fresh : FreshAccept s a)
    (taken : step s a = some (next, events)) : DeliveredUpToOverflow (trace ++ events) next := by
  have moves := step_moves s next a events taken
  have delivered := inv.sound (step_sound s next a events taken)
  by_cases room : Room s a
  · exact (delivered_step trace s next a events delivered ⟨fresh, room⟩ moves).upToOverflow
  · cases moves with
    | registered h sock here free =>
      have full : ¬ s.table.numSub < maxClients := by
        rw [delivered.coupled.table.count]
        exact room
      have unborn : tracePhase h trace = .before := by
        rw [← delivered.coupled.phases h, phaseOf, here]
        rfl
      refine ⟨?_, forwarded_step trace s _ _ _ inv.forwarded (.registered h sock here free), ?_⟩
      · refine exact_registered trace s _ delivered.ordered inv.blocks h sock _ free ?_ unborn
        exact free
      · intro sound
        simp [full] at sound
    | accepted role client => exact absurd trivial room
    | received h sock chunk here => exact absurd trivial room
    | skipped h chunk => exact absurd trivial room
    | ended h sock here => exact absurd trivial room
    | left h sock here => exact absurd trivial room
    | unregistered h sock here free => exact absurd trivial room
    | locked h sock chunk here free => exact absurd trivial room
    | sent h sock chunk i here inside => exact absurd trivial room
    | unlocked h sock chunk i here done => exact absurd trivial room
    | closedSubscriber h sock here => exact absurd trivial room
    | closedPublisher h sock here => exact absurd trivial room

theorem upToOverflow_run (schedule : List Act) (final : State) (trace : List Event)
    (run : exec step State.initial schedule = some (final, trace))
    (fresh : Along step FreshAccept State.initial schedule) :
    DeliveredUpToOverflow trace final := by
  have whole := exec_invariant_along step FreshAccept DeliveredUpToOverflow
    (fun trace s a next events => upToOverflow_step trace s next a events)
    schedule [] State.initial final trace delivered_initial.upToOverflow fresh run
  simpa using whole

/-- The block is contiguous: it starts at the registration and has no gaps. -/
theorem block_starts (h : Nat) (trace : List Event) :
    block h trace <+: (broadcasts trace).drop (start h trace) := by
  have whole : trace = upTo (isRemoval h) trace ++
      trace.dropWhile fun e => !isRemoval h e := List.takeWhile_append_dropWhile.symm
  have earlier : broadcasts (upTo (isRemoval h) trace) <+: broadcasts trace := by
    conv_rhs => rw [whole, broadcasts_append]
    exact List.prefix_append _ _
  exact List.IsPrefix.drop earlier _

theorem Delivered.starts {trace : List Event} {s : State} (inv : Delivered trace s) (h : Nat) :
    sentTo h trace <+: (broadcasts trace).drop (start h trace) :=
  List.IsPrefix.trans ⟨owed s h, inv.blocks h⟩ (block_starts h trace)

/-- The `k`-th chunk for `h` is broadcast number `start h + k`. -/
theorem Delivered.position {trace : List Event} {s : State} (inv : Delivered trace s) (h k : Nat)
    (inside : k < (sentTo h trace).length) :
    (sentTo h trace)[k]? = (broadcasts trace)[start h trace + k]? := by
  obtain ⟨rest, split⟩ := inv.starts h
  rw [← List.getElem?_drop, ← split, List.getElem?_append_left inside]

/-- Every publisher's chunks reach a subscriber as a block of what it sent. -/
theorem Delivered.publisher_order {trace : List Event} {s : State} (inv : Delivered trace s)
    (h p : Nat) : (sentTo h trace).filter (fun x => x.1 = p) <:+: receivedBy p trace := by
  have part : sentTo h trace <:+: broadcasts trace :=
    (inv.starts h).isInfix.trans (List.drop_suffix _ _).isInfix
  have whole : (broadcasts trace).filter (fun x => x.1 = p) <:+: receivedBy p trace :=
    List.IsPrefix.isInfix ⟨_, inv.forwarded p⟩
  exact List.IsInfix.trans (part.filter _) whole

/-- The chunks passed to `send` for a subscriber are the contiguous block of the
global sequence of broadcasts between its registration and its removal, up to
the one chunk that a broadcast in progress still owes it. So two subscribers see
their common broadcasts at the same distance from their registrations, and each
publisher's chunks come in the order of its `recv`s. -/
theorem delivery_exact (schedule : List Act) (final : State) (trace : List Event)
    (run : exec step State.initial schedule = some (final, trace))
    (assumed : Along step Assumed State.initial schedule) :
    (∀ h, sentTo h trace ++ owed final h = block h trace) ∧
      (∀ h, final.mutex = none ∨ trace.any (isRemoval h) = true →
        sentTo h trace = block h trace) ∧
      (∀ h h' k k', start h trace + k = start h' trace + k' → k < (sentTo h trace).length →
        k' < (sentTo h' trace).length → (sentTo h trace)[k]? = (sentTo h' trace)[k']?) ∧
      (∀ p, (broadcasts trace).filter (fun x => x.1 = p) ++ holding final p =
        receivedBy p trace) ∧
      ∀ h p, (sentTo h trace).filter (fun x => x.1 = p) <:+: receivedBy p trace := by
  have inv := delivered_run schedule final trace run assumed
  refine ⟨inv.blocks, ?_, ?_, inv.forwarded, inv.publisher_order⟩
  · intro h settled
    have nothing : owed final h = [] := by
      rcases settled with free | removed
      · exact owed_free final free h
      · exact owed_not_live trace final inv.coupled h (by simp [tracePhase, removed])
    rw [← inv.blocks h, nothing, List.append_nil]
  · intro h h' k k' common inside inside'
    rw [inv.position h k inside, inv.position h' k' inside', common]

/-- Inside the last broadcast of `reuse`: the remaining subscriber has got both
chunks, the one that left only the first. -/
theorem delivery_exact_sample :
    sentTo 1 reuseOutcome.2 ++ owed reuseOutcome.1 1 = block 1 reuseOutcome.2 ∧
      sentTo 0 reuseOutcome.2 = block 0 reuseOutcome.2 ∧
      sentTo 0 reuseOutcome.2 = [(2, ascii "GOL")] :=
  have whole := delivery_exact reuse reuseOutcome.1 reuseOutcome.2 (by decide +kernel)
    (by decide +kernel)
  ⟨whole.1 1, whole.2.1 0 (by decide +kernel), by decide +kernel⟩

end SportsPubSub.Tcp.Delivery
