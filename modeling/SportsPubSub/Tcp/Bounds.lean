import SportsPubSub.Lib.UnorderedTable
import SportsPubSub.Tcp.Broker

/-!
# The subscriber array of the TCP broker

The used part of the array is, as a multiset, the sockets of the handlers that
have registered and not yet unregistered, whatever descriptors the kernel hands
out. So `num_sub` counts these handlers, and since no path compares it with
MAX_CLIENTS, the array bounds hold exactly as long as their number does.
-/
namespace SportsPubSub.Tcp.Bounds
open Lib.Posix Lib.Reactive Lib.UnorderedTable Broker

theorem length_connected (t : Table) (bounded : t.numSub ≤ maxClients) :
    t.connected.length = t.numSub := by
  rw [Table.connected, List.length_take, t.size_eq]
  omega

/-- What the index loop of `broadcast` reads. -/
theorem connected_getElem (t : Table) (bounded : t.numSub ≤ maxClients) (i : Nat)
    (inside : i < t.numSub) : t.connected[i]? = some (t.subscribers.getD i 0) := by
  have size : i < t.subscribers.length := by
    rw [t.size_eq]
    omega
  rw [Table.connected, List.getElem?_take_of_lt inside, List.getD_eq_getElem?_getD,
    List.getElem?_eq_getElem size, Option.getD_some]

theorem connected_add (t : Table) (sock : Int) (room : t.numSub < maxClients) :
    (t.add sock).connected = t.connected ++ [sock] := by
  have inside : t.numSub < t.subscribers.length := by
    rw [t.size_eq]
    exact room
  simp only [Table.connected, Table.add]
  rw [List.take_succ_eq_append_getElem (by rw [List.length_set]; exact inside),
    List.getElem_set_self, List.take_set_of_le (Nat.le_refl _)]

/-- The loop from index `num_sub - todo` on is a removal from the rest of the
used part. -/
theorem connected_removeFrom (t : Table) (sock : Int) (bounded : t.numSub ≤ maxClients)
    (todo : Nat) (within : todo ≤ t.numSub) :
    (t.removeFrom sock todo).1.connected =
      t.subscribers.take (t.numSub - todo) ++
        swapRemove sock ((t.subscribers.drop (t.numSub - todo)).take todo) := by
  induction todo with
  | zero => simp [Table.removeFrom, Table.connected, swapRemove]
  | succ todo ih =>
    have tail := ih (by omega)
    generalize position : t.numSub - (todo + 1) = i at *
    have next : t.numSub - todo = i + 1 := by omega
    have hi : i < t.subscribers.length := by
      rw [t.size_eq]
      omega
    rw [next] at tail
    rw [List.drop_eq_getElem_cons hi, List.take_succ_cons]
    unfold Table.removeFrom swapRemove
    simp only [position, List.getElem?_eq_getElem hi, Option.some.injEq]
    split
    · -- the entry found is overwritten with the last one of the used part
      cases todo with
      | zero =>
        have last : t.numSub - 1 = i := by omega
        simp only [Table.connected, last, List.take_zero, List.getLast?_nil, List.append_nil]
        rw [List.take_set_of_le (Nat.le_refl _)]
      | succ m =>
        have last : t.numSub - 1 = i + 1 + m := by omega
        have inside : i + 1 + m < t.subscribers.length := by
          rw [t.size_eq]
          omega
        have ends : ((t.subscribers.drop (i + 1)).take (m + 1)) =
            (t.subscribers.drop (i + 1)).take m ++ [t.subscribers[i + 1 + m]] := by
          rw [List.take_succ_eq_append_getElem (by rw [List.length_drop]; omega),
            List.getElem_drop]
        rw [ends, List.getLast?_concat, List.dropLast_concat]
        simp only [Table.connected, last]
        rw [List.getD_eq_getElem?_getD, List.getElem?_eq_getElem inside, Option.getD_some,
          List.set_eq_take_append_cons_drop, if_pos hi, List.take_append, List.length_take,
          Nat.min_eq_left (Nat.le_of_lt hi), List.take_take]
        have rest : i + 1 + m - i = m + 1 := by omega
        rw [rest, List.take_succ_cons, Nat.min_eq_right (by omega)]
    · have whole : t.subscribers.take (i + 1) = t.subscribers.take i ++ [t.subscribers[i]] :=
        List.take_succ_eq_append_getElem hi
      rw [tail, whole, List.append_assoc, List.singleton_append]

/-- The removal section keeps the used part without holes. -/
theorem connected_remove (t : Table) (sock : Int) (bounded : t.numSub ≤ maxClients) :
    (t.remove sock).1.connected = swapRemove sock t.connected := by
  have whole := connected_removeFrom t sock bounded t.numSub (Nat.le_refl _)
  rw [Nat.sub_self, List.take_zero, List.nil_append, List.drop_zero] at whole
  exact whole

theorem numSub_removeFrom (t : Table) (sock : Int) (todo : Nat) :
    (t.removeFrom sock todo).1.numSub ≤ t.numSub := by
  induction todo with
  | zero => exact Nat.le_refl _
  | succ todo ih =>
    unfold Table.removeFrom
    dsimp only
    split
    · exact Nat.sub_le _ _
    · exact ih

/-- The loop touches no index outside the used part. -/
theorem indices_removeFrom (t : Table) (sock : Int) (todo : Nat) (within : todo ≤ t.numSub) :
    ∀ i ∈ (t.removeFrom sock todo).2, i < t.numSub := by
  induction todo with
  | zero =>
    intro i hi
    cases hi
  | succ todo ih =>
    intro i hi
    unfold Table.removeFrom at hi
    dsimp only at hi
    split at hi
    · simp only [List.mem_cons, List.not_mem_nil, or_false] at hi
      omega
    · rcases List.mem_cons.mp hi with rfl | later
      · omega
      · exact ih (by omega) i later

/-- The sockets of the handlers that have registered and not yet unregistered. -/
def registeredSocks (s : State) : List Int := s.handlers.filterMap Handler.listed

/-- The used part of the array holds these sockets, in some order. -/
structure TableInv (s : State) : Prop where
  bounded : s.table.numSub ≤ maxClients
  content : s.table.connected.Perm (registeredSocks s)

/-- A registration finds room: fewer than MAX_CLIENTS handlers are registered. -/
def Room (s : State) : Act → Prop
  | .register _ => (registeredSocks s).length < maxClients
  | _ => True

instance (s : State) : (a : Act) → Decidable (Room s a)
  | .register _ => inferInstanceAs (Decidable (_ < _))
  | .accept _ _ => isTrue trivial
  | .recv _ _ => isTrue trivial
  | .recvEnds _ => isTrue trivial
  | .unregister _ => isTrue trivial
  | .lock _ => isTrue trivial
  | .sendNext _ => isTrue trivial
  | .unlock _ => isTrue trivial
  | .close _ => isTrue trivial

theorem TableInv.count {s : State} (inv : TableInv s) :
    s.table.numSub = (registeredSocks s).length := by
  rw [← inv.content.length_eq, length_connected s.table inv.bounded]

/-- One handler moves on without registering or unregistering. -/
theorem TableInv.become {s : State} (inv : TableInv s) (h : Nat) (x y : Handler)
    (here : s.handlers[h]? = some x) (same : y.listed = x.listed) : TableInv (s.become h y) := by
  refine ⟨inv.bounded, ?_⟩
  have unchanged : registeredSocks (s.become h y) = registeredSocks s :=
    filterMap_set_same Handler.listed s.handlers h x y here same
  rw [unchanged]
  exact inv.content

theorem registeredSocks_accept (s : State) (role : Role) (client : Int) :
    registeredSocks (s.accept role client) = registeredSocks s := by
  unfold State.accept
  split
  · rfl
  · have silent : (role.handler client).listed = none := by
      cases role with
      | subscriber => rfl
      | publisher => rfl
    simp [registeredSocks, silent]

theorem tableInv_step (s next : State) (a : Act) (events : List Event) (inv : TableInv s)
    (moves : Moves s a next events) (room : Room s a) : TableInv next := by
  cases moves with
  | accepted role client =>
    refine ⟨by rw [table_accept]; exact inv.bounded, ?_⟩
    rw [table_accept, registeredSocks_accept]
    exact inv.content
  | registered h sock here free =>
    have space : s.table.numSub < maxClients := by
      rw [inv.count]
      exact room
    have entered := filterMap_set_perm Handler.listed s.handlers h _
      (.subscriber sock .registered) here
    refine ⟨space, ?_⟩
    dsimp only
    rw [connected_add s.table sock space]
    calc
      (s.table.connected ++ [sock]).Perm (sock :: s.table.connected) :=
        List.perm_append_singleton sock _
      (sock :: s.table.connected).Perm (sock :: registeredSocks s) := inv.content.cons sock
      (sock :: registeredSocks s).Perm _ := entered.symm
  | received h sock chunk here => exact inv.become h _ _ here rfl
  | skipped h chunk => exact inv
  | ended h sock here => exact inv.become h _ _ here rfl
  | left h sock here => exact inv.become h _ _ here rfl
  | unregistered h sock here free =>
    have listed : sock ∈ s.table.connected :=
      inv.content.symm.subset (mem_keys Handler.listed s.handlers h _ sock here rfl)
    have gone := filterMap_set_perm Handler.listed s.handlers h _
      (.subscriber sock .removed) here
    refine ⟨Nat.le_trans (numSub_removeFrom _ _ _) inv.bounded, ?_⟩
    apply List.Perm.cons_inv (a := sock)
    dsimp only
    rw [connected_remove s.table sock inv.bounded]
    calc
      (sock :: swapRemove sock s.table.connected).Perm s.table.connected :=
        swapRemove_perm sock _ listed
      s.table.connected.Perm (registeredSocks s) := inv.content
      (registeredSocks s).Perm _ := gone.symm
  | locked h sock chunk here free =>
    have same := inv.become h _ (.publisher sock (.broadcasting chunk 0)) here rfl
    exact ⟨same.bounded, same.content⟩
  | sent h sock chunk i here inside => exact inv.become h _ _ here rfl
  | unlocked h sock chunk i here done =>
    have same := inv.become h _ (.publisher sock .receiving) here rfl
    exact ⟨same.bounded, same.content⟩
  | closedSubscriber h sock here => exact inv.become h _ _ here rfl
  | closedPublisher h sock here => exact inv.become h _ _ here rfl

/-- The array indices that a step reads or writes. -/
def accesses : Event → List Nat
  | .registered _ _ index => [index]
  | .unregistered _ indices => indices
  | .sent _ index _ _ _ => [index]
  | _ => []

/-- A step stays inside the array exactly when it finds room. -/
theorem step_in_bounds_iff (s next : State) (a : Act) (events : List Event) (inv : TableInv s)
    (moves : Moves s a next events) :
    (∀ e ∈ events, ∀ i ∈ accesses e, i < maxClients) ↔ Room s a := by
  have bounded := inv.bounded
  cases moves with
  | registered h sock here free =>
    simp only [List.mem_singleton, forall_eq, accesses, Room]
    rw [inv.count]
  | unregistered h sock here free =>
    simp only [List.mem_singleton, forall_eq, accesses, Room, iff_true]
    intro i hi
    exact Nat.lt_of_lt_of_le (indices_removeFrom s.table sock _ (Nat.le_refl _) i hi) bounded
  | sent h sock chunk i here inside =>
    simp only [List.mem_singleton, forall_eq, accesses, Room, iff_true]
    exact Nat.lt_of_lt_of_le inside bounded
  | accepted role client => simp [Room]
  | received h sock chunk here => simp [Room, accesses]
  | skipped h chunk => simp [Room]
  | ended h sock here => simp [Room]
  | left h sock here => simp [Room]
  | locked h sock chunk here free => simp [Room, accesses]
  | unlocked h sock chunk i here done => simp [Room]
  | closedSubscriber h sock here => simp [Room]
  | closedPublisher h sock here => simp [Room]

theorem run_in_bounds_iff (schedule : List Act) (s final : State) (trace : List Event)
    (inv : TableInv s) (run : exec step s schedule = some (final, trace)) :
    (∀ e ∈ trace, ∀ i ∈ accesses e, i < maxClients) ↔ Along step Room s schedule := by
  induction schedule generalizing s trace with
  | nil =>
    simp only [exec, Option.some.injEq, Prod.mk.injEq] at run
    obtain ⟨rfl, rfl⟩ := run
    simp [Along]
  | cons a rest ih =>
    obtain ⟨next, events, later, taken, tail, rfl⟩ := exec_cons step s final a rest trace run
    have moves := step_moves s next a events taken
    have here := step_in_bounds_iff s next a events inv moves
    constructor
    · intro all
      have room := here.mp fun e he => all e (List.mem_append_left _ he)
      refine ⟨room, ?_⟩
      intro next' events' taken'
      rw [taken, Option.some.injEq, Prod.mk.injEq] at taken'
      obtain ⟨rfl, rfl⟩ := taken'
      exact (ih next later (tableInv_step s next a events inv moves room) tail).mp
        fun e he => all e (List.mem_append_right _ he)
    · rintro ⟨room, onwards⟩ e he
      rcases List.mem_append.mp he with old | new
      · exact here.mpr room e old
      · exact (ih next later (tableInv_step s next a events inv moves room) tail).mpr
          (onwards next events taken) e new

theorem tableInv_initial : TableInv State.initial :=
  ⟨Nat.zero_le _, List.Perm.refl _⟩

/-- Every index that registrations, removals and broadcasts use is inside the
array if and only if each registration finds fewer than MAX_CLIENTS handlers
registered. -/
theorem accesses_in_bounds_iff (schedule : List Act) (final : State) (trace : List Event)
    (run : exec step State.initial schedule = some (final, trace)) :
    (∀ e ∈ trace, ∀ i ∈ accesses e, i < maxClients) ↔ Along step Room State.initial schedule :=
  run_in_bounds_iff schedule State.initial final trace tableInv_initial run

/-- Three subscribers register, a chunk is broadcast to all of them, and the first leaves,
so that the last entry moves to its place. -/
def visit : List Act :=
  [.accept .subscriber 5, .accept .subscriber 6, .accept .publisher 7, .accept .subscriber 8,
    .register 0, .register 1, .register 3, .recv 2 (ascii "GOL"), .lock 2, .sendNext 2,
    .sendNext 2, .sendNext 2, .unlock 2, .recvEnds 0, .unregister 0, .close 0]

def visitOutcome : State × List Event :=
  (exec step State.initial visit).getD (State.initial, [])

/-- Its indices are 0, 1 and 2, so every registration found room. -/
theorem accesses_in_bounds_iff_sample :
    visitOutcome.2.flatMap accesses = [0, 1, 2, 0, 1, 2, 0, 2, 0] ∧
      Along step Room State.initial visit :=
  ⟨by decide +kernel,
    (accesses_in_bounds_iff visit visitOutcome.1 visitOutcome.2 (by decide +kernel)).mp
      (by decide +kernel)⟩

/-- `n` subscribers connect and register, and nobody leaves. -/
def crowd (n : Nat) : List Act :=
  (List.range n).map (fun k => .accept .subscriber (Int.ofNat (k + 5))) ++
    (List.range n).map .register

/-- The 51st registration writes to `subscribers[50]`. -/
theorem registration_past_the_end :
    ¬ ∀ (schedule : List Act) (final : State) (trace : List Event),
      exec step State.initial schedule = some (final, trace) →
      ∀ e ∈ trace, ∀ i ∈ accesses e, i < maxClients := by
  intro claim
  cases taken : exec step State.initial (crowd 51) with
  | none =>
    have possible : (exec step State.initial (crowd 51)).isSome = true := by decide +kernel
    rw [taken] at possible
    cases possible
  | some result =>
    obtain ⟨final, trace⟩ := result
    have ends : (exec step State.initial (crowd 51)).map (fun r => r.2.getLast?) =
        some (some (.registered 50 55 50)) := by decide +kernel
    rw [taken, Option.map_some, Option.some.injEq] at ends
    have bound := claim (crowd 51) final trace taken _ (List.mem_of_getLast? ends) 50 (by decide)
    revert bound
    decide

end SportsPubSub.Tcp.Bounds
