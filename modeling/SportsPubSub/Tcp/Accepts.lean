import SportsPubSub.Tcp.Streams

/-!
# The descriptors that the assembly broker serves

broker_tcp.asm stores what `accept` leaves in rax and counts it: behind `.loop_subs` as
an entry of `sub_socks`, behind `.esperar_publisher` as `client_pub`. broker_tcp.c skips
a negative result at both places. The entries are the first two results whatever they
are, so the loop serves descriptors exactly when these and the last result are none of
the kernel's error codes.
-/
namespace SportsPubSub.Tcp.Accepts
open Lib.Posix Lib.Reactive AsmBroker Streams

/-- The listening socket and the result of each `accept`, in order. -/
def accepts (trace : List Event) : List (Int × Int) :=
  trace.filterMap fun
    | (.accept sock, .value rax) => some (sock, rax)
    | _ => none

/-- The entries of `sub_socks` that count. -/
def entries (s : State) : List Int := s.subSocks.take s.numSubs

/-- In the loop that forwards what the publisher sends. -/
def Forwarding (s : State) : Prop :=
  s.pc = .loopRecv ∨ s.pc = .loopBroadcast ∨ s.pc = .broadcastDone

instance (s : State) : Decidable (Forwarding s) := inferInstanceAs (Decidable (_ ∨ _))

/-- Failed accepts do not count: the two entries come from successful accepts of
different subscribers, `client_pub` from one of a publisher, and nothing was sent on an
error code. -/
structure Sound (sockPub sockSub : Int) (trace : List Event) (s : State) : Prop where
  subscribers : ∃ (i j : Nat) (a b : Int), i ≠ j ∧ (accepts trace)[i]? = some (sockSub, a) ∧
    (accepts trace)[j]? = some (sockSub, b) ∧ 0 ≤ a ∧ 0 ≤ b ∧ entries s = [a, b]
  publisher : (sockPub, s.clientPub) ∈ accepts trace ∧ 0 ≤ s.clientPub
  sends : ∀ sock data answer, (.sendto sock data, answer) ∈ trace → 0 ≤ sock

/-- `accept` succeeded the first two times and the last time. -/
def AcceptsSucceed (trace : List Event) : Prop :=
  (∀ e ∈ (accepts trace).take 2, 0 ≤ e.2) ∧ ∀ e ∈ (accepts trace).getLast?, 0 ≤ e.2

/-- A publisher was accepted and is not closed. -/
def serving (s : State) : Bool := !collecting s && s.pc ≠ .esperarPublisher

/-- The variables against what `accept` has returned so far. -/
structure Stored (sockPub sockSub : Int) (trace : List Event) (s : State) : Prop where
  pub : s.sockPub = sockPub
  sub : s.sockSub = sockSub
  log : ∃ pubs : List Int,
    accepts trace = (entries s).map (Prod.mk sockSub) ++ pubs.map (Prod.mk sockPub) ∧
      (collecting s = true → pubs = []) ∧ (serving s = true → pubs.getLast? = some s.clientPub)
  sends : ∀ sock data answer, (.sendto sock data, answer) ∈ trace → sock ∈ entries s

/-- The variables that hold descriptors are as before. -/
structure SameSockets (s next : State) : Prop where
  sockPub : next.sockPub = s.sockPub
  sockSub : next.sockSub = s.sockSub
  subSocks : next.subSocks = s.subSocks
  numSubs : next.numSubs = s.numSubs
  clientPub : next.clientPub = s.clientPub

theorem SameSockets.entries {s next : State} (same : SameSockets s next) :
    entries next = entries s := by
  rw [Accepts.entries, Accepts.entries, same.subSocks, same.numSubs]

theorem accepts_append (a b : List Event) : accepts (a ++ b) = accepts a ++ accepts b :=
  List.filterMap_append

/-- The entry of the turn is one that counts. -/
theorem entry_mem (s : State) (few : s.numSubs ≤ 2) (inside : s.r12 < s.numSubs) :
    s.subSocks.getD s.r12 0 ∈ entries s := by
  have size := s.socks_size
  rw [entries, List.mem_take_iff_getElem]
  refine ⟨s.r12, by omega, ?_⟩
  rw [List.getD_eq_getElem?_getD, List.getElem?_eq_getElem (by omega), Option.getD_some]

/-- The result of `accept` becomes one more entry, whatever it is. -/
theorem entries_storeSub (s : State) (room : s.numSubs < 2) (rax : Int) :
    entries (s.storeSub rax) = entries s ++ [rax] := by
  have size := s.socks_size
  have inside : s.numSubs < (s.subSocks.set s.numSubs rax).length := by
    rw [List.length_set]
    omega
  simp only [entries, State.storeSub]
  rw [List.take_succ_eq_append_getElem inside, List.getElem_set_self,
    List.take_set_of_le (Nat.le_refl _)]

/-- A call other than `accept`. -/
theorem stored_kept (sockPub sockSub : Int) (trace : List Event) (s next : State) (e : Event)
    (inv : Stored sockPub sockSub trace s) (same : SameSockets s next)
    (silent : accepts [e] = [])
    (early : collecting next = true → collecting s = true)
    (later : serving next = true → serving s = true)
    (dest : ∀ sock data answer, (.sendto sock data, answer) = e → sock ∈ entries s) :
    Stored sockPub sockSub (trace ++ [e]) next where
  pub := same.sockPub.trans inv.pub
  sub := same.sockSub.trans inv.sub
  log := by
    obtain ⟨pubs, all, none, last⟩ := inv.log
    refine ⟨pubs, ?_, fun on => none (early on), fun on => ?_⟩
    · rw [accepts_append, silent, List.append_nil, same.entries]
      exact all
    · rw [same.clientPub]
      exact last (later on)
  sends := by
    intro sock data answer mem
    rw [same.entries]
    rcases List.mem_append.mp mem with old | new
    · exact inv.sends sock data answer old
    · exact dest sock data answer (List.mem_singleton.mp new)

/-- `.loop_subs` only moves the position. -/
theorem stored_loopSubs (sockPub sockSub : Int) (trace : List Event) (s : State) (text : Bytes)
    (rax : Int) (inv : Stored sockPub sockSub trace s) (still : collecting s = true) :
    Stored sockPub sockSub (trace ++ [(.write text, .value rax)]) s.loopSubs := by
  have idle : serving s.loopSubs = false := by
    simp only [serving, collecting, State.loopSubs]
    split <;> rfl
  refine stored_kept sockPub sockSub trace s _ _ inv ⟨rfl, rfl, rfl, rfl, rfl⟩ rfl
    (fun _ => still) ?_ ?_
  · intro on
    rw [idle] at on
    cases on
  · intro sock data answer call
    cases call

theorem stored_storeSub (sockPub sockSub : Int) (trace : List Event) (s : State) (rax : Int)
    (inv : Stored sockPub sockSub trace s) (room : s.numSubs < 2) (here : s.pc = .loopSubs) :
    Stored sockPub sockSub (trace ++ [(.accept s.sockSub, .value rax)]) (s.storeSub rax) where
  pub := inv.pub
  sub := inv.sub
  log := by
    obtain ⟨pubs, all, none, -⟩ := inv.log
    have nobody : pubs = [] := none (by simp [collecting, here])
    refine ⟨[], ?_, fun _ => rfl, ?_⟩
    · rw [accepts_append, all, nobody, entries_storeSub s room, inv.sub]
      simp [accepts]
    · simp [serving, collecting, State.storeSub]
  sends := by
    intro sock data answer mem
    rw [entries_storeSub s room]
    rcases List.mem_append.mp mem with old | new
    · exact List.mem_append_left _ (inv.sends sock data answer old)
    · cases List.mem_singleton.mp new

theorem stored_connected (sockPub sockSub : Int) (trace : List Event) (s : State) (rax : Int)
    (inv : Stored sockPub sockSub trace s) :
    Stored sockPub sockSub (trace ++ [(.accept s.sockPub, .value rax)])
      { s with pc := .pubOk, clientPub := rax } where
  pub := inv.pub
  sub := inv.sub
  log := by
    obtain ⟨pubs, all, -, -⟩ := inv.log
    refine ⟨pubs ++ [rax], ?_, ?_, fun _ => List.getLast?_concat⟩
    · rw [accepts_append, all, inv.pub]
      simp [accepts, entries]
    · simp [collecting]
  sends := by
    intro sock data answer mem
    rcases List.mem_append.mp mem with old | new
    · exact inv.sends sock data answer old
    · cases List.mem_singleton.mp new

/-- A call between the `accept` of a publisher and the next one. -/
theorem stored_served (sockPub sockSub : Int) (trace : List Event) (s next : State) (e : Event)
    (inv : Stored sockPub sockSub trace s) (same : SameSockets s next) (silent : accepts [e] = [])
    (on : serving s = true) (done : collecting next = false)
    (dest : ∀ sock data answer, (.sendto sock data, answer) = e → sock ∈ entries s) :
    Stored sockPub sockSub (trace ++ [e]) next := by
  refine stored_kept sockPub sockSub trace s next e inv same silent ?_ (fun _ => on) dest
  intro still
  rw [done] at still
  cases still

theorem stored_step (sockPub sockSub : Int) (trace : List Event) (s next : State) (e : Event)
    (relayed : Relayed trace s) (inv : Stored sockPub sockSub trace s) (moves : Moves s next e) :
    Stored sockPub sockSub (trace ++ [e]) next := by
  cases moves with
  | ready rax here =>
    exact stored_loopSubs sockPub sockSub trace s _ rax inv (by simp [collecting, here])
  | stored rax here =>
    exact stored_storeSub sockPub sockSub trace s rax inv (relayed.room here) here
  | next rax here =>
    exact stored_loopSubs sockPub sockSub trace s _ rax inv (by simp [collecting, here])
  | connected rax here => exact stored_connected sockPub sockSub trace s rax inv
  | shown rax here =>
    exact stored_served sockPub sockSub trace s _ _ inv ⟨rfl, rfl, rfl, rfl, rfl⟩ rfl
      (by simp [serving, collecting, here]) rfl (fun _ _ _ call => by cases call)
  | received chunk here fits =>
    have done : collecting (s.fill chunk fits) = false := by
      simp only [collecting, State.fill, State.loopBroadcast]
      split <;> rfl
    exact stored_served sockPub sockSub trace s _ _ inv ⟨rfl, rfl, rfl, rfl, rfl⟩ rfl
      (by simp [serving, collecting, here]) done (fun _ _ _ call => by cases call)
  | ended rax here off =>
    exact stored_served sockPub sockSub trace s _ _ inv ⟨rfl, rfl, rfl, rfl, rfl⟩ rfl
      (by simp [serving, collecting, here]) rfl (fun _ _ _ call => by cases call)
  | sent rax here =>
    have done : collecting (State.loopBroadcast { s with r12 := s.r12 + 1 }) = false := by
      simp only [collecting, State.loopBroadcast]
      split <;> rfl
    refine stored_served sockPub sockSub trace s _ _ inv ⟨rfl, rfl, rfl, rfl, rfl⟩ rfl
      (by simp [serving, collecting, here]) done ?_
    intro sock data answer call
    cases call
    exact entry_mem s relayed.few (relayed.inside here)
  | forwarded rax here =>
    exact stored_served sockPub sockSub trace s _ _ inv ⟨rfl, rfl, rfl, rfl, rfl⟩ rfl
      (by simp [serving, collecting, here]) rfl (fun _ _ _ call => by cases call)
  | off rax here =>
    exact stored_served sockPub sockSub trace s _ _ inv ⟨rfl, rfl, rfl, rfl, rfl⟩ rfl
      (by simp [serving, collecting, here]) rfl (fun _ _ _ call => by cases call)
  | closed rax here =>
    exact stored_served sockPub sockSub trace s _ _ inv ⟨rfl, rfl, rfl, rfl, rfl⟩ rfl
      (by simp [serving, collecting, here]) rfl (fun _ _ _ call => by cases call)

theorem stored_initial (sockPub sockSub : Int) :
    Stored sockPub sockSub [] (State.initial sockPub sockSub) := by
  refine ⟨rfl, rfl, ⟨[], rfl, fun _ => rfl, ?_⟩, ?_⟩
  · intro on
    cases on
  · intro sock data answer mem
    cases mem

theorem stored_run (sockPub sockSub : Int) (answers : List Answer) (final : State)
    (trace : List Event)
    (run : exec asmBroker (State.initial sockPub sockSub) answers = some (final, trace)) :
    Relayed trace final ∧ Stored sockPub sockSub trace final :=
  exec_invariant asmBroker (fun trace s => Relayed trace s ∧ Stored sockPub sockSub trace s)
    (fun trace s a next events inv taken => by
      obtain ⟨e, rfl, moves⟩ := step_moves s next a events taken
      exact ⟨relayed_step trace s next e inv.1 moves,
        stored_step sockPub sockSub trace s next e inv.1 inv.2 moves⟩)
    answers _ final trace ⟨relayed_initial sockPub sockSub, stored_initial sockPub sockSub⟩ run

theorem serving_forwarding (s : State) (forwarding : Forwarding s) :
    collecting s = false ∧ serving s = true := by
  rcases forwarding with here | here | here <;> simp [serving, collecting, here]

/-- In the loop, `accept` was called twice for subscribers and since then for publishers;
the entries are the first two results and `client_pub` is the last one. -/
theorem accepts_forwarding (sockPub sockSub : Int) (answers : List Answer) (final : State)
    (trace : List Event)
    (run : exec asmBroker (State.initial sockPub sockSub) answers = some (final, trace))
    (forwarding : Forwarding final) : ∃ (a b : Int) (pubs : List (Int × Int)),
      entries final = [a, b] ∧ accepts trace = (sockSub, a) :: (sockSub, b) :: pubs ∧
        pubs.getLast? = some (sockPub, final.clientPub) := by
  obtain ⟨relayed, stored⟩ := stored_run sockPub sockSub answers final trace run
  obtain ⟨done, on⟩ := serving_forwarding final forwarding
  obtain ⟨pubs, all, -, last⟩ := stored.log
  have two : (entries final).length = 2 := by
    rw [entries, relayed.both done, List.length_take, final.socks_size]
    rfl
  obtain ⟨a, b, both⟩ := List.length_eq_two.mp two
  refine ⟨a, b, pubs.map (Prod.mk sockPub), both, ?_, ?_⟩
  · rw [all, both]
    rfl
  · rw [List.getLast?_map, last on, Option.map_some]

/-- The loop serves descriptors of successful accepts exactly when the two accepts for
subscribers and the last one for a publisher succeeded. -/
theorem sound_iff (sockPub sockSub : Int) (answers : List Answer) (final : State)
    (trace : List Event)
    (run : exec asmBroker (State.initial sockPub sockSub) answers = some (final, trace))
    (forwarding : Forwarding final) :
    Sound sockPub sockSub trace final ↔ AcceptsSucceed trace := by
  obtain ⟨a, b, pubs, both, all, last⟩ :=
    accepts_forwarding sockPub sockSub answers final trace run forwarding
  have lastAll : (accepts trace).getLast? = some (sockPub, final.clientPub) := by
    rw [all, List.getLast?_cons_cons, List.getLast?_cons, last]
    rfl
  constructor
  · intro sound
    obtain ⟨-, -, a', b', -, -, -, posA, posB, both'⟩ := sound.subscribers
    rw [both] at both'
    cases both'
    refine ⟨?_, ?_⟩
    · intro e mem
      rw [all] at mem
      rcases List.mem_cons.mp mem with rfl | mem
      · exact posA
      · rw [List.mem_singleton.mp mem]
        exact posB
    · intro e mem
      rw [lastAll] at mem
      cases Option.mem_some.mp mem
      exact sound.publisher.2
  · intro succeed
    have posA : 0 ≤ a := succeed.1 (sockSub, a) (by simp [all])
    have posB : 0 ≤ b := succeed.1 (sockSub, b) (by simp [all])
    have stored := (stored_run sockPub sockSub answers final trace run).2
    refine ⟨⟨0, 1, a, b, by decide, by rw [all]; rfl, by rw [all]; rfl, posA, posB, both⟩, ?_, ?_⟩
    · exact ⟨List.mem_of_getLast? lastAll, succeed.2 (sockPub, final.clientPub) lastAll⟩
    · intro sock data answer mem
      have counted := stored.sends sock data answer mem
      rw [both] at counted
      rcases List.mem_cons.mp counted with rfl | counted
      · exact posA
      · rw [List.mem_singleton.mp counted]
        exact posB

/-- Up to the first `sendto`, which returns `sent`; `first` is what the first `accept`
returned. -/
def loopAnswers (first sent : Int) : List Answer :=
  [.value 41, .value first, .value 31, .value 5, .value 31, .value 7, .value 53,
    .filled (ascii "GOL"), .value sent]

def loopRun (first sent : Int) : State × List Event :=
  (exec asmBroker (State.initial 3 4) (loopAnswers first sent)).getD (State.initial 3 4, [])

theorem sound_iff_connected : Sound 3 4 (loopRun 6 3).2 (loopRun 6 3).1 :=
  (sound_iff 3 4 (loopAnswers 6 3) (loopRun 6 3).1 (loopRun 6 3).2 (by decide +kernel)
    (by decide +kernel)).mpr ⟨by decide +kernel, by decide +kernel⟩

/-- The process has no descriptor left for the first subscriber: the error code takes a
place, and the chunk is sent on it. -/
theorem failed_accept_counts :
    exec asmBroker (State.initial 3 4) (loopAnswers (-24) (-9)) =
        some ((loopRun (-24) (-9)).1, (loopRun (-24) (-9)).2) ∧
      Forwarding (loopRun (-24) (-9)).1 ∧
      accepts (loopRun (-24) (-9)).2 = [(4, -24), (4, 5), (3, 7)] ∧
      entries (loopRun (-24) (-9)).1 = [-24, 5] ∧
      ¬ Sound 3 4 (loopRun (-24) (-9)).2 (loopRun (-24) (-9)).1 := by
  refine ⟨by decide +kernel, by decide +kernel, by decide +kernel, by decide +kernel, ?_⟩
  intro sound
  have issued : (Syscall.sendto (-24) (ascii "GOL"), Answer.value (-9)) ∈
      (loopRun (-24) (-9)).2 := by decide +kernel
  have positive := sound.sends (-24) _ _ issued
  omega

end SportsPubSub.Tcp.Accepts
