import SportsPubSub.Tcp.Bounds

/-!
# Descriptors of the TCP broker

The kernel hands out a number again as soon as it is closed. A handler closes
its socket only after the section that removes it from the array, so a number in
the array is always open and belongs to the handler that registered it. Assumed
on each step: `accept` gives a number that is not open, and a registration finds
room.
-/
namespace SportsPubSub.Tcp.Descriptors
open Lib.Posix Lib.Reactive Lib.UnorderedTable Broker Bounds

/-- The descriptors of the accepted connections that are not closed yet. -/
def openSocks (s : State) : List Int := s.handlers.filterMap Handler.openSock

/-- `accept` fails or returns a descriptor that is not open. -/
def FreshAccept (s : State) : Act → Prop
  | .accept _ client => client < 0 ∨ client ∉ openSocks s
  | _ => True

def Assumed (s : State) (a : Act) : Prop := FreshAccept s a ∧ Room s a

instance (s : State) : (a : Act) → Decidable (FreshAccept s a)
  | .accept _ _ => inferInstanceAs (Decidable (_ ∨ _))
  | .register _ => isTrue trivial
  | .recv _ _ => isTrue trivial
  | .recvEnds _ => isTrue trivial
  | .unregister _ => isTrue trivial
  | .lock _ => isTrue trivial
  | .sendNext _ => isTrue trivial
  | .unlock _ => isTrue trivial
  | .close _ => isTrue trivial

instance (s : State) (a : Act) : Decidable (Assumed s a) :=
  inferInstanceAs (Decidable (_ ∧ _))

def isRegistration (h : Nat) : Event → Bool
  | .registered h' _ _ => h' == h
  | _ => false

def isRemoval (h : Nat) : Event → Bool
  | .unregistered h' _ => h' == h
  | _ => false

/-- A handler before its registration, between its two sections, after them. -/
inductive Phase where
  | before | during | after
  deriving DecidableEq, Repr

def phase : Handler → Phase
  | .subscriber _ .spawned => .before
  | .subscriber _ .registered => .during
  | .subscriber _ .leaving => .during
  | .subscriber _ .removed => .after
  | .subscriber _ .closed => .after
  | .publisher _ _ => .before

def phaseOf (s : State) (h : Nat) : Phase :=
  match s.handlers[h]? with
  | none => .before
  | some x => phase x

/-- The same, read off the sections that the trace records. -/
def tracePhase (h : Nat) (trace : List Event) : Phase :=
  if trace.any (isRemoval h) then .after
  else if trace.any (isRegistration h) then .during
  else .before

theorem listed_iff_during (x : Handler) : x.listed.isSome = true ↔ phase x = .during := by
  cases x with
  | subscriber sock stage => cases stage <;> simp [Handler.listed, phase]
  | publisher sock stage => simp [Handler.listed, phase]

/-- A listed handler is a subscriber whose socket is open. -/
theorem listed_open (x : Handler) (sock : Int) (h : x.listed = some sock) :
    x.openSock = some sock ∧ ∃ stage, x = .subscriber sock stage := by
  cases x with
  | subscriber sock' stage =>
    cases stage with
    | registered =>
      cases h
      exact ⟨rfl, _, rfl⟩
    | leaving =>
      cases h
      exact ⟨rfl, _, rfl⟩
    | spawned => cases h
    | removed => cases h
    | closed => cases h
  | publisher sock' stage => cases h

theorem listed_of_during (sock : Int) (stage : SubStage)
    (during : phase (.subscriber sock stage) = .during) :
    (Handler.subscriber sock stage).listed = some sock := by
  cases stage with
  | registered => rfl
  | leaving => rfl
  | spawned => cases during
  | removed => cases during
  | closed => cases during

theorem phaseOf_become (s : State) (h h' : Nat) (x y : Handler) (here : s.handlers[h]? = some x) :
    phaseOf (s.become h y) h' = if h' = h then phase y else phaseOf s h' := by
  by_cases same : h' = h
  · rw [if_pos same, phaseOf, same, become_here s h x y here]
  · rw [if_neg same, phaseOf, phaseOf, become_other s h h' y same]

theorem tracePhase_append (h : Nat) (trace events : List Event)
    (noRegistration : events.any (isRegistration h) = false)
    (noRemoval : events.any (isRemoval h) = false) :
    tracePhase h (trace ++ events) = tracePhase h trace := by
  simp [tracePhase, List.any_append, noRegistration, noRemoval]

theorem tracePhase_before (h : Nat) (trace : List Event) (b : tracePhase h trace = .before) :
    trace.any (isRegistration h) = false ∧ trace.any (isRemoval h) = false := by
  unfold tracePhase at b
  split at b
  · cases b
  · next noRemoval =>
    split at b
    · cases b
    · next noRegistration => exact ⟨by simpa using noRegistration, by simpa using noRemoval⟩

theorem tracePhase_during (h : Nat) (trace : List Event) (d : tracePhase h trace = .during) :
    trace.any (isRegistration h) = true ∧ trace.any (isRemoval h) = false := by
  unfold tracePhase at d
  split at d
  · cases d
  · next noRemoval =>
    split at d
    · next registration => exact ⟨registration, by simpa using noRemoval⟩
    · cases d

/-- What couples the array, the stages of the threads, the open descriptors and
the past. -/
structure Coupled (trace : List Event) (s : State) : Prop where
  table : TableInv s
  distinct : (openSocks s).Nodup
  phases : ∀ h, phaseOf s h = tracePhase h trace
  names : ∀ h sock index, Event.registered h sock index ∈ trace →
    ∃ stage, s.handlers[h]? = some (.subscriber sock stage)

/-- The handler behind a number in the array. -/
theorem Coupled.owner {trace : List Event} {s : State} (inv : Coupled trace s) (sock : Int)
    (mem : sock ∈ s.table.connected) :
    ∃ h stage, s.handlers[h]? = some (.subscriber sock stage) ∧ s.connection sock = some h ∧
      phaseOf s h = .during := by
  obtain ⟨x, hx, listed⟩ := List.mem_filterMap.mp (inv.table.content.subset mem)
  obtain ⟨h, here⟩ := List.mem_iff_getElem?.mp hx
  obtain ⟨opened, stage, rfl⟩ := listed_open x sock listed
  refine ⟨h, stage, here, ?_, ?_⟩
  · exact findIdx?_owner Handler.openSock s.handlers inv.distinct h _ sock here opened
  · rw [phaseOf, here]
    exact (listed_iff_during _).mp (by rw [listed]; rfl)

/-- Distinct descriptors of registered handlers. -/
theorem Coupled.nodup {trace : List Event} {s : State} (inv : Coupled trace s) :
    (registeredSocks s).Nodup := by
  have sublist : ∀ l : List Handler,
      (l.filterMap Handler.listed).Sublist (l.filterMap Handler.openSock) := by
    intro l
    induction l with
    | nil => exact List.Sublist.refl _
    | cons x rest ih =>
      cases listed : x.listed with
      | none =>
        rw [List.filterMap_cons_none listed, filterMap_cons_toList]
        exact ih.trans (List.sublist_append_right _ _)
      | some sock =>
        rw [List.filterMap_cons_some listed, List.filterMap_cons_some (listed_open x sock listed).1]
        exact ih.cons_cons sock
  exact (sublist s.handlers).nodup inv.distinct

theorem handler_persists (s : State) (h h' : Nat) (x y : Handler) (sock : Int)
    (here : s.handlers[h]? = some x)
    (same : ∀ stage, x = .subscriber sock stage → ∃ stage', y = .subscriber sock stage')
    (old : ∃ stage, s.handlers[h']? = some (.subscriber sock stage)) :
    ∃ stage, (s.become h y).handlers[h']? = some (.subscriber sock stage) := by
  obtain ⟨stage, found⟩ := old
  by_cases equal : h' = h
  · subst equal
    rw [here, Option.some.injEq] at found
    obtain ⟨stage', rfl⟩ := same stage found
    exact ⟨stage', become_here s h' x _ here⟩
  · exact ⟨stage, by rw [become_other s h h' y equal, found]⟩

/-- No section of `handle_subscriber` among the events. -/
def Quiet (events : List Event) : Prop :=
  ∀ h, events.any (isRegistration h) = false ∧ events.any (isRemoval h) = false

theorem phases_quiet (trace events : List Event) (s : State) (inv : Coupled trace s) (h : Nat)
    (x y : Handler) (here : s.handlers[h]? = some x) (same : phase y = phase x)
    (quiet : Quiet events) (h' : Nat) :
    tracePhase h' (trace ++ events) = if h' = h then phase y else tracePhase h' trace := by
  rw [tracePhase_append h' trace events (quiet h').1 (quiet h').2]
  split
  · next equal => rw [equal, same, ← inv.phases h, phaseOf, here]
  · rfl

/-- One handler moves on; it keeps its descriptor or closes it. -/
theorem coupled_become (trace events : List Event) (s next : State) (inv : Coupled trace s)
    (table : TableInv next) (h : Nat) (x y : Handler) (here : s.handlers[h]? = some x)
    (handlers : next.handlers = (s.become h y).handlers)
    (opened : y.openSock = x.openSock ∨ y.openSock = none)
    (phases : ∀ h', tracePhase h' (trace ++ events) =
      if h' = h then phase y else tracePhase h' trace)
    (sameName : ∀ sock stage, x = .subscriber sock stage → ∃ stage', y = .subscriber sock stage')
    (newNames : ∀ h' sock index, Event.registered h' sock index ∈ events →
      h' = h ∧ ∃ stage, y = .subscriber sock stage) : Coupled (trace ++ events) next := by
  refine ⟨table, ?_, ?_, ?_⟩
  · unfold openSocks
    rw [handlers]
    rcases opened with kept | shut
    · have unchanged := filterMap_set_same Handler.openSock s.handlers h x y here kept
      simp only [State.become, unchanged]
      exact inv.distinct
    · have fewer := filterMap_set_perm Handler.openSock s.handlers h x y here
      rw [shut, Option.toList_none, List.nil_append] at fewer
      exact (List.nodup_append.mp (fewer.nodup_iff.mpr inv.distinct)).2.1
  · intro h'
    have moved : phaseOf next h' = phaseOf (s.become h y) h' := by simp only [phaseOf, handlers]
    rw [moved, phaseOf_become s h h' x y here, phases h', inv.phases h']
  · intro h' sock index mem
    rw [handlers]
    rcases List.mem_append.mp mem with old | new
    · exact handler_persists s h h' x y sock here (sameName sock) (inv.names h' sock index old)
    · obtain ⟨rfl, stage, rfl⟩ := newNames h' sock index new
      exact ⟨stage, become_here s h' x _ here⟩

/-- A move between the sections: same phase, nothing recorded about sections. -/
theorem coupled_quiet (trace events : List Event) (s next : State) (inv : Coupled trace s)
    (table : TableInv next) (h : Nat) (x y : Handler) (here : s.handlers[h]? = some x)
    (handlers : next.handlers = (s.become h y).handlers)
    (opened : y.openSock = x.openSock ∨ y.openSock = none) (same : phase y = phase x)
    (sameName : ∀ sock stage, x = .subscriber sock stage → ∃ stage', y = .subscriber sock stage')
    (quiet : Quiet events) : Coupled (trace ++ events) next := by
  apply coupled_become trace events s next inv table h x y here handlers opened
    (phases_quiet trace events s inv h x y here same quiet) sameName
  intro h' sock index mem
  have no := List.any_eq_false.mp (quiet h').1 _ mem
  simp [isRegistration] at no

/-- A subscriber that moves on keeps its descriptor. -/
theorem same_subscriber (sock sock' : Int) (stage stage' old : SubStage)
    (same : Handler.subscriber sock stage = .subscriber sock' old) :
    ∃ later, Handler.subscriber sock stage' = .subscriber sock' later := by
  cases same
  exact ⟨stage', rfl⟩

/-- The moves of a publisher never touch the array. -/
theorem coupled_publisher (trace events : List Event) (s next : State) (inv : Coupled trace s)
    (table : TableInv next) (h : Nat) (sock : Int) (stage stage' : PubStage)
    (here : s.handlers[h]? = some (.publisher sock stage))
    (handlers : next.handlers = (s.become h (.publisher sock stage')).handlers)
    (opened : (Handler.publisher sock stage').openSock = (Handler.publisher sock stage).openSock ∨
      (Handler.publisher sock stage').openSock = none)
    (quiet : Quiet events) : Coupled (trace ++ events) next :=
  coupled_quiet trace events s next inv table h _ _ here handlers opened rfl
    (fun _ _ same => by cases same) quiet

theorem openSocks_accept (s : State) (role : Role) (client : Int)
    (fresh : client < 0 ∨ client ∉ openSocks s) (distinct : (openSocks s).Nodup) :
    (openSocks (s.accept role client)).Nodup := by
  unfold State.accept
  split
  · exact distinct
  · next valid =>
    have opened : (role.handler client).openSock = some client := by
      cases role with
      | subscriber => rfl
      | publisher => rfl
    simp only [openSocks, List.filterMap_append, List.filterMap_cons_some opened,
      List.filterMap_nil]
    rw [List.nodup_append]
    refine ⟨distinct, List.nodup_singleton client, ?_⟩
    intro a ha b hb same
    rw [List.mem_singleton.mp hb] at same
    exact fresh.resolve_left valid (same ▸ ha)

theorem coupled_accept (trace : List Event) (s : State) (inv : Coupled trace s) (role : Role)
    (client : Int) (fresh : client < 0 ∨ client ∉ openSocks s) :
    Coupled (trace ++ []) (s.accept role client) := by
  have unborn : phase (role.handler client) = .before := by
    cases role with
    | subscriber => rfl
    | publisher => rfl
  rw [List.append_nil]
  refine ⟨tableInv_step s _ _ [] inv.table (.accepted role client) trivial,
    openSocks_accept s role client fresh inv.distinct, ?_, ?_⟩
  · intro h
    rw [← inv.phases h, phaseOf, phaseOf]
    rcases handlers_accept s role client h with same | ⟨absent, new⟩
    · rw [same]
    · rw [absent, new]
      exact unborn
  · intro h sock index mem
    obtain ⟨stage, found⟩ := inv.names h sock index mem
    refine ⟨stage, ?_⟩
    rcases handlers_accept s role client h with same | ⟨absent, -⟩
    · rw [same, found]
    · rw [absent] at found
      cases found

theorem coupled_step (trace : List Event) (s next : State) (a : Act) (events : List Event)
    (inv : Coupled trace s) (assumed : Assumed s a) (moves : Moves s a next events) :
    Coupled (trace ++ events) next := by
  have table := tableInv_step s next a events inv.table moves assumed.2
  have none : Quiet [] := fun h => ⟨rfl, rfl⟩
  cases moves with
  | accepted role client => exact coupled_accept trace s inv role client assumed.1
  | skipped h chunk =>
    rw [List.append_nil]
    exact inv
  | registered h sock here free =>
    have stage : tracePhase h trace = .before := by
      rw [← inv.phases h, phaseOf, here]
      rfl
    obtain ⟨noRegistration, noRemoval⟩ := tracePhase_before h trace stage
    refine coupled_become trace _ s _ inv table h _ _ here rfl (.inl rfl) ?_
      (fun sock' old => same_subscriber sock sock' _ _ old) ?_
    · intro h'
      split
      · next same =>
        subst same
        simp [tracePhase, List.any_append, noRemoval, isRegistration, isRemoval, phase]
      · next other =>
        exact tracePhase_append h' trace _ (by simp [isRegistration, Ne.symm other])
          (by simp [isRemoval])
    · intro h' sock' index mem
      cases List.mem_singleton.mp mem
      exact ⟨rfl, _, rfl⟩
  | unregistered h sock here free =>
    refine coupled_become trace _ s _ inv table h _ _ here rfl (.inl rfl) ?_
      (fun sock' old => same_subscriber sock sock' _ _ old) ?_
    · intro h'
      split
      · next same =>
        subst same
        simp [tracePhase, List.any_append, isRemoval, phase]
      · next other =>
        exact tracePhase_append h' trace _ (by simp [isRegistration])
          (by simp [isRemoval, Ne.symm other])
    · intro h' sock' index mem
      cases List.mem_singleton.mp mem
  | left h sock here =>
    exact coupled_quiet trace _ s _ inv table h _ _ here rfl (.inl rfl) rfl
      (fun sock' old => same_subscriber sock sock' _ _ old) none
  | closedSubscriber h sock here =>
    exact coupled_quiet trace _ s _ inv table h _ _ here rfl (.inr rfl) rfl
      (fun sock' old => same_subscriber sock sock' _ _ old) none
  | received h sock chunk here =>
    exact coupled_publisher trace _ s _ inv table h sock _ _ here rfl (.inl rfl) fun _ => ⟨rfl, rfl⟩
  | ended h sock here =>
    exact coupled_publisher trace _ s _ inv table h sock _ _ here rfl (.inl rfl) none
  | locked h sock chunk here free =>
    exact coupled_publisher trace _ s _ inv table h sock _ _ here rfl (.inl rfl) fun _ => ⟨rfl, rfl⟩
  | sent h sock chunk i here inside =>
    exact coupled_publisher trace _ s _ inv table h sock _ _ here rfl (.inl rfl) fun _ => ⟨rfl, rfl⟩
  | unlocked h sock chunk i here done =>
    exact coupled_publisher trace _ s _ inv table h sock _ _ here rfl (.inl rfl) none
  | closedPublisher h sock here =>
    exact coupled_publisher trace _ s _ inv table h sock _ _ here rfl (.inr rfl) none

/-- Handler `h` has registered under `sock` and not yet unregistered. -/
def Live (trace : List Event) (h : Nat) (sock : Int) : Prop :=
  (∃ index, Event.registered h sock index ∈ trace) ∧
    ∀ indices, Event.unregistered h indices ∉ trace

/-- The listed handlers are those the trace calls live. -/
theorem Coupled.live_iff {trace : List Event} {s : State} (inv : Coupled trace s) (h : Nat)
    (sock : Int) :
    (∃ x, s.handlers[h]? = some x ∧ x.listed = some sock) ↔ Live trace h sock := by
  constructor
  · rintro ⟨x, here, listed⟩
    obtain ⟨-, stage, rfl⟩ := listed_open x sock listed
    have during : tracePhase h trace = .during := by
      rw [← inv.phases h, phaseOf, here]
      exact (listed_iff_during _).mp (by rw [listed]; rfl)
    obtain ⟨registration, noRemoval⟩ := tracePhase_during h trace during
    constructor
    · obtain ⟨e, mem, isReg⟩ := List.any_eq_true.mp registration
      cases e with
      | registered h' sock' index =>
        have same : h' = h := by simpa [isRegistration] using isReg
        subst same
        obtain ⟨stage', found⟩ := inv.names h' sock' index mem
        rw [here, Option.some.injEq, Handler.subscriber.injEq] at found
        rw [found.1]
        exact ⟨index, mem⟩
      | unregistered h' indices => cases isReg
      | received h' chunk => cases isReg
      | begun h' chunk => cases isReg
      | sent sender index sock' dest chunk => cases isReg
    · intro indices mem
      have no := List.any_eq_false.mp noRemoval _ mem
      simp [isRemoval] at no
  · rintro ⟨⟨index, mem⟩, noRemoval⟩
    obtain ⟨stage, here⟩ := inv.names h sock index mem
    have registration : trace.any (isRegistration h) = true :=
      List.any_eq_true.mpr ⟨_, mem, by simp [isRegistration]⟩
    have removal : trace.any (isRemoval h) = false := by
      apply List.any_eq_false.mpr
      intro e he isRem
      cases e with
      | unregistered h' indices =>
        have same : h' = h := by simpa [isRemoval] using isRem
        rw [same] at he
        exact noRemoval indices he
      | registered h' sock' index' => cases isRem
      | received h' chunk => cases isRem
      | begun h' chunk => cases isRem
      | sent sender index' sock' dest chunk => cases isRem
    have during : phase (.subscriber sock stage) = .during := by
      have stages := inv.phases h
      rw [phaseOf, here] at stages
      dsimp only at stages
      rw [stages, tracePhase, removal, registration]
      rfl
    exact ⟨_, here, listed_of_during sock stage during⟩

/-- A send goes to the open connection of a live subscriber. -/
def ToLive (before : List Event) : Event → Prop
  | .sent _ _ sock dest _ => ∃ h, dest = some h ∧ Live before h sock
  | _ => True

theorem toLive_step (trace : List Event) (s next : State) (a : Act) (events : List Event)
    (inv : Coupled trace s) (moves : Moves s a next events) (past : Justified ToLive trace) :
    Justified ToLive (trace ++ events) := by
  rcases moves.event with rfl | ⟨e, rfl, cause⟩
  · simpa using past
  · apply past.snoc
    cases cause with
    | sent h sock chunk i here inside =>
      have mem := List.mem_of_getElem? (connected_getElem s.table inv.table.bounded i inside)
      obtain ⟨owner, stage, found, connection, during⟩ := inv.owner _ mem
      rw [phaseOf, found] at during
      exact ⟨owner, connection, (inv.live_iff owner _).mp
        ⟨_, found, listed_of_during _ stage during⟩⟩
    | registered h sock here => trivial
    | received h sock chunk here => trivial
    | unregistered h sock here => trivial
    | begun h sock chunk here => trivial

theorem coupled_initial : Coupled [] State.initial :=
  ⟨tableInv_initial, List.nodup_nil, fun _ => rfl, fun _ _ _ mem => by cases mem⟩

theorem coupled_run (schedule : List Act) (final : State) (trace : List Event)
    (run : exec step State.initial schedule = some (final, trace))
    (assumed : Along step Assumed State.initial schedule) :
    Coupled trace final ∧ Justified ToLive trace := by
  have whole := exec_invariant_along step Assumed
    (fun trace s => Coupled trace s ∧ Justified ToLive trace)
    (by
      intro trace s a next events inv here taken
      have moves := step_moves s next a events taken
      exact ⟨coupled_step trace s next a events inv.1 here moves,
        toLive_step trace s next a events inv.1 moves inv.2⟩)
    schedule [] State.initial final trace ⟨coupled_initial, justified_nil _⟩ assumed run
  simpa using whole

/-- With fresh descriptors and room for every registration, the used part of the
array is the multiset of the sockets of the live subscribers, each once; and
every descriptor of a broadcast denotes, when it is used, the open connection of
a live subscriber, never a publisher's. -/
theorem table_exact (schedule : List Act) (final : State) (trace : List Event)
    (run : exec step State.initial schedule = some (final, trace))
    (assumed : Along step Assumed State.initial schedule) :
    final.table.connected.Perm (registeredSocks final) ∧ (registeredSocks final).Nodup ∧
      (∀ h sock, (∃ x, final.handlers[h]? = some x ∧ x.listed = some sock) ↔ Live trace h sock) ∧
      ∀ before sender index sock dest chunk after,
        trace = before ++ .sent sender index sock dest chunk :: after →
        ∃ h stage, dest = some h ∧ Live before h sock ∧
          final.handlers[h]? = some (.subscriber sock stage) := by
  obtain ⟨coupled, past⟩ := coupled_run schedule final trace run assumed
  refine ⟨coupled.table.content, coupled.nodup, coupled.live_iff, ?_⟩
  intro before sender index sock dest chunk after split
  obtain ⟨h, found, live⟩ := past before _ after split
  obtain ⟨index', mem⟩ := live.1
  obtain ⟨stage, handler⟩ := coupled.names h sock index'
    (by rw [split]; exact List.mem_append_left _ mem)
  exact ⟨h, stage, found, live, handler⟩

/-- A subscriber gets one chunk and leaves; its number is then reused by a
publisher while another subscriber stays. -/
def reuse : List Act :=
  [.accept .subscriber 5, .accept .subscriber 6, .accept .publisher 7, .register 0, .register 1,
    .recv 2 (ascii "GOL"), .lock 2, .sendNext 2, .sendNext 2, .unlock 2, .recvEnds 0,
    .unregister 0, .close 0, .accept .publisher 5, .recv 3 (ascii "FIN"), .lock 3, .sendNext 3]

def reuseOutcome : State × List Event :=
  (exec step State.initial reuse).getD (State.initial, [])

theorem table_exact_sample :
    reuseOutcome.1.table.connected.Perm (registeredSocks reuseOutcome.1) ∧
      (registeredSocks reuseOutcome.1).Nodup :=
  have whole := table_exact reuse reuseOutcome.1 reuseOutcome.2 (by decide +kernel)
    (by decide +kernel)
  ⟨whole.1, whole.2.1⟩

end SportsPubSub.Tcp.Descriptors
