import Mathlib.Data.List.Forall2
import Mathlib.Data.List.TakeWhile
import Mathlib.Order.Basic

/-!
# Reactive machines and guarded systems

Support library, independent of any particular program. A machine answers every
input; a guarded system may refuse an action and records the events of the
actions it takes. Each induction over runs is done once here: a property of one
step gives the property of whole runs. No fairness or termination is claimed.
-/
namespace SportsPubSub.Lib.Reactive

variable {σ ι ω α ε : Type*}

/-- One input gives the next state and the outputs issued, in order. -/
abbrev Machine (σ ι ω : Type*) := σ → ι → σ × List ω

/-- State after a finite sequence of inputs. -/
def runFrom (m : Machine σ ι ω) : σ → List ι → σ
  | s, [] => s
  | s, i :: rest => runFrom m (m s i).1 rest

/-- Outputs issued along a finite sequence of inputs, in order. -/
def outputsFrom (m : Machine σ ι ω) : σ → List ι → List ω
  | _, [] => []
  | s, i :: rest => (m s i).2 ++ outputsFrom m (m s i).1 rest

@[simp] theorem runFrom_nil (m : Machine σ ι ω) (s : σ) : runFrom m s [] = s := rfl

@[simp] theorem runFrom_cons (m : Machine σ ι ω) (s : σ) (i : ι) (rest : List ι) :
    runFrom m s (i :: rest) = runFrom m (m s i).1 rest := rfl

@[simp] theorem outputsFrom_nil (m : Machine σ ι ω) (s : σ) : outputsFrom m s [] = [] := rfl

@[simp] theorem outputsFrom_cons (m : Machine σ ι ω) (s : σ) (i : ι) (rest : List ι) :
    outputsFrom m s (i :: rest) = (m s i).2 ++ outputsFrom m (m s i).1 rest := rfl

theorem runFrom_append (m : Machine σ ι ω) (s : σ) (xs ys : List ι) :
    runFrom m s (xs ++ ys) = runFrom m (runFrom m s xs) ys := by
  induction xs generalizing s with
  | nil => rfl
  | cons i rest ih => exact ih _

theorem outputsFrom_append (m : Machine σ ι ω) (s : σ) (xs ys : List ι) :
    outputsFrom m s (xs ++ ys) = outputsFrom m s xs ++ outputsFrom m (runFrom m s xs) ys := by
  induction xs generalizing s with
  | nil => rfl
  | cons i rest ih =>
    rw [List.cons_append, outputsFrom_cons, ih, outputsFrom_cons, List.append_assoc]
    rfl

/-- A property kept by every single reaction is kept by every run. -/
theorem runFrom_invariant (m : Machine σ ι ω) (Inv : σ → Prop)
    (step : ∀ s i, Inv s → Inv (m s i).1) (s : σ) (xs : List ι) (start : Inv s) :
    Inv (runFrom m s xs) := by
  induction xs generalizing s with
  | nil => exact start
  | cons i rest ih => exact ih _ (step s i start)

/-- An action is refused (`none`) or taken, with the events it leaves behind. -/
abbrev System (σ α ε : Type*) := σ → α → Option (σ × List ε)

/-- Execute a schedule; one refused action makes the whole schedule impossible. -/
def exec (step : System σ α ε) : σ → List α → Option (σ × List ε)
  | s, [] => some (s, [])
  | s, a :: rest =>
      match step s a with
      | none => none
      | some (next, events) =>
          match exec step next rest with
          | none => none
          | some (final, later) => some (final, events ++ later)

/-- The simulation rule: when every step from related states succeeds with events that
correspond to the machine's outputs and leaves related states, no schedule is refused
and the events of a whole run correspond to the outputs of the machine's run. -/
theorem exec_corresponds {τ : Type*} (step : System σ α ε) (m : Machine τ ι ω) (input : α → ι)
    (Shows : ω → ε → Prop) (R : σ → τ → Prop)
    (simulated : ∀ s t a, R s t → ∃ next events, step s a = some (next, events) ∧
      List.Forall₂ Shows (m t (input a)).2 events ∧ R next (m t (input a)).1)
    (as : List α) (s : σ) (t : τ) (start : R s t) :
    ∃ final trace, exec step s as = some (final, trace) ∧
      List.Forall₂ Shows (outputsFrom m t (as.map input)) trace ∧
      R final (runFrom m t (as.map input)) := by
  induction as generalizing s t with
  | nil => exact ⟨s, [], rfl, .nil, start⟩
  | cons a rest ih =>
    obtain ⟨next, events, taken, shows, related⟩ := simulated s t a start
    obtain ⟨final, later, tail, showsLater, ends⟩ := ih next _ related
    refine ⟨final, events ++ later, ?_, ?_, ends⟩
    · simp only [exec, taken, tail]
    · rw [List.map_cons, outputsFrom_cons]
      exact List.rel_append shows showsLater

/-- The simulation rule when the events are the outputs themselves, in another type. -/
theorem exec_simulates {τ : Type*} (step : System σ α ε) (m : Machine τ ι ω) (input : α → ι)
    (shown : ω → ε) (R : σ → τ → Prop)
    (simulated : ∀ s t a, R s t →
      ∃ next, step s a = some (next, (m t (input a)).2.map shown) ∧ R next (m t (input a)).1)
    (as : List α) (s : σ) (t : τ) (start : R s t) :
    ∃ final, exec step s as = some (final, (outputsFrom m t (as.map input)).map shown) ∧
      R final (runFrom m t (as.map input)) := by
  have image : ∀ (os : List ω) (es : List ε),
      List.Forall₂ (fun o e => shown o = e) os es ↔ os.map shown = es := by
    intro os es
    rw [← List.forall₂_map_left_iff, List.forall₂_eq_eq_eq]
  obtain ⟨final, trace, run, shows, ends⟩ := exec_corresponds step m input
    (fun o e => shown o = e) R
    (fun s t a related => by
      obtain ⟨next, taken, after⟩ := simulated s t a related
      exact ⟨next, _, taken, (image _ _).mpr rfl, after⟩)
    as s t start
  rw [image] at shows
  exact ⟨final, shows ▸ run, ends⟩

/-- Two systems in lockstep: when each action is refused by both or taken by both, and the
relation between the two traces and the two states is kept, the same holds of whole
schedules. -/
theorem exec_lockstep {τ β δ : Type*} (step : System σ α ε) (step' : System τ β δ) (act : α → β)
    (R : List ε → List δ → σ → τ → Prop)
    (together : ∀ trace trace' s t a, R trace trace' s t →
      Option.Rel (fun x y => R (trace ++ x.2) (trace' ++ y.2) x.1 y.1)
        (step s a) (step' t (act a)))
    (as : List α) (before : List ε) (before' : List δ) (s : σ) (t : τ)
    (start : R before before' s t) :
    Option.Rel (fun x y => R (before ++ x.2) (before' ++ y.2) x.1 y.1)
      (exec step s as) (exec step' t (as.map act)) := by
  induction as generalizing before before' s t with
  | nil =>
    simp only [exec, List.map_nil]
    exact .some (by simpa using start)
  | cons a rest ih =>
    have first := together before before' s t a start
    rw [List.map_cons]
    unfold exec
    generalize step s a = x at first ⊢
    generalize step' t (act a) = y at first ⊢
    cases first with
    | none => exact .none
    | some taken =>
      have later := ih _ _ _ _ taken
      dsimp only
      generalize exec step _ rest = x at later ⊢
      generalize exec step' _ (rest.map act) = y at later ⊢
      cases later with
      | none => exact .none
      | some tail =>
        simp only [List.append_assoc] at tail
        exact .some tail

/-- What a schedule leaves behind, for runs on fixed inputs. -/
def traceOf (step : System σ α ε) (s : σ) (as : List α) : List ε :=
  match exec step s as with
  | none => []
  | some (_, trace) => trace

theorem exec_traceOf (step : System σ α ε) (s : σ) (as : List α) (taken : traceOf step s as ≠ []) :
    ∃ final, exec step s as = some (final, traceOf step s as) := by
  unfold traceOf at taken ⊢
  split
  · next refused =>
    rw [refused] at taken
    exact absurd rfl taken
  · next final trace run => exact ⟨final, run⟩

/-- An assumption on every step of a schedule, evaluated in the state in which
the step is taken. -/
def Along (step : System σ α ε) (P : σ → α → Prop) : σ → List α → Prop
  | _, [] => True
  | s, a :: rest =>
      P s a ∧ ∀ next events, step s a = some (next, events) → Along step P next rest

/-- A decidable assumption can be checked by running the schedule. -/
def decideAlong (step : System σ α ε) (P : σ → α → Prop) [∀ s a, Decidable (P s a)] :
    (s : σ) → (as : List α) → Decidable (Along step P s as)
  | _, [] => isTrue trivial
  | s, a :: rest =>
      if here : P s a then
        match taken : step s a with
        | none => isTrue ⟨here, fun _ _ h => by rw [taken] at h; cases h⟩
        | some (next, events) =>
            match decideAlong step P next rest with
            | isTrue later => isTrue ⟨here, fun _ _ h => by rw [taken] at h; cases h; exact later⟩
            | isFalse fails => isFalse fun h => fails (h.2 next events taken)
      else isFalse fun h => here h.1

instance (step : System σ α ε) (P : σ → α → Prop) [∀ s a, Decidable (P s a)] (s : σ)
    (as : List α) : Decidable (Along step P s as) := decideAlong step P s as

theorem exec_cons (step : System σ α ε) (s final : σ) (a : α) (rest : List α) (trace : List ε)
    (h : exec step s (a :: rest) = some (final, trace)) :
    ∃ next events later, step s a = some (next, events) ∧
      exec step next rest = some (final, later) ∧ trace = events ++ later := by
  cases taken : step s a with
  | none => simp [exec, taken] at h
  | some result =>
    obtain ⟨next, events⟩ := result
    cases tail : exec step next rest with
    | none => simp [exec, taken, tail] at h
    | some result =>
      obtain ⟨last, later⟩ := result
      simp only [exec, taken, tail, Option.some.injEq, Prod.mk.injEq] at h
      obtain ⟨rfl, rfl⟩ := h
      exact ⟨next, events, later, rfl, tail, rfl⟩

/-- The invariant rule: `Inv` relates the events so far to the state, and each
step that meets the assumption `P` keeps it. -/
theorem exec_invariant_along (step : System σ α ε) (P : σ → α → Prop)
    (Inv : List ε → σ → Prop)
    (keep : ∀ trace s a next events, Inv trace s → P s a →
      step s a = some (next, events) → Inv (trace ++ events) next)
    (as : List α) (before : List ε) (s final : σ) (trace : List ε) (start : Inv before s)
    (assumed : Along step P s as) (run : exec step s as = some (final, trace)) :
    Inv (before ++ trace) final := by
  induction as generalizing before s trace with
  | nil =>
    simp only [exec, Option.some.injEq, Prod.mk.injEq] at run
    obtain ⟨rfl, rfl⟩ := run
    simpa using start
  | cons a rest ih =>
    obtain ⟨next, events, later, taken, tail, rfl⟩ := exec_cons step s final a rest trace run
    rw [← List.append_assoc]
    exact ih _ next later (keep before s a next events start assumed.1 taken)
      (assumed.2 next events taken) tail

theorem along_true (step : System σ α ε) (s : σ) (as : List α) :
    Along step (fun _ _ => True) s as := by
  induction as generalizing s with
  | nil => trivial
  | cons a rest ih => exact ⟨trivial, fun next _ _ => ih next⟩

/-- The invariant rule without an assumption on the steps. -/
theorem exec_invariant (step : System σ α ε) (Inv : List ε → σ → Prop)
    (keep : ∀ trace s a next events, Inv trace s →
      step s a = some (next, events) → Inv (trace ++ events) next)
    (as : List α) (s final : σ) (trace : List ε) (start : Inv [] s)
    (run : exec step s as = some (final, trace)) : Inv trace final := by
  have h := exec_invariant_along step (fun _ _ => True) Inv
    (fun trace s a next events inv _ => keep trace s a next events inv)
    as [] s final trace start (along_true step s as) run
  simpa using h

/-- Every event of the trace is justified by the events before it. -/
def Justified (J : List ε → ε → Prop) (trace : List ε) : Prop :=
  ∀ before e after, trace = before ++ e :: after → J before e

theorem justified_nil (J : List ε → ε → Prop) : Justified J [] := by
  intro before e after split
  simp at split

/-- A trace stays justified when each appended event is. -/
theorem Justified.append {J : List ε → ε → Prop} {trace events : List ε}
    (old : Justified J trace)
    (new : ∀ before e after, events = before ++ e :: after → J (trace ++ before) e) :
    Justified J (trace ++ events) := by
  intro before e after split
  rcases List.append_eq_append_iff.mp split with ⟨mid, hbefore, hevents⟩ | ⟨mid, htrace, hafter⟩
  · rw [hbefore]
    exact new mid e after hevents
  · cases mid with
    | nil =>
      rw [List.append_nil] at htrace
      rw [← htrace]
      simpa using new [] e after hafter.symm
    | cons first rest =>
      simp only [List.cons_append, List.cons.injEq] at hafter
      obtain ⟨rfl, -⟩ := hafter
      exact old before e rest htrace

/-- Appending one event. -/
theorem Justified.snoc {J : List ε → ε → Prop} {trace : List ε} {e : ε}
    (old : Justified J trace) (new : J trace e) : Justified J (trace ++ [e]) := by
  refine old.append ?_
  intro before e' after split
  cases before with
  | nil =>
    simp only [List.nil_append, List.cons.injEq] at split
    obtain ⟨rfl, -⟩ := split
    simpa using new
  | cons first rest => simp at split

/-- Appending events that the old trace alone justifies, when later events never
withdraw a justification. -/
theorem Justified.append_all {J : List ε → ε → Prop} {trace events : List ε}
    (mono : ∀ before more e, J before e → J (before ++ more) e)
    (old : Justified J trace) (new : ∀ e ∈ events, J trace e) : Justified J (trace ++ events) := by
  apply old.append
  intro before e after split
  apply mono
  apply new
  rw [split]
  exact List.mem_append_right _ (List.mem_cons_self)

/-- What precedes an event of a justified trace is itself justified. -/
theorem Justified.before {J : List ε → ε → Prop} {before after : List ε}
    (h : Justified J (before ++ after)) : Justified J before := by
  intro earlier e later split
  apply h earlier e (later ++ after)
  rw [split, List.append_assoc, List.cons_append]

/-- A justified trace cut right after one of its events is justified. -/
theorem Justified.upto {J : List ε → ε → Prop} {before after : List ε} {e : ε}
    (h : Justified J (before ++ e :: after)) : Justified J (before ++ [e]) := by
  rw [← List.singleton_append, ← List.append_assoc] at h
  exact h.before

/-- Every event of a justified trace is justified by the whole trace. -/
theorem Justified.of_mem {J : List ε → ε → Prop} {trace : List ε}
    (mono : ∀ before more e, J before e → J (before ++ more) e)
    (h : Justified J trace) (e : ε) (mem : e ∈ trace) : J trace e := by
  obtain ⟨before, after, split⟩ := List.append_of_mem mem
  rw [split]
  exact mono _ _ e (h before e after split)

/-- The part of a trace before its first event of a kind. -/
def upTo (kind : ε → Bool) (trace : List ε) : List ε := trace.takeWhile fun e => !kind e

theorem upTo_of_absent (kind : ε → Bool) (trace : List ε) (absent : trace.any kind = false) :
    upTo kind trace = trace := by
  rw [upTo, List.takeWhile_eq_self_iff]
  intro e he
  simpa using List.any_eq_false.mp absent e he

/-- Once it has happened, later events do not move the first one of its kind. -/
theorem upTo_append_of_present (kind : ε → Bool) (trace more : List ε)
    (present : trace.any kind = true) : upTo kind (trace ++ more) = upTo kind trace := by
  unfold upTo
  rw [List.takeWhile_append]
  split
  · next whole =>
    obtain ⟨e, he, isKind⟩ := List.any_eq_true.mp present
    have all := (List.takeWhile_prefix (fun e => !kind e) (l := trace)).eq_of_length whole
    have none := List.takeWhile_eq_self_iff.mp all e he
    simp [isKind] at none
  · rfl

theorem upTo_append_of_absent (kind : ε → Bool) (trace more : List ε)
    (absent : trace.any kind = false) : upTo kind (trace ++ more) = trace ++ upTo kind more := by
  have whole := upTo_of_absent kind trace absent
  unfold upTo at whole ⊢
  rw [List.takeWhile_append, whole, if_pos rfl]

end SportsPubSub.Lib.Reactive
