import Mathlib.Data.List.Perm.Basic
import Mathlib.Data.List.Nodup

/-!
# Unordered tables and rosters

Support library. A table without holes removes an element by moving its last one
into the gap; as a multiset that is a plain removal. A roster lists participants
that change one at a time, and the keys of those who qualify are a `filterMap`:
one change adds or removes at most one key, and distinct keys identify their
owners.
-/
namespace SportsPubSub.Lib.UnorderedTable

variable {α β : Type*}

/-- Remove the first occurrence of `x`, filling the gap with the last element. -/
def swapRemove [DecidableEq α] (x : α) : List α → List α
  | [] => []
  | y :: rest =>
      if y = x then
        match rest.getLast? with
        | none => []
        | some last => last :: rest.dropLast
      else y :: swapRemove x rest

/-- As a multiset, moving the last element into the gap only removes `x`. -/
theorem swapRemove_perm [DecidableEq α] (x : α) (l : List α) (h : x ∈ l) :
    (x :: swapRemove x l).Perm l := by
  induction l with
  | nil => cases h
  | cons y rest ih =>
    unfold swapRemove
    split
    · next same =>
      subst same
      split
      · next empty =>
        rw [List.getLast?_eq_none_iff.mp empty]
      · next last ends =>
        obtain ⟨front, rfl⟩ := List.getLast?_eq_some_iff.mp ends
        rw [List.dropLast_concat]
        apply List.Perm.cons
        exact (List.perm_append_singleton last front).symm
    · next other =>
      have later : x ∈ rest := by
        rcases List.mem_cons.mp h with here | later
        · exact absurd here.symm other
        · exact later
      calc
        (x :: y :: swapRemove x rest).Perm (y :: x :: swapRemove x rest) := List.Perm.swap y x _
        (y :: x :: swapRemove x rest).Perm (y :: rest) := List.Perm.cons y (ih later)

theorem filterMap_cons_toList (f : α → Option β) (x : α) (l : List α) :
    (x :: l).filterMap f = (f x).toList ++ l.filterMap f := by
  cases h : f x with
  | none => rw [List.filterMap_cons_none h, Option.toList_none, List.nil_append]
  | some key => rw [List.filterMap_cons_some h, Option.toList_some, List.singleton_append]

/-- One participant changes: its old key leaves, its new key enters. -/
theorem filterMap_set_perm (f : α → Option β) (l : List α) (i : Nat) (x y : α)
    (h : l[i]? = some x) :
    ((f x).toList ++ (l.set i y).filterMap f).Perm ((f y).toList ++ l.filterMap f) := by
  obtain ⟨hi, rfl⟩ := List.getElem?_eq_some_iff.mp h
  have old : l.filterMap f =
      (l.take i).filterMap f ++ ((f l[i]).toList ++ (l.drop (i + 1)).filterMap f) := by
    calc
      l.filterMap f = (l.take i ++ l[i] :: l.drop (i + 1)).filterMap f := by
        rw [← List.drop_eq_getElem_cons hi, List.take_append_drop]
      _ = _ := by rw [List.filterMap_append, filterMap_cons_toList]
  have new : (l.set i y).filterMap f =
      (l.take i).filterMap f ++ ((f y).toList ++ (l.drop (i + 1)).filterMap f) := by
    rw [List.set_eq_take_append_cons_drop, if_pos hi, List.filterMap_append, filterMap_cons_toList]
  rw [old, new]
  generalize (l.take i).filterMap f = before
  generalize (l.drop (i + 1)).filterMap f = after
  calc
    ((f l[i]).toList ++ (before ++ ((f y).toList ++ after))).Perm
        ((f l[i]).toList ++ ((f y).toList ++ (before ++ after))) :=
      List.Perm.append_left _ (List.perm_append_comm_assoc _ _ _)
    ((f l[i]).toList ++ ((f y).toList ++ (before ++ after))).Perm
        ((f y).toList ++ ((f l[i]).toList ++ (before ++ after))) :=
      List.perm_append_comm_assoc _ _ _
    ((f y).toList ++ ((f l[i]).toList ++ (before ++ after))).Perm
        ((f y).toList ++ (before ++ ((f l[i]).toList ++ after))) :=
      List.Perm.append_left _ (List.perm_append_comm_assoc _ _ _)

/-- A change that keeps the key changes no key. -/
theorem filterMap_set_same (f : α → Option β) (l : List α) (i : Nat) (x y : α)
    (h : l[i]? = some x) (same : f y = f x) : (l.set i y).filterMap f = l.filterMap f := by
  induction l generalizing i with
  | nil => rfl
  | cons z rest ih =>
    cases i with
    | zero =>
      simp only [List.getElem?_cons_zero, Option.some.injEq] at h
      subst h
      rw [List.set_cons_zero, filterMap_cons_toList, filterMap_cons_toList, same]
    | succ i =>
      rw [List.set_cons_succ, filterMap_cons_toList, filterMap_cons_toList, ih i h]

theorem mem_keys (f : α → Option β) (l : List α) (i : Nat) (x : α) (key : β)
    (h : l[i]? = some x) (hx : f x = some key) : key ∈ l.filterMap f :=
  List.mem_filterMap.mpr ⟨x, List.mem_of_getElem? h, hx⟩

/-- Distinct keys identify their owners. -/
theorem owner_unique (f : α → Option β) (l : List α) (distinct : (l.filterMap f).Nodup)
    (i j : Nat) (x y : α) (key : β) (hi : l[i]? = some x) (hj : l[j]? = some y)
    (hx : f x = some key) (hy : f y = some key) : i = j := by
  induction l generalizing i j with
  | nil => cases hi
  | cons z rest ih =>
    cases i with
    | zero =>
      cases j with
      | zero => rfl
      | succ j =>
        simp only [List.getElem?_cons_zero, Option.some.injEq] at hi
        subst hi
        rw [List.filterMap_cons_some hx, List.nodup_cons] at distinct
        exact absurd (mem_keys f rest j y key hj hy) distinct.1
    | succ i =>
      have tail : (rest.filterMap f).Nodup := by
        cases hz : f z with
        | none =>
          rw [List.filterMap_cons_none hz] at distinct
          exact distinct
        | some k =>
          rw [List.filterMap_cons_some hz, List.nodup_cons] at distinct
          exact distinct.2
      cases j with
      | zero =>
        simp only [List.getElem?_cons_zero, Option.some.injEq] at hj
        subst hj
        rw [List.filterMap_cons_some hy, List.nodup_cons] at distinct
        exact absurd (mem_keys f rest i x key hi hx) distinct.1
      | succ j => rw [ih tail i j hi hj]

/-- The first owner found for a key, when keys are distinct. -/
theorem findIdx?_owner [DecidableEq β] (f : α → Option β) (l : List α)
    (distinct : (l.filterMap f).Nodup) (i : Nat) (x : α) (key : β) (hi : l[i]? = some x)
    (hx : f x = some key) : l.findIdx? (fun y => decide (f y = some key)) = some i := by
  cases found : l.findIdx? (fun y => decide (f y = some key)) with
  | none =>
    rw [List.findIdx?_eq_none_iff] at found
    have no := found x (List.mem_of_getElem? hi)
    simp [hx] at no
  | some j =>
    obtain ⟨hj, first, -⟩ := List.findIdx?_eq_some_iff_getElem.mp found
    have owner : f l[j] = some key := by simpa using first
    rw [owner_unique f l distinct j i l[j] x key (List.getElem?_eq_getElem hj) hi owner hx]

end SportsPubSub.Lib.UnorderedTable
