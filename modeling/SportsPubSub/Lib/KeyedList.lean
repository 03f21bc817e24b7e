import Mathlib.Data.List.Nodup

/-!
# Lists whose entries have distinct keys

Support library for tables scanned entry by entry: what is produced for the
whole list, restricted to one key, is what the entry of that key produces.
-/
namespace SportsPubSub.Lib.KeyedList

variable {α β κ : Type*} [DecidableEq κ]

/-- Outputs tagged with the key of the entry that produced them can be told
apart again when the keys are distinct. -/
theorem filter_flatMap_distinct (l : List α) (key : α → κ) (distinct : (l.map key).Nodup)
    (out : α → List β) (tag : β → κ) (tagged : ∀ x ∈ l, ∀ y ∈ out x, tag y = key x)
    (s : α) (mem : s ∈ l) :
    (l.flatMap out).filter (fun y => tag y = key s) = out s := by
  induction l with
  | nil => simp at mem
  | cons head tail ih =>
    rw [List.map_cons, List.nodup_cons] at distinct
    have own : ∀ x ∈ head :: tail, (out x).filter (fun y => tag y = key x) = out x := by
      intro x hx
      rw [List.filter_eq_self]
      intro y hy
      simpa using tagged x hx y hy
    have foreign : ∀ x ∈ head :: tail, ∀ c, key x ≠ c →
        (out x).filter (fun y => tag y = c) = [] := by
      intro x hx c differ
      rw [List.filter_eq_nil_iff]
      intro y hy
      simpa [tagged x hx y hy] using differ
    rw [List.flatMap_cons, List.filter_append]
    rcases List.mem_cons.mp mem with rfl | later
    · have none : (tail.flatMap out).filter (fun y => tag y = key s) = [] := by
        rw [List.filter_eq_nil_iff]
        intro y hy
        obtain ⟨x, hx, hyx⟩ := List.mem_flatMap.mp hy
        have differ : key x ≠ key s := fun same => distinct.1 (same ▸ List.mem_map_of_mem hx)
        simpa [tagged x (List.mem_cons_of_mem _ hx) y hyx] using differ
      rw [own s List.mem_cons_self, none, List.append_nil]
    · have differ : key head ≠ key s := fun same => distinct.1 (same ▸ List.mem_map_of_mem later)
      rw [foreign head List.mem_cons_self (key s) differ, List.nil_append]
      exact ih distinct.2 (fun x hx => tagged x (List.mem_cons_of_mem _ hx)) later

/-- Elements in the order of their keys are their groups put together. -/
theorem flatMap_filter_sorted {β : Type} (keys : List Nat) (l : List (Nat × β))
    (order : keys.Pairwise (· < ·)) (sorted : l.Pairwise fun x y => x.1 ≤ y.1)
    (known : ∀ x ∈ l, x.1 ∈ keys) :
    keys.flatMap (fun k => l.filter fun x => x.1 = k) = l := by
  induction l with
  | nil => simp
  | cons x rest ih =>
    obtain ⟨first, sorted⟩ := List.pairwise_cons.mp sorted
    have tail := ih sorted fun y hy => known y (List.mem_cons_of_mem x hy)
    obtain ⟨before, after, rfl⟩ := List.append_of_mem (known x List.mem_cons_self)
    obtain ⟨-, orderAfter, across⟩ := List.pairwise_append.mp order
    -- no smaller key has an element
    have none : ∀ k ∈ before, rest.filter (fun y => y.1 = k) = [] := by
      intro k hk
      rw [List.filter_eq_nil_iff]
      intro y hy
      have low := first y hy
      have smaller := across k hk x.1 List.mem_cons_self
      simp only [decide_eq_true_eq]
      omega
    have empty : before.flatMap (fun k => rest.filter fun y => y.1 = k) = [] :=
      List.flatMap_eq_nil_iff.mpr none
    have emptyToo : before.flatMap (fun k => (x :: rest).filter fun y => y.1 = k) = [] := by
      apply List.flatMap_eq_nil_iff.mpr
      intro k hk
      have smaller := across k hk x.1 List.mem_cons_self
      rw [List.filter_cons_of_neg (by simp only [decide_eq_true_eq]; omega)]
      exact none k hk
    have larger : after.flatMap (fun k => (x :: rest).filter fun y => y.1 = k) =
        after.flatMap fun k => rest.filter fun y => y.1 = k := by
      apply List.flatMap_congr
      intro k hk
      have greater := (List.pairwise_cons.mp orderAfter).1 k hk
      exact List.filter_cons_of_neg (by simp only [decide_eq_true_eq]; omega)
    rw [List.flatMap_append, List.flatMap_cons, empty, List.nil_append] at tail
    rw [List.flatMap_append, List.flatMap_cons, emptyToo, List.nil_append, larger,
      List.filter_cons_of_pos (by simp), List.cons_append, tail]

end SportsPubSub.Lib.KeyedList
