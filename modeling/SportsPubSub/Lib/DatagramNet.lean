import Mathlib.Data.List.Basic
import Mathlib.Data.List.Perm.Subperm
import Mathlib.Order.Basic

/-!
# Datagram networks that lose, duplicate, delay and reorder

Support library. The network is the list of everything ever sent, in sending
order, and it only grows. A delivery picks any position whose datagram is
addressed to the receiver: a position never picked is a loss, one picked twice a
duplicate, and any order of picking is possible. Nothing is delivered that was
not sent. Whether a channel keeps the sending order is a property of the
positions picked, so it is an assumption on a run and not part of the network.
-/
namespace SportsPubSub.Lib.DatagramNet

structure Datagram (A M : Type*) where
  src : A
  dst : A
  body : M
  deriving DecidableEq, Repr

/-- Everything sent so far, oldest first. -/
abbrev Net (A M : Type*) := List (Datagram A M)

variable {A M : Type*}

/-- The delivery to `here` of the datagram sent at position `pos`. -/
def deliver [DecidableEq A] (net : Net A M) (here : A) (pos : Nat) : Option (Datagram A M) :=
  match net[pos]? with
  | none => none
  | some g => if g.dst = here then some g else none

theorem deliver_some [DecidableEq A] (net : Net A M) (here : A) (pos : Nat) (g : Datagram A M)
    (h : deliver net here pos = some g) : net[pos]? = some g ∧ g.dst = here := by
  unfold deliver at h
  split at h
  · cases h
  · next found =>
    split at h
    · next addressed =>
      cases h
      exact ⟨found, addressed⟩
    · cases h

/-- The network only grows, so what was sent stays at its position. -/
theorem getElem?_grows (net more : Net A M) (pos : Nat) (g : Datagram A M)
    (h : net[pos]? = some g) : (net ++ more)[pos]? = some g := by
  rw [List.getElem?_append_left (List.getElem?_eq_some_iff.mp h).1]
  exact h

/-- Numbers in order, with `gap` 0 repetitions are allowed, with `gap` 1 not. -/
def Spaced (gap : Nat) (ns : List Nat) : Prop := ns.Pairwise fun a b => a + gap ≤ b

theorem Spaced.append {gap : Nat} {xs ys : List Nat} (left : Spaced gap xs) (right : Spaced gap ys)
    (across : ∀ x ∈ xs, ∀ y ∈ ys, x + gap ≤ y) : Spaced gap (xs ++ ys) :=
  List.pairwise_append.mpr ⟨left, right, across⟩

theorem Spaced.left {gap : Nat} {xs ys : List Nat} (h : Spaced gap (xs ++ ys)) : Spaced gap xs :=
  (List.pairwise_append.mp h).1

theorem spaced_singleton (gap n : Nat) : Spaced gap [n] := List.pairwise_singleton _ _

theorem spaced_nil (gap : Nat) : Spaced gap [] := List.Pairwise.nil

/-- Numbers in order without repetitions increase strictly. -/
theorem Spaced.strict {ns : List Nat} (h : Spaced 0 ns) (once : ns.Nodup) : Spaced 1 ns :=
  h.imp₂ (fun _ _ le ne => Nat.lt_of_le_of_ne le ne) once

/-- The last of spaced numbers is their maximum. -/
theorem Spaced.le_last {gap : Nat} {xs : List Nat} {last : Nat} (h : Spaced gap xs)
    (ends : xs.getLast? = some last) : ∀ x ∈ xs, x ≤ last := by
  obtain ⟨front, rfl⟩ := List.getLast?_eq_some_iff.mp ends
  intro x hx
  rcases List.mem_append.mp hx with old | new
  · have before := (List.pairwise_append.mp h).2.2 x old last (List.mem_singleton_self last)
    omega
  · exact Nat.le_of_eq (List.mem_singleton.mp new)

/-- The labels of one channel's datagrams, in sending order. -/
def labels (channel : Datagram A M → Bool) (label : M → Nat) (net : Net A M) : List Nat :=
  (net.filter channel).map fun g => label g.body

theorem labels_append (channel : Datagram A M → Bool) (label : M → Nat) (net more : Net A M) :
    labels channel label (net ++ more) = labels channel label net ++ labels channel label more := by
  simp [labels]

/-- Datagrams of other channels do not show up. -/
theorem labels_outside (channel : Datagram A M → Bool) (label : M → Nat) (net : Net A M)
    (outside : ∀ g ∈ net, channel g = false) : labels channel label net = [] := by
  have none : net.filter channel = [] := by
    apply List.filter_eq_nil_iff.mpr
    intro g hg
    simp [outside g hg]
  rw [labels, none, List.map_nil]

/-- Two datagrams read from a channel with spaced labels at spaced positions. -/
theorem label_le_label (gap : Nat) (channel : Datagram A M → Bool) (label : M → Nat)
    (net : Net A M) (sorted : Spaced gap (labels channel label net)) (i j : Nat)
    (a b : Datagram A M) (ha : net[i]? = some a) (hb : net[j]? = some b)
    (ca : channel a = true) (cb : channel b = true) (spaced : i + gap ≤ j) :
    label a.body + gap ≤ label b.body := by
  unfold Spaced labels at sorted
  rw [List.pairwise_map, List.pairwise_filter] at sorted
  obtain ⟨hi, rfl⟩ := List.getElem?_eq_some_iff.mp ha
  obtain ⟨hj, rfl⟩ := List.getElem?_eq_some_iff.mp hb
  rcases Nat.lt_or_ge i j with before | after
  · exact List.pairwise_iff_getElem.mp sorted i j hi hj before ca cb
  · -- the same position again, which only a gap of 0 allows
    have same : i = j := by omega
    subst same
    omega

/-- Reading a channel in the order of sending keeps its labels in order. -/
theorem spaced_reads (gap : Nat) (channel : Datagram A M → Bool) (label : M → Nat)
    (net : Net A M) (sorted : Spaced gap (labels channel label net)) (reads : List (Nat × M))
    (genuine : ∀ r ∈ reads, ∃ g, net[r.1]? = some g ∧ channel g = true ∧ g.body = r.2)
    (inOrder : Spaced gap (reads.map Prod.fst)) :
    Spaced gap (reads.map fun r => label r.2) := by
  unfold Spaced at inOrder ⊢
  rw [List.pairwise_map] at inOrder ⊢
  apply inOrder.imp_of_mem
  intro r r' hr hr' spaced
  obtain ⟨a, ha, ca, bodya⟩ := genuine r hr
  obtain ⟨b, hb, cb, bodyb⟩ := genuine r' hr'
  rw [← bodya, ← bodyb]
  exact label_le_label gap channel label net sorted r.1 r'.1 a b ha hb ca cb spaced

/-- The places of a list at which a test holds are as many as its elements that
meet it. -/
theorem length_places {γ : Type*} (test : γ → Bool) (xs : List γ) :
    ((List.range xs.length).filter fun i => xs[i]?.any test).length = xs.countP test := by
  induction xs with
  | nil => rfl
  | cons x rest ih =>
    have later : (((List.range rest.length).map Nat.succ).filter
        fun i => (x :: rest)[i]?.any test).length = rest.countP test := by
      rw [List.filter_map, List.length_map, ← ih]
      rfl
    rw [List.length_cons, List.range_succ_eq_map, List.filter_cons, List.countP_cons]
    cases met : test x with
    | true =>
      simp only [List.getElem?_cons_zero, Option.any_some, met, if_true, List.length_cons, later]
    | false =>
      simp only [List.getElem?_cons_zero, Option.any_some, met, Bool.false_eq_true, if_false,
        later, Nat.add_zero]

/-- Different positions whose datagrams meet a test are no more than there are such
datagrams. -/
theorem reads_le_count {γ : Type*} (test : γ → Bool) (sent : List γ) (reads : List Nat)
    (different : reads.Nodup)
    (genuine : ∀ pos ∈ reads, ∃ g, sent[pos]? = some g ∧ test g = true) :
    reads.length ≤ sent.countP test := by
  rw [← length_places]
  apply (List.subperm_of_subset different ?_).length_le
  intro pos mem
  obtain ⟨g, found, met⟩ := genuine pos mem
  have inside := (List.getElem?_eq_some_iff.mp found).1
  simp only [List.mem_filter, List.mem_range, found, Option.any_some, met]
  exact ⟨inside, trivial⟩

end SportsPubSub.Lib.DatagramNet
