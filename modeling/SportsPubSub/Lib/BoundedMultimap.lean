import Mathlib.Data.Finset.Card
import Mathlib.Data.List.Infix
import Mathlib.Data.List.Nodup
import Mathlib.Data.List.Perm.Basic

/-!
# Capacity-limited, insertion-ordered multimaps

Support library over arbitrary keys and values. A table keeps at most `capK`
keys in order of first use and, under each key, at most `capV` distinct values
in order of first use. Insertion is the nested lookup of an imperative table;
`closedForm` describes the table by the whole sequence of insertions, with no
intermediate state.
-/
namespace SportsPubSub.Lib.BoundedMultimap

variable {α κ ν : Type*} [DecidableEq α] [DecidableEq κ]

/-- Add an element to an insertion-ordered set that stops growing at `cap`. -/
def addBounded (cap : Nat) (xs : List α) (x : α) : List α :=
  if x ∈ xs then xs else if xs.length < cap then xs ++ [x] else xs

theorem mem_addBounded (cap : Nat) (xs : List α) (x : α) (room : xs.length < cap) :
    x ∈ addBounded cap xs x := by
  unfold addBounded
  rw [if_pos room]
  split
  · next mem => exact mem
  · exact List.mem_append_right _ (List.mem_singleton_self x)

/-- The first `cap` distinct elements of a sequence, in order of appearance. -/
def firstDistinct (cap : Nat) (l : List α) : List α := l.eraseDups.take cap

@[simp] theorem firstDistinct_nil (cap : Nat) : firstDistinct cap ([] : List α) = [] := by
  simp [firstDistinct]

theorem eraseDups_snoc (l : List α) (x : α) :
    (l ++ [x]).eraseDups = if x ∈ l then l.eraseDups else l.eraseDups ++ [x] := by
  rw [List.eraseDups_append]
  by_cases h : x ∈ l
  · simp [List.removeAll, h]
  · simp [List.removeAll, h, List.eraseDups_cons]

theorem nodup_eraseDups (l : List α) : l.eraseDups.Nodup := by
  induction l using List.reverseRecOn with
  | nil => simp
  | append_singleton l x ih =>
    rw [eraseDups_snoc]
    split
    · exact ih
    · next h => exact List.nodup_append.mpr ⟨ih, by simp, by
        intro a ha b hb hab
        rw [List.mem_singleton] at hb
        exact h (List.mem_eraseDups.mp (hb ▸ hab ▸ ha))⟩

theorem nodup_firstDistinct (cap : Nat) (l : List α) : (firstDistinct cap l).Nodup :=
  (nodup_eraseDups l).sublist (List.take_sublist _ _)

theorem length_firstDistinct_le (cap : Nat) (l : List α) : (firstDistinct cap l).length ≤ cap := by
  simp only [firstDistinct, List.length_take]
  omega

theorem mem_of_mem_firstDistinct (cap : Nat) (l : List α) (x : α) (h : x ∈ firstDistinct cap l) :
    x ∈ l :=
  List.mem_eraseDups.mp (List.mem_of_mem_take h)

/-- Below the capacity nothing is forgotten. -/
theorem mem_firstDistinct_of_short (cap : Nat) (l : List α) (x : α) (mem : x ∈ l)
    (short : (firstDistinct cap l).length < cap) : x ∈ firstDistinct cap l := by
  have bound : l.eraseDups.length ≤ cap := by
    simp only [firstDistinct, List.length_take] at short
    omega
  rw [firstDistinct, List.take_of_length_le bound]
  exact List.mem_eraseDups.mpr mem

/-- Later elements are only added at the end. -/
theorem firstDistinct_grows (cap : Nat) (l r : List α) :
    firstDistinct cap l <+: firstDistinct cap (l ++ r) := by
  rw [firstDistinct, firstDistinct, List.eraseDups_append, List.take_append]
  exact List.prefix_append _ _

/-- A full set never changes again. -/
theorem firstDistinct_append_of_full (cap : Nat) (l r : List α)
    (full : (firstDistinct cap l).length = cap) :
    firstDistinct cap (l ++ r) = firstDistinct cap l := by
  have pre := firstDistinct_grows cap l r
  have bound := length_firstDistinct_le cap (l ++ r)
  exact (pre.eq_of_length_le (by omega)).symm

theorem eraseDups_perm (l l' : List α) (same : ∀ x, x ∈ l ↔ x ∈ l') :
    l.eraseDups.Perm l'.eraseDups := by
  rw [List.perm_ext_iff_of_nodup (nodup_eraseDups l) (nodup_eraseDups l')]
  intro x
  rw [List.mem_eraseDups, List.mem_eraseDups]
  exact same x

/-- The number of distinct elements. -/
theorem length_eraseDups (l : List α) : l.eraseDups.length = l.toFinset.card := by
  rw [← List.toFinset_card_of_nodup (nodup_eraseDups l)]
  congr 1
  ext x
  rw [List.mem_toFinset, List.mem_toFinset, List.mem_eraseDups]

/-- As long as the capacity was not reached, the set that a sequence leaves behind
depends only on its elements, whatever follows. -/
theorem firstDistinct_perm (cap : Nat) (l l' r : List α) (same : ∀ x, x ∈ l ↔ x ∈ l')
    (within : l.toFinset.card ≤ cap) :
    (firstDistinct cap (l ++ r)).Perm (firstDistinct cap (l' ++ r)) := by
  have few : l.eraseDups.length ≤ cap := length_eraseDups l ▸ within
  have old := eraseDups_perm l l' same
  have rest : r.removeAll l = r.removeAll l' := by
    unfold List.removeAll
    apply List.filter_congr
    intro x _
    rw [Bool.eq_iff_iff]
    simp [same x]
  have few' : l'.eraseDups.length ≤ cap := old.length_eq ▸ few
  unfold firstDistinct
  rw [List.eraseDups_append, List.eraseDups_append, List.take_append, List.take_append,
    List.take_of_length_le few, List.take_of_length_le few', rest, old.length_eq]
  exact old.append_right _

/-- One bounded insertion continues the closed description of the set. -/
theorem addBounded_firstDistinct (cap : Nat) (l : List α) (x : α) :
    addBounded cap (firstDistinct cap l) x = firstDistinct cap (l ++ [x]) := by
  unfold addBounded
  by_cases hx : x ∈ firstDistinct cap l
  · have hl := mem_of_mem_firstDistinct cap l x hx
    rw [if_pos hx, firstDistinct, firstDistinct, eraseDups_snoc, if_pos hl]
  · rw [if_neg hx]
    by_cases hs : (firstDistinct cap l).length < cap
    · have hl : x ∉ l := fun mem => hx (mem_firstDistinct_of_short cap l x mem hs)
      have short : l.eraseDups.length < cap := by
        simp only [firstDistinct, List.length_take] at hs
        omega
      rw [if_pos hs, firstDistinct, firstDistinct, eraseDups_snoc, if_neg hl,
        List.take_of_length_le (by omega), List.take_of_length_le (by simp; omega)]
    · rw [if_neg hs]
      have bound := length_firstDistinct_le cap l
      exact (firstDistinct_append_of_full cap l [x] (by omega)).symm

/-- Keys of a table, in order of first use. -/
def keys (m : List (κ × List ν)) : List κ := m.map Prod.fst

/-- The values stored under a key; none for an absent key. -/
def valuesAt (m : List (κ × List ν)) (k : κ) : List ν :=
  match m.find? (fun e => e.1 = k) with
  | some e => e.2
  | none => []

/-- A value is stored under a key of the table. -/
theorem mem_keys_of_mem_valuesAt (m : List (κ × List ν)) (k : κ) (v : ν) (h : v ∈ valuesAt m k) :
    k ∈ keys m := by
  unfold valuesAt at h
  split at h
  · next e found =>
    have same : e.1 = k := by simpa using List.find?_some found
    exact same ▸ List.mem_map_of_mem (List.mem_of_find?_eq_some found)
  · cases h

/-- All values ever offered under a key, in order. -/
def offered (pairs : List (κ × ν)) (k : κ) : List ν :=
  (pairs.filter fun p => p.1 = k).map Prod.snd

theorem offered_append (pairs more : List (κ × ν)) (k : κ) :
    offered (pairs ++ more) k = offered pairs k ++ offered more k := by
  simp [offered]

theorem offered_singleton (k k' : κ) (v : ν) :
    offered [(k, v)] k' = if k = k' then [v] else [] := by
  by_cases h : k = k' <;> simp [offered, h]

/-- A key never offered has no values. -/
theorem offered_eq_nil (pairs : List (κ × ν)) (k : κ) (h : k ∉ pairs.map Prod.fst) :
    offered pairs k = [] := by
  simp only [offered, List.map_eq_nil_iff, List.filter_eq_nil_iff, decide_eq_true_eq]
  intro p hp heq
  exact h (heq ▸ List.mem_map_of_mem hp)

/-- Updating the entries of one key is updating the one slot that holds it. -/
theorem map_update_eq_set (m : List (κ × List ν)) (unique : (keys m).Nodup) (i : Nat)
    (hi : i < m.length) (f : κ × List ν → κ × List ν) :
    (m.map fun e => if e.1 = m[i].1 then f e else e) = m.set i (f m[i]) := by
  apply List.ext_getElem (by simp)
  intro j hj hj'
  simp only [List.length_map] at hj
  rw [List.getElem_map, List.getElem_set]
  by_cases h : i = j
  · subst h
    simp
  · have differ : m[j].1 ≠ m[i].1 := by
      intro heq
      have hjk : j < (keys m).length := by simpa [keys] using hj
      have hik : i < (keys m).length := by simpa [keys] using hi
      have same : (keys m)[j] = (keys m)[i] := by simpa [keys] using heq
      exact h ((List.Nodup.getElem_inj_iff unique).mp same).symm
    rw [if_neg differ, if_neg h]

variable [DecidableEq ν]

/-- Insert a value under a key: a known key keeps its place, a new key is
appended while there is room, otherwise the insertion is refused. -/
def insertBounded (capK capV : Nat) (m : List (κ × List ν)) (k : κ) (v : ν) : List (κ × List ν) :=
  if k ∈ keys m then m.map fun e => if e.1 = k then (e.1, addBounded capV e.2 v) else e
  else if m.length < capK then m ++ [(k, addBounded capV [] v)]
  else m

/-- The table determined by a whole sequence of insertions. -/
def closedForm (capK capV : Nat) (pairs : List (κ × ν)) : List (κ × List ν) :=
  (firstDistinct capK (pairs.map Prod.fst)).map fun k => (k, firstDistinct capV (offered pairs k))

@[simp] theorem keys_closedForm (capK capV : Nat) (pairs : List (κ × ν)) :
    keys (closedForm capK capV pairs) = firstDistinct capK (pairs.map Prod.fst) := by
  simp [keys, closedForm, Function.comp_def]

@[simp] theorem length_closedForm (capK capV : Nat) (pairs : List (κ × ν)) :
    (closedForm capK capV pairs).length = (firstDistinct capK (pairs.map Prod.fst)).length := by
  simp [closedForm]

/-- The closed form is stable under insertion: the step of the induction that
turns nested table lookups into a description of the whole history. -/
theorem insertBounded_closedForm (capK capV : Nat) (pairs : List (κ × ν)) (k : κ) (v : ν) :
    insertBounded capK capV (closedForm capK capV pairs) k v =
      closedForm capK capV (pairs ++ [(k, v)]) := by
  have keysNext : firstDistinct capK ((pairs ++ [(k, v)]).map Prod.fst) =
      addBounded capK (firstDistinct capK (pairs.map Prod.fst)) k := by
    rw [addBounded_firstDistinct, List.map_append, List.map_cons, List.map_nil]
  have valuesNext : ∀ k', firstDistinct capV (offered (pairs ++ [(k, v)]) k') =
      if k = k' then addBounded capV (firstDistinct capV (offered pairs k')) v
      else firstDistinct capV (offered pairs k') := by
    intro k'
    rw [offered_append, offered_singleton]
    by_cases h : k = k'
    · simp [h, addBounded_firstDistinct]
    · simp [h]
  unfold insertBounded
  rw [keys_closedForm, length_closedForm]
  conv_rhs => rw [closedForm, keysNext]
  unfold addBounded
  split
  · -- known key: only its own value list may grow
    simp only [closedForm, List.map_map]
    apply List.map_congr_left
    intro k' _
    by_cases h : k = k'
    · subst h
      simp [valuesNext, addBounded]
    · simp [valuesNext, h, Ne.symm h]
  · next absent =>
    have same : ∀ k' ∈ firstDistinct capK (pairs.map Prod.fst),
        (k', firstDistinct capV (offered (pairs ++ [(k, v)]) k')) =
          (k', firstDistinct capV (offered pairs k')) := by
      intro k' mem
      have h : k ≠ k' := fun heq => absent (heq ▸ mem)
      rw [valuesNext, if_neg h]
    split
    · next room =>
      have fresh : k ∉ pairs.map Prod.fst := fun mem =>
        absent (mem_firstDistinct_of_short capK _ k mem room)
      rw [List.map_append, List.map_congr_left same]
      simp [closedForm, valuesNext, offered_eq_nil pairs k fresh, addBounded]
    · -- full table and unknown key: the insertion is refused
      rw [List.map_congr_left same, closedForm]

/-- Lookup in the closed form: the admitted keys give their first `capV`
distinct values, every other key gives nothing. -/
theorem valuesAt_closedForm (capK capV : Nat) (pairs : List (κ × ν)) (k : κ) :
    valuesAt (closedForm capK capV pairs) k =
      if k ∈ firstDistinct capK (pairs.map Prod.fst) then firstDistinct capV (offered pairs k)
      else [] := by
  unfold valuesAt closedForm
  generalize firstDistinct capK (pairs.map Prod.fst) = ks
  induction ks with
  | nil => simp
  | cons head tail ih =>
    by_cases h : head = k
    · simp [h]
    · simp only [List.map_cons, List.find?_cons, h, decide_false, ih, List.mem_cons,
        Ne.symm h, false_or]

theorem nodup_valuesAt (capK capV : Nat) (pairs : List (κ × ν)) (k : κ) :
    (valuesAt (closedForm capK capV pairs) k).Nodup := by
  rw [valuesAt_closedForm]
  split
  · exact nodup_firstDistinct _ _
  · exact List.nodup_nil

/-- Further insertions only extend the value list of a key. -/
theorem valuesAt_grows (capK capV : Nat) (pairs more : List (κ × ν)) (k : κ) :
    valuesAt (closedForm capK capV pairs) k <+:
      valuesAt (closedForm capK capV (pairs ++ more)) k := by
  rw [valuesAt_closedForm, valuesAt_closedForm]
  split
  · next mem =>
    have later : k ∈ firstDistinct capK ((pairs ++ more).map Prod.fst) := by
      rw [List.map_append]
      exact (firstDistinct_grows _ _ _).subset mem
    rw [if_pos later, offered_append]
    exact firstDistinct_grows _ _ _
  · exact List.nil_prefix

/-- Once a key holds `capV` values its list is final. -/
theorem valuesAt_of_full (capK capV : Nat) (pairs more : List (κ × ν)) (k : κ)
    (full : (valuesAt (closedForm capK capV pairs) k).length = capV) :
    valuesAt (closedForm capK capV (pairs ++ more)) k = valuesAt (closedForm capK capV pairs) k := by
  have pre := valuesAt_grows capK capV pairs more k
  have bound : (valuesAt (closedForm capK capV (pairs ++ more)) k).length ≤ capV := by
    rw [valuesAt_closedForm]
    split
    · exact length_firstDistinct_le _ _
    · simp
  exact (pre.eq_of_length_le (by omega)).symm

/-- A value offered to an admitted key is stored, or the key's list was full
without it and the insertion changes nothing at all. -/
theorem insert_outcome (capK capV : Nat) (room : 0 < capV) (pairs : List (κ × ν)) (k : κ) (v : ν)
    (admitted : k ∈ keys (closedForm capK capV (pairs ++ [(k, v)]))) :
    v ∈ valuesAt (closedForm capK capV (pairs ++ [(k, v)])) k ∨
      ((valuesAt (closedForm capK capV pairs) k).length = capV ∧
        v ∉ valuesAt (closedForm capK capV pairs) k ∧
        closedForm capK capV (pairs ++ [(k, v)]) = closedForm capK capV pairs) := by
  rw [keys_closedForm] at admitted
  have after : valuesAt (closedForm capK capV (pairs ++ [(k, v)])) k =
      addBounded capV (firstDistinct capV (offered pairs k)) v := by
    rw [valuesAt_closedForm, if_pos admitted, offered_append, offered_singleton, if_pos rfl,
      addBounded_firstDistinct]
  by_cases stored : v ∈ addBounded capV (firstDistinct capV (offered pairs k)) v
  · exact .inl (after ▸ stored)
  · right
    have absent : v ∉ firstDistinct capV (offered pairs k) := by
      intro mem
      exact stored (by simp [addBounded, mem])
    have full : (firstDistinct capV (offered pairs k)).length = capV := by
      have bound := length_firstDistinct_le capV (offered pairs k)
      by_contra short
      have lt : (firstDistinct capV (offered pairs k)).length < capV := by omega
      exact stored (by simp [addBounded, absent, lt])
    -- a full list is not empty, so the key was offered and admitted before
    have known : k ∈ pairs.map Prod.fst := by
      by_contra fresh
      rw [offered_eq_nil pairs k fresh, firstDistinct_nil] at full
      simp only [List.length_nil] at full
      omega
    have sameKeys : firstDistinct capK ((pairs ++ [(k, v)]).map Prod.fst) =
        firstDistinct capK (pairs.map Prod.fst) := by
      rw [firstDistinct, List.map_append, List.map_cons, List.map_nil, eraseDups_snoc,
        if_pos known, firstDistinct]
    have before : valuesAt (closedForm capK capV pairs) k =
        firstDistinct capV (offered pairs k) := by
      rw [valuesAt_closedForm, if_pos (sameKeys ▸ admitted)]
    refine ⟨by rw [before, full], by rw [before]; exact absent, ?_⟩
    unfold closedForm
    rw [sameKeys]
    apply List.map_congr_left
    intro k' _
    rw [offered_append, offered_singleton]
    by_cases same : k = k'
    · subst same
      rw [if_pos rfl, firstDistinct_append_of_full _ _ _ full]
    · rw [if_neg same, List.append_nil]

/-- With room for another key and another value the insertion takes place. -/
theorem insert_stored (capK capV : Nat) (pairs : List (κ × ν)) (k : κ) (v : ν)
    (roomK : (closedForm capK capV pairs).length < capK)
    (roomV : (valuesAt (closedForm capK capV pairs) k).length < capV) :
    v ∈ valuesAt (closedForm capK capV (pairs ++ [(k, v)])) k := by
  have admitted : k ∈ keys (closedForm capK capV (pairs ++ [(k, v)])) := by
    rw [keys_closedForm, List.map_append, List.map_cons, List.map_nil, ← addBounded_firstDistinct]
    exact mem_addBounded capK _ k (by rwa [length_closedForm] at roomK)
  rcases insert_outcome capK capV (by omega) pairs k v admitted with stored | ⟨full, -, -⟩
  · exact stored
  · omega

/-- Further insertions only append keys. -/
theorem keys_grow (capK capV : Nat) (pairs more : List (κ × ν)) :
    keys (closedForm capK capV pairs) <+: keys (closedForm capK capV (pairs ++ more)) := by
  rw [keys_closedForm, keys_closedForm, List.map_append]
  exact firstDistinct_grows _ _ _

/-- Two sequences of insertions with the same elements, in any order and number,
leave the same values under every key, as long as the first reaches no capacity. -/
theorem valuesAt_perm (capK capV : Nat) (pairs pairs' rest : List (κ × ν))
    (same : ∀ p, p ∈ pairs ↔ p ∈ pairs') (fewKeys : (pairs.map Prod.fst).toFinset.card ≤ capK)
    (fewValues : ∀ k, (offered pairs k).toFinset.card ≤ capV) (k : κ) :
    (valuesAt (closedForm capK capV (pairs ++ rest)) k).Perm
      (valuesAt (closedForm capK capV (pairs' ++ rest)) k) := by
  have names : ∀ x, x ∈ pairs.map Prod.fst ↔ x ∈ pairs'.map Prod.fst := by
    intro x
    simp only [List.mem_map, same]
  have values : ∀ v, v ∈ offered pairs k ↔ v ∈ offered pairs' k := by
    intro v
    simp only [offered, List.mem_map, List.mem_filter, same]
  have admitted := firstDistinct_perm capK _ _ (rest.map Prod.fst) names fewKeys
  rw [← List.map_append, ← List.map_append] at admitted
  rw [valuesAt_closedForm, valuesAt_closedForm]
  simp only [admitted.mem_iff, offered_append]
  split
  · exact firstDistinct_perm capV _ _ _ values (fewValues k)
  · exact List.Perm.nil

end SportsPubSub.Lib.BoundedMultimap
