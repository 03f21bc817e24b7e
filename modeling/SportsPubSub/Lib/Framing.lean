import Mathlib.Data.List.Infix
import Mathlib.Data.List.TakeWhile
import Mathlib.Logic.Function.Basic

/-!
# Messages in a stream merged from several senders

Support library. Every sender has a queue of messages, and a medium without
framing merges the bytes of the senders in pieces of any size. A merged stream is
framed when it is a concatenation of whole messages, each sender's in the order
of its queue. When every sender's bytes arrive in order, this depends only on the
places where the sender changes: there, and where the stream stops, the bytes so
far of the sender that pauses have to end one of its messages.
-/
namespace SportsPubSub.Lib.Framing

variable {ι β : Type*} [DecidableEq ι]

/-- A piece of one sender. -/
def tagged (p : ι) (piece : List β) : List (ι × β) := piece.map fun c => (p, c)

/-- A concatenation of whole messages, taken from the queues. -/
inductive Framed : (ι → List (List β)) → List (ι × β) → Prop
  | nil (queues : ι → List (List β)) : Framed queues []
  | message (queues : ι → List (List β)) (p : ι) (m : List β) (rest : List (List β))
      (stream : List (ι × β)) (next : queues p = m :: rest)
      (tail : Framed (Function.update queues p rest) stream) :
      Framed queues (tagged p m ++ stream)

/-- What one sender contributed. -/
def bytesOf (p : ι) (stream : List (ι × β)) : List β :=
  (stream.filter fun x => x.1 = p).map Prod.snd

/-- The first `n` bytes of the sender are whole messages. -/
def EndsMessage (messages : List (List β)) (n : Nat) : Prop :=
  ∃ k, (messages.take k).flatten.length = n

/-- Wherever the sender changes or the stream stops, a message ends. -/
def PausesAtEnds (queues : ι → List (List β)) (stream : List (ι × β)) : Prop :=
  ∀ before x after, stream = before ++ x :: after → (∀ y ∈ after.head?, y.1 ≠ x.1) →
    EndsMessage (queues x.1) (bytesOf x.1 (before ++ [x])).length

theorem bytesOf_append (p : ι) (a b : List (ι × β)) :
    bytesOf p (a ++ b) = bytesOf p a ++ bytesOf p b := by
  simp [bytesOf]

@[simp] theorem bytesOf_tagged (p : ι) (piece : List β) : bytesOf p (tagged p piece) = piece := by
  simp [bytesOf, tagged, List.filter_map, Function.comp_def]

theorem bytesOf_tagged_ne (p q : ι) (piece : List β) (other : p ≠ q) :
    bytesOf q (tagged p piece) = [] := by
  simp [bytesOf, tagged, List.filter_map, Function.comp_def, other]

omit [DecidableEq ι] in
theorem mem_tagged (p : ι) (piece : List β) (x : ι × β) (h : x ∈ tagged p piece) : x.1 = p := by
  obtain ⟨c, -, rfl⟩ := List.mem_map.mp h
  rfl

/-- Taking a message off its queue, seen from any sender. -/
theorem endsMessage_update (queues : ι → List (List β)) (p q : ι) (m : List β)
    (rest : List (List β)) (next : queues p = m :: rest) (n : Nat)
    (h : EndsMessage (Function.update queues p rest q) n) :
    EndsMessage (queues q) ((bytesOf q (tagged p m)).length + n) := by
  obtain ⟨k, size⟩ := h
  by_cases same : q = p
  · subst same
    rw [Function.update_self] at size
    refine ⟨k + 1, ?_⟩
    rw [next, List.take_succ_cons, List.flatten_cons, List.length_append, size, bytesOf_tagged]
  · rw [Function.update_of_ne same] at size
    refine ⟨k, ?_⟩
    rw [bytesOf_tagged_ne p q m (Ne.symm same), size]
    simp

/-- And back, for the bytes behind that message. -/
theorem endsMessage_of_update (queues : ι → List (List β)) (p q : ι) (m : List β)
    (rest : List (List β)) (next : queues p = m :: rest) (nonempty : m ≠ []) (n : Nat)
    (h : EndsMessage (queues q) ((bytesOf q (tagged p m)).length + n)) :
    EndsMessage (Function.update queues p rest q) n := by
  obtain ⟨k, size⟩ := h
  by_cases same : q = p
  · subst same
    rw [Function.update_self]
    rw [next, bytesOf_tagged] at size
    have some := List.length_pos_iff.mpr nonempty
    cases k with
    | zero => simp at size; omega
    | succ k =>
      refine ⟨k, ?_⟩
      rw [List.take_succ_cons, List.flatten_cons, List.length_append] at size
      omega
  · rw [Function.update_of_ne same]
    rw [bytesOf_tagged_ne p q m (Ne.symm same)] at size
    exact ⟨k, by simpa using size⟩

/-- A concatenation of whole messages pauses at their ends. -/
theorem Framed.pausesAtEnds {queues : ι → List (List β)} {stream : List (ι × β)}
    (h : Framed queues stream) : PausesAtEnds queues stream := by
  induction h with
  | nil queues =>
    intro before x after split
    simp at split
  | message queues p m rest stream next tail ih =>
    have behind : ∀ before x after, stream = before ++ x :: after →
        (∀ y ∈ after.head?, y.1 ≠ x.1) →
          EndsMessage (queues x.1) (bytesOf x.1 (tagged p m ++ before ++ [x])).length := by
      intro before x after split pause
      have shifted := endsMessage_update queues p x.1 m rest next _ (ih before x after split pause)
      rw [List.append_assoc, bytesOf_append, List.length_append]
      exact shifted
    intro before x after split pause
    rcases List.append_eq_append_iff.mp split with ⟨mid, rfl, later⟩ | ⟨mid, whole, later⟩
    · exact behind mid x after later pause
    · cases mid with
      | nil =>
        rw [List.append_nil] at whole
        rw [List.nil_append] at later
        have start := behind [] x after later.symm pause
        rw [whole, List.append_nil] at start
        exact start
      | cons y mid =>
        rw [List.cons_append, List.cons.injEq] at later
        obtain ⟨rfl, rfl⟩ := later
        have sender : x.1 = p := mem_tagged p m x (by rw [whole]; simp)
        cases mid with
        | nil =>
          -- the pause is at the end of the message
          rw [← whole, sender, bytesOf_tagged]
          exact ⟨1, by rw [next]; simp⟩
        | cons y mid =>
          have inside : y.1 = p := mem_tagged p m y (by rw [whole]; simp)
          exact absurd (inside.trans sender.symm) (pause y (by simp))

omit [DecidableEq ι] in
theorem eq_tagged (p : ι) (stream : List (ι × β)) (own : ∀ x ∈ stream, x.1 = p) :
    stream = tagged p (stream.map Prod.snd) := by
  induction stream with
  | nil => rfl
  | cons x rest ih =>
    have tail := ih fun y hy => own y (List.mem_cons_of_mem x hy)
    rw [List.map_cons, tagged, List.map_cons, ← tagged, ← tail, ← own x List.mem_cons_self]

/-- Before its first pause the leading sender has sent at least its next message. -/
theorem leading_message (queues : ι → List (List β)) (x : ι × β) (more : List (ι × β))
    (m : List β) (rest : List (List β)) (next : queues x.1 = m :: rest)
    (inOrder : bytesOf x.1 (x :: more) <+: (queues x.1).flatten)
    (pauses : PausesAtEnds queues (x :: more)) : tagged x.1 m <+: x :: more := by
  obtain ⟨lead, later, split, own, pause, nonempty⟩ :
      ∃ lead later, x :: more = lead ++ later ∧ (∀ y ∈ lead, y.1 = x.1) ∧
        (∀ y ∈ later.head?, y.1 ≠ x.1) ∧ lead ≠ [] := by
    refine ⟨(x :: more).takeWhile fun y => decide (y.1 = x.1),
      (x :: more).dropWhile fun y => decide (y.1 = x.1),
      List.takeWhile_append_dropWhile.symm, ?_, ?_, by simp⟩
    · exact fun y hy => by simpa using List.mem_takeWhile_imp hy
    · intro y hy
      have stops := List.head?_dropWhile_not (fun y => decide (y.1 = x.1)) (x :: more)
      rw [Option.mem_def.mp hy] at stops
      simpa using stops
  have whole := eq_tagged x.1 lead own
  have sent : bytesOf x.1 lead = lead.map Prod.snd := by
    conv_lhs => rw [whole]
    exact bytesOf_tagged _ _
  have ends : EndsMessage (queues x.1) (lead.map Prod.snd).length := by
    rcases List.eq_nil_or_concat lead with rfl | ⟨before, z, rfl⟩
    · exact absurd rfl nonempty
    · rw [List.concat_eq_append] at split own sent ⊢
      have sender : z.1 = x.1 := own z (by simp)
      have here := pauses before z later (by rw [split, List.append_assoc]; rfl)
        (by rw [sender]; exact pause)
      rw [sender, sent] at here
      exact here
  obtain ⟨k, size⟩ := ends
  have long : m.length ≤ (lead.map Prod.snd).length := by
    have some := List.length_pos_iff.mpr nonempty
    cases k with
    | zero => simp at size; omega
    | succ k =>
      rw [next, List.take_succ_cons, List.flatten_cons, List.length_append] at size
      omega
  have part : lead.map Prod.snd <+: (queues x.1).flatten := by
    refine List.IsPrefix.trans ⟨bytesOf x.1 later, ?_⟩ inOrder
    rw [split, bytesOf_append, sent]
  have message : m <+: (queues x.1).flatten := by
    rw [next, List.flatten_cons]
    exact List.prefix_append _ _
  have inside := List.prefix_of_prefix_length_le message part long
  calc
    tagged x.1 m <+: tagged x.1 (lead.map Prod.snd) := inside.map _
    _ = lead := whole.symm
    _ <+: x :: more := ⟨later, split.symm⟩

/-- Taking the first message off keeps the bytes of every sender in order. -/
theorem inOrder_update (queues : ι → List (List β)) (p : ι) (m : List β) (rest : List (List β))
    (next : queues p = m :: rest) (stream : List (ι × β))
    (inOrder : ∀ q, bytesOf q (tagged p m ++ stream) <+: (queues q).flatten) (q : ι) :
    bytesOf q stream <+: (Function.update queues p rest q).flatten := by
  have before := inOrder q
  rw [bytesOf_append] at before
  by_cases same : q = p
  · subst same
    rw [Function.update_self]
    rw [bytesOf_tagged, next, List.flatten_cons] at before
    exact (List.prefix_append_right_inj m).mp before
  · rw [Function.update_of_ne same]
    rw [bytesOf_tagged_ne p q m (Ne.symm same), List.nil_append] at before
    exact before

theorem pausesAtEnds_update (queues : ι → List (List β)) (p : ι) (m : List β)
    (rest : List (List β)) (next : queues p = m :: rest) (nonempty : m ≠ [])
    (stream : List (ι × β)) (pauses : PausesAtEnds queues (tagged p m ++ stream)) :
    PausesAtEnds (Function.update queues p rest) stream := by
  rintro before x after rfl pause
  apply endsMessage_of_update queues p x.1 m rest next nonempty
  have whole := pauses (tagged p m ++ before) x after (by rw [List.append_assoc]) pause
  rw [List.append_assoc, bytesOf_append, List.length_append] at whole
  exact whole

theorem framed_of_pauses (stream : List (ι × β)) (queues : ι → List (List β))
    (nonempty : ∀ p, ∀ m ∈ queues p, m ≠ [])
    (inOrder : ∀ p, bytesOf p stream <+: (queues p).flatten)
    (pauses : PausesAtEnds queues stream) : Framed queues stream := by
  -- on the length of the stream: its first message comes off
  induction size : stream.length using Nat.strong_induction_on generalizing stream queues with
  | _ n ih =>
    cases stream with
    | nil => exact .nil queues
    | cons x more =>
      cases next : queues x.1 with
      | nil =>
        have none := inOrder x.1
        rw [next, List.flatten_nil, List.prefix_nil] at none
        simp [bytesOf] at none
      | cons m rest =>
        obtain ⟨stream, split⟩ := leading_message queues x more m rest next (inOrder x.1) pauses
        have some : m ≠ [] := nonempty x.1 m (by rw [next]; exact List.mem_cons_self)
        rw [← split] at inOrder pauses size ⊢
        refine .message queues x.1 m rest stream next ?_
        have shorter : stream.length < n := by
          have long := List.length_pos_iff.mpr some
          rw [List.length_append, tagged, List.length_map] at size
          omega
        refine ih _ shorter stream _ ?_ (inOrder_update queues x.1 m rest next stream inOrder)
          (pausesAtEnds_update queues x.1 m rest next some stream pauses) rfl
        intro q m' hm'
        by_cases same : q = x.1
        · rw [same, Function.update_self] at hm'
          exact nonempty x.1 m' (by rw [next]; exact List.mem_cons_of_mem m hm')
        · rw [Function.update_of_ne same] at hm'
          exact nonempty q m' hm'

/-- A merged stream in which every sender's bytes come in order is framed exactly
when it pauses at the ends of messages. -/
theorem framed_iff_pauses (stream : List (ι × β)) (queues : ι → List (List β))
    (nonempty : ∀ p, ∀ m ∈ queues p, m ≠ [])
    (inOrder : ∀ p, bytesOf p stream <+: (queues p).flatten) :
    Framed queues stream ↔ PausesAtEnds queues stream :=
  ⟨Framed.pausesAtEnds, framed_of_pauses stream queues nonempty inOrder⟩

/-- The stream that carries pieces of the senders, one after the other. -/
def merged (pieces : List (ι × List β)) : List (ι × β) := pieces.flatMap fun x => tagged x.1 x.2

/-- Whenever the next piece has another sender, or there is none, a message ends. -/
def PiecesEnd (queues : ι → List (List β)) (pieces : List (ι × List β)) : Prop :=
  ∀ before x after, pieces = before ++ x :: after → (∀ y ∈ after.head?, y.1 ≠ x.1) →
    EndsMessage (queues x.1) (bytesOf x.1 (merged (before ++ [x]))).length

omit [DecidableEq ι] in
theorem merged_append (a b : List (ι × List β)) : merged (a ++ b) = merged a ++ merged b :=
  List.flatMap_append

omit [DecidableEq ι] in
theorem merged_cons (x : ι × List β) (rest : List (ι × List β)) :
    merged (x :: rest) = tagged x.1 x.2 ++ merged rest := rfl

omit [DecidableEq ι] in
/-- A byte of the stream lies in one piece. -/
theorem merged_split (pieces : List (ι × List β)) (before : List (ι × β)) (x : ι × β)
    (after : List (ι × β)) (split : merged pieces = before ++ x :: after) :
    ∃ earlier c c' later, pieces = earlier ++ (x.1, c ++ x.2 :: c') :: later ∧
      before = merged earlier ++ tagged x.1 c ∧ after = tagged x.1 c' ++ merged later := by
  induction pieces generalizing before with
  | nil => simp [merged] at split
  | cons piece rest ih =>
    rw [merged_cons] at split
    rcases List.append_eq_append_iff.mp split with ⟨mid, rfl, later⟩ | ⟨mid, whole, later⟩
    · obtain ⟨earlier, c, c', more, rfl, rfl, rfl⟩ := ih mid later
      exact ⟨piece :: earlier, c, c', more, rfl, by rw [merged_cons, List.append_assoc], rfl⟩
    · cases mid with
      | nil =>
        rw [List.append_nil] at whole
        rw [List.nil_append] at later
        obtain ⟨earlier, c, c', more, rfl, start, rfl⟩ := ih [] later.symm
        refine ⟨piece :: earlier, c, c', more, rfl, ?_, rfl⟩
        rw [merged_cons, List.append_assoc, ← start, List.append_nil, whole]
      | cons y mid =>
        rw [List.cons_append, List.cons.injEq] at later
        obtain ⟨rfl, rfl⟩ := later
        obtain ⟨c, tail, content, rfl, cut⟩ := List.map_eq_append_iff.mp whole
        obtain ⟨b, c', rfl, rfl, rfl⟩ := List.map_eq_cons_iff.mp cut
        refine ⟨[], c, c', rest, ?_, rfl, rfl⟩
        rw [List.nil_append, ← content]

omit [DecidableEq ι] in
/-- The sender after a pause, seen on the pieces and on the bytes. -/
theorem head_merged (pieces : List (ι × List β)) (nonempty : ∀ x ∈ pieces, x.2 ≠ []) :
    (merged pieces).head?.map Prod.fst = pieces.head?.map Prod.fst := by
  cases pieces with
  | nil => rfl
  | cons piece rest =>
    obtain ⟨b, c, content⟩ := List.exists_cons_of_ne_nil (nonempty piece List.mem_cons_self)
    rw [merged_cons, content]
    rfl

omit [DecidableEq ι] in
theorem head_ne_iff {γ δ : Type*} (p : ι) (a : List (ι × γ)) (b : List (ι × δ))
    (same : a.head?.map Prod.fst = b.head?.map Prod.fst) :
    (∀ y ∈ a.head?, y.1 ≠ p) ↔ ∀ y ∈ b.head?, y.1 ≠ p := by
  cases a with
  | nil =>
    cases b with
    | nil => simp
    | cons y b => cases same
  | cons x a =>
    cases b with
    | nil => cases same
    | cons y b => simpa using congrArg (· ≠ p) (by simpa using same)

/-- The pauses of the stream are those between its pieces. -/
theorem pausesAtEnds_merged (queues : ι → List (List β)) (pieces : List (ι × List β))
    (nonempty : ∀ x ∈ pieces, x.2 ≠ []) :
    PausesAtEnds queues (merged pieces) ↔ PiecesEnd queues pieces := by
  have tail : ∀ (earlier : List (ι × List β)) (p : ι) (c : List β) (b : β),
      merged (earlier ++ [(p, c ++ [b])]) = merged earlier ++ tagged p c ++ [(p, b)] := by
    intro earlier p c b
    simp [merged, tagged]
  constructor
  · rintro pauses before ⟨p, c⟩ after rfl pause
    rcases List.eq_nil_or_concat c with rfl | ⟨init, last, rfl⟩
    · exact absurd rfl (nonempty (p, []) (by simp))
    · rw [List.concat_eq_append] at pauses pause nonempty ⊢
      have later := head_merged after fun y hy => nonempty y (by simp [hy])
      have here := pauses (merged before ++ tagged p init) (p, last) (merged after)
        (by simp [merged, tagged]) ((head_ne_iff p _ _ later).mpr pause)
      rw [tail]
      exact here
  · intro ends before x after split pause
    obtain ⟨earlier, c, c', later, rfl, rfl, rfl⟩ := merged_split pieces before x after split
    cases c' with
    | cons y c' => exact absurd rfl (pause (x.1, y) (by simp [tagged]))
    | nil =>
      have heads := head_merged later fun y hy => nonempty y (by simp [hy])
      have here := ends earlier (x.1, c ++ [x.2]) later rfl ((head_ne_iff x.1 _ _ heads).mp pause)
      rw [tail] at here
      exact here

/-- The statement on pieces. -/
theorem framed_merged_iff (queues : ι → List (List β)) (pieces : List (ι × List β))
    (messages : ∀ p, ∀ m ∈ queues p, m ≠ []) (nonempty : ∀ x ∈ pieces, x.2 ≠ [])
    (inOrder : ∀ p, bytesOf p (merged pieces) <+: (queues p).flatten) :
    Framed queues (merged pieces) ↔ PiecesEnd queues pieces := by
  rw [framed_iff_pauses _ queues messages inOrder, pausesAtEnds_merged queues pieces nonempty]

/-- Whenever the next piece has another sender, a message ends. -/
def SwitchesEnd (queues : ι → List (List β)) (pieces : List (ι × List β)) : Prop :=
  ∀ before x y after, pieces = before ++ x :: y :: after → y.1 ≠ x.1 →
    EndsMessage (queues x.1) (bytesOf x.1 (merged (before ++ [x]))).length

theorem PiecesEnd.switchesEnd {queues : ι → List (List β)} {pieces more : List (ι × List β)}
    (h : PiecesEnd queues (pieces ++ more)) : SwitchesEnd queues pieces := by
  rintro before x y after rfl other
  exact h before x (y :: after ++ more) (by simp) (by simpa using other)

/-- All that the last sender has still to send ends a message. -/
theorem pieces_completed (queues : ι → List (List β)) (init : List (ι × List β)) (p : ι)
    (c : List β) (inOrder : ∀ q, bytesOf q (merged (init ++ [(p, c)])) <+: (queues q).flatten)
    (switches : SwitchesEnd queues (init ++ [(p, c)])) :
    ∃ last, (∀ x ∈ last, x.2 ≠ []) ∧
      (∀ q, bytesOf q (merged (init ++ [(p, c)] ++ last)) <+: (queues q).flatten) ∧
      PiecesEnd queues (init ++ [(p, c)] ++ last) := by
  obtain ⟨left, whole⟩ := inOrder p
  have total : EndsMessage (queues p) (queues p).flatten.length :=
    ⟨(queues p).length, by rw [List.take_length]⟩
  by_cases done : left = []
  · rw [done, List.append_nil] at whole
    refine ⟨[], by simp, by simpa using inOrder, ?_⟩
    rw [List.append_nil]
    intro before x after split pause
    cases after with
    | cons y after => exact switches before x y after split (pause y (by simp))
    | nil =>
      obtain ⟨rfl, same⟩ := List.append_inj' split rfl
      cases same
      rw [whole]
      exact total
  · refine ⟨[(p, left)], by simpa using done, ?_, ?_⟩
    · intro q
      have one : merged [(p, left)] = tagged p left := by simp [merged]
      rw [merged_append, bytesOf_append, one]
      by_cases same : q = p
      · subst same
        rw [bytesOf_tagged, whole]
      · rw [bytesOf_tagged_ne p q left (Ne.symm same), List.append_nil]
        exact inOrder q
    · intro before x after split pause
      rcases List.eq_nil_or_concat after with rfl | ⟨mid, z, rfl⟩
      · obtain ⟨rfl, same⟩ := List.append_inj' split rfl
        cases same
        have one : merged [(p, left)] = tagged p left := by simp [merged]
        rw [merged_append, bytesOf_append, one, bytesOf_tagged, whole]
        exact total
      · rw [List.concat_eq_append] at split pause
        have shape : (init ++ [(p, c)]) ++ [(p, left)] = (before ++ x :: mid) ++ [z] := by
          rw [split]
          simp
        obtain ⟨earlier, same⟩ := List.append_inj' shape rfl
        cases same
        cases mid with
        | cons y mid => exact switches before x y mid earlier (pause y (by simp))
        | nil =>
          -- the last two pieces have the same sender
          obtain ⟨-, same⟩ := List.append_inj' earlier rfl
          cases same
          exact absurd rfl (pause (p, left) (by simp))

/-- A merged stream is the beginning of a framed one exactly when its sender only
changes at the ends of messages. -/
theorem framed_extension_iff (queues : ι → List (List β)) (pieces : List (ι × List β))
    (messages : ∀ p, ∀ m ∈ queues p, m ≠ []) (nonempty : ∀ x ∈ pieces, x.2 ≠ [])
    (inOrder : ∀ p, bytesOf p (merged pieces) <+: (queues p).flatten) :
    (∃ more, Framed queues (merged pieces ++ more)) ↔ SwitchesEnd queues pieces := by
  constructor
  · rintro ⟨more, framed⟩
    have singles : merged (more.map fun x => (x.1, [x.2])) = more := by
      simp [merged, tagged, List.flatMap_map]
    rw [← singles, ← merged_append] at framed
    have some : ∀ x ∈ pieces ++ more.map fun x => (x.1, [x.2]), x.2 ≠ [] := by
      intro x mem
      rcases List.mem_append.mp mem with old | new
      · exact nonempty x old
      · obtain ⟨y, -, rfl⟩ := List.mem_map.mp new
        simp
    exact ((pausesAtEnds_merged queues _ some).mp framed.pausesAtEnds).switchesEnd
  · intro switches
    rcases List.eq_nil_or_concat pieces with rfl | ⟨init, ⟨p, c⟩, rfl⟩
    · exact ⟨[], .nil queues⟩
    · rw [List.concat_eq_append] at nonempty inOrder switches ⊢
      obtain ⟨last, some, inOrder', ends⟩ := pieces_completed queues init p c inOrder switches
      refine ⟨merged last, ?_⟩
      rw [← merged_append]
      refine (framed_merged_iff queues _ messages ?_ inOrder').mpr ends
      intro x mem
      rcases List.mem_append.mp mem with old | new
      · exact nonempty x old
      · exact some x new

end SportsPubSub.Lib.Framing
