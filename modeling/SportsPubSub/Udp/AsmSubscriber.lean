import SportsPubSub.Udp.Subscriber

/-!
# The assembly subscriber

Source: udp_asm/subscriber_udp.s, the receive loop `.L13` to `.L18`, which the
Makefile assembles. Lengths and offsets are the literals of the instructions:
`buf` is at 112(%rsp), the source of the datagram at 16(%rsp) and the broker at
1520(%rsp). `beyond` is what lies above `buf` on the stack, where a string
function ends up that finds no NUL. The comparison with the C loop is for every
datagram and every content of the stack.
-/
namespace SportsPubSub.Udp.AsmSubscriber
open Lib.Posix Lib.Reactive Protocol Subscriber

def lc13 : Bytes := ascii "OK SUB "
def lc16 : Bytes := ascii "NEWS "

/-- The C string at `offset(%rsp)`, for an offset from 112 on. -/
def stringAt (stack : Bytes) (offset : Nat) : Bytes := text (stack.drop (offset - 112))

/-- `.L35`: the topic is the string at 120(%rsp) up to CR or LF. -/
def l35 (stack : Bytes) (origin : SockaddrIn) : List Line :=
  let topic := stringAt stack 120
  [.suscripcionOk origin (topic.take (strcspn topic isCrlf))]

/-- From the call of `strchr` on 117(%rsp) to `.L20`, with `.L36` and `.L37`;
`cmova` bounds the length of the copy, `%r14` is the separator's successor. -/
def news (stack : Bytes) (origin : SockaddrIn) : List Line :=
  let p := stringAt stack 117
  match strchr p 124 with
  | none => [.newsSinSeparador origin (stringAt stack 112)]
  | some r12 =>
      let rax := if r12 > 63 then 63 else r12
      let r14 := p.drop (r12 + 1)
      let texto := if r14 = [] then r14 else if strchr r14 10 = none then r14 ++ [10] else r14
      [.noticiaEnVivo (p.take rax) origin texto]

/-- The tests after `recvfrom`, in the order of the code. -/
def branches (stack : Bytes) (origin : SockaddrIn) : List Line :=
  if strncmpEq (stringAt stack 112) lc13 8 then l35 stack origin
  else if strncmpEq (stringAt stack 112) lc16 5 then news stack origin
  else [.datagramaNoEstandar origin (stringAt stack 112)]

def asmSubscriber (broker : SockaddrIn) (beyond : Bytes) :
    Machine Buffer (SockaddrIn × Bytes) Line :=
  fun buf arrival =>
    let buf := buf.receive arrival.2
    (buf,
      if arrival.1.sinFamily ≠ 2 then []
      else if broker.sinFamily ≠ 2 then []
      else if arrival.1.sinPort ≠ broker.sinPort then []
      else branches (buf.bytes ++ beyond) arrival.1)

/-- The three `cmpw` tests are `udp_from_broker`. -/
theorem asmSubscriber_lines (broker origin : SockaddrIn) (beyond : Bytes) (buf : Buffer)
    (datagram : Bytes) (accepted : udpFromBroker origin broker = true) :
    (asmSubscriber broker beyond buf (origin, datagram)).2 =
      branches ((buf.receive datagram).bytes ++ beyond) origin := by
  simp only [udpFromBroker, afInet, Bool.and_eq_true, beq_iff_eq] at accepted
  obtain ⟨⟨family, server⟩, port⟩ := accepted
  simp [asmSubscriber, family, server, port]

/-- The whole text: it ends inside the buffer. -/
theorem stringAt_buf (buf : Buffer) (datagram beyond : Bytes)
    (fits : datagram.length ≤ pubsubUdpMaxMsg) :
    stringAt ((buf.receive datagram).bytes ++ beyond) 112 = text datagram := by
  rw [stringAt, receive_bytes buf datagram fits, List.append_assoc, List.cons_append,
    Nat.sub_self, List.drop_zero, text_append_nul_cons]

/-- Within the text, moving the start of a string drops characters. -/
theorem text_drop (s : Bytes) (k : Nat) (inside : k ≤ (text s).length) :
    text (s.drop k) = (text s).drop k := by
  induction k generalizing s with
  | zero => rfl
  | succ k ih =>
    cases s with
    | nil => simp [text] at inside
    | cons c rest =>
      by_cases nul : c = 0
      · simp [text, nul] at inside
      · have head : text (c :: rest) = c :: text rest := by simp [text, nul]
        rw [head] at inside ⊢
        exact ih rest (Nat.le_of_succ_le_succ inside)

theorem shownBody_eq (body : Bytes) :
    (if body = [] then body else if strchr body 10 = none then body ++ [10] else body) =
      shownBody body := by
  unfold shownBody
  by_cases empty : body = []
  · simp [empty]
  · by_cases newline : strchr body charLf = none
    · have literal : strchr body 10 = none := newline
      simp [empty, literal, charLf]
    · have literal : ¬ strchr body 10 = none := newline
      simp [empty, newline, literal]

theorem length_of_strncmpEq (s lit : Bytes) (h : strncmpEq s lit lit.length = true) :
    lit.length ≤ s.length := by
  have size := congrArg List.length ((strncmpEq_length s lit).mp h)
  rw [List.length_take] at size
  omega

/-- The NEWS parts of the two programs are the same. -/
theorem news_agree (stack : Bytes) (origin : SockaddrIn)
    (isNews : strncmpEq (stringAt stack 112) pubsubUdpPrefixNews pubsubUdpPrefixNews.length =
      true) :
    news stack origin = printNewsLine (stringAt stack 112) origin := by
  have long : 5 ≤ (text stack).length := length_of_strncmpEq _ _ isNews
  have rest : stringAt stack 117 = (stringAt stack 112).drop pubsubUdpPrefixNews.length :=
    text_drop stack 5 long
  simp only [news, printNewsLine, isNews, Bool.not_true, Bool.false_eq_true, if_false, rest,
    shownBody_eq]
  rfl

/-- Apart from confirmations the two programs agree. -/
theorem branches_other (stack : Bytes) (origin : SockaddrIn)
    (other : ¬ pubsubUdpPrefixSubOk <+: stringAt stack 112) :
    branches stack origin = dispatch (stringAt stack 112) origin := by
  have notOk : strncmpEq (stringAt stack 112) pubsubUdpPrefixSubOk pubsubUdpPrefixSubOk.length =
      false := by
    rw [Bool.eq_false_iff, ne_eq, strncmpEq_length]
    intro same
    exact other (same ▸ List.take_prefix _ _)
  have notAsm : strncmpEq (stringAt stack 112) lc13 8 = false := by
    rw [Bool.eq_false_iff, ne_eq, strncmpEq, beq_iff_eq]
    intro same
    have short : lc13.take 8 = pubsubUdpPrefixSubOk := rfl
    rw [short] at same
    exact other (same ▸ List.take_prefix _ _)
  simp only [branches, dispatch, notOk, notAsm, Bool.false_eq_true, if_false]
  by_cases isNews : strncmpEq (stringAt stack 112) pubsubUdpPrefixNews
      pubsubUdpPrefixNews.length = true
  · have literal : strncmpEq (stringAt stack 112) lc16 5 = true := isNews
    rw [if_pos literal, if_pos isNews]
    exact news_agree stack origin isNews
  · have literal : ¬ strncmpEq (stringAt stack 112) lc16 5 = true := isNews
    rw [if_neg literal, if_neg isNews]

/-- A confirmation that names a topic is no confirmation to the assembly program:
it compares the NUL of its literal as well. -/
theorem branches_named (stack rest : Bytes) (origin : SockaddrIn) (named : rest ≠ [])
    (subOk : stringAt stack 112 = pubsubUdpPrefixSubOk ++ rest) :
    branches stack origin = [.datagramaNoEstandar origin (pubsubUdpPrefixSubOk ++ rest)] := by
  have notAsm : strncmpEq (pubsubUdpPrefixSubOk ++ rest) lc13 8 = false := by
    cases rest with
    | nil => exact absurd rfl named
    | cons c more =>
      rw [Bool.eq_false_iff, ne_eq, strncmpEq, beq_iff_eq]
      intro same
      have size := congrArg List.length same
      simp only [List.length_take, List.length_append, List.length_cons,
        length_pubsubUdpPrefixSubOk] at size
      have literal : lc13.length = 7 := by decide
      omega
  have notNews : strncmpEq (pubsubUdpPrefixSubOk ++ rest) lc16 5 = false := by
    rw [Bool.eq_false_iff, ne_eq, strncmpEq, beq_iff_eq]
    intro same
    have first := congrArg List.head? same
    simp [lc16, pubsubUdpPrefixSubOk, ascii] at first
  simp only [branches, subOk, notAsm, notNews, Bool.false_eq_true, if_false]

/-- The bare prefix is the one text that passes the comparison of eight
characters; its topic is read one byte too far. -/
theorem branches_bare (stack : Bytes) (origin : SockaddrIn)
    (subOk : stringAt stack 112 = pubsubUdpPrefixSubOk) :
    branches stack origin = l35 stack origin := by
  have hit : strncmpEq (stringAt stack 112) lc13 8 = true := by
    rw [subOk]
    decide
  rw [branches, if_pos hit]

/-- A topic is cut to nothing when its first character ends it. -/
theorem cut_eq_nil_iff (c : UInt8) (rest : Bytes) :
    (text (c :: rest)).take (strcspn (text (c :: rest)) isCrlf) = [] ↔
      c = 0 ∨ isCrlf c = true := by
  by_cases nul : c = 0
  · simp [text, nul]
  · have head : text (c :: rest) = c :: text rest := by simp [text, nul]
    rw [head]
    cases line : isCrlf c with
    | true => simp [strcspn, List.findIdx_cons, line]
    | false => simp [strcspn, List.findIdx_cons, line, nul]

/-- What the assembly loop shows for a datagram is what the C loop shows. -/
def Agree (server origin : SockaddrIn) (beyond : Bytes) (stale stale' : Buffer)
    (datagram : Bytes) : Prop :=
  (asmSubscriber server beyond stale (origin, datagram)).2 =
    (subscriber server stale' (origin, datagram)).2

/-- The two programs agree on every text but the confirmations; of these only on
the bare prefix, when the next byte of the buffer ends a topic as well. -/
theorem agree_iff (server origin : SockaddrIn) (beyond : Bytes) (stale stale' : Buffer)
    (datagram : Bytes) (fits : datagram.length ≤ pubsubUdpMaxMsg)
    (accepted : udpFromBroker origin server = true) :
    Agree server origin beyond stale stale' datagram ↔
      ¬ pubsubUdpPrefixSubOk <+: text datagram ∨
        (text datagram = pubsubUdpPrefixSubOk ∧
          ∃ c, (stale.receive datagram).bytes[8]? = some c ∧ (c = 0 ∨ isCrlf c = true)) := by
  have whole := stringAt_buf stale datagram beyond fits
  rw [Agree, asmSubscriber_lines server origin beyond stale datagram accepted,
    subscriber_lines server origin stale' datagram fits accepted]
  by_cases subOk : pubsubUdpPrefixSubOk <+: text datagram
  · obtain ⟨rest, split⟩ := subOk
    rw [← split] at whole ⊢
    rw [dispatch_subOk]
    by_cases bare : rest = []
    · rw [bare, List.append_nil] at whole ⊢
      have size : 8 < (stale.receive datagram).bytes.length := by
        rw [(stale.receive datagram).size_eq]
        decide
      have next : ((stale.receive datagram).bytes ++ beyond).drop 8 =
          (stale.receive datagram).bytes[8] ::
            ((stale.receive datagram).bytes.drop 9 ++ beyond) := by
        rw [List.drop_append_of_le_length size.le, List.drop_eq_getElem_cons size]
        rfl
      have topic : stringAt ((stale.receive datagram).bytes ++ beyond) 120 =
          text ((stale.receive datagram).bytes[8] ::
            ((stale.receive datagram).bytes.drop 9 ++ beyond)) := congrArg text next
      rw [branches_bare _ origin whole, l35]
      simp only [topic, List.cons.injEq, and_true, Line.suscripcionOk.injEq, true_and,
        List.take_nil, cut_eq_nil_iff, List.prefix_rfl, not_true_eq_false, false_or,
        List.getElem?_eq_getElem size, Option.some.injEq, exists_eq_left']
    · have other : pubsubUdpPrefixSubOk ++ rest ≠ pubsubUdpPrefixSubOk := by
        simpa using bare
      rw [branches_named _ rest origin bare whole]
      simp [other]
  · rw [branches_other _ origin (by rw [whole]; exact subOk), whole]
    simp [subOk]

theorem agree_iff_sample :
    Agree ⟨afInet, 0x0100007F, 9000⟩ ⟨afInet, 0x0100007F, 9000⟩ [] zeroBuffer zeroBuffer
      (newsText (ascii "A_vs_B") (ascii "GOL|1-0")) :=
  (agree_iff _ _ [] zeroBuffer zeroBuffer (newsText (ascii "A_vs_B") (ascii "GOL|1-0")) (by decide)
    (by decide)).mpr (.inl (by decide))

/-- The broker's answer to a subscription is a non-standard datagram here. -/
theorem confirmation_not_shown :
    ¬ Agree ⟨afInet, 0x0100007F, 9000⟩ ⟨afInet, 0x0100007F, 9000⟩ [] zeroBuffer zeroBuffer
      (subOkText (ascii "A_vs_B")) := by
  unfold Agree
  decide +kernel

end SportsPubSub.Udp.AsmSubscriber
