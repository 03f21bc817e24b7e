import SportsPubSub.Udp.AsmSubscriberMain

/-!
# The assembly UDP subscriber and the C subscriber

udp_asm/subscriber_udp.s against udp_C/subscriber_udp.c: from any contents of the frame,
every command line, every outcome of the calls and every sequence of datagrams gives the
same complaints, the same subscriptions and the same texts, confirmations apart, and no
access leaves the frame. What the assembly program writes for a confirmation is stated
in `WrittenFor`.
-/
namespace SportsPubSub.Udp.AsmSubscriberMain
open Lib.Posix Lib.Decimal Lib.LittleEndian Lib.Memory Lib.Strtoul Lib.Reactive Protocol
open Subscriber (Line Buffer checkArgv sendSub sendSub_accepted subText dispatch length_subText)
open SubscriberMain
open Arguments (checkPort subscriberArguments)
open Lib.Memory.Region hiding snprintf

/-- The rotation of 16 bits by 8 is `htons`. -/
theorem rolw8_eq (w : UInt16) : rolw8 w = htons w := by
  have bound := w.toNat_lt
  have low : w.toNat <<< 8 % 65536 = (w.toNat % 256) <<< 8 := by
    simp only [Nat.shiftLeft_eq]
    omega
  have eight : (8 : UInt16).toNat % 16 = 8 := rfl
  rw [← UInt16.toNat_inj, toNat_htons, rolw8, UInt16.toNat_or, UInt16.toNat_shiftLeft,
    UInt16.toNat_shiftRight, eight, Nat.shiftRight_eq_div_pow]
  calc
    w.toNat <<< 8 % 65536 ||| w.toNat / 256 = (w.toNat % 256) <<< 8 ||| w.toNat / 256 := by rw [low]
    _ = (w.toNat % 256) <<< 8 + w.toNat / 256 :=
      (Nat.shiftLeft_add_eq_or_of_lt (by omega) _).symm
    _ = w.toNat % 256 * 256 + w.toNat / 256 := by rw [Nat.shiftLeft_eq]

/-- The broker's address stays at 1520 for the whole run. -/
def BrokerHolds (frame : Region 1560) (broker : SockaddrIn) : Prop :=
  frame.Holds 1520 (sockaddrBytes broker (leBytes 8 0))

theorem BrokerHolds.keep {frame frame' : Region 1560} {broker : SockaddrIn} {lo hi : Nat}
    (h : BrokerHolds frame broker) (kept : KeptOutside lo hi frame frame') (below : hi ≤ 1520) :
    BrokerHolds frame' broker := kept _ _ h (.inr below)

/-- One topic of the command line, as far as the call of `sendto`. -/
theorem subscription_spec (frame : Region 1560) (broker : SockaddrIn) (topic : CString)
    (held : BrokerHolds frame broker) (short : topic.bytes.length ≤ 63) :
    ∃ frame', frame.snprintf 112 1401 (pubsubUdpPrefixSub ++ topic.bytes ++ [charLf]) =
        some (frame', (subText topic.bytes).length) ∧
      frame'.load 112 (subText topic.bytes).length = some (subText topic.bytes) ∧
      frame'.sockaddr 1520 = some broker ∧ BrokerHolds frame' broker := by
  have len := length_subText topic.bytes
  obtain ⟨frame', printed, buf, kept⟩ := frame.snprintf_spec 112 1401 (subText topic.bytes)
    (by decide) (by decide)
  rw [List.take_of_length_le (by omega), holds_append] at buf
  have after := held.keep kept (by decide)
  exact ⟨frame', printed, buf.1.load _ rfl, sockaddr_of_holds after, after⟩

/-- `.L7` is the loop over the topics. -/
theorem l7_spec (host : Host) (argv : List CString) (broker : SockaddrIn) (passes r14 : Nat)
    (frame : Region 1560) (held : BrokerHolds frame broker) (first : 3 ≤ r14)
    (inside : r14 < argv.length) (enough : argv.length ≤ r14 + passes) :
    ∃ frame', l7 host argv passes r14 frame =
        some (frame', subscribeAll host broker (r14 - 3) (argv.drop r14)) ∧
      BrokerHolds frame' broker := by
  induction passes generalizing r14 frame with
  | zero => omega
  | succ passes ih =>
    have here : argv[r14]? = some argv[r14] := List.getElem?_eq_getElem inside
    rw [List.drop_eq_getElem_cons inside]
    generalize argv[r14] = topic at here
    simp only [l7, here, Option.bind_eq_bind, Option.bind_some, subscribeAll]
    by_cases blank : (strchr topic.bytes 32).isSome = true
    · have refused : checkArgv topic.bytes = .error (.temaConEspacios topic.bytes) := if_pos blank
      rw [if_pos blank, refused]
      exact ⟨frame, rfl, held⟩
    · by_cases long : topic.bytes.length > 63
      · have refused : checkArgv topic.bytes = .error (.temaDemasiadoLargo topic.bytes) :=
          (if_neg blank).trans (if_pos long)
        rw [if_neg blank, if_pos long, refused]
        exact ⟨frame, rfl, held⟩
      · have accepted : checkArgv topic.bytes = .ok () := (if_neg blank).trans (if_neg long)
        have len := length_subText topic.bytes
        obtain ⟨frame', printed, datagram, dest, held'⟩ :=
          subscription_spec frame broker topic held (by omega)
        rw [if_neg blank, if_neg long, accepted]
        simp only [printed, Option.bind_some, if_neg (show ¬ (subText topic.bytes).length > 1400 by
          omega), datagram, dest, sendSubCalls, sendSub_accepted _ accepted]
        cases host.sendto (r14 - 3) with
        | none => exact ⟨frame', rfl, held'⟩
        | some rdx =>
          by_cases last : argv.length ≤ r14 + 1
          · rw [List.drop_of_length_le last]
            exact ⟨frame', by simp [last, subscribeAll], held'⟩
          · obtain ⟨frame'', later, held''⟩ := ih (r14 + 1) frame' held' (by omega) (by omega)
              (by omega)
            have next : r14 + 1 - 3 = r14 - 3 + 1 := by omega
            rw [next] at later
            exact ⟨frame'', by simp [last, later], held''⟩

/-- The frame in front of the tests on the text. -/
structure Ready (frame : Region 1560) (broker origen : SockaddrIn) (s : Bytes) : Prop where
  broker : BrokerHolds frame broker
  fromstr : frame.StringHolds 32 (inetNtop origen.sinAddr)
  buf : frame.StringHolds 112 s

/-- What is written to 48(%rsp) leaves the rest. -/
theorem Ready.keep {frame frame' : Region 1560} {broker origen : SockaddrIn} {s : Bytes}
    (h : Ready frame broker origen s) (kept : KeptOutside 48 112 frame frame') :
    Ready frame' broker origen s where
  broker := h.broker.keep kept (by decide)
  fromstr := by
    have short := length_inetNtop origen.sinAddr
    exact h.fromstr.keep kept (.inl (by omega))
  buf := h.buf.keep kept (.inr (Nat.le_refl _))

theorem Ready.origin {frame : Region 1560} {broker origen : SockaddrIn} {s : Bytes}
    (h : Ready frame broker origen s) :
    origin frame (htons origen.sinPort) = some (origenText origen) := by
  simp only [AsmSubscriberMain.origin, h.fromstr.string, Option.bind_eq_bind, Option.bind_some]
  rfl

/-- The strings of the frame are those of the part above 112(%rsp). -/
theorem stringAt_frame (frame : Region 1560) (off : Nat) (s : Bytes) (above : 112 ≤ off)
    (held : frame.string off = some s) : AsmSubscriber.stringAt (frame.bytes.drop 112) off = s := by
  unfold Region.string at held
  split at held
  · rw [AsmSubscriber.stringAt, List.drop_drop, Nat.add_sub_cancel' above]
    exact Option.some.inj held
  · cases held

/-- The address of the broker ends in eight NULs, so a string that starts below them ends
inside the frame. -/
theorem string_inside (frame : Region 1560) (broker : SockaddrIn) (off : Nat)
    (held : BrokerHolds frame broker) (below : off ≤ 1528) : ∃ s, frame.string off = some s := by
  have zeros : sockaddrBytes broker (leBytes 8 0) = leBytes 2 broker.sinFamily.toNat ++
      leBytes 2 broker.sinPort.toNat ++ wordBytes broker.sinAddr ++ leBytes 8 0 := rfl
  have nul := held
  rw [BrokerHolds, zeros, holds_append] at nul
  have here := ((holds_iff _ _ _).mp nul.2).2 0 (by decide)
  simp only [List.length_append, length_leBytes, length_wordBytes] at here
  have mem : (0 : UInt8) ∈ frame.bytes.drop off := by
    apply List.mem_of_getElem? (i := 1528 - off)
    rw [List.getElem?_drop, Nat.add_sub_cancel' below]
    exact here
  exact ⟨_, if_pos mem⟩

/-- A line end is added to a text that has none. -/
theorem lineEnd_spec (frame : Region 1560) (r12 : Nat) (body : Bytes)
    (held : frame.StringHolds (r12 + 1) body) :
    ∃ added, lineEnd frame r12 = some added ∧ body ++ added =
      if body = [] then body else if strchr body 10 = none then body ++ [10] else body := by
  obtain ⟨c, first, empty⟩ := held.byte
  simp only [lineEnd, first, held.string, Option.bind_eq_bind, Option.bind_some]
  by_cases none : c = 0
  · rw [if_pos none, if_pos (empty.mp none)]
    exact ⟨[], rfl, List.append_nil body⟩
  · rw [if_neg none, if_neg fun h => none (empty.mpr h)]
    cases strchr body 10 with
    | none => exact ⟨[10], rfl, rfl⟩
    | some k => exact ⟨[], rfl, List.append_nil body⟩

/-- The topic is copied to 48(%rsp), cut to its 63 bytes. -/
theorem copy_spec (frame : Region 1560) (p : Bytes) (rax : Nat)
    (held : frame.StringHolds 117 p) (inside : rax ≤ p.length) (small : rax ≤ 63) :
    ∃ f₁ f₂, frame.load 117 rax = some (p.take rax) ∧
      frame.store 48 (p.take rax) = some f₁ ∧ f₁.store (48 + rax) [0] = some f₂ ∧
      f₂.StringHolds 48 (p.take rax) ∧ KeptOutside 48 112 frame f₂ := by
  have len : (p.take rax).length = rax := by
    rw [List.length_take, Nat.min_eq_left inside]
  have front := held.1
  rw [show p ++ [0] = p.take rax ++ (p.drop rax ++ [0]) by
    rw [← List.append_assoc, List.take_append_drop], holds_append] at front
  obtain ⟨f₁, copied, name, kept₁⟩ := frame.store_spec 48 (p.take rax) (by omega)
  obtain ⟨f₂, ended, nul, kept₂⟩ := f₁.store_spec (48 + rax) [0]
    (by rw [List.length_singleton]; omega)
  rw [List.length_singleton] at kept₂
  refine ⟨f₁, f₂, front.1.load rax len, copied, ended, ⟨?_, ?_⟩, ?_⟩
  · rw [holds_append, len]
    exact ⟨kept₂ _ _ name (.inl (by omega)), nul⟩
  · exact fun zero => held.2 (List.mem_of_mem_take zero)
  · exact (kept₁.widen (by omega) (by omega)).trans (kept₂.widen (by omega) (by omega))

/-- The `NEWS` part writes the line that it has without the frame. -/
theorem news_spec (frame : Region 1560) (broker origen : SockaddrIn) (s : Bytes)
    (ready : Ready frame broker origen s) (long : 5 ≤ s.length) :
    ∃ frame' line, news frame (htons origen.sinPort) = some (frame', shown line) ∧
      AsmSubscriber.news (frame.bytes.drop 112) origen = [line] ∧ BrokerHolds frame' broker := by
  have p := ready.buf.drop 5 long
  have whole := stringAt_frame frame 112 s (by decide) ready.buf.string
  have rest := stringAt_frame frame 117 _ (by decide) p.string
  simp only [news, AsmSubscriber.news, whole, rest, p.string, Option.bind_eq_bind,
    Option.bind_some]
  cases found : strchr (s.drop 5) 124 with
  | none =>
    refine ⟨frame, _, ?_, rfl, ready.broker⟩
    simp only [ready.origin, ready.buf.string, Option.bind_some]
    rfl
  | some sep =>
    obtain ⟨inside, -⟩ := List.findIdx?_eq_some_iff_getElem.mp found
    have small : (if sep > 63 then 63 else sep) ≤ 63 ∧ (if sep > 63 then 63 else sep) ≤ sep := by
      split <;> omega
    obtain ⟨f₁, f₂, loaded, copied, ended, topic, kept⟩ := copy_spec frame _ _ p
      (small.2.trans inside.le) small.1
    have ready' := ready.keep kept
    have body := (p.keep kept (.inr (by decide))).drop (sep + 1) inside
    obtain ⟨added, ran, texto⟩ := lineEnd_spec f₂ (117 + sep) _ body
    have body' : f₂.string (117 + sep + 1) = _ := body.string
    refine ⟨f₂, _, ?_, rfl, ready'.broker⟩
    simp only [loaded, copied, ended, topic.string, ready'.origin, body', ran, Option.bind_some,
      shown, ← texto, List.append_assoc]

/-- So does every branch; a confirmation leaves the frame alone. -/
theorem branches_spec (frame : Region 1560) (broker origen : SockaddrIn) (s : Bytes)
    (ready : Ready frame broker origen s) :
    ∃ frame' line, branches frame (htons origen.sinPort) = some (frame', shown line) ∧
      AsmSubscriber.branches (frame.bytes.drop 112) origen = [line] ∧
      BrokerHolds frame' broker ∧ (strncmpEq s AsmSubscriber.lc13 8 = true →
        frame'.string 120 = some (AsmSubscriber.stringAt (frame.bytes.drop 112) 120)) := by
  have whole := stringAt_frame frame 112 s (by decide) ready.buf.string
  simp only [branches, AsmSubscriber.branches, whole, ready.buf.string, Option.bind_eq_bind,
    Option.bind_some]
  by_cases subOk : strncmpEq s AsmSubscriber.lc13 8 = true
  · obtain ⟨rest, read⟩ := string_inside frame broker 120 ready.broker (by decide)
    have topic := stringAt_frame frame 120 rest (by decide) read
    rw [if_pos subOk, if_pos subOk]
    refine ⟨frame, _, ?_, rfl, ready.broker, fun _ => read.trans (congrArg some topic.symm)⟩
    simp only [l35, read, ready.origin, topic, Option.bind_eq_bind, Option.bind_some]
    rfl
  · rw [if_neg subOk, if_neg subOk]
    by_cases isNews : strncmpEq s AsmSubscriber.lc16 5 = true
    · rw [if_pos isNews, if_pos isNews]
      obtain ⟨frame', line, ran, writes, ends⟩ := news_spec frame broker origen s ready
        (AsmSubscriber.length_of_strncmpEq _ _ isNews)
      exact ⟨frame', line, ran, writes, ends, fun hit => absurd hit subOk⟩
    · rw [if_neg isNews, if_neg isNews]
      refine ⟨frame, _, ?_, rfl, ready.broker, fun hit => absurd hit subOk⟩
      simp only [ready.origin, Option.bind_some]
      rfl

/-- A successful `recvfrom` and the NUL behind what it read. -/
theorem recvfrom_spec (broker : SockaddrIn) (frame : Region 1560) (held : BrokerHolds frame broker)
    (sender : SockaddrIn) (datagram sinZero : Bytes) (padded : sinZero.length = 8) :
    ∃ f₂ f₃ f₄, frame.store 16 (sockaddrBytes sender sinZero) = some f₂ ∧
      f₂.store 112 (datagram.take 1400) = some f₃ ∧
      f₃.store (112 + (datagram.take 1400).length) [0] = some f₄ ∧ BrokerHolds f₄ broker ∧
      f₄.Holds 16 (sockaddrBytes sender sinZero) ∧
      f₄.StringHolds 112 (text (datagram.take 1400)) := by
  have size := length_sockaddrBytes sender sinZero
  have read : (datagram.take 1400).length ≤ 1400 := List.length_take_le _ _
  obtain ⟨f₂, from₂, sender₂, kept₂⟩ := frame.store_spec 16 (sockaddrBytes sender sinZero)
    (by omega)
  obtain ⟨f₃, buf₃, data₃, kept₃⟩ := f₂.store_spec 112 (datagram.take 1400) (by omega)
  obtain ⟨f₄, nul₄, end₄, kept₄⟩ := f₃.store_spec (112 + (datagram.take 1400).length) [0]
    (by rw [List.length_singleton]; omega)
  rw [List.length_singleton] at kept₄
  refine ⟨f₂, f₃, f₄, from₂, buf₃, nul₄, ?_, ?_, ?_, ?_⟩
  · exact ((held.keep kept₂ (by omega)).keep kept₃ (by omega)).keep kept₄ (by omega)
  · exact kept₄ _ _ (kept₃ _ _ sender₂ (.inl (by omega))) (.inl (by omega))
  · apply holds_text
    rw [holds_append]
    exact ⟨kept₄ _ _ data₃ (.inl (Nat.le_refl _)), end₄⟩
  · exact fun nul => mem_text_ne_zero _ 0 nul rfl

/-- A pass of `.L13` on a datagram that passes the three comparisons writes one line; it
is that of the branches on some stack that has the text in its buffer. If this is the bare
prefix, the topic is left in the frame. -/
theorem l13_accepted (broker : SockaddrIn) (frame : Region 1560) (held : BrokerHolds frame broker)
    (recibido : Recibido) (sender : SockaddrIn) (datagram : Bytes)
    (came : recibido.result = some (sender, datagram))
    (accepted : Subscriber.udpFromBroker sender broker = true) :
    ∃ frame' stack line, l13 frame recibido = some (frame', [.inr (shown line)]) ∧
      AsmSubscriber.stringAt stack 112 = text (datagram.take 1400) ∧
      AsmSubscriber.branches stack sender = [line] ∧ BrokerHolds frame' broker ∧
      (text (datagram.take 1400) = pubsubUdpPrefixSubOk →
        frame'.string 120 = some (AsmSubscriber.stringAt stack 120)) := by
  obtain ⟨f₁, flen, -, kept₁⟩ := frame.store_spec 12 (wordBytes 16)
    (by rw [length_wordBytes]; decide)
  rw [length_wordBytes] at kept₁
  obtain ⟨f₂, f₃, f₄, from₂, buf₃, nul₄, held₄, sender₄, string₄⟩ := recvfrom_spec broker f₁
    (held.keep kept₁ (by decide)) sender datagram recibido.sinZero recibido.padded
  obtain ⟨family, port, addr⟩ := fields_of_holds sender₄
  obtain ⟨family', port', -⟩ := fields_of_holds held₄
  simp only [Subscriber.udpFromBroker, afInet, Bool.and_eq_true, beq_iff_eq] at accepted
  obtain ⟨⟨ipv4, server⟩, service⟩ := accepted
  have short := length_inetNtop sender.sinAddr
  obtain ⟨f₅, ntop₅, fromstr₅, kept₅⟩ := store_string f₄ 32 (inetNtop sender.sinAddr)
    (by omega) (inetNtop_nul_free _)
  have ready : Ready f₅ broker sender (text (datagram.take 1400)) :=
    ⟨held₄.keep kept₅ (by omega), fromstr₅, string₄.keep kept₅ (.inr (by omega))⟩
  have size := length_sockaddrBytes sender recibido.sinZero
  have padding := recibido.padded
  have port₅ : f₅.half 18 = some sender.sinPort :=
    (fields_of_holds (kept₅ _ _ sender₄ (.inl (by omega)))).2.1
  obtain ⟨frame', line, ran, writes, ends, topic⟩ := branches_spec f₅ broker sender _ ready
  have bare : text (datagram.take 1400) = pubsubUdpPrefixSubOk →
      frame'.string 120 = some (AsmSubscriber.stringAt (f₅.bytes.drop 112) 120) := by
    intro whole
    rw [whole] at topic
    exact topic (by decide)
  have word : f₄.word 20 = some sender.sinAddr := addr
  rw [← rolw8_eq, service] at ran
  refine ⟨frame', _, line, ?_, stringAt_frame f₅ 112 _ (by decide) ready.buf.string, writes, ends,
    bare⟩
  simp only [l13, flen, came, from₂, buf₃, nul₄, family, port, family', port', ipv4, server,
    service, ne_eq, not_true_eq_false, if_false, word, ntop₅, port₅, ran, Option.bind_eq_bind,
    Option.bind_some]

/-- Any other datagram is read and nothing else. -/
theorem l13_refused (broker : SockaddrIn) (frame : Region 1560) (held : BrokerHolds frame broker)
    (recibido : Recibido) (sender : SockaddrIn) (datagram : Bytes)
    (came : recibido.result = some (sender, datagram))
    (refused : ¬ Subscriber.udpFromBroker sender broker = true) :
    ∃ frame', l13 frame recibido = some (frame', []) ∧ BrokerHolds frame' broker := by
  obtain ⟨f₁, flen, -, kept₁⟩ := frame.store_spec 12 (wordBytes 16)
    (by rw [length_wordBytes]; decide)
  rw [length_wordBytes] at kept₁
  obtain ⟨f₂, f₃, f₄, from₂, buf₃, nul₄, held₄, sender₄, -⟩ := recvfrom_spec broker f₁
    (held.keep kept₁ (by decide)) sender datagram recibido.sinZero recibido.padded
  obtain ⟨family, port, -⟩ := fields_of_holds sender₄
  obtain ⟨family', port', -⟩ := fields_of_holds held₄
  refine ⟨f₄, ?_, held₄⟩
  simp only [l13, flen, came, from₂, buf₃, nul₄, family, port, family', port',
    Option.bind_eq_bind, Option.bind_some]
  simp only [Subscriber.udpFromBroker, afInet, Bool.and_eq_true, beq_iff_eq] at refused
  split
  · rfl
  · next ipv4 =>
    split
    · rfl
    · next server =>
      split
      · rfl
      · next service =>
        exact absurd ⟨⟨not_not.mp ipv4, not_not.mp server⟩, not_not.mp service⟩ refused

/-- The stores up to that of `inet_pton` make up the address of the broker. -/
theorem clearAt_spec {size : Nat} (frame : Region size) (off : Nat) (port : UInt16)
    (sinAddr : UInt32) (room : off + 16 ≤ size) :
    ∃ f f', clearAt off port frame = some f ∧ f.store (off + 4) (wordBytes sinAddr) = some f' ∧
      f'.Holds off (sockaddrBytes ⟨afInet, sinAddr, htons port⟩ (leBytes 8 0)) := by
  obtain ⟨f₁, stored₁, held₁, -⟩ := frame.store_spec (off + 4) (leBytes 8 0)
    (by rw [length_leBytes]; omega)
  obtain ⟨f₂, stored₂, held₂, kept₂⟩ := f₁.store_spec (off + 12) (leBytes 4 0)
    (by rw [length_leBytes]; omega)
  obtain ⟨f₃, stored₃, held₃, kept₃⟩ := f₂.store_spec off (leBytes 2 2)
    (by rw [length_leBytes]; omega)
  obtain ⟨f₄, stored₄, held₄, kept₄⟩ := f₃.store_spec (off + 2) (leBytes 2 (rolw8 port).toNat)
    (by rw [length_leBytes]; omega)
  obtain ⟨f₅, stored₅, held₅, kept₅⟩ := f₄.store_spec (off + 4) (wordBytes sinAddr)
    (by rw [length_wordBytes]; omega)
  rw [length_leBytes] at kept₂ kept₃ kept₄
  rw [length_wordBytes] at kept₅
  refine ⟨f₄, f₅, ?_, stored₅, ?_⟩
  · simp only [clearAt, stored₁, stored₂, stored₃, stored₄, Option.bind_eq_bind, Option.bind_some]
  · have zeros : leBytes 8 0 = leBytes 4 0 ++ leBytes 4 0 := by decide
    rw [zeros, holds_append, length_leBytes] at held₁
    simp only [sockaddrBytes, zeros, holds_append, List.length_append, length_leBytes,
      length_wordBytes]
    have two : (leBytes 2 afInet.toNat).length = 2 := length_leBytes 2 _
    have four : (leBytes 4 0).length = 4 := length_leBytes 4 0
    refine ⟨⟨⟨?_, ?_⟩, held₅⟩, ?_, ?_⟩
    · exact kept₅ _ _ (kept₄ _ _ held₃ (.inl (by omega))) (.inl (by omega))
    · rw [← rolw8_eq]
      exact kept₅ _ _ held₄ (.inl (by rw [length_leBytes]))
    · exact kept₅ _ _ (kept₄ _ _ (kept₃ _ _ (kept₂ _ _ held₁.2 (.inl (by omega)))
        (.inr (by omega))) (.inr (by omega))) (.inr (by omega))
    · exact kept₅ _ _ (kept₄ _ _ (kept₃ _ _ held₂ (.inr (by omega))) (.inr (by omega)))
        (.inr (by omega))

theorem clear_spec (frame : Region 1560) (port : UInt64) (sinAddr : UInt32) :
    ∃ f f', clear port frame = some f ∧ f.store 1524 (wordBytes sinAddr) = some f' ∧
      BrokerHolds f' ⟨afInet, sinAddr, htons port.toUInt16⟩ :=
  clearAt_spec frame 1520 port.toUInt16 sinAddr (by decide)

theorem subscribe_spec (host : Host) (argv : List CString) (port : UInt64) (sinAddr : UInt32)
    (frame : Region 1560) (enough : 3 < argv.length) :
    ∃ frame', subscribe host argv port sinAddr frame = some (frame',
        subscribeAll host ⟨afInet, sinAddr, htons port.toUInt16⟩ 0 (argv.drop 3)) ∧
      BrokerHolds frame' ⟨afInet, sinAddr, htons port.toUInt16⟩ := by
  obtain ⟨f, f', cleared, stored, held⟩ := clear_spec frame port sinAddr
  obtain ⟨frame', loop, held'⟩ := l7_spec host argv _ argv.length 3 f' held (Nat.le_refl _) enough
    (by omega)
  refine ⟨frame', ?_, held'⟩
  simp only [subscribe, cleared, stored, Option.bind_eq_bind, Option.bind_some]
  exact loop

end SportsPubSub.Udp.AsmSubscriberMain
