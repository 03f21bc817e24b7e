import SportsPubSub.Quic.AckSoundness

/-!
# What a Mini-QUIC publisher sends over a whole run

`send_with_retx` for one packet after the other: the transmissions of a publisher are its
packets in program order, each one to six times in a row, and no packet is sent before
the broker has handled those in front of it. A displayed packet thus has all earlier
ones of its publisher in its past.
-/
namespace SportsPubSub.Quic.StopAndWait
open Lib.Posix Lib.Reactive Lib.DatagramNet Packet Entries Client Composed Provenance AckSoundness
open Broker hiding maxRetries

variable {ι κ : Type}

/-- The broker has handled the packet at position `m` from the publisher's address. -/
def Handled (D : Deployment ι κ) (trace : List (Event ι κ)) (i : ι) (m : Nat) : Prop :=
  ∃ pkt pos subs sends, (D.publisher i).packets[m]? = some pkt ∧
    Event.handled pos (D.publisher i).addr pkt subs sends ∈ trace

theorem Handled.mono {D : Deployment ι κ} {trace more : List (Event ι κ)} {i : ι} {m : Nat}
    (h : Handled D trace i m) : Handled D (trace ++ more) i m := by
  obtain ⟨pkt, pos, subs, sends, own, mem⟩ := h
  exact ⟨pkt, pos, subs, sends, own, List.mem_append_left _ mem⟩

/-- An ACK that the publisher accepts was issued for this very packet. -/
theorem acked_handled (D : Deployment ι κ)
    (apart : Function.Injective fun i => (D.publisher i).addr)
    (separate : ∀ i k, (D.publisher i).addr ≠ (D.subscriber k).addr)
    (trace : List (Event ι κ)) (s : State ι κ) (inv : Genuine D trace s) (i : ι) (k : Nat)
    (p : MiniQuicPacket) (own : (D.publisher i).packets[k]? = some p)
    (g : Datagram SockaddrIn MiniQuicPacket) (sent : g ∈ s.net)
    (addressed : g.dst = (D.publisher i).addr)
    (acked : waitForAck p.connId p.streamId p.pktNum (some g.body) = true) :
    Handled D trace i k := by
  have client : g.dst ≠ D.brokerAddr := by
    rw [addressed]
    exact D.publisher_elsewhere i
  obtain ⟨ack, isAck, type, -, -, num⟩ := (waitForAck_iff _ _ _ _).mp acked
  cases isAck
  rcases (origin_to_client D trace g (inv.net g sent) client).2 with
    ⟨pos, p', subs, sends, handled, -, answer⟩ | ⟨k', -, copy⟩
  · rw [addressed] at handled
    have own' := handled_from_publisher D apart separate trace inv.justified i pos p' subs sends
      handled
    rw [answer] at num
    have same : p' = p := packets_identified _ p' p own' (List.mem_of_getElem? own) num
    exact ⟨p, pos, subs, sends, own, same ▸ handled⟩
  · obtain ⟨pos, src, d, subs, sends, -, -, forwarded⟩ := copy
    rw [forwarded] at type
    exact absurd type (by simp [fwdPkt])

/-- The first packets, each as often as its count says. -/
def repeated (counts : List Nat) (packets : List MiniQuicPacket) : List MiniQuicPacket :=
  (List.zipWith List.replicate counts packets).flatten

theorem repeated_snoc (counts : List Nat) (packets : List MiniQuicPacket) (n : Nat)
    (p : MiniQuicPacket) (next : packets[counts.length]? = some p) :
    repeated (counts ++ [n]) packets = repeated counts packets ++ List.replicate n p := by
  induction counts generalizing packets with
  | nil =>
    cases packets with
    | nil => cases next
    | cons q rest =>
      cases next
      simp [repeated]
  | cons m counts ih =>
    cases packets with
    | nil => cases next
    | cons q rest =>
      have later := ih rest (by simpa using next)
      simp only [repeated, List.cons_append, List.zipWith_cons_cons, List.flatten_cons] at later ⊢
      rw [later, List.append_assoc]

/-- The calls of `send_with_retx` that returned 1, by how often they transmitted. -/
structure Calls (D : Deployment ι κ) (trace : List (Event ι κ)) (i : ι) (counts : List Nat) :
    Prop where
  limits : ∀ n ∈ counts, 1 ≤ n ∧ n ≤ maxRetries + 1
  handled : ∀ m < counts.length, Handled D trace i m

theorem Calls.mono {D : Deployment ι κ} {trace more : List (Event ι κ)} {i : ι}
    {counts : List Nat} (h : Calls D trace i counts) : Calls D (trace ++ more) i counts :=
  ⟨h.limits, fun m inside => (h.handled m inside).mono⟩

theorem Calls.snoc {D : Deployment ι κ} {trace : List (Event ι κ)} {i : ι} {counts : List Nat}
    (h : Calls D trace i counts) (attempt : Nat) (few : attempt ≤ maxRetries)
    (handled : Handled D trace i counts.length) : Calls D trace i (counts ++ [attempt + 1]) := by
  constructor
  · intro n mem
    rcases List.mem_append.mp mem with old | new
    · exact h.limits n old
    · rw [List.mem_singleton.mp new]
      omega
  · intro m inside
    rw [List.length_append, List.length_singleton] at inside
    by_cases last : m = counts.length
    · rw [last]
      exact handled
    · exact h.handled m (by omega)

variable [DecidableEq ι]

/-- The transmissions of publisher `i`. -/
def sentBy (i : ι) (trace : List (Event ι κ)) : List MiniQuicPacket :=
  trace.filterMap fun
    | .transmitted j _ pkt => if j = i then some pkt else none
    | _ => none

theorem sentBy_append (i : ι) (xs ys : List (Event ι κ)) :
    sentBy i (xs ++ ys) = sentBy i xs ++ sentBy i ys := List.filterMap_append

/-- Where a publisher stands, with what it has sent so far: in the call for the next
packet after `attempt` or `attempt + 1` transmissions, past its last call, or stopped
after the last attempt. -/
inductive Progress (D : Deployment ι κ) (trace : List (Event ι κ)) (i : ι) : PubState → Prop
  | transmit (counts : List Nat) (attempt : Nat) (p : MiniQuicPacket)
      (calls : Calls D trace i counts) (own : (D.publisher i).packets[counts.length]? = some p)
      (few : attempt ≤ maxRetries)
      (sent : sentBy i trace =
        repeated counts (D.publisher i).packets ++ List.replicate attempt p) :
      Progress D trace i (.transmit counts.length attempt)
  | waiting (counts : List Nat) (attempt : Nat) (p : MiniQuicPacket)
      (calls : Calls D trace i counts) (own : (D.publisher i).packets[counts.length]? = some p)
      (few : attempt ≤ maxRetries)
      (sent : sentBy i trace =
        repeated counts (D.publisher i).packets ++ List.replicate (attempt + 1) p) :
      Progress D trace i (.waiting counts.length attempt)
  | finished (counts : List Nat) (calls : Calls D trace i counts)
      (all : counts.length = (D.publisher i).packets.length)
      (sent : sentBy i trace = repeated counts (D.publisher i).packets) :
      Progress D trace i .finished
  | aborted (counts : List Nat) (p : MiniQuicPacket) (calls : Calls D trace i counts)
      (own : (D.publisher i).packets[counts.length]? = some p)
      (sent : sentBy i trace =
        repeated counts (D.publisher i).packets ++ List.replicate (maxRetries + 1) p) :
      Progress D trace i .aborted

/-- Events of others leave a publisher where it is. -/
theorem Progress.quiet {D : Deployment ι κ} {trace events : List (Event ι κ)} {i : ι}
    {p : PubState} (h : Progress D trace i p) (silent : sentBy i events = []) :
    Progress D (trace ++ events) i p := by
  have same : sentBy i (trace ++ events) = sentBy i trace := by
    rw [sentBy_append, silent, List.append_nil]
  cases h with
  | transmit counts attempt p calls own few sent =>
    exact .transmit counts attempt p calls.mono own few (same.trans sent)
  | waiting counts attempt p calls own few sent =>
    exact .waiting counts attempt p calls.mono own few (same.trans sent)
  | finished counts calls all sent => exact .finished counts calls.mono all (same.trans sent)
  | aborted counts p calls own sent => exact .aborted counts p calls.mono own (same.trans sent)

/-- The entry of a call, or the end of the program. -/
theorem Progress.call {D : Deployment ι κ} {trace : List (Event ι κ)} {i : ι} (counts : List Nat)
    (calls : Calls D trace i counts) (inside : counts.length ≤ (D.publisher i).packets.length)
    (sent : sentBy i trace = repeated counts (D.publisher i).packets) :
    Progress D trace i ((D.publisher i).call counts.length) := by
  unfold Publisher.call
  split
  · next more =>
    exact .transmit counts 0 _ calls (List.getElem?_eq_getElem more) (Nat.zero_le _)
      (by simpa using sent)
  · exact .finished counts calls (by omega) sent

/-- A wait ends with a retry only while there are attempts left, and with an abort only
when there are none. -/
theorem resume_attempts (P : Publisher) (incoming : Option MiniQuicPacket) (k attempt : Nat)
    (next : PubState) (reports : List (MiniQuicPacket × Bool))
    (h : P.resume incoming (.waiting k attempt) = some (next, reports)) :
    ∃ pkt, P.packets[k]? = some pkt ∧
      ((waitForAck pkt.connId pkt.streamId pkt.pktNum incoming = true ∧ next = P.call (k + 1)) ∨
        (attempt + 1 ≤ maxRetries ∧ next = .transmit k (attempt + 1)) ∨
        (maxRetries < attempt + 1 ∧ next = .aborted)) := by
  simp only [Publisher.resume, Option.map_eq_some_iff] at h
  obtain ⟨pkt, own, h⟩ := h
  refine ⟨pkt, own, ?_⟩
  split at h
  · next acked =>
    cases h
    exact .inl ⟨acked, rfl⟩
  · split at h
    · next few =>
      cases h
      exact .inr (.inl ⟨few, rfl⟩)
    · next last =>
      cases h
      exact .inr (.inr ⟨Nat.not_le.mp last, rfl⟩)

theorem sentBy_map (i j : ι) (pkts : List (MiniQuicPacket × Bool))
    (incoming : Option MiniQuicPacket) :
    sentBy i (pkts.map fun x => (.reported j x.1 incoming x.2 : Event ι κ)) = [] := by
  rw [sentBy, List.filterMap_map]
  exact List.filterMap_eq_nil_iff.mpr fun _ _ => rfl

theorem sentBy_passEvents (i : ι) (b : BrokerState) (pass : Pass) (pos : Nat) :
    sentBy i (passEvents b pass pos : List (Event ι κ)) = [] := by
  apply List.filterMap_eq_nil_iff.mpr
  intro e mem
  rcases mem_passEvents b pass pos e mem with ⟨src, p, -, rfl⟩ | ⟨entry, rfl⟩ | ⟨x, -, rfl⟩
  · rfl
  · rfl
  · rfl

/-- A call that has transmitted and not returned 1 is the last one. -/
theorem Calls.last {D : Deployment ι κ} {trace : List (Event ι κ)} {i : ι} {counts : List Nat}
    (calls : Calls D trace i counts) (n : Nat) (p : MiniQuicPacket)
    (own : (D.publisher i).packets[counts.length]? = some p) (limits : 1 ≤ n ∧ n ≤ 6)
    (sent : sentBy i trace =
      repeated counts (D.publisher i).packets ++ List.replicate n p) :
    (∀ m ∈ counts ++ [n], 1 ≤ m ∧ m ≤ 6) ∧
      (counts ++ [n]).length ≤ (D.publisher i).packets.length ∧
      sentBy i trace = repeated (counts ++ [n]) (D.publisher i).packets ∧
      ∀ m, m + 1 < (counts ++ [n]).length → Handled D trace i m := by
  have inside := (List.getElem?_eq_some_iff.mp own).1
  have longer : (counts ++ [n]).length = counts.length + 1 := by simp
  refine ⟨?_, by omega, sent.trans (repeated_snoc counts _ n p own).symm, ?_⟩
  · intro m mem
    rcases List.mem_append.mp mem with old | new
    · exact calls.limits m old
    · rw [List.mem_singleton.mp new]
      exact limits
  · intro m before
    exact calls.handled m (by omega)

variable [DecidableEq κ]

/-- One step, seen from publisher `i`: nothing happens, it transmits, or it goes on after
a wait; then it was acknowledged, tries again or gives up. -/
theorem progress_step (D : Deployment ι κ)
    (apart : Function.Injective fun i => (D.publisher i).addr)
    (separate : ∀ i k, (D.publisher i).addr ≠ (D.subscriber k).addr)
    (trace : List (Event ι κ)) (s next : State ι κ) (a : Act ι κ) (events : List (Event ι κ))
    (inv : Genuine D trace s) (i : ι) (progress : Progress D trace i (s.pubs i))
    (taken : step D s a = some (next, events)) :
    Progress D (trace ++ events) i (next.pubs i) := by
  cases a with
  | brokerReads pos fwdMs now =>
    simp only [step, Option.map_eq_some_iff] at taken
    obtain ⟨g, -, taken⟩ := taken
    cases taken
    exact progress.quiet (sentBy_passEvents i _ _ _)
  | brokerIdles now =>
    simp only [step, Option.some.injEq] at taken
    cases taken
    exact progress.quiet (sentBy_passEvents i _ _ _)
  | publisherSends j =>
    simp only [step, Option.map_eq_some_iff] at taken
    obtain ⟨⟨after, pkt⟩, sends, taken⟩ := taken
    obtain ⟨k, attempt, ready, rfl, own⟩ := transmit_some _ _ _ _ sends
    cases taken
    by_cases mine : j = i
    · subst mine
      rw [ready] at progress
      cases progress with
      | transmit counts attempt p calls own' few sent =>
        rw [own'] at own
        cases own
        have news : sentBy j (trace ++ [.transmitted j attempt pkt]) = repeated counts
            (D.publisher j).packets ++ List.replicate (attempt + 1) pkt := by
          rw [sentBy_append, sent, List.append_assoc, List.replicate_succ']
          simp [sentBy]
        dsimp only
        rw [Function.update_self]
        exact .waiting counts attempt pkt calls.mono own' few news
    · dsimp only
      rw [Function.update_of_ne (Ne.symm mine)]
      exact progress.quiet (by simp [sentBy, mine])
  | publisherWaits j arrival =>
    simp only [step] at taken
    split at taken
    · cases taken
    · next incoming arrived =>
      simp only [Option.map_eq_some_iff] at taken
      obtain ⟨⟨after, reports⟩, resumes, taken⟩ := taken
      cases taken
      have silent := sentBy_map (κ := κ) i j reports incoming
      by_cases mine : j = i
      · subst mine
        obtain ⟨k, attempt, -, waits, -⟩ := resume_some _ _ _ _ _ resumes
        rw [waits] at resumes progress
        obtain ⟨pkt, own, out⟩ := resume_attempts _ _ _ _ _ _ resumes
        have quiet := progress.quiet silent
        dsimp only
        rw [Function.update_self]
        cases quiet with
        | waiting counts attempt p calls own' few sent =>
          rw [own'] at own
          cases own
          rcases out with ⟨acked, rfl⟩ | ⟨more, rfl⟩ | ⟨last, rfl⟩
          · have handled : Handled D trace j counts.length := by
              cases arrival with
              | none =>
                cases arrived
                cases acked
              | some pos =>
                simp only [arriving, Option.map_eq_some_iff] at arrived
                obtain ⟨g, found, rfl⟩ := arrived
                obtain ⟨sent, addressed⟩ := deliver_some _ _ _ _ found
                exact acked_handled D apart separate trace s inv j _ pkt own' g
                  (List.mem_of_getElem? sent) addressed acked
            have inside := (List.getElem?_eq_some_iff.mp own').1
            have longer : (counts ++ [attempt + 1]).length = counts.length + 1 := by simp
            rw [← repeated_snoc counts _ (attempt + 1) pkt own'] at sent
            rw [← longer]
            exact .call _ (calls.snoc attempt few handled.mono) (by omega) sent
          · exact .transmit counts (attempt + 1) pkt calls own' more sent
          · have all : attempt = maxRetries := by omega
            rw [all] at sent
            exact .aborted counts pkt calls own' sent
      · dsimp only
        rw [Function.update_of_ne (Ne.symm mine)]
        exact progress.quiet silent
  | subscriberStarts k =>
    simp only [step] at taken
    split at taken
    · cases taken
    · cases taken
      exact progress.quiet rfl
  | subscriberReads k pos =>
    simp only [step] at taken
    split at taken
    · simp only [Option.map_eq_some_iff] at taken
      obtain ⟨g, -, taken⟩ := taken
      split at taken
      · cases taken
        exact progress.quiet rfl
      · cases taken
        exact progress.quiet rfl
    · cases taken

/-- In every run every publisher is somewhere in its program, and nothing is made up. -/
theorem progress_run (D : Deployment ι κ)
    (apart : Function.Injective fun i => (D.publisher i).addr)
    (separate : ∀ i k, (D.publisher i).addr ≠ (D.subscriber k).addr) (final : State ι κ)
    (trace : List (Event ι κ)) (run : Run D final trace) (i : ι) :
    Progress D trace i (final.pubs i) := by
  obtain ⟨junk, schedule, taken⟩ := run
  have both := exec_invariant (step D)
    (fun trace s => Genuine D trace s ∧ Progress D trace i (s.pubs i))
    (fun trace s a next events inv taken =>
      ⟨genuine_step D trace s next events inv.1 (step_moves D s next a events taken),
        progress_step D apart separate trace s next a events inv.1 i inv.2 taken⟩)
    schedule _ final trace ?_ taken
  · exact both.2
  · refine ⟨genuine_run D _ [] ⟨junk, [], rfl⟩, ?_⟩
    have none : Calls D ([] : List (Event ι κ)) i [] :=
      ⟨fun _ mem => absurd mem List.not_mem_nil, fun _ inside => absurd inside (Nat.not_lt_zero _)⟩
    exact .call [] none (Nat.zero_le _) rfl

/-- The transmissions of a publisher are its first packets in program order, each one to
six times in a row. All but the last of these were handled by the broker, from the
publisher's address; a publisher at its end had all of its packets handled, and one that
gave up has sent its last packet six times. -/
theorem stop_and_wait (D : Deployment ι κ)
    (apart : Function.Injective fun i => (D.publisher i).addr)
    (separate : ∀ i k, (D.publisher i).addr ≠ (D.subscriber k).addr) (final : State ι κ)
    (trace : List (Event ι κ)) (run : Run D final trace) (i : ι) :
    ∃ counts : List Nat, ((∀ n ∈ counts, 1 ≤ n ∧ n ≤ 6) ∧
      counts.length ≤ (D.publisher i).packets.length ∧
      sentBy i trace = repeated counts (D.publisher i).packets ∧
      ∀ m, m + 1 < counts.length → Handled D trace i m) ∧
      (final.pubs i = .finished → counts.length = (D.publisher i).packets.length ∧
        ∀ m < counts.length, Handled D trace i m) ∧
      (final.pubs i = .aborted → counts.getLast? = some 6) := by
  have progress := progress_run D apart separate final trace run i
  generalize final.pubs i = state at progress
  cases progress with
  | transmit counts attempt p calls own few sent =>
    cases attempt with
    | zero =>
      rw [List.replicate_zero, List.append_nil] at sent
      have inside := (List.getElem?_eq_some_iff.mp own).1
      exact ⟨counts, ⟨calls.limits, inside.le, sent, fun m before => calls.handled m (by omega)⟩,
        nofun, nofun⟩
    | succ attempt =>
      exact ⟨_, calls.last (attempt + 1) p own ⟨by omega, Nat.le_succ_of_le few⟩ sent, nofun,
        nofun⟩
  | waiting counts attempt p calls own few sent =>
    exact ⟨_, calls.last (attempt + 1) p own ⟨by omega, Nat.succ_le_succ few⟩ sent, nofun, nofun⟩
  | finished counts calls all sent =>
    exact ⟨counts, ⟨calls.limits, all.le, sent, fun m before => calls.handled m (by omega)⟩,
      fun _ => ⟨all, calls.handled⟩, nofun⟩
  | aborted counts p calls own sent =>
    exact ⟨_, calls.last 6 p own (by decide) sent, nofun, fun _ => List.getLast?_concat⟩

theorem stop_and_wait_sample : ∃ counts : List Nat, (∀ n ∈ counts, 1 ≤ n ∧ n ≤ 6) ∧
    sentBy true (leaves twoPublishers zeroBuffer (firstNews ++ [.subscriberReads () 6])) =
      repeated counts (twoPublishers.publisher true).packets := by
  obtain ⟨final, run⟩ := run_leaves twoPublishers zeroBuffer
    (firstNews ++ [.subscriberReads () 6]) (.displayed () 6 (fwdPkt (newsOf true) 7))
    (by decide +kernel)
  rw [List.dropLast_append_getLast? _ (by decide +kernel)] at run
  obtain ⟨counts, ⟨limits, -, sent, -⟩, -⟩ := stop_and_wait twoPublishers
    (by unfold Function.Injective; decide +kernel) (fun i ⟨⟩ => by revert i; decide +kernel)
    final _ run true
  exact ⟨counts, limits, sent⟩

/-- The past of a transmission and of a displayed packet: all earlier packets of the same
publisher have been handled. -/
def Causal (D : Deployment ι κ) (before : List (Event ι κ)) : Event ι κ → Prop
  | .transmitted i _ pkt => ∃ n : Nat, (D.publisher i).packets[n]? = some pkt ∧
      ∀ m < n, Handled D before i m
  | .displayed k _ q => ∃ (i : ι) (n : Nat) (d : MiniQuicPacket),
      (D.publisher i).packets[n]? = some d ∧ q = fwdPkt d (D.subscriber k).connId ∧
        ∀ m ≤ n, Handled D before i m
  | _ => True

omit [DecidableEq ι] [DecidableEq κ] in
theorem Causal.mono {D : Deployment ι κ} (before more : List (Event ι κ)) (e : Event ι κ)
    (h : Causal D before e) : Causal D (before ++ more) e := by
  cases e with
  | transmitted i attempt pkt =>
    obtain ⟨n, own, past⟩ := h
    exact ⟨n, own, fun m before => (past m before).mono⟩
  | displayed k pos q =>
    obtain ⟨i, n, d, own, same, past⟩ := h
    exact ⟨i, n, d, own, same, fun m before => (past m before).mono⟩
  | reported i pkt incoming ok => trivial
  | handled pos src pkt subs sends => trivial
  | cleared entry => trivial
  | resent x => trivial

omit [DecidableEq ι] [DecidableEq κ] in
/-- What a subscriber displays was sent by a publisher and handled from its address. -/
theorem displayed_causal (D : Deployment ι κ) (trace : List (Event ι κ)) (s : State ι κ)
    (inv : Genuine D trace s) (causal : Justified (Causal D) trace) (k : κ) (pos : Nat)
    (g : Datagram SockaddrIn MiniQuicPacket) (found : s.net[pos]? = some g)
    (addressed : g.dst = (D.subscriber k).addr) (mine : g.body.connId = (D.subscriber k).connId)
    (data : g.body.type = pktData) : Causal D trace (.displayed k pos g.body) := by
  have client : g.dst ≠ D.brokerAddr := addressed ▸ D.subscriber_elsewhere k
  rcases (origin_to_client D trace g (inv.net g (List.mem_of_getElem? found)) client).2 with
    ⟨pos', p, subs, sends, -, -, isAck⟩ | ⟨k', -, pos', src, d, subs, sends, mem, isData, copy⟩
  · rw [isAck] at data
    exact absurd data (by simp [ackFor, Ne.symm pktData_ne_pktAck])
  · have conn : (D.subscriber k').connId = (D.subscriber k).connId := by
      rw [copy] at mine
      exact mine
    obtain ⟨origin, -⟩ := justified_at D trace inv.justified _ mem
    rcases origin_to_broker D trace src d origin with
      ⟨i, attempt, rfl, -, sent⟩ | ⟨k'', -, rfl⟩ | ⟨k'', pos'', q, -, rfl, -⟩
    · obtain ⟨n, own, past⟩ := causal.of_mem Causal.mono _ sent
      refine ⟨i, n, d, own, conn ▸ copy, ?_⟩
      intro m upTo
      by_cases last : m = n
      · rw [last]
        exact ⟨d, pos', subs, sends, own, mem⟩
      · exact past m (by omega)
    · exact absurd isData (by simp [Listener.subReq])
    · exact absurd isData (by simp [ackFor, Ne.symm pktData_ne_pktAck])

theorem causal_step (D : Deployment ι κ) (trace : List (Event ι κ)) (s next : State ι κ)
    (events : List (Event ι κ)) (inv : Genuine D trace s)
    (progress : ∀ i, Progress D trace i (s.pubs i)) (causal : Justified (Causal D) trace)
    (moves : Moves D s next events) : Justified (Causal D) (trace ++ events) := by
  cases moves with
  | passed pass pos genuine =>
    apply causal.append_all Causal.mono
    intro e mem
    rcases mem_passEvents s.broker pass pos e mem with
      ⟨src, p, -, rfl⟩ | ⟨entry, rfl⟩ | ⟨x, -, rfl⟩
    · trivial
    · trivial
    · trivial
  | transmitted i k attempt pkt ready own =>
    apply causal.snoc
    have stands := progress i
    rw [ready] at stands
    cases stands with
    | transmit counts attempt p calls own' few sent => exact ⟨_, own, calls.handled⟩
  | reported i k attempt pkt g waits own sent addressed acked => exact causal.snoc trivial
  | retried i k attempt waits => simpa using causal
  | failed i pkt incoming => exact causal.snoc trivial
  | started k => simpa using causal
  | ignored => simpa using causal
  | displayed k pos g found addressed mine data =>
    exact causal.snoc (displayed_causal D trace s inv causal k pos g found addressed mine data)

/-- In every run, whatever is lost, repeated, delayed or reordered: a publisher transmits a
packet only after the broker has handled all its earlier ones, and a subscriber displays
a packet only after the broker has handled it and all earlier ones of its publisher. -/
theorem display_causal (D : Deployment ι κ)
    (apart : Function.Injective fun i => (D.publisher i).addr)
    (separate : ∀ i k, (D.publisher i).addr ≠ (D.subscriber k).addr) (final : State ι κ)
    (trace : List (Event ι κ)) (run : Run D final trace) : Justified (Causal D) trace := by
  obtain ⟨junk, schedule, taken⟩ := run
  have start : Run D (State.initial D junk) [] := ⟨junk, [], rfl⟩
  have all := exec_invariant (step D)
    (fun trace s => Genuine D trace s ∧ (∀ i, Progress D trace i (s.pubs i)) ∧
      Justified (Causal D) trace)
    (fun trace s a next events inv taken =>
      have moves := step_moves D s next a events taken
      ⟨genuine_step D trace s next events inv.1 moves,
        fun i => progress_step D apart separate trace s next a events inv.1 i (inv.2.1 i) taken,
        causal_step D trace s next events inv.1 inv.2.1 inv.2.2 moves⟩)
    schedule _ final trace
    ⟨genuine_run D _ [] start, progress_run D apart separate _ [] start, justified_nil _⟩ taken
  exact all.2.2

theorem display_causal_sample : Justified (Causal twoPublishers)
    (leaves twoPublishers zeroBuffer (firstNews ++ [.subscriberReads () 6])) := by
  obtain ⟨final, run⟩ := run_leaves twoPublishers zeroBuffer
    (firstNews ++ [.subscriberReads () 6]) (.displayed () 6 (fwdPkt (newsOf true) 7))
    (by decide +kernel)
  rw [List.dropLast_append_getLast? _ (by decide +kernel)] at run
  exact display_causal twoPublishers (by unfold Function.Injective; decide +kernel)
    (fun i ⟨⟩ => by revert i; decide +kernel) final _ run

end SportsPubSub.Quic.StopAndWait
