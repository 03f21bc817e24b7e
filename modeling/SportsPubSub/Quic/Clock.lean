import SportsPubSub.Quic.Outstanding

/-!
# The clock of the retransmission timer

The timer compares the unsigned difference of two readings of the wall clock. The log
of the readings stored with each transmission of an entry says what `last_send_ms`
was meant to be. A reading behind the last one makes the difference wrap, and the
packet is sent again at once.
-/
namespace SportsPubSub.Quic.Clock
open Lib.Posix Lib.Reactive Packet Broker Entries Outstanding

/-- The reading stored when the received packet was forwarded to entry `i`. -/
def forwardReadings (b : BrokerState) (pass : Pass) (i : Nat) : List UInt64 :=
  match receivedPacket b pass with
  | none => []
  | some (_, packet) =>
      if packet.type = pktData ∧ i < b.subs.length then [pass.fwdMs i] else []

/-- The reading stored when the timer sent the packet of entry `i` again. -/
def timerReadings (b : BrokerState) (pass : Pass) (i : Nat) : List UInt64 :=
  match (handled b pass).1[i]? with
  | none => []
  | some s => (timerStep pass.now s).2.map fun _ => pass.now

/-- The readings stored with the transmissions to entry `i` along a run, in order. -/
def readings (i : Nat) : BrokerState → List Pass → List UInt64
  | _, [] => []
  | b, pass :: rest =>
      (forwardReadings b pass i ++ timerReadings b pass i) ++ readings i (broker b pass).1 rest

/-- The reading of the last transmission to entry `i` before the timer of the pass. -/
def previousReading (junk : Buffer) (before : List Pass) (pass : Pass) (i : Nat) :
    Option UInt64 :=
  (readings i (BrokerState.initial junk) before ++
    forwardReadings (runFrom broker (BrokerState.initial junk) before) pass i).getLast?

/-- Every retransmission of the run comes a whole timeout after the transmission
before it. -/
def OnTime (junk : Buffer) (history : List Pass) : Prop :=
  ∀ before pass after i, history = before ++ pass :: after →
    timerReadings (runFrom broker (BrokerState.initial junk) before) pass i ≠ [] →
      ∃ last, previousReading junk before pass i = some last ∧
        last.toNat + retxTimeoutMs.toNat ≤ pass.now.toNat

/-- The clock went back since the last transmission, by no more than makes the
difference wrap to a timeout. -/
def Behind (now last : UInt64) : Prop :=
  now.toNat < last.toNat ∧ last.toNat - now.toNat + retxTimeoutMs.toNat ≤ 2 ^ 64

/-- No timer of the run finds the clock behind while a packet is outstanding and may
still be sent again. -/
def NeverBehind (junk : Buffer) (history : List Pass) : Prop :=
  ∀ before pass after i s, history = before ++ pass :: after →
    (handled (runFrom broker (BrokerState.initial junk) before) pass).1[i]? = some s →
      s.hasOutstanding = true → s.retries < maxRetries →
        ∀ last, previousReading junk before pass i = some last → ¬ Behind pass.now last

/-- The test of the source, over the integers. -/
theorem due_iff (now last : UInt64) :
    ¬ now - last < retxTimeoutMs ↔
      last.toNat + retxTimeoutMs.toNat ≤ now.toNat ∨ Behind now last := by
  have high := now.toNat_lt
  have low := last.toNat_lt
  have timeout : retxTimeoutMs.toNat = 500 := rfl
  rw [UInt64.lt_iff_toNat_lt, UInt64.toNat_sub, Behind, timeout]
  omega

/-- What the timer sends for one entry, and the reading it stores. -/
theorem timerStep_sends (now : UInt64) (s : Subscriber) :
    (timerStep now s).2 ≠ [] ↔
      s.hasOutstanding = true ∧ s.retries < maxRetries ∧ ¬ now - s.lastSendMs < retxTimeoutMs := by
  unfold timerStep
  split
  · next idle => simp_all
  · next pending =>
    split
    · next early => simp [early]
    · next due =>
      split
      · next spent => simp [Nat.not_lt.mpr spent]
      · next more => simp_all

theorem timerStep_reading (now : UInt64) (s : Subscriber) (log : List UInt64)
    (stored : s.hasOutstanding = true → log.getLast? = some s.lastSendMs)
    (pending : (timerStep now s).1.hasOutstanding = true) :
    (log ++ (timerStep now s).2.map fun _ => now).getLast? =
      some (timerStep now s).1.lastSendMs := by
  unfold timerStep at pending ⊢
  split at pending
  · next idle => simp_all
  · next was =>
    have held : s.hasOutstanding = true := by simpa using was
    split at pending
    · next early => simp [held, early, stored held]
    · next due =>
      split at pending
      · cases pending
      · next more => simp [held, due, more]

/-- What the table holds is the last reading of the log. -/
def Recorded (logs : Nat → List UInt64) (subs : List Subscriber) : Prop :=
  ∀ (i : Nat) (s : Subscriber), subs[i]? = some s → s.hasOutstanding = true →
    (logs i).getLast? = some s.lastSendMs

theorem entryReceive_reading (received : Option MiniQuicPacket) (ms : UInt64) (s : Subscriber)
    (log : List UInt64) (stored : s.hasOutstanding = true → log.getLast? = some s.lastSendMs)
    (pending : (entryReceive received ms s).1.hasOutstanding = true) :
    (log ++ if ∃ p ∈ received, p.type = pktData then [ms] else []).getLast? =
      some (entryReceive received ms s).1.lastSendMs := by
  cases received with
  | none => simpa [entryReceive] using stored pending
  | some packet =>
    simp only [entryReceive, entryHandle] at pending ⊢
    split at pending
    · next data => simp [data, loadOutstanding]
    · next other =>
      split at pending
      · cases pending
      · next kept => simp [other, kept, stored pending]

theorem recorded_handled (logs : Nat → List UInt64) (b : BrokerState) (pass : Pass)
    (inv : TableInv b.subs) (stored : Recorded logs b.subs) :
    Recorded (fun i => logs i ++ forwardReadings b pass i) (handled b pass).1 := by
  intro i t ht pending
  by_cases old : i < b.subs.length
  · have hs := List.getElem?_eq_getElem old
    obtain ⟨entry, -⟩ := handled_entry b pass inv i _ hs
    obtain rfl : _ = t := Option.some.inj (entry.symm.trans ht)
    have reading := entryReceive_reading _ (pass.fwdMs i) _ (logs i) (stored i _ hs) pending
    have same : (if ∃ p ∈ (receivedPacket b pass).map Prod.snd, p.type = pktData then
        [pass.fwdMs i] else []) = forwardReadings b pass i := by
      unfold forwardReadings
      cases receivedPacket b pass with
      | none => simp
      | some arrival => simp [old]
    rw [same] at reading
    exact reading
  · -- a new entry holds nothing yet
    exfalso
    unfold handled at ht
    split at ht
    · exact old (List.getElem?_eq_some_iff.mp ht).1
    · next client packet _ =>
      rcases identities_handlePacket b.subs client packet pass.fwdMs with same | ⟨-, appended⟩
      · rw [← length_of_identities _ _ same] at old
        exact old (List.getElem?_eq_some_iff.mp ht).1
      · rw [appended, List.getElem?_append_right (Nat.not_lt.mp old)] at ht
        have fresh := List.mem_singleton.mp (List.mem_of_getElem? ht)
        rw [fresh] at pending
        cases pending

theorem recorded_broker (logs : Nat → List UInt64) (b : BrokerState) (pass : Pass)
    (inv : TableInv b.subs) (stored : Recorded logs b.subs) :
    Recorded (fun i => logs i ++ (forwardReadings b pass i ++ timerReadings b pass i))
      (broker b pass).1.subs := by
  intro i t ht pending
  rw [broker_subs, retransmissionTimer, List.getElem?_map] at ht
  obtain ⟨s, hs, rfl⟩ := Option.map_eq_some_iff.mp ht
  have before := recorded_handled logs b pass inv stored i s hs
  have reading := timerStep_reading pass.now s _ before pending
  have same : timerReadings b pass i = (timerStep pass.now s).2.map fun _ => pass.now := by
    simp only [timerReadings, hs]
  dsimp only
  rw [same, ← List.append_assoc]
  exact reading

theorem recorded_run (b : BrokerState) (inv : TableInv b.subs) (passes : List Pass)
    (logs : Nat → List UInt64) (stored : Recorded logs b.subs) :
    Recorded (fun i => logs i ++ readings i b passes) (runFrom broker b passes).subs := by
  induction passes generalizing b logs with
  | nil => simpa [readings] using stored
  | cons pass rest ih =>
    have next := ih _ (tableInv_broker b pass inv) _ (recorded_broker logs b pass inv stored)
    simpa [readings] using next

/-- `last_send_ms` of an outstanding packet is the reading of its last transmission. -/
theorem previousReading_eq (junk : Buffer) (before : List Pass) (pass : Pass) (i : Nat)
    (s : Subscriber)
    (hs : (handled (runFrom broker (BrokerState.initial junk) before) pass).1[i]? = some s)
    (pending : s.hasOutstanding = true) :
    previousReading junk before pass i = some s.lastSendMs := by
  have empty : Recorded (fun _ => []) (BrokerState.initial junk).subs := by
    intro j t ht
    cases ht
  have stored := recorded_run (BrokerState.initial junk) (tableInv_run junk []) before _ empty
  have half := recorded_handled _ _ pass (tableInv_run junk before) stored i s hs pending
  simpa [previousReading] using half

/-- The timer sends the packet of entry `i` again. -/
theorem fires_iff (b : BrokerState) (pass : Pass) (i : Nat) :
    timerReadings b pass i ≠ [] ↔ ∃ s, (handled b pass).1[i]? = some s ∧
      s.hasOutstanding = true ∧ s.retries < maxRetries ∧
        (s.lastSendMs.toNat + retxTimeoutMs.toNat ≤ pass.now.toNat ∨
          Behind pass.now s.lastSendMs) := by
  unfold timerReadings
  split
  · next none => simp [none]
  · next s here =>
    have sends := timerStep_sends pass.now s
    rw [due_iff] at sends
    simp [here, sends]

/-- No retransmission of a run comes early exactly when no timer finds the clock behind
the last transmission of an outstanding packet. -/
theorem on_time_iff (junk : Buffer) (history : List Pass) :
    OnTime junk history ↔ NeverBehind junk history := by
  constructor
  · intro onTime before pass after i s split hs pending more last previous behind
    have stored := previousReading_eq junk before pass i s hs pending
    obtain rfl : last = s.lastSendMs := Option.some.inj (previous.symm.trans stored)
    have fires := (fires_iff _ pass i).mpr ⟨s, hs, pending, more, .inr behind⟩
    obtain ⟨last', same, whole⟩ := onTime before pass after i split fires
    obtain rfl : last' = s.lastSendMs := Option.some.inj (same.symm.trans stored)
    exact absurd behind.1 (by omega)
  · intro ahead before pass after i split fires
    obtain ⟨s, hs, pending, more, due⟩ := (fires_iff _ pass i).mp fires
    have stored := previousReading_eq junk before pass i s hs pending
    refine ⟨s.lastSendMs, stored, ?_⟩
    rcases due with whole | behind
    · exact whole
    · exact absurd behind (ahead before pass after i s split hs pending more _ stored)

/-- The clock steps back by one millisecond between the forward and the timer. -/
def steppedBack : Pass := .reading hostP (dataP 2) (fun _ => 1000) 999

/-- The copy is sent twice in one pass. -/
theorem stepped_back_early : ¬ OnTime zeroBuffer [subscribeA, steppedBack] := by
  intro onTime
  obtain ⟨last, previous, whole⟩ := onTime [subscribeA] steppedBack [] 0 rfl (by decide +kernel)
  have stored : previousReading zeroBuffer [subscribeA] steppedBack 0 = some 1000 := by
    decide +kernel
  obtain rfl : last = 1000 := Option.some.inj (previous.symm.trans stored)
  exact absurd whole (by decide)

/-- All readings of the clock in a pass: one for each copy, then the one of the timer. -/
def clockReadings (b : BrokerState) (pass : Pass) : List UInt64 :=
  (List.range b.subs.length).flatMap (forwardReadings b pass) ++ [pass.now]

/-- All readings of a run, in order. -/
def allReadings : BrokerState → List Pass → List UInt64
  | _, [] => []
  | b, pass :: rest => clockReadings b pass ++ allReadings (broker b pass).1 rest

theorem allReadings_append (b : BrokerState) (before after : List Pass) :
    allReadings b (before ++ after) =
      allReadings b before ++ allReadings (runFrom broker b before) after := by
  induction before generalizing b with
  | nil => rfl
  | cons pass rest ih =>
    simp only [List.cons_append, allReadings, runFrom_cons, ih, List.append_assoc]

theorem mem_forwardReadings (b : BrokerState) (pass : Pass) (i : Nat) (ms : UInt64)
    (h : ms ∈ forwardReadings b pass i) :
    ms ∈ (List.range b.subs.length).flatMap (forwardReadings b pass) := by
  have inside : i < b.subs.length := by
    unfold forwardReadings at h
    split at h
    · cases h
    · split at h
      · next both => exact both.2
      · cases h
  exact List.mem_flatMap.mpr ⟨i, List.mem_range.mpr inside, h⟩

theorem mem_readings (i : Nat) (b : BrokerState) (passes : List Pass) (ms : UInt64)
    (h : ms ∈ readings i b passes) : ms ∈ allReadings b passes := by
  induction passes generalizing b with
  | nil => cases h
  | cons pass rest ih =>
    simp only [readings, List.mem_append] at h
    rw [allReadings, clockReadings, List.mem_append, List.mem_append]
    rcases h with (forwarded | again) | later
    · exact .inl (.inl (mem_forwardReadings b pass i ms forwarded))
    · left
      right
      unfold timerReadings at again
      split at again
      · cases again
      · obtain ⟨-, -, rfl⟩ := List.mem_map.mp again
        exact List.mem_singleton_self _
    · exact .inr (ih _ later)

/-- With a clock that never steps back there is no early retransmission. -/
theorem on_time_of_steady (junk : Buffer) (history : List Pass)
    (steady : (allReadings (BrokerState.initial junk) history).Pairwise (· ≤ ·)) :
    OnTime junk history := by
  intro before pass after i split fires
  have never : ∀ last, previousReading junk before pass i = some last → ¬ Behind pass.now last := by
    intro last previous behind
    rw [split, allReadings_append, allReadings, ← List.append_assoc] at steady
    have upToNow := (List.pairwise_append.mp steady).1
    rw [clockReadings, ← List.append_assoc] at upToNow
    have earlier := (List.pairwise_append.mp upToNow).2.2
    have taken : last ∈ allReadings (BrokerState.initial junk) before ++
        (List.range (runFrom broker (BrokerState.initial junk) before).subs.length).flatMap
          (forwardReadings (runFrom broker (BrokerState.initial junk) before) pass) := by
      rcases List.mem_append.mp (List.mem_of_getLast? previous) with old | forwarded
      · exact List.mem_append_left _ (mem_readings i _ before last old)
      · exact List.mem_append_right _ (mem_forwardReadings _ pass i last forwarded)
    have order := UInt64.le_iff_toNat_le.mp (earlier last taken pass.now List.mem_cons_self)
    exact absurd behind.1 (Nat.not_lt.mpr order)
  obtain ⟨s, hs, pending, -, due⟩ := (fires_iff _ pass i).mp fires
  have stored := previousReading_eq junk before pass i s hs pending
  exact ⟨s.lastSendMs, stored, due.resolve_right (never _ stored)⟩

end SportsPubSub.Quic.Clock
