import Mathlib.Data.BitVec
import Mathlib.Data.List.Chain
import BenchBF3.Receive.MergeResult

/-! # Unwrapping the departure times

The packets carry their departure times in 18 bits. `l2fwd_main_loop` adds a wrap when
such a time is smaller than the one before and below 100000. That is right as long as
packets leave at most 100000 apart: a later packet of the next period is then below the
threshold. Beyond that gap a wrap can be missed.
-/

namespace BenchBF3.Receive

/-- A received packet with the queue it came from and the fields that are read. -/
structure RxPacket where
  queueid : Nat
  pktLen : BitVec 32
  inDepth : BitVec 32
  inTimestamp : BitVec 32
  outDepth : BitVec 32
  outTimestamp : BitVec 32
  seqNum : BitVec 32
  deriving DecidableEq, Repr

/-- The local variables of `l2fwd_main_loop`, and the arrays and counters of the queues. -/
structure CoreState where
  outTimestampLast : BitVec 32
  outTimestampAcc : BitVec 64
  lastSeqNum : BitVec 32
  totalInqueue : Nat → List TimestampsAccNumber
  totalDequeue : Nat → List TimestampsAccNumber
  rx : Nat → BitVec 64
  txDropped : Nat → BitVec 64

def CoreState.init : CoreState where
  outTimestampLast := 0
  outTimestampAcc := 0
  lastSeqNum := 0
  totalInqueue := fun _ => []
  totalDequeue := fun _ => []
  rx := fun _ => 0
  txDropped := fun _ => 0

def targetLength : BitVec 32 := 1082

/-- A packet of the length, whose number does not go back once it is large. -/
def CoreState.Passes (state : CoreState) (packet : RxPacket) : Prop :=
  packet.pktLen = targetLength ∧
    ¬ (packet.seqNum < state.lastSeqNum ∧ packet.seqNum > 10000000)

instance CoreState.decidablePasses (state : CoreState) (packet : RxPacket) :
    Decidable (state.Passes packet) :=
  inferInstanceAs (Decidable (_ ∧ _))

/-- The accumulated wraps after a departure time of 18 bits. -/
def CoreState.accumulate (state : CoreState) (outTimestamp : BitVec 32) : BitVec 64 :=
  if outTimestamp < state.outTimestampLast ∧ outTimestamp < 100000 then
    state.outTimestampAcc + 1 <<< 18
  else state.outTimestampAcc

/-- What is done with a packet that passes. -/
def CoreState.record (state : CoreState) (packet : RxPacket) : CoreState :=
  let acc := state.accumulate packet.outTimestamp
  let outTime := acc + packet.outTimestamp.setWidth 64
  { state with
    lastSeqNum := packet.seqNum
    outTimestampAcc := acc
    outTimestampLast := packet.outTimestamp
    totalInqueue :=
      if packet.outDepth > 19 then
        Function.update state.totalInqueue packet.queueid
          (state.totalInqueue packet.queueid ++
            [⟨outTime - packet.inTimestamp.setWidth 64, packet.inDepth⟩])
      else state.totalInqueue
    totalDequeue :=
      if packet.outDepth > 19 then
        Function.update state.totalDequeue packet.queueid
          (state.totalDequeue packet.queueid ++ [⟨outTime, packet.outDepth⟩])
      else state.totalDequeue }

/-- One packet of a burst. -/
def CoreState.receive (state : CoreState) (packet : RxPacket) : CoreState :=
  if packet.pktLen = targetLength then
    let state := { state with
      rx := Function.update state.rx packet.queueid (state.rx packet.queueid + 1) }
    if packet.seqNum < state.lastSeqNum ∧ packet.seqNum > 10000000 then state
    else state.record packet
  else
    { state with
      txDropped := Function.update state.txDropped packet.queueid
        (state.txDropped packet.queueid + 1) }

/-- The packets of the bursts in the order in which the loop takes them. -/
def CoreState.mainLoop (state : CoreState) (packets : List RxPacket) : CoreState :=
  packets.foldl CoreState.receive state

/-- The packets that pass, each with the state after it. -/
def CoreState.passing : CoreState → List RxPacket → List (RxPacket × CoreState)
  | _, [] => []
  | state, packet :: packets =>
      if state.Passes packet then
        (packet, state.receive packet) :: (state.receive packet).passing packets
      else (state.receive packet).passing packets

/-- The unwrapped departure time of a packet that passed. -/
def outTime (entry : RxPacket × CoreState) : BitVec 64 :=
  entry.2.outTimestampAcc + entry.1.outTimestamp.setWidth 64

/-! ## One packet -/

/-- The loop is at a departure time: the time in 18 bits, and the wraps since a base. -/
structure CoreState.Tracks (base : Nat) (state : CoreState) (time : Nat) : Prop where
  last : state.outTimestampLast = BitVec.ofNat 32 (time % 2 ^ 18)
  acc : state.outTimestampAcc = BitVec.ofNat 64 (time / 2 ^ 18 * 2 ^ 18 - base)
  base_le : base ≤ time / 2 ^ 18 * 2 ^ 18

/-- The next time is in the same period, or within the threshold. -/
def Close (time next : Nat) : Prop :=
  time ≤ next ∧ (next / 2 ^ 18 = time / 2 ^ 18 ∨ next ≤ time + 100000)

section Track

variable {base time next : Nat} {state : CoreState} {packet : RxPacket}

/-- A packet that does not pass leaves the times and the arrays alone. -/
theorem receive_of_not_passes (hnot : ¬ state.Passes packet) :
    (state.receive packet).outTimestampLast = state.outTimestampLast ∧
      (state.receive packet).outTimestampAcc = state.outTimestampAcc ∧
      (state.receive packet).totalDequeue = state.totalDequeue := by
  unfold CoreState.receive
  split
  next hlength =>
    rw [if_pos (not_not.mp fun hseq => hnot ⟨hlength, hseq⟩)]
    exact ⟨rfl, rfl, rfl⟩
  next => exact ⟨rfl, rfl, rfl⟩

theorem receive_of_passes (hpasses : state.Passes packet) :
    (state.receive packet).outTimestampLast = packet.outTimestamp ∧
      (state.receive packet).outTimestampAcc = state.accumulate packet.outTimestamp := by
  rw [CoreState.receive, if_pos hpasses.1, if_neg hpasses.2]
  exact ⟨rfl, rfl⟩

/-- A wrap is added exactly when the period changes. -/
theorem CoreState.Tracks.accumulate (htracks : state.Tracks base time) (hclose : Close time next) :
    state.accumulate (BitVec.ofNat 32 (next % 2 ^ 18)) =
      BitVec.ofNat 64 (next / 2 ^ 18 * 2 ^ 18 - base) ∧
    base ≤ next / 2 ^ 18 * 2 ^ 18 := by
  obtain ⟨hle, hnext⟩ := hclose
  have hbase := htracks.base_le
  have hsmall : ∀ value, (BitVec.ofNat 32 (value % 2 ^ 18)).toNat = value % 2 ^ 18 := by
    intro value
    rw [BitVec.toNat_ofNat]
    omega
  have htest : (BitVec.ofNat 32 (next % 2 ^ 18) < state.outTimestampLast ∧
      BitVec.ofNat 32 (next % 2 ^ 18) < 100000) ↔
      next % 2 ^ 18 < time % 2 ^ 18 ∧ next % 2 ^ 18 < 100000 := by
    rw [htracks.last, BitVec.lt_def, BitVec.lt_def, hsmall, hsmall]
    rfl
  rw [CoreState.accumulate]
  by_cases hperiod : next / 2 ^ 18 = time / 2 ^ 18
  · rw [if_neg (by rw [htest]; omega), htracks.acc, hperiod]
    exact ⟨rfl, hbase⟩
  · -- One period further: the time has come round to below the threshold.
    have hlater : next / 2 ^ 18 = time / 2 ^ 18 + 1 := by omega
    rw [if_pos (by rw [htest]; omega), htracks.acc, hlater]
    have hwrap : (1 <<< 18 : BitVec 64) = BitVec.ofNat 64 (2 ^ 18) := by decide
    rw [hwrap, ← BitVec.ofNat_add, Nat.add_one_mul]
    exact ⟨congrArg _ (Nat.sub_add_comm hbase).symm, hbase.trans (Nat.le_add_right _ _)⟩

theorem CoreState.Tracks.receive (htracks : state.Tracks base time) (hclose : Close time next)
    (hpasses : state.Passes packet)
    (hout : packet.outTimestamp = BitVec.ofNat 32 (next % 2 ^ 18)) :
    (state.receive packet).Tracks base next := by
  obtain ⟨hlast, hacc⟩ := receive_of_passes hpasses
  obtain ⟨haccumulate, hbase⟩ := htracks.accumulate hclose
  rw [hout] at hlast hacc
  exact ⟨hlast, hacc.trans haccumulate, hbase⟩

theorem CoreState.Tracks.outTime (htracks : state.Tracks base time)
    (hout : packet.outTimestamp = BitVec.ofNat 32 (time % 2 ^ 18)) :
    outTime (packet, state) = BitVec.ofNat 64 (time - base) := by
  have hbase := htracks.base_le
  have hwidth : (BitVec.ofNat 32 (time % 2 ^ 18)).setWidth 64 =
      BitVec.ofNat 64 (time % 2 ^ 18) := by
    apply BitVec.eq_of_toNat_eq
    simp only [BitVec.toNat_setWidth, BitVec.toNat_ofNat]
    omega
  change state.outTimestampAcc + packet.outTimestamp.setWidth 64 = _
  rw [hout, htracks.acc, hwidth, ← BitVec.ofNat_add]
  exact congrArg _ (by omega)

end Track

/-! ## Streams -/

/-- The packets that pass carry these departure times, in 18 bits. -/
def Carries (packets : List RxPacket) (departures : List Nat) : Prop :=
  (CoreState.init.passing packets).map (fun entry => entry.1.outTimestamp) =
    departures.map fun time => BitVec.ofNat 32 (time % 2 ^ 18)

/-- Consecutive times are in order and at most a gap apart. -/
def WithGaps (gap : Nat) (departures : List Nat) : Prop :=
  departures.IsChain fun time next => time ≤ next ∧ next ≤ time + gap

/-- The start of the period of the first departure. -/
def periodStart : List Nat → Nat
  | [] => 0
  | first :: _ => first - first % 2 ^ 18

theorem passing_outTimes {base time : Nat} {state : CoreState} {packets : List RxPacket}
    {departures : List Nat} (htracks : state.Tracks base time)
    (hclose : (time :: departures).IsChain Close)
    (hcarries : (state.passing packets).map (fun entry => entry.1.outTimestamp) =
      departures.map fun time => BitVec.ofNat 32 (time % 2 ^ 18)) :
    (state.passing packets).map outTime =
      departures.map fun time => BitVec.ofNat 64 (time - base) := by
  induction packets generalizing state time departures with
  | nil =>
      rw [CoreState.passing, List.map_nil, eq_comm, List.map_eq_nil_iff] at hcarries
      rw [hcarries]
      rfl
  | cons packet packets ih =>
      rw [CoreState.passing] at hcarries ⊢
      by_cases hpasses : state.Passes packet
      · rw [if_pos hpasses, List.map_cons] at hcarries ⊢
        cases departures with
        | nil => exact absurd hcarries nofun
        | cons next departures =>
            rw [List.map_cons, List.cons.injEq] at hcarries
            rw [List.isChain_cons_cons] at hclose
            have hnext := htracks.receive hclose.1 hpasses hcarries.1
            rw [List.map_cons, hnext.outTime hcarries.1, ih hnext hclose.2 hcarries.2]
      · rw [if_neg hpasses] at hcarries ⊢
        obtain ⟨hlast, hacc, -⟩ := receive_of_not_passes hpasses
        exact ih ⟨hlast.trans htracks.last, hacc.trans htracks.acc, htracks.base_le⟩ hclose hcarries

/-- Within the gap, every packet that passes gets its time since the first period. -/
theorem outTimes_of_withGaps {packets : List RxPacket} {departures : List Nat}
    (hcarries : Carries packets departures) (hgaps : WithGaps 100000 departures) :
    (CoreState.init.passing packets).map outTime =
      departures.map fun time => BitVec.ofNat 64 (time - periodStart departures) := by
  cases departures with
  | nil =>
      rw [Carries, List.map_nil, List.map_eq_nil_iff] at hcarries
      rw [hcarries]
      rfl
  | cons first departures =>
      -- The loop starts as if a packet had left at the start of the first period.
      have hstart : CoreState.init.Tracks (first - first % 2 ^ 18) (first - first % 2 ^ 18) := by
        have hmod : (first - first % 2 ^ 18) % 2 ^ 18 = 0 := by omega
        have hdiv : (first - first % 2 ^ 18) / 2 ^ 18 * 2 ^ 18 = first - first % 2 ^ 18 := by
          omega
        refine ⟨?_, ?_, hdiv.ge⟩
        · rw [hmod]
          rfl
        · rw [hdiv, Nat.sub_self]
          rfl
      refine passing_outTimes hstart (List.isChain_cons_cons.mpr ⟨?_, ?_⟩) hcarries
      · exact ⟨Nat.sub_le _ _, .inl (by omega)⟩
      · exact hgaps.imp fun _ _ hnext => ⟨hnext.1, .inr hnext.2⟩

/-- A packet that passes and leaves at a time. -/
def departing (time : Nat) : RxPacket where
  queueid := 0
  pktLen := targetLength
  inDepth := 0
  inTimestamp := 0
  outDepth := 0
  outTimestamp := BitVec.ofNat 32 (time % 2 ^ 18)
  seqNum := 0

/-- A gap of 100001 can end exactly at the threshold, and the wrap is missed. -/
theorem missed_wrap :
    Carries [departing 262143, departing 362144] [262143, 362144] ∧
    (CoreState.init.passing [departing 262143, departing 362144]).map
      (fun entry => (outTime entry).toNat) = [262143, 100000] :=
  ⟨by unfold Carries; decide, by decide⟩

/-- The unwrapped times are right for every stream within a gap exactly when the gap is at
most the threshold. -/
theorem outTimes_unwrapped_iff (gap : Nat) :
    (∀ packets departures, Carries packets departures → WithGaps gap departures →
      (∀ time ∈ departures, time < 2 ^ 64) →
      (CoreState.init.passing packets).map (fun entry => (outTime entry).toNat) =
        departures.map fun time => time - periodStart departures) ↔
    gap ≤ 100000 := by
  constructor
  · intro hall
    by_contra hgap
    obtain ⟨hcarries, htimes⟩ := missed_wrap
    have hright := hall _ _ hcarries
      (List.isChain_pair.mpr ⟨by omega, by omega⟩) (by simp)
    rw [htimes] at hright
    exact absurd hright (by decide)
  · intro hgap packets departures hcarries hgaps hbound
    have hwithin : WithGaps 100000 departures :=
      hgaps.imp fun _ _ hnext => ⟨hnext.1, hnext.2.trans (by omega)⟩
    have htimes := congrArg (List.map BitVec.toNat) (outTimes_of_withGaps hcarries hwithin)
    rw [List.map_map, List.map_map] at htimes
    refine htimes.trans (List.map_congr_left fun time hmem => ?_)
    have hlt := hbound time hmem
    exact BitVec.toNat_ofNat _ _ |>.trans (Nat.mod_eq_of_lt (by omega))

/-! ## The arrays of the queues -/

/-- What the loop pushes for a queue. -/
def dequeued (queueid : Nat) (entry : RxPacket × CoreState) : Option TimestampsAccNumber :=
  if entry.1.queueid = queueid ∧ entry.1.outDepth > 19 then
    some ⟨outTime entry, entry.1.outDepth⟩
  else none

theorem timestamp_of_dequeued {queueid : Nat} {entry : RxPacket × CoreState}
    {value : TimestampsAccNumber} (hvalue : dequeued queueid entry = some value) :
    value.timestamp = outTime entry := by
  rw [dequeued, Option.ite_none_right_eq_some, Option.some.injEq] at hvalue
  rw [← hvalue.2]

section Arrays

variable {state : CoreState} {packet : RxPacket} (queueid : Nat)

theorem totalDequeue_of_passes (hpasses : state.Passes packet) :
    (state.receive packet).totalDequeue queueid =
      state.totalDequeue queueid ++ (dequeued queueid (packet, state.receive packet)).toList := by
  have houtTime : outTime (packet, state.receive packet) =
      state.accumulate packet.outTimestamp + packet.outTimestamp.setWidth 64 := by
    rw [outTime, (receive_of_passes hpasses).2]
  rw [dequeued, houtTime, CoreState.receive, if_pos hpasses.1, if_neg hpasses.2]
  change (if packet.outDepth > 19 then _ else state.totalDequeue) queueid = _
  by_cases hdepth : packet.outDepth > 19
  · rw [if_pos hdepth]
    by_cases hqueue : packet.queueid = queueid
    · subst hqueue
      rw [Function.update_self, if_pos ⟨rfl, hdepth⟩]
      rfl
    · rw [Function.update_of_ne (Ne.symm hqueue), if_neg fun hboth => hqueue hboth.1,
        Option.toList_none, List.append_nil]
  · rw [if_neg hdepth, if_neg fun hboth => hdepth hboth.2, Option.toList_none, List.append_nil]

end Arrays

/-- The array of a queue after a run: the unwrapped times of its packets that pass. -/
theorem mainLoop_totalDequeue (queueid : Nat) (state : CoreState) (packets : List RxPacket) :
    (state.mainLoop packets).totalDequeue queueid =
      state.totalDequeue queueid ++ (state.passing packets).filterMap (dequeued queueid) := by
  induction packets generalizing state with
  | nil => exact (List.append_nil _).symm
  | cons packet packets ih =>
      change ((state.receive packet).mainLoop packets).totalDequeue queueid = _
      rw [ih, CoreState.passing]
      by_cases hpasses : state.Passes packet
      · rw [if_pos hpasses, totalDequeue_of_passes queueid hpasses, List.append_assoc]
        congr 1
        rw [List.filterMap_cons]
        cases dequeued queueid (packet, state.receive packet) <;> rfl
      · rw [if_neg hpasses, (receive_of_not_passes hpasses).2.2]

/-- Within the gap the array of every queue is sorted, as the merge of the queues needs. -/
theorem mainLoop_totalDequeue_sorted {packets : List RxPacket} {departures : List Nat}
    (hcarries : Carries packets departures) (hgaps : WithGaps 100000 departures)
    (hbound : ∀ time ∈ departures, time < 2 ^ 64) (queueid : Nat) :
    ((CoreState.init.mainLoop packets).totalDequeue queueid).Pairwise TimestampsAccNumber.Le := by
  have hordered : departures.Pairwise (· ≤ ·) :=
    List.isChain_iff_pairwise.mp (hgaps.imp fun _ _ hnext => hnext.1)
  have htimes : ((CoreState.init.passing packets).map outTime).Pairwise (· ≤ ·) := by
    rw [outTimes_of_withGaps hcarries hgaps, List.pairwise_map]
    refine hordered.imp_of_mem fun {time next} htime hnext hle => ?_
    have hlt := hbound next hnext
    rw [BitVec.le_def, BitVec.toNat_ofNat, BitVec.toNat_ofNat, Nat.mod_eq_of_lt (by omega),
      Nat.mod_eq_of_lt (by omega)]
    omega
  rw [mainLoop_totalDequeue]
  change (List.filterMap _ _).Pairwise _
  refine (List.pairwise_map.mp htimes).filterMap _ ?_
  intro first second hle value hvalue next hnext
  rw [TimestampsAccNumber.Le, timestamp_of_dequeued hvalue, timestamp_of_dequeued hnext]
  exact hle

end BenchBF3.Receive
