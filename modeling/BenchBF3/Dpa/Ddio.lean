import BenchBF3.Dpa.SendRing

/-! # The send ring of the DDIO reflector

The host creates the send queue and tells the NIC how deep its ring is; the
device program has a depth of its own for the mask, the template and the send
buffers. The NIC fetches the entries of a queue in order, round the ring that
the host made. The reflector's host program does not pass the device's depth.
-/

namespace BenchBF3.Dpa

open Foundation

variable {Addr : Type}

/-- A send queue as the host creates it, with `log_wq_depth` of its attributes. -/
structure HostSq where
  logWqDepth : Nat

/-- What the constructor `SQ::SQ` passes on for the ring. -/
def HostSq.new (logDepth : Nat) : HostSq where
  logWqDepth := logDepth

/-- The entry that the NIC fetches for the packet of this number. -/
def HostSq.fetched (sq : HostSq) (n : Nat) : Nat := n % 2 ^ sq.logWqDepth

/-- The next packet goes to the entry that the NIC will fetch for it, and that
entry has the segments that `init_send_sq` wrote. -/
structure HostSq.Agrees (sq : HostSq) (sqNumber : BitVec 32) (state : SendRing Addr) : Prop where
  position : state.queue.dataPosition = 4 * sq.fetched state.packets.length + 2
  ctrl : state.queue.ring (4 * sq.fetched state.packets.length) =
    .ctrl (BitVec.ofNat 32 (sq.fetched state.packets.length)) sqNumber
  eth : state.queue.ring (4 * sq.fetched state.packets.length + 1) = .eth

section Runs

variable {logDepth logDtEntrySz : Nat} {sqNumber lkey : BitVec 32} {ring : Nat → SqeSeg Addr}
  {base : BitVec 64} {state : SendRing Addr}

/-- A host ring at least as deep as the device's: the two sides agree on the
packets that fall on the entries the device knows of. -/
theorem HostSq.agrees_iff {sq : HostSq} (hdepth : logDepth ≤ 30) (hle : logDepth ≤ sq.logWqDepth)
    (hreach : (sendRingSystem logDepth logDtEntrySz sqNumber lkey ring base).Reachable state) :
    sq.Agrees sqNumber state ↔ sq.fetched state.packets.length < 2 ^ logDepth := by
  have hcounted := sendRingSystem_counted hdepth hreach
  have hdisciplined := hcounted.disciplined hdepth
  have hposition := hcounted.queue.dataPosition hdepth
  -- The device takes the count modulo its own depth, the NIC modulo the host's.
  have hfetched := mod_pow_eq_iff hle state.packets.length
  constructor
  · intro hagrees
    have hsame := hagrees.position
    rw [hposition] at hsame
    exact hfetched.mp (by unfold HostSq.fetched at hsame; omega)
  · intro hlt
    refine ⟨?_, hdisciplined.ctrl _ hlt, hdisciplined.eth _ hlt⟩
    rw [hposition, hfetched.mpr hlt, HostSq.fetched]

/-- Runs of every length exist. -/
theorem exists_packets (logDepth logDtEntrySz : Nat) (sqNumber lkey : BitVec 32)
    (ring : Nat → SqeSeg Addr) (base : BitVec 64) (addr : Addr) (n : Nat) :
    ∃ state, (sendRingSystem logDepth logDtEntrySz sqNumber lkey ring base).Reachable state ∧
      state.packets.length = n := by
  induction n with
  | zero => exact ⟨_, .start rfl, rfl⟩
  | succ n ih =>
      obtain ⟨state, hreach, hlength⟩ := ih
      refine ⟨state.perform logDtEntrySz (.prepareSendPacket addr 64), hreach.step rfl, ?_⟩
      rw [SendRing.perform, List.length_append, hlength, List.length_singleton]

end Runs

namespace Ddio

/-- `LOG_SQ_RING_DEPTH` and `LOG_WQ_DATA_ENTRY_BSIZE` of the device program. -/
def logSqRingDepth : Nat := 10

def logWqDataEntryBsize : Nat := 10

/-- The queue that the host program creates. -/
def sq : HostSq := .new 13

/-- Runs of the device program's queue from `dpa_refactor_device_init` on. -/
def system (sqNumber lkey : BitVec 32) (ring : Nat → SqeSeg Addr) (base : BitVec 64) :
    System (SendRing Addr) (SendCall Addr) :=
  sendRingSystem logSqRingDepth logWqDataEntryBsize sqNumber lkey ring base

/-- At every point of every run, the reflector stores its next packet where the
NIC fetches it, with the template around it, exactly when the packet's number
falls on the first 1024 of the 8192 entries that the host made. -/
theorem sq_agrees_iff {sqNumber lkey : BitVec 32} {ring : Nat → SqeSeg Addr}
    {base : BitVec 64} {state : SendRing Addr}
    (hreach : (system sqNumber lkey ring base).Reachable state) :
    sq.Agrees sqNumber state ↔ state.packets.length % 2 ^ 13 < 2 ^ 10 :=
  HostSq.agrees_iff (by decide) (by decide) hreach

theorem sq_agrees_first :
    ∃ state : SendRing (BitVec 64), (system 7 9 (fun _ => .blank) 4096).Reachable state ∧
      state.packets.length = 1023 ∧ sq.Agrees 7 state := by
  obtain ⟨state, hreach, hlength⟩ := exists_packets logSqRingDepth logWqDataEntryBsize 7 9
    (fun _ => .blank) 4096 (4096 : BitVec 64) 1023
  exact ⟨state, hreach, hlength, (sq_agrees_iff hreach).mpr (by rw [hlength]; decide)⟩

/-- Packet number 1024 is stored in entry 0, and the NIC fetches entry 1024. -/
theorem sq_disagrees :
    ∃ state : SendRing (BitVec 64), (system 7 9 (fun _ => .blank) 4096).Reachable state ∧
      state.packets.length = 1024 ∧ state.queue.dataPosition = 2 ∧
      sq.fetched state.packets.length = 1024 ∧ state.queue.ring (4 * 1024) = .blank ∧
      ¬ sq.Agrees 7 state := by
  obtain ⟨state, hreach, hlength⟩ := exists_packets logSqRingDepth logWqDataEntryBsize 7 9
    (fun _ => .blank) 4096 (4096 : BitVec 64) 1024
  have hcounted := sendRingSystem_counted (by decide) hreach
  have hposition : state.queue.dataPosition = 2 := by
    rw [hcounted.queue.dataPosition (by decide), hlength]
    rfl
  have hfetched : sq.fetched state.packets.length = 1024 := by
    rw [hlength]
    rfl
  refine ⟨state, hreach, hlength, hposition, hfetched, ?_, ?_⟩
  · exact hcounted.kept (4 * 1024) (by decide)
  · intro hagrees
    have hsame := hagrees.position
    rw [hposition, hfetched] at hsame
    omega

end Ddio

end BenchBF3.Dpa
