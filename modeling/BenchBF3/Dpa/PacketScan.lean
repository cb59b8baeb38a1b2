import BenchBF3.Dpa.MacSwap
import BenchBF3.Dpa.SendQueue
import BenchBF3.Foundation.Sentinel

/-! # Packets scanned for a magic number

The working-set and the random-access reflector walk over the words of each packet of 1024
bytes before they return it, and add up the words, or the table entries the words select.
Only a word equal to `MAGIC_NUMBER` ends the walk: the size of the packet is compared with
the expected one and is not used as a bound. The walk stays in the receive entry exactly
when one of the entry's words is the magic number. Table indices are reduced and always
stay in the table.
-/

namespace BenchBF3.Dpa

open Foundation

/-! ## The code -/

def magicNumber : BitVec 64 := 0xfffffffffffffffe

def targetPktSize : BitVec 32 := 1024

def logSqRingDepth : Nat := 12

/-- The words of the table: the whole send buffer. -/
def arraySize : BitVec 64 := ((1 : BitVec 64) <<< (logSqRingDepth + logWqDataEntryBsize)) / 8

/-- The parts of the device context that both programs use. Memory is flat, so that reads
outside of an entry have a meaning too. -/
structure ScanDevice where
  memory : Buffer
  totalDummy : BitVec 64
  sqTxBuff : Nat
  hostRxBuff : Nat
  dpaRxBuff : Nat
  sq : SendQueue Nat
  sqDb : BitVec 32

def hostRqAddrToDpaAddr (device : ScanDevice) (hostAddr : Nat) : Nat :=
  hostAddr - device.hostRxBuff + device.dpaRxBuff

/-- The running sum of a scan, and the table indices it was formed from. -/
structure Dummy where
  dummy : BitVec 64
  indices : List Nat

def Dummy.InTable (sum : Dummy) : Prop := ∀ index ∈ sum.indices, index < arraySize.toNat

/-- What differs between the four functions: where the packet is for the device, where in
it the scan starts, and the table that the words select from. -/
structure PacketScan where
  rqDataDpa : ScanDevice → Nat → Nat
  offset : Nat
  randomAccessData : ScanDevice → Option Nat

namespace PacketScan

/-- The address of a word of the scan. -/
def tmpPtr (scan : PacketScan) (device : ScanDevice) (rqData index : Nat) : Nat :=
  scan.rqDataDpa device rqData + scan.offset + 8 * index

def word (scan : PacketScan) (device : ScanDevice) (rqData index : Nat) : BitVec 64 :=
  load64 device.memory (scan.tmpPtr device rqData index)

def add (scan : PacketScan) (device : ScanDevice) (sum : Dummy) (tmp : BitVec 64) : Dummy :=
  match scan.randomAccessData device with
  | none => { sum with dummy := sum.dummy + tmp }
  | some table =>
      let index := (tmp % arraySize).toNat
      { dummy := sum.dummy + load64 device.memory (table + 8 * index)
        indices := index :: sum.indices }

/-- The loop, for some number of its rounds. -/
def loop (scan : PacketScan) (device : ScanDevice) (rqData count : Nat) : Scan Dummy :=
  Scan.run (fun index => scan.word device rqData index = magicNumber)
    (fun sum index => scan.add device sum (scan.word device rqData index)) ⟨0, []⟩ count

/-- The addresses of the packet words that the loop has read. -/
def reads (scan : PacketScan) (device : ScanDevice) (rqData count : Nat) : List Nat :=
  (List.range (scan.loop device rqData count).read).map (scan.tmpPtr device rqData)

/-- The end of all four functions: the packet is returned to its sender. -/
def reflect (scan : PacketScan) (device : ScanDevice) (rqData : Nat) (dataSz : BitVec 32) :
    ScanDevice :=
  let sqDataDpa := scan.rqDataDpa device rqData
  let (sqDb, sq) := (device.sq.prepareSendPacket rqData dataSz).finishSendPacket
  { device with
    memory := fun address =>
      if address < sqDataDpa then device.memory address
      else swapInPlace (fun offset => device.memory (sqDataDpa + offset)) (address - sqDataDpa)
    sq
    sqDb }

/-- A whole call; no result if the loop has not ended after the given rounds. -/
def run (scan : PacketScan) (device : ScanDevice) (rqData : Nat) (dataSz : BitVec 32)
    (count : Nat) : Option ScanDevice :=
  if dataSz = targetPktSize then
    let loop := scan.loop device rqData count
    if loop.ended then
      some (scan.reflect { device with totalDummy := device.totalDummy + loop.acc.dummy }
        rqData dataSz)
    else none
  else some (scan.reflect device rqData dataSz)

end PacketScan

/-- The functions of `dpa_refactor_workingset`. -/
def Workingset.processPacket : PacketScan where
  rqDataDpa := fun _ rqData => rqData
  offset := 0
  randomAccessData := fun _ => none

def Workingset.processPacketHost : PacketScan where
  rqDataDpa := hostRqAddrToDpaAddr
  offset := 0
  randomAccessData := fun _ => none

/-- The functions of `dpa_refactor_random_access`. -/
def RandomAccess.processPacket : PacketScan where
  rqDataDpa := fun _ rqData => rqData
  offset := 256
  randomAccessData := fun device => some device.sqTxBuff

def RandomAccess.processPacketHost : PacketScan where
  rqDataDpa := hostRqAddrToDpaAddr
  offset := 256
  randomAccessData := fun device => some device.dpaRxBuff

/-! ## The receive entry -/

namespace PacketScan

variable (scan : PacketScan) (device : ScanDevice) (rqData : Nat)

/-- The call ends after it has read only words of the receive entry. -/
def Bounded : Prop :=
  ∃ count, (scan.run device rqData targetPktSize count).isSome ∧
    ∀ address ∈ scan.reads device rqData count,
      scan.rqDataDpa device rqData ≤ address ∧
        address + 8 ≤ scan.rqDataDpa device rqData + 2 ^ logWqDataEntryBsize

/-- A word of the receive entry, from where the scan starts, is the magic number. -/
def HasMagic : Prop :=
  ∃ position, scan.offset ≤ 8 * position ∧ 8 * position + 8 ≤ 2 ^ logWqDataEntryBsize ∧
    load64 device.memory (scan.rqDataDpa device rqData + 8 * position) = magicNumber

/-- Every table index, after any number of rounds, is below the size of the table. -/
def IndicesBelow : Prop := ∀ count, (scan.loop device rqData count).acc.InTable

variable {scan device rqData}

theorem isSome_run (count : Nat) :
    (scan.run device rqData targetPktSize count).isSome =
      (scan.loop device rqData count).ended := by
  rw [run, if_pos rfl]
  dsimp only
  split
  next hended => exact hended.symm
  next hrunning => exact (Bool.eq_false_of_not_eq_true hrunning).symm

theorem exists_isSome_iff (limit : Nat) :
    (∃ count, (scan.run device rqData targetPktSize count).isSome ∧
        (scan.loop device rqData count).read ≤ limit) ↔
      ∃ index < limit, scan.word device rqData index = magicNumber := by
  simp only [isSome_run]
  exact Scan.exists_ended_iff _ limit

/-- The reads are in the entry exactly when there are no more than its words. -/
theorem reads_subset_iff {first limit : Nat} (hfirst : scan.offset = 8 * first)
    (hlimit : 8 * (first + limit) = 2 ^ logWqDataEntryBsize) (count : Nat) :
    (∀ address ∈ scan.reads device rqData count,
        scan.rqDataDpa device rqData ≤ address ∧
          address + 8 ≤ scan.rqDataDpa device rqData + 2 ^ logWqDataEntryBsize) ↔
      (scan.loop device rqData count).read ≤ limit := by
  simp only [reads, List.forall_mem_map, List.mem_range, tmpPtr, hfirst, ← hlimit]
  constructor
  · intro hall
    by_contra hmore
    -- One word too many is the one right after the entry.
    have hlast := hall limit (Nat.lt_of_not_le hmore)
    omega
  · intro hread index hindex
    omega

/-- The scan is bounded exactly by a magic number in the entry. -/
theorem bounded_iff_hasMagic {first limit : Nat} (hfirst : scan.offset = 8 * first)
    (hlimit : 8 * (first + limit) = 2 ^ logWqDataEntryBsize) :
    scan.Bounded device rqData ↔ scan.HasMagic device rqData := by
  simp only [Bounded, reads_subset_iff hfirst hlimit, exists_isSome_iff]
  constructor
  · rintro ⟨index, hindex, hmagic⟩
    refine ⟨first + index, by omega, by omega, ?_⟩
    rw [← hmagic, word, tmpPtr, hfirst, Nat.mul_add, Nat.add_assoc]
  · rintro ⟨position, hoffset, hend, hmagic⟩
    refine ⟨position - first, by omega, ?_⟩
    rw [← hmagic, word, tmpPtr, hfirst, Nat.add_assoc, ← Nat.mul_add,
      Nat.add_sub_cancel' (by omega)]

theorem inTable_add {sum : Dummy} (hsum : sum.InTable) (tmp : BitVec 64) :
    (scan.add device sum tmp).InTable := by
  unfold add
  split
  next => exact hsum
  next =>
    intro index hindex
    rcases List.mem_cons.mp hindex with rfl | hold
    · exact BitVec.lt_def.mp (BitVec.umod_lt _ (by decide))
    · exact hsum index hold

theorem indicesBelow : scan.IndicesBelow device rqData :=
  Scan.run_invariant (fun _ hindex => absurd hindex List.not_mem_nil)
    fun _ _ hsum => inTable_add hsum _

end PacketScan

/-- For every packet of the expected size and everything else in memory: each of the four
functions ends within the receive entry exactly when a word of the entry, from where the
scan starts, is the magic number. The table indices are always below the table's size. -/
theorem packetScan_bounded_iff (device : ScanDevice) (rqData : Nat) :
    (Workingset.processPacket.Bounded device rqData ↔
        Workingset.processPacket.HasMagic device rqData) ∧
      (Workingset.processPacketHost.Bounded device rqData ↔
        Workingset.processPacketHost.HasMagic device rqData) ∧
      (RandomAccess.processPacket.Bounded device rqData ↔
        RandomAccess.processPacket.HasMagic device rqData) ∧
      (RandomAccess.processPacketHost.Bounded device rqData ↔
        RandomAccess.processPacketHost.HasMagic device rqData) ∧
      RandomAccess.processPacket.IndicesBelow device rqData ∧
      RandomAccess.processPacketHost.IndicesBelow device rqData := by
  have hwhole : 8 * (0 + 256) = 2 ^ logWqDataEntryBsize := rfl
  have hrest : 8 * (32 + 224) = 2 ^ logWqDataEntryBsize := rfl
  exact ⟨PacketScan.bounded_iff_hasMagic rfl hwhole, PacketScan.bounded_iff_hasMagic rfl hwhole,
    PacketScan.bounded_iff_hasMagic rfl hrest, PacketScan.bounded_iff_hasMagic rfl hrest,
    PacketScan.indicesBelow, PacketScan.indicesBelow⟩

/-- A device with nothing in its memory. -/
def blankDevice : ScanDevice where
  memory := fun _ => 0
  totalDummy := 0
  sqTxBuff := 0
  hostRxBuff := 0
  dpaRxBuff := 0
  sq := ⟨initSq logSqRingDepth 0, fun _ => .blank⟩
  sqDb := 0

/-- On it a scan never ends. -/
theorem run_blankDevice (scan : PacketScan) (count : Nat) :
    scan.run blankDevice 0 targetPktSize count = none := by
  by_contra hsome
  have hscan := (scan.exists_isSome_iff _).mp
    ⟨count, Option.isSome_iff_ne_none.mpr hsome, Nat.le_refl _⟩
  obtain ⟨index, -, hmagic⟩ := hscan
  have hzero : scan.word blankDevice 0 index = 0 := by
    simp [PacketScan.word, blankDevice, load64, loadWord]
  rw [hzero] at hmagic
  exact absurd hmagic (by decide)

theorem not_bounded_blankDevice (scan : PacketScan) : ¬ scan.Bounded blankDevice 0 := by
  rintro ⟨count, hsome, -⟩
  rw [run_blankDevice] at hsome
  exact absurd hsome (by decide)

/-- A packet of zeros in front of zeros: none of the four functions ends in the entry. -/
theorem packetScan_not_bounded :
    ¬ Workingset.processPacket.Bounded blankDevice 0 ∧
      ¬ Workingset.processPacketHost.Bounded blankDevice 0 ∧
      ¬ RandomAccess.processPacket.Bounded blankDevice 0 ∧
      ¬ RandomAccess.processPacketHost.Bounded blankDevice 0 :=
  ⟨not_bounded_blankDevice _, not_bounded_blankDevice _, not_bounded_blankDevice _,
    not_bounded_blankDevice _⟩

end BenchBF3.Dpa
