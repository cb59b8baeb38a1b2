import Mathlib.Algebra.BigOperators.Group.List.Basic
import BenchBF3.Foundation.Bytes
import BenchBF3.Dpa.KvSetup

/-! # Aggregating key-value packets

A packet carries a number of elements and the elements; every element adds its
value to the counter that its key falls on. When the receive buffers are on the
host they are read through the thread's window, and so is a table on the host;
the window has one memory key at a time, so elements are then staged in an
array of the device. An access that is out of range, or through a window with
another key, has no result.
-/

namespace BenchBF3.Dpa.Kv

open Foundation

def logWqDataEntryBsize : Nat := 11

def entrySize : Nat := 65536

def maxElementNum : Nat := 1

structure KvElement where
  key : BitVec 64
  value : BitVec 64
  deriving DecidableEq, Repr

abbrev KvTable := Nat → BitVec 32

/-! ## Checked accesses -/

/-- A word of a receive entry of the device. -/
def loadEntry (entry : Buffer) (offset : Nat) : Option (BitVec 64) :=
  if offset + 8 ≤ 2 ^ logWqDataEntryBsize then some (load64 entry offset) else none

/-- A word of a receive entry of the host, through the window. -/
def loadHostEntry (ctx : DeviceContext) (entry : Buffer) (offset : Nat) : Option (BitVec 64) :=
  if ctx.window = ctx.rkey then loadEntry entry offset else none

/-- `elements[index]`, with `elements` at offset 64 of the entry. -/
def loadElement (load : Nat → Option (BitVec 64)) (index : Nat) : Option KvElement := do
  let key ← load (64 + 16 * index)
  let value ← load (64 + 16 * index + 8)
  some ⟨key, value⟩

/-- `kv_elements[key % entry_size] += (uint32_t)value`. -/
def addElement (ctx : DeviceContext) (element : KvElement) (table : KvTable) : Option KvTable :=
  let index := element.key.toNat % entrySize
  if (ctx.sqOnHost = true → ctx.window = ctx.kvElementsMkey) ∧ index < entrySize then
    some (Function.update table index (table index + element.value.setWidth 32))
  else none

def storeTmp (tmp : Nat → KvElement) (index : Nat) (element : KvElement) :
    Option (Nat → KvElement) :=
  if index < maxElementNum then some (Function.update tmp index element) else none

def loadTmp (tmp : Nat → KvElement) (index : Nat) : Option KvElement :=
  if index < maxElementNum then some (tmp index) else none

/-! ## The two functions -/

/-- A loop that adds elements to the table, from an index on. -/
def addLoop (ctx : DeviceContext) (element : Nat → Option KvElement) :
    (count index : Nat) → KvTable → Option KvTable
  | 0, _, table => some table
  | count + 1, index, table => do
      let loaded ← element index
      let table ← addElement ctx loaded table
      addLoop ctx element count (index + 1) table

/-- The loop that stages elements in `tmp_element`. -/
def stageLoop (element : Nat → Option KvElement) :
    (count index : Nat) → (Nat → KvElement) → Option (Nat → KvElement)
  | 0, _, tmp => some tmp
  | count + 1, index, tmp => do
      let loaded ← element index
      let tmp ← storeTmp tmp index loaded
      stageLoop element count (index + 1) tmp

def processPacket (ctx : DeviceContext) (entry : Buffer) (table : KvTable) : Option KvTable := do
  let elementNum ← loadEntry entry 56
  addLoop ctx (loadElement (loadEntry entry)) elementNum.toNat 0 table

/-- The array `tmp_element` is not initialised. -/
def processPacketHost (ctx : DeviceContext) (entry : Buffer) (stale : Nat → KvElement)
    (table : KvTable) : Option (DeviceContext × KvTable) := do
  let ctx := { ctx with window := ctx.rkey }
  let elementNum ← loadHostEntry ctx entry 56
  let element := loadElement (loadHostEntry ctx entry)
  if ctx.sqOnHost then
    let tmp ← stageLoop element elementNum.toNat 0 stale
    let ctx := { ctx with window := ctx.kvElementsMkey }
    let table ← addLoop ctx (loadTmp tmp) elementNum.toNat 0 table
    some (ctx, table)
  else
    let table ← addLoop ctx element elementNum.toNat 0 table
    some (ctx, table)

/-- Packets one after another in one thread. -/
def processPackets (ctx : DeviceContext) (entries : List Buffer) (table : KvTable) :
    Option KvTable :=
  entries.foldlM (fun table entry => processPacket ctx entry table) table

/-! ## What a packet contains -/

def elementNum (entry : Buffer) : Nat := (load64 entry 56).toNat

def elementAt (entry : Buffer) (index : Nat) : KvElement :=
  ⟨load64 entry (64 + 16 * index), load64 entry (64 + 16 * index + 8)⟩

def elements (entry : Buffer) : List KvElement :=
  (List.range (elementNum entry)).map (elementAt entry)

/-- All elements lie inside the receive entry. -/
def Fits (entry : Buffer) : Prop := 64 + 16 * elementNum entry ≤ 2 ^ logWqDataEntryBsize

instance (entry : Buffer) : Decidable (Fits entry) :=
  inferInstanceAs (Decidable (64 + 16 * elementNum entry ≤ 2 ^ logWqDataEntryBsize))

/-- The table after one element. -/
def add (table : KvTable) (element : KvElement) : KvTable :=
  Function.update table (element.key.toNat % entrySize)
    (table (element.key.toNat % entrySize) + element.value.setWidth 32)

/-- The sum of the values of the elements that fall on a counter. -/
def total (elements : List KvElement) (bucket : Nat) : Nat :=
  ((elements.filter fun element => element.key.toNat % entrySize = bucket).map
    fun element => element.value.toNat).sum

/-- A table on the host is behind the thread's window. -/
def Ready (ctx : DeviceContext) : Prop := ctx.sqOnHost = true → ctx.window = ctx.kvElementsMkey

/-- The event handler comes to its loop with the window on the table. -/
theorem ready_of_begin {windowPtr : WindowPtr} {globalEntryPtr : BitVec 64}
    {ctx next : DeviceContext}
    (hbegin : ctx.eventHandlerBegin windowPtr globalEntryPtr = some next) : Ready next := by
  unfold DeviceContext.eventHandlerBegin at hbegin
  split at hbegin
  next =>
    rw [← Option.some.inj hbegin]
    intro honHost
    unfold DeviceContext.setKvElements at honHost ⊢
    split
    next => rfl
    next hnot =>
      rw [if_neg hnot] at honHost
      exact (hnot honHost).elim
  next => cases hbegin

/-! ## The loops -/

section Loops

variable {ctx : DeviceContext} {element : Nat → Option KvElement} {loaded : Nat → KvElement}

theorem addElement_eq (hready : Ready ctx) (element : KvElement) (table : KvTable) :
    addElement ctx element table = some (add table element) :=
  if_pos ⟨hready, Nat.mod_lt _ (by decide)⟩

/-- As long as the elements can be loaded, the loop adds them one after another. -/
theorem addLoop_eq (hready : Ready ctx) {count index : Nat}
    (helement : ∀ i, i < index + count → element i = some (loaded i)) (table : KvTable) :
    addLoop ctx element count index table =
      some (((List.range' index count).map loaded).foldl add table) := by
  induction count generalizing index table with
  | zero => rfl
  | succ count ih =>
      rw [addLoop, helement index (by omega)]
      simp only [Option.bind_eq_bind, Option.bind_some, addElement_eq hready]
      rw [ih (fun i hi => helement i (by omega)), List.range'_succ, List.map_cons, List.foldl_cons]

theorem stageLoop_eq {count index : Nat}
    (helement : ∀ i, i < index + count → element i = some (loaded i))
    (hle : index + count ≤ maxElementNum) (tmp : Nat → KvElement) :
    ∃ staged, stageLoop element count index tmp = some staged ∧
      (∀ i, i < index → staged i = tmp i) ∧
      ∀ i, index ≤ i → i < index + count → staged i = loaded i := by
  induction count generalizing index tmp with
  | zero => exact ⟨tmp, rfl, fun _ _ => rfl, fun i hge hlt => by omega⟩
  | succ count ih =>
      have hstore : storeTmp tmp index (loaded index) =
          some (Function.update tmp index (loaded index)) := if_pos (by omega)
      obtain ⟨staged, hstaged, hbefore, hafter⟩ := @ih (index + 1)
        (fun i hi => helement i (by omega)) (by omega) (Function.update tmp index (loaded index))
      refine ⟨staged, ?_, ?_, ?_⟩
      · rw [stageLoop, helement index (by omega)]
        simp only [Option.bind_eq_bind, Option.bind_some, hstore, hstaged]
      · intro i hi
        rw [hbefore i (by omega), Function.update_of_ne hi.ne]
      · intro i hge hlt
        by_cases heq : i = index
        · rw [heq, hbefore index (by omega), Function.update_self]
        · exact hafter i (by omega) (by omega)

/-- One element too many for the array. -/
theorem stageLoop_eq_none {count index : Nat} (hindex : index ≤ maxElementNum)
    (hlt : maxElementNum < index + count) (tmp : Nat → KvElement) :
    stageLoop element count index tmp = none := by
  induction count generalizing index tmp with
  | zero => omega
  | succ count ih =>
      rw [stageLoop]
      cases element index with
      | none => rfl
      | some first =>
          simp only [Option.bind_eq_bind, Option.bind_some, storeTmp]
          -- The array ends here, or at one of the next elements.
          by_cases hroom : index < maxElementNum
          · rw [if_pos hroom, Option.bind_some]
            exact ih (by omega) (by omega) _
          · rw [if_neg hroom, Option.bind_none]

end Loops

/-! ## The law -/

theorem total_cons (element : KvElement) (rest : List KvElement) (bucket : Nat) :
    total (element :: rest) bucket =
      (if element.key.toNat % entrySize = bucket then element.value.toNat else 0) +
        total rest bucket := by
  by_cases heq : element.key.toNat % entrySize = bucket
  · simp [total, heq]
  · simp [total, heq]

/-- A counter after some elements. -/
theorem foldl_add_toNat (elements : List KvElement) (table : KvTable) (bucket : Nat) :
    (elements.foldl add table bucket).toNat =
      ((table bucket).toNat + total elements bucket) % 2 ^ 32 := by
  induction elements generalizing table with
  | nil => exact (Nat.mod_eq_of_lt (table bucket).isLt).symm
  | cons element rest ih =>
      rw [List.foldl_cons, ih, total_cons, add]
      by_cases heq : element.key.toNat % entrySize = bucket
      · subst bucket
        -- Cutting the value to 32 bits keeps the sum modulo 2 ^ 32.
        rw [Function.update_self, if_pos rfl, BitVec.toNat_add, BitVec.toNat_setWidth]
        omega
      · rw [Function.update_of_ne (Ne.symm heq), if_neg heq, Nat.zero_add]

theorem total_perm {elements elements' : List KvElement} (hperm : elements.Perm elements')
    (bucket : Nat) : total elements bucket = total elements' bucket :=
  ((hperm.filter _).map _).sum_eq

theorem foldl_add_perm {elements elements' : List KvElement} (hperm : elements.Perm elements')
    (table : KvTable) : elements.foldl add table = elements'.foldl add table := by
  funext bucket
  apply BitVec.eq_of_toNat_eq
  rw [foldl_add_toNat, foldl_add_toNat, total_perm hperm]

section Packets

variable {ctx : DeviceContext} {entry : Buffer}

theorem loadEntry_elementNum (entry : Buffer) : loadEntry entry 56 = some (load64 entry 56) :=
  if_pos (by decide)

theorem Fits.loadElement (hfits : Fits entry) {index : Nat} (hindex : index < elementNum entry) :
    Kv.loadElement (loadEntry entry) index = some (elementAt entry index) := by
  unfold Fits at hfits
  rw [Kv.loadElement, loadEntry, if_pos (by omega), loadEntry, if_pos (by omega)]
  rfl

/-- The loop over all elements of a packet, wherever they are loaded from. -/
theorem addLoop_elements (hready : Ready ctx) {element : Nat → Option KvElement}
    (helement : ∀ i, i < elementNum entry → element i = some (elementAt entry i))
    (table : KvTable) :
    addLoop ctx element (elementNum entry) 0 table = some ((elements entry).foldl add table) := by
  rw [addLoop_eq hready (fun i hi => helement i (by omega)), elements, List.range_eq_range']

/-- A packet whose elements lie inside its entry is aggregated. -/
theorem processPacket_eq (hready : Ready ctx) (hfits : Fits entry) (table : KvTable) :
    processPacket ctx entry table = some ((elements entry).foldl add table) := by
  rw [processPacket, loadEntry_elementNum, Option.bind_eq_bind, Option.bind_some]
  exact addLoop_elements hready (fun i hi => hfits.loadElement hi) table

theorem processPackets_eq (hready : Ready ctx) {entries : List Buffer}
    (hfits : ∀ entry ∈ entries, Fits entry) (table : KvTable) :
    processPackets ctx entries table = some ((entries.flatMap elements).foldl add table) := by
  induction entries generalizing table with
  | nil => rfl
  | cons entry rest ih =>
      rw [List.forall_mem_cons] at hfits
      rw [processPackets, List.foldlM_cons, processPacket_eq hready hfits.1, List.flatMap_cons,
        List.foldl_append]
      exact ih hfits.2 _

end Packets

/-- A thread in its loop, any table and any packets whose elements lie inside
their entries: all packets are handled, every counter has grown by the values of
the elements that fall on it, modulo 2 ^ 32, and any packets with the same
elements, in whatever order and grouping, give the same table. -/
theorem aggregation_law {windowPtr : WindowPtr} {globalEntryPtr : BitVec 64}
    {ctx next : DeviceContext}
    (hbegin : ctx.eventHandlerBegin windowPtr globalEntryPtr = some next)
    {entries : List Buffer} (hfits : ∀ entry ∈ entries, Fits entry) (table : KvTable) :
    ∃ final, processPackets next entries table = some final ∧
      (∀ bucket < entrySize, (final bucket).toNat =
        ((table bucket).toNat + total (entries.flatMap elements) bucket) % 2 ^ 32) ∧
      ∀ entries', (∀ entry ∈ entries', Fits entry) →
        (entries'.flatMap elements).Perm (entries.flatMap elements) →
        processPackets next entries' table = some final := by
  have hready := ready_of_begin hbegin
  refine ⟨_, processPackets_eq hready hfits table, ?_, ?_⟩
  · intro bucket _
    exact foldl_add_toNat _ table bucket
  · intro entries' hfits' hperm
    rw [processPackets_eq hready hfits', foldl_add_perm hperm]

/-- A packet with some number of elements; the first has key 5 and value 7, the
others key 0 and value 0. -/
def packetOf (count : BitVec 8) : Buffer := fun position =>
  if position = 56 then count else if position = 64 then 5 else if position = 72 then 7 else 0

/-- A thread after its init RPC, with everything on the device. -/
def initializedThread : DeviceContext := { isInitialized := true }

theorem initializedThread_begin :
    initializedThread.eventHandlerBegin (fun _ _ address => address) 4096 =
      some { isInitialized := true, kvElements := 4096 } := rfl

/-- A packet of one element and one of two: counter 5 is at 14. -/
theorem aggregation_law_two :
    ∃ final, processPackets { isInitialized := true, kvElements := 4096 }
        [packetOf 1, packetOf 2] (fun _ => 0) = some final ∧ (final 5).toNat = 14 := by
  have hfits : ∀ entry ∈ [packetOf 1, packetOf 2], Fits entry := by
    simp only [List.forall_mem_cons]
    exact ⟨by decide, by decide, nofun⟩
  obtain ⟨final, hfinal, hlaw, -⟩ := aggregation_law initializedThread_begin hfits fun _ => 0
  refine ⟨final, hfinal, ?_⟩
  rw [hlaw 5 (by decide)]
  decide

/-! ## The three paths -/

/-- The packet is aggregated alike from a receive entry of the device, and from
one of the host with the table on the device or on the host. -/
def PathsAgree (ctx : DeviceContext) (entry : Buffer) (stale : Nat → KvElement)
    (table : KvTable) : Prop :=
  ∃ final, processPacket ctx entry table = some final ∧
    ((processPacketHost { ctx with sqOnHost := false } entry stale table).map Prod.snd =
      some final) ∧
    (processPacketHost { ctx with sqOnHost := true } entry stale table).map Prod.snd = some final

section Paths

variable {ctx : DeviceContext} {entry : Buffer} (stale : Nat → KvElement) (table : KvTable)

theorem loadHostEntry_eq (hwindow : ctx.window = ctx.rkey) :
    loadHostEntry ctx entry = loadEntry entry := by
  funext offset
  exact if_pos hwindow

/-- The table on the device: elements are added as they are read. -/
theorem processPacketHost_device (hfits : Fits entry) :
    processPacketHost { ctx with sqOnHost := false } entry stale table =
      some ({ ctx with sqOnHost := false, window := ctx.rkey },
        (elements entry).foldl add table) := by
  have hloop := @addLoop_elements { ctx with sqOnHost := false, window := ctx.rkey } entry nofun _
    (fun i hi => hfits.loadElement hi) table
  rw [elementNum] at hloop
  rw [processPacketHost, loadHostEntry_eq rfl, loadEntry_elementNum]
  simp only [Option.bind_eq_bind, Option.bind_some, Bool.false_eq_true, if_false, hloop]

/-- The table on the host: the elements are staged, the window is turned to the
table, and the staged elements are added. -/
theorem processPacketHost_host (hfits : Fits entry) (hle : elementNum entry ≤ maxElementNum) :
    processPacketHost { ctx with sqOnHost := true } entry stale table =
      some ({ ctx with sqOnHost := true, window := ctx.kvElementsMkey },
        (elements entry).foldl add table) := by
  obtain ⟨staged, hstaged, -, hloaded⟩ := @stageLoop_eq _ (elementAt entry) (elementNum entry) 0
    (fun i hi => hfits.loadElement (by omega)) (by omega) stale
  have hloop := @addLoop_elements { ctx with sqOnHost := true, window := ctx.kvElementsMkey }
    entry (fun _ => rfl) (loadTmp staged) (fun i hi => by
      rw [loadTmp, if_pos (by omega), hloaded i (Nat.zero_le i) (by omega)]) table
  rw [elementNum] at hstaged hloop
  rw [processPacketHost, loadHostEntry_eq rfl, loadEntry_elementNum]
  simp only [Option.bind_eq_bind, Option.bind_some, if_true, hstaged, hloop]

theorem processPacketHost_overflow (hlt : maxElementNum < elementNum entry) :
    processPacketHost { ctx with sqOnHost := true } entry stale table = none := by
  rw [processPacketHost, loadHostEntry_eq rfl, loadEntry_elementNum]
  rw [elementNum] at hlt
  simp only [Option.bind_eq_bind, Option.bind_some, if_true,
    stageLoop_eq_none (Nat.zero_le _) (show maxElementNum < 0 + _ by rwa [Nat.zero_add]),
    Option.bind_none]

/-- A thread in its loop, any table and any packet whose elements lie inside the
receive entry: the three paths agree, with every access in range, exactly when
the packet has no more elements than the staging array. -/
theorem paths_agree_iff {windowPtr : WindowPtr} {globalEntryPtr : BitVec 64}
    {next : DeviceContext}
    (hbegin : ctx.eventHandlerBegin windowPtr globalEntryPtr = some next) (hfits : Fits entry) :
    PathsAgree next entry stale table ↔ elementNum entry ≤ maxElementNum := by
  constructor
  · rintro ⟨final, -, -, hhost⟩
    by_contra hnot
    rw [processPacketHost_overflow stale table (Nat.lt_of_not_le hnot)] at hhost
    cases hhost
  · intro hle
    refine ⟨_, processPacket_eq (ready_of_begin hbegin) hfits table, ?_, ?_⟩
    · rw [processPacketHost_device stale table hfits]
      rfl
    · rw [processPacketHost_host stale table hfits hle]
      rfl

end Paths

/-- The packet that the benchmark sends has one element. -/
theorem paths_agree_one :
    elementNum (packetOf 1) = 1 ∧
      PathsAgree { isInitialized := true, kvElements := 4096 } (packetOf 1) (fun _ => ⟨0, 0⟩)
        fun _ => 0 :=
  ⟨by decide, (paths_agree_iff _ _ initializedThread_begin (by decide)).mpr (by decide)⟩

/-- Two elements fit the receive entry, and the second is written past the end of
the staging array. -/
theorem paths_disagree_two :
    Fits (packetOf 2) ∧
      processPacketHost { isInitialized := true, kvElements := 4096, sqOnHost := true }
        (packetOf 2) (fun _ => ⟨0, 0⟩) (fun _ => 0) = none ∧
      ¬ PathsAgree { isInitialized := true, kvElements := 4096 } (packetOf 2) (fun _ => ⟨0, 0⟩)
        fun _ => 0 := by
  have hnone : processPacketHost { isInitialized := true, kvElements := 4096, sqOnHost := true }
      (packetOf 2) (fun _ => ⟨0, 0⟩) (fun _ => 0) = none :=
    @processPacketHost_overflow { isInitialized := true, kvElements := 4096 } _ _ _ (by decide)
  refine ⟨by decide, hnone, ?_⟩
  rintro ⟨final, -, -, hhost⟩
  rw [hnone] at hhost
  cases hhost

end BenchBF3.Dpa.Kv
