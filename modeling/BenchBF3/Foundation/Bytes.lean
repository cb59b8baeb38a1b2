import Mathlib.Data.BitVec

/-! # Little-endian words in byte buffers

A buffer gives the byte at every offset. Words of 64 bits are loaded and stored
least significant byte first; a store changes eight bytes and no other. The
first bytes of a buffer, read as a list, are its contents up to a length. A record
is written field by field; programs that are interrupted between two assignments
are lists of these.
-/

namespace BenchBF3.Foundation

abbrev Buffer := Nat → BitVec 8

/-- A word of some bytes, the first byte least significant. -/
def loadWord (buffer : Buffer) (offset : Nat) : (count : Nat) → BitVec (8 * count)
  | 0 => 0
  | count + 1 => loadWord buffer (offset + 1) count ++ buffer offset

def load64 (buffer : Buffer) (offset : Nat) : BitVec 64 := loadWord buffer offset 8

/-- The byte of a word at an index, counted from the least significant one. -/
def byteOf (word : BitVec 64) (index : Nat) : BitVec 8 := word.extractLsb' (8 * index) 8

def store64 (buffer : Buffer) (offset : Nat) (word : BitVec 64) : Buffer := fun position =>
  if offset ≤ position ∧ position < offset + 8 then byteOf word (position - offset)
  else buffer position

theorem extractLsb'_loadWord (buffer : Buffer) {count index : Nat} (offset : Nat)
    (hindex : index < count) :
    (loadWord buffer offset count).extractLsb' (8 * index) 8 = buffer (offset + index) := by
  induction count generalizing offset index with
  | zero => omega
  | succ count ih =>
      rw [loadWord]
      cases index with
      | zero => exact BitVec.extractLsb'_append_eq_right
      | succ index =>
          calc (loadWord buffer (offset + 1) count ++ buffer offset).extractLsb' (8 * (index + 1)) 8
              = (loadWord buffer (offset + 1) count).extractLsb' (8 * index) 8 :=
                BitVec.extractLsb'_append_eq_of_le (by omega)
            _ = buffer (offset + 1 + index) := ih (offset + 1) (by omega)
            _ = buffer (offset + (index + 1)) := congrArg buffer (by omega)

theorem byteOf_load64 (buffer : Buffer) (offset : Nat) {index : Nat} (hindex : index < 8) :
    byteOf (load64 buffer offset) index = buffer (offset + index) :=
  extractLsb'_loadWord buffer offset hindex

/-- A word depends on its own bytes only. -/
theorem loadWord_congr {buffer other : Buffer} {offset place count : Nat}
    (hbytes : ∀ index < count, buffer (offset + index) = other (place + index)) :
    loadWord buffer offset count = loadWord other place count := by
  induction count generalizing offset place with
  | zero => rfl
  | succ count ih =>
      have hrest : loadWord buffer (offset + 1) count = loadWord other (place + 1) count := by
        apply ih
        intro index hindex
        rw [Nat.add_assoc, Nat.add_assoc, Nat.add_comm 1]
        exact hbytes (index + 1) (by omega)
      rw [loadWord, loadWord, hrest]
      exact congrArg _ (hbytes 0 (Nat.succ_pos count))

/-- A word is known from its bytes. -/
theorem eq_of_byteOf_eq {word other : BitVec 64}
    (hbytes : ∀ index < 8, byteOf word index = byteOf other index) : word = other := by
  apply BitVec.eq_of_getLsbD_eq
  intro bit hbit
  have hbyte := congrArg (BitVec.getLsbD · (bit % 8)) (hbytes (bit / 8) (by omega))
  simpa [byteOf, Nat.mod_lt, Nat.div_add_mod] using hbyte

theorem load64_store64 (buffer : Buffer) (offset : Nat) (word : BitVec 64) :
    load64 (store64 buffer offset word) offset = word := by
  apply eq_of_byteOf_eq
  intro index hindex
  rw [byteOf_load64 _ _ hindex, store64, if_pos ⟨Nat.le_add_right _ _, by omega⟩,
    Nat.add_sub_cancel_left]

theorem load64_store64_of_disjoint {buffer : Buffer} {offset place : Nat} {word : BitVec 64}
    (hdisjoint : offset + 8 ≤ place ∨ place + 8 ≤ offset) :
    load64 (store64 buffer place word) offset = load64 buffer offset := by
  apply loadWord_congr
  intro index hindex
  rw [store64, if_neg (by omega)]

/-- The first bytes of a buffer. -/
def readBytes (buffer : Buffer) (length : Nat) : List (BitVec 8) :=
  (List.range length).map buffer

@[simp] theorem length_readBytes (buffer : Buffer) (length : Nat) :
    (readBytes buffer length).length = length := by
  simp [readBytes]

theorem readBytes_succ (buffer : Buffer) (length : Nat) :
    readBytes buffer (length + 1) = readBytes buffer length ++ [buffer length] := by
  rw [readBytes, List.range_succ, List.map_append]
  rfl

theorem readBytes_update_of_le {buffer : Buffer} {length position : Nat} {byte : BitVec 8}
    (hposition : length ≤ position) :
    readBytes (Function.update buffer position byte) length = readBytes buffer length := by
  apply List.map_congr_left
  intro index hindex
  exact Function.update_of_ne (by have := List.mem_range.mp hindex; omega) _ _

theorem take_readBytes {buffer : Buffer} {count length : Nat} (hcount : count ≤ length) :
    (readBytes buffer length).take count = readBytes buffer count := by
  rw [readBytes, ← List.map_take, List.take_range, Nat.min_eq_left hcount]
  rfl

/-- The buffer with some bytes written from its start; what follows is kept. -/
def writeBytes (buffer : Buffer) (bytes : List (BitVec 8)) : Buffer := fun position =>
  bytes.getD position (buffer position)

theorem writeBytes_apply (buffer : Buffer) (bytes : List (BitVec 8)) (position : Nat) :
    writeBytes buffer bytes position = bytes[position]?.getD (buffer position) :=
  List.getD_eq_getElem?_getD

/-- The bytes written do not depend on what the buffer held. -/
theorem writeBytes_congr (buffer other : Buffer) {bytes : List (BitVec 8)} {position : Nat}
    (hposition : position < bytes.length) :
    writeBytes buffer bytes position = writeBytes other bytes position := by
  simp [writeBytes, hposition]

theorem readBytes_writeBytes (buffer : Buffer) (bytes : List (BitVec 8)) :
    readBytes (writeBytes buffer bytes) bytes.length = bytes := by
  apply List.ext_getElem
  · exact length_readBytes _ _
  · intro position _ hposition
    simp [readBytes, writeBytes, hposition]

theorem getElem?_readBytes {buffer : Buffer} {length position : Nat}
    (hposition : position < length) :
    (readBytes buffer length)[position]? = some (buffer position) := by
  simp [readBytes, hposition]

theorem readBytes_eq_iff {buffer other : Buffer} {length : Nat} :
    readBytes buffer length = readBytes other length ↔
      ∀ position < length, buffer position = other position := by
  simp [readBytes, List.map_inj_left]

theorem writeBytes_readBytes_apply (buffer source : Buffer) {length position : Nat}
    (hposition : position < length) :
    writeBytes buffer (readBytes source length) position = source position := by
  simp [writeBytes, readBytes, hposition]

/-! ## Records of fields -/

/-- The buffer with some bytes written from an offset on. -/
def writeAt (buffer : Buffer) (offset : Nat) (bytes : List (BitVec 8)) : Buffer := fun position =>
  if offset ≤ position then bytes.getD (position - offset) (buffer position) else buffer position

theorem writeAt_of_not_mem {buffer : Buffer} {offset position : Nat} {bytes : List (BitVec 8)}
    (houtside : ¬(offset ≤ position ∧ position < offset + bytes.length)) :
    writeAt buffer offset bytes position = buffer position := by
  by_cases hoffset : offset ≤ position
  · have hlength : bytes.length ≤ position - offset := by omega
    simp [writeAt, hoffset, hlength]
  · rw [writeAt, if_neg hoffset]

theorem writeAt_congr {buffer other : Buffer} {offset position : Nat} {bytes : List (BitVec 8)}
    (hinside : offset ≤ position ∧ position < offset + bytes.length) :
    writeAt buffer offset bytes position = writeAt other offset bytes position := by
  have hlength : position - offset < bytes.length := by omega
  simp [writeAt, hinside.1, hlength]

/-- A record written field by field: offsets with the bytes that go there. -/
def writeFields (buffer : Buffer) (fields : List (Nat × List (BitVec 8))) : Buffer :=
  fields.foldl (fun buffer field => writeAt buffer field.1 field.2) buffer

/-- Some field of the record covers the position. -/
def Covered (fields : List (Nat × List (BitVec 8))) (position : Nat) : Prop :=
  ∃ field ∈ fields, field.1 ≤ position ∧ position < field.1 + field.2.length

/-- Which positions are covered depends on the places of the fields only. -/
theorem covered_congr {fields other : List (Nat × List (BitVec 8))} {position : Nat}
    (hplaces : fields.map (fun field => (field.1, field.2.length)) =
      other.map (fun field => (field.1, field.2.length))) :
    Covered fields position ↔ Covered other position := by
  have hmap : ∀ fields : List (Nat × List (BitVec 8)), Covered fields position ↔
      ∃ place ∈ fields.map (fun field => (field.1, field.2.length)),
        place.1 ≤ position ∧ position < place.1 + place.2 := by
    intro fields
    constructor
    · rintro ⟨field, hfield, hcovers⟩
      exact ⟨_, List.mem_map_of_mem hfield, hcovers⟩
    · rintro ⟨place, hplace, hcovers⟩
      obtain ⟨field, hfield, rfl⟩ := List.mem_map.mp hplace
      exact ⟨field, hfield, hcovers⟩
  rw [hmap fields, hmap other, hplaces]

theorem writeFields_of_not_covered {fields : List (Nat × List (BitVec 8))} {buffer : Buffer}
    {position : Nat} (houtside : ¬Covered fields position) :
    writeFields buffer fields position = buffer position := by
  induction fields generalizing buffer with
  | nil => rfl
  | cons field fields ih =>
      have hrest : ¬Covered fields position := fun ⟨other, hother, hcovers⟩ =>
        houtside ⟨other, List.mem_cons_of_mem _ hother, hcovers⟩
      calc writeFields buffer (field :: fields) position
          = writeAt buffer field.1 field.2 position := ih hrest
        _ = buffer position :=
          writeAt_of_not_mem fun hcovers => houtside ⟨field, List.mem_cons_self, hcovers⟩

/-- Where a field is, what the buffer held before does not matter. -/
theorem writeFields_congr {fields : List (Nat × List (BitVec 8))} {buffer other : Buffer}
    {position : Nat} (hsame : buffer position = other position ∨ Covered fields position) :
    writeFields buffer fields position = writeFields other fields position := by
  induction fields generalizing buffer other with
  | nil =>
      obtain hsame | ⟨field, hfield, -⟩ := hsame
      · exact hsame
      · exact absurd hfield List.not_mem_nil
  | cons field fields ih =>
      apply ih
      by_cases hcovers : field.1 ≤ position ∧ position < field.1 + field.2.length
      · exact Or.inl (writeAt_congr hcovers)
      · obtain hsame | ⟨covering, hmember, hcovering⟩ := hsame
        · left
          change writeAt buffer _ _ _ = writeAt other _ _ _
          rw [writeAt_of_not_mem hcovers, writeAt_of_not_mem hcovers, hsame]
        · right
          obtain rfl | hmember := List.mem_cons.mp hmember
          · exact absurd hcovering hcovers
          · exact ⟨covering, hmember, hcovering⟩

/-! ## Single assignments -/

/-- An assignment to a buffer: bytes from an offset on, or an addition to one byte. -/
inductive Store
  | write (offset : Nat) (bytes : List (BitVec 8))
  | add (offset : Nat) (amount : BitVec 8)

namespace Store

def apply : Store → Buffer → Buffer
  | .write offset bytes, buffer => writeAt buffer offset bytes
  | .add offset amount, buffer => Function.update buffer offset (buffer offset + amount)

def Touches : Store → Nat → Prop
  | .write offset bytes, position => offset ≤ position ∧ position < offset + bytes.length
  | .add offset _, position => position = offset

theorem apply_of_not_touches {store : Store} {position : Nat} (huntouched : ¬store.Touches position)
    (buffer : Buffer) : store.apply buffer position = buffer position := by
  cases store with
  | write offset bytes => exact writeAt_of_not_mem huntouched
  | add offset amount => exact Function.update_of_ne huntouched _ _

end Store

/-- Some assignments, one after the other. -/
def applyStores (stores : List Store) (buffer : Buffer) : Buffer :=
  stores.foldl (fun buffer store => store.apply buffer) buffer

theorem applyStores_append (first rest : List Store) (buffer : Buffer) :
    applyStores (first ++ rest) buffer = applyStores rest (applyStores first buffer) :=
  List.foldl_append

/-- What no assignment touches is kept. -/
theorem applyStores_of_not_touched {stores : List Store} {position : Nat}
    (huntouched : ∀ store ∈ stores, ¬store.Touches position) (buffer : Buffer) :
    applyStores stores buffer position = buffer position := by
  induction stores generalizing buffer with
  | nil => rfl
  | cons store stores ih =>
      calc applyStores (store :: stores) buffer position
          = store.apply buffer position := ih (fun _ hmem => huntouched _ (.tail _ hmem)) _
        _ = buffer position := Store.apply_of_not_touches (huntouched _ List.mem_cons_self) buffer

/-- Writing the fields of a record is one assignment after the other. -/
theorem applyStores_map_write (fields : List (Nat × List (BitVec 8))) (buffer : Buffer) :
    applyStores (fields.map fun field => .write field.1 field.2) buffer =
      writeFields buffer fields := List.foldl_map

end BenchBF3.Foundation
