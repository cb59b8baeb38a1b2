import Mathlib.Tactic.IntervalCases
import BenchBF3.Foundation.Bytes
import BenchBF3.Foundation.Loops

/-! # The overlapped MAC swap

`process_packet` exchanges the two MAC addresses of a frame with two loads and
two stores of eight bytes each, at offsets 0 and 6. The second store overwrites
the last two bytes of the first and sets the ethertype. On a frame that carries
ethertype 0x0800 the result is the frame with its addresses exchanged. The DDIO
reflector copies the header and exchanges the addresses byte by byte instead; the
two agree on the header exactly when the ethertype was 0x0800.
-/

namespace BenchBF3.Dpa

open Foundation

abbrev Frame := List (BitVec 8)

def logWqDataEntryBsize : Nat := 11

/-- A received frame: it fits a buffer and its ethertype is 0x0800. -/
structure Frame.Valid (frame : Frame) : Prop where
  header : 14 ≤ frame.length
  fits : frame.length ≤ 2 ^ logWqDataEntryBsize
  ethertype : frame[12]? = some 0x08 ∧ frame[13]? = some 0x00

/-- The frame with its two MAC addresses exchanged. -/
def Frame.swapMacs (frame : Frame) : Frame :=
  (frame.drop 6).take 6 ++ frame.take 6 ++ frame.drop 12

/-- The loads and stores of `process_packet` on the packet's buffer. -/
def swapInPlace (buffer : Buffer) : Buffer :=
  let srcMac := load64 buffer 0
  let dstMac := load64 buffer 6
  let buffer := store64 buffer 0 dstMac
  store64 buffer 6 ((srcMac &&& 0x0000FFFFFFFFFFFF) ||| (0x0008 <<< 48))

section Swap

variable (word : BitVec 64)

theorem byteOf_mac {index : Nat} (hindex : index < 6) :
    byteOf ((word &&& 0x0000FFFFFFFFFFFF) ||| (0x0008 <<< 48)) index = byteOf word index := by
  interval_cases index <;> ext bit hbit <;> interval_cases bit <;> simp [byteOf]

theorem byteOf_ethertype_high :
    byteOf ((word &&& 0x0000FFFFFFFFFFFF) ||| (0x0008 <<< 48)) 6 = 0x08 := by
  ext bit hbit
  interval_cases bit <;> simp [byteOf]

theorem byteOf_ethertype_low :
    byteOf ((word &&& 0x0000FFFFFFFFFFFF) ||| (0x0008 <<< 48)) 7 = 0x00 := by
  ext bit hbit
  interval_cases bit <;> simp [byteOf]

end Swap

/-- Byte by byte: the addresses change places, and the ethertype is set. -/
theorem swapInPlace_apply (buffer : Buffer) (position : Nat) :
    swapInPlace buffer position =
      if position < 6 then buffer (position + 6)
      else if position < 12 then buffer (position - 6)
      else if position = 12 then 0x08
      else if position = 13 then 0x00
      else buffer position := by
  -- The two stores overlap in the middle; the one made last decides.
  unfold swapInPlace store64
  by_cases hfirst : position < 6
  · rw [if_neg (by omega), if_pos (by omega), if_pos hfirst, Nat.sub_zero,
      byteOf_load64 _ _ (by omega), Nat.add_comm]
  · rw [if_neg hfirst]
    by_cases hsecond : position < 12
    · rw [if_pos (by omega), if_pos hsecond, byteOf_mac _ (by omega),
        byteOf_load64 _ _ (by omega), Nat.zero_add]
    · rw [if_neg hsecond]
      by_cases hhigh : position = 12
      · subst position
        exact byteOf_ethertype_high _
      · by_cases hlow : position = 13
        · subst position
          exact byteOf_ethertype_low _
        · rw [if_neg (by omega), if_neg (by omega), if_neg hhigh, if_neg hlow]

/-- A second swap restores everything but the ethertype. -/
theorem swapInPlace_swapInPlace_apply (buffer : Buffer) (position : Nat) :
    swapInPlace (swapInPlace buffer) position =
      if position = 12 then 0x08 else if position = 13 then 0x00 else buffer position := by
  simp only [swapInPlace_apply]
  grind

theorem Frame.getElem?_swapMacs {frame : Frame} (hheader : 14 ≤ frame.length)
    (position : Nat) :
    frame.swapMacs[position]? =
      if position < 6 then frame[position + 6]?
      else if position < 12 then frame[position - 6]?
      else frame[position]? := by
  have hsource : ((frame.drop 6).take 6).length = 6 := by
    simp only [List.length_take, List.length_drop]
    omega
  have hboth : ((frame.drop 6).take 6 ++ frame.take 6).length = 12 := by
    simp only [List.length_append, hsource, List.length_take]
    omega
  unfold Frame.swapMacs
  by_cases hfirst : position < 6
  · rw [if_pos hfirst, List.getElem?_append_left (by omega),
      List.getElem?_append_left (by omega), List.getElem?_take_of_lt hfirst, List.getElem?_drop,
      Nat.add_comm]
  · rw [if_neg hfirst]
    by_cases hsecond : position < 12
    · rw [if_pos hsecond, List.getElem?_append_left (by omega),
        List.getElem?_append_right (by omega), hsource, List.getElem?_take_of_lt (by omega)]
    · rw [if_neg hsecond, List.getElem?_append_right (by omega), hboth, List.getElem?_drop]
      congr 1
      omega

/-- On a buffer that holds a valid frame the swap is that of the frame. -/
theorem readBytes_swapInPlace {buffer : Buffer} {frame : Frame} (hvalid : frame.Valid)
    (hholds : readBytes buffer frame.length = frame) :
    readBytes (swapInPlace buffer) frame.length = frame.swapMacs := by
  have hheader := hvalid.header
  have hbyte : ∀ position, position < frame.length →
      frame[position]? = some (buffer position) := by
    intro position hposition
    conv_lhs => rw [← hholds]
    exact getElem?_readBytes hposition
  apply List.ext_getElem?
  intro position
  rw [Frame.getElem?_swapMacs hheader]
  by_cases hposition : position < frame.length
  · rw [getElem?_readBytes hposition, swapInPlace_apply]
    by_cases hfirst : position < 6
    · rw [if_pos hfirst, if_pos hfirst, hbyte _ (by omega)]
    by_cases hsecond : position < 12
    · rw [if_neg hfirst, if_neg hfirst, if_pos hsecond, if_pos hsecond, hbyte _ (by omega)]
    rw [if_neg hfirst, if_neg hfirst, if_neg hsecond, if_neg hsecond]
    -- The swap writes a constant here, the Ethernet type of a valid frame.
    by_cases hhigh : position = 12
    · subst position
      rw [if_pos rfl, hvalid.ethertype.1]
    by_cases hlow : position = 13
    · subst position
      rw [if_neg hhigh, if_pos rfl, hvalid.ethertype.2]
    rw [if_neg hhigh, if_neg hlow, hbyte _ hposition]
  · rw [if_neg (by omega), if_neg (by omega), List.getElem?_eq_none (by simpa using hposition),
      List.getElem?_eq_none (by simpa using hposition)]

/-! ## The byte loop of the DDIO reflector -/

/-- One iteration of the loop: two bytes, six apart, change places. -/
def swapByte (sqData : Buffer) (byte : Nat) : Buffer :=
  let tmp := sqData byte
  let sqData := Function.update sqData byte (sqData (byte + 6))
  Function.update sqData (byte + 6) tmp

def swapBytes (sqData : Buffer) : Buffer := (List.range 6).foldl swapByte sqData

/-- The send buffer of the DDIO event handler: the header copied, then swapped. -/
def reflectHeader (sqData rqData : Buffer) : Buffer :=
  swapBytes (writeBytes sqData (readBytes rqData 14))

/-- The ethertype bytes of a frame, as 0x0800 stands on the wire. -/
def HasIpv4Ethertype (buffer : Buffer) : Prop := buffer 12 = 0x08 ∧ buffer 13 = 0x00

instance (buffer : Buffer) : Decidable (HasIpv4Ethertype buffer) :=
  inferInstanceAs (Decidable (_ ∧ _))

/-- After `count` iterations the first `count` bytes of the addresses are exchanged. -/
theorem foldl_swapByte_apply (sqData : Buffer) {count : Nat} (hcount : count ≤ 6)
    (position : Nat) :
    (List.range count).foldl swapByte sqData position =
      if position < count then sqData (position + 6)
      else if 6 ≤ position ∧ position < 6 + count then sqData (position - 6)
      else sqData position := by
  induction count generalizing position with
  | zero =>
      rw [if_neg (by omega), if_neg (by omega)]
      rfl
  | succ count ih =>
      have hprevious := fun place => ih (by omega) place
      rw [foldl_range_succ]
      simp only [swapByte, Function.update_apply, hprevious]
      grind

theorem swapBytes_apply (sqData : Buffer) (position : Nat) :
    swapBytes sqData position =
      if position < 6 then sqData (position + 6)
      else if position < 12 then sqData (position - 6)
      else sqData position := by
  rw [swapBytes, foldl_swapByte_apply sqData le_rfl]
  grind

theorem reflectHeader_apply (sqData rqData : Buffer) {position : Nat}
    (hposition : position < 14) :
    reflectHeader sqData rqData position =
      if position < 6 then rqData (position + 6)
      else if position < 12 then rqData (position - 6)
      else rqData position := by
  have hcopied := fun place (hplace : place < 14) =>
    writeBytes_readBytes_apply sqData rqData hplace
  rw [reflectHeader, swapBytes_apply]
  grind

/-- Both swaps of a frame of at least a header: the overlapped one changes what it
should, and agrees with the byte loop, and undoes itself, on ethertype 0x0800 only. -/
theorem swapInPlace_spec (buffer sqData : Buffer) (length : Nat) (hheader : 14 ≤ length) :
    (∀ position < 6, swapInPlace buffer position = buffer (position + 6) ∧
      swapInPlace buffer (position + 6) = buffer position) ∧
    HasIpv4Ethertype (swapInPlace buffer) ∧
    (∀ position, 14 ≤ position → swapInPlace buffer position = buffer position) ∧
    (readBytes (swapInPlace buffer) 14 = readBytes (reflectHeader sqData buffer) 14 ↔
      HasIpv4Ethertype buffer) ∧
    (readBytes (swapInPlace (swapInPlace buffer)) length = readBytes buffer length ↔
      HasIpv4Ethertype buffer) := by
  refine ⟨?_, ⟨?_, ?_⟩, ?_, ?_, ?_⟩
  · intro position hposition
    constructor
    · rw [swapInPlace_apply, if_pos hposition]
    · rw [swapInPlace_apply, if_neg (by omega), if_pos (by omega), Nat.add_sub_cancel]
  · rw [swapInPlace_apply]
    rfl
  · rw [swapInPlace_apply]
    rfl
  · intro position hposition
    rw [swapInPlace_apply, if_neg (by omega), if_neg (by omega), if_neg (by omega),
      if_neg (by omega)]
  · rw [readBytes_eq_iff]
    constructor
    · intro hsame
      have hhigh := hsame 12 (by omega)
      have hlow := hsame 13 (by omega)
      rw [swapInPlace_apply, reflectHeader_apply _ _ (by omega)] at hhigh hlow
      exact ⟨hhigh.symm, hlow.symm⟩
    · rintro ⟨hhigh, hlow⟩ position hposition
      rw [swapInPlace_apply, reflectHeader_apply _ _ hposition]
      grind
  · rw [readBytes_eq_iff]
    constructor
    · intro hsame
      have hhigh := hsame 12 (by omega)
      have hlow := hsame 13 (by omega)
      rw [swapInPlace_swapInPlace_apply] at hhigh hlow
      exact ⟨hhigh.symm, hlow.symm⟩
    · rintro ⟨hhigh, hlow⟩ position hposition
      rw [swapInPlace_swapInPlace_apply]
      grind

/-- A header with ethertype 0x86dd. -/
def ipv6Header : Buffer := writeBytes 0 [1, 2, 3, 4, 5, 6, 7, 8, 9, 10, 11, 12, 0x86, 0xdd]

theorem swapInPlace_spec_ipv6 :
    readBytes (swapInPlace ipv6Header) 14 ≠ readBytes (reflectHeader 0 ipv6Header) 14 ∧
    readBytes (swapInPlace (swapInPlace ipv6Header)) 14 ≠ readBytes ipv6Header 14 := by
  have hother : ¬ HasIpv4Ethertype ipv6Header := by decide
  obtain ⟨-, -, -, hagrees, hrestores⟩ := swapInPlace_spec ipv6Header 0 14 (by decide)
  exact ⟨fun hsame => hother (hagrees.mp hsame), fun hsame => hother (hrestores.mp hsame)⟩

end BenchBF3.Dpa
