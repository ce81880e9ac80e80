import Mathlib.Algebra.Group.Nat.Defs
import Mathlib.Data.List.Basic

/-!
# Byte buffers

A buffer is a list of fixed length; `overwrite` is `memcpy` into it and
`slice` reads it.  A slice inside the written range returns what was written,
and a slice beside it is unchanged.
-/

namespace NetworkCode.Library.Bytes

universe u

variable {α : Type u}

/-- `count` entries from `offset` on. -/
def slice (buffer : List α) (offset count : Nat) : List α :=
  (buffer.drop offset).take count

/-- Copy `bytes` into the buffer at `offset`. -/
def overwrite (buffer : List α) (offset : Nat) (bytes : List α) : List α :=
  buffer.take offset ++ bytes ++ buffer.drop (offset + bytes.length)

theorem overwrite_length {buffer bytes : List α} {offset : Nat}
    (fits : offset + bytes.length ≤ buffer.length) :
    (overwrite buffer offset bytes).length = buffer.length := by
  simp [overwrite]
  omega

theorem drop_overwrite_same {buffer bytes : List α} {offset : Nat}
    (fits : offset ≤ buffer.length) :
    (overwrite buffer offset bytes).drop offset = bytes ++ buffer.drop (offset + bytes.length) := by
  have front : (buffer.take offset).length = offset := List.length_take_of_le fits
  rw [overwrite, List.append_assoc, List.drop_left' front]

theorem slice_overwrite_same {buffer bytes : List α} {offset : Nat}
    (fits : offset ≤ buffer.length) :
    slice (overwrite buffer offset bytes) offset bytes.length = bytes := by
  rw [slice, drop_overwrite_same fits, List.take_left]

theorem take_overwrite_zero (buffer bytes : List α) :
    (overwrite buffer 0 bytes).take bytes.length = bytes := by
  rw [overwrite, List.take_zero, List.nil_append, List.take_left]

theorem drop_overwrite_after {buffer bytes : List α} {offset start : Nat}
    (after : offset + bytes.length ≤ start) (fits : offset ≤ buffer.length) :
    (overwrite buffer offset bytes).drop start = buffer.drop start := by
  have front : (buffer.take offset ++ bytes).length = offset + bytes.length := by
    simp [fits]
  rw [overwrite, List.drop_append, List.drop_eq_nil_of_le (by omega), List.nil_append,
    List.drop_drop, front, Nat.add_sub_cancel' after]

/-- A slice inside a prefix is a slice of the whole. -/
theorem slice_take {buffer : List α} {size start count : Nat} (inside : start + count ≤ size) :
    slice (buffer.take size) start count = slice buffer start count := by
  rw [slice, slice, List.take_drop, List.take_drop, List.take_take, Nat.min_eq_left inside]

theorem slice_overwrite_zero {buffer bytes : List α} {start count : Nat}
    (inside : start + count ≤ bytes.length) :
    slice (overwrite buffer 0 bytes) start count = slice bytes start count := by
  rw [← slice_take inside, take_overwrite_zero]

/-- Bytes copied behind a prefix that the buffer holds. -/
theorem take_overwrite_behind {buffer front bytes : List α}
    (prefixed : buffer.take front.length = front) :
    (overwrite buffer front.length bytes).take (front.length + bytes.length) = front ++ bytes := by
  rw [overwrite, prefixed, ← List.length_append, List.take_left]

/-- The parts of a concatenation. -/
theorem slice_append_right {front middle back : List α} :
    slice (front ++ middle ++ back) front.length middle.length = middle := by
  rw [slice, List.append_assoc, List.drop_left, List.take_left]

/-! ## Records and words -/

/-- The record at a position of a concatenation of records of one size. -/
theorem slice_flatMap {β : Type u} {encode : β → List α} {size : Nat}
    (sized : ∀ record, (encode record).length = size) (records : List β) (index : Nat)
    (bound : index < records.length) :
    slice (records.flatMap encode) (size * index) size = encode records[index] := by
  induction records generalizing index with
  | nil => cases bound
  | cons record rest ih =>
      cases index with
      | zero =>
          simp only [slice, List.flatMap_cons, Nat.mul_zero, List.drop_zero,
            List.getElem_cons_zero]
          exact List.take_left' (sized record)
      | succ index =>
          have skip : size * (index + 1) = (encode record).length + size * index := by
            rw [sized, Nat.mul_succ, Nat.add_comm]
          rw [List.flatMap_cons, slice, skip, ← List.drop_drop, List.drop_left]
          exact ih index (by simpa using bound)

theorem length_flatMap_of_sized {β : Type u} {encode : β → List α} {size : Nat}
    (sized : ∀ record, (encode record).length = size) (records : List β) :
    (records.flatMap encode).length = size * records.length := by
  induction records with
  | nil => simp
  | cons record rest ih => simp [sized, ih, Nat.mul_succ, Nat.add_comm]

/-- The four bytes of a 32-bit word, least significant first. -/
def littleEndian (word : UInt32) : List UInt8 :=
  [UInt8.ofNat word.toNat, UInt8.ofNat (word.toNat / 2 ^ 8), UInt8.ofNat (word.toNat / 2 ^ 16),
    UInt8.ofNat (word.toNat / 2 ^ 24)]

/-- The 32-bit word at `offset`. -/
def word (buffer : List UInt8) (offset : Nat) : UInt32 :=
  let byte (i : Nat) : Nat := (buffer.getD (offset + i) 0).toNat
  UInt32.ofNat (byte 0 + 2 ^ 8 * byte 1 + 2 ^ 16 * byte 2 + 2 ^ 24 * byte 3)

theorem word_of_drop {buffer : List UInt8} {offset : Nat} {value : UInt32} {rest : List UInt8}
    (stored : buffer.drop offset = littleEndian value ++ rest) : word buffer offset = value := by
  have byte (i : Nat) : buffer.getD (offset + i) 0 = (littleEndian value ++ rest).getD i 0 := by
    rw [← stored]
    simp [List.getD_eq_getElem?_getD]
  have bound := value.toNat_lt
  apply UInt32.toNat_inj.mp
  simp only [word, byte, littleEndian, List.cons_append, List.getD_cons_zero,
    List.getD_cons_succ, UInt8.toNat_ofNat', UInt32.toNat_ofNat']
  omega

end NetworkCode.Library.Bytes
