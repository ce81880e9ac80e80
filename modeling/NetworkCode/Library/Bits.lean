import Mathlib.Data.Nat.Bitwise

/-!
# Bit fields of a machine word

A field is named by its lowest bit and its width.  Shifting and masking a word
extracts a field, and so does extracting from a field that contains it.
-/

namespace NetworkCode.Library.Bits

/-- The `width` bits of a word from bit `low` on. -/
def field (word : UInt32) (low width : Nat) : UInt32 :=
  UInt32.ofNat (word.toNat / 2 ^ low % 2 ^ width)

/-- One bit of a word. -/
def bit (word : UInt32) (position : Nat) : Bool :=
  word.toNat.testBit position

theorem toNat_field (word : UInt32) (low width : Nat) :
    (field word low width).toNat = word.toNat / 2 ^ low % 2 ^ width := by
  have small : word.toNat / 2 ^ low % 2 ^ width < 2 ^ 32 := calc
    word.toNat / 2 ^ low % 2 ^ width ≤ word.toNat / 2 ^ low := Nat.mod_le _ _
    _ ≤ word.toNat := Nat.div_le_self _ _
    _ < 2 ^ 32 := word.toNat_lt
  rw [field, UInt32.toNat_ofNat', Nat.mod_eq_of_lt small]

theorem field_lt (word : UInt32) (low width : Nat) : (field word low width).toNat < 2 ^ width := by
  rw [toNat_field]
  exact Nat.mod_lt _ (Nat.two_pow_pos width)

/-- Masking the low bits of a word extracts a field. -/
theorem and_mask {word mask : UInt32} {width : Nat} (hmask : mask.toNat = 2 ^ width - 1) :
    word &&& mask = field word 0 width := by
  apply UInt32.toNat_inj.mp
  rw [UInt32.toNat_and, hmask, Nat.and_two_pow_sub_one_eq_mod, toNat_field, Nat.pow_zero,
    Nat.div_one]

/-- Shifting a word extracts all bits from `low` on. -/
theorem toNat_shift {word shift : UInt32} {low : Nat} (hshift : shift.toNat = low)
    (small : low < 32) : (word >>> shift).toNat = word.toNat / 2 ^ low := by
  rw [UInt32.toNat_shiftRight, hshift, Nat.mod_eq_of_lt small, Nat.shiftRight_eq_div_pow]

/-- Shifting a word whose bits end at `low + width` extracts a field. -/
theorem shift_eq_field {word shift : UInt32} {low width : Nat} (hshift : shift.toNat = low)
    (small : low < 32) (ends : word.toNat < 2 ^ (low + width)) :
    word >>> shift = field word low width := by
  have quotient : word.toNat / 2 ^ low < 2 ^ width := by
    rw [Nat.div_lt_iff_lt_mul (Nat.two_pow_pos low), Nat.mul_comm, ← Nat.pow_add]
    exact ends
  apply UInt32.toNat_inj.mp
  rw [toNat_shift hshift small, toNat_field, Nat.mod_eq_of_lt quotient]

theorem shift_and_mask {word shift mask : UInt32} {low width : Nat}
    (hshift : shift.toNat = low) (small : low < 32) (hmask : mask.toNat = 2 ^ width - 1) :
    (word >>> shift) &&& mask = field word low width := by
  rw [and_mask hmask]
  apply UInt32.toNat_inj.mp
  rw [toNat_field, toNat_field, toNat_shift hshift small, Nat.pow_zero, Nat.div_one]

/-- A field of the low bits of a word is a field of the word. -/
theorem field_low {word : UInt32} {outer low width : Nat} (inside : low + width ≤ outer) :
    field (field word 0 outer) low width = field word low width := by
  have split : 2 ^ outer = 2 ^ low * 2 ^ (outer - low) := by
    rw [← Nat.pow_add]
    congr 1
    omega
  have divides : 2 ^ width ∣ 2 ^ (outer - low) := Nat.pow_dvd_pow 2 (by omega)
  apply UInt32.toNat_inj.mp
  rw [toNat_field, toNat_field, toNat_field, Nat.pow_zero, Nat.div_one, split,
    Nat.mod_mul_right_div_self, Nat.mod_mod_of_dvd _ divides]

theorem bit_low {word : UInt32} {outer position : Nat} (inside : position < outer) :
    bit (field word 0 outer) position = bit word position := by
  rw [bit, bit, toNat_field, Nat.pow_zero, Nat.div_one, Nat.testBit_mod_two_pow]
  simp [inside]

/-- Masking a single bit tests it. -/
theorem and_ne_zero_iff {word mask : UInt32} {position : Nat} (hmask : mask.toNat = 2 ^ position) :
    word &&& mask ≠ 0 ↔ bit word position = true := by
  rw [ne_eq, ← UInt32.toNat_inj, UInt32.toNat_and, hmask, Nat.and_two_pow, bit]
  cases word.toNat.testBit position
  · simp
  · simp

theorem shift_and_one_ne_zero_iff {word shift : UInt32} {position : Nat}
    (hshift : shift.toNat = position) (small : position < 32) :
    (word >>> shift) &&& 1 ≠ 0 ↔ bit word position = true := by
  have one : (1 : UInt32).toNat = 2 ^ 0 := rfl
  rw [and_ne_zero_iff one, bit, bit, toNat_shift hshift small,
    Nat.testBit_div_two_pow, Nat.zero_add]

/-! ## One bit of a narrow word, computed in a wider one -/

section Narrow

variable {word : UInt16} {shift : UInt32} (small : shift.toNat < 16) (position : Nat)

include small

theorem toNat_one_shift : ((1 : UInt32) <<< shift).toNat = 2 ^ shift.toNat := by
  have inside : 2 ^ shift.toNat < 2 ^ 32 := Nat.pow_lt_pow_right (by decide) (by omega)
  have amount : shift.toNat % 32 = shift.toNat := Nat.mod_eq_of_lt (by omega)
  have one : (1 : UInt32).toNat = 1 := rfl
  rw [UInt32.toNat_shiftLeft, amount, one, Nat.one_shiftLeft, Nat.mod_eq_of_lt inside]

theorem testBit_set :
    (word.toUInt32 ||| ((1 : UInt32) <<< shift)).toUInt16.toNat.testBit position =
      if position = shift.toNat then true else word.toNat.testBit position := by
  rw [UInt32.toNat_toUInt16, UInt32.toNat_or, toNat_one_shift small, UInt16.toNat_toUInt32,
    Nat.testBit_mod_two_pow, Nat.testBit_or, Nat.testBit_two_pow]
  rcases Nat.lt_or_ge position 16 with inside | outside
  · by_cases same : position = shift.toNat
    · simp [same, small]
    · simp [same, Ne.symm same, inside]
  · have beyond : word.toNat < 2 ^ position :=
      Nat.lt_of_lt_of_le word.toNat_lt (Nat.pow_le_pow_right (by decide) outside)
    rw [if_neg (by omega), Nat.testBit_lt_two_pow beyond]
    simp [outside]

theorem testBit_clear :
    (word.toUInt32 &&& ~~~((1 : UInt32) <<< shift)).toUInt16.toNat.testBit position =
      if position = shift.toNat then false else word.toNat.testBit position := by
  have inside : 2 ^ shift.toNat < 2 ^ 32 := Nat.pow_lt_pow_right (by decide) (by omega)
  have complement : UInt32.size - 1 - 2 ^ shift.toNat = 2 ^ 32 - (2 ^ shift.toNat + 1) := by
    rw [Nat.sub_sub, Nat.add_comm]
    rfl
  rw [UInt32.toNat_toUInt16, UInt32.toNat_and, UInt32.toNat_not, toNat_one_shift small,
    UInt16.toNat_toUInt32, complement, Nat.testBit_mod_two_pow, Nat.testBit_and,
    Nat.testBit_two_pow_sub_succ inside, Nat.testBit_two_pow]
  rcases Nat.lt_or_ge position 16 with narrow | outside
  · by_cases same : position = shift.toNat
    · simp [same]
    · simp [same, Ne.symm same, narrow, Nat.lt_trans narrow (by decide : 16 < 32)]
  · have beyond : word.toNat < 2 ^ position :=
      Nat.lt_of_lt_of_le word.toNat_lt (Nat.pow_le_pow_right (by decide) outside)
    rw [if_neg (by omega), Nat.testBit_lt_two_pow beyond]
    simp

end Narrow

end NetworkCode.Library.Bits
