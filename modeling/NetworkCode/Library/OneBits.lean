import Mathlib.Data.Nat.Digits.Defs
import NetworkCode.Library.BigEndian

/-!
# The one bits of a number

How many one bits a number has, and how the count splits at any binary
position.  The count of a byte string's number is the sum over its bytes.
-/

namespace NetworkCode.Library.OneBits

/-- The number of one bits. -/
def ones (n : Nat) : Nat := (Nat.digits 2 n).count 1

@[simp] theorem ones_zero : ones 0 = 0 := rfl

/-- The lowest bit and the rest. -/
theorem ones_eq (n : Nat) : ones n = n % 2 + ones (n / 2) := by
  rcases Nat.eq_zero_or_pos n with rfl | positive
  · rfl
  · rw [ones, Nat.digits_def' (by decide) positive, List.count_cons, Nat.add_comm]
    rcases Nat.mod_two_eq_zero_or_one n with even | odd
    · rw [even]
      rfl
    · rw [odd]
      rfl

/-- The ones of a number whose low bits are split off. -/
theorem ones_mul_two_pow_add (high width : Nat) {low : Nat} (small : low < 2 ^ width) :
    ones (high * 2 ^ width + low) = ones high + ones low := by
  induction width generalizing low with
  | zero =>
      obtain rfl : low = 0 := by omega
      simp
  | succ width ih =>
      have shape : high * 2 ^ (width + 1) = 2 * (high * 2 ^ width) := by rw [Nat.pow_succ]; ring
      have half : low / 2 < 2 ^ width := by rw [Nat.pow_succ] at small; omega
      rw [ones_eq, ones_eq low, shape, Nat.mul_add_mod, Nat.mul_add_div (by decide), ih half]
      omega

/-- The bits up to a width, one by one. -/
theorem ones_eq_sum {n : Nat} (width : Nat) (small : n < 2 ^ width) :
    ones n = ((List.range width).map fun position => n / 2 ^ position % 2).sum := by
  induction width generalizing n with
  | zero =>
      obtain rfl : n = 0 := by omega
      rfl
  | succ width ih =>
      have half : n / 2 < 2 ^ width := by rw [Nat.pow_succ] at small; omega
      rw [ones_eq, ih half, List.range_succ_eq_map, List.map_cons, List.sum_cons, List.map_map]
      congr 2
      · simp
      · apply List.map_congr_left
        intro position _
        rw [Function.comp_apply, Nat.div_div_eq_div_mul, Nat.pow_succ, Nat.mul_comm 2]

/-- The ones of a string of bytes are those of its bytes. -/
theorem ones_value (bytes : List UInt8) :
    ones (BigEndian.value bytes) = (bytes.map fun byte => ones byte.toNat).sum := by
  induction bytes with
  | nil => rfl
  | cons byte rest ih =>
      have width : 256 ^ rest.length = 2 ^ (8 * rest.length) := by rw [Nat.pow_mul]
      have small := BigEndian.value_lt rest
      rw [width] at small
      rw [BigEndian.value_cons, width, ones_mul_two_pow_add _ _ small, ih, List.map_cons,
        List.sum_cons]

end NetworkCode.Library.OneBits
