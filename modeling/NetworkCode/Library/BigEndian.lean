import Mathlib.Data.Nat.Digits.Defs
import Mathlib.Tactic.Ring

/-!
# Byte strings as numbers

The number that a byte string denotes with its most significant byte first.
Zero bytes in front do not count, and strings of one length are ordered by
their first differing byte.
-/

namespace NetworkCode.Library.BigEndian

/-- The number with these bytes, most significant byte first. -/
def value (bytes : List UInt8) : Nat :=
  Nat.ofDigits 256 (bytes.reverse.map UInt8.toNat)

@[simp] theorem value_nil : value [] = 0 := rfl

theorem value_lt (bytes : List UInt8) : value bytes < 256 ^ bytes.length := by
  have digits : ∀ digit ∈ bytes.reverse.map UInt8.toNat, digit < 256 := by
    intro digit member
    obtain ⟨byte, _, rfl⟩ := List.mem_map.mp member
    exact byte.toNat_lt
  have bound := Nat.ofDigits_lt_base_pow_length (by decide) digits
  rwa [List.length_map, List.length_reverse] at bound

theorem value_append (front back : List UInt8) :
    value (front ++ back) = value front * 256 ^ back.length + value back := by
  unfold value
  rw [List.reverse_append, List.map_append, Nat.ofDigits_append, List.length_map,
    List.length_reverse]
  ring

theorem value_cons (byte : UInt8) (rest : List UInt8) :
    value (byte :: rest) = byte.toNat * 256 ^ rest.length + value rest := by
  have single : value [byte] = byte.toNat := Nat.ofDigits_singleton
  rw [← List.singleton_append, value_append, single]

/-- The first differing byte decides between strings of one length. -/
theorem value_cons_lt {left right : UInt8} {lefts rights : List UInt8}
    (lengths : lefts.length = rights.length) (smaller : left.toNat < right.toNat) :
    value (left :: lefts) < value (right :: rights) := by
  rw [value_cons, value_cons, lengths]
  calc
    left.toNat * 256 ^ rights.length + value lefts
        < left.toNat * 256 ^ rights.length + 256 ^ rights.length :=
          Nat.add_lt_add_left (lengths ▸ value_lt lefts) _
    _ = (left.toNat + 1) * 256 ^ rights.length := by ring
    _ ≤ right.toNat * 256 ^ rights.length := Nat.mul_le_mul_right _ smaller
    _ ≤ right.toNat * 256 ^ rights.length + value rights := Nat.le_add_right _ _

theorem value_eq_zero {bytes : List UInt8} (zeros : ∀ byte ∈ bytes, byte = 0) :
    value bytes = 0 := by
  induction bytes with
  | nil => rfl
  | cons byte rest ih =>
      have zero := zeros byte List.mem_cons_self
      rw [value_cons, zero, ih fun other member => zeros other (List.mem_cons_of_mem _ member)]
      simp

theorem value_append_of_zeros {front : List UInt8} (zeros : ∀ byte ∈ front, byte = 0)
    (back : List UInt8) : value (front ++ back) = value back := by
  rw [value_append, value_eq_zero zeros, Nat.zero_mul, Nat.zero_add]

theorem value_pos {bytes : List UInt8} {byte : UInt8} (member : byte ∈ bytes)
    (nonzero : byte ≠ 0) : 0 < value bytes := by
  obtain ⟨front, back, rfl⟩ := List.append_of_mem member
  have positive : 0 < byte.toNat := Nat.pos_of_ne_zero fun zero =>
    nonzero (UInt8.toNat_inj.mp zero)
  rw [value_append, value_cons]
  exact Nat.add_pos_right _ (Nat.add_pos_left (Nat.mul_pos positive (by positivity)) _)

/-- A byte in front of as many as the other has makes a string larger. -/
theorem value_lt_append {front back other : List UInt8} {byte : UInt8} (member : byte ∈ front)
    (nonzero : byte ≠ 0) (lengths : other.length = back.length) :
    value other < value (front ++ back) := by
  rw [value_append]
  calc
    value other < 256 ^ back.length := lengths ▸ value_lt other
    _ = 1 * 256 ^ back.length := (Nat.one_mul _).symm
    _ ≤ value front * 256 ^ back.length := Nat.mul_le_mul_right _ (value_pos member nonzero)
    _ ≤ value front * 256 ^ back.length + value back := Nat.le_add_right _ _

end NetworkCode.Library.BigEndian
