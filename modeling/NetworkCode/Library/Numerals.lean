import Mathlib.Data.List.Nodup
import NetworkCode.Library.Text

/-!
# Numerals

Printing with `%i` and a buffer of fixed size, and reading with `%i`, where the
first characters decide the base.
-/

namespace NetworkCode.Library.Numerals

/-- What `snprintf` with `%i` leaves in a buffer of the given size. -/
def snprintfInt (size value : Nat) : List Char := (Nat.toDigits 10 value).take (size - 1)

/-- The digits of the base, up to the first other character. -/
def scanDigits (base : Nat) (value : Nat) : List Char → Nat
  | [] => value
  | character :: rest =>
      match Text.hexValue? character.toNat with
      | none => value
      | some digit =>
          if digit < base then scanDigits base (base * value + digit) rest else value

/-- The base that the first characters ask for. -/
def guessBase : List Char → Nat
  | '0' :: marker :: digit :: _ =>
      if marker.toLower = 'x' ∧ (Text.hexValue? digit.toNat).isSome then 16 else 8
  | '0' :: _ => 8
  | _ => 10

/-- `simple_strtoul` in base 0. -/
def scanUnsigned (text : List Char) : Nat :=
  if guessBase text = 16 then scanDigits 16 0 (text.drop 2) else scanDigits (guessBase text) 0 text

/-- `sscanf` with `%i`; nothing where no number starts. -/
def sscanfInt (text : List Char) : Option Int :=
  match text.dropWhile Char.isWhitespace with
  | '-' :: rest => if rest.head?.any Char.isDigit then some (-(scanUnsigned rest : Int)) else none
  | text => if text.head?.any Char.isDigit then some (scanUnsigned text) else none

example : sscanfInt "010".toList = some 8 := by decide

/-! ## What is printed is read -/

theorem hexValue?_of_isDigit {character : Char} (digit : character.isDigit) :
    Text.hexValue? character.toNat = some (character.toNat - '0'.toNat) ∧
      character.toNat - '0'.toNat < 10 := by
  have low : 0x30 ≤ character.toNat ∧ character.toNat ≤ 0x39 := by
    simpa [Char.isDigit, UInt32.le_iff_toNat_le] using digit
  have zero : '0'.toNat = 0x30 := rfl
  rw [Text.hexValue?, if_pos low, zero]
  exact ⟨rfl, by omega⟩

theorem scanDigits_of_digits {text : List Char} (digits : ∀ character ∈ text, character.isDigit)
    (value : Nat) : scanDigits 10 value text = Nat.ofDigitChars 10 text value := by
  induction text generalizing value with
  | nil => rw [scanDigits, Nat.ofDigitChars_nil]
  | cons character rest ih =>
      obtain ⟨first, later⟩ := List.forall_mem_cons.mp digits
      obtain ⟨known, small⟩ := hexValue?_of_isDigit first
      rw [scanDigits, known, Nat.ofDigitChars_cons]
      dsimp only
      rw [if_pos small]
      exact ih later _

theorem isDigit_of_mem {value : Nat} :
    ∀ character ∈ Nat.toDigits 10 value, character.isDigit := fun _ member =>
  Nat.isDigit_of_mem_toDigits (by decide) (by decide) member

/-- The first digit of a positive number is no zero. -/
theorem head?_toDigits {value : Nat} (positive : value ≠ 0) :
    (Nat.toDigits 10 value).head? ≠ some '0' := by
  induction value using Nat.strongRecOn with
  | ind value ih =>
      by_cases small : value < 10
      · rw [Nat.toDigits_of_lt_base small]
        simpa using positive
      · have large : 10 ≤ value := Nat.le_of_not_lt small
        have fewer : value / 10 ≠ 0 := by omega
        rw [Nat.toDigits_of_base_le (by decide) large, List.head?_append_of_ne_nil _
          Nat.toDigits_ne_nil]
        exact ih (value / 10) (by omega) fewer

theorem guessBase_of_head? {text : List Char} (head : text.head? ≠ some '0') :
    guessBase text = 10 := by
  unfold guessBase
  split
  · exact absurd rfl head
  · exact absurd rfl head
  · rfl

theorem scanUnsigned_toDigits (value : Nat) : scanUnsigned (Nat.toDigits 10 value) = value := by
  by_cases zero : value = 0
  · rw [zero]
    rfl
  · rw [scanUnsigned, guessBase_of_head? (head?_toDigits zero), if_neg (by decide),
      scanDigits_of_digits isDigit_of_mem, Nat.ofDigitChars_ten_toDigits]

theorem isWhitespace_of_isDigit {character : Char} (digit : character.isDigit) :
    character.isWhitespace = false := by
  cases space : character.isWhitespace with
  | false => rfl
  | true =>
      simp only [Char.isWhitespace, Bool.or_eq_true, decide_eq_true_eq] at space
      rcases space with ((rfl | rfl) | rfl) | rfl <;> cases digit

/-- A number that is printed is read back. -/
theorem sscanfInt_toDigits (value : Nat) :
    sscanfInt (Nat.toDigits 10 value) = some (value : Int) := by
  cases shape : Nat.toDigits 10 value with
  | nil => exact absurd shape Nat.toDigits_ne_nil
  | cons first rest =>
      have digit : first.isDigit := isDigit_of_mem first (shape ▸ List.mem_cons_self)
      have whole : (first :: rest).dropWhile Char.isWhitespace = first :: rest :=
        List.dropWhile_cons_of_neg (by simp [isWhitespace_of_isDigit digit])
      rw [sscanfInt, whole]
      split
      · next same =>
          cases same
          cases digit
      · rw [← shape, scanUnsigned_toDigits, shape, List.head?_cons]
        exact if_pos digit

section Buffers

variable {size value : Nat}

/-- A buffer with room for the digits holds them all. -/
theorem snprintfInt_eq (wide : 1 < size) (room : value < 10 ^ (size - 1)) :
    snprintfInt size value = Nat.toDigits 10 value :=
  List.take_of_length_le
    ((Nat.length_toDigits_le_iff (by decide) (Nat.sub_pos_of_lt wide)).mpr room)

theorem sscanfInt_snprintfInt (wide : 1 < size) (room : value < 10 ^ (size - 1)) :
    sscanfInt (snprintfInt size value) = some (value : Int) := by
  rw [snprintfInt_eq wide room, sscanfInt_toDigits]

/-- The first number without room is cut to what the tenth of it prints. -/
theorem snprintfInt_cut (wide : 2 < size) :
    snprintfInt size (10 ^ (size - 1)) = snprintfInt size (10 ^ (size - 2)) := by
  have split : 10 ^ (size - 1) = 10 * 10 ^ (size - 2) := by
    rw [← Nat.pow_succ']
    congr 1
    omega
  have large : 10 ≤ 10 ^ (size - 1) := by
    rw [split]
    exact Nat.le_mul_of_pos_right 10 (Nat.pow_pos (by decide))
  have quotient : 10 ^ (size - 1) / 10 = 10 ^ (size - 2) := by
    rw [split, Nat.mul_div_cancel_left _ (by decide)]
  have full : size - 1 ≤ (Nat.toDigits 10 (10 ^ (size - 2))).length := by
    by_contra short
    have fits : (Nat.toDigits 10 (10 ^ (size - 2))).length ≤ size - 2 := by omega
    have less := (Nat.length_toDigits_le_iff (by decide) (Nat.sub_pos_of_lt wide)).mp fits
    exact Nat.lt_irrefl _ less
  rw [snprintfInt, Nat.toDigits_of_base_le (by decide) large, quotient,
    List.take_append_of_le_length full]
  rfl

/-- The printed numbers below a bound differ exactly as long as all have room. -/
theorem nodup_snprintfInt_iff (wide : 2 < size) {count : Nat} :
    ((List.range count).map (snprintfInt size)).Nodup ↔ count ≤ 10 ^ (size - 1) := by
  constructor
  · intro distinct
    by_contra beyond
    have last : 10 ^ (size - 1) ∈ List.range count := by
      rw [List.mem_range]
      omega
    have smaller : 10 ^ (size - 2) < 10 ^ (size - 1) :=
      Nat.pow_lt_pow_right (by decide) (by omega)
    have earlier : 10 ^ (size - 2) ∈ List.range count := by
      rw [List.mem_range]
      omega
    have same := List.inj_on_of_nodup_map distinct last earlier (snprintfInt_cut wide)
    exact Nat.ne_of_gt smaller same
  · intro room
    refine List.Nodup.map_on ?_ List.nodup_range
    intro left hleft right hright same
    have bound {value : Nat} (member : value ∈ List.range count) : value < 10 ^ (size - 1) :=
      Nat.lt_of_lt_of_le (List.mem_range.mp member) room
    have wide' : 1 < size := Nat.lt_of_succ_lt wide
    have read := congrArg sscanfInt same
    rw [sscanfInt_snprintfInt wide' (bound hleft),
      sscanfInt_snprintfInt wide' (bound hright)] at read
    exact Int.ofNat.inj (Option.some.inj read)

end Buffers

end NetworkCode.Library.Numerals
