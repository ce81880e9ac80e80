import Mathlib.Data.List.Forall2
import NetworkCode.Library.Bytes

/-!
# Text as bytes

UTF-8 sends ASCII text to one byte for each character, and two hexadecimal
digits of either case to the byte they write.
-/

namespace NetworkCode.Library.Text

/-- The UTF-8 encoding of a text. -/
def utf8 (text : List Char) : List UInt8 := text.flatMap String.utf8EncodeChar

def asciiByte (character : Char) : UInt8 := UInt8.ofNat character.toNat

theorem utf8EncodeChar_of_lt {character : Char} (ascii : character.toNat < 128) :
    String.utf8EncodeChar character = [asciiByte character] := by
  have small : character.val.toNat ≤ 127 := Nat.le_of_lt_succ ascii
  unfold String.utf8EncodeChar
  simp only [small, if_true]
  rfl

theorem utf8_of_ascii {text : List Char} (ascii : ∀ character ∈ text, character.toNat < 128) :
    utf8 text = text.map asciiByte := by
  induction text with
  | nil => rfl
  | cons character rest ih =>
      have first := utf8EncodeChar_of_lt (ascii character List.mem_cons_self)
      have later := ih fun other member => ascii other (List.mem_cons_of_mem _ member)
      rw [utf8, List.flatMap_cons, first, List.map_cons, ← later]
      rfl

@[simp] theorem utf8_append (front back : List Char) :
    utf8 (front ++ back) = utf8 front ++ utf8 back :=
  List.flatMap_append

/-! ## Hexadecimal digits -/

/-- The value of the ASCII code of a hexadecimal digit. -/
def hexValue? (code : Nat) : Option Nat :=
  if 0x30 ≤ code ∧ code ≤ 0x39 then
    some (code - 0x30)
  else if 0x41 ≤ code ∧ code ≤ 0x46 then
    some (code - 0x41 + 10)
  else if 0x61 ≤ code ∧ code ≤ 0x66 then
    some (code - 0x61 + 10)
  else
    none

/-- The bytes that pairs of digits write; an odd number of digits and any
other character is refused. -/
def unhexlify : List UInt8 → Option (List UInt8)
  | [] => some []
  | [_] => none
  | high :: low :: rest => do
      let high ← hexValue? high.toNat
      let low ← hexValue? low.toNat
      let bytes ← unhexlify rest
      return UInt8.ofNat (16 * high + low) :: bytes

/-- Two digits of either case that write a byte. -/
def WritesOctet (pair : List Char) (octet : UInt8) : Prop :=
  ∃ high low x y, pair = [high, low] ∧ hexValue? high.toNat = some x ∧
    hexValue? low.toNat = some y ∧ octet.toNat = 16 * x + y

theorem code_of_hexValue? {code value : Nat} (digit : hexValue? code = some value) :
    code < 128 ∧ code ≠ 0x3a := by
  unfold hexValue? at digit
  split at digit
  · omega
  · split at digit
    · omega
    · split at digit
      · omega
      · cases digit

theorem toNat_asciiByte {character : Char} (ascii : character.toNat < 128) :
    (asciiByte character).toNat = character.toNat := by
  rw [asciiByte, UInt8.toNat_ofNat', Nat.mod_eq_of_lt (by omega)]

/-- The pairs of digits of some bytes write these bytes. -/
theorem unhexlify_of_writes {pairs : List (List Char)} {octets : List UInt8}
    (writes : List.Forall₂ WritesOctet pairs octets) :
    unhexlify (utf8 pairs.flatten) = some octets := by
  induction writes with
  | nil => rfl
  | @cons pair octet pairs octets first _ ih =>
      obtain ⟨high, low, x, y, rfl, digit, digit', value⟩ := first
      have ascii := (code_of_hexValue? digit).1
      have ascii' := (code_of_hexValue? digit').1
      have spelled : utf8 ([high, low] :: pairs).flatten =
          asciiByte high :: asciiByte low :: utf8 pairs.flatten := by
        rw [List.flatten_cons, utf8_append, utf8, List.flatMap_cons, List.flatMap_cons,
          utf8EncodeChar_of_lt ascii, utf8EncodeChar_of_lt ascii']
        rfl
      have octet_eq : UInt8.ofNat (16 * x + y) = octet := by
        rw [← value, UInt8.ofNat_toNat]
      rw [spelled, unhexlify, toNat_asciiByte ascii, toNat_asciiByte ascii', digit, digit', ih]
      exact congrArg some (congrArg (· :: octets) octet_eq)

/-- No digit is a colon. -/
theorem filter_of_writes {pair : List Char} {octet : UInt8} (writes : WritesOctet pair octet) :
    pair.filter (· ≠ ':') = pair := by
  obtain ⟨high, low, x, y, rfl, digit, digit', _⟩ := writes
  have apart {character : Char} (code : character.toNat ≠ 0x3a) : character ≠ ':' := by
    rintro rfl
    exact code rfl
  have first := apart (code_of_hexValue? digit).2
  have second := apart (code_of_hexValue? digit').2
  simp [first, second]

/-- The digits of some bytes, joined by colons, without the colons. -/
theorem filter_intercalate {pairs : List (List Char)} {octets : List UInt8}
    (writes : List.Forall₂ WritesOctet pairs octets) :
    ([':'].intercalate pairs).filter (· ≠ ':') = pairs.flatten := by
  induction writes with
  | nil => rfl
  | @cons pair octet pairs octets first rest ih =>
      have head := filter_of_writes first
      cases rest with
      | nil => simpa using head
      | cons next rest =>
          rw [List.intercalate_cons_cons, List.filter_append, List.filter_append, head, ih]
          simp

end NetworkCode.Library.Text
