import NetworkCode.Library.Bytes

/-!
# Records in memory

The members of a C struct lie one behind the other, each at the next multiple
of its alignment.  The same rule places the items of a native format of
Python's `struct`, so what one side lays out the other reads back, whatever
the padding holds.
-/

namespace NetworkCode.Library.StructLayout

open Bytes

/-- The type of a member, a format character of `struct`. -/
inductive Field where
  | char
  | uint
  deriving DecidableEq, Repr

/-- The size of a member, which is its alignment too. -/
def Field.size : Field → Nat
  | char => 1
  | uint => 4

inductive Value where
  | char (byte : UInt8)
  | uint (word : UInt32)
  deriving DecidableEq, Repr

namespace Value

def field : Value → Field
  | char _ => .char
  | uint _ => .uint

def bytes : Value → List UInt8
  | char byte => [byte]
  | uint word => littleEndian word

theorem length_bytes (value : Value) : value.bytes.length = value.field.size := by
  cases value with
  | char byte => rfl
  | uint word => rfl

end Value

/-- The bytes that are skipped in front of a member. -/
def padding (offset : Nat) (field : Field) : Nat :=
  (field.size - offset % field.size) % field.size

/-- The bytes of a record from `offset` on; `filler` is what the padding holds. -/
def layout (filler : Nat → UInt8) (offset : Nat) : List Value → List UInt8
  | [] => []
  | value :: rest =>
      let start := offset + padding offset value.field
      (List.range' offset (padding offset value.field)).map filler ++ value.bytes ++
        layout filler (start + value.field.size) rest

/-- The member at `offset`. -/
def Field.read (buffer : List UInt8) (offset : Nat) : Field → Value
  | char => .char (buffer.getD offset 0)
  | uint => .uint (word buffer offset)

/-- The member at `offset`, where the buffer reaches that far. -/
def Field.read? (field : Field) (buffer : List UInt8) (offset : Nat) : Option Value :=
  if offset + field.size ≤ buffer.length then some (field.read buffer offset) else none

/-- `struct.unpack_from` -/
def unpackFrom (buffer : List UInt8) (offset : Nat) : List Field → Option (List Value)
  | [] => some []
  | field :: rest => do
      let start := offset + padding offset field
      let value ← field.read? buffer start
      let values ← unpackFrom buffer (start + field.size) rest
      return value :: values

theorem read?_value (value : Value) (front back : List UInt8) :
    value.field.read? (front ++ value.bytes ++ back) front.length = some value := by
  have inside : front.length + value.field.size ≤ (front ++ value.bytes ++ back).length := by
    rw [List.length_append, List.length_append, value.length_bytes]
    exact Nat.le_add_right _ _
  rw [Field.read?, if_pos inside]
  cases value with
  | char byte => simp [Value.field, Value.bytes, Field.read]
  | uint stored =>
      have drops : (front ++ littleEndian stored ++ back).drop front.length =
          littleEndian stored ++ back := by
        rw [List.append_assoc, List.drop_left]
      exact congrArg (fun read => some (Value.uint read)) (word_of_drop drops)

/-- What a record holds is read back from it. -/
theorem unpackFrom_layout (filler : Nat → UInt8) (values : List Value)
    (front back : List UInt8) :
    unpackFrom (front ++ layout filler front.length values ++ back) front.length
      (values.map Value.field) = some values := by
  induction values generalizing front with
  | nil => rfl
  | cons value rest ih =>
      have padded : (front ++ (List.range' front.length (padding front.length value.field)).map
          filler).length = front.length + padding front.length value.field := by
        simp
      generalize gap : (List.range' front.length (padding front.length value.field)).map filler =
        skipped at padded
      have written : (front ++ skipped ++ value.bytes).length =
          front.length + padding front.length value.field + value.field.size := by
        rw [List.length_append, padded, value.length_bytes]
      have behind := ih (front ++ skipped ++ value.bytes)
      have here := read?_value value (front ++ skipped)
        (layout filler (front.length + padding front.length value.field + value.field.size) rest ++
          back)
      rw [written] at behind
      rw [padded] at here
      simp only [List.append_assoc] at behind here
      simp only [layout, unpackFrom, List.map_cons, gap, List.append_assoc, here, behind]
      rfl

/-- The length of a record depends on its fields only. -/
def span (offset : Nat) : List Field → Nat
  | [] => 0
  | field :: rest =>
      padding offset field + field.size + span (offset + padding offset field + field.size) rest

theorem length_layout (filler : Nat → UInt8) (offset : Nat) (values : List Value) :
    (layout filler offset values).length = span offset (values.map Value.field) := by
  induction values generalizing offset with
  | nil => rfl
  | cons value rest ih =>
      simp only [layout, span, List.map_cons, List.length_append, List.length_map,
        List.length_range', value.length_bytes, ih]

end NetworkCode.Library.StructLayout
