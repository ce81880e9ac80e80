import NetworkCode.Kernel.Instruction
import NetworkCode.Library.Checked
import NetworkCode.Library.StructLayout

/-!
# The record reader of `parse.py`

The visualizer reads a translated program twenty bytes at a time and unpacks
each record with the native format `cIIII`.  The module reads the same bytes
as an array of `ncm_instr_t`.
-/

namespace NetworkCode.Visualizer

open Kernel Library Library.Checked Library.StructLayout

/-- The exceptions that the script can raise. -/
inductive PyError where
  | structError
  | keyError
  | indexError
  deriving DecidableEq, Repr

/-- An entry of `instr_arr`. -/
structure ParsedInstr where
  instr : Opcode
  arg0 : UInt32
  arg1 : UInt32
  arg2 : UInt32
  arg3 : UInt32
  deriving DecidableEq, Repr

/-- `"cIIII"` -/
def recordFormat : List Field := [.char, .uint, .uint, .uint, .uint]

/-- One turn of the reading loop; `bytecodes[1]` is the table of `bytecodes.h`. -/
def parseRecord (instr : List UInt8) : Except PyError ParsedInstr :=
  match unpackFrom instr 0 recordFormat with
  | some [.char type, .uint arg0, .uint arg1, .uint arg2, .uint arg3] =>
      match Opcode.ofCode? type with
      | some opcode => .ok ⟨opcode, arg0, arg1, arg2, arg3⟩
      | none => .error .keyError
  | _ => .error .structError

/-- The reading loop: `f.read(instr_size)` until nothing is left. -/
def readInstrs (file : List UInt8) : Except PyError (List ParsedInstr) :=
  if file = [] then
    .ok []
  else do
    let parsed ← parseRecord (file.take Instr.size)
    let rest ← readInstrs (file.drop Instr.size)
    return parsed :: rest
termination_by file.length
decreasing_by
  have nonempty : 0 < file.length := List.length_pos_iff.mpr ‹file ≠ []›
  rw [List.length_drop]
  exact Nat.sub_lt nonempty (Nat.succ_pos 19)

/-! ## The two decoders -/

/-- The members of an `ncm_instr_t`. -/
def members (instr : Instr) : List Value :=
  [.char instr.type, .uint instr.arg0, .uint instr.arg1, .uint instr.arg2, .uint instr.arg3]

theorem members_injective {left right : Instr} (same : members left = members right) :
    left = right := by
  obtain ⟨leftType, leftArgs⟩ := left
  obtain ⟨rightType, rightArgs⟩ := right
  simp only [members, List.cons.injEq, Value.char.injEq, Value.uint.injEq, and_true] at same
  obtain ⟨rfl, same0, same1, same2, same3⟩ := same
  congr 1
  ext index hindex
  match index, hindex with
  | 0, _ => exact congrArg UInt32.toNat same0
  | 1, _ => exact congrArg UInt32.toNat same1
  | 2, _ => exact congrArg UInt32.toNat same2
  | 3, _ => exact congrArg UInt32.toNat same3

/-- Python's format finds the members where the module does. -/
theorem unpackFrom_record {bytes : List UInt8} (whole : Instr.size ≤ bytes.length) :
    unpackFrom bytes 0 recordFormat = some (members (Instr.ofBytes bytes)) := by
  have at0 : 1 ≤ bytes.length := Nat.le_trans (by decide) whole
  have at4 : 8 ≤ bytes.length := Nat.le_trans (by decide) whole
  have at8 : 12 ≤ bytes.length := Nat.le_trans (by decide) whole
  have at12 : 16 ≤ bytes.length := Nat.le_trans (by decide) whole
  simp only [recordFormat, unpackFrom, Field.read?, padding, Field.size, Nat.reduceAdd,
    Nat.reduceMod, Nat.reduceSub, at0, at4, at8, at12]
  exact if_pos whole ▸ rfl

/-- The entry that an instruction becomes. -/
def parsedOf (instr : Instr) : Except PyError ParsedInstr :=
  match instr.opcode? with
  | some opcode => .ok ⟨opcode, instr.arg0, instr.arg1, instr.arg2, instr.arg3⟩
  | none => .error .keyError

theorem parseRecord_of_whole {bytes : List UInt8} (whole : Instr.size ≤ bytes.length) :
    parseRecord bytes = parsedOf (Instr.ofBytes bytes) := by
  unfold parseRecord
  rw [unpackFrom_record whole]
  rfl

end NetworkCode.Visualizer
