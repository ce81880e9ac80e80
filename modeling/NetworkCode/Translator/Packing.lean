import NetworkCode.Kernel.Guards
import NetworkCode.Library.Bits

/-!
# The translator

`get_instruction` turns a 32-bit word of the hardware processor into an
instruction of the interpreter.  `translator.h` repeats the bytecodes, guard
codes and test flags of the module with the same values.
-/

namespace NetworkCode.Translator

open Kernel

/-! ## Hardware codes -/

/-- The opcodes `HW_*` of `translator.h`. -/
inductive HwOpcode where
  | future
  | halt
  | if
  | create
  | send
  | receive
  | nop
  | sync
  | count
  deriving DecidableEq, Repr

def HwOpcode.ofCode? (type : UInt32) : Option HwOpcode :=
  match type.toNat with
  | 5 => some .future
  | 4 => some .halt
  | 7 => some .if
  | 1 => some .create
  | 2 => some .send
  | 3 => some .receive
  | 0 => some .nop
  | 15 => some .sync
  | 8 => some .count
  | _ => none

/-- The guard types `HW_GRD_*` of `translator.h`. -/
inductive HwGuard where
  | alwaysTrue
  | alwaysFalse
  | bufEmpty
  | testCount
  | statusTest
  | equalVarVar
  | greaterVarVar
  | lessVarVar
  | testVar
  | varQueueEmpty
  | varQueueFull
  deriving DecidableEq, Repr

def HwGuard.ofCode? (type : UInt32) : Option HwGuard :=
  match type.toNat with
  | 7 => some .alwaysTrue
  | 0 => some .alwaysFalse
  | 1 => some .bufEmpty
  | 2 => some .testCount
  | 3 => some .statusTest
  | 8 => some .equalVarVar
  | 9 => some .greaterVarVar
  | 10 => some .lessVarVar
  | 11 => some .testVar
  | 5 => some .varQueueEmpty
  | 6 => some .varQueueFull
  | _ => none

/-- `MASK8` -/
def mask8 : UInt32 := 0x000FF

/-- `MASK16` -/
def mask16 : UInt32 := 0x0FFFF

/-- `MASK20` -/
def mask20 : UInt32 := 0xFFFFF

/-! ## Packing -/

section Packing

variable (bytecode : UInt32) (instr : Instr)

def packFuture : Instr where
  type := Opcode.future.code
  args := (instr.args.set0 (bytecode &&& mask16)).set1 ((bytecode >>> 20) &&& mask8)

def packHalt : Instr :=
  { instr with type := Opcode.halt.code }

def packGuardArgs (guardMask : UInt32) (outArgs : Args) : Args :=
  let type := guardMask >>> 16
  match HwGuard.ofCode? type with
  | some .alwaysTrue => outArgs.set0 Guard.alwaysTrue.code
  | some .alwaysFalse => outArgs.set0 Guard.alwaysFalse.code
  | some .bufEmpty =>
      if guardMask &&& 1 ≠ 0 then
        outArgs.set0 Guard.sendBufferEmpty.code
      else
        (outArgs.set0 Guard.channelXyRcvBufEmpty.code).set2 ((guardMask >>> 8) &&& mask8)
  | some .testCount => (outArgs.set0 Guard.testCount.code).set2 (guardMask &&& mask16)
  | some .statusTest => (outArgs.set0 Guard.statusTest.code).set2 (guardMask &&& mask16)
  | some .equalVarVar =>
      ((outArgs.set0 Guard.equalVarVar.code).set2 ((guardMask >>> 8) &&& mask8)).set3
        (guardMask &&& mask8)
  | some .greaterVarVar =>
      ((outArgs.set0 Guard.greaterVarVar.code).set2 ((guardMask >>> 8) &&& mask8)).set3
        (guardMask &&& mask8)
  | some .lessVarVar =>
      ((outArgs.set0 Guard.lessVarVar.code).set2 ((guardMask >>> 8) &&& mask8)).set3
        (guardMask &&& mask8)
  | some .testVar =>
      let outArgs := (outArgs.set0 Guard.testVar.code).set2 ((guardMask >>> 8) &&& mask8)
      if guardMask &&& 8 ≠ 0 then
        outArgs.set3 VarTest.isNonzero.code
      else if guardMask &&& 4 ≠ 0 then
        outArgs.set3 VarTest.isZero.code
      else if guardMask &&& 2 ≠ 0 then
        outArgs.set3 VarTest.evenParity.code
      else if guardMask &&& 1 ≠ 0 then
        outArgs.set3 VarTest.oddParity.code
      else
        outArgs
  | some .varQueueEmpty =>
      (outArgs.set0 Guard.varQueueEmpty.code).set2 ((guardMask >>> 8) &&& mask8)
  | some .varQueueFull =>
      (outArgs.set0 Guard.varQueueFull.code).set2 ((guardMask >>> 8) &&& mask8)
  | none => outArgs

def packIf : Instr where
  type := Opcode.if.code
  args := packGuardArgs (bytecode &&& mask20)
    (instr.args.set1 ((bytecode >>> 20) &&& mask8))

def packCreate : Instr where
  type := Opcode.create.code
  args := instr.args.set0 ((bytecode >>> 8) &&& mask8)

-- the hardware has one message buffer
def packSend : Instr where
  type := Opcode.send.code
  args := (instr.args.set0 ((bytecode >>> 16) &&& mask8)).set1 0

def packReceive : Instr where
  type := Opcode.receive.code
  args := (instr.args.set0 ((bytecode >>> 16) &&& mask8)).set1 ((bytecode >>> 8) &&& mask8)

def packNop : Instr :=
  { instr with type := Opcode.nop.code }

def packSync : Instr where
  type := Opcode.sync.code
  args :=
    if (bytecode >>> 27) &&& 1 ≠ 0 then
      (instr.args.set0 syncMaster).set1 (bytecode &&& mask8)
    else
      (instr.args.set0 syncSlave).set1 (bytecode &&& mask16)

def packCount : Instr :=
  if (bytecode >>> 24) &&& 3 = 0 then
    { instr with type := Opcode.nop.code }
  else if (bytecode >>> 24) &&& 3 = 1 then
    { instr with type := Opcode.clearCounter.code }
  else if (bytecode >>> 24) &&& 3 = 2 then
    ⟨Opcode.addToCounter.code, (instr.args.set0 0).set1 1⟩
  else if (bytecode >>> 24) &&& 3 = 3 then
    ⟨Opcode.subFromCounter.code, (instr.args.set0 0).set1 1⟩
  else
    instr

end Packing

/-- `get_instruction`, with the type byte that the new record holds before. -/
def getInstruction (stale : UInt8) (bytecode : UInt32) : Instr :=
  let type := bytecode >>> 28
  let instr : Instr := ⟨stale, #v[0, 0, 0, 0]⟩
  match HwOpcode.ofCode? type with
  | some .future => packFuture bytecode instr
  | some .halt => packHalt instr
  | some .if => packIf bytecode instr
  | some .create => packCreate bytecode instr
  | some .send => packSend bytecode instr
  | some .receive => packReceive bytecode instr
  | some .nop => packNop instr
  | some .sync => packSync bytecode instr
  | some .count => packCount bytecode instr
  | none => instr

end NetworkCode.Translator
