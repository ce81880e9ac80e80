import NetworkCode.Kernel.Interpreter
import NetworkCode.Translator.Packing

/-!
# What a hardware word means

The meaning of a word, stated without reference to the translator: its fields
name an operation, and the operation acts on the state of the interpreter.
-/

namespace NetworkCode.Translator

open Kernel Library.Bits Library.Checked

/-- What an IF tests. -/
inductive Condition where
  | always
  | never
  | sendBufferEmpty
  | receiveQueueEmpty (chan : UInt32)
  | counterIs (value : UInt32)
  | errorUnder (mask : UInt32)
  | varsEqual (var1 var2 : UInt32)
  | varGreater (var1 var2 : UInt32)
  | varLess (var1 var2 : UInt32)
  | varMeets (var : UInt32) (test : VarTest)
  | varQueueEmpty (var : UInt32)
  | varQueueFull (var : UInt32)
  deriving DecidableEq, Repr

/-- What a COUNT does to the counter. -/
inductive CounterChange where
  | keep
  | clear
  | increment
  | decrement
  deriving DecidableEq, Repr

/-- An operation of the hardware processor. -/
inductive Operation where
  | future (delay jump : UInt32)
  | halt
  | branch (jump : UInt32) (condition : Condition)
  | create (var : UInt32)
  | send (chan : UInt32)
  | receive (chan var : UInt32)
  | nop
  | syncMaster (chan : UInt32)
  | syncSlave (timeout : UInt32)
  | count (change : CounterChange)
  deriving DecidableEq, Repr

/-! ## The operation that a word names -/

section Fields

variable (word : UInt32)

/-- The tests that the condition bits of TEST_VAR select: the one of the highest
bit set, and any of them where no bit is set. -/
def varTests : List VarTest :=
  if bit word 3 then [.isNonzero]
  else if bit word 2 then [.isZero]
  else if bit word 1 then [.evenParity]
  else if bit word 0 then [.oddParity]
  else [.isZero, .isNonzero, .evenParity, .oddParity]

/-- The conditions that the guard fields of an IF name. -/
def conditions : List Condition :=
  match HwGuard.ofCode? (field word 16 4) with
  | some .alwaysTrue => [.always]
  | some .alwaysFalse => [.never]
  | some .bufEmpty =>
      if bit word 0 then [.sendBufferEmpty] else [.receiveQueueEmpty (field word 8 8)]
  | some .testCount => [.counterIs (field word 0 16)]
  | some .statusTest => [.errorUnder (field word 0 16)]
  | some .equalVarVar => [.varsEqual (field word 8 8) (field word 0 8)]
  | some .greaterVarVar => [.varGreater (field word 8 8) (field word 0 8)]
  | some .lessVarVar => [.varLess (field word 8 8) (field word 0 8)]
  | some .testVar => (varTests word).map (.varMeets (field word 8 8))
  | some .varQueueEmpty => [.varQueueEmpty (field word 8 8)]
  | some .varQueueFull => [.varQueueFull (field word 8 8)]
  | none => []

def counterChange : CounterChange :=
  if field word 24 2 = 0 then .keep
  else if field word 24 2 = 1 then .clear
  else if field word 24 2 = 2 then .increment
  else .decrement

/-- The operations that the fields of a word name; there is one, except where a
TEST_VAR leaves its condition open, and none outside the tables. -/
def operations : List Operation :=
  match HwOpcode.ofCode? (field word 28 4) with
  | some .future => [.future (field word 0 16) (field word 20 8)]
  | some .halt => [.halt]
  | some .if => (conditions word).map (.branch (field word 20 8))
  | some .create => [.create (field word 8 8)]
  | some .send => [.send (field word 16 8)]
  | some .receive => [.receive (field word 16 8) (field word 8 8)]
  | some .nop => [.nop]
  | some .sync =>
      if bit word 27 then [.syncMaster (field word 0 8)] else [.syncSlave (field word 0 16)]
  | some .count => [.count (counterChange word)]
  | none => []

/-- The opcode, and for an IF the guard type, is in the tables of the header. -/
def inTables : Bool :=
  match HwOpcode.ofCode? (field word 28 4) with
  | some .if => (HwGuard.ofCode? (field word 16 4)).isSome
  | some _ => true
  | none => false

end Fields

/-! ## What an operation does -/

section Effect

variable (long : LongWidth) (interpreter : Interpreter) (input : StepInput)

/-- The counter that COUNT instructions change. -/
def counter : UInt32 :=
  interpreter.counters.get ⟨0, by decide⟩

def withCounter (value : UInt32) : Interpreter :=
  { interpreter with counters := interpreter.counters.set 0 value (by decide) }

def Condition.holds : Condition → Exec Bool
  | always => return true
  | never => return false
  | sendBufferEmpty => return handleSendBufferEmpty
  | receiveQueueEmpty chan => ncmRxBuffEmpty interpreter.network chan.toNat
  | counterIs value => return counter interpreter = value
  | errorUnder mask => return interpreter.isErrorSet mask.toUInt16
  | varsEqual var1 var2 => do
      return (← cmpVariables interpreter.variableSpace var1.toNat var2.toNat) = 0
  | varGreater var1 var2 => do
      return (← cmpVariables interpreter.variableSpace var1.toNat var2.toNat) > 0
  | varLess var1 var2 => do
      return (← cmpVariables interpreter.variableSpace var1.toNat var2.toNat) < 0
  | varMeets var test => do
      let var ← load (.outOfBounds .variables) interpreter.variableSpace var.toNat
      return test.handle var.value
  | varQueueEmpty var => return handleVarQueueEmpty var
  | varQueueFull var => return handleVarQueueFull var

def CounterChange.apply : CounterChange → Interpreter
  | keep => interpreter
  | clear => withCounter interpreter 0
  | increment => withCounter interpreter (counter interpreter + 1)
  | decrement => withCounter interpreter (counter interpreter - 1)

/-- The operation is done and the next instruction follows. -/
def followOn (events : List Event) : Iteration :=
  ⟨none, { interpreter with programCounter := interpreter.programCounter + 1 }, events⟩

/-- The operation ends the program with an error. -/
def breakOff (events : List Event) : Iteration :=
  ⟨some .programError, interpreter, events⟩

/-- Jump when the test holds, and go on with the next instruction otherwise. -/
def branchOn (jump : UInt32) (test : Exec Bool) : Exec Iteration := do
  if ← test then
    return ⟨none, { interpreter with programCounter := jump }, []⟩
  return followOn interpreter []

/-- The effect of an operation; messages live in slot 0. -/
def Operation.perform : Operation → Exec Iteration
  | future delay jump => do
      if interpreter.programLength ≤ jump then
        return breakOff interpreter []
      let (status, queue) ←
        pushFuture interpreter.futureQueue jump delay.toUInt64 input.pushClock
      let interpreter := { interpreter with futureQueue := queue }
      if status = .ok then
        return followOn interpreter [.pushed jump delay input.pushClock]
      return breakOff interpreter []
  | halt => do
      let executed ← handleHalt interpreter input long
      return executed.handleResult
  | branch jump condition => branchOn interpreter jump (condition.holds interpreter)
  | create var => do
      let network ← ncmCreateMessageFromVar long interpreter.network interpreter.variableSpace
        var.toNat 0 input.skbMemory
      return followOn { interpreter with network := network } []
  | send chan => do
      let (ret, network, events) ←
        ncmSendMessage interpreter.network chan.toNat 0 input.txStatus
      let interpreter := { interpreter with network := network }
      if 0 ≤ ret then
        return followOn interpreter (events.map .network)
      return breakOff interpreter (events.map .network)
  | receive chan var => do
      let (ret, network, varspace) ← ncmReceiveMessageToVar interpreter.network
        interpreter.variableSpace chan.toNat var.toNat
      let interpreter := { interpreter with network := network, variableSpace := varspace }
      return followOn (interpreter.noteResult Interpreter.errBitRcvFault ret) []
  | nop => return followOn interpreter []
  | syncMaster chan => do
      let (_, events) ←
        ncmSendSync interpreter.network chan.toNat input.skbMemory input.txStatus
      return followOn interpreter (events.map .network)
  | syncSlave timeout => do
      let (ret, _) ← ncmReceiveSync interpreter.network timeout.toUInt64.toInt64
        input.syncStack input.syncStart input.syncReads
      return followOn (interpreter.noteResult Interpreter.errBitSyncTimeout ret) []
  | count change => return followOn (change.apply interpreter) []

end Effect

end NetworkCode.Translator
