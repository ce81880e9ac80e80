import NetworkCode.Kernel.FutureQueue
import NetworkCode.Kernel.Instruction
import NetworkCode.Kernel.Network

/-!
# The interpreter's state, its error bits and its guards
-/

namespace NetworkCode.Kernel

open Library.Checked

/-- The return values of `interpreter_threadfn`. -/
inductive ProgramExit where
  | programOk
  | programError
  | invalidInstr
  deriving DecidableEq, Repr

/-- How far the interpreter thread has come. -/
inductive Thread where
  | created
  | looping
  | returned (exit : ProgramExit)
  deriving DecidableEq, Repr

/-- `ncm_interpreter_t` -/
structure Interpreter where
  programCounter : UInt32
  programLength : UInt32
  program : Option CodeBlock
  futureQueue : FutureQueue maxFutures
  variableSpace : Varspace
  counters : CounterArray
  network : Network
  thread : Option Thread
  errorBits : UInt16
  deriving DecidableEq

namespace Interpreter

def isRunning (interpreter : Interpreter) : Bool := interpreter.thread.isSome

/-! ## Error bits -/

/-- `ERR_BIT_SYNC_TIMEOUT` -/
def errBitSyncTimeout : UInt8 := 15

/-- `ERR_BIT_RCV_FAULT` -/
def errBitRcvFault : UInt8 := 10

-- the shift is done in `int` and the result narrowed to the `u16` field
def setError (interpreter : Interpreter) (bit : UInt8) : Interpreter :=
  { interpreter with
    errorBits := (interpreter.errorBits.toUInt32 ||| (1 <<< bit.toUInt32)).toUInt16 }

def clearError (interpreter : Interpreter) (bit : UInt8) : Interpreter :=
  { interpreter with
    errorBits := (interpreter.errorBits.toUInt32 &&& ~~~(1 <<< bit.toUInt32)).toUInt16 }

def isErrorSet (interpreter : Interpreter) (errorMask : UInt16) : Bool :=
  interpreter.errorBits &&& errorMask ≠ 0

/-- Record in one error bit whether a call failed. -/
def noteResult (interpreter : Interpreter) (bit : UInt8) (result : Int) : Interpreter :=
  if result < 0 then interpreter.setError bit else interpreter.clearError bit

section NoteResult

variable (interpreter : Interpreter) (bit : UInt8) (result : Int)

@[simp] theorem noteResult_network :
    (interpreter.noteResult bit result).network = interpreter.network := by
  unfold noteResult
  split <;> rfl

@[simp] theorem noteResult_variableSpace :
    (interpreter.noteResult bit result).variableSpace = interpreter.variableSpace := by
  unfold noteResult
  split <;> rfl

@[simp] theorem noteResult_futureQueue :
    (interpreter.noteResult bit result).futureQueue = interpreter.futureQueue := by
  unfold noteResult
  split <;> rfl

end NoteResult

end Interpreter

/-! ## Guards -/

/-- The guard codes of `guards.h`. -/
inductive Guard where
  | alwaysTrue
  | alwaysFalse
  | channelXyRcvBufEmpty
  | sendBufferEmpty
  | testCount
  | statusTest
  | equalVarVar
  | greaterVarVar
  | lessVarVar
  | testVar
  | varQueueEmpty
  | varQueueFull
  deriving DecidableEq, Repr

namespace Guard

def code : Guard → UInt32
  | alwaysTrue => 0
  | alwaysFalse => 1
  | channelXyRcvBufEmpty => 2
  | sendBufferEmpty => 3
  | testCount => 4
  | statusTest => 5
  | equalVarVar => 6
  | greaterVarVar => 7
  | lessVarVar => 8
  | testVar => 9
  | varQueueEmpty => 10
  | varQueueFull => 11

def ofCode? (guardId : UInt32) : Option Guard :=
  match guardId.toNat with
  | 0 => some alwaysTrue
  | 1 => some alwaysFalse
  | 2 => some channelXyRcvBufEmpty
  | 3 => some sendBufferEmpty
  | 4 => some testCount
  | 5 => some statusTest
  | 6 => some equalVarVar
  | 7 => some greaterVarVar
  | 8 => some lessVarVar
  | 9 => some testVar
  | 10 => some varQueueEmpty
  | 11 => some varQueueFull
  | _ => none

@[simp] theorem ofCode?_code (guard : Guard) : ofCode? guard.code = some guard := by
  cases guard <;> rfl

end Guard

/-- The status that `test_guard` writes. -/
inductive GuardStatus where
  | guardOk
  | invalidGuard
  deriving DecidableEq, Repr

variable (interpreter : Interpreter)

def handleChannelXyRcvBufEmpty (channelId : UInt32) : Exec Bool :=
  ncmRxBuffEmpty interpreter.network channelId.toNat

def handleSendBufferEmpty : Bool := false

def handleTestCount (counterId testValue : UInt32) : Exec Bool := do
  let value ← load (.outOfBounds .counters) interpreter.counters counterId.toNat
  return value = testValue

def handleStatusTest (testValue : UInt32) : Bool :=
  interpreter.isErrorSet (testValue &&& 0x0FFFF).toUInt16

def handleEqualVarVar (varId1 varId2 : UInt32) : Exec Bool := do
  let result ← cmpVariables interpreter.variableSpace varId1.toNat varId2.toNat
  return result = 0

def handleGreaterVarVar (varId1 varId2 : UInt32) : Exec Bool := do
  let result ← cmpVariables interpreter.variableSpace varId1.toNat varId2.toNat
  return result > 0

def handleLessVarVar (varId1 varId2 : UInt32) : Exec Bool := do
  let result ← cmpVariables interpreter.variableSpace varId1.toNat varId2.toNat
  return result < 0

def handleTestVar (varId testMask : UInt32) : Exec Bool :=
  testVariable interpreter.variableSpace varId.toNat testMask

def handleVarQueueEmpty (_varId : UInt32) : Bool := false

def handleVarQueueFull (_varId : UInt32) : Bool := false

/-- The cases of `test_guard`. -/
def Guard.handle (guard : Guard) (arg0 arg1 : UInt32) : Exec Bool :=
  match guard with
  | .alwaysTrue => return true
  | .alwaysFalse => return false
  | .channelXyRcvBufEmpty => handleChannelXyRcvBufEmpty interpreter arg0
  | .sendBufferEmpty => return handleSendBufferEmpty
  | .testCount => handleTestCount interpreter arg0 arg1
  | .statusTest => return handleStatusTest interpreter arg0
  | .equalVarVar => handleEqualVarVar interpreter arg0 arg1
  | .greaterVarVar => handleGreaterVarVar interpreter arg0 arg1
  | .lessVarVar => handleLessVarVar interpreter arg0 arg1
  | .testVar => handleTestVar interpreter arg0 arg1
  | .varQueueEmpty => return handleVarQueueEmpty arg0
  | .varQueueFull => return handleVarQueueFull arg0

/-- `test_guard`, with the two words `args` points to. -/
def testGuard (guardId arg0 arg1 : UInt32) : Exec (Bool × GuardStatus) :=
  match Guard.ofCode? guardId with
  | some guard => do
      let result ← guard.handle interpreter arg0 arg1
      return (result, .guardOk)
  | none => return (false, .invalidGuard)

end NetworkCode.Kernel
