import NetworkCode.Kernel.Guards

/-!
# The interpreter

One handler for each instruction, the iteration of `interpreter_threadfn`,
and starting and stopping the interpreter.  What an instruction reads from the
outside (clock, sockets, driver, fresh memory) is its `StepInput`; what it
does to the outside is its list of events.
-/

namespace NetworkCode.Kernel

open Library.Checked

/-- What one iteration of the loop reads from its environment. -/
structure StepInput where
  /-- `now_us` in `push_future`. -/
  pushClock : UInt64
  /-- `now_us` in `handle_halt`. -/
  haltClock : UInt64
  /-- The clock when `usleep_range` returns. -/
  wakeClock : UInt64
  /-- The contents of the memory that `alloc_skb` returns. -/
  skbMemory : Nat → UInt8
  /-- The driver's answer to a transmission. -/
  txStatus : Int
  /-- The contents of the stack that `ncm_receive_sync` uses as its buffer. -/
  syncStack : Nat → UInt8
  /-- `now_us` at the start of `ncm_receive_sync`. -/
  syncStart : UInt64
  /-- The socket reads of `ncm_receive_sync`, each with the clock after it. -/
  syncReads : List (SockRead × UInt64)

/-- What can be seen of an instruction from outside. -/
inductive Event where
  | pushed (jmp delay : UInt32) (now : UInt64)
  /-- A future was taken at `now`, a sleep of `asked` microseconds requested,
  and the sleep was over at `wake`. -/
  | resumed (el : FutureQueueEl) (now : UInt64) (asked : Nat) (wake : UInt64)
  | network (event : NetEvent)
  deriving DecidableEq

/-- `enum instr_result` -/
inductive InstrResult where
  | ok
  | error
  | changePc
  deriving DecidableEq, Repr

/-- What a handler leaves. -/
structure Executed where
  result : InstrResult
  interpreter : Interpreter
  events : List Event
  deriving DecidableEq

/-! ## Instruction handlers -/

section Handlers

variable (interpreter : Interpreter) (instr : Instr) (input : StepInput)

def handleNop : Exec Executed :=
  return ⟨.ok, interpreter, []⟩

def handleFuture : Exec Executed := do
  let delay := instr.arg0
  let jmp := instr.arg1
  if jmp ≥ interpreter.programLength then
    return ⟨.error, interpreter, []⟩
  let (status, queue) ←
    pushFuture interpreter.futureQueue jmp delay.toUInt64 input.pushClock
  match status with
  | .ok => return ⟨.ok, { interpreter with futureQueue := queue },
      [.pushed jmp delay input.pushClock]⟩
  | _ => return ⟨.error, { interpreter with futureQueue := queue }, []⟩

-- `range` is a `u64`, so the test for a late HALT never holds
def handleHalt (long : LongWidth) : Exec Executed := do
  let (status, head, queue) ← popFuture interpreter.futureQueue
  match status, head with
  | .ok, some head =>
      let range := head.expiry - input.haltClock
      if range < 0 then
        return ⟨.error, { interpreter with futureQueue := queue }, []⟩
      else
        return ⟨.changePc,
          { interpreter with futureQueue := queue, programCounter := head.jmpAddress },
          [.resumed head input.haltClock (range.toNat % 2 ^ long.bits) input.wakeClock]⟩
  | _, _ => return ⟨.error, { interpreter with futureQueue := queue }, []⟩

def handleWait (long : LongWidth) : Exec Executed := do
  let pushed ← handleFuture interpreter instr input
  match pushed.result with
  | .ok => do
      let halted ← handleHalt pushed.interpreter input long
      return { halted with events := pushed.events ++ halted.events }
  | _ => return pushed

def handleGoto : Exec Executed :=
  let jmp := instr.arg0
  if jmp ≥ interpreter.programLength then
    return ⟨.error, interpreter, []⟩
  else
    return ⟨.changePc, { interpreter with programCounter := jmp }, []⟩

def handleIf : Exec Executed := do
  let guardId := instr.arg0
  let jmp := instr.arg1
  let (result, status) ← testGuard interpreter guardId instr.arg2 instr.arg3
  match status with
  | .invalidGuard => return ⟨.error, interpreter, []⟩
  | .guardOk =>
      if result then
        return ⟨.changePc, { interpreter with programCounter := jmp }, []⟩
      else
        return ⟨.ok, interpreter, []⟩

def handleClearCounter : Exec Executed := do
  let counters ← resetCounter interpreter.counters instr.arg0.toNat
  return ⟨.ok, { interpreter with counters := counters }, []⟩

def handleAddToCounter : Exec Executed := do
  let counters ← addToCounter interpreter.counters instr.arg0.toNat instr.arg1
  return ⟨.ok, { interpreter with counters := counters }, []⟩

def handleSubFromCounter : Exec Executed := do
  let counters ← subFromCounter interpreter.counters instr.arg0.toNat instr.arg1
  return ⟨.ok, { interpreter with counters := counters }, []⟩

def handleSetCounter : Exec Executed := do
  let counters ← setCounter interpreter.counters instr.arg0.toNat instr.arg1
  return ⟨.ok, { interpreter with counters := counters }, []⟩

def handleCreate (long : LongWidth) : Exec Executed := do
  let network ← ncmCreateMessageFromVar long interpreter.network interpreter.variableSpace
    instr.arg0.toNat instr.arg1.toNat input.skbMemory
  return ⟨.ok, { interpreter with network := network }, []⟩

def handleSend : Exec Executed := do
  let (ret, network, events) ← ncmSendMessage interpreter.network instr.arg0.toNat
    instr.arg1.toNat input.txStatus
  return ⟨if ret ≥ 0 then .ok else .error, { interpreter with network := network },
    events.map .network⟩

def handleReceive : Exec Executed := do
  let (ret, network, varspace) ← ncmReceiveMessageToVar interpreter.network
    interpreter.variableSpace instr.arg0.toNat instr.arg1.toNat
  let interpreter := { interpreter with network := network, variableSpace := varspace }
  return ⟨.ok, interpreter.noteResult Interpreter.errBitRcvFault ret, []⟩

def handleSync : Exec Executed := do
  let chanId := instr.arg1
  if instr.arg0 = syncMaster then
    let (_, events) ←
      ncmSendSync interpreter.network chanId.toNat input.skbMemory input.txStatus
    return ⟨.ok, interpreter, events.map .network⟩
  else
    let (ret, _) ← ncmReceiveSync interpreter.network chanId.toUInt64.toInt64
      input.syncStack input.syncStart input.syncReads
    return ⟨.ok, interpreter.noteResult Interpreter.errBitSyncTimeout ret, []⟩

end Handlers

/-! ## The interpreter loop -/

/-- `program[program_counter]` -/
def Interpreter.fetch (interpreter : Interpreter) : Exec Instr :=
  match interpreter.program with
  | none => .error (.outOfBounds .program interpreter.programCounter.toNat)
  | some block => block.fetch interpreter.programCounter.toNat

/-- What is fetched stands in the loaded program at the counter. -/
theorem Interpreter.fetch_eq_ok {interpreter : Interpreter} {instr : Instr} :
    interpreter.fetch = .ok instr ↔ ∃ block, interpreter.program = some block ∧
      block.fetch interpreter.programCounter.toNat = .ok instr := by
  unfold Interpreter.fetch
  cases interpreter.program with
  | none => simp
  | some block => simp

/-- The handler that the `switch` of `interpreter_threadfn` selects; none for
END_OF_PROGRAM, which returns, and for the `default` case. -/
def handler? (long : LongWidth) (interpreter : Interpreter) (instr : Instr)
    (input : StepInput) : Opcode → Option (Exec Executed)
  | .nop => some (handleNop interpreter)
  | .goto => some (handleGoto interpreter instr)
  | .future => some (handleFuture interpreter instr input)
  | .halt => some (handleHalt interpreter input long)
  | .wait => some (handleWait interpreter instr input long)
  | .if => some (handleIf interpreter instr)
  | .clearCounter => some (handleClearCounter interpreter instr)
  | .addToCounter => some (handleAddToCounter interpreter instr)
  | .subFromCounter => some (handleSubFromCounter interpreter instr)
  | .setCounter => some (handleSetCounter interpreter instr)
  | .create => some (handleCreate interpreter instr input long)
  | .send => some (handleSend interpreter instr input)
  | .receive => some (handleReceive interpreter instr)
  | .sync => some (handleSync interpreter instr input)
  | .endOfProgram | .mode | .destroy | .handle | .xsend | .backupSend | .backupReceive => none

/-- The value that an instruction without a handler makes the thread return. -/
def exitOf : Option Opcode → ProgramExit
  | some .endOfProgram => .programOk
  | _ => .invalidInstr

/-- The outcome of one iteration: the exit value if the thread returns in it. -/
structure Iteration where
  exit : Option ProgramExit
  interpreter : Interpreter
  events : List Event
  deriving DecidableEq

/-- The `switch` on the result of the instruction. -/
def Executed.handleResult (executed : Executed) : Iteration :=
  match executed.result with
  | .ok =>
      ⟨none, { executed.interpreter with
        programCounter := executed.interpreter.programCounter + 1 }, executed.events⟩
  | .error => ⟨some .programError, executed.interpreter, executed.events⟩
  | .changePc => ⟨none, executed.interpreter, executed.events⟩

namespace Executed

variable (executed : Executed)

@[simp] theorem handleResult_network :
    executed.handleResult.interpreter.network = executed.interpreter.network := by
  unfold handleResult
  split <;> rfl

@[simp] theorem handleResult_variableSpace :
    executed.handleResult.interpreter.variableSpace = executed.interpreter.variableSpace := by
  unfold handleResult
  split <;> rfl

@[simp] theorem handleResult_events : executed.handleResult.events = executed.events := by
  unfold handleResult
  split <;> rfl

end Executed

/-! ### Instructions that steer the program alone -/

/-- The instruction moves the program counter, the futures and the counters alone. -/
def Executed.SteersOnly (interpreter : Interpreter) (executed : Executed) : Prop :=
  ∃ programCounter futureQueue counters, executed.interpreter =
    { interpreter with
      programCounter := programCounter
      futureQueue := futureQueue
      counters := counters }

section Steering

variable {interpreter : Interpreter} {instr : Instr} {input : StepInput} {long : LongWidth}
  {executed : Executed}

theorem handleFuture_steers (done : handleFuture interpreter instr input = .ok executed) :
    executed.SteersOnly interpreter := by
  unfold handleFuture at done
  dsimp only at done
  split at done
  · cases done
    exact ⟨_, _, _, rfl⟩
  · obtain ⟨⟨status, queue⟩, _, finish⟩ := bind_eq_ok.mp done
    cases status <;> cases finish <;> exact ⟨_, _, _, rfl⟩

theorem handleHalt_steers (done : handleHalt interpreter input long = .ok executed) :
    executed.SteersOnly interpreter := by
  obtain ⟨⟨status, head, queue⟩, _, finish⟩ := bind_eq_ok.mp done
  dsimp only at finish
  split at finish
  · split at finish <;> cases finish <;> exact ⟨_, _, _, rfl⟩
  · cases finish
    exact ⟨_, _, _, rfl⟩

theorem handleWait_steers (done : handleWait interpreter instr input long = .ok executed) :
    executed.SteersOnly interpreter := by
  obtain ⟨pushed, hpush, done⟩ := bind_eq_ok.mp done
  have first := handleFuture_steers hpush
  split at done
  · obtain ⟨halted, hhalt, finish⟩ := bind_eq_ok.mp done
    cases finish
    obtain ⟨_, _, _, moved⟩ := first
    obtain ⟨counter, futures, counters, resumed⟩ := handleHalt_steers hhalt
    rw [moved] at resumed
    exact ⟨counter, futures, counters, resumed⟩
  · cases done
    exact first

theorem handleGoto_steers (done : handleGoto interpreter instr = .ok executed) :
    executed.SteersOnly interpreter := by
  unfold handleGoto at done
  dsimp only at done
  split at done <;> cases done <;> exact ⟨_, _, _, rfl⟩

theorem handleIf_steers (done : handleIf interpreter instr = .ok executed) :
    executed.SteersOnly interpreter := by
  obtain ⟨⟨holds, status⟩, _, finish⟩ := bind_eq_ok.mp done
  cases status <;> cases holds <;> cases finish <;> exact ⟨_, _, _, rfl⟩

/-- Storing a counter array, whatever computes it. -/
theorem counters_steer {computed : Exec CounterArray}
    (done : (do let counters ← computed
                return ⟨.ok, { interpreter with counters := counters }, []⟩) =
      (.ok executed : Exec Executed)) : executed.SteersOnly interpreter := by
  obtain ⟨counters, _, finish⟩ := bind_eq_ok.mp done
  cases finish
  exact ⟨_, _, _, rfl⟩

/-- The handlers beside those of CREATE, SEND, RECEIVE and SYNC. -/
theorem handler_steers {opcode : Opcode}
    (selected : handler? long interpreter instr input opcode = some (.ok executed))
    (notCreate : opcode ≠ .create) (notSend : opcode ≠ .send) (notReceive : opcode ≠ .receive)
    (notSync : opcode ≠ .sync) : executed.SteersOnly interpreter := by
  cases opcode with
  | nop =>
      cases selected
      exact ⟨_, _, _, rfl⟩
  | goto => exact handleGoto_steers (Option.some.inj selected)
  | future => exact handleFuture_steers (Option.some.inj selected)
  | halt => exact handleHalt_steers (Option.some.inj selected)
  | wait => exact handleWait_steers (Option.some.inj selected)
  | «if» => exact handleIf_steers (Option.some.inj selected)
  | clearCounter | addToCounter | subFromCounter | setCounter =>
      exact counters_steer (Option.some.inj selected)
  | create => exact absurd rfl notCreate
  | send => exact absurd rfl notSend
  | receive => exact absurd rfl notReceive
  | sync => exact absurd rfl notSync
  | mode | destroy | handle | xsend | backupSend | backupReceive | endOfProgram => cases selected

end Steering

/-! ### One iteration -/

/-- The body of the loop for a fetched instruction. -/
def execute (long : LongWidth) (interpreter : Interpreter) (instr : Instr)
    (input : StepInput) : Exec Iteration :=
  match instr.opcode?.bind (handler? long interpreter instr input) with
  | none => return ⟨some (exitOf instr.opcode?), interpreter, []⟩
  | some handled => do
      let executed ← handled
      return executed.handleResult

theorem execute_of_handler {long : LongWidth} {interpreter : Interpreter} {instr : Instr}
    {input : StepInput} {opcode : Opcode} {handled : Exec Executed}
    (decoded : instr.opcode? = some opcode)
    (selected : handler? long interpreter instr input opcode = some handled) :
    execute long interpreter instr input =
      handled >>= fun executed => pure executed.handleResult := by
  unfold execute
  rw [decoded, Option.bind_some, selected]

/-- An iteration that returns comes from a handler or ends the thread. -/
theorem execute_cases {long : LongWidth} {interpreter : Interpreter} {instr : Instr}
    {input : StepInput} {iteration : Iteration}
    (done : execute long interpreter instr input = .ok iteration) :
    iteration = ⟨some (exitOf instr.opcode?), interpreter, []⟩ ∨
      ∃ opcode executed, instr.opcode? = some opcode ∧
        handler? long interpreter instr input opcode = some (.ok executed) ∧
        iteration = executed.handleResult := by
  unfold execute at done
  split at done
  · cases done
    exact .inl rfl
  · next handled selected =>
      obtain ⟨opcode, decoded, selected⟩ := Option.bind_eq_some_iff.mp selected
      obtain ⟨executed, rfl, finish⟩ := bind_eq_ok.mp done
      cases finish
      exact .inr ⟨opcode, executed, decoded, selected, rfl⟩

/-- The body of the loop of `interpreter_threadfn`. -/
def loopIteration (long : LongWidth) (interpreter : Interpreter) (input : StepInput) :
    Exec Iteration := do
  let instr ← interpreter.fetch
  execute long interpreter instr input

/-! ## Starting and stopping -/

/-- Counters, error bits and network keep what the memory held. -/
def initInterpreter (interpreter : Interpreter) : Interpreter :=
  { interpreter with
    programCounter := 0
    futureQueue := initFutureQueue interpreter.futureQueue
    variableSpace := initVariableSpace interpreter.variableSpace
    thread := none }

/-- `ncm_program_t` -/
structure Program where
  instructions : Option CodeBlock
  length : UInt32
  deriving DecidableEq

/-- `start_interpreter`, with `params->network` for its parameters. -/
def startInterpreter (interpreter : Interpreter) (program : Program) (params : NetParams)
    (env : NetEnv) : Exec Interpreter := do
  let (network, _) ← initNetwork interpreter.network params env
  return { interpreter with
    programCounter := 0
    programLength := program.length
    program := program.instructions
    network := network
    thread := some .created }

/-- The first half of `stop_interpreter`: the network goes first. -/
def stopNetwork (interpreter : Interpreter) : Exec Interpreter := do
  let (network, _) ← destroyNetwork interpreter.network
  return { interpreter with network := network }

/-- The second half of `stop_interpreter`, once `kthread_stop` has returned. -/
def stopThread (interpreter : Interpreter) : Interpreter :=
  { interpreter with thread := none }

end NetworkCode.Kernel
