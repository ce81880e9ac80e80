import NetworkCode.Kernel.FreshMemory
import NetworkCode.Kernel.Resumption

/-!
# Twin interpreters

Two interpreters that differ only in how their rings hold the same futures and
in what their memory held before cannot be told apart: every instruction and
every transition of the module ends alike on them and leaves twins again.
-/

namespace NetworkCode.Kernel

open Library Library.Checked

variable {long : LongWidth}

/-! ## Interpreters that cannot be told apart -/

/-- Two interpreters that differ at most in how the ring holds the futures and
in what the network's memory held. -/
inductive Twins (left : Interpreter) : Interpreter → Prop where
  | intro {queue : FutureQueue maxFutures} {network : Network} {futures : Futures}
      (represents : left.futureQueue.Represents futures) (represents' : queue.Represents futures)
      (same : left.network.Resembles network) :
      Twins left { left with futureQueue := queue, network := network }

/-- Handlers that ended alike, on twins. -/
structure TwinExecuted (left right : Executed) : Prop where
  result : left.result = right.result
  events : left.events = right.events
  twins : Twins left.interpreter right.interpreter

/-- Iterations that ended alike, on twins. -/
structure TwinIteration (left right : Iteration) : Prop where
  exit : left.exit = right.exit
  events : left.events = right.events
  twins : Twins left.interpreter right.interpreter

/-- The same clock readings, driver and whole frames, over any fresh memory. -/
inductive StepInput.Resembles (input : StepInput) : StepInput → Prop where
  | intro (skbMemory syncStack : Nat → UInt8) (whole : ∀ read ∈ input.syncReads, read.1.Whole) :
      Resembles input { input with skbMemory := skbMemory, syncStack := syncStack }

section Handlers

variable {left right : Interpreter} {instr : Instr} {input input' : StepInput}

theorem Twins.represented (twins : Twins left right) :
    ∃ futures, left.futureQueue.Represents futures ∧ right.futureQueue.Represents futures := by
  obtain ⟨represents, represents', -⟩ := twins
  exact ⟨_, represents, represents'⟩

theorem Twins.programLength_eq (twins : Twins left right) :
    right.programLength = left.programLength := by
  cases twins
  rfl

theorem Twins.noteResult (twins : Twins left right) (bit : UInt8) (result : Int) :
    Twins (left.noteResult bit result) (right.noteResult bit result) := by
  obtain ⟨represents, represents', same⟩ := twins
  unfold Interpreter.noteResult
  split
  · exact ⟨represents, represents', same⟩
  · exact ⟨represents, represents', same⟩

theorem TwinExecuted.handleResult {executed executed' : Executed}
    (same : TwinExecuted executed executed') :
    TwinIteration executed.handleResult executed'.handleResult := by
  obtain ⟨result, interpreter, events⟩ := executed
  obtain ⟨result', interpreter', events'⟩ := executed'
  obtain ⟨rfl, rfl, ⟨represents, represents', same⟩⟩ := same
  cases result <;> exact ⟨rfl, rfl, ⟨represents, represents', same⟩⟩

end Handlers

/-! ## Modules that cannot be told apart -/

/-- The same action from outside, over any fresh memory; the files are written alike. -/
inductive Action.Resembles : Action → Action → Prop where
  | storeCode (buf : List UInt8) (memory : Kmalloc) :
      Resembles (.storeCode buf memory) (.storeCode buf memory)
  | storeParams (buf : List UInt8) (nameMemory macMemory : Kmalloc) :
      Resembles (.storeParams buf nameMemory macMemory) (.storeParams buf nameMemory macMemory)
  | storeVar (var : Nat) (buf : List UInt8) : Resembles (.storeVar var buf) (.storeVar var buf)
  | storeControl (buf : List UInt8) {env env' : NetEnv}
      (alike : ∀ params, SetUpAlike params env env') :
      Resembles (.storeControl buf env) (.storeControl buf env')
  | setScheduler (granted : Bool) : Resembles (.setScheduler granted) (.setScheduler granted)
  | instruction {input input' : StepInput} (inputs : input.Resembles input') :
      Resembles (.instruction input) (.instruction input')
  | stopped : Resembles .stopped .stopped
  | arrival {read : SockRead} (whole : read.Whole) (kmalloc kmalloc' : Nat → NcMessage) :
      Resembles (.arrival read kmalloc) (.arrival read kmalloc')

section Modules

variable {left : NcmSysfs} {interpreter : Interpreter}

theorem TwinIteration.resume {iteration iteration' : Iteration}
    (same : TwinIteration iteration iteration') : Twins iteration.resume iteration'.resume := by
  obtain ⟨exit, before, events⟩ := iteration
  obtain ⟨exit', before', events'⟩ := iteration'
  obtain ⟨rfl, rfl, ⟨represents, represents', same⟩⟩ := same
  cases exit <;> exact ⟨represents, represents', same⟩

end Modules

end NetworkCode.Kernel
