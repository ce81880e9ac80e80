import NetworkCode.Kernel.FutureQueueRefinement
import NetworkCode.Kernel.Interpreter

/-!
# What an instruction does to the control state

Fifteen instructions change the program counter or the futures in six ways.
`ControlStep` lists them once, with what each way checks, over the abstract
queue of futures; later results take a step apart with it and unfold no
handler again.
-/

namespace NetworkCode.Kernel

open Library Library.Checked

/-- The futures of the interpreter as an abstract queue. -/
abbrev Futures : Type := AbstractFutures maxFutures

instance : NeZero maxFutures := ⟨by decide⟩

theorem maxFutures_small : maxFutures ≤ 255 := by decide

/-- The program position and the thread: what the loop itself works with. -/
structure Control where
  programCounter : UInt32
  programLength : UInt32
  program : Option CodeBlock
  thread : Option Thread

def Interpreter.control (interpreter : Interpreter) : Control where
  programCounter := interpreter.programCounter
  programLength := interpreter.programLength
  program := interpreter.program
  thread := interpreter.thread

/-- Nothing that concerns the futures. -/
def Silent (events : List Event) : Prop :=
  ∀ event ∈ events, ∃ sent, event = .network sent

theorem silent_nil : Silent [] := by
  intro event member
  cases member

theorem silent_network (events : List NetEvent) : Silent (events.map .network) := by
  intro event member
  obtain ⟨sent, _, rfl⟩ := List.mem_map.mp member
  exact ⟨sent, rfl⟩

/-! ## Instructions that leave the control state alone -/

/-- An instruction that continues with the next one or ends the run. -/
structure Executed.Quiet (before : Interpreter) (executed : Executed) : Prop where
  no_jump : executed.result ≠ .changePc
  control_eq : executed.interpreter.control = before.control
  futureQueue_eq : executed.interpreter.futureQueue = before.futureQueue
  silent : Silent executed.events

/-- The instructions that only work on data. -/
def Opcode.IsData : Opcode → Bool
  | .nop | .clearCounter | .addToCounter | .subFromCounter | .setCounter => true
  | .create | .send | .receive | .sync => true
  | _ => false

section Handlers

variable {interpreter : Interpreter} {instr : Instr} {input : StepInput} {long : LongWidth}
  {executed : Executed}

theorem Interpreter.noteResult_control (bit : UInt8) (result : Int) :
    (interpreter.noteResult bit result).control = interpreter.control := by
  unfold Interpreter.noteResult
  split <;> rfl

theorem handleCreate_quiet (done : handleCreate interpreter instr input long = .ok executed) :
    executed.Quiet interpreter := by
  obtain ⟨network, _, finish⟩ := bind_eq_ok.mp done
  cases finish
  exact ⟨nofun, rfl, rfl, silent_nil⟩

theorem handleSend_quiet (done : handleSend interpreter instr input = .ok executed) :
    executed.Quiet interpreter := by
  obtain ⟨⟨ret, network, events⟩, _, finish⟩ := bind_eq_ok.mp done
  cases finish
  refine ⟨?_, rfl, rfl, silent_network events⟩
  dsimp only
  split <;> nofun

theorem handleReceive_quiet (done : handleReceive interpreter instr = .ok executed) :
    executed.Quiet interpreter := by
  obtain ⟨⟨ret, network, varspace⟩, _, finish⟩ := bind_eq_ok.mp done
  cases finish
  exact ⟨nofun, Interpreter.noteResult_control _ _, Interpreter.noteResult_futureQueue _ _ _,
    silent_nil⟩

theorem handleSync_quiet (done : handleSync interpreter instr input = .ok executed) :
    executed.Quiet interpreter := by
  unfold handleSync at done
  split at done
  · obtain ⟨⟨ret, events⟩, _, finish⟩ := bind_eq_ok.mp done
    cases finish
    exact ⟨nofun, rfl, rfl, silent_network events⟩
  · obtain ⟨⟨ret, armed⟩, _, finish⟩ := bind_eq_ok.mp done
    cases finish
    exact ⟨nofun, Interpreter.noteResult_control _ _, Interpreter.noteResult_futureQueue _ _ _,
      silent_nil⟩

/-- Storing a counter array is quiet, whatever computes it. -/
theorem counters_quiet {computed : Exec CounterArray}
    (done : (do let counters ← computed
                return ⟨.ok, { interpreter with counters := counters }, []⟩) =
      (.ok executed : Exec Executed)) : executed.Quiet interpreter := by
  obtain ⟨counters, _, finish⟩ := bind_eq_ok.mp done
  cases finish
  exact ⟨nofun, rfl, rfl, silent_nil⟩

theorem handler_quiet {opcode : Opcode} {handled : Exec Executed} (data : opcode.IsData)
    (selected : handler? long interpreter instr input opcode = some handled)
    (done : handled = .ok executed) : executed.Quiet interpreter := by
  subst done
  cases opcode <;> cases data
  all_goals have done := Option.some.inj selected
  case nop =>
      cases done
      exact ⟨nofun, rfl, rfl, silent_nil⟩
  case clearCounter => exact counters_quiet done
  case addToCounter => exact counters_quiet done
  case subFromCounter => exact counters_quiet done
  case setCounter => exact counters_quiet done
  case create => exact handleCreate_quiet done
  case send => exact handleSend_quiet done
  case receive => exact handleReceive_quiet done
  case sync => exact handleSync_quiet done

/-! ## Instructions that work with futures and jumps -/

variable {futures : Futures}

theorem handleFuture_outside (outside : instr.arg1 ≥ interpreter.programLength) :
    handleFuture interpreter instr input = .ok ⟨.error, interpreter, []⟩ := by
  unfold handleFuture
  rw [if_pos outside]
  rfl

section Represented

variable (represents : interpreter.futureQueue.Represents futures)

include represents

theorem handleFuture_refused (inside : ¬ instr.arg1 ≥ interpreter.programLength)
    (refused : futures.push (pushedEl instr.arg1 instr.arg0.toUInt64 input.pushClock) =
      none) : handleFuture interpreter instr input = .ok ⟨.error, interpreter, []⟩ := by
  unfold handleFuture
  rw [if_neg inside]
  dsimp only
  rw [pushFuture_refused represents _ _ _ refused]
  rfl

theorem handleFuture_accepted {after : Futures}
    (inside : ¬ instr.arg1 ≥ interpreter.programLength)
    (accepted : futures.push (pushedEl instr.arg1 instr.arg0.toUInt64 input.pushClock) =
      some after) :
    ∃ queue, queue.Represents after ∧ handleFuture interpreter instr input =
      .ok ⟨.ok, { interpreter with futureQueue := queue },
        [.pushed instr.arg1 instr.arg0 input.pushClock]⟩ := by
  obtain ⟨queue, hqueue, represents'⟩ :=
    pushFuture_accepted maxFutures_small represents _ _ _ accepted
  refine ⟨queue, represents', ?_⟩
  unfold handleFuture
  rw [if_neg inside]
  dsimp only
  rw [hqueue]
  rfl

/-- A FUTURE is refused without a change, or its future is inserted. -/
theorem handleFuture_cases (instr : Instr) (input : StepInput) :
    handleFuture interpreter instr input = .ok ⟨.error, interpreter, []⟩ ∨
    ∃ after queue, instr.arg1 < interpreter.programLength ∧
      futures.push (pushedEl instr.arg1 instr.arg0.toUInt64 input.pushClock) =
        some after ∧ queue.Represents after ∧
      handleFuture interpreter instr input =
        .ok ⟨.ok, { interpreter with futureQueue := queue },
          [.pushed instr.arg1 instr.arg0 input.pushClock]⟩ := by
  by_cases outside : instr.arg1 ≥ interpreter.programLength
  · exact .inl (handleFuture_outside outside)
  · cases push : futures.push (pushedEl instr.arg1 instr.arg0.toUInt64 input.pushClock) with
    | none => exact .inl (handleFuture_refused represents outside push)
    | some after =>
        obtain ⟨queue, represents', hpush⟩ := handleFuture_accepted represents outside push
        exact .inr ⟨after, queue, by simpa using outside, rfl, represents', hpush⟩

/-- The event of a HALT that takes a future. -/
def resumption (long : LongWidth) (el : FutureQueueEl) (input : StepInput) : Event :=
  .resumed el input.haltClock ((el.expiry - input.haltClock).toNat % 2 ^ long.bits)
    input.wakeClock

theorem handleHalt_refused (refused : futures.pop = none) :
    handleHalt interpreter input long = .ok ⟨.error, interpreter, []⟩ := by
  unfold handleHalt
  rw [popFuture_refused represents refused]
  rfl

theorem handleHalt_accepted (input : StepInput) (long : LongWidth) {el : FutureQueueEl}
    {after : Futures} (accepted : futures.pop = some (el, after)) :
    ∃ queue, queue.Represents after ∧ handleHalt interpreter input long =
      .ok ⟨.changePc, { interpreter with futureQueue := queue, programCounter := el.jmpAddress },
        [resumption long el input]⟩ := by
  obtain ⟨queue, hqueue, represents'⟩ := popFuture_accepted maxFutures_small represents accepted
  refine ⟨queue, represents', ?_⟩
  have never : ¬ el.expiry - input.haltClock < 0 := UInt64.not_lt_zero
  unfold handleHalt
  rw [hqueue]
  simp only [ok_bind, if_neg never]
  rfl

omit represents in
/-- A WAIT whose FUTURE is refused is refused. -/
theorem handleWait_refused (long : LongWidth)
    (refused : handleFuture interpreter instr input = .ok ⟨.error, interpreter, []⟩) :
    handleWait interpreter instr input long = .ok ⟨.error, interpreter, []⟩ := by
  unfold handleWait
  rw [refused]
  rfl

/-- A WAIT whose FUTURE is accepted goes on at the first future. -/
theorem handleWait_accepted (long : LongWidth) {middle after : Futures} {el : FutureQueueEl}
    (inside : ¬ instr.arg1 ≥ interpreter.programLength)
    (push : futures.push (pushedEl instr.arg1 instr.arg0.toUInt64 input.pushClock) = some middle)
    (pop : middle.pop = some (el, after)) :
    ∃ queue, queue.Represents after ∧ handleWait interpreter instr input long =
      .ok ⟨.changePc, { interpreter with futureQueue := queue, programCounter := el.jmpAddress },
        [.pushed instr.arg1 instr.arg0 input.pushClock, resumption long el input]⟩ := by
  obtain ⟨queue, represents', pushed⟩ := handleFuture_accepted represents inside push
  have halted : ∃ queue', queue'.Represents after ∧
      handleHalt { interpreter with futureQueue := queue } input long =
        .ok ⟨.changePc, { interpreter with
          futureQueue := queue', programCounter := el.jmpAddress },
          [resumption long el input]⟩ := handleHalt_accepted represents' input long pop
  obtain ⟨queue', represents'', resumed⟩ := halted
  refine ⟨queue', represents'', ?_⟩
  unfold handleWait
  rw [pushed]
  simp only [ok_bind, resumed]
  rfl

/-- A WAIT is refused with its FUTURE, or goes on at the first future. -/
theorem handleWait_cases (instr : Instr) (input : StepInput) (long : LongWidth) :
    handleWait interpreter instr input long = .ok ⟨.error, interpreter, []⟩ ∧
        handleFuture interpreter instr input = .ok ⟨.error, interpreter, []⟩ ∨
      ∃ middle el after queue, instr.arg1 < interpreter.programLength ∧
        futures.push (pushedEl instr.arg1 instr.arg0.toUInt64 input.pushClock) = some middle ∧
        middle.pop = some (el, after) ∧ queue.Represents after ∧
        handleWait interpreter instr input long =
          .ok ⟨.changePc, { interpreter with
            futureQueue := queue, programCounter := el.jmpAddress },
            [.pushed instr.arg1 instr.arg0 input.pushClock, resumption long el input]⟩ := by
  rcases handleFuture_cases represents instr input with
    refused | ⟨middle, _, inside, push, _, _⟩
  · exact .inl ⟨handleWait_refused long refused, refused⟩
  · obtain ⟨el, after, pop⟩ := BoundedQueue.pop_push push
    obtain ⟨queue, represents', waited⟩ :=
      handleWait_accepted represents long (UInt32.not_le.mpr inside) push pop
    exact .inr ⟨middle, el, after, queue, inside, push, pop, represents', waited⟩

end Represented

/-! ## The six ways -/

/-- The effect of one instruction on the control state and on the futures. -/
inductive ControlStep (long : LongWidth) (interpreter : Interpreter) (futures : Futures)
    (instr : Instr) (input : StepInput) : Iteration → Futures → Prop where
  /-- The thread returns. -/
  | exits {iteration : Iteration} (exit : iteration.exit ≠ none)
      (control : iteration.interpreter.control = interpreter.control)
      (silent : Silent iteration.events) :
      ControlStep long interpreter futures instr input iteration futures
  /-- A data instruction, or an IF whose guard is false. -/
  | falls {iteration : Iteration} (opcode : Opcode) (decoded : instr.opcode? = some opcode)
      (cause : opcode.IsData ∨ opcode = .if ∧
        testGuard interpreter instr.arg0 instr.arg2 instr.arg3 = .ok (false, .guardOk))
      (exit : iteration.exit = none)
      (control : iteration.interpreter.control =
        { interpreter.control with programCounter := interpreter.programCounter + 1 })
      (silent : Silent iteration.events) :
      ControlStep long interpreter futures instr input iteration futures
  | jumps {iteration : Iteration} (target : UInt32)
      (cause : instr.opcode? = some .goto ∧ target = instr.arg0 ∧
          target < interpreter.programLength ∨
        instr.opcode? = some .if ∧ target = instr.arg1 ∧
          testGuard interpreter instr.arg0 instr.arg2 instr.arg3 = .ok (true, .guardOk))
      (exit : iteration.exit = none)
      (control : iteration.interpreter.control =
        { interpreter.control with programCounter := target })
      (silent : Silent iteration.events) :
      ControlStep long interpreter futures instr input iteration futures
  | pushes {iteration : Iteration} {after : Futures}
      (decoded : instr.opcode? = some .future)
      (accepted : instr.arg1 < interpreter.programLength)
      (push : futures.push (pushedEl instr.arg1 instr.arg0.toUInt64 input.pushClock) =
        some after)
      (exit : iteration.exit = none)
      (control : iteration.interpreter.control =
        { interpreter.control with programCounter := interpreter.programCounter + 1 })
      (events : iteration.events = [.pushed instr.arg1 instr.arg0 input.pushClock]) :
      ControlStep long interpreter futures instr input iteration after
  | resumes {iteration : Iteration} {el : FutureQueueEl} {after : Futures}
      (decoded : instr.opcode? = some .halt)
      (pop : futures.pop = some (el, after))
      (exit : iteration.exit = none)
      (control : iteration.interpreter.control =
        { interpreter.control with programCounter := el.jmpAddress })
      (events : iteration.events = [resumption long el input]) :
      ControlStep long interpreter futures instr input iteration after
  | waits {iteration : Iteration} {el : FutureQueueEl} {middle after : Futures}
      (decoded : instr.opcode? = some .wait)
      (accepted : instr.arg1 < interpreter.programLength)
      (push : futures.push (pushedEl instr.arg1 instr.arg0.toUInt64 input.pushClock) =
        some middle)
      (pop : middle.pop = some (el, after))
      (exit : iteration.exit = none)
      (control : iteration.interpreter.control =
        { interpreter.control with programCounter := el.jmpAddress })
      (events : iteration.events =
        [.pushed instr.arg1 instr.arg0 input.pushClock, resumption long el input]) :
      ControlStep long interpreter futures instr input iteration after

/-- An iteration changes nothing but the counter. -/
theorem ControlStep.control_eq {iteration : Iteration} {after : Futures}
    (controlStep : ControlStep long interpreter futures instr input iteration after) :
    iteration.interpreter.control =
      { interpreter.control with programCounter := iteration.interpreter.programCounter } := by
  have counter {target : UInt32} (control : iteration.interpreter.control =
      { interpreter.control with programCounter := target }) :
      iteration.interpreter.control =
        { interpreter.control with programCounter := iteration.interpreter.programCounter } := by
    rw [show iteration.interpreter.programCounter = target from
      congrArg Control.programCounter control]
    exact control
  cases controlStep with
  | exits _ control => exact counter control
  | falls _ _ _ _ control => exact counter control
  | jumps _ _ _ control => exact counter control
  | pushes _ _ _ _ control => exact counter control
  | resumes _ _ _ control => exact counter control
  | waits _ _ _ _ _ control => exact counter control

theorem ControlStep.thread_eq {iteration : Iteration} {after : Futures}
    (controlStep : ControlStep long interpreter futures instr input iteration after) :
    iteration.interpreter.thread = interpreter.thread :=
  congrArg Control.thread controlStep.control_eq

theorem ControlStep.program_eq {iteration : Iteration} {after : Futures}
    (controlStep : ControlStep long interpreter futures instr input iteration after) :
    iteration.interpreter.program = interpreter.program :=
  congrArg Control.program controlStep.control_eq

theorem ControlStep.programLength_eq {iteration : Iteration} {after : Futures}
    (controlStep : ControlStep long interpreter futures instr input iteration after) :
    iteration.interpreter.programLength = interpreter.programLength :=
  congrArg Control.programLength controlStep.control_eq

/-- What holds of an iteration from a state whose ring represents `futures`. -/
def Controlled (long : LongWidth) (interpreter : Interpreter) (futures : Futures)
    (instr : Instr) (input : StepInput) (iteration : Iteration) : Prop :=
  ∃ after, ControlStep long interpreter futures instr input iteration after ∧
    iteration.interpreter.futureQueue.Represents after

theorem handleResult_data {opcode : Opcode} (decoded : instr.opcode? = some opcode)
    (data : opcode.IsData) (quiet : executed.Quiet interpreter)
    (represents : interpreter.futureQueue.Represents futures) :
    Controlled long interpreter futures instr input executed.handleResult := by
  obtain ⟨result, middle, events⟩ := executed
  obtain ⟨no_jump, control, queue, silent⟩ := quiet
  have represents' : middle.futureQueue.Represents futures := by
    rw [show middle.futureQueue = interpreter.futureQueue from queue]
    exact represents
  cases result with
  | ok =>
      refine ⟨futures, .falls opcode decoded (.inl data) rfl ?_ silent, represents'⟩
      have counter := congrArg Control.programCounter control
      simp only [Interpreter.control] at counter control
      simp only [Executed.handleResult, Interpreter.control, counter]
      rw [Control.mk.injEq] at control
      simp [control]
  | error => exact ⟨futures, .exits nofun control silent, represents'⟩
  | changePc => exact (no_jump rfl).elim

/-- An instruction that stops the run without touching the interpreter. -/
theorem controlled_stop (code : ProgramExit)
    (represents : interpreter.futureQueue.Represents futures) :
    Controlled long interpreter futures instr input ⟨some code, interpreter, []⟩ :=
  ⟨futures, .exits nofun rfl silent_nil, represents⟩

theorem handleGoto_controlled (decoded : instr.opcode? = some .goto)
    (represents : interpreter.futureQueue.Represents futures)
    (done : handleGoto interpreter instr = .ok executed) :
    Controlled long interpreter futures instr input executed.handleResult := by
  unfold handleGoto at done
  dsimp only at done
  split at done
  · cases done
    exact controlled_stop _ represents
  · next inside =>
      cases done
      exact ⟨futures, .jumps instr.arg0 (.inl ⟨decoded, rfl, by simpa using inside⟩) rfl rfl
        silent_nil, represents⟩

theorem handleIf_controlled (decoded : instr.opcode? = some .if)
    (represents : interpreter.futureQueue.Represents futures)
    (done : handleIf interpreter instr = .ok executed) :
    Controlled long interpreter futures instr input executed.handleResult := by
  obtain ⟨⟨holds, status⟩, tested, finish⟩ := bind_eq_ok.mp done
  cases status with
  | invalidGuard =>
      cases finish
      exact controlled_stop _ represents
  | guardOk =>
      cases holds with
      | true =>
          cases finish
          exact ⟨futures, .jumps instr.arg1 (.inr ⟨decoded, rfl, tested⟩) rfl rfl silent_nil,
            represents⟩
      | false =>
          cases finish
          exact ⟨futures, .falls .if decoded (.inr ⟨rfl, tested⟩) rfl rfl silent_nil,
            represents⟩

theorem handleFuture_controlled (decoded : instr.opcode? = some .future)
    (represents : interpreter.futureQueue.Represents futures)
    (done : handleFuture interpreter instr input = .ok executed) :
    Controlled long interpreter futures instr input executed.handleResult := by
  rcases handleFuture_cases represents instr input with
    refused | ⟨after, queue, accepted, push, represents', hpush⟩
  · cases refused.symm.trans done
    exact controlled_stop _ represents
  · cases hpush.symm.trans done
    exact ⟨after, .pushes decoded accepted push rfl rfl rfl, represents'⟩

theorem handleHalt_controlled (decoded : instr.opcode? = some .halt)
    (represents : interpreter.futureQueue.Represents futures)
    (done : handleHalt interpreter input long = .ok executed) :
    Controlled long interpreter futures instr input executed.handleResult := by
  cases pop : futures.pop with
  | none =>
      cases (handleHalt_refused represents pop).symm.trans done
      exact controlled_stop _ represents
  | some taken =>
      obtain ⟨el, after⟩ := taken
      obtain ⟨queue, represents', hpop⟩ := handleHalt_accepted represents input long pop
      cases hpop.symm.trans done
      exact ⟨after, .resumes decoded pop rfl rfl rfl, represents'⟩

theorem handleWait_controlled (decoded : instr.opcode? = some .wait)
    (represents : interpreter.futureQueue.Represents futures)
    (done : handleWait interpreter instr input long = .ok executed) :
    Controlled long interpreter futures instr input executed.handleResult := by
  rcases handleWait_cases represents instr input long with
    ⟨refused, _⟩ | ⟨middle, el, after, queue, inside, push, pop, represents', waited⟩
  · cases refused.symm.trans done
    exact controlled_stop _ represents
  · cases waited.symm.trans done
    exact ⟨after, .waits decoded inside push pop rfl rfl rfl, represents'⟩

theorem handler_controlled {opcode : Opcode} {handled : Exec Executed}
    (decoded : instr.opcode? = some opcode)
    (represents : interpreter.futureQueue.Represents futures)
    (selected : handler? long interpreter instr input opcode = some handled)
    (ran : handled = .ok executed) :
    Controlled long interpreter futures instr input executed.handleResult := by
  cases opcode with
  | future => cases selected; exact handleFuture_controlled decoded represents ran
  | halt => cases selected; exact handleHalt_controlled decoded represents ran
  | wait => cases selected; exact handleWait_controlled decoded represents ran
  | goto => cases selected; exact handleGoto_controlled decoded represents ran
  | «if» => cases selected; exact handleIf_controlled decoded represents ran
  | nop | clearCounter | addToCounter | subFromCounter | setCounter | create | send | receive
  | sync => exact handleResult_data decoded rfl (handler_quiet rfl selected ran) represents
  | mode | destroy | handle | xsend | backupSend | backupReceive | endOfProgram =>
      cases selected

theorem execute_controlled {iteration : Iteration}
    (represents : interpreter.futureQueue.Represents futures)
    (done : execute long interpreter instr input = .ok iteration) :
    Controlled long interpreter futures instr input iteration := by
  rcases execute_cases done with rfl | ⟨opcode, executed, decoded, selected, rfl⟩
  · exact controlled_stop _ represents
  · exact handler_controlled decoded represents selected rfl

end Handlers

end NetworkCode.Kernel
