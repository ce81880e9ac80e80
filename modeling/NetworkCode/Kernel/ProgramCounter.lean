import NetworkCode.Kernel.Resumption
import NetworkCode.Kernel.Transmission

/-!
# The program counter

The loop reads `program[program_counter]` without a check.  What keeps the
counter inside the program is a condition on the program and on the state it
is started in; under it an invariant over counter, parked futures and program
holds over whole runs and restarts.
-/

namespace NetworkCode.Kernel

open Library Library.Checked

/-- The instruction ends with `INSTR_OK`, so that the counter is incremented. -/
def FallsThrough (interpreter : Interpreter) (instr : Instr) (input : StepInput) :
    Option Opcode → Prop
  | some .future => instr.arg1 < interpreter.programLength ∧
      interpreter.futureQueue.length.toNat ≠ maxFutures
  | some .if => testGuard interpreter instr.arg0 instr.arg2 instr.arg3 =
      .ok (false, .guardOk)
  | some .send => SendAccepted interpreter.network instr.arg0.toNat instr.arg1.toNat
      input.txStatus
  | some opcode => opcode.IsData
  | none => False

/-- The jumps of the instruction that the handlers let through, and the fall
through, stay below `records`. -/
structure StaysInside (records : Nat) (interpreter : Interpreter) (instr : Instr)
    (input : StepInput) : Prop where
  parked : instr.opcode? = some .future ∨ instr.opcode? = some .wait →
    instr.arg1 < interpreter.programLength →
    interpreter.futureQueue.length.toNat ≠ maxFutures → instr.arg1.toNat < records
  goto : instr.opcode? = some .goto → instr.arg0 < interpreter.programLength →
    instr.arg0.toNat < records
  branch : instr.opcode? = some .if →
    testGuard interpreter instr.arg0 instr.arg2 instr.arg3 = .ok (true, .guardOk) →
    instr.arg1.toNat < records
  next : FallsThrough interpreter instr input instr.opcode? →
    (interpreter.programCounter + 1).toNat < records

/-- The program has a first record, and so has each target of a future that
an earlier run has left. -/
structure StartsInside (records : Nat) (interpreter : Interpreter) : Prop where
  nonempty : 0 < records
  leftover : ∀ el ∈ interpreter.futureQueue.live, el.jmpAddress.toNat < records

/-- The condition on a transition under which the counter stays inside. -/
def InsideCondition (sysfs : NcmSysfs) (label : Action × List Observation) : Prop :=
  match label.1 with
  | .storeControl buf _ => buf.take 3 = runCommand → Startable sysfs →
      ∀ block, sysfs.program.instructions = some block →
        StartsInside block.records sysfs.ncmInterp
  | .instruction input => ∀ block instr, sysfs.ncmInterp.program = some block →
      sysfs.ncmInterp.fetch = .ok instr →
      StaysInside block.records sysfs.ncmInterp instr input
  | _ => True

/-- The thread is about to fetch, now or once it is scheduled. -/
def Interpreter.Active (interpreter : Interpreter) : Prop :=
  interpreter.thread = some .created ∨ interpreter.thread = some .looping

theorem not_active_of_none {interpreter : Interpreter} (none_left : interpreter.thread = none) :
    ¬ interpreter.Active := by
  rintro (created | looping)
  · cases none_left.symm.trans created
  · cases none_left.symm.trans looping

theorem not_active_of_returned {interpreter : Interpreter} {exit : ProgramExit}
    (returned : interpreter.thread = some (.returned exit)) : ¬ interpreter.Active := by
  rintro (created | looping)
  · cases returned.symm.trans created
  · cases returned.symm.trans looping

/-- The counter and all parked futures lie inside the program. -/
structure Inside (interpreter : Interpreter) (block : CodeBlock) : Prop where
  program_eq : interpreter.program = some block
  counter_lt : interpreter.programCounter.toNat < block.records
  parked_lt : ∀ el ∈ interpreter.futureQueue.live, el.jmpAddress.toNat < block.records

structure CounterInvariant (interpreter : Interpreter) : Prop where
  represented : ∃ futures, interpreter.futureQueue.Represents futures
  inside : interpreter.Active → ∃ block, Inside interpreter block

variable {long : LongWidth}

/-- The invariant looks only at control state and futures. -/
theorem CounterInvariant.congr {before after : Interpreter} (invariant : CounterInvariant before)
    (control : after.control = before.control)
    (queue : after.futureQueue = before.futureQueue) : CounterInvariant after := by
  have counter : after.programCounter = before.programCounter :=
    congrArg Control.programCounter control
  have program : after.program = before.program := congrArg Control.program control
  have thread : after.thread = before.thread := congrArg Control.thread control
  refine ⟨queue ▸ invariant.represented, fun active => ?_⟩
  obtain ⟨block, inside⟩ := invariant.inside (by rwa [Interpreter.Active, thread] at active)
  exact ⟨block, program ▸ inside.program_eq, counter ▸ inside.counter_lt,
    queue ▸ inside.parked_lt⟩

theorem CounterInvariant.of_idle {interpreter : Interpreter}
    (represented : ∃ futures, interpreter.futureQueue.Represents futures)
    (idle : ¬ interpreter.Active) : CounterInvariant interpreter :=
  ⟨represented, fun active => (idle active).elim⟩

section Iterations

variable {interpreter : Interpreter} {instr : Instr} {input : StepInput} {iteration : Iteration}

/-- A SEND that does not end the run has been accepted. -/
theorem send_fallsThrough (decoded : instr.opcode? = some .send)
    (done : execute long interpreter instr input = .ok iteration) (exit : iteration.exit = none) :
    SendAccepted interpreter.network instr.arg0.toNat instr.arg1.toNat input.txStatus := by
  rw [execute_of_handler decoded rfl] at done
  obtain ⟨executed, ran, finish⟩ := bind_eq_ok.mp done
  obtain ⟨⟨ret, network, events⟩, sent, built⟩ := bind_eq_ok.mp ran
  cases built
  cases finish
  by_cases nonneg : ret ≥ 0
  · exact sendAccepted_of_nonneg sent nonneg
  · simp [Executed.handleResult, nonneg] at exit

theorem data_fallsThrough {opcode : Opcode} (decoded : instr.opcode? = some opcode)
    (data : opcode.IsData) (done : execute long interpreter instr input = .ok iteration)
    (exit : iteration.exit = none) : FallsThrough interpreter instr input instr.opcode? := by
  rw [decoded]
  cases opcode with
  | send => exact send_fallsThrough decoded done exit
  | nop | clearCounter | addToCounter | subFromCounter | setCounter | create | receive | sync =>
      exact data
  | future | halt | «if» | mode | destroy | handle | goto | wait | xsend | backupSend
  | backupReceive | endOfProgram => cases data

theorem room_of_push {futures after : Futures} {el : FutureQueueEl}
    (represents : interpreter.futureQueue.Represents futures)
    (push : futures.push el = some after) :
    interpreter.futureQueue.length.toNat ≠ maxFutures := by
  intro full
  rw [← FutureQueue.live_length, represents.live_eq] at full
  rw [(futures.push_eq_none_iff _).mpr full] at push
  cases push

/-- All futures of a queue jump to addresses with a property. -/
def JumpTo (targets : UInt32 → Prop) (futures : Futures) : Prop :=
  ∀ el ∈ futures.contents, targets el.jmpAddress

/-- All jumps of a future queue lie inside the program. -/
def ParkedInside (records : Nat) (futures : Futures) : Prop :=
  ∀ el ∈ futures.contents, el.jmpAddress.toNat < records

section Parked

variable {targets : UInt32 → Prop} {records : Nat} {futures after : Futures} {el : FutureQueueEl}

theorem JumpTo.push (parked : JumpTo targets futures) (push : futures.push el = some after)
    (target : targets el.jmpAddress) : JumpTo targets after := by
  intro other member
  rw [BoundedQueue.contents_push push] at member
  rcases mem_insertAfter.mp member with rfl | old
  · exact target
  · exact parked other old

theorem JumpTo.pop (parked : JumpTo targets futures) (pop : futures.pop = some (el, after)) :
    targets el.jmpAddress ∧ JumpTo targets after := by
  rw [JumpTo, BoundedQueue.contents_pop pop] at parked
  exact List.forall_mem_cons.mp parked

theorem ParkedInside.push (parked : ParkedInside records futures)
    (push : futures.push el = some after) (target_lt : el.jmpAddress.toNat < records) :
    ParkedInside records after := by
  have jumps : JumpTo (fun target => target.toNat < records) futures := parked
  exact jumps.push push target_lt

theorem ParkedInside.pop (parked : ParkedInside records futures)
    (pop : futures.pop = some (el, after)) :
    el.jmpAddress.toNat < records ∧ ParkedInside records after := by
  have jumps : JumpTo (fun target => target.toNat < records) futures := parked
  exact jumps.pop pop

end Parked

/-- Where only the counter has changed, it is enough that the new one lies inside. -/
theorem Inside.move {block : CodeBlock} {target : UInt32} {after : Interpreter} {futures : Futures}
    (inside : Inside interpreter block) (represents : after.futureQueue.Represents futures)
    (control : after.control = { interpreter.control with programCounter := target })
    (target_lt : target.toNat < block.records) (parked : ParkedInside block.records futures) :
    Inside after block where
  program_eq := (congrArg Control.program control).trans inside.program_eq
  counter_lt := by
    rw [show after.programCounter = target from congrArg Control.programCounter control]
    exact target_lt
  parked_lt := by
    rw [represents.live_eq]
    exact parked

/-- Each way to continue keeps the counter and the parked futures inside. -/
theorem ControlStep.stays_inside {block : CodeBlock} {futures after : Futures}
    (controlStep : ControlStep long interpreter futures instr input iteration after)
    (done : execute long interpreter instr input = .ok iteration)
    (represents : interpreter.futureQueue.Represents futures)
    (represents' : iteration.interpreter.futureQueue.Represents after)
    (inside : Inside interpreter block)
    (condition : StaysInside block.records interpreter instr input)
    (continues : iteration.exit = none) : Inside iteration.interpreter block := by
  have parked : ParkedInside block.records futures := by
    rw [ParkedInside, ← represents.live_eq]
    exact inside.parked_lt
  cases controlStep with
  | exits exit => exact (exit continues).elim
  | falls opcode decoded cause exit control =>
      refine inside.move represents' control (condition.next ?_) parked
      rcases cause with data | ⟨rfl, tested⟩
      · exact data_fallsThrough decoded data done exit
      · rw [decoded]
        exact tested
  | jumps target cause exit control =>
      refine inside.move represents' control ?_ parked
      rcases cause with ⟨decoded, rfl, accepted⟩ | ⟨decoded, rfl, tested⟩
      · exact condition.goto decoded accepted
      · exact condition.branch decoded tested
  | pushes decoded accepted push exit control =>
      have room := room_of_push represents push
      have target_lt := condition.parked (.inl decoded) accepted room
      refine inside.move represents' control (condition.next ?_) (parked.push push target_lt)
      rw [decoded]
      exact ⟨accepted, room⟩
  | resumes decoded pop exit control =>
      obtain ⟨target_lt, parked'⟩ := parked.pop pop
      exact inside.move represents' control target_lt parked'
  | waits decoded accepted push pop exit control =>
      have room := room_of_push represents push
      have pushed_lt := condition.parked (.inr decoded) accepted room
      obtain ⟨target_lt, parked'⟩ := (parked.push push pushed_lt).pop pop
      exact inside.move represents' control target_lt parked'

end Iterations

theorem CounterInvariant.iterate {sysfs : NcmSysfs} {instr : Instr} {input : StepInput}
    {iteration : Iteration} (invariant : CounterInvariant sysfs.ncmInterp)
    (condition : InsideCondition sysfs (.instruction input, iteration.observations))
    (looping : sysfs.ncmInterp.thread = some .looping)
    (fetched : sysfs.ncmInterp.fetch = .ok instr)
    (done : execute long sysfs.ncmInterp instr input = .ok iteration) :
    CounterInvariant iteration.resume := by
  obtain ⟨futures, represents⟩ := invariant.represented
  obtain ⟨after, controlStep, represents'⟩ := execute_controlled represents done
  obtain ⟨block, inside⟩ := invariant.inside (.inr looping)
  refine ⟨⟨after, by rwa [resume_futureQueue]⟩, fun active => ⟨block, ?_⟩⟩
  cases continues : iteration.exit with
  | some exit =>
      rw [Iteration.resume, continues] at active
      exact (not_active_of_returned rfl active).elim
  | none =>
      rw [Iteration.resume, continues]
      exact controlStep.stays_inside done represents represents' inside
        (condition block instr inside.program_eq fetched) continues

theorem Moves.counterInvariant {sysfs : NcmSysfs} {action : Action} {shown : List Observation}
    {interpreter : Interpreter} (moves : Moves long sysfs action shown interpreter)
    (invariant : CounterInvariant sysfs.ncmInterp)
    (condition : InsideCondition sysfs (action, shown)) : CounterInvariant interpreter := by
  cases moves with
  | stays => exact invariant
  | writes => exact invariant.congr rfl rfl
  | tearsDown => exact invariant.congr rfl rfl
  | receives => exact invariant.congr rfl rfl
  | starts command startable =>
      refine ⟨invariant.represented, fun _ => ?_⟩
      cases hprogram : sysfs.program.instructions with
      | none => exact (startable.2.1 hprogram).elim
      | some block =>
          have start := condition command startable block hprogram
          exact ⟨block, rfl, start.nonempty, start.leftover⟩
  | @schedules granted _ created =>
      cases granted with
      | true =>
          refine ⟨invariant.represented, fun _ => ?_⟩
          obtain ⟨block, inside⟩ := invariant.inside (.inl created)
          exact ⟨block, inside.program_eq, inside.counter_lt, inside.parked_lt⟩
      | false => exact .of_idle invariant.represented (not_active_of_returned rfl)
  | iterates looping fetched done => exact invariant.iterate condition looping fetched done
  | joins => exact .of_idle invariant.represented (not_active_of_none rfl)

theorem step_counterInvariant (before : NcmSysfs) (label : Action × List Observation)
    (after : NcmSysfs) (invariant : CounterInvariant before.ncmInterp)
    (hstep : Meeting (Step long) InsideCondition before label after) :
    CounterInvariant after.ncmInterp :=
  (step_moves hstep.2).counterInvariant invariant hstep.1

/--
In every run whose steps meet the condition, whatever is loaded, stopped and
started again in between, the looping thread reads an existing record.
-/
theorem programCounter_inside {labels : List (Action × List Observation)} {sysfs : NcmSysfs}
    (run : Run (Meeting (Step long) InsideCondition) initModule labels sysfs)
    (looping : sysfs.ncmInterp.thread = some .looping) :
    ∃ block, sysfs.ncmInterp.program = some block ∧
      sysfs.ncmInterp.programCounter.toNat < block.records := by
  have initial : CounterInvariant initModule.ncmInterp :=
    .of_idle ⟨_, initModule_represents⟩ (not_active_of_none rfl)
  have invariant : CounterInvariant sysfs.ncmInterp :=
    run.invariant (fun sysfs => CounterInvariant sysfs.ncmInterp) step_counterInvariant initial
  obtain ⟨block, inside⟩ := invariant.inside (.inr looping)
  exact ⟨block, inside.program_eq, inside.counter_lt⟩

/-- A program of one record that jumps to itself runs inside. -/
theorem programCounter_inside_loop :
    ∃ labels sysfs, Run (Meeting (Step .bits64) InsideCondition) initModule labels sysfs ∧
      labels.length = 5 ∧
      ∃ block, sysfs.ncmInterp.program = some block ∧
        sysfs.ncmInterp.programCounter.toNat < block.records := by
  have run : ∃ labels sysfs,
      Run (Meeting (Step .bits64) InsideCondition) initModule labels sysfs ∧
        labels.length = 5 ∧ sysfs.ncmInterp.thread = some .looping := by
    have loaded : Run (Meeting (Step .bits64) InsideCondition) initModule [] initModule :=
      .refl _
    have stored := run_advance
      (.storeCode (CodeBlock.ofInstrs [.make .goto 0 0 0 0]).bytes (some fun _ => 0))
      loaded rfl trivial
    have configured := run_advance
      (.storeParams noChannels (some fun _ => 0) (some fun _ => 0)) stored rfl trivial
    have started := run_advance (.storeControl runCommand .bare) configured rfl
      fun _ _ block loaded => by cases loaded; exact ⟨by decide, nofun⟩
    have scheduled := run_advance (.setScheduler true) started rfl trivial
    have jumped := run_advance (.instruction (.atClock 0 0 0)) scheduled rfl
      fun block instr loaded fetched => by
        cases loaded; cases fetched; exact ⟨by decide, by decide, by decide, nofun⟩
    exact ⟨_, _, jumped, rfl, rfl⟩
  obtain ⟨labels, sysfs, run, length, looping⟩ := run
  exact ⟨labels, sysfs, run, length, programCounter_inside run looping⟩

/-- GOTO 5 in a program of one record: the handler compares with the length in
bytes, and the counter leaves the program. -/
theorem programCounter_outside :
    ¬ ∀ (long : LongWidth) (labels : List (Action × List Observation)) (sysfs : NcmSysfs),
      Run (Step long) initModule labels sysfs → sysfs.ncmInterp.thread = some .looping →
      ∃ block, sysfs.ncmInterp.program = some block ∧
        sysfs.ncmInterp.programCounter.toNat < block.records := by
  intro claim
  have done : ∃ labels sysfs,
      runFromInit .bits64 (loadAndRun [.make .goto 5 0 0 0] noChannels .bare ++
        [.instruction (.atClock 0 0 0)]) = .ok (sysfs, labels) ∧
      sysfs.ncmInterp.thread = some .looping ∧
      sysfs.ncmInterp.program = some (CodeBlock.ofInstrs [.make .goto 5 0 0 0]) ∧
      sysfs.ncmInterp.programCounter = 5 :=
    ⟨_, _, rfl, rfl, rfl, rfl⟩
  obtain ⟨labels, sysfs, done, looping, loaded, counter⟩ := done
  obtain ⟨block, hblock, inside⟩ := claim _ labels sysfs (run_of_runFromInit done) looping
  rw [loaded] at hblock
  cases hblock
  rw [counter] at inside
  exact absurd inside (by decide)

end NetworkCode.Kernel
