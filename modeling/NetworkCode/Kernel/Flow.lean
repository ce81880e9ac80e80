import NetworkCode.Kernel.Counters
import NetworkCode.Kernel.Pace
import NetworkCode.Library.Annotations
import Mathlib.Data.Multiset.AddSub

/-!
# The flow of a program

Seen at its place, the addresses of its pending futures and its counters, a
thread is a small machine: it knows nothing of the files, the network, the
clock and the order of the futures, and leaves open what depends on them.  From
one start to the next every run of the module is a run of that machine.
-/

namespace NetworkCode.Kernel

open Library Library.Checked

/-- Where a thread stands. -/
structure Position where
  place : UInt32
  /-- The jump addresses of the futures. -/
  pending : Multiset UInt32
  counters : CounterArray
  deriving DecidableEq

def Interpreter.position (interpreter : Interpreter) : Position where
  place := interpreter.programCounter
  pending := (interpreter.futureQueue.live.map FutureQueueEl.jmpAddress : List UInt32)
  counters := interpreter.counters

/-- What the counters tell of the outcome of a guard. -/
def Guard.MayBe (counters : CounterArray) (arg0 arg1 : UInt32) (holds : Bool) : Guard → Prop
  | .alwaysTrue => holds = true
  | .alwaysFalse | .sendBufferEmpty | .varQueueEmpty | .varQueueFull => holds = false
  | .testCount => ∃ inside : arg0.toNat < maxCounters, holds = decide (counters[arg0.toNat] = arg1)
  | .channelXyRcvBufEmpty | .statusTest | .equalVarVar | .greaterVarVar | .lessVarVar
  | .testVar => True

/-- One instruction of the program, from one position to the next. -/
inductive Flows (block : CodeBlock) (position : Position) : UInt32 → Position → Prop where
  | works {instr : Instr} {opcode : Opcode} {counters : CounterArray}
      (fetched : block.fetch position.place.toNat = .ok instr)
      (decoded : instr.opcode? = some opcode) (data : opcode.IsData)
      (counted : instr.count position.counters opcode = .ok counters) :
      Flows block position position.place
        { position with place := position.place + 1, counters := counters }
  | goes {instr : Instr} (fetched : block.fetch position.place.toNat = .ok instr)
      (decoded : instr.opcode? = some .goto) :
      Flows block position position.place { position with place := instr.arg0 }
  | branches {instr : Instr} {guard : Guard} {holds : Bool}
      (fetched : block.fetch position.place.toNat = .ok instr)
      (decoded : instr.opcode? = some .if) (known : Guard.ofCode? instr.arg0 = some guard)
      (mayBe : guard.MayBe position.counters instr.arg2 instr.arg3 holds) :
      Flows block position position.place
        { position with place := if holds then instr.arg1 else position.place + 1 }
  | inserts {instr : Instr} (fetched : block.fetch position.place.toNat = .ok instr)
      (decoded : instr.opcode? = some .future) (room : position.pending.card < maxFutures) :
      Flows block position position.place
        { position with place := position.place + 1, pending := instr.arg1 ::ₘ position.pending }
  | resumes {instr : Instr} {jump : UInt32}
      (fetched : block.fetch position.place.toNat = .ok instr)
      (decoded : instr.opcode? = some .halt) (pending : jump ∈ position.pending) :
      Flows block position position.place
        { position with place := jump, pending := position.pending.erase jump }
  | waits {instr : Instr} {jump : UInt32}
      (fetched : block.fetch position.place.toNat = .ok instr)
      (decoded : instr.opcode? = some .wait) (room : position.pending.card < maxFutures)
      (pending : jump ∈ instr.arg1 ::ₘ position.pending) :
      Flows block position position.place
        { position with place := jump, pending := (instr.arg1 ::ₘ position.pending).erase jump }

/-! ## One instruction -/

section Instructions

variable {long : LongWidth} {interpreter : Interpreter} {futures after : Futures} {instr : Instr}
  {input : StepInput} {iteration : Iteration} {block : CodeBlock}

/-- The jump addresses of an abstract queue. -/
def Futures.jumps (futures : Futures) : Multiset UInt32 :=
  (futures.contents.map FutureQueueEl.jmpAddress : List UInt32)

theorem position_pending (represents : interpreter.futureQueue.Represents futures) :
    interpreter.position.pending = futures.jumps := by
  rw [Interpreter.position, represents.live_eq, Futures.jumps]

theorem jumps_push {jmp : UInt32} {delay now : UInt64}
    (push : futures.push (pushedEl jmp delay now) = some after) :
    after.jumps = jmp ::ₘ futures.jumps := by
  rw [Futures.jumps, BoundedQueue.contents_push push, Futures.jumps, Multiset.cons_coe,
    Multiset.coe_eq_coe]
  exact (insertAfter_perm _ _).map _

theorem jumps_pop {el : FutureQueueEl} (pop : futures.pop = some (el, after)) :
    futures.jumps = el.jmpAddress ::ₘ after.jumps := by
  rw [Futures.jumps, BoundedQueue.contents_pop pop, List.map_cons, ← Multiset.cons_coe]
  rfl

theorem card_jumps_lt {value : FutureQueueEl} (push : futures.push value = some after) :
    futures.jumps.card < maxFutures := by
  rw [Futures.jumps, Multiset.coe_card, List.length_map]
  have notFull : futures.contents.length ≠ maxFutures := fun full => by
    rw [(futures.push_eq_none_iff value).mpr full] at push
    cases push
  have fits := futures.fits
  rw [← futures.contents_length] at fits
  exact Nat.lt_of_le_of_ne fits notFull

theorem Guard.mayBe_of_handle {guard : Guard} {arg0 arg1 : UInt32} {holds : Bool}
    (handled : guard.handle interpreter arg0 arg1 = .ok holds) :
    guard.MayBe interpreter.counters arg0 arg1 holds := by
  cases guard with
  | alwaysTrue | alwaysFalse | sendBufferEmpty | varQueueEmpty | varQueueFull =>
      cases handled
      rfl
  | testCount =>
      obtain ⟨value, loaded, finish⟩ := bind_eq_ok.mp handled
      cases finish
      obtain ⟨inside, rfl⟩ := load_eq_ok.mp loaded
      exact ⟨inside, rfl⟩
  | channelXyRcvBufEmpty | statusTest | equalVarVar | greaterVarVar | lessVarVar | testVar =>
      trivial

theorem mayBe_of_testGuard {holds : Bool}
    (tested : testGuard interpreter instr.arg0 instr.arg2 instr.arg3 = .ok (holds, .guardOk)) :
    ∃ guard, Guard.ofCode? instr.arg0 = some guard ∧
      guard.MayBe interpreter.counters instr.arg2 instr.arg3 holds := by
  unfold testGuard at tested
  split at tested
  · next guard known =>
      obtain ⟨result, handled, finish⟩ := bind_eq_ok.mp tested
      cases finish
      exact ⟨guard, known, Guard.mayBe_of_handle handled⟩
  · cases tested

/-- An instruction that makes the thread return leaves the counters alone. -/
theorem ExitCause.counts {code : ProgramExit} {opcode : Opcode}
    (cause : ExitCause interpreter futures instr code) (decoded : instr.opcode? = some opcode)
    (counters : CounterArray) : instr.count counters opcode = .ok counters := by
  have same {other : Opcode} (decoded' : instr.opcode? = some other)
      (still : instr.count counters other = .ok counters) :
      instr.count counters opcode = .ok counters := by
    cases decoded.symm.trans decoded'
    exact still
  cases cause with
  | ends decoded' | drained decoded' | strays decoded' | badGuard decoded' | sendFails decoded' =>
      exact same decoded' rfl
  | outside decoded' | full decoded' =>
      rcases decoded' with decoded' | decoded' <;> exact same decoded' rfl
  | unhandled noCase =>
      have listed := noCase opcode decoded
      simp only [List.mem_cons, List.not_mem_nil, or_false] at listed
      rcases listed with rfl | rfl | rfl | rfl | rfl | rfl <;> rfl

/-- The counters of an iteration that does not count. -/
theorem counters_still {opcode : Opcode} (represents : interpreter.futureQueue.Represents futures)
    (done : execute long interpreter instr input = .ok iteration)
    (decoded : instr.opcode? = some opcode)
    (still : instr.count interpreter.counters opcode = .ok interpreter.counters) :
    iteration.interpreter.counters = interpreter.counters :=
  Except.ok.inj ((execute_count represents decoded done).symm.trans still)

theorem position_eq {place : UInt32} {pending : Multiset UInt32} {counters : CounterArray}
    (counter : interpreter.programCounter = place) (jumps : interpreter.position.pending = pending)
    (same : interpreter.counters = counters) :
    interpreter.position = ⟨place, pending, counters⟩ := by
  subst counter same jumps
  rfl

/-- An iteration that makes the thread return leaves it where it stands. -/
theorem execute_exits {code : ProgramExit} (represents : interpreter.futureQueue.Represents futures)
    (done : execute long interpreter instr input = .ok iteration)
    (exit : iteration.exit = some code) :
    iteration.interpreter.position = interpreter.position := by
  obtain ⟨after, controlStep, represents'⟩ := execute_controlled represents done
  have jumps := position_pending represents'
  have cause := execute_exit represents done exit
  have counters : iteration.interpreter.counters = interpreter.counters := by
    cases decoded : instr.opcode? with
    | some opcode => exact counters_still represents done decoded (cause.counts decoded _)
    | none =>
        rcases execute_cases done with rfl | ⟨_, _, decoded', _⟩
        · rfl
        · cases decoded.symm.trans decoded'
  cases controlStep with
  | exits _ control =>
      rw [← position_pending represents] at jumps
      exact position_eq (congrArg Control.programCounter control) jumps counters
  | falls _ _ _ goesOn | jumps _ _ goesOn | pushes _ _ _ goesOn | resumes _ _ goesOn
  | waits _ _ _ _ goesOn => cases exit.symm.trans goesOn

/-- Any other iteration is an instruction of the flow. -/
theorem execute_flows (represents : interpreter.futureQueue.Represents futures)
    (loaded : interpreter.program = some block) (fetched : interpreter.fetch = .ok instr)
    (done : execute long interpreter instr input = .ok iteration)
    (goesOn : iteration.exit = none) :
    Flows block interpreter.position interpreter.programCounter
      iteration.interpreter.position := by
  obtain ⟨after, controlStep, represents'⟩ := execute_controlled represents done
  obtain ⟨block', loaded', fetched⟩ := Interpreter.fetch_eq_ok.mp fetched
  cases loaded.symm.trans loaded'
  have jumps := position_pending represents'
  have before := position_pending represents
  have still {opcode : Opcode} (decoded : instr.opcode? = some opcode)
      (still : instr.count interpreter.counters opcode = .ok interpreter.counters) :=
    counters_still represents done decoded still
  cases controlStep with
  | exits exit => exact absurd goesOn exit
  | falls opcode decoded cause _ control =>
      have counter := congrArg Control.programCounter control
      rw [← before] at jumps
      rcases cause with data | ⟨rfl, failed⟩
      · rw [position_eq counter jumps rfl]
        exact .works fetched decoded data (execute_count represents decoded done)
      · obtain ⟨guard, known, mayBe⟩ := mayBe_of_testGuard failed
        rw [position_eq counter jumps (still decoded rfl)]
        exact @Flows.branches _ _ _ _ false fetched decoded known mayBe
  | jumps target cause _ control =>
      have counter := congrArg Control.programCounter control
      rw [← before] at jumps
      rcases cause with ⟨decoded, rfl, _⟩ | ⟨decoded, rfl, held⟩
      · rw [position_eq counter jumps (still decoded rfl)]
        exact .goes fetched decoded
      · obtain ⟨guard, known, mayBe⟩ := mayBe_of_testGuard held
        rw [position_eq counter jumps (still decoded rfl)]
        exact @Flows.branches _ _ _ _ true fetched decoded known mayBe
  | pushes decoded _ push _ control =>
      have counter := congrArg Control.programCounter control
      rw [jumps_push push, ← before] at jumps
      rw [position_eq counter jumps (still decoded rfl)]
      exact .inserts fetched decoded (before ▸ card_jumps_lt push)
  | @resumes el _ decoded pop _ control =>
      have counter := congrArg Control.programCounter control
      have rest : after.jumps = interpreter.position.pending.erase el.jmpAddress := by
        rw [before, jumps_pop pop, Multiset.erase_cons_head]
      rw [rest] at jumps
      rw [position_eq counter jumps (still decoded rfl)]
      refine .resumes fetched decoded ?_
      rw [before, jumps_pop pop]
      exact Multiset.mem_cons_self _ _
  | @waits el middle _ decoded _ push pop _ control =>
      have counter := congrArg Control.programCounter control
      have grown : instr.arg1 ::ₘ interpreter.position.pending =
          el.jmpAddress ::ₘ after.jumps := by
        rw [before, ← jumps_push push, jumps_pop pop]
      have rest : after.jumps =
          (instr.arg1 ::ₘ interpreter.position.pending).erase el.jmpAddress := by
        rw [grown, Multiset.erase_cons_head]
      rw [rest] at jumps
      rw [position_eq counter jumps (still decoded rfl)]
      refine .waits fetched decoded (before ▸ card_jumps_lt push) ?_
      rw [grown]
      exact Multiset.mem_cons_self _ _

end Instructions

/-! ## Every run of the module -/

/-- The return of the thread. -/
def Observation.isExit : Observation → Bool
  | .exit _ => true
  | .event _ | .oops _ => false

/-- The place of the instruction that a recorded step executes, unless the thread returns in it. -/
def visited? : NcmSysfs × Action × List Observation → Option UInt32
  | (before, .instruction _, shown) =>
      if shown.any Observation.isExit then none else some before.ncmInterp.programCounter
  | _ => none

/-- The places that the thread passes through, in order. -/
def visits (records : List (NcmSysfs × Action × List Observation)) : List UInt32 :=
  records.filterMap visited?

theorem any_isExit (iteration : Iteration) :
    iteration.observations.any Observation.isExit = iteration.exit.isSome := by
  have events : (iteration.events.map Observation.event).any Observation.isExit = false :=
    List.any_eq_false.mpr fun shown member => by
      obtain ⟨event, _, rfl⟩ := List.mem_map.mp member
      exact Bool.false_ne_true
  rw [Iteration.observations, List.any_append, events, Bool.false_or]
  cases iteration.exit <;> rfl

theorem visited?_instruction (before : NcmSysfs) (input : StepInput) (iteration : Iteration) :
    visited? (before, .instruction input, iteration.observations) =
      if iteration.exit.isSome then none else some before.ncmInterp.programCounter := by
  rw [← any_isExit]
  rfl

section Runs

variable {long : LongWidth} {block : CodeBlock} {first last : NcmSysfs}
  {records : List (NcmSysfs × Action × List Observation)}

/-- The program is loaded, and the futures are represented. -/
structure RunsOn (block : CodeBlock) (sysfs : NcmSysfs) : Prop where
  program : sysfs.ncmInterp.program = some block
  represents : ∃ futures, sysfs.ncmInterp.futureQueue.Represents futures

theorem resume_position (iteration : Iteration) :
    iteration.resume.position = iteration.interpreter.position := by
  rw [resume_eq]
  rfl

theorem Moves.program_eq {action : Action} {shown : List Observation} {next : Interpreter}
    {futures : Futures} (moves : Moves long first action shown next)
    (unstarted : ¬ StartsInterpreter first action)
    (represents : first.ncmInterp.futureQueue.Represents futures) :
    next.program = first.ncmInterp.program := by
  cases moves with
  | stays | writes | tearsDown | schedules | joins | receives => rfl
  | starts command startable => exact (unstarted ⟨_, _, rfl, command, startable⟩).elim
  | iterates looping fetched done =>
      obtain ⟨_, controlStep, _⟩ := execute_controlled represents done
      rw [resume_program, controlStep.program_eq]

theorem RunsOn.step {label : Action × List Observation} (runsOn : RunsOn block first)
    (unstarted : Unstarted first label) (hstep : Step long first label last) :
    RunsOn block last := by
  obtain ⟨futures, represents⟩ := runsOn.represents
  have moves := step_moves hstep
  obtain ⟨after, represents', _⟩ := moves.run_events represents
  exact ⟨(moves.program_eq unstarted represents).trans runsOn.program, after, represents'⟩

/-- A step of the module is an instruction of the flow, or the flow does not see it. -/
theorem step_flows {label : Action × List Observation} (runsOn : RunsOn block first)
    (unstarted : Unstarted first label) (hstep : Step long first label last)
    (running : last.ncmInterp.isRunning = true) :
    first.ncmInterp.isRunning = true ∧ Seen (Flows block) first.ncmInterp.position
      (visited? (first, label)) last.ncmInterp.position := by
  obtain ⟨action, shown⟩ := label
  obtain ⟨futures, represents⟩ := runsOn.represents
  cases step_transition hstep with
  | storesCode buf memory =>
      rw [ncmSysfsStoreCode_ncmInterp] at running ⊢
      exact ⟨running, rfl⟩
  | storesParams buf nameMemory macMemory =>
      rw [ncmSysfsStoreParams_ncmInterp] at running ⊢
      exact ⟨running, rfl⟩
  | storesVar | receives => exact ⟨running, rfl⟩
  | storesControl idle controls =>
      cases controls with
      | starts command startable => exact (unstarted ⟨_, _, rfl, command, startable⟩).elim
      | tearsDown | ignores => exact ⟨running, rfl⟩
  | schedules granted created => exact ⟨congrArg Option.isSome created, rfl⟩
  | joins => cases running
  | iterates looping fetched done =>
      rename_i input _ iteration
      refine ⟨congrArg Option.isSome looping, ?_⟩
      change Seen _ _ (visited? (first, .instruction input, iteration.observations))
        iteration.resume.position
      rw [resume_position, visited?_instruction]
      cases exit : iteration.exit with
      | some code => exact execute_exits represents done exit
      | none => exact execute_flows represents runsOn.program fetched done exit

theorem RunsOn.run (runsOn : RunsOn block first)
    (run : Run (Recorded (Meeting (Step long) Unstarted)) first records last) :
    RunsOn block last := by
  refine run.invariant (RunsOn block) ?_ runsOn
  rintro before ⟨_, label⟩ after runsOn ⟨rfl, unstarted, hstep⟩
  exact runsOn.step unstarted hstep

/-- A thread that is there at the end of a run has been there all the time. -/
theorem RunsOn.running (runsOn : RunsOn block first)
    (run : Run (Recorded (Meeting (Step long) Unstarted)) first records last)
    (running : last.ncmInterp.isRunning = true) : first.ncmInterp.isRunning = true := by
  by_contra stopped
  refine (run.invariant
    (fun sysfs : NcmSysfs => RunsOn block sysfs ∧ ¬ sysfs.ncmInterp.isRunning = true)
    ?_ ⟨runsOn, stopped⟩).2 running
  rintro before ⟨_, label⟩ after ⟨runsOn, stopped⟩ ⟨rfl, unstarted, hstep⟩
  exact ⟨runsOn.step unstarted hstep,
    fun running => stopped (step_flows runsOn unstarted hstep running).1⟩

/-- A recorded run is one of the flow, at the places it visits. -/
theorem run_flows (loaded : first.ncmInterp.program = some block)
    (represents : ∃ futures, first.ncmInterp.futureQueue.Represents futures)
    (run : Run (Recorded (Meeting (Step long) Unstarted)) first records last)
    (running : last.ncmInterp.isRunning = true) :
    Run (Flows block) first.ncmInterp.position (visits records) last.ncmInterp.position := by
  refine run.viewed (fun sysfs : NcmSysfs => sysfs.ncmInterp.position) visited? (RunsOn block)
    (fun sysfs : NcmSysfs => sysfs.ncmInterp.isRunning = true) ?_ ?_ ⟨loaded, represents⟩ running
  · rintro first ⟨_, label⟩ last runsOn ⟨rfl, unstarted, hstep⟩
    exact RunsOn.step runsOn unstarted hstep
  · rintro first ⟨_, label⟩ last runsOn ⟨rfl, unstarted, hstep⟩ running
    exact step_flows runsOn unstarted hstep running

/--
From every reachable state with a program loaded until the interpreter is
started again, the place, the pending jumps and the counters of the thread go
through a run of the flow of that program, whatever is written to the files,
arrives, is answered by the driver and is read from the clock.
-/
theorem thread_runs_flow {labels : List (Action × List Observation)}
    (reachable : Reachable long first) (loaded : first.ncmInterp.program = some block)
    (run : Run (Meeting (Step long) Unstarted) first labels last)
    (running : last.ncmInterp.isRunning = true) :
    ∃ records, Run (Recorded (Meeting (Step long) Unstarted)) first records last ∧
      records.map Prod.snd = labels ∧
      Run (Flows block) first.ncmInterp.position (visits records) last.ncmInterp.position := by
  obtain ⟨records, recorded, same⟩ := run.recorded
  exact ⟨records, recorded, same,
    run_flows loaded (reachable_represented reachable) recorded running⟩

end Runs

/-- A FUTURE and the HALT that takes it. -/
theorem thread_runs_flow_wait : ∃ (records : List (NcmSysfs × Action × List Observation))
    (first last : NcmSysfs), first.ncmInterp.programCounter = 0 ∧
      last.ncmInterp.programCounter = 2 ∧ Run (Flows (.ofInstrs waitingLoop))
        first.ncmInterp.position (visits records) last.ncmInterp.position := by
  have done : ∃ first earlier last labels,
      runFromInit .bits64 (loadAndRun waitingLoop noChannels .bare) = .ok (first, earlier) ∧
      Run.carryOut (fun sysfs : NcmSysfs => sysfs.next .bits64) first
        [.instruction (.atClock 1 1 1), .instruction (.atClock 2 2 6)] = .ok (last, labels) ∧
      first.ncmInterp.program = some (CodeBlock.ofInstrs waitingLoop) ∧
      first.ncmInterp.programCounter = 0 ∧ last.ncmInterp.programCounter = 2 ∧
      last.ncmInterp.isRunning = true :=
    ⟨_, _, _, _, rfl, rfl, rfl, rfl, rfl, rfl⟩
  obtain ⟨first, earlier, last, labels, loaded, ran, program, zero, two, running⟩ := done
  have unstarted := unstarted_of_actions (Run.carryOut_actions ran) (by simp)
  obtain ⟨records, -, -, flow⟩ := thread_runs_flow ⟨_, run_of_runFromInit loaded⟩ program
    ((Run.of_carryOut ran).meeting unstarted) running
  exact ⟨records, first, last, zero, two, flow⟩

end NetworkCode.Kernel
