import NetworkCode.Kernel.Sysfs

/-!
# What a transition does to the interpreter

`Transition` says once what each of the eight actions does to the state, and
`Moves` what it does to the interpreter; later results take a step apart with
them and unfold the transition function no more.
-/

namespace NetworkCode.Kernel

open Library Library.Checked

/-- The events among observations. -/
def eventsOf (observations : List Observation) : List Event :=
  observations.filterMap fun
    | .event event => some event
    | _ => none

/-- The events of a run, in order. -/
def historyOf (labels : List (Action × List Observation)) : List Event :=
  labels.flatMap fun label => eventsOf label.2

@[simp] theorem historyOf_append (earlier later : List (Action × List Observation)) :
    historyOf (earlier ++ later) = historyOf earlier ++ historyOf later :=
  List.flatMap_append

@[simp] theorem historyOf_singleton (label : Action × List Observation) :
    historyOf [label] = eventsOf label.2 := by
  simp [historyOf]

@[simp] theorem eventsOf_observations (iteration : Iteration) :
    eventsOf iteration.observations = iteration.events := by
  obtain ⟨exit, interpreter, events⟩ := iteration
  cases exit <;> simp [eventsOf, Iteration.observations, List.filterMap_map]

theorem eventsOf_observeFault (fault : Option Fault) : eventsOf (observeFault fault) = [] := by
  cases fault <;> rfl

/-- What a write to the control file does. -/
inductive Controls (sysfs : NcmSysfs) (buf : List UInt8) (env : NetEnv) : NcmSysfs → Prop where
  | starts {network : Network} {acquired : List Resource}
      (command : buf.take 3 = runCommand) (startable : Startable sysfs)
      (initialised : initNetwork sysfs.ncmInterp.network sysfs.interpParams env =
        .ok (network, acquired)) :
      Controls sysfs buf env { sysfs with
        ncmInterp := { sysfs.ncmInterp with
          programCounter := 0
          programLength := sysfs.program.length
          program := sysfs.program.instructions
          network := network
          thread := some .created } }
  | tearsDown {network : Network} {released : List Resource}
      (command : buf.take 4 = stopCommand) (running : sysfs.ncmInterp.isRunning = true)
      (destroyed : destroyNetwork sysfs.ncmInterp.network = .ok (network, released)) :
      Controls sysfs buf env { sysfs with
        ncmInterp := { sysfs.ncmInterp with network := network }
        stopping := true }
  | ignores : Controls sysfs buf env sysfs

/-- A write of `run` that starts the interpreter. -/
def StartsInterpreter (before : NcmSysfs) (action : Action) : Prop :=
  ∃ buf env, action = .storeControl buf env ∧ buf.take 3 = runCommand ∧ Startable before

/-- What one transition does. -/
inductive Transition (long : LongWidth) (sysfs : NcmSysfs) :
    Action → List Observation → NcmSysfs → Prop where
  | storesCode (buf : List UInt8) (memory : Kmalloc) (idle : sysfs.stopping = false) :
      Transition long sysfs (.storeCode buf memory)
        (observeFault (ncmSysfsStoreCode sysfs buf memory).2)
        (ncmSysfsStoreCode sysfs buf memory).1
  | storesParams (buf : List UInt8) (nameMemory macMemory : Kmalloc)
      (idle : sysfs.stopping = false) :
      Transition long sysfs (.storeParams buf nameMemory macMemory)
        (observeFault (ncmSysfsStoreParams sysfs long buf nameMemory macMemory).2)
        (ncmSysfsStoreParams sysfs long buf nameMemory macMemory).1
  | storesVar {var : Nat} {buf : List UInt8} {varspace : Varspace}
      (written : setVariableData sysfs.ncmInterp.variableSpace var buf buf.length =
        .ok varspace) :
      Transition long sysfs (.storeVar var buf) []
        { sysfs with ncmInterp := { sysfs.ncmInterp with variableSpace := varspace } }
  | storesControl {buf : List UInt8} {env : NetEnv} {after : NcmSysfs}
      (idle : sysfs.stopping = false) (controls : Controls sysfs buf env after) :
      Transition long sysfs (.storeControl buf env) [] after
  | schedules (granted : Bool) (created : sysfs.ncmInterp.thread = some .created) :
      Transition long sysfs (.setScheduler granted)
        (if granted then [] else [.exit .programError])
        { sysfs with ncmInterp := { sysfs.ncmInterp with
          thread := some (if granted then .looping else .returned .programError) } }
  | iterates {input : StepInput} {instr : Instr} {iteration : Iteration}
      (looping : sysfs.ncmInterp.thread = some .looping)
      (fetched : sysfs.ncmInterp.fetch = .ok instr)
      (done : execute long sysfs.ncmInterp instr input = .ok iteration) :
      Transition long sysfs (.instruction input) iteration.observations
        { sysfs with ncmInterp := iteration.resume }
  | joins (stopping : sysfs.stopping = true) :
      Transition long sysfs .stopped []
        { sysfs with ncmInterp := stopThread sysfs.ncmInterp, stopping := false }
  | receives {read : SockRead} {kmalloc : Nat → NcMessage} {network : Network}
      (receiving : sysfs.ncmInterp.network.receiving = true)
      (received : receivingPass maxChannels sysfs.ncmInterp.network read kmalloc =
        .ok network) :
      Transition long sysfs (.arrival read kmalloc) []
        { sysfs with ncmInterp := { sysfs.ncmInterp with network := network } }

/-- A write to the control file starts, begins to stop, or does nothing. -/
theorem ncmSysfsStoreControl_cases {sysfs after : NcmSysfs} {buf : List UInt8} {env : NetEnv}
    (done : ncmSysfsStoreControl sysfs buf env = .ok after) : Controls sysfs buf env after := by
  unfold ncmSysfsStoreControl at done
  split at done
  · next command =>
      split at done
      · next startable =>
          obtain ⟨interpreter, started, finish⟩ := bind_eq_ok.mp done
          obtain ⟨⟨network, acquired⟩, initialised, built⟩ := bind_eq_ok.mp started
          cases built
          cases finish
          exact .starts command startable initialised
      · cases done
        exact .ignores
  · split at done
    · next command =>
        obtain ⟨interpreter, torn, finish⟩ := bind_eq_ok.mp done
        obtain ⟨⟨network, released⟩, destroyed, built⟩ := bind_eq_ok.mp torn
        cases built
        cases finish
        exact .tearsDown command.1 command.2 destroyed
    · cases done
      exact .ignores

theorem step_transition {long : LongWidth} {before after : NcmSysfs}
    {label : Action × List Observation} (hstep : Step long before label after) :
    Transition long before label.1 label.2 after := by
  obtain ⟨action, observations⟩ := label
  cases action with
  | storeCode buf memory =>
      simp only [Step, NcmSysfs.next] at hstep
      split at hstep
      · cases hstep
      · next idle =>
          cases hstep
          exact .storesCode buf memory (Bool.eq_false_iff.mpr idle)
  | storeParams buf nameMemory macMemory =>
      simp only [Step, NcmSysfs.next] at hstep
      split at hstep
      · cases hstep
      · next idle =>
          cases hstep
          exact .storesParams buf nameMemory macMemory (Bool.eq_false_iff.mpr idle)
  | storeVar var buf =>
      obtain ⟨stored, hstore, finish⟩ := bind_eq_ok.mp hstep
      obtain ⟨varspace, written, built⟩ := bind_eq_ok.mp hstore
      cases built
      cases finish
      exact .storesVar written
  | storeControl buf env =>
      simp only [Step, NcmSysfs.next] at hstep
      split at hstep
      · cases hstep
      · next idle =>
          obtain ⟨stored, hstore, finish⟩ := bind_eq_ok.mp hstep
          cases finish
          exact .storesControl (Bool.eq_false_iff.mpr idle) (ncmSysfsStoreControl_cases hstore)
  | setScheduler granted =>
      simp only [Step, NcmSysfs.next] at hstep
      split at hstep
      · next created =>
          cases hstep
          exact .schedules granted created
      · cases hstep
  | instruction input =>
      simp only [Step, NcmSysfs.next] at hstep
      split at hstep
      · next looping =>
          obtain ⟨iteration, looped, finish⟩ := bind_eq_ok.mp hstep
          obtain ⟨instr, fetched, done⟩ := bind_eq_ok.mp looped
          cases finish
          exact .iterates looping fetched done
      · cases hstep
  | stopped =>
      simp only [Step, NcmSysfs.next] at hstep
      split at hstep
      · next stopping =>
          cases hstep
          exact .joins stopping
      · cases hstep
  | arrival read kmalloc =>
      simp only [Step, NcmSysfs.next] at hstep
      split at hstep
      · next receiving =>
          obtain ⟨network, received, finish⟩ := bind_eq_ok.mp hstep
          cases finish
          exact .receives receiving received
      · cases hstep

/-- The interpreter after one transition of the module. -/
inductive Moves (long : LongWidth) (sysfs : NcmSysfs) :
    Action → List Observation → Interpreter → Prop where
  /-- A write that does not reach the interpreter. -/
  | stays {action : Action} {observations : List Observation}
      (quiet : eventsOf observations = []) :
      Moves long sysfs action observations sysfs.ncmInterp
  | writes {var : Nat} {buf : List UInt8} {varspace : Varspace}
      (written : setVariableData sysfs.ncmInterp.variableSpace var buf buf.length =
        .ok varspace) :
      Moves long sysfs (.storeVar var buf) []
        { sysfs.ncmInterp with variableSpace := varspace }
  | starts {buf : List UInt8} {env : NetEnv} {network : Network} {acquired : List Resource}
      (command : buf.take 3 = runCommand) (startable : Startable sysfs)
      (initialised : initNetwork sysfs.ncmInterp.network sysfs.interpParams env =
        .ok (network, acquired)) :
      Moves long sysfs (.storeControl buf env) []
        { sysfs.ncmInterp with
          programCounter := 0
          programLength := sysfs.program.length
          program := sysfs.program.instructions
          network := network
          thread := some .created }
  | tearsDown {buf : List UInt8} {env : NetEnv} {network : Network} {released : List Resource}
      (running : sysfs.ncmInterp.isRunning = true)
      (destroyed : destroyNetwork sysfs.ncmInterp.network = .ok (network, released)) :
      Moves long sysfs (.storeControl buf env) [] { sysfs.ncmInterp with network := network }
  | schedules {granted : Bool} {observations : List Observation}
      (created : sysfs.ncmInterp.thread = some .created)
      (quiet : eventsOf observations = []) :
      Moves long sysfs (.setScheduler granted) observations
        { sysfs.ncmInterp with
          thread := some (if granted then .looping else .returned .programError) }
  | iterates {input : StepInput} {instr : Instr} {iteration : Iteration}
      (looping : sysfs.ncmInterp.thread = some .looping)
      (fetched : sysfs.ncmInterp.fetch = .ok instr)
      (done : execute long sysfs.ncmInterp instr input = .ok iteration) :
      Moves long sysfs (.instruction input) iteration.observations iteration.resume
  | joins (stopping : sysfs.stopping = true) :
      Moves long sysfs .stopped [] (stopThread sysfs.ncmInterp)
  | receives {read : SockRead} {kmalloc : Nat → NcMessage} {network : Network}
      (receiving : sysfs.ncmInterp.network.receiving = true)
      (received : receivingPass maxChannels sysfs.ncmInterp.network read kmalloc =
        .ok network) :
      Moves long sysfs (.arrival read kmalloc) [] { sysfs.ncmInterp with network := network }

section Stores

variable {sysfs : NcmSysfs} {buf : List UInt8}

/-- A write to the code file changes the stored program alone. -/
theorem ncmSysfsStoreCode_frame (sysfs : NcmSysfs) (buf : List UInt8) (memory : Kmalloc) :
    ∃ program,
      (ncmSysfsStoreCode sysfs buf memory).1 = { sysfs with program := program } := by
  unfold ncmSysfsStoreCode
  split
  · exact ⟨sysfs.program, rfl⟩
  · split
    · exact ⟨_, rfl⟩
    · exact ⟨_, rfl⟩

/-- A write to the params file changes the stored parameters alone. -/
theorem ncmSysfsStoreParams_frame (sysfs : NcmSysfs) (long : LongWidth) (buf : List UInt8)
    (nameMemory macMemory : Kmalloc) :
    ∃ params, (ncmSysfsStoreParams sysfs long buf nameMemory macMemory).1 =
      { sysfs with interpParams := params } := by
  unfold ncmSysfsStoreParams
  dsimp only
  split
  · exact ⟨sysfs.interpParams, rfl⟩
  · split
    · exact ⟨sysfs.interpParams, rfl⟩
    · split
      · exact ⟨_, rfl⟩
      · split
        · exact ⟨_, rfl⟩
        · exact ⟨_, rfl⟩

theorem ncmSysfsStoreCode_ncmInterp (memory : Kmalloc) :
    (ncmSysfsStoreCode sysfs buf memory).1.ncmInterp = sysfs.ncmInterp := by
  obtain ⟨program, stored⟩ := ncmSysfsStoreCode_frame sysfs buf memory
  rw [stored]

theorem ncmSysfsStoreParams_ncmInterp (long : LongWidth) (nameMemory macMemory : Kmalloc) :
    (ncmSysfsStoreParams sysfs long buf nameMemory macMemory).1.ncmInterp =
      sysfs.ncmInterp := by
  obtain ⟨params, stored⟩ := ncmSysfsStoreParams_frame sysfs long buf nameMemory macMemory
  rw [stored]

end Stores

theorem step_moves {long : LongWidth} {before after : NcmSysfs}
    {label : Action × List Observation} (hstep : Step long before label after) :
    Moves long before label.1 label.2 after.ncmInterp := by
  obtain ⟨action, observations⟩ := label
  cases step_transition hstep with
  | storesCode buf memory =>
      rw [ncmSysfsStoreCode_ncmInterp]
      exact .stays (eventsOf_observeFault _)
  | storesParams buf nameMemory macMemory =>
      rw [ncmSysfsStoreParams_ncmInterp]
      exact .stays (eventsOf_observeFault _)
  | storesVar written => exact .writes written
  | storesControl idle controls =>
      cases controls with
      | starts command startable initialised => exact .starts command startable initialised
      | tearsDown command running destroyed => exact .tearsDown running destroyed
      | ignores => exact .stays rfl
  | schedules granted created =>
      refine .schedules created ?_
      cases granted <;> rfl
  | iterates looping fetched done => exact .iterates looping fetched done
  | joins stopping => exact .joins stopping
  | receives receiving received => exact .receives receiving received

/-! ## Concrete runs -/

/-- Clock readings for one iteration, with a quiet network. -/
def StepInput.atClock (pushClock haltClock wakeClock : UInt64) : StepInput where
  pushClock := pushClock
  haltClock := haltClock
  wakeClock := wakeClock
  skbMemory := fun _ => 0
  txStatus := 0
  syncStack := fun _ => 0
  syncStart := pushClock
  syncReads := []

/-- A machine without network devices. -/
def NetEnv.bare : NetEnv where
  devGetByName := fun _ => none
  staleDev := fun _ => .null
  ncMsg := zeroMessage

/-- Write code and params and start the interpreter. -/
def loadAndRun (instrs : List Instr) (params : List UInt8) (env : NetEnv) : List Action :=
  [.storeCode (CodeBlock.ofInstrs instrs).bytes (some fun _ => 0),
    .storeParams params (some fun _ => 0) (some fun _ => 0),
    .storeControl runCommand env, .setScheduler true]

/-- The params file of a configuration without channels. -/
def noChannels : List UInt8 := [0, 0, 0, 0]

/-- The params file of one channel without a device name. -/
def oneChannel : List UInt8 := [1, 0, 0, 0] ++ List.replicate ifnamsiz 0 ++ [2, 0, 0, 0, 0, 1]

/-- Carry out actions from loading the module. -/
def runFromInit (long : LongWidth) (actions : List Action) :
    Exec (NcmSysfs × List (Action × List Observation)) :=
  Run.carryOut (fun sysfs => sysfs.next long) initModule actions

theorem run_of_runFromInit {long : LongWidth} {actions : List Action} {sysfs : NcmSysfs}
    {labels : List (Action × List Observation)}
    (done : runFromInit long actions = .ok (sysfs, labels)) :
    Run (Step long) initModule labels sysfs :=
  Run.of_carryOut done

/-- Extend a run by an action that meets the condition. -/
theorem run_advance {long : LongWidth} {condition : NcmSysfs → Action × List Observation → Prop}
    {first middle last : NcmSysfs} {labels : List (Action × List Observation)}
    {shown : List Observation} (action : Action)
    (run : Run (Meeting (Step long) condition) first labels middle)
    (hstep : middle.next long action = .ok (last, shown))
    (met : condition middle (action, shown)) :
    Run (Meeting (Step long) condition) first (labels ++ [(action, shown)]) last :=
  .tail run ⟨met, hstep⟩

end NetworkCode.Kernel
