import NetworkCode.Kernel.Certificate

/-!
# The counters over a run

Four instructions write a counter; no other instruction, no write to a file and
no start does.  Over a run from module load each counter is what the executed
instructions make of zero, one after the other, whichever programs they are of.
-/

namespace NetworkCode.Kernel

open Library Library.Checked

/-- What an instruction makes of the counters. -/
def Instr.count (instr : Instr) (counters : CounterArray) : Opcode → Exec CounterArray
  | .clearCounter => resetCounter counters instr.arg0.toNat
  | .addToCounter => addToCounter counters instr.arg0.toNat instr.arg1
  | .subFromCounter => subFromCounter counters instr.arg0.toNat instr.arg1
  | .setCounter => setCounter counters instr.arg0.toNat instr.arg1
  | .future | .halt | .wait | .goto | .if | .nop | .create | .send | .receive | .sync
  | .endOfProgram | .mode | .destroy | .handle | .xsend | .backupSend | .backupReceive =>
      .ok counters

section Handlers

variable {long : LongWidth} {interpreter : Interpreter} {futures : Futures} {instr : Instr}
  {input : StepInput} {executed : Executed} {opcode : Opcode}

@[simp] theorem noteResult_counters (bit : UInt8) (result : Int) :
    (interpreter.noteResult bit result).counters = interpreter.counters := by
  unfold Interpreter.noteResult
  split <;> rfl

@[simp] theorem handleResult_counters (executed : Executed) :
    executed.handleResult.interpreter.counters = executed.interpreter.counters := by
  unfold Executed.handleResult
  split <;> rfl

theorem counters_of_bind {computed : Exec CounterArray}
    (done : (do let counters ← computed
                return ⟨.ok, { interpreter with counters := counters }, []⟩) =
      (.ok executed : Exec Executed)) : computed = .ok executed.interpreter.counters := by
  obtain ⟨counters, found, finish⟩ := bind_eq_ok.mp done
  cases finish
  exact found

theorem handleFuture_counters (represents : interpreter.futureQueue.Represents futures)
    (done : handleFuture interpreter instr input = .ok executed) :
    executed.interpreter.counters = interpreter.counters := by
  rcases handleFuture_cases represents instr input with refused | ⟨_, _, _, _, _, accepted⟩
  · cases refused.symm.trans done
    rfl
  · cases accepted.symm.trans done
    rfl

theorem handleHalt_counters (represents : interpreter.futureQueue.Represents futures)
    (done : handleHalt interpreter input long = .ok executed) :
    executed.interpreter.counters = interpreter.counters := by
  cases pop : futures.pop with
  | none =>
      cases (handleHalt_refused represents pop).symm.trans done
      rfl
  | some taken =>
      obtain ⟨queue, _, resumed⟩ := handleHalt_accepted represents input long pop
      cases resumed.symm.trans done
      rfl

theorem handleWait_counters (represents : interpreter.futureQueue.Represents futures)
    (done : handleWait interpreter instr input long = .ok executed) :
    executed.interpreter.counters = interpreter.counters := by
  rcases handleWait_cases represents instr input long with
    ⟨refused, _⟩ | ⟨_, _, _, _, _, _, _, _, waited⟩
  · cases refused.symm.trans done
    rfl
  · cases waited.symm.trans done
    rfl

theorem handler_count (represents : interpreter.futureQueue.Represents futures)
    (selected : handler? long interpreter instr input opcode = some (.ok executed)) :
    instr.count interpreter.counters opcode = .ok executed.interpreter.counters := by
  have same (kept : executed.interpreter.counters = interpreter.counters) :
      (.ok interpreter.counters : Exec CounterArray) = .ok executed.interpreter.counters :=
    congrArg Except.ok kept.symm
  have done := selected
  cases opcode with
  | clearCounter | addToCounter | subFromCounter | setCounter =>
      exact counters_of_bind (Option.some.inj done)
  | future => exact same (handleFuture_counters represents (Option.some.inj done))
  | halt => exact same (handleHalt_counters represents (Option.some.inj done))
  | wait => exact same (handleWait_counters represents (Option.some.inj done))
  | goto =>
      have done := Option.some.inj done
      unfold handleGoto at done
      dsimp only at done
      split at done <;> cases done <;> rfl
  | «if» =>
      obtain ⟨⟨holds, status⟩, _, finish⟩ := bind_eq_ok.mp (Option.some.inj done)
      cases status <;> cases holds <;> cases finish <;> rfl
  | nop =>
      cases done
      rfl
  | create | send =>
      obtain ⟨_, _, finish⟩ := bind_eq_ok.mp (Option.some.inj done)
      cases finish
      rfl
  | receive =>
      obtain ⟨_, _, finish⟩ := bind_eq_ok.mp (Option.some.inj done)
      cases finish
      exact same (noteResult_counters _ _)
  | sync =>
      have done := Option.some.inj done
      unfold handleSync at done
      split at done
      · obtain ⟨_, _, finish⟩ := bind_eq_ok.mp done
        cases finish
        rfl
      · obtain ⟨_, _, finish⟩ := bind_eq_ok.mp done
        cases finish
        exact same (noteResult_counters _ _)
  | mode | destroy | handle | xsend | backupSend | backupReceive | endOfProgram => cases selected

/-- An instruction counts what its type says, also where it makes the thread return. -/
theorem execute_count {iteration : Iteration}
    (represents : interpreter.futureQueue.Represents futures)
    (decoded : instr.opcode? = some opcode)
    (done : execute long interpreter instr input = .ok iteration) :
    instr.count interpreter.counters opcode = .ok iteration.interpreter.counters := by
  cases selected : handler? long interpreter instr input opcode with
  | some handled =>
      rw [execute_of_handler decoded selected] at done
      obtain ⟨executed, rfl, finish⟩ := bind_eq_ok.mp done
      cases finish
      rw [handleResult_counters]
      exact handler_count represents selected
  | none =>
      rcases execute_cases done with rfl | ⟨other, executed, decoded', selected', _⟩
      · cases opcode <;> cases selected <;> rfl
      · cases decoded.symm.trans decoded'
        cases selected.symm.trans selected'

end Handlers

/-! ## One counter -/

/-- What an instruction makes of the value of one counter. -/
def Instr.tally (id : Nat) (value : UInt32) (instr : Instr) : UInt32 :=
  if instr.arg0.toNat = id then
    match instr.opcode? with
    | some .clearCounter => 0
    | some .setCounter => instr.arg1
    | some .addToCounter => value + instr.arg1
    | some .subFromCounter => value - instr.arg1
    | _ => value
  else value

/-- The instruction that a recorded step executes. -/
def executed? : NcmSysfs × Action × List Observation → Option Instr
  | (before, .instruction _, _) => before.ncmInterp.fetch.toOption
  | _ => none

section Counter

variable {counters after : CounterArray} {id other : Nat}

theorem updateCounter_get {f : UInt32 → UInt32}
    (updated : updateCounter counters other f = .ok after) (inside : id < maxCounters) :
    after[id] = if other = id then f counters[id] else counters[id] := by
  obtain ⟨value, loaded, stored⟩ := bind_eq_ok.mp updated
  obtain ⟨bound, rfl⟩ := load_eq_ok.mp loaded
  obtain ⟨_, rfl⟩ := store_eq_ok.mp stored
  rw [Vector.getElem_set]
  split
  · next same => subst same; rfl
  · rfl

theorem Instr.count_get {instr : Instr} {opcode : Opcode} (decoded : instr.opcode? = some opcode)
    (counted : instr.count counters opcode = .ok after) (inside : id < maxCounters) :
    after[id] = instr.tally id counters[id] := by
  unfold Instr.tally
  rw [decoded]
  cases opcode with
  | clearCounter | addToCounter | subFromCounter | setCounter =>
      exact updateCounter_get counted inside
  | future | halt | wait | goto | «if» | nop | create | send | receive | sync | endOfProgram | mode
  | destroy | handle | xsend | backupSend | backupReceive =>
      cases counted
      exact (ite_self _).symm

end Counter

/-! ## Over a run -/

section Runs

variable {long : LongWidth} {before after sysfs : NcmSysfs}

/-- A transition leaves a counter alone unless it executes an instruction that writes it. -/
theorem step_counter {label : Action × List Observation} {futures : Futures} {id : Nat}
    (represents : before.ncmInterp.futureQueue.Represents futures)
    (hstep : Step long before label after) (inside : id < maxCounters) :
    after.ncmInterp.counters[id] = (executed? (before, label)).toList.foldl (Instr.tally id)
      before.ncmInterp.counters[id] := by
  obtain ⟨action, shown⟩ := label
  cases step_transition hstep with
  | storesCode buf memory =>
      rw [ncmSysfsStoreCode_ncmInterp]
      rfl
  | storesParams buf nameMemory macMemory =>
      rw [ncmSysfsStoreParams_ncmInterp]
      rfl
  | storesVar written => rfl
  | storesControl idle controls => cases controls <;> rfl
  | schedules granted created => rfl
  | @iterates input instr iteration looping fetched done =>
      rw [executed?, fetched]
      have resumed : iteration.resume.counters = iteration.interpreter.counters := by
        rw [resume_eq]
      simp only [resumed]
      cases decoded : instr.opcode? with
      | some opcode =>
          exact Instr.count_get decoded (execute_count represents decoded done) inside
      | none =>
          rcases execute_cases done with rfl | ⟨_, _, decoded', _⟩
          · simp [Instr.tally, decoded, Except.toOption]
          · cases decoded.symm.trans decoded'
  | joins stopping => rfl
  | receives receiving received => rfl

/-- What the counters tell at the end of a recorded run. -/
structure CountersTell (records : List (NcmSysfs × Action × List Observation))
    (sysfs : NcmSysfs) : Prop where
  value : ∀ id (inside : id < maxCounters), sysfs.ncmInterp.counters[id] =
    (records.filterMap executed?).foldl (Instr.tally id) 0
  testCount : ∀ (id value : UInt32) (holds : Bool), id.toNat < maxCounters →
    (testGuard sysfs.ncmInterp Guard.testCount.code id value = .ok (holds, .guardOk) ↔
      holds = decide ((records.filterMap executed?).foldl (Instr.tally id.toNat) 0 = value))

theorem run_counters {records : List (NcmSysfs × Action × List Observation)}
    (run : Run (Recorded (Step long)) initModule records sysfs) :
    (∃ futures, sysfs.ncmInterp.futureQueue.Represents futures) ∧
      ∀ id (inside : id < maxCounters), sysfs.ncmInterp.counters[id] =
        (records.filterMap executed?).foldl (Instr.tally id) 0 := by
  refine run.history (fun records sysfs =>
    (∃ futures, sysfs.ncmInterp.futureQueue.Represents futures) ∧
      ∀ id (inside : id < maxCounters), sysfs.ncmInterp.counters[id] =
        (records.filterMap executed?).foldl (Instr.tally id) 0) ?_ ?_
  · refine ⟨⟨_, initModule_represents⟩, fun id inside => ?_⟩
    exact Vector.getElem_replicate inside
  · rintro records middle ⟨before, label⟩ next - ⟨⟨futures, represents⟩, earlier⟩ ⟨rfl, hstep⟩
    obtain ⟨after, represents', _⟩ := (step_moves hstep).run_events represents
    refine ⟨⟨after, represents'⟩, fun id inside => ?_⟩
    rw [step_counter represents hstep inside, earlier id inside, List.filterMap_append,
      List.foldl_append, List.filterMap_cons, List.filterMap_nil]
    cases executed? (before, label) <;> rfl

theorem testGuard_testCount {interpreter : Interpreter} {id value : UInt32} {holds : Bool}
    (inside : id.toNat < maxCounters) :
    testGuard interpreter Guard.testCount.code id value = .ok (holds, .guardOk) ↔
      holds = decide (interpreter.counters[id.toNat] = value) := by
  have tested : testGuard interpreter Guard.testCount.code id value =
      .ok (decide (interpreter.counters[id.toNat] = value), .guardOk) := by
    rw [testGuard, Guard.ofCode?_code]
    simp only [Guard.handle, handleTestCount, load_of_lt inside]
    rfl
  rw [tested]
  constructor
  · intro same
    cases same
    rfl
  · rintro rfl
    rfl

/--
Over every run from module load, restarts with other programs included, each
counter is what the executed instructions make of zero one after the other,
modulo `2^32`, and the guard TEST_COUNT tells whether that is its argument.
-/
theorem counters_tell {labels : List (Action × List Observation)}
    (run : Run (Step long) initModule labels sysfs) :
    ∃ records, Run (Recorded (Step long)) initModule records sysfs ∧
      records.map Prod.snd = labels ∧ CountersTell records sysfs := by
  obtain ⟨records, recorded, same⟩ := run.recorded
  have value := (run_counters recorded).2
  refine ⟨records, recorded, same, value, ?_⟩
  intro id test holds inside
  rw [testGuard_testCount inside, value id.toNat inside]

end Runs

set_option maxRecDepth 4000 in
/-- A counter keeps its value over a stop and a start. -/
theorem counters_tell_restart : ∃ records sysfs, CountersTell records sysfs ∧
    (records.filterMap executed?).foldl (Instr.tally 3) 0 = 6 := by
  have done : ∃ sysfs labels, runFromInit .bits64
      (loadAndRun [.make .setCounter 3 7 0 0, .make .subFromCounter 3 1 0 0] oneChannel .bare ++
        [.instruction (.atClock 0 0 0), .instruction (.atClock 0 0 0),
          .storeControl stopCommand .bare, .stopped, .storeControl runCommand .bare]) =
        .ok (sysfs, labels) ∧ sysfs.ncmInterp.counters[3] = 6 := ⟨_, _, rfl, rfl⟩
  obtain ⟨sysfs, labels, done, six⟩ := done
  obtain ⟨records, -, -, tell⟩ := counters_tell (run_of_runFromInit done)
  refine ⟨records, sysfs, tell, ?_⟩
  rw [← tell.value 3 (by decide), six]

end NetworkCode.Kernel
