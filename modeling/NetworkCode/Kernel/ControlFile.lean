import NetworkCode.Kernel.ProgramCounter

/-!
# What the control file says

The file, and every gate of the module, ask whether the pointer to the
interpreter thread is set.  Only `start_interpreter` and `stop_interpreter`
change it, while the thread can also return by itself.
-/

namespace NetworkCode.Kernel

open Library Library.Checked

/-- `"running\n"`, with its terminating zero -/
def runningText : List UInt8 := [0x72, 0x75, 0x6e, 0x6e, 0x69, 0x6e, 0x67, 0x0a, 0]

/-- `"not running\n"`, with its terminating zero -/
def notRunningText : List UInt8 := [0x6e, 0x6f, 0x74, 0x20] ++ runningText

/-- `ncm_sysfs_show` on the control file. -/
def ncmSysfsShowControl (sysfs : NcmSysfs) : List UInt8 :=
  if sysfs.ncmInterp.isRunning then runningText else notRunningText

/-- Code and params have been loaded. -/
def Loaded (sysfs : NcmSysfs) : Prop :=
  sysfs.program.instructions ≠ none ∧ sysfs.interpParams.netDeviceName ≠ none ∧
    sysfs.interpParams.channelMac ≠ none

/-- What the control file should say and do: the thread is active when it has
been started and has not returned. -/
structure ControlFileTrue (sysfs : NcmSysfs) : Prop where
  running_iff : sysfs.ncmInterp.isRunning = true ↔ sysfs.ncmInterp.Active
  shows : ncmSysfsShowControl sysfs = runningText ↔ sysfs.ncmInterp.Active
  runs : ∀ buf env after, buf.take 3 = runCommand → ¬ sysfs.ncmInterp.Active → Loaded sysfs →
    ncmSysfsStoreControl sysfs buf env = .ok after → after.ncmInterp.thread = some .created
  stops : ∀ buf env after, buf.take 4 = stopCommand →
    ncmSysfsStoreControl sysfs buf env = .ok after → sysfs.stopping = false →
    after.stopping = true → sysfs.ncmInterp.Active

/-- The instruction does not make the thread return. -/
def Continues (interpreter : Interpreter) (instr : Instr) (input : StepInput) :
    Option Opcode → Prop
  | some .future | some .wait => instr.arg1 < interpreter.programLength ∧
      interpreter.futureQueue.length.toNat ≠ maxFutures
  | some .halt => interpreter.futureQueue.length.toNat ≠ 0
  | some .goto => instr.arg0 < interpreter.programLength
  | some .if => Guard.ofCode? instr.arg0 ≠ none
  | some .send => SendAccepted interpreter.network instr.arg0.toNat instr.arg1.toNat
      input.txStatus
  | some opcode => opcode.IsData
  | none => False

/-- The thread does not return in the transition. -/
def GoesOn (sysfs : NcmSysfs) (label : Action × List Observation) : Prop :=
  match label.1 with
  | .setScheduler granted => granted = true
  | .instruction input => ∀ instr, sysfs.ncmInterp.fetch = .ok instr →
      Continues sysfs.ncmInterp instr input instr.opcode?
  | _ => True

/-! ## One state -/

section State

variable {sysfs after : NcmSysfs} {buf : List UInt8} {env : NetEnv}

theorem isRunning_iff_active {interpreter : Interpreter}
    (alive : ∀ exit, interpreter.thread ≠ some (.returned exit)) :
    interpreter.isRunning = true ↔ interpreter.Active := by
  unfold Interpreter.isRunning Interpreter.Active
  cases thread : interpreter.thread with
  | none => simp
  | some thread' =>
      cases thread' with
      | created => simp
      | looping => simp
      | returned exit => exact (alive exit thread).elim

theorem shows_running_iff :
    ncmSysfsShowControl sysfs = runningText ↔ sysfs.ncmInterp.isRunning = true := by
  unfold ncmSysfsShowControl
  cases sysfs.ncmInterp.isRunning with
  | true => exact iff_of_true rfl rfl
  | false => exact iff_of_false (by decide) Bool.false_ne_true

/-- A run of a stopped interpreter starts it. -/
theorem run_starts (command : buf.take 3 = runCommand)
    (stopped : sysfs.ncmInterp.isRunning = false) (loaded : Loaded sysfs)
    (done : ncmSysfsStoreControl sysfs buf env = .ok after) :
    after.ncmInterp.thread = some .created := by
  rw [ncmSysfsStoreControl, if_pos command,
    if_pos (show Startable sysfs from ⟨stopped, loaded⟩)] at done
  obtain ⟨interpreter, started, finish⟩ := bind_eq_ok.mp done
  obtain ⟨⟨network, acquired⟩, _, built⟩ := bind_eq_ok.mp started
  cases built
  cases finish
  rfl

/-- A write that begins to stop finds the pointer set. -/
theorem stop_running (done : ncmSysfsStoreControl sysfs buf env = .ok after)
    (before : sysfs.stopping = false) (begun : after.stopping = true) :
    sysfs.ncmInterp.isRunning = true := by
  cases ncmSysfsStoreControl_cases done with
  | starts => cases before.symm.trans begun
  | tearsDown command running destroyed => exact running
  | ignores => cases before.symm.trans begun

/-- The control file tells the truth as long as the thread has not returned. -/
theorem controlFileTrue_iff :
    ControlFileTrue sysfs ↔ ∀ exit, sysfs.ncmInterp.thread ≠ some (.returned exit) := by
  constructor
  · intro truth exit returned
    have running : sysfs.ncmInterp.isRunning = true := by
      rw [Interpreter.isRunning, returned]
      rfl
    exact not_active_of_returned returned (truth.running_iff.mp running)
  · intro alive
    have running_iff := isRunning_iff_active alive
    constructor
    · exact running_iff
    · rw [shows_running_iff]
      exact running_iff
    · intro buf env after command inactive loaded done
      have stopped : sysfs.ncmInterp.isRunning = false :=
        Bool.eq_false_iff.mpr fun running => inactive (running_iff.mp running)
      exact run_starts command stopped loaded done
    · intro buf env after _ done before begun
      exact running_iff.mp (stop_running done before begun)

end State

/-! ## One iteration -/

section Iterations

variable {long : LongWidth} {interpreter : Interpreter} {instr : Instr} {input : StepInput}
  {iteration : Iteration} {executed : Executed} {futures : Futures}

/-- Only a SEND among the data instructions can fail. -/
theorem handler_ok {opcode : Opcode} {handled : Exec Executed} (data : opcode.IsData)
    (notSend : opcode ≠ .send)
    (selected : handler? long interpreter instr input opcode = some handled)
    (done : handled = .ok executed) : executed.result = .ok := by
  subst done
  cases opcode <;> cases data
  all_goals have done := Option.some.inj selected
  case nop =>
      cases done
      rfl
  case clearCounter | addToCounter | subFromCounter | setCounter | create | receive =>
      obtain ⟨_, _, finish⟩ := bind_eq_ok.mp done
      cases finish
      rfl
  case send => exact (notSend rfl).elim
  case sync =>
      unfold handleSync at done
      split at done
      · obtain ⟨_, _, finish⟩ := bind_eq_ok.mp done
        cases finish
        rfl
      · obtain ⟨_, _, finish⟩ := bind_eq_ok.mp done
        cases finish
        rfl

theorem handleResult_exit_iff : executed.handleResult.exit = none ↔ executed.result ≠ .error := by
  unfold Executed.handleResult
  split
  · next ok => simp [ok]
  · next error => simp [error]
  · next jump => simp [jump]

theorem length_of_represents (represents : interpreter.futureQueue.Represents futures) :
    interpreter.futureQueue.length.toNat = futures.contents.length := by
  rw [← FutureQueue.live_length, represents.live_eq]

/-- FUTURE fails at a target outside the length and at a full queue. -/
theorem handleFuture_continues (represents : interpreter.futureQueue.Represents futures)
    (done : handleFuture interpreter instr input = .ok executed) :
    executed.result ≠ .error ↔ instr.arg1 < interpreter.programLength ∧
      interpreter.futureQueue.length.toNat ≠ maxFutures := by
  by_cases outside : instr.arg1 ≥ interpreter.programLength
  · cases (handleFuture_outside outside).symm.trans done
    have outside' : ¬ instr.arg1 < interpreter.programLength := by simpa using outside
    exact iff_of_false (fun fails => fails rfl) fun inside => outside' inside.1
  · have inside : instr.arg1 < interpreter.programLength := by simpa using outside
    cases push : futures.push (pushedEl instr.arg1 instr.arg0.toUInt64 input.pushClock) with
    | none =>
        cases (handleFuture_refused represents outside push).symm.trans done
        have full := (futures.push_eq_none_iff _).mp push
        rw [← length_of_represents represents] at full
        exact iff_of_false (fun fails => fails rfl) fun room => room.2 full
    | some after =>
        obtain ⟨queue, _, accepted⟩ := handleFuture_accepted represents outside push
        cases accepted.symm.trans done
        exact iff_of_true nofun ⟨inside, room_of_push represents push⟩

theorem handleHalt_continues (represents : interpreter.futureQueue.Represents futures)
    (done : handleHalt interpreter input long = .ok executed) :
    executed.result ≠ .error ↔ interpreter.futureQueue.length.toNat ≠ 0 := by
  rw [length_of_represents represents]
  cases pop : futures.pop with
  | none =>
      cases (handleHalt_refused represents pop).symm.trans done
      have empty := futures.pop_eq_none_iff.mp pop
      rw [empty]
      exact iff_of_false (fun fails => fails rfl) fun nonempty => nonempty rfl
  | some taken =>
      obtain ⟨el, after⟩ := taken
      obtain ⟨queue, _, accepted⟩ := handleHalt_accepted represents input long pop
      cases accepted.symm.trans done
      rw [BoundedQueue.contents_pop pop]
      exact iff_of_true nofun nofun

/-- WAIT fails where its FUTURE does. -/
theorem handleWait_continues (represents : interpreter.futureQueue.Represents futures)
    (done : handleWait interpreter instr input long = .ok executed) :
    executed.result ≠ .error ↔ instr.arg1 < interpreter.programLength ∧
      interpreter.futureQueue.length.toNat ≠ maxFutures := by
  rcases handleWait_cases represents instr input long with
    ⟨refused, future⟩ | ⟨middle, el, after, queue, inside, push, _, _, waited⟩
  · rw [← handleFuture_continues represents future]
    cases refused.symm.trans done
    exact Iff.rfl
  · cases waited.symm.trans done
    exact iff_of_true nofun ⟨inside, room_of_push represents push⟩

theorem handleGoto_continues (done : handleGoto interpreter instr = .ok executed) :
    executed.result ≠ .error ↔ instr.arg0 < interpreter.programLength := by
  unfold handleGoto at done
  dsimp only at done
  split at done
  · next outside =>
      cases done
      exact iff_of_false (fun fails => fails rfl) (by simpa using outside)
  · next inside =>
      cases done
      exact iff_of_true nofun (by simpa using inside)

/-- IF fails at an unknown guard. -/
theorem handleIf_continues (done : handleIf interpreter instr = .ok executed) :
    executed.result ≠ .error ↔ Guard.ofCode? instr.arg0 ≠ none := by
  obtain ⟨⟨holds, status⟩, tested, finish⟩ := bind_eq_ok.mp done
  unfold testGuard at tested
  split at tested
  · next guard known =>
      obtain ⟨result, _, finish'⟩ := bind_eq_ok.mp tested
      cases finish'
      rw [known]
      cases holds with
      | true =>
          cases finish
          exact iff_of_true nofun nofun
      | false =>
          cases finish
          exact iff_of_true nofun nofun
  · next unknown =>
      cases tested
      cases finish
      rw [unknown]
      exact iff_of_false (fun fails => fails rfl) fun known => known rfl

theorem handleSend_continues (done : handleSend interpreter instr input = .ok executed) :
    executed.result ≠ .error ↔ SendAccepted interpreter.network instr.arg0.toNat
      instr.arg1.toNat input.txStatus := by
  obtain ⟨⟨ret, network, events⟩, sent, finish⟩ := bind_eq_ok.mp done
  cases finish
  rw [← sendAccepted_iff sent]
  dsimp only
  split
  · next nonneg => exact iff_of_true nofun nonneg
  · next negative => exact iff_of_false (fun fails => fails rfl) negative

theorem handler_continues {opcode : Opcode} {handled : Exec Executed}
    (represents : interpreter.futureQueue.Represents futures)
    (selected : handler? long interpreter instr input opcode = some handled)
    (done : handled = .ok executed) :
    executed.result ≠ .error ↔ Continues interpreter instr input (some opcode) := by
  have continues (data : opcode.IsData) (notSend : opcode ≠ .send) : executed.result ≠ .error := by
    rw [handler_ok data notSend selected done]
    exact nofun
  cases opcode with
  | future => cases selected; exact handleFuture_continues represents done
  | halt => cases selected; exact handleHalt_continues represents done
  | wait => cases selected; exact handleWait_continues represents done
  | goto => cases selected; exact handleGoto_continues done
  | «if» => cases selected; exact handleIf_continues done
  | send => cases selected; exact handleSend_continues done
  | nop | clearCounter | addToCounter | subFromCounter | setCounter | create | receive | sync =>
      exact iff_of_true (continues rfl nofun) rfl
  | mode | destroy | handle | xsend | backupSend | backupReceive | endOfProgram => cases selected

theorem not_continues_of_no_handler {opcode : Opcode}
    (absent : handler? long interpreter instr input opcode = none) :
    ¬ Continues interpreter instr input (some opcode) := by
  cases opcode with
  | mode | destroy | handle | xsend | backupSend | backupReceive | endOfProgram =>
      exact Bool.false_ne_true
  | nop | future | halt | wait | goto | «if» | clearCounter | addToCounter | subFromCounter
  | setCounter | create | send | receive | sync => cases absent

/-- An iteration goes on exactly under its condition. -/
theorem execute_continues_iff (represents : interpreter.futureQueue.Represents futures)
    (done : execute long interpreter instr input = .ok iteration) :
    iteration.exit = none ↔ Continues interpreter instr input instr.opcode? := by
  unfold execute at done
  split at done
  · next absent =>
      cases done
      apply iff_of_false nofun
      cases decoded : instr.opcode? with
      | none => exact id
      | some opcode =>
          rw [decoded, Option.bind_some] at absent
          exact not_continues_of_no_handler absent
  · next handled selected =>
      obtain ⟨opcode, decoded, selected⟩ := Option.bind_eq_some_iff.mp selected
      obtain ⟨executed, ran, finish⟩ := bind_eq_ok.mp done
      cases finish
      rw [handleResult_exit_iff, decoded]
      exact handler_continues represents selected ran

end Iterations

/-! ## Runs -/

section Runs

variable {long : LongWidth}

/-- The thread has returned after an iteration if the iteration exits. -/
theorem resume_alive_iff {iteration : Iteration}
    (looping : iteration.interpreter.thread = some .looping) :
    (∀ exit, iteration.resume.thread ≠ some (.returned exit)) ↔ iteration.exit = none := by
  unfold Iteration.resume
  cases iteration.exit with
  | none =>
      refine iff_of_true (fun exit returned => ?_) rfl
      cases looping.symm.trans returned
  | some exit => exact iff_of_false (fun alive => alive exit rfl) nofun

/-- From a state in which it tells the truth, the control file goes on telling
it exactly if the thread does not return. -/
theorem step_controlFileTrue_iff (before : NcmSysfs) (label : Action × List Observation)
    (after : NcmSysfs) (represented : ∃ futures, before.ncmInterp.futureQueue.Represents futures)
    (truth : ControlFileTrue before) (hstep : Step long before label after) :
    ControlFileTrue after ↔ GoesOn before label := by
  have alive := controlFileTrue_iff.mp truth
  rw [controlFileTrue_iff]
  obtain ⟨action, shown⟩ := label
  cases step_transition hstep with
  | storesCode =>
      rw [ncmSysfsStoreCode_ncmInterp]
      exact iff_of_true alive trivial
  | storesParams =>
      rw [ncmSysfsStoreParams_ncmInterp]
      exact iff_of_true alive trivial
  | storesVar => exact iff_of_true alive trivial
  | storesControl idle controls =>
      cases controls with
      | starts => exact iff_of_true nofun trivial
      | tearsDown => exact iff_of_true alive trivial
      | ignores => exact iff_of_true alive trivial
  | schedules granted created =>
      cases granted with
      | true => exact iff_of_true nofun rfl
      | false => exact iff_of_false (fun alive => alive _ rfl) Bool.false_ne_true
  | iterates looping fetched done =>
      obtain ⟨futures, represents⟩ := represented
      obtain ⟨futures', controlStep, _⟩ := execute_controlled represents done
      dsimp only
      rw [resume_alive_iff (controlStep.thread_eq.trans looping),
        execute_continues_iff represents done]
      constructor
      · intro continues other fetched'
        cases fetched.symm.trans fetched'
        exact continues
      · intro goesOn
        exact goesOn _ fetched
  | joins => exact iff_of_true nofun trivial
  | receives => exact iff_of_true alive trivial

/--
In a run from loading the module the control file tells the truth in every
state if and only if the thread never returns by itself.
-/
theorem controlFile_tellsTruth_iff {labels : List (Action × List Observation)} {sysfs : NcmSysfs}
    (run : Run (Step long) initModule labels sysfs) :
    Run.Throughout (Step long) ControlFileTrue initModule labels ↔
      Run (Meeting (Step long) GoesOn) initModule labels sysfs := by
  have kept (before : NcmSysfs) (label : Action × List Observation) (after : NcmSysfs)
      (represented : ∃ futures, before.ncmInterp.futureQueue.Represents futures)
      (hstep : Step long before label after) :
      ∃ futures, after.ncmInterp.futureQueue.Represents futures := by
    obtain ⟨futures, represents⟩ := represented
    obtain ⟨futures', represents', _⟩ := (step_moves hstep).run_events represents
    exact ⟨futures', represents'⟩
  have deterministic (before : NcmSysfs) (label : Action × List Observation)
      (after after' : NcmSysfs) (hstep : Step long before label after)
      (hstep' : Step long before label after') : after = after' :=
    (Prod.mk.inj (Except.ok.inj (hstep.symm.trans hstep'))).1
  exact Run.throughout_iff_meeting deterministic kept step_controlFileTrue_iff run
    ⟨_, initModule_represents⟩ (controlFileTrue_iff.mpr nofun)

end Runs

/-- A program that jumps to itself never returns. -/
theorem controlFile_tellsTruth_iff_goto :
    ∃ labels sysfs, Run (Step .bits64) initModule labels sysfs ∧
      sysfs.ncmInterp.thread = some .looping ∧
      (Run.Throughout (Step .bits64) ControlFileTrue initModule labels ↔
        Run (Meeting (Step .bits64) GoesOn) initModule labels sysfs) := by
  have done : ∃ labels sysfs,
      runFromInit .bits64 (loadAndRun [.make .goto 0 0 0 0] noChannels .bare ++
        [.instruction (.atClock 0 0 0)]) = .ok (sysfs, labels) ∧
      sysfs.ncmInterp.thread = some .looping :=
    ⟨_, _, rfl, rfl⟩
  obtain ⟨labels, sysfs, done, looping⟩ := done
  exact ⟨labels, sysfs, run_of_runFromInit done, looping,
    controlFile_tellsTruth_iff (run_of_runFromInit done)⟩

/-- After END_OF_PROGRAM the control file still says that the program runs. -/
theorem controlFile_afterEnd :
    ¬ ∀ (long : LongWidth) (labels : List (Action × List Observation)) (sysfs : NcmSysfs),
      Run (Step long) initModule labels sysfs → ControlFileTrue sysfs := by
  intro claim
  have done : ∃ labels sysfs,
      runFromInit .bits64 (loadAndRun [.make .endOfProgram 0 0 0 0] noChannels .bare ++
        [.instruction (.atClock 0 0 0)]) = .ok (sysfs, labels) ∧
      sysfs.ncmInterp.thread = some (.returned .programOk) :=
    ⟨_, _, rfl, rfl⟩
  obtain ⟨labels, sysfs, done, returned⟩ := done
  have truth := claim _ labels sysfs (run_of_runFromInit done)
  exact controlFileTrue_iff.mp truth _ returned

end NetworkCode.Kernel
