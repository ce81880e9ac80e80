import NetworkCode.Kernel.ProgramCounter
import NetworkCode.Kernel.VariableTransport

/-!
# Between teardown and the end of the thread

A write of `stop` releases the network first and stops the interpreter thread
afterwards.  In between the thread goes on with its program.  The addresses it
can come to are closed under the control flow of the program.
-/

namespace NetworkCode.Kernel

open Library Library.Checked

/-- The instruction works with the channels. -/
def Instr.UsesNetwork (instr : Instr) : Prop :=
  instr.opcode? = some .send ∨ instr.opcode? = some .receive ∨ instr.opcode? = some .sync ∨
    instr.opcode? = some .if ∧ Guard.ofCode? instr.arg0 = some .channelXyRcvBufEmpty

/-- The thread is about to execute the instruction. -/
structure Interpreter.Executes (interpreter : Interpreter) (instr : Instr) : Prop where
  looping : interpreter.thread = some .looping
  fetched : interpreter.fetch = .ok instr

/-- The network is there for the instruction that the thread is about to execute. -/
def NetworkStands (sysfs : NcmSysfs) : Prop :=
  ∀ instr, sysfs.ncmInterp.Executes instr → instr.UsesNetwork →
    sysfs.ncmInterp.network.table ≠ none

/-! ## Control flow -/

/-- The instruction may be followed by the next one. -/
def Instr.CanFall (instr : Instr) (length : UInt32) : Prop :=
  (∃ opcode : Opcode, instr.opcode? = some opcode ∧ opcode.IsData) ∨
    instr.opcode? = some .future ∧ instr.arg1 < length ∨
    instr.opcode? = some .if ∧
      ∃ guard, Guard.ofCode? instr.arg0 = some guard ∧ guard ≠ .alwaysTrue

/-- The instruction may jump to the target at once. -/
def Instr.CanJump (instr : Instr) (length target : UInt32) : Prop :=
  instr.opcode? = some .goto ∧ target = instr.arg0 ∧ target < length ∨
    instr.opcode? = some .if ∧ target = instr.arg1 ∧
      ∃ guard, Guard.ofCode? instr.arg0 = some guard ∧ guard ≠ .alwaysFalse

/-- The instruction leaves a future with its target. -/
def Instr.CanPark (instr : Instr) (length : UInt32) : Prop :=
  (instr.opcode? = some .future ∨ instr.opcode? = some .wait) ∧ instr.arg1 < length

/-- The instruction may jump to the target of a future. -/
def Instr.CanResume (instr : Instr) (length : UInt32) : Prop :=
  instr.opcode? = some .halt ∨ instr.opcode? = some .wait ∧ instr.arg1 < length

/-- Addresses of the counter and targets of futures that the program does not
leave, with no instruction among them that works with the channels. -/
structure FlowClosed (block : CodeBlock) (length : UInt32) (addresses targets : UInt32 → Prop) :
    Prop where
  falls : ∀ counter instr, addresses counter → block.fetch counter.toNat = .ok instr →
    instr.CanFall length → addresses (counter + 1)
  jumps : ∀ counter instr target, addresses counter → block.fetch counter.toNat = .ok instr →
    instr.CanJump length target → addresses target
  parks : ∀ counter instr, addresses counter → block.fetch counter.toNat = .ok instr →
    instr.CanPark length → targets instr.arg1
  resumes : ∀ counter instr target, addresses counter → block.fetch counter.toNat = .ok instr →
    instr.CanResume length → targets target → addresses target
  offNetwork : ∀ counter instr, addresses counter → block.fetch counter.toNat = .ok instr →
    ¬ instr.UsesNetwork

/-- The control flow from here on comes to no instruction that works with the
channels. -/
def Interpreter.OffNetwork (interpreter : Interpreter) : Prop :=
  ∀ block, interpreter.program = some block →
    ∃ addresses targets, FlowClosed block interpreter.programLength addresses targets ∧
      addresses interpreter.programCounter ∧
      ∀ el ∈ interpreter.futureQueue.live, targets el.jmpAddress

/-- A `stop` finds the thread returned, or off the network from here on. -/
def StopsOffNetwork (sysfs : NcmSysfs) (label : Action × List Observation) : Prop :=
  match label.1 with
  | .storeControl buf _ => buf.take 4 = stopCommand → sysfs.ncmInterp.Active →
      sysfs.ncmInterp.OffNetwork
  | _ => True

variable {long : LongWidth}

/-! ## The window -/

/-- While the network is down, the thread is off it. -/
structure WindowInvariant (interpreter : Interpreter) : Prop where
  represented : ∃ futures, interpreter.futureQueue.Represents futures
  off : interpreter.network.table = none → interpreter.Active → interpreter.OffNetwork

theorem WindowInvariant.of_idle {interpreter : Interpreter}
    (represented : ∃ futures, interpreter.futureQueue.Represents futures)
    (idle : ¬ interpreter.Active) : WindowInvariant interpreter :=
  ⟨represented, fun _ active => (idle active).elim⟩

section Window

variable {interpreter after : Interpreter} {instr : Instr} {input : StepInput}
  {iteration : Iteration}

/-- A guard that can be tested is one of the table. -/
theorem testGuard_known {guardId arg0 arg1 : UInt32} {holds : Bool}
    (tested : testGuard interpreter guardId arg0 arg1 = .ok (holds, .guardOk)) :
    ∃ guard, Guard.ofCode? guardId = some guard ∧
      guard.handle interpreter arg0 arg1 = .ok holds := by
  unfold testGuard at tested
  split at tested
  · next guard known =>
      obtain ⟨result, handled, finish⟩ := bind_eq_ok.mp tested
      cases finish
      exact ⟨guard, known, handled⟩
  · cases tested

theorem Interpreter.OffNetwork.of_closed {block : CodeBlock} {target : UInt32}
    {addresses targets : UInt32 → Prop} {futures : Futures}
    (closed : FlowClosed block interpreter.programLength addresses targets)
    (program : interpreter.program = some block)
    (control : after.control = { interpreter.control with programCounter := target })
    (represents : after.futureQueue.Represents futures) (inside : addresses target)
    (parked : JumpTo targets futures) : after.OffNetwork := by
  intro block' program'
  rw [show after.program = interpreter.program from congrArg Control.program control,
    program] at program'
  cases program'
  refine ⟨addresses, targets, ?_, ?_, ?_⟩
  · rw [show after.programLength = interpreter.programLength from
      congrArg Control.programLength control]
    exact closed
  · rw [show after.programCounter = target from congrArg Control.programCounter control]
    exact inside
  · rw [represents.live_eq]
    exact parked

/-- Each way to continue stays off the network. -/
theorem ControlStep.off_network {futures futures' : Futures}
    (controlStep : ControlStep long interpreter futures instr input iteration futures')
    (represents : interpreter.futureQueue.Represents futures)
    (represents' : iteration.interpreter.futureQueue.Represents futures')
    (fetched : interpreter.fetch = .ok instr) (off : interpreter.OffNetwork)
    (continues : iteration.exit = none) : iteration.interpreter.OffNetwork := by
  obtain ⟨block, program, fetched⟩ := Interpreter.fetch_eq_ok.mp fetched
  obtain ⟨addresses, targets, closed, inside, live⟩ := off block program
  have parked : JumpTo targets futures := by
    rw [JumpTo, ← represents.live_eq]
    exact live
  cases controlStep with
  | exits exit => exact (exit continues).elim
  | falls opcode decoded cause exit control =>
      refine .of_closed closed program control represents' ?_ parked
      apply closed.falls _ _ inside fetched
      rcases cause with data | ⟨rfl, tested⟩
      · exact .inl ⟨opcode, decoded, data⟩
      · obtain ⟨guard, known, handled⟩ := testGuard_known tested
        refine .inr (.inr ⟨decoded, guard, known, ?_⟩)
        rintro rfl
        cases handled
  | jumps target cause exit control =>
      refine .of_closed closed program control represents' ?_ parked
      apply closed.jumps _ _ _ inside fetched
      rcases cause with accepted | ⟨decoded, same, tested⟩
      · exact .inl accepted
      · obtain ⟨guard, known, handled⟩ := testGuard_known tested
        refine .inr ⟨decoded, same, guard, known, ?_⟩
        rintro rfl
        cases handled
  | pushes decoded accepted push exit control =>
      have target := closed.parks _ _ inside fetched ⟨.inl decoded, accepted⟩
      exact .of_closed closed program control represents'
        (closed.falls _ _ inside fetched (.inr (.inl ⟨decoded, accepted⟩)))
        (parked.push push target)
  | resumes decoded pop exit control =>
      obtain ⟨target, parked'⟩ := parked.pop pop
      exact .of_closed closed program control represents'
        (closed.resumes _ _ _ inside fetched (.inl decoded) target) parked'
  | waits decoded accepted push pop exit control =>
      have pushed := closed.parks _ _ inside fetched ⟨.inr decoded, accepted⟩
      obtain ⟨target, parked'⟩ := (parked.push push pushed).pop pop
      exact .of_closed closed program control represents'
        (closed.resumes _ _ _ inside fetched (.inr ⟨decoded, accepted⟩) target) parked'

/-- Off the network the thread executes nothing that works with the channels. -/
theorem Interpreter.OffNetwork.not_usesNetwork (off : interpreter.OffNetwork)
    (executes : interpreter.Executes instr) : ¬ instr.UsesNetwork := by
  obtain ⟨block, program, fetched⟩ := Interpreter.fetch_eq_ok.mp executes.fetched
  obtain ⟨addresses, targets, closed, inside, _⟩ := off block program
  exact closed.offNetwork _ _ inside fetched

theorem Network.SameSetup.table_eq_none {before network : Network}
    (same : before.SameSetup network) (down : network.table = none) : before.table = none := by
  have mapped := same.table
  rw [down] at mapped
  exact Option.map_eq_none_iff.mp mapped.symm

theorem WindowInvariant.iterate (invariant : WindowInvariant interpreter)
    (looping : interpreter.thread = some .looping) (fetched : interpreter.fetch = .ok instr)
    (done : execute long interpreter instr input = .ok iteration) :
    WindowInvariant iteration.resume := by
  obtain ⟨futures, represents⟩ := invariant.represented
  obtain ⟨futures', controlStep, represents'⟩ := execute_controlled represents done
  refine ⟨⟨futures', by rwa [resume_futureQueue]⟩, fun down active => ?_⟩
  rw [resume_network] at down
  have off := invariant.off ((execute_sameSetup done).table_eq_none down) (.inr looping)
  cases continues : iteration.exit with
  | some exit =>
      rw [Iteration.resume, continues] at active
      exact (not_active_of_returned rfl active).elim
  | none =>
      rw [Iteration.resume, continues]
      exact controlStep.off_network represents represents' fetched off continues

end Window

theorem step_windowInvariant (before : NcmSysfs) (label : Action × List Observation)
    (after : NcmSysfs) (invariant : WindowInvariant before.ncmInterp)
    (hstep : Meeting (Step long) StopsOffNetwork before label after) :
    WindowInvariant after.ncmInterp := by
  obtain ⟨condition, hstep⟩ := hstep
  obtain ⟨action, shown⟩ := label
  cases step_transition hstep with
  | storesCode =>
      rw [ncmSysfsStoreCode_ncmInterp]
      exact invariant
  | storesParams =>
      rw [ncmSysfsStoreParams_ncmInterp]
      exact invariant
  | storesVar => exact ⟨invariant.represented, invariant.off⟩
  | storesControl _ controls =>
      cases controls with
      | starts command startable initialised =>
          refine ⟨invariant.represented, fun down => ?_⟩
          obtain ⟨table, _, rfl⟩ := initNetwork_eq_ok initialised
          cases down
      | tearsDown command =>
          exact ⟨invariant.represented, fun _ active => condition command active⟩
      | ignores => exact invariant
  | schedules granted created =>
      cases granted with
      | true => exact ⟨invariant.represented, fun down _ => invariant.off down (.inl created)⟩
      | false => exact .of_idle invariant.represented (not_active_of_returned rfl)
  | iterates looping fetched done => exact invariant.iterate looping fetched done
  | joins => exact .of_idle invariant.represented (not_active_of_none rfl)
  | receives _ received =>
      refine ⟨invariant.represented, fun down active => ?_⟩
      exact invariant.off ((receivingPass_sameSetup received).table_eq_none down) active

/--
In every run whose stops meet the condition, the thread is never about to
execute an instruction that works with the channels of a network that has been
taken down.
-/
theorem network_stands_while_used {labels : List (Action × List Observation)} {sysfs : NcmSysfs}
    (run : Run (Meeting (Step long) StopsOffNetwork) initModule labels sysfs) :
    NetworkStands sysfs := by
  have initial : WindowInvariant initModule.ncmInterp :=
    .of_idle ⟨_, initModule_represents⟩ (not_active_of_none rfl)
  have invariant : WindowInvariant sysfs.ncmInterp :=
    run.invariant (fun sysfs => WindowInvariant sysfs.ncmInterp) step_windowInvariant initial
  intro instr executes uses down
  exact (invariant.off down (.inr executes.looping)).not_usesNetwork executes uses

/-- A program that jumps to itself has no other address. -/
theorem flowClosed_goto : FlowClosed (CodeBlock.ofInstrs [.make .goto 0 0 0 0]) 20
    (fun address => address = 0) (fun _ => False) := by
  have goto {counter : UInt32} {instr : Instr} (here : counter = 0)
      (fetched : (CodeBlock.ofInstrs [.make .goto 0 0 0 0]).fetch counter.toNat = .ok instr) :
      instr.opcode? = some .goto ∧ instr.arg0 = 0 := by
    subst here
    cases fetched
    exact ⟨rfl, rfl⟩
  constructor
  · intro counter instr here fetched falls
    obtain ⟨decoded, _⟩ := goto here fetched
    rcases falls with ⟨opcode, other, data⟩ | ⟨other, _⟩ | ⟨other, _⟩
    · cases decoded.symm.trans other
      cases data
    · cases decoded.symm.trans other
    · cases decoded.symm.trans other
  · intro counter instr target here fetched jumps
    obtain ⟨decoded, arg⟩ := goto here fetched
    rcases jumps with ⟨_, same, _⟩ | ⟨other, _⟩
    · exact same.trans arg
    · cases decoded.symm.trans other
  · rintro counter instr here fetched ⟨other | other, _⟩
    · cases (goto here fetched).1.symm.trans other
    · cases (goto here fetched).1.symm.trans other
  · intro counter instr target here fetched _ impossible
    exact impossible.elim
  · rintro counter instr here fetched (other | other | other | ⟨other, _⟩)
    all_goals cases (goto here fetched).1.symm.trans other

/-- A program that jumps to itself is stopped and goes on in the window. -/
theorem network_stands_while_used_goto :
    ∃ labels sysfs, Run (Meeting (Step .bits64) StopsOffNetwork) initModule labels sysfs ∧
      labels.length = 6 ∧ sysfs.ncmInterp.network.table = none ∧
      sysfs.ncmInterp.thread = some .looping ∧ NetworkStands sysfs := by
  have run : ∃ labels sysfs,
      Run (Meeting (Step .bits64) StopsOffNetwork) initModule labels sysfs ∧
        labels.length = 6 ∧ sysfs.ncmInterp.network.table = none ∧
        sysfs.ncmInterp.thread = some .looping := by
    have loaded : Run (Meeting (Step .bits64) StopsOffNetwork) initModule [] initModule :=
      .refl _
    have stored := run_advance
      (.storeCode (CodeBlock.ofInstrs [.make .goto 0 0 0 0]).bytes (some fun _ => 0))
      loaded rfl trivial
    have configured := run_advance
      (.storeParams oneChannel (some fun _ => 0) (some fun _ => 0)) stored rfl trivial
    have started := run_advance (.storeControl runCommand .bare) configured rfl nofun
    have scheduled := run_advance (.setScheduler true) started rfl trivial
    have torn := run_advance (.storeControl stopCommand .bare) scheduled rfl
      fun _ _ block loaded => by cases loaded; exact ⟨_, _, flowClosed_goto, rfl, nofun⟩
    have jumped := run_advance (.instruction (.atClock 0 0 0)) torn rfl trivial
    exact ⟨_, _, jumped, rfl, rfl, rfl⟩
  obtain ⟨labels, sysfs, run, length, down, looping⟩ := run
  exact ⟨labels, sysfs, run, length, down, looping, network_stands_while_used run⟩

/-- A SEND is next when the network goes down. -/
theorem send_in_window :
    ¬ ∀ (long : LongWidth) (labels : List (Action × List Observation)) (sysfs : NcmSysfs),
      Run (Step long) initModule labels sysfs → NetworkStands sysfs := by
  intro claim
  have done : ∃ labels sysfs,
      runFromInit .bits64 (loadAndRun [.make .send 0 0 0 0] oneChannel .carded ++
        [.storeControl stopCommand .carded]) = .ok (sysfs, labels) ∧
      sysfs.ncmInterp.thread = some .looping ∧
      sysfs.ncmInterp.fetch = .ok (.make .send 0 0 0 0) ∧
      sysfs.ncmInterp.network.table = none :=
    ⟨_, _, rfl, rfl, rfl, rfl⟩
  obtain ⟨labels, sysfs, done, looping, fetched, down⟩ := done
  exact claim _ labels sysfs (run_of_runFromInit done) _ ⟨looping, fetched⟩
    (.inl (Instr.opcode?_make ..)) down

end NetworkCode.Kernel
