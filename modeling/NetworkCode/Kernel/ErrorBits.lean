import NetworkCode.Kernel.SyncWait
import NetworkCode.Library.Bits

/-!
# The error bits over a run

RECEIVE and a slave SYNC each own one bit and write it whenever they are
executed.  One equation says what an instruction does to any bit; over a run
every bit is the last outcome of its instruction.
-/

namespace NetworkCode.Kernel

open Library Library.Checked

/-- One of the error bits. -/
def Interpreter.errorBit (interpreter : Interpreter) (position : Nat) : Bool :=
  interpreter.errorBits.toNat.testBit position

/-! ## Outcomes -/

/-- Whether a RECEIVE finds its queue empty. -/
def receiveOutcome? (interpreter : Interpreter) (instr : Instr) : Option Bool :=
  if instr.opcode? = some .receive then
    (ncmRxBuffEmpty interpreter.network instr.arg0.toNat).toOption
  else
    none

/-- Whether a slave SYNC times out. -/
def syncOutcome? (interpreter : Interpreter) (instr : Instr) (input : StepInput) : Option Bool :=
  if instr.opcode? = some .sync ∧ instr.arg0 ≠ syncMaster then
    (syncAnswer interpreter instr input).toOption.map fun ret => ret = -ncEtimeout
  else
    none

/-- The outcome that a bit stands for, if the instruction has one. -/
def bitOutcome? (position : Nat) (interpreter : Interpreter) (instr : Instr)
    (input : StepInput) : Option Bool :=
  if position = Interpreter.errBitRcvFault.toNat then receiveOutcome? interpreter instr
  else if position = Interpreter.errBitSyncTimeout.toNat then syncOutcome? interpreter instr input
  else none

/-- The outcome of an instruction that is executed in a recorded step. -/
def recordedOutcome? (outcome? : Interpreter → Instr → StepInput → Option Bool) :
    NcmSysfs × Action × List Observation → Option Bool
  | (before, .instruction input, _) =>
      before.ncmInterp.fetch.toOption.bind fun instr => outcome? before.ncmInterp instr input
  | _ => none

/-- The instructions that write an error bit. -/
def Instr.NotesResult (instr : Instr) : Prop :=
  instr.opcode? = some .receive ∨ instr.opcode? = some .sync ∧ instr.arg0 ≠ syncMaster

theorem bitOutcome?_of_silent {interpreter : Interpreter} {instr : Instr} {input : StepInput}
    {position : Nat} (silent : ¬ instr.NotesResult) :
    bitOutcome? position interpreter instr input = none := by
  have notReceive : instr.opcode? ≠ some .receive := fun receive => silent (.inl receive)
  have notSlave : ¬ (instr.opcode? = some .sync ∧ instr.arg0 ≠ syncMaster) :=
    fun slave => silent (.inr slave)
  rw [bitOutcome?, receiveOutcome?, if_neg notReceive, syncOutcome?, if_neg notSlave, ite_self,
    ite_self]

/-- The action is one of these instructions. -/
def NotesResult (sysfs : NcmSysfs) : Action → Prop
  | .instruction _ => ∃ instr, sysfs.ncmInterp.fetch = .ok instr ∧ instr.NotesResult
  | _ => False

/-! ## What an instruction does to a bit -/

section Instructions

variable {long : LongWidth} {interpreter : Interpreter} {instr : Instr} {input : StepInput}
  {executed : Executed} {iteration : Iteration} {position : Nat}

theorem errorBit_noteResult (bit : UInt8) (small : bit.toUInt32.toNat < 16) (result : Int) :
    (interpreter.noteResult bit result).errorBit position =
      if position = bit.toNat then decide (result < 0) else interpreter.errorBit position := by
  unfold Interpreter.noteResult
  split
  · next failed =>
      rw [decide_eq_true failed]
      exact Bits.testBit_set small position
  · next succeeded =>
      rw [decide_eq_false succeeded]
      exact Bits.testBit_clear small position

/-- The instructions beside RECEIVE and SYNC leave the bits alone. -/
theorem handler_errorBits {opcode : Opcode} (notReceive : opcode ≠ .receive)
    (notSync : opcode ≠ .sync)
    (selected : handler? long interpreter instr input opcode = some (.ok executed)) :
    executed.interpreter.errorBits = interpreter.errorBits := by
  cases opcode with
  | create =>
      obtain ⟨network, _, finish⟩ := bind_eq_ok.mp (Option.some.inj selected)
      cases finish
      rfl
  | send =>
      obtain ⟨⟨ret, network, events⟩, _, finish⟩ := bind_eq_ok.mp (Option.some.inj selected)
      cases finish
      rfl
  | receive => exact absurd rfl notReceive
  | sync => exact absurd rfl notSync
  | _ =>
      obtain ⟨_, _, _, moved⟩ := handler_steers selected nofun nofun nofun nofun
      rw [moved]

theorem handleResult_errorBits (executed : Executed) :
    executed.handleResult.interpreter.errorBits = executed.interpreter.errorBits := by
  unfold Executed.handleResult
  split <;> rfl

theorem execute_errorBits (notReceive : instr.opcode? ≠ some .receive)
    (notSync : instr.opcode? ≠ some .sync)
    (done : execute long interpreter instr input = .ok iteration) :
    iteration.interpreter.errorBits = interpreter.errorBits := by
  rcases execute_cases done with rfl | ⟨opcode, executed, decoded, selected, rfl⟩
  · rfl
  · rw [handleResult_errorBits]
    refine handler_errorBits ?_ ?_ selected
    · rintro rfl
      exact notReceive decoded
    · rintro rfl
      exact notSync decoded

/-- A RECEIVE fails exactly when it finds its queue empty. -/
theorem handleReceive_errorBit (done : handleReceive interpreter instr = .ok executed)
    (position : Nat) :
    ∃ empty, ncmRxBuffEmpty interpreter.network instr.arg0.toNat = .ok empty ∧
      executed.interpreter.errorBit position =
        if position = Interpreter.errBitRcvFault.toNat then empty
        else interpreter.errorBit position := by
  obtain ⟨⟨ret, network, varspace⟩, received, finish⟩ := bind_eq_ok.mp done
  cases finish
  refine ⟨decide (ret < 0), ?_, ?_⟩
  · unfold ncmRxBuffEmpty
    cases ncmReceiveMessageToVar_cases received with
    | emptyQueue found empty =>
        rw [found, ok_bind, empty]
        rfl
    | takes found queue stored =>
        rw [found, ok_bind, queue]
        rfl
  · rw [errorBit_noteResult _ (by decide)]
    rfl

/-- `ncm_receive_sync` succeeds or times out. -/
theorem receiveSyncLoop_result {timeout start : Int64} {buff : List UInt8}
    {reads : List (SockRead × UInt64)} {ret : Int} {armed : List UInt32}
    (answered : receiveSyncLoop timeout start buff reads = .ok (ret, armed)) :
    ret = 0 ∨ ret = -ncEtimeout := by
  induction reads generalizing buff armed with
  | nil => cases answered
  | cons first reads ih =>
      obtain ⟨length, _, continued⟩ := bind_eq_ok.mp answered
      split at continued
      · dsimp only at continued
        split at continued
        · cases continued
          exact .inr rfl
        · obtain ⟨⟨result, later⟩, rest, finish⟩ := bind_eq_ok.mp continued
          cases finish
          exact ih rest
      · cases continued
        exact .inl rfl

theorem handleSync_errorBit (done : handleSync interpreter instr input = .ok executed)
    (slave : instr.arg0 ≠ syncMaster) (position : Nat) :
    ∃ ret, syncAnswer interpreter instr input = .ok ret ∧
      executed.interpreter.errorBit position =
        if position = Interpreter.errBitSyncTimeout.toNat then decide (ret = -ncEtimeout)
        else interpreter.errorBit position := by
  unfold handleSync at done
  rw [if_neg slave] at done
  obtain ⟨⟨ret, armed⟩, answered, finish⟩ := bind_eq_ok.mp done
  cases finish
  refine ⟨ret, ?_, ?_⟩
  · rw [syncAnswer, answered]
    rfl
  · obtain ⟨⟨result, rest⟩, looped, finish⟩ := bind_eq_ok.mp answered
    cases finish
    have failed : decide (ret < 0) = decide (ret = -ncEtimeout) := by
      rcases receiveSyncLoop_result looped with rfl | rfl <;> rfl
    rw [errorBit_noteResult _ (by decide), failed]

theorem handleSync_master (done : handleSync interpreter instr input = .ok executed)
    (master : instr.arg0 = syncMaster) :
    executed.interpreter.errorBits = interpreter.errorBits := by
  unfold handleSync at done
  rw [if_pos master] at done
  obtain ⟨⟨ret, events⟩, _, finish⟩ := bind_eq_ok.mp done
  cases finish
  rfl

theorem bitOutcome?_receive (receive : instr.opcode? = some .receive) :
    bitOutcome? position interpreter instr input =
      if position = Interpreter.errBitRcvFault.toNat then
        (ncmRxBuffEmpty interpreter.network instr.arg0.toNat).toOption
      else none := by
  have notSync : ¬ (instr.opcode? = some .sync ∧ instr.arg0 ≠ syncMaster) := by
    rintro ⟨sync, _⟩
    cases receive.symm.trans sync
  rw [bitOutcome?, receiveOutcome?, if_pos receive, syncOutcome?, if_neg notSync, ite_self]

theorem bitOutcome?_sync (sync : instr.opcode? = some .sync) :
    bitOutcome? position interpreter instr input =
      if position = Interpreter.errBitSyncTimeout.toNat then
        syncOutcome? interpreter instr input
      else none := by
  have notReceive : instr.opcode? ≠ some .receive := fun receive => by
    cases receive.symm.trans sync
  rw [bitOutcome?, receiveOutcome?, if_neg notReceive]
  split
  · next first =>
      subst first
      rfl
  · rfl

theorem errorBit_congr {after : Interpreter} (same : after.errorBits = interpreter.errorBits) :
    after.errorBit position = interpreter.errorBit position := by
  rw [Interpreter.errorBit, same, Interpreter.errorBit]

theorem handleResult_errorBit (executed : Executed) :
    executed.handleResult.interpreter.errorBit position =
      executed.interpreter.errorBit position :=
  errorBit_congr (handleResult_errorBits executed)

/-- What an instruction does to a bit: its outcome, if the bit stands for it. -/
theorem execute_errorBit (done : execute long interpreter instr input = .ok iteration)
    (position : Nat) :
    iteration.interpreter.errorBit position =
      (bitOutcome? position interpreter instr input).getD (interpreter.errorBit position) := by
  by_cases receive : instr.opcode? = some .receive
  · rw [execute_of_handler receive rfl] at done
    obtain ⟨executed, handled, finish⟩ := bind_eq_ok.mp done
    cases finish
    obtain ⟨empty, found, written⟩ := handleReceive_errorBit handled position
    rw [handleResult_errorBit, written, bitOutcome?_receive receive, found]
    split <;> rfl
  · by_cases sync : instr.opcode? = some .sync
    · rw [execute_of_handler sync rfl] at done
      obtain ⟨executed, handled, finish⟩ := bind_eq_ok.mp done
      cases finish
      rw [handleResult_errorBit, bitOutcome?_sync sync, syncOutcome?]
      by_cases master : instr.arg0 = syncMaster
      · have notSlave : ¬ (instr.opcode? = some .sync ∧ instr.arg0 ≠ syncMaster) :=
          fun slave => slave.2 master
        rw [errorBit_congr (handleSync_master handled master), if_neg notSlave, ite_self]
        rfl
      · obtain ⟨ret, answered, written⟩ := handleSync_errorBit handled master position
        rw [written, if_pos (And.intro sync master), answered]
        split <;> rfl
    · have silent : ¬ instr.NotesResult := fun notes =>
        notes.elim receive fun slave => sync slave.1
      rw [errorBit_congr (execute_errorBits receive sync done), bitOutcome?_of_silent silent]
      rfl

end Instructions

/-! ## Over a run -/

section Runs

variable {long : LongWidth} {before after sysfs : NcmSysfs}

theorem recordedOutcome?_instruction
    {outcome? : Interpreter → Instr → StepInput → Option Bool} {instr : Instr}
    {input : StepInput} {shown : List Observation} (fetched : before.ncmInterp.fetch = .ok instr) :
    recordedOutcome? outcome? (before, .instruction input, shown) =
      outcome? before.ncmInterp instr input := by
  rw [recordedOutcome?, fetched]
  rfl

theorem recordedOutcome?_none (record : NcmSysfs × Action × List Observation) :
    recordedOutcome? (fun _ _ _ => none) record = none := by
  obtain ⟨before, action, shown⟩ := record
  cases action with
  | instruction input =>
      rw [recordedOutcome?]
      cases before.ncmInterp.fetch <;> rfl
  | _ => rfl

/-- A transition leaves a bit alone unless it executes the instruction that the
bit stands for. -/
theorem step_errorBit {label : Action × List Observation} (hstep : Step long before label after)
    (position : Nat) :
    after.ncmInterp.errorBit position =
      (recordedOutcome? (bitOutcome? position) (before, label)).getD
        (before.ncmInterp.errorBit position) := by
  obtain ⟨action, shown⟩ := label
  cases step_transition hstep with
  | storesCode buf memory =>
      rw [ncmSysfsStoreCode_ncmInterp]
      rfl
  | storesParams buf nameMemory macMemory =>
      rw [ncmSysfsStoreParams_ncmInterp]
      rfl
  | storesVar written => rfl
  | storesControl idle controls => cases controls <;> rfl
  | schedules granted created => rfl
  | @iterates input instr iteration looping fetched done =>
      rw [recordedOutcome?_instruction fetched, ← execute_errorBit done, resume_eq]
      rfl
  | joins stopping => rfl
  | receives receiving received => rfl

/-- Over a run, a bit is the last outcome of the instruction it stands for. -/
theorem run_errorBit {records : List (NcmSysfs × Action × List Observation)}
    (run : Run (Recorded (Step long)) initModule records sysfs) (position : Nat) :
    sysfs.ncmInterp.errorBit position =
      (Run.latest (recordedOutcome? (bitOutcome? position)) records).getD false := by
  refine run.history (fun records sysfs => sysfs.ncmInterp.errorBit position =
    (Run.latest (recordedOutcome? (bitOutcome? position)) records).getD false) ?_ ?_
  · exact Nat.zero_testBit position
  · rintro records middle ⟨before, label⟩ next - earlier ⟨rfl, hstep⟩
    rw [step_errorBit hstep, earlier, Run.latest_concat]
    cases recordedOutcome? (bitOutcome? position) (before, label) <;> rfl

/-! ## The status test -/

/-- The mask is the argument modulo `2^16`. -/
theorem statusTest_mask (testValue : UInt32) :
    (testValue &&& 0x0FFFF).toUInt16.toNat = testValue.toNat % 2 ^ 16 := by
  have mask : (0x0FFFF : UInt32).toNat = 2 ^ 16 - 1 := rfl
  rw [UInt32.toNat_toUInt16, UInt32.toNat_and, mask, Nat.and_two_pow_sub_one_eq_mod, Nat.mod_mod]

theorem isErrorSet_iff (interpreter : Interpreter) (mask : UInt16) :
    interpreter.isErrorSet mask = true ↔
      ∃ position, mask.toNat.testBit position ∧ interpreter.errorBit position := by
  have zero : interpreter.isErrorSet mask = true ↔
      interpreter.errorBits.toNat &&& mask.toNat ≠ 0 := by
    rw [Interpreter.isErrorSet, decide_eq_true_iff, ne_eq, ← UInt16.toNat_inj, UInt16.toNat_and]
    rfl
  rw [zero]
  constructor
  · intro nonzero
    obtain ⟨position, set⟩ := Nat.exists_testBit_of_ne_zero nonzero
    rw [Nat.testBit_and, Bool.and_eq_true] at set
    exact ⟨position, set.2, set.1⟩
  · rintro ⟨position, masked, set⟩ zero
    have both : (interpreter.errorBits.toNat &&& mask.toNat).testBit position = true := by
      rw [Nat.testBit_and, masked]
      exact congrArg (· && true) set
    rw [zero, Nat.zero_testBit] at both
    cases both

/-- No other action writes a bit. -/
theorem step_errorBits {action : Action} {shown : List Observation}
    (hstep : Step long before (action, shown) after) (silent : ¬ NotesResult before action) :
    after.ncmInterp.errorBits = before.ncmInterp.errorBits := by
  have none (position : Nat) :
      recordedOutcome? (bitOutcome? position) (before, action, shown) = none := by
    cases action with
    | instruction input =>
        rw [recordedOutcome?]
        cases fetched : before.ncmInterp.fetch with
        | error fault => rfl
        | ok instr => exact bitOutcome?_of_silent fun notes => silent ⟨instr, fetched, notes⟩
    | _ => rfl
  apply UInt16.toNat_inj.mp
  apply Nat.eq_of_testBit_eq
  intro position
  have kept := step_errorBit hstep position
  rw [none position] at kept
  exact kept

/-- What the error bits tell at the end of a recorded run. -/
structure ErrorBitsTell (long : LongWidth)
    (records : List (NcmSysfs × Action × List Observation)) (sysfs : NcmSysfs) : Prop where
  rcvFault : sysfs.ncmInterp.errorBit 10 = true ↔
    Run.latest (recordedOutcome? fun interpreter instr _ => receiveOutcome? interpreter instr)
      records = some true
  syncTimeout : sysfs.ncmInterp.errorBit 15 = true ↔
    Run.latest (recordedOutcome? syncOutcome?) records = some true
  others : ∀ position, position ≠ 10 → position ≠ 15 →
    sysfs.ncmInterp.errorBit position = false
  kept : ∀ action shown after, Step long sysfs (action, shown) after →
    ¬ NotesResult sysfs action → after.ncmInterp.errorBits = sysfs.ncmInterp.errorBits
  statusTest : ∀ testValue unused, ∃ result,
    testGuard sysfs.ncmInterp Guard.statusTest.code testValue unused = .ok (result, .guardOk) ∧
      (result = true ↔ ∃ position, (testValue.toNat % 2 ^ 16).testBit position ∧
        sysfs.ncmInterp.errorBit position)

/--
For every run from module load: the receive fault bit is set if and only if a
RECEIVE has been executed and the last one found its queue empty, the sync
timeout bit if and only if a slave SYNC has been executed and the last one timed
out, no other bit is set, no other action writes the bits, and a status test
tells whether one of the bits of its mask is set.
-/
theorem errorBits_tell {labels : List (Action × List Observation)}
    (run : Run (Step long) initModule labels sysfs) :
    ∃ records, Run (Recorded (Step long)) initModule records sysfs ∧
      records.map Prod.snd = labels ∧ ErrorBitsTell long records sysfs := by
  obtain ⟨records, recorded, same⟩ := run.recorded
  have last {outcome : Option Bool} : outcome.getD false = true ↔ outcome = some true := by
    cases outcome with
    | none => simp
    | some value => simp
  refine ⟨records, recorded, same, ?_, ?_, ?_, fun _ _ _ hstep silent =>
    step_errorBits hstep silent, ?_⟩
  · rw [run_errorBit recorded, last]
    rfl
  · rw [run_errorBit recorded, last]
    rfl
  · intro position notReceive notSync
    have noReceive : position ≠ Interpreter.errBitRcvFault.toNat := notReceive
    have noSync : position ≠ Interpreter.errBitSyncTimeout.toNat := notSync
    have none : bitOutcome? position = fun _ _ _ => none := by
      funext interpreter instr input
      rw [bitOutcome?, if_neg noReceive, if_neg noSync]
    rw [run_errorBit recorded, none, Run.latest,
      List.filterMap_eq_nil_iff.mpr fun record _ => recordedOutcome?_none record]
    rfl
  · intro testValue unused
    refine ⟨_, rfl, ?_⟩
    rw [← statusTest_mask]
    exact isErrorSet_iff _ _

end Runs

/-- After a RECEIVE from an empty queue the receive fault bit is set. -/
theorem errorBits_tell_receive : ∃ records sysfs, ErrorBitsTell .bits64 records sysfs ∧
    sysfs.ncmInterp.errorBit 10 = true ∧ Run.latest (recordedOutcome? fun interpreter instr _ =>
      receiveOutcome? interpreter instr) records = some true := by
  have done : ∃ sysfs labels, runFromInit .bits64
      (loadAndRun [.make .receive 0 0 0 0] oneChannel .bare ++
        [.instruction (.atClock 0 0 0)]) = .ok (sysfs, labels) ∧
      sysfs.ncmInterp.errorBit 10 = true := ⟨_, _, rfl, rfl⟩
  obtain ⟨sysfs, labels, done, set⟩ := done
  obtain ⟨records, -, -, tell⟩ := errorBits_tell (run_of_runFromInit done)
  exact ⟨records, sysfs, tell, set, tell.rcvFault.mp set⟩

end NetworkCode.Kernel
