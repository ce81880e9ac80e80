import NetworkCode.Kernel.Control
import NetworkCode.Kernel.Transitions
import NetworkCode.Translator.Operation

/-!
# Agreement of translator and interpreter

A word is translated to the record of an operation that its fields name, and
the interpreter performs that operation when it executes the record.  The one
exception is TEST_COUNT with a value other than zero: the translator stores the
value where the guard looks for the number of the counter.
-/

namespace NetworkCode.Translator

open Kernel Library.Bits Library.Checked

/-! ## The record of an operation -/

/-- The guard of the interpreter that stands for a condition. -/
def Condition.guard : Condition → Guard
  | always => .alwaysTrue
  | never => .alwaysFalse
  | sendBufferEmpty => .sendBufferEmpty
  | receiveQueueEmpty _ => .channelXyRcvBufEmpty
  | counterIs _ => .testCount
  | errorUnder _ => .statusTest
  | varsEqual _ _ => .equalVarVar
  | varGreater _ _ => .greaterVarVar
  | varLess _ _ => .lessVarVar
  | varMeets _ _ => .testVar
  | varQueueEmpty _ => .varQueueEmpty
  | varQueueFull _ => .varQueueFull

/-- The two arguments that the translator gives the guard. -/
def Condition.guardArgs : Condition → UInt32 × UInt32
  | always | never | sendBufferEmpty => (0, 0)
  | receiveQueueEmpty chan => (chan, 0)
  | counterIs value => (value, 0)
  | errorUnder mask => (mask, 0)
  | varsEqual var1 var2 | varGreater var1 var2 | varLess var1 var2 => (var1, var2)
  | varMeets var test => (var, test.code)
  | varQueueEmpty var | varQueueFull var => (var, 0)

/-- The record that the translator writes for an operation. -/
def Operation.record : Operation → Instr
  | future delay jump => .make .future delay jump 0 0
  | halt => .make .halt 0 0 0 0
  | branch jump condition =>
      .make .if condition.guard.code jump condition.guardArgs.1 condition.guardArgs.2
  | create var => .make .create var 0 0 0
  | send chan => .make .send chan 0 0 0
  | receive chan var => .make .receive chan var 0 0
  | nop => .make .nop 0 0 0 0
  | syncMaster chan => .make .sync Kernel.syncMaster chan 0 0
  | syncSlave timeout => .make .sync Kernel.syncSlave timeout 0 0
  | count .keep => .make .nop 0 0 0 0
  | count .clear => .make .clearCounter 0 0 0 0
  | count .increment => .make .addToCounter 0 1 0 0
  | count .decrement => .make .subFromCounter 0 1 0 0

/-! ## Translation -/

section Fields

variable (word : UInt32)

theorem shift_type : word >>> 28 = field word 28 4 :=
  shift_eq_field rfl (by decide) word.toNat_lt

theorem and_mask8 : word &&& mask8 = field word 0 8 := and_mask rfl

theorem and_mask16 : word &&& mask16 = field word 0 16 := and_mask rfl

theorem and_mask20 : word &&& mask20 = field word 0 20 := and_mask rfl

theorem shift8_and_mask8 : (word >>> 8) &&& mask8 = field word 8 8 :=
  shift_and_mask rfl (by decide) rfl

theorem shift16_and_mask8 : (word >>> 16) &&& mask8 = field word 16 8 :=
  shift_and_mask rfl (by decide) rfl

theorem shift20_and_mask8 : (word >>> 20) &&& mask8 = field word 20 8 :=
  shift_and_mask rfl (by decide) rfl

/-- The guard type of the guard fields. -/
theorem shift_guardType : field word 0 20 >>> 16 = field word 16 4 := by
  have ends : (field word 0 20).toNat < 2 ^ (16 + 4) := field_lt word 0 20
  rw [shift_eq_field rfl (by decide) ends]
  exact field_low (by decide)

/-- Masking one bit of the guard fields tests a bit of the word. -/
theorem guardBit {mask : UInt32} {position : Nat} (hmask : mask.toNat = 2 ^ position)
    (inside : position < 20) : field word 0 20 &&& mask ≠ 0 ↔ bit word position = true := by
  rw [and_ne_zero_iff hmask, bit_low inside]

end Fields

/-- The test bits of TEST_VAR are packed as the code of a test they select. -/
theorem packTestVar_varTests (word jump var : UInt32) :
    ∃ test ∈ varTests word,
      (if bit word 3 = true then
        Args.set3 #v[Guard.testVar.code, jump, var, 0] VarTest.isNonzero.code
      else if bit word 2 = true then
        Args.set3 #v[Guard.testVar.code, jump, var, 0] VarTest.isZero.code
      else if bit word 1 = true then
        Args.set3 #v[Guard.testVar.code, jump, var, 0] VarTest.evenParity.code
      else if bit word 0 = true then
        Args.set3 #v[Guard.testVar.code, jump, var, 0] VarTest.oddParity.code
      else
        #v[Guard.testVar.code, jump, var, 0]) = #v[Guard.testVar.code, jump, var, test.code] := by
  unfold varTests
  cases bit word 3 with
  | true => exact ⟨.isNonzero, List.mem_singleton_self _, rfl⟩
  | false =>
      cases bit word 2 with
      | true => exact ⟨.isZero, List.mem_singleton_self _, rfl⟩
      | false =>
          cases bit word 1 with
          | true => exact ⟨.evenParity, List.mem_singleton_self _, rfl⟩
          | false =>
              cases bit word 0 with
              | true => exact ⟨.oddParity, List.mem_singleton_self _, rfl⟩
              | false => exact ⟨.isZero, List.mem_cons_self, rfl⟩

/-- The guard fields are packed as the record of a condition they name. -/
theorem packGuardArgs_conditions (word jump : UInt32)
    (known : (HwGuard.ofCode? (field word 16 4)).isSome) :
    ∃ condition ∈ conditions word,
      packGuardArgs (field word 0 20) #v[0, jump, 0, 0] =
        #v[condition.guard.code, jump, condition.guardArgs.1, condition.guardArgs.2] := by
  have var1 : (field word 0 20 >>> 8) &&& mask8 = field word 8 8 := by
    rw [shift8_and_mask8, field_low (by decide)]
  have var2 : field word 0 20 &&& mask8 = field word 0 8 := by
    rw [and_mask8, field_low (by decide)]
  have value : field word 0 20 &&& mask16 = field word 0 16 := by
    rw [and_mask16, field_low (by decide)]
  have bit0 : field word 0 20 &&& 1 ≠ 0 ↔ bit word 0 = true := guardBit word rfl (by decide)
  have bit1 : field word 0 20 &&& 2 ≠ 0 ↔ bit word 1 = true := guardBit word rfl (by decide)
  have bit2 : field word 0 20 &&& 4 ≠ 0 ↔ bit word 2 = true := guardBit word rfl (by decide)
  have bit3 : field word 0 20 &&& 8 ≠ 0 ↔ bit word 3 = true := guardBit word rfl (by decide)
  unfold packGuardArgs conditions
  simp only [shift_guardType, var1, var2, value, bit0, bit1, bit2, bit3]
  generalize HwGuard.ofCode? (field word 16 4) = guard at known
  cases guard with
  | none => cases known
  | some guard =>
      cases guard with
      | alwaysTrue => exact ⟨_, List.mem_singleton_self _, rfl⟩
      | alwaysFalse => exact ⟨_, List.mem_singleton_self _, rfl⟩
      | bufEmpty =>
          cases bit word 0 with
          | true => exact ⟨_, List.mem_singleton_self _, rfl⟩
          | false => exact ⟨_, List.mem_singleton_self _, rfl⟩
      | testCount => exact ⟨_, List.mem_singleton_self _, rfl⟩
      | statusTest => exact ⟨_, List.mem_singleton_self _, rfl⟩
      | equalVarVar => exact ⟨_, List.mem_singleton_self _, rfl⟩
      | greaterVarVar => exact ⟨_, List.mem_singleton_self _, rfl⟩
      | lessVarVar => exact ⟨_, List.mem_singleton_self _, rfl⟩
      | testVar =>
          obtain ⟨test, selected, packed⟩ := packTestVar_varTests word jump (field word 8 8)
          exact ⟨_, List.mem_map_of_mem selected, packed⟩
      | varQueueEmpty => exact ⟨_, List.mem_singleton_self _, rfl⟩
      | varQueueFull => exact ⟨_, List.mem_singleton_self _, rfl⟩

theorem packSync_eq (word : UInt32) (stale : UInt8) :
    packSync word ⟨stale, #v[0, 0, 0, 0]⟩ =
      if bit word 27 then (Operation.syncMaster (field word 0 8)).record
      else (Operation.syncSlave (field word 0 16)).record := by
  have master : (word >>> 27) &&& 1 ≠ 0 ↔ bit word 27 = true :=
    shift_and_one_ne_zero_iff rfl (by decide)
  unfold packSync
  simp only [master, and_mask8, and_mask16]
  cases bit word 27 with
  | true => rfl
  | false => rfl

theorem packCount_eq (word : UInt32) (stale : UInt8) :
    packCount word ⟨stale, #v[0, 0, 0, 0]⟩ = (Operation.count (counterChange word)).record := by
  have selector : (word >>> 24) &&& 3 = field word 24 2 := shift_and_mask rfl (by decide) rfl
  unfold packCount counterChange
  simp only [selector]
  split
  · rfl
  · split
    · rfl
    · split
      · rfl
      next not0 not1 not2 =>
        have three : field word 24 2 = 3 := by
          have bound := field_lt word 24 2
          simp only [← UInt32.toNat_inj] at not0 not1 not2 ⊢
          simp at not0 not1 not2 ⊢
          omega
        rw [if_pos three]
        rfl

/-- A word in the tables is translated to the record of an operation it names. -/
theorem getInstruction_operations (stale : UInt8) {word : UInt32} (tabled : inTables word = true) :
    ∃ operation ∈ operations word, getInstruction stale word = operation.record := by
  unfold inTables at tabled
  unfold getInstruction operations
  rw [shift_type]
  dsimp only
  generalize HwOpcode.ofCode? (field word 28 4) = opcode at tabled
  cases opcode with
  | none => cases tabled
  | some opcode =>
      cases opcode with
      | future =>
          refine ⟨_, List.mem_singleton_self _, ?_⟩
          simp only [packFuture, and_mask16, shift20_and_mask8]
          rfl
      | halt => exact ⟨_, List.mem_singleton_self _, rfl⟩
      | «if» =>
          obtain ⟨condition, named, packed⟩ :=
            packGuardArgs_conditions word (field word 20 8) tabled
          refine ⟨_, List.mem_map_of_mem named, ?_⟩
          simp only [packIf, and_mask20, shift20_and_mask8]
          exact congrArg (Instr.mk _) packed
      | create =>
          refine ⟨_, List.mem_singleton_self _, ?_⟩
          simp only [packCreate, shift8_and_mask8]
          rfl
      | send =>
          refine ⟨_, List.mem_singleton_self _, ?_⟩
          simp only [packSend, shift16_and_mask8]
          rfl
      | receive =>
          refine ⟨_, List.mem_singleton_self _, ?_⟩
          simp only [packReceive, shift16_and_mask8, shift8_and_mask8]
          rfl
      | nop => exact ⟨_, List.mem_singleton_self _, rfl⟩
      | sync =>
          rw [packSync_eq]
          cases bit word 27 with
          | true => exact ⟨_, List.mem_singleton_self _, rfl⟩
          | false => exact ⟨_, List.mem_singleton_self _, rfl⟩
      | count =>
          exact ⟨_, List.mem_singleton_self _, packCount_eq word stale⟩

/-! ## Execution -/

section Execution

variable (long : LongWidth) (interpreter : Interpreter) (input : StepInput)

theorem handleStatusTest_eq (mask : UInt32) :
    handleStatusTest interpreter mask = interpreter.isErrorSet mask.toUInt16 := by
  have low16 : mask &&& 0x0FFFF = field mask 0 16 := and_mask16 mask
  have narrowed : (mask &&& 0x0FFFF).toUInt16 = mask.toUInt16 := by
    apply UInt16.toNat_inj.mp
    rw [low16, UInt32.toNat_toUInt16, UInt32.toNat_toUInt16, toNat_field,
      Nat.pow_zero, Nat.div_one, Nat.mod_mod]
  rw [handleStatusTest, narrowed]

/-- The guard tests what the condition says, unless it is to compare the counter
with a value other than zero. -/
theorem handle_guard {condition : Condition}
    (plain : ∀ value, condition = .counterIs value → value = 0) :
    condition.guard.handle interpreter condition.guardArgs.1 condition.guardArgs.2 =
      condition.holds interpreter := by
  cases condition with
  | always => rfl
  | never => rfl
  | sendBufferEmpty => rfl
  | receiveQueueEmpty chan => rfl
  | counterIs value =>
      cases plain value rfl
      rfl
  | errorUnder mask => exact congrArg pure (handleStatusTest_eq interpreter mask)
  | varsEqual var1 var2 => rfl
  | varGreater var1 var2 => rfl
  | varLess var1 var2 => rfl
  | varMeets var test => cases test <;> rfl
  | varQueueEmpty var => rfl
  | varQueueFull var => rfl

theorem execute_if (guard : Guard) (jump arg0 arg1 : UInt32) :
    execute long interpreter (.make .if guard.code jump arg0 arg1) input =
      branchOn interpreter jump (guard.handle interpreter arg0 arg1) := by
  rw [execute_of_handler (Instr.opcode?_make ..) rfl]
  show (testGuard interpreter guard.code arg0 arg1 >>= _) >>= _ = _
  unfold testGuard branchOn
  rw [Guard.ofCode?_code]
  dsimp only
  cases guard.handle interpreter arg0 arg1 with
  | error fault => rfl
  | ok holds =>
      cases holds with
      | true => rfl
      | false => rfl

theorem execute_future (delay jump : UInt32) :
    execute long interpreter (.make .future delay jump 0 0) input =
      (Operation.future delay jump).perform long interpreter input := by
  rw [execute_of_handler (Instr.opcode?_make ..) rfl, Operation.perform]
  by_cases outside : interpreter.programLength ≤ jump
  · rw [handleFuture_outside outside, if_pos outside]
    rfl
  · rw [if_neg outside]
    change (ite (jump ≥ interpreter.programLength) _ _ >>= _) = _
    rw [if_neg outside, bind_assoc]
    apply bind_congr
    rintro ⟨status, queue⟩
    cases status with
    | ok => rfl
    | full => rfl
    | empty => rfl

theorem execute_send (chan : UInt32) :
    execute long interpreter (.make .send chan 0 0 0) input =
      (Operation.send chan).perform long interpreter input := by
  rw [execute_of_handler (Instr.opcode?_make ..) rfl, Operation.perform, handleSend, bind_assoc]
  apply bind_congr
  rintro ⟨ret, network, events⟩
  by_cases accepted : 0 ≤ ret
  · simp only [ge_iff_le, if_pos accepted]
    rfl
  · simp only [ge_iff_le, if_neg accepted]
    rfl

/-- Executing the record of an operation performs the operation, unless it is to
compare the counter with a value other than zero. -/
theorem execute_record {operation : Operation}
    (plain : ∀ jump value, operation = .branch jump (.counterIs value) → value = 0) :
    execute long interpreter operation.record input =
      operation.perform long interpreter input := by
  cases operation with
  | future delay jump =>
      exact execute_future long interpreter input delay jump
  | halt =>
      rw [Operation.record, execute_of_handler (Instr.opcode?_make ..) rfl]
      rfl
  | branch jump condition =>
      rw [Operation.record, execute_if, handle_guard interpreter fun value same =>
        plain jump value (congrArg _ same)]
      rfl
  | create var =>
      rw [Operation.record, execute_of_handler (Instr.opcode?_make ..) rfl, handleCreate,
        bind_assoc]
      rfl
  | send chan =>
      exact execute_send long interpreter input chan
  | receive chan var =>
      rw [Operation.record, execute_of_handler (Instr.opcode?_make ..) rfl, handleReceive,
        bind_assoc]
      rfl
  | nop =>
      rw [Operation.record, execute_of_handler (Instr.opcode?_make ..) rfl]
      rfl
  | syncMaster chan =>
      rw [Operation.record, execute_of_handler (Instr.opcode?_make ..) rfl, handleSync,
        Instr.make_arg0, if_pos rfl, bind_assoc]
      rfl
  | syncSlave timeout =>
      rw [Operation.record, execute_of_handler (Instr.opcode?_make ..) rfl, handleSync,
        Instr.make_arg0, if_neg (by decide), bind_assoc]
      rfl
  | count change =>
      cases change <;> rw [Operation.record, execute_of_handler (Instr.opcode?_make ..) rfl] <;> rfl

end Execution

/-! ## Agreement -/

/-- On every state, the translated word performs an operation that its fields name. -/
def Agrees (stale : UInt8) (word : UInt32) : Prop :=
  ∃ operation ∈ operations word, ∀ long interpreter input,
    execute long interpreter (getInstruction stale word) input =
      operation.perform long interpreter input

/-- The word is an IF that compares the counter with a value other than zero. -/
def ComparesCounter (word : UInt32) : Prop :=
  HwOpcode.ofCode? (field word 28 4) = some .if ∧
    HwGuard.ofCode? (field word 16 4) = some .testCount ∧ field word 0 16 ≠ 0

/-- Only TEST_COUNT names a comparison of the counter. -/
theorem testCount_of_mem {word value : UInt32} (named : .counterIs value ∈ conditions word) :
    HwGuard.ofCode? (field word 16 4) = some .testCount ∧ value = field word 0 16 := by
  unfold conditions at named
  split at named
  case h_4 isTest =>
    cases List.mem_singleton.mp named
    exact ⟨isTest, rfl⟩
  case h_9 =>
    obtain ⟨test, -, impossible⟩ := List.mem_map.mp named
    cases impossible
  case h_3 =>
    split at named
    · cases List.mem_singleton.mp named
    · cases List.mem_singleton.mp named
  case h_12 => cases named
  all_goals cases List.mem_singleton.mp named

theorem comparesCounter_of_mem {word jump value : UInt32}
    (named : .branch jump (.counterIs value) ∈ operations word) (nonzero : value ≠ 0) :
    ComparesCounter word := by
  unfold operations at named
  split at named
  case h_3 isIf =>
    obtain ⟨condition, member, same⟩ := List.mem_map.mp named
    cases same
    obtain ⟨isTest, rfl⟩ := testCount_of_mem member
    exact ⟨isIf, isTest, nonzero⟩
  case h_8 =>
    split at named
    · cases List.mem_singleton.mp named
    · cases List.mem_singleton.mp named
  case h_10 => cases named
  all_goals cases List.mem_singleton.mp named

theorem ComparesCounter.operations_eq {word : UInt32} (compares : ComparesCounter word) :
    operations word = [.branch (field word 20 8) (.counterIs (field word 0 16))] := by
  obtain ⟨isIf, isTest, -⟩ := compares
  simp only [operations, isIf, conditions, isTest, List.map_cons, List.map_nil]

/-- A state in which the jump of an IF cannot be mistaken for the next instruction. -/
def zeroInterpreterAt (pc : UInt32) : Interpreter :=
  { zeroInterpreter with programCounter := pc }

theorem perform_counterIs {jump value : UInt32} (nonzero : value ≠ 0) (input : StepInput) :
    (Operation.branch jump (.counterIs value)).perform .bits64 (zeroInterpreterAt jump) input =
      .ok (followOn (zeroInterpreterAt jump) []) := by
  have zero : counter (zeroInterpreterAt jump) = 0 := Vector.getElem_replicate _
  have unequal : decide (counter (zeroInterpreterAt jump) = value) = false :=
    decide_eq_false fun same => nonzero (same.symm.trans zero)
  rw [Operation.perform, Condition.holds, unequal]
  rfl

/-- TEST_COUNT reads the counter that the value is the number of. -/
theorem handleTestCount_zero {jump value : UInt32} :
    handleTestCount (zeroInterpreterAt jump) value 0 =
      if value.toNat < maxCounters then .ok true
      else .error (.outOfBounds .counters value.toNat) := by
  unfold handleTestCount
  split
  next inside =>
    have zero : (zeroInterpreterAt jump).counters[value.toNat] = 0 := Vector.getElem_replicate _
    rw [load_of_lt inside, zero]
    rfl
  next outside => rw [load_of_not_lt outside, error_bind]

theorem branch_counterIs_differs {jump value : UInt32} (nonzero : value ≠ 0) (input : StepInput) :
    execute .bits64 (zeroInterpreterAt jump) (Operation.branch jump (.counterIs value)).record
        input ≠
      (Operation.branch jump (.counterIs value)).perform .bits64 (zeroInterpreterAt jump)
        input := by
  rw [perform_counterIs nonzero, Operation.record, execute_if]
  change branchOn _ jump (handleTestCount (zeroInterpreterAt jump) value 0) ≠ _
  rw [handleTestCount_zero]
  split
  · intro same
    have fixed : jump = jump + 1 :=
      congrArg (fun iteration => iteration.interpreter.programCounter) (Except.ok.inj same)
    have fixed := congrArg UInt32.toNat fixed
    rw [UInt32.toNat_add] at fixed
    have one : (1 : UInt32).toNat = 1 := rfl
    omega
  · nofun

/-- Translator and interpreter agree on a word of the tables exactly when it is
not a TEST_COUNT with a value other than zero. -/
theorem translation_agrees_iff (stale : UInt8) {word : UInt32} (tabled : inTables word = true) :
    Agrees stale word ↔ ¬ ComparesCounter word := by
  constructor
  · rintro ⟨operation, named, performed⟩ compares
    obtain ⟨translated, named', record⟩ := getInstruction_operations stale tabled
    rw [compares.operations_eq] at named named'
    cases List.mem_singleton.mp named
    cases List.mem_singleton.mp named'
    have same := performed .bits64 (zeroInterpreterAt (field word 20 8)) (.atClock 0 0 0)
    rw [record] at same
    exact branch_counterIs_differs compares.2.2 _ same
  · intro plain
    obtain ⟨operation, named, record⟩ := getInstruction_operations stale tabled
    refine ⟨operation, named, fun long interpreter input => ?_⟩
    rw [record]
    apply execute_record
    rintro jump value rfl
    by_contra nonzero
    exact plain (comparesCounter_of_mem named nonzero)

/-- TEST_COUNT with the value zero, which both sides take for counter 0. -/
theorem translation_agrees_iff_zero : Agrees 0 0x72A20000 ↔ ¬ ComparesCounter 0x72A20000 :=
  translation_agrees_iff 0 (by decide)

/-- `IF TEST_COUNT 3` jumps to 42 with the counter at zero, since counter 3 is zero. -/
theorem testCount_reads_otherCounter :
    inTables 0x72A20003 = true ∧ ∃ sysfs, Reachable .bits64 sysfs ∧
      sysfs.ncmInterp.thread = some .looping ∧
      sysfs.ncmInterp.fetch = .ok (getInstruction 0 0x72A20003) ∧
      counter sysfs.ncmInterp = 0 ∧
      ∀ operation ∈ operations 0x72A20003,
        execute .bits64 sysfs.ncmInterp (getInstruction 0 0x72A20003) (.atClock 0 0 0) ≠
          operation.perform .bits64 sysfs.ncmInterp (.atClock 0 0 0) := by
  refine ⟨by decide, ?_⟩
  have done : ∃ labels sysfs,
      runFromInit .bits64 (loadAndRun [getInstruction 0 0x72A20003] noChannels .bare) =
        .ok (sysfs, labels) ∧
      sysfs.ncmInterp.thread = some .looping ∧
      sysfs.ncmInterp.fetch = .ok (getInstruction 0 0x72A20003) ∧
      counter sysfs.ncmInterp = 0 ∧
      (∃ jumped, execute .bits64 sysfs.ncmInterp (getInstruction 0 0x72A20003)
        (.atClock 0 0 0) = .ok jumped ∧ jumped.interpreter.programCounter = 42) ∧
      ∃ followed, (Operation.branch 42 (.counterIs 3)).perform .bits64 sysfs.ncmInterp
        (.atClock 0 0 0) = .ok followed ∧ followed.interpreter.programCounter = 1 :=
    ⟨_, _, rfl, rfl, rfl, rfl, ⟨_, rfl, rfl⟩, ⟨_, rfl, rfl⟩⟩
  obtain ⟨labels, sysfs, done, looping, fetched, zero, ⟨jumped, executed, at42⟩,
    ⟨followed, performed, at1⟩⟩ := done
  refine ⟨sysfs, ⟨labels, run_of_runFromInit done⟩, looping, fetched, zero, ?_⟩
  intro operation named same
  have only : operations 0x72A20003 = [.branch 42 (.counterIs 3)] := by decide
  rw [only] at named
  cases List.mem_singleton.mp named
  rw [executed, performed] at same
  cases same
  rw [at42] at at1
  cases at1

end NetworkCode.Translator
