import NetworkCode.Kernel.Transitions
import NetworkCode.Library.Lockstep
import NetworkCode.Translator.Stream

/-!
# The processor behind a translated program

A module that ran the hardware words themselves, next to the module that runs
their translation.  Both take the same actions, the one with streams of words
written to its code file, the other with what the translator makes of them;
nothing that they show tells them apart.
-/

namespace NetworkCode.Translator

open Kernel Library Library.Bits Library.Checked

/-! ## Running the words of a stream -/

/-- A reading of the words: each word of the tables stands for one of the
operations that its fields name. -/
structure Reading where
  operation : UInt32 → Option Operation
  named : ∀ {word chosen}, operation word = some chosen → chosen ∈ operations word
  total : ∀ {word}, inTables word = true → (operation word).isSome

namespace Reading

variable (reading : Reading) (long : LongWidth)

/-- One turn of the processor, for an interpreter whose program is a stream of words. -/
def turn (interpreter : Interpreter) (input : StepInput) : Exec Iteration :=
  let index := interpreter.programCounter.toNat
  match interpreter.program with
  | none => .error (.outOfBounds .program index)
  | some stream =>
      if index < wordCount stream.bytes then
        match reading.operation (hardwareWord stream.bytes index) with
        | some operation => operation.perform long interpreter input
        | none => return ⟨some .invalidInstr, interpreter, []⟩
      else .error (.outOfBounds .program index)

end Reading

/-- The code file of the processor takes a stream of words; it needs the room
of one record for each of them. -/
def storeStream (sysfs : NcmSysfs) (stream : List UInt8) (memory : Kmalloc) :
    NcmSysfs × Option Fault :=
  let room := Instr.size * wordCount stream
  if sysfs.ncmInterp.isRunning then
    (sysfs, none)
  else
    match kmallocBlock room memory with
    | none => ({ sysfs with program := ⟨none, UInt32.ofNat room⟩ }, some (.copyTooLong room))
    | some _ => ({ sysfs with program := ⟨some ⟨stream⟩, UInt32.ofNat room⟩ }, none)

/-- The module around the processor: its code file and its turns are those of
the processor, everything else is as before. -/
def Reading.next (reading : Reading) (long : LongWidth) (sysfs : NcmSysfs) :
    Action → Exec (NcmSysfs × List Observation)
  | .storeCode stream memory =>
      if sysfs.stopping then .error .notEnabled
      else
        let (after, fault) := storeStream sysfs stream memory
        return (after, observeFault fault)
  | .instruction input =>
      if sysfs.ncmInterp.thread = some .looping then do
        let iteration ← reading.turn long sysfs.ncmInterp input
        return ({ sysfs with ncmInterp := iteration.resume }, iteration.observations)
      else .error .notEnabled
  | action => sysfs.next long action

/-! ## A stream and its translation -/

/-- Every word is in the tables, and none compares the counter with a value
other than zero. -/
def Translatable (stream : List UInt8) : Prop :=
  ∀ i < wordCount stream, inTables (hardwareWord stream i) = true ∧
    ¬ ComparesCounter (hardwareWord stream i)

/-- A loaded stream and a translation of it. -/
inductive Translation : CodeBlock → CodeBlock → Prop where
  | intro (memory : Nat → Uninitialized) {stream : List UInt8}
      (translatable : Translatable stream) :
      Translation ⟨stream⟩ ⟨translatorMain memory stream⟩

/-- Two interpreters that differ in their programs alone, a stream and its translation. -/
inductive Image (left : Interpreter) : Interpreter → Prop where
  | intro (program : Option CodeBlock)
      (translation : Option.Rel Translation left.program program) :
      Image left { left with program := program }

/-- Iterations that ended alike. -/
structure ImageIteration (left right : Iteration) : Prop where
  exit : left.exit = right.exit
  events : left.events = right.events
  image : Image left.interpreter right.interpreter

section Perform

variable {left right : Interpreter} {input : StepInput} {long : LongWidth}

theorem followOn_image (image : Image left right) (events : List Event) :
    ImageIteration (followOn left events) (followOn right events) := by
  obtain ⟨program, translation⟩ := image
  exact ⟨rfl, rfl, ⟨program, translation⟩⟩

theorem noteResult_image (image : Image left right) (bit : UInt8) (result : Int) :
    Image (left.noteResult bit result) (right.noteResult bit result) := by
  obtain ⟨program, translation⟩ := image
  unfold Interpreter.noteResult
  split
  · exact ⟨program, translation⟩
  · exact ⟨program, translation⟩

theorem holds_image (image : Image left right) (condition : Condition) :
    condition.holds right = condition.holds left := by
  obtain ⟨program, translation⟩ := image
  cases condition <;> rfl

theorem perform_future (image : Image left right) (delay jump : UInt32) :
    Alike ImageIteration ((Operation.future delay jump).perform long left input)
      ((Operation.future delay jump).perform long right input) := by
  obtain ⟨program, translation⟩ := image
  rw [Operation.perform, Operation.perform]
  by_cases outside : left.programLength ≤ jump
  · rw [if_pos outside, if_pos outside]
    exact .ok ⟨rfl, rfl, ⟨program, translation⟩⟩
  · rw [if_neg outside, if_neg outside]
    refine .bind_same _ fun inserted => ?_
    obtain ⟨status, queue⟩ := inserted
    cases status with
    | ok => exact .ok ⟨rfl, rfl, ⟨program, translation⟩⟩
    | full => exact .ok ⟨rfl, rfl, ⟨program, translation⟩⟩
    | empty => exact .ok ⟨rfl, rfl, ⟨program, translation⟩⟩

theorem perform_halt (image : Image left right) :
    Alike ImageIteration (Operation.halt.perform long left input)
      (Operation.halt.perform long right input) := by
  obtain ⟨program, translation⟩ := image
  rw [Operation.perform, Operation.perform, handleHalt, handleHalt]
  rw [bind_assoc, bind_assoc]
  refine .bind_same _ fun popped => ?_
  obtain ⟨status, head, queue⟩ := popped
  cases status with
  | full => exact .ok ⟨rfl, rfl, ⟨program, translation⟩⟩
  | empty => exact .ok ⟨rfl, rfl, ⟨program, translation⟩⟩
  | ok =>
      cases head with
      | none => exact .ok ⟨rfl, rfl, ⟨program, translation⟩⟩
      | some head =>
          dsimp only
          split
          · exact .ok ⟨rfl, rfl, ⟨program, translation⟩⟩
          · exact .ok ⟨rfl, rfl, ⟨program, translation⟩⟩

theorem perform_branch (image : Image left right) (jump : UInt32) (condition : Condition) :
    Alike ImageIteration ((Operation.branch jump condition).perform long left input)
      ((Operation.branch jump condition).perform long right input) := by
  rw [Operation.perform, Operation.perform, branchOn, branchOn, holds_image image]
  refine .bind_same _ fun holds => ?_
  cases holds with
  | true =>
      obtain ⟨program, translation⟩ := image
      exact .ok ⟨rfl, rfl, ⟨program, translation⟩⟩
  | false => exact .ok (followOn_image image [])

theorem perform_send (image : Image left right) (chan : UInt32) :
    Alike ImageIteration ((Operation.send chan).perform long left input)
      ((Operation.send chan).perform long right input) := by
  obtain ⟨program, translation⟩ := image
  refine .bind_same _ fun ⟨ret, network, events⟩ => ?_
  dsimp only
  split
  · exact .ok ⟨rfl, rfl, ⟨program, translation⟩⟩
  · exact .ok ⟨rfl, rfl, ⟨program, translation⟩⟩

/-- No operation depends on the program. -/
theorem perform_image (image : Image left right) (operation : Operation) :
    Alike ImageIteration (operation.perform long left input)
      (operation.perform long right input) := by
  cases operation with
  | future delay jump => exact perform_future image delay jump
  | halt => exact perform_halt image
  | branch jump condition => exact perform_branch image jump condition
  | create var =>
      obtain ⟨program, translation⟩ := image
      exact .bind_same _ fun network => .ok ⟨rfl, rfl, ⟨program, translation⟩⟩
  | send chan => exact perform_send image chan
  | receive chan var =>
      obtain ⟨program, translation⟩ := image
      refine .bind_same _ fun ⟨ret, network, varspace⟩ => ?_
      have received : Image { left with network := network, variableSpace := varspace }
          { left with program := program, network := network, variableSpace := varspace } :=
        ⟨program, translation⟩
      exact .ok (followOn_image (noteResult_image received _ _) [])
  | nop => exact .ok (followOn_image image [])
  | syncMaster chan =>
      obtain ⟨program, translation⟩ := image
      exact .bind_same _ fun ⟨ret, events⟩ => .ok ⟨rfl, rfl, ⟨program, translation⟩⟩
  | syncSlave timeout =>
      obtain ⟨program, translation⟩ := image
      refine .bind_same _ fun ⟨ret, rest⟩ => ?_
      exact .ok (followOn_image (noteResult_image ⟨program, translation⟩ _ _) [])
  | count change =>
      obtain ⟨program, translation⟩ := image
      cases change with
      | keep | clear | increment | decrement =>
          exact .ok ⟨rfl, rfl, ⟨program, translation⟩⟩

end Perform

/-! ## The reading that the translator settles -/

/-- The operation whose record the translator writes. -/
def translatorOperation (word : UInt32) : Option Operation :=
  (operations word).find? fun operation => getInstruction 0 word = operation.record

def translatorReading : Reading where
  operation := translatorOperation
  named := List.mem_of_find?_eq_some
  total := by
    intro word tabled
    obtain ⟨operation, named, record⟩ := getInstruction_operations 0 tabled
    rw [translatorOperation, List.find?_isSome]
    exact ⟨operation, named, decide_eq_true record⟩

/-- A word of the tables has a listed opcode. -/
theorem listed_of_inTables {word : UInt32} (tabled : inTables word = true) :
    UnlistedOpcode word = false := by
  unfold inTables at tabled
  unfold UnlistedOpcode
  cases decoded : HwOpcode.ofCode? (field word 28 4) with
  | none =>
      rw [decoded] at tabled
      cases tabled
  | some opcode => rfl

/-- The interpreter performs the operation that the processor reads from a word. -/
theorem execute_translated (stale : UInt8) {word : UInt32} {operation : Operation}
    (tabled : inTables word = true) (plain : ¬ ComparesCounter word)
    (read : translatorOperation word = some operation) (long : LongWidth)
    (interpreter : Interpreter) (input : StepInput) :
    execute long interpreter (getInstruction stale word) input =
      operation.perform long interpreter input := by
  have named : operation ∈ operations word := List.mem_of_find?_eq_some read
  have record : getInstruction 0 word = operation.record := by
    rw [translatorOperation] at read
    have found := List.find?_some read
    exact of_decide_eq_true found
  rw [getInstruction_stale (listed_of_inTables tabled) stale 0, record]
  apply execute_record
  rintro jump value rfl
  by_contra nonzero
  exact plain (comparesCounter_of_mem named nonzero)

theorem fetch_outside (memory : Nat → Uninitialized) (stream : List UInt8) {index : Nat}
    (outside : ¬ index < wordCount stream) :
    (CodeBlock.mk (translatorMain memory stream)).fetch index =
      .error (.outOfBounds .program index) := by
  have records : (CodeBlock.mk (translatorMain memory stream)).records = wordCount stream := by
    rw [CodeBlock.records, length_translatorMain]
    exact Nat.mul_div_cancel_left _ (by decide)
  exact if_neg (records ▸ outside)

/-- A turn of the processor and an iteration of the interpreter loop. -/
theorem turn_image {left right : Interpreter} (image : Image left right) (long : LongWidth)
    (input : StepInput) :
    Alike ImageIteration (translatorReading.turn long left input)
      (loopIteration long right input) := by
  obtain ⟨program, translation⟩ := image
  unfold Reading.turn loopIteration Interpreter.fetch
  dsimp only
  cases loaded : left.program with
  | none =>
      rw [loaded] at translation
      cases translation
      exact .error _
  | some block =>
      have whole := translation
      rw [loaded] at translation
      cases translation with
      | some translated =>
          obtain ⟨memory, translatable⟩ := translated
          rename_i stream
          dsimp only
          by_cases inside : left.programCounter.toNat < wordCount stream
          · obtain ⟨tabled, plain⟩ := translatable _ inside
            obtain ⟨operation, read⟩ := Option.isSome_iff_exists.mp (translatorReading.total tabled)
            rw [if_pos inside, read, fetch_translatorMain memory stream inside]
            have executed := execute_translated (memory left.programCounter.toNat).type tabled plain
              read long { left with program := some ⟨translatorMain memory stream⟩ } input
            show Alike _ (operation.perform long left input)
              (execute long _ (getInstruction _ (hardwareWord stream _)) input)
            rw [executed]
            exact perform_image ⟨_, whole⟩ operation
          · rw [if_neg inside, fetch_outside memory stream inside]
            exact .error _

/-! ## Two modules side by side -/

/-- Two modules that differ in the stored and the running program alone, streams
in the one and their translations in the other. -/
inductive ModuleImage (left : NcmSysfs) : NcmSysfs → Prop where
  | intro (stored running : Option CodeBlock)
      (storedTranslation : Option.Rel Translation left.program.instructions stored)
      (runningTranslation : Option.Rel Translation left.ncmInterp.program running) :
      ModuleImage left
        { left with
          program := { left.program with instructions := stored }
          ncmInterp := { left.ncmInterp with program := running } }

/-- What the two modules are given: the translation of a stream where the one
stores the stream, and the same everywhere else. -/
inductive Deploys : Action → Action → Prop where
  | storeCode (memory : Nat → Uninitialized) {stream : List UInt8} (kmalloc : Kmalloc)
      (translatable : Translatable stream) :
      Deploys (.storeCode stream kmalloc) (.storeCode (translatorMain memory stream) kmalloc)
  | other {action : Action} (notCode : ∀ buf kmalloc, action ≠ .storeCode buf kmalloc) :
      Deploys action action

section Lockstep

variable {left right : NcmSysfs} {long : LongWidth}

/-- Both modules are in corresponding states and have shown the same. -/
def Corresponding (after after' : NcmSysfs × List Observation) : Prop :=
  ModuleImage after.1 after'.1 ∧ after.2 = after'.2

theorem storeCode_image (image : ModuleImage left right) (memory : Nat → Uninitialized)
    {stream : List UInt8} (kmalloc : Kmalloc) (translatable : Translatable stream) :
    Alike Corresponding (translatorReading.next long left (.storeCode stream kmalloc))
      (right.next long (.storeCode (translatorMain memory stream) kmalloc)) := by
  obtain ⟨stored, running, storedTranslation, runningTranslation⟩ := image
  have translation : Option.Rel Translation (some ⟨stream⟩) (some ⟨translatorMain memory stream⟩) :=
    .some (.intro memory translatable)
  unfold Reading.next NcmSysfs.next
  dsimp only
  by_cases stopping : left.stopping = true
  · rw [if_pos stopping, if_pos stopping]
    exact .error _
  · rw [if_neg stopping, if_neg stopping]
    unfold storeStream ncmSysfsStoreCode Interpreter.isRunning
    dsimp only
    rw [length_translatorMain]
    by_cases active : left.ncmInterp.thread.isSome = true
    · rw [if_pos active, if_pos active]
      exact .ok ⟨⟨stored, running, storedTranslation, runningTranslation⟩, rfl⟩
    · rw [if_neg active, if_neg active]
      cases kmallocBlock (Instr.size * wordCount stream) kmalloc with
      | none => exact .ok ⟨⟨none, running, .none, runningTranslation⟩, rfl⟩
      | some block => exact .ok ⟨⟨_, running, translation, runningTranslation⟩, rfl⟩

theorem storeParams_image (long : LongWidth) (image : ModuleImage left right) (buf : List UInt8)
    (nameMemory macMemory : Kmalloc) :
    ModuleImage (ncmSysfsStoreParams left long buf nameMemory macMemory).1
        (ncmSysfsStoreParams right long buf nameMemory macMemory).1 ∧
      (ncmSysfsStoreParams left long buf nameMemory macMemory).2 =
        (ncmSysfsStoreParams right long buf nameMemory macMemory).2 := by
  obtain ⟨stored, running, storedTranslation, runningTranslation⟩ := image
  unfold ncmSysfsStoreParams Interpreter.isRunning
  dsimp only
  split
  · exact ⟨⟨stored, running, storedTranslation, runningTranslation⟩, rfl⟩
  · split
    · exact ⟨⟨stored, running, storedTranslation, runningTranslation⟩, rfl⟩
    · split
      · exact ⟨⟨stored, running, storedTranslation, runningTranslation⟩, rfl⟩
      · split
        · exact ⟨⟨stored, running, storedTranslation, runningTranslation⟩, rfl⟩
        · exact ⟨⟨stored, running, storedTranslation, runningTranslation⟩, rfl⟩

theorem startable_image (image : ModuleImage left right) : Startable right ↔ Startable left := by
  obtain ⟨stored, running, storedTranslation, runningTranslation⟩ := image
  have loaded : stored ≠ none ↔ left.program.instructions ≠ none := by
    generalize left.program.instructions = block at storedTranslation ⊢
    cases storedTranslation with
    | none => rfl
    | some translation => simp
  unfold Startable Interpreter.isRunning
  dsimp only
  rw [loaded]

theorem stopping_image (image : ModuleImage left right) : right.stopping = left.stopping := by
  obtain ⟨stored, running, storedTranslation, runningTranslation⟩ := image
  rfl

theorem storeControl_image (image : ModuleImage left right) (buf : List UInt8) (env : NetEnv) :
    Alike ModuleImage (ncmSysfsStoreControl left buf env) (ncmSysfsStoreControl right buf env) := by
  have startable := startable_image image
  obtain ⟨stored, running, storedTranslation, runningTranslation⟩ := image
  unfold ncmSysfsStoreControl Interpreter.isRunning
  dsimp only
  by_cases isRun : buf.take 3 = runCommand
  · rw [if_pos isRun, if_pos isRun]
    by_cases starts : Startable left
    · rw [if_pos starts, if_pos (startable.mpr starts)]
      unfold startInterpreter
      rw [bind_assoc, bind_assoc]
      exact .bind_same _ fun network => .ok ⟨stored, stored, storedTranslation, storedTranslation⟩
    · rw [if_neg starts, if_neg fun other => starts (startable.mp other)]
      exact .ok ⟨stored, running, storedTranslation, runningTranslation⟩
  · rw [if_neg isRun, if_neg isRun]
    by_cases stops : buf.take 4 = stopCommand ∧ left.ncmInterp.thread.isSome = true
    · rw [if_pos stops, if_pos stops]
      unfold stopNetwork
      rw [bind_assoc, bind_assoc]
      exact .bind_same _ fun network => .ok ⟨stored, running, storedTranslation, runningTranslation⟩
    · rw [if_neg stops, if_neg stops]
      exact .ok ⟨stored, running, storedTranslation, runningTranslation⟩

theorem resume_image {left right : Iteration} (same : ImageIteration left right) :
    Image left.resume right.resume := by
  obtain ⟨exit, interpreter, events⟩ := left
  obtain ⟨exit', interpreter', events'⟩ := right
  obtain ⟨rfl, rfl, ⟨program, translation⟩⟩ := same
  cases exit with
  | none => exact ⟨program, translation⟩
  | some exit => exact ⟨program, translation⟩

theorem instruction_image (image : ModuleImage left right) (input : StepInput) :
    Alike Corresponding (translatorReading.next long left (.instruction input))
      (right.next long (.instruction input)) := by
  obtain ⟨stored, running, storedTranslation, runningTranslation⟩ := image
  unfold Reading.next NcmSysfs.next
  dsimp only
  by_cases looping : left.ncmInterp.thread = some .looping
  · rw [if_pos looping, if_pos looping]
    refine (turn_image ⟨running, runningTranslation⟩ long input).bind fun turned executed same => ?_
    have resumed := resume_image same
    generalize turned.resume = resumedLeft at resumed
    generalize executed.resume = resumedRight at resumed
    obtain ⟨program, translation⟩ := resumed
    refine .ok ⟨⟨stored, program, storedTranslation, translation⟩, ?_⟩
    simp only [Iteration.observations, same.exit, same.events]
  · rw [if_neg looping, if_neg looping]
    exact .error _

/-- Corresponding actions keep the modules side by side. -/
theorem next_image {action action' : Action} (image : ModuleImage left right)
    (deploys : Deploys action action') :
    Alike Corresponding (translatorReading.next long left action) (right.next long action') := by
  cases deploys with
  | storeCode memory kmalloc translatable => exact storeCode_image image memory kmalloc translatable
  | other notCode =>
      cases action with
      | storeCode buf kmalloc => exact absurd rfl (notCode buf kmalloc)
      | instruction input => exact instruction_image image input
      | storeParams buf nameMemory macMemory =>
          have stores := storeParams_image long image buf nameMemory macMemory
          have stopping := stopping_image image
          unfold Reading.next NcmSysfs.next
          dsimp only
          rw [stopping, stores.2]
          split
          · exact .error _
          · exact .ok ⟨stores.1, rfl⟩
      | storeControl buf env =>
          have stopping := stopping_image image
          unfold Reading.next NcmSysfs.next
          dsimp only
          rw [stopping]
          split
          · exact .error _
          · exact (storeControl_image image buf env).bind fun _ _ after => .ok ⟨after, rfl⟩
      | storeVar var buf =>
          obtain ⟨stored, running, storedTranslation, runningTranslation⟩ := image
          unfold Reading.next NcmSysfs.next ncmSysfsVarStore
          dsimp only
          rw [bind_assoc, bind_assoc]
          refine .bind_same _ fun varspace => ?_
          exact .ok ⟨⟨stored, running, storedTranslation, runningTranslation⟩, rfl⟩
      | setScheduler granted =>
          obtain ⟨stored, running, storedTranslation, runningTranslation⟩ := image
          unfold Reading.next NcmSysfs.next
          dsimp only
          split
          · exact .ok ⟨⟨stored, running, storedTranslation, runningTranslation⟩, rfl⟩
          · exact .error _
      | stopped =>
          obtain ⟨stored, running, storedTranslation, runningTranslation⟩ := image
          unfold Reading.next NcmSysfs.next
          dsimp only
          split
          · exact .ok ⟨⟨stored, running, storedTranslation, runningTranslation⟩, rfl⟩
          · exact .error _
      | arrival read kmalloc =>
          obtain ⟨stored, running, storedTranslation, runningTranslation⟩ := image
          unfold Reading.next NcmSysfs.next
          dsimp only
          split
          · refine .bind_same _ fun network => ?_
            exact .ok ⟨⟨stored, running, storedTranslation, runningTranslation⟩, rfl⟩
          · exact .error _

end Lockstep

/--
A module that runs what the translator made of the streams written to it cannot
be told apart from one that runs the words of those streams: under every
sequence of writes, starts, stops, arrivals and instructions both show the same
events, exit values and faults, for one reading of the words that fits all.
-/
theorem translated_module_shows_same :
    ∃ reading : Reading, ∀ (long : LongWidth) (actions actions' : List Action),
      List.Forall₂ Deploys actions actions' →
        observe (reading.next long) initModule actions =
          observe (NcmSysfs.next · long) initModule actions' := by
  have initial : ModuleImage initModule initModule := ⟨none, none, .none, .none⟩
  refine ⟨translatorReading, fun long actions actions' corresponding => ?_⟩
  refine observe_eq_of_forall₂ ?_ initial corresponding
  intro state state' action action' image deploys
  exact next_image image deploys

/-- A FUTURE of five microseconds to the start, and the HALT that waits for it. -/
def futureHalt : List UInt8 := [0x50, 0, 0, 5, 0x40, 0, 0, 0]

theorem translatable_futureHalt : Translatable futureHalt := by
  intro i inside
  have two : i < 2 := inside
  unfold ComparesCounter
  match i, two with
  | 0, _ => decide
  | 1, _ => decide

/-- Writes of a configuration, a start and two instructions. -/
def turnFutureHalt : List Action :=
  [.storeParams noChannels (some fun _ => 0) (some fun _ => 0), .storeControl runCommand .bare,
    .setScheduler true, .instruction (.atClock 0 0 0), .instruction (.atClock 1 1 6)]

theorem translated_module_shows_same_futureHalt :
    ∃ reading : Reading,
      observe (reading.next .bits64) initModule
          (.storeCode futureHalt (some fun _ => 0) :: turnFutureHalt) =
        observe (NcmSysfs.next · .bits64) initModule
          (.storeCode (translatorMain (fun _ => ⟨0, fun _ => 0⟩) futureHalt) (some fun _ => 0) ::
            turnFutureHalt) := by
  obtain ⟨reading, shows⟩ := translated_module_shows_same
  have same : List.Forall₂ Deploys turnFutureHalt turnFutureHalt := by
    refine List.forall₂_same.mpr fun action member => .other ?_
    rintro buf kmalloc rfl
    simp [turnFutureHalt] at member
  exact ⟨reading, shows .bits64 _ _ (.cons (.storeCode _ _ translatable_futureHalt) same)⟩

end NetworkCode.Translator
