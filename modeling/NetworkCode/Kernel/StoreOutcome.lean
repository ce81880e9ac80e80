import NetworkCode.Kernel.ParamsTables
import NetworkCode.Kernel.Transitions

/-!
# Loading as a whole

A write of code or of params frees what was loaded and then asks for memory,
and it goes on whatever the answer.  A run is followed write by write: each one
installs its content whole or changes nothing exactly when no request fails
and the channel count does not wrap.
-/

namespace NetworkCode.Kernel

open Library Library.Checked

/-! ## What a write should leave -/

/-- The recorded length is that of a buffer that is there. -/
def Program.Held (program : Program) : Prop :=
  match program.instructions with
  | none => program.length = 0
  | some block => program.length.toNat = block.bytes.length

/-- Both tables are there in full. -/
structure NetParams.HoldsTables (params : NetParams) (names macs : List UInt8) : Prop where
  netDeviceName : params.netDeviceName = some names
  channelMac : params.channelMac = some macs
  names_length : names.length = ifnamsiz * params.channels.toNat
  macs_length : macs.length = ethAlen * params.channels.toNat

/-- The recorded channel count is that of two tables that are there. -/
def NetParams.Held (params : NetParams) : Prop :=
  params = ⟨0, none, none⟩ ∨ ∃ names macs, params.HoldsTables names macs

structure BuffersHeld (sysfs : NcmSysfs) : Prop where
  program : sysfs.program.Held
  params : sysfs.interpParams.Held

/-- The program is the one that was written. -/
structure CodeInstalled (buf : List UInt8) (program : Program) : Prop where
  instructions : program.instructions = some ⟨buf⟩
  length : program.length.toNat = buf.length

/-- The params are those that were written. -/
def ParamsInstalled (buf : List UInt8) (params : NetParams) : Prop :=
  ∃ names macs, Tables buf names macs ∧ params = ⟨Bytes.word buf 0, some names, some macs⟩

/-- What is loaded after an action: what it wrote, or what was loaded before. -/
def LoadedAfter (before after : NcmSysfs) : Action → Prop
  | .storeCode buf _ => (CodeInstalled buf after.program ∨ after.program = before.program) ∧
      after.interpParams = before.interpParams
  | .storeParams buf _ _ =>
      (ParamsInstalled buf after.interpParams ∨ after.interpParams = before.interpParams) ∧
        after.program = before.program
  | _ => after.program = before.program ∧ after.interpParams = before.interpParams

/-- The interpreter has been started on buffers that are there. -/
structure StartedHeld (params : NetParams) (interpreter : Interpreter) : Prop where
  program : ∃ block, interpreter.program = some block ∧
    interpreter.programLength.toNat = block.bytes.length
  params : ∃ names macs, params.HoldsTables names macs

/-- What an action should leave for the reads and the runs that follow. -/
structure LoadsWhole (long : LongWidth) (before : NcmSysfs) (label : Action × List Observation)
    (after : NcmSysfs) : Prop where
  loaded : LoadedAfter before after label.1
  held : BuffersHeld after
  starts : ∀ buf env shown later, after.ncmInterp.isRunning = false →
    Step long after (.storeControl buf env, shown) later → later.ncmInterp.isRunning = true →
      StartedHeld after.interpParams later.ncmInterp

/-- A write that sysfs hands over in one page. -/
def Action.Paged : Action → Prop
  | .storeCode buf _ | .storeParams buf _ _ => buf.length ≤ pageSize
  | _ => True

/-- The transitions with writes of at most a page. -/
abbrev PagedStep (long : LongWidth) : NcmSysfs → Action × List Observation → NcmSysfs → Prop :=
  Meeting (Step long) fun _ label => label.1.Paged

/-- The condition: the module is running, or there is memory for the new
content; and params that are accepted have a channel count that does not wrap. -/
def StoreFits (long : LongWidth) (sysfs : NcmSysfs) (label : Action × List Observation) : Prop :=
  match label.1 with
  | .storeCode buf memory => sysfs.ncmInterp.isRunning = true ∨ buf = [] ∨ memory ≠ none
  | .storeParams buf nameMemory macMemory => sysfs.ncmInterp.isRunning = true ∨
      buf.length ≠ expectedLength long buf ∨
        channelSize * channelCount buf < 2 ^ 32 ∧
          (channelCount buf = 0 ∨ nameMemory ≠ none ∧ macMemory ≠ none)
  | _ => True

/-! ## The writes -/

section Writes

variable {long : LongWidth} {sysfs : NcmSysfs} {buf : List UInt8}
  {memory nameMemory macMemory : Kmalloc}

theorem storeCode_whileRunning (running : sysfs.ncmInterp.isRunning = true) :
    ncmSysfsStoreCode sysfs buf memory = (sysfs, none) := by
  unfold ncmSysfsStoreCode
  rw [if_pos running]

theorem storeParams_whileRunning (running : sysfs.ncmInterp.isRunning = true) :
    ncmSysfsStoreParams sysfs long buf nameMemory macMemory = (sysfs, none) := by
  unfold ncmSysfsStoreParams
  dsimp only
  rw [if_pos running]

/-- A page is counted exactly. -/
theorem pagedLength (paged : buf.length ≤ pageSize) :
    (UInt32.ofNat buf.length).toNat = buf.length := by
  have small : pageSize < UInt32.size := by decide
  exact UInt32.toNat_ofNat_of_lt' (Nat.lt_of_le_of_lt paged small)

theorem codeRoom_iff : kmallocBlock buf.length memory ≠ none ↔ buf = [] ∨ memory ≠ none := by
  rw [ne_eq, kmallocBlock_eq_none, not_and_or, not_not, List.length_eq_zero_iff]

theorem codeInstalled_of_room (stopped : sysfs.ncmInterp.isRunning = false)
    (paged : buf.length ≤ pageSize) (room : kmallocBlock buf.length memory ≠ none) :
    CodeInstalled buf (ncmSysfsStoreCode sysfs buf memory).1.program := by
  obtain ⟨block, allocated⟩ := Option.ne_none_iff_exists'.mp room
  rw [storeCode_stores stopped allocated]
  exact ⟨rfl, pagedLength paged⟩

theorem CodeInstalled.held {program : Program} (installed : CodeInstalled buf program) :
    program.Held := by
  unfold Program.Held
  rw [installed.instructions]
  exact installed.length

/-- Without memory a length is recorded for a buffer that is not there. -/
theorem not_held_of_noRoom (stopped : sysfs.ncmInterp.isRunning = false)
    (paged : buf.length ≤ pageSize) (noRoom : kmallocBlock buf.length memory = none) :
    ¬ (ncmSysfsStoreCode sysfs buf memory).1.program.Held := by
  rw [storeCode_oops stopped noRoom]
  intro held
  have nonempty := (kmallocBlock_eq_none.mp noRoom).1
  have zero := congrArg UInt32.toNat (show UInt32.ofNat buf.length = 0 from held)
  rw [pagedLength paged] at zero
  exact nonempty zero

theorem storeCode_interpParams :
    (ncmSysfsStoreCode sysfs buf memory).1.interpParams = sysfs.interpParams := by
  obtain ⟨program, stored⟩ := ncmSysfsStoreCode_frame sysfs buf memory
  rw [stored]

theorem storeParams_program :
    (ncmSysfsStoreParams sysfs long buf nameMemory macMemory).1.program = sysfs.program := by
  obtain ⟨params, stored⟩ := ncmSysfsStoreParams_frame sysfs long buf nameMemory macMemory
  rw [stored]

/-- An accepted write leaves the channel count that it carries. -/
theorem storeParams_channels (stopped : sysfs.ncmInterp.isRunning = false)
    (accepted : buf.length = expectedLength long buf) :
    (ncmSysfsStoreParams sysfs long buf nameMemory macMemory).1.interpParams.channels =
      Bytes.word buf 0 := by
  have idle : ¬ sysfs.ncmInterp.isRunning = true := by simp [stopped]
  have reached : ¬ buf.length ≠
      (4 + (UInt32.ofNat (ifnamsiz + ethAlen) * Bytes.word buf 0).toNat) % 2 ^ long.bits :=
    not_not.mpr accepted
  unfold ncmSysfsStoreParams
  dsimp only
  rw [if_neg idle, if_neg reached]
  split
  · rfl
  · split <;> rfl

theorem ParamsInstalled.held {params : NetParams} (installed : ParamsInstalled buf params) :
    params.Held := by
  obtain ⟨names, macs, tables, rfl⟩ := installed
  exact .inr ⟨names, macs, rfl, rfl, tables.names_length, tables.macs_length⟩

/-- Params that fill at most a page do not wrap. -/
theorem ParamsInstalled.small {params : NetParams} (installed : ParamsInstalled buf params)
    (paged : buf.length ≤ pageSize) : channelSize * params.channels.toNat < 2 ^ 32 := by
  obtain ⟨names, macs, tables, rfl⟩ := installed
  have lengths := congrArg List.length tables.split
  rw [List.length_append, List.length_append, tables.names_length, tables.macs_length] at lengths
  have page : pageSize < 2 ^ 32 := by decide
  change (ifnamsiz + ethAlen) * channelCount buf < 2 ^ 32
  rw [Nat.add_mul]
  omega

section Small

variable (stopped : sysfs.ncmInterp.isRunning = false) (paged : buf.length ≤ pageSize)
  (small : channelSize * channelCount buf < 2 ^ 32)
  (accepted : buf.length = expectedLength long buf)

include paged small accepted

theorem exactLength : buf.length = 4 + channelSize * channelCount buf := by
  have page : pageSize < 2 ^ long.bits := by cases long <;> decide
  exact (accepts_of_small (Nat.lt_of_le_of_lt paged page) small).mp accepted

include stopped

theorem paramsInstalled_of_room
    (room : channelCount buf = 0 ∨ nameMemory ≠ none ∧ macMemory ≠ none) :
    ParamsInstalled buf
      (ncmSysfsStoreParams sysfs long buf nameMemory macMemory).1.interpParams := by
  have exact_length := exactLength paged small accepted
  obtain ⟨nameRoom, macRoom⟩ := room_iff.mpr room
  refine ⟨_, _, tables_of_exact exact_length, ?_⟩
  rw [accepted_write stopped small accepted exact_length]
  dsimp only
  rw [if_neg nameRoom, if_neg macRoom]

/-- Without memory a channel count is recorded for a table that is not there. -/
theorem not_held_of_noTable
    (noRoom : ¬ (channelCount buf = 0 ∨ nameMemory ≠ none ∧ macMemory ≠ none)) :
    ¬ (ncmSysfsStoreParams sysfs long buf nameMemory macMemory).1.interpParams.Held := by
  have exact_length := exactLength paged small accepted
  have some_channel : Bytes.word buf 0 ≠ 0 := fun zero =>
    noRoom (.inl (congrArg UInt32.toNat zero))
  rw [accepted_write stopped small accepted exact_length]
  dsimp only
  split
  · next noNames =>
      rintro (empty | ⟨names, macs, tables⟩)
      · exact some_channel (congrArg NetParams.channels empty)
      · cases noNames.symm.trans tables.netDeviceName
  · next names =>
      split
      · next noMacs =>
          rintro (empty | ⟨names, macs, tables⟩)
          · exact some_channel (congrArg NetParams.channels empty)
          · cases noMacs.symm.trans tables.channelMac
      · next macs => exact absurd (room_iff.mp ⟨names, macs⟩) noRoom

end Small

end Writes

/-! ## Steps -/

section Steps

variable {long : LongWidth} {before after : NcmSysfs} {label : Action × List Observation}

/-- Buffers are held, and the channel count is one whose size does not wrap. -/
structure Installed (sysfs : NcmSysfs) : Prop where
  held : BuffersHeld sysfs
  small : channelSize * sysfs.interpParams.channels.toNat < 2 ^ 32

theorem installed_initModule : Installed initModule where
  held := ⟨rfl, .inl rfl⟩
  small := by decide

theorem Installed.of_same (loaded : Installed before) (program : after.program = before.program)
    (params : after.interpParams = before.interpParams) : Installed after where
  held := ⟨program ▸ loaded.held.program, params ▸ loaded.held.params⟩
  small := params ▸ loaded.small

/-- A start that the control file accepts finds its buffers. -/
theorem startedHeld (held : BuffersHeld before) {buf : List UInt8} {env : NetEnv}
    {shown : List Observation} (stopped : before.ncmInterp.isRunning = false)
    (hstep : Step long before (.storeControl buf env, shown) after)
    (running : after.ncmInterp.isRunning = true) :
    StartedHeld before.interpParams after.ncmInterp := by
  cases step_transition hstep with
  | storesControl idle controls =>
      cases controls with
      | starts command startable initialised =>
          obtain ⟨-, program, names, -⟩ := startable
          constructor
          · obtain ⟨block, there⟩ := Option.ne_none_iff_exists'.mp program
            have length := held.program
            unfold Program.Held at length
            rw [there] at length
            exact ⟨block, there, length⟩
          · rcases held.params with empty | tables
            · exact absurd (congrArg NetParams.netDeviceName empty) names
            · exact tables
      | tearsDown command alive destroyed => cases stopped.symm.trans alive
      | ignores => cases stopped.symm.trans running

theorem loadsWhole_of (loaded : LoadedAfter before after label.1) (held : BuffersHeld after) :
    LoadsWhole long before label after where
  loaded := loaded
  held := held
  starts _ _ _ _ stopped hstep running := startedHeld held stopped hstep running

/-- Under the condition a write installs its content or changes nothing. -/
theorem installed_of_fits (loaded : Installed before) (fits : StoreFits long before label)
    (hstep : PagedStep long before label after) :
    LoadedAfter before after label.1 ∧ Installed after := by
  obtain ⟨action, shown⟩ := label
  obtain ⟨paged, hstep⟩ := hstep
  cases step_transition hstep with
  | storesCode buf memory idle =>
      have params := @storeCode_interpParams before buf memory
      cases running : before.ncmInterp.isRunning with
      | true =>
          rw [storeCode_whileRunning running]
          exact ⟨⟨.inr rfl, rfl⟩, loaded⟩
      | false =>
          have room := codeRoom_iff.mpr (fits.resolve_left (by simp [running]))
          have installed := codeInstalled_of_room running paged room
          exact ⟨⟨.inl installed, params⟩,
            ⟨installed.held, params ▸ loaded.held.params⟩, params ▸ loaded.small⟩
  | storesParams buf nameMemory macMemory idle =>
      have program := @storeParams_program long before buf nameMemory macMemory
      cases running : before.ncmInterp.isRunning with
      | true =>
          rw [storeParams_whileRunning running]
          exact ⟨⟨.inr rfl, rfl⟩, loaded⟩
      | false =>
          rcases fits.resolve_left (by simp [running]) with refused | ⟨small, room⟩
          · rw [refused_write running refused]
            exact ⟨⟨.inr rfl, rfl⟩, loaded⟩
          · by_cases accepted : buf.length = expectedLength long buf
            · have installed := paramsInstalled_of_room running paged small accepted room
              exact ⟨⟨.inl installed, program⟩,
                ⟨program ▸ loaded.held.program, installed.held⟩, installed.small paged⟩
            · rw [refused_write running accepted]
              exact ⟨⟨.inr rfl, rfl⟩, loaded⟩
  | storesControl idle controls =>
      cases controls <;> exact ⟨⟨rfl, rfl⟩, loaded.of_same rfl rfl⟩
  | _ => exact ⟨⟨rfl, rfl⟩, loaded.of_same rfl rfl⟩

/-- A write that leaves everything as it should be has met the condition. -/
theorem fits_of_loadsWhole (loaded : Installed before)
    (hstep : PagedStep long before label after) (whole : LoadsWhole long before label after) :
    StoreFits long before label := by
  obtain ⟨action, shown⟩ := label
  obtain ⟨paged, hstep⟩ := hstep
  cases step_transition hstep with
  | storesCode buf memory idle =>
      cases running : before.ncmInterp.isRunning with
      | true => exact .inl running
      | false =>
          refine .inr (codeRoom_iff.mp fun noRoom => ?_)
          exact not_held_of_noRoom running paged noRoom whole.held.program
  | storesParams buf nameMemory macMemory idle =>
      cases running : before.ncmInterp.isRunning with
      | true => exact .inl running
      | false =>
          refine .inr (or_iff_not_imp_left.mpr fun accepted => ?_)
          have accepted := not_not.mp accepted
          have count := @storeParams_channels long before buf nameMemory macMemory running accepted
          have small : channelSize * channelCount buf < 2 ^ 32 := by
            rcases whole.loaded.1 with installed | same
            · have fits := installed.small paged
              rw [count] at fits
              exact fits
            · have fits := loaded.small
              rw [← same, count] at fits
              exact fits
          refine ⟨small, by_contra fun noRoom => ?_⟩
          exact not_held_of_noTable running paged small accepted noRoom whole.held.params
  | _ => trivial

end Steps

/-! ## Runs -/

section Runs

variable {long : LongWidth} {labels : List (Action × List Observation)} {sysfs : NcmSysfs}

/--
In a run from loading the module with writes of at most a page, every write of
code or params installs its content whole or changes nothing, and leaves
buffers for all that is recorded, if and only if every write meets the
condition.
-/
theorem stores_loadWhole_iff (run : Run (PagedStep long) initModule labels sysfs) :
    Run.EachStep (PagedStep long) (LoadsWhole long) initModule labels ↔
      Run (Meeting (PagedStep long) (StoreFits long)) initModule labels sysfs := by
  have deterministic (before : NcmSysfs) (label : Action × List Observation)
      (after after' : NcmSysfs) (hstep : PagedStep long before label after)
      (hstep' : PagedStep long before label after') : after = after' :=
    (Prod.mk.inj (Except.ok.inj (hstep.2.symm.trans hstep'.2))).1
  refine Run.eachStep_iff_meeting deterministic ?_ ?_ run installed_initModule
  · exact fun _ _ _ loaded fits hstep => (installed_of_fits loaded fits hstep).2
  · intro before label after loaded hstep
    refine ⟨fits_of_loadsWhole loaded hstep, fun fits => ?_⟩
    obtain ⟨installed, kept⟩ := installed_of_fits loaded fits hstep
    exact loadsWhole_of installed kept.held

end Runs

theorem paged_loadAndRun {instrs : List Instr} {params : List UInt8} {env : NetEnv}
    (code : (CodeBlock.ofInstrs instrs).bytes.length ≤ pageSize)
    (tables : params.length ≤ pageSize) :
    ∀ action ∈ loadAndRun instrs params env, action.Paged := by
  intro action member
  simp only [loadAndRun, List.mem_cons, List.not_mem_nil, or_false] at member
  rcases member with rfl | rfl | rfl | rfl
  · exact code
  · exact tables
  · trivial
  · trivial

/-- A program and its params, loaded and started. -/
theorem stores_loadWhole_iff_goto : ∃ labels sysfs,
    Run (PagedStep .bits64) initModule labels sysfs ∧ sysfs.ncmInterp.thread = some .looping ∧
      (Run.EachStep (PagedStep .bits64) (LoadsWhole .bits64) initModule labels ↔
        Run (Meeting (PagedStep .bits64) (StoreFits .bits64)) initModule labels sysfs) := by
  have done : ∃ sysfs labels, runFromInit .bits64
      (loadAndRun [.make .goto 0 0 0 0] oneChannel .bare) = .ok (sysfs, labels) ∧
      sysfs.ncmInterp.thread = some .looping ∧
      labels.map Prod.fst = loadAndRun [.make .goto 0 0 0 0] oneChannel .bare :=
    ⟨_, _, rfl, rfl, rfl⟩
  obtain ⟨sysfs, labels, done, looping, actions⟩ := done
  have paged (label : Action × List Observation) (member : label ∈ labels) : label.1.Paged :=
    paged_loadAndRun (by decide) (by decide) label.1 (actions ▸ List.mem_map_of_mem member)
  have run := (run_of_runFromInit done).meeting fun label member _ => paged label member
  exact ⟨labels, sysfs, run, looping, stores_loadWhole_iff run⟩

/-- One byte of code for which there is no memory. -/
theorem storeCode_losesProgram :
    ¬ ∀ (long : LongWidth) (labels : List (Action × List Observation)) (sysfs : NcmSysfs),
      Run (PagedStep long) initModule labels sysfs →
        Run.EachStep (PagedStep long) (LoadsWhole long) initModule labels := by
  intro claim
  have paged : ([7] : List UInt8).length ≤ pageSize := by decide
  have step : PagedStep .bits64 initModule
      (.storeCode [7] none, [.oops (.copyTooLong 1)]) { initModule with program := ⟨none, 1⟩ } :=
    ⟨paged, rfl⟩
  have whole := claim _ _ _ (.single step) [] _ _ _ List.prefix_rfl (.refl _) step
  have held : (1 : UInt32) = 0 := whole.held.program
  cases held

end NetworkCode.Kernel
