import NetworkCode.Kernel.CodeFile
import NetworkCode.Kernel.Memory
import NetworkCode.Kernel.Restart

/-!
# The memory behind the files

What a transition does to the blocks, and that the blocks cannot be told from
the values of the module without memory as long as each pointer owns its
block and a running interpreter shares the block of the code.
-/

namespace NetworkCode.Kernel

open Library Library.Checked

/-- The writes to the files of the module. -/
def Action.IsWrite : Action → Bool
  | .storeCode .. | .storeParams .. | .storeControl .. => true
  | _ => false

/-- The pointers that own a block. -/
inductive Root where
  | instructions
  | netDeviceName
  | channelMac
  deriving DecidableEq

def HeapSysfs.roots (sysfs : HeapSysfs) : Root → KernelPtr
  | .instructions => sysfs.instructions
  | .netDeviceName => sysfs.netDeviceName
  | .channelMac => sysfs.channelMac

/-- The names in a params write. -/
def namesOf (buf : List UInt8) : List UInt8 :=
  Bytes.slice buf 4 (UInt32.ofNat ifnamsiz * Bytes.word buf 0).toNat

/-- The MACs in a params write. -/
def macsOf (buf : List UInt8) : List UInt8 :=
  Bytes.slice buf (4 + (UInt32.ofNat ifnamsiz * Bytes.word buf 0).toNat)
    (UInt32.ofNat ethAlen * Bytes.word buf 0).toNat

/-- The params that an accepted write of `buf` stores. -/
def NetParams.stored (buf : List UInt8) : NetParams :=
  ⟨Bytes.word buf 0, some (namesOf buf), some (macsOf buf)⟩

/-- Why a write is refused, with what it prints. -/
inductive Refuses (long : LongWidth) (sysfs : HeapSysfs) : HeapAction → String → Prop where
  | code {buf : List UInt8} {address : Nat} (running : sysfs.interp.isRunning = true) :
      Refuses long sysfs (.storeCode buf address) codeWhileRunning
  | params {buf : List UInt8} {nameAddress macAddress : Nat}
      (running : sysfs.interp.isRunning = true) :
      Refuses long sysfs (.storeParams buf nameAddress macAddress) paramsWhileRunning
  | length {buf : List UInt8} {nameAddress macAddress : Nat}
      (stopped : sysfs.interp.isRunning = false) (wrong : buf.length ≠ expectedLength long buf) :
      Refuses long sysfs (.storeParams buf nameAddress macAddress) invalidParams
  | noProgram {buf : List UInt8} {env : NetEnv} (command : buf.take 3 = runCommand)
      (missing : sysfs.instructions = .null) :
      Refuses long sysfs (.storeControl buf env) noProgramLoaded
  | noParams {buf : List UInt8} {env : NetEnv} (command : buf.take 3 = runCommand)
      (missing : sysfs.netDeviceName = .null ∨ sysfs.channelMac = .null) :
      Refuses long sysfs (.storeControl buf env) noParamsLoaded

/-- What a transition does to the state with its memory. -/
inductive HeapMoves (long : LongWidth) (sysfs : HeapSysfs) :
    HeapAction → Shown → HeapSysfs → Prop where
  | refuses {action : HeapAction} {warning : String} (idle : sysfs.stopping = false)
      (cause : Refuses long sysfs action warning) :
      HeapMoves long sysfs action ⟨some warning, []⟩ sysfs
  | storesCode {buf : List UInt8} {address : Nat} {middle heap : KernelHeap} {ptr : KernelPtr}
      (idle : sysfs.stopping = false) (stopped : sysfs.interp.isRunning = false)
      (freed : sysfs.heap.free sysfs.instructions = some middle)
      (stored : middle.alloc address buf = some (heap, ptr)) :
      HeapMoves long sysfs (.storeCode buf address) ⟨none, []⟩
        { sysfs with
          heap := heap
          instructions := ptr
          programLength := UInt32.ofNat buf.length }
  | storesParams {buf : List UInt8} {nameAddress macAddress : Nat}
      {first second third heap : KernelHeap} {names macs : KernelPtr}
      (idle : sysfs.stopping = false) (stopped : sysfs.interp.isRunning = false)
      (accepted : buf.length = expectedLength long buf)
      (namesFit : ¬ (namesOf buf).length < (UInt32.ofNat ifnamsiz * Bytes.word buf 0).toNat)
      (macsFit : ¬ (macsOf buf).length < (UInt32.ofNat ethAlen * Bytes.word buf 0).toNat)
      (freedNames : sysfs.heap.free sysfs.netDeviceName = some first)
      (freedMacs : first.free sysfs.channelMac = some second)
      (storedNames : second.alloc nameAddress (namesOf buf) = some (third, names))
      (storedMacs : third.alloc macAddress (macsOf buf) = some (heap, macs)) :
      HeapMoves long sysfs (.storeParams buf nameAddress macAddress) ⟨none, []⟩
        { sysfs with
          heap := heap
          channels := Bytes.word buf 0
          netDeviceName := names
          channelMac := macs }
  | starts {buf : List UInt8} {env : NetEnv} {interp : Interpreter}
      (idle : sysfs.stopping = false) (command : buf.take 3 = runCommand)
      (stopped : sysfs.interp.isRunning = false) (code : sysfs.instructions ≠ .null)
      (params : ¬ (sysfs.netDeviceName = .null ∨ sysfs.channelMac = .null))
      (started : startInterpreter sysfs.ncmInterp sysfs.program sysfs.interpParams env =
        .ok interp) :
      HeapMoves long sysfs (.storeControl buf env) ⟨none, []⟩
        { sysfs with interp := interp, interpProgram := sysfs.instructions }
  | tearsDown {buf : List UInt8} {env : NetEnv} {interp : Interpreter}
      (idle : sysfs.stopping = false) (other : buf.take 3 ≠ runCommand)
      (command : buf.take 4 = stopCommand) (running : sysfs.interp.isRunning = true)
      (torn : stopNetwork sysfs.ncmInterp = .ok interp) :
      HeapMoves long sysfs (.storeControl buf env) ⟨none, []⟩
        { sysfs with interp := interp, stopping := true }
  /-- A write to the control file without an effect. -/
  | ignores {buf : List UInt8} {env : NetEnv} (idle : sysfs.stopping = false)
      (cause : buf.take 3 = runCommand ∧ sysfs.interp.isRunning = true ∨
        buf.take 3 ≠ runCommand ∧
          ¬ (buf.take 4 = stopCommand ∧ sysfs.interp.isRunning = true)) :
      HeapMoves long sysfs (.storeControl buf env) ⟨none, []⟩ sysfs
  | acts {action : HeapAction} {observations : List Observation} {after : NcmSysfs}
      (noWrite : action.toAction.IsWrite = false)
      (done : Step long sysfs.view (action.toAction, observations) after) :
      HeapMoves long sysfs action ⟨none, observations⟩
        { sysfs with interp := after.ncmInterp, stopping := after.stopping }

section Inversion

variable {long : LongWidth} {sysfs after : HeapSysfs} {buf : List UInt8} {shown : Shown}

theorem write_eq_ok {stored : MemoryExec (HeapSysfs × Option String)}
    (done : sysfs.write stored = .ok (after, shown)) :
    sysfs.stopping = false ∧ ∃ printk, stored = .ok (after, printk) ∧ shown = ⟨printk, []⟩ := by
  unfold HeapSysfs.write at done
  split at done
  · cases done
  · next idle =>
      obtain ⟨⟨state, printk⟩, stored, finish⟩ := bind_eq_ok.mp done
      cases finish
      exact ⟨Bool.eq_false_iff.mpr idle, printk, stored, rfl⟩

theorem storeCode_moves {address : Nat}
    (done : sysfs.write (sysfs.ncmSysfsStoreCode buf address) = .ok (after, shown)) :
    HeapMoves long sysfs (.storeCode buf address) shown after := by
  obtain ⟨idle, printk, stored, rfl⟩ := write_eq_ok done
  unfold HeapSysfs.ncmSysfsStoreCode at stored
  split at stored
  · next running =>
      cases stored
      exact .refuses idle (.code running)
  · next stopped =>
      obtain ⟨middle, freed, rest⟩ := bind_eq_ok.mp stored
      obtain ⟨⟨heap, ptr⟩, allocated, finish⟩ := bind_eq_ok.mp rest
      cases finish
      exact .storesCode idle (Bool.eq_false_iff.mpr stopped) (kfree_eq_ok.mp freed)
        (kmallocCopy_eq_ok.mp allocated)

theorem storeParams_moves {nameAddress macAddress : Nat}
    (done : sysfs.write (sysfs.ncmSysfsStoreParams long buf nameAddress macAddress) =
      .ok (after, shown)) :
    HeapMoves long sysfs (.storeParams buf nameAddress macAddress) shown after := by
  obtain ⟨idle, printk, stored, rfl⟩ := write_eq_ok done
  unfold HeapSysfs.ncmSysfsStoreParams at stored
  dsimp only at stored
  split at stored
  · next running =>
      cases stored
      exact .refuses idle (.params running)
  · next stopped =>
      have stopped : sysfs.interp.isRunning = false := Bool.eq_false_iff.mpr stopped
      split at stored
      · next wrong =>
          cases stored
          exact .refuses idle (.length stopped wrong)
      · next accepted =>
          split at stored
          · cases stored
          · next namesFit =>
              split at stored
              · cases stored
              · next macsFit =>
                  obtain ⟨first, freedNames, rest⟩ := bind_eq_ok.mp stored
                  obtain ⟨second, freedMacs, rest⟩ := bind_eq_ok.mp rest
                  obtain ⟨⟨third, names⟩, storedNames, rest⟩ := bind_eq_ok.mp rest
                  obtain ⟨⟨heap, macs⟩, storedMacs, finish⟩ := bind_eq_ok.mp rest
                  cases finish
                  exact .storesParams idle stopped (not_not.mp accepted) namesFit macsFit
                    (kfree_eq_ok.mp freedNames) (kfree_eq_ok.mp freedMacs)
                    (kmallocCopy_eq_ok.mp storedNames) (kmallocCopy_eq_ok.mp storedMacs)

theorem storeControl_moves {env : NetEnv}
    (done : sysfs.write (sysfs.ncmSysfsStoreControl buf env) = .ok (after, shown)) :
    HeapMoves long sysfs (.storeControl buf env) shown after := by
  obtain ⟨idle, printk, stored, rfl⟩ := write_eq_ok done
  unfold HeapSysfs.ncmSysfsStoreControl at stored
  split at stored
  · next command =>
      split at stored
      · next running =>
          cases stored
          exact .ignores idle (.inl ⟨command, running⟩)
      · next stopped =>
          split at stored
          · next missing =>
              cases stored
              exact .refuses idle (.noProgram command missing)
          · next code =>
              split at stored
              · next missing =>
                  cases stored
                  exact .refuses idle (.noParams command missing)
              · next params =>
                  obtain ⟨interp, started, finish⟩ := bind_eq_ok.mp stored
                  cases finish
                  exact .starts idle command (Bool.eq_false_iff.mpr stopped) code params
                    (inKernel_eq_ok.mp started)
  · next other =>
      split at stored
      · next command =>
          obtain ⟨interp, torn, finish⟩ := bind_eq_ok.mp stored
          cases finish
          exact .tearsDown idle other command.1 command.2 (inKernel_eq_ok.mp torn)
      · next nothing =>
          cases stored
          exact .ignores idle (.inr ⟨other, nothing⟩)

theorem act_moves {action : HeapAction}
    (noWrite : action.toAction.IsWrite = false)
    (done : sysfs.act long action.toAction = .ok (after, shown)) :
    HeapMoves long sysfs action shown after := by
  obtain ⟨⟨state, observations⟩, acted, finish⟩ := bind_eq_ok.mp done
  cases finish
  exact .acts noWrite (inKernel_eq_ok.mp acted)

theorem heapStep_moves {label : HeapAction × Shown} (hstep : HeapStep long sysfs label after) :
    HeapMoves long sysfs label.1 label.2 after := by
  obtain ⟨action, shown⟩ := label
  cases action with
  | storeCode buf address => exact storeCode_moves hstep
  | storeParams buf nameAddress macAddress => exact storeParams_moves hstep
  | storeControl buf env => exact storeControl_moves hstep
  | storeVar var buf => exact act_moves rfl hstep
  | setScheduler granted => exact act_moves rfl hstep
  | instruction input => exact act_moves rfl hstep
  | stopped => exact act_moves rfl hstep
  | arrival read kmalloc => exact act_moves rfl hstep

end Inversion

/-! ## The values in the blocks -/

/-- The pointers own their blocks, and the blocks hold a program and params. -/
structure HeapSysfs.Holds (sysfs : HeapSysfs) (program : Program) (params : NetParams) : Prop where
  owns : sysfs.heap.Owns sysfs.roots
  program_eq : sysfs.program = program
  params_eq : sysfs.interpParams = params

section Blocks

variable {sysfs : HeapSysfs} {program : Program} {params : NetParams} {buf : List UInt8}

/-- A write of code replaces the program and leaves the params. -/
theorem HeapSysfs.Holds.storesCode (holds : sysfs.Holds program params) {address : Nat}
    {middle heap : KernelHeap} {ptr : KernelPtr}
    (freed : sysfs.heap.free sysfs.instructions = some middle)
    (stored : middle.alloc address buf = some (heap, ptr)) :
    HeapSysfs.Holds { sysfs with
      heap := heap
      instructions := ptr
      programLength := UInt32.ofNat buf.length } (.stored buf) params := by
  obtain ⟨middle', freed', owns, kept⟩ := holds.owns.free .instructions
  obtain rfl : middle = middle' := Option.some.inj (freed.symm.trans freed')
  have others (root : Root) (other : root ≠ .instructions) :
      heap.contents (sysfs.roots root) = sysfs.heap.contents (sysfs.roots root) := by
    have allocated := owns.contents_alloc stored root
    rw [Function.update_of_ne other] at allocated
    exact allocated.trans (kept root other)
  constructor
  · have owned : heap.Owns (Function.update (Function.update sysfs.roots .instructions .null)
        .instructions ptr) := owns.alloc stored rfl
    have roots : Function.update (Function.update sysfs.roots .instructions .null)
        .instructions ptr = HeapSysfs.roots { sysfs with
          heap := heap
          instructions := ptr
          programLength := UInt32.ofNat buf.length } := by
      funext root
      cases root <;> rfl
    rwa [roots] at owned
  · simp only [HeapSysfs.program, HeapSysfs.code, Heap.contents_alloc stored]
    rfl
  · rw [← holds.params_eq]
    have names : heap.contents sysfs.netDeviceName = sysfs.heap.contents sysfs.netDeviceName :=
      others .netDeviceName nofun
    have macs : heap.contents sysfs.channelMac = sysfs.heap.contents sysfs.channelMac :=
      others .channelMac nofun
    simp only [HeapSysfs.interpParams, names, macs]

/-- A write of params replaces the params and leaves the program. -/
theorem HeapSysfs.Holds.storesParams (holds : sysfs.Holds program params)
    {nameAddress macAddress : Nat} {first second third heap : KernelHeap} {names macs : KernelPtr}
    (freedNames : sysfs.heap.free sysfs.netDeviceName = some first)
    (freedMacs : first.free sysfs.channelMac = some second)
    (storedNames : second.alloc nameAddress (namesOf buf) = some (third, names))
    (storedMacs : third.alloc macAddress (macsOf buf) = some (heap, macs)) :
    HeapSysfs.Holds { sysfs with
      heap := heap
      channels := Bytes.word buf 0
      netDeviceName := names
      channelMac := macs } program (.stored buf) := by
  obtain ⟨first', freed, owns, kept⟩ := holds.owns.free .netDeviceName
  obtain rfl : first = first' := Option.some.inj (freedNames.symm.trans freed)
  obtain ⟨second', freed, owns', kept'⟩ := owns.free .channelMac
  obtain rfl : second = second' := Option.some.inj (freedMacs.symm.trans freed)
  have owns'' : third.Owns (Function.update (Function.update (Function.update sysfs.roots
      .netDeviceName .null) .channelMac .null) .netDeviceName names) :=
    owns'.alloc storedNames rfl
  constructor
  · have owned : heap.Owns (Function.update (Function.update (Function.update (Function.update
        sysfs.roots .netDeviceName .null) .channelMac .null) .netDeviceName names)
          .channelMac macs) := owns''.alloc storedMacs rfl
    have roots : Function.update (Function.update (Function.update (Function.update sysfs.roots
        .netDeviceName .null) .channelMac .null) .netDeviceName names) .channelMac macs =
          HeapSysfs.roots { sysfs with
            heap := heap
            channels := Bytes.word buf 0
            netDeviceName := names
            channelMac := macs } := by
      funext root
      cases root <;> rfl
    rwa [roots] at owned
  · rw [← holds.program_eq]
    have same : heap.contents sysfs.instructions = sysfs.heap.contents sysfs.instructions := calc
      heap.contents sysfs.instructions
      _ = third.contents sysfs.instructions := owns''.contents_alloc storedMacs .instructions
      _ = second.contents sysfs.instructions := owns'.contents_alloc storedNames .instructions
      _ = first.contents sysfs.instructions := kept' .instructions nofun
      _ = sysfs.heap.contents sysfs.instructions := kept .instructions nofun
    simp only [HeapSysfs.program, HeapSysfs.code, same]
  · have storedNames' : heap.contents names = some (namesOf buf) :=
      (owns''.contents_alloc storedMacs .netDeviceName).trans (Heap.contents_alloc storedNames)
    simp only [HeapSysfs.interpParams, storedNames', Heap.contents_alloc storedMacs]
    rfl

end Blocks

/-! ## Accepted writes -/

/-- The bytes of a write of code that was not refused. -/
def acceptedCode? : HeapAction × Shown → Option (List UInt8)
  | (.storeCode buf _, ⟨none, _⟩) => some buf
  | _ => none

/-- The bytes of a write of params that was not refused. -/
def acceptedParams? : HeapAction × Shown → Option (List UInt8)
  | (.storeParams buf _ _, ⟨none, _⟩) => some buf
  | _ => none

/-- A transition stores what it accepts and leaves the rest. -/
theorem HeapMoves.holds {long : LongWidth} {sysfs after : HeapSysfs} {action : HeapAction}
    {shown : Shown} {program : Program} {params : NetParams}
    (moves : HeapMoves long sysfs action shown after) (holds : sysfs.Holds program params) :
    after.Holds ((acceptedCode? (action, shown)).elim program .stored)
      ((acceptedParams? (action, shown)).elim params .stored) := by
  obtain ⟨owns, program_eq, params_eq⟩ := id holds
  cases moves with
  | refuses idle cause => cases cause <;> exact holds
  | storesCode _ _ freed stored => exact holds.storesCode freed stored
  | storesParams _ _ _ _ _ freedNames freedMacs storedNames storedMacs =>
      exact holds.storesParams freedNames freedMacs storedNames storedMacs
  | starts => exact ⟨owns, program_eq, params_eq⟩
  | tearsDown => exact ⟨owns, program_eq, params_eq⟩
  | ignores => exact holds
  | acts noWrite =>
      cases action with
      | storeCode | storeParams | storeControl => cases noWrite
      | storeVar | setScheduler | instruction | stopped | arrival =>
          exact ⟨owns, program_eq, params_eq⟩

/-! ## The pointer of the interpreter -/

/-- The interpreter shares the block of the code. -/
structure HeapSysfs.Aliased (sysfs : HeapSysfs) : Prop where
  pointer : sysfs.interpProgram = sysfs.instructions
  loaded : sysfs.instructions ≠ .null
  program_eq : sysfs.interp.program = sysfs.code sysfs.instructions
  length_eq : sysfs.interp.programLength = sysfs.programLength

theorem step_files {long : LongWidth} {before after : NcmSysfs} {action : Action}
    {observations : List Observation} (noWrite : action.IsWrite = false)
    (hstep : Step long before (action, observations) after) :
    after.program = before.program ∧ after.interpParams = before.interpParams := by
  cases step_transition hstep with
  | storesCode | storesParams | storesControl => cases noWrite
  | storesVar | schedules | iterates | joins | receives => exact ⟨rfl, rfl⟩

/-- A transition that is no write starts no interpreter and leaves the program
of a running one. -/
theorem Moves.keepsProgram {long : LongWidth} {sysfs : NcmSysfs} {action : Action}
    {observations : List Observation} {interpreter : Interpreter}
    (moves : Moves long sysfs action observations interpreter) (noWrite : action.IsWrite = false)
    (represented : ∃ futures, sysfs.ncmInterp.futureQueue.Represents futures)
    (running : interpreter.isRunning = true) :
    sysfs.ncmInterp.isRunning = true ∧ interpreter.program = sysfs.ncmInterp.program ∧
      interpreter.programLength = sysfs.ncmInterp.programLength := by
  cases moves with
  | stays => exact ⟨running, rfl, rfl⟩
  | writes => exact ⟨running, rfl, rfl⟩
  | starts => cases noWrite
  | tearsDown => cases noWrite
  | schedules created =>
      rw [Interpreter.isRunning, created]
      exact ⟨rfl, rfl, rfl⟩
  | @iterates input instr iteration looping fetched done =>
      obtain ⟨futures, represents⟩ := represented
      obtain ⟨futures', controlStep, _⟩ := execute_controlled represents done
      rw [Interpreter.isRunning, looping, resume_program, resume_programLength]
      exact ⟨rfl, controlStep.program_eq, controlStep.programLength_eq⟩
  | joins => cases running
  | receives => exact ⟨running, rfl, rfl⟩

section Alias

variable {long : LongWidth} {sysfs after : HeapSysfs} {action : HeapAction} {shown : Shown}

theorem HeapSysfs.ncmInterp_eq (aliased : sysfs.interp.isRunning = true → sysfs.Aliased) :
    sysfs.ncmInterp = sysfs.interp := by
  unfold HeapSysfs.ncmInterp
  split
  · next running => rw [(aliased running).pointer, ← (aliased running).program_eq]
  · rfl

/-- Starting shares the block, and while the interpreter runs no transition
replaces it. -/
theorem HeapMoves.aliased (moves : HeapMoves long sysfs action shown after)
    (aliased : sysfs.interp.isRunning = true → sysfs.Aliased)
    (reachable : Reachable long sysfs.view) (running : after.interp.isRunning = true) :
    after.Aliased := by
  have interp_eq := HeapSysfs.ncmInterp_eq aliased
  cases moves with
  | refuses => exact aliased running
  | storesCode _ stopped => cases stopped.symm.trans running
  | storesParams _ stopped => cases stopped.symm.trans running
  | starts _ _ _ code _ started =>
      obtain ⟨⟨network, acquired⟩, _, finish⟩ := bind_eq_ok.mp started
      cases finish
      exact ⟨rfl, code, rfl, rfl⟩
  | tearsDown _ _ _ before torn =>
      obtain ⟨⟨network, released⟩, _, finish⟩ := bind_eq_ok.mp torn
      cases finish
      rw [interp_eq]
      obtain ⟨pointer, loaded, program_eq, length_eq⟩ := aliased before
      exact ⟨pointer, loaded, program_eq, length_eq⟩
  | ignores => exact aliased running
  | acts noWrite done =>
      obtain ⟨running', program, length⟩ :=
        (step_moves done).keepsProgram noWrite (reachable_represented reachable) running
      rw [show sysfs.view.ncmInterp = sysfs.interp from interp_eq] at running' program length
      obtain ⟨pointer, loaded, program_eq, length_eq⟩ := aliased running'
      exact ⟨pointer, loaded, program.trans program_eq, length.trans length_eq⟩

/-! ## The refinement -/

theorem HeapSysfs.view_eq (aliased : sysfs.interp.isRunning = true → sysfs.Aliased) :
    sysfs.view = ⟨sysfs.interp, sysfs.program, sysfs.interpParams, sysfs.stopping⟩ := by
  rw [HeapSysfs.view, HeapSysfs.ncmInterp_eq aliased]

/-- A start needs a pointer for each of the three blocks. -/
theorem startable_view_iff (owns : sysfs.heap.Owns sysfs.roots)
    (aliased : sysfs.interp.isRunning = true → sysfs.Aliased) :
    Startable sysfs.view ↔ sysfs.interp.isRunning = false ∧ sysfs.instructions ≠ .null ∧
      sysfs.netDeviceName ≠ .null ∧ sysfs.channelMac ≠ .null := by
  have code : sysfs.program.instructions ≠ none ↔ sysfs.instructions ≠ .null :=
    not_congr (Option.map_eq_none_iff.trans (owns.contents_eq_none_iff .instructions))
  have names : sysfs.interpParams.netDeviceName ≠ none ↔ sysfs.netDeviceName ≠ .null :=
    not_congr (owns.contents_eq_none_iff .netDeviceName)
  have macs : sysfs.interpParams.channelMac ≠ none ↔ sysfs.channelMac ≠ .null :=
    not_congr (owns.contents_eq_none_iff .channelMac)
  rw [Startable, HeapSysfs.view_eq aliased, code, names, macs]

theorem kmallocBlock_of_some (size : Nat) (bytes : Nat → UInt8) :
    ∃ block, kmallocBlock size (some bytes) = some block := by
  unfold kmallocBlock
  split
  · exact ⟨_, rfl⟩
  · exact ⟨_, rfl⟩

section Stores

variable {state after' : NcmSysfs} {buf : List UInt8} {memory nameMemory macMemory : Kmalloc}

theorem storeCode_running (running : state.ncmInterp.isRunning = true) :
    ncmSysfsStoreCode state buf memory = (state, none) := by
  unfold ncmSysfsStoreCode
  exact if_pos running

theorem storeParams_running (running : state.ncmInterp.isRunning = true) :
    ncmSysfsStoreParams state long buf nameMemory macMemory = (state, none) := by
  unfold ncmSysfsStoreParams
  exact if_pos running

/-- An accepted write of params that copies inside the buffer. -/
theorem storeParams_stores (stopped : state.ncmInterp.isRunning = false)
    (accepted : buf.length = expectedLength long buf)
    (namesFit : ¬ (namesOf buf).length < (UInt32.ofNat ifnamsiz * Bytes.word buf 0).toNat)
    (macsFit : ¬ (macsOf buf).length < (UInt32.ofNat ethAlen * Bytes.word buf 0).toNat)
    (names macs : Nat → UInt8) :
    ncmSysfsStoreParams state long buf (some names) (some macs) =
      ({ state with interpParams := .stored buf }, none) := by
  have idle : ¬ state.ncmInterp.isRunning = true := by simp [stopped]
  have reached : ¬ buf.length ≠
      (4 + (UInt32.ofNat (ifnamsiz + ethAlen) * Bytes.word buf 0).toNat) % 2 ^ long.bits :=
    not_not.mpr accepted
  obtain ⟨nameBlock, nameRoom⟩ :=
    kmallocBlock_of_some (UInt32.ofNat ifnamsiz * Bytes.word buf 0).toNat names
  obtain ⟨macBlock, macRoom⟩ :=
    kmallocBlock_of_some (UInt32.ofNat ethAlen * Bytes.word buf 0).toNat macs
  unfold ncmSysfsStoreParams
  dsimp only
  rw [if_neg idle, if_neg reached, nameRoom, macRoom, if_neg, if_neg]
  · rfl
  · exact not_or.mpr ⟨Bool.false_ne_true, macsFit⟩
  · exact not_or.mpr ⟨Bool.false_ne_true, namesFit⟩

theorem step_of_code (idle : state.stopping = false)
    (stored : ncmSysfsStoreCode state buf memory = (after', none)) :
    Step long state (.storeCode buf memory, []) after' := by
  rw [Step, NcmSysfs.next, if_neg (by simp [idle]), stored]
  rfl

theorem step_of_params (idle : state.stopping = false)
    (stored : ncmSysfsStoreParams state long buf nameMemory macMemory = (after', none)) :
    Step long state (.storeParams buf nameMemory macMemory, []) after' := by
  rw [Step, NcmSysfs.next, if_neg (by simp [idle]), stored]
  rfl

theorem step_of_control {env : NetEnv} (idle : state.stopping = false)
    (stored : ncmSysfsStoreControl state buf env = .ok after') :
    Step long state (.storeControl buf env, []) after' := by
  rw [Step, NcmSysfs.next, if_neg (by simp [idle]), stored]
  rfl

end Stores

theorem Refuses.refines {warning : String} (cause : Refuses long sysfs action warning)
    (idle : sysfs.stopping = false) (owns : sysfs.heap.Owns sysfs.roots)
    (aliased : sysfs.interp.isRunning = true → sysfs.Aliased) :
    Step long sysfs.view (action.toAction, []) sysfs.view := by
  have thread : sysfs.view.ncmInterp = sysfs.interp := HeapSysfs.ncmInterp_eq aliased
  cases cause with
  | code running =>
      rw [← thread] at running
      exact step_of_code idle (storeCode_running running)
  | params running =>
      rw [← thread] at running
      exact step_of_params idle (storeParams_running running)
  | length stopped wrong =>
      rw [← thread] at stopped
      exact step_of_params idle (refused_write stopped wrong)
  | noProgram command missing =>
      refine step_of_control idle ?_
      rw [ncmSysfsStoreControl, if_pos command, if_neg]
      · rfl
      · rw [startable_view_iff owns aliased]
        exact fun startable => startable.2.1 missing
  | noParams command missing =>
      refine step_of_control idle ?_
      rw [ncmSysfsStoreControl, if_pos command, if_neg]
      · rfl
      · rw [startable_view_iff owns aliased]
        rintro ⟨_, _, names, macs⟩
        exact missing.elim names macs

/-- A transition with the memory is one without it. -/
theorem HeapMoves.refines (moves : HeapMoves long sysfs action shown after)
    (owns : sysfs.heap.Owns sysfs.roots)
    (aliased : sysfs.interp.isRunning = true → sysfs.Aliased)
    (aliased' : after.interp.isRunning = true → after.Aliased) :
    Step long sysfs.view (action.toAction, shown.observations) after.view := by
  have thread : sysfs.view.ncmInterp = sysfs.interp := HeapSysfs.ncmInterp_eq aliased
  have holds : sysfs.Holds sysfs.program sysfs.interpParams := ⟨owns, rfl, rfl⟩
  have view_eq := HeapSysfs.view_eq aliased
  have view_eq' := HeapSysfs.view_eq aliased'
  cases moves with
  | refuses idle cause => exact cause.refines idle owns aliased
  | @storesCode buf address middle heap ptr idle stopped freed stored =>
      obtain ⟨_, program_eq, params_eq⟩ := holds.storesCode freed stored
      obtain ⟨block, room⟩ := kmallocBlock_of_some buf.length fun _ => 0
      rw [program_eq, params_eq] at view_eq'
      rw [← thread] at stopped
      refine step_of_code idle ?_
      rw [storeCode_stores stopped room, view_eq', view_eq]
      rfl
  | storesParams idle stopped accepted namesFit macsFit freedNames freedMacs storedNames
      storedMacs =>
      obtain ⟨_, program_eq, params_eq⟩ :=
        holds.storesParams freedNames freedMacs storedNames storedMacs
      rw [program_eq, params_eq] at view_eq'
      rw [← thread] at stopped
      refine step_of_params idle ?_
      rw [storeParams_stores stopped accepted namesFit macsFit, view_eq', view_eq]
  | starts idle command stopped code params started =>
      have startable : Startable sysfs.view :=
        (startable_view_iff owns aliased).mpr ⟨stopped, code, not_or.mp params⟩
      refine step_of_control idle ?_
      rw [ncmSysfsStoreControl, if_pos command, if_pos startable]
      refine bind_eq_ok.mpr ⟨_, started, ?_⟩
      rw [view_eq', view_eq]
      rfl
  | tearsDown idle other command running torn =>
      rw [← thread] at running
      refine step_of_control idle ?_
      rw [ncmSysfsStoreControl, if_neg other, if_pos ⟨command, running⟩]
      refine bind_eq_ok.mpr ⟨_, torn, ?_⟩
      rw [view_eq', view_eq]
      rfl
  | ignores idle cause =>
      refine step_of_control idle ?_
      unfold ncmSysfsStoreControl
      rw [thread]
      rcases cause with ⟨command, running⟩ | ⟨other, nothing⟩
      · rw [if_pos command, if_neg]
        · rfl
        · rw [startable_view_iff owns aliased, running]
          exact fun startable => Bool.false_ne_true startable.1.symm
      · rw [if_neg other, if_neg nothing]
        rfl
  | @acts _ _ state noWrite done =>
      obtain ⟨program_eq, params_eq⟩ := step_files noWrite done
      have same : ⟨state.ncmInterp, sysfs.program, sysfs.interpParams, state.stopping⟩ = state := by
        rw [show sysfs.program = state.program from program_eq.symm,
          show sysfs.interpParams = state.interpParams from params_eq.symm]
      rw [view_eq']
      exact same.symm ▸ done

end Alias

/-! ## Runs -/

/-- A label without the addresses and the kernel log. -/
def erase (label : HeapAction × Shown) : Action × List Observation :=
  (label.1.toAction, label.2.observations)

/-- What every run keeps. -/
structure MemoryInvariant (sysfs : HeapSysfs) : Prop where
  owns : sysfs.heap.Owns sysfs.roots
  aliased : sysfs.interp.isRunning = true → sysfs.Aliased

theorem initMemory_invariant : MemoryInvariant initMemory := by
  refine ⟨.of_null _ fun root => ?_, nofun⟩
  cases root <;> rfl

/-- Every run with the memory is a run of the module without it. -/
theorem run_refines {long : LongWidth} {labels : List (HeapAction × Shown)} {sysfs : HeapSysfs}
    (run : Run (HeapStep long) initMemory labels sysfs) :
    MemoryInvariant sysfs ∧ Run (Step long) initModule (labels.map erase) sysfs.view := by
  induction run with
  | refl => exact ⟨initMemory_invariant, .refl _⟩
  | tail _ hstep ih =>
      obtain ⟨⟨owns, aliased⟩, refined⟩ := ih
      have moves := heapStep_moves hstep
      have aliased' := moves.aliased aliased ⟨_, refined⟩
      refine ⟨⟨(moves.holds ⟨owns, rfl, rfl⟩).owns, aliased'⟩, ?_⟩
      rw [List.map_append]
      exact .tail refined (moves.refines owns aliased aliased')

end NetworkCode.Kernel
