import NetworkCode.Kernel.MemoryRefinement

/-!
# The memory of a running program

The interpreter executes the block that the code file frees and allocates
again.  The gate of the writes keeps that block, its length and the params
from the start of the interpreter until a `stop` has returned, and a start
takes what was accepted last.
-/

namespace NetworkCode.Kernel

open Library Library.Checked

/-- The program of the last accepted write of code. -/
def latestProgram (labels : List (HeapAction × Shown)) : Program :=
  (Run.latest acceptedCode? labels).elim initModule.program .stored

/-- The params of the last accepted write of params. -/
def latestParams (labels : List (HeapAction × Shown)) : NetParams :=
  (Run.latest acceptedParams? labels).elim initModule.interpParams .stored

/-- The blocks and what the files hold of them are the same. -/
structure SameFiles (before after : HeapSysfs) : Prop where
  heap : after.heap = before.heap
  instructions : after.instructions = before.instructions
  programLength : after.programLength = before.programLength
  channels : after.channels = before.channels
  netDeviceName : after.netDeviceName = before.netDeviceName
  channelMac : after.channelMac = before.channelMac

/-- What holds of the memory of the program after a history. -/
structure ProgramHeld (long : LongWidth) (labels : List (HeapAction × Shown))
    (sysfs : HeapSysfs) : Prop where
  /-- A running interpreter executes the block of the code, which is live. -/
  shared : sysfs.interp.isRunning = true →
    sysfs.interpProgram = sysfs.instructions ∧
      (∃ bytes, sysfs.heap.contents sysfs.instructions = some bytes) ∧
      sysfs.interp.programLength = sysfs.programLength
  /-- Until a `stop` has returned nothing of the blocks changes. -/
  kept : sysfs.interp.isRunning = true → ∀ later after,
    Run (HeapStep long) sysfs later after → (∀ label ∈ later, label.1 ≠ .stopped) →
    after.interp.isRunning = true ∧ after.interpProgram = sysfs.interpProgram ∧
      SameFiles sysfs after
  refusesCode : sysfs.interp.isRunning = true → sysfs.stopping = false → ∀ buf address,
    sysfs.next long (.storeCode buf address) = .ok (sysfs, ⟨some codeWhileRunning, []⟩)
  refusesParams : sysfs.interp.isRunning = true → sysfs.stopping = false →
    ∀ buf nameAddress macAddress, sysfs.next long (.storeParams buf nameAddress macAddress) =
      .ok (sysfs, ⟨some paramsWhileRunning, []⟩)
  refusesLength : sysfs.interp.isRunning = false → sysfs.stopping = false →
    ∀ buf nameAddress macAddress, buf.length ≠ expectedLength long buf →
      sysfs.next long (.storeParams buf nameAddress macAddress) =
        .ok (sysfs, ⟨some invalidParams, []⟩)
  stored : sysfs.program = latestProgram labels ∧ sysfs.interpParams = latestParams labels
  /-- A start executes what was accepted last. -/
  executes : ∀ buf env shown after,
    HeapStep long sysfs (.storeControl buf env, shown) after →
    sysfs.interp.isRunning = false → after.interp.isRunning = true →
    startInterpreter sysfs.interp (latestProgram labels) (latestParams labels) env =
      .ok after.ncmInterp
  /-- No transition frees a block that is not live. -/
  frees : ∀ action, sysfs.next long action ≠ .error .badFree

section Kept

variable {long : LongWidth}

/-- Only the return of a `stop` ends a running interpreter. -/
theorem Moves.staysRunning {sysfs : NcmSysfs} {action : Action} {observations : List Observation}
    {interpreter : Interpreter} (moves : Moves long sysfs action observations interpreter)
    (notStopped : action ≠ .stopped)
    (represented : ∃ futures, sysfs.ncmInterp.futureQueue.Represents futures)
    (running : sysfs.ncmInterp.isRunning = true) : interpreter.isRunning = true := by
  cases moves with
  | stays => exact running
  | writes => exact running
  | starts => rfl
  | tearsDown => exact running
  | schedules => rfl
  | @iterates input instr iteration looping fetched done =>
      obtain ⟨futures, represents⟩ := represented
      obtain ⟨futures', controlStep, _⟩ := execute_controlled represents done
      unfold Iteration.resume
      split
      · rw [Interpreter.isRunning, controlStep.thread_eq]
        exact running
      · rfl
  | joins => exact (notStopped rfl).elim
  | receives => exact running

theorem SameFiles.refl (sysfs : HeapSysfs) : SameFiles sysfs sysfs := ⟨rfl, rfl, rfl, rfl, rfl, rfl⟩

theorem SameFiles.trans {first second third : HeapSysfs} (left : SameFiles first second)
    (right : SameFiles second third) : SameFiles first third where
  heap := right.heap.trans left.heap
  instructions := right.instructions.trans left.instructions
  programLength := right.programLength.trans left.programLength
  channels := right.channels.trans left.channels
  netDeviceName := right.netDeviceName.trans left.netDeviceName
  channelMac := right.channelMac.trans left.channelMac

/-- A transition that does not complete a `stop` leaves the memory of a
running interpreter. -/
theorem HeapMoves.kept {sysfs after : HeapSysfs} {action : HeapAction} {shown : Shown}
    (moves : HeapMoves long sysfs action shown after) (notStopped : action ≠ .stopped)
    (invariant : MemoryInvariant sysfs) (reachable : Reachable long sysfs.view)
    (running : sysfs.interp.isRunning = true) :
    after.interp.isRunning = true ∧ after.interpProgram = sysfs.interpProgram ∧
      SameFiles sysfs after := by
  have interp_eq := HeapSysfs.ncmInterp_eq invariant.aliased
  cases moves with
  | refuses => exact ⟨running, rfl, .refl _⟩
  | storesCode _ stopped => cases stopped.symm.trans running
  | storesParams _ stopped => cases stopped.symm.trans running
  | starts _ _ stopped => cases stopped.symm.trans running
  | tearsDown _ _ _ _ torn =>
      obtain ⟨⟨network, released⟩, _, finish⟩ := bind_eq_ok.mp torn
      cases finish
      rw [interp_eq]
      exact ⟨running, rfl, ⟨rfl, rfl, rfl, rfl, rfl, rfl⟩⟩
  | ignores => exact ⟨running, rfl, .refl _⟩
  | acts noWrite done =>
      have notStopped' : action.toAction ≠ .stopped := by
        cases action with
        | stopped => exact (notStopped rfl).elim
        | storeCode | storeParams | storeControl | storeVar | setScheduler | instruction
        | arrival => nofun
      refine ⟨?_, rfl, ⟨rfl, rfl, rfl, rfl, rfl, rfl⟩⟩
      apply (step_moves done).staysRunning notStopped' (reachable_represented reachable)
      rw [show sysfs.view.ncmInterp = sysfs.interp from interp_eq]
      exact running

/-- So does every run before the return of a `stop`. -/
theorem run_kept {labels later : List (HeapAction × Shown)} {sysfs after : HeapSysfs}
    (run : Run (HeapStep long) initMemory labels sysfs)
    (running : sysfs.interp.isRunning = true) (continued : Run (HeapStep long) sysfs later after)
    (notStopped : ∀ label ∈ later, label.1 ≠ .stopped) :
    after.interp.isRunning = true ∧ after.interpProgram = sysfs.interpProgram ∧
      SameFiles sysfs after := by
  induction continued with
  | refl => exact ⟨running, rfl, .refl _⟩
  | @tail middle last labels label hprefix hstep ih =>
      obtain ⟨running', pointer, same⟩ := ih fun label member =>
        notStopped label (List.mem_append_left _ member)
      obtain ⟨invariant, refined⟩ := run_refines (run.trans hprefix)
      have current : label.1 ≠ .stopped :=
        notStopped label (List.mem_append_right _ (List.mem_singleton_self _))
      obtain ⟨running'', pointer', same'⟩ :=
        (heapStep_moves hstep).kept current invariant ⟨_, refined⟩ running'
      exact ⟨running'', pointer'.trans pointer, same.trans same'⟩

/-- The blocks hold what was accepted last. -/
theorem run_holds {labels : List (HeapAction × Shown)} {sysfs : HeapSysfs}
    (run : Run (HeapStep long) initMemory labels sysfs) :
    sysfs.Holds (latestProgram labels) (latestParams labels) := by
  induction run with
  | refl => exact ⟨initMemory_invariant.owns, rfl, rfl⟩
  | @tail middle last labels label hprefix hstep ih =>
      have holds := (heapStep_moves hstep).holds ih
      have program : latestProgram (labels ++ [label]) =
          (acceptedCode? label).elim (latestProgram labels) .stored := by
        rw [latestProgram, Run.latest_concat]
        cases acceptedCode? label <;> rfl
      have params : latestParams (labels ++ [label]) =
          (acceptedParams? label).elim (latestParams labels) .stored := by
        rw [latestParams, Run.latest_concat]
        cases acceptedParams? label <;> rfl
      rw [program, params]
      exact holds

/-- A start takes the values of the files. -/
theorem HeapMoves.executes {sysfs after : HeapSysfs} {buf : List UInt8} {env : NetEnv}
    {shown : Shown} (moves : HeapMoves long sysfs (.storeControl buf env) shown after)
    (invariant : MemoryInvariant sysfs) (reachable : Reachable long sysfs.view)
    (stopped : sysfs.interp.isRunning = false) (running : after.interp.isRunning = true) :
    startInterpreter sysfs.interp sysfs.program sysfs.interpParams env = .ok after.ncmInterp := by
  rw [HeapSysfs.ncmInterp_eq (moves.aliased invariant.aliased reachable)]
  cases moves with
  | refuses => cases stopped.symm.trans running
  | starts _ _ _ _ _ started =>
      rw [HeapSysfs.ncmInterp_eq invariant.aliased] at started
      exact started
  | tearsDown _ _ _ before => cases stopped.symm.trans before
  | ignores => cases stopped.symm.trans running
  | acts noWrite => cases noWrite

/-! ## Releases -/

theorem inKernel_avoids {α : Type} (computation : Exec α) :
    Avoids (· = MemoryFault.badFree) (inKernel computation) := by
  cases computation with
  | ok value => exact .ok _
  | error fault => exact .error nofun

theorem kmallocCopy_avoids (heap : KernelHeap) (address : Nat) (bytes : List UInt8) :
    Avoids (· = MemoryFault.badFree) (kmallocCopy heap address bytes) := by
  unfold kmallocCopy
  split
  · exact .ok _
  · exact .error nofun

theorem write_avoids {sysfs : HeapSysfs} {stored : MemoryExec (HeapSysfs × Option String)}
    (avoids : Avoids (· = MemoryFault.badFree) stored) :
    Avoids (· = MemoryFault.badFree) (sysfs.write stored) := by
  unfold HeapSysfs.write
  split
  · exact .error nofun
  · exact avoids.bind fun _ _ => .ok _

section Writes

variable {sysfs : HeapSysfs} (owns : sysfs.heap.Owns sysfs.roots) (buf : List UInt8)

include owns

theorem storeCode_avoids (address : Nat) :
    Avoids (· = MemoryFault.badFree) (sysfs.ncmSysfsStoreCode buf address) := by
  obtain ⟨middle, freed, _⟩ := owns.free .instructions
  have released : kfree sysfs.heap sysfs.instructions = .ok middle := kfree_eq_ok.mpr freed
  unfold HeapSysfs.ncmSysfsStoreCode
  rw [released]
  split
  · exact .ok _
  · exact (kmallocCopy_avoids _ _ _).bind fun _ _ => .ok _

/-- The two tables have blocks of their own, so both are there to be freed. -/
theorem storeParams_avoids (nameAddress macAddress : Nat) :
    Avoids (· = MemoryFault.badFree)
      (sysfs.ncmSysfsStoreParams long buf nameAddress macAddress) := by
  obtain ⟨first, freedNames, owns', _⟩ := owns.free .netDeviceName
  obtain ⟨second, freedMacs, _⟩ := owns'.free .channelMac
  have released : kfree sysfs.heap sysfs.netDeviceName = .ok first := kfree_eq_ok.mpr freedNames
  have released' : kfree first sysfs.channelMac = .ok second := kfree_eq_ok.mpr freedMacs
  unfold HeapSysfs.ncmSysfsStoreParams
  simp only [released, released', ok_bind]
  split
  · exact .ok _
  · split
    · exact .ok _
    · split
      · exact .error nofun
      · split
        · exact .error nofun
        · exact (kmallocCopy_avoids _ _ _).bind fun _ _ =>
            (kmallocCopy_avoids _ _ _).bind fun _ _ => .ok _

end Writes

theorem storeControl_avoids (sysfs : HeapSysfs) (buf : List UInt8) (env : NetEnv) :
    Avoids (· = MemoryFault.badFree) (sysfs.ncmSysfsStoreControl buf env) := by
  unfold HeapSysfs.ncmSysfsStoreControl
  split
  · split
    · exact .ok _
    · split
      · exact .ok _
      · split
        · exact .ok _
        · exact (inKernel_avoids _).bind fun _ _ => .ok _
  · split
    · exact (inKernel_avoids _).bind fun _ _ => .ok _
    · exact .ok _

theorem next_avoids {sysfs : HeapSysfs} (owns : sysfs.heap.Owns sysfs.roots)
    (action : HeapAction) : Avoids (· = MemoryFault.badFree) (sysfs.next long action) := by
  cases action with
  | storeCode => exact write_avoids (storeCode_avoids owns _ _)
  | storeParams => exact write_avoids (storeParams_avoids owns _ _ _)
  | storeControl => exact write_avoids (storeControl_avoids _ _ _)
  | storeVar | setScheduler | instruction | stopped | arrival =>
      exact (inKernel_avoids _).bind fun _ _ => .ok _

/--
In every history of writes and transitions, the block of a running program is
shared with the interpreter and kept with its length and the params until a
`stop` has returned; refused writes change nothing, and a start executes the
code and the params accepted last.
-/
theorem programMemory_held {labels : List (HeapAction × Shown)} {sysfs : HeapSysfs}
    (run : Run (HeapStep long) initMemory labels sysfs) : ProgramHeld long labels sysfs := by
  obtain ⟨invariant, refined⟩ := run_refines run
  obtain ⟨owns, program_eq, params_eq⟩ := run_holds run
  have waits (idle : sysfs.stopping = false) : ¬ sysfs.stopping = true := by simp [idle]
  constructor
  · intro running
    obtain ⟨pointer, loaded, _, length_eq⟩ := invariant.aliased running
    exact ⟨pointer, Option.ne_none_iff_exists'.mp (owns.live .instructions loaded), length_eq⟩
  · intro running later after continued notStopped
    exact run_kept run running continued notStopped
  · intro running idle buf address
    rw [HeapSysfs.next, HeapSysfs.write, if_neg (waits idle), HeapSysfs.ncmSysfsStoreCode,
      if_pos running]
    rfl
  · intro running idle buf nameAddress macAddress
    rw [HeapSysfs.next, HeapSysfs.write, if_neg (waits idle), HeapSysfs.ncmSysfsStoreParams]
    dsimp only
    rw [if_pos running]
    rfl
  · intro stopped idle buf nameAddress macAddress wrong
    rw [HeapSysfs.next, HeapSysfs.write, if_neg (waits idle), HeapSysfs.ncmSysfsStoreParams]
    dsimp only
    rw [if_neg (by simp [stopped]), if_pos wrong]
    rfl
  · exact ⟨program_eq, params_eq⟩
  · intro buf env shown after hstep stopped running
    rw [← program_eq, ← params_eq]
    exact (heapStep_moves hstep).executes invariant ⟨_, refined⟩ stopped running
  · intro action fails
    exact next_avoids owns action _ fails rfl

end Kept

/-- Write code and params at three addresses and start the interpreter. -/
def loadAndRunAt (instrs : List Instr) (params : List UInt8) (env : NetEnv) : List HeapAction :=
  [.storeCode (CodeBlock.ofInstrs instrs).bytes 0, .storeParams params 1 2,
    .storeControl runCommand env, .setScheduler true]

/-- A program that has been loaded twice and runs. -/
theorem programMemory_held_goto :
    ∃ labels sysfs, Run (HeapStep .bits64) initMemory labels sysfs ∧
      sysfs.interp.thread = some .looping ∧ ProgramHeld .bits64 labels sysfs := by
  have done : ∃ labels sysfs,
      Run.carryOut (fun sysfs : HeapSysfs => sysfs.next .bits64) initMemory
        (.storeCode [] 0 :: loadAndRunAt [.make .goto 0 0 0 0] noChannels .bare ++
          [.storeCode [] 3, .instruction (.atClock 0 0 0)]) = .ok (sysfs, labels) ∧
      sysfs.interp.thread = some .looping :=
    ⟨_, _, rfl, rfl⟩
  obtain ⟨labels, sysfs, done, looping⟩ := done
  exact ⟨labels, sysfs, Run.of_carryOut done, looping, programMemory_held (Run.of_carryOut done)⟩

end NetworkCode.Kernel
