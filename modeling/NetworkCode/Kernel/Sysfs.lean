import NetworkCode.Kernel.Interpreter
import NetworkCode.Library.Runs

/-!
# The module behind its files

The code, params, control and varspace files under `/sys/network_code`, and
the module as a transition system: writes to the files, executed one at a
time, interleaved with the steps of the interpreter thread and of the
receiving thread.
-/

namespace NetworkCode.Kernel

open Library

/-- `ncm_sysfs_t`: the three objects that the files act on. -/
structure NcmSysfs where
  ncmInterp : Interpreter
  program : Program
  interpParams : NetParams
  /-- A write of `stop` waits in `kthread_stop` for the interpreter thread. -/
  stopping : Bool
  deriving DecidableEq

/-- The first bytes of a command that the control file recognises. -/
def runCommand : List UInt8 := [0x72, 0x75, 0x6e]

def stopCommand : List UInt8 := [0x73, 0x74, 0x6f, 0x70]

/-- What `kmalloc` returns: nothing, or a block with the bytes it held before. -/
abbrev Kmalloc := Option (Nat → UInt8)

-- a request for no bytes never fails
def kmallocBlock (size : Nat) (memory : Kmalloc) : Option (List UInt8) :=
  if size = 0 then some [] else memory.map fun bytes => (List.range size).map bytes

theorem kmallocBlock_eq_none {size : Nat} {memory : Kmalloc} :
    kmallocBlock size memory = none ↔ size ≠ 0 ∧ memory = none := by
  unfold kmallocBlock
  split
  · next empty => simp [empty]
  · next nonempty => simp [nonempty]

variable (sysfs : NcmSysfs)

/-- `ncm_sysfs_store` on the code file; the fault, if any, stops the writer
after the changes that precede it. -/
def ncmSysfsStoreCode (buf : List UInt8) (memory : Kmalloc) : NcmSysfs × Option Fault :=
  if sysfs.ncmInterp.isRunning then
    (sysfs, none)
  else
    match kmallocBlock buf.length memory with
    | none => ({ sysfs with program := ⟨none, UInt32.ofNat buf.length⟩ },
        some (.copyTooLong buf.length))
    | some _ => ({ sysfs with program := ⟨some ⟨buf⟩, UInt32.ofNat buf.length⟩ }, none)

/-- `ncm_sysfs_store` on the params file, with the blocks for the names and
the MACs.  The sizes are `u32` products; the expected length is a `size_t`. -/
def ncmSysfsStoreParams (long : LongWidth) (buf : List UInt8) (nameMemory macMemory : Kmalloc) :
    NcmSysfs × Option Fault :=
  let channels := Bytes.word buf 0
  let entrySize := UInt32.ofNat (ifnamsiz + ethAlen)
  let namesSize := (UInt32.ofNat ifnamsiz * channels).toNat
  let macsSize := (UInt32.ofNat ethAlen * channels).toNat
  if sysfs.ncmInterp.isRunning then
    (sysfs, none)
  else if buf.length ≠ (4 + (entrySize * channels).toNat) % 2 ^ long.bits then
    (sysfs, none)
  else
    let network : NetParams :=
      ⟨channels, kmallocBlock namesSize nameMemory, kmallocBlock macsSize macMemory⟩
    let names := Bytes.slice buf 4 namesSize
    let macs := Bytes.slice buf (4 + namesSize) macsSize
    if network.netDeviceName.isNone ∨ names.length < namesSize then
      ({ sysfs with interpParams := network }, some (.copyTooLong namesSize))
    else if network.channelMac.isNone ∨ macs.length < macsSize then
      ({ sysfs with interpParams := { network with netDeviceName := some names } },
        some (.copyTooLong macsSize))
    else
      ({ sysfs with interpParams := ⟨channels, some names, some macs⟩ }, none)

/-- `ncm_sysfs_var_store` on the file of one variable. -/
def ncmSysfsVarStore (var : Nat) (buf : List UInt8) : Exec NcmSysfs := do
  let varspace ← setVariableData sysfs.ncmInterp.variableSpace var buf buf.length
  return { sysfs with ncmInterp := { sysfs.ncmInterp with variableSpace := varspace } }

/-- A write of `run` starts the interpreter. -/
def Startable : Prop :=
  sysfs.ncmInterp.isRunning = false ∧ sysfs.program.instructions ≠ none ∧
    sysfs.interpParams.netDeviceName ≠ none ∧ sysfs.interpParams.channelMac ≠ none

instance : Decidable (Startable sysfs) := inferInstanceAs (Decidable (_ ∧ _ ∧ _ ∧ _))

/-- `ncm_sysfs_store` on the control file, up to the wait of a `stop`. -/
def ncmSysfsStoreControl (buf : List UInt8) (env : NetEnv) : Exec NcmSysfs := do
  if buf.take 3 = runCommand then
    if Startable sysfs then
      let ncmInterp ←
        startInterpreter sysfs.ncmInterp sysfs.program sysfs.interpParams env
      return { sysfs with ncmInterp := ncmInterp }
    else
      return sysfs
  else if buf.take 4 = stopCommand ∧ sysfs.ncmInterp.isRunning = true then
    let ncmInterp ← stopNetwork sysfs.ncmInterp
    return { sysfs with ncmInterp := ncmInterp, stopping := true }
  else
    return sysfs

/-! ## The transition system -/

inductive Action where
  | storeCode (buf : List UInt8) (memory : Kmalloc)
  | storeParams (buf : List UInt8) (nameMemory macMemory : Kmalloc)
  | storeVar (var : Nat) (buf : List UInt8)
  | storeControl (buf : List UInt8) (env : NetEnv)
  /-- The new thread asks for its scheduling class. -/
  | setScheduler (granted : Bool)
  | instruction (input : StepInput)
  /-- The thread has stopped and the write of `stop` returns. -/
  | stopped
  /-- The receiving thread finishes one read. -/
  | arrival (read : SockRead) (kmalloc : Nat → NcMessage)

/-- What a transition shows. -/
inductive Observation where
  | event (event : Event)
  | exit (exit : ProgramExit)
  | oops (fault : Fault)
  deriving DecidableEq

def observeFault : Option Fault → List Observation
  | none => []
  | some fault => [.oops fault]

/-- What an iteration of the interpreter loop shows. -/
def Iteration.observations (iteration : Iteration) : List Observation :=
  iteration.events.map .event ++ iteration.exit.toList.map .exit

/-- The thread after an iteration of its loop. -/
def Iteration.resume (iteration : Iteration) : Interpreter :=
  match iteration.exit with
  | none => iteration.interpreter
  | some exit => { iteration.interpreter with thread := some (.returned exit) }

section Resume

variable (iteration : Iteration)

/-- Only the thread differs from what the instruction left. -/
theorem resume_eq :
    iteration.resume = { iteration.interpreter with thread := iteration.resume.thread } := by
  unfold Iteration.resume
  split <;> rfl

theorem resume_network : iteration.resume.network = iteration.interpreter.network := by
  rw [resume_eq]

theorem resume_futureQueue : iteration.resume.futureQueue = iteration.interpreter.futureQueue := by
  rw [resume_eq]

theorem resume_variableSpace :
    iteration.resume.variableSpace = iteration.interpreter.variableSpace := by
  rw [resume_eq]

theorem resume_program : iteration.resume.program = iteration.interpreter.program := by
  rw [resume_eq]

theorem resume_programLength :
    iteration.resume.programLength = iteration.interpreter.programLength := by
  rw [resume_eq]

end Resume

namespace NcmSysfs

/-- One transition; a write to one of the three files of the module waits
until a `stop` before it has returned. -/
def next (long : LongWidth) : Action → Exec (NcmSysfs × List Observation)
  | .storeCode buf memory =>
      if sysfs.stopping then .error .notEnabled
      else
        let (after, fault) := ncmSysfsStoreCode sysfs buf memory
        return (after, observeFault fault)
  | .storeParams buf nameMemory macMemory =>
      if sysfs.stopping then .error .notEnabled
      else
        let (after, fault) := ncmSysfsStoreParams sysfs long buf nameMemory macMemory
        return (after, observeFault fault)
  | .storeVar var buf => do
      let after ← ncmSysfsVarStore sysfs var buf
      return (after, [])
  | .storeControl buf env =>
      if sysfs.stopping then .error .notEnabled
      else do
        let after ← ncmSysfsStoreControl sysfs buf env
        return (after, [])
  | .setScheduler granted =>
      if sysfs.ncmInterp.thread = some .created then
        let thread := if granted then Thread.looping else .returned .programError
        return ({ sysfs with ncmInterp := { sysfs.ncmInterp with thread := some thread } },
          if granted then [] else [.exit .programError])
      else .error .notEnabled
  | .instruction input =>
      if sysfs.ncmInterp.thread = some .looping then do
        let iteration ← loopIteration long sysfs.ncmInterp input
        return ({ sysfs with ncmInterp := iteration.resume }, iteration.observations)
      else .error .notEnabled
  | .stopped =>
      if sysfs.stopping then
        return ({ sysfs with ncmInterp := stopThread sysfs.ncmInterp, stopping := false }, [])
      else .error .notEnabled
  | .arrival read kmalloc =>
      if sysfs.ncmInterp.network.receiving then do
        let network ← receivingPass maxChannels sysfs.ncmInterp.network read kmalloc
        return ({ sysfs with ncmInterp := { sysfs.ncmInterp with network := network } }, [])
      else .error .notEnabled

end NcmSysfs

/-- The transition relation; a transition that faults leads nowhere. -/
def Step (long : LongWidth) (before : NcmSysfs) (label : Action × List Observation)
    (after : NcmSysfs) : Prop :=
  before.next long label.1 = .ok (after, label.2)

/-! ## Loading the module -/

/-- The zeroed static objects of the module. -/
def zeroMessage : NcMessage where
  value := List.replicate ethDataLen 0
  length := 0
  value_length := List.length_replicate

def zeroNetwork : Network where
  channels := 0
  table := none
  mac := Vector.replicate ethAlen 0
  messageSpace := Vector.replicate maxMessages none
  syncPacketlen := 0
  mode := .hard
  receiving := false
  ncMsg := zeroMessage

def zeroInterpreter : Interpreter where
  programCounter := 0
  programLength := 0
  program := none
  futureQueue := ⟨0, 0, Vector.replicate maxFutures ⟨0, 0, 0⟩⟩
  variableSpace := Vector.replicate maxVariables zeroVariable
  counters := Vector.replicate maxCounters 0
  network := zeroNetwork
  thread := none
  errorBits := 0

/-- `init_module` of the build without a built-in program. -/
def initModule : NcmSysfs where
  ncmInterp := initInterpreter zeroInterpreter
  program := ⟨none, 0⟩
  interpParams := ⟨0, none, none⟩
  stopping := false

/-- The states that some sequence of transitions leads to after loading. -/
def Reachable (long : LongWidth) (sysfs : NcmSysfs) : Prop :=
  ∃ labels, Run (Step long) initModule labels sysfs

end NetworkCode.Kernel
