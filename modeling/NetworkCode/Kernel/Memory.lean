import NetworkCode.Kernel.ParamsFile
import NetworkCode.Kernel.Resumption
import NetworkCode.Library.Heap

/-!
# The module with its memory

The code and the params lie in blocks of the allocator.  The files hold
pointers to them, and starting the interpreter copies the pointer to the code.
Every request for memory is granted, at an address of the allocator's choice;
a step that frees a dangling pointer or copies past a buffer has no result.
-/

namespace NetworkCode.Kernel

open Library Library.Checked

/-- Why a step has no result in memory. -/
inductive MemoryFault where
  | kernel (fault : Fault)
  /-- `kfree` of a block that is not live. -/
  | badFree
  /-- The supplied address is in use; the allocator does not return it. -/
  | addressInUse

abbrev MemoryExec := Except MemoryFault

/-- A computation that does not touch the blocks. -/
def inKernel {α : Type} : Exec α → MemoryExec α
  | .ok value => .ok value
  | .error fault => .error (.kernel fault)

theorem inKernel_eq_ok {α : Type} {computation : Exec α} {value : α} :
    inKernel computation = .ok value ↔ computation = .ok value := by
  cases computation with
  | ok other => exact ⟨fun same => by cases same; rfl, fun same => by cases same; rfl⟩
  | error fault => exact ⟨nofun, nofun⟩

abbrev KernelHeap := Heap Nat UInt8

abbrev KernelPtr := Ptr Nat

/-- `kfree`; a null pointer, which the source tests for, is left alone. -/
def kfree (heap : KernelHeap) (ptr : KernelPtr) : MemoryExec KernelHeap :=
  match heap.free ptr with
  | some after => .ok after
  | none => .error .badFree

/-- `kmalloc` at an address, and `memcpy` of all its bytes. -/
def kmallocCopy (heap : KernelHeap) (address : Nat) (bytes : List UInt8) :
    MemoryExec (KernelHeap × KernelPtr) :=
  match heap.alloc address bytes with
  | some allocated => .ok allocated
  | none => .error .addressInUse

theorem kfree_eq_ok {heap after : KernelHeap} {ptr : KernelPtr} :
    kfree heap ptr = .ok after ↔ heap.free ptr = some after := by
  unfold kfree
  cases heap.free ptr with
  | none => exact ⟨nofun, nofun⟩
  | some other => exact ⟨fun same => by cases same; rfl, fun same => by cases same; rfl⟩

theorem kmallocCopy_eq_ok {heap after : KernelHeap} {address : Nat} {bytes : List UInt8}
    {ptr : KernelPtr} :
    kmallocCopy heap address bytes = .ok (after, ptr) ↔
      heap.alloc address bytes = some (after, ptr) := by
  unfold kmallocCopy
  cases heap.alloc address bytes with
  | none => exact ⟨nofun, nofun⟩
  | some other => exact ⟨fun same => by cases same; rfl, fun same => by cases same; rfl⟩

/-- The objects of `ncm_sysfs_t`, with pointers to the blocks. -/
structure HeapSysfs where
  heap : KernelHeap
  /-- The interpreter; its block is what it last read through its pointer. -/
  interp : Interpreter
  /-- `interpreter->program` -/
  interpProgram : KernelPtr
  /-- `program->instructions` and `program->length` -/
  instructions : KernelPtr
  programLength : UInt32
  /-- `interp_params->network` -/
  channels : UInt32
  netDeviceName : KernelPtr
  channelMac : KernelPtr
  stopping : Bool

inductive HeapAction where
  | storeCode (buf : List UInt8) (address : Nat)
  | storeParams (buf : List UInt8) (nameAddress macAddress : Nat)
  | storeControl (buf : List UInt8) (env : NetEnv)
  | storeVar (var : Nat) (buf : List UInt8)
  | setScheduler (granted : Bool)
  | instruction (input : StepInput)
  | stopped
  | arrival (read : SockRead) (kmalloc : Nat → NcMessage)

/-- The action, with memory for each request. -/
def HeapAction.toAction : HeapAction → Action
  | storeCode buf _ => .storeCode buf (some fun _ => 0)
  | storeParams buf _ _ => .storeParams buf (some fun _ => 0) (some fun _ => 0)
  | storeControl buf env => .storeControl buf env
  | storeVar var buf => .storeVar var buf
  | setScheduler granted => .setScheduler granted
  | instruction input => .instruction input
  | stopped => .stopped
  | arrival read kmalloc => .arrival read kmalloc

/-- What a transition prints to the kernel log and shows. -/
structure Shown where
  printk : Option String
  observations : List Observation

def codeWhileRunning : String :=
  "Tried to load code into running ncm program. Please stop it first."

def paramsWhileRunning : String :=
  "Tried to load params into running ncm program. Please stop it first."

def invalidParams : String := "Invalid params file."

def noProgramLoaded : String :=
  "Cannot start because no network code program has been loaded."

def noParamsLoaded : String :=
  "Cannot start because no network code parameters have been loaded."

namespace HeapSysfs

variable (sysfs : HeapSysfs)

/-- The code that a pointer refers to. -/
def code (ptr : KernelPtr) : Option CodeBlock := (sysfs.heap.contents ptr).map .mk

/-- A running interpreter executes what its pointer refers to. -/
def ncmInterp : Interpreter :=
  if sysfs.interp.isRunning then { sysfs.interp with program := sysfs.code sysfs.interpProgram }
  else sysfs.interp

def program : Program := ⟨sysfs.code sysfs.instructions, sysfs.programLength⟩

def interpParams : NetParams :=
  ⟨sysfs.channels, sysfs.heap.contents sysfs.netDeviceName, sysfs.heap.contents sysfs.channelMac⟩

/-- The state without the memory. -/
def view : NcmSysfs := ⟨sysfs.ncmInterp, sysfs.program, sysfs.interpParams, sysfs.stopping⟩

/-- `ncm_sysfs_store` on the code file. -/
def ncmSysfsStoreCode (buf : List UInt8) (address : Nat) :
    MemoryExec (HeapSysfs × Option String) := do
  if sysfs.interp.isRunning then
    return (sysfs, some codeWhileRunning)
  else
    let heap ← kfree sysfs.heap sysfs.instructions
    let (heap, instructions) ← kmallocCopy heap address buf
    return ({ sysfs with
      heap := heap
      instructions := instructions
      programLength := UInt32.ofNat buf.length }, none)

/-- `ncm_sysfs_store` on the params file. -/
def ncmSysfsStoreParams (long : LongWidth) (buf : List UInt8) (nameAddress macAddress : Nat) :
    MemoryExec (HeapSysfs × Option String) := do
  let channels := Bytes.word buf 0
  let namesSize := (UInt32.ofNat ifnamsiz * channels).toNat
  let macsSize := (UInt32.ofNat ethAlen * channels).toNat
  let names := Bytes.slice buf 4 namesSize
  let macs := Bytes.slice buf (4 + namesSize) macsSize
  if sysfs.interp.isRunning then
    return (sysfs, some paramsWhileRunning)
  else if buf.length ≠ expectedLength long buf then
    return (sysfs, some invalidParams)
  else if names.length < namesSize then
    .error (.kernel (.copyTooLong namesSize))
  else if macs.length < macsSize then
    .error (.kernel (.copyTooLong macsSize))
  else
    let heap ← kfree sysfs.heap sysfs.netDeviceName
    let heap ← kfree heap sysfs.channelMac
    let (heap, netDeviceName) ← kmallocCopy heap nameAddress names
    let (heap, channelMac) ← kmallocCopy heap macAddress macs
    return ({ sysfs with
      heap := heap
      channels := channels
      netDeviceName := netDeviceName
      channelMac := channelMac }, none)

/-- `ncm_sysfs_store` on the control file, up to the wait of a `stop`. -/
def ncmSysfsStoreControl (buf : List UInt8) (env : NetEnv) :
    MemoryExec (HeapSysfs × Option String) := do
  if buf.take 3 = runCommand then
    if sysfs.interp.isRunning then
      return (sysfs, none)
    else if sysfs.instructions = .null then
      return (sysfs, some noProgramLoaded)
    else if sysfs.netDeviceName = .null ∨ sysfs.channelMac = .null then
      return (sysfs, some noParamsLoaded)
    else
      let interp ← inKernel
        (startInterpreter sysfs.ncmInterp sysfs.program sysfs.interpParams env)
      return ({ sysfs with interp := interp, interpProgram := sysfs.instructions }, none)
  else if buf.take 4 = stopCommand ∧ sysfs.interp.isRunning = true then
    let interp ← inKernel (stopNetwork sysfs.ncmInterp)
    return ({ sysfs with interp := interp, stopping := true }, none)
  else
    return (sysfs, none)

/-- A transition that works with the interpreter alone. -/
def act (long : LongWidth) (action : Action) : MemoryExec (HeapSysfs × Shown) := do
  let (after, observations) ← inKernel (sysfs.view.next long action)
  return ({ sysfs with interp := after.ncmInterp, stopping := after.stopping },
    ⟨none, observations⟩)

/-- A write to one of the three files of the module, which waits until a
`stop` before it has returned. -/
def write (stored : MemoryExec (HeapSysfs × Option String)) : MemoryExec (HeapSysfs × Shown) := do
  if sysfs.stopping then
    .error (.kernel .notEnabled)
  else
    let (after, printk) ← stored
    return (after, ⟨printk, []⟩)

/-- One transition. -/
def next (long : LongWidth) : HeapAction → MemoryExec (HeapSysfs × Shown)
  | .storeCode buf address => sysfs.write (sysfs.ncmSysfsStoreCode buf address)
  | .storeParams buf nameAddress macAddress =>
      sysfs.write (sysfs.ncmSysfsStoreParams long buf nameAddress macAddress)
  | .storeControl buf env => sysfs.write (sysfs.ncmSysfsStoreControl buf env)
  | .storeVar var buf => sysfs.act long (.storeVar var buf)
  | .setScheduler granted => sysfs.act long (.setScheduler granted)
  | .instruction input => sysfs.act long (.instruction input)
  | .stopped => sysfs.act long .stopped
  | .arrival read kmalloc => sysfs.act long (.arrival read kmalloc)

end HeapSysfs

def HeapStep (long : LongWidth) (before : HeapSysfs) (label : HeapAction × Shown)
    (after : HeapSysfs) : Prop :=
  before.next long label.1 = .ok (after, label.2)

/-- The module after loading, without a block. -/
def initMemory : HeapSysfs where
  heap := .empty
  interp := initModule.ncmInterp
  interpProgram := .null
  instructions := .null
  programLength := 0
  channels := 0
  netDeviceName := .null
  channelMac := .null
  stopping := false

end NetworkCode.Kernel
