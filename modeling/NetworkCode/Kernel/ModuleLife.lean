import NetworkCode.Kernel.MemoryRefinement
import NetworkCode.Library.Numerals

/-!
# The life of the module

Loading makes the directory `/sys/network_code` with a file for each variable,
unloading removes it, and in between the module runs.  The blocks of memory
outlive the module: what a load that fails or an unload does not release stays
allocated when the module is gone.
-/

namespace NetworkCode.Kernel

open Library Library.Checked

/-! ## The files of the variables -/

/-- `ATTR_NAME_LEN` -/
def attrNameLen : Nat := 10

/-- `sysfs_var_names`, for the given number of variables. -/
def sysfsVarNames (count : Nat) : List (List Char) :=
  (List.range count).map (Numerals.snprintfInt attrNameLen)

/-- The variable that the handlers of a file scan from its name. -/
def scannedVar (name : List Char) : Option Nat :=
  (Numerals.sscanfInt name).map fun value => (value % 2 ^ 32).toNat

/-- The directory of the module and, in it, `varspace`. -/
structure Directory where
  files : List String
  varspace : List (List Char)

/-- `ENOMEM` and `EEXIST` -/
def enomem : Int := 12

def eexist : Int := 17

/-- What the kernel answers while the directory is made. -/
structure SetupEnv where
  kobject : Bool
  /-- The addresses for the attributes of the variables. -/
  kzalloc : Vector (Option Nat) maxVariables
  code : Int
  control : Int
  params : Int
  varspace : Int

def answered (answer : Int) : Except Int Unit := if answer = 0 then .ok () else .error answer

/-- The calls that make the files; no directory holds one name twice. -/
def SetupEnv.createFiles (env : SetupEnv) : Except Int Directory := do
  answered env.code
  answered env.control
  answered env.params
  answered env.varspace
  if (sysfsVarNames maxVariables).Nodup then
    return ⟨["code", "control", "params"], sysfsVarNames maxVariables⟩
  else
    .error (-eexist)

/-! ## Setting up and cleaning up -/

/-- Why a step in the life of the module has no result. -/
inductive SetupFault where
  | memory (fault : MemoryFault)
  /-- The attribute for which there was no memory is written to. -/
  | nullAttribute

abbrev SetupExec := Except SetupFault

/-- A step of the module between loading and unloading. -/
def inMemory {α : Type} : MemoryExec α → SetupExec α
  | .ok value => .ok value
  | .error fault => .error (.memory fault)

/-- `sysfs.nc_kobj` with its directory, and `attrs`. -/
structure SysfsDevice where
  ncKobj : Option Directory
  attrs : List KernelPtr

/-- `sizeof(struct kobj_attribute)`: four words, with the padding behind the mode. -/
def kobjAttributeSize (long : LongWidth) : Nat := 4 * (long.bits / 8)

/-- The loop that makes the attributes. -/
def makeAttributes (long : LongWidth) :
    KernelHeap → List (Option Nat) → SetupExec (KernelHeap × List KernelPtr)
  | heap, [] => .ok (heap, [])
  | _, none :: _ => .error .nullAttribute
  | heap, some address :: rest => do
      let (heap, attr) ←
        inMemory (kmallocCopy heap address (List.replicate (kobjAttributeSize long) 0))
      let (heap, attrs) ← makeAttributes long heap rest
      return (heap, attr :: attrs)

/-- `nc_init_sysfs` -/
def ncInitSysfs (long : LongWidth) (heap : KernelHeap) (env : SetupEnv) :
    SetupExec (KernelHeap × SysfsDevice × Int) :=
  if env.kobject = false then
    return (heap, ⟨none, []⟩, -enomem)
  else do
    let (heap, attrs) ← makeAttributes long heap env.kzalloc.toList
    match env.createFiles with
    | .ok directory => return (heap, ⟨some directory, attrs⟩, 0)
    | .error err => return (heap, ⟨none, attrs⟩, err)

/-- The loop of `ncm_sysfs_cleanup`. -/
def freeAttributes : KernelHeap → List KernelPtr → MemoryExec KernelHeap
  | heap, [] => .ok heap
  | heap, attr :: attrs => do
      let heap ← kfree heap attr
      freeAttributes heap attrs

/-! ## Loaded, running, unloaded -/

/-- The memory without the module, the module, and the module in
`cleanup_module` while `stop_interpreter` waits for the thread. -/
inductive Life where
  | unloaded (heap : KernelHeap)
  | loaded (sysfs : HeapSysfs) (device : SysfsDevice)
  | leaving (sysfs : HeapSysfs)

inductive LifeAction where
  | load (env : SetupEnv)
  | act (action : HeapAction)
  /-- A write to a file under `varspace`. -/
  | storeVar (name : List Char) (buf : List UInt8)
  | unload

inductive LifeShown where
  /-- The result of `init_module`. -/
  | returned (result : Int)
  | shown (shown : Shown)
  | quiet

/-- The variables are written by the names of their files. -/
def HeapAction.IsStoreVar : HeapAction → Bool
  | .storeVar .. => true
  | _ => false

namespace Life

def heap : Life → KernelHeap
  | .unloaded heap => heap
  | .loaded sysfs _ => sysfs.heap
  | .leaving sysfs => sysfs.heap

/-- `init_module` of the build without a built-in program. -/
def initModule (long : LongWidth) (heap : KernelHeap) (env : SetupEnv) :
    SetupExec (Life × LifeShown) := do
  let (heap, device, err) ← ncInitSysfs long heap env
  if err = 0 then
    return (.loaded { initMemory with heap := heap } device, .returned err)
  else
    return (.unloaded heap, .returned err)

/-- A step of the loaded module. -/
def act (long : LongWidth) (sysfs : HeapSysfs) (device : SysfsDevice) (action : HeapAction) :
    SetupExec (Life × LifeShown) := do
  let (after, shown) ← inMemory (sysfs.next long action)
  return (.loaded after device, .shown shown)

/-- `ncm_sysfs_var_store` on the file of a name. -/
def ncmSysfsVarStore (long : LongWidth) (sysfs : HeapSysfs) (device : SysfsDevice)
    (name : List Char) (buf : List UInt8) : SetupExec (Life × LifeShown) :=
  if device.ncKobj.any fun directory => directory.varspace.contains name then
    match scannedVar name with
    | none => .error (.memory (.kernel .notEnabled))
    | some var => act long sysfs device (.storeVar var buf)
  else
    .error (.memory (.kernel .notEnabled))

/-- `cleanup_module`, up to the wait of `stop_interpreter`; the directory is
removed once no write to its files is under way. -/
def cleanupModule (sysfs : HeapSysfs) (device : SysfsDevice) : SetupExec (Life × LifeShown) :=
  if sysfs.stopping then
    .error (.memory (.kernel .notEnabled))
  else do
    let heap ← inMemory (freeAttributes sysfs.heap device.attrs)
    if sysfs.interp.isRunning then
      let interp ← inMemory (inKernel (stopNetwork sysfs.ncmInterp))
      return (.leaving { sysfs with heap := heap, interp := interp, stopping := true }, .quiet)
    else
      return (.unloaded heap, .quiet)

/-- A step of the threads while `stop_interpreter` waits, and its end. -/
def leave (long : LongWidth) (sysfs : HeapSysfs) (action : HeapAction) :
    SetupExec (Life × LifeShown) := do
  let (after, shown) ← inMemory (sysfs.next long action)
  if after.stopping then
    return (.leaving after, .shown shown)
  else
    return (.unloaded after.heap, .shown shown)

/-- One step of the life of the module. -/
def next (long : LongWidth) : Life → LifeAction → SetupExec (Life × LifeShown)
  | .unloaded heap, .load env => initModule long heap env
  | .loaded sysfs device, .act action =>
      if action.IsStoreVar then .error (.memory (.kernel .notEnabled))
      else act long sysfs device action
  | .loaded sysfs device, .storeVar name buf => ncmSysfsVarStore long sysfs device name buf
  | .loaded sysfs device, .unload => cleanupModule sysfs device
  | .leaving sysfs, .act action =>
      if action.toAction.IsWrite ∨ action.IsStoreVar then .error (.memory (.kernel .notEnabled))
      else leave long sysfs action
  | _, _ => .error (.memory (.kernel .notEnabled))

end Life

def LifeStep (long : LongWidth) (before : Life) (label : LifeAction × LifeShown)
    (after : Life) : Prop :=
  before.next long label.1 = .ok (after, label.2)

theorem inMemory_eq_ok {α : Type} {computation : MemoryExec α} {value : α} :
    inMemory computation = .ok value ↔ computation = .ok value := by
  cases computation with
  | ok other => exact ⟨fun same => by cases same; rfl, fun same => by cases same; rfl⟩
  | error fault => exact ⟨nofun, nofun⟩

/-! ## What a step can do -/

inductive LifeMoves (long : LongWidth) : Life → LifeAction → LifeShown → Life → Prop where
  | loads {heap after : KernelHeap} {env : SetupEnv} {device : SysfsDevice}
      (set : ncInitSysfs long heap env = .ok (after, device, 0)) :
      LifeMoves long (.unloaded heap) (.load env) (.returned 0)
        (.loaded { initMemory with heap := after } device)
  | fails {heap after : KernelHeap} {env : SetupEnv} {device : SysfsDevice} {err : Int}
      (set : ncInitSysfs long heap env = .ok (after, device, err)) (failed : err ≠ 0) :
      LifeMoves long (.unloaded heap) (.load env) (.returned err) (.unloaded after)
  | acts {sysfs after : HeapSysfs} {device : SysfsDevice} {action : HeapAction} {shown : Shown}
      (noVar : action.IsStoreVar = false) (hstep : HeapStep long sysfs (action, shown) after) :
      LifeMoves long (.loaded sysfs device) (.act action) (.shown shown) (.loaded after device)
  | stores {sysfs after : HeapSysfs} {device : SysfsDevice} {directory : Directory}
      {name : List Char} {var : Nat} {buf : List UInt8} {shown : Shown}
      (made : device.ncKobj = some directory) (member : name ∈ directory.varspace)
      (scanned : scannedVar name = some var)
      (hstep : HeapStep long sysfs (.storeVar var buf, shown) after) :
      LifeMoves long (.loaded sysfs device) (.storeVar name buf) (.shown shown)
        (.loaded after device)
  | leaves {sysfs : HeapSysfs} {device : SysfsDevice} {heap : KernelHeap} {interp : Interpreter}
      (idle : sysfs.stopping = false) (freed : freeAttributes sysfs.heap device.attrs = .ok heap)
      (running : sysfs.interp.isRunning = true)
      (torn : stopNetwork sysfs.ncmInterp = .ok interp) :
      LifeMoves long (.loaded sysfs device) .unload .quiet
        (.leaving { sysfs with heap := heap, interp := interp, stopping := true })
  | unloads {sysfs : HeapSysfs} {device : SysfsDevice} {heap : KernelHeap}
      (idle : sysfs.stopping = false) (freed : freeAttributes sysfs.heap device.attrs = .ok heap)
      (stopped : sysfs.interp.isRunning = false) :
      LifeMoves long (.loaded sysfs device) .unload .quiet (.unloaded heap)
  | waits {sysfs after : HeapSysfs} {action : HeapAction} {shown : Shown}
      (noWrite : action.toAction.IsWrite = false)
      (hstep : HeapStep long sysfs (action, shown) after) (waiting : after.stopping = true) :
      LifeMoves long (.leaving sysfs) (.act action) (.shown shown) (.leaving after)
  | ends {sysfs after : HeapSysfs} {action : HeapAction} {shown : Shown}
      (noWrite : action.toAction.IsWrite = false)
      (hstep : HeapStep long sysfs (action, shown) after) (ended : after.stopping = false) :
      LifeMoves long (.leaving sysfs) (.act action) (.shown shown) (.unloaded after.heap)

section Inversion

variable {long : LongWidth} {sysfs : HeapSysfs} {device : SysfsDevice} {after : Life}
  {shown : LifeShown}

theorem initModule_moves {heap : KernelHeap} {env : SetupEnv}
    (done : Life.initModule long heap env = .ok (after, shown)) :
    LifeMoves long (.unloaded heap) (.load env) shown after := by
  obtain ⟨⟨last, device, err⟩, set, finish⟩ := bind_eq_ok.mp done
  dsimp only at finish
  split at finish
  · next success =>
      cases finish
      subst success
      exact .loads set
  · next failed =>
      cases finish
      exact .fails set failed

theorem loadedAct_eq_ok {action : HeapAction}
    (done : Life.act long sysfs device action = .ok (after, shown)) :
    ∃ last shown', HeapStep long sysfs (action, shown') last ∧ after = .loaded last device ∧
      shown = .shown shown' := by
  obtain ⟨⟨last, shown'⟩, stepped, finish⟩ := bind_eq_ok.mp done
  cases finish
  exact ⟨last, shown', inMemory_eq_ok.mp stepped, rfl, rfl⟩

theorem ncmSysfsVarStore_moves {name : List Char} {buf : List UInt8}
    (done : Life.ncmSysfsVarStore long sysfs device name buf = .ok (after, shown)) :
    LifeMoves long (.loaded sysfs device) (.storeVar name buf) shown after := by
  unfold Life.ncmSysfsVarStore at done
  split at done
  · next listed =>
      split at done
      · cases done
      · next scanned =>
          obtain ⟨last, shown', hstep, rfl, rfl⟩ := loadedAct_eq_ok done
          cases made : device.ncKobj with
          | none => rw [made] at listed; cases listed
          | some directory =>
              rw [made] at listed
              exact .stores made (List.contains_iff_mem.mp listed) scanned hstep
  · cases done

theorem cleanupModule_moves (done : Life.cleanupModule sysfs device = .ok (after, shown)) :
    LifeMoves long (.loaded sysfs device) .unload shown after := by
  unfold Life.cleanupModule at done
  split at done
  · cases done
  · next idle =>
      have idle : sysfs.stopping = false := Bool.eq_false_iff.mpr idle
      obtain ⟨heap, freed, rest⟩ := bind_eq_ok.mp done
      have freed := inMemory_eq_ok.mp freed
      split at rest
      · next running =>
          obtain ⟨interp, torn, finish⟩ := bind_eq_ok.mp rest
          cases finish
          exact .leaves idle freed running (inKernel_eq_ok.mp (inMemory_eq_ok.mp torn))
      · next stopped =>
          cases rest
          exact .unloads idle freed (Bool.eq_false_iff.mpr stopped)

theorem leave_moves {action : HeapAction} (noWrite : action.toAction.IsWrite = false)
    (done : Life.leave long sysfs action = .ok (after, shown)) :
    LifeMoves long (.leaving sysfs) (.act action) shown after := by
  obtain ⟨⟨last, shown⟩, stepped, finish⟩ := bind_eq_ok.mp done
  have stepped := inMemory_eq_ok.mp stepped
  dsimp only at finish
  split at finish
  · next waiting =>
      cases finish
      exact .waits noWrite stepped waiting
  · next ended =>
      cases finish
      exact .ends noWrite stepped (Bool.eq_false_iff.mpr ended)

theorem lifeStep_moves {before : Life} {label : LifeAction × LifeShown}
    (hstep : LifeStep long before label after) : LifeMoves long before label.1 label.2 after := by
  obtain ⟨action, shown⟩ := label
  cases before with
  | unloaded heap =>
      cases action with
      | load env => exact initModule_moves hstep
      | act | storeVar | unload => cases hstep
  | loaded sysfs device =>
      cases action with
      | load => cases hstep
      | act action =>
          unfold LifeStep Life.next at hstep
          dsimp only at hstep
          split at hstep
          · cases hstep
          · next noVar =>
              obtain ⟨last, shown', acted, rfl, rfl⟩ := loadedAct_eq_ok hstep
              exact .acts (Bool.eq_false_iff.mpr noVar) acted
      | storeVar name buf => exact ncmSysfsVarStore_moves hstep
      | unload => exact cleanupModule_moves hstep
  | leaving sysfs =>
      cases action with
      | load | storeVar | unload => cases hstep
      | act action =>
          unfold LifeStep Life.next at hstep
          dsimp only at hstep
          split at hstep
          · cases hstep
          · next inside =>
              exact leave_moves (Bool.eq_false_iff.mpr fun write => inside (.inl write)) hstep

end Inversion

/-! ## Accounts of the memory -/

/-- The pointers to the code and the params. -/
def HeapSysfs.pointers (sysfs : HeapSysfs) : List KernelPtr :=
  [sysfs.instructions, sysfs.netDeviceName, sysfs.channelMac]

/-- The pointers by which the module will release or replace its blocks. -/
def Life.held : Life → List KernelPtr
  | .loaded sysfs device => device.attrs ++ sysfs.pointers
  | .unloaded _ | .leaving _ => []

/-- What a recorded step leaves allocated for good: the attributes where loading
fails, the code and the params where the module is unloaded. -/
def leftBehind (long : LongWidth) : Life × LifeAction × LifeShown → List KernelPtr
  | (.unloaded heap, .load env, .returned result) =>
      if result = 0 then []
      else
        match ncInitSysfs long heap env with
        | .ok (_, device, _) => device.attrs
        | .error _ => []
  | (.loaded sysfs _, .unload, _) => sysfs.pointers
  | _ => []

section Accounts

variable {long : LongWidth} {heap after : KernelHeap} {others : List KernelPtr}

theorem makeAttributes_accounted {answers : List (Option Nat)} {attrs : List KernelPtr}
    (made : makeAttributes long heap answers = .ok (after, attrs))
    (accounted : heap.Accounted others) : after.Accounted (attrs ++ others) := by
  induction answers generalizing heap attrs others with
  | nil =>
      cases made
      exact accounted
  | cons answer answers ih =>
      cases answer with
      | none => cases made
      | some address =>
          obtain ⟨⟨middle, attr⟩, allocated, continued⟩ := bind_eq_ok.mp made
          obtain ⟨⟨last, rest⟩, further, finish⟩ := bind_eq_ok.mp continued
          cases finish
          have one := accounted.alloc (kmallocCopy_eq_ok.mp (inMemory_eq_ok.mp allocated))
          exact (ih further one).perm List.perm_middle

theorem ncInitSysfs_accounted {env : SetupEnv} {device : SysfsDevice} {result : Int}
    (set : ncInitSysfs long heap env = .ok (after, device, result))
    (accounted : heap.Accounted others) : after.Accounted (device.attrs ++ others) := by
  unfold ncInitSysfs at set
  split at set
  · cases set
    exact accounted
  · obtain ⟨⟨middle, attrs⟩, made, set⟩ := bind_eq_ok.mp set
    have whole := makeAttributes_accounted made accounted
    dsimp only at set
    split at set <;> cases set <;> exact whole

/-- What is accounted for can be released. -/
theorem freeAttributes_accounted {attrs : List KernelPtr}
    (accounted : heap.Accounted (attrs ++ others)) :
    ∃ after, freeAttributes heap attrs = .ok after ∧ after.Accounted others := by
  induction attrs generalizing heap with
  | nil => exact ⟨heap, rfl, accounted⟩
  | cons attr attrs ih =>
      obtain ⟨middle, freed, accounted⟩ := accounted.free
      obtain ⟨after, released, accounted⟩ := ih accounted
      refine ⟨after, ?_, accounted⟩
      rw [freeAttributes, kfree_eq_ok.mpr freed]
      exact released

section Module

variable {sysfs next : HeapSysfs} {action : HeapAction} {shown : Shown} {ptr : KernelPtr}

/-- The pointers to the params before the one to the code. -/
theorem pointers_perm (code names macs : KernelPtr) :
    (code :: names :: macs :: others).Perm (names :: macs :: code :: others) :=
  (List.Perm.swap _ _ _).trans ((List.Perm.swap _ _ _).cons _)

/-- A step of the module keeps its accounts. -/
theorem HeapMoves.accounted (moves : HeapMoves long sysfs action shown next)
    (accounted : sysfs.heap.Accounted (sysfs.pointers ++ others)) :
    next.heap.Accounted (next.pointers ++ others) := by
  cases moves with
  | refuses | starts | tearsDown | ignores | acts => exact accounted
  | storesCode _ _ freed stored => exact (accounted.freed freed).alloc stored
  | storesParams _ _ _ _ _ freedNames freedMacs storedNames storedMacs =>
      have freed := ((accounted.perm (pointers_perm _ _ _)).freed freedNames).freed freedMacs
      have stored := ((freed.alloc storedNames).alloc storedMacs).perm (.swap _ _ _)
      exact stored.perm (pointers_perm _ _ _).symm

theorem HeapMoves.heap_eq (moves : HeapMoves long sysfs action shown next)
    (noWrite : action.toAction.IsWrite = false) : next.heap = sysfs.heap := by
  cases moves with
  | refuses _ cause => rfl
  | storesCode | storesParams => cases noWrite
  | starts | tearsDown | ignores | acts => rfl

theorem kfree_accounted (accounted : heap.Accounted (ptr :: others)) :
    ∃ after, kfree heap ptr = .ok after ∧ after.Accounted others := by
  obtain ⟨after, freed, accounted⟩ := accounted.free
  exact ⟨after, kfree_eq_ok.mpr freed, accounted⟩

theorem inKernel_freesLive {α : Type} (computation : Exec α) :
    Avoids (· = MemoryFault.badFree) (inKernel computation) := by
  rintro _ stopped rfl
  cases computation <;> cases stopped

theorem kmallocCopy_freesLive (address : Nat) (bytes : List UInt8) :
    Avoids (· = MemoryFault.badFree) (kmallocCopy heap address bytes) := by
  rintro _ stopped rfl
  unfold kmallocCopy at stopped
  split at stopped <;> cases stopped

theorem write_freesLive {stored : MemoryExec (HeapSysfs × Option String)}
    (frees : Avoids (· = MemoryFault.badFree) stored) :
    Avoids (· = MemoryFault.badFree) (sysfs.write stored) := by
  unfold HeapSysfs.write
  split
  · exact .error nofun
  · exact frees.bind fun _ _ => .ok _

theorem storeCode_freesLive (accounted : sysfs.heap.Accounted (sysfs.pointers ++ others))
    (buf : List UInt8) (address : Nat) :
    Avoids (· = MemoryFault.badFree) (sysfs.ncmSysfsStoreCode buf address) := by
  unfold HeapSysfs.ncmSysfsStoreCode
  split
  · exact .ok _
  · obtain ⟨middle, freed, _⟩ := kfree_accounted accounted
    rw [freed, ok_bind]
    exact (kmallocCopy_freesLive _ _).bind fun _ _ => .ok _

theorem storeParams_freesLive (accounted : sysfs.heap.Accounted (sysfs.pointers ++ others))
    (buf : List UInt8) (nameAddress macAddress : Nat) :
    Avoids (· = MemoryFault.badFree)
      (sysfs.ncmSysfsStoreParams long buf nameAddress macAddress) := by
  unfold HeapSysfs.ncmSysfsStoreParams
  dsimp only
  split
  · exact .ok _
  · split
    · exact .ok _
    · split
      · exact .error nofun
      · split
        · exact .error nofun
        · obtain ⟨first, freedNames, rest⟩ := kfree_accounted
            (accounted.perm (pointers_perm _ _ _))
          obtain ⟨second, freedMacs, _⟩ := kfree_accounted rest
          rw [freedNames, ok_bind, freedMacs, ok_bind]
          exact (kmallocCopy_freesLive _ _).bind fun _ _ =>
            (kmallocCopy_freesLive _ _).bind fun _ _ => .ok _

theorem storeControl_freesLive (buf : List UInt8) (env : NetEnv) :
    Avoids (· = MemoryFault.badFree) (sysfs.ncmSysfsStoreControl buf env) := by
  unfold HeapSysfs.ncmSysfsStoreControl
  split
  · split
    · exact .ok _
    · split
      · exact .ok _
      · split
        · exact .ok _
        · exact (inKernel_freesLive _).bind fun _ _ => .ok _
  · split
    · exact (inKernel_freesLive _).bind fun _ _ => .ok _
    · exact .ok _

theorem noWrite_freesLive (noWrite : action.toAction.IsWrite = false) :
    Avoids (· = MemoryFault.badFree) (sysfs.next long action) := by
  cases action with
  | storeCode | storeParams | storeControl => cases noWrite
  | storeVar | setScheduler | instruction | stopped | arrival =>
      exact (inKernel_freesLive _).bind fun _ _ => .ok _

/-- A step of the module frees no dangling pointer. -/
theorem HeapSysfs.next_freesLive (accounted : sysfs.heap.Accounted (sysfs.pointers ++ others))
    (action : HeapAction) : Avoids (· = MemoryFault.badFree) (sysfs.next long action) := by
  cases action with
  | storeCode buf address => exact write_freesLive (storeCode_freesLive accounted buf address)
  | storeParams buf nameAddress macAddress =>
      exact write_freesLive (storeParams_freesLive accounted buf nameAddress macAddress)
  | storeControl buf env => exact write_freesLive (storeControl_freesLive buf env)
  | storeVar | setScheduler | instruction | stopped | arrival => exact noWrite_freesLive rfl

end Module

section Lives

variable {before last : Life}

/-- The accounts of a loaded module, with the pointers to the code and the params first. -/
theorem held_perm {sysfs : HeapSysfs} {device : SysfsDevice} :
    ((Life.loaded sysfs device).held ++ others).Perm
      (sysfs.pointers ++ (device.attrs ++ others)) := by
  rw [Life.held, ← List.append_assoc]
  exact List.perm_append_comm.append_right others

/-- A step in the life of the module keeps the accounts of its memory. -/
theorem LifeMoves.accounted {action : LifeAction} {shown : LifeShown}
    (moves : LifeMoves long before action shown last)
    (accounted : before.heap.Accounted (before.held ++ others)) :
    last.heap.Accounted (last.held ++ (leftBehind long (before, action, shown) ++ others)) := by
  cases moves with
  | loads set =>
      rw [leftBehind, if_pos rfl, List.nil_append]
      refine Heap.Accounted.perm ?_ held_perm.symm
      exact (ncInitSysfs_accounted set accounted).null.null.null
  | fails set failed =>
      rw [leftBehind, if_neg failed, set]
      exact ncInitSysfs_accounted set accounted
  | acts _ hstep | stores _ _ _ hstep =>
      have kept := (heapStep_moves hstep).accounted (accounted.perm held_perm)
      exact kept.perm held_perm.symm
  | leaves _ freed | unloads _ freed =>
      rw [Life.held, List.append_assoc] at accounted
      obtain ⟨heap, freed', rest⟩ := freeAttributes_accounted accounted
      cases freed.symm.trans freed'
      exact rest
  | waits noWrite hstep | ends noWrite hstep =>
      rw [Life.heap, (heapStep_moves hstep).heap_eq noWrite]
      exact accounted

theorem inMemory_freesLive {α : Type} {computation : MemoryExec α}
    (frees : Avoids (· = MemoryFault.badFree) computation) :
    Avoids (· = SetupFault.memory .badFree) (inMemory computation) := by
  rintro _ stopped rfl
  cases computation with
  | ok => cases stopped
  | error fault =>
      cases stopped
      exact frees _ rfl rfl

theorem makeAttributes_freesLive (answers : List (Option Nat)) :
    Avoids (· = SetupFault.memory .badFree) (makeAttributes long heap answers) := by
  induction answers generalizing heap with
  | nil => exact .ok _
  | cons answer answers ih =>
      cases answer with
      | none => exact .error nofun
      | some address =>
          exact (inMemory_freesLive (kmallocCopy_freesLive _ _)).bind fun _ _ =>
            ih.bind fun _ _ => .ok _

theorem initModule_freesLive (env : SetupEnv) :
    Avoids (· = SetupFault.memory .badFree) (Life.initModule long heap env) := by
  have set : Avoids (· = SetupFault.memory .badFree) (ncInitSysfs long heap env) := by
    unfold ncInitSysfs
    split
    · exact .ok _
    · refine (makeAttributes_freesLive _).bind fun made _ => ?_
      dsimp only
      split <;> exact .ok _
  refine set.bind fun made _ => ?_
  dsimp only
  split <;> exact .ok _

theorem cleanupModule_freesLive {sysfs : HeapSysfs} {device : SysfsDevice}
    (accounted : sysfs.heap.Accounted (device.attrs ++ others)) :
    Avoids (· = SetupFault.memory .badFree) (Life.cleanupModule sysfs device) := by
  unfold Life.cleanupModule
  split
  · exact .error nofun
  · obtain ⟨heap, freed, _⟩ := freeAttributes_accounted accounted
    rw [freed]
    refine .bind (.ok _) fun _ _ => ?_
    split
    · exact (inMemory_freesLive (inKernel_freesLive _)).bind fun _ _ => .ok _
    · exact .ok _

/-- No step in the life of the module frees a dangling pointer. -/
theorem Life.next_freesLive {life : Life} (accounted : life.heap.Accounted (life.held ++ others))
    (action : LifeAction) : Avoids (· = SetupFault.memory .badFree) (life.next long action) := by
  have refused : Avoids (· = SetupFault.memory .badFree)
      (.error (.memory (.kernel .notEnabled)) : SetupExec (Life × LifeShown)) := .error nofun
  cases life with
  | unloaded heap =>
      cases action with
      | load env => exact initModule_freesLive env
      | act | storeVar | unload => exact refused
  | loaded sysfs device =>
      have acts (action : HeapAction) :
          Avoids (· = SetupFault.memory .badFree) (Life.act long sysfs device action) :=
        (inMemory_freesLive (HeapSysfs.next_freesLive (accounted.perm held_perm) action)).bind
          fun _ _ => .ok _
      cases action with
      | load => exact refused
      | act action =>
          unfold Life.next
          dsimp only
          split
          · exact refused
          · exact acts action
      | storeVar name buf =>
          change Avoids _ (Life.ncmSysfsVarStore long sysfs device name buf)
          unfold Life.ncmSysfsVarStore
          split
          · split
            · exact refused
            · exact acts _
          · exact refused
      | unload =>
          rw [Life.held, List.append_assoc] at accounted
          exact cleanupModule_freesLive accounted
  | leaving sysfs =>
      cases action with
      | load | storeVar | unload => exact refused
      | act action =>
          unfold Life.next
          dsimp only
          split
          · exact refused
          · next inside =>
              have noWrite : action.toAction.IsWrite = false :=
                Bool.eq_false_iff.mpr fun write => inside (.inl write)
              refine (inMemory_freesLive (noWrite_freesLive noWrite)).bind fun made _ => ?_
              dsimp only
              split <;> exact .ok _

/--
In every life of the module, over any number of loads that may fail, of runs and
of unloads, no block with attributes, code or params is freed twice.  The blocks
that are live are those that the loaded module will still release, and those
left behind for good: the attributes of every load that failed once the
directory was made, and the code and the params that every unload found.
-/
theorem module_life_accounted {records : List (Life × LifeAction × LifeShown)} {life : Life}
    (run : Run (Recorded (LifeStep long)) (.unloaded .empty) records life) :
    life.heap.Accounted (life.held ++ records.flatMap (leftBehind long)) ∧
      ∀ action, life.next long action ≠ .error (.memory .badFree) := by
  have accounted : life.heap.Accounted (life.held ++ records.flatMap (leftBehind long)) := by
    induction run with
    | refl => exact Heap.accounted_empty
    | @tail middle last records record _ hstep ih =>
        obtain ⟨_, action, shown⟩ := record
        obtain ⟨rfl, hstep⟩ := hstep
        have kept := (lifeStep_moves hstep).accounted ih
        refine kept.perm (List.Perm.append_left _ ?_)
        rw [List.flatMap_append, List.flatMap_singleton]
        exact List.perm_append_comm
  exact ⟨accounted, fun action stopped => Life.next_freesLive accounted action _ stopped rfl⟩

end Lives

end Accounts

/-- Every call succeeds. -/
def SetupEnv.granted : SetupEnv where
  kobject := true
  kzalloc := .ofFn fun index => some index
  code := 0
  control := 0
  params := 0
  varspace := 0

/-- A load that fails at the last call, one that does not, a write of code and the end. -/
def failAndLoad : List LifeAction :=
  [.load { SetupEnv.granted with varspace := -enomem },
    .load { SetupEnv.granted with kzalloc := .ofFn fun index => some (10 + index) },
    .act (.storeCode (CodeBlock.ofInstrs [.make .nop 0 0 0 0]).bytes 20), .unload]

set_option maxRecDepth 4000 in
/-- Ten attributes and a program are left behind. -/
theorem module_life_accounted_failAndLoad : ∃ heap labels,
    Run.carryOut (Life.next .bits64) (.unloaded .empty) failAndLoad =
      .ok (.unloaded heap, labels) ∧
      heap.Accounted ((List.range 10).map Ptr.block ++ [.block 20, .null, .null]) := by
  have done : ∃ heap labels, Run.carryOut (Life.next .bits64) (.unloaded .empty) failAndLoad =
      .ok (.unloaded heap, labels) ∧
      (Run.recordsOf (Life.next .bits64) (.unloaded .empty) failAndLoad).flatMap
        (leftBehind .bits64) = (List.range 10).map Ptr.block ++ [.block 20, .null, .null] :=
    ⟨_, _, rfl, rfl⟩
  obtain ⟨heap, labels, ran, left⟩ := done
  have accounted := (module_life_accounted (Run.recorded_of_carryOut ran)).1
  rw [left] at accounted
  exact ⟨heap, labels, ran, accounted⟩

/-! ## Each file reaches its variable -/

/-- The names are distinct for any number of variables with room for their numbers. -/
theorem nodup_sysfsVarNames_iff {count : Nat} : (sysfsVarNames count).Nodup ↔ count ≤ 10 ^ 9 :=
  Numerals.nodup_snprintfInt_iff (by decide)

theorem scannedVar_sysfsVarName {var : Nat} (room : var < 10 ^ 9) :
    scannedVar (Numerals.snprintfInt attrNameLen var) = some var := by
  rw [scannedVar, Numerals.sscanfInt_snprintfInt (by decide) room, Option.map_some]
  congr 1
  omega

theorem answered_eq_ok {answer : Int} {done : Unit} :
    answered answer = .ok done ↔ answer = 0 := by
  unfold answered
  split
  · next zero => exact ⟨fun _ => zero, fun _ => rfl⟩
  · next failed => exact ⟨nofun, fun zero => absurd zero failed⟩

/-- The files are made exactly where the kernel makes each of them: no name clashes. -/
theorem createFiles_eq_ok {env : SetupEnv} {directory : Directory} :
    env.createFiles = .ok directory ↔
      (env.code = 0 ∧ env.control = 0 ∧ env.params = 0 ∧ env.varspace = 0) ∧
        directory = ⟨["code", "control", "params"], sysfsVarNames maxVariables⟩ := by
  have distinct : (sysfsVarNames maxVariables).Nodup := nodup_sysfsVarNames_iff.mpr (by decide)
  simp only [SetupEnv.createFiles, bind_eq_ok, answered_eq_ok, exists_const, if_pos distinct,
    pure_eq_ok, Except.ok.injEq, and_assoc, @eq_comm _ directory]

theorem createFiles_fails {env : SetupEnv} : Avoids (· = 0) env.createFiles := by
  have fails (answer : Int) : Avoids (· = 0) (answered answer) := by
    unfold answered
    split
    · exact .ok ()
    · next failed => exact .error failed
  unfold SetupEnv.createFiles
  refine (fails _).bind fun _ _ => (fails _).bind fun _ _ => (fails _).bind fun _ _ =>
    (fails _).bind fun _ _ => ?_
  split
  · exact .ok _
  · exact .error (by decide)

/-- Where loading succeeds the directory is there. -/
theorem ncInitSysfs_directory {long : LongWidth} {heap after : KernelHeap} {env : SetupEnv}
    {device : SysfsDevice} (set : ncInitSysfs long heap env = .ok (after, device, 0)) :
    device.ncKobj = some ⟨["code", "control", "params"], sysfsVarNames maxVariables⟩ := by
  unfold ncInitSysfs at set
  split at set
  · cases set
  · obtain ⟨⟨middle, attrs⟩, _, set⟩ := bind_eq_ok.mp set
    dsimp only at set
    split at set
    · next made =>
        cases set
        rw [(createFiles_eq_ok.mp made).2]
    · next failed =>
        cases set
        exact absurd rfl (createFiles_fails 0 failed)

/-- A write by the name of a file is one to the variable, and to no other. -/
def Reaches (long : LongWidth) (sysfs : HeapSysfs) (device : SysfsDevice) (name : List Char)
    (var : Nat) : Prop :=
  ∀ buf : List UInt8, buf.length ≤ maxVarSizeBytes → ∃ after shown,
    LifeStep long (.loaded sysfs device) (.storeVar name buf, shown) (.loaded after device) ∧
      getVariableData after.interp.variableSpace var = .ok buf ∧
      ∀ other ≠ var, getVariableData after.interp.variableSpace other =
        getVariableData sysfs.interp.variableSpace other

section Files

variable {long : LongWidth} {sysfs : HeapSysfs} {device : SysfsDevice}

theorem HeapSysfs.ncmInterp_variableSpace :
    sysfs.ncmInterp.variableSpace = sysfs.interp.variableSpace := by
  unfold HeapSysfs.ncmInterp
  split <;> rfl

/-- What a write to a variable leaves in it and in the others. -/
theorem setVariableData_spec (varspace : Varspace) {var : Nat} (exist : var < maxVariables)
    {buf : List UInt8} (fits : buf.length ≤ maxVarSizeBytes) :
    ∃ after, setVariableData varspace var buf buf.length = .ok after ∧
      getVariableData after var = .ok buf ∧
      ∀ other ≠ var, getVariableData after other = getVariableData varspace other := by
  obtain ⟨after, written⟩ := setVariableData_defined varspace exist (Nat.le_refl _) fits
  refine ⟨after, written, ?_, ?_⟩
  · obtain ⟨_, value, _⟩ := setVariableData_eq_ok written
    rw [getVariableData_of_lt exist, value, List.take_length]
  · intro other distinct
    obtain ⟨var', _, rest⟩ := bind_eq_ok.mp written
    obtain ⟨_, _, stored⟩ := bind_eq_ok.mp rest
    obtain ⟨_, rfl⟩ := store_eq_ok.mp stored
    by_cases inside : other < maxVariables
    · rw [getVariableData_of_lt inside, getVariableData_of_lt inside,
        Vector.getElem_set_ne _ _ (Ne.symm distinct)]
    · rw [getVariableData, getVariableData, load_of_not_lt inside, load_of_not_lt inside]

theorem next_storeVar {var : Nat} {buf : List UInt8} {varspace : Varspace}
    (written : setVariableData sysfs.ncmInterp.variableSpace var buf buf.length = .ok varspace) :
    sysfs.next long (.storeVar var buf) =
      .ok ({ sysfs with interp := { sysfs.ncmInterp with variableSpace := varspace } },
        ⟨none, []⟩) := by
  have stored : ncmSysfsVarStore sysfs.view var buf = .ok { sysfs.view with
      ncmInterp := { sysfs.ncmInterp with variableSpace := varspace } } :=
    bind_eq_ok.mpr ⟨varspace, written, rfl⟩
  have acted : sysfs.view.next long (.storeVar var buf) = .ok ({ sysfs.view with
      ncmInterp := { sysfs.ncmInterp with variableSpace := varspace } }, []) :=
    bind_eq_ok.mpr ⟨_, stored, rfl⟩
  exact bind_eq_ok.mpr ⟨_, inKernel_eq_ok.mpr acted, rfl⟩

theorem reaches_of_scanned {directory : Directory} {name : List Char} {var : Nat}
    (made : device.ncKobj = some directory) (member : name ∈ directory.varspace)
    (scanned : scannedVar name = some var) (exist : var < maxVariables) :
    Reaches long sysfs device name var := by
  intro buf fits
  obtain ⟨varspace, written, value, others⟩ :=
    setVariableData_spec sysfs.ncmInterp.variableSpace exist fits
  rw [HeapSysfs.ncmInterp_variableSpace] at others
  refine ⟨{ sysfs with interp := { sysfs.ncmInterp with variableSpace := varspace } },
    .shown ⟨none, []⟩, ?_, value, others⟩
  have listed : (device.ncKobj.any fun directory => directory.varspace.contains name) = true := by
    rw [made]
    exact List.contains_iff_mem.mpr member
  change Life.ncmSysfsVarStore long sysfs device name buf = _
  rw [Life.ncmSysfsVarStore, if_pos listed, scanned]
  exact bind_eq_ok.mpr ⟨_, inMemory_eq_ok.mpr (next_storeVar written), rfl⟩

/-- A loaded module has its directory. -/
def Life.Made : Life → Prop
  | .loaded _ device =>
      device.ncKobj = some ⟨["code", "control", "params"], sysfsVarNames maxVariables⟩
  | .unloaded _ | .leaving _ => True

theorem LifeMoves.made {before after : Life} {action : LifeAction} {shown : LifeShown}
    (moves : LifeMoves long before action shown after) (made : before.Made) : after.Made := by
  cases moves with
  | loads set => exact ncInitSysfs_directory set
  | acts | stores => exact made
  | fails | leaves | unloads | waits | ends => trivial

/--
In every life of the module, over any number of loads that may fail, of runs and
of unloads, the directory of the loaded module has a file for each variable, and
what is written to the file of a variable is written to that variable and to no
other.
-/
theorem variable_files {labels : List (LifeAction × LifeShown)}
    (run : Run (LifeStep long) (.unloaded .empty) labels (.loaded sysfs device)) :
    ∃ directory, device.ncKobj = some directory ∧ directory.varspace.length = maxVariables ∧
      ∀ var, ∀ name ∈ directory.varspace[var]?, Reaches long sysfs device name var := by
  have made := run.invariant Life.Made (fun _ _ _ made hstep => (lifeStep_moves hstep).made made)
    trivial
  refine ⟨_, made, by simp [sysfsVarNames], ?_⟩
  intro var name listed
  obtain ⟨bound, rfl⟩ := List.getElem?_eq_some_iff.mp listed
  have exist : var < maxVariables := by simpa [sysfsVarNames] using bound
  have scanned : scannedVar (sysfsVarNames maxVariables)[var] = some var := by
    simp only [sysfsVarNames, List.getElem_map, List.getElem_range]
    exact scannedVar_sysfsVarName (Nat.lt_trans exist (by decide))
  exact reaches_of_scanned made (List.getElem_mem bound) scanned exist

end Files

/-- The file `7` right after loading. -/
theorem variable_files_granted : ∃ sysfs device shown,
    LifeStep .bits64 (.unloaded .empty) (.load .granted, shown) (.loaded sysfs device) ∧
      Reaches .bits64 sysfs device ['7'] 7 := by
  have done : ∃ sysfs device shown,
      LifeStep .bits64 (.unloaded .empty) (.load .granted, shown) (.loaded sysfs device) ∧
        device.ncKobj = some ⟨["code", "control", "params"], sysfsVarNames maxVariables⟩ :=
    ⟨_, _, _, rfl, rfl⟩
  obtain ⟨sysfs, device, shown, hstep, made⟩ := done
  obtain ⟨directory, made', _, reaches⟩ := variable_files (.single hstep)
  cases made.symm.trans made'
  exact ⟨sysfs, device, shown, hstep, reaches 7 ['7'] rfl⟩

end NetworkCode.Kernel
