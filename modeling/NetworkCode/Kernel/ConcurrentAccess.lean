import NetworkCode.Kernel.VariableSpace
import NetworkCode.Library.Intervals

/-!
# One variable under concurrent calls

`get_variable_data` and `set_variable_data` in small steps: every load of
`read_buf`, load and store of a length, copy of a buffer, store of a pointer,
lock operation and wait for a grace period is a step of its own, and any
number of calls take their steps in any order.
-/

namespace NetworkCode.Kernel

open Library

/-- How far the read section of `get_variable_data` has come.  The arguments
of `memcpy` are evaluated in any order. -/
inductive GetPhase where
  | evaluating (out : List UInt8) (source counted : Option (Fin 2)) (count : Option Nat)
  | copied (out : List UInt8)
  | dereferenced (out : List UInt8) (buffer : Fin 2)
  | measured (out : List UInt8) (outLength : Nat)

/-- How far the locked section of `set_variable_data` has come. -/
inductive SetPhase where
  | locked
  | filled
  | measured
  | retired (tmp : Fin 2)
  | published (tmp : Fin 2)
  | exchanged

/-- What a thread is doing with the variable. -/
inductive Call where
  | idle
  | get (phase : GetPhase)
  | got (out : List UInt8) (outLength : Nat)
  /-- Waiting for the lock. -/
  | waiting (bytes : List UInt8)
  | set (bytes : List UInt8) (phase : SetPhase)
  | unlocked
  /-- In `synchronize_rcu`, with the read sections that it waits for. -/
  | synchronizing (awaited : Nat → Option Nat)

/-- The variable, its lock and the threads that use it. -/
structure Concurrent where
  var : Variable
  writeLock : Option Nat
  /-- How many read sections each thread has left. -/
  sections : Nat → Nat
  calls : Nat → Call

inductive GetEvent where
  | loadSource
  | loadCounted
  | loadCount
  | copy
  | dereference
  | measure

inductive SetEvent where
  | fill
  | storeLength
  | loadRetired
  | publish
  | exchange

inductive AccessEvent where
  | enterGet (out : List UInt8)
  | read (event : GetEvent)
  | leaveGet
  | enterSet (bytes : List UInt8)
  | acquire
  | write (event : SetEvent)
  | release
  | synchronize
  | leaveSet

/-- One step inside the read section. -/
inductive Reads (var : Variable) : GetPhase → GetEvent → GetPhase → Prop where
  | loadSource {out : List UInt8} {counted : Option (Fin 2)} {count : Option Nat} :
      Reads var (.evaluating out none counted count) .loadSource
        (.evaluating out (some var.readBuf) counted count)
  | loadCounted {out : List UInt8} {source : Option (Fin 2)} :
      Reads var (.evaluating out source none none) .loadCounted
        (.evaluating out source (some var.readBuf) none)
  | loadCount {out : List UInt8} {source : Option (Fin 2)} {buffer : Fin 2} :
      Reads var (.evaluating out source (some buffer) none) .loadCount
        (.evaluating out source (some buffer) (some (var.buffer buffer).length))
  | copy {out : List UInt8} {source counted : Fin 2} {count : Nat} :
      Reads var (.evaluating out (some source) (some counted) (some count)) .copy
        (.copied (Bytes.overwrite out 0 ((var.buffer source).data.take count)))
  | dereference {out : List UInt8} :
      Reads var (.copied out) .dereference (.dereferenced out var.readBuf)
  | measure {out : List UInt8} {buffer : Fin 2} :
      Reads var (.dereferenced out buffer) .measure
        (.measured out (var.buffer buffer).length)

/-- One step inside the locked section. -/
inductive Writes (bytes : List UInt8) :
    Variable → SetPhase → SetEvent → Variable → SetPhase → Prop where
  | fill {var : Variable} (fits : bytes.length ≤ maxVarSizeBytes) :
      Writes bytes var .locked .fill
        (var.setBuffer var.writeBuf ((var.buffer var.writeBuf).fill bytes fits)) .filled
  | storeLength {var : Variable} (fits : bytes.length ≤ maxVarSizeBytes) :
      Writes bytes var .filled .storeLength
        (var.setBuffer var.writeBuf ((var.buffer var.writeBuf).resize bytes.length fits))
        .measured
  | loadRetired {var : Variable} :
      Writes bytes var .measured .loadRetired var (.retired var.readBuf)
  | publish {var : Variable} {tmp : Fin 2} :
      Writes bytes var (.retired tmp) .publish { var with readBuf := var.writeBuf }
        (.published tmp)
  | exchange {var : Variable} {tmp : Fin 2} :
      Writes bytes var (.published tmp) .exchange { var with writeBuf := tmp } .exchanged

/-- The thread can begin a call. -/
def Call.Finished : Call → Prop
  | .idle | .got _ _ => True
  | _ => False

/-- The thread is inside `get_variable_data`. -/
def Call.Reading : Call → Prop
  | .get _ => True
  | _ => False

namespace Concurrent

def setCall (state : Concurrent) (thread : Nat) (call : Call) : Concurrent :=
  { state with calls := Function.update state.calls thread call }

section SetCall

variable {state : Concurrent} {thread other : Nat} {call found : Call}

@[simp] theorem var_setCall : (state.setCall thread call).var = state.var := rfl

@[simp] theorem calls_setCall_self : (state.setCall thread call).calls thread = call :=
  Function.update_self _ _ _

theorem calls_setCall_of_ne (distinct : other ≠ thread) :
    (state.setCall thread call).calls other = state.calls other :=
  Function.update_of_ne distinct _ _

@[simp] theorem setCall_setCall :
    (state.setCall thread call).setCall thread found = state.setCall thread found := by
  unfold setCall
  rw [Function.update_idem]

theorem setCall_again (var : Variable) (writeLock : Option Nat) (sections : Nat → Nat) :
    (Concurrent.mk var writeLock sections (state.setCall thread call).calls).setCall thread found =
      (Concurrent.mk var writeLock sections state.calls).setCall thread found := by
  unfold setCall
  rw [Function.update_idem]

/-- What a thread is doing is new, or it is another thread. -/
theorem calls_setCall_cases (doing : (state.setCall thread call).calls other = found) :
    (other = thread ∧ call = found) ∨ (other ≠ thread ∧ state.calls other = found) := by
  rcases eq_or_ne other thread with rfl | distinct
  · exact .inl ⟨rfl, calls_setCall_self.symm.trans doing⟩
  · exact .inr ⟨distinct, (calls_setCall_of_ne distinct).symm.trans doing⟩

end SetCall

/-- The read section that a thread is in, if any. -/
def openSection (state : Concurrent) (thread : Nat) : Option Nat :=
  match state.calls thread with
  | .get _ => some (state.sections thread)
  | _ => none

/-- The thread leaves its read section. -/
def leaveSection (state : Concurrent) (thread : Nat) : Concurrent :=
  { state with
    sections := Function.update state.sections thread (state.sections thread + 1) }

end Concurrent

@[simp] theorem Concurrent.var_leaveSection (state : Concurrent) (thread : Nat) :
    (state.leaveSection thread).var = state.var :=
  rfl

/-- One step of one thread. -/
inductive Access : Concurrent → Nat × AccessEvent → Concurrent → Prop where
  | enterGet {state : Concurrent} {thread : Nat} {out : List UInt8}
      (free : (state.calls thread).Finished) (room : maxVarSizeBytes ≤ out.length) :
      Access state (thread, .enterGet out)
        (state.setCall thread (.get (.evaluating out none none none)))
  | read {state : Concurrent} {thread : Nat} {phase next : GetPhase} {event : GetEvent}
      (inside : state.calls thread = .get phase) (reads : Reads state.var phase event next) :
      Access state (thread, .read event) (state.setCall thread (.get next))
  | leaveGet {state : Concurrent} {thread : Nat} {out : List UInt8} {outLength : Nat}
      (inside : state.calls thread = .get (.measured out outLength)) :
      Access state (thread, .leaveGet)
        ((state.leaveSection thread).setCall thread (.got out outLength))
  | enterSet {state : Concurrent} {thread : Nat} {bytes : List UInt8}
      (free : (state.calls thread).Finished) (fits : bytes.length ≤ maxVarSizeBytes) :
      Access state (thread, .enterSet bytes) (state.setCall thread (.waiting bytes))
  | acquire {state : Concurrent} {thread : Nat} {bytes : List UInt8}
      (waits : state.calls thread = .waiting bytes) (unheld : state.writeLock = none) :
      Access state (thread, .acquire)
        ({ state with writeLock := some thread }.setCall thread (.set bytes .locked))
  | write {state : Concurrent} {thread : Nat} {bytes : List UInt8} {phase next : SetPhase}
      {event : SetEvent} {var : Variable} (inside : state.calls thread = .set bytes phase)
      (writes : Writes bytes state.var phase event var next) :
      Access state (thread, .write event)
        ({ state with var := var }.setCall thread (.set bytes next))
  | release {state : Concurrent} {thread : Nat} {bytes : List UInt8}
      (inside : state.calls thread = .set bytes .exchanged) :
      Access state (thread, .release)
        ({ state with writeLock := none }.setCall thread .unlocked)
  | synchronize {state : Concurrent} {thread : Nat}
      (outside : state.calls thread = .unlocked) :
      Access state (thread, .synchronize)
        (state.setCall thread (.synchronizing state.openSection))
  | leaveSet {state : Concurrent} {thread : Nat} {awaited : Nat → Option Nat}
      (waits : state.calls thread = .synchronizing awaited)
      (elapsed : ∀ reader count, awaited reader = some count → count < state.sections reader) :
      Access state (thread, .leaveSet) (state.setCall thread .idle)

/-- No call is in progress. -/
structure Quiescent (state : Concurrent) : Prop where
  calls : ∀ thread, state.calls thread = .idle
  unheld : state.writeLock = none
  apart : state.var.readBuf ≠ state.var.writeBuf

/-- A variable that `init_variable_space` has just set up. -/
def freshVariable : Concurrent where
  var := zeroVariable.init
  writeLock := none
  sections := fun _ => 0
  calls := fun _ => .idle

/-! ## A call that nothing interrupts -/

namespace Access

variable {state : Concurrent} {thread : Nat}

theorem read_again {phase next : GetPhase} {event : GetEvent}
    (reads : Reads state.var phase event next) :
    Access (state.setCall thread (.get phase)) (thread, .read event)
      (state.setCall thread (.get next)) := by
  have inside : (state.setCall thread (.get phase)).calls thread = .get phase :=
    Concurrent.calls_setCall_self
  have moved := Access.read inside reads
  rw [Concurrent.setCall_setCall] at moved
  exact moved

theorem write_again {bytes : List UInt8} {phase next : SetPhase} {event : SetEvent}
    {var : Variable} (writes : Writes bytes state.var phase event var next) :
    Access (state.setCall thread (.set bytes phase)) (thread, .write event)
      ({ state with var := var }.setCall thread (.set bytes next)) := by
  have inside : (state.setCall thread (.set bytes phase)).calls thread = .set bytes phase :=
    Concurrent.calls_setCall_self
  have moved := Access.write inside writes
  rw [Concurrent.setCall_again] at moved
  exact moved

end Access

/-- The rest of a read section that has loaded its first pointer. -/
theorem exists_rest_run {state : Concurrent} {thread : Nat} {out : List UInt8} {source : Fin 2}
    (inside : state.calls thread = .get (.evaluating out (some source) none none)) :
    ∃ labels last, Run Access state labels last ∧
      (∀ label ∈ labels, (∃ event, label.2 = .read event) ∨ label.2 = .leaveGet) ∧
      last.var = state.var ∧ last.calls thread =
        .got (Bytes.overwrite out 0 ((state.var.buffer source).data.take state.var.value.length))
          state.var.value.length := by
  have dereferenced := Run.single (Access.read inside .loadCounted)
  have counted := dereferenced.tail (.read_again .loadCount)
  have copied := counted.tail (.read_again .copy)
  have again := copied.tail (.read_again .dereference)
  have measured := again.tail (.read_again .measure)
  have left := measured.tail (.leaveGet Concurrent.calls_setCall_self)
  refine ⟨_, _, left, ?_, ?_, ?_⟩
  · simp
  · rw [Concurrent.var_setCall, Concurrent.var_leaveSection, Concurrent.var_setCall]
  · rw [Concurrent.calls_setCall_self, Variable.value_eq, VarData.value_length]

/-- Taken in one go, the read section is `get_variable_data`. -/
theorem exists_get_run (state : Concurrent) (thread : Nat) {out : List UInt8}
    (free : (state.calls thread).Finished) (room : maxVarSizeBytes ≤ out.length) :
    ∃ labels last, Run Access state labels last ∧
      (∀ label ∈ labels, ∀ event, label.2 ≠ .write event) ∧ last.var = state.var ∧
      last.calls thread =
        .got (Bytes.overwrite out 0 state.var.value) state.var.value.length := by
  have entered := Run.single (Access.enterGet free room)
  have sourced := entered.tail (.read_again .loadSource)
  have inside : (state.setCall thread (.get (.evaluating out (some state.var.readBuf) none
      none))).calls thread = _ := Concurrent.calls_setCall_self
  obtain ⟨labels, last, rest, reads, same, returned⟩ := exists_rest_run inside
  refine ⟨_, last, sourced.trans rest, ?_, same, ?_⟩
  · intro label member event written
    rcases List.mem_append.mp member with opening | later
    · simp only [List.singleton_append, List.mem_cons, List.not_mem_nil, or_false] at opening
      rcases opening with rfl | rfl <;> cases written
    · rcases reads label later with ⟨_, read⟩ | left
      · cases read.symm.trans written
      · cases left.symm.trans written
  · rw [returned, Concurrent.var_setCall, Variable.value_eq, VarData.value_length]
    rfl

/-- The locked section up to the publication. -/
theorem exists_publish_run (state : Concurrent) (thread : Nat) {bytes : List UInt8}
    (free : (state.calls thread).Finished) (unheld : state.writeLock = none)
    (fits : bytes.length ≤ maxVarSizeBytes) :
    ∃ labels last, Run Access state labels last ∧
      (∀ label ∈ labels, ∀ data, label.2 = .enterSet data → data = bytes) ∧
      last.var = { state.var.prepare bytes fits with readBuf := state.var.writeBuf } ∧
      last.calls thread = .set bytes (.published state.var.readBuf) ∧
      ∀ other, other ≠ thread → last.calls other = state.calls other := by
  have entered := Run.single (Access.enterSet free fits)
  have locked := entered.tail (.acquire Concurrent.calls_setCall_self unheld)
  have filled := locked.tail (.write_again (.fill fits))
  have measured := filled.tail (.write_again (.storeLength fits))
  have retired := measured.tail (.write_again .loadRetired)
  have published := retired.tail (.write_again .publish)
  refine ⟨_, _, published, ?_, rfl, Concurrent.calls_setCall_self, ?_⟩
  · simp
  · intro other distinct
    rw [Concurrent.calls_setCall_of_ne distinct, Concurrent.calls_setCall_of_ne distinct]

/-- Taken in one go, the locked section is `Variable.set`. -/
theorem exists_set_run {state : Concurrent} (quiescent : Quiescent state) (thread : Nat)
    {bytes : List UInt8} (fits : bytes.length ≤ maxVarSizeBytes) :
    ∃ labels last, Run Access state labels last ∧ last.calls thread = .idle ∧
      state.var.set bytes bytes.length = .ok last.var := by
  have free : (state.calls thread).Finished := by
    rw [quiescent.calls thread]
    trivial
  obtain ⟨labels, middle, published, _, same, inside, others⟩ :=
    exists_publish_run state thread free quiescent.unheld fits
  have exchanged := published.tail (.write inside .exchange)
  have released := exchanged.tail (.release Concurrent.calls_setCall_self)
  have waits := released.tail (.synchronize Concurrent.calls_setCall_self)
  have finished := waits.tail (.leaveSet Concurrent.calls_setCall_self ?_)
  · refine ⟨_, _, finished, Concurrent.calls_setCall_self, ?_⟩
    rw [Variable.set_eq fits]
    simp only [Concurrent.var_setCall, same]
  · intro reader count awaited
    unfold Concurrent.openSection at awaited
    split at awaited
    · next reading =>
        rcases Concurrent.calls_setCall_cases reading with ⟨_, same⟩ | ⟨distinct, reading⟩
        · cases same
        · rw [Concurrent.calls_setCall_of_ne distinct, others reader distinct,
            quiescent.calls reader] at reading
          cases reading
    · cases awaited

end NetworkCode.Kernel
