import NetworkCode.Kernel.OneValue

/-!
# Writers of all variables

Any number of calls of `set_variable_data`, on any variables, in small steps:
locking, the five steps of the locked section and unlocking, in any order.
The pointers of a variable alias each other only between its publication and
its exchange, where the lock is held.
-/

namespace NetworkCode.Kernel

open Library

/-- What a caller of `set_variable_data` is doing. -/
inductive WriteCall where
  | idle
  | waiting (var : Fin maxVariables) (bytes : List UInt8)
  | inside (var : Fin maxVariables) (bytes : List UInt8) (phase : SetPhase)

/-- The variable space with its locks and the calls in progress. -/
structure Writers where
  space : Varspace
  writeLock : Fin maxVariables → Option Nat
  calls : Nat → WriteCall

inductive WriterEvent where
  | enter (bytes : List UInt8)
  | acquire (bytes : List UInt8)
  | write (event : SetEvent)
  | release

/-- Who takes a step, on which variable. -/
structure WriterLabel where
  caller : Nat
  var : Fin maxVariables
  event : WriterEvent

namespace Writers

def setCall (state : Writers) (caller : Nat) (call : WriteCall) : Writers :=
  { state with calls := Function.update state.calls caller call }

def setLock (state : Writers) (var : Fin maxVariables) (holder : Option Nat) : Writers :=
  { state with writeLock := Function.update state.writeLock var holder }

def setVar (state : Writers) (var : Fin maxVariables) (value : Variable) : Writers :=
  { state with space := state.space.set var value }

/-- After `init_variable_space` on any memory. -/
def init (memory : Varspace) : Writers where
  space := initVariableSpace memory
  writeLock := fun _ => none
  calls := fun _ => .idle

end Writers

/-- One step of one call. -/
inductive WriterStep : Writers → WriterLabel → Writers → Prop where
  | enter {state : Writers} {caller : Nat} {var : Fin maxVariables} {bytes : List UInt8}
      (free : state.calls caller = .idle) (fits : bytes.length ≤ maxVarSizeBytes) :
      WriterStep state ⟨caller, var, .enter bytes⟩ (state.setCall caller (.waiting var bytes))
  | acquire {state : Writers} {caller : Nat} {var : Fin maxVariables} {bytes : List UInt8}
      (waits : state.calls caller = .waiting var bytes) (unheld : state.writeLock var = none) :
      WriterStep state ⟨caller, var, .acquire bytes⟩
        ((state.setLock var (some caller)).setCall caller (.inside var bytes .locked))
  | write {state : Writers} {caller : Nat} {var : Fin maxVariables} {bytes : List UInt8}
      {phase next : SetPhase} {event : SetEvent} {value : Variable}
      (inside : state.calls caller = .inside var bytes phase)
      (writes : Writes bytes state.space[var] phase event value next) :
      WriterStep state ⟨caller, var, .write event⟩
        ((state.setVar var value).setCall caller (.inside var bytes next))
  | release {state : Writers} {caller : Nat} {var : Fin maxVariables} {bytes : List UInt8}
      (inside : state.calls caller = .inside var bytes .exchanged) :
      WriterStep state ⟨caller, var, .release⟩
        ((state.setLock var none).setCall caller .idle)

/-- The data of a call that takes the lock of a variable. -/
def takes? (var : Fin maxVariables) (label : WriterLabel) : Option (List UInt8) :=
  match label.event with
  | .acquire bytes => if label.var = var then some bytes else none
  | _ => none

/-- The data of the call that took the lock of a variable last, or nothing. -/
def lastTaken (labels : List WriterLabel) (var : Fin maxVariables) : List UInt8 :=
  (Run.latest (takes? var) labels).getD []

/-- The new data is what readers see. -/
def SetPhase.Shows (var : Variable) (bytes : List UInt8) : SetPhase → Prop
  | .published _ | .exchanged => var.value = bytes
  | _ => True

theorem Writes.shows {bytes : List UInt8} {var next : Variable} {phase after : SetPhase}
    {event : SetEvent} (writes : Writes bytes var phase event next after)
    (settled : phase.Settled var bytes) (shows : phase.Shows var bytes) :
    after.Shows next bytes := by
  cases writes with
  | fill | storeLength | loadRetired => trivial
  | publish => exact settled.2.1
  | exchange => exact shows

/-- No step of the locked section modifies the buffer that readers follow. -/
theorem Writes.front_kept {bytes : List UInt8} {var next : Variable} {phase after : SetPhase}
    {event : SetEvent} (writes : Writes bytes var phase event next after)
    (settled : phase.Settled var bytes) : next.buffer var.readBuf = var.buffer var.readBuf := by
  cases writes with
  | fill fits => exact Variable.buffer_setBuffer_of_ne settled
  | storeLength fits => exact Variable.buffer_setBuffer_of_ne settled.1
  | loadRetired | publish | exchange => rfl

/-- What the lock of a variable protects, with the history that led to the
state. -/
structure OrderlyAt (labels : List WriterLabel) (state : Writers) (var : Fin maxVariables) :
    Prop where
  /-- A caller in the locked section holds the lock and took it last. -/
  holder : ∀ {caller bytes phase}, state.calls caller = .inside var bytes phase →
    state.writeLock var = some caller ∧ lastTaken labels var = bytes
  held : ∀ {caller}, state.writeLock var = some caller →
    ∃ bytes phase, state.calls caller = .inside var bytes phase
  settled : ∀ {caller bytes phase}, state.calls caller = .inside var bytes phase →
    phase.Settled state.space[var] bytes ∧ phase.Shows state.space[var] bytes
  free : state.writeLock var = none → state.space[var].readBuf ≠ state.space[var].writeBuf ∧
    state.space[var].value = lastTaken labels var

section Taken

variable (labels : List WriterLabel) {var : Fin maxVariables}

theorem lastTaken_acquire (caller : Nat) (bytes : List UInt8) :
    lastTaken (labels ++ [⟨caller, var, .acquire bytes⟩]) var = bytes := by
  have selected : takes? var ⟨caller, var, .acquire bytes⟩ = some bytes := if_pos rfl
  rw [lastTaken, Run.latest_concat, selected]
  rfl

/-- Nobody takes the lock of the variable. -/
theorem lastTaken_of_none {label : WriterLabel} (untaken : takes? var label = none) :
    lastTaken (labels ++ [label]) var = lastTaken labels var := by
  rw [lastTaken, Run.latest_concat, untaken]
  rfl

/-- A step on another variable takes another lock, if any. -/
theorem takes?_of_ne {label : WriterLabel} (distinct : label.var ≠ var) :
    takes? var label = none := by
  unfold takes?
  split
  · exact if_neg distinct
  · rfl

end Taken

namespace Writers

variable {state : Writers} {caller other : Nat} {call found : WriteCall}

@[simp] theorem space_setCall : (state.setCall caller call).space = state.space := rfl

@[simp] theorem writeLock_setCall : (state.setCall caller call).writeLock = state.writeLock := rfl

theorem writeLock_setLock_self {var : Fin maxVariables} {holder : Option Nat} :
    (state.setLock var holder).writeLock var = holder :=
  Function.update_self _ _ _

@[simp] theorem calls_setCall_self : (state.setCall caller call).calls caller = call :=
  Function.update_self _ _ _

theorem calls_setCall_of_ne (distinct : other ≠ caller) :
    (state.setCall caller call).calls other = state.calls other :=
  Function.update_of_ne distinct _ _

/-- What a caller is doing is new, or it is another caller. -/
theorem calls_setCall_cases (doing : (state.setCall caller call).calls other = found) :
    (other = caller ∧ call = found) ∨ (other ≠ caller ∧ state.calls other = found) := by
  rcases eq_or_ne other caller with rfl | distinct
  · exact .inl ⟨rfl, calls_setCall_self.symm.trans doing⟩
  · exact .inr ⟨distinct, (calls_setCall_of_ne distinct).symm.trans doing⟩

/-- A caller that moves outside the locked section of a variable. -/
theorem inside_setCall_iff {var : Fin maxVariables} {bytes : List UInt8} {phase : SetPhase}
    (before : state.calls caller ≠ .inside var bytes phase)
    (after : call ≠ .inside var bytes phase) :
    (state.setCall caller call).calls other = .inside var bytes phase ↔
      state.calls other = .inside var bytes phase := by
  rcases eq_or_ne other caller with rfl | distinct
  · rw [calls_setCall_self]
    exact ⟨fun now => absurd now after, fun was => absurd was before⟩
  · rw [calls_setCall_of_ne distinct]

theorem getElem_setVar_self {var : Fin maxVariables} {value : Variable} :
    (state.setVar var value).space[var] = value := by
  simp [setVar]

theorem getElem_setVar_of_ne {var kept : Fin maxVariables} {value : Variable}
    (distinct : kept ≠ var) : (state.setVar var value).space[kept] = state.space[kept] := by
  have apart : var.val ≠ kept.val := fun same => distinct (Fin.ext same.symm)
  simp [setVar, Vector.getElem_set_ne, apart]

end Writers

namespace OrderlyAt

variable {labels later : List WriterLabel} {state next : Writers} {var : Fin maxVariables}

theorem init (memory : Varspace) (var : Fin maxVariables) :
    OrderlyAt [] (.init memory) var where
  holder := nofun
  held := nofun
  settled := nofun
  free _ := by
    have start : (Writers.init memory).space[var] = memory[var].init := by
      simp [Writers.init, initVariableSpace]
    rw [start]
    exact ⟨Variable.init_apart _, Variable.init_value _⟩

/-- Nothing that concerns the variable changes. -/
theorem frame (orderly : OrderlyAt labels state var)
    (space : next.space[var] = state.space[var]) (lock : next.writeLock var = state.writeLock var)
    (calls : ∀ caller bytes phase, next.calls caller = .inside var bytes phase ↔
      state.calls caller = .inside var bytes phase)
    (taken : lastTaken later var = lastTaken labels var) : OrderlyAt later next var where
  holder inside := by
    rw [lock, taken]
    exact orderly.holder ((calls _ _ _).mp inside)
  held locked := by
    obtain ⟨bytes, phase, inside⟩ := orderly.held (lock ▸ locked)
    exact ⟨bytes, phase, (calls _ _ _).mpr inside⟩
  settled inside := by
    rw [space]
    exact orderly.settled ((calls _ _ _).mp inside)
  free unheld := by
    rw [space, taken]
    exact orderly.free (lock ▸ unheld)

end OrderlyAt

/-- What a step on one variable leaves of another. -/
structure Untouched (before after : Writers) (var : Fin maxVariables) : Prop where
  space : after.space[var] = before.space[var]
  lock : after.writeLock var = before.writeLock var
  calls : ∀ caller bytes phase, after.calls caller = .inside var bytes phase ↔
    before.calls caller = .inside var bytes phase

theorem WriterStep.untouched {state next : Writers} {label : WriterLabel}
    (hstep : WriterStep state label next) {var : Fin maxVariables} (distinct : var ≠ label.var) :
    Untouched state next var := by
  have elsewhere {other : Fin maxVariables} {bytes bytes' : List UInt8} {phase phase' : SetPhase}
      (apart : var ≠ other) : WriteCall.inside other bytes phase ≠ .inside var bytes' phase' := by
    intro same
    cases same
    exact apart rfl
  cases hstep with
  | enter free fits =>
      refine ⟨rfl, rfl, fun other bytes phase => Writers.inside_setCall_iff ?_ nofun⟩
      exact fun was => nomatch free.symm.trans was
  | acquire waits unheld =>
      refine ⟨rfl, Function.update_of_ne distinct _ _, fun other bytes phase =>
        Writers.inside_setCall_iff ?_ (elsewhere distinct)⟩
      exact fun was => nomatch waits.symm.trans was
  | write inside writes =>
      refine ⟨Writers.getElem_setVar_of_ne distinct, rfl, fun other bytes phase =>
        Writers.inside_setCall_iff ?_ (elsewhere distinct)⟩
      exact fun was => elsewhere distinct (inside.symm.trans was)
  | release inside =>
      refine ⟨rfl, Function.update_of_ne distinct _ _, fun other bytes phase =>
        Writers.inside_setCall_iff ?_ nofun⟩
      exact fun was => elsewhere distinct (inside.symm.trans was)

namespace OrderlyAt

variable {labels : List WriterLabel} {state next : Writers} {label : WriterLabel}

/-- A caller holds the lock and is the only one in the locked section. -/
theorem of_holder {var : Fin maxVariables} {caller : Nat} {bytes : List UInt8} {phase : SetPhase}
    (inside : state.calls caller = .inside var bytes phase)
    (locked : state.writeLock var = some caller) (taken : lastTaken labels var = bytes)
    (settled : phase.Settled state.space[var] bytes) (shows : phase.Shows state.space[var] bytes)
    (only : ∀ other bytes' phase', state.calls other = .inside var bytes' phase' →
      other = caller ∧ bytes' = bytes ∧ phase' = phase) : OrderlyAt labels state var where
  holder now := by
    obtain ⟨rfl, rfl, rfl⟩ := only _ _ _ now
    exact ⟨locked, taken⟩
  held holds := by
    obtain rfl := Option.some.inj (locked.symm.trans holds)
    exact ⟨bytes, phase, inside⟩
  settled now := by
    obtain ⟨rfl, rfl, rfl⟩ := only _ _ _ now
    exact ⟨settled, shows⟩
  free unheld := nomatch locked.symm.trans unheld

/-- A step of a call keeps the order of its variable. -/
theorem step_self (orderly : OrderlyAt labels state label.var)
    (hstep : WriterStep state label next) : OrderlyAt (labels ++ [label]) next label.var := by
  cases hstep with
  | @enter caller var bytes free fits =>
      refine orderly.frame rfl rfl (fun other bytes phase => ?_) (lastTaken_of_none labels rfl)
      exact Writers.inside_setCall_iff (fun was => nomatch free.symm.trans was) nofun
  | @acquire caller var bytes waits unheld =>
      obtain ⟨apart, _⟩ := orderly.free unheld
      have nobody {other : Nat} {bytes' : List UInt8} {phase : SetPhase}
          (inside : state.calls other = .inside var bytes' phase) : False :=
        nomatch unheld.symm.trans (orderly.holder inside).1
      have taken : lastTaken (labels ++ [⟨caller, var, .acquire bytes⟩]) var = bytes :=
        lastTaken_acquire labels caller bytes
      refine of_holder Writers.calls_setCall_self Writers.writeLock_setLock_self taken apart trivial
        fun other bytes' phase now => ?_
      rcases Writers.calls_setCall_cases now with ⟨rfl, same⟩ | ⟨_, was⟩
      · cases same
        exact ⟨rfl, rfl, rfl⟩
      · exact (nobody was).elim
  | @write caller var bytes phase after event value inside writes =>
      obtain ⟨lock, taken⟩ := orderly.holder inside
      obtain ⟨settled, shows⟩ := orderly.settled inside
      have kept : lastTaken (labels ++ [⟨caller, var, .write event⟩]) var = lastTaken labels var :=
        lastTaken_of_none labels rfl
      have only {other : Nat} {bytes' : List UInt8} {phase' : SetPhase}
          (was : state.calls other = .inside var bytes' phase') : other = caller :=
        Option.some.inj ((orderly.holder was).1.symm.trans lock)
      refine of_holder Writers.calls_setCall_self lock (kept.trans taken) ?_ ?_
        fun other bytes' phase' now => ?_
      · rw [Writers.space_setCall, Writers.getElem_setVar_self]
        exact writes.settled settled
      · rw [Writers.space_setCall, Writers.getElem_setVar_self]
        exact writes.shows settled shows
      · rcases Writers.calls_setCall_cases now with ⟨rfl, same⟩ | ⟨distinct, was⟩
        · cases same
          exact ⟨rfl, rfl, rfl⟩
        · exact absurd (only was) distinct
  | @release caller var bytes inside =>
      obtain ⟨lock, taken⟩ := orderly.holder inside
      obtain ⟨settled, shows⟩ := orderly.settled inside
      have kept : lastTaken (labels ++ [⟨caller, var, .release⟩]) var = lastTaken labels var :=
        lastTaken_of_none labels rfl
      have nobody {other : Nat} {bytes' : List UInt8} {phase : SetPhase}
          (now : ((state.setLock var none).setCall caller .idle).calls other =
            .inside var bytes' phase) : False := by
        rcases Writers.calls_setCall_cases now with ⟨_, same⟩ | ⟨distinct, was⟩
        · cases same
        · exact distinct (Option.some.inj ((orderly.holder was).1.symm.trans lock))
      refine ⟨fun now => (nobody now).elim, ?_, fun now => (nobody now).elim, ?_⟩
      · intro other locked
        exact nomatch Writers.writeLock_setLock_self.symm.trans locked
      · intro _
        have value : state.space[var].value = bytes := shows
        exact ⟨settled, value.trans (taken.symm.trans kept.symm)⟩

theorem step (orderly : ∀ var, OrderlyAt labels state var) (hstep : WriterStep state label next)
    (var : Fin maxVariables) : OrderlyAt (labels ++ [label]) next var := by
  rcases eq_or_ne var label.var with rfl | distinct
  · exact (orderly label.var).step_self hstep
  · obtain ⟨space, lock, calls⟩ := hstep.untouched distinct
    exact (orderly var).frame space lock calls
      (lastTaken_of_none labels (takes?_of_ne distinct.symm))

theorem run {memory : Varspace} {last : Writers} (run : Run WriterStep (.init memory) labels last)
    (var : Fin maxVariables) : OrderlyAt labels last var := by
  refine run.history (fun labels state => ∀ var, OrderlyAt labels state var) (init memory) ?_ var
  intro earlier middle label next _ orderly hstep
  exact step orderly hstep

end OrderlyAt

/-! ## A call that nothing interrupts -/

theorem WriterStep.write_again {state : Writers} {caller : Nat} {var : Fin maxVariables}
    {bytes : List UInt8} {phase next : SetPhase} {event : SetEvent} {current value : Variable}
    (now : state.space[var] = current) (writes : Writes bytes current phase event value next) :
    WriterStep (state.setCall caller (.inside var bytes phase)) ⟨caller, var, .write event⟩
      ((state.setVar var value).setCall caller (.inside var bytes next)) := by
  have inside : (state.setCall caller (.inside var bytes phase)).calls caller =
      .inside var bytes phase := Writers.calls_setCall_self
  have moved := WriterStep.write inside (now.symm ▸ writes)
  unfold Writers.setVar Writers.setCall at *
  rw [Function.update_idem] at moved
  exact moved

/-- Taken in one go, a call is `set_variable_data`. -/
theorem exists_call_run (state : Writers) (caller : Nat) (var : Fin maxVariables)
    {bytes : List UInt8} (free : state.calls caller = .idle)
    (unheld : state.writeLock var = none) (fits : bytes.length ≤ maxVarSizeBytes) :
    ∃ labels last, Run WriterStep state labels last ∧ last.calls = state.calls ∧
      lastTaken labels var = bytes ∧
      setVariableData state.space var bytes bytes.length = .ok last.space := by
  have entered : Run WriterStep state [⟨caller, var, .enter bytes⟩] _ :=
    .single (.enter free fits)
  have locked := entered.tail (.acquire Writers.calls_setCall_self unheld)
  have filled := locked.tail (.write_again rfl (.fill fits))
  have measured := filled.tail (.write_again Writers.getElem_setVar_self (.storeLength fits))
  have retired := measured.tail (.write_again Writers.getElem_setVar_self .loadRetired)
  have published := retired.tail (.write_again Writers.getElem_setVar_self .publish)
  have exchanged := published.tail (.write_again Writers.getElem_setVar_self .exchange)
  have released := exchanged.tail (.release Writers.calls_setCall_self)
  refine ⟨_, _, released, ?_, ?_, ?_⟩
  · simp only [Writers.setCall, Writers.setLock, Writers.setVar, Function.update_idem]
    rw [← free, Function.update_eq_self]
  · repeat rw [lastTaken_of_none _ rfl]
    exact lastTaken_acquire _ caller bytes
  · unfold setVariableData
    rw [Checked.load_of_lt var.isLt, Checked.ok_bind, Variable.set_eq fits, Checked.ok_bind,
      Checked.store_of_lt var.isLt]
    simp only [Writers.setCall, Writers.setLock, Writers.setVar, Vector.set_set]
    rfl

/-- A caller moves by its own steps alone. -/
theorem WriterStep.call_kept {state next : Writers} {label : WriterLabel}
    (hstep : WriterStep state label next) {other : Nat} (distinct : other ≠ label.caller) :
    next.calls other = state.calls other := by
  cases hstep <;> exact Writers.calls_setCall_of_ne distinct

theorem calls_of_absent {first last : Writers} {labels : List WriterLabel}
    (run : Run WriterStep first labels last) {other : Nat}
    (absent : ∀ label ∈ labels, other ≠ label.caller) : last.calls other = first.calls other :=
  run.invariant_of_labels (fun state => state.calls other = first.calls other)
    (fun label => other ≠ label.caller)
    (fun _ _ _ distinct same hstep => (hstep.call_kept distinct).trans same) absent rfl

/-! ## Any number of calls -/

/-- What holds after steps of calls that led to a state. -/
structure DoubleBuffered (labels : List WriterLabel) (last : Writers) : Prop where
  /-- While its lock is free, a variable has a front and a back buffer. -/
  apart : ∀ var, last.writeLock var = none →
    last.space[var].readBuf ≠ last.space[var].writeBuf
  /-- No step modifies a buffer that readers follow. -/
  front_kept : ∀ label next, WriterStep last label next → ∀ var : Fin maxVariables,
    next.space[var].buffer last.space[var].readBuf =
      last.space[var].buffer last.space[var].readBuf
  /-- A step on one variable leaves the others alone. -/
  others_kept : ∀ label next, WriterStep last label next → ∀ var : Fin maxVariables,
    var ≠ label.var → next.space[var] = last.space[var] ∧ next.writeLock var = last.writeLock var
  /-- When all calls have returned, the last to take the lock has won. -/
  last_wins : (∀ caller, last.calls caller = .idle) → ∀ var : Fin maxVariables,
    getVariableData last.space var = .ok (lastTaken labels var)

theorem writers_doubleBuffered {memory : Varspace} {labels : List WriterLabel} {last : Writers}
    (run : Run WriterStep (.init memory) labels last) : DoubleBuffered labels last where
  apart var unheld := ((OrderlyAt.run run var).free unheld).1
  front_kept label next hstep var := by
    rcases eq_or_ne var label.var with rfl | distinct
    · cases hstep with
      | enter | acquire | release => rfl
      | @write caller var bytes phase after event value inside writes =>
          obtain ⟨settled, _⟩ := (OrderlyAt.run run var).settled inside
          rw [Writers.space_setCall, Writers.getElem_setVar_self]
          exact writes.front_kept settled
    · rw [(hstep.untouched distinct).space]
  others_kept label next hstep var distinct :=
    ⟨(hstep.untouched distinct).space, (hstep.untouched distinct).lock⟩
  last_wins returned var := by
    have orderly := OrderlyAt.run run var
    have unheld : last.writeLock var = none := by
      rw [Option.eq_none_iff_forall_ne_some]
      intro caller locked
      obtain ⟨bytes, phase, inside⟩ := orderly.held locked
      exact nomatch (returned caller).symm.trans inside
    rw [getVariableData_of_lt var.isLt]
    exact congrArg Except.ok (orderly.free unheld).2

/-- Two calls, on variables 3 and 5, that take their steps in turn. -/
theorem exists_inTurn_run : ∃ labels last,
    Run WriterStep (.init (Vector.replicate maxVariables zeroVariable)) labels last ∧
      last.calls 0 = .idle ∧ last.calls 1 = .idle ∧
      (∀ label ∈ labels, label.caller = 0 ∨ label.caller = 1) ∧
      lastTaken labels ⟨3, by decide⟩ = [7] ∧ lastTaken labels ⟨5, by decide⟩ = [8, 9] := by
  have fits : [(7 : UInt8)].length ≤ maxVarSizeBytes := by decide
  have fits' : [(8 : UInt8), 9].length ≤ maxVarSizeBytes := by decide
  have enters : WriterStep (.init (Vector.replicate maxVariables zeroVariable))
      ⟨0, ⟨3, by decide⟩, .enter [7]⟩ _ := .enter rfl fits
  have entered := (Run.single enters).tail
    (show WriterStep _ ⟨1, ⟨5, by decide⟩, .enter [8, 9]⟩ _ from .enter rfl fits')
  have locked := (entered.tail
    (show WriterStep _ ⟨0, ⟨3, by decide⟩, .acquire [7]⟩ _ from .acquire rfl rfl)).tail
    (show WriterStep _ ⟨1, ⟨5, by decide⟩, .acquire [8, 9]⟩ _ from .acquire rfl rfl)
  have filled := (locked.tail
    (show WriterStep _ ⟨0, ⟨3, by decide⟩, .write .fill⟩ _ from .write rfl (.fill fits))).tail
    (show WriterStep _ ⟨1, ⟨5, by decide⟩, .write .fill⟩ _ from .write rfl (.fill fits'))
  have measured := (filled.tail
    (show WriterStep _ ⟨0, ⟨3, by decide⟩, .write .storeLength⟩ _ from
      .write rfl (.storeLength fits))).tail
    (show WriterStep _ ⟨1, ⟨5, by decide⟩, .write .storeLength⟩ _ from
      .write rfl (.storeLength fits'))
  have retired := (measured.tail
    (show WriterStep _ ⟨0, ⟨3, by decide⟩, .write .loadRetired⟩ _ from
      .write rfl .loadRetired)).tail
    (show WriterStep _ ⟨1, ⟨5, by decide⟩, .write .loadRetired⟩ _ from .write rfl .loadRetired)
  have published := (retired.tail
    (show WriterStep _ ⟨0, ⟨3, by decide⟩, .write .publish⟩ _ from .write rfl .publish)).tail
    (show WriterStep _ ⟨1, ⟨5, by decide⟩, .write .publish⟩ _ from .write rfl .publish)
  have exchanged := (published.tail
    (show WriterStep _ ⟨0, ⟨3, by decide⟩, .write .exchange⟩ _ from .write rfl .exchange)).tail
    (show WriterStep _ ⟨1, ⟨5, by decide⟩, .write .exchange⟩ _ from .write rfl .exchange)
  have released := (exchanged.tail
    (show WriterStep _ ⟨0, ⟨3, by decide⟩, .release⟩ _ from .release rfl)).tail
    (show WriterStep _ ⟨1, ⟨5, by decide⟩, .release⟩ _ from .release rfl)
  refine ⟨_, _, released, rfl, rfl, ?_, rfl, rfl⟩
  simp only [List.forall_mem_append, List.forall_mem_singleton, true_or, or_true, and_self]

theorem writers_doubleBuffered_inTurn : ∃ labels last, DoubleBuffered labels last ∧
    (∀ caller, last.calls caller = .idle) ∧ lastTaken labels ⟨3, by decide⟩ = [7] ∧
      lastTaken labels ⟨5, by decide⟩ = [8, 9] := by
  obtain ⟨labels, last, run, first, second, callers, taken⟩ := exists_inTurn_run
  refine ⟨labels, last, writers_doubleBuffered run, fun caller => ?_, taken⟩
  rcases eq_or_ne caller 0 with rfl | notFirst
  · exact first
  rcases eq_or_ne caller 1 with rfl | notSecond
  · exact second
  exact calls_of_absent run fun label member same => (callers label member).elim
    (fun zero => notFirst (same.trans zero)) fun one => notSecond (same.trans one)

end NetworkCode.Kernel
