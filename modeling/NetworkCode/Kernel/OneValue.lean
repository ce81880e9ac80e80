import NetworkCode.Kernel.ConcurrentAccess

/-!
# What a reader of a variable can see

The read section follows `read_buf` three times.  A reader gets one value as
long as no publication between these loads changes the length and no writer
refills a buffer that the reader still uses.
-/

namespace NetworkCode.Kernel

open Library

namespace GetPhase

/-- The reader has yet to copy from the buffer. -/
def CopiesFrom (buffer : Fin 2) : GetPhase → Prop
  | .evaluating _ source _ _ => source = some buffer
  | _ => False

/-- The reader has yet to load the length of the buffer. -/
def Measures (buffer : Fin 2) : GetPhase → Prop
  | .evaluating _ _ counted count => counted = some buffer ∧ count = none
  | .dereferenced _ source => source = buffer
  | _ => False

/-- The reader is between its first and its last load of `read_buf`. -/
def Midway : GetPhase → Prop
  | .evaluating _ source counted _ => source ≠ none ∨ counted ≠ none
  | .copied _ => True
  | _ => False

end GetPhase

/-- No writer interferes with a reader in this step. -/
def Undisturbed (state : Concurrent) (label : Nat × AccessEvent) : Prop :=
  ∀ reader phase, state.calls reader = .get phase →
    match label.2 with
    | .write .fill => ¬ phase.CopiesFrom state.var.writeBuf
    | .write .storeLength => ¬ phase.Measures state.var.writeBuf
    | .write .publish => phase.Midway →
        (state.var.buffer state.var.writeBuf).length =
          (state.var.buffer state.var.readBuf).length
    | _ => True

/-- The label begins a call of `get_variable_data` by the reader. -/
def Opens (reader : Nat) (label : Nat × AccessEvent) : Prop :=
  ∃ out, label = (reader, .enterGet out)

/-- The variable held the value at some moment of the reader's latest call. -/
def HeldDuring (reader : Nat) (value : List UInt8) :
    Concurrent → List (Nat × AccessEvent) → Concurrent → Prop :=
  Since Access (Opens reader) fun state =>
    (state.calls reader).Reading ∧ state.var.value = value

/-- The initial value, or the complete data of one call of `set_variable_data`. -/
def Known (first : Concurrent) (labels : List (Nat × AccessEvent)) (value : List UInt8) : Prop :=
  value = first.var.value ∨ ∃ writer, (writer, .enterSet value) ∈ labels

/-- What the reader's latest call has returned is one value. -/
def ReturnsOneValue (first : Concurrent) (labels : List (Nat × AccessEvent))
    (last : Concurrent) (reader : Nat) : Prop :=
  ∀ out outLength, last.calls reader = .got out outLength →
    ∃ value, HeldDuring reader value first labels last ∧ Known first labels value ∧
      outLength = value.length ∧ out.take outLength = value

/-! ## The write lock -/

/-- What the locked section keeps of the two buffers. -/
def SetPhase.Settled (var : Variable) (bytes : List UInt8) : SetPhase → Prop
  | .locked | .exchanged => var.readBuf ≠ var.writeBuf
  | .filled => var.readBuf ≠ var.writeBuf ∧
      (var.buffer var.writeBuf).data.take bytes.length = bytes
  | .measured => var.readBuf ≠ var.writeBuf ∧ (var.buffer var.writeBuf).value = bytes
  | .retired tmp => var.readBuf ≠ var.writeBuf ∧ (var.buffer var.writeBuf).value = bytes ∧
      tmp = var.readBuf
  | .published tmp => tmp ≠ var.readBuf

theorem Writes.settled {bytes : List UInt8} {var next : Variable} {phase after : SetPhase}
    {event : SetEvent} (writes : Writes bytes var phase event next after)
    (settled : phase.Settled var bytes) : after.Settled next bytes := by
  cases writes with
  | fill fits =>
      refine ⟨settled, ?_⟩
      rw [Variable.writeBuf_setBuffer, Variable.buffer_setBuffer_self]
      exact VarData.take_fill _ _ fits
  | storeLength fits =>
      refine ⟨settled.1, ?_⟩
      rw [Variable.writeBuf_setBuffer, Variable.buffer_setBuffer_self, VarData.value_resize]
      exact settled.2
  | loadRetired => exact ⟨settled.1, settled.2, rfl⟩
  | publish =>
      obtain ⟨apart, _, rfl⟩ := settled
      exact apart
  | exchange => exact fun same => settled same.symm

/-- One thread holds the lock, and apart from its two pointer stores the two
pointers differ. -/
structure Locking (state : Concurrent) : Prop where
  holder : ∀ {thread bytes phase}, state.calls thread = .set bytes phase →
    state.writeLock = some thread
  settled : ∀ {thread bytes phase}, state.calls thread = .set bytes phase →
    phase.Settled state.var bytes
  apart : state.writeLock = none → state.var.readBuf ≠ state.var.writeBuf

namespace Locking

variable {state next : Concurrent} {label : Nat × AccessEvent}

/-- No two threads are in the locked section. -/
theorem unique (locking : Locking state) {thread other : Nat} {bytes bytes' : List UInt8}
    {phase phase' : SetPhase} (one : state.calls thread = .set bytes phase)
    (two : state.calls other = .set bytes' phase') : other = thread := by
  have held := (locking.holder one).symm.trans (locking.holder two)
  exact (Option.some.inj held).symm

/-- A thread moves from one place outside the locked section to another. -/
theorem setCall (locking : Locking state) (thread : Nat) {call : Call}
    (outside : ∀ bytes phase, call ≠ .set bytes phase) : Locking (state.setCall thread call) where
  holder := by
    intro other bytes phase inside
    rcases Concurrent.calls_setCall_cases inside with ⟨_, rfl⟩ | ⟨_, inside⟩
    · exact absurd rfl (outside bytes phase)
    · exact locking.holder inside
  settled := by
    intro other bytes phase inside
    rcases Concurrent.calls_setCall_cases inside with ⟨_, rfl⟩ | ⟨_, inside⟩
    · exact absurd rfl (outside bytes phase)
    · exact locking.settled inside
  apart := locking.apart

theorem leaveSection (locking : Locking state) (thread : Nat) :
    Locking (state.leaveSection thread) :=
  ⟨locking.holder, locking.settled, locking.apart⟩

theorem acquire (locking : Locking state) (thread : Nat) (bytes : List UInt8)
    (unheld : state.writeLock = none) :
    Locking ({ state with writeLock := some thread }.setCall thread (.set bytes .locked)) where
  holder := by
    intro other bytes' phase inside
    rcases Concurrent.calls_setCall_cases inside with ⟨rfl, _⟩ | ⟨_, inside⟩
    · rfl
    · exact absurd ((locking.holder inside).symm.trans unheld) (Option.some_ne_none _)
  settled := by
    intro other bytes' phase inside
    rcases Concurrent.calls_setCall_cases inside with ⟨rfl, same⟩ | ⟨_, inside⟩
    · cases same
      exact locking.apart unheld
    · exact absurd ((locking.holder inside).symm.trans unheld) (Option.some_ne_none _)
  apart := nofun

theorem write (locking : Locking state) {thread : Nat} {bytes : List UInt8}
    {phase after : SetPhase} {event : SetEvent} {var : Variable}
    (inside : state.calls thread = .set bytes phase)
    (writes : Writes bytes state.var phase event var after) :
    Locking ({ state with var := var }.setCall thread (.set bytes after)) where
  holder := by
    intro other bytes' phase' other_inside
    rcases Concurrent.calls_setCall_cases other_inside with ⟨rfl, _⟩ | ⟨_, other_inside⟩
    · exact locking.holder inside
    · exact locking.holder other_inside
  settled := by
    intro other bytes' phase' other_inside
    rcases Concurrent.calls_setCall_cases other_inside with ⟨rfl, same⟩ | ⟨distinct, other_inside⟩
    · cases same
      exact writes.settled (locking.settled inside)
    · exact absurd (locking.unique inside other_inside) distinct
  apart := by
    intro unheld
    exact absurd ((locking.holder inside).symm.trans unheld) (Option.some_ne_none _)

theorem release (locking : Locking state) {thread : Nat} {bytes : List UInt8}
    (inside : state.calls thread = .set bytes .exchanged) :
    Locking ({ state with writeLock := none }.setCall thread .unlocked) where
  holder := by
    intro other bytes' phase other_inside
    rcases Concurrent.calls_setCall_cases other_inside with ⟨_, same⟩ | ⟨distinct, other_inside⟩
    · cases same
    · exact absurd (locking.unique inside other_inside) distinct
  settled := by
    intro other bytes' phase other_inside
    rcases Concurrent.calls_setCall_cases other_inside with ⟨_, same⟩ | ⟨distinct, other_inside⟩
    · cases same
    · exact absurd (locking.unique inside other_inside) distinct
  apart := fun _ => locking.settled inside

theorem step (locking : Locking state) (hstep : Access state label next) : Locking next := by
  cases hstep with
  | enterGet free room => exact locking.setCall _ nofun
  | read inside reads => exact locking.setCall _ nofun
  | leaveGet inside =>
      exact (locking.leaveSection _).setCall _ nofun
  | enterSet free fits => exact locking.setCall _ nofun
  | acquire waits unheld => exact locking.acquire _ _ unheld
  | write inside writes => exact locking.write inside writes
  | release inside => exact locking.release inside
  | synchronize outside => exact locking.setCall _ nofun
  | leaveSet waits elapsed => exact locking.setCall _ nofun

theorem run {first last : Concurrent} {labels : List (Nat × AccessEvent)}
    (run : Run Access first labels last) (quiescent : Quiescent first) : Locking last := by
  refine run.invariant Locking (fun _ _ _ locking hstep => locking.step hstep) ⟨?_, ?_, ?_⟩
  · intro thread bytes phase inside
    cases (quiescent.calls thread).symm.trans inside
  · intro thread bytes phase inside
    cases (quiescent.calls thread).symm.trans inside
  · exact fun _ => quiescent.apart

end Locking

/-! ## Where the values come from -/

/-- The data of every writer, and the value, are known. -/
structure Origin (first : Concurrent) (labels : List (Nat × AccessEvent)) (state : Concurrent) :
    Prop where
  value : Known first labels state.var.value
  waiting : ∀ {thread bytes}, state.calls thread = .waiting bytes →
    (thread, .enterSet bytes) ∈ labels
  writing : ∀ {thread bytes phase}, state.calls thread = .set bytes phase →
    (thread, .enterSet bytes) ∈ labels

theorem Known.append {first : Concurrent} {labels more : List (Nat × AccessEvent)}
    {value : List UInt8} (known : Known first labels value) :
    Known first (labels ++ more) value := by
  rcases known with initial | ⟨writer, entered⟩
  · exact .inl initial
  · exact .inr ⟨writer, List.mem_append_left more entered⟩

/-- A step of a writer keeps the value or publishes the writer's data. -/
theorem Writes.value {bytes : List UInt8} {var next : Variable} {phase after : SetPhase}
    {event : SetEvent} (writes : Writes bytes var phase event next after)
    (settled : phase.Settled var bytes) : next.value = var.value ∨ next.value = bytes := by
  cases writes with
  | fill fits => exact .inl (Variable.value_setBuffer_of_ne settled)
  | storeLength fits => exact .inl (Variable.value_setBuffer_of_ne settled.1)
  | loadRetired => exact .inl rfl
  | publish => exact .inr settled.2.1
  | exchange => exact .inl rfl

namespace Origin

variable {first state next : Concurrent} {labels : List (Nat × AccessEvent)}
  {label : Nat × AccessEvent}

/-- A thread moves on, with data that it entered with. -/
theorem move (origin : Origin first labels state) {thread : Nat} {call : Call} {var : Variable}
    (writeLock : Option Nat) (sections : Nat → Nat)
    (known : Known first (labels ++ [label]) var.value)
    (waits : ∀ bytes, call = .waiting bytes → (thread, .enterSet bytes) ∈ labels ++ [label])
    (writes : ∀ bytes phase, call = .set bytes phase →
      (thread, .enterSet bytes) ∈ labels ++ [label]) :
    Origin first (labels ++ [label])
      ((Concurrent.mk var writeLock sections state.calls).setCall thread call) where
  value := known
  waiting := by
    intro other bytes doing
    rcases Concurrent.calls_setCall_cases doing with ⟨rfl, same⟩ | ⟨_, doing⟩
    · exact waits bytes same
    · exact List.mem_append_left _ (origin.waiting doing)
  writing := by
    intro other bytes phase doing
    rcases Concurrent.calls_setCall_cases doing with ⟨rfl, same⟩ | ⟨_, doing⟩
    · exact writes bytes phase same
    · exact List.mem_append_left _ (origin.writing doing)

theorem step (origin : Origin first labels state) (locking : Locking state)
    (hstep : Access state label next) : Origin first (labels ++ [label]) next := by
  have known : Known first (labels ++ [label]) state.var.value := origin.value.append
  cases hstep with
  | enterGet free room => exact origin.move _ _ known nofun nofun
  | read inside reads => exact origin.move _ _ known nofun nofun
  | leaveGet inside => exact origin.move _ _ known nofun nofun
  | enterSet free fits =>
      refine origin.move _ _ known ?_ nofun
      intro bytes same
      cases same
      exact List.mem_append_right _ (List.mem_singleton_self _)
  | acquire waits unheld =>
      refine origin.move _ _ known nofun ?_
      intro bytes phase same
      cases same
      exact List.mem_append_left _ (origin.waiting waits)
  | write inside writes =>
      have entered := origin.writing inside
      refine origin.move _ _ ?_ nofun ?_
      · rcases writes.value (locking.settled inside) with same | published
        · rw [same]
          exact known
        · rw [published]
          exact .inr ⟨_, List.mem_append_left _ entered⟩
      · intro bytes phase same
        cases same
        exact List.mem_append_left _ entered
  | release inside => exact origin.move _ _ known nofun nofun
  | synchronize outside => exact origin.move _ _ known nofun nofun
  | leaveSet waits elapsed => exact origin.move _ _ known nofun nofun

theorem run {last : Concurrent} (run : Run Access first labels last)
    (quiescent : Quiescent first) : Origin first labels last := by
  refine run.history (Origin first) ⟨.inl rfl, ?_, ?_⟩ ?_
  · intro thread bytes doing
    cases (quiescent.calls thread).symm.trans doing
  · intro thread bytes phase doing
    cases (quiescent.calls thread).symm.trans doing
  · intro earlier middle label next hprefix origin hstep
    exact origin.step (.run hprefix quiescent) hstep

end Origin

/-! ## What the reader has so far -/

/-- What the reader has taken belongs to one value that was held, and what it
has yet to take agrees with it in length. -/
def GetPhase.Coherent (held : List UInt8 → Prop) (var : Variable) : GetPhase → Prop
  | .evaluating _ source counted count =>
      (∀ buffer, source = some buffer →
        held ((var.buffer buffer).data.take var.value.length)) ∧
      (∀ buffer, counted = some buffer → count = none →
        (var.buffer buffer).length = var.value.length) ∧
      (∀ copied, count = some copied → copied = var.value.length ∧ counted ≠ none)
  | .copied out => ∃ value, held value ∧ out.take value.length = value ∧
      value.length = var.value.length
  | .dereferenced out buffer => ∃ value, held value ∧ out.take value.length = value ∧
      (var.buffer buffer).length = value.length
  | .measured out outLength => ∃ value, held value ∧ out.take value.length = value ∧
      outLength = value.length

namespace GetPhase.Coherent

variable {held later : List UInt8 → Prop} {var next : Variable} {phase after : GetPhase}

theorem mono (coherent : phase.Coherent held var) (sub : ∀ value, held value → later value) :
    phase.Coherent later var := by
  cases phase with
  | evaluating out source counted count =>
      obtain ⟨source, counted, count⟩ := coherent
      exact ⟨fun buffer same => sub _ (source buffer same), counted, count⟩
  | copied out | dereferenced out buffer | measured out outLength =>
      obtain ⟨value, was, rest⟩ := coherent
      exact ⟨value, sub value was, rest⟩

/-- The reader's own step, while the variable holds its value. -/
theorem read (coherent : phase.Coherent held var) (now : held var.value) {event : GetEvent}
    (reads : Reads var phase event after) : after.Coherent held var := by
  cases reads with
  | loadSource =>
      refine ⟨?_, coherent.2⟩
      intro buffer same
      cases same
      rw [Variable.value_eq, VarData.value_length]
      exact now
  | loadCounted =>
      refine ⟨coherent.1, ?_, nofun⟩
      intro buffer same _
      cases same
      rw [Variable.value_eq, VarData.value_length]
  | loadCount =>
      refine ⟨coherent.1, nofun, ?_⟩
      intro copied same
      cases same
      exact ⟨coherent.2.1 _ rfl rfl, Option.some_ne_none _⟩
  | @copy out source counted count =>
      obtain ⟨sources, _, counts⟩ := coherent
      have room : var.value.length ≤ (var.buffer source).data.length := by
        rw [(var.buffer source).data_length]
        exact var.value_length_le
      rw [(counts count rfl).1]
      refine ⟨_, sources source rfl, Bytes.take_overwrite_zero _ _, ?_⟩
      rw [List.length_take, Nat.min_eq_left room]
  | dereference =>
      obtain ⟨value, was, copied, same⟩ := coherent
      refine ⟨value, was, copied, ?_⟩
      rw [same, Variable.value_eq, VarData.value_length]
  | measure => exact coherent

end GetPhase.Coherent

/-- What a step of a writer leaves to a reader. -/
structure Keeps (var next : Variable) (phase : GetPhase) : Prop where
  data : ∀ {buffer}, phase.CopiesFrom buffer → (next.buffer buffer).data = (var.buffer buffer).data
  length : ∀ {buffer}, phase.Measures buffer →
    (next.buffer buffer).length = (var.buffer buffer).length
  value : phase.Midway → next.value.length = var.value.length

theorem Keeps.refl (var : Variable) (phase : GetPhase) : Keeps var var phase :=
  ⟨fun _ => rfl, fun _ => rfl, fun _ => rfl⟩

/-- An undisturbed step of a writer keeps what the reader still needs. -/
theorem Writes.keeps {state : Concurrent} {bytes : List UInt8} {next : Variable}
    {phase after : SetPhase} {event : SetEvent} {writer reader : Nat} {reading : GetPhase}
    (writes : Writes bytes state.var phase event next after)
    (settled : phase.Settled state.var bytes)
    (undisturbed : Undisturbed state (writer, .write event))
    (inside : state.calls reader = .get reading) : Keeps state.var next reading := by
  have apartFrom := undisturbed reader reading inside
  cases writes with
  | fill fits =>
      refine ⟨?_, ?_, ?_⟩
      · intro buffer copies
        have distinct : buffer ≠ state.var.writeBuf := by
          rintro rfl
          exact apartFrom copies
        rw [Variable.buffer_setBuffer_of_ne distinct]
      · intro buffer _
        rcases eq_or_ne buffer state.var.writeBuf with rfl | distinct
        · rw [Variable.buffer_setBuffer_self, VarData.length_fill]
        · rw [Variable.buffer_setBuffer_of_ne distinct]
      · intro _
        rw [Variable.value_setBuffer_of_ne settled]
  | storeLength fits =>
      refine ⟨?_, ?_, ?_⟩
      · intro buffer _
        rcases eq_or_ne buffer state.var.writeBuf with rfl | distinct
        · rw [Variable.buffer_setBuffer_self, VarData.data_resize]
        · rw [Variable.buffer_setBuffer_of_ne distinct]
      · intro buffer measures
        have distinct : buffer ≠ state.var.writeBuf := by
          rintro rfl
          exact apartFrom measures
        rw [Variable.buffer_setBuffer_of_ne distinct]
      · intro _
        rw [Variable.value_setBuffer_of_ne settled.1]
  | loadRetired => exact .refl _ _
  | publish =>
      refine ⟨fun _ => rfl, fun _ => rfl, ?_⟩
      intro midway
      rw [Variable.value_eq, Variable.value_eq, VarData.value_length, VarData.value_length]
      exact apartFrom midway
  | exchange => exact ⟨fun _ => rfl, fun _ => rfl, fun _ => rfl⟩

theorem GetPhase.Coherent.keep {held : List UInt8 → Prop} {var next : Variable}
    {phase : GetPhase} (coherent : phase.Coherent held var) (keeps : Keeps var next phase) :
    phase.Coherent held next := by
  cases phase with
  | evaluating out source counted count =>
      obtain ⟨sources, countedFrom, counts⟩ := coherent
      refine ⟨?_, ?_, ?_⟩
      · intro buffer same
        rw [keeps.data same, keeps.value (.inl (same ▸ Option.some_ne_none _))]
        exact sources buffer same
      · intro buffer same open_count
        rw [keeps.length ⟨same, open_count⟩, keeps.value (.inr (same ▸ Option.some_ne_none _))]
        exact countedFrom buffer same open_count
      · intro copied same
        rw [keeps.value (.inr (counts copied same).2)]
        exact counts copied same
  | copied out =>
      obtain ⟨value, was, copied, same⟩ := coherent
      exact ⟨value, was, copied, same.trans (keeps.value trivial).symm⟩
  | dereferenced out buffer =>
      obtain ⟨value, was, copied, same⟩ := coherent
      exact ⟨value, was, copied, (keeps.length rfl).trans same⟩
  | measured out outLength => exact coherent

/-! ## Every run -/

/-- What the reader's call has so far, or has returned. -/
structure Served (first : Concurrent) (labels : List (Nat × AccessEvent)) (state : Concurrent)
    (reader : Nat) : Prop where
  reading : ∀ {phase}, state.calls reader = .get phase →
    phase.Coherent (HeldDuring reader · first labels state) state.var
  got : ∀ {out outLength}, state.calls reader = .got out outLength →
    ∃ value, HeldDuring reader value first labels state ∧ out.take value.length = value ∧
      outLength = value.length

namespace Served

variable {first state next : Concurrent} {labels later : List (Nat × AccessEvent)}
  {label : Nat × AccessEvent} {reader : Nat}

/-- The reader is at a place in its call. -/
theorem at_call {call : Call} (now : next.calls reader = call)
    (reading : ∀ phase, call = .get phase →
      phase.Coherent (HeldDuring reader · first later next) next.var)
    (got : ∀ out outLength, call = .got out outLength →
      ∃ value, HeldDuring reader value first later next ∧ out.take value.length = value ∧
        outLength = value.length) : Served first later next reader where
  reading := by
    intro phase inside
    exact reading phase (now.symm.trans inside)
  got := by
    intro out outLength returned
    exact got out outLength (now.symm.trans returned)

/-- The reader does not move, and the writers keep what it needs. -/
theorem frame (served : Served first labels state reader)
    (sub : ∀ value, HeldDuring reader value first labels state →
      HeldDuring reader value first later next)
    (same : next.calls reader = state.calls reader)
    (keeps : ∀ phase, state.calls reader = .get phase → Keeps state.var next.var phase) :
    Served first later next reader where
  reading := by
    intro phase inside
    rw [same] at inside
    exact ((served.reading inside).mono sub).keep (keeps phase inside)
  got := by
    intro out outLength returned
    rw [same] at returned
    obtain ⟨value, was, rest⟩ := served.got returned
    exact ⟨value, sub value was, rest⟩

section Moves

variable {thread : Nat} {call : Call} {writeLock : Option Nat} {sections : Nat → Nat}

/-- Another thread moves and leaves the variable. -/
theorem beside (served : Served first labels state reader) (distinct : reader ≠ thread)
    (sub : ∀ value, HeldDuring reader value first labels state → HeldDuring reader value first
      later ((Concurrent.mk state.var writeLock sections state.calls).setCall thread call)) :
    Served first later
      ((Concurrent.mk state.var writeLock sections state.calls).setCall thread call) reader :=
  served.frame sub (Concurrent.calls_setCall_of_ne distinct) fun _ _ => .refl _ _

/-- Some thread moves to a place that is not in a call of a reader. -/
theorem move (served : Served first labels state reader) (notGet : ∀ phase, call ≠ .get phase)
    (notGot : ∀ out outLength, call ≠ .got out outLength)
    (sub : ∀ value, HeldDuring reader value first labels state → HeldDuring reader value first
      later ((Concurrent.mk state.var writeLock sections state.calls).setCall thread call)) :
    Served first later
      ((Concurrent.mk state.var writeLock sections state.calls).setCall thread call) reader := by
  rcases eq_or_ne reader thread with rfl | distinct
  · exact .at_call Concurrent.calls_setCall_self (fun phase same => absurd same (notGet phase))
      fun out outLength same => absurd same (notGot out outLength)
  · exact served.beside distinct sub

end Moves

theorem step (served : Served first labels state reader) (run : Run Access first labels state)
    (locking : Locking state) (hstep : Access state label next)
    (undisturbed : Undisturbed state label) : Served first (labels ++ [label]) next reader := by
  have sub (same : ¬ Opens reader label) (value : List UInt8)
      (was : HeldDuring reader value first labels state) :
      HeldDuring reader value first (labels ++ [label]) next := was.later hstep same
  cases hstep with
  | @enterGet thread out free room =>
      rcases eq_or_ne reader thread with rfl | distinct
      · refine .at_call Concurrent.calls_setCall_self ?_ nofun
        intro phase same
        cases same
        exact ⟨nofun, nofun, nofun⟩
      · refine served.beside distinct (sub ?_)
        rintro ⟨_, same⟩
        exact distinct (congrArg Prod.fst same).symm
  | @read thread phase after event inside reads =>
      have unopened : ¬ Opens reader (thread, .read event) := by
        rintro ⟨_, same⟩
        cases same
      rcases eq_or_ne reader thread with rfl | distinct
      · have now : HeldDuring reader state.var.value first labels state := by
          refine .now run ⟨?_, rfl⟩
          rw [inside]
          trivial
        refine .at_call Concurrent.calls_setCall_self ?_ nofun
        intro phase moved
        cases moved
        exact ((served.reading inside).read now reads).mono (sub unopened)
      · exact served.beside distinct (sub unopened)
  | @leaveGet thread out outLength inside =>
      have unopened : ¬ Opens reader (thread, .leaveGet) := by
        rintro ⟨_, same⟩
        cases same
      rcases eq_or_ne reader thread with rfl | distinct
      · refine .at_call Concurrent.calls_setCall_self nofun ?_
        intro out outLength returned
        cases returned
        obtain ⟨value, was, rest⟩ := served.reading inside
        exact ⟨value, sub unopened value was, rest⟩
      · exact served.beside distinct (sub unopened)
  | @write thread bytes phase after event var inside writes =>
      rcases eq_or_ne reader thread with rfl | distinct
      · exact .at_call Concurrent.calls_setCall_self nofun nofun
      · refine served.frame (sub ?_) (Concurrent.calls_setCall_of_ne distinct) ?_
        · rintro ⟨_, same⟩
          cases same
        · intro phase reading
          exact writes.keeps (locking.settled inside) undisturbed reading
  | enterSet free fits | acquire waits unheld | release inside | synchronize outside
  | leaveSet waits elapsed =>
      refine served.move nofun nofun (sub ?_)
      rintro ⟨_, same⟩
      cases same

theorem run {last : Concurrent} (run : Run (Meeting Access Undisturbed) first labels last)
    (quiescent : Quiescent first) : Served first labels last reader := by
  have idle : Served first [] first reader := .at_call (quiescent.calls reader) nofun nofun
  refine run.history (Served first · · reader) idle ?_
  intro earlier middle label next hprefix served hstep
  exact served.step hprefix.of_meeting (.run hprefix.of_meeting quiescent) hstep.2 hstep.1

end Served

/-- In every run in which no writer interferes with a reader, a reader gets
one value that the variable held during the call. -/
theorem get_returns_one_value {first last : Concurrent} {labels : List (Nat × AccessEvent)}
    (quiescent : Quiescent first) (run : Run (Meeting Access Undisturbed) first labels last)
    (reader : Nat) : ReturnsOneValue first labels last reader := by
  intro out outLength returned
  obtain ⟨value, held, copied, rfl⟩ := (Served.run run quiescent).got returned
  obtain ⟨before, after, inside, rfl, hbefore, _, _, ⟨_, was⟩, origin⟩ :=
    Since.enrich (Origin first) held fun _ hbefore => .run hbefore quiescent
  refine ⟨value, held, ?_, rfl, copied⟩
  rw [← was]
  exact origin.value.append

theorem undisturbed_of_read {state : Concurrent} {label : Nat × AccessEvent}
    (reads : ∀ event, label.2 ≠ .write event) : Undisturbed state label := by
  obtain ⟨thread, event⟩ := label
  intro reader phase _
  cases event with
  | write event => exact absurd rfl (reads event)
  | enterGet | read | leaveGet | enterSet | acquire | release | synchronize | leaveSet => trivial

theorem meeting_of_read {state next : Concurrent} {label : Nat × AccessEvent}
    (hstep : Access state label next) (reads : ∀ event, label.2 ≠ .write event) :
    Meeting Access Undisturbed state label next :=
  ⟨undisturbed_of_read reads, hstep⟩

/-! ### A reader and a writer -/

/-- A reader and a writer of a variable, and no one else. -/
def beside (var : Variable) (writeLock : Option Nat) (reading writing : Call) : Concurrent where
  var := var
  writeLock := writeLock
  sections := fun _ => 0
  calls := fun thread => if thread = 0 then reading else if thread = 1 then writing else .idle

section Beside

variable {var : Variable} {writeLock : Option Nat} {reading writing call : Call}

theorem beside_setReading :
    (beside var writeLock reading writing).setCall 0 call = beside var writeLock call writing := by
  unfold beside Concurrent.setCall
  congr
  funext thread
  rcases eq_or_ne thread 0 with rfl | other
  · rw [Function.update_self, if_pos rfl]
  · rw [Function.update_of_ne other, if_neg other]
    exact if_neg other

theorem beside_setWriting :
    (beside var writeLock reading writing).setCall 1 call = beside var writeLock reading call := by
  unfold beside Concurrent.setCall
  congr
  funext thread
  rcases eq_or_ne thread 1 with rfl | other
  · rw [Function.update_self, if_neg Nat.one_ne_zero, if_pos rfl]
  · rw [Function.update_of_ne other, if_neg other]
    dsimp only
    rw [if_neg other]

theorem beside_read {phase next : GetPhase} {event : GetEvent}
    (reads : Reads var phase event next) :
    Meeting Access Undisturbed (beside var writeLock (.get phase) writing) (0, .read event)
      (beside var writeLock (.get next) writing) := by
  have moved : Access (beside var writeLock (.get phase) writing) (0, .read event) _ :=
    .read rfl reads
  rw [beside_setReading] at moved
  exact meeting_of_read moved nofun

theorem beside_write {bytes : List UInt8} {phase next : SetPhase} {event : SetEvent}
    {after : Variable} (writes : Writes bytes var phase event after next)
    (undisturbed : Undisturbed (beside var writeLock reading (.set bytes phase))
      (1, .write event)) :
    Meeting Access Undisturbed (beside var writeLock reading (.set bytes phase))
      (1, .write event) (beside after writeLock reading (.set bytes next)) := by
  have moved : Access (beside var writeLock reading (.set bytes phase)) (1, .write event) _ :=
    .write rfl writes
  have again : Concurrent.setCall
      { beside var writeLock reading (.set bytes phase) with var := after } 1 (.set bytes next) =
      beside after writeLock reading (.set bytes next) := beside_setWriting
  rw [again] at moved
  exact ⟨undisturbed, moved⟩

/-- Nobody else reads. -/
theorem beside_reader {reads found : GetPhase} {bytes : List UInt8} {phase : SetPhase}
    {reader : Nat}
    (inside : (beside var writeLock (.get reads) (.set bytes phase)).calls reader = .get found) :
    found = reads := by
  simp only [beside] at inside
  split at inside
  · cases inside
    rfl
  · split at inside <;> cases inside

/-- The writer fills the other buffer, stores its length and publishes it while
the reader is on its way, which keeps the old value if the lengths agree. -/
theorem exists_overlap_run (apart : var.readBuf ≠ var.writeBuf) {bytes out : List UInt8}
    (fits : bytes.length ≤ maxVarSizeBytes) (same : bytes.length = var.value.length)
    (room : maxVarSizeBytes ≤ out.length) :
    ∃ labels last, Run (Meeting Access Undisturbed) (beside var none .idle .idle) labels last ∧
      last.calls 0 = .got (Bytes.overwrite out 0 var.value) bytes.length ∧
      last.var.value = bytes := by
  have front : (var.prepare bytes fits).buffer var.readBuf = var.buffer var.readBuf :=
    Variable.buffer_prepare_of_ne apart
  have back : ((var.prepare bytes fits).buffer var.writeBuf).value = bytes :=
    Variable.value_buffer_prepare
  have backLength : ((var.prepare bytes fits).buffer var.writeBuf).length = bytes.length := by
    rw [← VarData.value_length, back]
  have opened : Access (beside var none .idle .idle) (0, .enterGet out) _ := .enterGet trivial room
  have asked : Access (beside var none (.get (.evaluating out none none none)) .idle)
      (1, .enterSet bytes) _ := .enterSet trivial fits
  have locked : Access (beside var none (.get (.evaluating out none none none)) (.waiting bytes))
      (1, .acquire) _ := .acquire rfl rfl
  have again : Concurrent.setCall { beside var none (.get (.evaluating out none none none))
      (.waiting bytes) with writeLock := some 1 } 1 (.set bytes .locked) =
      beside var (some 1) (.get (.evaluating out none none none)) (.set bytes .locked) :=
    beside_setWriting
  rw [beside_setReading] at opened
  rw [beside_setWriting] at asked
  rw [again] at locked
  have run : Run (Meeting Access Undisturbed) (beside var none .idle .idle) _ _ :=
    ((Run.single (meeting_of_read opened nofun)).tail (meeting_of_read asked nofun)).tail
      (meeting_of_read locked nofun)
  have sourced := run.tail (beside_read .loadSource)
  have filled := sourced.tail (beside_write (.fill fits) fun reader found inside => by
    rw [beside_reader inside]
    exact fun same => apart (Option.some.inj same))
  have counted := filled.tail (beside_read .loadCounted)
  have stored := counted.tail (beside_write (.storeLength fits) fun reader found inside => by
    rw [beside_reader inside]
    exact fun same => apart (Option.some.inj same.1))
  have measured := stored.tail (beside_read .loadCount)
  have retired := measured.tail (beside_write .loadRetired fun _ _ _ => trivial)
  have copied := retired.tail (beside_read .copy)
  have published := copied.tail (beside_write .publish fun reader found inside _ => ?_)
  · have dereferenced := published.tail (beside_read .dereference)
    have taken := dereferenced.tail (beside_read .measure)
    have left := taken.tail (meeting_of_read (show Access _ (0, .leaveGet) _ from .leaveGet rfl)
      nofun)
    refine ⟨_, _, left, ?_, back⟩
    rw [Concurrent.calls_setCall_self]
    change Call.got (Bytes.overwrite out 0 (((var.prepare bytes fits).buffer var.readBuf).data.take
      ((var.prepare bytes fits).buffer var.readBuf).length))
        ((var.prepare bytes fits).buffer var.writeBuf).length = _
    rw [front, backLength]
    rfl
  · change ((var.prepare bytes fits).buffer var.writeBuf).length =
      ((var.prepare bytes fits).buffer var.readBuf).length
    rw [front, backLength, same, Variable.value_eq, VarData.value_length]

end Beside

/-- A variable whose value is a seven. -/
def sevenVariable : Variable :=
  { zeroVariable.init.prepare [7] (Nat.le_of_ble_eq_true rfl) with
    readBuf := ⟨1, Nat.one_lt_two⟩
    writeBuf := ⟨0, Nat.two_pos⟩ }

theorem sevenVariable_value : sevenVariable.value = [7] :=
  (Variable.value_buffer_prepare : ((zeroVariable.init.prepare [7] (by decide)).buffer
    zeroVariable.init.writeBuf).value = [7])

/-- A nine is filled in, measured and published while the seven is read. -/
theorem get_returns_one_value_overlapped :
    ∃ labels last, ReturnsOneValue (beside sevenVariable none .idle .idle) labels last 0 ∧
      (∃ out, out.take 1 = [7] ∧ last.calls 0 = .got out 1) ∧ last.var.value = [9] := by
  have room : maxVarSizeBytes ≤ (List.replicate maxVarSizeBytes (1 : UInt8)).length := by simp
  have apart : sevenVariable.readBuf ≠ sevenVariable.writeBuf := by decide
  have same : [(9 : UInt8)].length = sevenVariable.value.length := by rw [sevenVariable_value]; rfl
  obtain ⟨labels, last, run, returned, published⟩ := exists_overlap_run apart (by decide) same room
  have quiescent : Quiescent (beside sevenVariable none .idle .idle) := by
    refine ⟨fun thread => ?_, rfl, apart⟩
    simp only [beside, ite_self]
  refine ⟨labels, last, get_returns_one_value quiescent run 0, ⟨_, ?_, returned⟩, published⟩
  rw [sevenVariable_value]
  rfl

/-- A publication between the first two loads: the old bytes with the new
length, which the variable never held. -/
theorem get_mixes_two_values :
    ∃ labels last, Run Access freshVariable labels last ∧
      ¬ ReturnsOneValue freshVariable labels last 0 := by
  have room : maxVarSizeBytes ≤ (List.replicate maxVarSizeBytes (1 : UInt8)).length := by simp
  have fits : [(7 : UInt8)].length ≤ maxVarSizeBytes := by decide
  let loaded := freshVariable.setCall 0 (.get (.evaluating (List.replicate maxVarSizeBytes 1)
    (some freshVariable.var.readBuf) none none))
  have entered : Run Access freshVariable [(0, _)] _ := .single (.enterGet trivial room)
  have sourced : Run Access freshVariable _ loaded := entered.tail (.read_again .loadSource)
  obtain ⟨writing, middle, published, data, written, _, others⟩ :=
    exists_publish_run loaded 1 trivial rfl fits
  have inside := (others 0 Nat.zero_ne_one).trans Concurrent.calls_setCall_self
  obtain ⟨reading, last, rest, reads, _, returned⟩ := exists_rest_run inside
  refine ⟨_, last, (sourced.trans published).trans rest, ?_⟩
  intro oneValue
  obtain ⟨value, _, known, _, bytes⟩ := oneValue _ _ returned
  have length : middle.var.value = [7] := by
    rw [written]
    exact Variable.value_buffer_prepare
  have unchanged : middle.var.buffer freshVariable.var.readBuf = zeroVarData := by
    rw [written]
    exact (Variable.buffer_prepare_of_ne zeroVariable.init_apart).trans (Variable.buffer_init _)
  rw [length, unchanged] at bytes
  have stale : value = [0] := bytes.symm.trans rfl
  rcases known with initial | ⟨writer, entered⟩
  · rw [stale, freshVariable, Variable.init_value] at initial
    cases initial
  · rcases List.mem_append.mp entered with earlier | later
    · rcases List.mem_append.mp earlier with opening | writes
      · simp at opening
      · have same := data _ writes value rfl
        rw [stale] at same
        cases same
    · rcases reads _ later with ⟨_, read⟩ | left
      · cases read
      · cases left

end NetworkCode.Kernel
