import NetworkCode.Kernel.OperandSafety
import NetworkCode.Kernel.ProgramCounter
import NetworkCode.Kernel.Resumption

/-!
# Programs that keep their futures in bounds

A certificate says, for each place of a program, how many futures may be
pending there.  Where every instruction leads on to places that allow what it
leaves, no FUTURE finds the queue full and no HALT finds it empty, however the
guards turn out and in whatever order the futures expire.  The thread then
returns at END_OF_PROGRAM, at a SEND that fails, or not at all.
-/

namespace NetworkCode.Kernel

open Library Library.Checked

variable {long : LongWidth}

/-! ## Why the thread returns -/

/-- Why an iteration makes the thread return, and what the thread returns. -/
inductive ExitCause (interpreter : Interpreter) (futures : Futures) (instr : Instr) :
    ProgramExit → Prop where
  | ends (decoded : instr.opcode? = some .endOfProgram) :
      ExitCause interpreter futures instr .programOk
  /-- No case of the `switch` has the type. -/
  | unhandled
      (noCase : ∀ opcode, instr.opcode? = some opcode →
        opcode ∈ [Opcode.mode, .destroy, .handle, .xsend, .backupSend, .backupReceive]) :
      ExitCause interpreter futures instr .invalidInstr
  | outside (decoded : instr.opcode? = some .future ∨ instr.opcode? = some .wait)
      (outside : interpreter.programLength ≤ instr.arg1) :
      ExitCause interpreter futures instr .programError
  | full (decoded : instr.opcode? = some .future ∨ instr.opcode? = some .wait)
      (full : futures.contents.length = maxFutures) :
      ExitCause interpreter futures instr .programError
  | drained (decoded : instr.opcode? = some .halt) (empty : futures.contents = []) :
      ExitCause interpreter futures instr .programError
  | strays (decoded : instr.opcode? = some .goto)
      (outside : interpreter.programLength ≤ instr.arg0) :
      ExitCause interpreter futures instr .programError
  | badGuard (decoded : instr.opcode? = some .if) (unknown : Guard.ofCode? instr.arg0 = none) :
      ExitCause interpreter futures instr .programError
  | sendFails (decoded : instr.opcode? = some .send) :
      ExitCause interpreter futures instr .programError

section Exits

variable {interpreter : Interpreter} {futures : Futures} {instr : Instr} {input : StepInput}
  {executed : Executed}

theorem handleGoto_exit (decoded : instr.opcode? = some .goto)
    (done : handleGoto interpreter instr = .ok executed) (failed : executed.result = .error) :
    ExitCause interpreter futures instr .programError := by
  unfold handleGoto at done
  dsimp only at done
  split at done
  · next outside => exact .strays decoded outside
  · cases done
    cases failed

theorem handleIf_exit (decoded : instr.opcode? = some .if)
    (done : handleIf interpreter instr = .ok executed) (failed : executed.result = .error) :
    ExitCause interpreter futures instr .programError := by
  obtain ⟨⟨holds, status⟩, tested, finish⟩ := bind_eq_ok.mp done
  cases status with
  | guardOk =>
      cases holds with
      | true => cases finish; cases failed
      | false => cases finish; cases failed
  | invalidGuard =>
      refine .badGuard decoded ?_
      unfold testGuard at tested
      split at tested
      · obtain ⟨_, _, impossible⟩ := bind_eq_ok.mp tested
        cases impossible
      · next unknown => exact unknown

theorem handleFuture_exit (represents : interpreter.futureQueue.Represents futures)
    (decoded : instr.opcode? = some .future ∨ instr.opcode? = some .wait)
    (done : handleFuture interpreter instr input = .ok executed)
    (failed : executed.result = .error) : ExitCause interpreter futures instr .programError := by
  by_cases outside : interpreter.programLength ≤ instr.arg1
  · exact .outside decoded outside
  · cases push : futures.push (pushedEl instr.arg1 instr.arg0.toUInt64 input.pushClock) with
    | none => exact .full decoded ((futures.push_eq_none_iff _).mp push)
    | some after =>
        obtain ⟨queue, _, pushed⟩ := handleFuture_accepted represents outside push
        cases pushed.symm.trans done
        cases failed

theorem handleHalt_exit (represents : interpreter.futureQueue.Represents futures)
    (decoded : instr.opcode? = some .halt)
    (done : handleHalt interpreter input long = .ok executed)
    (failed : executed.result = .error) : ExitCause interpreter futures instr .programError := by
  cases pop : futures.pop with
  | none => exact .drained decoded (futures.pop_eq_none_iff.mp pop)
  | some taken =>
      obtain ⟨queue, _, resumed⟩ := handleHalt_accepted represents input long pop
      cases resumed.symm.trans done
      cases failed

theorem handleWait_exit (represents : interpreter.futureQueue.Represents futures)
    (decoded : instr.opcode? = some .wait)
    (done : handleWait interpreter instr input long = .ok executed)
    (failed : executed.result = .error) : ExitCause interpreter futures instr .programError := by
  rcases handleWait_cases represents instr input long with
    ⟨_, refused⟩ | ⟨_, _, _, _, _, _, _, _, waited⟩
  · exact handleFuture_exit represents (.inr decoded) refused rfl
  · cases waited.symm.trans done
    cases failed

/-- Storing a counter array never fails, whatever computes it. -/
theorem counters_result {computed : Exec CounterArray}
    (done : (do let counters ← computed
                return ⟨.ok, { interpreter with counters := counters }, []⟩) =
      (.ok executed : Exec Executed)) : executed.result = .ok := by
  obtain ⟨_, _, finish⟩ := bind_eq_ok.mp done
  cases finish
  rfl

theorem handleSync_result (done : handleSync interpreter instr input = .ok executed) :
    executed.result = .ok := by
  unfold handleSync at done
  split at done
  · obtain ⟨_, _, finish⟩ := bind_eq_ok.mp done
    cases finish
    rfl
  · obtain ⟨_, _, finish⟩ := bind_eq_ok.mp done
    cases finish
    rfl

theorem handler_exit {opcode : Opcode} (represents : interpreter.futureQueue.Represents futures)
    (decoded : instr.opcode? = some opcode)
    (selected : handler? long interpreter instr input opcode = some (.ok executed))
    (failed : executed.result = .error) : ExitCause interpreter futures instr .programError := by
  have never (succeeds : executed.result = .ok) :
      ExitCause interpreter futures instr .programError := by
    rw [succeeds] at failed
    cases failed
  have done := selected
  cases opcode with
  | goto => exact handleGoto_exit decoded (Option.some.inj done) failed
  | «if» => exact handleIf_exit decoded (Option.some.inj done) failed
  | future => exact handleFuture_exit represents (.inl decoded) (Option.some.inj done) failed
  | halt => exact handleHalt_exit represents decoded (Option.some.inj done) failed
  | wait => exact handleWait_exit represents decoded (Option.some.inj done) failed
  | send => exact .sendFails decoded
  | nop =>
      cases selected
      exact never rfl
  | clearCounter | addToCounter | subFromCounter | setCounter =>
      exact never (counters_result (Option.some.inj done))
  | create =>
      obtain ⟨_, _, finish⟩ := bind_eq_ok.mp (Option.some.inj done)
      cases finish
      exact never rfl
  | receive =>
      obtain ⟨_, _, finish⟩ := bind_eq_ok.mp (Option.some.inj done)
      cases finish
      exact never rfl
  | sync => exact never (handleSync_result (Option.some.inj done))
  | mode | destroy | handle | xsend | backupSend | backupReceive | endOfProgram =>
      cases selected

/-- An instruction without a handler is END_OF_PROGRAM or has no case. -/
theorem exitOf_cause (unselected : instr.opcode?.bind (handler? long interpreter instr input) =
    none) : ExitCause interpreter futures instr (exitOf instr.opcode?) := by
  cases decoded : instr.opcode? with
  | none => exact .unhandled (by rw [decoded]; exact nofun)
  | some opcode =>
      rw [decoded, Option.bind_some] at unselected
      cases opcode with
      | endOfProgram => exact .ends decoded
      | mode | destroy | handle | xsend | backupSend | backupReceive =>
          refine .unhandled fun opcode other => ?_
          cases decoded.symm.trans other
          decide
      | future | halt | «if» | create | send | receive | sync | goto | wait | nop | setCounter
      | addToCounter | clearCounter | subFromCounter => cases unselected

/-- Every return of the thread has one of these causes. -/
theorem execute_exit {iteration : Iteration} {code : ProgramExit}
    (represents : interpreter.futureQueue.Represents futures)
    (done : execute long interpreter instr input = .ok iteration)
    (exit : iteration.exit = some code) : ExitCause interpreter futures instr code := by
  unfold execute at done
  split at done
  · next unselected =>
      cases done
      cases exit
      exact exitOf_cause unselected
  · next handled selected =>
      obtain ⟨opcode, decoded, selected⟩ := Option.bind_eq_some_iff.mp selected
      obtain ⟨executed, rfl, finish⟩ := bind_eq_ok.mp done
      cases finish
      cases failed : executed.result with
      | error =>
          simp only [Executed.handleResult, failed] at exit
          cases exit
          exact handler_exit represents decoded selected failed
      | ok => simp [Executed.handleResult, failed] at exit
      | changePc => simp [Executed.handleResult, failed] at exit

end Exits

/-! ## Certificates -/

/-- How many futures may be pending. -/
structure Pending where
  least : Nat
  most : Nat
  deriving DecidableEq, Repr

namespace Pending

def Allows (pending : Pending) (count : Nat) : Prop :=
  pending.least ≤ count ∧ count ≤ pending.most

def pushed (pending : Pending) : Pending := ⟨pending.least + 1, pending.most + 1⟩

def popped (pending : Pending) : Pending := ⟨pending.least - 1, pending.most - 1⟩

/-- Whatever one allows, the other does. -/
def Within (inner outer : Pending) : Prop :=
  outer.least ≤ inner.least ∧ inner.most ≤ outer.most

instance (inner outer : Pending) : Decidable (inner.Within outer) :=
  inferInstanceAs (Decidable (_ ∧ _))

variable {pending inner outer : Pending} {count : Nat}

theorem Within.allows (within : inner.Within outer) (allowed : inner.Allows count) :
    outer.Allows count :=
  ⟨within.1.trans allowed.1, allowed.2.trans within.2⟩

theorem Allows.pushed (allowed : pending.Allows count) : pending.pushed.Allows (count + 1) :=
  ⟨Nat.succ_le_succ allowed.1, Nat.succ_le_succ allowed.2⟩

theorem Allows.popped (allowed : pending.Allows (count + 1)) : pending.popped.Allows count :=
  ⟨Nat.sub_le_of_le_add allowed.1, Nat.le_sub_of_add_le allowed.2⟩

end Pending

/-- What may be pending before the instruction at each place. -/
abbrev Certificate := Nat → Pending

/-- The jump address of the future that the instruction inserts. -/
def Instr.resumePoint? (instr : Instr) : Option UInt32 :=
  match instr.opcode? with
  | some .future | some .wait => some instr.arg1
  | _ => none

/-- Where a HALT of the program may resume. -/
def resumePoints (instrs : List Instr) : List UInt32 := instrs.filterMap Instr.resumePoint?

/-- The guards that are not constantly false. -/
def Guard.mayHold : Guard → Bool
  | .alwaysFalse | .sendBufferEmpty | .varQueueEmpty | .varQueueFull => false
  | _ => true

/-- The guards that are not constantly true. -/
def Guard.mayFail : Guard → Bool
  | .alwaysTrue => false
  | _ => true

/-- Where the thread may go on after an IF with a known guard. -/
def Guard.successors (jump : UInt32) (place : Nat) (guard : Guard) : List Nat :=
  (if guard.mayHold then [jump.toNat] else []) ++ if guard.mayFail then [place + 1] else []

/-- Where the thread may go on after an instruction of the program. -/
def Opcode.successors (instrs : List Instr) (instr : Instr) (place : Nat) : Opcode → List Nat
  | .goto => [instr.arg0.toNat]
  | .if => (Guard.ofCode? instr.arg0).elim [] (Guard.successors instr.arg1 place)
  | .halt | .wait => (resumePoints instrs).map UInt32.toNat
  | .endOfProgram | .mode | .destroy | .handle | .xsend | .backupSend | .backupReceive => []
  | .future | .nop | .clearCounter | .addToCounter | .subFromCounter | .setCounter | .create
  | .send | .receive | .sync => [place + 1]

/-- What is pending after an instruction. -/
def Opcode.leaves (pending : Pending) : Opcode → Pending
  | .future => pending.pushed
  | .halt => pending.popped
  | _ => pending

/-- What an instruction needs so that it does not fail. -/
def Opcode.Needs (length : Nat) (pending : Pending) (instr : Instr) : Opcode → Prop
  | .future | .wait => pending.most < maxFutures ∧ instr.arg1.toNat < length
  | .halt => 0 < pending.least
  | .if => (Guard.ofCode? instr.arg0).isSome = true
  | .mode | .destroy | .handle | .xsend | .backupSend | .backupReceive => False
  | _ => True

instance (length : Nat) (pending : Pending) (instr : Instr) (opcode : Opcode) :
    Decidable (opcode.Needs length pending instr) :=
  match opcode with
  | .future | .wait => inferInstanceAs (Decidable (_ ∧ _))
  | .halt => inferInstanceAs (Decidable (0 < _))
  | .if => inferInstanceAs (Decidable (_ = true))
  | .mode | .destroy | .handle | .xsend | .backupSend | .backupReceive =>
      inferInstanceAs (Decidable False)
  | .create | .send | .receive | .sync | .goto | .nop | .endOfProgram | .setCounter
  | .addToCounter | .clearCounter | .subFromCounter => inferInstanceAs (Decidable True)

section Certificates

variable (instrs : List Instr) (certificate : Certificate)

/-- The instruction has what it needs, and leads on to places of the program
that allow what it leaves. -/
def Opcode.Certified (instr : Instr) (place : Nat) (opcode : Opcode) : Prop :=
  opcode.Needs instrs.length (certificate place) instr ∧
    ∀ target ∈ opcode.successors instrs instr place,
      target < instrs.length ∧ (opcode.leaves (certificate place)).Within (certificate target)

instance (instr : Instr) (place : Nat) (opcode : Opcode) :
    Decidable (opcode.Certified instrs certificate instr place) :=
  inferInstanceAs (Decidable (_ ∧ ∀ target ∈ opcode.successors instrs instr place, _ ∧ _))

/-- Every instruction of the program is certified. -/
structure Certified : Prop where
  rows : ∀ place (bound : place < instrs.length), ∃ opcode ∈ instrs[place].opcode?,
    opcode.Certified instrs certificate instrs[place] place
  addressable : instrs.length < 2 ^ 32

theorem certified_iff : Certified instrs certificate ↔
    (∀ place (bound : place < instrs.length), ∃ opcode ∈ instrs[place].opcode?,
      opcode.Certified instrs certificate instrs[place] place) ∧ instrs.length < 2 ^ 32 :=
  ⟨fun ⟨rows, addressable⟩ => ⟨rows, addressable⟩,
    fun ⟨rows, addressable⟩ => ⟨rows, addressable⟩⟩

instance : Decidable (Certified instrs certificate) :=
  decidable_of_iff' _ (certified_iff instrs certificate)

end Certificates

/-- A program that waits again and again, with its certificate. -/
def waitingLoop : List Instr := [.make .future 5 2 0 0, .make .halt 0 0 0 0, .make .goto 0 0 0 0]

def waitingLoopPending : Certificate := fun place => if place = 1 then ⟨1, 1⟩ else ⟨0, 0⟩

example : Certified waitingLoop waitingLoopPending := by decide

/-! ## Where the thread goes on -/

section Successors

variable {instrs : List Instr} {interpreter : Interpreter} {futures after : Futures}
  {instr : Instr} {input : StepInput} {iteration : Iteration}

theorem mem_resumePoints (member : instr ∈ instrs)
    (decoded : instr.opcode? = some .future ∨ instr.opcode? = some .wait) :
    instr.arg1 ∈ resumePoints instrs := by
  refine List.mem_filterMap.mpr ⟨instr, member, ?_⟩
  rcases decoded with decoded | decoded <;> simp [Instr.resumePoint?, decoded]

/-- Every pending future resumes where a FUTURE or WAIT of the program says. -/
def FromProgram (instrs : List Instr) (futures : Futures) : Prop :=
  ∀ el ∈ futures.contents, el.jmpAddress ∈ resumePoints instrs

theorem FromProgram.push {jmp : UInt32} {delay now : UInt64}
    (fromProgram : FromProgram instrs futures) (point : jmp ∈ resumePoints instrs)
    (push : futures.push (pushedEl jmp delay now) = some after) : FromProgram instrs after := by
  intro el hel
  rw [BoundedQueue.contents_push push] at hel
  rcases mem_insertAfter.mp hel with rfl | old
  · exact point
  · exact fromProgram el old

theorem FromProgram.pop {el : FutureQueueEl} (fromProgram : FromProgram instrs futures)
    (pop : futures.pop = some (el, after)) :
    el.jmpAddress ∈ resumePoints instrs ∧ FromProgram instrs after := by
  rw [FromProgram, BoundedQueue.contents_pop pop] at fromProgram
  exact ⟨fromProgram el List.mem_cons_self,
    fun other member => fromProgram other (List.mem_cons_of_mem _ member)⟩

/-- The counts of the futures around an instruction. -/
def Opcode.Counts (before after : Nat) : Opcode → Prop
  | .future => after = before + 1
  | .halt => before = after + 1
  | _ => after = before

theorem Opcode.Counts.allows {opcode : Opcode} {before after : Nat} {pending : Pending}
    (counts : opcode.Counts before after) (allowed : pending.Allows before) :
    (opcode.leaves pending).Allows after := by
  cases opcode with
  | future =>
      cases counts
      exact allowed.pushed
  | halt =>
      cases counts
      exact allowed.popped
  | _ =>
      cases counts
      exact allowed

theorem length_push {value : FutureQueueEl} (push : futures.push value = some after) :
    after.contents.length = futures.contents.length + 1 := by
  rw [BoundedQueue.contents_push push, insertAfter_length]

theorem length_pop {el : FutureQueueEl} (pop : futures.pop = some (el, after)) :
    futures.contents.length = after.contents.length + 1 := by
  rw [BoundedQueue.contents_pop pop, List.length_cons]

theorem Guard.handle_may {guard : Guard} {arg0 arg1 : UInt32} {holds : Bool}
    (handled : guard.handle interpreter arg0 arg1 = .ok holds) :
    (if holds then guard.mayHold else guard.mayFail) = true := by
  cases guard with
  | alwaysTrue =>
      cases handled
      rfl
  | alwaysFalse | sendBufferEmpty | varQueueEmpty | varQueueFull =>
      cases handled
      rfl
  | channelXyRcvBufEmpty | testCount | statusTest | equalVarVar | greaterVarVar | lessVarVar
  | testVar => cases holds <;> rfl

/-- A true guard goes on at the jump address, a false one behind the IF. -/
theorem Guard.mem_successors {guard : Guard} (jump : UInt32) (place : Nat) {holds : Bool}
    (may : (if holds then guard.mayHold else guard.mayFail) = true) :
    (if holds then jump.toNat else place + 1) ∈ guard.successors jump place := by
  cases holds with
  | true =>
      have hold : guard.mayHold = true := may
      simp [Guard.successors, hold]
  | false =>
      have fail : guard.mayFail = true := may
      simp [Guard.successors, fail]

/-- The thread goes on at a successor of its instruction. -/
theorem ControlStep.successor
    (controlStep : ControlStep long interpreter futures instr input iteration after)
    (goesOn : iteration.exit = none) (member : instr ∈ instrs)
    (fromProgram : FromProgram instrs futures)
    (room : interpreter.programCounter.toNat + 1 < 2 ^ 32) :
    ∃ opcode, instr.opcode? = some opcode ∧
      iteration.interpreter.programCounter.toNat ∈
        opcode.successors instrs instr interpreter.programCounter.toNat ∧
      opcode.Counts futures.contents.length after.contents.length ∧
      FromProgram instrs after := by
  have counter : (interpreter.programCounter + 1).toNat =
      interpreter.programCounter.toNat + 1 := by
    rw [UInt32.toNat_add]
    exact Nat.mod_eq_of_lt room
  have tested {holds : Bool}
      (tested : testGuard interpreter instr.arg0 instr.arg2 instr.arg3 = .ok (holds, .guardOk)) :
      (if holds then instr.arg1.toNat else interpreter.programCounter.toNat + 1) ∈
        Opcode.successors instrs instr interpreter.programCounter.toNat .if := by
    unfold Opcode.successors
    cases known : Guard.ofCode? instr.arg0 with
    | none =>
        rw [testGuard, known] at tested
        cases tested
    | some guard =>
        rw [testGuard, known] at tested
        obtain ⟨result, handled, finish⟩ := bind_eq_ok.mp tested
        cases finish
        exact Guard.mem_successors _ _ (Guard.handle_may handled)
  cases controlStep with
  | exits exit => exact (exit goesOn).elim
  | falls opcode decoded cause exit control =>
      have place : iteration.interpreter.programCounter.toNat =
          interpreter.programCounter.toNat + 1 := by
        rw [← counter]
        exact congrArg (fun control => control.programCounter.toNat) control
      rw [place]
      refine ⟨opcode, decoded, ?_, ?_, fromProgram⟩
      · rcases cause with data | ⟨rfl, failed⟩
        · cases opcode <;> cases data <;> exact List.mem_singleton_self _
        · exact tested failed
      · rcases cause with data | ⟨rfl, _⟩
        · cases opcode <;> cases data <;> rfl
        · rfl
  | jumps target cause exit control =>
      have place : iteration.interpreter.programCounter.toNat = target.toNat :=
        congrArg (fun control => control.programCounter.toNat) control
      rw [place]
      rcases cause with ⟨decoded, rfl, _⟩ | ⟨decoded, rfl, held⟩
      · exact ⟨.goto, decoded, List.mem_singleton_self _, rfl, fromProgram⟩
      · exact ⟨.if, decoded, tested held, rfl, fromProgram⟩
  | pushes decoded accepted push exit control =>
      have place : iteration.interpreter.programCounter.toNat =
          interpreter.programCounter.toNat + 1 := by
        rw [← counter]
        exact congrArg (fun control => control.programCounter.toNat) control
      rw [place]
      exact ⟨.future, decoded, List.mem_singleton_self _, length_push push,
        fromProgram.push (mem_resumePoints member (.inl decoded)) push⟩
  | resumes decoded pop exit control =>
      obtain ⟨point, rest⟩ := fromProgram.pop pop
      have place : iteration.interpreter.programCounter = _ :=
        congrArg Control.programCounter control
      rw [place]
      exact ⟨.halt, decoded, List.mem_map_of_mem point, length_pop pop, rest⟩
  | waits decoded accepted push pop exit control =>
      have inserted := fromProgram.push (mem_resumePoints member (.inr decoded)) push
      obtain ⟨point, rest⟩ := inserted.pop pop
      have place : iteration.interpreter.programCounter = _ :=
        congrArg Control.programCounter control
      rw [place]
      refine ⟨.wait, decoded, List.mem_map_of_mem point, ?_, rest⟩
      have grown := length_push push
      rw [length_pop pop] at grown
      exact Nat.succ.inj grown

end Successors

/-! ## A program on its course -/

section Course

variable (instrs : List Instr) (certificate : Certificate)

/-- The instructions are what the interpreter has loaded, at their places. -/
structure Loads (interpreter : Interpreter) : Prop where
  fetches : ∃ block, interpreter.program = some block ∧
    ∀ place (bound : place < instrs.length), block.fetch place = .ok instrs[place]
  covered : instrs.length ≤ interpreter.programLength.toNat

/-- The thread is at a place of the program that allows the pending futures. -/
structure OnCourse (interpreter : Interpreter) (futures : Futures) : Prop where
  loads : Loads instrs interpreter
  represents : interpreter.futureQueue.Represents futures
  inside : interpreter.programCounter.toNat < instrs.length
  allowed : (certificate interpreter.programCounter.toNat).Allows futures.contents.length
  fromProgram : FromProgram instrs futures

end Course

section Steps

variable {instrs : List Instr} {certificate : Certificate} {interpreter : Interpreter}
  {futures after : Futures} {instr : Instr} {input : StepInput} {iteration : Iteration}

namespace OnCourse

variable (course : OnCourse instrs certificate interpreter futures)

include course

/-- What the thread fetches is the instruction of the program at its place. -/
theorem fetches : ∃ bound : interpreter.programCounter.toNat < instrs.length,
    interpreter.fetch = .ok instrs[interpreter.programCounter.toNat] := by
  obtain ⟨block, loaded, fetches⟩ := course.loads.fetches
  exact ⟨course.inside, Interpreter.fetch_eq_ok.mpr ⟨block, loaded, fetches _ course.inside⟩⟩

theorem fetched_eq (fetched : interpreter.fetch = .ok instr) :
    ∃ bound : interpreter.programCounter.toNat < instrs.length,
      instr = instrs[interpreter.programCounter.toNat] := by
  obtain ⟨bound, fetches⟩ := course.fetches
  exact ⟨bound, Except.ok.inj (fetched.symm.trans fetches)⟩

/-- The fetched instruction has its row in the certificate. -/
theorem row (certified : Certified instrs certificate)
    (fetched : interpreter.fetch = .ok instr) :
    instr ∈ instrs ∧ ∃ opcode, instr.opcode? = some opcode ∧
      opcode.Certified instrs certificate instr interpreter.programCounter.toNat := by
  obtain ⟨bound, rfl⟩ := course.fetched_eq fetched
  exact ⟨List.getElem_mem _, certified.rows _ bound⟩

theorem successor (certified : Certified instrs certificate)
    (fetched : interpreter.fetch = .ok instr)
    (controlStep : ControlStep long interpreter futures instr input iteration after)
    (goesOn : iteration.exit = none) :
    ∃ opcode, instr.opcode? = some opcode ∧
      iteration.interpreter.programCounter.toNat ∈
        opcode.successors instrs instr interpreter.programCounter.toNat ∧
      opcode.Counts futures.contents.length after.contents.length ∧
      FromProgram instrs after := by
  have inside := course.inside
  have addressable := certified.addressable
  exact controlStep.successor goesOn (course.row certified fetched).1 course.fromProgram
    (by omega)

/-- An instruction that does not make the thread return keeps it on course. -/
theorem step (certified : Certified instrs certificate)
    (fetched : interpreter.fetch = .ok instr)
    (controlStep : ControlStep long interpreter futures instr input iteration after)
    (represents : iteration.interpreter.futureQueue.Represents after)
    (goesOn : iteration.exit = none) :
    OnCourse instrs certificate iteration.interpreter after := by
  obtain ⟨_, opcode, decoded, _, leads⟩ := course.row certified fetched
  obtain ⟨opcode', decoded', successor, counts, fromProgram⟩ :=
    course.successor certified fetched controlStep goesOn
  cases decoded.symm.trans decoded'
  obtain ⟨inside, within⟩ := leads _ successor
  constructor
  · constructor
    · rw [controlStep.program_eq]
      exact course.loads.fetches
    · rw [controlStep.programLength_eq]
      exact course.loads.covered
  · exact represents
  · exact inside
  · exact within.allows (counts.allows course.allowed)
  · exact fromProgram

/-- A certified program returns at END_OF_PROGRAM or at a SEND only. -/
theorem exit_cases {code : ProgramExit} (certified : Certified instrs certificate)
    (fetched : interpreter.fetch = .ok instr)
    (cause : ExitCause interpreter futures instr code) :
    instr.opcode? = some .endOfProgram ∧ code = .programOk ∨
      instr.opcode? = some .send ∧ code = .programError := by
  obtain ⟨_, opcode, decoded, needs, leads⟩ := course.row certified fetched
  have covered := course.loads.covered
  have allowed := course.allowed
  have inside {target : UInt32} (bound : target.toNat < instrs.length) :
      ¬ interpreter.programLength ≤ target := by
    intro outside
    have := UInt32.le_iff_toNat_le.mp outside
    omega
  cases cause with
  | ends decoded' => exact .inl ⟨decoded', rfl⟩
  | sendFails decoded' => exact .inr ⟨decoded', rfl⟩
  | unhandled noCase =>
      have listed := noCase opcode decoded
      simp only [List.mem_cons, List.not_mem_nil, or_false] at listed
      rcases listed with rfl | rfl | rfl | rfl | rfl | rfl <;> exact needs.elim
  | outside decoded' outside =>
      rcases decoded' with decoded' | decoded' <;> cases decoded.symm.trans decoded'
      · exact (inside needs.2 outside).elim
      · exact (inside needs.2 outside).elim
  | full decoded' full =>
      rcases decoded' with decoded' | decoded' <;> cases decoded.symm.trans decoded'
      · have room := needs.1
        have most := allowed.2
        omega
      · have room := needs.1
        have most := allowed.2
        omega
  | drained decoded' empty =>
      cases decoded.symm.trans decoded'
      have some : 0 < _ := needs
      have least := allowed.1
      rw [empty, List.length_nil] at least
      omega
  | strays decoded' outside =>
      cases decoded.symm.trans decoded'
      exact (inside (leads _ (List.mem_singleton_self _)).1 outside).elim
  | badGuard decoded' unknown =>
      cases decoded.symm.trans decoded'
      have known : (Guard.ofCode? instr.arg0).isSome = true := needs
      rw [unknown] at known
      cases known

end OnCourse

end Steps

/-! ## Every run of the module -/

/-- A step that does not start the interpreter. -/
def Unstarted (before : NcmSysfs) (label : Action × List Observation) : Prop :=
  ¬ StartsInterpreter before label.1

/-- Only a write to the control file starts the interpreter. -/
theorem unstarted_of_actions {labels : List (Action × List Observation)} {actions : List Action}
    (same : labels.map Prod.fst = actions) (none : ∀ buf env, .storeControl buf env ∉ actions) :
    ∀ label ∈ labels, ∀ state, Unstarted state label := by
  rintro label member state ⟨buf, env, writes, -⟩
  refine none buf env ?_
  rw [← same, ← writes]
  exact List.mem_map_of_mem member

/-- What the thread of a certified program may have returned. -/
inductive MayReturn (instrs : List Instr) (labels : List (Action × List Observation)) :
    ProgramExit → Prop where
  | ends (instr : Instr) (member : instr ∈ instrs) (decoded : instr.opcode? = some .endOfProgram) :
      MayReturn instrs labels .programOk
  | sendFails (instr : Instr) (member : instr ∈ instrs) (decoded : instr.opcode? = some .send) :
      MayReturn instrs labels .programError
  | unscheduled (label : Action × List Observation) (member : label ∈ labels)
      (refused : label.1 = .setScheduler false) : MayReturn instrs labels .programError

/-- The thread is on course until it returns. -/
structure Steered (instrs : List Instr) (certificate : Certificate)
    (labels : List (Action × List Observation)) (interpreter : Interpreter) : Prop where
  active : interpreter.Active → ∃ futures, OnCourse instrs certificate interpreter futures
  returned : ∀ code, interpreter.thread = some (.returned code) → MayReturn instrs labels code

/-- What the next iteration of a certified program can be. -/
inductive Outcome (interpreter : Interpreter) (instr : Instr) : Exec Iteration → Prop where
  | goesOn {iteration : Iteration} (exit : iteration.exit = none) :
      Outcome interpreter instr (.ok iteration)
  | ends {iteration : Iteration} (decoded : instr.opcode? = some .endOfProgram)
      (exit : iteration.exit = some .programOk) : Outcome interpreter instr (.ok iteration)
  | sendFails {iteration : Iteration} (decoded : instr.opcode? = some .send)
      (exit : iteration.exit = some .programError) : Outcome interpreter instr (.ok iteration)
  | faults {fault : Fault}
      (missing : fault.IsTableFault → ∃ operand ∈ instr.operands, ¬ operand.Exists interpreter) :
      Outcome interpreter instr (.error fault)

section Runs

variable {instrs : List Instr} {certificate : Certificate} {interpreter next : Interpreter}
  {futures : Futures} {labels : List (Action × List Observation)}

theorem MayReturn.append {code : ProgramExit} (mayReturn : MayReturn instrs labels code)
    (more : List (Action × List Observation)) : MayReturn instrs (labels ++ more) code := by
  cases mayReturn with
  | ends instr member decoded => exact .ends instr member decoded
  | sendFails instr member decoded => exact .sendFails instr member decoded
  | unscheduled label member refused =>
      exact .unscheduled label (List.mem_append_left _ member) refused

theorem OnCourse.of_same (course : OnCourse instrs certificate interpreter futures)
    (program : next.program = interpreter.program)
    (length : next.programLength = interpreter.programLength)
    (counter : next.programCounter = interpreter.programCounter)
    (queue : next.futureQueue = interpreter.futureQueue) :
    OnCourse instrs certificate next futures := by
  obtain ⟨⟨fetches, covered⟩, represents, inside, allowed, fromProgram⟩ := course
  rw [← program] at fetches
  rw [← length] at covered
  rw [← queue] at represents
  rw [← counter] at inside allowed
  exact ⟨⟨fetches, covered⟩, represents, inside, allowed, fromProgram⟩

/-- A step that leaves the position of the thread alone leaves it on course. -/
theorem Steered.of_same (steered : Steered instrs certificate labels interpreter)
    (label : Action × List Observation) (program : next.program = interpreter.program)
    (length : next.programLength = interpreter.programLength)
    (counter : next.programCounter = interpreter.programCounter)
    (queue : next.futureQueue = interpreter.futureQueue)
    (thread : next.thread = interpreter.thread) :
    Steered instrs certificate (labels ++ [label]) next := by
  constructor
  · intro active
    rw [Interpreter.Active, thread] at active
    obtain ⟨futures, course⟩ := steered.active active
    exact ⟨futures, course.of_same program length counter queue⟩
  · intro code returned
    rw [thread] at returned
    exact (steered.returned code returned).append _

theorem Moves.steered {sysfs : NcmSysfs} {action : Action} {shown : List Observation}
    (certified : Certified instrs certificate)
    (moves : Moves long sysfs action shown next) (unstarted : ¬ StartsInterpreter sysfs action)
    (steered : Steered instrs certificate labels sysfs.ncmInterp) :
    Steered instrs certificate (labels ++ [(action, shown)]) next := by
  cases moves with
  | stays | writes | tearsDown | receives => exact steered.of_same _ rfl rfl rfl rfl rfl
  | starts command startable => exact (unstarted ⟨_, _, rfl, command, startable⟩).elim
  | joins => exact ⟨fun active => (not_active_of_none rfl active).elim, nofun⟩
  | schedules created =>
      constructor
      · intro _
        obtain ⟨futures, course⟩ := steered.active (.inl created)
        exact ⟨futures, course.of_same rfl rfl rfl rfl⟩
      · rename_i granted _
        intro code returned
        cases granted with
        | true => cases returned
        | false =>
            cases returned
            exact .unscheduled _ (List.mem_append_right _ List.mem_cons_self) rfl
  | iterates looping fetched done =>
      obtain ⟨futures, course⟩ := steered.active (.inr looping)
      obtain ⟨after, controlStep, represents⟩ := execute_controlled course.represents done
      rename_i instr iteration
      cases exit : iteration.exit with
      | none =>
          have resumed : iteration.resume = iteration.interpreter := by
            rw [Iteration.resume, exit]
          rw [resumed]
          constructor
          · intro _
            exact ⟨after, course.step certified fetched controlStep represents exit⟩
          · intro code returned
            rw [controlStep.thread_eq, looping] at returned
            cases returned
      | some code =>
          have thread : iteration.resume.thread = some (.returned code) := by
            rw [Iteration.resume, exit]
          have member := (course.row certified fetched).1
          constructor
          · exact fun active => (not_active_of_returned thread active).elim
          · intro other returned
            cases thread.symm.trans returned
            rcases course.exit_cases certified fetched
              (execute_exit course.represents done exit) with ⟨decoded, rfl⟩ | ⟨decoded, rfl⟩
            · exact .ends instr member decoded
            · exact .sendFails instr member decoded

theorem run_steered {first last : NcmSysfs} (certified : Certified instrs certificate)
    (started : Steered instrs certificate [] first.ncmInterp)
    (run : Run (Meeting (Step long) Unstarted) first labels last) :
    Steered instrs certificate labels last.ncmInterp :=
  run.history (fun labels sysfs => Steered instrs certificate labels sysfs.ncmInterp) started
    fun _ steered hstep => (step_moves hstep.2).steered certified hstep.1 steered

/-- A program on course meets none of the errors that its certificate excludes. -/
theorem OnCourse.outcome {instr : Instr} (certified : Certified instrs certificate)
    (course : OnCourse instrs certificate interpreter futures)
    (wellSet : interpreter.network.WellSet) (fetched : interpreter.fetch = .ok instr)
    (input : StepInput) : Outcome interpreter instr (execute long interpreter instr input) := by
  cases done : execute long interpreter instr input with
  | ok iteration =>
      cases exit : iteration.exit with
      | none => exact .goesOn exit
      | some code =>
          rcases course.exit_cases certified fetched
            (execute_exit course.represents done exit) with ⟨decoded, rfl⟩ | ⟨decoded, rfl⟩
          · exact .ends decoded exit
          · exact .sendFails decoded exit
  | error fault =>
      refine .faults fun bad => ?_
      by_contra complete
      have present : ∀ operand ∈ instr.operands, operand.Exists interpreter := by
        intro operand member
        by_contra missing
        exact complete ⟨operand, member, missing⟩
      exact execute_avoids wellSet course.represents present fault done bad

end Runs

/--
A certified program on its course stays there over every run of the module,
whatever is written to the files, arrives and is read from the clock, until the
interpreter is started again: each fetch is an instruction of the program, the
pending futures are within the certificate, the thread returns only at
END_OF_PROGRAM, at a SEND that fails or when it is refused its scheduling
class, and a table is left only through an operand without an entry.
-/
theorem certified_program_stays_on_course {instrs : List Instr} {certificate : Certificate}
    {first last : NcmSysfs} {labels : List (Action × List Observation)} {futures : Futures}
    (certified : Certified instrs certificate)
    (course : OnCourse instrs certificate first.ncmInterp futures)
    (created : first.ncmInterp.thread = some .created)
    (wellSet : first.ncmInterp.network.WellSet)
    (run : Run (Meeting (Step long) Unstarted) first labels last) :
    Steered instrs certificate labels last.ncmInterp ∧
      (last.ncmInterp.thread = some .looping → ∃ instr ∈ instrs,
        last.ncmInterp.fetch = .ok instr ∧
        ∀ input, Outcome last.ncmInterp instr (execute long last.ncmInterp instr input)) := by
  have started : Steered instrs certificate [] first.ncmInterp :=
    ⟨fun _ => ⟨futures, course⟩, by rw [created]; exact nofun⟩
  have steered := run_steered certified started run
  refine ⟨steered, fun looping => ?_⟩
  obtain ⟨futures, course⟩ := steered.active (.inr looping)
  have wellSet := run.of_meeting.invariant (fun sysfs => sysfs.ncmInterp.network.WellSet)
    step_wellSet wellSet
  obtain ⟨bound, fetched⟩ := course.fetches
  refine ⟨_, List.getElem_mem bound, fetched, course.outcome certified wellSet fetched⟩

/-- The loop once around. -/
theorem certified_program_stays_on_course_loop :
    ∃ (labels : List (Action × List Observation)) (last : NcmSysfs), labels.length = 4 ∧
      Steered waitingLoop waitingLoopPending labels last.ncmInterp ∧
      (last.ncmInterp.thread = some .looping → ∃ instr ∈ waitingLoop,
        last.ncmInterp.fetch = .ok instr ∧
        ∀ input, Outcome last.ncmInterp instr (execute .bits64 last.ncmInterp instr input)) := by
  have done : ∃ first earlier last labels,
      runFromInit .bits64 ((loadAndRun waitingLoop noChannels .bare).take 3) =
        .ok (first, earlier) ∧
      Run.carryOut (fun sysfs : NcmSysfs => sysfs.next .bits64) first [.setScheduler true,
        .instruction (.atClock 1 1 1), .instruction (.atClock 2 2 6),
        .instruction (.atClock 7 7 7)] = .ok (last, labels) ∧
      labels.length = 4 ∧ first.ncmInterp.thread = some .created ∧
      first.ncmInterp.program = some (CodeBlock.ofInstrs waitingLoop) ∧
      3 ≤ first.ncmInterp.programLength.toNat ∧ first.ncmInterp.programCounter = 0 ∧
      first.ncmInterp.futureQueue = initFutureQueue zeroInterpreter.futureQueue :=
    ⟨_, _, _, _, rfl, rfl, rfl, rfl, rfl, by decide, rfl, rfl⟩
  obtain ⟨first, earlier, last, labels, loaded, ran, count, created, program, length, counter,
    queue⟩ := done
  have course : OnCourse waitingLoop waitingLoopPending first.ncmInterp BoundedQueue.empty := by
    constructor
    · exact ⟨⟨_, program, CodeBlock.fetch_ofInstrs waitingLoop⟩, length⟩
    · rw [queue]
      exact initFutureQueue_represents _
    · rw [counter]
      decide
    · rw [counter]
      exact ⟨Nat.le_refl _, Nat.le_refl _⟩
    · exact nofun
  have unstarted := unstarted_of_actions (Run.carryOut_actions ran) (by simp)
  refine ⟨labels, last, count, certified_program_stays_on_course (by decide) course created
    (reachable_wellSet ⟨_, run_of_runFromInit loaded⟩)
    ((Run.of_carryOut ran).meeting unstarted)⟩

end NetworkCode.Kernel
