import NetworkCode.Translator.Agreement

/-!
# Words outside the tables

The two `switch` statements of the translator have no default.  A word with an
unlisted opcode keeps whatever type byte the record held before, and an IF with
an unlisted guard type keeps guard code 0, which is ALWAYS_TRUE.
-/

namespace NetworkCode.Translator

open Kernel Library.Bits Library.Checked

/-- The fifteen bytecodes that `interpreter_threadfn` has a case for. -/
def HasCase : Opcode → Bool
  | .mode | .destroy | .handle | .xsend | .backupSend | .backupReceive => false
  | _ => true

/-- A type byte that selects a case. -/
def Executable (type : UInt8) : Bool := (Opcode.ofCode? type).any HasCase

/-- The opcode of a word is none of the nine. -/
def UnlistedOpcode (word : UInt32) : Bool :=
  (HwOpcode.ofCode? (field word 28 4)).isNone

/-- The run ends with `INVALID_INSTR`, or with the error for an invalid guard. -/
inductive Rejected (long : LongWidth) (interpreter : Interpreter) (instr : Instr)
    (input : StepInput) : Prop where
  | invalidInstr {iteration : Iteration}
      (done : execute long interpreter instr input = .ok iteration)
      (exit : iteration.exit = some .invalidInstr)
  | invalidGuard {iteration : Iteration} {result : Bool} (decoded : instr.opcode? = some .if)
      (tested : testGuard interpreter instr.arg0 instr.arg2 instr.arg3 =
        .ok (result, .invalidGuard))
      (done : execute long interpreter instr input = .ok iteration)
      (exit : iteration.exit = some .programError)

section Words

variable {word : UInt32} (stale : UInt8) (long : LongWidth) (interpreter : Interpreter)
  (input : StepInput)

/-- A word outside the tables has an unlisted opcode or an unlisted guard type. -/
theorem outside_cases (outside : inTables word = false) :
    UnlistedOpcode word = true ∧ getInstruction stale word = ⟨stale, #v[0, 0, 0, 0]⟩ ∨
      UnlistedOpcode word = false ∧
        getInstruction stale word = .make .if Guard.alwaysTrue.code (field word 20 8) 0 0 := by
  unfold inTables at outside
  unfold UnlistedOpcode getInstruction
  rw [shift_type]
  dsimp only
  generalize HwOpcode.ofCode? (field word 28 4) = opcode at outside
  cases opcode with
  | none => exact .inl ⟨rfl, rfl⟩
  | some opcode =>
      cases opcode with
      | «if» =>
          refine .inr ⟨rfl, ?_⟩
          have unlisted := Option.not_isSome_iff_eq_none.mp (Bool.eq_false_iff.mp outside)
          simp only [packIf, packGuardArgs, and_mask20, shift_guardType, shift20_and_mask8,
            unlisted]
          rfl
      | future | halt | create | send | receive | nop | sync | count => cases outside

/-- No instruction returns `INVALID_INSTR`. -/
theorem handleResult_exit (executed : Executed) :
    executed.handleResult.exit ≠ some .invalidInstr := by
  unfold Executed.handleResult
  split <;> nofun

/-- An instruction with a case does not end the run with `INVALID_INSTR`. -/
theorem exit_of_hasCase {long : LongWidth} {interpreter : Interpreter} {instr : Instr}
    {input : StepInput} {opcode : Opcode} {iteration : Iteration}
    (decoded : instr.opcode? = some opcode) (known : HasCase opcode = true)
    (done : execute long interpreter instr input = .ok iteration) :
    iteration.exit ≠ some .invalidInstr := by
  cases selected : handler? long interpreter instr input opcode with
  | some handled =>
      rw [execute_of_handler decoded selected] at done
      obtain ⟨executed, _, finish⟩ := bind_eq_ok.mp done
      cases finish
      exact handleResult_exit executed
  | none =>
      have ends : opcode = .endOfProgram := by
        cases opcode with
        | endOfProgram => rfl
        | mode | destroy | handle | xsend | backupSend | backupReceive => cases known
        | future | halt | «if» | create | send | receive | sync | goto | wait | nop | setCounter
        | addToCounter | clearCounter | subFromCounter => cases selected
      subst ends
      unfold execute at done
      rw [decoded, Option.bind_some, selected] at done
      cases done
      nofun

/-- A record without a case ends the run with `INVALID_INSTR`. -/
theorem rejected_of_noCase {instr : Instr} (noCase : Executable instr.type = false) :
    Rejected long interpreter instr input := by
  have done : execute long interpreter instr input =
      .ok ⟨some .invalidInstr, interpreter, []⟩ := by
    unfold Executable at noCase
    unfold execute Instr.opcode?
    cases decoded : Opcode.ofCode? instr.type with
    | none => rfl
    | some opcode =>
        rw [decoded, Option.any_some] at noCase
        cases opcode with
        | mode | destroy | handle | xsend | backupSend | backupReceive => rfl
        | future | halt | «if» | create | send | receive | sync | goto | wait | nop | setCounter
        | addToCounter | clearCounter | subFromCounter | endOfProgram => cases noCase
  exact .invalidInstr done rfl

/-- The type byte alone decides whether a record without operands is rejected. -/
theorem rejected_stale_iff :
    Rejected long interpreter ⟨stale, #v[0, 0, 0, 0]⟩ input ↔ Executable stale = false := by
  constructor
  · intro rejected
    rw [← Bool.not_eq_true]
    intro executable
    obtain ⟨opcode, decoded, known⟩ := (Option.any_eq_true _ _).mp executable
    cases rejected with
    | invalidInstr done exit => exact absurd exit (exit_of_hasCase (by exact decoded) known done)
    | invalidGuard _ tested => cases tested
  · intro noCase
    exact rejected_of_noCase long interpreter input noCase

/-- An IF with guard ALWAYS_TRUE jumps. -/
theorem not_rejected_if (jump : UInt32) :
    ¬ Rejected long interpreter (.make .if Guard.alwaysTrue.code jump 0 0) input := by
  intro rejected
  cases rejected with
  | invalidInstr done exit => exact exit_of_hasCase (Instr.opcode?_make ..) rfl done exit
  | invalidGuard _ tested => cases tested

/-- A word outside the tables is rejected exactly when its opcode is unlisted
and the type byte left in the record has no meaning. -/
theorem unknownWord_rejected_iff (outside : inTables word = false) :
    Rejected long interpreter (getInstruction stale word) input ↔
      UnlistedOpcode word = true ∧ Executable stale = false := by
  rcases outside_cases stale outside with ⟨unlisted, kept⟩ | ⟨listed, packed⟩
  · rw [kept, unlisted, rejected_stale_iff]
    simp
  · rw [packed, listed]
    simp [not_rejected_if]

end Words

/-- Opcode 6 is unlisted, and type byte 255 has no meaning. -/
theorem unknownWord_rejected_iff_six :
    Rejected .bits64 initModule.ncmInterp (getInstruction 255 0x60000000) (.atClock 0 0 0) ↔
      UnlistedOpcode 0x60000000 = true ∧ Executable 255 = false :=
  unknownWord_rejected_iff 255 .bits64 initModule.ncmInterp (.atClock 0 0 0) (by decide)

/-- An IF with guard type 4 jumps to 42. -/
theorem unknownGuard_jumps :
    ¬ ∀ (stale : UInt8) (word : UInt32) (long : LongWidth) (interpreter : Interpreter)
      (input : StepInput), inTables word = false →
        Rejected long interpreter (getInstruction stale word) input := by
  intro claim
  have rejected := claim 0 0x72A40000 .bits64 initModule.ncmInterp (.atClock 0 0 0) (by decide)
  exact not_rejected_if .bits64 initModule.ncmInterp (.atClock 0 0 0) 42 rejected

end NetworkCode.Translator
