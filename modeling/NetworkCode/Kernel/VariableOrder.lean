import NetworkCode.Kernel.Guards
import NetworkCode.Library.BigEndian

/-!
# The order of variables

`cmp_variables` scans the bytes that the longer value has in front and compares
the rest byte by byte.  Its sign is that of the difference of two numbers, and
the three comparing guards inherit their laws from the order of numbers.
-/

namespace NetworkCode.Kernel

open Library Library.Checked

/-- The comparison has come out as that of two numbers. -/
structure Compares (result : Int) (left right : Nat) : Prop where
  zero : result = 0 ↔ left = right
  positive : 0 < result ↔ right < left
  negative : result < 0 ↔ left < right

namespace Compares

variable {result : Int} {left right : Nat}

theorem of_eq (same : left = right) : Compares 0 left right := by
  constructor <;> omega

theorem of_gt (greater : 0 < result) (larger : right < left) : Compares result left right := by
  constructor <;> omega

theorem of_lt (less : result < 0) (smaller : left < right) : Compares result left right := by
  constructor <;> omega

end Compares

/-! ## Two values -/

section Values

variable {lefts rights : List UInt8}

/-- Values of one length: the first differing byte decides. -/
theorem memcmp_compares (lengths : lefts.length = rights.length) :
    Compares (memcmp lefts rights) (BigEndian.value lefts) (BigEndian.value rights) := by
  induction lefts generalizing rights with
  | nil =>
      cases List.length_eq_zero_iff.mp lengths.symm
      exact .of_eq rfl
  | cons left lefts ih =>
      cases rights with
      | nil => cases lengths
      | cons right rights =>
          have rest : lefts.length = rights.length := Nat.succ.inj lengths
          unfold memcmp
          split
          · next same =>
              have tails := ih rest
              rw [BigEndian.value_cons, BigEndian.value_cons, same, rest]
              constructor
              · rw [tails.zero, Nat.add_right_inj]
              · rw [tails.positive, Nat.add_lt_add_iff_left]
              · rw [tails.negative, Nat.add_lt_add_iff_left]
          · next distinct =>
              rcases Nat.lt_trichotomy left.toNat right.toNat with less | same | greater
              · exact .of_lt (by omega) (BigEndian.value_cons_lt rest less)
              · exact absurd (UInt8.toNat_inj.mp same) distinct
              · exact .of_gt (by omega) (BigEndian.value_cons_lt rest.symm greater)

/-- Without a nonzero byte in front only the rest counts. -/
theorem value_drop_of_zeros {bytes : List UInt8} {count : Nat}
    (zeros : (bytes.take count).find? (· ≠ 0) = none) :
    BigEndian.value (bytes.drop count) = BigEndian.value bytes := by
  have front : ∀ byte ∈ bytes.take count, byte = 0 := by
    intro byte member
    simpa using List.find?_eq_none.mp zeros byte member
  rw [← BigEndian.value_append_of_zeros front, List.take_append_drop]

/-- A nonzero byte in front of as many bytes as the other has. -/
theorem value_lt_of_leading {bytes other : List UInt8} {byte : UInt8}
    (longer : other.length < bytes.length)
    (leading : (bytes.take (bytes.length - other.length)).find? (· ≠ 0) = some byte) :
    0 < byte.toNat ∧ BigEndian.value other < BigEndian.value bytes := by
  have member := List.mem_of_find?_eq_some leading
  have nonzero : byte ≠ 0 := by simpa using List.find?_some leading
  have lengths : other.length = (bytes.drop (bytes.length - other.length)).length := by
    rw [List.length_drop]
    omega
  have larger := BigEndian.value_lt_append member nonzero lengths
  rw [List.take_append_drop] at larger
  exact ⟨Nat.pos_of_ne_zero fun zero => nonzero (UInt8.toNat_inj.mp zero), larger⟩

/-- The comparison of two values is that of the numbers they denote. -/
theorem cmpValues_compares (left right : List UInt8) :
    Compares (cmpValues left right) (BigEndian.value left) (BigEndian.value right) := by
  unfold cmpValues
  split
  · next longer =>
      have lengths : (left.drop (left.length - right.length)).length = right.length := by
        rw [List.length_drop]
        omega
      cases leading : (left.take (left.length - right.length)).find? (· ≠ 0) with
      | none =>
          have compares := memcmp_compares lengths
          rw [value_drop_of_zeros leading] at compares
          exact compares
      | some byte =>
          obtain ⟨positive, larger⟩ := value_lt_of_leading longer leading
          exact .of_gt (Int.natCast_pos.mpr positive) larger
  · split
    · next shorter =>
        have lengths : left.length = (right.drop (right.length - left.length)).length := by
          rw [List.length_drop]
          omega
        cases leading : (right.take (right.length - left.length)).find? (· ≠ 0) with
        | none =>
            have compares := memcmp_compares lengths
            rw [value_drop_of_zeros leading] at compares
            exact compares
        | some byte =>
            obtain ⟨positive, larger⟩ := value_lt_of_leading shorter leading
            exact .of_lt (Int.neg_neg_of_pos (Int.natCast_pos.mpr positive)) larger
    · next notLonger notShorter => exact memcmp_compares (by omega)

end Values

/-! ## Two variables -/

/-- The number that a variable holds. -/
def Varspace.number (varspace : Varspace) (var : Fin maxVariables) : Nat :=
  BigEndian.value (varspace.get var).value

theorem cmpVariables_eq (varspace : Varspace) (left right : Fin maxVariables) :
    cmpVariables varspace left.val right.val =
      .ok (cmpValues (varspace.get left).value (varspace.get right).value) := by
  unfold cmpVariables
  rw [load_of_lt left.isLt, load_of_lt right.isLt]
  rfl

/-- A guard on two variables holds. -/
def VarVarHolds (interpreter : Interpreter) (guard : Guard) (left right : Fin maxVariables) :
    Prop :=
  testGuard interpreter guard.code (UInt32.ofNat left.val) (UInt32.ofNat right.val) =
    .ok (true, .guardOk)

section Guards

variable {interpreter : Interpreter} (left right : Fin maxVariables)

theorem toNat_ofVariable (var : Fin maxVariables) : (UInt32.ofNat var.val).toNat = var.val := by
  have small : maxVariables < UInt32.size := by decide
  exact UInt32.toNat_ofNat_of_lt' (Nat.lt_trans var.isLt small)

/-- A guard that compares two variables and tests the result. -/
theorem varVarHolds_iff {guard : Guard} {test : Int → Bool}
    (compares : guard.handle interpreter (UInt32.ofNat left.val) (UInt32.ofNat right.val) =
      (cmpVariables interpreter.variableSpace (UInt32.ofNat left.val).toNat
        (UInt32.ofNat right.val).toNat) >>= fun result => pure (test result)) :
    VarVarHolds interpreter guard left right ↔
      test (cmpValues (interpreter.variableSpace.get left).value
        (interpreter.variableSpace.get right).value) = true := by
  unfold VarVarHolds testGuard
  rw [Guard.ofCode?_code]
  dsimp only
  rw [compares, toNat_ofVariable, toNat_ofVariable, cmpVariables_eq]
  simp

theorem equal_iff : VarVarHolds interpreter .equalVarVar left right ↔
    interpreter.variableSpace.number left = interpreter.variableSpace.number right := by
  rw [varVarHolds_iff left right rfl, decide_eq_true_iff]
  exact (cmpValues_compares _ _).zero

theorem greater_iff : VarVarHolds interpreter .greaterVarVar left right ↔
    interpreter.variableSpace.number right < interpreter.variableSpace.number left := by
  rw [varVarHolds_iff left right rfl, decide_eq_true_iff]
  exact (cmpValues_compares _ _).positive

theorem less_iff : VarVarHolds interpreter .lessVarVar left right ↔
    interpreter.variableSpace.number left < interpreter.variableSpace.number right := by
  rw [varVarHolds_iff left right rfl, decide_eq_true_iff]
  exact (cmpValues_compares _ _).negative

end Guards

/-- The comparisons of variables are those of the numbers they hold. -/
structure OrdersVariables (interpreter : Interpreter) : Prop where
  compares : ∀ left right : Fin maxVariables, ∃ result,
    cmpVariables interpreter.variableSpace left.val right.val = .ok result ∧
      Compares result (interpreter.variableSpace.number left)
        (interpreter.variableSpace.number right)
  /-- Exactly one of the three guards holds. -/
  trichotomy : ∀ left right,
    (VarVarHolds interpreter .equalVarVar left right ∧
      ¬ VarVarHolds interpreter .greaterVarVar left right ∧
      ¬ VarVarHolds interpreter .lessVarVar left right) ∨
    (¬ VarVarHolds interpreter .equalVarVar left right ∧
      VarVarHolds interpreter .greaterVarVar left right ∧
      ¬ VarVarHolds interpreter .lessVarVar left right) ∨
    (¬ VarVarHolds interpreter .equalVarVar left right ∧
      ¬ VarVarHolds interpreter .greaterVarVar left right ∧
      VarVarHolds interpreter .lessVarVar left right)
  swap : ∀ left right, VarVarHolds interpreter .greaterVarVar left right ↔
    VarVarHolds interpreter .lessVarVar right left
  trans : ∀ guard ∈ [Guard.equalVarVar, .greaterVarVar, .lessVarVar], ∀ first second third,
    VarVarHolds interpreter guard first second → VarVarHolds interpreter guard second third →
      VarVarHolds interpreter guard first third

/--
Comparing byte strings of any lengths is comparing the numbers they denote with
their first byte the most significant, and so it is for the variables of every
interpreter and the three guards on them.
-/
theorem cmpValues_orders :
    (∀ left right, Compares (cmpValues left right) (BigEndian.value left)
      (BigEndian.value right)) ∧ ∀ interpreter, OrdersVariables interpreter := by
  refine ⟨cmpValues_compares, fun interpreter => ⟨?_, ?_, ?_, ?_⟩⟩
  · intro left right
    exact ⟨_, cmpVariables_eq _ left right, cmpValues_compares _ _⟩
  · intro left right
    rw [equal_iff, greater_iff, less_iff]
    omega
  · intro left right
    rw [greater_iff, less_iff]
  · intro guard member first second third before after
    simp only [List.mem_cons, List.not_mem_nil, or_false] at member
    rcases member with rfl | rfl | rfl
    · rw [equal_iff] at before after ⊢
      exact before.trans after
    · rw [greater_iff] at before after ⊢
      exact after.trans before
    · rw [less_iff] at before after ⊢
      exact before.trans after

end NetworkCode.Kernel
