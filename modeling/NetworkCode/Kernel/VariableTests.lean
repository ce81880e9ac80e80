import NetworkCode.Kernel.VariableOrder
import NetworkCode.Library.OneBits
import Mathlib.Algebra.Group.Even

/-!
# The tests of a variable

Two of the tests scan for a nonzero byte and two add up the parities of the
bytes.  All four tell something about the number that the variable holds, so
variables that compare equal pass the same tests.
-/

namespace NetworkCode.Kernel

open Library Library.Checked Library.OneBits

/-! ## Bytes -/

section Bytes

variable (value : List UInt8)

/-- A byte string denotes zero exactly if all its bytes are zero. -/
theorem any_nonzero_iff : (value.any (· ≠ 0)) = true ↔ BigEndian.value value ≠ 0 := by
  constructor
  · intro found
    obtain ⟨byte, member, nonzero⟩ := List.any_eq_true.mp found
    exact Nat.ne_of_gt (BigEndian.value_pos member (of_decide_eq_true nonzero))
  · intro nonzero
    by_contra none
    apply nonzero
    apply BigEndian.value_eq_zero
    intro byte member
    by_contra other
    exact none (List.any_eq_true.mpr ⟨byte, member, decide_eq_true other⟩)

/-- Adding up in a machine word counts modulo its size. -/
theorem foldl_add_toNat (summand : Nat → UInt8) (count : Nat) :
    ((List.range count).foldl (fun acc i => acc + summand i) 0).toNat =
      ((List.range count).map fun i => (summand i).toNat).sum % 2 ^ 8 := by
  induction count with
  | zero => rfl
  | succ count ih =>
      rw [List.range_succ, List.foldl_append, List.map_append, List.sum_append, List.foldl_cons,
        List.foldl_nil, UInt8.toNat_add, ih, Nat.mod_add_mod, List.map_singleton,
        List.sum_singleton]

/-- `get_parity` counts the one bits of a byte modulo two. -/
theorem getParity_toNat (byte : UInt8) : (getParity byte).toNat = ones byte.toNat % 2 := by
  have position (i : Nat) (inside : i < 8) :
      ((byte >>> UInt8.ofNat i) &&& 1).toNat = byte.toNat / 2 ^ i % 2 := by
    have amount : (UInt8.ofNat i).toNat % 8 = i := by
      rw [UInt8.toNat_ofNat']
      omega
    have one : (1 : UInt8).toNat = 2 ^ 1 - 1 := rfl
    rw [UInt8.toNat_and, UInt8.toNat_shiftRight, amount, one, Nat.and_two_pow_sub_one_eq_mod,
      Nat.shiftRight_eq_div_pow]
  have one : (1 : UInt8).toNat = 2 ^ 1 - 1 := rfl
  rw [getParity, UInt8.toNat_and, one, Nat.and_two_pow_sub_one_eq_mod, foldl_add_toNat,
    ones_eq_sum 8 byte.toNat_lt, Nat.mod_mod_of_dvd _ (by decide)]
  congr 2
  apply List.map_congr_left
  intro i member
  exact position i (List.mem_range.mp member)

theorem foldl_parity (start : UInt32) :
    (value.foldl (fun parity byte => parity + (getParity byte).toUInt32) start).toNat % 2 =
      (start.toNat + (value.map fun byte => ones byte.toNat).sum) % 2 := by
  induction value generalizing start with
  | nil => rfl
  | cons byte rest ih =>
      rw [List.foldl_cons, ih, UInt32.toNat_add, UInt8.toNat_toUInt32, getParity_toNat,
        List.map_cons, List.sum_cons]
      omega

/-- The accumulated parity is that of the number. -/
theorem parityOf_toNat : (parityOf value).toNat % 2 = ones (BigEndian.value value) % 2 := by
  rw [parityOf, foldl_parity, ones_value]
  exact congrArg (· % 2) (Nat.zero_add _)

theorem parityOf_even_iff : parityOf value &&& 1 = 0 ↔ Even (ones (BigEndian.value value)) := by
  have one : (1 : UInt32).toNat = 2 ^ 1 - 1 := rfl
  rw [← UInt32.toNat_inj, UInt32.toNat_and, one, Nat.and_two_pow_sub_one_eq_mod, Nat.even_iff,
    ← parityOf_toNat]
  rfl

end Bytes

/-! ## The four tests -/

/-- What a test asks about a number. -/
def VarTest.asks : VarTest → Nat → Prop
  | .isZero, number => number = 0
  | .isNonzero, number => ¬ number = 0
  | .evenParity, number => Even (ones number)
  | .oddParity, number => ¬ Even (ones number)

/-- A test tells what it asks. -/
theorem handle_iff (test : VarTest) (value : List UInt8) :
    test.handle value = true ↔ test.asks (BigEndian.value value) := by
  cases test with
  | isZero =>
      have scans : VarTest.isZero.handle value = !value.any (· ≠ 0) := rfl
      rw [scans, Bool.not_eq_true', ← Bool.not_eq_true, any_nonzero_iff]
      exact not_not
  | isNonzero => exact any_nonzero_iff value
  | evenParity => exact decide_eq_true_iff.trans (parityOf_even_iff value)
  | oddParity => exact decide_eq_true_iff.trans (not_congr (parityOf_even_iff value))

/-- The answer of a TEST_VAR guard. -/
def testVarAnswer (interpreter : Interpreter) (var : Fin maxVariables) (mask : UInt32) :
    Exec (Bool × GuardStatus) :=
  testGuard interpreter Guard.testVar.code (UInt32.ofNat var.val) mask

theorem testVarAnswer_eq (interpreter : Interpreter) (var : Fin maxVariables) (mask : UInt32) :
    testVarAnswer interpreter var mask = .ok (match VarTest.ofCode? mask with
      | some test => test.handle (interpreter.variableSpace.get var).value
      | none => false, .guardOk) := by
  unfold testVarAnswer testGuard
  rw [Guard.ofCode?_code]
  dsimp only [Guard.handle]
  unfold handleTestVar testVariable
  cases VarTest.ofCode? mask with
  | none => rfl
  | some test =>
      dsimp only
      rw [toNat_ofVariable, load_of_lt var.isLt]
      rfl

/-- The tests of the variables depend on the numbers they hold. -/
structure TestsNumbers (interpreter : Interpreter) : Prop where
  answers : ∀ var test, ∃ result,
    testVariable interpreter.variableSpace (var : Fin maxVariables).val (VarTest.code test) =
      .ok result ∧ (result = true ↔ test.asks (interpreter.variableSpace.number var))
  /-- Variables that compare equal answer every mask alike. -/
  agree : ∀ left right, VarVarHolds interpreter .equalVarVar left right →
    ∀ mask, testVarAnswer interpreter left mask = testVarAnswer interpreter right mask

/--
For all byte strings, whatever their length and whatever zero bytes they have in
front, a test answers what it asks about the number they denote, and so it does
for the variables of every interpreter.
-/
theorem varTests_tell :
    (∀ (test : VarTest) (value : List UInt8),
      test.handle value = true ↔ test.asks (BigEndian.value value)) ∧
    ∀ interpreter, TestsNumbers interpreter := by
  refine ⟨handle_iff, fun interpreter => ⟨?_, ?_⟩⟩
  · intro var test
    refine ⟨test.handle (interpreter.variableSpace.get var).value, ?_, handle_iff test _⟩
    have known : VarTest.ofCode? test.code = some test := by cases test <;> rfl
    rw [testVariable, known]
    dsimp only
    rw [load_of_lt var.isLt]
    rfl
  · intro left right equal mask
    have numbers := (equal_iff left right).mp equal
    rw [testVarAnswer_eq, testVarAnswer_eq]
    cases VarTest.ofCode? mask with
    | none => rfl
    | some test =>
        have same : test.handle (interpreter.variableSpace.get left).value =
            test.handle (interpreter.variableSpace.get right).value := by
          apply Bool.eq_iff_iff.mpr
          rw [handle_iff, handle_iff]
          exact iff_of_eq (congrArg test.asks numbers)
        dsimp only
        rw [same]

end NetworkCode.Kernel
