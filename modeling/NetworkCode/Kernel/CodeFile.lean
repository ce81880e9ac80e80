import Mathlib.Data.Nat.GCD.Basic
import NetworkCode.Kernel.Sysfs

/-!
# The code file

A write of code stores its number of bytes as the length of the program; a
read takes that number for instruction records, and so do the jump checks.
The three agree on the empty program alone.
-/

namespace NetworkCode.Kernel

open Library Library.Checked

/-- `PAGE_SIZE`, the room that a read of a file has. -/
def pageSize : Nat := 4096

/-- `ncm_sysfs_show` on the code file. -/
def ncmSysfsShowCode (long : LongWidth) (sysfs : NcmSysfs) : Exec (List UInt8) :=
  let count := Instr.size * sysfs.program.length.toNat % 2 ^ long.bits
  let block := (sysfs.program.instructions.map CodeBlock.bytes).getD []
  if count ≤ block.length ∧ count ≤ pageSize then
    .ok (block.take count)
  else
    .error (.copyTooLong count)

/-- GOTO and FUTURE accept a target exactly when it is below `bound`. -/
structure JumpsBelow (bound : Nat) (interpreter : Interpreter) : Prop where
  goto : ∀ instr, handleGoto interpreter instr =
    if instr.arg0.toNat < bound then
      .ok ⟨.changePc, { interpreter with programCounter := instr.arg0 }, []⟩
    else
      .ok ⟨.error, interpreter, []⟩
  outside : ∀ instr input, bound ≤ instr.arg1.toNat →
    handleFuture interpreter instr input = .ok ⟨.error, interpreter, []⟩
  inside : ∀ instr input queue, instr.arg1.toNat < bound →
    pushFuture interpreter.futureQueue instr.arg1 instr.arg0.toUInt64 input.pushClock =
      .ok (.ok, queue) →
    handleFuture interpreter instr input = .ok ⟨.ok, { interpreter with futureQueue := queue },
      [.pushed instr.arg1 instr.arg0 input.pushClock]⟩

/-- What a write of code should do to stopped code. -/
structure CodeWriteExact (long : LongWidth) (sysfs : NcmSysfs) (buf : List UInt8)
    (memory : Kmalloc) : Prop where
  /-- `n` whole records are stored as a program of length `n` and read back. -/
  whole : ∀ n, buf.length = Instr.size * n →
    (ncmSysfsStoreCode sysfs buf memory).2 = none ∧
      let after := (ncmSysfsStoreCode sysfs buf memory).1
      after.program.instructions = some ⟨buf⟩ ∧ after.program.length.toNat = n ∧
        (∀ env interpreter, startInterpreter after.ncmInterp after.program after.interpParams env =
          .ok interpreter → JumpsBelow n interpreter) ∧
        ncmSysfsShowCode long after = .ok buf
  /-- Anything else is not installed. -/
  partial_record : ¬ Instr.size ∣ buf.length →
    (ncmSysfsStoreCode sysfs buf memory).1.program.instructions ≠ some ⟨buf⟩

section Writes

variable {long : LongWidth} {sysfs : NcmSysfs} {buf : List UInt8} {memory : Kmalloc}

/-- There is no memory for the new block. -/
theorem storeCode_oops (stopped : sysfs.ncmInterp.isRunning = false)
    (fails : kmallocBlock buf.length memory = none) :
    ncmSysfsStoreCode sysfs buf memory =
      ({ sysfs with program := ⟨none, UInt32.ofNat buf.length⟩ },
        some (.copyTooLong buf.length)) := by
  unfold ncmSysfsStoreCode
  rw [if_neg (by simp [stopped]), fails]

theorem storeCode_stores (stopped : sysfs.ncmInterp.isRunning = false) {block : List UInt8}
    (succeeds : kmallocBlock buf.length memory = some block) :
    ncmSysfsStoreCode sysfs buf memory =
      ({ sysfs with program := ⟨some ⟨buf⟩, UInt32.ofNat buf.length⟩ }, none) := by
  unfold ncmSysfsStoreCode
  rw [if_neg (by simp [stopped]), succeeds]

theorem storeCode_length (stopped : sysfs.ncmInterp.isRunning = false) :
    (ncmSysfsStoreCode sysfs buf memory).1.program.length = UInt32.ofNat buf.length := by
  cases allocated : kmallocBlock buf.length memory with
  | none => rw [storeCode_oops stopped allocated]
  | some block => rw [storeCode_stores stopped allocated]

/-- The byte count of whole records counts them only if there are none. -/
theorem records_of_count {n : Nat} (same : (UInt32.ofNat (Instr.size * n)).toNat = n) : n = 0 := by
  have bound : n < 2 ^ 32 := same ▸ UInt32.toNat_lt _
  rw [UInt32.toNat_ofNat', Instr.size] at same
  have split := Nat.div_add_mod (20 * n) (2 ^ 32)
  rw [same] at split
  have wraps : 2 ^ 32 ∣ 19 * n := by
    have parts : 19 * n + n = 2 ^ 32 * (20 * n / 2 ^ 32) + n :=
      (Nat.succ_mul 19 n).symm.trans split.symm
    exact ⟨20 * n / 2 ^ 32, Nat.add_right_cancel parts⟩
  have coprime : Nat.Coprime (2 ^ 32) 19 := by decide
  exact Nat.eq_zero_of_dvd_of_lt (coprime.dvd_of_dvd_mul_left wraps) bound

/-- No target is below the length of the empty program. -/
theorem jumpsBelow_zero {interpreter : Interpreter} (empty : interpreter.programLength = 0) :
    JumpsBelow 0 interpreter where
  goto instr := by
    unfold handleGoto
    rw [empty, if_pos UInt32.zero_le, if_neg (Nat.not_lt_zero _)]
    rfl
  outside instr input _ := by
    unfold handleFuture
    dsimp only
    rw [empty, if_pos UInt32.zero_le]
    rfl
  inside instr input queue impossible := absurd impossible (Nat.not_lt_zero _)

theorem codeWriteExact_nil (stopped : sysfs.ncmInterp.isRunning = false) :
    CodeWriteExact long sysfs [] memory where
  whole := by
    intro n sized
    have none_left : n = 0 := by
      rw [List.length_nil, Instr.size] at sized
      omega
    subst none_left
    have room : kmallocBlock ([] : List UInt8).length memory = some [] := if_pos rfl
    rw [storeCode_stores stopped room]
    refine ⟨rfl, rfl, rfl, ?_, ?_⟩
    · intro env interpreter started
      obtain ⟨⟨network, acquired⟩, _, finish⟩ := bind_eq_ok.mp started
      cases finish
      exact jumpsBelow_zero rfl
    · unfold ncmSysfsShowCode
      simp
  partial_record impossible := absurd (Nat.dvd_zero _) impossible

/-- A write of code does what it should when it is empty, or when it is no
program and there is no memory for it. -/
theorem codeWriteExact_iff (stopped : sysfs.ncmInterp.isRunning = false) :
    CodeWriteExact long sysfs buf memory ↔
      buf = [] ∨ ¬ Instr.size ∣ buf.length ∧ memory = none := by
  constructor
  · intro write
    by_cases records : Instr.size ∣ buf.length
    · obtain ⟨n, sized⟩ := records
      obtain ⟨_, _, counted, _, _⟩ := write.whole n sized
      rw [storeCode_length stopped, sized] at counted
      rw [records_of_count counted, Nat.mul_zero] at sized
      exact .inl (List.length_eq_zero_iff.mp sized)
    · refine .inr ⟨records, ?_⟩
      cases allocated : kmallocBlock buf.length memory with
      | none => exact (kmallocBlock_eq_none.mp allocated).2
      | some block =>
          have installed := write.partial_record records
          rw [storeCode_stores stopped allocated] at installed
          exact absurd rfl installed
  · rintro (rfl | ⟨records, rfl⟩)
    · exact codeWriteExact_nil stopped
    · have nonempty : buf.length ≠ 0 := by
        intro empty
        exact records (empty ▸ Nat.dvd_zero _)
      have fails := kmallocBlock_eq_none.mpr ⟨nonempty, rfl⟩
      refine ⟨fun n sized => absurd ⟨n, sized⟩ records, fun _ => ?_⟩
      rw [storeCode_oops stopped fails]
      exact nofun

end Writes

/-- A NOP is written, and there is memory for it. -/
theorem codeWriteExact_iff_nop :
    CodeWriteExact .bits64 initModule (Instr.make .nop 0 0 0 0).toBytes (some fun _ => 0) ↔
      (Instr.make .nop 0 0 0 0).toBytes = [] ∨
        ¬ Instr.size ∣ (Instr.make .nop 0 0 0 0).toBytes.length ∧
          (some fun _ => 0 : Kmalloc) = none :=
  codeWriteExact_iff rfl

/-- One NOP is a program of length 20. -/
theorem codeWrite_counts_bytes :
    ¬ ∀ (sysfs : NcmSysfs) (buf : List UInt8), sysfs.ncmInterp.isRunning = false →
      CodeWriteExact .bits64 sysfs buf (some fun _ => 0) := by
  intro claim
  obtain ⟨_, _, counted, _⟩ :=
    (claim initModule (Instr.make .nop 0 0 0 0).toBytes rfl).whole 1 rfl
  exact absurd counted (by decide)

end NetworkCode.Kernel
