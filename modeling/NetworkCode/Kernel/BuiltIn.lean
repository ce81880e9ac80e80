import NetworkCode.Kernel.Annotated
import NetworkCode.Kernel.VariableTransport

/-!
# The built-in programs

The builds for the two virtual machines carry a program of their own and start
it when the module is loaded.  `make_program` writes it field by field into
fresh memory; what it does not set stays as the memory held it, and neither
program ever looks there.
-/

namespace NetworkCode.Kernel

open Library Library.Checked

/-! ## Records in a block of memory -/

/-- `instructions[place].type` -/
def typeAt (block : List UInt8) (place : Nat) : UInt8 := block.getD (Instr.size * place) 0

/-- `instructions[place].args[arg]` -/
def argAt (block : List UInt8) (place arg : Nat) : UInt32 :=
  Bytes.word block (Instr.size * place + 4 + 4 * arg)

def setType (block : List UInt8) (place : Nat) (opcode : Opcode) : List UInt8 :=
  Bytes.overwrite block (Instr.size * place) [opcode.code]

def setArg (block : List UInt8) (place arg : Nat) (value : UInt32) : List UInt8 :=
  Bytes.overwrite block (Instr.size * place + 4 + 4 * arg) (Bytes.littleEndian value)

/-- The operands from one on. -/
def setArgs (block : List UInt8) (place arg : Nat) : List UInt32 → List UInt8
  | [] => block
  | value :: values => setArgs (setArg block place arg value) place (arg + 1) values

/-- An instruction of a built-in program: its bytecode and the operands set. -/
structure Line where
  opcode : Opcode
  args : List UInt32
  deriving DecidableEq, Repr

/-- The instructions from a place on. -/
def setLines (block : List UInt8) (place : Nat) : List Line → List UInt8
  | [] => block
  | line :: lines =>
      setLines (setArgs (setType block place line.opcode) place 0 line.args) (place + 1) lines

/-! ## make_program -/

/-- `TYPE_ARCH1` -/
def typeArch1 : Int := 1

/-- `TYPE_ARCH2` -/
def typeArch2 : Int := 2

def vm1Mac : List UInt8 := [0x08, 0x00, 0x27, 0x46, 0xBC, 0x02]

def vm2Mac : List UInt8 := [0x08, 0x00, 0x27, 0xC0, 0x56, 0x5B]

/-- `devname1` and `devname2`: `eth0` -/
def devname : List UInt8 := [0x65, 0x74, 0x68, 0x30] ++ List.replicate 12 0

/-- ArchVM Program -/
def archVmProgram : List Line :=
  [⟨.create, [0, 0]⟩, ⟨.send, [0, 0]⟩, ⟨.sync, [syncMaster, 0]⟩, ⟨.future, [100000, 5]⟩,
    ⟨.halt, []⟩, ⟨.receive, [0, 1]⟩, ⟨.create, [0, 0]⟩, ⟨.send, [0, 0]⟩,
    ⟨.if, [Guard.alwaysTrue.code, 3]⟩]

/-- ArchVM2 Program -/
def archVm2Program : List Line :=
  [⟨.sync, [syncSlave, 10000000]⟩, ⟨.create, [0, 0]⟩, ⟨.send, [0, 0]⟩, ⟨.future, [100000, 5]⟩,
    ⟨.halt, []⟩, ⟨.receive, [0, 1]⟩, ⟨.if, [Guard.alwaysTrue.code, 1]⟩]

/-- The memory that `kmalloc` returns for the three tables. -/
structure TableMemory where
  mac : Kmalloc
  name : Kmalloc
  instrs : Kmalloc

/-- One case of the `switch`; no result of `kmalloc` is checked. -/
def makeTables (mac : List UInt8) (lines : List Line) (memory : TableMemory) :
    Exec (Program × NetParams) :=
  let length := lines.length
  match kmallocBlock ifnamsiz memory.name, kmallocBlock ethAlen memory.mac,
      kmallocBlock (Instr.size * length) memory.instrs with
  | none, _, _ => .error (.copyTooLong ifnamsiz)
  | some _, none, _ => .error (.copyTooLong ethAlen)
  | some _, some _, none => .error (.outOfBounds .program 0)
  | some _, some _, some block =>
      return (⟨some ⟨setLines block 0 lines⟩, UInt32.ofNat length⟩, ⟨1, some devname, some mac⟩)

def makeProgram (program : Program) (params : NetParams) (type : Int) (memory : TableMemory) :
    Exec (Program × NetParams) :=
  if type = typeArch1 then
    makeTables vm2Mac archVmProgram memory
  else if type = typeArch2 then
    makeTables vm1Mac archVm2Program memory
  else
    return (program, params)

/-- `init_module` of the builds with a built-in program, where the files can be
set up: the interpreter is started at once. -/
def initModuleVm (type : Int) (memory : TableMemory) (env : NetEnv) : Exec NcmSysfs := do
  let (program, params) ← makeProgram ⟨none, 0⟩ ⟨0, none, none⟩ type memory
  let ncmInterp ← startInterpreter (initInterpreter zeroInterpreter) program params env
  return ⟨ncmInterp, program, params, false⟩

/-! ## What the writes leave -/

section Writes

variable {block : List UInt8} {place other arg : Nat}

theorem getD_overwrite {buffer bytes : List UInt8} {offset index : Nat}
    (fits : offset + bytes.length ≤ buffer.length)
    (apart : index < offset ∨ offset + bytes.length ≤ index) :
    (Bytes.overwrite buffer offset bytes).getD index 0 = buffer.getD index 0 := by
  have front : (buffer.take offset).length = offset := List.length_take_of_le (by omega)
  rw [List.getD_eq_getElem?_getD, List.getD_eq_getElem?_getD, Bytes.overwrite]
  rcases apart with before | after
  · rw [List.append_assoc, List.getElem?_append_left (by omega), List.getElem?_take_of_lt before]
  · rw [List.getElem?_append_right (by rw [List.length_append]; omega), List.getElem?_drop,
      List.length_append, front]
    congr 2
    omega

theorem word_overwrite_apart {buffer bytes : List UInt8} {offset index : Nat}
    (fits : offset + bytes.length ≤ buffer.length)
    (apart : index + 4 ≤ offset ∨ offset + bytes.length ≤ index) :
    Bytes.word (Bytes.overwrite buffer offset bytes) index = Bytes.word buffer index := by
  have byte (i : Nat) (small : i < 4) :
      (Bytes.overwrite buffer offset bytes).getD (index + i) 0 = buffer.getD (index + i) 0 :=
    getD_overwrite fits (by omega)
  simp only [Bytes.word, byte 0 (by decide), byte 1 (by decide), byte 2 (by decide),
    byte 3 (by decide)]

theorem word_overwrite_same {buffer : List UInt8} {offset : Nat} {value : UInt32}
    (fits : offset + 4 ≤ buffer.length) :
    Bytes.word (Bytes.overwrite buffer offset (Bytes.littleEndian value)) offset = value := by
  have front : (buffer.take offset).length = offset := List.length_take_of_le (by omega)
  have stored : (Bytes.overwrite buffer offset (Bytes.littleEndian value)).drop offset =
      Bytes.littleEndian value ++ buffer.drop (offset + 4) := by
    rw [Bytes.overwrite, List.append_assoc, List.drop_append_of_le_length (by omega),
      List.drop_eq_nil_of_le (by omega), List.nil_append]
    rfl
  exact Bytes.word_of_drop stored

theorem setType_length {opcode : Opcode} (fits : Instr.size * place + Instr.size ≤ block.length) :
    (setType block place opcode).length = block.length :=
  Bytes.overwrite_length (by simp [Instr.size] at fits ⊢; omega)

theorem setArg_length {value : UInt32} (fits : Instr.size * place + Instr.size ≤ block.length)
    (small : arg < 4) : (setArg block place arg value).length = block.length :=
  Bytes.overwrite_length (by simp [Instr.size, Bytes.littleEndian] at fits ⊢; omega)

/-- A type byte is written, and no operand. -/
theorem typeAt_setType {opcode : Opcode}
    (fits : Instr.size * place + Instr.size ≤ block.length) :
    typeAt (setType block place opcode) other =
      if other = place then opcode.code else typeAt block other := by
  unfold Instr.size at fits
  split
  · next same =>
      subst same
      have front : (block.take (Instr.size * other)).length = Instr.size * other :=
        List.length_take_of_le (by unfold Instr.size; omega)
      rw [typeAt, setType, Bytes.overwrite, List.append_assoc, List.getD_eq_getElem?_getD,
        List.getElem?_append_right (by omega), front, Nat.sub_self]
      rfl
  · next apart =>
      refine getD_overwrite ?_ ?_
      · simp [Instr.size]
        omega
      · simp [Instr.size]
        omega

theorem argAt_setType {opcode : Opcode}
    (fits : Instr.size * place + Instr.size ≤ block.length) (small : arg < 4) :
    argAt (setType block place opcode) other arg = argAt block other arg := by
  unfold Instr.size at fits
  refine word_overwrite_apart ?_ ?_
  · simp [Instr.size]
    omega
  · simp [Instr.size]
    omega

/-- One operand is written, and no type byte. -/
theorem typeAt_setArg {value : UInt32} (fits : Instr.size * place + Instr.size ≤ block.length)
    (small : arg < 4) : typeAt (setArg block place arg value) other = typeAt block other := by
  unfold Instr.size at fits
  refine getD_overwrite ?_ ?_
  · simp [Instr.size, Bytes.littleEndian]
    omega
  · simp [Instr.size, Bytes.littleEndian]
    omega

theorem argAt_setArg {value : UInt32} {arg' : Nat}
    (fits : Instr.size * place + Instr.size ≤ block.length) (small : arg < 4) (small' : arg' < 4) :
    argAt (setArg block place arg value) other arg' =
      if other = place ∧ arg' = arg then value else argAt block other arg' := by
  unfold Instr.size at fits
  split
  · next same =>
      obtain ⟨rfl, rfl⟩ := same
      exact word_overwrite_same (by unfold Instr.size; omega)
  · next apart =>
      refine word_overwrite_apart ?_ ?_
      · simp [Instr.size, Bytes.littleEndian]
        omega
      · simp [Instr.size, Bytes.littleEndian]
        omega

theorem setArgs_length {values : List UInt32}
    (fits : Instr.size * place + Instr.size ≤ block.length) (few : arg + values.length ≤ 4) :
    (setArgs block place arg values).length = block.length := by
  induction values generalizing block arg with
  | nil => rfl
  | cons value values ih =>
      rw [List.length_cons] at few
      have length : (setArg block place arg value).length = block.length :=
        setArg_length fits (by omega)
      exact (ih (by rw [length]; exact fits) (by omega)).trans length

theorem typeAt_setArgs {values : List UInt32}
    (fits : Instr.size * place + Instr.size ≤ block.length) (few : arg + values.length ≤ 4) :
    typeAt (setArgs block place arg values) other = typeAt block other := by
  induction values generalizing block arg with
  | nil => rfl
  | cons value values ih =>
      rw [List.length_cons] at few
      have length : (setArg block place arg value).length = block.length :=
        setArg_length fits (by omega)
      exact (ih (by rw [length]; exact fits) (by omega)).trans (typeAt_setArg fits (by omega))

theorem argAt_setArgs {values : List UInt32} {arg' : Nat}
    (fits : Instr.size * place + Instr.size ≤ block.length) (few : arg + values.length ≤ 4)
    (small : arg' < 4) :
    argAt (setArgs block place arg values) other arg' =
      if other = place ∧ arg ≤ arg' ∧ arg' < arg + values.length then values.getD (arg' - arg) 0
      else argAt block other arg' := by
  induction values generalizing block arg with
  | nil =>
      rw [setArgs, if_neg]
      rw [List.length_nil]
      omega
  | cons value values ih =>
      rw [List.length_cons] at few
      have first : arg < 4 := by omega
      have length : (setArg block place arg value).length = block.length :=
        setArg_length fits first
      rw [setArgs, ih (by rw [length]; exact fits) (by omega), argAt_setArg fits first small,
        List.length_cons]
      by_cases same : arg' = arg
      · subst same
        by_cases here : other = place
        · simp [here]
        · simp [here]
      · by_cases behind : other = place ∧ arg + 1 ≤ arg' ∧ arg' < arg + 1 + values.length
        · rw [if_pos behind, if_pos (by omega), show arg' - arg = arg' - (arg + 1) + 1 by omega]
          rfl
        · rw [if_neg behind, if_neg (by omega), if_neg (by omega)]

/-- The record at a place of a block. -/
def recordAt (block : List UInt8) (place : Nat) : Instr where
  type := typeAt block place
  args := #v[argAt block place 0, argAt block place 1, argAt block place 2, argAt block place 3]

/-- What a line makes of the record that the memory held. -/
def Line.record (line : Line) (stale : Instr) : Instr where
  type := line.opcode.code
  args := #v[line.args.getD 0 stale.arg0, line.args.getD 1 stale.arg1,
    line.args.getD 2 stale.arg2, line.args.getD 3 stale.arg3]

section OneLine

variable {line : Line} (fits : Instr.size * place + Instr.size ≤ block.length)
  (few : line.args.length ≤ 4)

include fits few

theorem setLine_length :
    (setArgs (setType block place line.opcode) place 0 line.args).length = block.length := by
  have length : (setType block place line.opcode).length = block.length := setType_length fits
  have fits' : Instr.size * place + Instr.size ≤ (setType block place line.opcode).length := by
    rw [length]
    exact fits
  exact (setArgs_length fits' (by omega)).trans length

theorem recordAt_setLine :
    recordAt (setArgs (setType block place line.opcode) place 0 line.args) other =
      if other = place then line.record (recordAt block other) else recordAt block other := by
  have fits' : Instr.size * place + Instr.size ≤ (setType block place line.opcode).length := by
    rw [setType_length fits]
    exact fits
  have written (arg : Nat) (small : arg < 4) :
      argAt (setArgs (setType block place line.opcode) place 0 line.args) other arg =
        if other = place then line.args.getD arg (argAt block other arg)
        else argAt block other arg := by
    rw [argAt_setArgs fits' (by omega) small, argAt_setType fits small]
    by_cases same : other = place
    · by_cases given : arg < line.args.length
      · simp [same, given]
      · simp [same, given]
    · simp [same]
  unfold recordAt
  rw [typeAt_setArgs fits' (by omega), typeAt_setType fits, written 0 (by decide),
    written 1 (by decide), written 2 (by decide), written 3 (by decide)]
  by_cases same : other = place
  · simp only [if_pos same]
    rfl
  · simp only [if_neg same]

end OneLine

theorem setLines_length {lines : List Line}
    (fits : Instr.size * (place + lines.length) ≤ block.length)
    (few : ∀ line ∈ lines, line.args.length ≤ 4) :
    (setLines block place lines).length = block.length := by
  induction lines generalizing block place with
  | nil => rfl
  | cons line lines ih =>
      rw [List.length_cons] at fits
      have first : Instr.size * place + Instr.size ≤ block.length := by
        rw [← Nat.mul_succ]
        exact (Nat.mul_le_mul_left _ (by omega)).trans fits
      have length := setLine_length first (few line List.mem_cons_self)
      rw [← Nat.add_assoc, Nat.add_right_comm, ← length] at fits
      exact (ih fits fun line member => few line (List.mem_cons_of_mem _ member)).trans length

/-- The records of a block after the lines of a program were written to it. -/
theorem recordAt_setLines {lines : List Line} (other : Nat)
    (fits : Instr.size * (place + lines.length) ≤ block.length)
    (few : ∀ line ∈ lines, line.args.length ≤ 4) :
    recordAt (setLines block place lines) other =
      if other < place then recordAt block other
      else (lines[other - place]?).elim (recordAt block other) fun line =>
        line.record (recordAt block other) := by
  induction lines generalizing block place with
  | nil => simp [setLines]
  | cons line lines ih =>
      rw [List.length_cons] at fits
      have first : Instr.size * place + Instr.size ≤ block.length := by
        rw [← Nat.mul_succ]
        exact (Nat.mul_le_mul_left _ (by omega)).trans fits
      have length := setLine_length first (few line List.mem_cons_self)
      rw [← Nat.add_assoc, Nat.add_right_comm, ← length] at fits
      rw [setLines, ih fits fun line member => few line (List.mem_cons_of_mem _ member),
        recordAt_setLine first (few line List.mem_cons_self)]
      rcases Nat.lt_trichotomy other place with before | rfl | after
      · rw [if_pos (by omega), if_neg (by omega), if_pos before]
      · simp
      · rw [if_neg (by omega), if_neg (by omega), if_neg (by omega),
          show other - place = other - (place + 1) + 1 by omega, List.getElem?_cons_succ]

theorem ofBytes_slice :
    Instr.ofBytes (Bytes.slice block (Instr.size * place) Instr.size) = recordAt block place := by
  have byte (index : Nat) (small : index < Instr.size) :
      (Bytes.slice block (Instr.size * place) Instr.size).getD index 0 =
        block.getD (Instr.size * place + index) 0 := by
    rw [List.getD_eq_getElem?_getD, List.getD_eq_getElem?_getD, Bytes.slice,
      List.getElem?_take_of_lt small, List.getElem?_drop]
  have word (index : Nat) (small : index + 4 ≤ Instr.size) :
      Bytes.word (Bytes.slice block (Instr.size * place) Instr.size) index =
        Bytes.word block (Instr.size * place + index) := by
    simp only [Bytes.word, byte (index + 0) (by omega), byte (index + 1) (by omega),
      byte (index + 2) (by omega), byte (index + 3) (by omega), Nat.add_assoc]
  unfold Instr.ofBytes recordAt
  rw [byte 0 (by decide), word 4 (by decide), word 8 (by decide), word 12 (by decide),
    word 16 (by decide)]
  rfl

end Writes

/-! ## Programs alike up to operands that nothing reads -/

/-- The same bytecode, and the same first operands where the bytecode has any. -/
def Instr.SameShape (instr other : Instr) : Prop :=
  instr.opcode? = other.opcode? ∧
    (other.opcode? = some .halt ∨ instr.arg0 = other.arg0 ∧ instr.arg1 = other.arg1)

section Shape

variable {instrs others : List Instr} {instr other : Instr} {certificate : Certificate}
  {opcode : Opcode} {place : Nat}

theorem resumePoint?_congr (same : instr.SameShape other) :
    instr.resumePoint? = other.resumePoint? := by
  obtain ⟨opcodes, halt | ⟨-, jumps⟩⟩ := same
  · simp [Instr.resumePoint?, opcodes, halt]
  · simp [Instr.resumePoint?, opcodes, jumps]

theorem resumePoints_congr (same : List.Forall₂ Instr.SameShape instrs others) :
    resumePoints instrs = resumePoints others := by
  induction same with
  | nil => rfl
  | cons first _ ih =>
      rw [resumePoints, List.filterMap_cons, resumePoint?_congr first, resumePoints,
        List.filterMap_cons]
      unfold resumePoints at ih
      rw [ih]

theorem successors_congr (programs : List.Forall₂ Instr.SameShape instrs others)
    (same : instr.SameShape other) (decoded : other.opcode? = some opcode) :
    opcode.successors instrs instr place = opcode.successors others other place := by
  have points := resumePoints_congr programs
  obtain ⟨-, halt | ⟨first, second⟩⟩ := same
  · cases decoded.symm.trans halt
    simp [Opcode.successors, points]
  · cases opcode <;> simp [Opcode.successors, points, first, second]

theorem needs_congr {length : Nat} {pending : Pending} (same : instr.SameShape other)
    (decoded : other.opcode? = some opcode) :
    opcode.Needs length pending instr ↔ opcode.Needs length pending other := by
  obtain ⟨-, halt | ⟨first, second⟩⟩ := same
  · cases decoded.symm.trans halt
    rfl
  · cases opcode <;> simp [Opcode.Needs, first, second]

theorem spends_congr (same : instr.SameShape other) (decoded : other.opcode? = some opcode) :
    opcode.spends instr = opcode.spends other := by
  obtain ⟨-, halt | ⟨first, -⟩⟩ := same
  · cases decoded.symm.trans halt
    rfl
  · cases opcode <;> simp [Opcode.spends, first]

theorem Certified.of_sameShape (programs : List.Forall₂ Instr.SameShape instrs others)
    (certified : Certified others certificate) : Certified instrs certificate := by
  have lengths := programs.length_eq
  constructor
  · intro place bound
    have bound' : place < others.length := lengths ▸ bound
    have same := programs.get bound bound'
    obtain ⟨opcode, decoded, needs, leads⟩ := certified.rows place bound'
    refine ⟨opcode, same.1.trans decoded, ?_, ?_⟩
    · rw [lengths]
      exact (needs_congr same decoded).mpr needs
    · rw [lengths]
      intro target successor
      exact leads target (successors_congr programs same decoded ▸ successor)
  · rw [lengths]
    exact certified.addressable

theorem Solitary.of_sameShape {gap : Nat} (programs : List.Forall₂ Instr.SameShape instrs others)
    (solitary : Solitary others certificate gap) : Solitary instrs certificate gap := by
  have lengths := programs.length_eq
  constructor
  · intro place bound inserts
    have bound' : place < others.length := lengths ▸ bound
    have same := programs.get bound bound'
    rw [List.get_eq_getElem, List.get_eq_getElem] at same
    rw [same.1] at inserts
    exact solitary.alone place bound' inserts
  · intro instr member inserts
    obtain ⟨place, bound, rfl⟩ := List.getElem_of_mem member
    have bound' : place < others.length := lengths ▸ bound
    have same := programs.get bound bound'
    rw [List.get_eq_getElem, List.get_eq_getElem] at same
    rw [same.1] at inserts
    have waits := solitary.waits _ (List.getElem_mem bound') inserts
    rcases same.2 with halt | ⟨first, -⟩
    · rw [halt] at inserts
      rcases inserts with impossible | impossible <;> cases impossible
    · rw [first]
      exact waits

theorem Ranked.of_sameShape {rests : Nat → Bool} {rank : Nat → Nat}
    (programs : List.Forall₂ Instr.SameShape instrs others)
    (ranked : Ranked others rests rank) : Ranked instrs rests rank := by
  intro place bound awake opcode decoded target successor
  have bound' : place < others.length := programs.length_eq ▸ bound
  have same := programs.get bound bound'
  have decoded' := same.1.symm.trans decoded
  exact ranked place bound' awake opcode decoded' target
    (successors_congr programs same decoded' ▸ successor)

theorem Budgeted.of_sameShape {budget : Nat → Nat} {top : Nat}
    (programs : List.Forall₂ Instr.SameShape instrs others)
    (budgeted : Budgeted others budget top) : Budgeted instrs budget top := by
  have lengths := programs.length_eq
  constructor
  · intro place bound opcode decoded target successor
    have bound' : place < others.length := lengths ▸ bound
    have same := programs.get bound bound'
    rw [List.get_eq_getElem, List.get_eq_getElem] at same
    have decoded' := same.1.symm.trans decoded
    rw [spends_congr same decoded']
    exact budgeted.flows place bound' opcode decoded' target
      (successors_congr programs same decoded' ▸ successor)
  · intro place bound opcode decoded
    have bound' : place < others.length := lengths ▸ bound
    have same := programs.get bound bound'
    rw [List.get_eq_getElem, List.get_eq_getElem] at same
    have decoded' := same.1.symm.trans decoded
    rw [spends_congr same decoded']
    exact budgeted.covers place bound' opcode decoded'

end Shape

/-! ## The programs that are made -/

/-- The instructions of a built-in program, over what the memory held. -/
def lineInstrs (lines : List Line) (stale : Nat → Instr) : List Instr :=
  lines.mapIdx fun place line => line.record (stale place)

/-- A record without operands. -/
def blankInstr : Instr := .make .nop 0 0 0 0

/-- The line sets the first two operands, or has none. -/
def Line.Complete (line : Line) : Prop := line.opcode = .halt ∨ 2 ≤ line.args.length

instance (line : Line) : Decidable line.Complete := inferInstanceAs (Decidable (_ ∨ _))

theorem record_sameShape {line : Line} (complete : line.Complete) (stale other : Instr) :
    (line.record stale).SameShape (line.record other) := by
  refine ⟨rfl, ?_⟩
  rcases complete with halt | two
  · refine .inl ?_
    rw [← halt]
    exact Opcode.ofCode?_code line.opcode
  · have given {place : Nat} (small : place < 2) (first second : UInt32) :
        line.args.getD place first = line.args.getD place second := by
      have bound : place < line.args.length := Nat.lt_of_lt_of_le small two
      simp [List.getD_eq_getElem?_getD, bound]
    exact .inr ⟨given (by decide) _ _, given (by decide) _ _⟩

theorem lineInstrs_sameShape {lines : List Line} (complete : ∀ line ∈ lines, line.Complete)
    (stale : Nat → Instr) :
    List.Forall₂ Instr.SameShape (lineInstrs lines stale) (lines.map (·.record blankInstr)) := by
  refine List.forall₂_iff_get.mpr ⟨by simp [lineInstrs], fun place bound bound' => ?_⟩
  have inside : place < lines.length := by simpa using bound'
  simpa [lineInstrs] using
    record_sameShape (complete _ (List.getElem_mem inside)) (stale place) blankInstr

/-- `TYPE_ARCH1` and `TYPE_ARCH2` -/
inductive Arch where
  | arch1
  | arch2
  deriving DecidableEq, Repr

namespace Arch

def type : Arch → Int
  | arch1 => typeArch1
  | arch2 => typeArch2

def lines : Arch → List Line
  | arch1 => archVmProgram
  | arch2 => archVm2Program

/-- The MAC of the other machine. -/
def peerMac : Arch → List UInt8
  | arch1 => vm2Mac
  | arch2 => vm1Mac

/-- The frames that the program may have sent beyond its futures. -/
def budget : Arch → Nat → Nat
  | arch1, place => [0, 0, 1, 2, 1, 1, 1, 1, 2].getD place 0
  | arch2, place => [0, 0, 0, 1, 0, 0, 0].getD place 0

def burst : Arch → Nat
  | arch1 => 2
  | arch2 => 1

/-- How many instructions are ahead of the HALT. -/
def rank : Arch → Nat → Nat
  | arch1, place => [4, 3, 2, 1, 0, 5, 4, 3, 2].getD place 0
  | arch2, place => [4, 3, 2, 1, 0, 5, 4].getD place 0

end Arch

/-- One future is pending behind the FUTURE, and none elsewhere. -/
def vmCertificate : Certificate := fun place => if place = 4 then ⟨1, 1⟩ else ⟨0, 0⟩

section Programs

variable (arch : Arch) (stale : Nat → Instr)

theorem lines_complete : ∀ line ∈ arch.lines, line.Complete := by
  cases arch <;> decide

theorem lines_few : ∀ line ∈ arch.lines, line.args.length ≤ 4 := by
  cases arch <;> decide

theorem vm_certified : Certified (lineInstrs arch.lines stale) vmCertificate := by
  have blank : Certified (arch.lines.map (·.record blankInstr)) vmCertificate := by
    cases arch <;> decide
  exact blank.of_sameShape (lineInstrs_sameShape (lines_complete arch) stale)

theorem vm_solitary : Solitary (lineInstrs arch.lines stale) vmCertificate 100000 := by
  have blank : Solitary (arch.lines.map (·.record blankInstr)) vmCertificate 100000 := by
    constructor
    · cases arch <;> decide
    · cases arch <;> decide
  exact blank.of_sameShape (lineInstrs_sameShape (lines_complete arch) stale)

theorem vm_budgeted : Budgeted (lineInstrs arch.lines stale) arch.budget arch.burst := by
  have blank : Budgeted (arch.lines.map (·.record blankInstr)) arch.budget arch.burst := by
    constructor
    · cases arch <;> decide
    · cases arch <;> decide
  exact blank.of_sameShape (lineInstrs_sameShape (lines_complete arch) stale)

theorem vm_ranked : Ranked (lineInstrs arch.lines stale) (· == 4) arch.rank := by
  have blank : Ranked (arch.lines.map (·.record blankInstr)) (· == 4) arch.rank := by
    cases arch <;> decide
  exact blank.of_sameShape (lineInstrs_sameShape (lines_complete arch) stale)

theorem rank_le {place : Nat} (inside : place < (lineInstrs arch.lines stale).length) :
    arch.rank place ≤ 5 := by
  have few : ∀ place < arch.lines.length, arch.rank place ≤ 5 := by cases arch <;> decide
  rw [lineInstrs, List.length_mapIdx] at inside
  exact few place inside

end Programs

/-! ## Loading the module with a built-in program -/

section Loading

variable {arch : Arch} {memory : TableMemory} {env : NetEnv} {program : Program}
  {params : NetParams} {sysfs : NcmSysfs}

theorem kmallocBlock_length {size : Nat} {memory : Kmalloc} {block : List UInt8}
    (allocated : kmallocBlock size memory = some block) : block.length = size := by
  unfold kmallocBlock at allocated
  split at allocated
  · next empty =>
      cases allocated
      exact empty.symm
  · obtain ⟨bytes, _, rfl⟩ := Option.map_eq_some_iff.mp allocated
    simp

theorem makeTables_eq_ok {mac : List UInt8} {lines : List Line}
    (few : ∀ line ∈ lines, line.args.length ≤ 4)
    (made : makeTables mac lines memory = .ok (program, params)) :
    params = ⟨1, some devname, some mac⟩ ∧ program.length = UInt32.ofNat lines.length ∧
      ∃ block stale, program.instructions = some block ∧
        ∀ place (bound : place < (lineInstrs lines stale).length),
          block.fetch place = .ok (lineInstrs lines stale)[place] := by
  unfold makeTables at made
  dsimp only at made
  split at made
  · cases made
  · cases made
  · cases made
  · next names macs block _ _ allocated =>
      cases made
      have length := kmallocBlock_length allocated
      have fits : Instr.size * (0 + lines.length) ≤ block.length := by
        rw [length, Nat.zero_add]
      refine ⟨rfl, rfl, _, recordAt block, rfl, fun place bound => ?_⟩
      have inside : place < lines.length := by simpa [lineInstrs] using bound
      have whole := setLines_length fits few
      have record := recordAt_setLines place fits few
      rw [if_neg (Nat.not_lt_zero _), Nat.sub_zero, List.getElem?_eq_getElem inside] at record
      rw [CodeBlock.fetch_of_lt, ofBytes_slice, record]
      · simp [lineInstrs]
      · rw [CodeBlock.records, whole, length]
        simpa [Instr.size] using inside

theorem makeProgram_arch (arch : Arch) (program : Program) (params : NetParams)
    (memory : TableMemory) :
    makeProgram program params arch.type memory = makeTables arch.peerMac arch.lines memory := by
  cases arch <;> rfl

/-- Loading the module starts the built-in program with one channel, at its first
instruction and without a pending future. -/
theorem initModuleVm_eq_ok (loaded : initModuleVm arch.type memory env = .ok sysfs) :
    sysfs.ncmInterp.thread = some .created ∧ sysfs.ncmInterp.network.channels = 1 ∧
      sysfs.ncmInterp.network.WellSet ∧
      ∃ stale, OnCourse (lineInstrs arch.lines stale) vmCertificate sysfs.ncmInterp
        BoundedQueue.empty := by
  obtain ⟨⟨program, params⟩, made, started⟩ := bind_eq_ok.mp loaded
  rw [makeProgram_arch] at made
  obtain ⟨rfl, length, block, stale, written, fetches⟩ := makeTables_eq_ok (lines_few arch) made
  obtain ⟨interpreter, started, finish⟩ := bind_eq_ok.mp started
  obtain ⟨⟨network, acquired⟩, initialised, built⟩ := bind_eq_ok.mp started
  cases built
  cases finish
  obtain ⟨table, lengths, rfl⟩ := initNetwork_eq_ok initialised
  refine ⟨rfl, rfl, ⟨?_, rfl, .inr rfl, rfl⟩, stale, ?_⟩
  · intro other same
    cases same
    exact lengths
  · constructor
    · refine ⟨⟨block, written, fetches⟩, ?_⟩
      dsimp only
      rw [length]
      cases arch <;> exact Nat.le_refl _
    · exact initFutureQueue_represents _
    · cases arch <;> exact Nat.succ_pos _
    · exact ⟨Nat.le_refl _, Nat.le_refl _⟩
    · exact nofun

end Loading

/-! ## Every run of a build with a built-in program -/

section Runs

variable {long : LongWidth} {arch : Arch} {memory : TableMemory} {env : NetEnv}
  {first last : NcmSysfs} {labels : List (Action × List Observation)}

/-- The entries that the built-in programs use. -/
def vmOperands : List Operand :=
  [⟨.variables, 0⟩, ⟨.variables, 1⟩, ⟨.messages, 0⟩, ⟨.channels, 0⟩]

theorem operands_record {line : Line} (member : line ∈ arch.lines) (stale : Instr) :
    ∀ operand ∈ (line.record stale).operands, operand ∈ vmOperands := by
  have create : ∀ operand ∈ ((⟨.create, [0, 0]⟩ : Line).record stale).operands,
      operand ∈ vmOperands := by
    change ∀ operand ∈ [⟨Table.variables, (0 : UInt32)⟩, ⟨.messages, 0⟩], operand ∈ vmOperands
    decide
  have send : ∀ operand ∈ ((⟨.send, [0, 0]⟩ : Line).record stale).operands,
      operand ∈ vmOperands := by
    change ∀ operand ∈ [⟨Table.channels, (0 : UInt32)⟩, ⟨.messages, 0⟩], operand ∈ vmOperands
    decide
  have receive : ∀ operand ∈ ((⟨.receive, [0, 1]⟩ : Line).record stale).operands,
      operand ∈ vmOperands := by
    change ∀ operand ∈ [⟨Table.channels, (0 : UInt32)⟩, ⟨.variables, 1⟩], operand ∈ vmOperands
    decide
  have sync : ∀ operand ∈ ((⟨.sync, [syncMaster, 0]⟩ : Line).record stale).operands,
      operand ∈ vmOperands := by
    change ∀ operand ∈ [⟨Table.channels, (0 : UInt32)⟩], operand ∈ vmOperands
    decide
  have others {line : Line} (none : (line.record stale).operands = []) :
      ∀ operand ∈ (line.record stale).operands, operand ∈ vmOperands := by
    rw [none]
    exact nofun
  cases arch with
  | arch1 =>
      simp only [Arch.lines, archVmProgram, List.mem_cons, List.not_mem_nil, or_false] at member
      rcases member with rfl | rfl | rfl | rfl | rfl | rfl | rfl | rfl | rfl
      · exact create
      · exact send
      · exact sync
      · exact others rfl
      · exact others rfl
      · exact receive
      · exact create
      · exact send
      · exact others rfl
  | arch2 =>
      simp only [Arch.lines, archVm2Program, List.mem_cons, List.not_mem_nil, or_false] at member
      rcases member with rfl | rfl | rfl | rfl | rfl | rfl | rfl
      · exact others rfl
      · exact create
      · exact send
      · exact others rfl
      · exact others rfl
      · exact receive
      · exact others rfl

theorem builtIn_never_ends {instr : Instr} {stale : Nat → Instr}
    (member : instr ∈ lineInstrs arch.lines stale) : instr.opcode? ≠ some .endOfProgram := by
  obtain ⟨place, inside, rfl⟩ := List.mem_mapIdx.mp member
  have noEnd : ∀ line ∈ arch.lines, line.opcode ≠ .endOfProgram := by
    cases arch <;> decide
  intro ends
  have decoded : (arch.lines[place].record (stale place)).opcode? = some arch.lines[place].opcode :=
    Opcode.ofCode?_code _
  exact noEnd _ (List.getElem_mem inside) (Option.some.inj (decoded.symm.trans ends))

/-- The built-in programs leave a table only when the channels have been released. -/
theorem vmOperands_exist {interpreter : Interpreter} {instr : Instr} {stale : Nat → Instr}
    (channels : interpreter.network.channels = 1) (present : interpreter.network.table ≠ none)
    (member : instr ∈ lineInstrs arch.lines stale) :
    ∀ operand ∈ instr.operands, operand.Exists interpreter := by
  obtain ⟨place, inside, rfl⟩ := List.mem_mapIdx.mp member
  intro operand uses
  have listed := operands_record (List.getElem_mem inside) (stale place) operand uses
  refine ⟨?_, fun _ => present⟩
  simp only [vmOperands, List.mem_cons, List.not_mem_nil, or_false] at listed
  rcases listed with rfl | rfl | rfl | rfl
  · exact (by decide : (0 : UInt32).toNat < maxVariables)
  · exact (by decide : (1 : UInt32).toNat < maxVariables)
  · exact (by decide : (0 : UInt32).toNat < maxMessages)
  · change (0 : UInt32).toNat < interpreter.network.channels.toNat
    rw [channels]
    decide

/-- Only a start changes the number of channels. -/
theorem Moves.channels {sysfs : NcmSysfs} {action : Action} {shown : List Observation}
    {next : Interpreter} (moves : Moves long sysfs action shown next)
    (unstarted : ¬ StartsInterpreter sysfs action) :
    next.network.channels = sysfs.ncmInterp.network.channels := by
  rcases moves.network_kept unstarted with same | destroyed
  · exact same.channels
  · rw [destroyed]

/-- An iteration that goes on or fails at a SEND, or that leaves a table after
the channels have been released, or that meets another fault. -/
def Harmless (interpreter : Interpreter) (instr : Instr) : Exec Iteration → Prop
  | .ok iteration => iteration.exit = none ∨
      instr.opcode? = some .send ∧ iteration.exit = some .programError
  | .error fault => fault.IsTableFault → interpreter.network.table = none

/-- What a build with a built-in program does until it is started again. -/
structure KeepsGoing (long : LongWidth) (arch : Arch) (stale : Nat → Instr)
    (labels : List (Action × List Observation)) (sysfs : NcmSysfs) : Prop where
  /-- The thread returns at a SEND that fails or for want of its scheduling class. -/
  returned : ∀ code, sysfs.ncmInterp.thread = some (.returned code) →
    code = .programError ∧ MayReturn (lineInstrs arch.lines stale) labels code
  alone : sysfs.ncmInterp.Active → sysfs.ncmInterp.futureQueue.live.length ≤ 1
  fetches : sysfs.ncmInterp.thread = some .looping →
    ∃ instr ∈ lineInstrs arch.lines stale, sysfs.ncmInterp.fetch = .ok instr ∧
      ∀ input, Harmless sysfs.ncmInterp instr (execute long sysfs.ncmInterp instr input)

theorem Outcome.of_builtIn {interpreter : Interpreter} {instr : Instr} {stale : Nat → Instr}
    {result : Exec Iteration} (outcome : Outcome interpreter instr result)
    (member : instr ∈ lineInstrs arch.lines stale)
    (channels : interpreter.network.channels = 1) : Harmless interpreter instr result := by
  cases outcome with
  | goesOn exit => exact .inl exit
  | sendFails decoded exit => exact .inr ⟨decoded, exit⟩
  | ends decoded => exact (builtIn_never_ends member decoded).elim
  | faults missing =>
      intro bad
      by_contra present
      obtain ⟨operand, uses, absent⟩ := missing bad
      exact absent (vmOperands_exist channels present member operand uses)

/-- Once around the loop of the first machine, with the sleep in its HALT. -/
def firstSteps : List Action :=
  [.setScheduler true, .instruction (.atClock 1 1 1), .instruction (.atClock 2 2 2),
    .instruction (.atClock 3 3 3), .instruction (.atClock 4 4 4),
    .instruction (.atClock 5 5 100004), .instruction (.atClock 100005 100005 100005),
    .instruction (.atClock 100006 100006 100006), .instruction (.atClock 100007 100007 100007),
    .instruction (.atClock 100008 100008 100008)]

def blankMemory : TableMemory := ⟨some fun _ => 0, some fun _ => 0, some fun _ => 0⟩

set_option maxRecDepth 20000 in
/-- The first machine sends two frames, sleeps, sends a third one and is at its
FUTURE again. -/
theorem exists_firstRun : ∃ (first last : NcmSysfs) (labels : List (Action × List Observation))
    (sent synced again : NetEvent), initModuleVm typeArch1 blankMemory .carded = .ok first ∧
      Run (Meeting (Step .bits32) Unstarted) first labels last ∧
      labels.map Prod.fst = firstSteps ∧ last.ncmInterp.isRunning = true ∧
      historyOf labels = [.network sent, .network synced, .pushed 5 100000 4,
        .resumed ⟨5, 100000, 100004⟩ 5 99999 100004, .network again] := by
  have done : ∃ first last labels sent synced again,
      initModuleVm typeArch1 blankMemory .carded = .ok first ∧
      Run.carryOut (fun sysfs : NcmSysfs => sysfs.next .bits32) first firstSteps =
        .ok (last, labels) ∧ last.ncmInterp.isRunning = true ∧
      historyOf labels = [.network sent, .network synced, .pushed 5 100000 4,
        .resumed ⟨5, 100000, 100004⟩ 5 99999 100004, .network again] :=
    ⟨_, _, _, _, _, _, rfl, rfl, rfl, rfl⟩
  obtain ⟨first, last, labels, sent, synced, again, loaded, ran, running, history⟩ := done
  have actions := Run.carryOut_actions ran
  have run := (Run.of_carryOut ran).meeting
    (unstarted_of_actions actions (by simp [firstSteps]))
  exact ⟨first, last, labels, sent, synced, again, loaded, run, actions, running, history⟩

/--
The builds for the virtual machines keep going: over every run of the module
until the interpreter is started again, whatever is written to the files,
arrives, is answered by the driver and is read from the clock, no FUTURE of the
built-in program finds the queue full and no HALT finds it empty, every fetch
is an instruction of the program, the thread returns only with an error, at a
SEND that fails or for want of its scheduling class, and no table is left
before a `stop` has released the channels.
-/
theorem built_in_program_keeps_going (arch : Arch)
    (loaded : initModuleVm arch.type memory env = .ok first) :
    ∃ stale, ∀ labels last, Run (Meeting (Step long) Unstarted) first labels last →
      KeepsGoing long arch stale labels last := by
  obtain ⟨created, one, wellSet, stale, course⟩ := initModuleVm_eq_ok loaded
  refine ⟨stale, fun labels last run => ?_⟩
  have certified := vm_certified arch stale
  have started : Steered (lineInstrs arch.lines stale) vmCertificate [] first.ncmInterp :=
    ⟨fun _ => ⟨_, course⟩, by rw [created]; exact nofun⟩
  have steered := run_steered certified started run
  have wellSet := run.of_meeting.invariant (fun sysfs => sysfs.ncmInterp.network.WellSet)
    step_wellSet wellSet
  have channels : last.ncmInterp.network.channels = 1 :=
    run.invariant (fun sysfs => sysfs.ncmInterp.network.channels = 1)
      (fun _ _ _ same hstep => ((step_moves hstep.2).channels hstep.1).trans same) one
  constructor
  · intro code returned
    have cause := steered.returned code returned
    refine ⟨?_, cause⟩
    cases cause with
    | ends instr member decoded => exact (builtIn_never_ends member decoded).elim
    | sendFails => rfl
    | unscheduled => rfl
  · intro active
    obtain ⟨futures, course⟩ := steered.active active
    rw [course.represents.live_eq]
    refine course.allowed.2.trans ?_
    unfold vmCertificate
    split <;> simp
  · intro looping
    obtain ⟨futures, course⟩ := steered.active (.inr looping)
    obtain ⟨bound, fetched⟩ := course.fetches
    have member := List.getElem_mem bound
    refine ⟨_, member, fetched, fun input => ?_⟩
    exact (course.outcome certified wellSet fetched input).of_builtIn member channels

theorem built_in_program_keeps_going_arch1 :
    ∃ (first last : NcmSysfs) (labels : List (Action × List Observation)) (stale : Nat → Instr),
      initModuleVm typeArch1 blankMemory .carded = .ok first ∧ labels.map Prod.fst = firstSteps ∧
      KeepsGoing .bits32 .arch1 stale labels last := by
  obtain ⟨first, last, labels, -, -, -, loaded, run, actions, -⟩ := exists_firstRun
  obtain ⟨stale, keeps⟩ := built_in_program_keeps_going .arch1 loaded
  exact ⟨first, last, labels, stale, loaded, actions, keeps labels last run⟩

/--
Every window of such a run, under a clock that never goes back and sleeps that
are not cut short, carries at most one frame for every 100000 microseconds, and
three more (two for the second machine).
-/
theorem built_in_frames_in_window (arch : Arch)
    (before window : List (Action × List Observation)) {low high : Nat}
    (loaded : initModuleVm arch.type memory env = .ok first)
    (run : Run (Meeting (Step long) Unstarted) first (before ++ window) last)
    (clock : ClockRuns (historyOf (before ++ window)))
    (inside : ∀ reading ∈ readingsIn (historyOf window),
      low ≤ reading.toNat ∧ reading.toNat ≤ high) :
    (transmissionsIn (historyOf window)).length * 100000 ≤
      (arch.burst + 1) * 100000 + (high - low) := by
  obtain ⟨created, -, -, stale, course⟩ := initModuleVm_eq_ok loaded
  exact frames_in_window (vm_certified arch stale) (vm_solitary arch stale)
    (vm_budgeted arch stale) course created run clock inside

/-- The first machine sends three frames around its loop. -/
theorem built_in_frames_in_window_arch1 :
    ∃ labels : List (Action × List Observation), labels.map Prod.fst = firstSteps ∧
      (transmissionsIn (historyOf labels)).length = 3 ∧
      (transmissionsIn (historyOf labels)).length * 100000 ≤
        (Arch.arch1.burst + 1) * 100000 + (100004 - 4) := by
  obtain ⟨first, last, labels, sent, synced, again, loaded, run, actions, -, history⟩ :=
    exists_firstRun
  have readings : readingsIn (historyOf labels) = [4, 5, 100004] := by
    rw [history]
    rfl
  have clock : ClockRuns (historyOf ([] ++ labels)) := by
    rw [List.nil_append]
    refine ⟨by rw [readings]; decide, by rw [readings]; simp, ?_⟩
    intro el now asked wake member
    simp only [history, List.mem_cons, reduceCtorEq, Event.resumed.injEq, List.not_mem_nil,
      false_or, or_false] at member
    obtain ⟨-, rfl, rfl, rfl⟩ := member
    decide
  refine ⟨labels, actions, by rw [history]; rfl, ?_⟩
  refine built_in_frames_in_window .arch1 [] labels loaded run clock ?_
  rw [readings]
  simp

/--
A build with a built-in program sleeps: among any six instructions that the
thread executes one after the other is the HALT at place 4, in every window of
every run until the interpreter is started again.
-/
theorem built_in_program_sleeps (arch : Arch)
    {before window : List (NcmSysfs × Action × List Observation)}
    (loaded : initModuleVm arch.type memory env = .ok first)
    (run : Run (Recorded (Meeting (Step long) Unstarted)) first (before ++ window) last)
    (running : last.ncmInterp.isRunning = true) :
    (visits window).length < ((visits window).countP (fun place => place.toNat == 4) + 1) * 6 := by
  obtain ⟨-, -, -, stale, course⟩ := initModuleVm_eq_ok loaded
  have certified := vm_certified arch stale
  obtain ⟨block, program, lists⟩ := course.loads.fetches
  have measured : Measured (lineInstrs arch.lines stale) (Tracks _ vmCertificate) _ _ :=
    (vm_ranked arch stale).measured certified.addressable
  exact measured_program_rests certified.annotated measured
    (fun position tracks => rank_le arch stale tracks.inside) program lists
    ⟨_, course.represents⟩ course.tracks run running

/-- Nine instructions of the first machine. -/
theorem built_in_program_sleeps_arch1 :
    ∃ records : List (NcmSysfs × Action × List Observation),
      (records.map Prod.snd).map Prod.fst = firstSteps ∧
        (visits records).length <
          ((visits records).countP (fun place => place.toNat == 4) + 1) * 6 := by
  obtain ⟨first, last, labels, -, -, -, loaded, run, actions, running, -⟩ := exists_firstRun
  obtain ⟨records, recorded, rfl⟩ := run.recorded
  have whole : Run _ first ([] ++ records) last := recorded
  exact ⟨records, actions, built_in_program_sleeps .arch1 loaded whole running⟩

end Runs

end NetworkCode.Kernel
