import NetworkCode.Kernel.Fault
import NetworkCode.Library.Bytes

/-!
# Bytecodes and instruction records

A program is a block of bytes.  The interpreter reads it as an array of
`ncm_instr_t`: a type byte, three bytes of padding and four little-endian
words.
-/

namespace NetworkCode.Kernel

open Library

/-- The bytecodes of `bytecodes.h`. -/
inductive Opcode where
  | future
  | halt
  | if
  | mode
  | create
  | destroy
  | send
  | receive
  | sync
  | handle
  | goto
  | wait
  | xsend
  | backupSend
  | backupReceive
  | nop
  | endOfProgram
  | setCounter
  | addToCounter
  | clearCounter
  | subFromCounter
  deriving DecidableEq, Repr

namespace Opcode

def code : Opcode → UInt8
  | future => 0
  | halt => 1
  | .if => 2
  | mode => 3
  | create => 4
  | destroy => 5
  | send => 6
  | receive => 7
  | sync => 8
  | handle => 9
  | goto => 10
  | wait => 11
  | xsend => 12
  | backupSend => 13
  | backupReceive => 14
  | nop => 15
  | endOfProgram => 16
  | setCounter => 17
  | addToCounter => 18
  | clearCounter => 19
  | subFromCounter => 20

/-- The bytecode that a type byte selects, if any. -/
def ofCode? (type : UInt8) : Option Opcode :=
  match type.toNat with
  | 0 => some future
  | 1 => some halt
  | 2 => some .if
  | 3 => some mode
  | 4 => some create
  | 5 => some destroy
  | 6 => some send
  | 7 => some receive
  | 8 => some sync
  | 9 => some handle
  | 10 => some goto
  | 11 => some wait
  | 12 => some xsend
  | 13 => some backupSend
  | 14 => some backupReceive
  | 15 => some nop
  | 16 => some endOfProgram
  | 17 => some setCounter
  | 18 => some addToCounter
  | 19 => some clearCounter
  | 20 => some subFromCounter
  | _ => none

@[simp] theorem ofCode?_code (opcode : Opcode) : ofCode? opcode.code = some opcode := by
  cases opcode <;> rfl

end Opcode

/-- `SYNC_MASTER`; every other value is treated as `SYNC_SLAVE`. -/
def syncMaster : UInt32 := 0

/-- `SYNC_SLAVE` -/
def syncSlave : UInt32 := 1

/-- The operands of an instruction. -/
abbrev Args := Vector UInt32 4

namespace Args

def set0 (args : Args) (value : UInt32) : Args := args.set 0 value

def set1 (args : Args) (value : UInt32) : Args := args.set 1 value

def set2 (args : Args) (value : UInt32) : Args := args.set 2 value

def set3 (args : Args) (value : UInt32) : Args := args.set 3 value

end Args

/-- `ncm_instr_t` -/
structure Instr where
  type : UInt8
  args : Args
  deriving DecidableEq, Repr

namespace Instr

/-- `sizeof(ncm_instr_t)` -/
def size : Nat := 20

def arg0 (instr : Instr) : UInt32 := instr.args[0]

def arg1 (instr : Instr) : UInt32 := instr.args[1]

def arg2 (instr : Instr) : UInt32 := instr.args[2]

def arg3 (instr : Instr) : UInt32 := instr.args[3]

/-- An instruction of a given bytecode. -/
def make (opcode : Opcode) (arg0 arg1 arg2 arg3 : UInt32) : Instr :=
  ⟨opcode.code, #v[arg0, arg1, arg2, arg3]⟩

def opcode? (instr : Instr) : Option Opcode := Opcode.ofCode? instr.type

@[simp] theorem opcode?_make (opcode : Opcode) (arg0 arg1 arg2 arg3 : UInt32) :
    (make opcode arg0 arg1 arg2 arg3).opcode? = some opcode :=
  Opcode.ofCode?_code opcode

@[simp] theorem make_arg0 (opcode : Opcode) (arg0 arg1 arg2 arg3 : UInt32) :
    (make opcode arg0 arg1 arg2 arg3).arg0 = arg0 :=
  rfl

/-- The record as it lies in memory, with zero padding. -/
def toBytes (instr : Instr) : List UInt8 :=
  [instr.type, 0, 0, 0] ++ Bytes.littleEndian instr.arg0 ++
    Bytes.littleEndian instr.arg1 ++ Bytes.littleEndian instr.arg2 ++
    Bytes.littleEndian instr.arg3

/-- Read a record from memory. -/
def ofBytes (bytes : List UInt8) : Instr where
  type := bytes.getD 0 0
  args := #v[Bytes.word bytes 4, Bytes.word bytes 8, Bytes.word bytes 12, Bytes.word bytes 16]

@[simp] theorem toBytes_length (instr : Instr) : instr.toBytes.length = size := rfl

@[simp] theorem ofBytes_toBytes (instr : Instr) : ofBytes instr.toBytes = instr := by
  obtain ⟨type, args⟩ := instr
  have word0 : Bytes.word (toBytes ⟨type, args⟩) 4 = args[0] := Bytes.word_of_drop rfl
  have word1 : Bytes.word (toBytes ⟨type, args⟩) 8 = args[1] := Bytes.word_of_drop rfl
  have word2 : Bytes.word (toBytes ⟨type, args⟩) 12 = args[2] := Bytes.word_of_drop rfl
  have word3 : Bytes.word (toBytes ⟨type, args⟩) 16 = args[3] := Bytes.word_of_drop rfl
  have words : #v[args[0], args[1], args[2], args[3]] = args := by
    ext index hindex
    match index, hindex with
    | 0, _ => rfl
    | 1, _ => rfl
    | 2, _ => rfl
    | 3, _ => rfl
  rw [ofBytes, word0, word1, word2, word3, words]
  rfl

end Instr

/-- The block that a program pointer refers to. -/
structure CodeBlock where
  bytes : List UInt8
  deriving DecidableEq, Repr

namespace CodeBlock

/-- The whole instruction records that the block holds. -/
def records (block : CodeBlock) : Nat := block.bytes.length / Instr.size

/-- `program[index]` -/
def fetch (block : CodeBlock) (index : Nat) : Exec Instr :=
  if index < block.records then
    .ok (Instr.ofBytes (Bytes.slice block.bytes (Instr.size * index) Instr.size))
  else
    .error (.outOfBounds .program index)

/-- The block of a list of instructions. -/
def ofInstrs (instrs : List Instr) : CodeBlock := ⟨instrs.flatMap Instr.toBytes⟩

@[simp] theorem records_ofInstrs (instrs : List Instr) :
    (ofInstrs instrs).records = instrs.length := by
  rw [records, ofInstrs, Bytes.length_flatMap_of_sized Instr.toBytes_length]
  exact Nat.mul_div_cancel_left _ (by decide)

theorem fetch_of_lt {block : CodeBlock} {index : Nat} (inside : index < block.records) :
    block.fetch index =
      .ok (Instr.ofBytes (Bytes.slice block.bytes (Instr.size * index) Instr.size)) :=
  if_pos inside

theorem fetch_ofInstrs (instrs : List Instr) (index : Nat) (bound : index < instrs.length) :
    (ofInstrs instrs).fetch index = .ok instrs[index] := by
  rw [fetch_of_lt (by simpa using bound), ofInstrs,
    Bytes.slice_flatMap Instr.toBytes_length instrs index bound, Instr.ofBytes_toBytes]

end CodeBlock

end NetworkCode.Kernel
