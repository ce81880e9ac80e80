import NetworkCode.Visualizer.Records
import Mathlib.Data.List.Sort

/-!
# The tree of executions

`TreeBuilder.step` follows a program from an address and nests what comes next
under what came before.  The queue of futures and the scheduled times, which
live in the records of the FUTUREs themselves, are shared by all branches.
-/

namespace NetworkCode.Visualizer

open Kernel Library.Checked

/-- An entry of `lengths`, in microseconds. -/
structure Length where
  mew : Int
  sigma : Int
  deriving DecidableEq, Repr

/-- `lengths` -/
def lengths : Opcode → Option Length
  | .future => some ⟨200, 100⟩
  | .halt => some ⟨200, 100⟩
  | .if => some ⟨200, 100⟩
  | .mode => some ⟨200, 100⟩
  | .create => some ⟨200, 100⟩
  | .destroy => some ⟨200, 100⟩
  | .send => some ⟨200, 100⟩
  | .receive => some ⟨200, 100⟩
  | .sync => some ⟨200, 100⟩
  | .handle => some ⟨200, 100⟩
  | .nop => some ⟨200, 100⟩
  | .setCounter => some ⟨200, 100⟩
  | .addToCounter => some ⟨200, 100⟩
  | .subFromCounter => some ⟨200, 100⟩
  | .goto | .wait | .xsend | .backupSend | .backupReceive | .endOfProgram | .clearCounter => none

theorem lengths_mew {opcode : Opcode} {length : Length} (found : lengths opcode = some length) :
    length.mew = 200 := by
  cases opcode with
  | future | halt | «if» | mode | create | destroy | send | receive | sync | handle | nop
  | setCounter | addToCounter | subFromCounter => cases found; rfl
  | goto | wait | xsend | backupSend | backupReceive | endOfProgram | clearCounter => cases found

/-- A reference to an entry of `instrs`. -/
structure InstrRef where
  index : Nat
  instr : ParsedInstr
  deriving DecidableEq, Repr

/--
The emitted tree.  Beside what is emitted, a node of an instruction tells the
arguments of the call of `step` that made it, and a PAUSE the future that was
taken with its scheduled time.
-/
inductive Tree where
  | instr (index : Nat) (time : Int) (instr : ParsedInstr) (length : Length)
      (children : List Tree)
  | pause (taken : InstrRef) (scheduledTime : Int) (length : Int) (children : List Tree)
  | loop

/-- What the calls of `step` share; the scheduled time is kept in the entry of
the FUTURE. -/
structure TreeBuilder where
  futureQueue : List InstrRef
  scheduledTime : Nat → Option Int

/-- The queue from the shortest to the longest delay, equal ones in their order. -/
def byDelay (queue : List InstrRef) : List InstrRef :=
  queue.insertionSort fun first second => first.instr.arg0 ≤ second.instr.arg0

namespace TreeBuilder

def empty : TreeBuilder := ⟨[], fun _ => none⟩

/-- The FUTURE case of `step`. -/
def schedule (builder : TreeBuilder) (future : InstrRef) (scheduledTime : Int) : TreeBuilder where
  futureQueue := builder.futureQueue ++ [future]
  scheduledTime := Function.update builder.scheduledTime future.index (some scheduledTime)

/-- `sorted(self.future_queue, key=lambda k: k['arg0'])` -/
def sortedQueue (builder : TreeBuilder) : List InstrRef := byDelay builder.futureQueue

/-- The HALT case of `step`: sort, and pop from the end. -/
def takeFuture (builder : TreeBuilder) : Except PyError (InstrRef × Int × TreeBuilder) :=
  match builder.sortedQueue.getLast? with
  | none => .error .indexError
  | some nextFuture =>
      match builder.scheduledTime nextFuture.index with
      | none => .error .keyError
      | some scheduledTime =>
          .ok (nextFuture, scheduledTime,
            { builder with futureQueue := builder.sortedQueue.dropLast })

section Step

variable (instrs : List ParsedInstr)

/-- What `step` does with the next addresses, given `step` itself. -/
def follow (step : TreeBuilder → Nat → Int → Except PyError (Tree × TreeBuilder)) (i : Nat)
    (time : Int) : List Nat → TreeBuilder → Except PyError (List Tree × TreeBuilder)
  | [], builder => .ok ([], builder)
  | n :: rest, builder =>
      if n ≤ i then do
        let (children, builder) ← follow step i time rest builder
        return (.loop :: children, builder)
      else if n < instrs.length then do
        let (child, builder) ← step builder n time
        let (children, builder) ← follow step i time rest builder
        return (child :: children, builder)
      else
        follow step i time rest builder

/-- `step`; the addresses of a path grow, so `fuel` instructions are enough where
no more than that lie behind `i`. -/
def step : Nat → TreeBuilder → Nat → Int → Except PyError (Tree × TreeBuilder)
  | 0, _, _, _ => .error .indexError
  | fuel + 1, builder, i, time =>
      match instrs[i]? with
      | none => .error .indexError
      | some instr =>
          match lengths instr.instr with
          | none => .error .keyError
          | some length =>
              match instr.instr with
              | .if => do
                  let (children, builder) ← follow instrs (step fuel) i (time + length.mew)
                    [i + 1, instr.arg1.toNat] builder
                  return (.instr i time instr length children, builder)
              | .future => do
                  let builder := builder.schedule ⟨i, instr⟩ (time + instr.arg0.toNat)
                  let (children, builder) ← follow instrs (step fuel) i (time + length.mew)
                    [i + 1] builder
                  return (.instr i time instr length children, builder)
              | .halt => do
                  let (nextFuture, scheduledTime, builder) ← builder.takeFuture
                  let (children, builder) ← follow instrs (step fuel) i (time + length.mew)
                    [nextFuture.instr.arg1.toNat] builder
                  let pause := .pause nextFuture scheduledTime (scheduledTime - time) children
                  return (.instr i time instr length [pause], builder)
              | _ => do
                  let (children, builder) ← follow instrs (step fuel) i (time + length.mew)
                    [i + 1] builder
                  return (.instr i time instr length children, builder)

/-- `build_tree` -/
def buildTree : Except PyError Tree := do
  let (tree, _) ← step instrs instrs.length .empty 0 0
  return tree

end Step

end TreeBuilder

end NetworkCode.Visualizer
