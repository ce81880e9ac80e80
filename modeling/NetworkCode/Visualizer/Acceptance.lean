import NetworkCode.Translator.Stream
import NetworkCode.Visualizer.ExplorationOrder
import NetworkCode.Visualizer.Straighten

/-!
# The trees of translated programs

A tree that is built has the shape of the program.  Whether one is built for a
translated program depends on the order of exploration: no CLEAR_COUNTER, which
`lengths` does not have, may come up, and no HALT before it has a future left by
the branches explored so far.
-/

namespace NetworkCode.Visualizer

open Kernel Library Library.Checked Translator

/-! ## The shape of a tree -/

/-- The address of an instruction. -/
def Tree.address? : Tree → Option Nat
  | .instr index _ _ _ _ => some index
  | .pause .. | .loop => none

/-- The children that the next addresses are to have: a LOOP for one that is not larger, and
an instruction for one inside the program. -/
def expected (instrs : List ParsedInstr) (i : Nat) (nexts : List Nat) : List (Option Nat) :=
  (nexts.filter fun n => n ≤ i ∨ n < instrs.length).map fun n => if n ≤ i then none else some n

/-- The instructions of the tree are those of the program, and the children of each are those
of its next addresses. -/
inductive Shaped (instrs : List ParsedInstr) : Tree → Prop where
  | instr {i : Nat} {time : Int} {parsed : ParsedInstr} {length : Length}
      {children : List Tree} (located : instrs[i]? = some parsed)
      (notHalt : parsed.instr ≠ .halt)
      (nexts : children.map Tree.address? = expected instrs i (parsed.nexts i))
      (behind : ∀ child ∈ children, Shaped instrs child) :
      Shaped instrs (.instr i time parsed length children)
  | halt {i : Nat} {time scheduledTime pause : Int} {parsed : ParsedInstr} {length : Length}
      {taken : InstrRef} {children : List Tree} (located : instrs[i]? = some parsed)
      (halt : parsed.instr = .halt)
      (nexts : children.map Tree.address? = expected instrs i [taken.instr.arg1.toNat])
      (behind : ∀ child ∈ children, Shaped instrs child) :
      Shaped instrs
        (.instr i time parsed length [.pause taken scheduledTime pause children])
  | loop : Shaped instrs .loop

/-- A node stands directly behind another. -/
def Tree.Child (parent child : Tree) : Prop := child ∈ parent.children

/-- The addresses increase along every path. -/
def Increasing (tree : Tree) : Prop :=
  ∀ upper lower i j, Relation.ReflTransGen Tree.Child tree upper →
    Relation.TransGen Tree.Child upper lower → upper.address? = some i →
      lower.address? = some j → i < j

section Shape

variable {instrs : List ParsedInstr} {i : Nat} {children : List Tree} {tree : Tree}

theorem expected_back {n : Nat} {nexts : List Nat} (back : n ≤ i) :
    expected instrs i (n :: nexts) = none :: expected instrs i nexts := by
  rw [expected, List.filter_cons_of_pos (by simp [back]), List.map_cons, if_pos back]
  rfl

theorem expected_forward {n : Nat} {nexts : List Nat} (forward : i < n)
    (inside : n < instrs.length) :
    expected instrs i (n :: nexts) = some n :: expected instrs i nexts := by
  rw [expected, List.filter_cons_of_pos (by simp [inside]), List.map_cons,
    if_neg (Nat.not_le.mpr forward)]
  rfl

theorem expected_outside {n : Nat} {nexts : List Nat} (forward : i < n)
    (outside : ¬ n < instrs.length) :
    expected instrs i (n :: nexts) = expected instrs i nexts := by
  rw [expected, List.filter_cons_of_neg (by simp [forward, outside])]
  rfl

/-- The children that are instructions have larger addresses. -/
theorem lt_of_expected {nexts : List Nat} {child : Tree} {n : Nat}
    (marks : children.map Tree.address? = expected instrs i nexts) (member : child ∈ children)
    (address : child.address? = some n) : i < n := by
  have marked : some n ∈ expected instrs i nexts := by
    rw [← marks, ← address]
    exact List.mem_map_of_mem member
  obtain ⟨m, _, same⟩ := List.mem_map.mp marked
  split at same
  · cases same
  · next beyond =>
      cases same
      exact Nat.lt_of_not_le beyond

/-- What stands behind the children of an address is larger, as it is behind each of them. -/
theorem lt_behind {nexts : List Nat} {child lower : Tree} {j : Nat}
    (marks : children.map Tree.address? = expected instrs i nexts) (member : child ∈ children)
    (shaped : Shaped instrs child)
    (deeper : ∀ n, child.address? = some n → Relation.TransGen Tree.Child child lower → n < j)
    (below : Relation.ReflTransGen Tree.Child child lower) (address : lower.address? = some j) :
    i < j := by
  rcases Relation.reflTransGen_iff_eq_or_transGen.mp below with rfl | further
  · exact lt_of_expected marks member address
  · cases shaped with
    | instr => exact Nat.lt_trans (lt_of_expected marks member rfl) (deeper _ rfl further)
    | halt => exact Nat.lt_trans (lt_of_expected marks member rfl) (deeper _ rfl further)
    | loop =>
        obtain ⟨next, impossible, _⟩ := Relation.TransGen.head'_iff.mp further
        cases impossible

theorem Shaped.lt {lower : Tree} {j : Nat} (shaped : Shaped instrs tree)
    (address : tree.address? = some i) (below : Relation.TransGen Tree.Child tree lower)
    (lowerAddress : lower.address? = some j) : i < j := by
  induction shaped generalizing i with
  | instr _ _ nexts behind ih =>
      cases address
      obtain ⟨child, member, further⟩ := Relation.TransGen.head'_iff.mp below
      exact lt_behind nexts member (behind child member)
        (fun n here => ih child member here) further lowerAddress
  | halt _ _ nexts behind ih =>
      cases address
      obtain ⟨pause, member, further⟩ := Relation.TransGen.head'_iff.mp below
      cases List.mem_singleton.mp member
      rcases further.cases_head with rfl | ⟨child, member, further⟩
      · cases lowerAddress
      · exact lt_behind nexts member (behind child member)
          (fun n here => ih child member here) further lowerAddress
  | loop => cases address

/-- A node below a shaped one is shaped, or is a PAUSE over shaped children. -/
theorem Shaped.node {upper : Tree} (shaped : Shaped instrs tree)
    (below : Relation.ReflTransGen Tree.Child tree upper) :
    Shaped instrs upper ∨
      upper.address? = none ∧ ∀ child ∈ upper.children, Shaped instrs child := by
  induction below with
  | refl => exact .inl shaped
  | tail _ member ih =>
      rcases ih with node | ⟨_, behind⟩
      · cases node with
        | instr _ _ _ behind => exact .inl (behind _ member)
        | halt _ _ _ behind =>
            cases List.mem_singleton.mp member
            exact .inr ⟨rfl, behind⟩
        | loop => cases member
      · exact .inl (behind _ member)

theorem Shaped.increasing (shaped : Shaped instrs tree) : Increasing tree := by
  intro upper lower i j above below address lowerAddress
  rcases shaped.node above with node | ⟨none, _⟩
  · exact node.lt address below lowerAddress
  · rw [none] at address
    cases address

/-! ## The shape of what is built -/

/-- What is known about the trees of the calls of a loop. -/
def StepShapes (instrs : List ParsedInstr)
    (step : TreeBuilder → Nat → Int → Except PyError (Tree × TreeBuilder)) : Prop :=
  ∀ {before after : TreeBuilder} {n : Nat} {time : Int} {tree : Tree},
    step before n time = .ok (tree, after) → Shaped instrs tree ∧ tree.address? = some n

open TreeBuilder

theorem TreeBuilder.Follows.shapes
    {step : TreeBuilder → Nat → Int → Except PyError (Tree × TreeBuilder)}
    (shapes : StepShapes instrs step) {nexts : List Nat} {time : Int}
    {before after : TreeBuilder}
    (follows : Follows instrs step i time nexts before children after) :
    children.map Tree.address? = expected instrs i nexts ∧
      ∀ child ∈ children, Shaped instrs child := by
  induction follows with
  | nil => exact ⟨rfl, List.forall_mem_nil _⟩
  | back back _ ih =>
      rw [List.map_cons, ih.1, expected_back back]
      exact ⟨rfl, List.forall_mem_cons.mpr ⟨.loop, ih.2⟩⟩
  | forward forward inside stepped _ ih =>
      obtain ⟨shaped, address⟩ := shapes stepped
      rw [List.map_cons, ih.1, address, expected_forward forward inside]
      exact ⟨rfl, List.forall_mem_cons.mpr ⟨shaped, ih.2⟩⟩
  | outside forward outside _ ih =>
      rw [expected_outside forward outside]
      exact ih

theorem step_shapes (instrs : List ParsedInstr) (fuel : Nat) :
    StepShapes instrs (step instrs fuel) := by
  induction fuel with
  | zero => intro before after i time tree stepped; cases stepped
  | succ fuel ih =>
      intro before after i time tree stepped
      obtain ⟨arrival, children, arrives, follows, rfl⟩ := step_eq_ok stepped
      obtain ⟨marks, behind⟩ := follows.shapes ih
      cases arrives with
      | halt located _ halt => exact ⟨.halt located halt marks behind, rfl⟩
      | future located _ future =>
          refine ⟨.instr located (fun halt => ?_) marks behind, rfl⟩
          rw [future] at halt
          cases halt
      | other located _ _ notHalt => exact ⟨.instr located notHalt marks behind, rfl⟩

end Shape

/-! ## The condition -/

/-- A tree is built, of the shape of the program and with increasing addresses. -/
def Accepted (instrs : List ParsedInstr) : Prop :=
  ∃ tree, TreeBuilder.buildTree instrs = .ok tree ∧ Shaped instrs tree ∧ Increasing tree

/-- In the order of exploration no CLEAR_COUNTER comes up, and every HALT comes up behind
more FUTUREs than HALTs. -/
def Explorable (instrs : List ParsedInstr) : Prop :=
  ∀ exploration, Explored instrs .start exploration → ∀ i rest parsed,
    exploration.todo = i :: rest → instrs[i]? = some parsed → parsed.instr ≠ .clearCounter ∧
      (parsed.instr = .halt → exploration.halts < exploration.futures)

theorem accepted_iff_neverStuck {instrs : List ParsedInstr} (nonempty : instrs ≠ []) :
    Accepted instrs ↔ TreeBuilder.NeverStuck instrs := by
  rw [← TreeBuilder.step_returns_iff nonempty]
  constructor
  · rintro ⟨tree, built, _⟩
    obtain ⟨result, stepped, _⟩ := bind_eq_ok.mp built
    exact ⟨result, stepped⟩
  · rintro ⟨⟨tree, after⟩, stepped⟩
    obtain ⟨shaped, _⟩ := step_shapes instrs instrs.length stepped
    refine ⟨tree, ?_, shaped, shaped.increasing⟩
    rw [TreeBuilder.buildTree, stepped]
    rfl

/-- Where only CLEAR_COUNTER has no length, the exploration is stuck at it, or at a HALT
before which as many futures have been taken as met. -/
theorem neverStuck_iff_explorable {instrs : List ParsedInstr}
    (emitted : ∀ parsed ∈ instrs, lengths parsed.instr = none ↔ parsed.instr = .clearCounter) :
    TreeBuilder.NeverStuck instrs ↔ Explorable instrs := by
  constructor
  · intro free exploration explored i rest parsed todo located
    have counted := explored.counted
    have notStuck := free exploration explored
    refine ⟨fun clear => ?_, fun halt => ?_⟩
    · have unknown := (emitted parsed (List.mem_of_getElem? located)).mpr clear
      exact notStuck ⟨i, rest, parsed, todo, located, .inl unknown⟩
    · have queued : exploration.queue ≠ [] := fun empty =>
        notStuck ⟨i, rest, parsed, todo, located, .inr ⟨halt, empty⟩⟩
      have some := List.length_pos_of_ne_nil queued
      rw [counted]
      omega
  · rintro explorable exploration explored ⟨i, rest, parsed, todo, located, why⟩
    have counted := explored.counted
    obtain ⟨notClear, behind⟩ := explorable exploration explored i rest parsed todo located
    rcases why with unknown | ⟨halt, empty⟩
    · exact notClear ((emitted parsed (List.mem_of_getElem? located)).mp unknown)
    · have more := behind halt
      rw [counted, empty] at more
      exact absurd more (Nat.lt_irrefl _)

/-! ## Translated programs -/

/-- What the translator emits has a length, except for CLEAR_COUNTER. -/
theorem record_lengths (operation : Operation) {opcode : Opcode}
    (decoded : operation.record.opcode? = some opcode) :
    lengths opcode = none ↔ opcode = .clearCounter := by
  cases operation with
  | future | halt | branch | create | send | receive | nop | syncMaster | syncSlave =>
      cases decoded
      exact ⟨nofun, nofun⟩
  | count change =>
      cases change with
      | keep | increment | decrement => cases decoded; exact ⟨nofun, nofun⟩
      | clear => cases decoded; exact ⟨fun _ => rfl, fun _ => rfl⟩

theorem unlisted_of_inTables {word : UInt32} (tabled : inTables word = true) :
    UnlistedOpcode word = false := by
  unfold inTables at tabled
  unfold UnlistedOpcode
  cases opcode : HwOpcode.ofCode? (Bits.field word 28 4) with
  | none => rw [opcode] at tabled; cases tabled
  | some _ => rfl

/-- The program that `parse.py` reads from a translated stream. -/
theorem readInstrs_tabled (memory : Nat → Uninitialized) {input : List UInt8}
    (tabled : ∀ i < wordCount input, inTables (hardwareWord input i) = true) :
    ∃ instrs, readInstrs (translatorMain memory input) = .ok instrs ∧
      instrs.length = wordCount input ∧
        ∀ parsed ∈ instrs, lengths parsed.instr = none ↔ parsed.instr = .clearCounter := by
  obtain ⟨entry, read, entries⟩ := readInstrs_translatorMain memory input fun i inside =>
    unlisted_of_inTables (tabled i inside)
  refine ⟨_, read, by simp, ?_⟩
  intro parsed member
  obtain ⟨i, inRange, rfl⟩ := List.mem_map.mp member
  have inside : i < wordCount input := List.mem_range.mp inRange
  have known := entries i inside
  obtain ⟨operation, _, packed⟩ := getInstruction_operations (memory i).type (tabled i inside)
  rw [translated, packed, parsedOf] at known
  cases decoded : operation.record.opcode? with
  | none => rw [decoded] at known; cases known
  | some opcode =>
      rw [decoded] at known
      rw [← Except.ok.inj known]
      exact record_lengths operation decoded

/--
For every input of at least one word, all with known opcodes and guard types,
`parse.py` reads the translated program, and it accepts it exactly when no
CLEAR_COUNTER comes up in the order of exploration and every HALT comes up
behind more FUTUREs than HALTs.
-/
theorem visualizer_accepts_iff (memory : Nat → Uninitialized) {input : List UInt8}
    (nonempty : 0 < wordCount input)
    (tabled : ∀ i < wordCount input, inTables (hardwareWord input i) = true) :
    ∃ instrs, readInstrs (translatorMain memory input) = .ok instrs ∧
      (Accepted instrs ↔ Explorable instrs) := by
  obtain ⟨instrs, read, length, emitted⟩ := readInstrs_tabled memory tabled
  have some : instrs ≠ [] := by
    rintro rfl
    rw [← length] at nonempty
    exact Nat.lt_irrefl 0 nonempty
  exact ⟨instrs, read,
    (accepted_iff_neverStuck some).trans (neverStuck_iff_explorable emitted)⟩

/-- A FUTURE, an IF that may go back, the HALT that takes the future, and a NOP. -/
def haltingWords : List UInt8 :=
  [0x50, 0x30, 0x03, 0xE8, 0x70, 0x07, 0, 0, 0x40, 0, 0, 0, 0, 0, 0, 0]

theorem visualizer_accepts_iff_halting : ∃ instrs,
    readInstrs (translatorMain (fun _ => ⟨0, fun _ => 0⟩) haltingWords) = .ok instrs ∧
      (Accepted instrs ↔ Explorable instrs) ∧ instrs.map ParsedInstr.instr =
        [.future, .if, .halt, .nop] ∧ Accepted instrs := by
  obtain ⟨instrs, read, agrees⟩ := visualizer_accepts_iff (fun _ => ⟨0, fun _ => 0⟩)
    (show 0 < wordCount haltingWords by decide) (by decide)
  have program : readInstrs (translatorMain (fun _ => ⟨0, fun _ => 0⟩) haltingWords) =
      .ok [⟨.future, 1000, 3, 0, 0⟩, ⟨.if, 0, 0, 0, 0⟩, ⟨.halt, 0, 0, 0, 0⟩,
        ⟨.nop, 0, 0, 0, 0⟩] := by
    decide +kernel
  cases Except.ok.inj (program.symm.trans read)
  refine ⟨_, read, agrees, rfl, ?_⟩
  rw [accepted_iff_neverStuck (List.cons_ne_nil _ _),
    ← TreeBuilder.step_returns_iff (List.cons_ne_nil _ _)]
  exact ⟨_, rfl⟩

/-- The addresses along a forward path, the last one first; a HALT leads to the jump of any
FUTURE before it. -/
inductive ForwardPath (instrs : List ParsedInstr) : List Nat → Prop where
  | start : ForwardPath instrs [0]
  | onward {i n : Nat} {before : List Nat} {parsed : ParsedInstr}
      (path : ForwardPath instrs (i :: before)) (located : instrs[i]? = some parsed)
      (notHalt : parsed.instr ≠ .halt) (next : n ∈ parsed.nexts i) (forward : i < n)
      (inside : n < instrs.length) : ForwardPath instrs (n :: i :: before)
  | resumed {i j : Nat} {before : List Nat} {parsed future : ParsedInstr}
      (path : ForwardPath instrs (i :: before)) (located : instrs[i]? = some parsed)
      (halt : parsed.instr = .halt) (earlier : j ∈ before) (pending : instrs[j]? = some future)
      (isFuture : future.instr = .future) (forward : i < future.arg1.toNat)
      (inside : future.arg1.toNat < instrs.length) :
      ForwardPath instrs (future.arg1.toNat :: i :: before)

/-- How often an opcode stands at the addresses. -/
def occurrences (instrs : List ParsedInstr) (opcode : Opcode) (addresses : List Nat) : Nat :=
  addresses.countP fun i => instrs[i]?.any fun parsed => parsed.instr = opcode

/-- On every forward path each HALT is preceded by more FUTUREs than HALTs. -/
def Balanced (instrs : List ParsedInstr) : Prop :=
  ∀ i before parsed, ForwardPath instrs (i :: before) → instrs[i]? = some parsed →
    parsed.instr = .halt → occurrences instrs .halt before < occurrences instrs .future before

/-- A single word. -/
theorem tabled_single {input : List UInt8} (single : wordCount input = 1)
    (tabled : inTables (hardwareWord input 0) = true) :
    ∀ i < wordCount input, inTables (hardwareWord input i) = true := by
  intro i inside
  rw [single] at inside
  rw [Nat.lt_one_iff.mp inside]
  exact tabled

/-- The word `0x81000000` is a CLEAR_COUNTER, for which `lengths` raises a KeyError. -/
theorem visualizer_rejects : ¬ ∀ (memory : Nat → Uninitialized) (input : List UInt8),
    0 < wordCount input → (∀ i < wordCount input, inTables (hardwareWord input i) = true) →
      ∃ instrs, readInstrs (translatorMain memory input) = .ok instrs ∧
        (Balanced instrs → Accepted instrs) := by
  intro claim
  obtain ⟨instrs, read, accepts⟩ := claim (fun _ => ⟨0, fun _ => 0⟩) [0x81, 0, 0, 0] Nat.one_pos
    (tabled_single rfl rfl)
  obtain ⟨entry, entries, known⟩ := readInstrs_translatorMain (fun _ => ⟨0, fun _ => 0⟩)
    [0x81, 0, 0, 0] fun i inside => unlisted_of_inTables (tabled_single rfl rfl i inside)
  have clear : entry 0 = ⟨.clearCounter, 0, 0, 0, 0⟩ :=
    Except.ok.inj ((known 0 Nat.one_pos).symm.trans rfl)
  have program : instrs = [⟨.clearCounter, 0, 0, 0, 0⟩] := by
    rw [← clear]
    exact Except.ok.inj (read.symm.trans entries)
  subst program
  have balanced : Balanced [⟨.clearCounter, 0, 0, 0, 0⟩] := by
    intro i before parsed _ located halt
    have member := List.mem_singleton.mp (List.mem_of_getElem? located)
    rw [member] at halt
    cases halt
  obtain ⟨tree, built, _⟩ := accepts balanced
  cases built

end NetworkCode.Visualizer
