import NetworkCode.Kernel.Annotated
import NetworkCode.Visualizer.Acceptance
import NetworkCode.Visualizer.BuiltTree

/-!
# The drawn executions

The tree of a program shows the instructions that a thread executes, up to the
first jump back, as a path.  The order in which `step` takes the futures and the
queue that its branches share make this fail in general: it holds of the
programs that never have two futures pending, and none at an IF.
-/

namespace NetworkCode.Visualizer

open Kernel Library Library.Checked Translator

/-! ## Paths of a tree -/

/-- What a PAUSE stands before, and any other node itself. -/
def Tree.opened : Tree → List Tree
  | .pause _ _ _ children => children
  | tree => [tree]

/-- What follows a node; a PAUSE stands between a HALT and what follows it. -/
def Tree.behind (tree : Tree) : List Tree := tree.children.flatMap Tree.opened

/-- The addresses are those of a path from the node, of which the last may be
the one that a LOOP goes back to. -/
inductive Tree.Traces : Tree → List Nat → Prop where
  | here {tree : Tree} {i : Nat} (address : tree.address? = some i) : Traces tree [i]
  | onward {tree child : Tree} {i : Nat} {addresses : List Nat}
      (address : tree.address? = some i) (member : child ∈ tree.behind)
      (further : Traces child addresses) : Traces tree (i :: addresses)
  | back {tree : Tree} {i n : Nat} (address : tree.address? = some i)
      (member : .loop ∈ tree.behind) (earlier : n ≤ i) : Traces tree [i, n]

/-! ## Programs without tangled futures -/

/-- How many futures are pending where there is at most one. -/
def marks (pending : Nat → Bool) (place : Nat) : Nat := if pending place then 1 else 0

@[simp] theorem marks_eq_zero {pending : Nat → Bool} {place : Nat} :
    marks pending place = 0 ↔ pending place = false := by
  cases marked : pending place <;> simp [marks, marked]

@[simp] theorem marks_eq_one {pending : Nat → Bool} {place : Nat} :
    marks pending place = 1 ↔ pending place = true := by
  cases marked : pending place <;> simp [marks, marked]

/-- One future is pending at the marked places and none elsewhere. -/
def onePending (pending : Nat → Bool) : Certificate :=
  fun place => ⟨marks pending place, marks pending place⟩

/-- A certified program that never has two futures pending, and none around an IF. -/
structure Untangled (instrs : List Instr) (pending : Nat → Bool) : Prop where
  certified : Certified instrs (onePending pending)
  starts : pending 0 = false
  branches : ∀ place (bound : place < instrs.length), instrs[place].opcode? = some .if →
    pending place = false ∧ pending (place + 1) = false ∧
      pending instrs[place].arg1.toNat = false

theorem untangled_iff {instrs : List Instr} {pending : Nat → Bool} :
    Untangled instrs pending ↔ Certified instrs (onePending pending) ∧ pending 0 = false ∧
      ∀ place (bound : place < instrs.length), instrs[place].opcode? = some .if →
        pending place = false ∧ pending (place + 1) = false ∧
          pending instrs[place].arg1.toNat = false :=
  ⟨fun ⟨certified, starts, branches⟩ => ⟨certified, starts, branches⟩,
    fun ⟨certified, starts, branches⟩ => ⟨certified, starts, branches⟩⟩

instance (instrs : List Instr) (pending : Nat → Bool) : Decidable (Untangled instrs pending) :=
  decidable_of_iff' _ untangled_iff

/-- The entries are those of the instructions. -/
structure Reads (instrs : List Instr) (parsed : List ParsedInstr) : Prop where
  length : parsed.length = instrs.length
  entries : ∀ place (bound : place < instrs.length),
    ∃ entry, parsed[place]? = some entry ∧ parsedOf instrs[place] = .ok entry

/-! ## What is built for them -/

/-- What is pending after an instruction other than a HALT. -/
def ParsedInstr.leaves (parsed : ParsedInstr) (jumps : Multiset UInt32) : Multiset UInt32 :=
  if parsed.instr = .future then parsed.arg1 ::ₘ jumps else jumps

/-- The tree has grown where these jumps are pending, as many as are marked, and
each HALT in it takes the only one. -/
inductive Grown (parsed : List ParsedInstr) (pending : Nat → Bool) :
    Multiset UInt32 → Tree → Prop where
  | instr {i : Nat} {time : Int} {entry : ParsedInstr} {length : Length} {children : List Tree}
      {jumps : Multiset UInt32} (located : parsed[i]? = some entry)
      (known : lengths entry.instr = some length) (notHalt : entry.instr ≠ .halt)
      (marked : jumps.card = marks pending i)
      (nexts : children.map Tree.address? = expected parsed i (entry.nexts i))
      (behind : ∀ child ∈ children, Grown parsed pending (entry.leaves jumps) child) :
      Grown parsed pending jumps (.instr i time entry length children)
  | halt {i : Nat} {time scheduledTime pause : Int} {entry : ParsedInstr} {length : Length}
      {taken : InstrRef} {children : List Tree} (located : parsed[i]? = some entry)
      (halt : entry.instr = .halt) (marked : pending i = true)
      (nexts : children.map Tree.address? = expected parsed i [taken.instr.arg1.toNat])
      (behind : ∀ child ∈ children, Grown parsed pending 0 child) :
      Grown parsed pending {taken.instr.arg1}
        (.instr i time entry length [.pause taken scheduledTime pause children])
  | loop {jumps : Multiset UInt32} : Grown parsed pending jumps .loop

section Growth

variable {instrs : List Instr} {parsed : List ParsedInstr} {pending : Nat → Bool}
  {entry : ParsedInstr} {length : Length} {i place : Nat} {opcode : Opcode}

theorem parsedOf_eq_ok {instr : Instr} (read : parsedOf instr = .ok entry) :
    instr.opcode? = some entry.instr ∧ instr.arg1 = entry.arg1 := by
  unfold parsedOf at read
  split at read
  · next decoded =>
      cases read
      exact ⟨decoded, rfl⟩
  · cases read

/-- The instruction of an entry. -/
theorem Reads.instr (reads : Reads instrs parsed) (located : parsed[i]? = some entry) :
    ∃ bound : i < instrs.length,
      instrs[i].opcode? = some entry.instr ∧ instrs[i].arg1 = entry.arg1 := by
  have bound : i < instrs.length := reads.length ▸ (List.getElem?_eq_some_iff.mp located).1
  obtain ⟨other, located', read⟩ := reads.entries i bound
  cases located.symm.trans located'
  exact ⟨bound, parsedOf_eq_ok read⟩

theorem Untangled.row (untangled : Untangled instrs pending) (bound : place < instrs.length)
    (decoded : instrs[place].opcode? = some opcode) :
    opcode.Certified instrs (onePending pending) instrs[place] place := by
  obtain ⟨other, decoded', certified⟩ := untangled.certified.rows place bound
  cases Option.mem_unique decoded' decoded
  exact certified

/-- An instruction that `lengths` has, other than a HALT or an IF, leads to the next
address, with one more future behind a FUTURE. -/
theorem Untangled.onward (untangled : Untangled instrs pending) (bound : place < instrs.length)
    (decoded : instrs[place].opcode? = some opcode) (known : lengths opcode = some length)
    (notHalt : opcode ≠ .halt) (notIf : opcode ≠ .if) :
    place + 1 < instrs.length ∧
      marks pending (place + 1) = if opcode = .future then marks pending place + 1
        else marks pending place := by
  obtain ⟨needs, leads⟩ := untangled.row bound decoded
  cases opcode with
  | halt => exact absurd rfl notHalt
  | «if» => exact absurd rfl notIf
  | mode | destroy | handle => exact needs.elim
  | goto | wait | xsend | backupSend | backupReceive | endOfProgram | clearCounter => cases known
  | future | create | send | receive | sync | nop | setCounter | addToCounter
  | subFromCounter =>
      obtain ⟨inside, within⟩ := leads (place + 1) (List.mem_singleton_self _)
      exact ⟨inside, Nat.le_antisymm within.1 within.2⟩

/-- A HALT takes the only future, to an address where none is pending. -/
theorem Untangled.resumes (untangled : Untangled instrs pending) (bound : place < instrs.length)
    (decoded : instrs[place].opcode? = some .halt) : pending place = true ∧
      ∀ jump ∈ resumePoints instrs, pending jump.toNat = false := by
  obtain ⟨needs, leads⟩ := untangled.row bound decoded
  have marked : pending place = true := by
    by_contra unmarked
    rw [onePending, marks, if_neg unmarked] at needs
    cases needs
  refine ⟨marked, fun jump point => ?_⟩
  obtain ⟨_, within⟩ := leads jump.toNat (List.mem_map_of_mem point)
  have fewer : marks pending jump.toNat ≤ marks pending place - 1 := within.1
  rw [marks_eq_one.mpr marked] at fewer
  exact marks_eq_zero.mp (Nat.le_zero.mp fewer)

/-- The jump addresses of the queued futures. -/
def TreeBuilder.jumps (builder : TreeBuilder) : Multiset UInt32 :=
  (builder.futureQueue.map fun future => future.instr.arg1 : List UInt32)

open TreeBuilder

/-- What is known about a call of `step` where as many futures are queued as are marked. -/
def StepGrows (parsed : List ParsedInstr) (pending : Nat → Bool)
    (step : TreeBuilder → Nat → Int → Except PyError (Tree × TreeBuilder)) : Prop :=
  ∀ {before after : TreeBuilder} {n : Nat} {time : Int} {tree : Tree},
    step before n time = .ok (tree, after) → Queued parsed before →
      before.jumps.card = marks pending n →
        Grown parsed pending before.jumps tree ∧ after.futureQueue = []

variable {before middle after : TreeBuilder} {time later : Int} {children : List Tree}
  {nexts : List Nat}

theorem jumps_of_none (none : before.futureQueue = []) : before.jumps = 0 := by
  rw [TreeBuilder.jumps, none]
  rfl

theorem jumps_schedule (before : TreeBuilder) (future : InstrRef) (scheduledTime : Int) :
    (before.schedule future scheduledTime).jumps = future.instr.arg1 ::ₘ before.jumps := by
  rw [TreeBuilder.jumps, TreeBuilder.schedule, List.map_append, TreeBuilder.jumps,
    Multiset.cons_coe, Multiset.coe_eq_coe]
  exact List.perm_append_singleton _ _

/-- A loop with an empty queue, as behind an IF or a HALT. -/
theorem TreeBuilder.Follows.grows_none
    {step : TreeBuilder → Nat → Int → Except PyError (Tree × TreeBuilder)}
    (grows : StepGrows parsed pending step)
    (follows : Follows parsed step i time nexts before children after)
    (none : before.futureQueue = []) (unmarked : ∀ n ∈ nexts, pending n = false) :
    (∀ child ∈ children, Grown parsed pending 0 child) ∧ after.futureQueue = [] := by
  induction follows with
  | nil => exact ⟨List.forall_mem_nil _, none⟩
  | back _ _ ih =>
      obtain ⟨grown, none'⟩ := ih none (List.forall_mem_cons.mp unmarked).2
      exact ⟨List.forall_mem_cons.mpr ⟨.loop, grown⟩, none'⟩
  | forward _ _ stepped _ ih =>
      obtain ⟨unmarkedHere, unmarked⟩ := List.forall_mem_cons.mp unmarked
      have zero := jumps_of_none none
      obtain ⟨grownHere, none'⟩ := grows stepped (by rw [Queued, none]; exact List.forall_mem_nil _)
        (by rw [zero, marks_eq_zero.mpr unmarkedHere, Multiset.card_zero])
      rw [zero] at grownHere
      obtain ⟨grown, none''⟩ := ih none' unmarked
      exact ⟨List.forall_mem_cons.mpr ⟨grownHere, grown⟩, none''⟩
  | outside _ _ _ ih => exact ih none (List.forall_mem_cons.mp unmarked).2

/-- A loop with a single turn, as behind any other instruction. -/
theorem TreeBuilder.Follows.grows_one
    {step : TreeBuilder → Nat → Int → Except PyError (Tree × TreeBuilder)}
    (grows : StepGrows parsed pending step)
    (follows : Follows parsed step i time [i + 1] before children after)
    (inside : i + 1 < parsed.length) (queued : Queued parsed before)
    (marked : before.jumps.card = marks pending (i + 1)) :
    (∀ child ∈ children, Grown parsed pending before.jumps child) ∧ after.futureQueue = [] := by
  cases follows with
  | back back => exact absurd back (Nat.not_succ_le_self i)
  | outside _ outside => exact absurd inside outside
  | forward _ _ stepped further =>
      cases further
      obtain ⟨grown, none⟩ := grows stepped queued marked
      exact ⟨List.forall_mem_singleton.mpr grown, none⟩

/-- The only future is what a HALT takes. -/
theorem takeFuture_only {taken : InstrRef} {scheduledTime : Int}
    (takes : before.takeFuture = .ok (taken, scheduledTime, after))
    (one : before.jumps.card = 1) :
    before.jumps = {taken.instr.arg1} ∧ taken ∈ before.futureQueue ∧ after.futureQueue = [] := by
  obtain ⟨longest, _, rfl⟩ := takeFuture_eq_ok takes
  rw [TreeBuilder.jumps, Multiset.coe_card, List.length_map] at one
  obtain ⟨only, queue⟩ := List.length_eq_one_iff.mp one
  rw [TreeBuilder.jumps]
  rw [queue] at longest ⊢
  cases longest
  exact ⟨rfl, List.mem_singleton_self _, rfl⟩

/-- Where a queued future resumes. -/
theorem Reads.resumePoint (reads : Reads instrs parsed) {taken : InstrRef}
    (located : parsed[taken.index]? = some taken.instr) (isFuture : taken.instr.instr = .future) :
    taken.instr.arg1 ∈ resumePoints instrs := by
  obtain ⟨bound, decoded, same⟩ := reads.instr located
  rw [isFuture] at decoded
  rw [← same]
  exact mem_resumePoints (List.getElem_mem bound) (.inl decoded)

/-- The node of an instruction with one next address. -/
theorem StepGrows.node {step : TreeBuilder → Nat → Int → Except PyError (Tree × TreeBuilder)}
    (grows : StepGrows parsed pending step) (reads : Reads instrs parsed)
    (untangled : Untangled instrs pending) (located : parsed[i]? = some entry)
    (known : lengths entry.instr = some length) (notHalt : entry.instr ≠ .halt)
    (notIf : entry.instr ≠ .if) (marked : before.jumps.card = marks pending i)
    (queued : Queued parsed middle) (leaves : middle.jumps = entry.leaves before.jumps)
    (follows : Follows parsed step i later (entry.nexts i) middle children after)
    (shape : children.map Tree.address? = expected parsed i (entry.nexts i)) :
    Grown parsed pending before.jumps (.instr i time entry length children) ∧
      after.futureQueue = [] := by
  obtain ⟨bound, decoded, _⟩ := reads.instr located
  obtain ⟨inside, count⟩ := untangled.onward bound decoded known notHalt notIf
  have nexts : entry.nexts i = [i + 1] := if_neg notIf
  have counted : middle.jumps.card = marks pending (i + 1) := by
    rw [count, leaves, ParsedInstr.leaves, ← marked]
    split
    · exact Multiset.card_cons _ _
    · rfl
  rw [nexts] at follows
  obtain ⟨grown, none⟩ := follows.grows_one grows (reads.length ▸ inside) queued counted
  rw [leaves] at grown
  exact ⟨.instr located known notHalt marked shape grown, none⟩

/-- The node of an IF, which both branches enter and leave with an empty queue. -/
theorem StepGrows.ifNode {step : TreeBuilder → Nat → Int → Except PyError (Tree × TreeBuilder)}
    (grows : StepGrows parsed pending step) (reads : Reads instrs parsed)
    (untangled : Untangled instrs pending) (located : parsed[i]? = some entry)
    (known : lengths entry.instr = some length) (isIf : entry.instr = .if)
    (marked : before.jumps.card = marks pending i)
    (follows : Follows parsed step i later (entry.nexts i) before children after)
    (shape : children.map Tree.address? = expected parsed i (entry.nexts i)) :
    Grown parsed pending before.jumps (.instr i time entry length children) ∧
      after.futureQueue = [] := by
  obtain ⟨bound, decoded, same⟩ := reads.instr located
  rw [isIf] at decoded
  obtain ⟨here, onward, jump⟩ := untangled.branches i bound decoded
  rw [same] at jump
  have none : before.futureQueue = [] := by
    rw [marks_eq_zero.mpr here, TreeBuilder.jumps, Multiset.coe_card, List.length_map] at marked
    exact List.length_eq_zero_iff.mp marked
  have unmarked : ∀ n ∈ entry.nexts i, pending n = false := by
    rw [ParsedInstr.nexts, if_pos isIf]
    simp [onward, jump]
  obtain ⟨grown, none'⟩ := follows.grows_none grows none unmarked
  refine ⟨.instr located known (by rw [isIf]; decide) marked shape ?_, none'⟩
  rw [ParsedInstr.leaves, if_neg (by rw [isIf]; decide), jumps_of_none none]
  exact grown

/-- A call of `step` grows a tree, and leaves no future queued. -/
theorem step_grows (reads : Reads instrs parsed) (untangled : Untangled instrs pending)
    (fuel : Nat) : StepGrows parsed pending (step parsed fuel) := by
  induction fuel with
  | zero => intro before after i time tree stepped; cases stepped
  | succ fuel ih =>
      intro before after i time tree stepped queued marked
      obtain ⟨arrival, children, arrives, follows, rfl⟩ := step_eq_ok stepped
      have shape := (follows.shapes (step_shapes parsed fuel)).1
      cases arrives with
      | @halt _ _ taken _ _ located known halt takes =>
          obtain ⟨bound, decoded, _⟩ := reads.instr located
          rw [halt] at decoded
          obtain ⟨markedHere, unmarked⟩ := untangled.resumes bound decoded
          rw [marks_eq_one.mpr markedHere] at marked
          obtain ⟨only, member, none⟩ := takeFuture_only takes marked
          obtain ⟨takenLocated, isFuture⟩ := queued taken member
          have point := reads.resumePoint takenLocated isFuture
          obtain ⟨grown, none'⟩ := follows.grows_none ih none
            (List.forall_mem_singleton.mpr (unmarked _ point))
          rw [only]
          exact ⟨.halt located halt markedHere shape grown, none'⟩
      | future located known future =>
          refine ih.node reads untangled located known (by rw [future]; decide)
            (by rw [future]; decide) marked (queued.schedule located future _) ?_ follows shape
          rw [jumps_schedule, ParsedInstr.leaves, if_pos future]
      | @other entry _ located known notFuture notHalt =>
          by_cases isIf : entry.instr = .if
          · exact ih.ifNode reads untangled located known isIf marked follows shape
          · refine ih.node reads untangled located known notHalt isIf marked queued ?_ follows shape
            rw [ParsedInstr.leaves, if_neg notFuture]

end Growth

/-! ## What the thread does at a node -/

section Thread

variable {block : CodeBlock} {instrs : List Instr} {parsed : List ParsedInstr}
  {pending : Nat → Bool} {entry : ParsedInstr} {length : Length} {children : List Tree}
  {nexts : List Nat} {jumps : Multiset UInt32} {i n : Nat} {position next : Position}
  {place : UInt32} {node : Tree}

/-- Behind an address that is not larger stands a LOOP, behind a larger one its tree. -/
theorem Grown.child (shape : children.map Tree.address? = expected parsed i nexts)
    (grown : ∀ child ∈ children, Grown parsed pending jumps child) (member : n ∈ nexts)
    (inside : n < parsed.length) : n ≤ i ∧ Tree.loop ∈ children ∨
      ∃ child ∈ children, child.address? = some n ∧ Grown parsed pending jumps child := by
  have marked : (if n ≤ i then none else some n) ∈ children.map Tree.address? := by
    rw [shape]
    exact List.mem_map_of_mem (List.mem_filter.mpr ⟨member, by simp [inside]⟩)
  obtain ⟨child, memberChild, address⟩ := List.mem_map.mp marked
  have grownChild := grown child memberChild
  split at address
  · next back =>
      cases grownChild with
      | instr | halt => cases address
      | loop => exact .inl ⟨back, memberChild⟩
  · exact .inr ⟨child, memberChild, address, grownChild⟩

theorem Grown.opened (grown : Grown parsed pending jumps node) : node.opened = [node] := by
  cases grown <;> rfl

theorem Grown.mem_behind {time : Int}
    (grown : ∀ child ∈ children, Grown parsed pending jumps child) {child : Tree}
    (member : child ∈ children) : child ∈ (Tree.instr i time entry length children).behind :=
  List.mem_flatMap.mpr ⟨child, member, (grown child member).opened ▸ List.mem_singleton_self _⟩

theorem mem_behind_pause {time scheduledTime pause : Int} {taken : InstrRef} {child : Tree}
    (member : child ∈ children) :
    child ∈ (Tree.instr i time entry length [.pause taken scheduledTime pause children]).behind :=
  List.mem_flatMap.mpr ⟨_, List.mem_singleton_self _, member⟩

/-- An instruction other than a HALT leads to one of its next addresses. -/
theorem flows_nexts (reads : Reads instrs parsed) (lists : block.Lists instrs)
    (located : parsed[position.place.toNat]? = some entry)
    (known : lengths entry.instr = some length) (notHalt : entry.instr ≠ .halt)
    (flows : Flows block position place next)
    (onward : (position.place + 1).toNat = position.place.toNat + 1) :
    next.place.toNat ∈ entry.nexts position.place.toNat ∧
      next.pending = entry.leaves position.pending := by
  obtain ⟨bound, decoded, same⟩ := reads.instr located
  unfold ParsedInstr.nexts ParsedInstr.leaves
  cases flows with
  | works fetched decoded' data =>
      obtain rfl := lists.fetched bound fetched
      cases decoded.symm.trans decoded'
      have notIf : entry.instr ≠ .if := by rintro isIf; rw [isIf] at data; cases data
      have notFuture : entry.instr ≠ .future := by
        rintro isFuture; rw [isFuture] at data; cases data
      rw [if_neg notIf, if_neg notFuture]
      exact ⟨List.mem_singleton.mpr onward, rfl⟩
  | @branches _ _ holds fetched decoded' =>
      obtain rfl := lists.fetched bound fetched
      have isIf : entry.instr = .if := Option.some.inj (decoded.symm.trans decoded')
      have notFuture : entry.instr ≠ .future := by rw [isIf]; decide
      rw [if_pos isIf, if_neg notFuture, ← same]
      refine ⟨?_, rfl⟩
      cases holds with
      | true => exact List.mem_cons_of_mem _ (List.mem_singleton_self _)
      | false => exact List.mem_cons.mpr (.inl onward)
  | inserts fetched decoded' =>
      obtain rfl := lists.fetched bound fetched
      have isFuture : entry.instr = .future := Option.some.inj (decoded.symm.trans decoded')
      have notIf : entry.instr ≠ .if := by rw [isFuture]; decide
      rw [if_pos isFuture, if_neg notIf, same]
      exact ⟨List.mem_singleton.mpr onward, rfl⟩
  | resumes fetched decoded' =>
      obtain rfl := lists.fetched bound fetched
      exact absurd (Option.some.inj (decoded.symm.trans decoded')) notHalt
  | goes fetched decoded' | waits fetched decoded' =>
      obtain rfl := lists.fetched bound fetched
      rw [Option.some.inj (decoded.symm.trans decoded')] at known
      cases known

/-- A HALT resumes at a pending jump address. -/
theorem flows_halt (reads : Reads instrs parsed) (lists : block.Lists instrs)
    (located : parsed[position.place.toNat]? = some entry) (halt : entry.instr = .halt)
    (flows : Flows block position place next) :
    ∃ jump ∈ position.pending, next.place = jump ∧
      next.pending = position.pending.erase jump := by
  obtain ⟨bound, decoded, _⟩ := reads.instr located
  rw [halt] at decoded
  cases flows with
  | works fetched decoded' data =>
      obtain rfl := lists.fetched bound fetched
      cases decoded.symm.trans decoded'
      cases data
  | goes fetched decoded' | branches fetched decoded' | inserts fetched decoded'
  | waits fetched decoded' =>
      obtain rfl := lists.fetched bound fetched
      cases decoded.symm.trans decoded'
  | resumes _ _ member => exact ⟨_, member, rfl, rfl⟩

/-- An instruction executed at a node leads back over a LOOP behind it, or on to a
tree behind it. -/
theorem Grown.follow (grown : Grown parsed pending position.pending node)
    (address : node.address? = some position.place.toNat) (reads : Reads instrs parsed)
    (lists : block.Lists instrs) (flows : Flows block position place next)
    (onward : (position.place + 1).toNat = position.place.toNat + 1)
    (inside : next.place.toNat < parsed.length) :
    next.place.toNat ≤ position.place.toNat ∧ Tree.loop ∈ node.behind ∨
      ∃ child ∈ node.behind, child.address? = some next.place.toNat ∧
        Grown parsed pending next.pending child := by
  generalize before : position.pending = jumps at grown
  cases grown with
  | instr located known notHalt _ shape behind =>
      cases address
      obtain ⟨member, after⟩ := flows_nexts reads lists located known notHalt flows onward
      rw [after, before]
      rcases Grown.child shape behind member inside with ⟨back, loop⟩ | ⟨child, memberChild, grown⟩
      · exact .inl ⟨back, Grown.mem_behind behind loop⟩
      · exact .inr ⟨child, Grown.mem_behind behind memberChild, grown⟩
  | @halt _ _ _ _ _ _ taken children located halt _ shape behind =>
      cases address
      obtain ⟨jump, member, resumed, after⟩ := flows_halt reads lists located halt flows
      rw [before] at member after
      obtain rfl := Multiset.mem_singleton.mp member
      have left : next.pending = 0 := after.trans (Multiset.erase_cons_head _ 0)
      rw [left, resumed]
      rw [resumed] at inside
      rcases Grown.child shape behind (List.mem_singleton_self _) inside with
        ⟨back, loop⟩ | ⟨child, memberChild, grown⟩
      · exact .inl ⟨back, mem_behind_pause loop⟩
      · exact .inr ⟨child, mem_behind_pause memberChild, grown⟩
  | loop => cases address

/-- The address after the one of a thread on its way. -/
theorem tracks_onward {certificate : Certificate} (certified : Certified instrs certificate)
    (tracks : Tracks instrs certificate position) :
    (position.place + 1).toNat = position.place.toNat + 1 := by
  rw [UInt32.toNat_add]
  exact Nat.mod_eq_of_lt (Nat.lt_of_le_of_lt tracks.inside certified.addressable)

/-- What a thread executes from a node up to its first jump back is a path from the node. -/
theorem Grown.traces (untangled : Untangled instrs pending) (reads : Reads instrs parsed)
    (lists : block.Lists instrs) {places : List UInt32} {last : Position}
    (run : Run (Flows block) position places last) (increasing : places.Pairwise (· < ·))
    (tracks : Tracks instrs (onePending pending) position)
    (address : node.address? = some position.place.toNat)
    (grown : Grown parsed pending position.pending node) :
    node.Traces (places.map UInt32.toNat ++ [last.place.toNat]) := by
  induction places generalizing position node with
  | nil =>
      obtain rfl := run.nil_inv
      exact .here address
  | cons place places ih =>
      obtain ⟨next, flows, further⟩ := run.cons_inv
      obtain rfl := flows_label flows
      obtain ⟨above, increasing⟩ := List.pairwise_cons.mp increasing
      have tracksNext : Tracks instrs (onePending pending) next :=
        untangled.certified.annotated.verified lists position tracks _ next flows
      have onward := tracks_onward untangled.certified tracks
      rcases grown.follow address reads lists flows onward (reads.length ▸ tracksNext.inside) with
        ⟨back, loop⟩ | ⟨child, member, addressNext, grownNext⟩
      · -- behind a jump back nothing increases, so the run ends there
        cases places with
        | nil =>
            obtain rfl := further.nil_inv
            exact .back address loop back
        | cons other places =>
            obtain ⟨_, flowsNext, _⟩ := further.cons_inv
            have beyond := above other List.mem_cons_self
            rw [flows_label flowsNext] at beyond
            exact absurd back (Nat.not_le.mpr beyond)
      · exact .onward address member (ih further increasing tracksNext addressNext grownNext)

end Thread

/-! ## Every node of the tree of a program -/

section Nodes

variable {block : CodeBlock} {instrs : List Instr} {parsed : List ParsedInstr}
  {pending : Nat → Bool} {jumps : Multiset UInt32} {tree node : Tree} {i : Nat}

/-- A node below a grown one has grown, or is a PAUSE over trees that have. -/
theorem Grown.lower (grown : Grown parsed pending jumps tree)
    (below : Relation.ReflTransGen Tree.Child tree node) :
    (∃ left, Grown parsed pending left node) ∨
      node.address? = none ∧ ∀ child ∈ node.children, Grown parsed pending 0 child := by
  induction below with
  | refl => exact .inl ⟨jumps, grown⟩
  | tail _ member ih =>
      rcases ih with ⟨left, node⟩ | ⟨_, behind⟩
      · cases node with
        | instr _ _ _ _ _ behind => exact .inl ⟨_, behind _ member⟩
        | halt _ _ _ _ behind =>
            cases List.mem_singleton.mp member
            exact .inr ⟨rfl, behind⟩
        | loop => cases member
      · exact .inl ⟨0, behind _ member⟩

/-- Where no future is marked, none is pending. -/
theorem Grown.idle (grown : Grown parsed pending jumps node) (address : node.address? = some i)
    (unmarked : pending i = false) : jumps = 0 := by
  cases grown with
  | instr _ _ _ marked =>
      cases address
      rw [marks_eq_zero.mpr unmarked] at marked
      exact Multiset.card_eq_zero.mp marked
  | halt _ _ marked =>
      cases address
      cases unmarked.symm.trans marked
  | loop => cases address

open TreeBuilder in
theorem buildTree_grown (reads : Reads instrs parsed) (untangled : Untangled instrs pending)
    (built : buildTree parsed = .ok tree) : Grown parsed pending 0 tree := by
  obtain ⟨⟨root, after⟩, stepped, done⟩ := bind_eq_ok.mp built
  cases done
  exact (step_grows reads untangled parsed.length stepped (List.forall_mem_nil _)
    (marks_eq_zero.mpr untangled.starts).symm).1

/-- What `parse.py` reads from the block of a certified program. -/
theorem readInstrs_certified {certificate : Certificate} (certified : Certified instrs certificate)
    (lists : block.Lists instrs) (whole : block.bytes.length = Instr.size * instrs.length) :
    ∃ parsed, readInstrs block.bytes = .ok parsed ∧ Reads instrs parsed := by
  have known : ∀ i, ∃ entry, ∀ bound : i < instrs.length, parsedOf instrs[i] = .ok entry := by
    intro i
    by_cases bound : i < instrs.length
    · obtain ⟨opcode, decoded, _⟩ := certified.rows i bound
      refine ⟨⟨opcode, instrs[i].arg0, instrs[i].arg1, instrs[i].arg2, instrs[i].arg3⟩, fun _ => ?_⟩
      rw [parsedOf, Option.mem_def.mp decoded]
    · exact ⟨⟨.nop, 0, 0, 0, 0⟩, fun inside => absurd inside bound⟩
  choose entry entries using known
  refine ⟨_, readInstrs_of_records whole entry fun i inside => ?_, by simp, fun i bound => ?_⟩
  · have held : i < block.records := by
      rw [CodeBlock.records, whole, Nat.mul_div_cancel_left _ (by decide : 0 < Instr.size)]
      exact inside
    have same := lists i inside
    rw [CodeBlock.fetch_of_lt held] at same
    rw [Except.ok.inj same]
    exact entries i inside
  · exact ⟨entry i, by simp [bound], entries i bound⟩

end Nodes

/-! ## The trees are drawn -/

/-- The next address finds as many futures queued as are marked there, and the
others are to find none. -/
structure Exploration.Even (parsed : List ParsedInstr) (pending : Nat → Bool)
    (exploration : Exploration) : Prop where
  queued : ∀ ref ∈ exploration.queue,
    parsed[ref.index]? = some ref.instr ∧ ref.instr.instr = .future
  ready : ∀ i rest, exploration.todo = i :: rest →
    exploration.queue.length = marks pending i ∧ ∀ j ∈ rest, pending j = false

section Drawing

variable {instrs : List Instr} {parsed : List ParsedInstr} {pending : Nat → Bool}
  {exploration next : Exploration} {entry : ParsedInstr} {i : Nat} {nexts rest : List Nat}

theorem even_of_none (none : exploration.queue = [])
    (unmarked : ∀ j ∈ exploration.todo, pending j = false) : exploration.Even parsed pending where
  queued := by
    rw [none]
    exact List.forall_mem_nil _
  ready := by
    intro i rest todo
    rw [todo] at unmarked
    obtain ⟨here, further⟩ := List.forall_mem_cons.mp unmarked
    rw [none, marks_eq_zero.mpr here]
    exact ⟨rfl, further⟩

theorem unmarked_ahead (unmarked : ∀ n ∈ nexts, pending n = false)
    (others : ∀ j ∈ rest, pending j = false) :
    ∀ j ∈ ahead parsed i nexts ++ rest, pending j = false := by
  intro j member
  rcases List.mem_append.mp member with next | other
  · exact unmarked j (List.mem_of_mem_filter next)
  · exact others j other

theorem ahead_onward (inside : i + 1 < parsed.length) :
    ahead parsed i [i + 1] ++ rest = (i + 1) :: rest := by
  rw [TreeBuilder.ahead_forward (Nat.lt_succ_self i) inside]
  rfl

theorem Exploration.Even.step (reads : Reads instrs parsed) (untangled : Untangled instrs pending)
    (even : exploration.Even parsed pending) (explores : Explores parsed exploration next) :
    next.Even parsed pending := by
  cases explores with
  | @future i _ _ rest queue entry located future =>
      obtain ⟨count, unmarked⟩ := even.ready i rest rfl
      obtain ⟨bound, decoded, _⟩ := reads.instr located
      rw [future] at decoded
      obtain ⟨inside, more⟩ := untangled.onward bound decoded rfl (by decide) (by decide)
      have nexts : entry.nexts i = [i + 1] := if_neg (by rw [future]; decide)
      rw [nexts, ahead_onward (reads.length ▸ inside)]
      constructor
      · intro ref member
        rcases List.mem_append.mp member with old | new
        · exact even.queued ref old
        · rw [List.mem_singleton.mp new]
          exact ⟨located, future⟩
      · intro first others todo
        cases todo
        refine ⟨?_, unmarked⟩
        rw [if_pos rfl] at more
        rw [List.length_append, List.length_singleton, more, count]
  | @halt i _ _ rest queue entry taken located halt longest =>
      obtain ⟨count, unmarked⟩ := even.ready i rest rfl
      obtain ⟨bound, decoded, _⟩ := reads.instr located
      rw [halt] at decoded
      obtain ⟨marked, points⟩ := untangled.resumes bound decoded
      rw [marks_eq_one.mpr marked] at count
      obtain ⟨only, rfl⟩ := List.length_eq_one_iff.mp count
      cases longest
      obtain ⟨takenLocated, isFuture⟩ := even.queued only (List.mem_singleton_self only)
      have point := reads.resumePoint takenLocated isFuture
      exact even_of_none rfl
        (unmarked_ahead (List.forall_mem_singleton.mpr (points _ point)) unmarked)
  | @other i _ _ rest queue entry length located known notFuture notHalt =>
      obtain ⟨count, unmarked⟩ := even.ready i rest rfl
      obtain ⟨bound, decoded, same⟩ := reads.instr located
      by_cases isIf : entry.instr = .if
      · rw [isIf] at decoded
        obtain ⟨here, onward, jump⟩ := untangled.branches i bound decoded
        rw [same] at jump
        rw [marks_eq_zero.mpr here] at count
        refine even_of_none (List.length_eq_zero_iff.mp count) (unmarked_ahead ?_ unmarked)
        rw [ParsedInstr.nexts, if_pos isIf]
        simp [onward, jump]
      · obtain ⟨inside, more⟩ := untangled.onward bound decoded known notHalt isIf
        have nexts : entry.nexts i = [i + 1] := if_neg isIf
        rw [nexts, ahead_onward (reads.length ▸ inside)]
        refine ⟨even.queued, fun first others todo => ?_⟩
        cases todo
        rw [if_neg notFuture] at more
        exact ⟨count.trans more.symm, unmarked⟩

theorem Explored.even (reads : Reads instrs parsed) (untangled : Untangled instrs pending)
    (explored : Explored parsed .start exploration) : exploration.Even parsed pending := by
  induction explored with
  | refl => exact even_of_none rfl (List.forall_mem_singleton.mpr untangled.starts)
  | tail _ explores ih => exact ih.step reads untangled explores

/--
The visualizer draws every program without tangled futures whose instructions
all have a length, whichever guards its branches have: the queue that the
branches share never lacks the future that a HALT is to take.
-/
theorem untangled_drawn {block : CodeBlock} (untangled : Untangled instrs pending)
    (lists : block.Lists instrs) (whole : block.bytes.length = Instr.size * instrs.length)
    (nonempty : instrs ≠ [])
    (timed : ∀ instr ∈ instrs, ∀ opcode ∈ instr.opcode?, lengths opcode ≠ none) :
    ∃ parsed, readInstrs block.bytes = .ok parsed ∧ Accepted parsed := by
  obtain ⟨parsed, read, reads⟩ := readInstrs_certified untangled.certified lists whole
  have some : parsed ≠ [] := by
    rintro rfl
    exact nonempty (List.length_eq_zero_iff.mp reads.length.symm)
  refine ⟨parsed, read, (accepted_iff_neverStuck some).mpr ?_⟩
  rintro exploration explored ⟨i, rest, entry, todo, located, why⟩
  obtain ⟨bound, decoded, _⟩ := reads.instr located
  rcases why with unknown | ⟨halt, empty⟩
  · exact timed _ (List.getElem_mem bound) _ decoded unknown
  · rw [halt] at decoded
    have marked := (untangled.resumes bound decoded).1
    have count := ((Explored.even reads untangled explored).ready i rest todo).1
    rw [empty, marks_eq_one.mpr marked] at count
    cases count

end Drawing

/-- A wait, a branch, and a wait that leads back. -/
def twoWaits : List Instr :=
  [.make .future 5 3 0 0, .make .nop 0 0 0 0, .make .halt 0 0 0 0,
    .make .if Guard.alwaysTrue.code 5 0 0, .make .nop 0 0 0 0, .make .future 5 0 0 0,
    .make .halt 0 0 0 0]

def twoWaitsPending (place : Nat) : Bool := place = 1 ∨ place = 2 ∨ place = 6

theorem twoWaits_untangled : Untangled twoWaits twoWaitsPending := by decide

theorem untangled_drawn_twoWaits : ∃ parsed,
    readInstrs (CodeBlock.ofInstrs twoWaits).bytes = .ok parsed ∧ Accepted parsed :=
  untangled_drawn twoWaits_untangled (CodeBlock.fetch_ofInstrs twoWaits)
    (Bytes.length_flatMap_of_sized Instr.toBytes_length _) (List.cons_ne_nil _ _) (by decide)

/-! ## Every run of the module -/

section Runs

variable {long : LongWidth} {block : CodeBlock} {instrs : List Instr} {parsed : List ParsedInstr}
  {pending : Nat → Bool} {tree node : Tree} {first middle last : NcmSysfs}
  {before window : List (NcmSysfs × Action × List Observation)}

/--
The tree that the visualizer draws for a program without tangled futures covers
every run of the module: whenever the thread is at the address of a node and has
no future pending, the instructions that it executes from there to its first
jump back are a path from the node, over the instruction that the thread comes
to at the end, or over a LOOP where that is a jump back, whatever is written to
the files, arrives, is answered by the driver and is read from the clock.
-/
theorem tree_covers_runs (untangled : Untangled instrs pending) (lists : block.Lists instrs)
    (whole : block.bytes.length = Instr.size * instrs.length)
    (read : readInstrs block.bytes = .ok parsed) (built : TreeBuilder.buildTree parsed = .ok tree)
    (reachable : Reachable long first) (loaded : first.ncmInterp.program = some block)
    (starts : first.ncmInterp.programCounter = 0) (nonempty : instrs ≠ [])
    (fresh : first.ncmInterp.futureQueue.live = [])
    (earlier : Run (Recorded (Meeting (Step long) Unstarted)) first before middle)
    (later : Run (Recorded (Meeting (Step long) Unstarted)) middle window last)
    (running : last.ncmInterp.isRunning = true)
    (drawn : Relation.ReflTransGen Tree.Child tree node)
    (here : node.address? = some middle.ncmInterp.programCounter.toNat)
    (idle : pending middle.ncmInterp.programCounter.toNat = false)
    (increasing : (visits window).Pairwise (· < ·)) :
    node.Traces ((visits window).map UInt32.toNat ++
      [last.ncmInterp.programCounter.toNat]) := by
  obtain ⟨_, read', reads⟩ := readInstrs_certified untangled.certified lists whole
  cases read.symm.trans read'
  have runsOn : RunsOn block first := ⟨loaded, reachable_represented reachable⟩
  have runsOnMiddle := runsOn.run earlier
  have nonePending : first.ncmInterp.position.pending = 0 := by
    rw [Interpreter.position, fresh]
    rfl
  have tracksFirst : Tracks instrs (onePending pending) first.ncmInterp.position := by
    have zero : first.ncmInterp.position.place.toNat = 0 := congrArg UInt32.toNat starts
    refine ⟨zero ▸ List.length_pos_iff.mpr nonempty, ?_, ?_⟩
    · rw [nonePending, zero, onePending, marks_eq_zero.mpr untangled.starts]
      exact ⟨Nat.le_refl 0, Nat.le_refl 0⟩
    · rw [nonePending]
      exact fun jump member => absurd member (Multiset.notMem_zero jump)
  have tracks : Tracks instrs (onePending pending) middle.ncmInterp.position :=
    (untangled.certified.annotated.verified lists).run
      (run_flows loaded runsOn.represents earlier (runsOnMiddle.running later running)) tracksFirst
  have flow := run_flows runsOnMiddle.program runsOnMiddle.represents later running
  have grown : Grown parsed pending middle.ncmInterp.position.pending node := by
    obtain ⟨_, few⟩ := tracks.allowed
    have none : middle.ncmInterp.position.pending.card ≤ marks pending
      middle.ncmInterp.programCounter.toNat := few
    rw [marks_eq_zero.mpr idle, Nat.le_zero, Multiset.card_eq_zero] at none
    rcases (buildTree_grown reads untangled built).lower drawn with
      ⟨left, grown⟩ | ⟨noAddress, _⟩
    · rw [none, ← grown.idle here idle]
      exact grown
    · cases here.symm.trans noAddress
  exact grown.traces untangled reads lists flow increasing tracks here

end Runs

/-- What `parse.py` reads. -/
def twoWaitsParsed : List ParsedInstr :=
  [⟨.future, 5, 3, 0, 0⟩, ⟨.nop, 0, 0, 0, 0⟩, ⟨.halt, 0, 0, 0, 0⟩, ⟨.if, 0, 5, 0, 0⟩,
    ⟨.nop, 0, 0, 0, 0⟩, ⟨.future, 5, 0, 0, 0⟩, ⟨.halt, 0, 0, 0, 0⟩]

theorem readInstrs_twoWaits :
    readInstrs (CodeBlock.ofInstrs twoWaits).bytes = .ok twoWaitsParsed := by
  have whole : (CodeBlock.ofInstrs twoWaits).bytes.length = Instr.size * 7 :=
    Bytes.length_flatMap_of_sized Instr.toBytes_length _
  refine readInstrs_of_records whole (fun i => twoWaitsParsed.getD i ⟨.nop, 0, 0, 0, 0⟩) ?_
  intro i inside
  match i, inside with
  | 0, _ | 1, _ | 2, _ | 3, _ | 4, _ | 5, _ | 6, _ => rfl

def twoWaitsSteps : List Action :=
  [1, 2, 8, 9, 10, 20].map fun now => .instruction (.atClock now now now)

set_option maxRecDepth 20000 in
/-- The first round of the thread, through the jump of the IF and back to the start. -/
theorem tree_covers_runs_twoWaits : ∃ tree, TreeBuilder.buildTree twoWaitsParsed = .ok tree ∧
    tree.Traces [0, 1, 2, 3, 5, 6, 0] := by
  have done : ∃ tree first earlier last labels,
      TreeBuilder.buildTree twoWaitsParsed = .ok tree ∧ tree.address? = some 0 ∧
      runFromInit .bits64 (loadAndRun twoWaits noChannels .bare) = .ok (first, earlier) ∧
      Run.carryOut (fun sysfs : NcmSysfs => sysfs.next .bits64) first twoWaitsSteps =
        .ok (last, labels) ∧
      first.ncmInterp.program = some (CodeBlock.ofInstrs twoWaits) ∧
      first.ncmInterp.programCounter = 0 ∧ first.ncmInterp.futureQueue.live = [] ∧
      last.ncmInterp.programCounter = 0 ∧ last.ncmInterp.isRunning = true ∧
      visits (Run.recordsOf (fun sysfs : NcmSysfs => sysfs.next .bits64) first twoWaitsSteps) =
        [0, 1, 2, 3, 5, 6] :=
    ⟨_, _, _, _, _, rfl, rfl, rfl, rfl, rfl, rfl, rfl, rfl, rfl, rfl⟩
  obtain ⟨tree, first, earlier, last, labels, built, root, loaded, ran, program, starts, fresh,
    ended, running, visited⟩ := done
  have recorded : Run (Recorded (Meeting (Step .bits64) Unstarted)) first
      (Run.recordsOf (fun sysfs : NcmSysfs => sysfs.next .bits64) first twoWaitsSteps) last := by
    refine (Run.recorded_of_carryOut ran).recorded_meeting ?_
    rintro record member ⟨buf, env, starts, -⟩
    have among := Run.mem_recordsOf member
    rw [starts] at among
    simp [twoWaitsSteps] at among
  refine ⟨tree, built, ?_⟩
  have traces := tree_covers_runs twoWaits_untangled (CodeBlock.fetch_ofInstrs twoWaits)
    (Bytes.length_flatMap_of_sized Instr.toBytes_length _) readInstrs_twoWaits built
    ⟨_, run_of_runFromInit loaded⟩ program starts (List.cons_ne_nil _ _) fresh (.refl first)
    recorded running .refl (by rw [starts]; exact root) (by rw [starts]; rfl)
    (by rw [visited]; decide)
  rw [visited, ended] at traces
  exact traces

end NetworkCode.Visualizer
