import NetworkCode.Visualizer.Exploration

/-!
# What `step` builds

Along a path every instruction is passed the time of the one before it plus
200, a PAUSE adds nothing, and the scheduled time of the future that a HALT
takes is the one its FUTURE on the path has recorded.
-/

namespace NetworkCode.Visualizer

open Kernel Library.Checked

namespace Tree

/-- The call of `step` that made the node of an instruction. -/
def visit? : Tree → Option (Nat × Int)
  | instr index time _ _ _ => some (index, time)
  | pause .. | loop => none

/-- The future of a PAUSE with its scheduled time. -/
def taken? : Tree → Option (InstrRef × Int)
  | pause taken scheduledTime _ _ => some (taken, scheduledTime)
  | instr .. | loop => none

end Tree

/--
A tree that stands at `time` on a path whose FUTUREs have recorded the
scheduled times in `records`.
-/
inductive Built (instrs : List ParsedInstr) : List (Nat × Int) → Int → Tree → Prop where
  | instr {records extended : List (Nat × Int)} {index : Nat} {time : Int} {parsed : ParsedInstr}
      {length : Length} {children : List Tree} (located : instrs[index]? = some parsed)
      (mean : length.mew = 200) (keeps : ∀ record ∈ records, record ∈ extended)
      (records_own : parsed.instr = .future → (index, time + parsed.arg0.toNat) ∈ extended)
      (behind : ∀ child ∈ children, Built instrs extended (time + 200) child) :
      Built instrs records time (.instr index time parsed length children)
  | pause {records : List (Nat × Int)} {time scheduledTime : Int} {taken : InstrRef}
      {children : List Tree} (located : instrs[taken.index]? = some taken.instr)
      (isFuture : taken.instr.instr = .future)
      (recorded : ∀ other, (taken.index, other) ∈ records → other = scheduledTime)
      (behind : ∀ child ∈ children, Built instrs records time child)
      (plain : ∀ child ∈ children, child.taken? = none) :
      Built instrs records time
        (.pause taken scheduledTime (scheduledTime - (time - 200)) children)
  | loop {records : List (Nat × Int)} {time : Int} : Built instrs records time .loop

namespace TreeBuilder

/-- The queue holds references to FUTUREs of the program. -/
def Queued (instrs : List ParsedInstr) (builder : TreeBuilder) : Prop :=
  ∀ ref ∈ builder.futureQueue, instrs[ref.index]? = some ref.instr ∧ ref.instr.instr = .future

/-- The records are those of addresses below `i`, as the builder holds them. -/
def Recorded (builder : TreeBuilder) (records : List (Nat × Int)) (i : Nat) : Prop :=
  ∀ record ∈ records, record.1 < i ∧ builder.scheduledTime record.1 = some record.2

/-- Addresses below `i` keep their scheduled times. -/
def Kept (i : Nat) (before after : TreeBuilder) : Prop :=
  ∀ j < i, after.scheduledTime j = before.scheduledTime j

section Builder

variable {instrs : List ParsedInstr} {builder before middle after : TreeBuilder}
  {records : List (Nat × Int)} {i n : Nat} {time : Int}

theorem Kept.refl (i : Nat) (builder : TreeBuilder) : Kept i builder builder := fun _ _ => rfl

theorem Kept.trans (first : Kept i before middle) (second : Kept i middle after) :
    Kept i before after := fun j below => (second j below).trans (first j below)

theorem Kept.mono (kept : Kept n before after) (smaller : i ≤ n) : Kept i before after :=
  fun j below => kept j (Nat.lt_of_lt_of_le below smaller)

theorem Recorded.mono (recorded : Recorded builder records i) (larger : i ≤ n) :
    Recorded builder records n := fun record member =>
  ⟨Nat.lt_of_lt_of_le (recorded record member).1 larger, (recorded record member).2⟩

theorem Recorded.of_kept (recorded : Recorded before records i) (kept : Kept i before after) :
    Recorded after records i := fun record member =>
  ⟨(recorded record member).1,
    (kept record.1 (recorded record member).1).trans (recorded record member).2⟩

/-! ## The two operations on the queue -/

theorem Queued.schedule (queued : Queued instrs builder) {future : InstrRef}
    (located : instrs[future.index]? = some future.instr)
    (isFuture : future.instr.instr = .future) (scheduledTime : Int) :
    Queued instrs (builder.schedule future scheduledTime) := by
  intro ref member
  rcases List.mem_append.mp member with old | new
  · exact queued ref old
  · rw [List.mem_singleton.mp new]
    exact ⟨located, isFuture⟩

theorem kept_schedule (builder : TreeBuilder) (future : InstrRef) (scheduledTime : Int) :
    Kept future.index builder (builder.schedule future scheduledTime) := by
  intro j below
  exact Function.update_of_ne (Nat.ne_of_lt below) _ _

theorem Recorded.schedule {future : InstrRef} (recorded : Recorded builder records future.index)
    (scheduledTime : Int) :
    Recorded (builder.schedule future scheduledTime) ((future.index, scheduledTime) :: records)
      (future.index + 1) := by
  intro record member
  rcases List.mem_cons.mp member with rfl | old
  · exact ⟨Nat.lt_succ_self _, Function.update_self ..⟩
  · exact ((recorded.of_kept (kept_schedule builder future scheduledTime)).mono
      (Nat.le_succ _)) record old

/-- What a HALT takes was queued, and nothing is added or rescheduled. -/
theorem takeFuture_spec {taken : InstrRef} {scheduledTime : Int}
    (popped : builder.takeFuture = .ok (taken, scheduledTime, after)) :
    taken ∈ builder.futureQueue ∧ builder.scheduledTime taken.index = some scheduledTime ∧
      after.scheduledTime = builder.scheduledTime ∧
        ∀ ref ∈ after.futureQueue, ref ∈ builder.futureQueue := by
  obtain ⟨longest, scheduled, rfl⟩ := takeFuture_eq_ok popped
  refine ⟨?_, scheduled, rfl, fun ref member => ?_⟩
  · exact (List.mem_insertionSort _).mp (List.mem_of_getLast? longest)
  · exact (List.mem_insertionSort _).mp (List.dropLast_subset _ member)

/-! ## The calls of `step` -/

/-- What is known about a call of `step` at an address above `i`. -/
def StepBuilds (instrs : List ParsedInstr)
    (step : TreeBuilder → Nat → Int → Except PyError (Tree × TreeBuilder)) : Prop :=
  ∀ {before after : TreeBuilder} {n : Nat} {time : Int} {tree : Tree} {records : List (Nat × Int)},
    step before n time = .ok (tree, after) → Queued instrs before → Recorded before records n →
      Built instrs records time tree ∧ tree.taken? = none ∧ Queued instrs after ∧
        Kept n before after

theorem Follows.builds {step : TreeBuilder → Nat → Int → Except PyError (Tree × TreeBuilder)}
    (builds : StepBuilds instrs step) {nexts : List Nat} {children : List Tree}
    (follows : Follows instrs step i time nexts before children after)
    (queued : Queued instrs before) (recorded : Recorded before records (i + 1)) :
    (∀ child ∈ children, Built instrs records time child ∧ child.taken? = none) ∧
      Queued instrs after ∧ Kept (i + 1) before after := by
  induction follows with
  | nil => exact ⟨List.forall_mem_nil _, queued, .refl _ _⟩
  | back _ _ ih =>
      obtain ⟨built, queued', kept⟩ := ih queued recorded
      exact ⟨List.forall_mem_cons.mpr ⟨⟨.loop, rfl⟩, built⟩, queued', kept⟩
  | forward above _ stepped _ ih =>
      obtain ⟨built, plain, queuedNext, kept⟩ := builds stepped queued (recorded.mono above)
      have keptHere := kept.mono above
      obtain ⟨builtRest, queued', keptRest⟩ := ih queuedNext (recorded.of_kept keptHere)
      exact ⟨List.forall_mem_cons.mpr ⟨⟨built, plain⟩, builtRest⟩, queued',
        keptHere.trans keptRest⟩
  | outside _ _ _ ih => exact ih queued recorded

/-- The node of an instruction over children that `follow` has built. -/
theorem StepBuilds.node {step : TreeBuilder → Nat → Int → Except PyError (Tree × TreeBuilder)}
    (builds : StepBuilds instrs step) {parsed : ParsedInstr} {length : Length}
    {extended : List (Nat × Int)} {nexts : List Nat} {children : List Tree}
    (located : instrs[i]? = some parsed) (known : lengths parsed.instr = some length)
    (keeps : ∀ record ∈ records, record ∈ extended)
    (recordsOwn : parsed.instr = .future → (i, time + parsed.arg0.toNat) ∈ extended)
    (follows : Follows instrs step i (time + length.mew) nexts before children after)
    (queued : Queued instrs before) (recorded : Recorded before extended (i + 1)) :
    Built instrs records time (.instr i time parsed length children) ∧ Queued instrs after ∧
      Kept (i + 1) before after := by
  have mean := lengths_mew known
  rw [mean] at follows
  obtain ⟨built, queued', kept⟩ := follows.builds builds queued recorded
  exact ⟨.instr located mean keeps recordsOwn fun child member => (built child member).1, queued',
    kept⟩

/-- The node of a HALT over its PAUSE. -/
theorem StepBuilds.haltNode
    {step : TreeBuilder → Nat → Int → Except PyError (Tree × TreeBuilder)}
    (builds : StepBuilds instrs step) {parsed : ParsedInstr} {length : Length}
    {taken : InstrRef} {scheduledTime : Int} {nexts : List Nat} {children : List Tree}
    (located : instrs[i]? = some parsed) (known : lengths parsed.instr = some length)
    (halt : parsed.instr = .halt)
    (popped : before.takeFuture = .ok (taken, scheduledTime, middle))
    (follows : Follows instrs step i (time + length.mew) nexts middle children after)
    (queued : Queued instrs before) (recorded : Recorded before records i) :
    Built instrs records time (.instr i time parsed length
      [.pause taken scheduledTime (scheduledTime - time) children]) ∧ Queued instrs after ∧
        Kept i before after := by
  have mean := lengths_mew known
  rw [mean] at follows
  obtain ⟨member, scheduled, same, fewer⟩ := takeFuture_spec popped
  obtain ⟨takenLocated, isFuture⟩ := queued taken member
  have keptMiddle : Kept (i + 1) before middle := fun j _ => congrFun same j
  obtain ⟨built, queued', kept⟩ := follows.builds builds
    (fun ref inside => queued ref (fewer ref inside))
    ((recorded.mono (Nat.le_succ i)).of_kept keptMiddle)
  have pause : Built instrs records (time + 200)
      (.pause taken scheduledTime (scheduledTime - (time + 200 - 200)) children) := by
    refine .pause takenLocated isFuture ?_ (fun child inside => (built child inside).1)
      fun child inside => (built child inside).2
    intro other member
    exact Option.some_injective _ ((recorded _ member).2.symm.trans scheduled)
  rw [Int.add_sub_cancel] at pause
  refine ⟨.instr located mean (fun _ member => member) (fun future => ?_)
    (List.forall_mem_singleton.mpr pause), queued', (keptMiddle.trans kept).mono (Nat.le_succ i)⟩
  rw [future] at halt
  cases halt

theorem step_builds (instrs : List ParsedInstr) (fuel : Nat) :
    StepBuilds instrs (step instrs fuel) := by
  induction fuel with
  | zero => intro before after n time tree records stepped; cases stepped
  | succ fuel ih =>
      intro before after i time tree records stepped queued recorded
      have nextRecorded := recorded.mono (Nat.le_succ i)
      obtain ⟨arrival, children, arrives, follows, rfl⟩ := step_eq_ok stepped
      cases arrives with
      | halt located known halt takes =>
          obtain ⟨built, queued', kept⟩ :=
            ih.haltNode located known halt takes follows queued recorded
          exact ⟨built, rfl, queued', kept⟩
      | @future parsed _ located known future =>
          obtain ⟨built, queued', kept⟩ := ih.node located known
            (fun _ member => List.mem_cons_of_mem _ member) (fun _ => List.mem_cons_self) follows
            (queued.schedule located future _) (recorded.schedule _)
          exact ⟨built, rfl, queued', (kept_schedule before ⟨i, parsed⟩ _).trans
            (kept.mono (Nat.le_succ i))⟩
      | other located known notFuture =>
          obtain ⟨built, queued', kept⟩ := ih.node located known (fun _ member => member)
            (fun future => absurd future notFuture) follows queued nextRecorded
          exact ⟨built, rfl, queued', kept.mono (Nat.le_succ i)⟩

/-- The tree of a program. -/
theorem buildTree_built {instrs : List ParsedInstr} {tree : Tree}
    (built : buildTree instrs = .ok tree) : Built instrs [] 0 tree ∧ tree.taken? = none := by
  obtain ⟨⟨root, after⟩, stepped, done⟩ := bind_eq_ok.mp built
  cases done
  have queued : Queued instrs .empty := List.forall_mem_nil _
  have recorded : Recorded .empty [] 0 := List.forall_mem_nil _
  obtain ⟨whole, plain, _, _⟩ := step_builds instrs instrs.length stepped queued recorded
  exact ⟨whole, plain⟩

end Builder

end TreeBuilder

end NetworkCode.Visualizer
