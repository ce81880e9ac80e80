import NetworkCode.Visualizer.Exploration

/-!
# The order of exploration

What the recursion of `step` does to the shared queue, one address at a time:
the addresses still to be explored stand in a list, the next one first, and
those that an instruction leads to are put in front of it.  The recursion ends
without an exception exactly when this exploration is never stuck.
-/

namespace NetworkCode.Visualizer

open Kernel Library.Checked

/-- Where the exploration stands, with the FUTUREs and HALTs that it has met. -/
structure Exploration where
  todo : List Nat
  queue : List InstrRef
  futures : Nat
  halts : Nat

/-- The beginning. -/
def Exploration.start : Exploration := ⟨[0], [], 0, 0⟩

/-- The next addresses that are explored: those ahead, inside the program. -/
def ahead (instrs : List ParsedInstr) (i : Nat) (nexts : List Nat) : List Nat :=
  nexts.filter fun n => i < n ∧ n < instrs.length

/-- One instruction is explored. -/
inductive Explores (instrs : List ParsedInstr) : Exploration → Exploration → Prop where
  | future {i futures halts : Nat} {rest : List Nat} {queue : List InstrRef}
      {parsed : ParsedInstr} (located : instrs[i]? = some parsed)
      (future : parsed.instr = .future) :
      Explores instrs ⟨i :: rest, queue, futures, halts⟩
        ⟨ahead instrs i (parsed.nexts i) ++ rest, queue ++ [⟨i, parsed⟩], futures + 1, halts⟩
  | halt {i futures halts : Nat} {rest : List Nat} {queue : List InstrRef}
      {parsed : ParsedInstr} {taken : InstrRef} (located : instrs[i]? = some parsed)
      (halt : parsed.instr = .halt) (longest : (byDelay queue).getLast? = some taken) :
      Explores instrs ⟨i :: rest, queue, futures, halts⟩
        ⟨ahead instrs i [taken.instr.arg1.toNat] ++ rest, (byDelay queue).dropLast, futures,
          halts + 1⟩
  | other {i futures halts : Nat} {rest : List Nat} {queue : List InstrRef}
      {parsed : ParsedInstr} {length : Length} (located : instrs[i]? = some parsed)
      (known : lengths parsed.instr = some length) (notFuture : parsed.instr ≠ .future)
      (notHalt : parsed.instr ≠ .halt) :
      Explores instrs ⟨i :: rest, queue, futures, halts⟩
        ⟨ahead instrs i (parsed.nexts i) ++ rest, queue, futures, halts⟩

/-- The explorations that an exploration leads to. -/
def Explored (instrs : List ParsedInstr) : Exploration → Exploration → Prop :=
  Relation.ReflTransGen (Explores instrs)

/-- The instruction that comes next has no length, or is a HALT that finds no future. -/
def Exploration.Stuck (instrs : List ParsedInstr) (exploration : Exploration) : Prop :=
  ∃ i rest parsed, exploration.todo = i :: rest ∧ instrs[i]? = some parsed ∧
    (lengths parsed.instr = none ∨ parsed.instr = .halt ∧ exploration.queue = [])

section Order

variable {instrs : List ParsedInstr} {first second third : Exploration}

/-! ## The order is determined -/

theorem Explores.unique (left : Explores instrs first second)
    (right : Explores instrs first third) : second = third := by
  cases left with
  | future located isFuture =>
      cases right with
      | future again => cases Option.some.inj (located.symm.trans again); rfl
      | halt again isHalt =>
          cases Option.some.inj (located.symm.trans again)
          rw [isFuture] at isHalt
          cases isHalt
      | other again _ notFuture =>
          cases Option.some.inj (located.symm.trans again)
          exact absurd isFuture notFuture
  | halt located isHalt longest =>
      cases right with
      | future again isFuture =>
          cases Option.some.inj (located.symm.trans again)
          rw [isFuture] at isHalt
          cases isHalt
      | halt again _ alsoLongest =>
          cases Option.some.inj (longest.symm.trans alsoLongest)
          rfl
      | other again _ _ notHalt =>
          cases Option.some.inj (located.symm.trans again)
          exact absurd isHalt notHalt
  | other located _ notFuture notHalt =>
      cases right with
      | future again isFuture =>
          cases Option.some.inj (located.symm.trans again)
          exact absurd isFuture notFuture
      | halt again isHalt =>
          cases Option.some.inj (located.symm.trans again)
          exact absurd isHalt notHalt
      | other again => cases Option.some.inj (located.symm.trans again); rfl

theorem Exploration.Stuck.last (stuck : first.Stuck instrs) : ¬ Explores instrs first second := by
  obtain ⟨i, rest, parsed, todo, located, why⟩ := stuck
  intro explores
  cases explores with
  | future again isFuture =>
      obtain ⟨rfl, rfl⟩ := List.cons.inj todo
      cases Option.some.inj (located.symm.trans again)
      rw [isFuture] at why
      rcases why with unknown | ⟨isHalt, _⟩
      · cases unknown
      · cases isHalt
  | @halt _ _ _ _ queue _ _ again isHalt longest =>
      obtain ⟨rfl, rfl⟩ := List.cons.inj todo
      cases Option.some.inj (located.symm.trans again)
      rw [isHalt] at why
      rcases why with unknown | ⟨_, empty⟩
      · cases unknown
      · change queue = [] at empty
        rw [empty] at longest
        cases longest
  | other again known _ notHalt =>
      obtain ⟨rfl, rfl⟩ := List.cons.inj todo
      cases Option.some.inj (located.symm.trans again)
      rcases why with unknown | ⟨isHalt, _⟩
      · rw [unknown] at known
        cases known
      · exact notHalt isHalt

/-- What is still queued is what has been met and not taken. -/
def Exploration.Counted (exploration : Exploration) : Prop :=
  exploration.futures = exploration.halts + exploration.queue.length

theorem Explores.counted (explores : Explores instrs first second) (counted : first.Counted) :
    second.Counted := by
  cases explores with
  | @future _ futures halts _ queue _ _ _ =>
      change futures = halts + queue.length at counted
      change futures + 1 = halts + (queue ++ [_]).length
      rw [List.length_append, List.length_singleton]
      omega
  | @halt _ futures halts _ queue _ _ _ _ longest =>
      change futures = halts + queue.length at counted
      change futures = halts + 1 + (byDelay queue).dropLast.length
      have same : (byDelay queue).length = queue.length := List.length_insertionSort _ _
      have nonempty : 0 < (byDelay queue).length :=
        List.length_pos_of_mem (List.mem_of_getLast? longest)
      rw [List.length_dropLast]
      omega
  | other => exact counted

theorem Explored.counted (explored : Explored instrs .start first) : first.Counted := by
  induction explored with
  | refl => rfl
  | tail _ explores ih => exact explores.counted ih

end Order

namespace TreeBuilder

variable {instrs : List ParsedInstr} {before after : TreeBuilder} {i fuel : Nat} {time : Int}

/-! ## Calls that return -/

section Ahead

variable {n : Nat} {nexts : List Nat}

theorem ahead_back (back : n ≤ i) : ahead instrs i (n :: nexts) = ahead instrs i nexts :=
  List.filter_cons_of_neg (by simp [back])

theorem ahead_forward (forward : i < n) (inside : n < instrs.length) :
    ahead instrs i (n :: nexts) = n :: ahead instrs i nexts :=
  List.filter_cons_of_pos (by simp [forward, inside])

theorem ahead_outside (outside : ¬ n < instrs.length) :
    ahead instrs i (n :: nexts) = ahead instrs i nexts :=
  List.filter_cons_of_neg (by simp [outside])

end Ahead

/-- What the calls of a loop do to the order of exploration. -/
def StepExplores (instrs : List ParsedInstr)
    (step : TreeBuilder → Nat → Int → Except PyError (Tree × TreeBuilder)) : Prop :=
  ∀ {before after : TreeBuilder} {n : Nat} {time : Int} {tree : Tree},
    step before n time = .ok (tree, after) → ∀ rest futures halts, ∃ futures' halts',
      Explored instrs ⟨n :: rest, before.futureQueue, futures, halts⟩
        ⟨rest, after.futureQueue, futures', halts'⟩

theorem Follows.explores
    {step : TreeBuilder → Nat → Int → Except PyError (Tree × TreeBuilder)}
    (explores : StepExplores instrs step) {nexts : List Nat} {children : List Tree}
    (follows : Follows instrs step i time nexts before children after)
    (rest : List Nat) (futures halts : Nat) : ∃ futures' halts',
      Explored instrs ⟨ahead instrs i nexts ++ rest, before.futureQueue, futures, halts⟩
        ⟨rest, after.futureQueue, futures', halts'⟩ := by
  induction follows generalizing futures halts with
  | nil => exact ⟨futures, halts, .refl⟩
  | back back _ ih =>
      rw [ahead_back back]
      exact ih futures halts
  | forward forward inside stepped _ ih =>
      rw [ahead_forward forward inside, List.cons_append]
      obtain ⟨futures₁, halts₁, first⟩ := explores stepped (ahead instrs i _ ++ rest) futures halts
      obtain ⟨futures₂, halts₂, others⟩ := ih futures₁ halts₁
      exact ⟨futures₂, halts₂, first.trans others⟩
  | outside _ outside _ ih =>
      rw [ahead_outside outside]
      exact ih futures halts

/-- An arrival explores one instruction. -/
theorem Arrives.explores {arrival : Arrival} (arrives : Arrives instrs before i time arrival)
    (rest : List Nat) (futures halts : Nat) : ∃ futures' halts',
      Explores instrs ⟨i :: rest, before.futureQueue, futures, halts⟩
        ⟨ahead instrs i arrival.nexts ++ rest, arrival.builder.futureQueue, futures', halts'⟩ := by
  cases arrives with
  | halt located _ halt takes =>
      obtain ⟨longest, _, rfl⟩ := takeFuture_eq_ok takes
      exact ⟨futures, halts + 1, .halt located halt longest⟩
  | future located _ future => exact ⟨futures + 1, halts, .future located future⟩
  | other located known notFuture notHalt =>
      exact ⟨futures, halts, .other located known notFuture notHalt⟩

/-- A call explores its address and what that leads to, and comes back to what stood
behind it. -/
theorem step_explores (instrs : List ParsedInstr) (fuel : Nat) :
    StepExplores instrs (step instrs fuel) := by
  induction fuel with
  | zero => intro before after i time tree stepped; cases stepped
  | succ fuel ih =>
      intro before after i time tree stepped rest futures halts
      obtain ⟨arrival, children, arrives, follows, _⟩ := step_eq_ok stepped
      obtain ⟨futures₁, halts₁, first⟩ := arrives.explores rest futures halts
      obtain ⟨futures₂, halts₂, run⟩ := follows.explores ih rest futures₁ halts₁
      exact ⟨futures₂, halts₂, run.head first⟩

/-! ## What calls keep of the shared state -/

section Kept

variable {property : TreeBuilder → Prop}
  (schedules : ∀ builder future scheduledTime, property builder →
    property (builder.schedule future scheduledTime))
  (takes : ∀ builder taken scheduledTime after,
    builder.takeFuture = .ok (taken, scheduledTime, after) → property builder → property after)

include schedules takes

theorem Arrives.kept {arrival : Arrival} (arrives : Arrives instrs before i time arrival)
    (holds : property before) : property arrival.builder := by
  cases arrives with
  | halt _ _ _ taking => exact takes _ _ _ _ taking holds
  | future => exact schedules _ _ _ holds
  | other => exact holds

/-- What both operations on the queue keep, every call keeps. -/
theorem step_kept {tree : Tree} (stepped : step instrs fuel before i time = .ok (tree, after))
    (holds : property before) : property after := by
  induction fuel generalizing before after i time tree with
  | zero => cases stepped
  | succ fuel ih =>
      obtain ⟨arrival, children, arrives, follows, _⟩ := step_eq_ok stepped
      exact follows.kept property (fun _ _ _ _ _ _ _ made => ih made)
        (arrives.kept schedules takes holds)

end Kept

/-- The FUTUREs that are queued have recorded their scheduled times. -/
def Scheduled (builder : TreeBuilder) : Prop :=
  ∀ ref ∈ builder.futureQueue, (builder.scheduledTime ref.index).isSome

theorem Scheduled.schedule (builder : TreeBuilder) (future : InstrRef) (scheduledTime : Int)
    (scheduled : Scheduled builder) : Scheduled (builder.schedule future scheduledTime) := by
  intro ref member
  unfold TreeBuilder.schedule
  dsimp only
  by_cases own : ref.index = future.index
  · rw [own, Function.update_self]
    rfl
  · rw [Function.update_of_ne own]
    rcases List.mem_append.mp member with old | new
    · exact scheduled ref old
    · rw [List.mem_singleton.mp new] at own
      exact absurd rfl own

theorem Scheduled.take (builder : TreeBuilder) (taken : InstrRef) (scheduledTime : Int)
    (after : TreeBuilder) (takes : builder.takeFuture = .ok (taken, scheduledTime, after))
    (scheduled : Scheduled builder) : Scheduled after := by
  obtain ⟨_, _, rfl⟩ := takeFuture_eq_ok takes
  intro ref member
  exact scheduled ref ((List.mem_insertionSort _).mp (List.dropLast_subset _ member))

/-! ## Calls that raise -/

/-- What the calls of a loop do to the order of exploration where they raise. -/
def StepSticks (instrs : List ParsedInstr) (i : Nat)
    (step : TreeBuilder → Nat → Int → Except PyError (Tree × TreeBuilder)) : Prop :=
  ∀ {before : TreeBuilder} {n : Nat} {time : Int} {raised : PyError}, i < n →
    n < instrs.length → Scheduled before → step before n time = .error raised →
      ∀ rest futures halts, ∃ stuck,
        Explored instrs ⟨n :: rest, before.futureQueue, futures, halts⟩ stuck ∧
          stuck.Stuck instrs

theorem follow_sticks {raised : PyError} {nexts : List Nat}
    (sticks : StepSticks instrs i (step instrs fuel)) (scheduled : Scheduled before)
    (failed : follow instrs (step instrs fuel) i time nexts before = .error raised)
    (rest : List Nat) (futures halts : Nat) : ∃ stuck,
      Explored instrs ⟨ahead instrs i nexts ++ rest, before.futureQueue, futures, halts⟩ stuck ∧
        stuck.Stuck instrs := by
  induction nexts generalizing before futures halts with
  | nil => cases failed
  | cons n nexts ih =>
      by_cases back : n ≤ i
      · rw [follow_back back] at failed
        rcases bind_eq_error.mp failed with failed | ⟨_, _, impossible⟩
        · rw [ahead_back back]
          exact ih scheduled failed futures halts
        · cases impossible
      · have forward : i < n := Nat.lt_of_not_le back
        by_cases inside : n < instrs.length
        · rw [follow_forward forward inside] at failed
          rw [ahead_forward forward inside, List.cons_append]
          rcases bind_eq_error.mp failed with failed | ⟨made, stepped, failed⟩
          · exact sticks forward inside scheduled failed _ futures halts
          · rcases bind_eq_error.mp failed with failed | ⟨_, _, impossible⟩
            · obtain ⟨futures₁, halts₁, first⟩ := step_explores instrs fuel stepped
                (ahead instrs i nexts ++ rest) futures halts
              obtain ⟨stuck, later, isStuck⟩ := ih
                (step_kept Scheduled.schedule Scheduled.take stepped scheduled) failed futures₁
                halts₁
              exact ⟨stuck, first.trans later, isStuck⟩
            · cases impossible
        · rw [follow_outside forward inside] at failed
          rw [ahead_outside inside]
          exact ih scheduled failed futures halts

/-- A call that raises, with fuel for the rest of the program, leads to where the exploration
is stuck. -/
theorem step_sticks {raised : PyError} (fueled : instrs.length ≤ i + fuel)
    (inside : i < instrs.length) (scheduled : Scheduled before)
    (failed : step instrs fuel before i time = .error raised) (rest : List Nat)
    (futures halts : Nat) : ∃ stuck,
      Explored instrs ⟨i :: rest, before.futureQueue, futures, halts⟩ stuck ∧
        stuck.Stuck instrs := by
  induction fuel generalizing before i time raised rest futures halts with
  | zero => omega
  | succ fuel ih =>
      rw [step_succ] at failed
      rcases bind_eq_error.mp failed with failed | ⟨arrival, arrives, failed⟩
      · refine ⟨_, .refl, i, rest, instrs[i], rfl, List.getElem?_eq_getElem inside, ?_⟩
        have located : instrs[i]? = some instrs[i] := List.getElem?_eq_getElem inside
        cases known : lengths instrs[i].instr with
        | none => exact .inl rfl
        | some length =>
            by_cases halt : instrs[i].instr = .halt
            · rw [arrive_halt located halt known] at failed
              rcases bind_eq_error.mp failed with failed | ⟨_, _, impossible⟩
              · exact .inr ⟨halt, takeFuture_error scheduled failed⟩
              · cases impossible
            · rw [arrive_pass located halt known] at failed
              cases failed
      · rcases bind_eq_error.mp failed with failed | ⟨_, _, impossible⟩
        · have arrived := arrive_eq_ok arrives
          have scheduledNext := arrived.kept Scheduled.schedule Scheduled.take scheduled
          obtain ⟨futures₁, halts₁, first⟩ := arrived.explores rest futures halts
          obtain ⟨stuck, later, isStuck⟩ := follow_sticks
            (fun forward inside scheduled failed => ih (by omega) inside scheduled failed)
            scheduledNext failed rest futures₁ halts₁
          exact ⟨stuck, later.head first, isStuck⟩
        · cases impossible

/-! ## The whole exploration -/

/-- The exploration of a program is never stuck. -/
def NeverStuck (instrs : List ParsedInstr) : Prop :=
  ∀ exploration, Explored instrs .start exploration → ¬ exploration.Stuck instrs

/-- The recursion returns exactly where the exploration is never stuck. -/
theorem step_returns_iff (nonempty : instrs ≠ []) :
    (∃ result, step instrs instrs.length .empty 0 0 = .ok result) ↔ NeverStuck instrs := by
  constructor
  · rintro ⟨⟨tree, after⟩, stepped⟩ exploration explored stuck
    obtain ⟨futures, halts, whole⟩ := step_explores instrs instrs.length stepped [] 0 0
    obtain ⟨i, rest, parsed, todo, _⟩ := id stuck
    -- the order is determined, so what is reached lies before the end or is the end
    rcases whole.total_of_right_unique (fun _ _ _ left right => left.unique right) explored with
      beyond | before
    · rcases beyond.cases_head with same | ⟨next, explores, _⟩
      · rw [← same] at todo
        cases todo
      · cases explores
    · rcases before.cases_head with same | ⟨next, explores, _⟩
      · rw [same] at todo
        cases todo
      · exact stuck.last explores
  · intro free
    cases stepped : step instrs instrs.length .empty 0 0 with
    | ok result => exact ⟨result, rfl⟩
    | error raised =>
        have none : Scheduled .empty := List.forall_mem_nil _
        have fueled : instrs.length ≤ 0 + instrs.length := Nat.le_add_left _ 0
        obtain ⟨stuck, explored, isStuck⟩ := step_sticks fueled
          (List.length_pos_of_ne_nil nonempty) none stepped [] 0 0
        exact absurd isStuck (free stuck explored)

end TreeBuilder

end NetworkCode.Visualizer
