import NetworkCode.Visualizer.TreeBuilder
import Mathlib.Logic.Relation

/-!
# One call of `step`

A call reads its instruction, does to the queue what the instruction says, and
follows the next addresses.  The four cases of the source differ in the first
part only, so a call is an arrival and then the loop over what it leads to.
-/

namespace NetworkCode.Visualizer

open Kernel Library.Checked

/-- The key by which the queue is sorted. -/
def InstrRef.delay (future : InstrRef) : Nat := future.instr.arg0.toNat

/-- The next addresses that an instruction other than a HALT names. -/
def ParsedInstr.nexts (parsed : ParsedInstr) (i : Nat) : List Nat :=
  if parsed.instr = .if then [i + 1, parsed.arg1.toNat] else [i + 1]

namespace TreeBuilder

/-- What an instruction other than a HALT does to the queue. -/
def pass (builder : TreeBuilder) (i : Nat) (parsed : ParsedInstr) (time : Int) : TreeBuilder :=
  if parsed.instr = .future then builder.schedule ⟨i, parsed⟩ (time + parsed.arg0.toNat)
  else builder

/-- What a call of `step` knows when it comes to the next addresses. -/
structure Arrival where
  parsed : ParsedInstr
  length : Length
  /-- The future that a HALT has taken, with its scheduled time. -/
  taken : Option (InstrRef × Int)
  nexts : List Nat
  builder : TreeBuilder

/-- The node of a call over the children of its next addresses. -/
def Arrival.node (arrival : Arrival) (i : Nat) (time : Int) (children : List Tree) : Tree :=
  match arrival.taken with
  | none => .instr i time arrival.parsed arrival.length children
  | some (taken, scheduledTime) =>
      .instr i time arrival.parsed arrival.length
        [.pause taken scheduledTime (scheduledTime - time) children]

/-- The part of `step` before it follows the next addresses. -/
def arrive (instrs : List ParsedInstr) (builder : TreeBuilder) (i : Nat) (time : Int) :
    Except PyError Arrival :=
  match instrs[i]? with
  | none => .error .indexError
  | some parsed =>
      match lengths parsed.instr with
      | none => .error .keyError
      | some length =>
          if parsed.instr = .halt then do
            let (nextFuture, scheduledTime, builder) ← builder.takeFuture
            return ⟨parsed, length, some (nextFuture, scheduledTime),
              [nextFuture.instr.arg1.toNat], builder⟩
          else
            .ok ⟨parsed, length, none, parsed.nexts i, builder.pass i parsed time⟩

/-- What a HALT takes, and what it leaves. -/
theorem takeFuture_eq_ok {builder after : TreeBuilder} {taken : InstrRef} {scheduledTime : Int}
    (takes : builder.takeFuture = .ok (taken, scheduledTime, after)) :
    (byDelay builder.futureQueue).getLast? = some taken ∧
      builder.scheduledTime taken.index = some scheduledTime ∧
        after = { builder with futureQueue := (byDelay builder.futureQueue).dropLast } := by
  unfold takeFuture at takes
  cases longest : builder.sortedQueue.getLast? with
  | none => rw [longest] at takes; cases takes
  | some next =>
      rw [longest] at takes
      dsimp only at takes
      cases scheduled : builder.scheduledTime next.index with
      | none => rw [scheduled] at takes; cases takes
      | some time =>
          rw [scheduled] at takes
          cases takes
          exact ⟨longest, scheduled, rfl⟩

/-- A HALT fails where nothing is queued. -/
theorem takeFuture_error {builder : TreeBuilder} {raised : PyError}
    (scheduled : ∀ ref ∈ builder.futureQueue, (builder.scheduledTime ref.index).isSome)
    (failed : builder.takeFuture = .error raised) : builder.futureQueue = [] := by
  unfold takeFuture at failed
  cases longest : builder.sortedQueue.getLast? with
  | none =>
      have same : builder.sortedQueue.Perm builder.futureQueue := List.perm_insertionSort _ _
      rw [List.getLast?_eq_none_iff.mp longest] at same
      exact same.symm.eq_nil
  | some next =>
      rw [longest] at failed
      dsimp only at failed
      have queued : next ∈ builder.futureQueue :=
        (List.mem_insertionSort _).mp (List.mem_of_getLast? longest)
      obtain ⟨time, known⟩ := Option.isSome_iff_exists.mp (scheduled next queued)
      rw [known] at failed
      cases failed

/-! ## The loop over the next addresses -/

section Follow

variable {instrs : List ParsedInstr}
  {step : TreeBuilder → Nat → Int → Except PyError (Tree × TreeBuilder)} {builder : TreeBuilder}
  {i n : Nat} {time : Int} {rest : List Nat}

theorem follow_back (back : n ≤ i) : follow instrs step i time (n :: rest) builder =
    follow instrs step i time rest builder >>= fun others =>
      .ok (.loop :: others.1, others.2) := by
  rw [follow, if_pos back]
  rfl

theorem follow_forward (forward : i < n) (inside : n < instrs.length) :
    follow instrs step i time (n :: rest) builder =
      step builder n time >>= fun made =>
        follow instrs step i time rest made.2 >>= fun others =>
          .ok (made.1 :: others.1, others.2) := by
  rw [follow, if_neg (Nat.not_le.mpr forward), if_pos inside]
  rfl

theorem follow_outside (forward : i < n) (outside : ¬ n < instrs.length) :
    follow instrs step i time (n :: rest) builder = follow instrs step i time rest builder := by
  rw [follow, if_neg (Nat.not_le.mpr forward), if_neg outside]

/-- A loop that returns, turn by turn. -/
inductive Follows (instrs : List ParsedInstr)
    (step : TreeBuilder → Nat → Int → Except PyError (Tree × TreeBuilder)) (i : Nat) (time : Int) :
    List Nat → TreeBuilder → List Tree → TreeBuilder → Prop where
  | nil {builder : TreeBuilder} : Follows instrs step i time [] builder [] builder
  | back {n : Nat} {rest : List Nat} {before after : TreeBuilder} {children : List Tree}
      (back : n ≤ i) (further : Follows instrs step i time rest before children after) :
      Follows instrs step i time (n :: rest) before (.loop :: children) after
  | forward {n : Nat} {rest : List Nat} {before middle after : TreeBuilder} {child : Tree}
      {children : List Tree} (forward : i < n) (inside : n < instrs.length)
      (stepped : step before n time = .ok (child, middle))
      (further : Follows instrs step i time rest middle children after) :
      Follows instrs step i time (n :: rest) before (child :: children) after
  | outside {n : Nat} {rest : List Nat} {before after : TreeBuilder} {children : List Tree}
      (forward : i < n) (outside : ¬ n < instrs.length)
      (further : Follows instrs step i time rest before children after) :
      Follows instrs step i time (n :: rest) before children after

theorem follow_eq_ok {nexts : List Nat} {before after : TreeBuilder} {children : List Tree}
    (followed : follow instrs step i time nexts before = .ok (children, after)) :
    Follows instrs step i time nexts before children after := by
  induction nexts generalizing before children with
  | nil => cases followed; exact .nil
  | cons n rest ih =>
      by_cases back : n ≤ i
      · rw [follow_back back] at followed
        obtain ⟨others, through, done⟩ := bind_eq_ok.mp followed
        cases done
        exact .back back (ih through)
      · have forward : i < n := Nat.lt_of_not_le back
        by_cases inside : n < instrs.length
        · rw [follow_forward forward inside] at followed
          obtain ⟨made, stepped, continued⟩ := bind_eq_ok.mp followed
          obtain ⟨others, through, done⟩ := bind_eq_ok.mp continued
          cases done
          exact .forward forward inside stepped (ih through)
        · rw [follow_outside forward inside] at followed
          exact .outside forward inside (ih followed)

/-- What every call of a loop keeps of the shared state, the loop keeps. -/
theorem Follows.kept {nexts : List Nat} {before after : TreeBuilder} {children : List Tree}
    (property : TreeBuilder → Prop)
    (keeps : ∀ n ∈ nexts, i < n → n < instrs.length → ∀ before child after,
      step before n time = .ok (child, after) → property before → property after)
    (follows : Follows instrs step i time nexts before children after)
    (holds : property before) : property after := by
  induction follows with
  | nil => exact holds
  | back _ _ ih => exact ih (fun m member => keeps m (List.mem_cons_of_mem _ member)) holds
  | forward forward inside stepped _ ih =>
      have next := keeps _ List.mem_cons_self forward inside _ _ _ stepped holds
      exact ih (fun m member => keeps m (List.mem_cons_of_mem _ member)) next
  | outside _ _ _ ih => exact ih (fun m member => keeps m (List.mem_cons_of_mem _ member)) holds

end Follow

/-! ## Arrivals -/

section Step

variable {instrs : List ParsedInstr} {builder : TreeBuilder} {i fuel : Nat} {time : Int}
  {parsed : ParsedInstr} {length : Length}

theorem step_succ : step instrs (fuel + 1) builder i time =
    arrive instrs builder i time >>= fun arrival =>
      follow instrs (step instrs fuel) i (time + arrival.length.mew) arrival.nexts
          arrival.builder >>= fun followed =>
        .ok (arrival.node i time followed.1, followed.2) := by
  unfold step arrive
  cases instrs[i]? with
  | none => rfl
  | some parsed =>
      dsimp only
      cases known : lengths parsed.instr with
      | none => rfl
      | some length =>
          unfold ParsedInstr.nexts pass
          dsimp only
          cases parsed.instr with
          | halt => cases builder.takeFuture <;> rfl
          | _ => rfl

theorem arrive_outside (outside : instrs[i]? = none) :
    arrive instrs builder i time = .error .indexError := by
  rw [arrive, outside]

theorem arrive_unknown (located : instrs[i]? = some parsed)
    (unknown : lengths parsed.instr = none) :
    arrive instrs builder i time = .error .keyError := by
  rw [arrive, located]
  dsimp only
  rw [unknown]

theorem arrive_halt (located : instrs[i]? = some parsed) (halt : parsed.instr = .halt)
    (known : lengths parsed.instr = some length) : arrive instrs builder i time =
      builder.takeFuture >>= fun popped =>
        .ok ⟨parsed, length, some (popped.1, popped.2.1), [popped.1.instr.arg1.toNat],
          popped.2.2⟩ := by
  rw [arrive, located]
  dsimp only
  rw [known]
  exact if_pos halt

theorem arrive_pass (located : instrs[i]? = some parsed) (notHalt : parsed.instr ≠ .halt)
    (known : lengths parsed.instr = some length) : arrive instrs builder i time =
      .ok ⟨parsed, length, none, parsed.nexts i, builder.pass i parsed time⟩ := by
  rw [arrive, located]
  dsimp only
  rw [known]
  exact if_neg notHalt

theorem pass_eq (notFuture : parsed.instr ≠ .future) : builder.pass i parsed time = builder :=
  if_neg notFuture

theorem pass_future (future : parsed.instr = .future) :
    builder.pass i parsed time =
      builder.schedule ⟨i, parsed⟩ (time + parsed.arg0.toNat) := if_pos future

/-- An arrival, by what stands at the address. -/
inductive Arrives (instrs : List ParsedInstr) (builder : TreeBuilder) (i : Nat) (time : Int) :
    Arrival → Prop where
  | halt {parsed : ParsedInstr} {length : Length} {taken : InstrRef} {scheduledTime : Int}
      {after : TreeBuilder} (located : instrs[i]? = some parsed)
      (known : lengths parsed.instr = some length) (halt : parsed.instr = .halt)
      (takes : builder.takeFuture = .ok (taken, scheduledTime, after)) :
      Arrives instrs builder i time
        ⟨parsed, length, some (taken, scheduledTime), [taken.instr.arg1.toNat], after⟩
  | future {parsed : ParsedInstr} {length : Length} (located : instrs[i]? = some parsed)
      (known : lengths parsed.instr = some length) (future : parsed.instr = .future) :
      Arrives instrs builder i time ⟨parsed, length, none, parsed.nexts i,
        builder.schedule ⟨i, parsed⟩ (time + parsed.arg0.toNat)⟩
  | other {parsed : ParsedInstr} {length : Length} (located : instrs[i]? = some parsed)
      (known : lengths parsed.instr = some length) (notFuture : parsed.instr ≠ .future)
      (notHalt : parsed.instr ≠ .halt) :
      Arrives instrs builder i time ⟨parsed, length, none, parsed.nexts i, builder⟩

theorem arrive_eq_ok {arrival : Arrival} (arrived : arrive instrs builder i time = .ok arrival) :
    Arrives instrs builder i time arrival := by
  cases located : instrs[i]? with
  | none => rw [arrive_outside located] at arrived; cases arrived
  | some parsed =>
      cases known : lengths parsed.instr with
      | none => rw [arrive_unknown located known] at arrived; cases arrived
      | some length =>
          by_cases halt : parsed.instr = .halt
          · rw [arrive_halt located halt known] at arrived
            obtain ⟨popped, takes, done⟩ := bind_eq_ok.mp arrived
            cases done
            exact .halt located known halt takes
          · rw [arrive_pass located halt known] at arrived
            cases arrived
            by_cases future : parsed.instr = .future
            · rw [pass_future future]
              exact .future located known future
            · rw [pass_eq future]
              exact .other located known future halt

/-- A call that returns is an arrival and a loop. -/
theorem step_eq_ok {tree : Tree} {after : TreeBuilder}
    (stepped : step instrs (fuel + 1) builder i time = .ok (tree, after)) :
    ∃ arrival children, Arrives instrs builder i time arrival ∧
      Follows instrs (step instrs fuel) i (time + arrival.length.mew) arrival.nexts
        arrival.builder children after ∧ tree = arrival.node i time children := by
  rw [step_succ] at stepped
  obtain ⟨arrival, arrived, continued⟩ := bind_eq_ok.mp stepped
  obtain ⟨followed, through, done⟩ := bind_eq_ok.mp continued
  cases done
  exact ⟨arrival, followed.1, arrive_eq_ok arrived, follow_eq_ok through, rfl⟩

end Step

/-! ## The calls that a call makes -/

/-- The arguments of a call of `step`, with what it finds in the shared state. -/
structure Call where
  fuel : Nat
  builder : TreeBuilder
  i : Nat
  time : Int

/-- A call calls `step` for a next address, once those before it have been followed. -/
inductive Calls (instrs : List ParsedInstr) (call : Call) : Call → Prop where
  | next {fuel n : Nat} {arrival : Arrival} {earlier rest : List Nat} {children : List Tree}
      {builder : TreeBuilder} (deeper : call.fuel = fuel + 1)
      (arrives : arrive instrs call.builder call.i call.time = .ok arrival)
      (nexts : arrival.nexts = earlier ++ n :: rest)
      (followed : follow instrs (step instrs fuel) call.i (call.time + arrival.length.mew) earlier
        arrival.builder = .ok (children, builder))
      (forward : call.i < n) (inside : n < instrs.length) :
      Calls instrs call ⟨fuel, builder, n, call.time + arrival.length.mew⟩

/-- The calls that a call leads to. -/
def LeadsTo (instrs : List ParsedInstr) : Call → Call → Prop :=
  Relation.ReflTransGen (Calls instrs)

/-- The calls of `build_tree`. -/
def Reached (instrs : List ParsedInstr) : Call → Prop :=
  LeadsTo instrs ⟨instrs.length, .empty, 0, 0⟩

end TreeBuilder

end NetworkCode.Visualizer
