import NetworkCode.Visualizer.Exploration

/-!
# The branches of an IF

Both branches are explored over one queue, the fall-through first.  The jump
branch is built as from the futures pending at the IF where the fall-through
touches no future, or where no HALT stands behind the jump.
-/

namespace NetworkCode.Visualizer.TreeBuilder

open Kernel Library.Checked

variable {instrs other : List ParsedInstr}

/-! ## What stands behind an address -/

/-- An instruction other than a HALT leads to a later one. -/
def Onward (instrs : List ParsedInstr) (i n : Nat) : Prop :=
  ∃ parsed length, instrs[i]? = some parsed ∧ lengths parsed.instr = some length ∧
    n ∈ parsed.nexts i ∧ i < n ∧ n < instrs.length

/-- None of the instructions from `i` on, up to the next HALT, has one of the opcodes. -/
def Lacks (instrs : List ParsedInstr) (opcodes : List Opcode) (i : Nat) : Prop :=
  ∀ n parsed, Relation.ReflTransGen (Onward instrs) i n → instrs[n]? = some parsed →
    parsed.instr ∉ opcodes

section Lacks

variable {opcodes : List Opcode} {i n fuel : Nat} {time : Int} {parsed : ParsedInstr}
  {length : Length}

theorem Lacks.here (lacks : Lacks instrs opcodes i) (located : instrs[i]? = some parsed) :
    parsed.instr ∉ opcodes := lacks i parsed .refl located

theorem Lacks.onward (lacks : Lacks instrs opcodes i) (onward : Onward instrs i n) :
    Lacks instrs opcodes n := fun later found reaches located =>
  lacks later found (reaches.head onward) located

/-! ## The loop over the next addresses -/

/-- Two loops whose calls return the same return the same. -/
theorem follow_congr {first second : TreeBuilder → Nat → Int → Except PyError (Tree × TreeBuilder)}
    {nexts : List Nat} {builder : TreeBuilder} (size : other.length = instrs.length)
    (same : ∀ earlier n rest children middle, nexts = earlier ++ n :: rest →
      follow instrs first i time earlier builder = .ok (children, middle) → i < n →
        n < instrs.length → second middle n time = first middle n time) :
    follow other second i time nexts builder = follow instrs first i time nexts builder := by
  induction nexts generalizing builder with
  | nil => rfl
  | cons n rest ih =>
      by_cases back : n ≤ i
      · rw [follow_back back, follow_back back, ih]
        intro earlier m behind children middle split through
        refine same (n :: earlier) m behind (.loop :: children) middle (by rw [split]; rfl) ?_
        rw [follow_back back, through]
        rfl
      · have forward : i < n := Nat.lt_of_not_le back
        by_cases inside : n < instrs.length
        · rw [follow_forward forward inside, follow_forward forward (size ▸ inside),
            same [] n rest [] builder rfl rfl forward inside]
          cases stepped : first builder n time with
          | error => rfl
          | ok made =>
              rw [ok_bind, ok_bind, ih]
              intro earlier m behind children middle split through
              refine same (n :: earlier) m behind (made.1 :: children) middle
                (by rw [split]; rfl) ?_
              rw [follow_forward forward inside, stepped, ok_bind, through]
              rfl
        · rw [follow_outside forward inside, follow_outside forward (size ▸ inside), ih]
          intro earlier m behind children middle split through
          refine same (n :: earlier) m behind children middle (by rw [split]; rfl) ?_
          rw [follow_outside forward inside, through]

/-- A loop whose calls build the same from every queue builds the same from every queue. -/
theorem follow_anyQueue {step : TreeBuilder → Nat → Int → Except PyError (Tree × TreeBuilder)}
    {nexts : List Nat} (same : ∀ n ∈ nexts, i < n → n < instrs.length → ∀ first second,
      (step first n time).map Prod.fst = (step second n time).map Prod.fst)
    (first second : TreeBuilder) :
    (follow instrs step i time nexts first).map Prod.fst =
      (follow instrs step i time nexts second).map Prod.fst := by
  induction nexts generalizing first second with
  | nil => rfl
  | cons n rest ih =>
      have later := ih fun m member => same m (List.mem_cons_of_mem _ member)
      by_cases back : n ≤ i
      · rw [follow_back back, follow_back back]
        exact map_fst_bind (later first second) fun _ _ _ => rfl
      · have forward : i < n := Nat.lt_of_not_le back
        by_cases inside : n < instrs.length
        · rw [follow_forward forward inside, follow_forward forward inside]
          refine map_fst_bind (same n List.mem_cons_self forward inside first second) ?_
          intro child left right
          exact map_fst_bind (later left right) fun _ _ _ => rfl
        · rw [follow_outside forward inside, follow_outside forward inside]
          exact later first second

end Lacks

/-! ## Calls of `step` -/

section Calls

variable {i fuel : Nat} {time : Int}

/-- Where no HALT stands, the queue does not matter to the tree. -/
theorem step_anyQueue (lacks : Lacks instrs [.halt] i) (first second : TreeBuilder) :
    (step instrs fuel first i time).map Prod.fst =
      (step instrs fuel second i time).map Prod.fst := by
  induction fuel generalizing i time first second with
  | zero => rfl
  | succ fuel ih =>
      rw [step_succ, step_succ]
      cases located : instrs[i]? with
      | none => rw [arrive_outside located, arrive_outside located]
      | some parsed =>
          cases known : lengths parsed.instr with
          | none => rw [arrive_unknown located known, arrive_unknown located known]
          | some length =>
              have notHalt : parsed.instr ≠ .halt := by simpa using lacks.here located
              rw [arrive_pass located notHalt known, arrive_pass located notHalt known, ok_bind,
                ok_bind]
              refine map_fst_bind (follow_anyQueue ?_ _ _) fun _ _ _ => rfl
              intro n member forward inside left right
              exact ih (lacks.onward ⟨parsed, length, located, known, member, forward, inside⟩)
                left right

/-- Where no FUTURE and no HALT stands, the shared state stays as it is. -/
theorem step_keeps (lacks : Lacks instrs [.future, .halt] i) {before after : TreeBuilder}
    {tree : Tree} (stepped : step instrs fuel before i time = .ok (tree, after)) :
    after = before := by
  induction fuel generalizing i time tree before after with
  | zero => cases stepped
  | succ fuel ih =>
      obtain ⟨arrival, children, arrives, follows, _⟩ := step_eq_ok stepped
      cases arrives with
      | halt located _ halt => exact absurd (lacks.here located) (by simp [halt])
      | future located _ future => exact absurd (lacks.here located) (by simp [future])
      | other located known =>
          refine follows.kept (fun builder => builder = before) ?_ rfl
          intro n member forward inside middle child after made same
          rw [← same]
          exact ih (lacks.onward ⟨_, _, located, known, member, forward, inside⟩) made

/-- A program with the same instructions wherever a call leads builds the same there. -/
theorem step_sameProgram {call : Call} (size : other.length = instrs.length)
    (same : ∀ later, LeadsTo instrs call later → other[later.i]? = instrs[later.i]?) :
    step other call.fuel call.builder call.i call.time =
      step instrs call.fuel call.builder call.i call.time := by
  obtain ⟨fuel, builder, i, time⟩ := call
  dsimp only
  induction fuel generalizing builder i time with
  | zero => rfl
  | succ fuel ih =>
      have here : arrive other builder i time = arrive instrs builder i time := by
        unfold arrive
        rw [same _ .refl]
      rw [step_succ, step_succ, here]
      cases arrives : arrive instrs builder i time with
      | error => rfl
      | ok arrival =>
          rw [ok_bind, ok_bind, follow_congr size]
          intro earlier n rest children middle split through forward inside
          apply ih
          intro later leads
          exact same later (leads.head (.next rfl arrives split through forward inside))

end Calls

/-! ## The two branches -/

/-- The call is for an IF whose jump is followed. -/
structure Forks (instrs : List ParsedInstr) (call : Call) (parsed : ParsedInstr) : Prop where
  located : instrs[call.i]? = some parsed
  branch : parsed.instr = .if
  forward : call.i < parsed.arg1.toNat
  inside : parsed.arg1.toNat < instrs.length

namespace Call

/-- The result of a call. -/
def run (instrs : List ParsedInstr) (call : Call) : Except PyError (Tree × TreeBuilder) :=
  step instrs call.fuel call.builder call.i call.time

/-- The call that an IF makes first. -/
def fallThrough (call : Call) : Call :=
  ⟨call.fuel - 1, call.builder, call.i + 1, call.time + 200⟩

/-- The call for the jump of an IF, with the shared state that it finds. -/
def jump (call : Call) (parsed : ParsedInstr) (builder : TreeBuilder) : Call :=
  ⟨call.fuel - 1, builder, parsed.arg1.toNat, call.time + 200⟩

end Call

/-- `other` differs from the program only where the jump branch, explored from the futures
pending at the IF, does not get. -/
structure SameBehindJump (instrs other : List ParsedInstr) (call : Call) (parsed : ParsedInstr) :
    Prop where
  size : other.length = instrs.length
  same : ∀ later, LeadsTo instrs (call.jump parsed call.builder) later →
    other[later.i]? = instrs[later.i]?

/-- Every IF that is reached builds the subtree of its jump, or fails there, as from the
futures pending at the IF, whatever `other` has where only the fall-through gets. -/
def BranchesIndependent (instrs other : List ParsedInstr) : Prop :=
  ∀ call parsed, Reached instrs call → Forks instrs call parsed →
    SameBehindJump instrs other call parsed →
      ∀ child after, call.fallThrough.run other = .ok (child, after) →
        ((call.jump parsed after).run other).map Prod.fst =
          ((call.jump parsed call.builder).run instrs).map Prod.fst

/-- At every IF that is reached, no FUTURE and no HALT stands on the fall-through, or no
HALT stands behind the jump. -/
def BranchesApart (instrs other : List ParsedInstr) : Prop :=
  ∀ call parsed, Reached instrs call → Forks instrs call parsed →
    Lacks other [.future, .halt] (call.i + 1) ∨ Lacks other [.halt] parsed.arg1.toNat

/--
In every exploration at whose IFs the fall-through touches no future or the
jump meets no HALT, the branches are independent.
-/
theorem branches_independent (apart : BranchesApart instrs other) :
    BranchesIndependent instrs other := by
  intro call parsed reached forks behind child after made
  have whole : (call.jump parsed call.builder).run other =
      (call.jump parsed call.builder).run instrs := step_sameProgram behind.size behind.same
  rcases apart call parsed reached forks with untouched | unread
  · have kept : after = call.builder := step_keeps untouched made
    rw [kept, whole]
  · rw [← whole]
    exact step_anyQueue unread after call.builder

/-- A FUTURE, an IF whose fall-through HALT takes it, and a NOP for both jumps. -/
def haltAndNop : List ParsedInstr :=
  [⟨.future, 5, 3, 0, 0⟩, ⟨.if, 0, 3, 0, 0⟩, ⟨.halt, 0, 0, 0, 0⟩, ⟨.nop, 0, 0, 0, 0⟩]

/-- No HALT stands behind the jump of its only IF. -/
theorem haltAndNop_apart : BranchesApart haltAndNop haltAndNop := by
  intro call parsed _ forks
  right
  have last : parsed.arg1.toNat = 3 := by
    have member := List.mem_of_getElem? forks.located
    have branch := forks.branch
    simp only [haltAndNop, List.mem_cons, List.not_mem_nil, or_false] at member
    rcases member with rfl | rfl | rfl | rfl
    · cases branch
    · rfl
    · cases branch
    · cases branch
  rw [last]
  intro n parsed reaches located
  rcases reaches.cases_head with rfl | ⟨later, ⟨_, _, _, _, _, beyond, inside⟩, _⟩
  · cases located
    decide
  · exact absurd inside (Nat.not_lt.mpr beyond)

theorem branches_independent_haltAndNop :
    BranchesApart haltAndNop haltAndNop ∧ BranchesIndependent haltAndNop haltAndNop :=
  ⟨haltAndNop_apart, branches_independent haltAndNop_apart⟩

/-- A FUTURE and an IF with a HALT on either branch: the one on the fall-through takes the
only future, and `pop` raises an IndexError at the other. -/
def haltTwice : List ParsedInstr :=
  [⟨.future, 5, 4, 0, 0⟩, ⟨.if, 0, 3, 0, 0⟩, ⟨.halt, 0, 0, 0, 0⟩, ⟨.halt, 0, 0, 0, 0⟩,
    ⟨.nop, 0, 0, 0, 0⟩]

theorem branches_interfere :
    ¬ ∀ instrs other : List ParsedInstr, BranchesIndependent instrs other := by
  intro claim
  let atIf : Call := ⟨4, TreeBuilder.empty.schedule ⟨0, ⟨.future, 5, 4, 0, 0⟩⟩ 5, 1, 200⟩
  let arrival : Arrival := ⟨⟨.future, 5, 4, 0, 0⟩, ⟨200, 100⟩, none, [1], atIf.builder⟩
  have inside : 1 < haltTwice.length := by decide
  have calls : Calls haltTwice ⟨5, .empty, 0, 0⟩ atIf :=
    @Calls.next haltTwice ⟨5, .empty, 0, 0⟩ 4 1 arrival [] [] [] atIf.builder rfl rfl rfl rfl
      Nat.one_pos inside
  have reached : Reached haltTwice atIf := .single calls
  have forks : Forks haltTwice atIf ⟨.if, 0, 3, 0, 0⟩ := ⟨rfl, rfl, by decide, by decide⟩
  have same := claim haltTwice haltTwice atIf _ reached forks ⟨rfl, fun _ _ => rfl⟩ _ _ rfl
  have raises : (Except.error .indexError : Except PyError Tree) = .ok _ := same
  cases raises

end NetworkCode.Visualizer.TreeBuilder
