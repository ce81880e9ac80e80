import NetworkCode.Kernel.Flow

/-!
# Annotated programs

What an instruction asks of an assertion is its weakest precondition in the
flow.  A program whose assertion gives every instruction what it asks keeps the
assertion over every run of the module, and a measure that only HALT and WAIT
raise bounds what the thread executes between two of them.
-/

namespace NetworkCode.Kernel

open Library Library.Checked

/-- What an instruction asks of the assertion. -/
def Instr.Asks (assertion : Position → Prop) (instr : Instr) (position : Position) :
    Opcode → Prop
  | .goto => assertion { position with place := instr.arg0 }
  | .if => ∀ guard holds, Guard.ofCode? instr.arg0 = some guard →
      guard.MayBe position.counters instr.arg2 instr.arg3 holds →
        assertion { position with place := if holds then instr.arg1 else position.place + 1 }
  | .future => position.pending.card < maxFutures →
      assertion { position with
        place := position.place + 1, pending := instr.arg1 ::ₘ position.pending }
  | .halt => ∀ jump ∈ position.pending,
      assertion { position with place := jump, pending := position.pending.erase jump }
  | .wait => position.pending.card < maxFutures → ∀ jump ∈ instr.arg1 ::ₘ position.pending,
      assertion { position with
        place := jump, pending := (instr.arg1 ::ₘ position.pending).erase jump }
  | .endOfProgram | .mode | .destroy | .handle | .xsend | .backupSend | .backupReceive => True
  | opcode => ∀ counters, instr.count position.counters opcode = .ok counters →
      assertion { position with place := position.place + 1, counters := counters }

section Conditions

variable {block : CodeBlock} {assertion : Position → Prop} {position : Position} {instr : Instr}
  {opcode : Opcode}

theorem asks_data (data : opcode.IsData) : instr.Asks assertion position opcode ↔
    ∀ counters, instr.count position.counters opcode = .ok counters →
      assertion { position with place := position.place + 1, counters := counters } := by
  cases opcode <;> first | exact Iff.rfl | cases data

/-- The weakest precondition of the flow is what the instruction asks. -/
theorem wp_flows_iff : Wp (Flows block) assertion position ↔
    ∀ instr opcode, block.fetch position.place.toNat = .ok instr → instr.opcode? = some opcode →
      instr.Asks assertion position opcode := by
  constructor
  · intro wp instr opcode fetched decoded
    cases opcode with
    | goto => exact wp _ _ (.goes fetched decoded)
    | «if» => exact fun guard holds known mayBe => wp _ _ (.branches fetched decoded known mayBe)
    | future => exact fun room => wp _ _ (.inserts fetched decoded room)
    | halt => exact fun jump pending => wp _ _ (.resumes fetched decoded pending)
    | wait => exact fun room jump pending => wp _ _ (.waits fetched decoded room pending)
    | nop | clearCounter | addToCounter | subFromCounter | setCounter | create | send | receive
    | sync => exact fun counters counted => wp _ _ (.works fetched decoded rfl counted)
    | endOfProgram | mode | destroy | handle | xsend | backupSend | backupReceive => trivial
  · intro asks place next flows
    cases flows with
    | works fetched decoded data counted =>
        exact (asks_data data).mp (asks _ _ fetched decoded) _ counted
    | goes fetched decoded => exact asks _ _ fetched decoded
    | branches fetched decoded known mayBe => exact asks _ _ fetched decoded _ _ known mayBe
    | inserts fetched decoded room => exact asks _ _ fetched decoded room
    | resumes fetched decoded pending => exact asks _ _ fetched decoded _ pending
    | waits fetched decoded room pending => exact asks _ _ fetched decoded room _ pending

end Conditions

/-- The assertion gives every instruction of the program what it asks, and never
leaves the program. -/
structure Annotated (instrs : List Instr) (assertion : Position → Prop) : Prop where
  inside : ∀ position, assertion position → position.place.toNat < instrs.length
  asks : ∀ position, assertion position → ∀ bound : position.place.toNat < instrs.length,
    ∀ opcode ∈ instrs[position.place.toNat].opcode?,
      instrs[position.place.toNat].Asks assertion position opcode

/-- Every instruction lowers the measure, except those at the places that rest. -/
def Measured (instrs : List Instr) (assertion : Position → Prop) (rests : UInt32 → Bool)
    (measure : Position → Nat) : Prop :=
  ∀ position, assertion position → rests position.place = false →
    ∀ bound : position.place.toNat < instrs.length,
      ∀ opcode ∈ instrs[position.place.toNat].opcode?,
        instrs[position.place.toNat].Asks (fun next => measure next < measure position) position
          opcode

/-- The instructions stand in the block at their places. -/
def CodeBlock.Lists (block : CodeBlock) (instrs : List Instr) : Prop :=
  ∀ place (bound : place < instrs.length), block.fetch place = .ok instrs[place]

section Programs

variable {block : CodeBlock} {instrs : List Instr} {assertion other : Position → Prop}
  {rests : UInt32 → Bool} {measure : Position → Nat} {position next : Position} {place : UInt32}

theorem CodeBlock.Lists.fetched {index : Nat} {instr : Instr} (lists : block.Lists instrs)
    (bound : index < instrs.length) (fetched : block.fetch index = .ok instr) :
    instr = instrs[index] := Except.ok.inj (fetched.symm.trans (lists index bound))

/-- The weakest precondition at a place of the program. -/
theorem CodeBlock.Lists.wp (lists : block.Lists instrs)
    (bound : position.place.toNat < instrs.length)
    (asks : ∀ opcode ∈ instrs[position.place.toNat].opcode?,
      instrs[position.place.toNat].Asks assertion position opcode) :
    Wp (Flows block) assertion position := by
  refine wp_flows_iff.mpr fun instr opcode fetched decoded => ?_
  obtain rfl := lists.fetched bound fetched
  exact asks opcode decoded

theorem Annotated.verified (annotated : Annotated instrs assertion) (lists : block.Lists instrs) :
    Verified (Flows block) assertion := by
  intro position holds
  have bound := annotated.inside position holds
  exact lists.wp bound (annotated.asks position holds bound)

theorem flows_label (flows : Flows block position place next) : place = position.place := by
  cases flows <;> rfl

theorem Annotated.variant (annotated : Annotated instrs assertion)
    (measured : Measured instrs assertion rests measure) (lists : block.Lists instrs) :
    Variant (Flows block) assertion rests measure where
  verified := annotated.verified lists
  falls := by
    intro position place next holds awake flows
    rw [flows_label flows] at awake
    have bound := annotated.inside position holds
    exact lists.wp bound (measured position holds awake bound) place next flows

end Programs

/-! ## Certificates are annotations -/

/-- The thread is at a place of the program that allows its pending futures. -/
structure Tracks (instrs : List Instr) (certificate : Certificate) (position : Position) :
    Prop where
  inside : position.place.toNat < instrs.length
  allowed : (certificate position.place.toNat).Allows position.pending.card
  fromProgram : ∀ jump ∈ position.pending, jump ∈ resumePoints instrs

/-- Every instruction leads to places of lower rank, except at the places that rest. -/
def Ranked (instrs : List Instr) (rests : Nat → Bool) (rank : Nat → Nat) : Prop :=
  ∀ place (bound : place < instrs.length), rests place = false →
    ∀ opcode ∈ instrs[place].opcode?,
      ∀ target ∈ opcode.successors instrs instrs[place] place, rank target < rank place

instance (instrs : List Instr) (rests : Nat → Bool) (rank : Nat → Nat) :
    Decidable (Ranked instrs rests rank) :=
  inferInstanceAs (Decidable (∀ place (bound : place < instrs.length), rests place = false →
    ∀ opcode ∈ instrs[place].opcode?,
      ∀ target ∈ opcode.successors instrs instrs[place] place, rank target < rank place))

section Certificates

variable {instrs : List Instr} {certificate : Certificate} {assertion : Position → Prop}
  {position : Position} {opcode : Opcode} {rests : Nat → Bool} {rank : Nat → Nat}

theorem Guard.MayBe.may {guard : Guard} {counters : CounterArray} {arg0 arg1 : UInt32}
    {holds : Bool} (mayBe : guard.MayBe counters arg0 arg1 holds) :
    (if holds then guard.mayHold else guard.mayFail) = true := by
  cases guard with
  | alwaysTrue | alwaysFalse | sendBufferEmpty | varQueueEmpty | varQueueFull =>
      cases mayBe
      rfl
  | channelXyRcvBufEmpty | testCount | statusTest | equalVarVar | greaterVarVar | lessVarVar
  | testVar => cases holds <;> rfl

/-- Where the thread goes on is a successor of its instruction. -/
theorem Tracks.asks {instr : Instr} (tracks : Tracks instrs certificate position)
    (addressable : instrs.length < 2 ^ 32) (member : instr ∈ instrs)
    (decoded : instr.opcode? = some opcode)
    (follows : ∀ next : Position,
      next.place.toNat ∈ opcode.successors instrs instr position.place.toNat →
      opcode.Counts position.pending.card next.pending.card →
      (∀ jump ∈ next.pending, jump ∈ resumePoints instrs) → assertion next) :
    instr.Asks assertion position opcode := by
  have points := tracks.fromProgram
  have behind : (position.place + 1).toNat = position.place.toNat + 1 := by
    rw [UInt32.toNat_add]
    exact Nat.mod_eq_of_lt (Nat.lt_of_le_of_lt tracks.inside addressable)
  cases opcode with
  | goto => exact follows _ (List.mem_singleton_self _) rfl points
  | «if» =>
      intro guard holds known mayBe
      refine follows _ ?_ rfl points
      have successor := Guard.mem_successors instr.arg1 position.place.toNat mayBe.may
      rw [Opcode.successors, known]
      cases holds with
      | true => exact successor
      | false =>
          rw [← behind] at successor
          exact successor
  | future =>
      intro _
      refine follows _ (List.mem_singleton.mpr behind) (Multiset.card_cons _ _) ?_
      intro jump inserted
      rcases Multiset.mem_cons.mp inserted with rfl | old
      · exact mem_resumePoints member (.inl decoded)
      · exact points jump old
  | halt =>
      intro jump pending
      refine follows _ (List.mem_map_of_mem (points jump pending)) ?_
        fun other left => points other (Multiset.mem_of_mem_erase left)
      exact (Multiset.card_erase_add_one pending).symm
  | wait =>
      intro _ jump pending
      have grown : ∀ other ∈ instr.arg1 ::ₘ position.pending, other ∈ resumePoints instrs := by
        intro other inserted
        rcases Multiset.mem_cons.mp inserted with rfl | old
        · exact mem_resumePoints member (.inr decoded)
        · exact points other old
      refine follows _ (List.mem_map_of_mem (grown jump pending)) ?_
        fun other left => grown other (Multiset.mem_of_mem_erase left)
      have count := Multiset.card_erase_add_one pending
      rw [Multiset.card_cons] at count
      exact Nat.succ.inj count
  | nop | clearCounter | addToCounter | subFromCounter | setCounter | create | send | receive
  | sync => exact fun counters _ => follows _ (List.mem_singleton.mpr behind) rfl points
  | endOfProgram | mode | destroy | handle | xsend | backupSend | backupReceive => trivial

/-- A certificate is an annotation of its program. -/
theorem Certified.annotated (certified : Certified instrs certificate) :
    Annotated instrs (Tracks instrs certificate) where
  inside := fun _ tracks => tracks.inside
  asks := by
    intro position tracks bound opcode decoded
    obtain ⟨other, decoded', _, leads⟩ := certified.rows _ bound
    cases Option.mem_unique decoded decoded'
    refine tracks.asks certified.addressable (List.getElem_mem bound) decoded ?_
    intro next successor counts points
    obtain ⟨inside, within⟩ := leads _ successor
    exact ⟨inside, within.allows (counts.allows tracks.allowed), points⟩

/-- A thread on course is at a place that allows its futures. -/
theorem OnCourse.tracks {interpreter : Interpreter} {futures : Futures}
    (course : OnCourse instrs certificate interpreter futures) :
    Tracks instrs certificate interpreter.position := by
  have pending := position_pending course.represents
  constructor
  · exact course.inside
  · rw [pending, Futures.jumps, Multiset.coe_card, List.length_map]
    exact course.allowed
  · intro jump member
    rw [pending] at member
    obtain ⟨el, inside, rfl⟩ := List.mem_map.mp (Multiset.mem_coe.mp member)
    exact course.fromProgram el inside

theorem Ranked.measured (ranked : Ranked instrs rests rank)
    (addressable : instrs.length < 2 ^ 32) :
    Measured instrs (Tracks instrs certificate) (fun place => rests place.toNat)
      fun position => rank position.place.toNat := by
  intro position tracks awake bound opcode decoded
  refine tracks.asks addressable (List.getElem_mem bound) decoded fun next successor _ _ => ?_
  exact ranked _ bound awake opcode decoded _ successor

end Certificates

/-! ## Every run of the module -/

/-- A thread that has returned PROGRAM_OK stands at an END_OF_PROGRAM. -/
def Interpreter.Finishes (block : CodeBlock) (interpreter : Interpreter) : Prop :=
  interpreter.thread = some (.returned .programOk) → ∃ instr,
    block.fetch interpreter.programCounter.toNat = .ok instr ∧
      instr.opcode? = some .endOfProgram

section Runs

variable {long : LongWidth} {block : CodeBlock} {instrs : List Instr}
  {assertion : Position → Prop} {rests : UInt32 → Bool} {measure : Position → Nat} {top : Nat}
  {first middle last : NcmSysfs} {labels : List (Action × List Observation)}

theorem Moves.finishes {action : Action} {shown : List Observation} {next : Interpreter}
    {futures : Futures} (moves : Moves long first action shown next)
    (unstarted : ¬ StartsInterpreter first action)
    (loaded : first.ncmInterp.program = some block)
    (represents : first.ncmInterp.futureQueue.Represents futures)
    (finishes : first.ncmInterp.Finishes block) : next.Finishes block := by
  cases moves with
  | stays | writes | tearsDown | receives => exact finishes
  | starts command startable => exact (unstarted ⟨_, _, rfl, command, startable⟩).elim
  | schedules created =>
      rename_i granted _
      intro returned
      cases granted <;> cases returned
  | joins => exact nofun
  | iterates looping fetched done =>
      rename_i input instr iteration
      intro returned
      obtain ⟨block', loaded', fetched⟩ := Interpreter.fetch_eq_ok.mp fetched
      cases loaded.symm.trans loaded'
      obtain ⟨_, controlStep, _⟩ := execute_controlled represents done
      cases exit : iteration.exit with
      | none =>
          rw [Iteration.resume, exit] at returned
          cases (controlStep.thread_eq.symm.trans returned).symm.trans looping
      | some code =>
          rw [Iteration.resume, exit] at returned
          cases returned
          have stands := congrArg Position.place (execute_exits represents done exit)
          cases execute_exit represents done exit with
          | ends decoded =>
              rw [← resume_position] at stands
              exact ⟨instr, (congrArg (fun place : UInt32 => block.fetch place.toNat) stands).trans
                fetched, decoded⟩

/-- What holds of a thread whose program keeps the assertion. -/
structure Upholds (instrs : List Instr) (assertion : Position → Prop) (interpreter : Interpreter) :
    Prop where
  running : interpreter.isRunning = true → assertion interpreter.position
  finished : interpreter.thread = some (.returned .programOk) →
    ∃ bound : interpreter.programCounter.toNat < instrs.length,
      instrs[interpreter.programCounter.toNat].opcode? = some .endOfProgram

/--
Where every instruction but those at certain places lowers a measure that the
assertion bounds, the instructions executed in any window of a run are bounded
by how often the window passes such a place.  With the places of the HALTs and
WAITs this bounds what the thread executes without sleeping, and with none what
it executes at all.
-/
theorem measured_program_rests (annotated : Annotated instrs assertion)
    (measured : Measured instrs assertion rests measure)
    (most : ∀ position, assertion position → measure position ≤ top)
    (loaded : first.ncmInterp.program = some block) (lists : block.Lists instrs)
    (represents : ∃ futures, first.ncmInterp.futureQueue.Represents futures)
    (initially : assertion first.ncmInterp.position)
    {before window : List (NcmSysfs × Action × List Observation)}
    (run : Run (Recorded (Meeting (Step long) Unstarted)) first (before ++ window) last)
    (running : last.ncmInterp.isRunning = true) :
    (visits window).length < ((visits window).countP rests + 1) * (top + 1) := by
  have flow := run_flows loaded represents run running
  rw [visits, List.filterMap_append] at flow
  obtain ⟨position, hbefore, hwindow⟩ := flow.append_inv
  have holds := (annotated.verified lists).run hbefore initially
  have bounded := (annotated.variant measured lists).length_le most hwindow holds
  have start := most position holds
  rw [Nat.add_mul, Nat.one_mul]
  unfold visits
  omega

/--
A program whose assertion gives each instruction what it asks keeps the
assertion from its start to the next, whatever is written to the files, arrives,
is answered by the driver and is read from the clock: it holds of the place, the
pending jumps and the counters of the thread, also where the thread has
returned, and where it has returned PROGRAM_OK it holds at an END_OF_PROGRAM.
-/
theorem annotated_program_keeps (annotated : Annotated instrs assertion)
    (loaded : first.ncmInterp.program = some block) (lists : block.Lists instrs)
    (represents : ∃ futures, first.ncmInterp.futureQueue.Represents futures)
    (created : first.ncmInterp.thread = some .created)
    (initially : assertion first.ncmInterp.position)
    (run : Run (Meeting (Step long) Unstarted) first labels last) :
    Upholds instrs assertion last.ncmInterp := by
  obtain ⟨records, recorded, -⟩ := run.recorded
  have holds (running : last.ncmInterp.isRunning = true) : assertion last.ncmInterp.position :=
    (annotated.verified lists).run (run_flows loaded represents recorded running) initially
  refine ⟨holds, fun returned => ?_⟩
  have finishes := run.invariant
    (fun sysfs => RunsOn block sysfs ∧ sysfs.ncmInterp.Finishes block) ?_
    ⟨⟨loaded, represents⟩, fun returned => by cases created.symm.trans returned⟩
  · obtain ⟨instr, fetched, decoded⟩ := finishes.2 returned
    have bound := annotated.inside _ (holds (congrArg Option.isSome returned))
    obtain rfl := lists.fetched bound fetched
    exact ⟨bound, decoded⟩
  · rintro before label after ⟨runsOn, finishes⟩ ⟨unstarted, hstep⟩
    obtain ⟨_, represents⟩ := runsOn.represents
    exact ⟨runsOn.step unstarted hstep,
      (step_moves hstep).finishes unstarted runsOn.program represents finishes⟩

end Runs

/-! ## A counting loop -/

/-- Wait three times, then end. -/
def threeRounds : List Instr :=
  [.make .setCounter 0 0 0 0, .make .future 100 3 0 0, .make .halt 0 0 0 0,
    .make .addToCounter 0 1 0 0, .make .if Guard.testCount.code 6 0 3, .make .goto 1 0 0 0,
    .make .endOfProgram 0 0 0 0]

instance : NeZero maxCounters := ⟨Nat.succ_ne_zero _⟩

def Position.rounds (position : Position) : UInt32 := position.counters.get 0

/-- How many rounds are behind the thread, and whether its future is pending. -/
def threeRoundsKept (position : Position) : Prop :=
  match position.place.toNat with
  | 0 => position.pending = 0
  | 1 | 3 | 5 => position.pending = 0 ∧ position.rounds.toNat < 3
  | 2 => position.pending = {3} ∧ position.rounds.toNat < 3
  | 4 => position.pending = 0 ∧ position.rounds.toNat ≤ 3
  | 6 => position.pending = 0 ∧ position.rounds = 3
  | _ => False

theorem threeRounds_annotated : Annotated threeRounds threeRoundsKept := by
  constructor
  · intro position holds
    unfold threeRoundsKept at holds
    split at holds <;> first | exact holds.elim | simp [threeRounds, *]
  · rintro ⟨place, pending, counters⟩ holds bound opcode decoded
    have places : place = 0 ∨ place = 1 ∨ place = 2 ∨ place = 3 ∨ place = 4 ∨ place = 5 ∨
        place = 6 := by
      have small : place.toNat < 7 := bound
      simp only [← UInt32.toNat_inj, UInt32.reduceToNat]
      omega
    rcases places with rfl | rfl | rfl | rfl | rfl | rfl | rfl <;> cases decoded
    · intro after counted
      have zero : after[0] = 0 := updateCounter_get counted (by decide)
      refine ⟨holds, ?_⟩
      change after[0].toNat < 3
      rw [zero]
      decide
    · intro _
      obtain ⟨rfl, few⟩ := holds
      exact ⟨rfl, few⟩
    · intro jump pending
      obtain ⟨rfl, few⟩ := holds
      obtain rfl := Multiset.mem_singleton.mp pending
      exact ⟨Multiset.erase_cons_head 3 0, few⟩
    · intro after counted
      have more : after[0] = counters[0] + 1 := updateCounter_get counted (by decide)
      obtain ⟨rfl, few⟩ := holds
      have few : counters[0].toNat < 3 := few
      refine ⟨rfl, ?_⟩
      change after[0].toNat ≤ 3
      rw [more, UInt32.toNat_add]
      exact (Nat.mod_le _ _).trans few
    · intro guard outcome known mayBe
      cases known
      obtain ⟨inside, rfl⟩ := mayBe
      obtain ⟨rfl, few⟩ := holds
      have few : counters[0].toNat ≤ 3 := few
      change threeRoundsKept ⟨if decide (counters[0] = 3) then 6 else 4 + 1, 0, counters⟩
      by_cases three : counters[0] = 3
      · rw [if_pos (decide_eq_true three)]
        exact ⟨rfl, three⟩
      · rw [if_neg (by simpa using three)]
        refine ⟨rfl, ?_⟩
        have different : counters[0].toNat ≠ 3 := fun same => three (UInt32.toNat_inj.mp same)
        change counters[0].toNat < 3
        omega
    · exact holds
    · trivial

set_option maxRecDepth 20000 in
/-- After the third round the thread ends with the counter at three. -/
theorem annotated_program_keeps_threeRounds : ∃ last : NcmSysfs,
    last.ncmInterp.thread = some (.returned .programOk) ∧
      Upholds threeRounds threeRoundsKept last.ncmInterp := by
  have done : ∃ first earlier last labels,
      runFromInit .bits64 ((loadAndRun threeRounds noChannels .bare).take 3) =
        .ok (first, earlier) ∧
      Run.carryOut (fun sysfs : NcmSysfs => sysfs.next .bits64) first
        (.setScheduler true :: List.replicate 16 (.instruction (.atClock 1 1 1))) =
          .ok (last, labels) ∧
      first.ncmInterp.thread = some .created ∧
      first.ncmInterp.program = some (CodeBlock.ofInstrs threeRounds) ∧
      threeRoundsKept first.ncmInterp.position ∧
      last.ncmInterp.thread = some (.returned .programOk) :=
    ⟨_, _, _, _, rfl, rfl, rfl, rfl, rfl, rfl⟩
  obtain ⟨first, earlier, last, labels, loaded, ran, created, program, initially, ended⟩ := done
  have unstarted := unstarted_of_actions (Run.carryOut_actions ran) (by simp)
  exact ⟨last, ended, annotated_program_keeps threeRounds_annotated program
    (CodeBlock.fetch_ofInstrs threeRounds) (reachable_represented ⟨_, run_of_runFromInit loaded⟩)
    created initially ((Run.of_carryOut ran).meeting unstarted)⟩

end NetworkCode.Kernel
