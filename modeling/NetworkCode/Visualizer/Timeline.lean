import NetworkCode.Visualizer.BuiltTree
import NetworkCode.Visualizer.Straighten
import Mathlib.Logic.Relation
import Mathlib.Tactic.Linarith

/-!
# The mean timeline against the schedule

`straighten` adds the length of a PAUSE to the mean time of what follows it,
and `parse.py` passes on a time without it.  The two agree, and the schedule is
kept, exactly when no PAUSE in front of an instruction has a length.
-/

namespace NetworkCode.Visualizer

open Kernel

/-- The arguments of a call of `straighten` that tell where it stands. -/
structure Drawing where
  data : Tree
  timeNow : ℚ
  timeNowMean : ℚ

/-- The first call. -/
def Drawing.start (tree : Tree) : Drawing := ⟨tree, 0, 0⟩

/-- A call of `straighten` calls itself for a child, with the times behind its node. -/
structure Page.Draws (page : Page) (call next : Drawing) : Prop where
  kept : 0 ≤ page.len call.timeNow call.timeNowMean call.data
  member : next.data ∈ call.data.children
  timeNow : next.timeNow = call.timeNow + page.len call.timeNow call.timeNowMean call.data
  timeNowMean : next.timeNowMean = call.timeNowMean + call.data.meanLength

/-- The calls that a call leads to. -/
def Page.Reaches (page : Page) : Drawing → Drawing → Prop :=
  Relation.ReflTransGen page.Draws

/-! ## The items of a call -/

/-- An item of a stream that a call returns: one that the stream had before, a spacer, or
what a later call adds at its times. -/
def Page.Adds (page : Page) (call : Drawing) (stream : List Item) (item : Item) : Prop :=
  item ∈ stream ∨ item.instr = .spacer ∨ ∃ later instrNum, page.Reaches call later ∧
    item = page.item later.timeNow later.timeNowMean instrNum later.data

theorem makeSpacer_instr {instrs : List Item} {item : Item} (member : item ∈ makeSpacer instrs) :
    item.instr = .spacer := by
  rw [List.mem_singleton.mp member]

/-- What a node adds, and what is added behind it. -/
theorem Page.adds_of_child {page : Page} {call next : Drawing} {stream : List Item} {item : Item}
    {instrNum : Int} (draws : page.Draws call next)
    (behind : page.Adds next
      (stream ++ [page.item call.timeNow call.timeNowMean instrNum call.data]) item) :
    page.Adds call stream item := by
  rcases behind with had | spacer | ⟨later, laterNum, reaches, added⟩
  · rcases List.mem_append.mp had with before | own
    · exact .inl before
    · exact .inr (.inr ⟨call, instrNum, .refl, List.mem_singleton.mp own⟩)
  · exact .inr (.inl spacer)
  · exact .inr (.inr ⟨later, laterNum, reaches.head draws, added⟩)

mutual

/-- Every item that `straighten` adds to a stream is that of a call it leads to. -/
theorem Page.straighten_adds (page : Page) (data : Tree) (stream : List Item)
    (timeNow timeNowMean : ℚ) (instrNum : Int) {items : List Item} {item : Item}
    (returned : .stream items ∈ page.straighten stream timeNow timeNowMean instrNum data)
    (member : item ∈ items) : page.Adds ⟨data, timeNow, timeNowMean⟩ stream item := by
  cases data with
  | loop =>
      unfold Page.straighten at returned
      cases List.mem_singleton.mp returned
      rcases List.mem_append.mp member with before | own
      · exact .inl before
      · exact .inr (.inr ⟨_, instrNum, .refl, List.mem_singleton.mp own⟩)
  | instr index time parsed length children =>
      unfold Page.straighten at returned
      dsimp only at returned
      split at returned
      · cases List.mem_singleton.mp returned
      · next kept =>
          obtain ⟨child, inside, behind⟩ := Page.straightenAll_adds page children _ _ _ _ _
            (fun _ => makeSpacer_instr) returned member
          exact Page.adds_of_child ⟨not_lt.mp kept, inside, rfl, rfl⟩ behind
  | pause taken scheduledTime length children =>
      unfold Page.straighten at returned
      dsimp only at returned
      split at returned
      · cases List.mem_singleton.mp returned
      · next kept =>
          obtain ⟨child, inside, behind⟩ := Page.straightenAll_adds page children _ _ _ _ _
            (fun _ => makeSpacer_instr) returned member
          exact Page.adds_of_child ⟨not_lt.mp kept, inside, rfl, rfl⟩ behind

theorem Page.straightenAll_adds (page : Page) (children : List Tree) (stream spacer : List Item)
    (timeNow timeNowMean : ℚ) (instrNum : Int) {items : List Item} {item : Item}
    (spaces : ∀ item ∈ spacer, item.instr = .spacer)
    (returned : .stream items ∈
      page.straightenAll stream spacer timeNow timeNowMean instrNum children)
    (member : item ∈ items) :
    ∃ child ∈ children, page.Adds ⟨child, timeNow, timeNowMean⟩ stream item := by
  cases children with
  | nil =>
      unfold Page.straightenAll at returned
      cases returned
  | cons child rest =>
      unfold Page.straightenAll at returned
      rcases List.mem_append.mp returned with first | others
      · exact ⟨child, List.mem_cons_self,
          Page.straighten_adds page child stream timeNow timeNowMean instrNum first member⟩
      · obtain ⟨other, inside, added⟩ := Page.straightenAll_adds page rest spacer spacer timeNow
          timeNowMean instrNum spaces others member
        refine ⟨other, List.mem_cons_of_mem _ inside, ?_⟩
        rcases added with had | later
        · exact .inr (.inl (spaces item had))
        · exact .inr later

end

/-! ## The property and the condition -/

/-- A call for the FUTURE that a HALT has taken: the one on the path to the HALT, or the
one in another branch that has recorded the scheduled time. -/
def Page.TakenFrom (page : Page) (future halt : Drawing) (taken : InstrRef)
    (scheduledTime : Int) : Prop :=
  ∃ time, future.data.visit? = some (taken.index, time) ∧
    (page.Reaches future halt ∨ time + taken.instr.arg0.toNat = scheduledTime)

/-- The timeline drawn for a tree honours the schedule. -/
structure Page.Honours (page : Page) (tree : Tree) : Prop where
  /-- The time that `parse.py` has passed is the mean time. -/
  agrees : ∀ call index time, page.Reaches (.start tree) call →
    call.data.visit? = some (index, time) → call.timeNowMean = time
  /-- The instruction behind the PAUSE of a HALT starts at the mean start of the FUTURE that
  the HALT has taken plus its delay, unless the HALT ends later. -/
  resumes : ∀ future halt pause next taken scheduledTime visit,
    page.Reaches (.start tree) future → page.Reaches (.start tree) halt → page.Draws halt pause →
      page.Draws pause next → pause.data.taken? = some (taken, scheduledTime) →
        page.TakenFrom future halt taken scheduledTime → next.data.visit? = some visit →
          halt.timeNowMean + halt.data.meanLength <
            future.timeNowMean + taken.instr.arg0.toNat →
              next.timeNowMean = future.timeNowMean + taken.instr.arg0.toNat

/-- Every HALT whose PAUSE is drawn and followed by an instruction takes a future that is
scheduled for the time passed to the HALT. -/
def Page.OnTime (page : Page) (tree : Tree) : Prop :=
  ∀ halt pause next index time taken scheduledTime visit, page.Reaches (.start tree) halt →
    page.Draws halt pause → page.Draws pause next → halt.data.visit? = some (index, time) →
      pause.data.taken? = some (taken, scheduledTime) → next.data.visit? = some visit →
        scheduledTime = time

section Timeline

variable {page : Page} {instrs : List ParsedInstr} {records : List (Nat × Int)} {time : Int}
  {tree : Tree} {call next : Drawing}

/-- What stands behind a node on its path. -/
theorem Built.child (built : Built instrs records time call.data) (draws : page.Draws call next) :
    ∃ extended later, (∀ record ∈ records, record ∈ extended) ∧
      Built instrs extended later next.data := by
  obtain ⟨data, timeNow, timeNowMean⟩ := call
  cases built with
  | instr _ _ keeps _ behind => exact ⟨_, _, keeps, behind _ draws.member⟩
  | pause _ _ _ behind _ => exact ⟨_, _, fun _ member => member, behind _ draws.member⟩
  | loop => cases draws.member

theorem Built.reached (built : Built instrs records time call.data)
    (reaches : page.Reaches call next) :
    ∃ extended later, (∀ record ∈ records, record ∈ extended) ∧
      Built instrs extended later next.data := by
  induction reaches with
  | refl => exact ⟨records, time, fun _ member => member, built⟩
  | tail _ draws ih =>
      obtain ⟨extended, later, keeps, builtHere⟩ := ih
      obtain ⟨further, after, keepsFurther, builtNext⟩ := builtHere.child draws
      exact ⟨further, after, fun record member => keepsFurther record (keeps record member),
        builtNext⟩

theorem Built.reached_start (built : Built instrs records time tree)
    (reaches : page.Reaches (.start tree) next) :
    ∃ extended later, Built instrs extended later next.data := by
  have start : Built instrs records time (Drawing.start tree).data := built
  obtain ⟨extended, later, _, builtNext⟩ := start.reached reaches
  exact ⟨extended, later, builtNext⟩

/-- What is built behind the node of an instruction. -/
theorem Built.behind_visit {index : Nat} {called : Int} (built : Built instrs records time tree)
    (visited : tree.visit? = some (index, called)) :
    called = time ∧ tree.meanLength = 200 ∧ ∃ parsed extended, instrs[index]? = some parsed ∧
      (parsed.instr = .future → (index, time + parsed.arg0.toNat) ∈ extended) ∧
        ∀ child ∈ tree.children, Built instrs extended (time + 200) child := by
  cases built with
  | instr located mean _ own behind => cases visited; exact ⟨rfl, mean, _, _, located, own, behind⟩
  | pause | loop => cases visited

/-- What is built behind a PAUSE. -/
theorem Built.behind_pause {taken : InstrRef} {scheduledTime : Int}
    (built : Built instrs records time tree)
    (paused : tree.taken? = some (taken, scheduledTime)) :
    tree.meanLength = scheduledTime - (time - 200) ∧ instrs[taken.index]? = some taken.instr ∧
      taken.instr.instr = .future ∧
        (∀ other, (taken.index, other) ∈ records → other = scheduledTime) ∧
          ∀ child ∈ tree.children, Built instrs records time child ∧ child.taken? = none := by
  cases built with
  | pause located isFuture recorded behind plain =>
      cases paused
      exact ⟨rfl, located, isFuture, recorded,
        fun child member => ⟨behind child member, plain child member⟩⟩
  | instr | loop => cases paused

/-- An instruction node stands in front of a PAUSE. -/
theorem Built.visit_of_draws_pause {taken : InstrRef × Int}
    (built : Built instrs records time call.data) (draws : page.Draws call next)
    (paused : next.data.taken? = some taken) : ∃ index, call.data.visit? = some (index, time) := by
  obtain ⟨data, timeNow, timeNowMean⟩ := call
  cases built with
  | instr => exact ⟨_, rfl⟩
  | pause _ _ _ _ plain =>
      rw [plain _ draws.member] at paused
      cases paused
  | loop => cases draws.member

/-! ## Where a call stands -/

/-- A call stands where `parse.py` has it, and a PAUSE behind its HALT. -/
structure Page.Stands (page : Page) (instrs : List ParsedInstr) (root : Tree)
    (records : List (Nat × Int)) (time : Int) (call : Drawing) : Prop where
  built : Built instrs records time call.data
  mean : call.data ≠ .loop → call.timeNowMean = time
  halted : ∀ taken, call.data.taken? = some taken → ∃ halt index,
    page.Reaches (.start root) halt ∧ page.Draws halt call ∧
      halt.data.visit? = some (index, time - 200)

/-- Behind the node of an instruction. -/
theorem Page.Stands.behind_visit {root : Tree} {visit : Nat × Int}
    (stands : page.Stands instrs root records time call)
    (reaches : page.Reaches (.start root) call) (draws : page.Draws call next)
    (visited : call.data.visit? = some visit) :
    ∃ extended, page.Stands instrs root extended (time + 200) next := by
  obtain ⟨index, called⟩ := visit
  obtain ⟨rfl, length, _, extended, _, _, behind⟩ := stands.built.behind_visit visited
  have notLoop : call.data ≠ .loop := by
    intro loop
    rw [loop] at visited
    cases visited
  refine ⟨extended, behind _ draws.member, fun _ => ?_, fun taken paused => ?_⟩
  · rw [draws.timeNowMean, stands.mean notLoop, length]
    push_cast
    rfl
  · exact ⟨call, index, reaches, draws, by rw [visited, Int.add_sub_cancel]⟩

/-- Behind a PAUSE, which adds nothing where the condition holds. -/
theorem Page.Stands.behind_pause {root : Tree} {taken : InstrRef} {scheduledTime : Int}
    (stands : page.Stands instrs root records time call) (onTime : page.OnTime root)
    (draws : page.Draws call next) (paused : call.data.taken? = some (taken, scheduledTime)) :
    page.Stands instrs root records time next := by
  obtain ⟨length, _, _, _, behind⟩ := stands.built.behind_pause paused
  obtain ⟨builtNext, plain⟩ := behind _ draws.member
  obtain ⟨halt, index, reachesHalt, drawsPause, halts⟩ := stands.halted _ paused
  have notLoop : call.data ≠ .loop := by
    intro loop
    rw [loop] at paused
    cases paused
  refine ⟨builtNext, fun notLoopNext => ?_, fun other impossible => ?_⟩
  · have visit : ∃ visit, next.data.visit? = some visit := by
      cases data : next.data with
      | instr => exact ⟨_, rfl⟩
      | pause => rw [data] at plain; cases plain
      | loop => exact absurd data notLoopNext
    obtain ⟨visit, visits⟩ := visit
    have inTime := onTime halt call next index (time - 200) taken scheduledTime visit
      reachesHalt drawsPause draws halts paused visits
    rw [draws.timeNowMean, stands.mean notLoop, length, inTime]
    simp
  · rw [plain] at impossible
    cases impossible

theorem Page.Stands.onward {root : Tree} (stands : page.Stands instrs root records time call)
    (onTime : page.OnTime root) (reaches : page.Reaches (.start root) call)
    (draws : page.Draws call next) :
    ∃ extended later, page.Stands instrs root extended later next := by
  cases data : call.data with
  | instr index called parsed length children =>
      have visited : call.data.visit? = some (index, called) := by rw [data]; rfl
      obtain ⟨extended, behind⟩ := stands.behind_visit reaches draws visited
      exact ⟨extended, time + 200, behind⟩
  | pause taken scheduledTime length children =>
      have paused : call.data.taken? = some (taken, scheduledTime) := by rw [data]; rfl
      exact ⟨records, time, stands.behind_pause onTime draws paused⟩
  | loop =>
      have impossible := draws.member
      rw [data] at impossible
      cases impossible

theorem Page.stands_of_reaches (built : Built instrs [] 0 tree) (plain : tree.taken? = none)
    (onTime : page.OnTime tree) (reaches : page.Reaches (.start tree) call) :
    ∃ extended later, page.Stands instrs tree extended later call := by
  induction reaches with
  | refl =>
      refine ⟨[], 0, built, fun _ => by simp [Drawing.start], fun taken impossible => ?_⟩
      exact absurd impossible (by simp [Drawing.start, plain])
  | tail earlier draws ih =>
      obtain ⟨extended, later, stands⟩ := ih
      exact stands.onward onTime earlier draws

/-! ## The condition -/

theorem Page.Honours.onTime (built : Built instrs [] 0 tree) (honours : page.Honours tree) :
    page.OnTime tree := by
  intro halt pause next index time taken scheduledTime visit reaches drawsPause drawsNext halts
    paused visits
  obtain ⟨nextIndex, passed⟩ := visit
  obtain ⟨_, standing, builtHalt⟩ := built.reached_start reaches
  obtain ⟨rfl, haltLength, _, _, _, _, behind⟩ := builtHalt.behind_visit halts
  obtain ⟨pauseLength, _, _, _, behindPause⟩ :=
    (behind _ drawsPause.member).behind_pause paused
  obtain ⟨passedHere, _⟩ := (behindPause _ drawsNext.member).1.behind_visit visits
  have haltMean := honours.agrees halt index time reaches halts
  have nextMean := honours.agrees next nextIndex passed
    ((reaches.tail drawsPause).tail drawsNext) visits
  rw [drawsNext.timeNowMean, drawsPause.timeNowMean, haltMean, haltLength, pauseLength,
    passedHere] at nextMean
  have same : time + 200 + (scheduledTime - (time + 200 - 200)) = time + 200 := by
    exact_mod_cast nextMean
  omega

/-- The FUTURE on the path to a HALT has recorded the scheduled time that is taken. -/
theorem Built.scheduled {future halt pause : Drawing} {taken : InstrRef} {scheduledTime : Int}
    (builtFuture : Built instrs records time future.data)
    (visited : future.data.visit? = some (taken.index, time))
    (reachesHalt : page.Reaches future halt) (drawsPause : page.Draws halt pause)
    (paused : pause.data.taken? = some (taken, scheduledTime)) :
    time + taken.instr.arg0.toNat = scheduledTime := by
  obtain ⟨_, _, parsed, extended, located, own, behindFuture⟩ := builtFuture.behind_visit visited
  obtain ⟨behind, drawsBehind, reachesPause⟩ :=
    Relation.TransGen.head'_iff.mp (Relation.TransGen.tail' reachesHalt drawsPause)
  obtain ⟨further, later, keeps, builtPause⟩ :=
    (behindFuture _ drawsBehind.member).reached reachesPause
  obtain ⟨_, takenLocated, isFuture, recorded, _⟩ := builtPause.behind_pause paused
  have same : parsed = taken.instr := Option.some_injective _ (located.symm.trans takenLocated)
  subst same
  exact recorded _ (keeps _ (own isFuture))

theorem Page.OnTime.honours (built : Built instrs [] 0 tree) (plain : tree.taken? = none)
    (onTime : page.OnTime tree) : page.Honours tree := by
  have agrees : ∀ call index time, page.Reaches (.start tree) call →
      call.data.visit? = some (index, time) → call.timeNowMean = time := by
    intro call index time reaches visited
    obtain ⟨_, standing, stands⟩ := Page.stands_of_reaches built plain onTime reaches
    obtain ⟨rfl, _⟩ := stands.built.behind_visit visited
    apply stands.mean
    intro loop
    rw [loop] at visited
    cases visited
  refine ⟨agrees, ?_⟩
  intro future halt pause next taken scheduledTime visit reachesFuture reachesHalt drawsPause
    drawsNext paused takenFrom visits early
  exfalso
  obtain ⟨time, visited, origin⟩ := takenFrom
  have scheduled : time + taken.instr.arg0.toNat = scheduledTime := by
    rcases origin with onPath | recorded
    · obtain ⟨_, standing, builtFuture⟩ := built.reached_start reachesFuture
      obtain ⟨rfl, _⟩ := builtFuture.behind_visit visited
      exact builtFuture.scheduled visited onPath drawsPause paused
    · exact recorded
  -- the HALT starts at the scheduled time, so it does not end before it
  obtain ⟨_, halted, builtHalt⟩ := built.reached_start reachesHalt
  obtain ⟨index, halts⟩ := builtHalt.visit_of_draws_pause drawsPause paused
  obtain ⟨_, haltLength, _⟩ := builtHalt.behind_visit halts
  have inTime := onTime halt pause next index halted taken scheduledTime visit reachesHalt
    drawsPause drawsNext halts paused visits
  rw [agrees halt index halted reachesHalt halts, haltLength,
    agrees future taken.index time reachesFuture visited] at early
  have earlier : halted + 200 < time + taken.instr.arg0.toNat := by exact_mod_cast early
  omega

end Timeline

/--
For every program, page and percentile, the drawn timeline honours the schedule
exactly when every HALT that is drawn with an instruction behind its PAUSE takes
a future that is due at the start of the HALT.
-/
theorem timeline_honours_iff (page : Page) (instrs : List ParsedInstr) {tree : Tree}
    (built : TreeBuilder.buildTree instrs = .ok tree) : page.Honours tree ↔ page.OnTime tree := by
  obtain ⟨whole, plain⟩ := TreeBuilder.buildTree_built built
  exact ⟨fun honours => honours.onTime whole, fun onTime => onTime.honours whole plain⟩

/-- A page on which every instruction takes its mean length. -/
def meanPage : Page where
  scale := 1 / 5
  percentile := 1 / 2
  gaussianPoint := fun _ mew _ => mew
  render := fun _ => ""

/-- A FUTURE with the given delay, a HALT and a NOP that the FUTURE jumps to. -/
def delayedNop (delay : UInt32) : List ParsedInstr :=
  [⟨.future, delay, 2, 0, 0⟩, ⟨.halt, 0, 0, 0, 0⟩, ⟨.nop, 0, 0, 0, 0⟩]

/-- Its tree, in which the HALT pauses until the delay is over. -/
def delayedTree (delay : UInt32) : Tree :=
  .instr 0 0 ⟨.future, delay, 2, 0, 0⟩ ⟨200, 100⟩
    [.instr 1 200 ⟨.halt, 0, 0, 0, 0⟩ ⟨200, 100⟩
      [.pause ⟨0, ⟨.future, delay, 2, 0, 0⟩⟩ delay.toNat (delay.toNat - 200)
        [.instr 2 400 ⟨.nop, 0, 0, 0, 0⟩ ⟨200, 100⟩ []]]]

/-- A delay of 200 is over at the start of the HALT. -/
theorem timeline_honours_iff_due :
    TreeBuilder.buildTree (delayedNop 200) = .ok (delayedTree 200) ∧
      (meanPage.Honours (delayedTree 200) ↔ meanPage.OnTime (delayedTree 200)) :=
  ⟨rfl, timeline_honours_iff meanPage (delayedNop 200) rfl⟩

/-- With a delay of 1000 the NOP is drawn at 1200, and `parse.py` has passed 400. -/
theorem timeline_late : ¬ ∀ (page : Page) (instrs : List ParsedInstr) (tree : Tree),
    TreeBuilder.buildTree instrs = .ok tree → page.Honours tree := by
  intro claim
  let nop : Tree := .instr 2 400 ⟨.nop, 0, 0, 0, 0⟩ ⟨200, 100⟩ []
  let pause : Tree := .pause ⟨0, ⟨.future, 1000, 2, 0, 0⟩⟩ 1000 800 [nop]
  let halt : Tree := .instr 1 200 ⟨.halt, 0, 0, 0, 0⟩ ⟨200, 100⟩ [pause]
  let future : Tree := .instr 0 0 ⟨.future, 1000, 2, 0, 0⟩ ⟨200, 100⟩ [halt]
  have honours := claim meanPage (delayedNop 1000) future rfl
  have drawsHalt : meanPage.Draws (.start future) ⟨halt, 200, 200⟩ := by
    constructor <;> simp [Drawing.start, Page.len, meanPage, Tree.children, Tree.meanLength, future]
  have drawsPause : meanPage.Draws ⟨halt, 200, 200⟩ ⟨pause, 400, 400⟩ := by
    constructor <;> norm_num [Page.len, meanPage, Tree.children, Tree.meanLength, halt]
  have drawsNop : meanPage.Draws ⟨pause, 400, 400⟩ ⟨nop, 1200, 1200⟩ := by
    constructor <;> norm_num [Page.len, Tree.children, Tree.meanLength, pause]
  have reaches : meanPage.Reaches (.start future) ⟨nop, 1200, 1200⟩ :=
    ((Relation.ReflTransGen.single drawsHalt).tail drawsPause).tail drawsNop
  have same := honours.agrees _ 2 400 reaches rfl
  norm_num at same

end NetworkCode.Visualizer
