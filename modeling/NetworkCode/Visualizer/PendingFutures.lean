import NetworkCode.Kernel.Control
import NetworkCode.Kernel.FutureQueueRefinement
import NetworkCode.Visualizer.Exploration

/-!
# The future that a HALT takes

The module keeps its futures by the time they are due and takes the first.
`parse.py` sorts them by their delays and pops from the end, so it takes the
longest delay, and the last of them.
-/

namespace NetworkCode.Visualizer

open Kernel Library Library.Checked

/-- A FUTURE on a path, with the time at which it is reached. -/
structure Push where
  future : InstrRef
  time : Nat

namespace Push

/-- `scheduled_time`, and the expiry that the module computes. -/
def scheduled (push : Push) : Nat := push.time + push.future.delay

/-- The call that the FUTURE makes in the interpreter. -/
def call (push : Push) : QueueCall :=
  .push push.future.instr.arg1 push.future.instr.arg0.toUInt64 (UInt64.ofNat push.time)

/-- The element that the module stores. -/
def el (push : Push) : FutureQueueEl :=
  pushedEl push.future.instr.arg1 push.future.instr.arg0.toUInt64 (UInt64.ofNat push.time)

theorem el_due {push : Push} (fits : push.scheduled < 2 ^ 64) :
    push.el.due = push.scheduled := by
  have wait : push.future.instr.arg0.toUInt64.toNat = push.future.delay := by
    simp [InstrRef.delay]
  have now : (UInt64.ofNat push.time).toNat = push.time :=
    UInt64.toNat_ofNat_of_lt' (Nat.lt_of_le_of_lt (Nat.le_add_right _ _) fits)
  simp only [el, pushedEl, FutureQueueEl.due, wait, now]
  exact UInt64.toNat_ofNat_of_lt' (Nat.mod_lt _ (Nat.two_pow_pos 64)) |>.trans
    (Nat.mod_eq_of_lt fits)

end Push

/-- FUTUREs as they follow each other on a path, at times that the clock of the module has. -/
structure OnPath (pushes : List Push) : Prop where
  addresses : pushes.Pairwise fun first second => first.future.index < second.future.index
  times : pushes.Pairwise fun first second => first.time ≤ second.time
  fits : ∀ push ∈ pushes, push.scheduled < 2 ^ 64

/-- The shared state behind the FUTUREs. -/
def pending (pushes : List Push) : TreeBuilder :=
  pushes.foldl (fun builder push => builder.schedule push.future push.scheduled) .empty

/-- The push is the first of those that are due first. -/
structure FirstDue (earlier : List Push) (push : Push) (later : List Push) : Prop where
  before : ∀ other ∈ earlier, push.scheduled < other.scheduled
  behind : ∀ other ∈ later, push.scheduled ≤ other.scheduled

/-- `parse.py` continues with the push, and the others stay pending. -/
def Continues (earlier : List Push) (push : Push) (later : List Push) : Prop :=
  ∃ after, (pending (earlier ++ push :: later)).takeFuture =
      .ok (push.future, push.scheduled, after) ∧
    after.futureQueue.Perm ((earlier ++ later).map Push.future) ∧
      ∀ other ∈ earlier ++ later, after.scheduledTime other.future.index = some other.scheduled

/-- `pop_future` returns the push after the same pushes. -/
def Pops (pushes : List Push) (push : Push) : Prop :=
  ∀ memory : FutureQueue maxFutures, ∃ replies queue,
    answers (initFutureQueue memory) (pushes.map Push.call ++ [.pop]) =
      .ok (replies ++ [.popped .ok (some push.el)], queue)

/-- The HALT of `parse.py` and the one of the module continue with the future that is due
first. -/
def HaltAgrees (pushes : List Push) : Prop :=
  ∀ earlier push later, pushes = earlier ++ push :: later → FirstDue earlier push later →
    Continues earlier push later ∧ Pops pushes push

/-- The first future has a longer delay than all others and is due no later. -/
def FirstIsLongest (pushes : List Push) : Prop :=
  ∀ first later, pushes = first :: later → ∀ other ∈ later,
    other.future.delay < first.future.delay ∧ first.scheduled ≤ other.scheduled

section Pending

variable {pushes earlier later : List Push} {push : Push}

/-! ## The queue of `parse.py` -/

theorem foldl_schedule_queue (builder : TreeBuilder) (pushes : List Push) :
    (pushes.foldl (fun builder push => builder.schedule push.future push.scheduled)
      builder).futureQueue = builder.futureQueue ++ pushes.map Push.future := by
  induction pushes generalizing builder with
  | nil => simp
  | cons push rest ih =>
      rw [List.foldl_cons, ih, List.map_cons]
      exact List.append_assoc _ [push.future] _

theorem pending_queue (pushes : List Push) :
    (pending pushes).futureQueue = pushes.map Push.future :=
  foldl_schedule_queue .empty pushes

theorem foldl_schedule_kept {builder : TreeBuilder} {index : Nat}
    (apart : ∀ push ∈ pushes, push.future.index ≠ index) :
    (pushes.foldl (fun builder push => builder.schedule push.future push.scheduled)
      builder).scheduledTime index = builder.scheduledTime index := by
  induction pushes generalizing builder with
  | nil => rfl
  | cons push rest ih =>
      obtain ⟨here, behind⟩ := List.forall_mem_cons.mp apart
      rw [List.foldl_cons, ih behind]
      exact Function.update_of_ne here.symm _ _

/-- Addresses are met once, so every scheduled time is the one of its push. -/
theorem pending_scheduled (path : OnPath pushes) (member : push ∈ pushes) :
    (pending pushes).scheduledTime push.future.index = some (push.scheduled : Int) := by
  obtain ⟨earlier, later, rfl⟩ := List.append_of_mem member
  obtain ⟨_, behind, _⟩ := List.pairwise_append.mp path.addresses
  rw [pending, List.foldl_append, List.foldl_cons, foldl_schedule_kept]
  · exact Function.update_self ..
  · intro other inside
    exact Nat.ne_of_gt (List.rel_of_pairwise_cons behind inside)

/-- The HALT takes the last of the longest delays. -/
theorem takeFuture_lastLongest (path : OnPath (earlier ++ push :: later))
    (before : ∀ other ∈ earlier, other.future.delay ≤ push.future.delay)
    (behind : ∀ other ∈ later, other.future.delay < push.future.delay) :
    Continues earlier push later := by
  have sorted : (pending (earlier ++ push :: later)).sortedQueue =
      ((earlier ++ later).map Push.future).insertionSort
        (fun first second => first.instr.arg0 ≤ second.instr.arg0) ++ [push.future] := by
    rw [TreeBuilder.sortedQueue, byDelay, pending_queue, List.map_append, List.map_append,
      List.map_cons]
    have keyed (first second : InstrRef) :
        first.instr.arg0 ≤ second.instr.arg0 ↔ first.delay ≤ second.delay :=
      UInt32.le_iff_toNat_le
    exact insertionSort_lastLargest keyed (List.forall_mem_map.mpr before)
      (List.forall_mem_map.mpr behind)
  have member : push ∈ earlier ++ push :: later := by simp
  refine ⟨{ pending (earlier ++ push :: later) with
    futureQueue := (pending (earlier ++ push :: later)).sortedQueue.dropLast }, ?_, ?_, ?_⟩
  · rw [TreeBuilder.takeFuture, sorted, List.getLast?_concat]
    dsimp only
    rw [pending_scheduled path member]
  · dsimp only
    rw [sorted, List.dropLast_concat]
    exact List.perm_insertionSort _ _
  · intro other inside
    refine pending_scheduled path ?_
    rcases List.mem_append.mp inside with inEarlier | inLater
    · exact List.mem_append_left _ inEarlier
    · exact List.mem_append_right _ (List.mem_cons_of_mem _ inLater)

/-! ## The queue of the module -/

/-- What is due no later than everything pushed after it stays in front. -/
theorem abstractAnswers_front {capacity : Nat} {futures : AbstractFutures capacity}
    {el : FutureQueueEl} {rest : List FutureQueueEl} (front : futures.contents = el :: rest)
    (behind : ∀ push ∈ pushes, el.due ≤ push.el.due) :
    ∃ replies, (abstractAnswers futures (pushes.map Push.call ++ [.pop])).1 =
      replies ++ [.popped .ok (some el)] := by
  induction pushes generalizing futures rest with
  | nil =>
      cases popped : futures.pop with
      | none =>
          rw [futures.pop_eq_none_iff.mp popped] at front
          cases front
      | some taken =>
          have contents := BoundedQueue.contents_pop popped
          rw [front] at contents
          obtain ⟨same, _⟩ := List.cons.inj contents
          refine ⟨[], ?_⟩
          simp only [List.map_nil, List.nil_append, abstractAnswers, abstractAnswer, popped]
          rw [same]
  | cons push pushes ih =>
      obtain ⟨here, later⟩ := List.forall_mem_cons.mp behind
      have answered : ∃ reply next rest, abstractAnswer futures push.call = (reply, next) ∧
          next.contents = el :: rest := by
        unfold Push.call abstractAnswer
        dsimp only
        cases pushed : futures.push push.el with
        | none => exact ⟨_, futures, rest, by rw [← Push.el, pushed], front⟩
        | some next =>
            refine ⟨_, next, insertAfter FutureQueueEl.due push.el rest,
              by rw [← Push.el, pushed], ?_⟩
            rw [BoundedQueue.contents_push pushed, front]
            simp [insertAfter, here]
      obtain ⟨reply, next, remaining, answers, stillFront⟩ := answered
      obtain ⟨replies, replied⟩ := ih stillFront later
      refine ⟨reply :: replies, ?_⟩
      rw [List.map_cons, List.cons_append, abstractAnswers, answers]
      dsimp only
      rw [replied]
      rfl

/-- The first push is popped where none of the others is due before it. -/
theorem pops_first (behind : ∀ other ∈ later, push.scheduled ≤ other.scheduled)
    (fits : ∀ other ∈ push :: later, other.scheduled < 2 ^ 64) : Pops (push :: later) push := by
  obtain ⟨fitsFirst, fitsLater⟩ := List.forall_mem_cons.mp fits
  have small : maxFutures ≤ 255 := by decide
  intro memory
  obtain ⟨queue, answered, _⟩ := answers_refine small (initFutureQueue_represents memory)
    ((push :: later).map Push.call ++ [.pop])
  obtain ⟨after, pushed⟩ : ∃ after,
      (BoundedQueue.empty : AbstractFutures maxFutures).push push.el = some after := by
    cases pushed : (BoundedQueue.empty : AbstractFutures maxFutures).push push.el with
    | none => cases (BoundedQueue.push_eq_none_iff _ _).mp pushed
    | some after => exact ⟨after, rfl⟩
  have front : after.contents = push.el :: [] := BoundedQueue.contents_push pushed
  obtain ⟨replies, replied⟩ := abstractAnswers_front front fun other member => by
    rw [Push.el_due fitsFirst, Push.el_due (fitsLater other member)]
    exact behind other member
  have first : abstractAnswer (BoundedQueue.empty : AbstractFutures maxFutures) push.call =
      (.pushed .ok, after) := by
    unfold Push.call abstractAnswer
    dsimp only
    rw [← Push.el, pushed]
  refine ⟨.pushed .ok :: replies, queue, ?_⟩
  rw [answered, List.map_cons, List.cons_append, abstractAnswers, first]
  dsimp only
  rw [replied]
  rfl

end Pending

/-! ## The condition -/

section Condition

variable {pushes : List Push}

/-- The longest delay, which `parse.py` takes, is due first only as the first of all. -/
theorem HaltAgrees.firstIsLongest (path : OnPath pushes) (agrees : HaltAgrees pushes) :
    FirstIsLongest pushes := by
  rintro first later rfl
  obtain ⟨earlier, push, behind, split, dueBefore, dueBehind⟩ :=
    exists_firstLeast Push.scheduled (List.cons_ne_nil first later)
  obtain ⟨front, longest, back, longestSplit, delayBefore, delayBehind⟩ :=
    exists_lastLargest (fun push : Push => push.future.delay) (List.cons_ne_nil first later)
  -- what is due first is what has the longest delay
  obtain ⟨⟨_, taken, _⟩, _⟩ := agrees earlier push behind split ⟨dueBefore, dueBehind⟩
  rw [← split, longestSplit] at taken
  rw [longestSplit] at path
  obtain ⟨_, popped, _⟩ := takeFuture_lastLongest path delayBefore delayBehind
  have same : push.future = longest.future := by
    rw [taken] at popped
    exact congrArg Prod.fst (Except.ok.inj popped)
  rw [← longestSplit] at path
  have delays : ∀ other ∈ first :: later, other.future.delay ≤ push.future.delay := by
    rw [longestSplit, same]
    refine List.forall_mem_append.mpr ⟨delayBefore, List.forall_mem_cons.mpr ⟨le_refl _, ?_⟩⟩
    exact fun other member => Nat.le_of_lt (delayBehind other member)
  have foremost : earlier = [] := by
    refine List.eq_nil_iff_forall_not_mem.mpr fun other member => ?_
    have shorter : other.future.delay ≤ push.future.delay :=
      delays other (by rw [split]; exact List.mem_append_left _ member)
    have times := path.times
    rw [split] at times
    have sooner : other.time ≤ push.time :=
      (List.pairwise_append.mp times).2.2 other member push List.mem_cons_self
    exact absurd (dueBefore other member) (Nat.not_lt.mpr (Nat.add_le_add sooner shorter))
  rw [foremost, List.nil_append] at split
  obtain ⟨rfl, rfl⟩ := List.cons.inj split
  cases front with
  | nil =>
      obtain ⟨rfl, rfl⟩ := List.cons.inj longestSplit
      exact fun other member => ⟨delayBehind other member, dueBehind other member⟩
  | cons head between =>
      obtain ⟨rfl, rfl⟩ := List.cons.inj longestSplit
      have repeated := List.rel_of_pairwise_cons path.addresses
        (show longest ∈ between ++ longest :: back by simp)
      rw [same] at repeated
      exact absurd repeated (Nat.lt_irrefl _)

theorem FirstIsLongest.haltAgrees (path : OnPath pushes) (longest : FirstIsLongest pushes) :
    HaltAgrees pushes := by
  rintro earlier push later rfl due
  cases earlier with
  | nil =>
      have others := longest push later rfl
      refine ⟨takeFuture_lastLongest path (List.forall_mem_nil _) fun other member =>
        (others other member).1, ?_⟩
      exact pops_first (fun other member => (others other member).2) path.fits
  | cons first between =>
      -- the first one would be due before the one that is due first
      have member : push ∈ between ++ push :: later := by simp
      have notLater := (longest first (between ++ push :: later) rfl push member).2
      exact absurd (due.before first List.mem_cons_self) (Nat.not_lt.mpr notLater)

end Condition

/--
For every list of futures recorded on a path, `parse.py` continues with the
future that the module pops exactly when the first of them has a longer delay
than all others and is due no later.
-/
theorem haltAgrees_iff {pushes : List Push} (path : OnPath pushes) :
    HaltAgrees pushes ↔ FirstIsLongest pushes :=
  ⟨fun agrees => agrees.firstIsLongest path, fun longest => longest.haltAgrees path⟩

/-- Two FUTUREs that follow each other, with the given delays. -/
def twoPushes (first second : UInt32) : List Push :=
  [⟨⟨0, ⟨.future, first, 3, 0, 0⟩⟩, 0⟩, ⟨⟨1, ⟨.future, second, 4, 0, 0⟩⟩, 200⟩]

theorem twoPushes_onPath (first second : UInt32) : OnPath (twoPushes first second) where
  addresses := by simp [twoPushes]
  times := by simp [twoPushes]
  fits := by
    have firstBound := first.toNat_lt
    have secondBound := second.toNat_lt
    simp only [twoPushes, List.forall_mem_cons, List.not_mem_nil, false_implies, implies_true,
      and_true, Push.scheduled, InstrRef.delay]
    omega

/-- A delay of 100 and, 200 later, one of 50. -/
theorem haltAgrees_iff_shrinking : OnPath (twoPushes 100 50) ∧
    (HaltAgrees (twoPushes 100 50) ↔ FirstIsLongest (twoPushes 100 50)) :=
  ⟨twoPushes_onPath 100 50, haltAgrees_iff (twoPushes_onPath 100 50)⟩

/-- With delays of 100 and 300 the first future is due at 100 and the second at 500, and
`parse.py` takes the second. -/
theorem halt_takesLongest : ¬ ∀ pushes : List Push, OnPath pushes → HaltAgrees pushes := by
  intro claim
  have due : FirstDue [] ⟨⟨0, ⟨.future, 100, 3, 0, 0⟩⟩, 0⟩
      [⟨⟨1, ⟨.future, 300, 4, 0, 0⟩⟩, 200⟩] := by
    refine ⟨List.forall_mem_nil _, List.forall_mem_singleton.mpr ?_⟩
    decide
  obtain ⟨⟨after, taken, _⟩, _⟩ :=
    claim (twoPushes 100 300) (twoPushes_onPath 100 300) [] _ _ rfl due
  cases taken

end NetworkCode.Visualizer
