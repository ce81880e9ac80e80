import NetworkCode.Kernel.FutureQueueSort
import NetworkCode.Library.StableQueue

/-!
# The future queue refines a bounded stable priority queue

The ring represents an abstract queue when its live window lists the abstract
contents.  Every call keeps the representation and answers as the abstract
queue does, so the two agree over every sequence of calls.
-/

namespace NetworkCode.Kernel

open Library Library.Checked FutureQueue

variable {capacity : Nat} [NeZero capacity]

/-- The abstract queue of futures, ordered by expiry. -/
abbrev AbstractFutures (capacity : Nat) : Type :=
  BoundedQueue FutureQueueEl.due capacity

namespace FutureQueue

/-- The ring holds exactly the abstract contents, in order. -/
structure Represents (queue : FutureQueue capacity) (futures : AbstractFutures capacity) :
    Prop where
  inRange : queue.InRange
  live_eq : queue.live = futures.contents

end FutureQueue

theorem initFutureQueue_represents (memory : FutureQueue capacity) :
    (initFutureQueue memory).Represents BoundedQueue.empty :=
  ⟨⟨Nat.pos_of_neZero capacity, Nat.zero_le _⟩, rfl⟩

omit [NeZero capacity] in
theorem pushFuture_full {queue : FutureQueue capacity} (jmp : UInt32) (waitUs nowUs : UInt64)
    (full : queue.length.toNat = capacity) :
    pushFuture queue jmp waitUs nowUs = .ok (.full, queue) := by
  simp [pushFuture, full]

/-- The element that `push_future` stores. -/
def pushedEl (jmp : UInt32) (waitUs nowUs : UInt64) : FutureQueueEl :=
  ⟨jmp, waitUs.toUInt32, UInt64.ofNat ((nowUs.toNat + waitUs.toNat) % 2 ^ 64)⟩

theorem pushedEl_eq (jmp : UInt32) (waitUs nowUs : UInt64) :
    pushedEl jmp waitUs nowUs = ⟨jmp, waitUs.toUInt32, nowUs + waitUs⟩ := by
  have sum : UInt64.ofNat ((nowUs.toNat + waitUs.toNat) % 2 ^ 64) = nowUs + waitUs := by
    apply UInt64.toNat_inj.mp
    rw [UInt64.toNat_ofNat', UInt64.toNat_add, Nat.mod_mod]
  rw [pushedEl, sum]

/-- A push with room appends to the window and sorts it: a stable insertion. -/
theorem pushFuture_room {queue : FutureQueue capacity} (jmp : UInt32) (waitUs nowUs : UInt64)
    (small : capacity ≤ 255) (inRange : queue.InRange)
    (sorted : SortedBy FutureQueueEl.due queue.live)
    (room : queue.length.toNat ≠ capacity) :
    ∃ after, pushFuture queue jmp waitUs nowUs = .ok (.ok, after) ∧ after.InRange ∧
      after.live = insertAfter FutureQueueEl.due (pushedEl jmp waitUs nowUs) queue.live := by
  have below : queue.length.toNat < capacity := by have := inRange.length_le; omega
  have grown : (queue.length + 1).toNat = queue.length.toNat + 1 := by
    rw [UInt8.toNat_add]
    simp
    omega
  have inside : (queue.first.toNat + queue.length.toNat) % capacity < capacity :=
    Nat.mod_lt _ (Nat.pos_of_neZero capacity)
  let appended : FutureQueue capacity :=
    { queue with
      slots := queue.slots.set ((queue.first.toNat + queue.length.toNat) % capacity)
        (pushedEl jmp waitUs nowUs) inside
      length := queue.length + 1 }
  have appendedLive : appended.live = queue.live ++ [pushedEl jmp waitUs nowUs] := by
    simp only [appended, live, grown]
    exact Ring.window_push _ _ _ _ below inside
  obtain ⟨after, hafter, rearranged⟩ := sortFutureQueue_spec appended
    (by change (queue.length + 1).toNat ≤ capacity; omega)
  refine ⟨after, ?_, ⟨?_, ?_⟩, ?_⟩
  · unfold pushFuture
    rw [if_neg room]
    dsimp only
    rw [store_of_lt inside, ← pushedEl_eq]
    change (sortFutureQueue appended >>= _) = _
    rw [hafter]
    rfl
  · rw [rearranged.first_eq]
    exact inRange.first_lt
  · rw [rearranged.length_eq]
    change (queue.length + 1).toNat ≤ capacity
    omega
  · rw [rearranged.live_eq, appendedLive]
    exact bubbleSort_append_singleton sorted _

theorem popFuture_empty {queue : FutureQueue capacity} (empty : queue.live = []) :
    popFuture queue = .ok (.empty, none, queue) := by
  have zero : queue.length.toNat = 0 := by rw [← live_length, empty]; rfl
  have hlength : queue.length = 0 := UInt8.toNat_inj.mp zero
  simp [popFuture, hlength]

/-- A pop takes the front of the window. -/
theorem popFuture_cons {queue : FutureQueue capacity} {head : FutureQueueEl}
    {rest : List FutureQueueEl} (small : capacity ≤ 255) (inRange : queue.InRange)
    (front : queue.live = head :: rest) :
    ∃ after, popFuture queue = .ok (.ok, some head, after) ∧ after.InRange ∧
      after.live = rest := by
  have hcount : queue.length.toNat = rest.length + 1 := by rw [← live_length, front]; rfl
  have nonempty : ¬ queue.length = 0 := by
    intro zero
    rw [zero] at hcount
    simp at hcount
  have shrunk : (queue.length - 1).toNat = rest.length := by
    rw [UInt8.toNat_sub_of_le]
    · simp [hcount]
    · rw [UInt8.le_iff_toNat_le, hcount]
      simp
  have wrapped : (queue.first.toNat + 1) % capacity < capacity :=
    Nat.mod_lt _ (Nat.pos_of_neZero capacity)
  have advanced : (UInt8.ofNat ((queue.first.toNat + 1) % capacity)).toNat =
      (queue.first.toNat + 1) % capacity := by
    rw [UInt8.toNat_ofNat']
    exact Nat.mod_eq_of_lt (by omega)
  have whole := front
  rw [live, hcount, Ring.window_cons] at whole
  obtain ⟨hhead, hrest⟩ := List.cons.inj whole
  refine ⟨{ queue with
    first := UInt8.ofNat ((queue.first.toNat + 1) % capacity)
    length := queue.length - 1 }, ?_, ⟨?_, ?_⟩, ?_⟩
  · unfold popFuture
    rw [if_neg nonempty, load_of_lt inRange.first_lt,
      ← Ring.slot_eq_getElem _ _ inRange.first_lt, hhead]
    rfl
  · rw [advanced]
    exact wrapped
  · change (queue.length - 1).toNat ≤ capacity
    have := inRange.length_le
    omega
  · simp only [live, shrunk, advanced]
    rw [Ring.window_mod]
    exact hrest

/-! ## Calls on a ring that represents an abstract queue -/

section Represented

variable (small : capacity ≤ 255) {queue : FutureQueue capacity}
  {futures after : AbstractFutures capacity} (represents : queue.Represents futures)

include represents

theorem pushFuture_refused (jmp : UInt32) (waitUs nowUs : UInt64)
    (refused : futures.push (pushedEl jmp waitUs nowUs) = none) :
    pushFuture queue jmp waitUs nowUs = .ok (.full, queue) := by
  apply pushFuture_full
  rw [← live_length, represents.live_eq]
  exact (futures.push_eq_none_iff _).mp refused

include small

theorem pushFuture_accepted (jmp : UInt32) (waitUs nowUs : UInt64)
    (accepted : futures.push (pushedEl jmp waitUs nowUs) = some after) :
    ∃ queue', pushFuture queue jmp waitUs nowUs = .ok (.ok, queue') ∧
      queue'.Represents after := by
  have room : queue.length.toNat ≠ capacity := by
    intro full
    rw [← live_length, represents.live_eq] at full
    rw [(futures.push_eq_none_iff _).mpr full] at accepted
    cases accepted
  have sorted : SortedBy FutureQueueEl.due queue.live := by
    rw [represents.live_eq]
    exact futures.contents_sorted
  obtain ⟨queue', hpush, inRange, hlive⟩ :=
    pushFuture_room jmp waitUs nowUs small represents.inRange sorted room
  refine ⟨queue', hpush, inRange, ?_⟩
  rw [hlive, represents.live_eq, BoundedQueue.contents_push accepted]

omit small in
theorem popFuture_refused (refused : futures.pop = none) :
    popFuture queue = .ok (.empty, none, queue) := by
  apply popFuture_empty
  rw [represents.live_eq]
  exact futures.pop_eq_none_iff.mp refused

theorem popFuture_accepted {head : FutureQueueEl} (accepted : futures.pop = some (head, after)) :
    ∃ queue', popFuture queue = .ok (.ok, some head, queue') ∧ queue'.Represents after := by
  have front : queue.live = head :: after.contents := by
    rw [represents.live_eq]
    exact BoundedQueue.contents_pop accepted
  obtain ⟨queue', hpop, inRange, hlive⟩ := popFuture_cons small represents.inRange front
  exact ⟨queue', hpop, inRange, hlive⟩

end Represented

/-! ## Sequences of calls -/

inductive QueueCall where
  | push (jmp : UInt32) (waitUs nowUs : UInt64)
  | pop
  deriving DecidableEq

inductive QueueReply where
  | pushed (status : FutureQStatus)
  | popped (status : FutureQStatus) (el : Option FutureQueueEl)
  deriving DecidableEq

/-- The status of a reply is not `FUTURE_Q_OK`. -/
def QueueReply.Failed : QueueReply → Prop
  | .pushed status => status ≠ .ok
  | .popped status _ => status ≠ .ok

/-- One call on the ring. -/
def answer (queue : FutureQueue capacity) :
    QueueCall → Exec (QueueReply × FutureQueue capacity)
  | .push jmp waitUs nowUs => do
      let (status, after) ← pushFuture queue jmp waitUs nowUs
      return (.pushed status, after)
  | .pop => do
      let (status, el, after) ← popFuture queue
      return (.popped status el, after)

/-- One call on the abstract queue. -/
def abstractAnswer (futures : AbstractFutures capacity) :
    QueueCall → QueueReply × AbstractFutures capacity
  | .push jmp waitUs nowUs =>
      match futures.push (pushedEl jmp waitUs nowUs) with
      | none => (.pushed .full, futures)
      | some after => (.pushed .ok, after)
  | .pop =>
      match futures.pop with
      | none => (.popped .empty none, futures)
      | some (el, after) => (.popped .ok (some el), after)

def answers (queue : FutureQueue capacity) :
    List QueueCall → Exec (List QueueReply × FutureQueue capacity)
  | [] => return ([], queue)
  | call :: calls => do
      let (reply, after) ← answer queue call
      let (replies, last) ← answers after calls
      return (reply :: replies, last)

def abstractAnswers (futures : AbstractFutures capacity) :
    List QueueCall → List QueueReply × AbstractFutures capacity
  | [] => ([], futures)
  | call :: calls =>
      let (reply, after) := abstractAnswer futures call
      let (replies, last) := abstractAnswers after calls
      (reply :: replies, last)

/-- One call: the ring answers as the abstract queue does and keeps
representing it, and a failing call leaves the ring as it was. -/
theorem answer_refines (small : capacity ≤ 255) {queue : FutureQueue capacity}
    {futures : AbstractFutures capacity} (represents : queue.Represents futures)
    (call : QueueCall) :
    ∃ after, answer queue call = .ok ((abstractAnswer futures call).1, after) ∧
      after.Represents (abstractAnswer futures call).2 ∧
      ((abstractAnswer futures call).1.Failed → after = queue) := by
  cases call with
  | push jmp waitUs nowUs =>
      simp only [answer, abstractAnswer]
      cases hpush : futures.push (pushedEl jmp waitUs nowUs) with
      | none =>
          rw [pushFuture_refused represents jmp waitUs nowUs hpush]
          exact ⟨queue, rfl, represents, fun _ => rfl⟩
      | some next =>
          obtain ⟨after, hafter, represents'⟩ :=
            pushFuture_accepted small represents jmp waitUs nowUs hpush
          rw [hafter]
          exact ⟨after, rfl, represents', fun failed => (failed rfl).elim⟩
  | pop =>
      simp only [answer, abstractAnswer]
      cases hpop : futures.pop with
      | none =>
          rw [popFuture_refused represents hpop]
          exact ⟨queue, rfl, represents, fun _ => rfl⟩
      | some taken =>
          obtain ⟨after, hafter, represents'⟩ := popFuture_accepted small represents hpop
          rw [hafter]
          exact ⟨after, rfl, represents', fun failed => (failed rfl).elim⟩

theorem answers_refine (small : capacity ≤ 255) {queue : FutureQueue capacity}
    {futures : AbstractFutures capacity} (represents : queue.Represents futures)
    (calls : List QueueCall) :
    ∃ after, answers queue calls = .ok ((abstractAnswers futures calls).1, after) ∧
      after.Represents (abstractAnswers futures calls).2 := by
  induction calls generalizing queue futures with
  | nil => exact ⟨queue, rfl, represents⟩
  | cons call calls ih =>
      obtain ⟨middle, hmiddle, represents', _⟩ := answer_refines small represents call
      obtain ⟨after, hafter, represents''⟩ := ih represents'
      refine ⟨after, ?_, represents''⟩
      simp only [answers, hmiddle, ok_bind, hafter]
      rfl

/--
Over every sequence of pushes and pops from `init_future_queue` the ring
returns the replies of the bounded stable priority queue, its live window is
the abstract contents, its indices stay in range, and a call that fails
changes nothing.
-/
theorem futureQueue_refines_boundedQueue (small : capacity ≤ 255)
    (memory : FutureQueue capacity) (calls : List QueueCall) :
    ∃ queue, answers (initFutureQueue memory) calls =
        .ok ((abstractAnswers (BoundedQueue.empty : AbstractFutures capacity) calls).1, queue) ∧
      queue.first.toNat < capacity ∧ queue.length.toNat ≤ capacity ∧
      queue.live =
        (abstractAnswers (BoundedQueue.empty : AbstractFutures capacity) calls).2.contents ∧
      ∀ call reply after, answer queue call = .ok (reply, after) → reply.Failed →
        after = queue := by
  obtain ⟨queue, hqueue, represents⟩ :=
    answers_refine small (initFutureQueue_represents memory) calls
  refine ⟨queue, hqueue, represents.inRange.first_lt, represents.inRange.length_le,
    represents.live_eq, ?_⟩
  intro call reply after hanswer failed
  obtain ⟨other, hother, _, unchanged⟩ := answer_refines small represents call
  rw [hother] at hanswer
  cases hanswer
  exact unchanged failed

/-- Two futures due at the same time leave in the order of their pushes. -/
theorem futureQueue_refines_boundedQueue_ties :
    ∃ queue : FutureQueue 10,
      answers (initFutureQueue ⟨7, 3, Vector.replicate 10 ⟨9, 9, 9⟩⟩)
          [.push 1 5 10, .push 2 3 12, .push 3 1 13, .pop, .pop] =
        .ok ([.pushed .ok, .pushed .ok, .pushed .ok, .popped .ok (some ⟨3, 1, 14⟩),
          .popped .ok (some ⟨1, 5, 15⟩)], queue) ∧
      queue.live = [⟨2, 3, 15⟩] := by
  obtain ⟨queue, replies, _, _, contents, _⟩ :=
    futureQueue_refines_boundedQueue (by decide) (⟨7, 3, Vector.replicate 10 ⟨9, 9, 9⟩⟩)
      [.push 1 5 10, .push 2 3 12, .push 3 1 13, .pop, .pop]
  exact ⟨queue, replies, contents⟩

end NetworkCode.Kernel
