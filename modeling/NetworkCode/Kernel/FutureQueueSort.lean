import NetworkCode.Kernel.FutureQueue
import NetworkCode.Library.Ring
import NetworkCode.Library.StableSort

/-!
# The in-place sort of the future queue

Read in ring order, the comparisons of `sort_future_queue` are those of bubble
sort on the live window.  They stay inside the slots, keep both indices and
touch no slot outside the window, so the sort is stable on any contents.
-/

namespace NetworkCode.Kernel

open Library Library.Checked

variable {capacity : Nat}

/-- The key of the queue order. -/
def FutureQueueEl.due (el : FutureQueueEl) : Nat := el.expiry.toNat

namespace FutureQueue

variable [NeZero capacity]

/-- The live window in ring order. -/
def live (queue : FutureQueue capacity) : List FutureQueueEl :=
  Ring.window queue.slots queue.first.toNat queue.length.toNat

/-- The indices stay inside the capacity. -/
structure InRange (queue : FutureQueue capacity) : Prop where
  first_lt : queue.first.toNat < capacity
  length_le : queue.length.toNat ≤ capacity

@[simp] theorem live_length (queue : FutureQueue capacity) :
    queue.live.length = queue.length.toNat := by
  simp [live]

/-- `other` is `queue` with its live window replaced by `window`. -/
structure Rearranged (queue : FutureQueue capacity) (window : List FutureQueueEl)
    (other : FutureQueue capacity) : Prop where
  first_eq : other.first = queue.first
  length_eq : other.length = queue.length
  live_eq : other.live = window
  outside : ∀ index < capacity,
    (∀ offset < queue.length.toNat, (queue.first.toNat + offset) % capacity ≠ index) →
      Ring.slot other.slots index = Ring.slot queue.slots index

theorem Rearranged.refl (queue : FutureQueue capacity) :
    Rearranged queue queue.live queue :=
  ⟨rfl, rfl, rfl, fun _ _ _ => rfl⟩

theorem Rearranged.trans {first second third : FutureQueue capacity}
    {middle final : List FutureQueueEl} (left : Rearranged first middle second)
    (right : Rearranged second final third) : Rearranged first final third := by
  refine ⟨right.first_eq.trans left.first_eq, right.length_eq.trans left.length_eq,
    right.live_eq, fun index bound beside => ?_⟩
  rw [right.outside index bound, left.outside index bound beside]
  rw [left.first_eq, left.length_eq]
  exact beside

end FutureQueue

open FutureQueue

variable [NeZero capacity]

theorem load_position (queue : FutureQueue capacity) (position : Nat) :
    load (.outOfBounds .futures) queue.slots (position % capacity) =
      (.ok (Ring.slot queue.slots position) : Exec FutureQueueEl) := by
  have inside : position % capacity < capacity := Nat.mod_lt _ (Nat.pos_of_neZero capacity)
  rw [load_of_lt inside, ← Ring.slot_eq_getElem _ _ inside, Ring.slot_mod]

/-- One comparison in the ring is one comparison in the window. -/
theorem compareSwap_spec (queue : FutureQueue capacity) (j : Nat)
    (fits : queue.length.toNat ≤ capacity) (bound : j + 1 < queue.length.toNat) :
    ∃ other, compareSwap queue j = .ok other ∧
      Rearranged queue (bubbleStep FutureQueueEl.due queue.live j) other := by
  have inWindow : j + 1 < queue.live.length := by simpa using bound
  have inside (position : Nat) : position % capacity < capacity :=
    Nat.mod_lt _ (Nat.pos_of_neZero capacity)
  have hleft : queue.live[j] = Ring.slot queue.slots (queue.first.toNat + j) := by
    simp [live]
  have hright : queue.live[j + 1] = Ring.slot queue.slots (queue.first.toNat + j + 1) := by
    simp [live, Nat.add_assoc]
  unfold compareSwap bubbleStep
  simp only [load_position, ok_bind, inWindow, dite_true, hleft, hright,
    FutureQueueEl.due, gt_iff_lt, UInt64.lt_iff_toNat_lt]
  split
  · simp only [store_of_lt (inside _), ok_bind, pure_eq_ok]
    refine ⟨_, rfl, rfl, rfl, ?_, ?_⟩
    · simp only [live]
      rw [Ring.window_set_inside _ _ _ _ _ (by omega) fits (inside _), Nat.add_assoc,
        Ring.window_set_inside _ _ _ _ _ bound fits (inside _)]
    · intro index hindex beside
      have hj := beside j (by omega)
      have hj1 := beside (j + 1) bound
      rw [← Nat.add_assoc] at hj1
      rw [Ring.slot_set _ _ _ _ (inside _), Ring.slot_set _ _ _ _ (inside _),
        Nat.mod_eq_of_lt hindex, if_neg (Ne.symm hj), if_neg (Ne.symm hj1)]
  · exact ⟨queue, rfl, Rearranged.refl queue⟩

/-- Any comparisons inside the window, one after the other. -/
theorem compareSwaps_spec (queue : FutureQueue capacity) (offsets : List Nat)
    (fits : queue.length.toNat ≤ capacity)
    (bound : ∀ j ∈ offsets, j + 1 < queue.length.toNat) :
    ∃ other, offsets.foldlM compareSwap queue = .ok other ∧
      Rearranged queue (offsets.foldl (bubbleStep FutureQueueEl.due) queue.live) other := by
  induction offsets generalizing queue with
  | nil => exact ⟨queue, rfl, Rearranged.refl queue⟩
  | cons j offsets ih =>
      obtain ⟨inFront, behind⟩ := List.forall_mem_cons.mp bound
      obtain ⟨middle, swapped, first⟩ := compareSwap_spec queue j fits inFront
      rw [← first.length_eq] at fits behind
      obtain ⟨last, done, second⟩ := ih middle fits behind
      rw [first.live_eq] at second
      refine ⟨last, ?_, first.trans second⟩
      rw [List.foldlM_cons, swapped]
      exact done

omit [NeZero capacity] in
/-- The two loops of `sort_future_queue` compare at the offsets of bubble sort. -/
theorem sortFutureQueue_eq_foldlM (queue : FutureQueue capacity) :
    sortFutureQueue queue = (bubbleOffsets queue.length.toNat).foldlM compareSwap queue := by
  rw [bubbleOffsets, foldlM_flatMap]
  rfl

/-- `sort_future_queue` bubble-sorts the window and changes nothing else. -/
theorem sortFutureQueue_spec (queue : FutureQueue capacity)
    (fits : queue.length.toNat ≤ capacity) :
    ∃ other, sortFutureQueue queue = .ok other ∧
      Rearranged queue (bubbleSort FutureQueueEl.due queue.live) other := by
  rw [sortFutureQueue_eq_foldlM, bubbleSort_eq_foldl, live_length]
  exact compareSwaps_spec queue _ fits fun _ => succ_lt_of_mem_bubbleOffsets

/-- The slots that the sort touches: `jx` and `jxp` of each comparison. -/
def FutureQueue.touched (queue : FutureQueue capacity) : List Nat :=
  (bubbleOffsets queue.length.toNat).flatMap fun j =>
    [(queue.first.toNat + j) % capacity, (queue.first.toNat + j + 1) % capacity]

omit [NeZero capacity] in
/-- The sort touches slots of the live window only. -/
theorem touched_inWindow {queue : FutureQueue capacity} {index : Nat}
    (member : index ∈ queue.touched) :
    ∃ offset < queue.length.toNat, (queue.first.toNat + offset) % capacity = index := by
  obtain ⟨j, compared, atComparison⟩ := List.mem_flatMap.mp member
  have bound := succ_lt_of_mem_bubbleOffsets compared
  rcases List.mem_pair.mp atComparison with rfl | rfl
  · exact ⟨j, by omega, rfl⟩
  · exact ⟨j + 1, bound, rfl⟩

/--
`sort_future_queue` sorts the live window in place and keeps entries with the
same expiry in their order.  The contents are arbitrary, and the sort returns:
no load and no store of it is outside the slots.
-/
theorem sortFutureQueue_stable (queue : FutureQueue capacity)
    (fits : queue.length.toNat ≤ capacity) :
    ∃ after, sortFutureQueue queue = .ok after ∧
      after.live.Perm queue.live ∧
      SortedBy FutureQueueEl.due after.live ∧
      SameTies FutureQueueEl.due after.live queue.live ∧
      after.first = queue.first ∧ after.length = queue.length ∧
      (∀ (index : Nat) (bound : index < capacity),
        (∀ offset < queue.length.toNat, (queue.first.toNat + offset) % capacity ≠ index) →
          after.slots[index] = queue.slots[index]) ∧
      ∀ index ∈ queue.touched, index < capacity := by
  obtain ⟨after, sorted, rearranged⟩ := sortFutureQueue_spec queue fits
  refine ⟨after, sorted, ?_, ?_, ?_, rearranged.first_eq, rearranged.length_eq, ?_, ?_⟩
  · rw [rearranged.live_eq]
    exact bubbleSort_perm _ _
  · rw [rearranged.live_eq]
    exact bubbleSort_sorted _
  · rw [rearranged.live_eq]
    exact bubbleSort_sameTies _
  · intro index bound beside
    have kept := rearranged.outside index bound beside
    rwa [Ring.slot_eq_getElem _ _ bound, Ring.slot_eq_getElem _ _ bound] at kept
  · intro index member
    obtain ⟨offset, _, rfl⟩ := touched_inWindow member
    exact Nat.mod_lt _ (Nat.pos_of_neZero capacity)

/-- A window that wraps around the ring, with two entries due at the same time. -/
theorem sortFutureQueue_stable_wrapped :
    ∃ after : FutureQueue 4,
      sortFutureQueue ⟨3, 3, #v[⟨2, 0, 10⟩, ⟨3, 0, 5⟩, ⟨9, 9, 7⟩, ⟨1, 0, 10⟩]⟩ = .ok after ∧
      SortedBy FutureQueueEl.due after.live ∧
      SameTies FutureQueueEl.due after.live [⟨1, 0, 10⟩, ⟨2, 0, 10⟩, ⟨3, 0, 5⟩] ∧
      after.slots.toList = [⟨1, 0, 10⟩, ⟨2, 0, 10⟩, ⟨9, 9, 7⟩, ⟨3, 0, 5⟩] := by
  obtain ⟨after, run, _, sorted, ties, _⟩ := sortFutureQueue_stable
    (⟨3, 3, #v[⟨2, 0, 10⟩, ⟨3, 0, 5⟩, ⟨9, 9, 7⟩, ⟨1, 0, 10⟩]⟩ : FutureQueue 4) (by decide)
  refine ⟨after, run, sorted, ties, ?_⟩
  have result : sortFutureQueue
      (⟨3, 3, #v[⟨2, 0, 10⟩, ⟨3, 0, 5⟩, ⟨9, 9, 7⟩, ⟨1, 0, 10⟩]⟩ : FutureQueue 4) =
        .ok ⟨3, 3, #v[⟨1, 0, 10⟩, ⟨2, 0, 10⟩, ⟨9, 9, 7⟩, ⟨3, 0, 5⟩]⟩ := rfl
  cases run.symm.trans result
  rfl

end NetworkCode.Kernel
