import NetworkCode.Library.StableSort

/-!
# Bounded stable priority queues

The abstract queue: at most `bound` entries, each numbered by its insertion,
kept in the order of their keys and, within one key, of their numbers.  The
order, the bound and the freshness of the next number are fields, so every
queue that can be written down is well formed.
-/

namespace NetworkCode.Library

universe u v

variable {α : Type u} {κ : Type v} [LinearOrder κ]

/-- By key, then by insertion number. -/
def Precedes (key : α → κ) (first second : Nat × α) : Prop :=
  key first.2 < key second.2 ∨ (key first.2 = key second.2 ∧ first.1 < second.1)

structure BoundedQueue (key : α → κ) (bound : Nat) where
  entries : List (Nat × α)
  /-- The number of the next insertion. -/
  inserted : Nat
  ordered : entries.Pairwise (Precedes key)
  fresh : ∀ entry ∈ entries, entry.1 < inserted
  fits : entries.length ≤ bound

namespace BoundedQueue

variable {key : α → κ} {bound : Nat}

/-- The queued values, next one first. -/
def contents (queue : BoundedQueue key bound) : List α :=
  queue.entries.map Prod.snd

def empty : BoundedQueue key bound where
  entries := []
  inserted := 0
  ordered := List.Pairwise.nil
  fresh := by simp
  fits := Nat.zero_le _

theorem contents_length (queue : BoundedQueue key bound) :
    queue.contents.length = queue.entries.length := by
  simp [contents]

theorem entries_sorted (queue : BoundedQueue key bound) :
    SortedBy (key ∘ Prod.snd) queue.entries :=
  queue.ordered.imp fun {_ _} precedes => by
    rcases precedes with smaller | ⟨equal, _⟩
    · exact le_of_lt smaller
    · exact le_of_eq equal

theorem contents_sorted (queue : BoundedQueue key bound) : SortedBy key queue.contents :=
  List.pairwise_map.mpr queue.entries_sorted

/-- The order of the entries survives a numbered insertion. -/
theorem insert_ordered (queue : BoundedQueue key bound) (value : α) :
    (insertAfter (key ∘ Prod.snd) (queue.inserted, value) queue.entries).Pairwise
      (Precedes key) := by
  have split := List.takeWhile_append_dropWhile
    (p := fun entry : Nat × α => decide ((key ∘ Prod.snd) entry ≤ key value))
    (l := queue.entries)
  have whole := queue.ordered
  rw [← split, List.pairwise_append] at whole
  obtain ⟨hbefore, hbehind, hcross⟩ := whole
  refine List.pairwise_append.mpr ⟨hbefore, List.pairwise_cons.mpr ⟨?_, hbehind⟩, ?_⟩
  · intro entry member
    exact .inl (queue.entries_sorted.lt_of_mem_dropWhile (key value) member)
  · intro entry before last member
    rcases List.mem_cons.mp member with rfl | behind
    · have notLarger : key entry.2 ≤ key value := by
        simpa using List.mem_takeWhile_imp before
      rcases lt_or_eq_of_le notLarger with smaller | equal
      · exact .inl smaller
      · exact .inr ⟨equal, queue.fresh entry (List.takeWhile_subset _ before)⟩
    · exact hcross entry before last behind

/-- Insert after every entry whose key is not larger; a full queue refuses. -/
def push (queue : BoundedQueue key bound) (value : α) : Option (BoundedQueue key bound) :=
  if h : queue.entries.length < bound then
    some {
      entries := insertAfter (key ∘ Prod.snd) (queue.inserted, value) queue.entries
      inserted := queue.inserted + 1
      ordered := queue.insert_ordered value
      fresh := by
        intro entry member
        rcases mem_insertAfter.mp member with rfl | old
        · exact Nat.lt_succ_self _
        · exact Nat.lt_succ_of_lt (queue.fresh entry old)
      fits := by
        rw [insertAfter_length]
        exact h }
  else
    none

/-- Remove the first entry; an empty queue has none. -/
def pop (queue : BoundedQueue key bound) : Option (α × BoundedQueue key bound) :=
  match queue with
  | ⟨[], _, _, _, _⟩ => none
  | ⟨entry :: rest, inserted, ordered, fresh, fits⟩ =>
      some (entry.2, {
        entries := rest
        inserted := inserted
        ordered := List.Pairwise.of_cons ordered
        fresh := fun other member => fresh other (List.mem_cons_of_mem _ member)
        fits := Nat.le_of_succ_le fits })

theorem push_eq_none_iff (queue : BoundedQueue key bound) (value : α) :
    queue.push value = none ↔ queue.contents.length = bound := by
  have fits := queue.fits
  rw [contents_length, push]
  split
  · simp
    omega
  · simp
    omega

theorem contents_push {queue after : BoundedQueue key bound} {value : α}
    (pushed : queue.push value = some after) :
    after.contents = insertAfter key value queue.contents := by
  unfold push at pushed
  split at pushed
  · cases pushed
    exact map_insertAfter Prod.snd (queue.inserted, value) queue.entries
  · cases pushed

theorem pop_eq_none_iff (queue : BoundedQueue key bound) :
    queue.pop = none ↔ queue.contents = [] := by
  obtain ⟨entries, inserted, ordered, fresh, fits⟩ := queue
  cases entries <;> simp [pop, contents]

theorem contents_pop {queue after : BoundedQueue key bound} {value : α}
    (popped : queue.pop = some (value, after)) :
    queue.contents = value :: after.contents := by
  obtain ⟨entries, inserted, ordered, fresh, fits⟩ := queue
  cases entries with
  | nil => cases popped
  | cons entry rest =>
      cases popped
      rfl

/-- A queue that has just accepted a value is not empty. -/
theorem pop_push {queue after : BoundedQueue key bound} {value : α}
    (pushed : queue.push value = some after) : ∃ head rest, after.pop = some (head, rest) := by
  cases hpop : after.pop with
  | some taken => exact ⟨taken.1, taken.2, rfl⟩
  | none =>
      have contents := contents_push pushed
      rw [after.pop_eq_none_iff.mp hpop] at contents
      have grown := congrArg List.length contents
      rw [insertAfter_length] at grown
      cases grown

end BoundedQueue

end NetworkCode.Library
