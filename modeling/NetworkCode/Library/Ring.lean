import Mathlib.Data.Nat.ModEq

/-!
# Windows of a ring buffer

A window lists the slots `first, first + 1, ..., first + count - 1` taken
modulo the capacity.  Positions below the capacity name pairwise different
slots, so a write through the window changes one position of the list, and a
write beside it changes none.
-/

namespace NetworkCode.Library.Ring

universe u

variable {α : Type u} {capacity : Nat}

theorem position_injective {first left right : Nat} (hleft : left < capacity)
    (hright : right < capacity)
    (same : (first + left) % capacity = (first + right) % capacity) : left = right := by
  have congruent : left ≡ right [MOD capacity] := Nat.ModEq.add_left_cancel' first same
  rwa [Nat.ModEq, Nat.mod_eq_of_lt hleft, Nat.mod_eq_of_lt hright] at congruent

variable [NeZero capacity]

/-- The slot that a position names, wrapped around the ring. -/
def slot (slots : Vector α capacity) (position : Nat) : α :=
  slots.get (Fin.ofNat capacity position)

/-- The slots of the window in ring order. -/
def window (slots : Vector α capacity) (first count : Nat) : List α :=
  (List.range count).map fun offset => slot slots (first + offset)

theorem slot_mod (slots : Vector α capacity) (position : Nat) :
    slot slots (position % capacity) = slot slots position := by
  simp [slot, Fin.ofNat]

theorem slot_eq_getElem (slots : Vector α capacity) (position : Nat)
    (bound : position < capacity) : slot slots position = slots[position] := by
  simp [slot, Fin.ofNat, Vector.get, Nat.mod_eq_of_lt bound]

theorem slot_set (slots : Vector α capacity) (index position : Nat) (value : α)
    (bound : index < capacity) :
    slot (slots.set index value) position =
      if position % capacity = index then value else slot slots position := by
  rw [← slot_mod, ← slot_mod slots position]
  have inside : position % capacity < capacity := Nat.mod_lt _ (Nat.pos_of_neZero capacity)
  rw [slot_eq_getElem _ _ inside, slot_eq_getElem _ _ inside, Vector.getElem_set]
  simp only [eq_comm]

@[simp] theorem window_length (slots : Vector α capacity) (first count : Nat) :
    (window slots first count).length = count := by
  simp [window]

@[simp] theorem window_getElem (slots : Vector α capacity) (first count offset : Nat)
    (bound : offset < (window slots first count).length) :
    (window slots first count)[offset] = slot slots (first + offset) := by
  simp [window]

theorem window_succ (slots : Vector α capacity) (first count : Nat) :
    window slots first (count + 1) = window slots first count ++ [slot slots (first + count)] := by
  simp [window, List.range_succ]

/-- Dropping the front slot advances the first position. -/
theorem window_cons (slots : Vector α capacity) (first count : Nat) :
    window slots first (count + 1) = slot slots first :: window slots (first + 1) count := by
  simp [window, List.range_succ_eq_map, Function.comp_def, Nat.add_assoc, Nat.add_comm 1]

theorem window_mod (slots : Vector α capacity) (first count : Nat) :
    window slots (first % capacity) count = window slots first count := by
  refine List.map_congr_left fun offset _ => ?_
  rw [← slot_mod, Nat.mod_add_mod, slot_mod]

/-- A write through a position of the window changes that position of the list. -/
theorem window_set_inside (slots : Vector α capacity) (first count offset : Nat) (value : α)
    (bound : offset < count) (fits : count ≤ capacity)
    (inside : (first + offset) % capacity < capacity) :
    window (slots.set ((first + offset) % capacity) value) first count =
      (window slots first count).set offset value := by
  refine List.ext_getElem (by simp) fun index hindex _ => ?_
  have hcount : index < count := by simpa using hindex
  rw [window_getElem, slot_set _ _ _ _ inside, List.getElem_set]
  by_cases same : offset = index
  · simp [same]
  · have apart : ¬ (first + index) % capacity = (first + offset) % capacity := fun equal =>
      same (position_injective (by omega) (by omega) equal.symm)
    simp [same, apart]

/-- A write to a slot outside the window leaves the list as it was. -/
theorem window_set_outside (slots : Vector α capacity) (first count index : Nat) (value : α)
    (bound : index < capacity)
    (outside : ∀ offset < count, (first + offset) % capacity ≠ index) :
    window (slots.set index value) first count = window slots first count := by
  refine List.map_congr_left fun offset member => ?_
  rw [slot_set _ _ _ _ bound, if_neg (outside offset (List.mem_range.mp member))]

/-- Writing the slot after the window and growing it appends to the list. -/
theorem window_push (slots : Vector α capacity) (first count : Nat) (value : α)
    (room : count < capacity) (inside : (first + count) % capacity < capacity) :
    window (slots.set ((first + count) % capacity) value) first (count + 1) =
      window slots first count ++ [value] := by
  rw [window_succ, window_set_outside _ _ _ _ _ inside, slot_set _ _ _ _ inside]
  · simp
  · intro offset hoffset equal
    have := position_injective (by omega) room equal
    omega

end NetworkCode.Library.Ring
