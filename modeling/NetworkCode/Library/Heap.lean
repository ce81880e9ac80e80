import Mathlib.Logic.Function.Basic

/-!
# Blocks of memory and the pointers that own them

A heap maps the addresses of its live blocks to their contents.  Pointers own
their blocks when each block is live and no two pointers share one; to release
or to replace the block of one pointer then leaves the others alone.
-/

namespace NetworkCode.Library

universe u v w

/-- A pointer to a block.  A request for no storage returns `zeroSize`, which
may be released any number of times. -/
inductive Ptr (α : Type u) where
  | null
  | zeroSize
  | block (address : α)
  deriving DecidableEq

/-- The contents of the live blocks. -/
structure Heap (α : Type u) (β : Type v) where
  read : α → Option (List β)

namespace Heap

variable {α : Type u} {β : Type v}

def empty : Heap α β := ⟨fun _ => none⟩

/-- What a pointer refers to; nothing for a null or a dangling pointer. -/
def contents (heap : Heap α β) : Ptr α → Option (List β)
  | .null => none
  | .zeroSize => some []
  | .block address => heap.read address

@[simp] theorem contents_null (heap : Heap α β) : heap.contents .null = none := rfl

theorem contents_block (heap : Heap α β) (address : α) :
    heap.contents (.block address) = heap.read address := rfl

/-- Each pointer of the group that is set has a live block of its own. -/
structure Owns {ι : Type w} (heap : Heap α β) (roots : ι → Ptr α) : Prop where
  live : ∀ root, roots root ≠ .null → heap.contents (roots root) ≠ none
  apart : ∀ root other address, roots root = .block address → roots other = .block address →
    root = other

namespace Owns

variable {ι : Type w} {heap : Heap α β} {roots : ι → Ptr α}

theorem of_null (heap : Heap α β) (null : ∀ root, roots root = .null) : heap.Owns roots where
  live root set := (set (null root)).elim
  apart root other address held _ := by
    rw [null root] at held
    cases held

theorem contents_eq_none_iff (owns : heap.Owns roots) (root : ι) :
    heap.contents (roots root) = none ↔ roots root = .null := by
  constructor
  · intro nothing
    by_contra set
    exact owns.live root set nothing
  · intro null
    rw [null, contents_null]

end Owns

variable [DecidableEq α]

/-- Release a block, unless the pointer dangles. -/
def free (heap : Heap α β) : Ptr α → Option (Heap α β)
  | .null | .zeroSize => some heap
  | .block address =>
      if (heap.read address).isSome then some ⟨Function.update heap.read address none⟩ else none

/-- A block with the given contents at an address that the allocator chooses,
unless the address is in use. -/
def alloc (heap : Heap α β) (address : α) (data : List β) : Option (Heap α β × Ptr α) :=
  if data.isEmpty then some (heap, .zeroSize)
  else if (heap.read address).isSome then none
  else some (⟨Function.update heap.read address (some data)⟩, .block address)

section Alloc

variable {heap after : Heap α β} {address : α} {data : List β} {ptr : Ptr α}

/-- An allocation takes no storage or an address that is not in use. -/
theorem alloc_cases (done : heap.alloc address data = some (after, ptr)) :
    (data = [] ∧ after = heap ∧ ptr = .zeroSize) ∨
      (heap.read address = none ∧
        after = ⟨Function.update heap.read address (some data)⟩ ∧ ptr = .block address) := by
  unfold alloc at done
  split at done
  · next nothing =>
      cases done
      exact .inl ⟨List.isEmpty_iff.mp nothing, rfl, rfl⟩
  · split at done
    · cases done
    · next unused =>
        cases done
        exact .inr ⟨Option.not_isSome_iff_eq_none.mp unused, rfl, rfl⟩

theorem contents_alloc (done : heap.alloc address data = some (after, ptr)) :
    after.contents ptr = some data := by
  rcases alloc_cases done with ⟨rfl, rfl, rfl⟩ | ⟨_, rfl, rfl⟩
  · rfl
  · exact Function.update_self _ _ _

/-- What a pointer refers to before an allocation it refers to afterwards. -/
theorem contents_alloc_of_live (done : heap.alloc address data = some (after, ptr))
    {other : Ptr α} (live : heap.contents other ≠ none) :
    after.contents other = heap.contents other := by
  rcases alloc_cases done with ⟨_, rfl, _⟩ | ⟨unused, rfl, _⟩
  · rfl
  · cases other with
    | null => rfl
    | zeroSize => rfl
    | block address' =>
        have distinct : address' ≠ address := by
          rintro rfl
          exact live unused
        exact Function.update_of_ne distinct _ _

end Alloc

namespace Owns

variable {ι : Type w} {heap : Heap α β} {roots : ι → Ptr α}

variable {after : Heap α β} {address : α} {data : List β} {ptr : Ptr α}

/-- An allocation leaves the blocks of the group alone. -/
theorem contents_alloc (owns : heap.Owns roots)
    (done : heap.alloc address data = some (after, ptr)) (other : ι) :
    after.contents (roots other) = heap.contents (roots other) := by
  by_cases null : roots other = .null
  · rw [null, contents_null, contents_null]
  · exact contents_alloc_of_live done (owns.live other null)

variable [DecidableEq ι]

/-- Releasing the block of a pointer and forgetting the pointer. -/
theorem free (owns : heap.Owns roots) (root : ι) :
    ∃ after, heap.free (roots root) = some after ∧
      after.Owns (Function.update roots root .null) ∧
      ∀ other, other ≠ root → after.contents (roots other) = heap.contents (roots other) := by
  have forget (after : Heap α β)
      (kept : ∀ other, other ≠ root → after.contents (roots other) = heap.contents (roots other)) :
      after.Owns (Function.update roots root .null) := by
    constructor
    · intro other set
      have distinct : other ≠ root := by
        rintro rfl
        exact set (Function.update_self _ _ _)
      rw [Function.update_of_ne distinct] at set ⊢
      rw [kept other distinct]
      exact owns.live other set
    · intro first second address hfirst hsecond
      have distinct {other : ι} (held : Function.update roots root .null other = .block address) :
          other ≠ root := by
        rintro rfl
        rw [Function.update_self] at held
        cases held
      rw [Function.update_of_ne (distinct hfirst)] at hfirst
      rw [Function.update_of_ne (distinct hsecond)] at hsecond
      exact owns.apart first second address hfirst hsecond
  cases held : roots root with
  | null => exact ⟨heap, rfl, forget heap fun _ _ => rfl, fun _ _ => rfl⟩
  | zeroSize => exact ⟨heap, rfl, forget heap fun _ _ => rfl, fun _ _ => rfl⟩
  | block address =>
      have live := owns.live root (by rw [held]; nofun)
      rw [held, contents_block] at live
      have kept (other : ι) (distinct : other ≠ root) :
          (⟨Function.update heap.read address none⟩ : Heap α β).contents (roots other) =
            heap.contents (roots other) := by
        cases held' : roots other with
        | null => rfl
        | zeroSize => rfl
        | block address' =>
            have elsewhere : address' ≠ address := by
              rintro rfl
              exact distinct (owns.apart other root _ held' held)
            exact Function.update_of_ne elsewhere _ _
      exact ⟨_, if_pos (Option.isSome_iff_ne_none.mpr live), forget _ kept, kept⟩

/-- Storing a new block in a pointer that is not set. -/
theorem alloc (owns : heap.Owns roots)
    (done : heap.alloc address data = some (after, ptr)) {root : ι} (vacant : roots root = .null) :
    after.Owns (Function.update roots root ptr) := by
  -- the new block is at no address that the group holds
  have fresh (other : ι) (address' : α) (new : ptr = .block address')
      (held : roots other = .block address') : False := by
    rcases alloc_cases done with ⟨_, _, rfl⟩ | ⟨unused, _, rfl⟩
    · cases new
    · cases new
      have live := owns.live other (by rw [held]; nofun)
      rw [held] at live
      exact live unused
  constructor
  · intro other set
    by_cases same : other = root
    · subst same
      rw [Function.update_self, Heap.contents_alloc done]
      exact Option.some_ne_none _
    · rw [Function.update_of_ne same] at set ⊢
      rw [owns.contents_alloc done other]
      exact owns.live other set
  · intro first second address' hfirst hsecond
    by_cases hroot : first = root <;> by_cases hroot' : second = root
    · rw [hroot, hroot']
    · subst hroot
      rw [Function.update_self] at hfirst
      rw [Function.update_of_ne hroot'] at hsecond
      exact (fresh second address' hfirst hsecond).elim
    · subst hroot'
      rw [Function.update_self] at hsecond
      rw [Function.update_of_ne hroot] at hfirst
      exact (fresh first address' hsecond hfirst).elim
    · rw [Function.update_of_ne hroot] at hfirst
      rw [Function.update_of_ne hroot'] at hsecond
      exact owns.apart first second address' hfirst hsecond

end Owns

/-! ## Accounts -/

theorem read_update_self (heap : Heap α β) (address : α) (block : Option (List β)) :
    (⟨Function.update heap.read address block⟩ : Heap α β).read address = block :=
  Function.update_self _ _ _

theorem read_update_of_ne {other address : α} (heap : Heap α β) (distinct : other ≠ address)
    (block : Option (List β)) :
    (⟨Function.update heap.read address block⟩ : Heap α β).read other = heap.read other :=
  Function.update_of_ne distinct _ _

/-- Every live block belongs to one of the owners, and each owner's block is live. -/
def Accounted (heap : Heap α β) (owners : List (Ptr α)) : Prop :=
  ∀ address, owners.count (.block address) = if (heap.read address).isSome then 1 else 0

theorem accounted_empty : (empty : Heap α β).Accounted [] := fun _ => rfl

namespace Accounted

variable {heap after : Heap α β} {owners others : List (Ptr α)} {address : α} {data : List β}
  {ptr : Ptr α}

theorem perm (accounted : heap.Accounted owners) (same : owners.Perm others) :
    heap.Accounted others := fun address => (same.count_eq _).symm.trans (accounted address)

theorem live_iff (accounted : heap.Accounted owners) :
    (heap.read address).isSome = true ↔ .block address ∈ owners := by
  rw [← List.count_pos_iff, accounted address]
  split
  · next live => simp [live]
  · next dead => simp [dead]

theorem null (accounted : heap.Accounted owners) : heap.Accounted (.null :: owners) := by
  intro address
  rw [List.count_cons_of_ne (by simp)]
  exact accounted address

/-- A new block belongs to its pointer. -/
theorem alloc (accounted : heap.Accounted owners)
    (done : heap.alloc address data = some (after, ptr)) : after.Accounted (ptr :: owners) := by
  intro other
  have before := accounted other
  rcases alloc_cases done with ⟨_, rfl, rfl⟩ | ⟨unused, rfl, rfl⟩
  · rw [List.count_cons_of_ne (by simp)]
    exact before
  · by_cases same : other = address
    · subst same
      rw [unused] at before
      rw [List.count_cons_self, before, read_update_self]
      rfl
    · rw [List.count_cons_of_ne (by simpa using Ne.symm same), before,
        read_update_of_ne heap same]

/-- A block that is released leaves the accounts. -/
theorem free (accounted : heap.Accounted (ptr :: owners)) :
    ∃ after, heap.free ptr = some after ∧ after.Accounted owners := by
  cases ptr with
  | null | zeroSize =>
      refine ⟨heap, rfl, fun other => ?_⟩
      have before := accounted other
      rw [List.count_cons_of_ne (by simp)] at before
      exact before
  | block address =>
      have live : (heap.read address).isSome = true := accounted.live_iff.mpr List.mem_cons_self
      refine ⟨_, if_pos live, fun other => ?_⟩
      have before := accounted other
      by_cases same : other = address
      · subst same
        rw [List.count_cons_self, if_pos live] at before
        rw [read_update_self, Nat.succ.inj before]
        rfl
      · rw [List.count_cons_of_ne (by simpa using Ne.symm same)] at before
        rw [before, read_update_of_ne heap same]

theorem freed (accounted : heap.Accounted (ptr :: owners)) (done : heap.free ptr = some after) :
    after.Accounted owners := by
  obtain ⟨other, done', accounted'⟩ := accounted.free
  cases done.symm.trans done'
  exact accounted'

end Accounted

end Heap

end NetworkCode.Library
