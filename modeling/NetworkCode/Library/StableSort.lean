import Mathlib.Data.List.Sort
import Mathlib.Data.List.TakeWhile

/-!
# Bubble sort and stable insertion by a key

Two lists have the same ties when, for every key, they list the elements of
that key in the same order.  A list sorted by its keys is determined by its
ties, so bubble sort, which exchanges only neighbours with different keys, is
the stable sort, and sorting after an append is a stable insertion.
-/

namespace NetworkCode.Library

universe u v

variable {α : Type u} {κ : Type v} [LinearOrder κ] (key : α → κ)

/-- The keys never decrease along the list. -/
def SortedBy (list : List α) : Prop :=
  list.Pairwise fun first second => key first ≤ key second

/-- Both lists hold the elements of each key in the same order. -/
def SameTies (first second : List α) : Prop :=
  ∀ value, first.filter (fun entry => key entry = value) =
    second.filter (fun entry => key entry = value)

namespace SameTies

variable {key}

theorem refl (list : List α) : SameTies key list list := fun _ => rfl

theorem symm {first second : List α} (same : SameTies key first second) :
    SameTies key second first := fun value => (same value).symm

theorem trans {first second third : List α} (left : SameTies key first second)
    (right : SameTies key second third) : SameTies key first third :=
  fun value => (left value).trans (right value)

theorem mem_key {first second : List α} (same : SameTies key first second)
    {entry : α} (member : entry ∈ first) :
    ∃ other ∈ second, key other = key entry := by
  have inside : entry ∈ first.filter (fun other => key other = key entry) := by
    simp [member]
  rw [same (key entry)] at inside
  obtain ⟨other, _⟩ := List.mem_filter.mp inside
  exact ⟨entry, other, rfl⟩

theorem tail {entry : α} {first second : List α}
    (same : SameTies key (entry :: first) (entry :: second)) :
    SameTies key first second := by
  intro value
  have whole := same value
  by_cases hvalue : key entry = value
  · simpa [hvalue] using whole
  · simpa [hvalue] using whole

end SameTies

variable {key}

/-- A sorted list is determined by the order of its ties. -/
theorem SortedBy.eq_of_sameTies {first second : List α} (hfirst : SortedBy key first)
    (hsecond : SortedBy key second) (same : SameTies key first second) :
    first = second := by
  induction first generalizing second with
  | nil =>
      cases second with
      | nil => rfl
      | cons entry rest =>
          obtain ⟨other, member, _⟩ := same.symm.mem_key (List.mem_cons_self (a := entry))
          cases member
  | cons head tail ih =>
      cases second with
      | nil =>
          obtain ⟨other, member, _⟩ := same.mem_key (List.mem_cons_self (a := head))
          cases member
      | cons front rest =>
          have hle : key head ≤ key front := by
            obtain ⟨other, member, hkey⟩ := same.symm.mem_key (List.mem_cons_self (a := front))
            rw [← hkey]
            rcases List.mem_cons.mp member with rfl | inTail
            · exact le_refl _
            · exact List.rel_of_pairwise_cons hfirst inTail
          have hge : key front ≤ key head := by
            obtain ⟨other, member, hkey⟩ := same.mem_key (List.mem_cons_self (a := head))
            rw [← hkey]
            rcases List.mem_cons.mp member with rfl | inTail
            · exact le_refl _
            · exact List.rel_of_pairwise_cons hsecond inTail
          have hkeys : key front = key head := le_antisymm hge hle
          -- both fronts are the first element of the same tie
          have hties := same (key head)
          simp only [List.filter_cons, hkeys, decide_true, ite_true, List.cons.injEq] at hties
          obtain ⟨rfl, _⟩ := hties
          rw [ih (List.Pairwise.of_cons hfirst) (List.Pairwise.of_cons hsecond) same.tail]

/-! ## Bubble sort -/

variable (key)

/-- Exchange positions `index` and `index + 1` when their keys are out of order. -/
def bubbleStep (list : List α) (index : Nat) : List α :=
  if h : index + 1 < list.length then
    if key list[index + 1] < key list[index] then
      (list.set (index + 1) list[index]).set index list[index + 1]
    else list
  else list

/-- The comparisons at positions `0, 1, ..., count - 1`. -/
def bubblePass (list : List α) (count : Nat) : List α :=
  (List.range count).foldl (bubbleStep key) list

/-- Passes of decreasing length. -/
def bubbleSort (list : List α) : List α :=
  (List.range (list.length - 1)).foldl
    (fun current pass => bubblePass key current (list.length - pass - 1)) list

/-- The positions that bubble sort compares with the ones behind them, pass by pass. -/
def bubbleOffsets (length : Nat) : List Nat :=
  (List.range (length - 1)).flatMap fun pass => List.range (length - pass - 1)

theorem bubbleSort_eq_foldl (list : List α) :
    bubbleSort key list = (bubbleOffsets list.length).foldl (bubbleStep key) list := by
  rw [bubbleOffsets, List.foldl_flatMap]
  rfl

theorem succ_lt_of_mem_bubbleOffsets {length offset : Nat}
    (member : offset ∈ bubbleOffsets length) : offset + 1 < length := by
  obtain ⟨pass, _, inPass⟩ := List.mem_flatMap.mp member
  have bound := List.mem_range.mp inPass
  omega

variable {key}

/-- One comparison on a list split at the compared neighbours. -/
theorem bubbleStep_split (front : List α) (left right : α) (rest : List α) :
    bubbleStep key (front ++ left :: right :: rest) front.length =
      if key right < key left then front ++ right :: left :: rest
      else front ++ left :: right :: rest := by
  simp [bubbleStep]

/-- A comparison inside the list splits it at its two neighbours. -/
theorem exists_split {list : List α} {index : Nat} (bound : index + 1 < list.length) :
    ∃ front left right rest, list = front ++ left :: right :: rest ∧
      front.length = index := by
  refine ⟨list.take index, list[index], list[index + 1], list.drop (index + 2), ?_, ?_⟩
  · rw [← List.drop_eq_getElem_cons bound, ← List.drop_eq_getElem_cons (by omega),
      List.take_append_drop]
  · rw [List.length_take]
    omega

theorem bubbleStep_perm (list : List α) (index : Nat) :
    (bubbleStep key list index).Perm list := by
  by_cases bound : index + 1 < list.length
  · obtain ⟨front, left, right, rest, rfl, rfl⟩ := exists_split bound
    rw [bubbleStep_split]
    split
    · exact List.Perm.append_left front (List.Perm.swap left right rest)
    · exact List.Perm.refl _
  · simp [bubbleStep, bound]

/-- Only neighbours with different keys are exchanged. -/
theorem bubbleStep_sameTies (list : List α) (index : Nat) :
    SameTies key (bubbleStep key list index) list := by
  by_cases bound : index + 1 < list.length
  · obtain ⟨front, left, right, rest, rfl, rfl⟩ := exists_split bound
    rw [bubbleStep_split]
    split
    · rename_i outOfOrder
      intro value
      by_cases hleft : key left = value
      · have hright : ¬ key right = value := by
          rw [← hleft]
          exact ne_of_lt outOfOrder
        simp [hleft, hright]
      · simp [List.filter_cons, hleft]
    · exact SameTies.refl _
  · simp only [bubbleStep, bound, dite_false]
    exact SameTies.refl _

theorem bubblePass_succ (list : List α) (count : Nat) :
    bubblePass key list (count + 1) = bubbleStep key (bubblePass key list count) count := by
  simp [bubblePass, List.range_succ]

variable (key) in
theorem bubblePass_perm (list : List α) (count : Nat) :
    (bubblePass key list count).Perm list := by
  induction count with
  | zero => exact List.Perm.refl _
  | succ count ih =>
      rw [bubblePass_succ]
      exact (bubbleStep_perm _ _).trans ih

theorem bubblePass_sameTies (list : List α) (count : Nat) :
    SameTies key (bubblePass key list count) list := by
  induction count with
  | zero => exact SameTies.refl _
  | succ count ih =>
      rw [bubblePass_succ]
      exact (bubbleStep_sameTies _ _).trans ih

variable (key) in
/-- After `count` comparisons position `count` holds a largest key of the
positions up to it, and the later positions are untouched. -/
theorem bubblePass_carries (list : List α) (count : Nat) (bound : count < list.length) :
    ∃ front largest, bubblePass key list count = front ++ largest :: list.drop (count + 1) ∧
      front.length = count ∧ ∀ entry ∈ front, key entry ≤ key largest := by
  induction count with
  | zero =>
      refine ⟨[], list[0], ?_, rfl, by simp⟩
      simpa [bubblePass] using (List.drop_eq_getElem_cons (i := 0) bound)
  | succ count ih =>
      obtain ⟨front, largest, hpass, rfl, hlargest⟩ := ih (by omega)
      rw [bubblePass_succ, hpass, List.drop_eq_getElem_cons bound, bubbleStep_split]
      split
      · rename_i smaller
        refine ⟨front ++ [list[front.length + 1]], largest, by simp, by simp, ?_⟩
        intro entry member
        rcases List.mem_append.mp member with inFront | last
        · exact hlargest entry inFront
        · rw [List.mem_singleton.mp last]
          exact le_of_lt smaller
      · rename_i notSmaller
        refine ⟨front ++ [largest], list[front.length + 1], by simp, by simp, ?_⟩
        intro entry member
        have hle : key largest ≤ key list[front.length + 1] := le_of_not_gt notSmaller
        rcases List.mem_append.mp member with inFront | last
        · exact (hlargest entry inFront).trans hle
        · rw [List.mem_singleton.mp last]
          exact hle

variable (key) in
/-- The part already sorted by the first passes: it lies at the end, is sorted,
and no key before it is larger than a key in it. -/
def SettledSuffix (list : List α) (count : Nat) : Prop :=
  ∃ front settled, list = front ++ settled ∧ settled.length = count ∧
    SortedBy key settled ∧ ∀ entry ∈ front, ∀ other ∈ settled, key entry ≤ key other

theorem SettledSuffix.pass {list : List α} {count : Nat}
    (settled : SettledSuffix key list count) (bound : count < list.length) :
    SettledSuffix key (bubblePass key list (list.length - count - 1)) (count + 1) := by
  obtain ⟨front, suffix, rfl, rfl, hsorted, hbelow⟩ := settled
  have hlast : (front ++ suffix).length - suffix.length - 1 = front.length - 1 := by simp
  have hpos : 0 < front.length := by simpa using bound
  rw [hlast]
  obtain ⟨before, largest, hpass, hlength, hlargest⟩ :=
    bubblePass_carries key (front ++ suffix) (front.length - 1) (by simp; omega)
  have hdrop : (front ++ suffix).drop (front.length - 1 + 1) = suffix := by
    rw [Nat.sub_add_cancel hpos, List.drop_left]
  rw [hdrop] at hpass
  have hperm : (before ++ [largest]).Perm front := by
    have whole := bubblePass_perm key (front ++ suffix) (front.length - 1)
    rw [hpass, ← List.singleton_append, ← List.append_assoc] at whole
    exact (List.perm_append_right_iff suffix).mp whole
  refine ⟨before, largest :: suffix, hpass, rfl, ?_, ?_⟩
  · refine List.pairwise_cons.mpr ⟨?_, hsorted⟩
    intro other member
    exact hbelow largest (hperm.mem_iff.mp (by simp)) other member
  · intro entry inBefore other member
    rcases List.mem_cons.mp member with rfl | inSuffix
    · exact hlargest entry inBefore
    · exact hbelow entry (hperm.mem_iff.mp (by simp [inBefore])) other inSuffix

variable (key) in
/-- The state of the list after the first passes. -/
theorem bubbleSort_passes (list : List α) (passes : Nat) (bound : passes ≤ list.length - 1) :
    let current := (List.range passes).foldl
      (fun current pass => bubblePass key current (list.length - pass - 1)) list
    current.Perm list ∧ SameTies key current list ∧
      SettledSuffix key current passes := by
  induction passes with
  | zero =>
      exact ⟨List.Perm.refl _, SameTies.refl _, list, [], by simp, rfl, List.Pairwise.nil,
        by simp⟩
  | succ passes ih =>
      obtain ⟨hperm, hties, hsettled⟩ := ih (by omega)
      simp only [List.range_succ, List.foldl_append, List.foldl_cons, List.foldl_nil]
      refine ⟨(bubblePass_perm key _ _).trans hperm, (bubblePass_sameTies _ _).trans hties, ?_⟩
      have next := hsettled.pass (by rw [hperm.length_eq]; omega)
      rwa [hperm.length_eq] at next

variable (key) in
theorem bubbleSort_perm (list : List α) : (bubbleSort key list).Perm list :=
  (bubbleSort_passes key list (list.length - 1) (Nat.le_refl _)).1

theorem bubbleSort_sameTies (list : List α) : SameTies key (bubbleSort key list) list :=
  (bubbleSort_passes key list (list.length - 1) (Nat.le_refl _)).2.1

theorem bubbleSort_sorted (list : List α) : SortedBy key (bubbleSort key list) := by
  obtain ⟨hperm, _, front, settled, heq, hlength, hsorted, hbelow⟩ :=
    bubbleSort_passes key list (list.length - 1) (Nat.le_refl _)
  change SortedBy key ((List.range (list.length - 1)).foldl _ list)
  have htotal : front.length + settled.length = list.length := by
    rw [← hperm.length_eq, heq, List.length_append]
  rw [heq]
  -- at most one element is left in front of the settled part
  match front, hbelow, htotal with
  | [], _, _ => exact hsorted
  | [only], hbelow, _ => exact List.pairwise_cons.mpr ⟨hbelow only (by simp), hsorted⟩
  | _ :: _ :: _, _, htotal => simp at htotal; omega

/-! ## Stable insertion -/

variable (key)

/-- Put an entry after every entry whose key is not larger. -/
def insertAfter (entry : α) (list : List α) : List α :=
  list.takeWhile (fun other => key other ≤ key entry) ++
    entry :: list.dropWhile (fun other => key other ≤ key entry)

variable {key}

theorem insertAfter_length (entry : α) (list : List α) :
    (insertAfter key entry list).length = list.length + 1 := by
  have split := congrArg List.length
    (List.takeWhile_append_dropWhile (p := fun other => decide (key other ≤ key entry))
      (l := list))
  rw [List.length_append] at split
  simp only [insertAfter, List.length_append, List.length_cons]
  omega

theorem mem_insertAfter {entry other : α} {list : List α} :
    other ∈ insertAfter key entry list ↔ other = entry ∨ other ∈ list := by
  have split := List.takeWhile_append_dropWhile
    (p := fun other => decide (key other ≤ key entry)) (l := list)
  constructor
  · intro member
    rcases List.mem_append.mp member with before | after
    · exact .inr ((List.takeWhile_subset _) before)
    · rcases List.mem_cons.mp after with rfl | behind
      · exact .inl rfl
      · exact .inr ((List.dropWhile_subset _) behind)
  · rintro (rfl | member)
    · simp [insertAfter]
    · rw [← split] at member
      rcases List.mem_append.mp member with before | behind
      · exact List.mem_append.mpr (.inl before)
      · exact List.mem_append.mpr (.inr (List.mem_cons_of_mem _ behind))

theorem insertAfter_perm (entry : α) (list : List α) :
    (insertAfter key entry list).Perm (entry :: list) := by
  have moved : (insertAfter key entry list).Perm
      (entry :: (list.takeWhile (fun other => key other ≤ key entry) ++
        list.dropWhile (fun other => key other ≤ key entry))) :=
    List.perm_middle
  rwa [List.takeWhile_append_dropWhile] at moved

/-- In a sorted list everything from the first larger key on is larger. -/
theorem SortedBy.lt_of_mem_dropWhile {list : List α} (sorted : SortedBy key list)
    (bound : κ) {entry : α}
    (member : entry ∈ list.dropWhile (fun other => key other ≤ bound)) :
    bound < key entry := by
  induction list with
  | nil => cases member
  | cons head tail ih =>
      by_cases hhead : key head ≤ bound
      · rw [List.dropWhile_cons_of_pos (by simpa using hhead)] at member
        exact ih (List.Pairwise.of_cons sorted) member
      · rw [List.dropWhile_cons_of_neg (by simpa using hhead)] at member
        have hlt : bound < key head := lt_of_not_ge hhead
        rcases List.mem_cons.mp member with rfl | inTail
        · exact hlt
        · exact lt_of_lt_of_le hlt (List.rel_of_pairwise_cons sorted inTail)

/-- An insertion stands behind an entry whose key is not larger. -/
theorem SortedBy.before_insertAfter {list : List α} (sorted : SortedBy key list)
    {entry other : α} (member : other ∈ list) (small : key other ≤ key entry) :
    [other, entry].Sublist (Library.insertAfter key entry list) := by
  rw [← List.takeWhile_append_dropWhile (p := fun other => decide (key other ≤ key entry))
    (l := list)] at member
  rcases List.mem_append.mp member with before | behind
  · exact (List.singleton_sublist.mpr before).append
      (List.singleton_sublist.mpr List.mem_cons_self)
  · exact absurd small (not_le_of_gt (sorted.lt_of_mem_dropWhile (key entry) behind))

/-- An insertion stands before an entry whose key is larger. -/
theorem insertAfter_before {list : List α} {entry other : α} (member : other ∈ list)
    (large : key entry < key other) : [entry, other].Sublist (insertAfter key entry list) := by
  rw [← List.takeWhile_append_dropWhile (p := fun other => decide (key other ≤ key entry))
    (l := list)] at member
  rcases List.mem_append.mp member with before | behind
  · have small : key other ≤ key entry := by simpa using List.mem_takeWhile_imp before
    exact absurd large (not_lt_of_ge small)
  · exact ((List.singleton_sublist.mpr behind).cons_cons entry).trans
      (List.sublist_append_right _ _)

theorem SortedBy.insertAfter {list : List α} (sorted : SortedBy key list) (entry : α) :
    SortedBy key (insertAfter key entry list) := by
  have split := List.takeWhile_append_dropWhile
    (p := fun other => decide (key other ≤ key entry)) (l := list)
  have whole := sorted
  rw [SortedBy, ← split, List.pairwise_append] at whole
  obtain ⟨hbefore, hbehind, hcross⟩ := whole
  refine List.pairwise_append.mpr ⟨hbefore, List.pairwise_cons.mpr ⟨?_, hbehind⟩, ?_⟩
  · intro other member
    exact le_of_lt (sorted.lt_of_mem_dropWhile (key entry) member)
  · intro other before last member
    rcases List.mem_cons.mp member with rfl | behind
    · simpa using List.mem_takeWhile_imp before
    · exact hcross other before last behind

/-- Inserting keeps every tie in order, with the new entry last in its own. -/
theorem SortedBy.insertAfter_sameTies {list : List α} (sorted : SortedBy key list)
    (entry : α) :
    SameTies key (Library.insertAfter key entry list) (list ++ [entry]) := by
  intro value
  have parts : list.filter (fun other => key other = value) =
      (list.takeWhile (fun other => key other ≤ key entry)).filter
          (fun other => key other = value) ++
        (list.dropWhile (fun other => key other ≤ key entry)).filter
          (fun other => key other = value) := by
    rw [← List.filter_append, List.takeWhile_append_dropWhile]
  rw [List.filter_append, parts, Library.insertAfter, List.filter_append, List.filter_cons]
  by_cases hvalue : key entry = value
  · have hbehind : (list.dropWhile (fun other => key other ≤ key entry)).filter
        (fun other => key other = value) = [] := by
      refine List.filter_eq_nil_iff.mpr fun other member => ?_
      have hlt := sorted.lt_of_mem_dropWhile (key entry) member
      simpa [← hvalue] using ne_of_gt hlt
    rw [hbehind]
    simp [hvalue]
  · simp [hvalue]

/-- Sorting a sorted list with one entry appended is a stable insertion. -/
theorem bubbleSort_append_singleton {list : List α} (sorted : SortedBy key list)
    (entry : α) :
    bubbleSort key (list ++ [entry]) = insertAfter key entry list :=
  (bubbleSort_sorted _).eq_of_sameTies (sorted.insertAfter entry)
    ((bubbleSort_sameTies _).trans (sorted.insertAfter_sameTies entry).symm)

theorem map_insertAfter {β : Type*} (f : β → α) (entry : β) (list : List β) :
    (insertAfter (key ∘ f) entry list).map f = insertAfter key (f entry) (list.map f) := by
  simp [insertAfter, List.takeWhile_map, List.dropWhile_map, Function.comp_def]

/-! ## Insertion sort by a key -/

section InsertionSort

variable {relation : α → α → Prop} [DecidableRel relation]
  (keyed : ∀ first second, relation first second ↔ key first ≤ key second)

include keyed

theorem insertionSort_sorted (list : List α) : SortedBy key (list.insertionSort relation) := by
  have total : Std.Total relation := ⟨fun first second => by
    rw [keyed, keyed]
    exact le_total _ _⟩
  have trans : IsTrans α relation := ⟨fun first second third => by
    rw [keyed, keyed, keyed]
    exact le_trans⟩
  exact (List.pairwise_insertionSort relation list).imp fun {_ _} => (keyed _ _).mp

theorem orderedInsert_sameTies (entry : α) (list : List α) :
    SameTies key (list.orderedInsert relation entry) (entry :: list) := by
  induction list with
  | nil => exact SameTies.refl _
  | cons head tail ih =>
      rw [List.orderedInsert_cons]
      split
      · exact SameTies.refl _
      · next behind =>
          have apart : key head ≠ key entry := fun same =>
            behind ((keyed entry head).mpr (le_of_eq same.symm))
          intro value
          have inserted := ih value
          by_cases own : key entry = value
          · have other : key head ≠ value := fun same => apart (same.trans own.symm)
            simp [own, other] at inserted ⊢
            exact inserted
          · simp [own] at inserted
            simp [List.filter_cons, own, inserted]

/-- Insertion sort is stable. -/
theorem insertionSort_sameTies (list : List α) :
    SameTies key (list.insertionSort relation) list := by
  induction list with
  | nil => exact SameTies.refl _
  | cons entry list ih =>
      rw [List.insertionSort_cons]
      refine (orderedInsert_sameTies keyed entry _).trans fun value => ?_
      rw [List.filter_cons, List.filter_cons, ih value]

/-- The last of the largest entries is sorted to the end, and the others as without it. -/
theorem insertionSort_lastLargest {front back : List α} {entry : α}
    (before : ∀ other ∈ front, key other ≤ key entry)
    (behind : ∀ other ∈ back, key other < key entry) :
    (front ++ entry :: back).insertionSort relation =
      (front ++ back).insertionSort relation ++ [entry] := by
  have sorted : SortedBy key ((front ++ back).insertionSort relation ++ [entry]) := by
    refine List.pairwise_append.mpr
      ⟨insertionSort_sorted keyed _, List.pairwise_singleton .., ?_⟩
    intro other member last isEntry
    rw [List.mem_singleton.mp isEntry]
    rcases List.mem_append.mp ((List.mem_insertionSort _).mp member) with inFront | inBack
    · exact before other inFront
    · exact le_of_lt (behind other inBack)
  apply (insertionSort_sorted keyed _).eq_of_sameTies sorted
  refine (insertionSort_sameTies keyed _).trans fun value => ?_
  rw [List.filter_append _ [entry], insertionSort_sameTies keyed (front ++ back) value]
  by_cases own : key entry = value
  · -- nothing behind the entry has its key
    have none : back.filter (fun other => key other = value) = [] := by
      refine List.filter_eq_nil_iff.mpr fun other member => ?_
      simpa [← own] using ne_of_lt (behind other member)
    simp [own, none]
  · simp [own]

end InsertionSort

/-! ## The first of the least entries -/

variable (key) in
theorem exists_firstLeast {list : List α} (nonempty : list ≠ []) :
    ∃ front entry back, list = front ++ entry :: back ∧
      (∀ other ∈ front, key entry < key other) ∧ ∀ other ∈ back, key entry ≤ key other := by
  induction list with
  | nil => exact absurd rfl nonempty
  | cons head tail ih =>
      by_cases single : tail = []
      · exact ⟨[], head, [], by rw [single]; rfl, List.forall_mem_nil _, List.forall_mem_nil _⟩
      · obtain ⟨front, entry, back, rfl, before, behind⟩ := ih single
        by_cases least : key head ≤ key entry
        · refine ⟨[], head, front ++ entry :: back, rfl, List.forall_mem_nil _, ?_⟩
          refine List.forall_mem_append.mpr ⟨fun other member => ?_, ?_⟩
          · exact least.trans (le_of_lt (before other member))
          · refine List.forall_mem_cons.mpr ⟨least, fun other member => ?_⟩
            exact least.trans (behind other member)
        · refine ⟨head :: front, entry, back, rfl, ?_, behind⟩
          exact List.forall_mem_cons.mpr ⟨lt_of_not_ge least, before⟩

variable (key) in
/-- Read from behind, the order turned around. -/
theorem exists_lastLargest {list : List α} (nonempty : list ≠ []) :
    ∃ front entry back, list = front ++ entry :: back ∧
      (∀ other ∈ front, key other ≤ key entry) ∧ ∀ other ∈ back, key other < key entry := by
  obtain ⟨back, entry, front, split, behind, before⟩ :=
    exists_firstLeast (fun other => OrderDual.toDual (key other))
      (List.reverse_ne_nil_iff.mpr nonempty)
  refine ⟨front.reverse, entry, back.reverse, ?_, fun other member => ?_, fun other member => ?_⟩
  · rw [← List.reverse_reverse list, split]
    simp
  · exact before other (List.mem_reverse.mp member)
  · exact behind other (List.mem_reverse.mp member)

end NetworkCode.Library
