import NetworkCode.Library.Runs

/-!
# A mailbox with one reader

Items arrive in a mailbox and are read in the order of their arrival.  A
reader that searches for a wanted item reads on until it has one or gives up;
what it leaves unread waits for the next search.
-/

namespace NetworkCode.Library

universe u

/-- An item with the number of items that arrived before it. -/
structure Letter (α : Type u) where
  place : Nat
  item : α

/-- A search, with what had arrived and what was unread when it began. -/
structure Search (α : Type u) where
  begun : Nat
  unread : List (Letter α)

structure Mailbox (α : Type u) where
  arrived : Nat
  unread : List (Letter α)
  search : Option (Search α)

inductive MailboxLabel (α : Type u) where
  | arrives (item : α)
  | begins
  | skips (letter : Letter α)
  | finds (search : Search α) (letter : Letter α)
  | givesUp
  | clears

namespace Mailbox

variable {α : Type u}

def empty : Mailbox α := ⟨0, [], none⟩

def arrive (box : Mailbox α) (item : α) : Mailbox α :=
  { box with arrived := box.arrived + 1, unread := box.unread ++ [⟨box.arrived, item⟩] }

def begin (box : Mailbox α) : Mailbox α :=
  { box with search := some ⟨box.arrived, box.unread⟩ }

/-- The mailbox after reads, with the search that goes on. -/
def leave (box : Mailbox α) (unread : List (Letter α)) (search : Option (Search α)) : Mailbox α :=
  { box with unread := unread, search := search }

inductive Step (wanted : α → Prop) (box : Mailbox α) : MailboxLabel α → Mailbox α → Prop where
  | arrives (item : α) : Step wanted box (.arrives item) (box.arrive item)
  | begins (idle : box.search = none) : Step wanted box .begins box.begin
  | skips {letter : Letter α} {rest : List (Letter α)} (first : box.unread = letter :: rest)
      (other : ¬ wanted letter.item) :
      Step wanted box (.skips letter) (box.leave rest box.search)
  | finds {search : Search α} {letter : Letter α} {rest : List (Letter α)}
      (searching : box.search = some search) (first : box.unread = letter :: rest)
      (found : wanted letter.item) : Step wanted box (.finds search letter) (box.leave rest none)
  | givesUp : Step wanted box .givesUp (box.leave box.unread none)
  | clears (idle : box.search = none) : Step wanted box .clears (box.leave [] none)

end Mailbox

/-- The items that arrived, in order. -/
def arrivalsIn {α : Type u} (labels : List (MailboxLabel α)) : List α :=
  labels.filterMap fun
    | .arrives item => some item
    | _ => none

/-- The letters that searches found, in order. -/
def findingsIn {α : Type u} (labels : List (MailboxLabel α)) : List (Letter α) :=
  labels.filterMap fun
    | .finds _ letter => some letter
    | _ => none

/-- The letter ends the search, and where it comes from. -/
structure Ends {α : Type u} (wanted : α → Prop) (search : Search α) (letter : Letter α) :
    Prop where
  found : wanted letter.item
  fresh_iff : search.begun ≤ letter.place ↔ ∀ old ∈ search.unread, ¬ wanted old.item
  oldest : letter.place < search.begun → ∃ skipped rest,
    search.unread = skipped ++ letter :: rest ∧ ∀ old ∈ skipped, ¬ wanted old.item

namespace Mailbox

variable {α : Type u} {wanted : α → Prop} {box after : Mailbox α}
  {label : MailboxLabel α} {labels : List (MailboxLabel α)}

/-- A search has skipped unwanted letters only: first those unread when it
began, then those that arrived since. -/
structure Searching (wanted : α → Prop) (box : Mailbox α) (search : Search α) : Prop where
  begun_le : search.begun ≤ box.arrived
  before : ∀ old ∈ search.unread, old.place < search.begun
  reads : ∃ skipped recent, search.unread ++ recent = skipped ++ box.unread ∧
    (∀ old ∈ skipped, ¬ wanted old.item) ∧ ∀ letter ∈ recent, search.begun ≤ letter.place

/-- The places are those of letters that have arrived. -/
structure Placed (wanted : α → Prop) (box : Mailbox α) : Prop where
  past : ∀ letter ∈ box.unread, letter.place < box.arrived
  searching : ∀ search, box.search = some search → Searching wanted box search

theorem placed_empty : Placed wanted (empty : Mailbox α) where
  past := nofun
  searching := nofun

theorem Searching.arrive {search : Search α} (searching : Searching wanted box search)
    (item : α) : Searching wanted (box.arrive item) search where
  begun_le := Nat.le_succ_of_le searching.begun_le
  before := searching.before
  reads := by
    obtain ⟨skipped, recent, split, unwanted, since⟩ := searching.reads
    refine ⟨skipped, recent ++ [⟨box.arrived, item⟩], ?_, unwanted, ?_⟩
    · rw [← List.append_assoc, split, List.append_assoc]
      rfl
    · intro letter member
      rcases List.mem_append.mp member with earlier | last
      · exact since letter earlier
      · cases List.mem_singleton.mp last
        exact searching.begun_le

theorem Searching.skip {search : Search α} {letter : Letter α} {rest : List (Letter α)}
    (searching : Searching wanted box search) (first : box.unread = letter :: rest)
    (other : ¬ wanted letter.item) : Searching wanted (box.leave rest box.search) search where
  begun_le := searching.begun_le
  before := searching.before
  reads := by
    obtain ⟨skipped, recent, split, unwanted, since⟩ := searching.reads
    refine ⟨skipped ++ [letter], recent, ?_, ?_, since⟩
    · rw [split, first, List.append_assoc]
      rfl
    · intro old member
      rcases List.mem_append.mp member with earlier | last
      · exact unwanted old earlier
      · cases List.mem_singleton.mp last
        exact other

/-- The first wanted letter that a search reads. -/
theorem Searching.ends {search : Search α} {letter : Letter α} {rest : List (Letter α)}
    (searching : Searching wanted box search) (first : box.unread = letter :: rest)
    (found : wanted letter.item) : Ends wanted search letter := by
  obtain ⟨skipped, recent, split, unwanted, since⟩ := searching.reads
  rw [first] at split
  rcases List.append_eq_append_iff.mp split with ⟨between, passed, remains⟩ |
    ⟨between, queued, remains⟩
  · -- every letter that was unread has been skipped
    have fresh : search.begun ≤ letter.place :=
      since letter (remains ▸ List.mem_append_right _ List.mem_cons_self)
    refine ⟨found, ⟨fun _ old member => ?_, fun _ => fresh⟩, fun early => by omega⟩
    exact unwanted old (passed ▸ List.mem_append_left _ member)
  · cases between with
    | nil =>
        have since_all : letter :: rest = recent := remains
        have fresh : search.begun ≤ letter.place :=
          since letter (since_all ▸ List.mem_cons_self)
        refine ⟨found, ⟨fun _ old member => ?_, fun _ => fresh⟩, fun early => by omega⟩
        rw [queued, List.append_nil] at member
        exact unwanted old member
    | cons head behind =>
        obtain ⟨rfl, -⟩ := List.cons.inj remains
        have old : letter ∈ search.unread :=
          queued ▸ List.mem_append_right _ List.mem_cons_self
        have early := searching.before letter old
        refine ⟨found, ⟨fun fresh => by omega, fun none => absurd found (none letter old)⟩,
          fun _ => ⟨skipped, behind, queued, unwanted⟩⟩

theorem placed_step (placed : Placed wanted box) (step : Step wanted box label after) :
    Placed wanted after := by
  cases step with
  | arrives item =>
      refine ⟨?_, fun search searching => (placed.searching search searching).arrive item⟩
      intro letter member
      rcases List.mem_append.mp member with earlier | last
      · exact Nat.lt_succ_of_lt (placed.past letter earlier)
      · cases List.mem_singleton.mp last
        exact Nat.lt_succ_self _
  | begins idle =>
      refine ⟨placed.past, ?_⟩
      rintro search ⟨⟩
      exact ⟨Nat.le_refl _, placed.past, [], [], List.append_nil _, nofun, nofun⟩
  | skips first other =>
      refine ⟨fun letter member => ?_, fun search searching => ?_⟩
      · exact placed.past letter (first ▸ List.mem_cons_of_mem _ member)
      · exact (placed.searching search searching).skip first other
  | finds searching first found =>
      exact ⟨fun letter member => placed.past letter (first ▸ List.mem_cons_of_mem _ member),
        nofun⟩
  | givesUp => exact ⟨placed.past, nofun⟩
  | clears idle => exact ⟨nofun, nofun⟩

/-- Every letter that a search finds ends it, over every run. -/
theorem run_ends (run : Run (Step wanted) empty labels box) {search : Search α}
    {letter : Letter α} (found : .finds search letter ∈ labels) : Ends wanted search letter := by
  obtain ⟨earlier, later, rfl⟩ := List.append_of_mem found
  obtain ⟨middle, next, reached, step, -⟩ := run.middle_inv
  have placed : Placed wanted middle :=
    reached.invariant _ (fun _ _ _ placed step => placed_step placed step) placed_empty
  cases step with
  | finds searching first found => exact (placed.searching _ searching).ends first found

/-- What is found has arrived, each item once and in the order of arrival. -/
theorem run_findings (run : Run (Step wanted) empty labels box) :
    ((findingsIn labels).map Letter.item ++ box.unread.map Letter.item).Sublist
      (arrivalsIn labels) := by
  induction run with
  | refl => exact List.Sublist.refl []
  | @tail middle last labels label _ step ih =>
      have findings : findingsIn (labels ++ [label]) = findingsIn labels ++ findingsIn [label] :=
        List.filterMap_append
      have arrivals : arrivalsIn (labels ++ [label]) = arrivalsIn labels ++ arrivalsIn [label] :=
        List.filterMap_append
      rw [findings, arrivals, List.map_append]
      cases step with
      | arrives item =>
          have grown := ih.append (List.Sublist.refl [item])
          rw [List.append_assoc] at grown
          simpa [findingsIn, arrivalsIn, arrive] using grown
      | begins idle => simpa [findingsIn, arrivalsIn, begin] using ih
      | @skips letter rest first other =>
          rw [first] at ih
          have shorter : (rest.map Letter.item).Sublist ((letter :: rest).map Letter.item) :=
            List.sublist_cons_self _ _
          simpa [findingsIn, arrivalsIn, leave] using (shorter.append_left _).trans ih
      | finds searching first found =>
          rw [first] at ih
          simpa [findingsIn, arrivalsIn, leave] using ih
      | givesUp => simpa [findingsIn, arrivalsIn, leave] using ih
      | clears idle =>
          have shorter := (List.nil_sublist (middle.unread.map Letter.item)).append_left
            ((findingsIn labels).map Letter.item)
          simpa [findingsIn, arrivalsIn, leave] using shorter.trans ih

end Mailbox

end NetworkCode.Library
