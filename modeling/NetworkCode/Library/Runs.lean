import Mathlib.Data.List.Induction

/-!
# Finite runs of a labelled step relation

A run lists its labels in execution order and grows at its end.  One rule
carries the whole-run results: an invariant kept by each step holds after
every run.
-/

namespace NetworkCode.Library

universe u v w

/-- A finite run, with the labels of its steps in order. -/
inductive Run {σ : Type u} {α : Type v} (step : σ → α → σ → Prop) :
    σ → List α → σ → Prop where
  | refl (state : σ) : Run step state [] state
  | tail {first middle last : σ} {labels : List α} {label : α} :
      Run step first labels middle → step middle label last →
        Run step first (labels ++ [label]) last

/-- The steps that also meet a condition on the state before the step. -/
def Meeting {σ : Type u} {α : Type v} (step : σ → α → σ → Prop)
    (condition : σ → α → Prop) : σ → α → σ → Prop :=
  fun first label last => condition first label ∧ step first label last

/-- The steps with the state before each of them recorded in its label. -/
def Recorded {σ : Type u} {α : Type v} (step : σ → α → σ → Prop) : σ → σ × α → σ → Prop :=
  fun first record last => record.1 = first ∧ step first record.2 last

namespace Run

variable {σ : Type u} {α : Type v} {step : σ → α → σ → Prop}

theorem single {first last : σ} {label : α} (hstep : step first label last) :
    Run step first [label] last :=
  .tail (.refl first) hstep

theorem trans {first middle last : σ} {before after : List α}
    (hbefore : Run step first before middle) (hafter : Run step middle after last) :
    Run step first (before ++ after) last := by
  induction hafter with
  | refl => simpa using hbefore
  | tail hprefix hstep ih =>
      rw [← List.append_assoc]
      exact .tail ih hstep

/-- A property kept by every step holds after every run. -/
theorem invariant (property : σ → Prop)
    (kept : ∀ first label last, property first → step first label last → property last)
    {first last : σ} {labels : List α} (run : Run step first labels last)
    (initial : property first) : property last := by
  induction run with
  | refl => exact initial
  | tail _ hstep ih => exact kept _ _ _ ih hstep

/-- A property kept by every step with an allowed label holds after every run
of allowed labels. -/
theorem invariant_of_labels (property : σ → Prop) (allowed : α → Prop)
    (kept : ∀ first label last, allowed label → property first → step first label last →
      property last)
    {first last : σ} {labels : List α} (run : Run step first labels last)
    (all : ∀ label ∈ labels, allowed label) (initial : property first) : property last := by
  induction run with
  | refl => exact initial
  | tail _ hstep ih =>
      have earlier := ih fun label member => all label (List.mem_append_left _ member)
      exact kept _ _ _ (all _ (List.mem_append_right _ (List.mem_singleton_self _))) earlier hstep

/-- A property of the history and the state kept by every step holds after
every run. -/
theorem history (property : List α → σ → Prop)
    {first last : σ} {labels : List α} (run : Run step first labels last)
    (initial : property [] first)
    (kept : ∀ {earlier middle label next}, Run step first earlier middle →
      property earlier middle → step middle label next → property (earlier ++ [label]) next) :
    property labels last := by
  induction run with
  | refl => exact initial
  | tail hprefix hstep ih => exact kept hprefix ih hstep

/-- Forgetting the condition of a run whose steps all meet it. -/
theorem of_meeting {condition : σ → α → Prop} {first last : σ} {labels : List α}
    (run : Run (Meeting step condition) first labels last) :
    Run step first labels last := by
  induction run with
  | refl => exact .refl _
  | tail _ hstep ih => exact .tail ih hstep.2

/-- A run whose labels all meet the condition in any state. -/
theorem meeting {condition : σ → α → Prop} {first last : σ} {labels : List α}
    (run : Run step first labels last) (all : ∀ label ∈ labels, ∀ state, condition state label) :
    Run (Meeting step condition) first labels last := by
  induction run with
  | refl => exact .refl _
  | tail _ hstep ih =>
      refine .tail (ih fun label member => all label (List.mem_append_left _ member)) ⟨?_, hstep⟩
      exact all _ (List.mem_append_right _ (List.mem_singleton_self _)) _

/-- Every run can be recorded. -/
theorem recorded {first last : σ} {labels : List α} (run : Run step first labels last) :
    ∃ records, Run (Recorded step) first records last ∧ records.map Prod.snd = labels := by
  induction run with
  | refl => exact ⟨[], .refl _, rfl⟩
  | @tail middle last labels label _ hstep ih =>
      obtain ⟨records, earlier, rfl⟩ := ih
      refine ⟨records ++ [(middle, label)], .tail earlier ⟨rfl, hstep⟩, ?_⟩
      rw [List.map_append, List.map_singleton]

/-- Forgetting the states before the steps. -/
theorem of_recorded {first last : σ} {records : List (σ × α)}
    (run : Run (Recorded step) first records last) :
    Run step first (records.map Prod.snd) last := by
  induction run with
  | refl => exact .refl _
  | tail _ hstep ih =>
      rw [List.map_append, List.map_singleton]
      exact .tail ih hstep.2

/-- A recorded run whose records all meet the condition. -/
theorem recorded_meeting {condition : σ → α → Prop} {first last : σ} {records : List (σ × α)}
    (run : Run (Recorded step) first records last)
    (all : ∀ record ∈ records, condition record.1 record.2) :
    Run (Recorded (Meeting step condition)) first records last := by
  induction run with
  | refl => exact .refl _
  | tail _ hstep ih =>
      obtain ⟨same, hstep⟩ := hstep
      have meets := all _ (List.mem_append_right _ (List.mem_singleton_self _))
      rw [same] at meets
      exact .tail (ih fun record member => all record (List.mem_append_left _ member))
        ⟨same, meets, hstep⟩

/-- A run of at least one step ends with a step out of a reached state. -/
theorem concat_inv {first last : σ} {labels : List α} {label : α}
    (run : Run step first (labels ++ [label]) last) :
    ∃ middle, Run step first labels middle ∧ step middle label last := by
  generalize hwhole : labels ++ [label] = whole at run
  cases run with
  | refl => simp at hwhole
  | tail hprefix hstep =>
      obtain ⟨hlabels, hlabel⟩ := List.append_inj' hwhole rfl
      obtain rfl : label = _ := List.singleton_inj.mp hlabel
      subst hlabels
      exact ⟨_, hprefix, hstep⟩

/-- A run over a split label list passes through a state between the parts. -/
theorem append_inv {first last : σ} {before after : List α}
    (run : Run step first (before ++ after) last) :
    ∃ middle, Run step first before middle ∧ Run step middle after last := by
  induction after using List.reverseRecOn generalizing last with
  | nil => exact ⟨last, by simpa using run, .refl last⟩
  | append_singleton labels label ih =>
      rw [← List.append_assoc] at run
      obtain ⟨middle, hprefix, hstep⟩ := run.concat_inv
      obtain ⟨between, hbefore, hafter⟩ := ih hprefix
      exact ⟨between, hbefore, .tail hafter hstep⟩

/-- A run over labels with one in the middle takes a step with it. -/
theorem middle_inv {first last : σ} {before after : List α} {label : α}
    (run : Run step first (before ++ label :: after) last) :
    ∃ middle next, Run step first before middle ∧ step middle label next ∧
      Run step next after last := by
  rw [List.append_cons] at run
  obtain ⟨next, hbefore, hafter⟩ := run.append_inv
  obtain ⟨middle, hprefix, hstep⟩ := hbefore.concat_inv
  exact ⟨middle, next, hprefix, hstep, hafter⟩

/-! ## Every state of a run -/

theorem nil_inv {first last : σ} (run : Run step first [] last) : first = last := by
  generalize hwhole : [] = whole at run
  cases run with
  | refl => rfl
  | tail => simp at hwhole

/-- A run over labels with a first one takes a step with it. -/
theorem cons_inv {first last : σ} {labels : List α} {label : α}
    (run : Run step first (label :: labels) last) :
    ∃ next, step first label next ∧ Run step next labels last := by
  obtain ⟨middle, next, none, hstep, hafter⟩ := @middle_inv _ _ _ _ _ [] labels label run
  obtain rfl := none.nil_inv
  exact ⟨next, hstep, hafter⟩

/-- Steps without choice lead to one state. -/
theorem unique (deterministic : ∀ first label last last', step first label last →
      step first label last' → last = last')
    {first last last' : σ} {labels : List α} (run : Run step first labels last)
    (other : Run step first labels last') : last = last' := by
  induction run generalizing last' with
  | refl => exact other.nil_inv
  | tail _ hstep ih =>
      obtain ⟨middle, hother, hstep'⟩ := other.concat_inv
      obtain rfl := ih hother
      exact deterministic _ _ _ _ hstep hstep'

/-- The property holds in every state that the labels lead through. -/
def Throughout (step : σ → α → σ → Prop) (property : σ → Prop) (first : σ) (labels : List α) :
    Prop :=
  ∀ before middle, before <+: labels → Run step first before middle → property middle

/-- Every step that the labels lead through is good. -/
def EachStep (step good : σ → α → σ → Prop) (first : σ) (labels : List α) : Prop :=
  ∀ earlier label middle next, earlier ++ [label] <+: labels → Run step first earlier middle →
    step middle label next → good middle label next

/-- Where a step is good exactly under the condition, and the condition keeps
the invariant, the steps of a run are good if and only if they all meet it. -/
theorem eachStep_iff_meeting {condition : σ → α → Prop} {good : σ → α → σ → Prop}
    {inv : σ → Prop}
    (deterministic : ∀ first label last last', step first label last →
      step first label last' → last = last')
    (kept : ∀ first label last, inv first → condition first label → step first label last →
      inv last)
    (exactly : ∀ first label last, inv first → step first label last →
      (good first label last ↔ condition first label))
    {first last : σ} {labels : List α} (run : Run step first labels last) (initial : inv first) :
    EachStep step good first labels ↔ Run (Meeting step condition) first labels last := by
  have invariant {labels : List α} {last : σ}
      (meeting : Run (Meeting step condition) first labels last) : inv last :=
    meeting.invariant inv (fun _ _ _ holds met => kept _ _ _ holds met.1 met.2) initial
  constructor
  · intro each
    induction run with
    | refl => exact .refl _
    | @tail middle last labels label hprefix hstep ih =>
        have earlier := ih fun shorter other state next inside =>
          each shorter other state next (inside.trans (List.prefix_append _ _))
        have good := each labels label middle last List.prefix_rfl hprefix hstep
        exact .tail earlier ⟨(exactly _ _ _ (invariant earlier) hstep).mp good, hstep⟩
  · intro meeting
    induction meeting with
    | refl =>
        intro earlier label middle next inside
        simp at inside
    | @tail middle last labels label hprefix hstep ih =>
        have before := ih hprefix.of_meeting
        intro earlier other state next inside passed taken
        rcases List.prefix_concat_iff.mp inside with whole | inside
        · obtain ⟨rfl, ends⟩ := List.append_inj' whole rfl
          obtain rfl := List.singleton_inj.mp ends
          obtain rfl := unique deterministic passed hprefix.of_meeting
          exact (exactly _ _ _ (invariant hprefix) taken).mpr hstep.1
        · exact before earlier other state next inside passed taken

theorem throughout_iff_eachStep {property : σ → Prop} {first : σ} {labels : List α}
    (holds : property first) : Throughout step property first labels ↔
      EachStep step (fun _ _ next => property next) first labels := by
  constructor
  · intro throughout earlier label middle next inside passed taken
    exact throughout _ next inside (.tail passed taken)
  · intro each before middle inside passed
    cases passed with
    | refl => exact holds
    | tail hprefix hstep => exact each _ _ _ _ inside hprefix hstep

/-- Where a step keeps the property exactly under the condition, the states of
a run all have it if and only if its steps all meet the condition. -/
theorem throughout_iff_meeting {condition : σ → α → Prop} {property inv : σ → Prop}
    (deterministic : ∀ first label last last', step first label last →
      step first label last' → last = last')
    (kept : ∀ first label last, inv first → step first label last → inv last)
    (exactly : ∀ first label last, inv first → property first → step first label last →
      (property last ↔ condition first label))
    {first last : σ} {labels : List α} (run : Run step first labels last)
    (initial : inv first) (holds : property first) :
    Throughout step property first labels ↔ Run (Meeting step condition) first labels last := by
  have keptBoth : ∀ first label last, inv first ∧ property first → condition first label →
      step first label last → inv last ∧ property last := by
    intro first label last both met hstep
    exact ⟨kept first label last both.1 hstep,
      (exactly first label last both.1 both.2 hstep).mpr met⟩
  rw [throughout_iff_eachStep holds]
  exact eachStep_iff_meeting deterministic keptBoth
    (fun first label last both hstep => exactly first label last both.1 both.2 hstep) run
    ⟨initial, holds⟩

/-! ## The last label of a kind -/

/-- What the last label with a selected value carries. -/
def latest {β : Type w} (select : α → Option β) (labels : List α) : Option β :=
  (labels.filterMap select).getLast?

theorem latest_concat {β : Type w} (select : α → Option β) (labels : List α) (label : α) :
    latest select (labels ++ [label]) = (select label).or (latest select labels) := by
  rw [latest, List.filterMap_append, List.getLast?_append, latest]
  cases selected : select label with
  | none => rw [List.filterMap_cons_none selected, List.filterMap_nil, List.getLast?_nil]
  | some value =>
      rw [List.filterMap_cons_some selected, List.filterMap_nil, List.getLast?_singleton]

/-! ## Runs of functions -/

section Functions

variable {ε : Type w} {β : Type v}

/-- Carry out actions with a step function, keeping what each one shows. -/
def carryOut (next : σ → α → Except ε (σ × β)) : σ → List α → Except ε (σ × List (α × β))
  | state, [] => .ok (state, [])
  | state, action :: actions =>
      match next state action with
      | .error fault => .error fault
      | .ok (middle, shown) =>
          match carryOut next middle actions with
          | .error fault => .error fault
          | .ok (last, labels) => .ok (last, (action, shown) :: labels)

theorem of_carryOut {next : σ → α → Except ε (σ × β)} {first last : σ} {actions : List α}
    {labels : List (α × β)} (done : carryOut next first actions = .ok (last, labels)) :
    Run (fun before label after => next before label.1 = .ok (after, label.2))
      first labels last := by
  induction actions generalizing first labels with
  | nil =>
      cases done
      exact .refl _
  | cons action actions ih =>
      unfold carryOut at done
      split at done
      · cases done
      · next middle shown hstep =>
          split at done
          · cases done
          · next final rest hrest =>
              cases done
              exact (single hstep).trans (ih hrest)

/-- The labels name the actions that were carried out. -/
theorem carryOut_actions {next : σ → α → Except ε (σ × β)} {first last : σ} {actions : List α}
    {labels : List (α × β)} (done : carryOut next first actions = .ok (last, labels)) :
    labels.map Prod.fst = actions := by
  induction actions generalizing first labels with
  | nil =>
      cases done
      rfl
  | cons action actions ih =>
      unfold carryOut at done
      split at done
      · cases done
      · split at done
        · cases done
        · next hrest =>
            cases done
            rw [List.map_cons, ih hrest]

/-- The actions with the states before them and what they show. -/
def recordsOf (next : σ → α → Except ε (σ × β)) : σ → List α → List (σ × α × β)
  | _, [] => []
  | state, action :: actions =>
      match next state action with
      | .error _ => []
      | .ok (middle, shown) => (state, action, shown) :: recordsOf next middle actions

theorem mem_recordsOf {next : σ → α → Except ε (σ × β)} {state : σ} {actions : List α}
    {record : σ × α × β} (member : record ∈ recordsOf next state actions) :
    record.2.1 ∈ actions := by
  induction actions generalizing state with
  | nil => cases member
  | cons action actions ih =>
      unfold recordsOf at member
      split at member
      · cases member
      · rcases List.mem_cons.mp member with rfl | later
        · exact List.mem_cons_self
        · exact List.mem_cons_of_mem _ (ih later)

/-- Actions that are carried out are a recorded run. -/
theorem recorded_of_carryOut {next : σ → α → Except ε (σ × β)} {first last : σ}
    {actions : List α} {labels : List (α × β)}
    (done : carryOut next first actions = .ok (last, labels)) :
    Run (Recorded fun before label after => next before label.1 = .ok (after, label.2))
      first (recordsOf next first actions) last := by
  induction actions generalizing first labels with
  | nil =>
      cases done
      exact .refl _
  | cons action actions ih =>
      unfold carryOut at done
      split at done
      · cases done
      · next middle shown hstep =>
          split at done
          · cases done
          · next final rest hrest =>
              cases done
              rw [recordsOf, hstep]
              exact (single ⟨rfl, hstep⟩).trans (ih hrest)

end Functions

end Run

end NetworkCode.Library
