import Mathlib.Data.List.Forall2
import NetworkCode.Library.Checked

/-!
# Two runs in lockstep

A relational reading of checked computations: two of them are alike when both
stop with one fault or both return related results.  A relation that every
action keeps makes two machines show the same, whatever the actions.
-/

namespace NetworkCode.Library

open Checked

universe u v w

variable {ε : Type u} {α α' β β' : Type v}

/-- Both computations stop with the same fault or return related results. -/
inductive Alike (related : α → α' → Prop) : Except ε α → Except ε α' → Prop where
  | error (fault : ε) : Alike related (.error fault) (.error fault)
  | ok {left : α} {right : α'} (results : related left right) :
      Alike related (.ok left) (.ok right)

namespace Alike

theorem bind {related : α → α' → Prop} {related' : β → β' → Prop} {left : Except ε α}
    {right : Except ε α'} {next : α → Except ε β} {next' : α' → Except ε β'}
    (alike : Alike related left right)
    (continued : ∀ value value', related value value' →
      Alike related' (next value) (next' value')) :
    Alike related' (left >>= next) (right >>= next') := by
  cases alike with
  | error fault => exact .error fault
  | ok results => exact continued _ _ results

/-- Alike continuations of one computation. -/
theorem bind_same {related : β → β' → Prop} (first : Except ε α) {next : α → Except ε β}
    {next' : α → Except ε β'} (continued : ∀ value, Alike related (next value) (next' value)) :
    Alike related (first >>= next) (first >>= next') := by
  cases first with
  | error fault => exact .error fault
  | ok value => exact continued value

end Alike

/-- Tables whose entries are related one by one. -/
def Entrywise {size : Nat} (related : α → α' → Prop) (left : Vector α size)
    (right : Vector α' size) : Prop :=
  ∀ index (bound : index < size), related left[index] right[index]

namespace Entrywise

variable {size : Nat} {related : α → α' → Prop} {left : Vector α size} {right : Vector α' size}
  {fault : Nat → ε}

theorem load (entries : Entrywise related left right) (index : Nat) :
    Alike related (load fault left index) (load fault right index) := by
  by_cases bound : index < size
  · rw [load_of_lt bound, load_of_lt bound]
    exact .ok (entries index bound)
  · rw [load_of_not_lt bound, load_of_not_lt bound]
    exact .error _

theorem store (entries : Entrywise related left right) {value : α} {value' : α'}
    (values : related value value') (index : Nat) :
    Alike (Entrywise related) (store fault left index value) (store fault right index value') := by
  by_cases bound : index < size
  · rw [store_of_lt bound, store_of_lt bound]
    refine .ok fun other bound' => ?_
    rw [Vector.getElem_set, Vector.getElem_set]
    split
    · exact values
    · exact entries other bound'
  · rw [store_of_not_lt bound, store_of_not_lt bound]
    exact .error _

end Entrywise

/-! ## Observing a machine -/

section Machines

variable {σ τ ω : Type v} {action : Type w}

/-- What a machine shows under a list of actions, and the fault that stops it. -/
def observe (next : σ → action → Except ε (σ × ω)) : σ → List action → List ω × Option ε
  | _, [] => ([], none)
  | state, first :: rest =>
      match next state first with
      | .error fault => ([], some fault)
      | .ok (middle, shown) => (shown :: (observe next middle rest).1, (observe next middle rest).2)

/-- Two machines carry out all actions and show the same for each. -/
def ShowSame (next : σ → action → Except ε (σ × ω)) (state : σ)
    (next' : τ → action → Except ε (τ × ω)) (state' : τ) (actions : List action) : Prop :=
  ∃ shown, observe next state actions = (shown, none) ∧
    observe next' state' actions = (shown, none)

/-- Two machines that both take an action show the same from there on exactly
when they show the same for it and afterwards. -/
theorem showSame_cons_iff {next : σ → action → Except ε (σ × ω)}
    {next' : τ → action → Except ε (τ × ω)} {state middle : σ} {state' middle' : τ}
    {act : action} {rest : List action} {shown shown' : ω}
    (taken : next state act = .ok (middle, shown))
    (taken' : next' state' act = .ok (middle', shown')) :
    ShowSame next state next' state' (act :: rest) ↔
      shown = shown' ∧ ShowSame next middle next' middle' rest := by
  unfold ShowSame
  rw [observe, observe, taken, taken']
  dsimp only
  constructor
  · rintro ⟨whole, left, right⟩
    obtain ⟨rfl, fault⟩ := Prod.mk.inj left
    obtain ⟨same, fault'⟩ := Prod.mk.inj right
    obtain ⟨same, later⟩ := List.cons.inj same
    exact ⟨same.symm, _, Prod.ext rfl fault, Prod.ext later fault'⟩
  · rintro ⟨rfl, later, left, right⟩
    rw [left, right]
    exact ⟨_, rfl, rfl⟩

/-- What two machines show the same for, the first one carries out. -/
theorem ShowSame.taken {next : σ → action → Except ε (σ × ω)}
    {next' : τ → action → Except ε (τ × ω)} {state : σ} {state' : τ} {act : action}
    {rest : List action} (same : ShowSame next state next' state' (act :: rest)) :
    ∃ after, next state act = .ok after := by
  obtain ⟨shown, left, -⟩ := same
  unfold observe at left
  split at left
  · cases left
  · next taken => exact ⟨_, taken⟩

/-- Two machines in related states show the same under corresponding actions. -/
theorem observe_eq_of_forall₂ {action' : Type w} {next : σ → action → Except ε (σ × ω)}
    {next' : τ → action' → Except ε (τ × ω)} {related : σ → τ → Prop}
    {corresponds : action → action' → Prop}
    (lockstep : ∀ state state' act act', related state state' → corresponds act act' →
      Alike (fun after after' => related after.1 after'.1 ∧ after.2 = after'.2)
        (next state act) (next' state' act'))
    {state : σ} {state' : τ} (initial : related state state') {actions : List action}
    {actions' : List action'} (corresponding : List.Forall₂ corresponds actions actions') :
    observe next state actions = observe next' state' actions' := by
  induction corresponding generalizing state state' with
  | nil => rfl
  | @cons act act' rest rest' first _ ih =>
      have alike := lockstep state state' act act' initial first
      unfold observe
      revert alike
      generalize next state act = left
      generalize next' state' act' = right
      intro alike
      cases alike with
      | error fault => rfl
      | @ok after after' results =>
          obtain ⟨middle, shown⟩ := after
          obtain ⟨middle', shown'⟩ := after'
          obtain ⟨related', rfl⟩ := results
          simp only [ih related']

end Machines

end NetworkCode.Library
