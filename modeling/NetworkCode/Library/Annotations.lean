import NetworkCode.Library.Runs

/-!
# Annotated machines

Floyd's method over a labelled step relation.  An assertion that every step
keeps holds after every run, and the weakest precondition of a step asks for
that at one state.  A measure that falls from rest to rest bounds the steps in
between.  A view carries the runs of one machine over to another that takes
each step with it or none.
-/

namespace NetworkCode.Library

universe u v w x

section Assertions

variable {σ : Type u} {α : Type v} {step : σ → α → σ → Prop}

/-- The steps from a state lead to states with the assertion only. -/
def Wp (step : σ → α → σ → Prop) (assertion : σ → Prop) (state : σ) : Prop :=
  ∀ label next, step state label next → assertion next

/-- Every step keeps the assertion. -/
def Verified (step : σ → α → σ → Prop) (assertion : σ → Prop) : Prop :=
  ∀ state, assertion state → Wp step assertion state

variable {assertion other : σ → Prop} {state : σ}

theorem Wp.mono (wp : Wp step assertion state) (weaker : ∀ next, assertion next → other next) :
    Wp step other state := fun label next hstep => weaker next (wp label next hstep)

theorem wp_and : Wp step (fun next => assertion next ∧ other next) state ↔
    Wp step assertion state ∧ Wp step other state := by
  constructor
  · intro wp
    exact ⟨wp.mono fun _ both => both.1, wp.mono fun _ both => both.2⟩
  · rintro ⟨left, right⟩ label next hstep
    exact ⟨left label next hstep, right label next hstep⟩

/-- A second assertion may rest on the first. -/
theorem Verified.and (verified : Verified step assertion)
    (relative : ∀ state, assertion state → other state → Wp step other state) :
    Verified step fun state => assertion state ∧ other state := by
  rintro state ⟨left, right⟩
  exact wp_and.mpr ⟨verified state left, relative state left right⟩

/-- A verified assertion holds after every run. -/
theorem Verified.run (verified : Verified step assertion) {first last : σ} {labels : List α}
    (run : Run step first labels last) (initial : assertion first) : assertion last :=
  run.invariant assertion
    (fun state label next holds hstep => verified state holds label next hstep) initial

end Assertions

/-! ## Coming to rest -/

section Rest

variable {σ : Type u} {α : Type v}

/-- Under the assertion every step lowers the measure, except those whose labels rest. -/
structure Variant (step : σ → α → σ → Prop) (assertion : σ → Prop) (rests : α → Bool)
    (measure : σ → Nat) : Prop where
  verified : Verified step assertion
  falls : ∀ state label next, assertion state → rests label = false → step state label next →
    measure next < measure state

variable {step : σ → α → σ → Prop} {assertion : σ → Prop} {rests : α → Bool}
  {measure : σ → Nat} {top : Nat} {first last : σ} {labels : List α}

/-- A rest gives a run so many steps more as the measure can be large. -/
theorem Variant.length_le (variant : Variant step assertion rests measure)
    (most : ∀ state, assertion state → measure state ≤ top)
    (run : Run step first labels last) (initial : assertion first) :
    labels.length + measure last ≤ measure first + labels.countP rests * (top + 1) := by
  induction run with
  | refl => simp
  | @tail middle next earlier label hprefix hstep ih =>
      have holds := variant.verified.run hprefix initial
      rw [List.length_append, List.countP_append, List.length_singleton, List.countP_singleton]
      cases resting : rests label with
      | false =>
          have lower := variant.falls _ _ _ holds resting hstep
          simp only [Bool.false_eq_true, if_false, Nat.add_zero]
          omega
      | true =>
          have most := most _ (variant.verified _ holds _ _ hstep)
          simp only [if_true, Nat.add_mul, Nat.one_mul]
          omega

end Rest

/-! ## Views -/

section Views

variable {σ : Type u} {α : Type v} {τ : Type w} {β : Type x}

/-- A step with the label, or none where there is no label. -/
def Seen (step : τ → β → τ → Prop) (first : τ) : Option β → τ → Prop
  | none, last => last = first
  | some label, last => step first label last

variable {step : σ → α → σ → Prop} {step' : τ → β → τ → Prop} {first last : σ} {labels : List α}

/-- A run of one machine is one of the other, as long as the machine lives. -/
theorem Run.viewed (view : σ → τ) (seen : α → Option β) (inv live : σ → Prop)
    (kept : ∀ first label last, inv first → step first label last → inv last)
    (follows : ∀ first label last, inv first → step first label last → live last →
      live first ∧ Seen step' (view first) (seen label) (view last))
    (run : Run step first labels last) (initial : inv first) (lives : live last) :
    Run step' (view first) (labels.filterMap seen) (view last) := by
  induction run with
  | refl => exact .refl _
  | @tail middle next earlier label hprefix hstep ih =>
      have invariant := hprefix.invariant inv kept initial
      obtain ⟨lived, taken⟩ := follows _ _ _ invariant hstep lives
      rw [List.filterMap_append]
      cases shown : seen label with
      | none =>
          rw [shown] at taken
          rw [List.filterMap_cons_none shown, List.filterMap_nil, List.append_nil, taken]
          exact ih lived
      | some label' =>
          rw [shown] at taken
          rw [List.filterMap_cons_some shown, List.filterMap_nil]
          exact .tail (ih lived) taken

end Views

end NetworkCode.Library
