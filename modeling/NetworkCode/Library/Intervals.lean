import NetworkCode.Library.Runs

/-!
# What held at some moment of an interval

An interval opens at a label and is still open as long as no further label
opens it anew.  `Since` says that some state inside the open interval had a
property; the fact survives every step that does not open a new interval.
-/

namespace NetworkCode.Library

universe u v

variable {σ : Type u} {α : Type v}

/-- Some state of the run had the property, and no later label opens anew. -/
def Since (step : σ → α → σ → Prop) (opens : α → Prop) (property : σ → Prop)
    (first : σ) (labels : List α) (last : σ) : Prop :=
  ∃ before after middle, labels = before ++ after ∧ Run step first before middle ∧
    Run step middle after last ∧ (∀ label ∈ after, ¬ opens label) ∧ property middle

namespace Since

variable {step : σ → α → σ → Prop} {opens : α → Prop} {property : σ → Prop}
  {first middle last : σ} {labels : List α} {label : α}

theorem now (run : Run step first labels last) (holds : property last) :
    Since step opens property first labels last := by
  refine ⟨labels, [], last, (List.append_nil labels).symm, run, .refl last, ?_, holds⟩
  intro label member
  cases member

theorem later (since : Since step opens property first labels middle)
    (hstep : step middle label last) (same : ¬ opens label) :
    Since step opens property first (labels ++ [label]) last := by
  obtain ⟨before, after, inside, rfl, hbefore, hafter, quiet, holds⟩ := since
  refine ⟨before, after ++ [label], inside, by rw [List.append_assoc], hbefore,
    .tail hafter hstep, ?_, holds⟩
  intro other member
  rcases List.mem_append.mp member with earlier | newest
  · exact quiet other earlier
  · rw [List.mem_singleton.mp newest]
    exact same

/-- A fact about every state of the run holds at the moment in question too. -/
theorem enrich (fact : List α → σ → Prop)
    (since : Since step opens property first labels last)
    (always : ∀ {before after middle}, labels = before ++ after → Run step first before middle →
      fact before middle) :
    ∃ before after middle, labels = before ++ after ∧ Run step first before middle ∧
      Run step middle after last ∧ (∀ label ∈ after, ¬ opens label) ∧ property middle ∧
      fact before middle := by
  obtain ⟨before, after, inside, split, hbefore, hafter, quiet, holds⟩ := since
  exact ⟨before, after, inside, split, hbefore, hafter, quiet, holds, always split hbefore⟩

end Since

end NetworkCode.Library
