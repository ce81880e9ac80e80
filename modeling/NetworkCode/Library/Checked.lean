import Mathlib.Tactic.Common

/-!
# Checked execution

Computations that either return or stop with a fault, and the two accesses to
a table of fixed size.  A successful computation is taken apart at its binds,
so a proof never unfolds the monad.
-/

namespace NetworkCode.Library.Checked

universe u v w

variable {ε : Type u} {α : Type v} {β : Type v}

theorem bind_eq_ok {first : Except ε α} {next : α → Except ε β} {result : β} :
    (first >>= next) = .ok result ↔ ∃ value, first = .ok value ∧ next value = .ok result := by
  cases first with
  | error fault =>
      constructor
      · intro impossible; cases impossible
      · rintro ⟨_, impossible, _⟩; cases impossible
  | ok value =>
      constructor
      · intro done; exact ⟨value, rfl, done⟩
      · rintro ⟨_, same, done⟩; cases same; exact done

theorem bind_eq_error {first : Except ε α} {next : α → Except ε β} {fault : ε} :
    (first >>= next) = .error fault ↔
      first = .error fault ∨ ∃ value, first = .ok value ∧ next value = .error fault := by
  cases first with
  | error other =>
      constructor
      · intro stopped; cases stopped; exact .inl rfl
      · rintro (stopped | ⟨_, impossible, _⟩)
        · cases stopped; rfl
        · cases impossible
  | ok value =>
      constructor
      · intro stopped; exact .inr ⟨value, rfl, stopped⟩
      · rintro (impossible | ⟨_, same, stopped⟩)
        · cases impossible
        · cases same; exact stopped

/-- A computation whose result passes a test returns. -/
theorem exists_ok_of_any {first : Except ε α} {test : α → Bool}
    (passes : first.toOption.any test = true) :
    ∃ value, first = .ok value ∧ test value = true := by
  cases first with
  | error fault => cases passes
  | ok value => exact ⟨value, rfl, passes⟩

@[simp] theorem ok_bind (value : α) (next : α → Except ε β) :
    ((.ok value : Except ε α) >>= next) = next value := rfl

@[simp] theorem error_bind (fault : ε) (next : α → Except ε β) :
    ((.error fault : Except ε α) >>= next) = .error fault := rfl

@[simp] theorem pure_eq_ok (value : α) : (pure value : Except ε α) = .ok value := rfl

/-- A loop of loops is one loop over all that the inner ones go through. -/
theorem foldlM_flatMap {γ : Type w} {σ : Type v} (inner : β → List γ)
    (body : σ → γ → Except ε σ) (outer : List β) (start : σ) :
    (outer.flatMap inner).foldlM body start =
      outer.foldlM (fun current entry => (inner entry).foldlM body current) start := by
  induction outer generalizing start with
  | nil => rfl
  | cons entry outer ih =>
      rw [List.flatMap_cons, List.foldlM_append, List.foldlM_cons]
      exact bind_congr fun current => ih current

/-- What every iteration keeps, a loop that gets through keeps. -/
theorem foldlM_keeps {γ : Type w} {σ : Type v} (kept : σ → Prop) {body : σ → γ → Except ε σ}
    (step : ∀ current entry next, kept current → body current entry = .ok next → kept next)
    {list : List γ} {start last : σ} (initial : kept start)
    (done : list.foldlM body start = .ok last) : kept last := by
  induction list generalizing start with
  | nil =>
      cases done
      exact initial
  | cons entry list ih =>
      rw [List.foldlM_cons] at done
      obtain ⟨next, first, rest⟩ := bind_eq_ok.mp done
      exact ih (step start entry next initial first) rest

/-! ## Computations that avoid some faults -/

/-- The computation stops with none of the bad faults. -/
def Avoids (bad : ε → Prop) (computation : Except ε α) : Prop :=
  ∀ fault, computation = .error fault → ¬ bad fault

namespace Avoids

variable {bad : ε → Prop}

theorem ok (value : α) : Avoids bad (.ok value) := nofun

theorem error {fault : ε} (harmless : ¬ bad fault) : Avoids bad (.error fault : Except ε α) := by
  intro other same
  cases same
  exact harmless

theorem bind {first : Except ε α} {next : α → Except ε β} (hfirst : Avoids bad first)
    (hnext : ∀ value, first = .ok value → Avoids bad (next value)) :
    Avoids bad (first >>= next) := by
  intro fault stopped
  rcases bind_eq_error.mp stopped with stopped | ⟨value, returned, stopped⟩
  · exact hfirst fault stopped
  · exact hnext value returned fault stopped

end Avoids

/-! ## Results up to the state that they leave -/

section UpToState

variable {σ τ : Type v}

/-- Computations with the same result go on alike where their continuations do, whatever
state each of them has left. -/
theorem map_fst_bind {first second : Except ε (α × σ)} {next other : α × σ → Except ε (β × τ)}
    (same : first.map Prod.fst = second.map Prod.fst)
    (onward : ∀ value left right, (next (value, left)).map Prod.fst =
      (other (value, right)).map Prod.fst) :
    (first >>= next).map Prod.fst = (second >>= other).map Prod.fst := by
  cases first with
  | error fault =>
      cases second with
      | error _ => cases same; rfl
      | ok _ => cases same
  | ok made =>
      obtain ⟨value, left⟩ := made
      cases second with
      | error _ => cases same
      | ok remade =>
          obtain ⟨again, right⟩ := remade
          have values : value = again := Except.ok.inj same
          rw [ok_bind, ok_bind, ← values]
          exact onward value left right

end UpToState

/-! ## Tables of fixed size -/

variable {size : Nat} (fault : Nat → ε)

/-- Read an entry, or stop when the table has none at the index. -/
def load (table : Vector α size) (index : Nat) : Except ε α :=
  if h : index < size then .ok table[index] else .error (fault index)

/-- Overwrite an entry, or stop when the table has none at the index. -/
def store (table : Vector α size) (index : Nat) (value : α) : Except ε (Vector α size) :=
  if h : index < size then .ok (table.set index value) else .error (fault index)

variable {fault}

theorem load_of_lt {table : Vector α size} {index : Nat} (bound : index < size) :
    load fault table index = .ok table[index] := by
  simp [load, bound]

theorem load_of_not_lt {table : Vector α size} {index : Nat} (outside : ¬ index < size) :
    load fault table index = .error (fault index) := by
  simp [load, outside]

theorem store_of_lt {table : Vector α size} {index : Nat} {value : α} (bound : index < size) :
    store fault table index value = .ok (table.set index value) := by
  simp [store, bound]

theorem store_of_not_lt {table : Vector α size} {index : Nat} {value : α}
    (outside : ¬ index < size) : store fault table index value = .error (fault index) := by
  simp [store, outside]

theorem load_eq_ok {table : Vector α size} {index : Nat} {value : α} :
    load fault table index = .ok value ↔ ∃ bound : index < size, table[index] = value := by
  by_cases bound : index < size
  · simp [load_of_lt, bound]
  · simp [load_of_not_lt, bound]

theorem store_eq_ok {table result : Vector α size} {index : Nat} {value : α} :
    store fault table index value = .ok result ↔
      ∃ bound : index < size, table.set index value = result := by
  by_cases bound : index < size
  · simp [store_of_lt, bound]
  · simp [store_of_not_lt, bound]

theorem load_avoids {bad : ε → Prop} {table : Vector α size} {index : Nat}
    (bound : index < size) : Avoids bad (load fault table index) := by
  rw [load_of_lt bound]
  exact .ok _

theorem store_avoids {bad : ε → Prop} {table : Vector α size} {index : Nat} {value : α}
    (bound : index < size) : Avoids bad (store fault table index value) := by
  rw [store_of_lt bound]
  exact .ok _

end NetworkCode.Library.Checked
