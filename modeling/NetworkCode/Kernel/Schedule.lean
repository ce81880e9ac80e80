import NetworkCode.Kernel.Control
import NetworkCode.Library.Runs

/-!
# The schedule of futures under a nondecreasing clock

The control state seen through its events is a machine on the abstract queue:
a push inserts a future, a resumption takes the first one.  Under a clock that
never goes back the futures leave in the order of their expiry and none leaves
early; the invariant ties both the futures taken and those pending to clock
readings of the past.
-/

namespace NetworkCode.Kernel

open Library

/-- One event on the abstract queue. -/
inductive FutureStep (long : LongWidth) : Futures → Event → Futures → Prop where
  | push {futures after : Futures} {jmp delay : UInt32} {now : UInt64}
      (accepted : futures.push (pushedEl jmp delay.toUInt64 now) = some after) :
      FutureStep long futures (.pushed jmp delay now) after
  | pop {futures after : Futures} {el : FutureQueueEl} {now wake : UInt64} {asked : Nat}
      (accepted : futures.pop = some (el, after))
      (request : asked = (el.expiry - now).toNat % 2 ^ long.bits) :
      FutureStep long futures (.resumed el now asked wake) after
  | network (futures : Futures) (event : NetEvent) :
      FutureStep long futures (.network event) futures

namespace Event

/-- The clock readings of an event, in order. -/
def readings : Event → List UInt64
  | .pushed _ _ now => [now]
  | .resumed _ now _ wake => [now, wake]
  | .network _ => []

def pushed? : Event → Option FutureQueueEl
  | .pushed jmp delay now => some (pushedEl jmp delay.toUInt64 now)
  | _ => none

def taken? : Event → Option FutureQueueEl
  | .resumed el _ _ _ => some el
  | _ => none

end Event

/-- The futures pushed in a history. -/
def pushedIn (history : List Event) : List FutureQueueEl := history.filterMap Event.pushed?

/-- The futures taken in a history, in order. -/
def takenIn (history : List Event) : List FutureQueueEl := history.filterMap Event.taken?

/-- The clock readings of a history, in order. -/
def readingsIn (history : List Event) : List UInt64 := history.flatMap Event.readings

/-- The clock never goes back and stays below `2^64 - 2^32` microseconds, and
no sleep is shorter than asked. -/
structure ClockRuns (history : List Event) : Prop where
  nondecreasing : (readingsIn history).Pairwise (· ≤ ·)
  bounded : ∀ reading ∈ readingsIn history, reading.toNat < 2 ^ 64 - 2 ^ 32
  sleeps : ∀ el now asked wake, .resumed el now asked wake ∈ history →
    now.toNat + asked ≤ wake.toNat

@[simp] theorem pushedIn_append (earlier later : List Event) :
    pushedIn (earlier ++ later) = pushedIn earlier ++ pushedIn later :=
  List.filterMap_append

@[simp] theorem takenIn_append (earlier later : List Event) :
    takenIn (earlier ++ later) = takenIn earlier ++ takenIn later :=
  List.filterMap_append

@[simp] theorem readingsIn_append (earlier later : List Event) :
    readingsIn (earlier ++ later) = readingsIn earlier ++ readingsIn later :=
  List.flatMap_append

/-- A past reading stays one when the history grows. -/
theorem past_append {history : List Event} (more : List Event) {property : UInt64 → Prop}
    (past : ∃ reading ∈ readingsIn history, property reading) :
    ∃ reading ∈ readingsIn (history ++ more), property reading := by
  obtain ⟨reading, member, holds⟩ := past
  rw [readingsIn_append]
  exact ⟨reading, List.mem_append_left _ member, holds⟩

/-- So is a reading of the events added. -/
theorem past_of_new {history more : List Event} {property : UInt64 → Prop} {reading : UInt64}
    (member : reading ∈ readingsIn more) (holds : property reading) :
    ∃ reading ∈ readingsIn (history ++ more), property reading := by
  rw [readingsIn_append]
  exact ⟨reading, List.mem_append_right _ member, holds⟩

namespace ClockRuns

variable {earlier later : List Event}

theorem before (clock : ClockRuns (earlier ++ later)) : ClockRuns earlier where
  nondecreasing := by
    have whole := clock.nondecreasing
    rw [readingsIn_append] at whole
    exact (List.pairwise_append.mp whole).1
  bounded reading member :=
    clock.bounded reading (by rw [readingsIn_append]; exact List.mem_append_left _ member)
  sleeps el now asked wake member := clock.sleeps el now asked wake (List.mem_append_left _ member)

/-- A later reading is not below an earlier one. -/
theorem le_of_append (clock : ClockRuns (earlier ++ later)) {past reading : UInt64}
    (hpast : past ∈ readingsIn earlier) (hreading : reading ∈ readingsIn later) :
    past.toNat ≤ reading.toNat := by
  have whole := clock.nondecreasing
  rw [readingsIn_append] at whole
  exact UInt64.le_iff_toNat_le.mp
    ((List.pairwise_append.mp whole).2.2 past hpast reading hreading)

theorem lt_of_append (clock : ClockRuns (earlier ++ later)) {reading : UInt64}
    (hreading : reading ∈ readingsIn later) : reading.toNat < 2 ^ 64 - 2 ^ 32 :=
  clock.bounded reading (by rw [readingsIn_append]; exact List.mem_append_right _ hreading)

end ClockRuns

/-- The schedule law of a history that leaves `pending` in the queue, with the
two bounds by past clock readings that carry it. -/
structure Scheduled (history : List Event) (pending : List FutureQueueEl) : Prop where
  nondecreasing : (takenIn history).Pairwise fun earlier later => earlier.due ≤ later.due
  notEarly : ∀ el now asked wake, .resumed el now asked wake ∈ history → el.due ≤ wake.toNat
  accounted : (pushedIn history).Perm (takenIn history ++ pending)
  before_pending : ∀ el ∈ takenIn history, ∀ next ∈ pending, el.due ≤ next.due
  taken_past : ∀ el ∈ takenIn history, ∃ past ∈ readingsIn history, el.due ≤ past.toNat
  pending_near : ∀ el ∈ pending, ∃ past ∈ readingsIn history, el.due < past.toNat + 2 ^ 32

theorem scheduled_nil : Scheduled [] [] where
  nondecreasing := List.Pairwise.nil
  notEarly := nofun
  accounted := List.Perm.refl []
  before_pending := nofun
  taken_past := nofun
  pending_near := nofun

/-- Below the clock bound a push computes its expiry without overflow. -/
theorem pushedEl_due (jmp delay : UInt32) (now : UInt64) (bound : now.toNat < 2 ^ 64 - 2 ^ 32) :
    (pushedEl jmp delay.toUInt64 now).due = now.toNat + delay.toNat := by
  have small := delay.toNat_lt
  simp only [pushedEl, FutureQueueEl.due, UInt64.toNat_ofNat', UInt32.toNat_toUInt64]
  omega

/-- Below the clock bound the wrapped difference still asks for enough sleep. -/
theorem due_le_wake {long : LongWidth} {el : FutureQueueEl} {now wake : UInt64} {asked : Nat}
    (near : el.due < now.toNat + 2 ^ 32)
    (request : asked = (el.expiry - now).toNat % 2 ^ long.bits)
    (slept : now.toNat + asked ≤ wake.toNat) : el.due ≤ wake.toNat := by
  rcases Nat.le_total el.due now.toNat with late | early
  · omega
  · have difference : (el.expiry - now).toNat = el.due - now.toNat :=
      UInt64.toNat_sub_of_le _ _ (UInt64.le_iff_toNat_le.mpr early)
    have fits : el.due - now.toNat < 2 ^ long.bits := by
      have : 2 ^ 32 ≤ 2 ^ long.bits := by cases long <;> decide
      omega
    rw [difference, Nat.mod_eq_of_lt fits] at request
    omega

section Steps

variable {long : LongWidth} {history : List Event} {futures after : Futures}

theorem Scheduled.push {jmp delay : UInt32} {now : UInt64}
    (scheduled : Scheduled history futures.contents)
    (clock : ClockRuns (history ++ [.pushed jmp delay now]))
    (accepted : futures.push (pushedEl jmp delay.toUInt64 now) = some after) :
    Scheduled (history ++ [.pushed jmp delay now]) after.contents := by
  have hread : now ∈ readingsIn [.pushed jmp delay now] := List.mem_singleton_self now
  have hdue := pushedEl_due jmp delay now (clock.lt_of_append hread)
  have contents := BoundedQueue.contents_push accepted
  have small := delay.toNat_lt
  have taken : takenIn (history ++ [.pushed jmp delay now]) = takenIn history := by
    rw [takenIn_append]
    exact List.append_nil _
  constructor
  · rw [taken]
    exact scheduled.nondecreasing
  · intro el now' asked wake member
    rcases List.mem_append.mp member with old | new
    · exact scheduled.notEarly el now' asked wake old
    · cases List.mem_singleton.mp new
  · rw [taken, pushedIn_append, contents]
    calc
      List.Perm (pushedIn history ++ [pushedEl jmp delay.toUInt64 now])
          ((takenIn history ++ futures.contents) ++ [pushedEl jmp delay.toUInt64 now]) :=
        scheduled.accounted.append_right _
      List.Perm _ (takenIn history ++ (futures.contents ++ [pushedEl jmp delay.toUInt64 now])) :=
        List.Perm.of_eq (List.append_assoc _ _ _)
      List.Perm _ (takenIn history ++
          insertAfter FutureQueueEl.due (pushedEl jmp delay.toUInt64 now) futures.contents) :=
        (List.perm_append_comm.trans (insertAfter_perm _ _).symm).append_left _
  · intro el hel next hnext
    rw [taken] at hel
    rw [contents] at hnext
    rcases mem_insertAfter.mp hnext with rfl | old
    · obtain ⟨past, hpast, bound⟩ := scheduled.taken_past el hel
      have := clock.le_of_append hpast hread
      omega
    · exact scheduled.before_pending el hel next old
  · intro el hel
    rw [taken] at hel
    exact past_append _ (scheduled.taken_past el hel)
  · intro el hel
    rw [contents] at hel
    rcases mem_insertAfter.mp hel with rfl | old
    · exact past_of_new hread (by omega)
    · exact past_append _ (scheduled.pending_near el old)

theorem Scheduled.pop {el : FutureQueueEl} {now wake : UInt64} {asked : Nat}
    (scheduled : Scheduled history futures.contents)
    (clock : ClockRuns (history ++ [.resumed el now asked wake]))
    (accepted : futures.pop = some (el, after))
    (request : asked = (el.expiry - now).toNat % 2 ^ long.bits) :
    Scheduled (history ++ [.resumed el now asked wake]) after.contents := by
  have contents := BoundedQueue.contents_pop accepted
  have front : el ∈ futures.contents := contents ▸ List.mem_cons_self
  have behind {next : FutureQueueEl} (hnext : next ∈ after.contents) :
      next ∈ futures.contents := contents ▸ List.mem_cons_of_mem el hnext
  have taken : takenIn (history ++ [.resumed el now asked wake]) = takenIn history ++ [el] :=
    takenIn_append _ _
  have onTime : el.due ≤ wake.toNat := by
    obtain ⟨past, hpast, bound⟩ := scheduled.pending_near el front
    have := clock.le_of_append hpast (List.mem_cons_self : now ∈ [now, wake])
    exact due_le_wake (by omega) request
      (clock.sleeps el now asked wake (List.mem_append_right _ (List.mem_singleton_self _)))
  constructor
  · rw [taken]
    refine List.pairwise_append.mpr ⟨scheduled.nondecreasing, List.pairwise_singleton _ _, ?_⟩
    intro earlier hearlier later hlater
    cases List.mem_singleton.mp hlater
    exact scheduled.before_pending earlier hearlier el front
  · intro el' now' asked' wake' member
    rcases List.mem_append.mp member with old | new
    · exact scheduled.notEarly el' now' asked' wake' old
    · cases List.mem_singleton.mp new
      exact onTime
  · rw [taken, pushedIn_append, List.append_assoc]
    have accounted := scheduled.accounted
    rw [contents] at accounted
    rw [show pushedIn [.resumed el now asked wake] = [] from rfl, List.append_nil]
    exact accounted
  · intro earlier hearlier next hnext
    rw [taken] at hearlier
    rcases List.mem_append.mp hearlier with old | new
    · exact scheduled.before_pending earlier old next (behind hnext)
    · cases List.mem_singleton.mp new
      have sorted := futures.contents_sorted
      rw [contents] at sorted
      exact List.rel_of_pairwise_cons sorted hnext
  · intro earlier hearlier
    rw [taken] at hearlier
    rcases List.mem_append.mp hearlier with old | new
    · exact past_append _ (scheduled.taken_past earlier old)
    · cases List.mem_singleton.mp new
      exact past_of_new (List.mem_cons_of_mem _ List.mem_cons_self : wake ∈ [now, wake]) onTime
  · intro next hnext
    exact past_append _ (scheduled.pending_near next (behind hnext))

theorem Scheduled.network (scheduled : Scheduled history futures.contents) (event : NetEvent) :
    Scheduled (history ++ [.network event]) futures.contents := by
  have taken : takenIn (history ++ [.network event]) = takenIn history := by
    rw [takenIn_append]
    exact List.append_nil _
  have pushed : pushedIn (history ++ [.network event]) = pushedIn history := by
    rw [pushedIn_append]
    exact List.append_nil _
  have readings : readingsIn (history ++ [.network event]) = readingsIn history := by
    rw [readingsIn_append]
    exact List.append_nil _
  refine ⟨taken ▸ scheduled.nondecreasing, ?_, ?_, taken ▸ scheduled.before_pending,
    taken ▸ readings ▸ scheduled.taken_past, readings ▸ scheduled.pending_near⟩
  · intro el now asked wake member
    rcases List.mem_append.mp member with old | new
    · exact scheduled.notEarly el now asked wake old
    · cases List.mem_singleton.mp new
  · rw [taken, pushed]
    exact scheduled.accounted

/-- The schedule law holds after every run of the machine. -/
theorem run_scheduled (run : Run (FutureStep long) BoundedQueue.empty history futures)
    (clock : ClockRuns history) : Scheduled history futures.contents := by
  induction run with
  | refl => exact scheduled_nil
  | tail hprefix hstep ih =>
      have scheduled := ih clock.before
      cases hstep with
      | push accepted => exact scheduled.push clock accepted
      | pop accepted request => exact scheduled.pop clock accepted request
      | network event => exact scheduled.network event

end Steps

end NetworkCode.Kernel
