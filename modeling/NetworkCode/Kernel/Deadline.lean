import NetworkCode.Kernel.Resumption

/-!
# Missed deadlines

HALT subtracts the clock from the expiry in unsigned arithmetic, so its test
for a negative range never holds and a late HALT sleeps for the wrapped
difference.  In time it sleeps exactly for what is left of the delay.
-/

namespace NetworkCode.Kernel

open Library Library.Checked

/-- The sleeps that events ask for, in microseconds. -/
def sleepsIn (events : List Event) : List Nat :=
  events.filterMap fun event =>
    match event with
    | .resumed _ _ asked _ => some asked
    | _ => none

/-- A missed deadline of the earliest future is reported, and any other one is met. -/
structure HonoursDeadline (head : FutureQueueEl) (now : UInt64) (executed : Executed) : Prop where
  missed : head.due < now.toNat → executed.result = .error ∧ sleepsIn executed.events = []
  met : now.toNat ≤ head.due → executed.result = .changePc ∧
    executed.interpreter.programCounter = head.jmpAddress ∧
      sleepsIn executed.events = [head.due - now.toNat]

/-- The expiry is not past, and what is left fits the argument of the sleep. -/
def InTime (long : LongWidth) (head : FutureQueueEl) (now : UInt64) : Prop :=
  now.toNat ≤ head.due ∧ head.due - now.toNat < 2 ^ long.bits

theorem sub_toNat_of_le {head : FutureQueueEl} {now : UInt64} (early : now.toNat ≤ head.due) :
    (head.expiry - now).toNat = head.due - now.toNat :=
  UInt64.toNat_sub_of_le _ _ (UInt64.le_iff_toNat_le.mpr early)

/-- An instruction that takes the head and sleeps for the difference as it is computed. -/
theorem honoursDeadline_iff {long : LongWidth} {head : FutureQueueEl} {now : UInt64}
    {executed : Executed} (changes : executed.result = .changePc)
    (counter : executed.interpreter.programCounter = head.jmpAddress)
    (sleeps : sleepsIn executed.events = [(head.expiry - now).toNat % 2 ^ long.bits]) :
    HonoursDeadline head now executed ↔ InTime long head now := by
  constructor
  · intro honours
    have early : now.toNat ≤ head.due := by
      by_contra late
      have reported := (honours.missed (Nat.lt_of_not_le late)).1
      rw [changes] at reported
      cases reported
    have exact_sleep := (honours.met early).2.2
    rw [sleeps, sub_toNat_of_le early, List.cons.injEq] at exact_sleep
    refine ⟨early, ?_⟩
    rw [← exact_sleep.1]
    exact Nat.mod_lt _ (Nat.two_pow_pos _)
  · rintro ⟨early, fits⟩
    refine ⟨fun late => absurd late (Nat.not_lt_of_le early), fun _ => ⟨changes, counter, ?_⟩⟩
    rw [sleeps, sub_toNat_of_le early, Nat.mod_eq_of_lt fits]

section Instructions

variable {interpreter : Interpreter} {instr : Instr} {input : StepInput} {long : LongWidth}
  {futures middle : Futures} {head : FutureQueueEl}

theorem pop_of_head (first : futures.contents.head? = some head) :
    ∃ after, futures.pop = some (head, after) := by
  cases pop : futures.pop with
  | none =>
      rw [BoundedQueue.pop_eq_none_iff] at pop
      rw [pop] at first
      cases first
  | some taken =>
      obtain ⟨el, after⟩ := taken
      rw [BoundedQueue.contents_pop pop] at first
      cases first
      exact ⟨after, rfl⟩

/-- The head of the queue has the earliest expiry. -/
theorem head_earliest (first : futures.contents.head? = some head) {el : FutureQueueEl}
    (member : el ∈ futures.contents) : head.due ≤ el.due := by
  have sorted := futures.contents_sorted
  cases contents : futures.contents with
  | nil => rw [contents] at first; cases first
  | cons other rest =>
      rw [contents] at first sorted member
      cases first
      rcases List.mem_cons.mp member with rfl | behind
      · exact Nat.le_refl _
      · exact List.rel_of_pairwise_cons sorted behind

/-- HALT, with a future pending. -/
theorem handleHalt_deadline (represents : interpreter.futureQueue.Represents futures)
    (first : futures.contents.head? = some head) :
    ∃ executed, handleHalt interpreter input long = .ok executed ∧
      (HonoursDeadline head input.haltClock executed ↔ InTime long head input.haltClock) := by
  obtain ⟨after, pop⟩ := pop_of_head first
  obtain ⟨queue, _, done⟩ := handleHalt_accepted represents input long pop
  exact ⟨_, done, honoursDeadline_iff rfl rfl rfl⟩

/-- WAIT, once its FUTURE has been recorded. -/
theorem handleWait_deadline (represents : interpreter.futureQueue.Represents futures)
    (inside : instr.arg1 < interpreter.programLength)
    (push : futures.push (pushedEl instr.arg1 instr.arg0.toUInt64 input.pushClock) = some middle)
    (first : middle.contents.head? = some head) :
    ∃ executed, handleWait interpreter instr input long = .ok executed ∧
      (HonoursDeadline head input.haltClock executed ↔ InTime long head input.haltClock) := by
  have within : ¬ instr.arg1 ≥ interpreter.programLength := UInt32.not_le.mpr inside
  obtain ⟨after, pop⟩ := pop_of_head first
  obtain ⟨queue, _, waited⟩ := handleWait_accepted represents long within push pop
  exact ⟨_, waited, honoursDeadline_iff rfl rfl rfl⟩

end Instructions

/-! ## The delay over a run -/

/-- The future was recorded with its delay at a reading that `holds`. -/
def RecordedAt (el : FutureQueueEl) (holds : UInt64 → Prop) : Prop :=
  ∃ (jmp delay : UInt32) (start : UInt64), el = pushedEl jmp delay.toUInt64 start ∧ holds start

/-- What is left of a delay is no more than the delay. -/
theorem left_le_delay {el : FutureQueueEl} {now : UInt64} {long : LongWidth}
    (recorded : RecordedAt el fun start => start.toNat ≤ now.toNat)
    (early : now.toNat ≤ el.due) :
    (el.expiry - now).toNat % 2 ^ long.bits ≤ el.waitTime.toNat := by
  obtain ⟨jmp, delay, start, rfl, past⟩ := recorded
  have difference := sub_toNat_of_le early
  have small := Nat.mod_le (((pushedEl jmp delay.toUInt64 start).expiry - now).toNat)
    (2 ^ long.bits)
  have waits : (pushedEl jmp delay.toUInt64 start).waitTime.toNat = delay.toNat := by
    have bound := delay.toNat_lt
    simp only [pushedEl, UInt64.toNat_toUInt32, UInt32.toNat_toUInt64]
    omega
  have due : (pushedEl jmp delay.toUInt64 start).due = (start.toNat + delay.toNat) % 2 ^ 64 := by
    simp only [pushedEl, FutureQueueEl.due, UInt64.toNat_ofNat', UInt32.toNat_toUInt64]
    omega
  have clock := start.toNat_lt
  have bound := delay.toNat_lt
  omega

/-- Every pending future and every future taken was recorded at an earlier reading. -/
structure TimesRecorded (long : LongWidth) (history : List Event) (pending : List FutureQueueEl) :
    Prop where
  pending_recorded : ∀ el ∈ pending, RecordedAt el (· ∈ readingsIn history)
  taken_recorded : ∀ el now asked wake, .resumed el now asked wake ∈ history →
    RecordedAt el (fun start => start.toNat ≤ now.toNat) ∧
      asked = (el.expiry - now).toNat % 2 ^ long.bits

section Run

variable {long : LongWidth} {history : List Event} {futures after : Futures}

theorem RecordedAt.mono {el : FutureQueueEl} {holds holds' : UInt64 → Prop}
    (recorded : RecordedAt el holds) (weaker : ∀ start, holds start → holds' start) :
    RecordedAt el holds' := by
  obtain ⟨jmp, delay, start, same, past⟩ := recorded
  exact ⟨jmp, delay, start, same, weaker start past⟩

theorem RecordedAt.append {el : FutureQueueEl} (recorded : RecordedAt el (· ∈ readingsIn history))
    (event : Event) : RecordedAt el (· ∈ readingsIn (history ++ [event])) := by
  apply recorded.mono
  intro start past
  rw [readingsIn_append]
  exact List.mem_append_left _ past

/-- An event that resumes nothing adds no future taken. -/
theorem TimesRecorded.append {event : Event} {pending pending' : List FutureQueueEl}
    (times : TimesRecorded long history pending)
    (silent : ∀ el now asked wake, event ≠ .resumed el now asked wake)
    (recorded : ∀ el ∈ pending', RecordedAt el (· ∈ readingsIn (history ++ [event]))) :
    TimesRecorded long (history ++ [event]) pending' where
  pending_recorded := recorded
  taken_recorded := by
    intro el now asked wake member
    rcases List.mem_append.mp member with old | new
    · exact times.taken_recorded el now asked wake old
    · exact absurd (List.mem_singleton.mp new).symm (silent el now asked wake)

theorem TimesRecorded.step {event : Event} (times : TimesRecorded long history futures.contents)
    (nondecreasing : (readingsIn (history ++ [event])).Pairwise (· ≤ ·))
    (step : FutureStep long futures event after) :
    TimesRecorded long (history ++ [event]) after.contents := by
  cases step with
  | push accepted =>
      refine times.append nofun fun el member => ?_
      rw [BoundedQueue.contents_push accepted] at member
      rcases mem_insertAfter.mp member with rfl | old
      · refine ⟨_, _, _, rfl, ?_⟩
        rw [readingsIn_append]
        exact List.mem_append_right _ (List.mem_singleton_self _)
      · exact (times.pending_recorded el old).append _
  | pop accepted request =>
      have contents := BoundedQueue.contents_pop accepted
      rw [readingsIn_append, List.pairwise_append] at nondecreasing
      constructor
      · intro el member
        exact (times.pending_recorded el (contents ▸ List.mem_cons_of_mem _ member)).append _
      · intro el now asked wake member
        rcases List.mem_append.mp member with old | new
        · exact times.taken_recorded el now asked wake old
        · cases List.mem_singleton.mp new
          refine ⟨(times.pending_recorded _ (contents ▸ List.mem_cons_self)).mono ?_, request⟩
          intro start past
          exact UInt64.le_iff_toNat_le.mp (nondecreasing.2.2 start past _ List.mem_cons_self)
  | network event =>
      exact times.append nofun fun el member => (times.pending_recorded el member).append _

theorem run_timesRecorded (run : Run (FutureStep long) BoundedQueue.empty history futures)
    (nondecreasing : (readingsIn history).Pairwise (· ≤ ·)) :
    TimesRecorded long history futures.contents := by
  induction run with
  | refl => exact ⟨List.forall_mem_nil _, nofun⟩
  | tail hprefix hstep ih =>
      have earlier := nondecreasing
      rw [readingsIn_append, List.pairwise_append] at earlier
      exact (ih earlier.1).step nondecreasing hstep

end Run

/-! ## The law -/

/-- When deadlines are honoured, at a single HALT or WAIT and over a run. -/
structure DeadlineLaw (long : LongWidth) : Prop where
  halt : ∀ {interpreter : Interpreter} {futures : Futures} {head : FutureQueueEl}
    (input : StepInput), interpreter.futureQueue.Represents futures →
      futures.contents.head? = some head → (∀ el ∈ futures.contents, head.due ≤ el.due) ∧
        ∃ executed, handleHalt interpreter input long = .ok executed ∧
          (HonoursDeadline head input.haltClock executed ↔ InTime long head input.haltClock)
  /-- The FUTURE part of the WAIT leaves `futures` in the queue. -/
  wait : ∀ {interpreter : Interpreter} {before futures : Futures} {head : FutureQueueEl}
    (instr : Instr) (input : StepInput), interpreter.futureQueue.Represents before →
      instr.arg1 < interpreter.programLength →
        before.push (pushedEl instr.arg1 instr.arg0.toUInt64 input.pushClock) = some futures →
          futures.contents.head? = some head → (∀ el ∈ futures.contents, head.due ≤ el.due) ∧
            ∃ executed, handleWait interpreter instr input long = .ok executed ∧
              (HonoursDeadline head input.haltClock executed ↔
                InTime long head input.haltClock)
  /-- No sleep that is in time is longer than the delay. -/
  delay : ∀ {labels : List (Action × List Observation)} {sysfs : NcmSysfs},
    Run (Step long) initModule labels sysfs → (readingsIn (historyOf labels)).Pairwise (· ≤ ·) →
      ∀ el now asked wake, .resumed el now asked wake ∈ historyOf labels →
        InTime long el now → asked ≤ el.waitTime.toNat

/--
A HALT, or the HALT of a WAIT, reports a missed deadline and meets any other one
exactly when the earliest expiry is not past and what is left of it fits an
`unsigned long`; under a clock that never goes back, no such sleep is longer
than the delay that was recorded.
-/
theorem deadlines_honoured_iff (long : LongWidth) : DeadlineLaw long where
  halt := fun _ represents first =>
    ⟨fun _ member => head_earliest first member, handleHalt_deadline represents first⟩
  wait := fun _ _ represents inside push first =>
    ⟨fun _ member => head_earliest first member,
      handleWait_deadline represents inside push first⟩
  delay := by
    intro labels sysfs run nondecreasing el now asked wake resumed inTime
    obtain ⟨futures, _, events⟩ := run_events run
    have times := run_timesRecorded events nondecreasing
    obtain ⟨recorded, request⟩ := times.taken_recorded el now asked wake resumed
    rw [request]
    exact left_le_delay recorded inTime.1

/-- A future, and a WAIT whose own is due before it. -/
def waitsFirst : List Instr := [.make .future 5 1 0 0, .make .wait 3 1 0 0]

/-- After the FUTURE a HALT is in time and so is the WAIT, and the run goes on
with the WAIT. -/
theorem deadlines_honoured_iff_inTime :
    ∃ (sysfs : NcmSysfs) (halted waited : Executed) (labels : List (Action × List Observation)),
      handleHalt sysfs.ncmInterp (.atClock 102 102 105) .bits64 = .ok halted ∧
      HonoursDeadline (pushedEl 1 5 100) 102 halted ∧
      handleWait sysfs.ncmInterp (.make .wait 3 1 0 0) (.atClock 101 102 104) .bits64 =
        .ok waited ∧
      HonoursDeadline (pushedEl 1 3 101) 102 waited ∧
      historyOf labels = [.pushed 1 5 100, .pushed 1 3 101,
        .resumed (pushedEl 1 3 101) 102 2 104] ∧
      ∀ el now asked wake, .resumed el now asked wake ∈ historyOf labels →
        InTime .bits64 el now → asked ≤ el.waitTime.toNat := by
  have law := deadlines_honoured_iff .bits64
  have done : ∃ labels sysfs,
      runFromInit .bits64 (loadAndRun waitsFirst noChannels .bare ++
        [.instruction (.atClock 100 100 100)]) = .ok (sysfs, labels) ∧
      sysfs.ncmInterp.futureQueue.live = [pushedEl 1 5 100] ∧
      sysfs.ncmInterp.programLength = 40 :=
    ⟨_, _, rfl, rfl, rfl⟩
  have further : ∃ labels sysfs,
      runFromInit .bits64 (loadAndRun waitsFirst noChannels .bare ++
        [.instruction (.atClock 100 100 100), .instruction (.atClock 101 102 104)]) =
        .ok (sysfs, labels) ∧
      historyOf labels = [.pushed 1 5 100, .pushed 1 3 101,
        .resumed (pushedEl 1 3 101) 102 2 104] :=
    ⟨_, _, rfl, rfl⟩
  obtain ⟨labels, sysfs, done, live, length⟩ := done
  obtain ⟨futures, represents⟩ := reachable_represented ⟨labels, run_of_runFromInit done⟩
  rw [represents.live_eq] at live
  obtain ⟨-, halted, halts, halt_honours⟩ := law.halt (.atClock 102 102 105) represents
    (congrArg List.head? live)
  have inside : (Instr.make .wait 3 1 0 0).arg1 < sysfs.ncmInterp.programLength := by
    rw [length]
    decide
  have room : futures.push (pushedEl 1 3 101) ≠ none := by
    rw [ne_eq, BoundedQueue.push_eq_none_iff, live]
    decide
  obtain ⟨middle, pushed⟩ := Option.ne_none_iff_exists'.mp room
  have contents := BoundedQueue.contents_push pushed
  rw [live] at contents
  obtain ⟨-, waited, waits, wait_honours⟩ := law.wait (.make .wait 3 1 0 0)
    (.atClock 101 102 104) represents inside pushed (congrArg List.head? contents)
  obtain ⟨all, last, further, history⟩ := further
  have inOrder : (readingsIn (historyOf all)).Pairwise (· ≤ ·) := by
    rw [history]
    simp [readingsIn, Event.readings]
  exact ⟨sysfs, halted, waited, all, halts, halt_honours.mpr ⟨by decide, by decide⟩, waits,
    wait_honours.mpr ⟨by decide, by decide⟩, history,
    law.delay (run_of_runFromInit further) inOrder⟩

/-- A HALT one microsecond after the expiry sleeps for `2^64 - 1` microseconds. -/
theorem missedDeadline_sleeps : ¬ ∀ (long : LongWidth) (sysfs : NcmSysfs) (futures : Futures)
    (head : FutureQueueEl) (input : StepInput), Reachable long sysfs →
      sysfs.ncmInterp.futureQueue.Represents futures → futures.contents.head? = some head →
        ∃ executed, handleHalt sysfs.ncmInterp input long = .ok executed ∧
          HonoursDeadline head input.haltClock executed := by
  intro claim
  have done : ∃ labels sysfs executed,
      runFromInit .bits64
        (loadAndRun [.make .future 5 0 0 0, .make .halt 0 0 0 0] noChannels .bare ++
          [.instruction (.atClock 100 100 100)]) = .ok (sysfs, labels) ∧
      sysfs.ncmInterp.futureQueue.live = [pushedEl 0 5 100] ∧
      handleHalt sysfs.ncmInterp (.atClock 106 106 106) .bits64 = .ok executed ∧
      sleepsIn executed.events = [2 ^ 64 - 1] :=
    ⟨_, _, _, rfl, rfl, rfl, rfl⟩
  obtain ⟨labels, sysfs, executed, done, live, halted, sleeps⟩ := done
  have reachable : Reachable .bits64 sysfs := ⟨labels, run_of_runFromInit done⟩
  obtain ⟨futures, represents⟩ := reachable_represented reachable
  have first : futures.contents.head? = some (pushedEl 0 5 100) := by
    rw [← represents.live_eq, live]
    rfl
  obtain ⟨other, halted', honours⟩ := claim .bits64 sysfs futures _ _ reachable represents first
  cases halted.symm.trans halted'
  have silent := (honours.missed (by decide)).2
  rw [sleeps] at silent
  cases silent

end NetworkCode.Kernel
