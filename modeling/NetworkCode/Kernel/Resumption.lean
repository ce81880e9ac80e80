import NetworkCode.Kernel.Schedule
import NetworkCode.Kernel.Transitions

/-!
# Resumptions follow the schedule

Every transition of the module carries out its own events on the abstract
queue of futures, so every run of the module is a run of that machine and
obeys its schedule law.
-/

namespace NetworkCode.Kernel

open Library

variable {long : LongWidth}

theorem run_silent {events : List Event} (silent : Silent events) (futures : Futures) :
    Run (FutureStep long) futures events futures := by
  induction events with
  | nil => exact .refl _
  | cons event rest ih =>
      obtain ⟨sent, rfl⟩ := silent event List.mem_cons_self
      have first : Run (FutureStep long) futures [.network sent] futures :=
        .single (.network futures sent)
      exact first.trans (ih fun other member => silent other (List.mem_cons_of_mem _ member))

/-- One iteration of the loop carries out its events. -/
theorem ControlStep.run_events {interpreter : Interpreter} {futures after : Futures}
    {instr : Instr} {input : StepInput} {iteration : Iteration}
    (controlStep : ControlStep long interpreter futures instr input iteration after) :
    Run (FutureStep long) futures iteration.events after := by
  cases controlStep with
  | exits _ _ silent => exact run_silent silent futures
  | falls _ _ _ _ _ silent => exact run_silent silent futures
  | jumps _ _ _ _ silent => exact run_silent silent futures
  | pushes _ _ push _ _ events =>
      rw [events]
      exact .single (.push push)
  | resumes _ pop _ _ events =>
      rw [events]
      exact .single (.pop pop rfl)
  | waits _ _ push pop _ _ events =>
      rw [events]
      exact .tail (.single (.push push)) (.pop pop rfl)

theorem Moves.run_events {sysfs : NcmSysfs} {action : Action} {shown : List Observation}
    {interpreter : Interpreter} {futures : Futures}
    (moves : Moves long sysfs action shown interpreter)
    (represents : sysfs.ncmInterp.futureQueue.Represents futures) :
    ∃ after, interpreter.futureQueue.Represents after ∧
      Run (FutureStep long) futures (eventsOf shown) after := by
  cases moves with
  | stays quiet =>
      rw [quiet]
      exact ⟨futures, represents, .refl _⟩
  | schedules _ quiet =>
      rw [quiet]
      exact ⟨futures, represents, .refl _⟩
  | writes | starts | tearsDown | joins | receives => exact ⟨futures, represents, .refl _⟩
  | iterates looping fetched done =>
      obtain ⟨after, controlStep, represents'⟩ := execute_controlled represents done
      rw [eventsOf_observations, resume_futureQueue]
      exact ⟨after, represents', controlStep.run_events⟩

theorem initModule_represents :
    initModule.ncmInterp.futureQueue.Represents BoundedQueue.empty :=
  initFutureQueue_represents _

/-- A run of the module is a run of the machine of futures. -/
theorem run_events {sysfs : NcmSysfs} {labels : List (Action × List Observation)}
    (run : Run (Step long) initModule labels sysfs) :
    ∃ futures, sysfs.ncmInterp.futureQueue.Represents futures ∧
      Run (FutureStep long) BoundedQueue.empty (historyOf labels) futures := by
  induction run with
  | refl => exact ⟨_, initModule_represents, .refl _⟩
  | tail _ hstep ih =>
      obtain ⟨futures, represents, hrun⟩ := ih
      obtain ⟨after, represents', hevents⟩ := (step_moves hstep).run_events represents
      refine ⟨after, represents', ?_⟩
      rw [historyOf_append, historyOf_singleton]
      exact hrun.trans hevents

theorem reachable_represented {sysfs : NcmSysfs} (reachable : Reachable long sysfs) :
    ∃ futures, sysfs.ncmInterp.futureQueue.Represents futures := by
  obtain ⟨labels, run⟩ := reachable
  obtain ⟨futures, represents, _⟩ := run_events run
  exact ⟨futures, represents⟩

theorem Silent.not_resumed {events : List Event} (silent : Silent events) {el : FutureQueueEl}
    {now wake : UInt64} {asked : Nat} : .resumed el now asked wake ∉ events := by
  intro member
  obtain ⟨sent, impossible⟩ := silent _ member
  cases impossible

/-- A resumption continues at the future that left the queue, one that was
pending or that the same WAIT has just pushed. -/
theorem ControlStep.resumes_at {interpreter : Interpreter} {futures after : Futures}
    {instr : Instr} {input : StepInput} {iteration : Iteration} {el : FutureQueueEl}
    {now wake : UInt64} {asked : Nat}
    (controlStep : ControlStep long interpreter futures instr input iteration after)
    (resumed : .resumed el now asked wake ∈ iteration.events) :
    iteration.exit = none ∧ iteration.interpreter.programCounter = el.jmpAddress ∧
      (el :: after.contents).Perm (futures.contents ++ pushedIn iteration.events) := by
  cases controlStep with
  | exits _ _ silent => exact (silent.not_resumed resumed).elim
  | falls _ _ _ _ _ silent => exact (silent.not_resumed resumed).elim
  | jumps _ _ _ _ silent => exact (silent.not_resumed resumed).elim
  | pushes _ _ _ _ _ events =>
      rw [events] at resumed
      cases List.mem_singleton.mp resumed
  | resumes _ pop exit control events =>
      rw [events] at resumed
      cases List.mem_singleton.mp resumed
      refine ⟨exit, congrArg Control.programCounter control, ?_⟩
      rw [events, BoundedQueue.contents_pop pop, show pushedIn [resumption long el input] = [] from
        rfl, List.append_nil]
  | waits _ _ push pop exit control events =>
      rw [events] at resumed
      rcases List.mem_cons.mp resumed with impossible | last
      · cases impossible
      · cases List.mem_singleton.mp last
        refine ⟨exit, congrArg Control.programCounter control, ?_⟩
        rw [events, ← BoundedQueue.contents_pop pop, BoundedQueue.contents_push push]
        exact (insertAfter_perm _ _).trans (List.perm_append_singleton _ _).symm

theorem Moves.resumes_at {sysfs : NcmSysfs} {action : Action} {shown : List Observation}
    {interpreter : Interpreter} {futures : Futures} {el : FutureQueueEl} {now wake : UInt64}
    {asked : Nat} (moves : Moves long sysfs action shown interpreter)
    (represents : sysfs.ncmInterp.futureQueue.Represents futures)
    (resumed : .resumed el now asked wake ∈ eventsOf shown) :
    interpreter.programCounter = el.jmpAddress ∧
      (el :: interpreter.futureQueue.live).Perm
        (sysfs.ncmInterp.futureQueue.live ++ pushedIn (eventsOf shown)) := by
  cases moves with
  | stays quiet =>
      rw [quiet] at resumed
      cases resumed
  | schedules _ quiet =>
      rw [quiet] at resumed
      cases resumed
  | writes | starts | tearsDown | joins | receives => cases resumed
  | iterates looping fetched done =>
      obtain ⟨after, controlStep, represents'⟩ := execute_controlled represents done
      rw [eventsOf_observations] at resumed ⊢
      obtain ⟨exit, counter, taken⟩ := controlStep.resumes_at resumed
      rw [resume_futureQueue, represents'.live_eq, represents.live_eq]
      refine ⟨?_, taken⟩
      rw [Iteration.resume, exit]
      exact counter

/-- What a run has done with its futures, and how its last step resumed. -/
structure ResumedInOrder (long : LongWidth) (labels : List (Action × List Observation))
    (sysfs : NcmSysfs) : Prop where
  nondecreasing : (takenIn (historyOf labels)).Pairwise fun earlier later =>
    earlier.due ≤ later.due
  notEarly : ∀ el now asked wake, .resumed el now asked wake ∈ historyOf labels →
    el.due ≤ wake.toNat
  accounted : (pushedIn (historyOf labels)).Perm
    (takenIn (historyOf labels) ++ sysfs.ncmInterp.futureQueue.live)
  resumesAt : ∀ earlier label, labels = earlier ++ [label] →
    ∀ el now asked wake, .resumed el now asked wake ∈ eventsOf label.2 →
      sysfs.ncmInterp.programCounter = el.jmpAddress ∧
      ∃ before, Run (Step long) initModule earlier before ∧ Step long before label sysfs ∧
        (el :: sysfs.ncmInterp.futureQueue.live).Perm
          (before.ncmInterp.futureQueue.live ++ pushedIn (eventsOf label.2))

/--
Over every run from loading the module, under a clock that never goes back and
sleeps that are not cut short: futures are taken in the order of their expiry,
no HALT resumes before the expiry of its future, the futures pushed are those
taken together with those in the queue, and each HALT or WAIT resumes at the
jump address of one future that was pushed and not yet taken.
-/
theorem resumptions_in_time_order {labels : List (Action × List Observation)}
    {sysfs : NcmSysfs} (run : Run (Step long) initModule labels sysfs)
    (clock : ClockRuns (historyOf labels)) : ResumedInOrder long labels sysfs := by
  obtain ⟨futures, represents, hrun⟩ := run_events run
  have scheduled := run_scheduled hrun clock
  refine ⟨scheduled.nondecreasing, scheduled.notEarly, ?_, ?_⟩
  · rw [represents.live_eq]
    exact scheduled.accounted
  · intro earlier label split el now asked wake resumed
    subst split
    obtain ⟨before, hbefore, hstep⟩ := run.concat_inv
    obtain ⟨_, represents', _⟩ := run_events hbefore
    obtain ⟨counter, taken⟩ := (step_moves hstep).resumes_at represents' resumed
    exact ⟨counter, before, hbefore, hstep, taken⟩

/-- The first HALT takes the future that was pushed last. -/
theorem resumptions_in_time_order_halts :
    ∃ labels sysfs, historyOf labels = [.pushed 0 9 100, .pushed 3 5 101,
        .resumed (pushedEl 3 5 101) 102 4 106, .resumed (pushedEl 0 9 100) 107 2 110] ∧
      ResumedInOrder .bits64 labels sysfs := by
  have done : ∃ labels sysfs,
      runFromInit .bits64
        (loadAndRun [.make .future 9 0 0 0, .make .future 5 3 0 0, .make .halt 0 0 0 0,
            .make .halt 0 0 0 0] noChannels .bare ++
          [.instruction (.atClock 100 100 100), .instruction (.atClock 101 101 101),
            .instruction (.atClock 102 102 106), .instruction (.atClock 107 107 110)]) =
        .ok (sysfs, labels) ∧
      historyOf labels = [.pushed 0 9 100, .pushed 3 5 101,
        .resumed (pushedEl 3 5 101) 102 4 106, .resumed (pushedEl 0 9 100) 107 2 110] :=
    ⟨_, _, rfl, rfl⟩
  obtain ⟨labels, sysfs, done, history⟩ := done
  refine ⟨labels, sysfs, history, resumptions_in_time_order (run_of_runFromInit done) ?_⟩
  rw [history]
  refine ⟨by decide, ?_, ?_⟩
  · simp [readingsIn, Event.readings]
  · intro el now asked wake member
    simp only [List.mem_cons, List.not_mem_nil, reduceCtorEq, or_false, false_or] at member
    rcases member with first | second
    · cases first
      decide
    · cases second
      decide

end NetworkCode.Kernel
