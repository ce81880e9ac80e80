import NetworkCode.Kernel.Certificate
import NetworkCode.Kernel.SentFrames

/-!
# The load that a program puts on the network

A program that inserts a future only when none is pending executes its FUTUREs
at least their delays apart.  A budget bounds the frames sent beyond the FUTUREs
executed.  Together they bound the frames in every window of time.
-/

namespace NetworkCode.Kernel

open Library Library.Checked

variable {long : LongWidth}

/-! ## Insertions and transmissions -/

namespace Event

/-- When a future is inserted, and for how long. -/
def inserted? : Event → Option (Nat × Nat)
  | .pushed _ delay now => some (now.toNat, delay.toNat)
  | _ => none

def transmitted? : Event → Option NetEvent
  | .network event => some event
  | _ => none

end Event

/-- The insertions of a history, in order. -/
def insertionsIn (history : List Event) : List (Nat × Nat) := history.filterMap Event.inserted?

/-- The transmissions of a history, in order. -/
def transmissionsIn (history : List Event) : List NetEvent :=
  history.filterMap Event.transmitted?

@[simp] theorem insertionsIn_append (earlier later : List Event) :
    insertionsIn (earlier ++ later) = insertionsIn earlier ++ insertionsIn later :=
  List.filterMap_append

@[simp] theorem transmissionsIn_append (earlier later : List Event) :
    transmissionsIn (earlier ++ later) = transmissionsIn earlier ++ transmissionsIn later :=
  List.filterMap_append

theorem insertionsIn_of_silent {events : List Event} (silent : Silent events) :
    insertionsIn events = [] := by
  refine List.filterMap_eq_nil_iff.mpr fun event member => ?_
  obtain ⟨sent, rfl⟩ := silent event member
  rfl

theorem transmissionsIn_of_mute {events : List Event} (mute : Mute events) :
    transmissionsIn events = [] := by
  refine List.filterMap_eq_nil_iff.mpr fun event member => ?_
  cases event with
  | network sent => exact (mute sent member).elim
  | pushed | resumed => rfl

/-- Below the clock bound an insertion is that of a future due after its delay. -/
theorem inserted_due {history : List Event} (clock : ClockRuns history) {time delay : Nat}
    (member : (time, delay) ∈ insertionsIn history) :
    ∃ el ∈ pushedIn history, el.due = time + delay := by
  obtain ⟨event, inside, found⟩ := List.mem_filterMap.mp member
  cases event with
  | pushed jmp wait now =>
      cases found
      have reading : now ∈ readingsIn history :=
        List.mem_flatMap.mpr ⟨_, inside, List.mem_singleton_self now⟩
      exact ⟨_, List.mem_filterMap.mpr ⟨_, inside, rfl⟩,
        pushedEl_due jmp wait now (clock.bounded now reading)⟩
  | resumed => cases found
  | network => cases found

/-- An insertion is made at one of the clock readings. -/
theorem inserted_reading {history : List Event} {time delay : Nat}
    (member : (time, delay) ∈ insertionsIn history) :
    ∃ reading ∈ readingsIn history, reading.toNat = time := by
  obtain ⟨event, inside, found⟩ := List.mem_filterMap.mp member
  cases event with
  | pushed jmp wait now =>
      cases found
      exact ⟨now, List.mem_flatMap.mpr ⟨_, inside, List.mem_singleton_self now⟩, rfl⟩
  | resumed => cases found
  | network => cases found

/-! ## Futures one at a time -/

/-- Each insertion waits for the delays of those before it. -/
def Paced (insertions : List (Nat × Nat)) : Prop :=
  insertions.Pairwise fun earlier later => earlier.1 + earlier.2 ≤ later.1

/-- The step inserts no future beside one that is pending. -/
def Lonely (futures : Futures) (event : Event) : Prop :=
  event.inserted?.isSome = true → futures.contents = []

/-- On an empty queue a FUTURE comes after all earlier futures are due. -/
theorem Paced.push {history : List Event} {jmp delay : UInt32} {now : UInt64}
    (paced : Paced (insertionsIn history)) (scheduled : Scheduled history [])
    (clock : ClockRuns (history ++ [.pushed jmp delay now])) :
    Paced (insertionsIn (history ++ [.pushed jmp delay now])) := by
  rw [insertionsIn_append]
  refine List.pairwise_append.mpr ⟨paced, List.pairwise_singleton _ _, ?_⟩
  rintro ⟨time, wait⟩ hearlier later hlater
  cases List.mem_singleton.mp hlater
  obtain ⟨el, pushed, due⟩ := inserted_due clock.before hearlier
  have accounted := scheduled.accounted
  rw [List.append_nil] at accounted
  obtain ⟨past, hpast, bound⟩ := scheduled.taken_past el (accounted.subset pushed)
  have reading : now ∈ readingsIn [.pushed jmp delay now] := List.mem_singleton_self now
  have := clock.le_of_append hpast reading
  dsimp only
  omega

/-- Futures that are inserted one at a time are paced. -/
theorem run_paced {history : List Event} {futures : Futures}
    (run : Run (Meeting (FutureStep long) Lonely) BoundedQueue.empty history futures)
    (clock : ClockRuns history) : Paced (insertionsIn history) := by
  induction run with
  | refl => exact List.Pairwise.nil
  | tail hprefix hstep ih =>
      have paced := ih clock.before
      have scheduled := run_scheduled hprefix.of_meeting clock.before
      obtain ⟨lonely, hstep⟩ := hstep
      cases hstep with
      | push accepted =>
          rw [lonely rfl] at scheduled
          exact paced.push scheduled clock
      | pop => simpa [insertionsIn, Event.inserted?, List.filterMap_cons] using paced
      | network => simpa [insertionsIn, Event.inserted?, List.filterMap_cons] using paced

/-- So many points that far apart fit between two bounds. -/
theorem length_mul_le_of_apart {times : List Nat} {gap low high : Nat}
    (apart : times.Pairwise fun earlier later => earlier + gap ≤ later)
    (inside : ∀ time ∈ times, low ≤ time ∧ time ≤ high) :
    times.length * gap ≤ gap + (high - low) := by
  induction times generalizing low with
  | nil => simp
  | cons time times ih =>
      obtain ⟨after, apart⟩ := List.pairwise_cons.mp apart
      have later : times.length * gap ≤ gap + (high - (time + gap)) := ih apart fun other member =>
        ⟨after other member, (inside other (List.mem_cons_of_mem _ member)).2⟩
      have first := inside time List.mem_cons_self
      rw [List.length_cons, Nat.succ_mul]
      cases times with
      | nil => simp
      | cons other times =>
          have next := after other List.mem_cons_self
          have last := inside other (List.mem_cons_of_mem _ List.mem_cons_self)
          omega

/-- Insertions of at least one delay are few in a window of time. -/
theorem insertions_in_window {insertions : List (Nat × Nat)} {gap low high : Nat}
    (paced : Paced insertions) (long : ∀ insertion ∈ insertions, gap ≤ insertion.2)
    (inside : ∀ insertion ∈ insertions, low ≤ insertion.1 ∧ insertion.1 ≤ high) :
    insertions.length * gap ≤ gap + (high - low) := by
  have apart : (insertions.map Prod.fst).Pairwise fun earlier later => earlier + gap ≤ later := by
    refine List.pairwise_map.mpr (paced.imp_of_mem fun {earlier later} member _ waits => ?_)
    have := long earlier member
    omega
  have bounds : ∀ time ∈ insertions.map Prod.fst, low ≤ time ∧ time ≤ high := by
    intro time member
    obtain ⟨insertion, found, rfl⟩ := List.mem_map.mp member
    exact inside insertion found
  have few := length_mul_le_of_apart apart bounds
  rwa [List.length_map] at few

/-! ## One frame an instruction -/

section Frames

variable {network after : Network} {chan msgId : Nat} {status ret : Int} {events : List NetEvent}
  {interpreter : Interpreter} {instr : Instr} {input : StepInput}

theorem ncSendmsgHard_single {destMac : Mac} {dev : DevPtr} {slot left : Option SkBuff}
    (sent : ncSendmsgHard destMac dev slot status = .ok (ret, left, events)) :
    events.length ≤ 1 := by
  unfold ncSendmsgHard at sent
  split at sent
  · cases sent
    simp
  · split at sent
    · cases sent
      simp
    · cases sent

theorem ncSendmsg_single (srcMac destMac : Mac) (ifindex : UInt32) (data : List UInt8)
    (length : Nat) (protocol : UInt16) :
    (ncSendmsg srcMac destMac ifindex data length protocol).2.length ≤ 1 := by
  unfold ncSendmsg
  split
  · simp
  · split <;> simp

theorem ncmSendMessage_single
    (sent : ncmSendMessage network chan msgId status = .ok (ret, after, events)) :
    events.length ≤ 1 := by
  unfold ncmSendMessage at sent
  split at sent
  · cases ncmSendMessageHard_cases sent with
    | noDevice => simp
    | emptySlot => simp
    | handsOver => simp
  · cases (ncmSendMessageSoft_cases sent).2 with
    | emptySlot => simp
    | copies => exact ncSendmsg_single _ _ _ _ _ _

theorem ncmSendSync_single {memory : Nat → UInt8}
    (sent : ncmSendSync network chan memory status = .ok (ret, events)) : events.length ≤ 1 := by
  unfold ncmSendSync at sent
  split at sent
  · obtain ⟨channel, _, sent⟩ := bind_eq_ok.mp sent
    split at sent
    · cases sent
      simp
    · obtain ⟨⟨_, _, _⟩, handed, finish⟩ := bind_eq_ok.mp sent
      cases finish
      exact ncSendmsgHard_single handed
  · obtain ⟨channel, _, finish⟩ := bind_eq_ok.mp sent
    have single := ncSendmsg_single network.mac broadcastMac channel.ifindex
      (List.replicate (ethZlen - ethHlen) 0) (network.syncPacketlen - ethHlen) ethPNcSync
    rw [Except.ok.inj finish] at single
    exact single

/-- The frames that an instruction may hand to a driver. -/
def Opcode.spends (instr : Instr) : Opcode → Nat
  | .send => 1
  | .sync => if instr.arg0 = syncMaster then 1 else 0
  | _ => 0

theorem transmissionsIn_network (events : List NetEvent) :
    transmissionsIn (events.map .network) = events := by
  induction events with
  | nil => rfl
  | cons event events ih => simpa [transmissionsIn, Event.transmitted?] using ih

theorem handler_transmits {opcode : Opcode} {executed : Executed}
    (decoded : instr.opcode? = some opcode)
    (selected : handler? long interpreter instr input opcode = some (.ok executed)) :
    (transmissionsIn executed.events).length ≤ opcode.spends instr := by
  have quiet (mute : Mute executed.events) :
      (transmissionsIn executed.events).length ≤ opcode.spends instr := by
    rw [transmissionsIn_of_mute mute]
    exact Nat.zero_le _
  cases opcode with
  | send =>
      obtain ⟨⟨ret, network, events⟩, sent, finish⟩ := bind_eq_ok.mp (Option.some.inj selected)
      cases finish
      rw [transmissionsIn_network]
      exact ncmSendMessage_single sent
  | sync =>
      have done := Option.some.inj selected
      unfold handleSync at done
      unfold Opcode.spends
      split at done
      · next master =>
          obtain ⟨⟨ret, events⟩, sent, finish⟩ := bind_eq_ok.mp done
          cases finish
          rw [transmissionsIn_network, if_pos master]
          exact ncmSendSync_single sent
      · obtain ⟨_, _, finish⟩ := bind_eq_ok.mp done
        cases finish
        exact Nat.zero_le _
  | _ =>
      refine quiet fun event shown => ?_
      cases handler_emits decoded selected shown with
      | send decoded' => cases decoded.symm.trans decoded'
      | sync decoded' => cases decoded.symm.trans decoded'

/-- An instruction hands over no more frames than it may spend. -/
theorem execute_transmits {iteration : Iteration} {opcode : Opcode}
    (decoded : instr.opcode? = some opcode)
    (done : execute long interpreter instr input = .ok iteration) :
    (transmissionsIn iteration.events).length ≤ opcode.spends instr := by
  rcases execute_cases done with rfl | ⟨opcode', executed, decoded', selected, rfl⟩
  · exact Nat.zero_le _
  · cases decoded.symm.trans decoded'
    rw [Executed.handleResult_events]
    exact handler_transmits decoded selected

end Frames

/-! ## Insertions of an instruction -/

/-- The insertions that an instruction makes when it does not fail. -/
def Opcode.earns : Opcode → Nat
  | .future | .wait => 1
  | _ => 0

section Insertions

variable {interpreter : Interpreter} {futures after : Futures} {instr : Instr}
  {input : StepInput} {iteration : Iteration}

theorem ControlStep.insertions {opcode : Opcode}
    (controlStep : ControlStep long interpreter futures instr input iteration after)
    (decoded : instr.opcode? = some opcode) (goesOn : iteration.exit = none) :
    (insertionsIn iteration.events).length = opcode.earns := by
  cases controlStep with
  | exits exit => exact (exit goesOn).elim
  | falls other decoded' cause exit control silent =>
      cases decoded.symm.trans decoded'
      rw [insertionsIn_of_silent silent]
      rcases cause with data | ⟨rfl, _⟩
      · cases opcode <;> cases data <;> rfl
      · rfl
  | jumps target cause exit control silent =>
      rw [insertionsIn_of_silent silent]
      rcases cause with ⟨decoded', _⟩ | ⟨decoded', _⟩ <;> cases decoded.symm.trans decoded' <;> rfl
  | pushes decoded' _ _ _ _ events =>
      cases decoded.symm.trans decoded'
      rw [events]
      rfl
  | resumes decoded' _ _ _ events =>
      cases decoded.symm.trans decoded'
      rw [events]
      rfl
  | waits decoded' _ _ _ _ _ events =>
      cases decoded.symm.trans decoded'
      rw [events]
      rfl

/-- An insertion is one of a FUTURE or of a WAIT, with its delay. -/
theorem ControlStep.inserted_by {insertion : Nat × Nat}
    (controlStep : ControlStep long interpreter futures instr input iteration after)
    (member : insertion ∈ insertionsIn iteration.events) :
    (instr.opcode? = some .future ∨ instr.opcode? = some .wait) ∧
      insertion.2 = instr.arg0.toNat := by
  cases controlStep with
  | exits _ _ silent =>
      rw [insertionsIn_of_silent silent] at member
      cases member
  | falls _ _ _ _ _ silent =>
      rw [insertionsIn_of_silent silent] at member
      cases member
  | jumps _ _ _ _ silent =>
      rw [insertionsIn_of_silent silent] at member
      cases member
  | pushes decoded _ _ _ _ events =>
      rw [events] at member
      cases List.mem_singleton.mp member
      exact ⟨.inl decoded, rfl⟩
  | resumes _ _ _ _ events =>
      rw [events] at member
      cases member
  | waits decoded _ _ _ _ _ events =>
      rw [events] at member
      cases List.mem_singleton.mp member
      exact ⟨.inr decoded, rfl⟩

/-- A step that inserts on an empty queue alone. -/
theorem ControlStep.run_lonely
    (controlStep : ControlStep long interpreter futures instr input iteration after)
    (alone : instr.opcode? = some .future ∨ instr.opcode? = some .wait →
      futures.contents = []) :
    Run (Meeting (FutureStep long) Lonely) futures iteration.events after := by
  have of_run (run : Run (FutureStep long) futures iteration.events after)
      (none : insertionsIn iteration.events = []) :
      Run (Meeting (FutureStep long) Lonely) futures iteration.events after := by
    refine run.meeting fun event member state inserts => ?_
    have kept := List.filterMap_eq_nil_iff.mp none event member
    rw [kept] at inserts
    cases inserts
  cases controlStep with
  | exits exit control silent =>
      exact of_run (run_silent silent futures) (insertionsIn_of_silent silent)
  | falls opcode decoded cause exit control silent =>
      exact of_run (run_silent silent futures) (insertionsIn_of_silent silent)
  | jumps target cause exit control silent =>
      exact of_run (run_silent silent futures) (insertionsIn_of_silent silent)
  | pushes decoded accepted push exit control events =>
      rw [events]
      exact .single ⟨fun _ => alone (.inl decoded), .push push⟩
  | resumes decoded pop exit control events =>
      rw [events]
      exact .single ⟨nofun, .pop pop rfl⟩
  | waits decoded accepted push pop exit control events =>
      rw [events]
      exact .tail (.single ⟨fun _ => alone (.inr decoded), .push push⟩) ⟨nofun, .pop pop rfl⟩

end Insertions

/-! ## Runs of a certified program -/

/-- FUTURE and WAIT stand where nothing is pending, and their delays have at
least the length of the gap. -/
structure Solitary (instrs : List Instr) (certificate : Certificate) (gap : Nat) : Prop where
  alone : ∀ place (bound : place < instrs.length),
    instrs[place].opcode? = some .future ∨ instrs[place].opcode? = some .wait →
      (certificate place).most = 0
  waits : ∀ instr ∈ instrs,
    instr.opcode? = some .future ∨ instr.opcode? = some .wait → gap ≤ instr.arg0.toNat

/-- The budget at a place covers what was sent beyond the futures inserted. -/
structure Budgeted (instrs : List Instr) (budget : Nat → Nat) (top : Nat) : Prop where
  flows : ∀ place (bound : place < instrs.length), ∀ opcode ∈ instrs[place].opcode?,
    ∀ target ∈ opcode.successors instrs instrs[place] place,
      budget place + opcode.spends instrs[place] ≤ budget target + opcode.earns
  covers : ∀ place (bound : place < instrs.length), ∀ opcode ∈ instrs[place].opcode?,
    budget place + opcode.spends instrs[place] ≤ top

/-- A step other than a start shows no events, or executes an instruction. -/
theorem Moves.quiet_or_iterates {sysfs : NcmSysfs} {action : Action} {shown : List Observation}
    {next : Interpreter} (moves : Moves long sysfs action shown next)
    (unstarted : ¬ StartsInterpreter sysfs action) :
    eventsOf shown = [] ∧ next.futureQueue = sysfs.ncmInterp.futureQueue ∧
        (next.Active → sysfs.ncmInterp.Active ∧
          next.programCounter = sysfs.ncmInterp.programCounter) ∨
      ∃ input instr iteration, sysfs.ncmInterp.thread = some .looping ∧
        sysfs.ncmInterp.fetch = .ok instr ∧
        execute long sysfs.ncmInterp instr input = .ok iteration ∧
        next = iteration.resume ∧ eventsOf shown = iteration.events := by
  cases moves with
  | stays quiet => exact .inl ⟨quiet, rfl, fun active => ⟨active, rfl⟩⟩
  | writes | tearsDown | receives => exact .inl ⟨rfl, rfl, fun active => ⟨active, rfl⟩⟩
  | starts command startable => exact (unstarted ⟨_, _, rfl, command, startable⟩).elim
  | schedules created quiet => exact .inl ⟨quiet, rfl, fun _ => ⟨.inl created, rfl⟩⟩
  | joins => exact .inl ⟨rfl, rfl, fun active => (not_active_of_none rfl active).elim⟩
  | iterates looping fetched done =>
      exact .inr ⟨_, _, _, looping, fetched, done, rfl, eventsOf_observations _⟩

theorem resume_active {iteration : Iteration} (active : iteration.resume.Active) :
    iteration.exit = none ∧ iteration.resume = iteration.interpreter := by
  cases exit : iteration.exit with
  | none =>
      rw [Iteration.resume, exit]
      exact ⟨rfl, rfl⟩
  | some code =>
      rw [Iteration.resume, exit] at active
      exact (not_active_of_returned rfl active).elim

section Runs

variable {instrs : List Instr} {certificate : Certificate} {gap top : Nat} {budget : Nat → Nat}
  {interpreter : Interpreter} {futures after : Futures} {instr : Instr} {input : StepInput}
  {iteration : Iteration}

theorem OnCourse.alone (course : OnCourse instrs certificate interpreter futures)
    (solitary : Solitary instrs certificate gap) (fetched : interpreter.fetch = .ok instr)
    (inserts : instr.opcode? = some .future ∨ instr.opcode? = some .wait) :
    futures.contents = [] := by
  obtain ⟨bound, rfl⟩ := course.fetched_eq fetched
  have none := solitary.alone _ bound inserts
  have most := course.allowed.2
  rw [none] at most
  exact List.length_eq_zero_iff.mp (Nat.le_zero.mp most)

theorem Moves.run_lonely {sysfs : NcmSysfs} {action : Action} {shown : List Observation}
    {next : Interpreter} {labels : List (Action × List Observation)}
    (solitary : Solitary instrs certificate gap)
    (moves : Moves long sysfs action shown next) (unstarted : ¬ StartsInterpreter sysfs action)
    (steered : Steered instrs certificate labels sysfs.ncmInterp)
    (represents : sysfs.ncmInterp.futureQueue.Represents futures) :
    ∃ after, next.futureQueue.Represents after ∧
      Run (Meeting (FutureStep long) Lonely) futures (eventsOf shown) after := by
  rcases moves.quiet_or_iterates unstarted with
    ⟨quiet, queue, _⟩ | ⟨input, instr, iteration, looping, fetched, done, rfl, events⟩
  · rw [quiet, queue]
    exact ⟨futures, represents, .refl _⟩
  · obtain ⟨futures', course⟩ := steered.active (.inr looping)
    have same : futures.contents = futures'.contents :=
      represents.live_eq.symm.trans course.represents.live_eq
    obtain ⟨after, controlStep, represents'⟩ := execute_controlled represents done
    rw [events, resume_futureQueue]
    refine ⟨after, represents', controlStep.run_lonely fun inserts => ?_⟩
    rw [same]
    exact course.alone solitary fetched inserts

/-- A program that never has two futures pending inserts them one at a time. -/
theorem run_lonely {first last : NcmSysfs} {labels : List (Action × List Observation)}
    (certified : Certified instrs certificate) (solitary : Solitary instrs certificate gap)
    (started : Steered instrs certificate [] first.ncmInterp)
    (represents : first.ncmInterp.futureQueue.Represents futures)
    (run : Run (Meeting (Step long) Unstarted) first labels last) :
    ∃ after, last.ncmInterp.futureQueue.Represents after ∧
      Run (Meeting (FutureStep long) Lonely) futures (historyOf labels) after := by
  induction run with
  | refl => exact ⟨futures, represents, .refl _⟩
  | tail hprefix hstep ih =>
      obtain ⟨middle, represents', earlier⟩ := ih
      have steered := run_steered certified started hprefix
      obtain ⟨after, represents'', last⟩ :=
        (step_moves hstep.2).run_lonely solitary hstep.1 steered represents'
      refine ⟨after, represents'', ?_⟩
      rw [historyOf_append, historyOf_singleton]
      exact earlier.trans last

/-- What a history of a certified program has put on the network. -/
structure Load (gap top : Nat) (budget : Nat → Nat) (history : List Event)
    (interpreter : Interpreter) : Prop where
  waits : ∀ insertion ∈ insertionsIn history, gap ≤ insertion.2
  spent : (transmissionsIn history).length ≤ (insertionsIn history).length + top
  room : interpreter.Active → (transmissionsIn history).length ≤
    (insertionsIn history).length + budget interpreter.programCounter.toNat

theorem Load.iterate {history : List Event} (load : Load gap top budget history interpreter)
    (certified : Certified instrs certificate) (solitary : Solitary instrs certificate gap)
    (budgeted : Budgeted instrs budget top)
    (course : OnCourse instrs certificate interpreter futures)
    (looping : interpreter.thread = some .looping) (fetched : interpreter.fetch = .ok instr)
    (done : execute long interpreter instr input = .ok iteration) :
    Load gap top budget (history ++ iteration.events) iteration.resume := by
  obtain ⟨after, controlStep, -⟩ := execute_controlled course.represents done
  obtain ⟨member, opcode, decoded, -⟩ := course.row certified fetched
  have room := load.room (.inr looping)
  have transmits := execute_transmits decoded done
  obtain ⟨bound, rfl⟩ := course.fetched_eq fetched
  have covered := budgeted.covers _ bound opcode decoded
  have flow := budgeted.flows _ bound opcode decoded
  constructor
  · intro insertion inserted
    rw [insertionsIn_append] at inserted
    rcases List.mem_append.mp inserted with old | new
    · exact load.waits insertion old
    · obtain ⟨inserts, delay⟩ := controlStep.inserted_by new
      rw [delay]
      exact solitary.waits _ member inserts
  · rw [transmissionsIn_append, insertionsIn_append, List.length_append, List.length_append]
    omega
  · intro active
    obtain ⟨goesOn, same⟩ := resume_active active
    obtain ⟨opcode', decoded', successor, -, -⟩ :=
      course.successor certified fetched controlStep goesOn
    cases decoded.symm.trans decoded'
    have enough := flow _ successor
    have inserted := controlStep.insertions decoded goesOn
    rw [same, transmissionsIn_append, insertionsIn_append, List.length_append, List.length_append,
      inserted]
    omega

/-- The frames sent in a window exceed the futures inserted in it by the budget
at most. -/
theorem run_load {first middle last : NcmSysfs} {before window : List (Action × List Observation)}
    (certified : Certified instrs certificate) (solitary : Solitary instrs certificate gap)
    (budgeted : Budgeted instrs budget top)
    (started : Steered instrs certificate [] first.ncmInterp)
    (hbefore : Run (Meeting (Step long) Unstarted) first before middle)
    (run : Run (Meeting (Step long) Unstarted) middle window last) :
    Load gap top budget (historyOf window) last.ncmInterp := by
  refine run.history (fun labels sysfs => Load gap top budget (historyOf labels) sysfs.ncmInterp)
    ⟨nofun, Nat.zero_le _, fun _ => Nat.zero_le _⟩ ?_
  intro earlier state label next hprefix load hstep
  have steered := run_steered certified started (hbefore.trans hprefix)
  rw [historyOf_append, historyOf_singleton]
  rcases (step_moves hstep.2).quiet_or_iterates hstep.1 with
    ⟨quiet, _, stays⟩ | ⟨input, instr, iteration, looping, fetched, done, same, events⟩
  · rw [quiet, List.append_nil]
    refine ⟨load.waits, load.spent, fun active => ?_⟩
    obtain ⟨active, counter⟩ := stays active
    rw [counter]
    exact load.room active
  · obtain ⟨futures, course⟩ := steered.active (.inr looping)
    rw [same, events]
    exact load.iterate certified solitary budgeted course looping fetched done

/-- The insertions of a window, which the whole history paces. -/
theorem paced_window {before window : List (Action × List Observation)}
    (paced : Paced (insertionsIn (historyOf (before ++ window)))) :
    Paced (insertionsIn (historyOf window)) := by
  rw [historyOf_append, insertionsIn_append] at paced
  exact (List.pairwise_append.mp paced).2.1

/--
The load of a certified program on the network is bounded in every window of a
run: under a clock that never goes back and sleeps that are not cut short, a
program that inserts its futures one at a time, each for at least `gap`
microseconds, sends at most one frame for every `gap` microseconds of the
window, and as many more as its budget says.
-/
theorem frames_in_window {first last : NcmSysfs}
    {before window : List (Action × List Observation)} {low high : Nat}
    (certified : Certified instrs certificate) (solitary : Solitary instrs certificate gap)
    (budgeted : Budgeted instrs budget top)
    (course : OnCourse instrs certificate first.ncmInterp BoundedQueue.empty)
    (created : first.ncmInterp.thread = some .created)
    (run : Run (Meeting (Step long) Unstarted) first (before ++ window) last)
    (clock : ClockRuns (historyOf (before ++ window)))
    (inside : ∀ reading ∈ readingsIn (historyOf window),
      low ≤ reading.toNat ∧ reading.toNat ≤ high) :
    (transmissionsIn (historyOf window)).length * gap ≤ (top + 1) * gap + (high - low) := by
  have started : Steered instrs certificate [] first.ncmInterp :=
    ⟨fun _ => ⟨_, course⟩, by rw [created]; exact nofun⟩
  obtain ⟨_, _, lonely⟩ := run_lonely certified solitary started course.represents run
  have paced := paced_window (run_paced lonely clock)
  obtain ⟨middle, hbefore, hwindow⟩ := run.append_inv
  have load := run_load certified solitary budgeted started hbefore hwindow
  have few : (insertionsIn (historyOf window)).length * gap ≤ gap + (high - low) := by
    refine insertions_in_window paced load.waits ?_
    rintro ⟨time, delay⟩ member
    obtain ⟨reading, found, rfl⟩ := inserted_reading member
    exact inside reading found
  calc (transmissionsIn (historyOf window)).length * gap
      ≤ ((insertionsIn (historyOf window)).length + top) * gap :=
        Nat.mul_le_mul_right gap load.spent
    _ = (insertionsIn (historyOf window)).length * gap + top * gap := Nat.add_mul _ _ _
    _ ≤ gap + (high - low) + top * gap := Nat.add_le_add_right few _
    _ = (top + 1) * gap + (high - low) := by rw [Nat.add_mul]; omega

end Runs

end NetworkCode.Kernel
