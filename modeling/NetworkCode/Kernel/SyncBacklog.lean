import NetworkCode.Kernel.Control
import NetworkCode.Kernel.SyncWait
import NetworkCode.Library.Mailbox

/-!
# Old and new syncs

Masters, other stations, the wire and a slave.  The sync socket queues every
frame from its creation on, a slave SYNC reads it from the front, and nothing
empties it in between: a sync that no SYNC has read waits for the next one.
-/

namespace NetworkCode.Kernel

open Library Library.Checked

/-! ## The system -/

/-- A frame, numbered in the order of transmission. -/
structure Frame where
  number : Nat
  bytes : List UInt8
  deriving DecidableEq

def Frame.IsSync (frame : Frame) : Prop := hProto frame.bytes = htons ethPNcSync

structure SyncSystem where
  /-- The number of frames transmitted so far. -/
  sent : Nat
  flight : List Frame
  slave : NcmSysfs
  /-- The sync socket; its search is the wait of a slave SYNC. -/
  socket : Mailbox Frame
  /-- What the waiting SYNC has read from its environment. -/
  input : StepInput

inductive SyncLabel where
  | sends
  | arrives (frame : Frame)
  | acts
  | opens
  | begins
  | reads (got : Option (Letter Frame))
  | returns (search : Search Frame) (got : Option (Letter Frame)) (ret : Int)

/-- A read from the socket: an error, or the frame at the front. -/
inductive Delivers (unread : List (Letter Frame)) :
    SockRead → Option (Letter Frame) → List (Letter Frame) → Prop where
  | failed (n : Nat) : Delivers unread (.failed n) none unread
  | frame {letter : Letter Frame} {rest : List (Letter Frame)} (first : unread = letter :: rest) :
      Delivers unread (.frame letter.item.bytes) (some letter) rest

/-- The action is a slave SYNC. -/
def WaitsForSync (sysfs : NcmSysfs) : Action → Prop
  | .instruction _ => ∃ instr, sysfs.ncmInterp.fetch = .ok instr ∧ instr.IsSlaveSync
  | _ => False

/-- The action calls `init_network`, which creates the sync socket. -/
def OpensSocket (sysfs : NcmSysfs) : Action → Prop
  | .storeControl buf _ => buf.take 3 = runCommand ∧ Startable sysfs
  | _ => False

/-- The interpreter thread takes no part in the action. -/
def Action.Elsewhere : Action → Prop
  | .instruction _ | .stopped | .setScheduler _ => False
  | _ => True

namespace SyncSystem

/-- The state in which the sync socket of the slave has been created. -/
def opened (slave : NcmSysfs) (input : StepInput) : SyncSystem :=
  ⟨0, [], slave, .empty, input⟩

def send (system : SyncSystem) (bytes : List UInt8) : SyncSystem :=
  { system with
    sent := system.sent + 1
    flight := system.flight ++ [⟨system.sent, bytes⟩] }

def arrive (system : SyncSystem) (frame : Frame) : SyncSystem :=
  { system with
    flight := system.flight.erase frame
    socket := system.socket.arrive frame }

end SyncSystem

/-- One step of a master, of another station, of the wire or of the slave. -/
inductive SyncStep (long : LongWidth) (system : SyncSystem) :
    SyncLabel → SyncSystem → Prop where
  /-- A SYNC of a master, whatever its network. -/
  | transmits {network : Network} {chan : Nat} {memory : Nat → UInt8} {status ret : Int}
      {events : List NetEvent} {event : NetEvent}
      (sent : ncmSendSync network chan memory status = .ok (ret, events))
      (member : event ∈ events) : SyncStep long system .sends (system.send event.frame)
  | traffic {bytes : List UInt8} (whole : ethHlen ≤ bytes.length) :
      SyncStep long system .sends (system.send bytes)
  | arrives {frame : Frame} (flying : frame ∈ system.flight) :
      SyncStep long system (.arrives frame) (system.arrive frame)
  /-- Another instruction, or another action of the slave's module. -/
  | acts {action : Action} {shown : List Observation} {after : NcmSysfs}
      (free : system.socket.search = none ∨ action.Elsewhere)
      (other : ¬ WaitsForSync system.slave action) (kept : ¬ OpensSocket system.slave action)
      (taken : Step long system.slave (action, shown) after) :
      SyncStep long system .acts { system with slave := after }
  | opens {action : Action} {shown : List Observation} {after : NcmSysfs}
      (opened : OpensSocket system.slave action)
      (taken : Step long system.slave (action, shown) after) :
      SyncStep long system .opens
        { system with slave := after, socket := system.socket.leave [] none }
  | begins {instr : Instr} (input : StepInput) (idle : system.socket.search = none)
      (looping : system.slave.ncmInterp.thread = some .looping)
      (fetched : system.slave.ncmInterp.fetch = .ok instr) (sync : instr.IsSlaveSync) :
      SyncStep long system .begins
        { system with socket := system.socket.begin, input := { input with syncReads := [] } }
  /-- A read after which `ncm_receive_sync` goes on. -/
  | reads {search : Search Frame} {read : SockRead} {got : Option (Letter Frame)}
      {rest : List (Letter Frame)} (now : UInt64) (waiting : system.socket.search = some search)
      (delivers : Delivers system.socket.unread read got rest)
      (still : system.slave.next long (.instruction (system.input.reading read now)) =
        .error .stillWaiting) :
      SyncStep long system (.reads got)
        { system with
          socket := system.socket.leave rest system.socket.search
          input := system.input.reading read now }
  /-- A read after which it returns. -/
  | returns {search : Search Frame} {read : SockRead} {got : Option (Letter Frame)}
      {rest : List (Letter Frame)} {instr : Instr} {ret : Int} {shown : List Observation}
      {after : NcmSysfs} (now : UInt64) (waiting : system.socket.search = some search)
      (delivers : Delivers system.socket.unread read got rest)
      (fetched : system.slave.ncmInterp.fetch = .ok instr)
      (answered : syncAnswer system.slave.ncmInterp instr (system.input.reading read now) =
        .ok ret)
      (taken : Step long system.slave
        (.instruction (system.input.reading read now), shown) after) :
      SyncStep long system (.returns search got ret)
        { system with slave := after, socket := system.socket.leave rest none }

/-- What a step does to the socket as a mailbox. -/
def SyncLabel.mail : SyncLabel → List (MailboxLabel Frame)
  | .sends | .acts => []
  | .arrives frame => [.arrives frame]
  | .opens => [.clears]
  | .begins => [.begins]
  | .reads got => got.toList.map .skips
  | .returns search got ret =>
      if 0 ≤ ret then got.toList.map (.finds search) else got.toList.map .skips ++ [.givesUp]

def SyncLabel.arrived? : SyncLabel → Option Frame
  | .arrives frame => some frame
  | _ => none

/-- The frame that completed a SYNC. -/
def SyncLabel.completed? : SyncLabel → Option Frame
  | .returns _ got ret => if 0 ≤ ret then got.map Letter.item else none
  | _ => none

/-- The frames that completed SYNCs, in order. -/
def completionsIn (labels : List SyncLabel) : List Frame := labels.filterMap SyncLabel.completed?

/-! ## The wait of the slave -/

/-- A slave SYNC that waits has not returned for what it has read. -/
def SyncSystem.Awaits (system : SyncSystem) : Prop :=
  ∃ instr, system.slave.ncmInterp.thread = some .looping ∧
    system.slave.ncmInterp.fetch = .ok instr ∧ instr.IsSlaveSync ∧
    syncAnswer system.slave.ncmInterp instr system.input = .error .stillWaiting

/-- Frames carry their headers, and a wait is one of a slave SYNC. -/
structure SyncSystem.Wired (system : SyncSystem) : Prop where
  flight : ∀ frame ∈ system.flight, ethHlen ≤ frame.bytes.length
  unread : ∀ letter ∈ system.socket.unread, ethHlen ≤ letter.item.bytes.length
  waiting : ∀ search, system.socket.search = some search → system.Awaits

section Slave

variable {long : LongWidth} {sysfs after : NcmSysfs} {instr : Instr} {input : StepInput}
  {action : Action} {shown : List Observation}

/-- A slave SYNC fails as `ncm_receive_sync` does. -/
theorem syncAnswer_of_error (looping : sysfs.ncmInterp.thread = some .looping)
    (fetched : sysfs.ncmInterp.fetch = .ok instr) (sync : instr.IsSlaveSync) {fault : Fault}
    (stopped : sysfs.next long (.instruction input) = .error fault) :
    syncAnswer sysfs.ncmInterp instr input = .error fault := by
  have selected : handler? long sysfs.ncmInterp instr input .sync =
      some (handleSync sysfs.ncmInterp instr input) := rfl
  rw [NcmSysfs.next, if_pos looping, loopIteration, fetched, ok_bind,
    execute_of_handler sync.decoded selected, handleSync, if_neg sync.slave] at stopped
  unfold syncAnswer
  cases answer : ncmReceiveSync sysfs.ncmInterp.network instr.arg1.toUInt64.toInt64
      input.syncStack input.syncStart input.syncReads with
  | error fault' =>
      rw [answer] at stopped
      cases stopped
      rfl
  | ok result =>
      rw [answer] at stopped
      cases stopped

/-- Actions elsewhere leave the wait of the thread as it is. -/
theorem elsewhere_awaits (elsewhere : action.Elsewhere) (kept : ¬ OpensSocket sysfs action)
    (taken : Step long sysfs (action, shown) after) :
    after.ncmInterp.control = sysfs.ncmInterp.control ∧
      after.ncmInterp.network.syncPacketlen = sysfs.ncmInterp.network.syncPacketlen := by
  have moves := step_moves taken
  dsimp only at moves
  generalize after.ncmInterp = interpreter at moves
  cases moves with
  | stays quiet => exact ⟨rfl, rfl⟩
  | writes written => exact ⟨rfl, rfl⟩
  | starts command startable initialised => exact absurd ⟨command, startable⟩ kept
  | tearsDown running destroyed =>
      obtain ⟨released, _, finish⟩ := bind_eq_ok.mp destroyed
      cases finish
      exact ⟨rfl, rfl⟩
  | schedules created quiet => exact elsewhere.elim
  | iterates looping fetched done => exact elsewhere.elim
  | joins stopping => exact elsewhere.elim
  | receives receiving received => exact ⟨rfl, (receivingPass_sameSetup received).syncPacketlen⟩

end Slave

/-! ## Steps -/

section Steps

variable {long : LongWidth} {system after : SyncSystem} {label : SyncLabel}
  {labels : List SyncLabel} {unread rest : List (Letter Frame)} {read : SockRead}
  {got : Option (Letter Frame)}

theorem Delivers.whole (delivers : Delivers unread read got rest)
    (headers : ∀ letter ∈ unread, ethHlen ≤ letter.item.bytes.length) : read.Whole := by
  cases delivers with
  | failed n => trivial
  | frame first => exact headers _ (first ▸ List.mem_cons_self)

theorem Delivers.rest_mem (delivers : Delivers unread read got rest) {letter : Letter Frame}
    (member : letter ∈ rest) : letter ∈ unread := by
  cases delivers with
  | failed n => exact member
  | frame first => exact first ▸ List.mem_cons_of_mem _ member

/-- A wait goes on through what does not touch the thread or the packet length. -/
theorem awaits_congr {slave : NcmSysfs} (awaits : system.Awaits)
    (control : slave.ncmInterp.control = system.slave.ncmInterp.control)
    (length : slave.ncmInterp.network.syncPacketlen =
      system.slave.ncmInterp.network.syncPacketlen) :
    SyncSystem.Awaits { system with slave := slave } := by
  obtain ⟨instr, looping, fetched, sync, still⟩ := awaits
  refine ⟨instr, (congrArg Control.thread control).trans looping, ?_, sync, ?_⟩
  · obtain ⟨block, program, fetched⟩ := Interpreter.fetch_eq_ok.mp fetched
    have counter : slave.ncmInterp.programCounter = system.slave.ncmInterp.programCounter :=
      congrArg Control.programCounter control
    refine Interpreter.fetch_eq_ok.mpr
      ⟨block, (congrArg Control.program control).trans program, ?_⟩
    rw [counter]
    exact fetched
  · rw [syncAnswer_eq] at still ⊢
    rw [length]
    exact still

theorem wired_send (wired : system.Wired) {bytes : List UInt8} (whole : ethHlen ≤ bytes.length) :
    (system.send bytes).Wired where
  flight frame member := by
    rcases List.mem_append.mp member with earlier | last
    · exact wired.flight frame earlier
    · cases List.mem_singleton.mp last
      exact whole
  unread := wired.unread
  waiting := wired.waiting

theorem wired_arrive (wired : system.Wired) {frame : Frame} (flying : frame ∈ system.flight) :
    (system.arrive frame).Wired where
  flight other member := wired.flight other (List.mem_of_mem_erase member)
  unread letter member := by
    rcases List.mem_append.mp member with earlier | last
    · exact wired.unread letter earlier
    · cases List.mem_singleton.mp last
      exact wired.flight frame flying
  waiting := wired.waiting

theorem wired_step (wired : system.Wired) (step : SyncStep long system label after) :
    after.Wired := by
  cases step with
  | transmits sent member => exact wired_send wired (ncmSendSync_frames sent member).1
  | traffic whole => exact wired_send wired whole
  | arrives flying => exact wired_arrive wired flying
  | acts free other kept taken =>
      refine ⟨wired.flight, wired.unread, fun search waiting => ?_⟩
      rcases free with idle | elsewhere
      · cases idle.symm.trans waiting
      · obtain ⟨control, length⟩ := elsewhere_awaits elsewhere kept taken
        exact awaits_congr (wired.waiting search waiting) control length
  | opens opened taken => exact ⟨wired.flight, nofun, nofun⟩
  | begins input idle looping fetched sync =>
      exact ⟨wired.flight, wired.unread, fun _ _ =>
        ⟨_, looping, fetched, sync, syncAnswer_nil rfl⟩⟩
  | reads now waiting delivers still =>
      refine ⟨wired.flight, fun letter member => wired.unread letter (delivers.rest_mem member),
        fun search searching => ?_⟩
      obtain ⟨instr, looping, fetched, sync, _⟩ := wired.waiting _ waiting
      exact ⟨instr, looping, fetched, sync, syncAnswer_of_error looping fetched sync still⟩
  | returns now waiting delivers fetched answered taken =>
      exact ⟨wired.flight, fun letter member => wired.unread letter (delivers.rest_mem member),
        nofun⟩

theorem wired_opened (slave : NcmSysfs) (input : StepInput) :
    (SyncSystem.opened slave input).Wired where
  flight := nofun
  unread := nofun
  waiting := nofun

theorem run_wired {slave : NcmSysfs} {input : StepInput}
    (run : Run (SyncStep long) (.opened slave input) labels system) : system.Wired :=
  run.invariant _ (fun _ _ _ wired step => wired_step wired step) (wired_opened slave input)

/-- A thread that waits keeps the module from starting another. -/
theorem opens_idle (wired : system.Wired) {action : Action}
    (opened : OpensSocket system.slave action) : system.socket.search = none := by
  cases searching : system.socket.search with
  | none => rfl
  | some search =>
      obtain ⟨instr, looping, -⟩ := wired.waiting search searching
      cases action with
      | storeControl buf env =>
          have stopped := opened.2.1
          rw [Interpreter.isRunning, looping] at stopped
          cases stopped
      | _ => exact opened.elim

/-- The read after which a SYNC goes on is of no sync frame, and what it reads
is taken from the front. -/
theorem mail_reads {search : Search Frame} (wired : system.Wired) (now : UInt64)
    (waiting : system.socket.search = some search)
    (delivers : Delivers system.socket.unread read got rest)
    (still : system.slave.next long (.instruction (system.input.reading read now)) =
      .error .stillWaiting) :
    Run (Mailbox.Step Frame.IsSync) system.socket (got.toList.map .skips)
      (system.socket.leave rest system.socket.search) := by
  obtain ⟨instr, looping, fetched, sync, before⟩ := wired.waiting search waiting
  have other := syncAnswer_waiting before (delivers.whole wired.unread)
    (syncAnswer_of_error looping fetched sync still)
  cases delivers with
  | failed n => exact .refl _
  | frame first => exact .single (.skips first other)

theorem mail_returns {search : Search Frame} (wired : system.Wired) {instr : Instr} {ret : Int}
    (now : UInt64) (waiting : system.socket.search = some search)
    (delivers : Delivers system.socket.unread read got rest)
    (fetched : system.slave.ncmInterp.fetch = .ok instr)
    (answered : syncAnswer system.slave.ncmInterp instr (system.input.reading read now) =
      .ok ret) :
    Run (Mailbox.Step Frame.IsSync) system.socket (SyncLabel.mail (.returns search got ret))
        (system.socket.leave rest none) ∧
      (0 ≤ ret → got.isSome) := by
  obtain ⟨instr', looping, fetched', sync, before⟩ := wired.waiting search waiting
  cases fetched.symm.trans fetched'
  have outcome := syncAnswer_ok before (delivers.whole wired.unread) answered
  rw [SyncLabel.mail]
  split
  · next success =>
      cases delivers with
      | failed n => exact (outcome.mp success).elim
      | frame first => exact ⟨.single (.finds waiting first (outcome.mp success)), fun _ => rfl⟩
  · next failure =>
      refine ⟨?_, fun success => absurd success failure⟩
      cases delivers with
      | failed n => exact .single .givesUp
      | frame first =>
          have other := fun is => failure (outcome.mpr is)
          exact (Run.single (.skips first other)).trans (.single .givesUp)

/-- The socket under a step is a mailbox under the steps of the label. -/
theorem mail_step (wired : system.Wired) (step : SyncStep long system label after) :
    Run (Mailbox.Step Frame.IsSync) system.socket label.mail after.socket := by
  cases step with
  | transmits sent member => exact .refl _
  | traffic whole => exact .refl _
  | arrives flying => exact .single (.arrives _)
  | acts free other kept taken => exact .refl _
  | opens opened taken => exact .single (.clears (opens_idle wired opened))
  | begins input idle looping fetched sync => exact .single (.begins idle)
  | reads now waiting delivers still => exact mail_reads wired now waiting delivers still
  | returns now waiting delivers fetched answered taken =>
      exact (mail_returns wired now waiting delivers fetched answered).1

end Steps

/-! ## Runs -/

section Runs

variable {long : LongWidth} {slave : NcmSysfs} {input : StepInput} {labels : List SyncLabel}
  {system after : SyncSystem} {label : SyncLabel}

theorem run_mail (run : Run (SyncStep long) (.opened slave input) labels system) :
    Run (Mailbox.Step Frame.IsSync) .empty (labels.flatMap SyncLabel.mail) system.socket := by
  induction run with
  | refl => exact .refl _
  | tail hprefix step ih =>
      rw [List.flatMap_append, List.flatMap_singleton]
      exact ih.trans (mail_step (run_wired hprefix) step)

theorem arrivalsIn_mail (labels : List SyncLabel) :
    arrivalsIn (labels.flatMap SyncLabel.mail) = labels.filterMap SyncLabel.arrived? := by
  rw [arrivalsIn, List.filterMap_flatMap, List.filterMap_eq_flatMap_toList]
  congr 1
  funext label
  cases label with
  | reads got => cases got <;> rfl
  | returns search got ret =>
      rw [SyncLabel.mail]
      split <;> cases got <;> rfl
  | _ => rfl

theorem findingsIn_mail (labels : List SyncLabel) :
    (findingsIn (labels.flatMap SyncLabel.mail)).map Letter.item = completionsIn labels := by
  rw [findingsIn, completionsIn, List.filterMap_flatMap, List.filterMap_eq_flatMap_toList,
    List.map_flatMap]
  congr 1
  funext label
  cases label with
  | reads got => cases got <;> rfl
  | returns search got ret =>
      rw [SyncLabel.mail, SyncLabel.completed?]
      split <;> cases got <;> rfl
  | _ => rfl

/-- The frames that have arrived and those in flight are different ones. -/
structure Numbered (arrived : List Frame) (system : SyncSystem) : Prop where
  nodup : ((arrived ++ system.flight).map Frame.number).Nodup
  below : ∀ frame ∈ arrived ++ system.flight, frame.number < system.sent

theorem Numbered.send {arrived : List Frame} (numbered : Numbered arrived system)
    (bytes : List UInt8) : Numbered arrived (system.send bytes) where
  nodup := by
    change ((arrived ++ (system.flight ++ [_])).map Frame.number).Nodup
    rw [← List.append_assoc, List.map_append]
    refine List.Nodup.append numbered.nodup (List.nodup_singleton _) ?_
    intro number old new
    obtain ⟨frame, member, rfl⟩ := List.mem_map.mp old
    have fresh : frame.number = system.sent := List.mem_singleton.mp new
    exact absurd (numbered.below frame member) (fresh ▸ Nat.lt_irrefl _)
  below frame member := by
    change frame ∈ arrived ++ (system.flight ++ [_]) at member
    rw [← List.append_assoc] at member
    rcases List.mem_append.mp member with old | new
    · exact Nat.lt_succ_of_lt (numbered.below frame old)
    · cases List.mem_singleton.mp new
      exact Nat.lt_succ_self _

theorem Numbered.arrive {arrived : List Frame} (numbered : Numbered arrived system)
    {frame : Frame} (flying : frame ∈ system.flight) :
    Numbered (arrived ++ [frame]) (system.arrive frame) := by
  have same : (arrived ++ [frame] ++ (system.arrive frame).flight).Perm
      (arrived ++ system.flight) := by
    rw [List.append_assoc]
    exact (List.perm_cons_erase flying).symm.append_left arrived
  exact ⟨(same.map Frame.number).nodup_iff.mpr numbered.nodup,
    fun other member => numbered.below other (same.mem_iff.mp member)⟩

theorem Numbered.quiet {arrived : List Frame} (numbered : Numbered arrived after)
    (none : label.arrived? = none) : Numbered (arrived ++ label.arrived?.toList) after := by
  rw [none, Option.toList_none, List.append_nil]
  exact numbered

theorem numbered_step {arrived : List Frame} (numbered : Numbered arrived system)
    (step : SyncStep long system label after) :
    Numbered (arrived ++ label.arrived?.toList) after := by
  cases step with
  | transmits sent member => exact (numbered.send _).quiet rfl
  | traffic whole => exact (numbered.send _).quiet rfl
  | arrives flying => exact numbered.arrive flying
  | _ => exact Numbered.quiet ⟨numbered.nodup, numbered.below⟩ rfl

theorem run_numbered (run : Run (SyncStep long) (.opened slave input) labels system) :
    Numbered (labels.filterMap SyncLabel.arrived?) system := by
  induction run with
  | refl => exact ⟨List.nodup_nil, nofun⟩
  | @tail middle last labels label hprefix step ih =>
      have grown := numbered_step ih step
      rw [List.filterMap_append]
      cases arrived : label.arrived? with
      | none => simpa [arrived] using grown
      | some frame => simpa [arrived] using grown

/-- No frame completes two SYNCs. -/
theorem completions_nodup (run : Run (SyncStep long) (.opened slave input) labels system) :
    ((completionsIn labels).map Frame.number).Nodup := by
  have found := Mailbox.run_findings (run_mail run)
  rw [findingsIn_mail, arrivalsIn_mail] at found
  have arrived : (completionsIn labels).Sublist (labels.filterMap SyncLabel.arrived?) :=
    (List.sublist_append_left _ _).trans found
  have nodup := (run_numbered run).nodup
  rw [List.map_append] at nodup
  exact (List.nodup_append.mp nodup).1.sublist (arrived.map Frame.number)

/-- A SYNC that succeeds has been completed by the first sync it read. -/
theorem completed_ends (run : Run (SyncStep long) (.opened slave input) labels system)
    {search : Search Frame} {got : Option (Letter Frame)} {ret : Int}
    (returned : .returns search got ret ∈ labels) (success : 0 ≤ ret) :
    ∃ letter, got = some letter ∧ Ends Frame.IsSync search letter := by
  have completed : ∃ letter, got = some letter := by
    obtain ⟨earlier, later, rfl⟩ := List.append_of_mem returned
    obtain ⟨middle, next, reached, step, -⟩ := run.middle_inv
    cases step with
    | returns now waiting delivers fetched answered taken =>
        exact Option.isSome_iff_exists.mp
          ((mail_returns (run_wired reached) now waiting delivers fetched answered).2 success)
  obtain ⟨letter, rfl⟩ := completed
  refine ⟨letter, rfl, Mailbox.run_ends (run_mail run) ?_⟩
  refine List.mem_flatMap.mpr ⟨_, returned, ?_⟩
  rw [SyncLabel.mail, if_pos success]
  exact List.mem_singleton_self _

/--
For every order of transmissions, other traffic, waits and other actions of the
slave since its sync socket was created: a slave SYNC that succeeds was
completed by a sync frame, which arrived after the SYNC began unless a sync
frame was queued unread by then, in which case it is the first of these; and no
frame completes two SYNCs.
-/
theorem slaveSync_completions
    (run : Run (SyncStep long) (.opened slave input) labels system) :
    (∀ search got ret, .returns search got ret ∈ labels → 0 ≤ ret →
      ∃ letter, got = some letter ∧ letter.item.IsSync ∧
        (search.begun ≤ letter.place ↔ ∀ old ∈ search.unread, ¬ old.item.IsSync) ∧
        (letter.place < search.begun → ∃ skipped rest,
          search.unread = skipped ++ letter :: rest ∧ ∀ old ∈ skipped, ¬ old.item.IsSync)) ∧
      ((completionsIn labels).map Frame.number).Nodup := by
  refine ⟨fun search got ret returned success => ?_, completions_nodup run⟩
  obtain ⟨letter, received, ends⟩ := completed_ends run returned success
  exact ⟨letter, received, ends.found, ends.fresh_iff, ends.oldest⟩

end Runs

/-! ## A sync from before the wait -/

/-- A master with one channel and its device. -/
def syncSender : Network :=
  { zeroNetwork with
    channels := 1
    table := some [⟨[], broadcastMac, 1, .device ⟨1, broadcastMac⟩⟩]
    syncPacketlen := ethZlen }

/-- The frame that the master puts on the wire. -/
def sentSync : List UInt8 :=
  hardFrame broadcastMac ⟨1, broadcastMac⟩ (syncSkb fun _ => 0)

/-- It is the first frame of all and the first to arrive. -/
def firstLetter : Letter Frame := ⟨0, ⟨0, sentSync⟩⟩

/-- The slave has run up to its SYNC when the master sends, and the frame is
there before the SYNC begins. -/
theorem staleSync_run : ∃ (slave : NcmSysfs) (system : SyncSystem),
    Run (SyncStep .bits64) (.opened slave (.atClock 0 0 0))
      [.sends, .arrives firstLetter.item, .begins,
        .returns ⟨1, [firstLetter]⟩ (some firstLetter) 0] system := by
  have loaded : ∃ slave labels after shown, runFromInit .bits64
      (loadAndRun [.make .sync syncSlave 0 0 0] oneChannel .bare) = .ok (slave, labels) ∧
      slave.ncmInterp.thread = some .looping ∧
      slave.ncmInterp.fetch = .ok (.make .sync syncSlave 0 0 0) ∧
      syncAnswer slave.ncmInterp (.make .sync syncSlave 0 0 0)
        ((StepInput.atClock 0 0 0).reading (.frame sentSync) 0) = .ok 0 ∧
      Step .bits64 slave
        (.instruction ((StepInput.atClock 0 0 0).reading (.frame sentSync) 0), shown) after :=
    ⟨_, _, _, _, rfl, rfl, rfl, rfl, rfl⟩
  obtain ⟨slave, labels, after, shown, -, looping, fetched, answered, taken⟩ := loaded
  have transmitted : ncmSendSync syncSender 0 (fun _ => 0) 0 =
      .ok (0, [.xmit ⟨1, broadcastMac⟩ sentSync 0]) := rfl
  have sync : Instr.IsSlaveSync (.make .sync syncSlave 0 0 0) := ⟨rfl, by decide⟩
  have sent : Run (SyncStep .bits64) (.opened slave (.atClock 0 0 0)) [.sends] _ :=
    .single (.transmits transmitted (List.mem_singleton_self _))
  have arrived := sent.tail (.arrives (List.mem_singleton_self firstLetter.item))
  have begun := arrived.tail (.begins (.atClock 0 0 0) rfl looping fetched sync)
  exact ⟨slave, _, begun.tail (.returns 0 rfl (.frame rfl) fetched answered taken)⟩

/-- The completion of that run obeys the rule. -/
theorem slaveSync_completions_stale : ∃ (search : Search Frame) (letter : Letter Frame),
    letter.item.IsSync ∧ letter.place < search.begun ∧ ∃ skipped rest,
      search.unread = skipped ++ letter :: rest ∧ ∀ old ∈ skipped, ¬ old.item.IsSync := by
  obtain ⟨slave, system, run⟩ := staleSync_run
  obtain ⟨completed, -⟩ := slaveSync_completions run
  obtain ⟨letter, same, sync, -, oldest⟩ := completed ⟨1, [firstLetter]⟩ (some firstLetter) 0
    (by simp) (Int.le_refl 0)
  cases same
  exact ⟨⟨1, [firstLetter]⟩, firstLetter, sync, Nat.zero_lt_one, oldest Nat.zero_lt_one⟩

/-- A slave SYNC is completed by a sync that arrived before it began. -/
theorem slaveSync_stale :
    ¬ ∀ (long : LongWidth) (slave : NcmSysfs) (input : StepInput) (labels : List SyncLabel)
      (system : SyncSystem), Run (SyncStep long) (.opened slave input) labels system →
      (∀ search got ret, .returns search got ret ∈ labels → 0 ≤ ret →
        ∃ letter, got = some letter ∧ letter.item.IsSync ∧ search.begun ≤ letter.place) ∧
        ((completionsIn labels).map Frame.number).Nodup := by
  intro claim
  obtain ⟨slave, system, run⟩ := staleSync_run
  obtain ⟨letter, same, -, fresh⟩ := (claim _ _ _ _ _ run).1 ⟨1, [firstLetter]⟩
    (some firstLetter) 0 (by simp) (Int.le_refl 0)
  cases same
  exact Nat.not_succ_le_zero 0 fresh

end NetworkCode.Kernel
