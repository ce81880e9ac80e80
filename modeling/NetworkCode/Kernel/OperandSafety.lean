import NetworkCode.Kernel.NetworkFrame
import NetworkCode.Kernel.Resumption

/-!
# The tables that operands index

Ids come straight from the bytecode and no handler compares them with the size
of their table.  An instruction therefore stays inside the tables when its ids
do; with an id outside, it leaves a table or goes on as if nothing had been
asked.
-/

namespace NetworkCode.Kernel

open Library Library.Checked

variable {long : LongWidth}

/-- An id among the operands, with the table it indexes. -/
structure Operand where
  table : Table
  id : UInt32
  deriving DecidableEq

/-- The ids that a guard uses. -/
def Guard.operands (arg0 arg1 : UInt32) : Guard → List Operand
  | .channelXyRcvBufEmpty => [⟨.channels, arg0⟩]
  | .testCount => [⟨.counters, arg0⟩]
  | .equalVarVar | .greaterVarVar | .lessVarVar => [⟨.variables, arg0⟩, ⟨.variables, arg1⟩]
  | .testVar => [⟨.variables, arg0⟩]
  | .alwaysTrue | .alwaysFalse | .sendBufferEmpty | .statusTest => []
  | .varQueueEmpty | .varQueueFull => []

/-- The ids that an instruction of a given opcode uses. -/
def Opcode.operands (instr : Instr) : Opcode → List Operand
  | .create => [⟨.variables, instr.arg0⟩, ⟨.messages, instr.arg1⟩]
  | .send => [⟨.channels, instr.arg0⟩, ⟨.messages, instr.arg1⟩]
  | .receive => [⟨.channels, instr.arg0⟩, ⟨.variables, instr.arg1⟩]
  | .clearCounter | .addToCounter | .subFromCounter | .setCounter =>
      [⟨.counters, instr.arg0⟩]
  | .sync => if instr.arg0 = syncMaster then [⟨.channels, instr.arg1⟩] else []
  | .if =>
      match Guard.ofCode? instr.arg0 with
      | some guard => guard.operands instr.arg2 instr.arg3
      | none => []
  | _ => []

def Instr.operands (instr : Instr) : List Operand :=
  match instr.opcode? with
  | some opcode => opcode.operands instr
  | none => []

/-- How many entries a table has. -/
def Interpreter.entries (interpreter : Interpreter) : Table → Nat
  | .program => (interpreter.program.map CodeBlock.records).getD 0
  | .futures => maxFutures
  | .variables => maxVariables
  | .messages => maxMessages
  | .counters => maxCounters
  | .channels => interpreter.network.channels.toNat

namespace Operand

/-- The id is below the size of its table. -/
def InRange (interpreter : Interpreter) (operand : Operand) : Prop :=
  operand.id.toNat < interpreter.entries operand.table

/-- The entry exists: the id is in range and its table has not been released. -/
def Exists (interpreter : Interpreter) (operand : Operand) : Prop :=
  operand.InRange interpreter ∧
    (operand.table = .channels → interpreter.network.table ≠ none)

end Operand

/-- The faults of an access to an entry that does not exist. -/
def Fault.IsTableFault : Fault → Prop
  | .outOfBounds _ _ | .freedChannels => True
  | _ => False

/-- The instruction accesses existing entries only, and an id out of range
makes it end with an error. -/
structure OperandSafe (long : LongWidth) (interpreter : Interpreter) (instr : Instr)
    (input : StepInput) : Prop where
  accesses : Avoids Fault.IsTableFault (execute long interpreter instr input)
  rejects : (∃ operand ∈ instr.operands, ¬ operand.InRange interpreter) →
    ∃ iteration, execute long interpreter instr input = .ok iteration ∧
      iteration.exit = some .programError

/-- A SEND that fails on its channel before it looks at its message. -/
def SendsNowhere (interpreter : Interpreter) (instr : Instr) : Prop :=
  instr.opcode? = some .send ∧
    ∃ channel, interpreter.network.channel instr.arg0.toNat = .ok channel ∧
      channel.dev = .null

/-! ## Ids of existing entries -/

section Existing

variable {interpreter : Interpreter} {instr : Instr} {input : StepInput}

theorem channel_of_exists (wellSet : interpreter.network.WellSet) {id : UInt32}
    (present : Operand.Exists interpreter ⟨.channels, id⟩) :
    ∃ channel, interpreter.network.channel id.toNat = .ok channel := by
  cases htable : interpreter.network.table with
  | none => exact (present.2 rfl htable).elim
  | some table =>
      have bound : id.toNat < table.length := by
        rw [wellSet.table_length table htable]
        exact present.1
      exact ⟨table[id.toNat], by simp [Network.channel, htable, bound]⟩

theorem channel_avoids (wellSet : interpreter.network.WellSet) {id : UInt32}
    (present : Operand.Exists interpreter ⟨.channels, id⟩) :
    Avoids Fault.IsTableFault (interpreter.network.channel id.toNat) := by
  obtain ⟨channel, found⟩ := channel_of_exists wellSet present
  rw [found]
  exact .ok channel

theorem updateCounter_avoids {counters : CounterArray} {id : Nat} {f : UInt32 → UInt32}
    (bound : id < maxCounters) : Avoids Fault.IsTableFault (updateCounter counters id f) :=
  (load_avoids bound).bind fun _ _ => store_avoids bound

theorem getVariableData_avoids {varspace : Varspace} {id : Nat} (bound : id < maxVariables) :
    Avoids Fault.IsTableFault (getVariableData varspace id) :=
  (load_avoids bound).bind fun _ _ => .ok _

theorem storeSize_avoids {long : LongWidth} (size : Nat) :
    Avoids Fault.IsTableFault (storeSize long size) := by
  unfold storeSize
  split
  · exact .ok size
  · exact .error id

theorem setVariableData_avoids {varspace : Varspace} {id length : Nat} {data : List UInt8}
    (bound : id < maxVariables) :
    Avoids Fault.IsTableFault (setVariableData varspace id data length) := by
  refine (load_avoids bound).bind fun var _ => Avoids.bind ?_ fun _ _ => store_avoids bound
  unfold Variable.set
  split
  · exact .ok _
  · exact .error not_false

theorem cmpVariables_avoids {varspace : Varspace} {id1 id2 : Nat} (bound1 : id1 < maxVariables)
    (bound2 : id2 < maxVariables) :
    Avoids Fault.IsTableFault (cmpVariables varspace id1 id2) :=
  (load_avoids bound1).bind fun _ _ => (load_avoids bound2).bind fun _ _ => .ok _

theorem guard_avoids (wellSet : interpreter.network.WellSet) {guard : Guard}
    {arg0 arg1 : UInt32}
    (present : ∀ operand ∈ guard.operands arg0 arg1, operand.Exists interpreter) :
    Avoids Fault.IsTableFault (guard.handle interpreter arg0 arg1) := by
  have bound {operand : Operand} (member : operand ∈ guard.operands arg0 arg1) :
      operand.id.toNat < interpreter.entries operand.table := (present operand member).1
  cases guard with
  | alwaysTrue | alwaysFalse | sendBufferEmpty | statusTest | varQueueEmpty | varQueueFull =>
      exact .ok _
  | channelXyRcvBufEmpty =>
      exact (channel_avoids wellSet (present _ List.mem_cons_self)).bind fun _ _ => .ok _
  | testCount => exact (load_avoids (bound List.mem_cons_self)).bind fun _ _ => .ok _
  | equalVarVar | greaterVarVar | lessVarVar =>
      refine Avoids.bind (cmpVariables_avoids (bound List.mem_cons_self) ?_) fun _ _ => .ok _
      exact bound (List.mem_cons_of_mem _ List.mem_cons_self)
  | testVar =>
      simp only [Guard.handle, handleTestVar, testVariable]
      split
      · exact (load_avoids (bound List.mem_cons_self)).bind fun _ _ => .ok _
      · exact .ok _

theorem testGuard_avoids (wellSet : interpreter.network.WellSet) {guardId arg0 arg1 : UInt32}
    (present : ∀ guard, Guard.ofCode? guardId = some guard →
      ∀ operand ∈ guard.operands arg0 arg1, operand.Exists interpreter) :
    Avoids Fault.IsTableFault (testGuard interpreter guardId arg0 arg1) := by
  unfold testGuard
  split
  · next guard known => exact (guard_avoids wellSet (present guard known)).bind fun _ _ => .ok _
  · exact .ok _

theorem ncSendmsgHard_avoids {destMac : Mac} {dev : DevPtr} {slot : Option SkBuff} {status : Int} :
    Avoids Fault.IsTableFault (ncSendmsgHard destMac dev slot status) := by
  unfold ncSendmsgHard
  split
  · exact .ok _
  · split
    · exact .ok _
    · exact .error not_false

theorem receiveSyncLoop_avoids {timeout start : Int64} {buff : List UInt8}
    {reads : List (SockRead × UInt64)} :
    Avoids Fault.IsTableFault (receiveSyncLoop timeout start buff reads) := by
  induction reads generalizing buff with
  | nil => exact .error not_false
  | cons read reads ih =>
      obtain ⟨read, nowUs⟩ := read
      have rcvmsg : Avoids Fault.IsTableFault (ncRcvmsg buff read ethPNcSync) := by
        unfold ncRcvmsg
        dsimp only
        split
        · exact .ok _
        · split
          · exact .error not_false
          · split
            · exact .ok _
            · exact .ok _
      refine rcvmsg.bind fun length _ => ?_
      split
      · dsimp only
        split
        · exact .ok _
        · exact ih.bind fun _ _ => .ok _
      · exact .ok _

theorem handleFuture_avoids {futures : Futures}
    (represents : interpreter.futureQueue.Represents futures) :
    Avoids Fault.IsTableFault (handleFuture interpreter instr input) := by
  rcases handleFuture_cases represents instr input with refused | ⟨_, _, _, _, _, ran⟩
  · rw [refused]
    exact .ok _
  · rw [ran]
    exact .ok _

theorem handleHalt_avoids {futures : Futures}
    (represents : interpreter.futureQueue.Represents futures) :
    Avoids Fault.IsTableFault (handleHalt interpreter input long) := by
  cases pop : futures.pop with
  | none =>
      rw [handleHalt_refused represents pop]
      exact .ok _
  | some taken =>
      obtain ⟨_, _, ran⟩ := handleHalt_accepted represents input long pop
      rw [ran]
      exact .ok _

theorem handleWait_avoids {futures : Futures}
    (represents : interpreter.futureQueue.Represents futures) :
    Avoids Fault.IsTableFault (handleWait interpreter instr input long) := by
  rcases handleWait_cases represents instr input long with
    ⟨refused, _⟩ | ⟨_, _, _, _, _, _, _, _, waited⟩
  · rw [refused]
    exact .ok _
  · rw [waited]
    exact .ok _

theorem handleGoto_avoids : Avoids Fault.IsTableFault (handleGoto interpreter instr) := by
  unfold handleGoto
  dsimp only
  split
  · exact .ok _
  · exact .ok _

theorem handleIf_avoids (wellSet : interpreter.network.WellSet)
    (present : ∀ operand ∈ Opcode.if.operands instr, operand.Exists interpreter) :
    Avoids Fault.IsTableFault (handleIf interpreter instr) := by
  refine Avoids.bind (testGuard_avoids wellSet fun guard known operand member => ?_)
    fun tested _ => ?_
  · apply present operand
    rw [Opcode.operands, known]
    exact member
  · obtain ⟨holds, status⟩ := tested
    cases status <;> cases holds <;> exact .ok _

theorem handleCreate_avoids {long : LongWidth} (var : instr.arg0.toNat < maxVariables)
    (msg : instr.arg1.toNat < maxMessages) :
    Avoids Fault.IsTableFault (handleCreate interpreter instr input long) := by
  refine Avoids.bind ?_ fun _ _ => .ok _
  refine (load_avoids msg).bind fun _ _ => ?_
  refine (getVariableData_avoids var).bind fun _ _ => (storeSize_avoids _).bind fun _ _ => ?_
  exact (store_avoids msg).bind fun _ _ => .ok _

theorem handleSend_avoids (wellSet : interpreter.network.WellSet)
    (channel : Operand.Exists interpreter ⟨.channels, instr.arg0⟩)
    (msg : instr.arg1.toNat < maxMessages) :
    Avoids Fault.IsTableFault (handleSend interpreter instr input) := by
  refine Avoids.bind ?_ fun _ _ => .ok _
  unfold ncmSendMessage
  rw [wellSet.mode_hard]
  refine (channel_avoids wellSet channel).bind fun channel _ => ?_
  split
  · exact .ok _
  · refine (load_avoids msg).bind fun _ _ => ?_
    exact ncSendmsgHard_avoids.bind fun _ _ => (store_avoids msg).bind fun _ _ => .ok _

theorem handleReceive_avoids (wellSet : interpreter.network.WellSet)
    (channel : Operand.Exists interpreter ⟨.channels, instr.arg0⟩)
    (var : instr.arg1.toNat < maxVariables) :
    Avoids Fault.IsTableFault (handleReceive interpreter instr) := by
  refine Avoids.bind ?_ fun _ _ => .ok _
  refine (channel_avoids wellSet channel).bind fun channel _ => ?_
  split
  · exact .ok _
  · exact (setVariableData_avoids var).bind fun _ _ => .ok _

theorem handleSync_avoids (wellSet : interpreter.network.WellSet)
    (channel : instr.arg0 = syncMaster → Operand.Exists interpreter ⟨.channels, instr.arg1⟩) :
    Avoids Fault.IsTableFault (handleSync interpreter instr input) := by
  unfold handleSync
  dsimp only
  split
  · next master =>
      refine Avoids.bind ?_ fun _ _ => .ok _
      unfold ncmSendSync
      rw [wellSet.mode_hard]
      refine (channel_avoids wellSet (channel master)).bind fun channel _ => ?_
      split
      · exact .ok _
      · exact ncSendmsgHard_avoids.bind fun _ _ => .ok _
  · refine Avoids.bind ?_ fun _ _ => .ok _
    exact receiveSyncLoop_avoids.bind fun _ _ => .ok _

/-- With existing entries no handler leaves a table. -/
theorem handler_avoids {opcode : Opcode} {handled : Exec Executed} {futures : Futures}
    (wellSet : interpreter.network.WellSet)
    (represents : interpreter.futureQueue.Represents futures)
    (present : ∀ operand ∈ opcode.operands instr, operand.Exists interpreter)
    (selected : handler? long interpreter instr input opcode = some handled) :
    Avoids Fault.IsTableFault handled := by
  have first {operand : Operand} {rest : List Operand}
      (split : opcode.operands instr = operand :: rest) : operand.Exists interpreter :=
    present operand (split ▸ List.mem_cons_self)
  have second {operand operand' : Operand} {rest : List Operand}
      (split : opcode.operands instr = operand' :: operand :: rest) :
      operand.Exists interpreter :=
    present operand (split ▸ List.mem_cons_of_mem _ List.mem_cons_self)
  cases opcode with
  | nop => cases selected; exact .ok _
  | goto => cases selected; exact handleGoto_avoids
  | future => cases selected; exact handleFuture_avoids represents
  | halt => cases selected; exact handleHalt_avoids represents
  | wait => cases selected; exact handleWait_avoids represents
  | «if» => cases selected; exact handleIf_avoids wellSet present
  | clearCounter | addToCounter | subFromCounter | setCounter =>
      cases selected
      exact (updateCounter_avoids (first rfl).1).bind fun _ _ => .ok _
  | create => cases selected; exact handleCreate_avoids (first rfl).1 (second rfl).1
  | send => cases selected; exact handleSend_avoids wellSet (first rfl) (second rfl).1
  | receive => cases selected; exact handleReceive_avoids wellSet (first rfl) (second rfl).1
  | sync =>
      cases selected
      apply handleSync_avoids wellSet
      intro master
      exact first (if_pos master)
  | mode | destroy | handle | xsend | backupSend | backupReceive | endOfProgram =>
      cases selected

theorem execute_avoids {futures : Futures} (wellSet : interpreter.network.WellSet)
    (represents : interpreter.futureQueue.Represents futures)
    (present : ∀ operand ∈ instr.operands, operand.Exists interpreter) :
    Avoids Fault.IsTableFault (execute long interpreter instr input) := by
  unfold execute
  split
  · exact .ok _
  · next handled selected =>
      obtain ⟨opcode, decoded, selected⟩ := Option.bind_eq_some_iff.mp selected
      rw [Instr.operands, decoded] at present
      exact (handler_avoids wellSet represents present selected).bind fun _ _ => .ok _

end Existing

/-! ## Ids of missing entries -/

/-- The computation leaves a table. -/
def LeavesTable {α : Type} (computation : Exec α) : Prop :=
  ∃ fault, computation = .error fault ∧ fault.IsTableFault

namespace LeavesTable

variable {α β : Type}

theorem bind {first : Exec α} (leaves : LeavesTable first) (next : α → Exec β) :
    LeavesTable (first >>= next) := by
  obtain ⟨fault, rfl, bad⟩ := leaves
  exact ⟨fault, rfl, bad⟩

theorem bind_ok {first : Exec α} {value : α} {next : α → Exec β} (returned : first = .ok value)
    (leaves : LeavesTable (next value)) : LeavesTable (first >>= next) := by
  subst returned
  exact leaves

theorem load {size : Nat} {entries : Vector α size} {index : Nat} (table : Table)
    (outside : ¬ index < size) : LeavesTable (load (Fault.outOfBounds table) entries index) :=
  ⟨.outOfBounds table index, load_of_not_lt outside, trivial⟩

/-- With the load of an entry the rest runs or the table is left. -/
theorem load_bind {size : Nat} {entries : Vector α size} {index : Nat} (table : Table)
    {next : α → Exec β}
    (rest : ∀ bound : index < size, LeavesTable (next entries[index])) :
    LeavesTable (Checked.load (Fault.outOfBounds table) entries index >>= next) := by
  by_cases bound : index < size
  · exact bind_ok (load_of_lt bound) (rest bound)
  · exact (load table bound).bind _

end LeavesTable

section Missing

variable {interpreter : Interpreter} {instr : Instr} {input : StepInput}

theorem channel_leavesTable (wellSet : interpreter.network.WellSet) {id : UInt32}
    (absent : ¬ Operand.Exists interpreter ⟨.channels, id⟩) :
    LeavesTable (interpreter.network.channel id.toNat) := by
  cases htable : interpreter.network.table with
  | none => exact ⟨.freedChannels, by simp [Network.channel, htable], trivial⟩
  | some table =>
      have outside : table.length ≤ id.toNat := by
        rw [wellSet.table_length table htable]
        by_contra inside
        exact absent ⟨Nat.lt_of_not_le inside, fun _ => by simp [htable]⟩
      exact ⟨.outOfBounds .channels id.toNat, by simp [Network.channel, htable, outside], trivial⟩

/-- Where a channel is looked up first, its absence leaves the table. -/
theorem channel_bind_leavesTable {α : Type} (wellSet : interpreter.network.WellSet) {id : UInt32}
    {next : Channel → Exec α}
    (rest : Operand.Exists interpreter ⟨.channels, id⟩ → ∀ channel,
      interpreter.network.channel id.toNat = .ok channel → LeavesTable (next channel)) :
    LeavesTable (interpreter.network.channel id.toNat >>= next) := by
  by_cases present : Operand.Exists interpreter ⟨.channels, id⟩
  · obtain ⟨channel, found⟩ := channel_of_exists wellSet present
    exact .bind_ok found (rest present channel found)
  · exact (channel_leavesTable wellSet present).bind _

theorem OperandSafe.not_leaves {opcode : Opcode} {handled : Exec Executed}
    (safe : OperandSafe long interpreter instr input) (decoded : instr.opcode? = some opcode)
    (selected : handler? long interpreter instr input opcode = some handled) :
    ¬ LeavesTable handled := by
  intro leaves
  have accesses := safe.accesses
  rw [execute_of_handler decoded selected] at accesses
  obtain ⟨fault, stopped, bad⟩ := leaves.bind fun executed => pure executed.handleResult
  exact accesses fault stopped bad

/-- An instruction that goes on must have had its ids in range. -/
theorem OperandSafe.inRange_of_continues {opcode : Opcode} {handled : Exec Executed}
    {executed : Executed} (safe : OperandSafe long interpreter instr input)
    (decoded : instr.opcode? = some opcode)
    (selected : handler? long interpreter instr input opcode = some handled)
    (ran : handled = .ok executed) (continues : executed.result ≠ .error) {operand : Operand}
    (member : operand ∈ opcode.operands instr) : operand.InRange interpreter := by
  by_contra outside
  obtain ⟨iteration, done, exit⟩ := safe.rejects
    ⟨operand, by rw [Instr.operands, decoded]; exact member, outside⟩
  rw [execute_of_handler decoded selected, ran] at done
  cases done
  unfold Executed.handleResult at exit
  split at exit
  · cases exit
  · next failed => exact continues failed
  · cases exit

theorem updateCounter_leavesTable {counters : CounterArray} {id : Nat} {f : UInt32 → UInt32}
    (outside : ¬ id < maxCounters) : LeavesTable (updateCounter counters id f) :=
  (LeavesTable.load .counters outside).bind _

theorem cmpVariables_leavesTable {varspace : Varspace} {id1 id2 : Nat}
    (outside : ¬ (id1 < maxVariables ∧ id2 < maxVariables)) :
    LeavesTable (cmpVariables varspace id1 id2) :=
  LeavesTable.load_bind .variables fun bound1 =>
    LeavesTable.load_bind .variables fun bound2 => (outside ⟨bound1, bound2⟩).elim

theorem guard_leavesTable (wellSet : interpreter.network.WellSet) {guard : Guard}
    {arg0 arg1 : UInt32}
    (absent : ¬ ∀ operand ∈ guard.operands arg0 arg1, operand.Exists interpreter)
    (tested : ¬ (guard = .testVar ∧ VarTest.ofCode? arg1 = none)) :
    LeavesTable (guard.handle interpreter arg0 arg1) := by
  have entry {table : Table} {id : UInt32} (notChannel : table ≠ .channels)
      (bound : id.toNat < interpreter.entries table) : Operand.Exists interpreter ⟨table, id⟩ :=
    ⟨bound, fun channel => (notChannel channel).elim⟩
  cases guard with
  | alwaysTrue | alwaysFalse | sendBufferEmpty | statusTest | varQueueEmpty | varQueueFull =>
      exact (absent nofun).elim
  | channelXyRcvBufEmpty =>
      refine (channel_leavesTable wellSet fun present => absent ?_).bind _
      simpa [Guard.operands] using present
  | testCount =>
      refine (LeavesTable.load .counters fun bound => absent ?_).bind _
      simpa [Guard.operands] using entry (by decide) bound
  | equalVarVar | greaterVarVar | lessVarVar =>
      refine (cmpVariables_leavesTable fun bounds => absent ?_).bind _
      simpa [Guard.operands] using ⟨entry (by decide) bounds.1, entry (by decide) bounds.2⟩
  | testVar =>
      simp only [Guard.handle, handleTestVar, testVariable]
      split
      · refine (LeavesTable.load .variables fun bound => absent ?_).bind _
        simpa [Guard.operands] using entry (by decide) bound
      · next unknown => exact (tested ⟨rfl, unknown⟩).elim

theorem handleCreate_leavesTable {long : LongWidth}
    (outside : ¬ (instr.arg0.toNat < maxVariables ∧ instr.arg1.toNat < maxMessages)) :
    LeavesTable (handleCreate interpreter instr input long) := by
  refine LeavesTable.bind (LeavesTable.load_bind .messages fun bound => ?_) _
  have missing : ¬ instr.arg0.toNat < maxVariables := fun below => outside ⟨below, bound⟩
  exact ((LeavesTable.load .variables missing).bind _).bind _

theorem handleSend_leavesTable (wellSet : interpreter.network.WellSet)
    (decoded : instr.opcode? = some .send) (somewhere : ¬ SendsNowhere interpreter instr)
    (outside : ¬ (Operand.Exists interpreter ⟨.channels, instr.arg0⟩ ∧
      instr.arg1.toNat < maxMessages)) :
    LeavesTable (handleSend interpreter instr input) := by
  refine LeavesTable.bind ?_ _
  unfold ncmSendMessage
  rw [wellSet.mode_hard]
  refine channel_bind_leavesTable wellSet fun present channel found => ?_
  split
  · next null => exact (somewhere ⟨decoded, channel, found, null⟩).elim
  · exact LeavesTable.load_bind .messages fun bound => (outside ⟨present, bound⟩).elim

theorem handleReceive_leavesTable (wellSet : interpreter.network.WellSet)
    (absent : ¬ Operand.Exists interpreter ⟨.channels, instr.arg0⟩) :
    LeavesTable (handleReceive interpreter instr) := by
  refine LeavesTable.bind ?_ _
  exact channel_bind_leavesTable wellSet fun present _ _ => (absent present).elim

/-- With a message to copy, the variable's id is used; without one it is not. -/
theorem handleReceive_variable {channel : Channel}
    (found : interpreter.network.channel instr.arg0.toNat = .ok channel)
    (outside : ¬ instr.arg1.toNat < maxVariables) :
    LeavesTable (handleReceive interpreter instr) ∨
      ∃ executed, handleReceive interpreter instr = .ok executed ∧ executed.result ≠ .error := by
  unfold handleReceive ncmReceiveMessageToVar
  rw [found, ok_bind]
  cases channel.messageQueue with
  | nil => exact .inr ⟨_, rfl, nofun⟩
  | cons msg rest =>
      left
      exact (((LeavesTable.load .variables outside).bind _).bind _).bind _

theorem handleSync_leavesTable (wellSet : interpreter.network.WellSet)
    (master : instr.arg0 = syncMaster)
    (absent : ¬ Operand.Exists interpreter ⟨.channels, instr.arg1⟩) :
    LeavesTable (handleSync interpreter instr input) := by
  unfold handleSync
  rw [if_pos master]
  refine LeavesTable.bind ?_ _
  unfold ncmSendSync
  rw [wellSet.mode_hard]
  exact channel_bind_leavesTable wellSet fun present _ _ => (absent present).elim

/-- A guard with a missing entry leaves a table, except a TEST_VAR without a
known condition, which uses no id. -/
theorem handleIf_leavesTable (wellSet : interpreter.network.WellSet) {guard : Guard}
    (known : Guard.ofCode? instr.arg0 = some guard)
    (absent : ¬ ∀ operand ∈ guard.operands instr.arg2 instr.arg3, operand.Exists interpreter) :
    LeavesTable (handleIf interpreter instr) ∨ guard = .testVar ∧
      ∃ executed, handleIf interpreter instr = .ok executed ∧ executed.result ≠ .error := by
  by_cases skipped : guard = .testVar ∧ VarTest.ofCode? instr.arg3 = none
  · obtain ⟨rfl, unknown⟩ := skipped
    right
    unfold handleIf testGuard
    dsimp only
    rw [known]
    simp only [Guard.handle, handleTestVar, testVariable, unknown]
    exact ⟨trivial, _, rfl, nofun⟩
  · left
    refine LeavesTable.bind ?_ _
    unfold testGuard
    rw [known]
    exact (guard_leavesTable wellSet absent skipped).bind _

/-- Where ids are not checked, only ids of existing entries are safe. -/
theorem OperandSafe.present (wellSet : interpreter.network.WellSet)
    (safe : OperandSafe long interpreter instr input) :
    SendsNowhere interpreter instr ∨ ∀ operand ∈ instr.operands, operand.Exists interpreter := by
  have entry {table : Table} {id : UInt32} (notChannel : table ≠ .channels)
      (bound : id.toNat < interpreter.entries table) : Operand.Exists interpreter ⟨table, id⟩ :=
    ⟨bound, fun channel => (notChannel channel).elim⟩
  unfold Instr.operands
  cases decoded : instr.opcode? with
  | none => exact .inr nofun
  | some opcode =>
      cases opcode with
      | nop | goto | future | halt | wait | mode | destroy | handle | xsend | backupSend
      | backupReceive | endOfProgram => exact .inr nofun
      | clearCounter | addToCounter | subFromCounter | setCounter =>
          right
          have bound : instr.arg0.toNat < maxCounters := by
            by_contra outside
            exact safe.not_leaves decoded rfl ((updateCounter_leavesTable outside).bind _)
          simpa [Opcode.operands] using entry (by decide) bound
      | create =>
          right
          have bounds : instr.arg0.toNat < maxVariables ∧ instr.arg1.toNat < maxMessages := by
            by_contra outside
            exact safe.not_leaves decoded rfl (handleCreate_leavesTable outside)
          simpa [Opcode.operands] using
            ⟨entry (by decide) bounds.1, entry (by decide) bounds.2⟩
      | send =>
          by_cases nowhere : SendsNowhere interpreter instr
          · exact .inl nowhere
          · right
            have both : Operand.Exists interpreter ⟨.channels, instr.arg0⟩ ∧
                instr.arg1.toNat < maxMessages := by
              by_contra outside
              exact safe.not_leaves decoded rfl
                (handleSend_leavesTable wellSet decoded nowhere outside)
            simpa [Opcode.operands] using ⟨both.1, entry (by decide) both.2⟩
      | receive =>
          right
          have present : Operand.Exists interpreter ⟨.channels, instr.arg0⟩ := by
            by_contra absent
            exact safe.not_leaves decoded rfl (handleReceive_leavesTable wellSet absent)
          obtain ⟨channel, found⟩ := channel_of_exists wellSet present
          have bound : instr.arg1.toNat < maxVariables := by
            by_contra outside
            rcases handleReceive_variable found outside with leaves | ⟨_, ran, continues⟩
            · exact safe.not_leaves decoded rfl leaves
            · exact outside (safe.inRange_of_continues decoded rfl ran continues
                (List.mem_cons_of_mem _ List.mem_cons_self))
          simpa [Opcode.operands] using ⟨present, entry (by decide) bound⟩
      | sync =>
          right
          by_cases master : instr.arg0 = syncMaster
          · have present : Operand.Exists interpreter ⟨.channels, instr.arg1⟩ := by
              by_contra absent
              exact safe.not_leaves decoded rfl (handleSync_leavesTable wellSet master absent)
            simpa [Opcode.operands, master] using present
          · simp [Opcode.operands, master]
      | «if» =>
          right
          cases known : Guard.ofCode? instr.arg0 with
          | none => simp [Opcode.operands, known]
          | some guard =>
              simp only [Opcode.operands, known]
              by_contra absent
              rcases handleIf_leavesTable wellSet known absent with
                leaves | ⟨rfl, _, ran, continues⟩
              · exact safe.not_leaves decoded rfl leaves
              · refine absent fun operand member => ?_
                have bound : operand.InRange interpreter :=
                  safe.inRange_of_continues decoded rfl ran continues
                    (by simpa only [Opcode.operands, known] using member)
                cases List.mem_singleton.mp member
                exact entry (by decide) bound

end Missing

theorem operandSafe_of_present {interpreter : Interpreter} {instr : Instr} {input : StepInput}
    {futures : Futures} (wellSet : interpreter.network.WellSet)
    (represents : interpreter.futureQueue.Represents futures)
    (present : ∀ operand ∈ instr.operands, operand.Exists interpreter) :
    OperandSafe long interpreter instr input where
  accesses := execute_avoids wellSet represents present
  rejects := fun ⟨operand, member, outside⟩ => (outside (present operand member).1).elim

theorem operandSafe_of_sendsNowhere {interpreter : Interpreter} {instr : Instr}
    {input : StepInput} (wellSet : interpreter.network.WellSet)
    (nowhere : SendsNowhere interpreter instr) : OperandSafe long interpreter instr input := by
  obtain ⟨decoded, channel, found, null⟩ := nowhere
  have sent : ncmSendMessage interpreter.network instr.arg0.toNat instr.arg1.toNat
      input.txStatus = .ok (-9001, interpreter.network, []) := by
    unfold ncmSendMessage
    rw [wellSet.mode_hard]
    simp only [ncmSendMessageHard, found, ok_bind, null]
    rfl
  have done : execute long interpreter instr input =
      .ok ⟨some .programError, interpreter, []⟩ := by
    rw [execute_of_handler decoded rfl, handleSend, sent]
    rfl
  refine ⟨?_, fun _ => ⟨_, done, rfl⟩⟩
  rw [done]
  exact .ok _

/--
In every reachable state and for every instruction: its accesses stay inside
the tables and an id out of range ends the run with an error, exactly when all
its ids name existing entries, or it is a SEND that fails on a channel without
a device.
-/
theorem operandSafe_iff {sysfs : NcmSysfs} (reachable : Reachable long sysfs) (instr : Instr)
    (input : StepInput) :
    OperandSafe long sysfs.ncmInterp instr input ↔
      SendsNowhere sysfs.ncmInterp instr ∨
        ∀ operand ∈ instr.operands, operand.Exists sysfs.ncmInterp := by
  have wellSet := reachable_wellSet reachable
  obtain ⟨futures, represents⟩ := reachable_represented reachable
  constructor
  · intro safe
    exact safe.present wellSet
  · rintro (nowhere | present)
    · exact operandSafe_of_sendsNowhere wellSet nowhere
    · exact operandSafe_of_present wellSet represents present

/-- A counter within the array is cleared safely. -/
theorem operandSafe_iff_clearCounter :
    ∃ sysfs, Reachable .bits64 sysfs ∧ sysfs.ncmInterp.fetch = .ok (.make .clearCounter 9 0 0 0) ∧
      OperandSafe .bits64 sysfs.ncmInterp (.make .clearCounter 9 0 0 0) (.atClock 0 0 0) := by
  have done : ∃ labels sysfs,
      runFromInit .bits64 (loadAndRun [.make .clearCounter 9 0 0 0] noChannels .bare) =
        .ok (sysfs, labels) ∧
      sysfs.ncmInterp.fetch = .ok (.make .clearCounter 9 0 0 0) :=
    ⟨_, _, rfl, rfl⟩
  obtain ⟨labels, sysfs, done, fetched⟩ := done
  have reachable : Reachable .bits64 sysfs := ⟨labels, run_of_runFromInit done⟩
  refine ⟨sysfs, reachable, fetched, (operandSafe_iff reachable _ _).mpr (.inr ?_)⟩
  intro operand member
  cases List.mem_singleton.mp member
  have bound : 9 < maxCounters := by decide
  exact ⟨bound, nofun⟩

/-- CLEAR_COUNTER 10 writes behind the array of ten counters. -/
theorem clearCounter_leavesTable :
    ¬ ∀ (long : LongWidth) (sysfs : NcmSysfs) (instr : Instr) (input : StepInput),
      Reachable long sysfs → sysfs.ncmInterp.thread = some .looping →
      sysfs.ncmInterp.fetch = .ok instr → OperandSafe long sysfs.ncmInterp instr input := by
  intro claim
  have done : ∃ labels sysfs,
      runFromInit .bits64 (loadAndRun [.make .clearCounter 10 0 0 0] noChannels .bare) =
        .ok (sysfs, labels) ∧
      sysfs.ncmInterp.thread = some .looping ∧
      sysfs.ncmInterp.fetch = .ok (.make .clearCounter 10 0 0 0) ∧
      execute .bits64 sysfs.ncmInterp (.make .clearCounter 10 0 0 0) (.atClock 0 0 0) =
        .error (.outOfBounds .counters 10) :=
    ⟨_, _, rfl, rfl, rfl, rfl⟩
  obtain ⟨labels, sysfs, done, looping, fetched, stopped⟩ := done
  have safe := claim .bits64 sysfs _ (.atClock 0 0 0) ⟨labels, run_of_runFromInit done⟩ looping
    fetched
  exact safe.accesses _ stopped trivial

end NetworkCode.Kernel
