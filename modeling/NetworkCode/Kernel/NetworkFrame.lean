import NetworkCode.Kernel.Transitions
import NetworkCode.Kernel.Transmission

/-!
# What stays as `init_network` has set it up

Instructions and arrivals move messages.  They change neither the number of
channels nor the MAC, the interface and the device of any channel.
-/

namespace NetworkCode.Kernel

open Library Library.Checked

/-- A channel without its messages. -/
def Channel.identity (channel : Channel) : Channel := { channel with messageQueue := [] }

/-- Two networks that differ at most in their messages. -/
structure Network.SameSetup (before after : Network) : Prop where
  channels : after.channels = before.channels
  mac : after.mac = before.mac
  syncPacketlen : after.syncPacketlen = before.syncPacketlen
  mode : after.mode = before.mode
  receiving : after.receiving = before.receiving
  table : after.table.map (List.map Channel.identity) =
    before.table.map (List.map Channel.identity)

namespace Network

theorem SameSetup.refl (network : Network) : SameSetup network network :=
  ⟨rfl, rfl, rfl, rfl, rfl, rfl⟩

theorem SameSetup.trans {first second third : Network} (left : SameSetup first second)
    (right : SameSetup second third) : SameSetup first third :=
  ⟨right.channels.trans left.channels, right.mac.trans left.mac,
    right.syncPacketlen.trans left.syncPacketlen, right.mode.trans left.mode,
    right.receiving.trans left.receiving, right.table.trans left.table⟩

theorem modify_identity (table : List Channel) (chan : Nat) (queue : List NcMessage) :
    (table.modify chan fun channel => { channel with messageQueue := queue }).map
      Channel.identity = table.map Channel.identity := by
  refine List.ext_getElem (by simp) fun index _ _ => ?_
  rw [List.getElem_map, List.getElem_map, List.getElem_modify]
  split <;> rfl

theorem setQueue_sameSetup (network : Network) (chan : Nat) (queue : List NcMessage) :
    SameSetup network (network.setQueue chan queue) := by
  refine ⟨rfl, rfl, rfl, rfl, rfl, ?_⟩
  cases htable : network.table with
  | none => simp [setQueue, htable]
  | some table => simp [setQueue, htable, modify_identity]

theorem channel_setQueue (network : Network) (chan other : Nat)
    (queue : List NcMessage) :
    (network.setQueue chan queue).channel other =
      (network.channel other).map fun channel =>
        if chan = other then { channel with messageQueue := queue } else channel := by
  unfold Network.channel Network.setQueue
  cases network.table with
  | none => rfl
  | some table =>
      dsimp only [Option.map_some]
      rw [List.getElem?_modify]
      cases table[other]? with
      | none => rfl
      | some channel => rfl

theorem channel_setQueue_self {network : Network} {chan : Nat} {queue : List NcMessage}
    {after : Channel} :
    (network.setQueue chan queue).channel chan = .ok after ↔
      ∃ channel, network.channel chan = .ok channel ∧
        { channel with messageQueue := queue } = after := by
  rw [channel_setQueue]
  cases network.channel chan with
  | error fault => exact ⟨nofun, nofun⟩
  | ok channel =>
      change Except.ok (if chan = chan then _ else _) = _ ↔ _
      rw [if_pos rfl]
      exact ⟨fun same => ⟨channel, rfl, Except.ok.inj same⟩, fun ⟨_, found, same⟩ => by
        cases found; rw [same]⟩

theorem channel_setQueue_of_ne {chan other : Nat} (network : Network) (queue : List NcMessage)
    (distinct : chan ≠ other) :
    (network.setQueue chan queue).channel other = network.channel other := by
  rw [channel_setQueue]
  cases network.channel other with
  | error fault => rfl
  | ok channel => exact congrArg Except.ok (if_neg distinct)

theorem SameSetup.table_length {before after : Network} (same : SameSetup before after)
    {table : List Channel} (htable : after.table = some table) :
    ∃ table', before.table = some table' ∧ table'.length = table.length := by
  have mapped := same.table
  rw [htable] at mapped
  cases hbefore : before.table with
  | none =>
      rw [hbefore] at mapped
      cases mapped
  | some table' =>
      rw [hbefore] at mapped
      refine ⟨table', rfl, ?_⟩
      have lengths := congrArg List.length (Option.some.inj mapped)
      simpa using lengths.symm

end Network

section Operations

variable {network after : Network} {chan msgId varId : Nat} {status ret : Int}
  {events : List NetEvent} {varspace varspace' : Varspace}

/-- CREATE changes the message slots alone. -/
theorem ncmCreateMessageFromVar_eq_ok {long : LongWidth} {memory : Nat → UInt8}
    (created : ncmCreateMessageFromVar long network varspace varId msgId memory = .ok after) :
    ∃ slots, after = { network with messageSpace := slots } := by
  obtain ⟨_, _, created⟩ := bind_eq_ok.mp created
  obtain ⟨value, _, created⟩ := bind_eq_ok.mp created
  obtain ⟨len, _, created⟩ := bind_eq_ok.mp created
  obtain ⟨slots, _, finish⟩ := bind_eq_ok.mp created
  cases finish
  exact ⟨slots, rfl⟩

theorem ncmCreateMessageFromVar_sameSetup {long : LongWidth} {memory : Nat → UInt8}
    (created : ncmCreateMessageFromVar long network varspace varId msgId memory = .ok after) :
    network.SameSetup after := by
  obtain ⟨slots, rfl⟩ := ncmCreateMessageFromVar_eq_ok created
  exact ⟨rfl, rfl, rfl, rfl, rfl, rfl⟩

theorem ncmSendMessage_sameSetup
    (sent : ncmSendMessage network chan msgId status = .ok (ret, after, events)) :
    network.SameSetup after := by
  unfold ncmSendMessage at sent
  split at sent
  · cases ncmSendMessageHard_cases sent with
    | noDevice => exact .refl _
    | emptySlot => exact .refl _
    | handsOver => exact ⟨rfl, rfl, rfl, rfl, rfl, rfl⟩
  · rw [(ncmSendMessageSoft_cases sent).1]
    exact .refl _

theorem ncmReceiveMessageToVar_sameSetup
    (received : ncmReceiveMessageToVar network varspace chan varId =
      .ok (ret, after, varspace')) : network.SameSetup after := by
  cases ncmReceiveMessageToVar_cases received with
  | emptyQueue => exact .refl _
  | takes => exact Network.setQueue_sameSetup _ _ _

theorem offerToChannel_sameSetup {kmalloc : Nat → NcMessage} {state state' : Network × NcMessage}
    (offered : offerToChannel kmalloc state chan = .ok state') :
    state.1.SameSetup state'.1 := by
  cases offerToChannel_cases offered with
  | links => exact Network.setQueue_sameSetup _ _ _
  | passes => exact .refl _

theorem offers_sameSetup {kmalloc : Nat → NcMessage} {chans : List Nat}
    {state state' : Network × NcMessage}
    (offered : chans.foldlM (offerToChannel kmalloc) state = .ok state') :
    state.1.SameSetup state'.1 :=
  foldlM_keeps (fun current => state.1.SameSetup current.1)
    (fun _ _ _ same offered => same.trans (offerToChannel_sameSetup offered)) (.refl _) offered

theorem receivingPass_sameSetup {bound : Nat} {read : SockRead} {kmalloc : Nat → NcMessage}
    (received : receivingPass bound network read kmalloc = .ok after) :
    network.SameSetup after := by
  cases receivingPass_cases received with
  | refuses => exact ⟨rfl, rfl, rfl, rfl, rfl, rfl⟩
  | offers answer nonneg offered =>
      have same := offers_sameSetup offered
      exact ⟨same.channels, same.mac, same.syncPacketlen, same.mode, same.receiving, same.table⟩

end Operations

/-! ## Instructions -/

section Handlers

variable {interpreter : Interpreter} {instr : Instr} {input : StepInput} {long : LongWidth}
  {executed : Executed}

/-- What one instruction does to the network and to the variables. -/
inductive DataStep (long : LongWidth) (interpreter : Interpreter) (instr : Instr)
    (input : StepInput) :
    Opcode → Network → Varspace → Prop where
  | leaves {opcode : Opcode} :
      DataStep long interpreter instr input opcode interpreter.network interpreter.variableSpace
  | creates {network : Network}
      (created : ncmCreateMessageFromVar long interpreter.network interpreter.variableSpace
        instr.arg0.toNat instr.arg1.toNat input.skbMemory = .ok network) :
      DataStep long interpreter instr input .create network interpreter.variableSpace
  | sends {ret : Int} {network : Network} {events : List NetEvent}
      (sent : ncmSendMessage interpreter.network instr.arg0.toNat instr.arg1.toNat
        input.txStatus = .ok (ret, network, events)) :
      DataStep long interpreter instr input .send network interpreter.variableSpace
  | receives {ret : Int} {network : Network} {varspace : Varspace}
      (received : ncmReceiveMessageToVar interpreter.network interpreter.variableSpace
        instr.arg0.toNat instr.arg1.toNat = .ok (ret, network, varspace)) :
      DataStep long interpreter instr input .receive network varspace

/-- The instruction moves no message and writes no variable. -/
def Executed.LeavesData (interpreter : Interpreter) (executed : Executed) : Prop :=
  executed.interpreter.network = interpreter.network ∧
    executed.interpreter.variableSpace = interpreter.variableSpace

theorem Executed.SteersOnly.leaves (steers : executed.SteersOnly interpreter) :
    executed.LeavesData interpreter := by
  obtain ⟨_, _, _, moved⟩ := steers
  rw [Executed.LeavesData, moved]
  exact ⟨rfl, rfl⟩

theorem handleSync_leaves (done : handleSync interpreter instr input = .ok executed) :
    executed.LeavesData interpreter := by
  unfold handleSync at done
  split at done
  · obtain ⟨_, _, finish⟩ := bind_eq_ok.mp done
    cases finish
    exact ⟨rfl, rfl⟩
  · obtain ⟨_, _, finish⟩ := bind_eq_ok.mp done
    cases finish
    exact ⟨Interpreter.noteResult_network _ _ _, Interpreter.noteResult_variableSpace _ _ _⟩

theorem handler_data {opcode : Opcode} {handled : Exec Executed}
    (selected : handler? long interpreter instr input opcode = some handled)
    (ran : handled = .ok executed) :
    DataStep long interpreter instr input opcode executed.interpreter.network
      executed.interpreter.variableSpace := by
  have of_leaves (leaves : executed.LeavesData interpreter) :
      DataStep long interpreter instr input opcode executed.interpreter.network
        executed.interpreter.variableSpace := by
    rw [leaves.1, leaves.2]
    exact .leaves
  subst ran
  cases opcode with
  | create =>
      obtain ⟨network, created, finish⟩ := bind_eq_ok.mp (Option.some.inj selected)
      cases finish
      exact .creates created
  | send =>
      obtain ⟨⟨ret, network, events⟩, sent, finish⟩ := bind_eq_ok.mp (Option.some.inj selected)
      cases finish
      exact .sends sent
  | receive =>
      obtain ⟨⟨ret, network, varspace⟩, received, finish⟩ :=
        bind_eq_ok.mp (Option.some.inj selected)
      cases finish
      dsimp only
      rw [Interpreter.noteResult_network, Interpreter.noteResult_variableSpace]
      exact .receives received
  | sync => exact of_leaves (handleSync_leaves (Option.some.inj selected))
  | _ => exact of_leaves (handler_steers selected nofun nofun nofun nofun).leaves

/-- What an iteration of the loop does to the network and to the variables. -/
theorem execute_data {iteration : Iteration}
    (done : execute long interpreter instr input = .ok iteration) :
    iteration.interpreter.network = interpreter.network ∧
        iteration.interpreter.variableSpace = interpreter.variableSpace ∨
      ∃ opcode, instr.opcode? = some opcode ∧
        DataStep long interpreter instr input opcode iteration.interpreter.network
          iteration.interpreter.variableSpace := by
  rcases execute_cases done with rfl | ⟨opcode, executed, decoded, selected, rfl⟩
  · exact .inl ⟨rfl, rfl⟩
  · rw [Executed.handleResult_network, Executed.handleResult_variableSpace]
    exact .inr ⟨opcode, decoded, handler_data selected rfl⟩

theorem DataStep.sameSetup {opcode : Opcode} {network : Network} {varspace : Varspace}
    (step : DataStep long interpreter instr input opcode network varspace) :
    interpreter.network.SameSetup network := by
  cases step with
  | leaves => exact .refl _
  | creates created => exact ncmCreateMessageFromVar_sameSetup created
  | sends sent => exact ncmSendMessage_sameSetup sent
  | receives received => exact ncmReceiveMessageToVar_sameSetup received

theorem execute_sameSetup {iteration : Iteration}
    (done : execute long interpreter instr input = .ok iteration) :
    interpreter.network.SameSetup iteration.interpreter.network := by
  rcases execute_data done with ⟨same, _⟩ | ⟨opcode, _, step⟩
  · rw [same]
    exact .refl _
  · exact step.sameSetup

end Handlers

/-! ## Set-up -/

theorem initChannels_length {params : NetParams} {env : NetEnv} {count : Nat}
    {table : List Channel} {acquired : List Resource}
    (done : initChannels params env count = .ok (table, acquired)) : table.length = count := by
  induction count generalizing table acquired with
  | zero =>
      cases done
      rfl
  | succ count ih =>
      obtain ⟨⟨table', acquired'⟩, first, done⟩ := bind_eq_ok.mp done
      obtain ⟨⟨channel, more⟩, _, finish⟩ := bind_eq_ok.mp done
      cases finish
      simp [ih first]

/-- What `init_network` leaves, in terms of the channel table it builds. -/
theorem initNetwork_eq_ok {network after : Network} {params : NetParams} {env : NetEnv}
    {acquired : List Resource}
    (done : initNetwork network params env = .ok (after, acquired)) :
    ∃ table, table.length = params.channels.toNat ∧
      after = { network with
        channels := params.channels
        table := some table
        syncPacketlen := if params.channels = 0 then network.syncPacketlen else ethZlen
        messageSpace := Vector.replicate maxMessages none
        mode := .hard
        receiving := true
        ncMsg := env.ncMsg } := by
  obtain ⟨⟨table, acquired'⟩, built, finish⟩ := bind_eq_ok.mp done
  cases finish
  exact ⟨table, initChannels_length built, rfl⟩

theorem destroyNetwork_eq_ok {network after : Network} {released : List Resource}
    (done : destroyNetwork network = .ok (after, released)) :
    after = { network with table := none, receiving := false } := by
  obtain ⟨_, _, finish⟩ := bind_eq_ok.mp done
  cases finish
  rfl

/-- Until the next start a network keeps what it has been set up with, or is destroyed. -/
theorem Moves.network_kept {long : LongWidth} {sysfs : NcmSysfs} {action : Action}
    {shown : List Observation} {next : Interpreter}
    (moves : Moves long sysfs action shown next) (unstarted : ¬ StartsInterpreter sysfs action) :
    sysfs.ncmInterp.network.SameSetup next.network ∨
      next.network = { sysfs.ncmInterp.network with table := none, receiving := false } := by
  cases moves with
  | stays | writes | schedules | joins => exact .inl (.refl _)
  | starts command startable => exact (unstarted ⟨_, _, rfl, command, startable⟩).elim
  | tearsDown _ destroyed => exact .inr (destroyNetwork_eq_ok destroyed)
  | receives _ received => exact .inl (receivingPass_sameSetup received)
  | iterates _ _ done =>
      rw [resume_network]
      exact .inl (execute_sameSetup done)

/-- The channel table has the configured size, the transmit mode is hard, and
the two fields that nothing sets keep their initial values. -/
structure Network.WellSet (network : Network) : Prop where
  table_length : ∀ table, network.table = some table → table.length = network.channels.toNat
  mac_zero : network.mac = Vector.replicate ethAlen 0
  syncPacketlen_cases : network.syncPacketlen = 0 ∨ network.syncPacketlen = ethZlen
  mode_hard : network.mode = .hard

theorem Network.WellSet.of_sameSetup {before after : Network} (wellSet : before.WellSet)
    (same : before.SameSetup after) : after.WellSet where
  table_length table htable := by
    obtain ⟨table', hbefore, lengths⟩ := same.table_length htable
    rw [← lengths, wellSet.table_length table' hbefore, same.channels]
  mac_zero := same.mac.trans wellSet.mac_zero
  syncPacketlen_cases := by
    rw [same.syncPacketlen]
    exact wellSet.syncPacketlen_cases
  mode_hard := same.mode.trans wellSet.mode_hard

theorem Moves.wellSet {long : LongWidth} {sysfs : NcmSysfs} {action : Action}
    {shown : List Observation} {interpreter : Interpreter}
    (moves : Moves long sysfs action shown interpreter)
    (wellSet : sysfs.ncmInterp.network.WellSet) : interpreter.network.WellSet := by
  cases moves with
  | stays | writes | schedules | joins => exact wellSet
  | receives _ received => exact wellSet.of_sameSetup (receivingPass_sameSetup received)
  | iterates _ _ done =>
      rw [resume_network]
      exact wellSet.of_sameSetup (execute_sameSetup done)
  | tearsDown _ destroyed =>
      rw [destroyNetwork_eq_ok destroyed]
      exact ⟨nofun, wellSet.mac_zero, wellSet.syncPacketlen_cases, wellSet.mode_hard⟩
  | starts _ _ initialised =>
      obtain ⟨table, lengths, rfl⟩ := initNetwork_eq_ok initialised
      refine ⟨?_, wellSet.mac_zero, ?_, rfl⟩
      · intro table' htable
        cases htable
        exact lengths
      · dsimp only
        split
        · exact wellSet.syncPacketlen_cases
        · exact .inr rfl

theorem step_wellSet {long : LongWidth} (before : NcmSysfs) (label : Action × List Observation)
    (after : NcmSysfs) (wellSet : before.ncmInterp.network.WellSet)
    (hstep : Step long before label after) : after.ncmInterp.network.WellSet :=
  (step_moves hstep).wellSet wellSet

theorem reachable_wellSet {long : LongWidth} {sysfs : NcmSysfs} (reachable : Reachable long sysfs) :
    sysfs.ncmInterp.network.WellSet := by
  obtain ⟨labels, run⟩ := reachable
  have initial : initModule.ncmInterp.network.WellSet := ⟨nofun, rfl, .inl rfl, rfl⟩
  exact run.invariant (fun sysfs => sysfs.ncmInterp.network.WellSet) step_wellSet initial

end NetworkCode.Kernel
