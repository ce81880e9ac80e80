import NetworkCode.Kernel.Snapshot
import NetworkCode.Kernel.SyncWait
import NetworkCode.Kernel.VariableBounds

/-!
# Frames out and frames in

Only SEND and a master SYNC hand frames to a driver, a pass of the receiving
thread links at most the frame it has just read, and a RECEIVE copies a queued
message.  So one step of the module says where the content of every slot, queue
and variable behind it comes from.
-/

namespace NetworkCode.Kernel

open Library Library.Checked

/-! ## Frames out -/

/-- No frame is among the events. -/
def Mute (events : List Event) : Prop := ∀ event, .network event ∉ events

/-- The frames among the observations. -/
def framesIn (shown : List Observation) : List (List UInt8) :=
  shown.filterMap fun
    | .event (.network event) => some event.frame
    | _ => none

theorem mem_framesIn {shown : List Observation} {frame : List UInt8} :
    frame ∈ framesIn shown ↔ ∃ event, .event (.network event) ∈ shown ∧ event.frame = frame := by
  unfold framesIn
  rw [List.mem_filterMap]
  constructor
  · rintro ⟨observation, member, found⟩
    split at found
    · next event =>
        cases found
        exact ⟨event, member, rfl⟩
    · cases found
  · rintro ⟨event, member, rfl⟩
    exact ⟨_, member, rfl⟩

/-- The frames are those of the transmissions. -/
theorem mem_framesIn_observations {iteration : Iteration} {frame : List UInt8} :
    frame ∈ framesIn iteration.observations ↔
      ∃ event, .network event ∈ iteration.events ∧ event.frame = frame := by
  rw [mem_framesIn]
  obtain ⟨exit, interpreter, events⟩ := iteration
  cases exit <;> simp [Iteration.observations]

theorem framesIn_of_quiet {shown : List Observation} (quiet : eventsOf shown = []) :
    framesIn shown = [] := by
  refine List.eq_nil_iff_forall_not_mem.mpr fun frame member => ?_
  obtain ⟨event, shows, -⟩ := mem_framesIn.mp member
  have counted : Event.network event ∈ eventsOf shown := List.mem_filterMap.mpr ⟨_, shows, rfl⟩
  rw [quiet] at counted
  cases counted

section Handlers

variable {interpreter : Interpreter} {instr : Instr} {input : StepInput} {long : LongWidth}
  {executed : Executed}

theorem handleFuture_mute (done : handleFuture interpreter instr input = .ok executed) :
    Mute executed.events := by
  unfold handleFuture at done
  dsimp only at done
  split at done
  · cases done
    exact fun _ => List.not_mem_nil
  · obtain ⟨⟨status, queue⟩, _, finish⟩ := bind_eq_ok.mp done
    cases status <;> cases finish <;> simp [Mute]

theorem handleHalt_mute (done : handleHalt interpreter input long = .ok executed) :
    Mute executed.events := by
  obtain ⟨⟨status, head, queue⟩, _, finish⟩ := bind_eq_ok.mp done
  dsimp only at finish
  split at finish
  · split at finish <;> cases finish <;> simp [Mute]
  · cases finish
    simp [Mute]

theorem handleWait_mute (done : handleWait interpreter instr input long = .ok executed) :
    Mute executed.events := by
  obtain ⟨pushed, hpush, done⟩ := bind_eq_ok.mp done
  have first := handleFuture_mute hpush
  split at done
  · obtain ⟨halted, hhalt, finish⟩ := bind_eq_ok.mp done
    cases finish
    intro event member
    rcases List.mem_append.mp member with early | late
    · exact first event early
    · exact handleHalt_mute hhalt event late
  · cases done
    exact first

theorem handleGoto_mute (done : handleGoto interpreter instr = .ok executed) :
    Mute executed.events := by
  unfold handleGoto at done
  dsimp only at done
  split at done <;> cases done <;> simp [Mute]

theorem handleIf_mute (done : handleIf interpreter instr = .ok executed) :
    Mute executed.events := by
  obtain ⟨⟨holds, status⟩, _, finish⟩ := bind_eq_ok.mp done
  cases status <;> cases holds <;> cases finish <;> simp [Mute]

/-- Where a frame comes from. -/
inductive Emits (interpreter : Interpreter) (instr : Instr) (input : StepInput) :
    NetEvent → Prop where
  | send {ret : Int} {network : Network} {events : List NetEvent} {event : NetEvent}
      (decoded : instr.opcode? = some .send)
      (sent : ncmSendMessage interpreter.network instr.arg0.toNat instr.arg1.toNat
        input.txStatus = .ok (ret, network, events))
      (member : event ∈ events) : Emits interpreter instr input event
  | sync {ret : Int} {events : List NetEvent} {event : NetEvent}
      (decoded : instr.opcode? = some .sync) (master : instr.arg0 = syncMaster)
      (sent : ncmSendSync interpreter.network instr.arg1.toNat input.skbMemory
        input.txStatus = .ok (ret, events))
      (member : event ∈ events) : Emits interpreter instr input event

theorem handleSync_emits (decoded : instr.opcode? = some .sync)
    (done : handleSync interpreter instr input = .ok executed) {event : NetEvent}
    (shown : .network event ∈ executed.events) : Emits interpreter instr input event := by
  unfold handleSync at done
  split at done
  · next master =>
      obtain ⟨⟨ret, events⟩, sent, finish⟩ := bind_eq_ok.mp done
      cases finish
      obtain ⟨other, member, same⟩ := List.mem_map.mp shown
      cases same
      exact .sync decoded master sent member
  · obtain ⟨_, _, finish⟩ := bind_eq_ok.mp done
    cases finish
    cases shown

theorem handleSend_emits (decoded : instr.opcode? = some .send)
    (done : handleSend interpreter instr input = .ok executed) {event : NetEvent}
    (shown : .network event ∈ executed.events) : Emits interpreter instr input event := by
  obtain ⟨⟨ret, network, events⟩, sent, finish⟩ := bind_eq_ok.mp done
  cases finish
  obtain ⟨other, member, same⟩ := List.mem_map.mp shown
  cases same
  exact .send decoded sent member

theorem handler_emits {opcode : Opcode} (decoded : instr.opcode? = some opcode)
    (selected : handler? long interpreter instr input opcode = some (.ok executed))
    {event : NetEvent} (shown : .network event ∈ executed.events) :
    Emits interpreter instr input event := by
  cases opcode with
  | send => exact handleSend_emits decoded (Option.some.inj selected) shown
  | sync => exact handleSync_emits decoded (Option.some.inj selected) shown
  | future => exact absurd shown (handleFuture_mute (Option.some.inj selected) event)
  | halt => exact absurd shown (handleHalt_mute (Option.some.inj selected) event)
  | wait => exact absurd shown (handleWait_mute (Option.some.inj selected) event)
  | goto => exact absurd shown (handleGoto_mute (Option.some.inj selected) event)
  | «if» => exact absurd shown (handleIf_mute (Option.some.inj selected) event)
  | nop =>
      cases selected
      cases shown
  | create | receive | clearCounter | addToCounter | subFromCounter | setCounter =>
      obtain ⟨_, _, finish⟩ := bind_eq_ok.mp (Option.some.inj selected)
      cases finish
      cases shown
  | mode | destroy | handle | xsend | backupSend | backupReceive | endOfProgram => cases selected

/-- A frame that an instruction shows is one of a SEND or of a master SYNC. -/
theorem execute_emits {iteration : Iteration}
    (done : execute long interpreter instr input = .ok iteration) {event : NetEvent}
    (shown : .network event ∈ iteration.events) : Emits interpreter instr input event := by
  rcases execute_cases done with rfl | ⟨opcode, executed, decoded, selected, rfl⟩
  · cases shown
  · rw [Executed.handleResult_events] at shown
    exact handler_emits decoded selected shown

end Handlers

/-! ## Frames in -/

/-- The message waits in the queue of a channel with this address. -/
def Network.Queued (network : Network) (mac : Mac) (msg : NcMessage) : Prop :=
  ∃ chan channel, network.channel chan = .ok channel ∧ channel.mac = mac ∧
    msg ∈ channel.messageQueue

section Queued

variable {network after : Network} {mac : Mac} {msg : NcMessage}

theorem Network.Queued.of_table (queued : after.Queued mac msg)
    (same : after.table = network.table) : network.Queued mac msg := by
  obtain ⟨chan, channel, found, address, member⟩ := queued
  unfold Network.channel at found
  rw [same] at found
  exact ⟨chan, channel, found, address, member⟩

theorem Network.not_queued_of_released (released : network.table = none) :
    ¬ network.Queued mac msg := by
  rintro ⟨chan, channel, found, -, -⟩
  unfold Network.channel at found
  rw [released] at found
  cases found

theorem Network.not_queued_of_empty {table : List Channel} (htable : network.table = some table)
    (empty : ∀ channel ∈ table, channel.messageQueue = []) : ¬ network.Queued mac msg := by
  rintro ⟨chan, channel, found, -, member⟩
  rw [empty channel (List.mem_of_getElem? ((Network.channel_eq_ok htable).mp found))] at member
  cases member

/-- A queue that is replaced holds what it is replaced by. -/
theorem Network.Queued.of_setQueue {chan : Nat} {channel : Channel} {queue : List NcMessage}
    (found : network.channel chan = .ok channel)
    (queued : (network.setQueue chan queue).Queued mac msg) :
    network.Queued mac msg ∨ channel.mac = mac ∧ msg ∈ queue := by
  obtain ⟨other, channel', found', address, member⟩ := queued
  rcases eq_or_ne chan other with rfl | distinct
  · obtain ⟨_, again, rfl⟩ := Network.channel_setQueue_self.mp found'
    cases found.symm.trans again
    exact .inr ⟨address, member⟩
  · rw [Network.channel_setQueue_of_ne network queue distinct] at found'
    exact .inl ⟨other, channel', found', address, member⟩

/-- RECEIVE queues nothing. -/
theorem ncmReceiveMessageToVar_queued {varspace varspace' : Varspace} {chan varId : Nat} {ret : Int}
    (received : ncmReceiveMessageToVar network varspace chan varId = .ok (ret, after, varspace'))
    (queued : after.Queued mac msg) : network.Queued mac msg := by
  cases ncmReceiveMessageToVar_cases received with
  | emptyQueue => exact queued
  | takes found queue stored =>
      rcases queued.of_setQueue found with earlier | ⟨address, member⟩
      · exact earlier
      · exact ⟨chan, _, found, address, queue ▸ List.mem_cons_of_mem _ member⟩

/-- A message that is queued after a pass was queued before, or is the frame of the pass, which
is of the protocol and comes from the address of the channel. -/
theorem receivingPass_queued {read : SockRead} {kmalloc : Nat → NcMessage}
    (received : receivingPass maxChannels network read kmalloc = .ok after)
    (queued : after.Queued mac msg) :
    network.Queued mac msg ∨ ∃ bytes, read = .frame bytes ∧ msg = network.received bytes ∧
      hProto msg.value = htons ethPNc ∧ mac.toList = hSource msg.value := by
  cases receivingPass_cases received with
  | refuses => exact .inl (queued.of_table rfl)
  | offers answer nonneg offered =>
      obtain ⟨bytes, rfl, rfl, protocol⟩ := ncRcvmsg_nonneg answer nonneg
      obtain ⟨state, first, last⟩ := bind_eq_ok.mp offered
      cases last
      cases offerToChannel_cases first with
      | passes => exact .inl (queued.of_table rfl)
      | links found address =>
          have linked : (network.setQueue 0 _).Queued mac msg := queued.of_table rfl
          rcases linked.of_setQueue found with earlier | ⟨rfl, member⟩
          · exact .inl earlier
          · rcases List.mem_cons.mp member with rfl | earlier
            · refine .inr ⟨bytes, rfl, ?_, protocol, address⟩
              unfold Network.received
              rw [List.length_take, network.ncMsg.value_length]
              rfl
            · exact .inl ⟨0, _, found, rfl, earlier⟩

end Queued

/-! ## Slots and variables -/

section Data

variable {interpreter : Interpreter} {instr : Instr} {input : StepInput} {opcode : Opcode}
  {network : Network} {varspace after : Varspace}

theorem DataStep.queued {mac : Mac} {msg : NcMessage}
    (step : DataStep long interpreter instr input opcode network varspace)
    (queued : network.Queued mac msg) : interpreter.network.Queued mac msg := by
  cases step with
  | leaves => exact queued
  | creates created =>
      obtain ⟨slot, value, -, -, rfl⟩ := ncmCreateMessageFromVar_cases created
      exact queued.of_table rfl
  | sends sent => exact queued.of_table (ncmSendMessage_table sent)
  | receives received => exact ncmReceiveMessageToVar_queued received queued

/-- A full slot was full before, or CREATE has filled it from a variable. -/
theorem DataStep.slot_cases {slot : Fin maxMessages} {skb : SkBuff}
    (step : DataStep long interpreter instr input opcode network varspace)
    (filled : network.slot slot = some skb) :
    interpreter.network.slot slot = some skb ∨ opcode = .create ∧ ∃ memory value,
      getVariableData interpreter.variableSpace instr.arg0.toNat = .ok value ∧
        skb = createdBuffer memory value := by
  cases step with
  | leaves => exact .inl filled
  | creates created =>
      obtain ⟨target, value, -, copied, rfl⟩ := ncmCreateMessageFromVar_cases created
      rcases eq_or_ne slot target with rfl | distinct
      · rw [slot_setSlot_self] at filled
        exact .inr ⟨rfl, _, value, copied, (Option.some.inj filled).symm⟩
      · rw [slot_setSlot_of_ne distinct] at filled
        exact .inl filled
  | sends sent =>
      unfold ncmSendMessage at sent
      split at sent
      · cases ncmSendMessageHard_cases sent with
        | noDevice => exact .inl filled
        | emptySlot => exact .inl filled
        | handsOver found up bound held =>
            by_cases same : instr.arg1.toNat = slot.val
            · have cleared : (interpreter.network.clearSlot instr.arg1.toNat bound).slot slot =
                  none := by
                obtain rfl : slot = ⟨instr.arg1.toNat, bound⟩ := Fin.ext same.symm
                exact Vector.getElem_set_self bound
              rw [cleared] at filled
              cases filled
            · have kept : (interpreter.network.clearSlot instr.arg1.toNat bound).slot slot =
                  interpreter.network.slot slot := Vector.getElem_set_ne bound slot.isLt same
              rw [kept] at filled
              exact .inl filled
      · rw [(ncmSendMessageSoft_cases sent).1] at filled
        exact .inl filled
  | receives received =>
      rw [ncmReceiveMessageToVar_slot received] at filled
      exact .inl filled

/-- All variables are empty at first. -/
theorem getVariableData_init {var : Nat} {value : List UInt8}
    (copied : getVariableData (initVariableSpace varspace) var = .ok value) : value = [] := by
  obtain ⟨held, found, finish⟩ := bind_eq_ok.mp copied
  obtain ⟨bound, rfl⟩ := load_eq_ok.mp found
  cases finish
  rw [initVariableSpace, Vector.getElem_map, Variable.init_value]

/-- A write changes one variable. -/
theorem setVariableData_at {varId length other : Nat} {data value : List UInt8}
    (written : setVariableData varspace varId data length = .ok after)
    (copied : getVariableData after other = .ok value) :
    getVariableData varspace other = .ok value ∨ other = varId ∧ value = data.take length := by
  obtain ⟨var, loaded, written⟩ := bind_eq_ok.mp written
  obtain ⟨var', hset, stored⟩ := bind_eq_ok.mp written
  obtain ⟨bound, rfl⟩ := store_eq_ok.mp stored
  obtain ⟨read, found, finish⟩ := bind_eq_ok.mp copied
  obtain ⟨inside, rfl⟩ := load_eq_ok.mp found
  cases finish
  rcases eq_or_ne varId other with rfl | distinct
  · rw [Vector.getElem_set_self]
    exact .inr ⟨rfl, Variable.set_eq_ok hset⟩
  · rw [Vector.getElem_set_ne _ _ distinct]
    exact .inl (getVariableData_of_lt inside)

/-- RECEIVE stores these bytes of a queued message. -/
def NcMessage.payload (msg : NcMessage) : List UInt8 :=
  (msg.value.drop ethHlen).take (msg.length - UInt32.ofNat ethHlen).toNat

/-- A value is the one before, or RECEIVE has copied it from a queue. -/
theorem DataStep.value_cases {var : Nat} {value : List UInt8}
    (step : DataStep long interpreter instr input opcode network varspace)
    (copied : getVariableData varspace var = .ok value) :
    getVariableData interpreter.variableSpace var = .ok value ∨
      opcode = .receive ∧ var = instr.arg1.toNat ∧
        ∃ mac msg, interpreter.network.Queued mac msg ∧ value = msg.payload := by
  cases step with
  | leaves | creates | sends => exact .inl copied
  | receives received =>
      cases ncmReceiveMessageToVar_cases received with
      | emptyQueue => exact .inl copied
      | @takes channel msg rest _ found queue stored =>
          rcases setVariableData_at stored copied with earlier | ⟨here, rfl⟩
          · exact .inl earlier
          · refine .inr ⟨rfl, here, channel.mac, msg, ⟨_, _, found, rfl, ?_⟩, rfl⟩
            rw [queue]
            exact List.mem_cons_self

end Data

/-! ## One step of the module -/

section Steps

variable {long : LongWidth} {sysfs : NcmSysfs} {action : Action} {shown : List Observation}
  {next : Interpreter}

/-- A full slot was full before, or a CREATE has filled it from a variable. -/
theorem Moves.slot_cases {slot : Fin maxMessages} {skb : SkBuff}
    (moves : Moves long sysfs action shown next) (filled : next.network.slot slot = some skb) :
    sysfs.ncmInterp.network.slot slot = some skb ∨ ∃ input instr memory value,
      action = .instruction input ∧ sysfs.ncmInterp.thread = some .looping ∧
      sysfs.ncmInterp.fetch = .ok instr ∧ instr.opcode? = some .create ∧
      getVariableData sysfs.ncmInterp.variableSpace instr.arg0.toNat = .ok value ∧
      skb = createdBuffer memory value := by
  cases moves with
  | stays | writes | schedules | joins => exact .inl filled
  | starts _ _ initialised =>
      dsimp only at filled
      rw [initNetwork_slot initialised] at filled
      cases filled
  | tearsDown _ destroyed =>
      rw [destroyNetwork_eq_ok destroyed] at filled
      exact .inl filled
  | receives _ received =>
      dsimp only at filled
      rw [receivingPass_slot received] at filled
      exact .inl filled
  | iterates looping fetched done =>
      rw [resume_network] at filled
      rcases execute_data done with ⟨same, -⟩ | ⟨opcode, decoded, step⟩
      · rw [same] at filled
        exact .inl filled
      · rcases step.slot_cases filled with earlier | ⟨rfl, memory, value, copied, rfl⟩
        · exact .inl earlier
        · exact .inr ⟨_, _, memory, value, rfl, looping, fetched, decoded, copied, rfl⟩

/-- A queued message was queued before, or has come in the frame of a pass. -/
theorem Moves.queued_cases {mac : Mac} {msg : NcMessage}
    (moves : Moves long sysfs action shown next) (queued : next.network.Queued mac msg) :
    sysfs.ncmInterp.network.Queued mac msg ∨ ∃ bytes kmalloc,
      action = .arrival (.frame bytes) kmalloc ∧
      msg = sysfs.ncmInterp.network.received bytes ∧ hProto msg.value = htons ethPNc ∧
      mac.toList = hSource msg.value := by
  cases moves with
  | stays | writes | schedules | joins => exact .inl queued
  | starts _ _ initialised =>
      obtain ⟨⟨table, acquired⟩, built, finish⟩ := bind_eq_ok.mp initialised
      obtain ⟨made, -⟩ := Prod.mk.inj (Except.ok.inj finish)
      rw [← made] at queued
      exact absurd queued (Network.not_queued_of_empty rfl (initChannels_empty built))
  | tearsDown _ destroyed =>
      rw [destroyNetwork_eq_ok destroyed] at queued
      exact absurd queued (Network.not_queued_of_released rfl)
  | receives _ received =>
      rcases receivingPass_queued received queued with earlier | ⟨bytes, rfl, arrived⟩
      · exact .inl earlier
      · exact .inr ⟨bytes, _, rfl, arrived⟩
  | iterates _ _ done =>
      rw [resume_network] at queued
      rcases execute_data done with ⟨same, -⟩ | ⟨opcode, -, step⟩
      · rw [same] at queued
        exact .inl queued
      · exact .inl (step.queued queued)

/-- A value is the one before, or has been written to the file of the variable, or a RECEIVE
has copied it from a queue. -/
theorem Moves.value_cases {var : Nat} {value : List UInt8}
    (moves : Moves long sysfs action shown next)
    (copied : getVariableData next.variableSpace var = .ok value) :
    getVariableData sysfs.ncmInterp.variableSpace var = .ok value ∨ action = .storeVar var value ∨
      ∃ input instr mac msg, action = .instruction input ∧
        sysfs.ncmInterp.thread = some .looping ∧ sysfs.ncmInterp.fetch = .ok instr ∧
        instr.opcode? = some .receive ∧ var = instr.arg1.toNat ∧
        sysfs.ncmInterp.network.Queued mac msg ∧ value = msg.payload := by
  cases moves with
  | stays | starts | tearsDown | schedules | joins | receives => exact .inl copied
  | writes written =>
      rcases setVariableData_at written copied with earlier | ⟨rfl, rfl⟩
      · exact .inl earlier
      · rw [List.take_length]
        exact .inr (.inl rfl)
  | iterates looping fetched done =>
      rw [resume_variableSpace] at copied
      rcases execute_data done with ⟨-, same⟩ | ⟨opcode, decoded, step⟩
      · rw [same] at copied
        exact .inl copied
      · rcases step.value_cases copied with earlier | ⟨rfl, here, mac, msg, queued, rfl⟩
        · exact .inl earlier
        · exact .inr (.inr ⟨_, _, mac, msg, rfl, looping, fetched, decoded, here, queued, rfl⟩)

/-- A frame is transmitted by a master SYNC, or by a SEND from a slot to the device of a
channel. -/
theorem Moves.frame_cases {frame : List UInt8} (moves : Moves long sysfs action shown next)
    (hard : sysfs.ncmInterp.network.mode = .hard) (member : frame ∈ framesIn shown) :
    ∃ input instr, action = .instruction input ∧ sysfs.ncmInterp.thread = some .looping ∧
      sysfs.ncmInterp.fetch = .ok instr ∧
      (instr.opcode? = some .sync ∧ instr.arg0 = syncMaster ∧ ethHlen ≤ frame.length ∧
          hProto frame = htons ethPNcSync ∨
        ∃ chan channel dev slot skb, sysfs.ncmInterp.network.channel chan = .ok channel ∧
          channel.dev = .device dev ∧ sysfs.ncmInterp.network.slot slot = some skb ∧
          frame = hardFrame broadcastMac dev skb ∧
          .event (.network (.xmit dev frame input.txStatus)) ∈ shown) := by
  have silent (quiet : eventsOf shown = []) : frame ∉ framesIn shown := by
    rw [framesIn_of_quiet quiet]
    exact List.not_mem_nil
  cases moves with
  | stays quiet => exact absurd member (silent quiet)
  | schedules _ quiet => exact absurd member (silent quiet)
  | writes | starts | tearsDown | joins | receives => exact absurd member (silent rfl)
  | iterates looping fetched done =>
      obtain ⟨event, shows, rfl⟩ := mem_framesIn_observations.mp member
      refine ⟨_, _, rfl, looping, fetched, ?_⟩
      cases execute_emits done shows with
      | sync decoded master sent event =>
          obtain ⟨header, protocol⟩ := ncmSendSync_frames sent event
          exact .inl ⟨decoded, master, header, protocol⟩
      | send decoded sent event =>
          rw [ncmSendMessage_of_hard hard] at sent
          cases ncmSendMessageHard_cases sent with
          | noDevice | emptySlot => cases event
          | handsOver found up bound held =>
              cases List.mem_singleton.mp event
              refine .inr ⟨_, _, _, ⟨_, bound⟩, _, found, up, held, rfl, ?_⟩
              exact List.mem_append_left _ (List.mem_map_of_mem shows)

end Steps

end NetworkCode.Kernel
