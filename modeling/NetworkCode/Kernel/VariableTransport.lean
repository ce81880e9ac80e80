import Mathlib.Data.List.TakeDrop
import NetworkCode.Kernel.ReceivingPass

/-!
# A variable's way to another node

CREATE copies the variable behind an Ethernet header, SEND hands header and
value to the driver, the peer's receiving thread reads the frame into a buffer
of `ETH_DATA_LEN` bytes, and RECEIVE stores what follows the header.
-/

namespace NetworkCode.Kernel

open Library Library.Checked

/-! ## The frame of a variable -/

/-- The buffer that `ncm_create_message_from_var` leaves in the slot. -/
def createdBuffer (memory : Nat → UInt8) (value : List UInt8) : SkBuff where
  head := Bytes.overwrite (Bytes.overwrite (allocSkb ethFrameLen memory) ethHlen value) 12
    (htons ethPNc)
  len := ethHlen + value.length

/-- The frame that a SEND of the variable hands to the driver. -/
def variableFrame (dev : NetDevice) (memory : Nat → UInt8) (value : List UInt8) : List UInt8 :=
  hardFrame broadcastMac dev (createdBuffer memory value)

/-- Writing inside a full frame keeps its size. -/
theorem overwrite_frame_length {buffer bytes : List UInt8} {offset : Nat}
    (whole : buffer.length = ethFrameLen) (room : offset + bytes.length ≤ ethFrameLen) :
    (Bytes.overwrite buffer offset bytes).length = ethFrameLen := by
  rw [Bytes.overwrite_length (whole ▸ room), whole]

section Frame

variable {dev : NetDevice} {memory : Nat → UInt8} {value : List UInt8}
  (fits : value.length ≤ maxVarSizeBytes)

include fits

theorem payloadBuffer_length :
    (Bytes.overwrite (allocSkb ethFrameLen memory) ethHlen value).length = ethFrameLen :=
  overwrite_frame_length (allocSkb_length _ _) (Nat.add_le_add_left fits ethHlen)

theorem createdBuffer_length : (createdBuffer memory value).head.length = ethFrameLen :=
  overwrite_frame_length (payloadBuffer_length fits) (by decide)

theorem addressed_length :
    (Bytes.overwrite (createdBuffer memory value).head 0 broadcastMac.toList).length =
      ethFrameLen :=
  overwrite_frame_length (createdBuffer_length fits) (by decide)

theorem addressed_room (memory : Nat → UInt8) :
    ethAlen ≤ (Bytes.overwrite (createdBuffer memory value).head 0 broadcastMac.toList).length := by
  rw [addressed_length fits]
  decide

theorem framed_length :
    (Bytes.overwrite (Bytes.overwrite (createdBuffer memory value).head 0 broadcastMac.toList)
      ethAlen dev.devAddr.toList).length = ethFrameLen := by
  apply overwrite_frame_length (addressed_length fits)
  rw [Vector.length_toList]
  decide

theorem variableFrame_length :
    (variableFrame dev memory value).length = ethHlen + value.length := by
  have room : ethHlen + value.length ≤ ethFrameLen := Nat.add_le_add_left fits ethHlen
  rw [variableFrame, hardFrame, List.length_take, framed_length fits]
  exact Nat.min_eq_left room

theorem header_inside : ethHlen ≤ (variableFrame dev memory value).length := by
  rw [variableFrame_length fits]
  exact Nat.le_add_right _ _

theorem hSource_variableFrame : hSource (variableFrame dev memory value) = dev.devAddr.toList := by
  have inside : ethAlen + ethAlen ≤ (createdBuffer memory value).len :=
    Nat.le_trans (show ethAlen + ethAlen ≤ ethHlen by decide) (Nat.le_add_right _ _)
  have written : Bytes.slice (Bytes.overwrite _ ethAlen dev.devAddr.toList) ethAlen
      dev.devAddr.toList.length = dev.devAddr.toList :=
    Bytes.slice_overwrite_same (addressed_room fits memory)
  rw [Vector.length_toList] at written
  rw [hSource, variableFrame, hardFrame, Bytes.slice_take inside]
  exact written

/-- Behind the two addresses the frame is the buffer that CREATE has filled. -/
theorem drop_variableFrame_addresses {start : Nat} (behind : ethAlen + ethAlen ≤ start) :
    (variableFrame dev memory value).drop start =
      ((createdBuffer memory value).head.drop start).take (ethHlen + value.length - start) := by
  have addressed : ethAlen + dev.devAddr.toList.length ≤ start := by
    rw [Vector.length_toList]
    exact behind
  have broadcast : 0 + broadcastMac.toList.length ≤ start :=
    Nat.le_trans (show 0 + broadcastMac.toList.length ≤ ethAlen + ethAlen by decide) behind
  rw [variableFrame, hardFrame, List.drop_take,
    Bytes.drop_overwrite_after addressed (addressed_room fits memory),
    Bytes.drop_overwrite_after broadcast (Nat.zero_le _)]
  rfl

theorem protocol_room (memory : Nat → UInt8) :
    12 ≤ (Bytes.overwrite (allocSkb ethFrameLen memory) ethHlen value).length := by
  rw [payloadBuffer_length fits]
  decide

theorem hProto_variableFrame : hProto (variableFrame dev memory value) = htons ethPNc := by
  have written : Bytes.slice (Bytes.overwrite _ 12 (htons ethPNc)) 12 (htons ethPNc).length =
      htons ethPNc := Bytes.slice_overwrite_same (protocol_room fits memory)
  have inside : 2 ≤ ethHlen + value.length - 12 := by
    have header : ethHlen = 14 := rfl
    omega
  rw [hProto, Bytes.slice, drop_variableFrame_addresses fits (by decide), List.take_take,
    Nat.min_eq_left inside]
  exact written

/-- Behind the header the frame carries the value. -/
theorem drop_variableFrame : (variableFrame dev memory value).drop ethHlen = value := by
  have start : ethHlen ≤ (allocSkb ethFrameLen memory).length := by
    rw [allocSkb_length]
    decide
  have carried : Bytes.slice (Bytes.overwrite _ ethHlen value) ethHlen value.length = value :=
    Bytes.slice_overwrite_same start
  rw [drop_variableFrame_addresses fits (by decide), createdBuffer]
  dsimp only
  rw [Bytes.drop_overwrite_after (by decide) (protocol_room fits memory), Nat.add_sub_cancel_left]
  exact carried

end Frame

/-! ## The message of a frame -/

section Message

variable (network : Network) {frame : List UInt8}

theorem received_length :
    (network.received frame).length.toNat = min ethDataLen frame.length := by
  have narrow : min ethDataLen frame.length < 2 ^ 32 :=
    Nat.lt_of_le_of_lt (Nat.min_le_left _ _) (by decide)
  change (UInt32.ofNat (frame.take network.ncMsg.value.length).length).toNat = _
  rw [List.length_take, network.ncMsg.value_length, UInt32.toNat_ofNat', Nat.mod_eq_of_lt narrow]

theorem take_received :
    (network.received frame).value.take (min ethDataLen frame.length) = frame.take ethDataLen := by
  have kept : (frame.take network.ncMsg.value.length).length = min ethDataLen frame.length := by
    rw [List.length_take, network.ncMsg.value_length]
  change (Bytes.overwrite network.ncMsg.value 0
    (frame.take network.ncMsg.value.length)).take _ = _
  rw [← kept, Bytes.take_overwrite_zero, network.ncMsg.value_length]

variable (header : ethHlen ≤ frame.length)

include header

theorem payload_length : ((network.received frame).length - UInt32.ofNat ethHlen).toNat =
    min ethDataLen frame.length - ethHlen := by
  have behind : UInt32.ofNat ethHlen ≤ (network.received frame).length := by
    rw [UInt32.le_iff_toNat_le, received_length]
    exact Nat.le_min.mpr ⟨by decide, header⟩
  rw [UInt32.toNat_sub_of_le _ _ behind, received_length]
  rfl

/-- RECEIVE stores what follows the header in the part of the frame that fits. -/
theorem received_payload :
    ((network.received frame).value.drop ethHlen).take
        ((network.received frame).length - UInt32.ofNat ethHlen).toNat =
      (frame.drop ethHlen).take (ethDataLen - ethHlen) := by
  rw [payload_length network header, ← List.drop_take, take_received, List.drop_take]

end Message

/-! ## The two ends of an exchange -/

/-- A write to a variable of the node. -/
def VarWrite (before : Interpreter) (write : Nat × List UInt8) (after : Interpreter) : Prop :=
  ∃ varspace, setVariableData before.variableSpace write.1 write.2 write.2.length =
    .ok varspace ∧ after = { before with variableSpace := varspace }

/-- CREATE of a variable, any writes to variables, and a SEND from the same slot
to an existing device, which is handed the frame. -/
inductive Sends (long : LongWidth) (sender : Interpreter) (var : UInt32) (dev : NetDevice)
    (frame : List UInt8) : Prop where
  | intro {create send : Instr} {createInput sendInput : StepInput} {created sent : Iteration}
      {writes : List (Nat × List UInt8)} {rewritten : Interpreter} {channel : Channel}
      {status : Int} (isCreate : create.opcode? = some .create) (reads : create.arg0 = var)
      (creates : execute long sender create createInput = .ok created)
      (rewrites : Run VarWrite created.interpreter writes rewritten)
      (isSend : send.opcode? = some .send) (sameSlot : send.arg1 = create.arg1)
      (found : rewritten.network.channel send.arg0.toNat = .ok channel)
      (up : channel.dev = .device dev)
      (sends : execute long rewritten send sendInput = .ok sent)
      (transmitted : .network (.xmit dev frame status) ∈ sent.events) :
      Sends long sender var dev frame

/-- A pass of the receiving thread links the frame into the queue of a channel
with the sender's address. -/
inductive Arrives (peer : Network) (chan : Nat) (dev : NetDevice) (frame : List UInt8)
    (msg : NcMessage) : Prop where
  | intro {before channel : Channel} {kmalloc : Nat → NcMessage} {after : Network}
      (configured : peer.channel chan = .ok before) (address : before.mac = dev.devAddr)
      (passes : receivingPass maxChannels peer (.frame frame) kmalloc = .ok after)
      (found : after.channel chan = .ok channel)
      (linked : channel.messageQueue = msg :: before.messageQueue) :
      Arrives peer chan dev frame msg

/-- A RECEIVE of the message into a variable. -/
inductive Receives (long : LongWidth) (receiver : Interpreter) (var : UInt32) (msg : NcMessage) :
    Interpreter → Prop where
  | intro {receive : Instr} {input : StepInput} {channel : Channel} {rest : List NcMessage}
      {iteration : Iteration} (isReceive : receive.opcode? = some .receive)
      (stores : receive.arg1 = var)
      (found : receiver.network.channel receive.arg0.toNat = .ok channel)
      (first : channel.messageQueue = msg :: rest)
      (receives : execute long receiver receive input = .ok iteration) :
      Receives long receiver var msg iteration.interpreter

section Exchange

variable {long : LongWidth} {sender receiver after : Interpreter} {var var' : UInt32}
  {dev : NetDevice} {frame value : List UInt8} {msg : NcMessage}

/-- CREATE puts the variable behind a header into the slot. -/
theorem ncmCreateMessageFromVar_slot {network created : Network} {varspace : Varspace}
    {varId msgId : Nat} {memory : Nat → UInt8} (hvalue : getVariableData varspace varId = .ok value)
    (creates : ncmCreateMessageFromVar long network varspace varId msgId memory = .ok created) :
    created.table = network.table ∧
      created.messageSpace[msgId]? = some (some (createdBuffer memory value)) := by
  obtain ⟨_, _, creates⟩ := bind_eq_ok.mp creates
  obtain ⟨copied, hcopied, creates⟩ := bind_eq_ok.mp creates
  obtain ⟨_, sized, creates⟩ := bind_eq_ok.mp creates
  obtain ⟨slots, stored, finish⟩ := bind_eq_ok.mp creates
  obtain ⟨-, rfl⟩ := storeSize_eq_ok.mp sized
  cases hvalue.symm.trans hcopied
  obtain ⟨bound, rfl⟩ := store_eq_ok.mp stored
  cases finish
  exact ⟨rfl, Vector.getElem?_set_self bound⟩

theorem varWrites_network {before : Interpreter} {writes : List (Nat × List UInt8)}
    (run : Run VarWrite before writes after) : after.network = before.network := by
  apply run.invariant (fun interpreter => interpreter.network = before.network) _ rfl
  rintro first _ _ same ⟨varspace, -, rfl⟩
  exact same

/-- A hard SEND to a device hands over the buffer of the slot. -/
theorem HardSend.frame_eq {network network' : Network} {chan msgId : Nat}
    {txStatus status ret : Int} {channel : Channel} {skb : SkBuff} {events : List NetEvent}
    (sent : HardSend network chan msgId txStatus ret network' events)
    (found : network.channel chan = .ok channel) (up : channel.dev = .device dev)
    (slot : network.messageSpace[msgId]? = some (some skb))
    (transmitted : .xmit dev frame status ∈ events) : frame = hardFrame broadcastMac dev skb := by
  cases sent with
  | noDevice => cases transmitted
  | emptySlot => cases transmitted
  | handsOver found' up' bound slot' =>
      cases found.symm.trans found'
      cases up.symm.trans up'
      rw [Vector.getElem?_eq_getElem bound, slot'] at slot
      cases slot
      cases List.mem_singleton.mp transmitted
      rfl

/-- The frame is the one of the variable's value when CREATE ran. -/
theorem Sends.frame_eq (sends : Sends long sender var dev frame)
    (hard : sender.network.mode = .hard)
    (hvalue : getVariableData sender.variableSpace var.toNat = .ok value) :
    ∃ memory, frame = variableFrame dev memory value := by
  cases sends with
  | @intro create send createInput sendInput created sent writes rewritten channel status isCreate
      reads creates rewrites isSend sameSlot found up sends transmitted =>
      subst reads
      have kept := (execute_sameSetup creates).mode
      have filled := varWrites_network rewrites
      rw [execute_of_handler isCreate rfl] at creates
      rw [execute_of_handler isSend rfl] at sends
      obtain ⟨executed, ran, finish⟩ := bind_eq_ok.mp creates
      obtain ⟨network, made, finish'⟩ := bind_eq_ok.mp ran
      cases finish'
      cases finish
      obtain ⟨-, slot⟩ := ncmCreateMessageFromVar_slot hvalue made
      obtain ⟨executed, ran, finish⟩ := bind_eq_ok.mp sends
      obtain ⟨⟨ret, network', events⟩, handed, finish'⟩ := bind_eq_ok.mp ran
      cases finish'
      cases finish
      rw [Executed.handleResult_network] at kept filled
      rw [Executed.handleResult_events] at transmitted
      dsimp only at kept filled transmitted
      obtain ⟨event, member, same⟩ := List.mem_map.mp transmitted
      cases same
      rw [ncmSendMessage, filled, kept, hard] at handed
      rw [filled] at found
      rw [← sameSlot] at slot
      exact ⟨_, (ncmSendMessageHard_cases handed).frame_eq found up slot member⟩

/-- What an iteration of the channel loop links is the message in its hands. -/
theorem linked_of_offer {kmalloc : Nat → NcMessage} {network : Network} {held : NcMessage}
    {counter chan : Nat} {state : Network × NcMessage} {before channel : Channel}
    (offered : offerToChannel kmalloc (network, held) counter = .ok state)
    (configured : network.channel chan = .ok before) (found : state.1.channel chan = .ok channel)
    (linked : channel.messageQueue = msg :: before.messageQueue) : msg = held := by
  have stays (same : channel = before) : msg = held := by
    rw [same] at linked
    exact (List.ne_cons_self linked).elim
  rcases eq_or_ne counter chan with rfl | distinct
  · cases offerToChannel_cases offered with
    | links again =>
        cases configured.symm.trans again
        obtain ⟨_, _, rfl⟩ := Network.channel_setQueue_self.mp found
        exact (List.cons.inj linked).1.symm
    | passes => exact stays (Except.ok.inj (found.symm.trans configured))
  · rw [offerToChannel_channel offered distinct, configured] at found
    exact stays (Except.ok.inj found).symm

/-- The linked message is the one that the frame was read into. -/
theorem Arrives.msg_eq {peer : Network} {chan : Nat} (arrives : Arrives peer chan dev frame msg)
    (header : ethHlen ≤ frame.length) : msg = peer.received frame := by
  cases arrives with
  | intro configured address passes found linked =>
      rw [receivingPass_frame header] at passes
      split at passes
      · obtain ⟨state, looped, finish⟩ := bind_eq_ok.mp passes
        cases finish
        obtain ⟨state', offered, finish⟩ := bind_eq_ok.mp looped
        cases finish
        exact linked_of_offer offered configured found linked
      · cases passes
        cases configured.symm.trans found
        exact (List.ne_cons_self linked).elim

/-- RECEIVE stores the payload of the message in its variable. -/
theorem Receives.value_eq (receives : Receives long receiver var' msg after)
    (stored : getVariableData after.variableSpace var'.toNat = .ok value) :
    value = (msg.value.drop ethHlen).take (msg.length - UInt32.ofNat ethHlen).toNat := by
  cases receives with
  | @intro receive input channel rest iteration isReceive stores found first receives =>
      subst stores
      rw [execute_of_handler isReceive rfl] at receives
      obtain ⟨executed, ran, finish⟩ := bind_eq_ok.mp receives
      obtain ⟨⟨ret, network, varspace⟩, received, finish'⟩ := bind_eq_ok.mp ran
      cases finish'
      cases finish
      rw [Executed.handleResult_variableSpace, Interpreter.noteResult_variableSpace] at stored
      cases ncmReceiveMessageToVar_cases received with
      | emptyQueue found' empty =>
          cases found.symm.trans found'
          rw [first] at empty
          cases empty
      | takes found' queue written =>
          cases found.symm.trans found'
          cases first.symm.trans queue
          obtain ⟨exist, copied, -⟩ := setVariableData_eq_ok written
          obtain ⟨held, loaded, finish⟩ := bind_eq_ok.mp stored
          obtain ⟨_, rfl⟩ := load_eq_ok.mp loaded
          cases finish
          exact copied

/-- A finished exchange leaves as much of the value as fits behind the header
in the buffer of the receiving thread. -/
theorem exchanged_value {long' : LongWidth} {sysfs : NcmSysfs} {peer : Network} {chan : Nat}
    {value' : List UInt8} (reachable : Reachable long sysfs)
    (hvalue : getVariableData sysfs.ncmInterp.variableSpace var.toNat = .ok value)
    (sends : Sends long sysfs.ncmInterp var dev frame) (arrives : Arrives peer chan dev frame msg)
    (receives : Receives long' receiver var' msg after)
    (stored : getVariableData after.variableSpace var'.toNat = .ok value') :
    value' = value.take (ethDataLen - ethHlen) := by
  have fits := getVariableData_length_le hvalue
  obtain ⟨memory, rfl⟩ := sends.frame_eq (reachable_wellSet reachable).mode_hard hvalue
  have header : ethHlen ≤ (variableFrame dev memory value).length := header_inside fits
  obtain rfl := arrives.msg_eq header
  rw [receives.value_eq stored, received_payload peer header, drop_variableFrame fits]

end Exchange

/-! ## Exchanges of every value -/

section Progress

variable {long : LongWidth} {sender : Interpreter} {var msgId chan : UInt32} {dev : NetDevice}
  {value : List UInt8} {channel : Channel}

/-- A CREATE of a variable into a slot has a meaning exactly if a `size_t` fits a `u32`. -/
theorem ncmCreateMessageFromVar_defined_iff {network : Network} {varspace : Varspace}
    {varId msgId : Nat} (hvalue : getVariableData varspace varId = .ok value)
    (bound : msgId < maxMessages) (memory : Nat → UInt8) :
    (∃ created, ncmCreateMessageFromVar long network varspace varId msgId memory = .ok created) ↔
      long = .bits32 := by
  unfold ncmCreateMessageFromVar
  rw [load_of_lt bound, ok_bind, hvalue, ok_bind]
  constructor
  · rintro ⟨created, made⟩
    obtain ⟨_, sized, _⟩ := bind_eq_ok.mp made
    exact (storeSize_eq_ok.mp sized).1
  · intro narrow
    rw [storeSize_eq_ok.mpr ⟨narrow, rfl⟩, ok_bind]
    dsimp only
    rw [store_of_lt bound]
    exact ⟨_, rfl⟩

/-- What a CREATE leaves. -/
theorem execute_create {create : Instr} {input : StepInput} {created : Iteration}
    (isCreate : create.opcode? = some .create) :
    execute long sender create input = .ok created ↔
      ∃ network, ncmCreateMessageFromVar long sender.network sender.variableSpace
          create.arg0.toNat create.arg1.toNat input.skbMemory = .ok network ∧
        Executed.handleResult ⟨.ok, { sender with network := network }, []⟩ = created := by
  rw [execute_of_handler isCreate rfl, handleCreate, bind_assoc]
  simp only [bind_eq_ok, pure_eq_ok, Except.ok.injEq, exists_eq_left']

/-- An instruction that copies the variable into an existing slot. -/
structure Creates (create : Instr) (var : UInt32) : Prop where
  isCreate : create.opcode? = some .create
  reads : create.arg0 = var
  slot : create.arg1.toNat < maxMessages

/-- CREATE has a meaning exactly if a `size_t` fits a `u32`. -/
theorem Creates.defined_iff {create : Instr} {input : StepInput} (creates : Creates create var)
    (hvalue : getVariableData sender.variableSpace var.toNat = .ok value) :
    (∃ created, execute long sender create input = .ok created) ↔ long = .bits32 := by
  have held : getVariableData sender.variableSpace create.arg0.toNat = .ok value := by
    rw [creates.reads]
    exact hvalue
  rw [← ncmCreateMessageFromVar_defined_iff held creates.slot input.skbMemory]
  constructor
  · rintro ⟨created, done⟩
    obtain ⟨network, made, -⟩ := (execute_create creates.isCreate).mp done
    exact ⟨network, made⟩
  · rintro ⟨network, made⟩
    exact ⟨_, (execute_create creates.isCreate).mpr ⟨network, made, rfl⟩⟩

theorem execute_send {network : Network} {ret : Int} {events : List NetEvent}
    (handed : ncmSendMessage sender.network chan.toNat msgId.toNat 0 = .ok (ret, network, events)) :
    ∃ sent, execute long sender (.make .send chan msgId 0 0) (.atClock 0 0 0) = .ok sent ∧
      sent.events = events.map .network := by
  have ran : ∃ result, handleSend sender (.make .send chan msgId 0 0) (.atClock 0 0 0) =
      .ok ⟨result, { sender with network := network }, events.map .network⟩ := by
    change ∃ result, (ncmSendMessage sender.network chan.toNat msgId.toNat 0 >>= _) = _
    rw [handed]
    exact ⟨_, rfl⟩
  obtain ⟨result, ran⟩ := ran
  rw [execute_of_handler (Instr.opcode?_make ..) rfl, ran]
  exact ⟨_, rfl, Executed.handleResult_events _⟩

theorem execute_receive {network : Network} {varspace : Varspace} {ret : Int}
    (received : ncmReceiveMessageToVar sender.network sender.variableSpace chan.toNat var.toNat =
      .ok (ret, network, varspace)) :
    ∃ iteration,
      execute long sender (.make .receive chan var 0 0) (.atClock 0 0 0) = .ok iteration ∧
      iteration.interpreter.variableSpace = varspace := by
  have ran : ∃ executed, handleReceive sender (.make .receive chan var 0 0) = .ok executed ∧
      executed.interpreter.variableSpace = varspace := by
    change ∃ executed, (ncmReceiveMessageToVar sender.network sender.variableSpace chan.toNat
      var.toNat >>= _) = _ ∧ _
    rw [received]
    exact ⟨_, rfl, Interpreter.noteResult_variableSpace _ _ _⟩
  obtain ⟨executed, ran, left⟩ := ran
  rw [execute_of_handler (Instr.opcode?_make ..) rfl, ran]
  exact ⟨_, rfl, (Executed.handleResult_variableSpace _).trans left⟩

variable (long msgId chan)

/-- A CREATE and a SEND to a device hand over a frame. -/
theorem exists_sends (hard : sender.network.mode = .hard)
    (hvalue : getVariableData sender.variableSpace var.toNat = .ok value)
    (found : sender.network.channel chan.toNat = .ok channel) (up : channel.dev = .device dev) :
    Sends .bits32 sender var dev (variableFrame dev (fun _ => 0) value) := by
  have bound : (0 : UInt32).toNat < maxMessages := by decide
  obtain ⟨network, made⟩ :=
    (ncmCreateMessageFromVar_defined_iff hvalue bound fun _ => 0).mpr rfl
  obtain ⟨table, slot⟩ := ncmCreateMessageFromVar_slot hvalue made
  obtain ⟨created, creates, left⟩ : ∃ created,
      execute .bits32 sender (.make .create var 0 0 0) (.atClock 0 0 0) = .ok created ∧
        created.interpreter.network = network :=
    ⟨_, (execute_create (Instr.opcode?_make ..)).mpr ⟨network, made, rfl⟩, rfl⟩
  have hard' := (ncmCreateMessageFromVar_sameSetup made).mode.trans hard
  have found' : network.channel chan.toNat = .ok channel := by
    rw [Network.channel, table]
    exact found
  rw [Vector.getElem?_eq_getElem bound] at slot
  have filled : network.slot ⟨(0 : UInt32).toNat, bound⟩ = some _ := Option.some.inj slot
  subst left
  obtain ⟨sent, sends, events⟩ := execute_send (ncmSendMessage_hard hard' found' up filled)
  have decoded := Instr.opcode?_make .send chan 0 0 0
  have transmitted : .network (.xmit dev (variableFrame dev (fun _ => 0) value) 0) ∈
      sent.events := by
    rw [events]
    exact List.mem_singleton_self _
  exact .intro (Instr.opcode?_make ..) rfl creates (.refl _) decoded rfl found' up sends
    transmitted

/-- A pass over a frame from the channel's address links it. -/
theorem exists_arrives (peer : Network) (frame : List UInt8) (found : peer.channel 0 = .ok channel)
    (address : channel.mac = dev.devAddr) (header : ethHlen ≤ frame.length)
    (proto : hProto frame = htons ethPNc) (source : hSource frame = dev.devAddr.toList) :
    Arrives peer 0 dev frame (peer.received frame) := by
  have same : channel.mac.toList = hSource (peer.received frame).value := by
    rw [address, hSource_received header, source]
  have passes : ∃ after, receivingPass maxChannels peer (.frame frame) (fun _ => zeroMessage) =
      .ok after ∧
      after.table = (peer.setQueue 0 (peer.received frame :: channel.messageQueue)).table := by
    rw [receivingPass_frame header, if_pos proto]
    change ∃ after, (offers _ peer (peer.received frame) (0 + 1) >>= _) = _ ∧ _
    rw [offers_match rfl found same]
    exact ⟨_, rfl, rfl⟩
  obtain ⟨after, passes, table⟩ := passes
  have linked : after.channel 0 =
      .ok { channel with messageQueue := peer.received frame :: channel.messageQueue } := by
    rw [Network.channel, table]
    exact Network.channel_setQueue_self.mpr ⟨channel, found, rfl⟩
  exact .intro found address passes linked rfl

/-- A received message fits every variable. -/
theorem exists_receives (var : UInt32) {peer : Network} {frame : List UInt8}
    {receiver : Interpreter} {rest : List NcMessage} (exist : var.toNat < maxVariables)
    (header : ethHlen ≤ frame.length)
    (found : receiver.network.channel chan.toNat = .ok channel)
    (first : channel.messageQueue = peer.received frame :: rest) :
    ∃ after value', Receives long receiver var (peer.received frame) after ∧
      getVariableData after.variableSpace var.toNat = .ok value' := by
  have inside : ((peer.received frame).length - UInt32.ofNat ethHlen).toNat ≤
      ((peer.received frame).value.drop ethHlen).length := by
    rw [payload_length peer header, List.length_drop, NcMessage.value_length]
    exact Nat.sub_le_sub_right (Nat.min_le_left _ _) _
  have fits : ((peer.received frame).length - UInt32.ofNat ethHlen).toNat ≤ maxVarSizeBytes := by
    rw [payload_length peer header]
    exact Nat.le_trans (Nat.sub_le _ _) (Nat.min_le_left _ _)
  obtain ⟨varspace, written⟩ := setVariableData_defined receiver.variableSpace exist inside fits
  have received : ncmReceiveMessageToVar receiver.network receiver.variableSpace chan.toNat
      var.toNat = .ok (0, receiver.network.setQueue chan.toNat rest, varspace) := by
    unfold ncmReceiveMessageToVar
    rw [found, ok_bind, first]
    dsimp only
    rw [written]
    rfl
  obtain ⟨iteration, receives, -⟩ := execute_receive received
  exact ⟨_, _, .intro (Instr.opcode?_make ..) rfl found first receives,
    getVariableData_of_lt exist⟩

/-- A network with one channel that accepts messages from the device. -/
def Network.listening (dev : NetDevice) : Network :=
  { zeroNetwork with
    channels := 1
    table := some [⟨[], dev.devAddr, dev.ifindex, .device dev⟩] }

/-- Whatever a variable holds can go through a whole exchange. -/
theorem exists_exchange (hard : sender.network.mode = .hard)
    (hvalue : getVariableData sender.variableSpace var.toNat = .ok value)
    (found : sender.network.channel chan.toNat = .ok channel) (up : channel.dev = .device dev) :
    ∃ frame msg receiver after value', Sends .bits32 sender var dev frame ∧
      Arrives (.listening dev) 0 dev frame msg ∧ Receives .bits32 receiver 0 msg after ∧
      getVariableData after.variableSpace (0 : UInt32).toNat = .ok value' := by
  have fits := getVariableData_length_le hvalue
  have sends := exists_sends chan hard hvalue found up
  have arrives := exists_arrives (.listening dev) (variableFrame dev (fun _ => 0) value)
    rfl rfl (header_inside fits) (hProto_variableFrame fits) (hSource_variableFrame fits)
  have arrived := arrives
  cases arrived with
  | @intro _ linkedTo _ peer _ _ _ linkedAt linked =>
      have at_channel : ({ zeroInterpreter with network := peer } : Interpreter).network.channel
          (0 : UInt32).toNat = .ok linkedTo := linkedAt
      obtain ⟨after, value', receives, stored⟩ := exists_receives .bits32 0 0 (by decide)
        (header_inside fits) at_channel linked
      exact ⟨_, _, _, after, value', sends, arrives, receives, stored⟩

end Progress

/-! ## Values that survive -/

/-- A CREATE of the variable has a meaning, and every exchange that begins with
one leaves the value in the variable at the peer. -/
structure Survives (long : LongWidth) (sender : Interpreter) (var : UInt32)
    (value : List UInt8) : Prop where
  defined : ∀ create input, Creates create var →
    ∃ created, execute long sender create input = .ok created
  arrives : ∀ (long' : LongWidth) (dev : NetDevice) (frame : List UInt8) (peer : Network)
    (chan : Nat) (msg : NcMessage) (receiver after : Interpreter) (var' : UInt32)
    (value' : List UInt8), Sends long sender var dev frame → Arrives peer chan dev frame msg →
    Receives long' receiver var' msg after →
    getVariableData after.variableSpace var'.toNat = .ok value' → value' = value

/--
The value that a variable holds when CREATE runs survives the network if and
only if a `size_t` fits the `u32` that CREATE passes for one, and header and
value fit the buffer of the peer's receiving thread.
-/
theorem variable_survives_iff {long : LongWidth} {sysfs : NcmSysfs} {var chan : UInt32}
    {dev : NetDevice} {value : List UInt8} {channel : Channel} (reachable : Reachable long sysfs)
    (hvalue : getVariableData sysfs.ncmInterp.variableSpace var.toNat = .ok value)
    (found : sysfs.ncmInterp.network.channel chan.toNat = .ok channel)
    (up : channel.dev = .device dev) :
    Survives long sysfs.ncmInterp var value ↔
      long = .bits32 ∧ value.length ≤ ethDataLen - ethHlen := by
  constructor
  · intro survives
    have creates : Creates (.make .create var 0 0 0) var :=
      ⟨Instr.opcode?_make .., rfl, show (0 : UInt32).toNat < maxMessages by decide⟩
    have narrow : long = .bits32 :=
      (creates.defined_iff hvalue).mp (survives.defined _ (.atClock 0 0 0) creates)
    subst narrow
    obtain ⟨frame, msg, receiver, after, value', sends, arrives, receives, stored⟩ :=
      exists_exchange _ (reachable_wellSet reachable).mode_hard hvalue found up
    have whole := survives.arrives _ _ _ _ _ _ _ _ _ _ sends arrives receives stored
    rw [exchanged_value reachable hvalue sends arrives receives stored] at whole
    exact ⟨rfl, (List.take_eq_self_iff value).mp whole⟩
  · rintro ⟨rfl, fits⟩
    constructor
    · intro create input creates
      exact (creates.defined_iff hvalue).mpr rfl
    · intro long' dev frame peer chan msg receiver after var' value' sends arrives receives stored
      rw [exchanged_value reachable hvalue sends arrives receives stored]
      exact (List.take_eq_self_iff value).mpr fits

/-- The network card of a machine that has one. -/
def networkCard : NetDevice := ⟨2, #v[2, 0, 0, 0, 0, 1]⟩

/-- A machine on which every name belongs to its network card. -/
def NetEnv.carded : NetEnv := { NetEnv.bare with devGetByName := fun _ => some networkCard }

/-- The module can run with a channel on the card. -/
theorem reachable_carded :
    ∃ sysfs channel, Reachable .bits32 sysfs ∧ sysfs.ncmInterp.network.channel 0 = .ok channel ∧
      channel.dev = .device networkCard := by
  have done : ∃ labels sysfs channel,
      runFromInit .bits32 (loadAndRun [.make .nop 0 0 0 0] oneChannel .carded) =
        .ok (sysfs, labels) ∧
      sysfs.ncmInterp.network.channel 0 = .ok channel ∧ channel.dev = .device networkCard :=
    ⟨_, _, _, rfl, rfl, rfl⟩
  obtain ⟨labels, sysfs, channel, done, rest⟩ := done
  exact ⟨sysfs, channel, ⟨labels, run_of_runFromInit done⟩, rest⟩

/-- Any value can be written to the variable of such a node. -/
theorem reachable_holding {value : List UInt8} (fits : value.length ≤ maxVarSizeBytes) :
    ∃ sysfs channel, Reachable .bits32 sysfs ∧
      getVariableData sysfs.ncmInterp.variableSpace (0 : UInt32).toNat = .ok value ∧
      sysfs.ncmInterp.network.channel (0 : UInt32).toNat = .ok channel ∧
      channel.dev = .device networkCard := by
  obtain ⟨sysfs, channel, ⟨labels, run⟩, found, up⟩ := reachable_carded
  have exist : (0 : UInt32).toNat < maxVariables := by decide
  obtain ⟨varspace, written⟩ := setVariableData_defined sysfs.ncmInterp.variableSpace exist
    (Nat.le_refl value.length) fits
  have hstep : Step .bits32 sysfs (.storeVar 0 value, [])
      { sysfs with ncmInterp := { sysfs.ncmInterp with variableSpace := varspace } } := by
    change (ncmSysfsVarStore sysfs (0 : UInt32).toNat value >>= _) = _
    rw [ncmSysfsVarStore, written]
    rfl
  refine ⟨_, channel, ⟨_, .tail run hstep⟩, ?_, found, up⟩
  obtain ⟨_, copied, -⟩ := setVariableData_eq_ok written
  rw [getVariableData_of_lt exist, copied, List.take_length]

/-- Three bytes survive. -/
theorem variable_survives_iff_three :
    ∃ sysfs frame msg receiver after, Reachable .bits32 sysfs ∧
      getVariableData sysfs.ncmInterp.variableSpace (0 : UInt32).toNat = .ok [1, 2, 3] ∧
      Sends .bits32 sysfs.ncmInterp 0 networkCard frame ∧
      Arrives (.listening networkCard) 0 networkCard frame msg ∧
      Receives .bits32 receiver 0 msg after ∧
      getVariableData after.variableSpace (0 : UInt32).toNat = .ok [1, 2, 3] := by
  have fits : [(1 : UInt8), 2, 3].length ≤ maxVarSizeBytes := by decide
  obtain ⟨sysfs, channel, reachable, held, found, up⟩ := reachable_holding fits
  obtain ⟨frame, msg, receiver, after, value', sends, arrives, receives, stored⟩ :=
    exists_exchange _ (reachable_wellSet reachable).mode_hard held found up
  have survives := (variable_survives_iff reachable held found up).mpr ⟨rfl, by decide⟩
  obtain rfl := survives.arrives _ _ _ _ _ _ _ _ _ _ sends arrives receives stored
  exact ⟨sysfs, frame, msg, receiver, after, reachable, held, sends, arrives, receives, stored⟩

/-- Of 1487 bytes the last one is lost. -/
theorem variable_of_1487_cut :
    ¬ ∀ (long : LongWidth) (sysfs : NcmSysfs) (var chan : UInt32) (dev : NetDevice)
      (value : List UInt8) (channel : Channel), Reachable long sysfs →
      getVariableData sysfs.ncmInterp.variableSpace var.toNat = .ok value →
      sysfs.ncmInterp.network.channel chan.toNat = .ok channel → channel.dev = .device dev →
      Survives long sysfs.ncmInterp var value := by
  intro claim
  have length : (List.replicate 1487 (1 : UInt8)).length = 1487 := List.length_replicate
  have fits : (List.replicate 1487 (1 : UInt8)).length ≤ maxVarSizeBytes := by
    rw [length]
    decide
  obtain ⟨sysfs, channel, reachable, held, found, up⟩ := reachable_holding fits
  obtain ⟨_, _, _, _, value', sends, arrives, receives, stored⟩ :=
    exists_exchange _ (reachable_wellSet reachable).mode_hard held found up
  have same := (claim .bits32 sysfs 0 0 _ _ _ reachable held found up).arrives
    _ _ _ _ _ _ _ _ _ _ sends arrives receives stored
  rw [exchanged_value reachable held sends arrives receives stored,
    List.take_eq_self_iff, length] at same
  exact absurd same (by decide)

end NetworkCode.Kernel
