import NetworkCode.Kernel.SentFrames
import NetworkCode.Library.Broadcast

/-!
# Where values come from

Any number of nodes, each with the module and its own files, on one Ethernet.
The Ethernet loses, delays, repeats and reorders frames and fills short ones
up, and the nodes act in any order.  Whatever a queue or a variable of a node
holds then goes back to a CREATE on some node and to a write to a variable's
file.
-/

namespace NetworkCode.Kernel

open Library Library.Checked

/-! ## The nodes and their Ethernet -/

/-- A step of a node, with the state before it. -/
abbrev NodeRecord := NcmSysfs × Action × List Observation

/-- The frames that an action reads from the sockets. -/
def Action.Hears : Action → List UInt8 → Prop
  | .arrival read _, bytes => read = .frame bytes
  | .instruction input, bytes => ∃ now, (.frame bytes, now) ∈ input.syncReads
  | _, _ => False

def NodeRecord.Hears (record : NodeRecord) (bytes : List UInt8) : Prop :=
  record.2.1.Hears bytes

/-- The frames that a step transmits. -/
def NodeRecord.frames (record : NodeRecord) : List (List UInt8) := framesIn record.2.2

/-- A frame below the smallest size of an Ethernet frame may be filled up to it. -/
def Padded (frame bytes : List UInt8) : Prop :=
  ∃ filler, bytes = frame ++ filler ∧ (filler = [] ∨ bytes.length = ethZlen)

section Nodes

variable {ν : Type} [DecidableEq ν]

/-- A step of some node. -/
def NodesStep (long : ν → LongWidth) : Cluster ν NcmSysfs (List UInt8) → ν × NodeRecord →
    Cluster ν NcmSysfs (List UInt8) → Prop :=
  Cluster.Step (fun who => Recorded (Step (long who))) NodeRecord.Hears NodeRecord.frames Padded

/-- The module has just been loaded on all nodes, and the Ethernet is quiet. -/
def loadedNodes : Cluster ν NcmSysfs (List UInt8) := ⟨fun _ => initModule, []⟩

end Nodes

/-! ## Provenance -/

/-- The largest payload that the receiving thread has room for. -/
def payloadRoom : Nat := ethDataLen - ethHlen

/-- The payload of the smallest frame. -/
def leastPayload : Nat := ethZlen - ethHlen

/-- What becomes of a value on its way from node to node: nothing, or it is cut
at the room for a payload, or filled up to the least payload. -/
inductive Passed (source : List UInt8) : List UInt8 → Prop where
  | whole : Passed source source
  | cut : Passed source (source.take payloadRoom)
  | filled {value : List UInt8} (short : source.length < leastPayload)
      (full : value.length = leastPayload) (front : source <+: value) : Passed source value

theorem Passed.trans {first second third : List UInt8} (left : Passed first second)
    (right : Passed second third) : Passed first third := by
  have room : leastPayload < payloadRoom := by decide
  cases right with
  | whole => exact left
  | cut =>
      cases left with
      | whole => exact .cut
      | cut =>
          rw [List.take_take, Nat.min_self]
          exact .cut
      | filled short full front =>
          rw [List.take_of_length_le (by omega)]
          exact .filled short full front
  | filled short full front =>
      cases left with
      | whole => exact .filled short full front
      | cut =>
          have small : first.length < leastPayload := by
            rw [List.length_take] at short
            omega
          rw [List.take_of_length_le (by omega)] at front
          exact .filled small full front
      | filled _ full' _ => omega

section History

variable {ν : Type}

/-- Some node has executed a write of these bytes to the file of a variable. -/
def Written (history : List (ν × NodeRecord)) (bytes : List UInt8) : Prop :=
  ∃ who before var shown, (who, before, .storeVar var bytes, shown) ∈ history

/-- The value goes back to an empty variable or to a write. -/
def Genuine (history : List (ν × NodeRecord)) (value : List UInt8) : Prop :=
  ∃ source, (source = [] ∨ Written history source) ∧ Passed source value

/-- The node has executed a CREATE of a variable with this value. -/
def Created (history : List (ν × NodeRecord)) (who : ν) (value : List UInt8) : Prop :=
  ∃ before input shown instr, (who, before, .instruction input, shown) ∈ history ∧
    before.ncmInterp.fetch = .ok instr ∧ instr.opcode? = some .create ∧
      getVariableData before.ncmInterp.variableSpace instr.arg0.toNat = .ok value

/-- The node has handed a frame with the value to a device, after a CREATE of it. -/
def Sent (history : List (ν × NodeRecord)) (who : ν) (dev : NetDevice)
    (value frame : List UInt8) : Prop :=
  ∃ earlier later record status, history = earlier ++ (who, record) :: later ∧
    .event (.network (.xmit dev frame status)) ∈ record.2.2 ∧ Created earlier who value ∧
      Carries dev value frame

/-- The node has transmitted the frame in a master SYNC. -/
def Synced (history : List (ν × NodeRecord)) (who : ν) (frame : List UInt8) : Prop :=
  ∃ before input shown instr, (who, before, .instruction input, shown) ∈ history ∧
    before.ncmInterp.fetch = .ok instr ∧ instr.opcode? = some .sync ∧ instr.arg0 = syncMaster ∧
      frame ∈ framesIn shown

/-- The node has read the message from a frame that came from a device with the
address, and that a node had sent before with a value of its own. -/
inductive Authentic (who : ν) (mac : Mac) (msg : NcMessage) : List (ν × NodeRecord) → Prop where
  | intro {earlier later : List (ν × NodeRecord)} {before : NcmSysfs} {bytes : List UInt8}
      {kmalloc : Nat → NcMessage} {shown : List Observation} {sender : ν} {dev : NetDevice}
      {value frame : List UInt8} (read : msg = before.ncmInterp.network.received bytes)
      (carried : Padded frame bytes) (sent : Sent earlier sender dev value frame)
      (address : dev.devAddr = mac) (genuine : Genuine earlier value)
      (passed : Passed value msg.payload) :
      Authentic who mac msg
        (earlier ++ (who, before, .arrival (.frame bytes) kmalloc, shown) :: later)

variable {history : List (ν × NodeRecord)} {label : ν × NodeRecord} {who : ν}
  {value frame : List UInt8} {dev : NetDevice}

theorem Genuine.mono (genuine : Genuine history value) (more : List (ν × NodeRecord)) :
    Genuine (history ++ more) value := by
  obtain ⟨source, origin, passed⟩ := genuine
  refine ⟨source, origin.imp_right ?_, passed⟩
  rintro ⟨who, before, var, shown, member⟩
  exact ⟨who, before, var, shown, List.mem_append_left _ member⟩

theorem Genuine.passed {value' : List UInt8} (genuine : Genuine history value)
    (passed : Passed value value') : Genuine history value' := by
  obtain ⟨source, origin, earlier⟩ := genuine
  exact ⟨source, origin, earlier.trans passed⟩

theorem Created.mono (created : Created history who value) :
    Created (history ++ [label]) who value := by
  obtain ⟨before, input, shown, instr, member, rest⟩ := created
  exact ⟨before, input, shown, instr, List.mem_append_left _ member, rest⟩

theorem Sent.mono (sent : Sent history who dev value frame) :
    Sent (history ++ [label]) who dev value frame := by
  obtain ⟨earlier, later, record, status, rfl, rest⟩ := sent
  exact ⟨earlier, later ++ [label], record, status, by simp, rest⟩

theorem Synced.mono (synced : Synced history who frame) :
    Synced (history ++ [label]) who frame := by
  obtain ⟨before, input, shown, instr, member, rest⟩ := synced
  exact ⟨before, input, shown, instr, List.mem_append_left _ member, rest⟩

variable {mac : Mac} {msg : NcMessage}

theorem Authentic.mono (authentic : Authentic who mac msg history) :
    Authentic who mac msg (history ++ [label]) := by
  cases authentic with
  | intro read carried sent address genuine passed =>
      rw [List.append_assoc, List.cons_append]
      exact .intro read carried sent address genuine passed

/-- The payload of an authentic message goes back to a write. -/
theorem Authentic.genuine (authentic : Authentic who mac msg history) :
    Genuine history msg.payload := by
  cases authentic with
  | intro read carried sent address genuine passed => exact (genuine.passed passed).mono _

end History

/-! ## Frames on the Ethernet -/

section Frames

variable {ν : Type} {history : List (ν × NodeRecord)} {value frame bytes : List UInt8}
  {dev : NetDevice}

theorem Carries.header (carries : Carries dev value frame) : ethHlen ≤ frame.length := by
  rw [carries.length]
  exact Nat.le_add_right _ _

theorem Carries.source (carries : Carries dev value frame) :
    hSource frame = dev.devAddr.toList := by
  have addresses := congrArg (List.drop ethAlen) carries.addresses
  rw [List.drop_take, Nat.add_sub_cancel] at addresses
  rw [hSource, Bytes.slice, addresses]
  exact List.drop_left' List.length_replicate

/-- Filling up leaves the header alone. -/
theorem Padded.slice (padded : Padded frame bytes) {start count : Nat}
    (inside : start + count ≤ frame.length) :
    Bytes.slice bytes start count = Bytes.slice frame start count := by
  obtain ⟨filler, rfl, -⟩ := padded
  rw [Bytes.slice, Bytes.slice, List.drop_append_of_le_length (by omega),
    List.take_append_of_le_length (by rw [List.length_drop]; omega)]

theorem Padded.header (padded : Padded frame bytes) (header : ethHlen ≤ frame.length) :
    ethHlen ≤ bytes.length := by
  obtain ⟨filler, rfl, -⟩ := padded
  rw [List.length_append]
  exact Nat.le_trans header (Nat.le_add_right _ _)

/-- What the receiving thread has room for behind the header of a filled frame. -/
theorem Padded.payload (padded : Padded frame bytes) (carries : Carries dev value frame) :
    Passed value ((bytes.drop ethHlen).take payloadRoom) := by
  obtain ⟨filler, rfl, fills⟩ := padded
  rw [List.drop_append_of_le_length carries.header, carries.payload]
  rcases fills with rfl | full
  · rw [List.append_nil]
    exact .cut
  · rw [List.length_append, carries.length] at full
    have least : leastPayload = 46 := rfl
    have room : payloadRoom = 1486 := rfl
    have header : ethHlen = 14 := rfl
    have smallest : ethZlen = 60 := rfl
    cases filler with
    | nil =>
        rw [List.append_nil]
        exact .cut
    | cons first rest =>
        rw [List.length_cons] at full
        have whole : (value ++ first :: rest).length = leastPayload := by
          rw [List.length_append, List.length_cons]
          omega
        rw [List.take_of_length_le (by omega)]
        exact .filled (by omega) whole (List.prefix_append _ _)

section Received

variable (network : Network) (padded : Padded frame bytes)

include padded

theorem Padded.hProto_received (header : ethHlen ≤ frame.length) :
    hProto (network.received bytes).value = hProto frame := by
  have room : ethHlen = 14 := rfl
  rw [NetworkCode.Kernel.hProto_received (padded.header header)]
  exact padded.slice (by omega)

theorem Padded.hSource_received (header : ethHlen ≤ frame.length) :
    hSource (network.received bytes).value = hSource frame := by
  rw [NetworkCode.Kernel.hSource_received (padded.header header)]
  exact padded.slice (show ethAlen + ethAlen ≤ _ from Nat.le_trans (by decide) header)

theorem Padded.payload_received (carries : Carries dev value frame) :
    Passed value (network.received bytes).payload := by
  rw [NcMessage.payload, received_payload network (padded.header carries.header)]
  exact padded.payload carries

end Received

/-- A frame on the Ethernet is the sync of a master or carries a value of its node. -/
def GoodFrame (history : List (ν × NodeRecord)) (frame : List UInt8) : Prop :=
  ethHlen ≤ frame.length ∧
    ((hProto frame = htons ethPNcSync ∧ ∃ who, Synced history who frame) ∨
      ∃ who dev value, Sent history who dev value frame ∧ Genuine history value)

theorem GoodFrame.mono {label : ν × NodeRecord} (good : GoodFrame history frame) :
    GoodFrame (history ++ [label]) frame := by
  obtain ⟨header, ⟨sync, who, synced⟩ | ⟨who, dev, value, sent, genuine⟩⟩ := good
  · exact ⟨header, .inl ⟨sync, who, synced.mono⟩⟩
  · exact ⟨header, .inr ⟨who, dev, value, sent.mono, genuine.mono _⟩⟩

theorem Sent.carries {who : ν} (sent : Sent history who dev value frame) :
    Carries dev value frame := by
  obtain ⟨earlier, later, record, status, -, -, -, carries⟩ := sent
  exact carries

/-- What the receiving thread makes of a good frame from the address of a channel. -/
theorem GoodFrame.authentic (good : GoodFrame history frame) (padded : Padded frame bytes)
    {who : ν} {before : NcmSysfs} {kmalloc : Nat → NcMessage} {shown : List Observation} {mac : Mac}
    (protocol : hProto (before.ncmInterp.network.received bytes).value = htons ethPNc)
    (address : mac.toList = hSource (before.ncmInterp.network.received bytes).value) :
    Authentic who mac (before.ncmInterp.network.received bytes)
      (history ++ [(who, before, .arrival (.frame bytes) kmalloc, shown)]) := by
  obtain ⟨header, ⟨sync, -⟩ | ⟨sender, dev, value, sent, genuine⟩⟩ := good
  · rw [padded.hProto_received _ header, sync] at protocol
    cases protocol
  · rw [padded.hSource_received _ header, sent.carries.source] at address
    exact .intro rfl padded sent (Vector.toList_inj.mp address.symm) genuine
      (padded.payload_received _ sent.carries)

end Frames

/-! ## What every node keeps -/

/-- What a node holds is accounted for. -/
structure Accountable {ν : Type} (history : List (ν × NodeRecord)) (who : ν)
    (interpreter : Interpreter) : Prop where
  wellSet : interpreter.network.WellSet
  slots : ∀ slot skb, interpreter.network.slot slot = some skb →
    ∃ memory value, skb = createdBuffer memory value ∧ value.length ≤ maxVarSizeBytes ∧
      Created history who value ∧ Genuine history value
  queues : ∀ mac msg, interpreter.network.Queued mac msg → Authentic who mac msg history
  values : ∀ var value, getVariableData interpreter.variableSpace var = .ok value →
    Genuine history value

section Accountability

variable {ν : Type} {history : List (ν × NodeRecord)} {who : ν} {interpreter : Interpreter}

theorem Accountable.mono (holds : Accountable history who interpreter) (label : ν × NodeRecord) :
    Accountable (history ++ [label]) who interpreter where
  wellSet := holds.wellSet
  slots slot skb filled := by
    obtain ⟨memory, value, same, fits, created, genuine⟩ := holds.slots slot skb filled
    exact ⟨memory, value, same, fits, created.mono, genuine.mono _⟩
  queues mac msg queued := (holds.queues mac msg queued).mono
  values var value copied := (holds.values var value copied).mono _

theorem Accountable.loaded (history : List (ν × NodeRecord)) (who : ν) :
    Accountable history who initModule.ncmInterp where
  wellSet := ⟨nofun, rfl, .inl rfl, rfl⟩
  slots slot skb filled := by
    have empty : initModule.ncmInterp.network.slot slot = none :=
      Vector.getElem_replicate slot.isLt
    rw [empty] at filled
    cases filled
  queues mac msg queued := absurd queued (Network.not_queued_of_released rfl)
  values var value copied := by
    obtain rfl := getVariableData_init copied
    exact ⟨[], .inl rfl, .whole⟩

variable {long : LongWidth} {before after : NcmSysfs} {label : Action × List Observation}

/-- A step of a node that hears good frames keeps the node accountable. -/
theorem step_accountable (heard : ∀ bytes, NodeRecord.Hears (before, label) bytes →
      ∃ original, GoodFrame history original ∧ Padded original bytes)
    (holds : Accountable history who before.ncmInterp) (hstep : Step long before label after) :
    Accountable (history ++ [(who, before, label)]) who after.ncmInterp := by
  have moves := step_moves hstep
  obtain ⟨action, shown⟩ := label
  have earlier := holds.mono (who, before, action, shown)
  have newest : (who, before, action, shown) ∈ history ++ [(who, before, action, shown)] :=
    List.mem_append_right _ (List.mem_singleton_self _)
  constructor
  · exact step_wellSet before _ after holds.wellSet hstep
  · intro slot skb filled
    rcases moves.slot_cases filled with
      held | ⟨input, instr, memory, value, rfl, -, fetched, decoded, copied, rfl⟩
    · exact earlier.slots slot skb held
    · refine ⟨memory, value, rfl, getVariableData_length_le copied, ?_,
        earlier.values _ _ copied⟩
      exact ⟨before, input, shown, instr, newest, fetched, decoded, copied⟩
  · intro mac msg queued
    rcases moves.queued_cases queued with
      held | ⟨bytes, kmalloc, rfl, rfl, protocol, address⟩
    · exact earlier.queues mac msg held
    · obtain ⟨original, good, padded⟩ := heard bytes rfl
      exact good.authentic padded protocol address
  · intro var value copied
    rcases moves.value_cases copied with
      held | rfl | ⟨input, instr, mac, msg, rfl, -, -, -, -, queued, rfl⟩
    · exact earlier.values var value held
    · exact ⟨value, .inr ⟨who, before, var, shown, newest⟩, .whole⟩
    · exact (earlier.queues mac msg queued).genuine

/-- What an accountable node transmits is good. -/
theorem step_goodFrames (holds : Accountable history who before.ncmInterp)
    (hstep : Step long before label after) (frame : List UInt8)
    (sent : frame ∈ framesIn label.2) : GoodFrame (history ++ [(who, before, label)]) frame := by
  have moves := step_moves hstep
  obtain ⟨action, shown⟩ := label
  obtain ⟨input, instr, rfl, -, fetched, ⟨decoded, master, header, protocol⟩ |
    ⟨chan, channel, dev, slot, skb, -, -, held, rfl, shows⟩⟩ :=
    moves.frame_cases holds.wellSet.mode_hard sent
  · refine ⟨header, .inl ⟨protocol, who, ?_⟩⟩
    exact ⟨before, input, shown, instr, List.mem_append_right _ (List.mem_singleton_self _),
      fetched, decoded, master, sent⟩
  · obtain ⟨memory, value, rfl, fits, created, genuine⟩ := holds.slots slot skb held
    have carries : Carries dev value (variableFrame dev memory value) :=
      variableFrame_carries fits
    refine ⟨carries.header, .inr ⟨who, dev, value, ?_, genuine.mono _⟩⟩
    exact ⟨history, [], _, input.txStatus, rfl, shows, created, carries⟩

end Accountability

/-! ## Every run -/

section Runs

variable {ν : Type} [DecidableEq ν] {long : ν → LongWidth} {labels : List (ν × NodeRecord)}
  {nodes : Cluster ν NcmSysfs (List UInt8)}

theorem run_accountable (run : Run (NodesStep long) loadedNodes labels nodes) :
    (∀ who, Accountable labels who (nodes.machine who).ncmInterp) ∧
      ∀ frame ∈ nodes.sent, GoodFrame labels frame := by
  refine Cluster.run_guarantee
    (fun history who sysfs => Accountable history who sysfs.ncmInterp) GoodFrame
    ?_ ?_ ?_ run (fun who => .loaded [] who) rfl
  · exact fun history label who sysfs holds => holds.mono label
  · exact fun history label frame good => good.mono
  · rintro history who before ⟨_, label⟩ after heard holds ⟨rfl, hstep⟩
    exact ⟨step_accountable heard holds hstep, step_goodFrames holds hstep⟩

/--
In every run of any number of nodes on an Ethernet that loses, delays, repeats,
reorders and fills up frames, a message that waits in the queue of a channel
has come in a frame from a device with the address of the channel, which a node
has sent after a CREATE of the value that the frame carries; the payload is
that value, cut at the room for it or filled up to the least payload.
-/
theorem queued_message_authentic (run : Run (NodesStep long) loadedNodes labels nodes) (who : ν)
    (mac : Mac) (msg : NcMessage)
    (queued : (nodes.machine who).ncmInterp.network.Queued mac msg) :
    Authentic who mac msg labels :=
  ((run_accountable run).1 who).queues mac msg queued

/-- Records of actions hear what the actions hear. -/
theorem heard_of_actions {records : List NodeRecord} {actions : List Action}
    (same : (records.map Prod.snd).map Prod.fst = actions) {heard : List UInt8 → Prop}
    (each : ∀ action ∈ actions, ∀ bytes, action.Hears bytes → heard bytes) :
    ∀ record ∈ records, ∀ bytes, record.Hears bytes → heard bytes := by
  intro record member bytes hears
  refine each record.2.1 ?_ bytes hears
  rw [← same]
  exact List.mem_map_of_mem (List.mem_map_of_mem member)

/-- A node that hears nothing sends a frame, and another one hears nothing else. -/
theorem exists_pair {first second : List Action} {sender receiver : NcmSysfs}
    {sent quiet : List (Action × List Observation)} {frame : List UInt8}
    (sends : runFromInit .bits32 first = .ok (sender, sent))
    (listens : runFromInit .bits32 second = .ok (receiver, quiet))
    (deaf : ∀ action ∈ first, ∀ bytes, ¬ action.Hears bytes)
    (hears : ∀ action ∈ second, ∀ bytes, action.Hears bytes → bytes = frame)
    (transmitted : frame ∈ sent.flatMap fun label => framesIn label.2) :
    ∃ (records : List (Bool × NodeRecord)) (nodes : Cluster Bool NcmSysfs (List UInt8)),
      Run (NodesStep fun _ => .bits32) loadedNodes records nodes ∧
        nodes.machine false = receiver ∧ frame ∈ nodes.sent := by
  have actions := Run.carryOut_actions sends
  have actions' := Run.carryOut_actions listens
  obtain ⟨records, recorded, rfl⟩ := (run_of_runFromInit sends).recorded
  obtain ⟨records', recorded', rfl⟩ := (run_of_runFromInit listens).recorded
  rw [List.flatMap_map] at transmitted
  have heard (record : NodeRecord) (member : record ∈ records') (bytes : List UInt8)
      (read : record.Hears bytes) :
      ∃ original ∈ records.flatMap NodeRecord.frames, Padded original bytes := by
    obtain rfl := heard_of_actions actions' hears record member bytes read
    exact ⟨bytes, transmitted, [], (List.append_nil _).symm, .inl rfl⟩
  have pair : ∃ nodes, Run (NodesStep fun _ : Bool => .bits32) loadedNodes
      (records.map (true, ·) ++ records'.map (false, ·)) nodes ∧ nodes.machine false = receiver ∧
      ∀ frame ∈ records.flatMap NodeRecord.frames, frame ∈ nodes.sent :=
    Cluster.run_pair (fun _ => Recorded (Step .bits32)) true false Bool.false_ne_true loadedNodes
      recorded (heard_of_actions actions deaf) recorded' heard
  obtain ⟨nodes, run, same, sent⟩ := pair
  exact ⟨_, nodes, run, same, sent frame transmitted⟩

/-- The actions of a node that sends what is written to its first variable. -/
def sendOnce : List Action :=
  loadAndRun createAndSend oneChannel .carded ++
    [.storeVar 0 [1, 2, 3], .instruction (.atClock 0 0 0), .instruction (.atClock 0 0 0)]

/-- The frame of the node. -/
def sentOnce : List UInt8 := variableFrame networkCard (fun _ => 0) [1, 2, 3]

/-- The actions of a node that the frame reaches. -/
def hearOnce : List Action :=
  loadAndRun [.make .receive 0 1 0 0] oneChannel .carded ++
    [.arrival (.frame sentOnce) fun _ => zeroMessage]

theorem sendOnce_transmits : ∃ sender labels, runFromInit .bits32 sendOnce = .ok (sender, labels) ∧
    sentOnce ∈ labels.flatMap fun label => framesIn label.2 := by
  have frames : (runFromInit .bits32 sendOnce).toOption.any (fun done =>
      done.2.flatMap (fun label => framesIn label.2) = [sentOnce]) = true := by decide +kernel
  obtain ⟨⟨sender, labels⟩, ran, same⟩ := exists_ok_of_any frames
  refine ⟨sender, labels, ran, ?_⟩
  rw [of_decide_eq_true same]
  exact List.mem_singleton_self _

theorem sendOnce_deaf : ∀ action ∈ sendOnce, ∀ bytes, ¬ action.Hears bytes := by
  simp [sendOnce, loadAndRun, Action.Hears, StepInput.atClock]

/-- One node sends, and the other one has a channel with its address. -/
theorem queued_message_authentic_pair :
    ∃ (labels : List (Bool × NodeRecord)) (msg : NcMessage),
      Authentic false networkCard.devAddr msg labels ∧ msg.payload = [1, 2, 3] := by
  obtain ⟨sender, labels, ran, transmitted⟩ := sendOnce_transmits
  have queue : (runFromInit .bits32 hearOnce).toOption.any (fun done =>
      (done.1.ncmInterp.network.channel 0).toOption.any fun channel =>
        channel.mac = networkCard.devAddr ∧
          channel.messageQueue.map NcMessage.payload = [[1, 2, 3]]) = true := by decide +kernel
  obtain ⟨⟨receiver, quiet⟩, ran', found⟩ := exists_ok_of_any queue
  obtain ⟨channel, found, holds⟩ := exists_ok_of_any found
  obtain ⟨address, payloads⟩ := of_decide_eq_true holds
  obtain ⟨msg, member, payload⟩ := List.mem_map.mp (payloads ▸ List.mem_singleton_self [1, 2, 3])
  obtain ⟨records, nodes, run, rfl, -⟩ := exists_pair ran ran' sendOnce_deaf
    (by simp [hearOnce, loadAndRun, Action.Hears]) transmitted
  exact ⟨records, msg, queued_message_authentic run false networkCard.devAddr msg
    ⟨0, channel, found, address, member⟩, payload⟩

/--
In every run of any number of nodes on such an Ethernet, whatever a variable of
a node holds is what some write to a variable's file, on some node, has stored,
or nothing; on its way it can only have been cut at the room for a payload or
filled up to the least payload.
-/
theorem variable_genuine (run : Run (NodesStep long) loadedNodes labels nodes) (who : ν)
    (var : Nat) (value : List UInt8)
    (held : getVariableData (nodes.machine who).ncmInterp.variableSpace var = .ok value) :
    Genuine labels value :=
  ((run_accountable run).1 who).values var value held

/-- What is written to a variable of one node, the other one receives. -/
theorem variable_genuine_received : ∃ (labels : List (Bool × NodeRecord))
    (nodes : Cluster Bool NcmSysfs (List UInt8)),
    getVariableData (nodes.machine false).ncmInterp.variableSpace 1 = .ok [1, 2, 3] ∧
      Genuine labels [1, 2, 3] := by
  obtain ⟨sender, labels, ran, transmitted⟩ := sendOnce_transmits
  have value : (runFromInit .bits32 (hearOnce ++ [.instruction (.atClock 0 0 0)])).toOption.any
      (fun done => getVariableData done.1.ncmInterp.variableSpace 1 = .ok [1, 2, 3]) = true := by
    decide +kernel
  obtain ⟨⟨receiver, quiet⟩, ran', held⟩ := exists_ok_of_any value
  have held := of_decide_eq_true held
  obtain ⟨records, nodes, run, rfl, -⟩ := exists_pair ran ran' sendOnce_deaf
    (by simp [hearOnce, loadAndRun, Action.Hears, StepInput.atClock]) transmitted
  exact ⟨records, nodes, held, variable_genuine run false 1 [1, 2, 3] held⟩

end Runs

end NetworkCode.Kernel
