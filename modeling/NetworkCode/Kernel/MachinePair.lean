import NetworkCode.Kernel.BuiltIn
import NetworkCode.Kernel.ParamsTables
import NetworkCode.Kernel.Provenance

/-!
# The two machines together

Both builds with a built-in program, each with its own files, on one Ethernet
that loses, delays, repeats, reorders and fills up frames.  A program sends its
variable 0 and receives into its variable 1, and its channel takes the frames
of the other machine alone, so what one machine shows in variable 1 has been
written to variable 0 of the other one.
-/

namespace NetworkCode.Kernel

open Library Library.Checked

/-! ## The machines -/

namespace Arch

/-- `vm1_mac` and `vm2_mac` -/
def mac : Arch → Mac
  | arch1 => ⟨vm1Mac.toArray, rfl⟩
  | arch2 => ⟨vm2Mac.toArray, rfl⟩

def peer : Arch → Arch
  | arch1 => arch2
  | arch2 => arch1

theorem mac_peer (arch : Arch) : arch.peer.mac.toList = arch.peerMac := by
  cases arch <;> rfl

theorem mac_injective {arch other : Arch} (same : arch.mac = other.mac) : arch = other := by
  cases arch <;> cases other
  · rfl
  · cases same
  · cases same
  · rfl

end Arch

/-- `eth0` -/
def eth0 : DeviceName := ⟨devname.toArray, rfl⟩

section Lines

variable {arch : Arch} {stale : Nat → Instr} {instr : Instr}

/-- Every instruction of a built-in program comes from a line. -/
theorem lineInstrs_line (member : instr ∈ lineInstrs arch.lines stale) :
    ∃ line ∈ arch.lines, ∃ held, instr = line.record held ∧ instr.opcode? = some line.opcode := by
  obtain ⟨place, inside, rfl⟩ := List.mem_mapIdx.mp member
  exact ⟨_, List.getElem_mem inside, _, rfl, Opcode.ofCode?_code _⟩

/-- CREATE takes variable 0. -/
theorem create_arg0 (member : instr ∈ lineInstrs arch.lines stale)
    (decoded : instr.opcode? = some .create) : instr.arg0 = 0 := by
  obtain ⟨line, listed, held, rfl, opcode⟩ := lineInstrs_line member
  have operands : ∀ line ∈ arch.lines, line.opcode = .create → line.args = [0, 0] := by
    cases arch <;> decide
  have same := operands line listed (Option.some.inj (opcode.symm.trans decoded))
  change line.args.getD 0 held.arg0 = 0
  rw [same]
  rfl

/-- RECEIVE fills variable 1. -/
theorem receive_arg1 (member : instr ∈ lineInstrs arch.lines stale)
    (decoded : instr.opcode? = some .receive) : instr.arg1 = 1 := by
  obtain ⟨line, listed, held, rfl, opcode⟩ := lineInstrs_line member
  have operands : ∀ line ∈ arch.lines, line.opcode = .receive → line.args = [0, 1] := by
    cases arch <;> decide
  have same := operands line listed (Option.some.inj (opcode.symm.trans decoded))
  change line.args.getD 1 held.arg1 = 1
  rw [same]
  rfl

end Lines

section Loading

variable {arch : Arch} {memory : TableMemory} {env : NetEnv} {sysfs : NcmSysfs} {card : NetDevice}

/-- Loading sets up the network from the params of `make_program`, and empties the variables. -/
theorem initModuleVm_setUp (loaded : initModuleVm arch.type memory env = .ok sysfs) :
    (∃ acquired, initNetwork zeroNetwork ⟨1, some devname, some arch.peerMac⟩ env =
      .ok (sysfs.ncmInterp.network, acquired)) ∧
      sysfs.ncmInterp.variableSpace = initVariableSpace zeroInterpreter.variableSpace := by
  obtain ⟨⟨program, params⟩, made, started⟩ := bind_eq_ok.mp loaded
  rw [makeProgram_arch] at made
  obtain ⟨rfl, -⟩ := makeTables_eq_ok (lines_few arch) made
  obtain ⟨interpreter, started, finish⟩ := bind_eq_ok.mp started
  obtain ⟨⟨network, acquired⟩, initialised, built⟩ := bind_eq_ok.mp started
  cases built
  cases finish
  exact ⟨⟨acquired, initialised⟩, rfl⟩

/-- The one channel has the address of the other machine and the card as its device. -/
theorem initModuleVm_channel (loaded : initModuleVm arch.type memory env = .ok sysfs)
    (named : env.devGetByName devname = some card) {chan : Nat} {channel : Channel}
    (found : sysfs.ncmInterp.network.channel chan = .ok channel) :
    channel.mac = arch.peer.mac ∧ channel.dev = .device card := by
  obtain ⟨⟨acquired, initialised⟩, -⟩ := initModuleVm_setUp loaded
  have holds : NetParams.Holds ⟨1, some devname, some arch.peerMac⟩ [eth0] [arch.peer.mac] :=
    ⟨rfl, rfl, rfl, by rw [← arch.mac_peer]; simp [tableOf]⟩
  obtain ⟨started, acquired', table, initialised', htable, length, entries⟩ :=
    initNetwork_of_holds holds zeroNetwork env
  obtain ⟨rfl, -⟩ := Prod.mk.inj (Except.ok.inj (initialised'.symm.trans initialised))
  have entry := (Network.channel_eq_ok htable).mp found
  obtain ⟨bound, -⟩ := List.getElem?_eq_some_iff.mp entry
  obtain rfl : chan = 0 := by
    rw [length] at bound
    exact Nat.lt_one_iff.mp bound
  cases entry.symm.trans (entries 0 Nat.one_pos Nat.one_pos)
  change (channelOf env 0 devname arch.peer.mac).mac = _ ∧
    (channelOf env 0 devname arch.peer.mac).dev = _
  unfold channelOf
  rw [named]
  exact ⟨rfl, rfl⟩

end Loading

/-! ## The set-up lasts -/

section SetUpLasts

variable {network after : Network} {chan : Nat} {channel : Channel}

theorem Network.channel_identity (network : Network) (chan : Nat) :
    (network.channel chan).toOption.map Channel.identity =
      (network.table.map (List.map Channel.identity)).bind (·[chan]?) := by
  unfold Network.channel
  cases network.table with
  | none => rfl
  | some table =>
      dsimp only [Option.map_some, Option.bind_some]
      rw [List.getElem?_map]
      cases table[chan]? <;> rfl

/-- A channel is the one before, up to its messages. -/
theorem Network.SameSetup.channel_before (same : network.SameSetup after)
    (found : after.channel chan = .ok channel) :
    ∃ earlier, network.channel chan = .ok earlier ∧ earlier.identity = channel.identity := by
  have identities : (network.channel chan).toOption.map Channel.identity =
      some channel.identity := by
    rw [Network.channel_identity, ← same.table, ← Network.channel_identity, found]
    rfl
  obtain ⟨earlier, held, identity⟩ := Option.map_eq_some_iff.mp identities
  cases before : network.channel chan with
  | error fault =>
      rw [before] at held
      cases held
  | ok other =>
      rw [before] at held
      cases held
      exact ⟨_, rfl, identity⟩

/-- Only a start changes the address and the device of a channel. -/
theorem Moves.channel_before {long : LongWidth} {sysfs : NcmSysfs} {action : Action}
    {shown : List Observation} {next : Interpreter}
    (moves : Moves long sysfs action shown next) (unstarted : ¬ StartsInterpreter sysfs action)
    (found : next.network.channel chan = .ok channel) :
    ∃ earlier, sysfs.ncmInterp.network.channel chan = .ok earlier ∧
      earlier.identity = channel.identity := by
  rcases moves.network_kept unstarted with same | destroyed
  · exact same.channel_before found
  · rw [destroyed] at found
    cases found

end SetUpLasts

/-! ## What each machine keeps -/

/-- The value has been written to the file of the variable, or nothing has. -/
def Given (history : List (Arch × NodeRecord)) (arch : Arch) (var : Nat)
    (value : List UInt8) : Prop :=
  value = [] ∨ ∃ before shown, (arch, before, .storeVar var value, shown) ∈ history

/-- The value is what has become of one given to variable 0 of the other machine. -/
def FromPeer (history : List (Arch × NodeRecord)) (arch : Arch) (value : List UInt8) : Prop :=
  ∃ source, Given history arch.peer 0 source ∧ Passed source value

/-- A frame of the pair is a sync, or carries variable 0 of the machine that it names. -/
def PairFrame (history : List (Arch × NodeRecord)) (frame : List UInt8) : Prop :=
  ethHlen ≤ frame.length ∧ (hProto frame = htons ethPNcSync ∨ ∃ arch dev value,
    dev.devAddr = arch.mac ∧ Carries dev value frame ∧ Given history arch 0 value)

/-- A machine on course whose data come from its own files and from its peer. -/
structure Partnered (history : List (Arch × NodeRecord)) (arch : Arch) (card : NetDevice)
    (interpreter : Interpreter) : Prop where
  wellSet : interpreter.network.WellSet
  steered : ∃ stale labels,
    Steered (lineInstrs arch.lines stale) vmCertificate labels interpreter
  channels : ∀ chan channel, interpreter.network.channel chan = .ok channel →
    channel.mac = arch.peer.mac ∧ channel.dev = .device card
  slots : ∀ slot skb, interpreter.network.slot slot = some skb →
    ∃ memory value, skb = createdBuffer memory value ∧ value.length ≤ maxVarSizeBytes ∧
      Given history arch 0 value
  queues : ∀ mac msg, interpreter.network.Queued mac msg → FromPeer history arch msg.payload
  values : ∀ var value, getVariableData interpreter.variableSpace var = .ok value →
    Given history arch var value ∨ var = 1 ∧ FromPeer history arch value

section Partners

variable {history : List (Arch × NodeRecord)} {arch : Arch} {card : NetDevice}
  {interpreter : Interpreter} {frame bytes value : List UInt8} {var : Nat}

theorem Given.mono (given : Given history arch var value) (label : Arch × NodeRecord) :
    Given (history ++ [label]) arch var value := by
  refine given.imp_right ?_
  rintro ⟨before, shown, member⟩
  exact ⟨before, shown, List.mem_append_left _ member⟩

theorem FromPeer.mono (fromPeer : FromPeer history arch value) (label : Arch × NodeRecord) :
    FromPeer (history ++ [label]) arch value := by
  obtain ⟨source, given, passed⟩ := fromPeer
  exact ⟨source, given.mono label, passed⟩

theorem PairFrame.mono (good : PairFrame history frame) (label : Arch × NodeRecord) :
    PairFrame (history ++ [label]) frame := by
  obtain ⟨header, sync | ⟨arch, dev, value, address, carries, given⟩⟩ := good
  · exact ⟨header, .inl sync⟩
  · exact ⟨header, .inr ⟨arch, dev, value, address, carries, given.mono label⟩⟩

theorem Partnered.mono (holds : Partnered history arch card interpreter)
    (label : Arch × NodeRecord) : Partnered (history ++ [label]) arch card interpreter where
  wellSet := holds.wellSet
  steered := holds.steered
  channels := holds.channels
  slots slot skb filled := by
    obtain ⟨memory, value, same, fits, given⟩ := holds.slots slot skb filled
    exact ⟨memory, value, same, fits, given.mono label⟩
  queues mac msg queued := (holds.queues mac msg queued).mono label
  values var value copied := by
    rcases holds.values var value copied with given | ⟨one, fromPeer⟩
    · exact .inl (given.mono label)
    · exact .inr ⟨one, fromPeer.mono label⟩

theorem Partnered.loaded {memory : TableMemory} {env : NetEnv} {sysfs : NcmSysfs}
    (loaded : initModuleVm arch.type memory env = .ok sysfs)
    (named : env.devGetByName devname = some card) :
    Partnered [] arch card sysfs.ncmInterp := by
  obtain ⟨created, -, wellSet, stale, course⟩ := initModuleVm_eq_ok loaded
  obtain ⟨⟨acquired, initialised⟩, varspace⟩ := initModuleVm_setUp loaded
  constructor
  · exact wellSet
  · refine ⟨stale, [], fun _ => ⟨_, course⟩, ?_⟩
    rw [created]
    exact nofun
  · exact fun chan channel found => initModuleVm_channel loaded named found
  · intro slot skb filled
    rw [initNetwork_slot initialised] at filled
    cases filled
  · intro mac msg queued
    obtain ⟨⟨table, acquired⟩, built, finish⟩ := bind_eq_ok.mp initialised
    obtain ⟨made, -⟩ := Prod.mk.inj (Except.ok.inj finish)
    rw [← made] at queued
    exact absurd queued (Network.not_queued_of_empty rfl (initChannels_empty built))
  · intro var value copied
    rw [varspace] at copied
    exact .inl (.inl (getVariableData_init copied))

/-- The instruction that a partnered machine fetches is one of its program. -/
theorem Partnered.fetched (holds : Partnered history arch card interpreter) {instr : Instr}
    (looping : interpreter.thread = some .looping) (fetched : interpreter.fetch = .ok instr) :
    ∃ stale, instr ∈ lineInstrs arch.lines stale := by
  obtain ⟨stale, labels, steered⟩ := holds.steered
  obtain ⟨futures, course⟩ := steered.active (.inr looping)
  exact ⟨stale, (course.row (vm_certified arch stale) fetched).1⟩

/-- A frame from the address of the peer carries variable 0 of the peer. -/
theorem PairFrame.fromPeer (good : PairFrame history frame) (padded : Padded frame bytes)
    {network : Network} (protocol : hProto (network.received bytes).value = htons ethPNc)
    (address : arch.peer.mac.toList = hSource (network.received bytes).value) :
    FromPeer history arch (network.received bytes).payload := by
  obtain ⟨header, sync | ⟨sender, dev, value, own, carries, given⟩⟩ := good
  · rw [padded.hProto_received network header, sync] at protocol
    cases protocol
  · rw [padded.hSource_received network header, carries.source, own] at address
    obtain rfl := Arch.mac_injective (Vector.toList_inj.mp address)
    exact ⟨value, given, padded.payload_received network carries⟩

variable {long : LongWidth} {before after : NcmSysfs} {label : Action × List Observation}

/-- A step of a machine that hears good frames keeps it partnered. -/
theorem step_partnered (heard : ∀ bytes, NodeRecord.Hears (before, label) bytes →
      ∃ original, PairFrame history original ∧ Padded original bytes)
    (holds : Partnered history arch card before.ncmInterp)
    (hstep : Meeting (Step long) Unstarted before label after) :
    Partnered (history ++ [(arch, before, label)]) arch card after.ncmInterp := by
  obtain ⟨unstarted, hstep⟩ := hstep
  have moves := step_moves hstep
  obtain ⟨action, shown⟩ := label
  have earlier := holds.mono (arch, before, action, shown)
  constructor
  · exact step_wellSet before _ after holds.wellSet hstep
  · obtain ⟨stale, labels, steered⟩ := holds.steered
    exact ⟨stale, _, moves.steered (vm_certified arch stale) unstarted steered⟩
  · intro chan channel found
    obtain ⟨other, found', identity⟩ := moves.channel_before unstarted found
    obtain ⟨address, device⟩ := holds.channels chan other found'
    exact ⟨(congrArg Channel.mac identity).symm.trans address,
      (congrArg Channel.dev identity).symm.trans device⟩
  · intro slot skb filled
    rcases moves.slot_cases filled with
      held | ⟨input, instr, memory, value, rfl, looping, fetched, decoded, copied, rfl⟩
    · exact earlier.slots slot skb held
    · refine ⟨memory, value, rfl, getVariableData_length_le copied, ?_⟩
      obtain ⟨stale, member⟩ := holds.fetched looping fetched
      rw [create_arg0 member decoded] at copied
      rcases earlier.values 0 value copied with given | ⟨impossible, -⟩
      · exact given
      · cases impossible
  · intro mac msg queued
    rcases moves.queued_cases queued with
      held | ⟨bytes, kmalloc, rfl, rfl, protocol, address⟩
    · exact earlier.queues mac msg held
    · obtain ⟨original, good, padded⟩ := heard bytes rfl
      obtain ⟨chan, channel, found, rfl, -⟩ := queued
      obtain ⟨other, found', identity⟩ := moves.channel_before unstarted found
      have own := (holds.channels chan other found').1
      have same : channel.mac = arch.peer.mac := (congrArg Channel.mac identity).symm.trans own
      rw [same] at address
      exact (good.fromPeer padded protocol address).mono _
  · intro var value copied
    rcases moves.value_cases copied with
      held | rfl | ⟨input, instr, mac, msg, rfl, looping, fetched, decoded, rfl, queued, rfl⟩
    · exact earlier.values var value held
    · refine .inl (.inr ⟨before, shown, ?_⟩)
      exact List.mem_append_right _ (List.mem_singleton_self _)
    · obtain ⟨stale, member⟩ := holds.fetched looping fetched
      rw [receive_arg1 member decoded]
      exact .inr ⟨rfl, earlier.queues mac msg queued⟩

/-- What a partnered machine with its own card transmits is good. -/
theorem step_pairFrames (own : card.devAddr = arch.mac)
    (holds : Partnered history arch card before.ncmInterp)
    (hstep : Step long before label after) (frame : List UInt8)
    (sent : frame ∈ framesIn label.2) : PairFrame (history ++ [(arch, before, label)]) frame := by
  have moves := step_moves hstep
  obtain ⟨action, shown⟩ := label
  obtain ⟨input, instr, rfl, -, -, ⟨-, -, header, protocol⟩ |
    ⟨chan, channel, dev, slot, skb, found, up, held, rfl, -⟩⟩ :=
    moves.frame_cases holds.wellSet.mode_hard sent
  · exact ⟨header, .inl protocol⟩
  · obtain ⟨memory, value, rfl, fits, given⟩ := holds.slots slot skb held
    cases up.symm.trans (holds.channels chan channel found).2
    have carries : Carries card value (variableFrame card memory value) :=
      variableFrame_carries fits
    exact ⟨carries.header, .inr ⟨arch, card, value, own, carries, given.mono _⟩⟩

end Partners

/-! ## Every run of the pair -/

section Runs

/-- A step of one of the machines that does not start it again. -/
def PairStep (long : Arch → LongWidth) : Cluster Arch NcmSysfs (List UInt8) →
    Arch × NodeRecord → Cluster Arch NcmSysfs (List UInt8) → Prop :=
  Cluster.Step (fun arch => Recorded (Meeting (Step (long arch)) Unstarted)) NodeRecord.Hears
    NodeRecord.frames Padded

variable {long : Arch → LongWidth} {memory : Arch → TableMemory} {env : Arch → NetEnv}
  {start : Arch → NcmSysfs} {card : Arch → NetDevice} {labels : List (Arch × NodeRecord)}
  {machines : Cluster Arch NcmSysfs (List UInt8)}

theorem run_partnered (own : ∀ arch, (card arch).devAddr = arch.mac)
    (named : ∀ arch, (env arch).devGetByName devname = some (card arch))
    (loaded : ∀ arch, initModuleVm arch.type (memory arch) (env arch) = .ok (start arch))
    (run : Run (PairStep long) ⟨start, []⟩ labels machines) :
    (∀ arch, Partnered labels arch (card arch) (machines.machine arch).ncmInterp) ∧
      ∀ frame ∈ machines.sent, PairFrame labels frame := by
  refine Cluster.run_guarantee
    (fun history arch sysfs => Partnered history arch (card arch) sysfs.ncmInterp) PairFrame
    ?_ ?_ ?_ run (fun arch => .loaded (loaded arch) (named arch)) rfl
  · exact fun history label arch sysfs holds => holds.mono label
  · exact fun history label frame good => good.mono label
  · rintro history arch before ⟨_, label⟩ after heard holds ⟨rfl, hstep⟩
    exact ⟨step_partnered heard holds hstep, step_pairFrames (own arch) holds hstep.2⟩

/--
In every run of the two machines, each loaded with its built-in program and with
`eth0` for its own card, on an Ethernet that loses, delays, repeats, reorders
and fills up frames, whatever a variable of a machine holds has been written to
the variable's own file, or the variable is number 1 and the value has been
written to variable 0 of the other machine, up to the cut at the room for a
payload and the filler of a short frame; a variable without either is empty.
-/
theorem machines_share_variable (own : ∀ arch, (card arch).devAddr = arch.mac)
    (named : ∀ arch, (env arch).devGetByName devname = some (card arch))
    (loaded : ∀ arch, initModuleVm arch.type (memory arch) (env arch) = .ok (start arch))
    (run : Run (PairStep long) ⟨start, []⟩ labels machines) (arch : Arch) (var : Nat)
    (value : List UInt8)
    (copied : getVariableData (machines.machine arch).ncmInterp.variableSpace var = .ok value) :
    Given labels arch var value ∨ var = 1 ∧ FromPeer labels arch value :=
  ((run_partnered own named loaded run).1 arch).values var value copied

/-- A network card with the machine's own address. -/
def Arch.ownCard (arch : Arch) : NetDevice := ⟨2, arch.mac⟩

def Arch.ownEnv (arch : Arch) : NetEnv :=
  { NetEnv.bare with devGetByName := fun _ => some arch.ownCard }

/-- A machine is loaded and carries out some actions. -/
def Arch.carryOut (arch : Arch) (actions : List Action) :
    Exec (NcmSysfs × NcmSysfs × List (Action × List Observation)) := do
  let first ← initModuleVm arch.type blankMemory arch.ownEnv
  let (last, labels) ← Run.carryOut (fun sysfs : NcmSysfs => sysfs.next .bits32) first actions
  return (first, last, labels)

/-- The first machine sends what is written to its variable 0. -/
def sendsFirst : List Action :=
  [.storeVar 0 [7], .setScheduler true, .instruction (.atClock 1 1 1),
    .instruction (.atClock 2 2 2)]

/-- The frame of the first machine. -/
def sentFirst : List UInt8 := variableFrame Arch.arch1.ownCard (fun _ => 0) [7]

/-- The second machine gives up its sync and receives when its future is due. -/
def receivesFirst : List Action :=
  [.setScheduler true, .arrival (.frame sentFirst) fun _ => zeroMessage,
    .instruction { StepInput.atClock 1 1 1 with syncReads := [(.failed 0, 20000000)] },
    .instruction (.atClock 2 2 2), .instruction (.atClock 3 3 3), .instruction (.atClock 4 4 4),
    .instruction (.atClock 5 5 100004), .instruction (.atClock 100005 100005 100005)]

theorem Arch.carryOut_eq_ok {arch : Arch} {actions : List Action} {first last : NcmSysfs}
    {labels : List (Action × List Observation)}
    (done : arch.carryOut actions = .ok (first, last, labels))
    (none : ∀ buf env, .storeControl buf env ∉ actions) :
    initModuleVm arch.type blankMemory arch.ownEnv = .ok first ∧
      ∃ records, Run (Recorded (Meeting (Step .bits32) Unstarted)) first records last ∧
        records.map Prod.snd = labels ∧ (records.map Prod.snd).map Prod.fst = actions := by
  obtain ⟨first, loaded, done⟩ := bind_eq_ok.mp done
  obtain ⟨⟨last, labels⟩, ran, finish⟩ := bind_eq_ok.mp done
  cases finish
  have actions := Run.carryOut_actions ran
  obtain ⟨records, recorded, rfl⟩ :=
    ((Run.of_carryOut ran).meeting (unstarted_of_actions actions none)).recorded
  exact ⟨loaded, records, recorded, rfl, actions⟩

/-- What is written to variable 0 of the first machine shows in variable 1 of the second. -/
theorem machines_share_variable_seven : ∃ labels : List (Arch × NodeRecord),
    Given labels .arch2 1 [7] ∨ 1 = 1 ∧ FromPeer labels .arch2 [7] := by
  have frames : (Arch.arch1.carryOut sendsFirst).toOption.any (fun done =>
      done.2.2.flatMap (fun label => framesIn label.2) = [sentFirst]) = true := by decide +kernel
  have shows : (Arch.arch2.carryOut receivesFirst).toOption.any (fun done =>
      (getVariableData done.2.1.ncmInterp.variableSpace 1).toOption.any (· = [7])) = true := by
    decide +kernel
  obtain ⟨⟨first, sender, labels⟩, ran, transmitted⟩ := exists_ok_of_any frames
  obtain ⟨⟨second, receiver, labels'⟩, ran', received⟩ := exists_ok_of_any shows
  obtain ⟨loaded, records, recorded, rfl, actions⟩ :=
    Arch.carryOut_eq_ok ran (by simp [sendsFirst])
  obtain ⟨loaded', records', recorded', rfl, actions'⟩ :=
    Arch.carryOut_eq_ok ran' (by simp [receivesFirst])
  have transmitted : records.flatMap NodeRecord.frames = [sentFirst] := by
    rw [← of_decide_eq_true transmitted, List.flatMap_map]
    rfl
  obtain ⟨value, copied, same⟩ := exists_ok_of_any received
  obtain rfl := of_decide_eq_true same
  let start : Arch → NcmSysfs := fun arch => match arch with
    | .arch1 => first
    | .arch2 => second
  have starts : ∀ arch, initModuleVm arch.type blankMemory arch.ownEnv = .ok (start arch) := by
    intro arch
    cases arch
    · exact loaded
    · exact loaded'
  have only : ∀ record ∈ records', ∀ bytes, NodeRecord.Hears record bytes →
      bytes = sentFirst := by
    refine heard_of_actions actions' ?_
    simp [receivesFirst, Action.Hears, StepInput.atClock]
  have heard (record : NodeRecord) (member : record ∈ records') (bytes : List UInt8)
      (read : record.Hears bytes) :
      ∃ original ∈ records.flatMap NodeRecord.frames, Padded original bytes := by
    obtain rfl := only record member bytes read
    refine ⟨sentFirst, ?_, [], (List.append_nil _).symm, .inl rfl⟩
    exact transmitted ▸ List.mem_singleton_self sentFirst
  have pair : ∃ machines, Run (PairStep fun _ => .bits32) ⟨start, []⟩
      (records.map (Arch.arch1, ·) ++ records'.map (Arch.arch2, ·)) machines ∧
      machines.machine .arch2 = receiver ∧
      ∀ frame ∈ records.flatMap NodeRecord.frames, frame ∈ machines.sent := by
    refine Cluster.run_pair (fun _ => Recorded (Meeting (Step .bits32) Unstarted)) Arch.arch1
      Arch.arch2 (by decide) ⟨start, []⟩ recorded ?_ recorded' heard
    exact heard_of_actions actions (by simp [sendsFirst, Action.Hears, StepInput.atClock])
  obtain ⟨machines, run, rfl, -⟩ := pair
  have own : ∀ arch : Arch, arch.ownCard.devAddr = arch.mac := fun _ => rfl
  have named : ∀ arch : Arch, arch.ownEnv.devGetByName devname = some arch.ownCard := fun _ => rfl
  exact ⟨_, machines_share_variable own named starts run .arch2 1 [7] copied⟩

end Runs

end NetworkCode.Kernel
