import NetworkCode.Kernel.SendStatus
import NetworkCode.Kernel.SyncWait

/-!
# Channels without an interface

The transmit paths decide by the `dev` field of a channel whether there is an
interface.  `init_network` writes the field only where the device name
resolves; elsewhere it stays as the memory of the channel table held it.
-/

namespace NetworkCode.Kernel

open Library Library.Checked

/-- The device that the name of a channel resolves to. -/
def deviceNamed (params : NetParams) (env : NetEnv) (chan : Nat) : Option NetDevice :=
  match readBlock params.netDeviceName (ifnamsiz * chan) ifnamsiz with
  | .error _ => none
  | .ok name => env.devGetByName name.toList

/-- The `dev` field of a channel after set-up. -/
def devSetUp (params : NetParams) (env : NetEnv) (chan : Nat) : DevPtr :=
  match deviceNamed params env chan with
  | none => env.staleDev chan
  | some dev => .device dev

/-! ## What set-up leaves -/

section SetUp

variable {params : NetParams} {env : NetEnv} {table : List Channel} {channel : Channel}
  {acquired : List Resource} {before network after : Network} {chan count : Nat}

theorem initChannel_dev (built : initChannel params env chan = .ok (channel, acquired)) :
    channel.dev = devSetUp params env chan := by
  obtain ⟨mac, _, built⟩ := bind_eq_ok.mp built
  obtain ⟨name, read, built⟩ := bind_eq_ok.mp built
  have named : deviceNamed params env chan = env.devGetByName name.toList := by
    rw [deviceNamed, read]
  rw [devSetUp, named]
  cases found : env.devGetByName name.toList with
  | none =>
      rw [found] at built
      cases built
      rfl
  | some dev =>
      rw [found] at built
      cases built
      rfl

theorem initChannels_dev (done : initChannels params env count = .ok (table, acquired))
    (below : chan < count) :
    ∃ channel, table[chan]? = some channel ∧ channel.dev = devSetUp params env chan := by
  induction count generalizing table acquired with
  | zero => exact absurd below (Nat.not_lt_zero chan)
  | succ count ih =>
      obtain ⟨⟨table', acquired'⟩, first, done⟩ := bind_eq_ok.mp done
      obtain ⟨⟨channel, more⟩, built, finish⟩ := bind_eq_ok.mp done
      cases finish
      have length := initChannels_length first
      rcases Nat.lt_or_eq_of_le (Nat.le_of_lt_succ below) with earlier | rfl
      · obtain ⟨other, found, dev⟩ := ih first earlier
        refine ⟨other, ?_, dev⟩
        rw [List.getElem?_append_left (length ▸ earlier), found]
      · refine ⟨channel, ?_, initChannel_dev built⟩
        rw [List.getElem?_append_right (Nat.le_of_eq length), length, Nat.sub_self]
        rfl

theorem initNetwork_dev (done : initNetwork before params env = .ok (network, acquired))
    (below : chan < params.channels.toNat) :
    ∃ channel, network.channel chan = .ok channel ∧ channel.dev = devSetUp params env chan := by
  obtain ⟨⟨table, acquired'⟩, built, finish⟩ := bind_eq_ok.mp done
  cases finish
  obtain ⟨channel, found, dev⟩ := initChannels_dev built below
  refine ⟨channel, ?_, dev⟩
  dsimp only [Network.channel, ncmSetModeHard]
  rw [found]

/-- A channel keeps its device as long as the set-up stays. -/
theorem Network.SameSetup.channel_dev (same : before.SameSetup after)
    (found : before.channel chan = .ok channel) :
    ∃ channel', after.channel chan = .ok channel' ∧ channel'.dev = channel.dev := by
  have tables := same.table
  unfold Network.channel at found ⊢
  cases first : before.table with
  | none =>
      rw [first] at found
      cases found
  | some table =>
      cases second : after.table with
      | none =>
          rw [first, second] at tables
          cases tables
      | some table' =>
          rw [first] at found
          rw [first, second] at tables
          have entries : (table'[chan]?).map Channel.identity =
              (table[chan]?).map Channel.identity := by
            rw [← List.getElem?_map, ← List.getElem?_map, Option.some.inj tables]
          dsimp only at found ⊢
          cases entry : table[chan]? with
          | none =>
              rw [entry] at found
              cases found
          | some channel' =>
              rw [entry] at found entries
              cases found
              obtain ⟨channel', entry', identity⟩ := Option.map_eq_some_iff.mp entries
              rw [entry']
              refine ⟨channel', rfl, ?_⟩
              calc channel'.dev = channel'.identity.dev := rfl
                _ = channel.identity.dev := by rw [identity]
                _ = channel.dev := rfl

end SetUp

/-! ## What the transmit paths do -/

section Transmit

variable {interpreter : Interpreter} {instr : Instr} {input : StepInput} {channel : Channel}
  {network : Network} {chan : Nat} {memory : Nat → UInt8} {status : Int} {dev : NetDevice}

theorem ncmSendMessage_noDevice (hard : network.mode = .hard)
    (found : network.channel chan = .ok channel) (down : channel.dev = .null) (msgId : Nat) :
    ncmSendMessage network chan msgId status = .ok (-9001, network, []) := by
  rw [ncmSendMessage_of_hard hard, ncmSendMessageHard, found, ok_bind, down]
  rfl

theorem ncmSendSync_of_hard (hard : network.mode = .hard) :
    ncmSendSync network chan memory status = ncmSendSyncHard network chan memory status := by
  rw [ncmSendSync, hard]

theorem ncmSendSync_noDevice (hard : network.mode = .hard)
    (found : network.channel chan = .ok channel) (down : channel.dev = .null) :
    ncmSendSync network chan memory status = .ok (-9001, []) := by
  rw [ncmSendSync_of_hard hard, ncmSendSyncHard, found, ok_bind, down]
  rfl

theorem ncmSendSync_device (hard : network.mode = .hard)
    (found : network.channel chan = .ok channel) (up : channel.dev = .device dev) :
    ncmSendSync network chan memory status =
      .ok (status, [.xmit dev (hardFrame broadcastMac dev (syncSkb memory)) status]) := by
  rw [ncmSendSync_of_hard hard, ncmSendSyncHard, found, ok_bind, up]
  rfl

theorem ncmSendSync_wild (hard : network.mode = .hard)
    (found : network.channel chan = .ok channel) (wild : channel.dev = .wild) :
    ncmSendSync network chan memory status = .error .wildDevice := by
  rw [ncmSendSync_of_hard hard, ncmSendSyncHard, found, ok_bind, wild]
  rfl

theorem handleSync_sent (master : instr.arg0 = syncMaster) {ret : Int} {events : List NetEvent}
    (sent : ncmSendSync interpreter.network instr.arg1.toNat input.skbMemory input.txStatus =
      .ok (ret, events)) :
    handleSync interpreter instr input = .ok ⟨.ok, interpreter, events.map .network⟩ := by
  unfold handleSync
  rw [if_pos master, sent]
  rfl

theorem handleSync_wild (hard : interpreter.network.mode = .hard)
    (master : instr.arg0 = syncMaster)
    (found : interpreter.network.channel instr.arg1.toNat = .ok channel)
    (wild : channel.dev = .wild) :
    handleSync interpreter instr input = .error .wildDevice := by
  unfold handleSync
  rw [if_pos master, ncmSendSync_wild hard found wild]
  rfl

theorem handleSend_noDevice (hard : interpreter.network.mode = .hard)
    (found : interpreter.network.channel instr.arg0.toNat = .ok channel)
    (down : channel.dev = .null) :
    handleSend interpreter instr input = .ok ⟨.error, interpreter, []⟩ := by
  rw [handleSend, ncmSendMessage_noDevice hard found down]
  rfl

end Transmit

/-! ## Transmitting only where a name resolves -/

/-- The instruction hands a frame to the driver of the device. -/
def Executed.HandsTo (executed : Executed) (dev : NetDevice) : Prop :=
  ∃ frame status, .network (.xmit dev frame status) ∈ executed.events

theorem handsTo_singleton {executed : Executed} {dev other : NetDevice} {frame : List UInt8}
    {status : Int} (events : executed.events = [.network (.xmit dev frame status)]) :
    executed.HandsTo other ↔ some dev = some other := by
  unfold Executed.HandsTo
  rw [events]
  constructor
  · rintro ⟨sent, answer, member⟩
    cases List.mem_singleton.mp member
    rfl
  · intro same
    cases same
    exact ⟨frame, status, List.mem_singleton_self _⟩

theorem not_handsTo {executed : Executed} {dev : NetDevice} (events : executed.events = []) :
    ¬ executed.HandsTo dev := by
  rintro ⟨frame, status, member⟩
  rw [events] at member
  cases member

/-- A SEND of a message or a master SYNC on the channel hands a frame to the named device and
to no other; where no device is named a SEND fails and transmits nothing. -/
structure TransmitsTo (named : Option NetDevice) (interpreter : Interpreter) (chan : Nat) :
    Prop where
  send : ∀ (instr : Instr) (input : StepInput) (slot : Fin maxMessages) (skb : SkBuff),
    instr.arg0.toNat = chan → instr.arg1.toNat = slot.val →
      interpreter.network.slot slot = some skb →
        ∃ executed, handleSend interpreter instr input = .ok executed ∧
          ∀ dev, executed.HandsTo dev ↔ named = some dev
  sync : ∀ (instr : Instr) (input : StepInput), instr.arg0 = syncMaster →
    instr.arg1.toNat = chan → ∃ executed, handleSync interpreter instr input = .ok executed ∧
      ∀ dev, executed.HandsTo dev ↔ named = some dev
  refuses : named = none → ∀ (instr : Instr) (input : StepInput) (slot : Fin maxMessages),
    instr.arg0.toNat = chan → instr.arg1.toNat = slot.val →
      ∃ executed, handleSend interpreter instr input = .ok executed ∧
        executed.result = .error ∧ executed.events = []

section Channel

variable {interpreter : Interpreter} {channel : Channel} {chan : Nat} {dev : NetDevice}
  (hard : interpreter.network.mode = .hard) (found : interpreter.network.channel chan = .ok channel)

include hard found

theorem transmitsTo_device (up : channel.dev = .device dev) :
    TransmitsTo (some dev) interpreter chan where
  send := by
    rintro instr input slot skb rfl takes filled
    exact ⟨_, handleSend_filled found up takes hard filled, fun other => handsTo_singleton rfl⟩
  sync := by
    rintro instr input master rfl
    exact ⟨_, handleSync_sent master (ncmSendSync_device hard found up),
      fun other => handsTo_singleton rfl⟩
  refuses := nofun

theorem transmitsTo_noDevice (down : channel.dev = .null) : TransmitsTo none interpreter chan where
  send := by
    rintro instr input slot skb rfl takes filled
    exact ⟨_, handleSend_noDevice hard found down,
      fun other => ⟨fun sent => (not_handsTo rfl sent).elim, nofun⟩⟩
  sync := by
    rintro instr input master rfl
    exact ⟨_, handleSync_sent master (ncmSendSync_noDevice hard found down),
      fun other => ⟨fun sent => (not_handsTo rfl sent).elim, nofun⟩⟩
  refuses := by
    rintro - instr input slot rfl takes
    exact ⟨_, handleSend_noDevice hard found down, rfl, rfl⟩

/-- The master SYNC on a channel. -/
theorem null_of_transmitsTo_none (bound : chan < 2 ^ 32)
    (transmits : TransmitsTo none interpreter chan) : channel.dev = .null := by
  have names : (Instr.make .sync syncMaster (UInt32.ofNat chan) 0 0).arg1.toNat = chan :=
    Nat.mod_eq_of_lt bound
  have master : (Instr.make .sync syncMaster (UInt32.ofNat chan) 0 0).arg0 = syncMaster := rfl
  obtain ⟨executed, ran, only⟩ := transmits.sync _ (.atClock 0 0 0) master names
  have found' : interpreter.network.channel
      (Instr.make .sync syncMaster (UInt32.ofNat chan) 0 0).arg1.toNat = .ok channel := by
    rw [names]
    exact found
  cases up : channel.dev with
  | null => rfl
  | device dev =>
      cases (handleSync_sent master (ncmSendSync_device hard found' up)).symm.trans ran
      cases (only dev).mp ⟨_, _, List.mem_singleton_self _⟩
  | wild => cases (handleSync_wild hard master found' up).symm.trans ran

end Channel

/--
Until its teardown a network transmits on a channel as the name says if and
only if the name resolves or the new channel table happens to hold a null
pointer as the channel's device.
-/
theorem transmitsTo_named_iff {before network : Network} {params : NetParams} {env : NetEnv}
    {acquired : List Resource} {interpreter : Interpreter} {chan : Nat}
    (done : initNetwork before params env = .ok (network, acquired))
    (same : network.SameSetup interpreter.network) (below : chan < params.channels.toNat) :
    TransmitsTo (deviceNamed params env chan) interpreter chan ↔
      (deviceNamed params env chan = none → env.staleDev chan = .null) := by
  obtain ⟨channel₀, found₀, dev₀⟩ := initNetwork_dev done below
  obtain ⟨channel, found, dev⟩ := same.channel_dev found₀
  have hard : interpreter.network.mode = .hard := by
    obtain ⟨_, _, rfl⟩ := initNetwork_eq_ok done
    exact same.mode
  have setUp : channel.dev = devSetUp params env chan := dev.trans dev₀
  unfold devSetUp at setUp
  cases named : deviceNamed params env chan with
  | some device =>
      rw [named] at setUp
      exact ⟨fun _ => nofun, fun _ => transmitsTo_device hard found setUp⟩
  | none =>
      rw [named] at setUp
      have bound : chan < 2 ^ 32 := Nat.lt_trans below params.channels.toNat_lt
      constructor
      · intro transmits _
        exact setUp.symm.trans (null_of_transmitsTo_none hard found bound transmits)
      · intro clean
        exact transmitsTo_noDevice hard found (setUp.trans (clean rfl))

/-- The parameters of one channel with an empty name. -/
def emptyNameParams : NetParams :=
  ⟨1, some (List.replicate ifnamsiz 0), some networkCard.devAddr.toList⟩

/-- A machine without network devices that reuses the memory of an earlier channel table. -/
def NetEnv.reused : NetEnv := { NetEnv.bare with staleDev := fun _ => .device networkCard }

/-- Cleared memory for the table of a channel whose name does not resolve. -/
theorem transmitsTo_named_iff_cleared : ∃ network acquired,
    initNetwork zeroNetwork emptyNameParams .bare = .ok (network, acquired) ∧
      (TransmitsTo (deviceNamed emptyNameParams .bare 0) { zeroInterpreter with network := network }
          0 ↔
        (deviceNamed emptyNameParams .bare 0 = none → NetEnv.bare.staleDev 0 = .null)) := by
  have done : ∃ network acquired,
      initNetwork zeroNetwork emptyNameParams .bare = .ok (network, acquired) := ⟨_, _, rfl⟩
  obtain ⟨network, acquired, done⟩ := done
  exact ⟨network, acquired, done, transmitsTo_named_iff done (.refl _) (by decide)⟩

/-- A channel whose name does not resolve transmits on the card that the memory refers to. -/
theorem reusedTable_transmits :
    ¬ ∀ (before network : Network) (params : NetParams) (env : NetEnv) (acquired : List Resource)
      (interpreter : Interpreter) (chan : Nat),
      initNetwork before params env = .ok (network, acquired) →
        network.SameSetup interpreter.network → chan < params.channels.toNat →
          TransmitsTo (deviceNamed params env chan) interpreter chan := by
  intro claim
  have done : ∃ network acquired channel,
      initNetwork zeroNetwork emptyNameParams .reused = .ok (network, acquired) ∧
        network.mode = .hard ∧ network.channel 0 = .ok channel ∧
        channel.dev = .device networkCard := ⟨_, _, _, rfl, rfl, rfl, rfl⟩
  obtain ⟨network, acquired, channel, done, hard, found, up⟩ := done
  have transmits := claim _ _ _ _ _ { zeroInterpreter with network := network } 0 done (.refl _)
    (by decide)
  have missing : deviceNamed emptyNameParams .reused 0 = none := rfl
  rw [missing] at transmits
  cases up.symm.trans (null_of_transmitsTo_none hard found (by decide) transmits)

end NetworkCode.Kernel
