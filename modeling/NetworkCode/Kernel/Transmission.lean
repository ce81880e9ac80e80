import NetworkCode.Kernel.Network

/-!
# What a transmission does

The spec lemmas of the two transmit paths: which entries a SEND needs, what it
hands over, and what it leaves in the message slot.
-/

namespace NetworkCode.Kernel

open Library Library.Checked

/-- The frame that `nc_sendmsg_hard` hands to the driver. -/
def hardFrame (destMac : Mac) (dev : NetDevice) (skb : SkBuff) : List UInt8 :=
  (Bytes.overwrite (Bytes.overwrite skb.head 0 destMac.toList) ethAlen
    dev.devAddr.toList).take skb.len

section Sending

variable {network after : Network} {chan msgId : Nat} {status ret : Int} {events : List NetEvent}

/-- Emptying a slot of the message space. -/
def Network.clearSlot (network : Network) (msgId : Nat) (bound : msgId < maxMessages) : Network :=
  { network with messageSpace := network.messageSpace.set msgId none }

/-- The three ways in which a hard SEND returns. -/
inductive HardSend (network : Network) (chan msgId : Nat) (status : Int) :
    Int → Network → List NetEvent → Prop where
  | noDevice {channel : Channel} (found : network.channel chan = .ok channel)
      (dev : channel.dev = .null) : HardSend network chan msgId status (-9001) network []
  | emptySlot {channel : Channel} (found : network.channel chan = .ok channel)
      (bound : msgId < maxMessages) (slot : network.messageSpace[msgId] = none) :
      HardSend network chan msgId status (-ncEnoif) network []
  | handsOver {channel : Channel} {dev : NetDevice} {skb : SkBuff}
      (found : network.channel chan = .ok channel) (up : channel.dev = .device dev)
      (bound : msgId < maxMessages) (slot : network.messageSpace[msgId] = some skb) :
      HardSend network chan msgId status status (network.clearSlot msgId bound)
        [.xmit dev (hardFrame broadcastMac dev skb) status]

theorem clearSlot_of_empty (bound : msgId < maxMessages)
    (slot : network.messageSpace[msgId] = none) : network.clearSlot msgId bound = network := by
  rw [Network.clearSlot, ← slot, Vector.set_getElem_self]

theorem ncmSendMessageHard_cases
    (sent : ncmSendMessageHard network chan msgId status = .ok (ret, after, events)) :
    HardSend network chan msgId status ret after events := by
  obtain ⟨channel, found, sent⟩ := bind_eq_ok.mp sent
  obtain hdev | hdev : channel.dev = .null ∨ channel.dev ≠ .null := em _
  · rw [hdev] at sent
    cases sent
    exact .noDevice found hdev
  · have loaded : ∃ slot ret' slot' events' slots,
        load (Fault.outOfBounds .messages) network.messageSpace msgId = .ok slot ∧
        ncSendmsgHard broadcastMac channel.dev slot status = .ok (ret', slot', events') ∧
        store (Fault.outOfBounds .messages) network.messageSpace msgId slot' = .ok slots ∧
        (ret, after, events) = (ret', { network with messageSpace := slots }, events') := by
      split at sent
      · next absent => exact (hdev absent).elim
      · obtain ⟨slot, hslot, sent⟩ := bind_eq_ok.mp sent
        obtain ⟨⟨ret', slot', events'⟩, hsend, sent⟩ := bind_eq_ok.mp sent
        obtain ⟨slots, hstore, finish⟩ := bind_eq_ok.mp sent
        cases finish
        exact ⟨slot, _, slot', _, slots, hslot, hsend, hstore, rfl⟩
    obtain ⟨slot, ret', slot', events', slots, hslot, hsend, hstore, same⟩ := loaded
    obtain ⟨bound, hslot⟩ := load_eq_ok.mp hslot
    obtain ⟨_, hstore⟩ := store_eq_ok.mp hstore
    subst hstore
    cases slot with
    | none =>
        cases hsend
        cases same
        have unchanged := clearSlot_of_empty bound hslot
        unfold Network.clearSlot at unchanged
        rw [unchanged]
        exact .emptySlot found bound hslot
    | some skb =>
        cases up : channel.dev with
        | null => exact (hdev up).elim
        | wild =>
            rw [up] at hsend
            cases hsend
        | device dev =>
            rw [up] at hsend
            cases hsend
            cases same
            exact .handsOver found up bound hslot

/-- The two ways in which a soft SEND returns. -/
inductive SoftSend (network : Network) (chan msgId : Nat) : Int → List NetEvent → Prop where
  | emptySlot (bound : msgId < maxMessages) (slot : network.messageSpace[msgId] = none) :
      SoftSend network chan msgId (-ncEnoif) []
  | copies {channel : Channel} {skb : SkBuff} (found : network.channel chan = .ok channel)
      (bound : msgId < maxMessages) (slot : network.messageSpace[msgId] = some skb) :
      SoftSend network chan msgId
        (ncSendmsg network.mac broadcastMac channel.ifindex skb.head skb.len ethPNc).1
        (ncSendmsg network.mac broadcastMac channel.ifindex skb.head skb.len ethPNc).2

theorem ncmSendMessageSoft_cases
    (sent : ncmSendMessageSoft network chan msgId = .ok (ret, after, events)) :
    after = network ∧ SoftSend network chan msgId ret events := by
  obtain ⟨slot, hslot, sent⟩ := bind_eq_ok.mp sent
  obtain ⟨bound, hslot⟩ := load_eq_ok.mp hslot
  cases slot with
  | none =>
      cases sent
      exact ⟨rfl, .emptySlot bound hslot⟩
  | some skb =>
      obtain ⟨channel, found, finish⟩ := bind_eq_ok.mp sent
      cases finish
      exact ⟨rfl, .copies found bound hslot⟩

/-! ### Slots -/

/-- The buffer that a slot of the message space refers to. -/
def Network.slot (network : Network) (slot : Fin maxMessages) : Option SkBuff :=
  network.messageSpace.get slot

/-- Let a slot of the message space refer to another buffer, or to none. -/
def Network.setSlot (network : Network) (slot : Fin maxMessages) (buffer : Option SkBuff) :
    Network :=
  { network with messageSpace := network.messageSpace.set slot.val buffer slot.isLt }

section Slots

variable {slot other : Fin maxMessages} {buffer : Option SkBuff}

@[simp] theorem slot_setSlot_self : (network.setSlot slot buffer).slot slot = buffer :=
  Vector.getElem_set_self slot.isLt

theorem slot_setSlot_of_ne (distinct : other ≠ slot) :
    (network.setSlot slot buffer).slot other = network.slot other :=
  Vector.getElem_set_ne slot.isLt other.isLt fun same => distinct (Fin.ext same.symm)

theorem setSlot_slot : network.setSlot slot (network.slot slot) = network := by
  have same : network.messageSpace.set slot.val (network.slot slot) slot.isLt =
      network.messageSpace := Vector.set_getElem_self slot.isLt
  rw [Network.setSlot, same]

theorem load_slot : load (Fault.outOfBounds .messages) network.messageSpace slot.val =
    .ok (network.slot slot) :=
  load_of_lt slot.isLt

theorem ncmSendMessage_of_hard (hard : network.mode = .hard) (msgId : Nat) :
    ncmSendMessage network chan msgId status = ncmSendMessageHard network chan msgId status := by
  rw [ncmSendMessage, hard]

theorem ncmSendMessage_of_soft (soft : network.mode = .soft) (msgId : Nat) :
    ncmSendMessage network chan msgId status = ncmSendMessageSoft network chan msgId := by
  rw [ncmSendMessage, soft]

/-- A SEND from an empty slot is refused in both modes. -/
theorem ncmSendMessage_empty {channel : Channel} {dev : NetDevice}
    (found : network.channel chan = .ok channel) (up : channel.dev = .device dev)
    (empty : network.slot slot = none) :
    ncmSendMessage network chan slot.val status = .ok (-ncEnoif, network, []) := by
  cases mode : network.mode with
  | hard =>
      have unchanged : store (Fault.outOfBounds .messages) network.messageSpace slot.val none =
          .ok (network.setSlot slot none).messageSpace := store_of_lt slot.isLt
      have same : network.setSlot slot none = network := by
        rw [← empty]
        exact setSlot_slot
      rw [ncmSendMessage_of_hard mode, ncmSendMessageHard, found, ok_bind, up]
      dsimp only
      rw [load_slot, empty, ok_bind]
      unfold ncSendmsgHard
      dsimp only
      rw [pure_eq_ok, ok_bind]
      dsimp only
      rw [unchanged, same]
      rfl
  | soft =>
      rw [ncmSendMessage_of_soft mode, ncmSendMessageSoft, load_slot, empty]
      rfl

/-- A hard SEND hands the buffer of its slot to the driver and clears the slot. -/
theorem ncmSendMessage_hard {channel : Channel} {dev : NetDevice} {skb : SkBuff}
    (hard : network.mode = .hard) (found : network.channel chan = .ok channel)
    (up : channel.dev = .device dev) (filled : network.slot slot = some skb) :
    ncmSendMessage network chan slot.val status =
      .ok (status, network.setSlot slot none,
        [.xmit dev (hardFrame broadcastMac dev skb) status]) := by
  have cleared : store (Fault.outOfBounds .messages) network.messageSpace slot.val none =
      .ok (network.setSlot slot none).messageSpace := store_of_lt slot.isLt
  rw [ncmSendMessage_of_hard hard, ncmSendMessageHard, found, ok_bind, up]
  dsimp only
  rw [load_slot, filled, ok_bind]
  unfold ncSendmsgHard
  dsimp only
  rw [pure_eq_ok, ok_bind]
  dsimp only
  rw [cleared]
  rfl

/-- A soft SEND copies the buffer of its slot to the socket and leaves the slot. -/
theorem ncmSendMessage_soft {channel : Channel} {skb : SkBuff} (soft : network.mode = .soft)
    (found : network.channel chan = .ok channel) (filled : network.slot slot = some skb) :
    ncmSendMessage network chan slot.val status =
      .ok ((ncSendmsg network.mac broadcastMac channel.ifindex skb.head skb.len ethPNc).1, network,
        (ncSendmsg network.mac broadcastMac channel.ifindex skb.head skb.len ethPNc).2) := by
  rw [ncmSendMessage_of_soft soft, ncmSendMessageSoft, load_slot, filled, ok_bind]
  dsimp only
  rw [found]
  rfl

end Slots

theorem ncSendmsg_nonneg {srcMac destMac : Mac} {ifindex : UInt32} {data : List UInt8}
    {length : Nat} {protocol : UInt16}
    (nonneg : 0 ≤ (ncSendmsg srcMac destMac ifindex data length protocol).1) :
    length ≤ ethDataLen ∧ ¬ ifindex.toInt32 ≤ 0 := by
  revert nonneg
  fun_cases ncSendmsg srcMac destMac ifindex data length protocol with
  | case1 => exact fun nonneg => absurd nonneg (by decide)
  | case2 => exact fun nonneg => absurd nonneg (by decide)
  | case3 fits up => exact fun _ => ⟨Nat.le_of_not_gt fits, up⟩

/-- The transmission that a SEND asks for is carried out with success. -/
def SendAccepted (network : Network) (chan msgId : Nat) (status : Int) : Prop :=
  ∃ channel skb, network.channel chan = .ok channel ∧
    network.messageSpace[msgId]? = some (some skb) ∧
    match network.mode with
    | .hard => (∃ dev, channel.dev = .device dev) ∧ 0 ≤ status
    | .soft => skb.len ≤ ethDataLen ∧ ¬ channel.ifindex.toInt32 ≤ 0

theorem sendAccepted_of_nonneg
    (sent : ncmSendMessage network chan msgId status = .ok (ret, after, events))
    (nonneg : 0 ≤ ret) : SendAccepted network chan msgId status := by
  unfold ncmSendMessage at sent
  unfold SendAccepted
  cases hmode : network.mode with
  | hard =>
      rw [hmode] at sent
      cases ncmSendMessageHard_cases sent with
      | noDevice => cases nonneg
      | emptySlot => cases nonneg
      | handsOver found up bound slot =>
          exact ⟨_, _, found, by rw [Vector.getElem?_eq_getElem bound, slot], ⟨_, up⟩, nonneg⟩
  | soft =>
      rw [hmode] at sent
      cases (ncmSendMessageSoft_cases sent).2 with
      | emptySlot => cases nonneg
      | copies found bound slot =>
          exact ⟨_, _, found, by rw [Vector.getElem?_eq_getElem bound, slot],
            ncSendmsg_nonneg nonneg⟩

/-- A SEND succeeds exactly if it is accepted. -/
theorem sendAccepted_iff
    (sent : ncmSendMessage network chan msgId status = .ok (ret, after, events)) :
    0 ≤ ret ↔ SendAccepted network chan msgId status := by
  refine ⟨sendAccepted_of_nonneg sent, ?_⟩
  rintro ⟨channel, skb, found, held, accepted⟩
  obtain ⟨bound, filled⟩ := Vector.getElem?_eq_some_iff.mp held
  have slot : network.slot ⟨msgId, bound⟩ = some skb := filled
  cases mode : network.mode with
  | hard =>
      rw [mode] at accepted
      obtain ⟨⟨dev, up⟩, nonneg⟩ := accepted
      cases (ncmSendMessage_hard mode found up slot).symm.trans sent
      exact nonneg
  | soft =>
      rw [mode] at accepted
      cases (ncmSendMessage_soft mode found slot).symm.trans sent
      have copied : (ncSendmsg network.mac broadcastMac channel.ifindex skb.head skb.len ethPNc).1 =
          0 := by
        rw [ncSendmsg, if_neg (Nat.not_lt.mpr accepted.1), if_neg accepted.2]
      exact Int.le_of_eq copied.symm

end Sending

end NetworkCode.Kernel
