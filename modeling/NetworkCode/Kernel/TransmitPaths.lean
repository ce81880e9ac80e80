import NetworkCode.Kernel.VariableTransport
import NetworkCode.Library.Lockstep

/-!
# The two transmit paths

The hard path hands a message to the driver, the soft path copies it to a raw
socket.  A sequence of CREATE and SEND instructions is run on both, from one
network, and what each instruction shows is compared.
-/

namespace NetworkCode.Kernel

open Library Library.Checked

/-! ## Sequences of CREATE and SEND -/

/-- A CREATE, with the variables as it finds them, or a SEND. -/
inductive TransmitInstr where
  | create (varspace : Varspace) (var : Fin maxVariables) (slot : Fin maxMessages)
      (memory : Nat → UInt8)
  | send (slot : Fin maxMessages)

/-- The bytes on the wire. -/
def NetEvent.frame : NetEvent → List UInt8
  | .xmit _ frame _ => frame
  | .sendmsg _ packet => packet

/-- What is compared after an instruction. -/
structure Transmitted where
  result : InstrResult
  frames : List (List UInt8)
  emptySlots : Vector Bool maxMessages

/-- The slots whose `skb` is a null pointer. -/
def Network.emptySlots (network : Network) : Vector Bool maxMessages :=
  network.messageSpace.map Option.isNone

/-- One instruction on a channel whose driver and socket accept every frame. -/
def transmit (long : LongWidth) (chan : Nat) (network : Network) :
    TransmitInstr → Exec (Network × Transmitted)
  | .create varspace var slot memory => do
      let network ← ncmCreateMessageFromVar long network varspace var.val slot.val memory
      return (network, ⟨.ok, [], network.emptySlots⟩)
  | .send slot => do
      let (ret, network, events) ← ncmSendMessage network chan slot.val 0
      return (network, ⟨if ret ≥ 0 then .ok else .error, events.map NetEvent.frame,
        network.emptySlots⟩)

/-- With either mode set all instructions have a meaning, and they show the
same, one by one. -/
def PathsAgree (long : LongWidth) (chan : Nat) (network : Network)
    (instrs : List TransmitInstr) : Prop :=
  ShowSame (transmit long chan) (ncmSetModeHard network)
    (transmit long chan) (ncmSetModeSoft network) instrs

/-- The CREATE instructions, if any, pass a `u32` for a `size_t` that fits it. -/
def CreatesDefined (long : LongWidth) (instrs : List TransmitInstr) : Prop :=
  ∀ varspace var slot memory, .create varspace var slot memory ∈ instrs → long = .bits32

/-- The slot is filled before the instructions or by one of them. -/
inductive FilledBy (network : Network) (slot : Fin maxMessages) : List TransmitInstr → Prop where
  | initially {instrs : List TransmitInstr} {skb : SkBuff} (filled : network.slot slot = some skb) :
      FilledBy network slot instrs
  | created {instrs : List TransmitInstr} {varspace : Varspace} {var : Fin maxVariables}
      {memory : Nat → UInt8} (member : .create varspace var slot memory ∈ instrs) :
      FilledBy network slot instrs

/-- No SEND comes after its slot has been filled. -/
def SendsFindEmpty (network : Network) (instrs : List TransmitInstr) : Prop :=
  ∀ before slot after, instrs = before ++ .send slot :: after → ¬ FilledBy network slot before

/-! ## The handlers -/

section Handlers

variable {long : LongWidth} {interpreter : Interpreter} {instr : Instr} {input : StepInput}
  {slot : Fin maxMessages} {after : Network} {shown : Transmitted}

/-- The handler of CREATE leaves what the sequence shows. -/
theorem handleCreate_transmit {chan : Nat} {var : Fin maxVariables}
    (reads : instr.arg0.toNat = var.val) (fills : instr.arg1.toNat = slot.val)
    (done : transmit long chan interpreter.network
      (.create interpreter.variableSpace var slot input.skbMemory) = .ok (after, shown)) :
    handleCreate interpreter instr input long =
      .ok ⟨shown.result, { interpreter with network := after }, []⟩ := by
  obtain ⟨network, made, finish⟩ := bind_eq_ok.mp done
  cases finish
  rw [handleCreate, reads, fills, made]
  rfl

/-- The handler of SEND leaves what the sequence shows. -/
theorem handleSend_transmit (accepts : input.txStatus = 0) (takes : instr.arg1.toNat = slot.val)
    (done : transmit long instr.arg0.toNat interpreter.network (.send slot) = .ok (after, shown)) :
    ∃ events : List NetEvent, handleSend interpreter instr input =
        .ok ⟨shown.result, { interpreter with network := after }, events.map .network⟩ ∧
      shown.frames = events.map NetEvent.frame := by
  obtain ⟨⟨ret, network, events⟩, sent, finish⟩ := bind_eq_ok.mp done
  cases finish
  rw [handleSend, accepts, takes, sent]
  exact ⟨events, rfl, rfl⟩

end Handlers

/-! ## One instruction on both paths -/

section Paths

variable {long : LongWidth} {chan : Nat} {network : Network} {channel : Channel}
  {dev : NetDevice} {varspace : Varspace} {var : Fin maxVariables} {slot : Fin maxMessages}
  {memory : Nat → UInt8} {rest : List TransmitInstr}

/-- CREATE on existing entries fills its slot, or has no meaning. -/
theorem ncmCreateMessageFromVar_iff {after : Network} :
    ncmCreateMessageFromVar long network varspace var.val slot.val memory = .ok after ↔
      long = .bits32 ∧
        network.setSlot slot (some (createdBuffer memory (varspace.get var).value)) = after := by
  rw [ncmCreateMessageFromVar, load_slot, ok_bind, getVariableData_of_lt var.isLt, ok_bind]
  constructor
  · intro made
    obtain ⟨_, sized, made⟩ := bind_eq_ok.mp made
    obtain ⟨narrow, rfl⟩ := storeSize_eq_ok.mp sized
    dsimp only at made
    rw [store_of_lt slot.isLt] at made
    exact ⟨narrow, Except.ok.inj made⟩
  · rintro ⟨narrow, rfl⟩
    rw [storeSize_eq_ok.mpr ⟨narrow, rfl⟩, ok_bind]
    dsimp only
    rw [store_of_lt slot.isLt]
    rfl

theorem emptySlots_get (network : Network) (slot : Fin maxMessages) :
    network.emptySlots.get slot = (network.slot slot).isNone :=
  Vector.getElem_map Option.isNone slot.isLt

theorem transmit_send {after : Network} {ret : Int} {events : List NetEvent}
    (sent : ncmSendMessage network chan slot.val 0 = .ok (ret, after, events)) :
    transmit long chan network (.send slot) =
      .ok (after, ⟨if ret ≥ 0 then .ok else .error, events.map NetEvent.frame,
        after.emptySlots⟩) := by
  rw [transmit, sent]
  rfl

/-- A CREATE does not depend on the mode. -/
theorem pathsAgree_create :
    PathsAgree long chan network (.create varspace var slot memory :: rest) ↔
      long = .bits32 ∧ PathsAgree long chan
        (network.setSlot slot (some (createdBuffer memory (varspace.get var).value))) rest := by
  have made (narrow : long = .bits32) (start : Network) :
      transmit long chan start (.create varspace var slot memory) =
        .ok (start.setSlot slot (some (createdBuffer memory (varspace.get var).value)),
          ⟨.ok, [], (start.setSlot slot
            (some (createdBuffer memory (varspace.get var).value))).emptySlots⟩) := by
    rw [transmit, ncmCreateMessageFromVar_iff.mpr ⟨narrow, rfl⟩]
    rfl
  constructor
  · intro agree
    obtain ⟨_, done⟩ := agree.taken
    obtain ⟨_, created, _⟩ := bind_eq_ok.mp done
    have narrow := (ncmCreateMessageFromVar_iff.mp created).1
    exact ⟨narrow, ((showSame_cons_iff (made narrow _) (made narrow _)).mp agree).2⟩
  · rintro ⟨narrow, agree⟩
    exact (showSame_cons_iff (made narrow _) (made narrow _)).mpr ⟨rfl, agree⟩

variable (found : network.channel chan = .ok channel) (up : channel.dev = .device dev)

include found up

/-- A SEND from an empty slot is refused on both paths. -/
theorem pathsAgree_sendEmpty (empty : network.slot slot = none) :
    PathsAgree long chan network (.send slot :: rest) ↔ PathsAgree long chan network rest := by
  have refused (start : Network) (table : start.channel chan = .ok channel)
      (slots : start.slot slot = none) : transmit long chan start (.send slot) =
      .ok (start, ⟨.error, [], start.emptySlots⟩) :=
    transmit_send (ncmSendMessage_empty table up slots)
  rw [PathsAgree, showSame_cons_iff (refused (ncmSetModeHard network) found empty)
    (refused (ncmSetModeSoft network) found empty)]
  exact and_iff_right rfl

/-- A SEND from a filled slot leaves it empty on the hard path only. -/
theorem not_pathsAgree_sendFilled {skb : SkBuff} (filled : network.slot slot = some skb) :
    ¬ PathsAgree long chan network (.send slot :: rest) := by
  have inHard : (ncmSetModeHard network).slot slot = some skb := filled
  have inSoft : (ncmSetModeSoft network).slot slot = some skb := filled
  have hard : transmit long chan (ncmSetModeHard network) (.send slot) = .ok _ :=
    transmit_send (ncmSendMessage_hard rfl
      (show (ncmSetModeHard network).channel chan = .ok channel from found) up inHard)
  have soft : transmit long chan (ncmSetModeSoft network) (.send slot) = .ok _ :=
    transmit_send (ncmSendMessage_soft rfl
      (show (ncmSetModeSoft network).channel chan = .ok channel from found) inSoft)
  rw [PathsAgree, showSame_cons_iff hard soft]
  rintro ⟨same, -⟩
  have slots := congrArg (fun shown => shown.emptySlots.get slot) same
  dsimp only at slots
  have cleared : ((ncmSetModeHard network).setSlot slot none).slot slot = none :=
    slot_setSlot_self
  rw [emptySlots_get, emptySlots_get, cleared, inSoft] at slots
  cases slots

end Paths

/-! ## The frames of a created message -/

section Frames

variable {dev : NetDevice} {memory : Nat → UInt8} {value : List UInt8} {srcMac : Mac}
  {ifindex : UInt32}

/-- The soft path passes on the length with the header and writes a second one
in front of it. -/
theorem softFrames_length :
    ∀ event ∈ (ncSendmsg srcMac broadcastMac ifindex (createdBuffer memory value).head
        (createdBuffer memory value).len ethPNc).2,
      value.length ≤ ethDataLen - ethHlen ∧
        event.frame.length = ethHlen + (ethHlen + value.length) := by
  intro event sent
  unfold ncSendmsg at sent
  split at sent
  · cases sent
  · next fits =>
      split at sent
      · cases sent
      · obtain rfl := List.mem_singleton.mp sent
        have len : (createdBuffer memory value).len = ethHlen + value.length := rfl
        have room : ethHlen + value.length ≤ ethDataLen := by
          rw [← len]
          exact Nat.le_of_not_gt fits
        have short : value.length ≤ maxVarSizeBytes :=
          Nat.le_trans (Nat.le_add_left _ _) room
        have whole : (createdBuffer memory value).head.length = ethFrameLen :=
          createdBuffer_length short
        have inside : ethHlen + value.length ≤ ethFrameLen :=
          Nat.le_trans room (by decide)
        constructor
        · exact Nat.le_sub_of_add_le' room
        · rw [NetEvent.frame, List.length_append, List.length_take, whole, len,
            Nat.min_eq_left inside]
          rw [List.length_append, List.length_append, Vector.length_toList, Vector.length_toList]
          rfl

/-- No created message gives the same frames on both paths. -/
theorem softFrames_ne (fits : value.length ≤ maxVarSizeBytes) :
    (ncSendmsg srcMac broadcastMac ifindex (createdBuffer memory value).head
      (createdBuffer memory value).len ethPNc).2.map NetEvent.frame ≠
        [variableFrame dev memory value] := by
  intro same
  have member : variableFrame dev memory value ∈ (ncSendmsg srcMac broadcastMac ifindex
      (createdBuffer memory value).head (createdBuffer memory value).len ethPNc).2.map
        NetEvent.frame := by
    rw [same]
    exact List.mem_singleton_self _
  obtain ⟨event, sent, frame⟩ := List.mem_map.mp member
  have length := (softFrames_length event sent).2
  rw [frame, variableFrame_length fits] at length
  have header : ethHlen = 14 := rfl
  omega

end Frames

/-! ## Whole sequences -/

section Sequences

variable {long : LongWidth} {chan : Nat} {network : Network} {channel : Channel}
  {dev : NetDevice} {slot : Fin maxMessages} {instr : TransmitInstr} {rest : List TransmitInstr}

theorem sendsFindEmpty_cons : SendsFindEmpty network (instr :: rest) ↔
    (∀ slot, instr = .send slot → network.slot slot = none) ∧
      ∀ before slot after, rest = before ++ .send slot :: after →
        ¬ FilledBy network slot (instr :: before) := by
  constructor
  · intro empty
    constructor
    · rintro slot rfl
      rw [← Option.not_isSome_iff_eq_none, Option.isSome_iff_exists]
      rintro ⟨skb, filled⟩
      exact empty [] slot rest rfl (.initially filled)
    · rintro before slot after rfl
      exact empty (instr :: before) slot after rfl
  · rintro ⟨first, later⟩ before slot after same filled
    cases before with
    | nil =>
        obtain ⟨rfl, rfl⟩ := List.cons.inj same
        cases filled with
        | initially filled =>
            rw [first slot rfl] at filled
            cases filled
        | created member => cases member
    | cons head before =>
        obtain ⟨rfl, rfl⟩ := List.cons.inj same
        exact later before slot after rfl filled

/-- CREATE fills its slot and no other. -/
theorem filledBy_create {varspace : Varspace} {var : Fin maxVariables}
    {created slot : Fin maxMessages} {memory : Nat → UInt8} (skb : SkBuff)
    {instrs : List TransmitInstr} :
    FilledBy network slot (.create varspace var created memory :: instrs) ↔
      FilledBy (network.setSlot created (some skb)) slot instrs := by
  constructor
  · intro filled
    cases filled with
    | initially filled =>
        rcases eq_or_ne slot created with rfl | distinct
        · exact .initially slot_setSlot_self
        · exact .initially ((slot_setSlot_of_ne distinct).trans filled)
    | created member =>
        cases member with
        | head => exact .initially slot_setSlot_self
        | tail _ member => exact .created member
  · intro filled
    cases filled with
    | initially filled =>
        rcases eq_or_ne slot created with rfl | distinct
        · exact .created (List.mem_cons_self ..)
        · rw [slot_setSlot_of_ne distinct] at filled
          exact .initially filled
    | created member => exact .created (List.mem_cons_of_mem _ member)

theorem filledBy_send {sent : Fin maxMessages} {instrs : List TransmitInstr} :
    FilledBy network slot (.send sent :: instrs) ↔ FilledBy network slot instrs := by
  constructor
  · intro filled
    cases filled with
    | initially filled => exact .initially filled
    | created member =>
        cases member with
        | tail _ member => exact .created member
  · intro filled
    cases filled with
    | initially filled => exact .initially filled
    | created member => exact .created (List.mem_cons_of_mem _ member)

theorem createsDefined_create {varspace : Varspace} {var : Fin maxVariables}
    {memory : Nat → UInt8} : CreatesDefined long (.create varspace var slot memory :: rest) ↔
      long = .bits32 := by
  constructor
  · intro defined
    exact defined _ _ _ _ (List.mem_cons_self ..)
  · intro narrow _ _ _ _ _
    exact narrow

theorem createsDefined_send : CreatesDefined long (.send slot :: rest) ↔
    CreatesDefined long rest := by
  simp only [CreatesDefined, List.mem_cons, reduceCtorEq, false_or]

theorem CreatesDefined.of_narrow (narrow : long = .bits32) (instrs : List TransmitInstr) :
    CreatesDefined long instrs := fun _ _ _ _ _ => narrow

/--
The hard and the soft path agree on a sequence of CREATE and SEND instructions
if and only if a `size_t` fits the `u32` that CREATE passes for one, and no SEND
finds its slot filled.
-/
theorem transmitPaths_agree_iff (found : network.channel chan = .ok channel)
    (up : channel.dev = .device dev) (instrs : List TransmitInstr) :
    PathsAgree long chan network instrs ↔
      CreatesDefined long instrs ∧ SendsFindEmpty network instrs := by
  induction instrs generalizing network with
  | nil =>
      constructor
      · intro _
        refine ⟨nofun, fun before slot after same => ?_⟩
        cases before <;> cases same
      · intro _
        exact ⟨[], rfl, rfl⟩
  | cons instr rest ih =>
      rw [sendsFindEmpty_cons]
      cases instr with
      | create varspace var created memory =>
          have sameTable (skb : SkBuff) :
              (network.setSlot created (some skb)).channel chan = .ok channel := found
          rw [pathsAgree_create, ih (sameTable _), SendsFindEmpty, createsDefined_create]
          simp only [filledBy_create (createdBuffer memory (varspace.get var).value),
            reduceCtorEq, false_implies, implies_true, true_and]
          constructor
          · rintro ⟨narrow, -, empty⟩
            exact ⟨narrow, empty⟩
          · rintro ⟨narrow, empty⟩
            exact ⟨narrow, .of_narrow narrow rest, empty⟩
      | send slot =>
          simp only [filledBy_send, TransmitInstr.send.injEq, forall_eq']
          cases filled : network.slot slot with
          | none =>
              rw [pathsAgree_sendEmpty found up filled, ih found, createsDefined_send]
              exact and_congr_right fun _ => (and_iff_right rfl).symm
          | some skb =>
              constructor
              · intro agree
                exact (not_pathsAgree_sendFilled found up filled agree).elim
              · rintro ⟨-, impossible, -⟩
                cases impossible

end Sequences

/-- The channel of the card. -/
def cardChannel : Channel := ⟨[], networkCard.devAddr, networkCard.ifindex, .device networkCard⟩

/-- A network with one channel on the card. -/
def cardNetwork : Network := { zeroNetwork with channels := 1, table := some [cardChannel] }

def firstSlot : Fin maxMessages := ⟨0, Nat.succ_pos 9⟩

def secondSlot : Fin maxMessages := ⟨1, Nat.succ_lt_succ (Nat.succ_pos 8)⟩

def firstVariable : Fin maxVariables := ⟨0, Nat.succ_pos 9⟩

/-- A CREATE of the first variable before anything was written to it. -/
def createEmpty (slot : Fin maxMessages) : TransmitInstr :=
  .create (Vector.replicate maxVariables zeroVariable) firstVariable slot fun _ => 0

/-- A message is created in one slot and none is sent from another. -/
theorem transmitPaths_agree_iff_otherSlot :
    PathsAgree .bits32 0 cardNetwork [createEmpty firstSlot, .send secondSlot] ↔
      CreatesDefined .bits32 [createEmpty firstSlot, .send secondSlot] ∧
        SendsFindEmpty cardNetwork [createEmpty firstSlot, .send secondSlot] :=
  transmitPaths_agree_iff (show cardNetwork.channel 0 = .ok cardChannel from rfl)
    (show cardChannel.dev = .device networkCard from rfl) _

/-- The paths differ on a message that is created and sent. -/
theorem transmitPaths_disagree :
    cardNetwork.channel 0 = .ok cardChannel ∧ cardChannel.dev = .device networkCard ∧
      ¬ PathsAgree .bits32 0 cardNetwork [createEmpty firstSlot, .send firstSlot] := by
  refine ⟨rfl, rfl, ?_⟩
  rw [createEmpty, pathsAgree_create]
  rintro ⟨-, agree⟩
  exact not_pathsAgree_sendFilled (show _ = Except.ok cardChannel from rfl) rfl slot_setSlot_self
    agree

end NetworkCode.Kernel
