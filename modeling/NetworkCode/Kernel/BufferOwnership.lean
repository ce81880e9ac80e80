import NetworkCode.Kernel.TransmitPaths

/-!
# The owners of the packet buffers

Each `sk_buff` that CREATE allocates gets a number, and beside the network the
numbers are kept that the slots refer to, that the driver has taken and that
the module has freed.
-/

namespace NetworkCode.Kernel

open Library Library.Checked

/-! ## The books -/

/-- Where the buffers are that CREATE has allocated so far. -/
structure Buffers where
  /-- The buffers that the slots refer to. -/
  slots : Vector (Option Nat) maxMessages
  allocated : Nat
  driver : List Nat
  freed : List Nat

namespace Buffers

/-- No buffer has been allocated yet. -/
def unused : Buffers := ⟨Vector.replicate maxMessages none, 0, [], []⟩

/-- In how many places a buffer is: slots that refer to it, times that the
driver has taken it, and times that it has been freed. -/
def owners (buffers : Buffers) (buffer : Nat) : Nat :=
  buffers.slots.count (some buffer) + buffers.driver.count buffer + buffers.freed.count buffer

/-- Every allocated buffer is in exactly one place. -/
def OneOwner (buffers : Buffers) : Prop :=
  ∀ buffer < buffers.allocated, buffers.owners buffer = 1

/-- `*skb = alloc_skb(…)` -/
def create (buffers : Buffers) (slot : Fin maxMessages) : Buffers :=
  { buffers with
    slots := buffers.slots.set slot.val (some buffers.allocated) slot.isLt
    allocated := buffers.allocated + 1 }

/-- `ndo_start_xmit(msg->skb, dev)` and `msg->skb = 0` -/
def handOver (buffers : Buffers) (slot : Fin maxMessages) (accepted : Bool) : Buffers :=
  match buffers.slots.get slot with
  | none => buffers
  | some buffer =>
      { buffers with
        slots := buffers.slots.set slot.val none slot.isLt
        driver := if accepted then buffer :: buffers.driver else buffers.driver }

/-- `kfree_skb(….skb)` -/
def release (buffers : Buffers) (slot : Fin maxMessages) : Buffers :=
  match buffers.slots.get slot with
  | none => buffers
  | some buffer => { buffers with freed := buffer :: buffers.freed }

/-- The loop of `init_network` over the message space. -/
def clearSlots (buffers : Buffers) : Buffers :=
  { buffers with slots := Vector.replicate maxMessages none }

end Buffers

/-! ## The network with its books -/

/-- The driver's answer to `ndo_start_xmit`. -/
inductive TxAnswer where
  | ok
  | busy
  deriving DecidableEq

/-- `NETDEV_TX_OK` and `NETDEV_TX_BUSY` -/
def TxAnswer.code : TxAnswer → Int
  | .ok => 0x00
  | .busy => 0x10

inductive BufferOp where
  | create (varspace : Varspace) (var : Fin maxVariables) (slot : Fin maxMessages)
      (memory : Nat → UInt8)
  | send (chan : Nat) (slot : Fin maxMessages) (answer : TxAnswer)
  | setModeHard
  | setModeSoft
  | stop
  | start (params : NetParams) (env : NetEnv)

structure OwnedNetwork where
  network : Network
  buffers : Buffers

namespace OwnedNetwork

/-- What a SEND does with the buffer of its slot. -/
def sendBuffers (state : OwnedNetwork) (chan : Nat) (slot : Fin maxMessages)
    (answer : TxAnswer) : Exec Buffers :=
  match state.network.mode with
  | .soft => return state.buffers.release slot
  | .hard => do
      let channel ← state.network.channel chan
      match channel.dev with
      | .null => return state.buffers
      | _ => return state.buffers.handOver slot (answer = .ok)

def next (long : LongWidth) (state : OwnedNetwork) : BufferOp → Exec OwnedNetwork
  | .create varspace var slot memory => do
      let network ← ncmCreateMessageFromVar long state.network varspace var.val slot.val memory
      return ⟨network, state.buffers.create slot⟩
  | .send chan slot answer => do
      let (_, network, _) ← ncmSendMessage state.network chan slot.val answer.code
      let buffers ← state.sendBuffers chan slot answer
      return ⟨network, buffers⟩
  | .setModeHard => return { state with network := ncmSetModeHard state.network }
  | .setModeSoft => return { state with network := ncmSetModeSoft state.network }
  | .stop => do
      let (network, _) ← destroyNetwork state.network
      return { state with network := network }
  | .start params env => do
      let (network, _) ← initNetwork state.network params env
      return ⟨network, state.buffers.clearSlots⟩

/-- One operation that does not fail. -/
def Step (long : LongWidth) (state : OwnedNetwork) (op : BufferOp) (after : OwnedNetwork) : Prop :=
  state.next long op = .ok after

/-- A number stands in the books for each buffer that a slot refers to, and
every number in the books has been given out. -/
structure Booked (state : OwnedNetwork) : Prop where
  tagged : ∀ slot, (state.buffers.slots.get slot).isSome = (state.network.slot slot).isSome
  known : ∀ buffer, state.buffers.allocated ≤ buffer → state.buffers.owners buffer = 0

/-- The operations that leave every buffer with one owner. -/
inductive KeepsOwners (state : OwnedNetwork) : BufferOp → Prop where
  | create {varspace : Varspace} {var : Fin maxVariables} {slot : Fin maxMessages}
      {memory : Nat → UInt8} (empty : state.network.slot slot = none) :
      KeepsOwners state (.create varspace var slot memory)
  | accepted {chan : Nat} {slot : Fin maxMessages} (hard : state.network.mode = .hard) :
      KeepsOwners state (.send chan slot .ok)
  | noDevice {chan : Nat} {slot : Fin maxMessages} {answer : TxAnswer} {channel : Channel}
      (hard : state.network.mode = .hard) (found : state.network.channel chan = .ok channel)
      (dev : channel.dev = .null) : KeepsOwners state (.send chan slot answer)
  | nothingSent {chan : Nat} {slot : Fin maxMessages} {answer : TxAnswer}
      (empty : state.network.slot slot = none) : KeepsOwners state (.send chan slot answer)
  | setModeHard : KeepsOwners state .setModeHard
  | setModeSoft : KeepsOwners state .setModeSoft
  | stop : KeepsOwners state .stop
  | start {params : NetParams} {env : NetEnv} (empty : ∀ slot, state.network.slot slot = none) :
      KeepsOwners state (.start params env)

end OwnedNetwork

/-! ## Counting -/

namespace Buffers

variable {buffers : Buffers} {slot : Fin maxMessages} {buffer given : Nat}

theorem count_pos_of_held (held : buffers.slots.get slot = some buffer) :
    0 < buffers.slots.count (some buffer) :=
  Vector.count_pos_iff.mpr (Vector.mem_of_getElem held)

/-- What a slot gives up and what it gets. -/
theorem count_set (buffers : Buffers) (slot : Fin maxMessages) (content : Option Nat)
    (buffer : Nat) :
    (buffers.slots.set slot.val content slot.isLt).count (some buffer) +
        (if buffers.slots.get slot = some buffer then 1 else 0) =
      buffers.slots.count (some buffer) + (if content = some buffer then 1 else 0) := by
  have held : buffers.slots.get slot = buffers.slots[slot.val] := rfl
  rw [Vector.count_set slot.isLt, ← held]
  simp only [beq_iff_eq]
  by_cases same : buffers.slots.get slot = some buffer
  · have positive := count_pos_of_held same
    rw [if_pos same]
    omega
  · rw [if_neg same]
    rfl

theorem owners_create (buffers : Buffers) (slot : Fin maxMessages) (buffer : Nat) :
    (buffers.create slot).owners buffer +
        (if buffers.slots.get slot = some buffer then 1 else 0) =
      buffers.owners buffer + (if buffers.allocated = buffer then 1 else 0) := by
  have moved := count_set buffers slot (some buffers.allocated) buffer
  simp only [Option.some.injEq] at moved
  unfold owners create
  dsimp only
  omega

theorem owners_handOver (held : buffers.slots.get slot = some given) (accepted : Bool)
    (buffer : Nat) :
    (buffers.handOver slot accepted).owners buffer + (if given = buffer then 1 else 0) =
      buffers.owners buffer + (if accepted ∧ given = buffer then 1 else 0) := by
  have moved := count_set buffers slot none buffer
  simp only [held, Option.some.injEq, reduceCtorEq, if_false] at moved
  unfold owners handOver
  rw [held]
  cases accepted with
  | false =>
      simp only [Bool.false_eq_true, false_and, if_false]
      omega
  | true =>
      simp only [true_and, if_true, List.count_cons, beq_iff_eq]
      omega

theorem owners_release (held : buffers.slots.get slot = some given) (buffer : Nat) :
    (buffers.release slot).owners buffer =
      buffers.owners buffer + (if given = buffer then 1 else 0) := by
  unfold owners release
  rw [held]
  simp only [List.count_cons, beq_iff_eq]
  omega

theorem owners_clearSlots (buffers : Buffers) (buffer : Nat) :
    buffers.clearSlots.owners buffer + buffers.slots.count (some buffer) =
      buffers.owners buffer := by
  unfold owners clearSlots
  have cleared : (Vector.replicate maxMessages (none : Option Nat)).count (some buffer) = 0 :=
    Vector.count_replicate
  dsimp only
  rw [cleared]
  omega

theorem handOver_empty (empty : buffers.slots.get slot = none) (accepted : Bool) :
    buffers.handOver slot accepted = buffers := by
  rw [handOver, empty]

theorem release_empty (empty : buffers.slots.get slot = none) : buffers.release slot = buffers := by
  rw [release, empty]

@[simp] theorem handOver_allocated (buffers : Buffers) (slot : Fin maxMessages) (accepted : Bool) :
    (buffers.handOver slot accepted).allocated = buffers.allocated := by
  unfold handOver
  split <;> rfl

@[simp] theorem release_allocated (buffers : Buffers) (slot : Fin maxMessages) :
    (buffers.release slot).allocated = buffers.allocated := by
  unfold release
  split <;> rfl

theorem handOver_slots (held : buffers.slots.get slot = some given) (accepted : Bool) :
    (buffers.handOver slot accepted).slots = buffers.slots.set slot.val none slot.isLt := by
  rw [handOver, held]

@[simp] theorem release_slots (buffers : Buffers) (slot : Fin maxMessages) :
    (buffers.release slot).slots = buffers.slots := by
  unfold release
  split <;> rfl

/-! ### What keeps one owner -/

section OneOwner

variable (known : ∀ buffer, buffers.allocated ≤ buffer → buffers.owners buffer = 0)
  (one : buffers.OneOwner)

include known

theorem held_lt (held : buffers.slots.get slot = some given) : given < buffers.allocated := by
  have positive := count_pos_of_held held
  by_contra late
  have absent := known given (Nat.le_of_not_gt late)
  unfold owners at absent
  omega

theorem create_known (buffer : Nat) (late : (buffers.create slot).allocated ≤ buffer) :
    (buffers.create slot).owners buffer = 0 := by
  have later : buffers.allocated < buffer := late
  have moved := owners_create buffers slot buffer
  rw [known buffer (Nat.le_of_lt later), if_neg (Nat.ne_of_lt later)] at moved
  omega

theorem handOver_known (accepted : Bool) (buffer : Nat)
    (late : (buffers.handOver slot accepted).allocated ≤ buffer) :
    (buffers.handOver slot accepted).owners buffer = 0 := by
  cases held : buffers.slots.get slot with
  | none =>
      rw [handOver_empty held] at late ⊢
      exact known buffer late
  | some given =>
      rw [handOver_allocated] at late
      have moved := owners_handOver held accepted buffer
      have other : given ≠ buffer := Nat.ne_of_lt (Nat.lt_of_lt_of_le (held_lt known held) late)
      rw [known buffer late, if_neg other, if_neg fun both => other both.2] at moved
      exact moved

theorem release_known (buffer : Nat) (late : (buffers.release slot).allocated ≤ buffer) :
    (buffers.release slot).owners buffer = 0 := by
  cases held : buffers.slots.get slot with
  | none =>
      rw [release_empty held] at late ⊢
      exact known buffer late
  | some given =>
      rw [release_allocated] at late
      have other : given ≠ buffer := Nat.ne_of_lt (Nat.lt_of_lt_of_le (held_lt known held) late)
      rw [owners_release held, known buffer late, if_neg other]

theorem clearSlots_known (buffer : Nat) (late : buffers.clearSlots.allocated ≤ buffer) :
    buffers.clearSlots.owners buffer = 0 := by
  have moved := owners_clearSlots buffers buffer
  rw [known buffer late] at moved
  omega

include one

/-- CREATE keeps one owner exactly if its slot is empty. -/
theorem create_oneOwner_iff :
    (buffers.create slot).OneOwner ↔ buffers.slots.get slot = none := by
  constructor
  · intro after
    cases held : buffers.slots.get slot with
    | none => rfl
    | some given =>
        have bound := held_lt known held
        have moved := owners_create buffers slot given
        rw [if_pos held, after given (Nat.lt_succ_of_lt bound), one given bound,
          if_neg (Nat.ne_of_gt bound)] at moved
        cases moved
  · intro empty buffer bound
    have moved := owners_create buffers slot buffer
    rw [empty, if_neg (Option.some_ne_none _).symm] at moved
    rcases Nat.lt_or_eq_of_le (Nat.le_of_lt_succ bound) with earlier | rfl
    · rw [one buffer earlier, if_neg (Nat.ne_of_gt earlier)] at moved
      exact moved
    · rw [known _ (Nat.le_refl _), if_pos rfl] at moved
      exact moved

/-- A hand-over keeps one owner exactly if the driver accepts the buffer. -/
theorem handOver_oneOwner_iff (held : buffers.slots.get slot = some given) (accepted : Bool) :
    (buffers.handOver slot accepted).OneOwner ↔ accepted := by
  constructor
  · intro after
    have bound := held_lt known held
    have moved := owners_handOver held accepted given
    rw [after given (by rwa [handOver_allocated]), one given bound, if_pos rfl] at moved
    cases accepted with
    | true => rfl
    | false => cases moved
  · rintro rfl buffer bound
    have moved := owners_handOver held true buffer
    rw [handOver_allocated] at bound
    rw [one buffer bound] at moved
    simp only [true_and] at moved
    exact Nat.add_right_cancel moved

/-- Freeing the buffer of a slot keeps one owner only if there is none. -/
theorem release_oneOwner_iff : (buffers.release slot).OneOwner ↔ buffers.slots.get slot = none := by
  constructor
  · intro after
    cases held : buffers.slots.get slot with
    | none => rfl
    | some given =>
        have bound := held_lt known held
        have moved := owners_release held given
        rw [after given (by rwa [release_allocated]), one given bound, if_pos rfl] at moved
        cases moved
  · intro empty
    rw [release_empty empty]
    exact one

/-- Clearing the slots keeps one owner only if all of them are empty. -/
theorem clearSlots_oneOwner_iff :
    buffers.clearSlots.OneOwner ↔ ∀ slot, buffers.slots.get slot = none := by
  constructor
  · intro after slot
    cases held : buffers.slots.get slot with
    | none => rfl
    | some given =>
        have bound := held_lt known held
        have positive := count_pos_of_held held
        have moved := owners_clearSlots buffers given
        rw [after given bound, one given bound] at moved
        omega
  · intro empty buffer bound
    have moved := owners_clearSlots buffers buffer
    have absent : buffers.slots.count (some buffer) = 0 := by
      rw [Vector.count_eq_zero]
      intro member
      obtain ⟨index, inside, held⟩ := Vector.mem_iff_getElem.mp member
      have none_held := empty ⟨index, inside⟩
      exact Option.some_ne_none _ (held.symm.trans none_held)
    rw [one buffer bound, absent] at moved
    exact moved

end OneOwner

end Buffers

/-! ## Steps -/

namespace OwnedNetwork

variable {long : LongWidth} {state after : OwnedNetwork} {slot : Fin maxMessages}

/-- The books of a state agree with its network on the empty slots. -/
theorem Booked.empty_iff (booked : state.Booked) :
    state.buffers.slots.get slot = none ↔ state.network.slot slot = none := by
  rw [← Option.not_isSome_iff_eq_none, ← Option.not_isSome_iff_eq_none, booked.tagged]

theorem step_create {varspace : Varspace} {var : Fin maxVariables} {memory : Nat → UInt8} :
    Step long state (.create varspace var slot memory) after ↔ long = .bits32 ∧
      ⟨state.network.setSlot slot (some (createdBuffer memory (varspace.get var).value)),
        state.buffers.create slot⟩ = after := by
  simp only [Step, next, bind_eq_ok, ncmCreateMessageFromVar_iff, pure_eq_ok, Except.ok.injEq,
    and_assoc, exists_and_left, exists_eq_left']

/-- The ways in which a SEND treats the buffer of its slot. -/
inductive Sends (state : OwnedNetwork) (chan : Nat) (slot : Fin maxMessages) (answer : TxAnswer) :
    OwnedNetwork → Prop where
  | noDevice {channel : Channel} (hard : state.network.mode = .hard)
      (found : state.network.channel chan = .ok channel) (dev : channel.dev = .null) :
      Sends state chan slot answer state
  | nothing (empty : state.network.slot slot = none) : Sends state chan slot answer state
  | handsOver {channel : Channel} {dev : NetDevice} {skb : SkBuff}
      (found : state.network.channel chan = .ok channel) (up : channel.dev = .device dev)
      (hard : state.network.mode = .hard) (filled : state.network.slot slot = some skb) :
      Sends state chan slot answer
        ⟨state.network.setSlot slot none, state.buffers.handOver slot (answer = .ok)⟩
  | copies {skb : SkBuff} (soft : state.network.mode = .soft)
      (filled : state.network.slot slot = some skb) :
      Sends state chan slot answer ⟨state.network, state.buffers.release slot⟩

theorem step_send {chan : Nat} {answer : TxAnswer} (booked : state.Booked)
    (step : Step long state (.send chan slot answer) after) :
    Sends state chan slot answer after := by
  obtain ⟨⟨ret, network, events⟩, sent, step⟩ := bind_eq_ok.mp step
  obtain ⟨buffers, moved, finish⟩ := bind_eq_ok.mp step
  cases finish
  cases mode : state.network.mode with
  | hard =>
      rw [sendBuffers, mode] at moved
      obtain ⟨channel, found, moved⟩ := bind_eq_ok.mp moved
      rw [ncmSendMessage_of_hard mode] at sent
      cases ncmSendMessageHard_cases sent with
      | noDevice found' dev =>
          cases found.symm.trans found'
          rw [dev] at moved
          cases moved
          exact .noDevice mode found dev
      | emptySlot found' bound empty =>
          have unchanged : buffers = state.buffers := by
            split at moved
            · cases moved
              rfl
            · cases moved
              exact Buffers.handOver_empty (booked.empty_iff.mpr empty) _
          rw [unchanged]
          exact .nothing empty
      | handsOver found' up bound filled =>
          cases found.symm.trans found'
          rw [up] at moved
          cases moved
          exact .handsOver found up mode filled
  | soft =>
      rw [sendBuffers, mode] at moved
      cases moved
      rw [ncmSendMessage_of_soft mode] at sent
      obtain ⟨rfl, sends⟩ := ncmSendMessageSoft_cases sent
      cases sends with
      | emptySlot bound empty =>
          rw [Buffers.release_empty (booked.empty_iff.mpr empty)]
          exact .nothing empty
      | copies found bound filled => exact .copies mode filled

theorem step_stop (step : Step long state .stop after) :
    after.buffers = state.buffers ∧ after.network.messageSpace = state.network.messageSpace := by
  obtain ⟨⟨network, released⟩, destroyed, finish⟩ := bind_eq_ok.mp step
  obtain ⟨released, _, finish'⟩ := bind_eq_ok.mp destroyed
  cases finish'
  cases finish
  exact ⟨rfl, rfl⟩

theorem step_start {params : NetParams} {env : NetEnv}
    (step : Step long state (.start params env) after) :
    after.buffers = state.buffers.clearSlots ∧
      after.network.messageSpace = Vector.replicate maxMessages none := by
  obtain ⟨⟨network, acquired⟩, started, finish⟩ := bind_eq_ok.mp step
  obtain ⟨⟨table, acquired⟩, _, finish'⟩ := bind_eq_ok.mp started
  cases finish'
  cases finish
  exact ⟨rfl, rfl⟩

/-- A slot of the network and its entry in the books change alike. -/
theorem tagged_set {slots : Vector (Option Nat) maxMessages} {network : Network}
    (tagged : ∀ slot, (slots.get slot).isSome = (network.slot slot).isSome)
    {held : Option Nat} {buffer : Option SkBuff} (alike : held.isSome = buffer.isSome)
    (other : Fin maxMessages) :
    ((slots.set slot.val held slot.isLt).get other).isSome =
      ((network.setSlot slot buffer).slot other).isSome := by
  rcases eq_or_ne other slot with rfl | distinct
  · have here : (slots.set other.val held other.isLt).get other = held :=
      Vector.getElem_set_self other.isLt
    rw [here, slot_setSlot_self, alike]
  · have there : (slots.set slot.val held slot.isLt).get other = slots.get other :=
      Vector.getElem_set_ne slot.isLt other.isLt fun same => distinct (Fin.ext same.symm)
    rw [there, slot_setSlot_of_ne distinct, tagged]

theorem step_booked {op : BufferOp} (booked : state.Booked) (step : Step long state op after) :
    after.Booked := by
  cases op with
  | create varspace var slot memory =>
      obtain ⟨-, rfl⟩ := step_create.mp step
      exact ⟨tagged_set booked.tagged rfl, Buffers.create_known booked.known⟩
  | send chan slot answer =>
      cases step_send booked step with
      | noDevice => exact booked
      | nothing => exact booked
      | handsOver found up hard filled =>
          refine ⟨fun other => ?_, Buffers.handOver_known booked.known _⟩
          cases held : state.buffers.slots.get slot with
          | none =>
              rw [booked.empty_iff.mp held] at filled
              cases filled
          | some given =>
              dsimp only
              rw [Buffers.handOver_slots held]
              exact tagged_set booked.tagged rfl other
      | copies soft filled =>
          refine ⟨fun other => ?_, Buffers.release_known booked.known⟩
          dsimp only
          rw [Buffers.release_slots]
          exact booked.tagged other
  | setModeHard =>
      cases step
      exact ⟨booked.tagged, booked.known⟩
  | setModeSoft =>
      cases step
      exact ⟨booked.tagged, booked.known⟩
  | stop =>
      obtain ⟨books, slots⟩ := step_stop step
      constructor
      · intro slot
        rw [Network.slot, slots, books]
        exact booked.tagged slot
      · rw [books]
        exact booked.known
  | start params env =>
      obtain ⟨books, slots⟩ := step_start step
      constructor
      · intro slot
        rw [Network.slot, slots, books]
        have left : (Vector.replicate maxMessages (none : Option Nat)).get slot = none :=
          Vector.getElem_replicate slot.isLt
        have right : (Vector.replicate maxMessages (none : Option SkBuff)).get slot = none :=
          Vector.getElem_replicate slot.isLt
        rw [Buffers.clearSlots, left, right]
        rfl
      · rw [books]
        exact Buffers.clearSlots_known booked.known

/-- A step keeps one owner for every buffer exactly under its condition. -/
theorem step_oneOwner_iff {op : BufferOp} (booked : state.Booked) (one : state.buffers.OneOwner)
    (step : Step long state op after) : after.buffers.OneOwner ↔ KeepsOwners state op := by
  cases op with
  | create varspace var slot memory =>
      obtain ⟨-, rfl⟩ := step_create.mp step
      rw [Buffers.create_oneOwner_iff booked.known one, booked.empty_iff]
      constructor
      · exact .create
      · rintro ⟨empty⟩
        exact empty
  | send chan slot answer =>
      cases step_send booked step with
      | noDevice hard found dev => exact iff_of_true one (.noDevice hard found dev)
      | nothing empty => exact iff_of_true one (.nothingSent empty)
      | @handsOver channel dev skb found up hard filled =>
          obtain ⟨given, held⟩ : ∃ given, state.buffers.slots.get slot = some given := by
            rw [← Option.isSome_iff_exists, booked.tagged, filled]
            rfl
          rw [Buffers.handOver_oneOwner_iff booked.known one held]
          cases answer with
          | ok => exact iff_of_true rfl (.accepted hard)
          | busy =>
              apply iff_of_false Bool.false_ne_true
              intro keeps
              cases keeps with
              | noDevice _ found' dev =>
                  cases found.symm.trans found'
                  cases up.symm.trans dev
              | nothingSent empty => cases empty.symm.trans filled
      | copies soft filled =>
          rw [Buffers.release_oneOwner_iff booked.known one, booked.empty_iff]
          constructor
          · exact .nothingSent
          · intro keeps
            cases keeps with
            | accepted hard => cases soft.symm.trans hard
            | noDevice hard => cases soft.symm.trans hard
            | nothingSent empty => exact empty
  | setModeHard =>
      cases step
      exact iff_of_true one .setModeHard
  | setModeSoft =>
      cases step
      exact iff_of_true one .setModeSoft
  | stop =>
      rw [(step_stop step).1]
      exact iff_of_true one .stop
  | start params env =>
      rw [(step_start step).1, Buffers.clearSlots_oneOwner_iff booked.known one]
      simp only [booked.empty_iff]
      constructor
      · exact .start
      · intro keeps
        cases keeps with
        | start empty => exact empty

/-! ## Runs -/

/-- A network whose slots are empty, with empty books. -/
def fresh (network : Network) : OwnedNetwork := ⟨network, .unused⟩

theorem fresh_booked {network : Network} (empty : ∀ slot, network.slot slot = none) :
    (fresh network).Booked := by
  have unused (slot : Fin maxMessages) : Buffers.unused.slots.get slot = none :=
    Vector.getElem_replicate slot.isLt
  constructor
  · intro slot
    change (Buffers.unused.slots.get slot).isSome = (network.slot slot).isSome
    rw [empty, unused]
    rfl
  · intro buffer _
    have absent : (Vector.replicate maxMessages (none : Option Nat)).count (some buffer) = 0 :=
      Vector.count_replicate
    change (Vector.replicate maxMessages (none : Option Nat)).count (some buffer) + 0 + 0 = 0
    rw [absent]

/--
In a run of CREATE, SEND, stop and start operations every buffer has exactly
one owner at every moment if and only if every operation meets its condition.
-/
theorem buffers_oneOwner_iff {network : Network} (empty : ∀ slot, network.slot slot = none)
    {ops : List BufferOp} {last : OwnedNetwork} (run : Run (Step long) (fresh network) ops last) :
    Run.Throughout (Step long) (fun state => state.buffers.OneOwner) (fresh network) ops ↔
      Run (Meeting (Step long) KeepsOwners) (fresh network) ops last := by
  have kept (state : OwnedNetwork) (op : BufferOp) (after : OwnedNetwork) :
      state.Booked → Step long state op after → after.Booked := step_booked
  have exactly (state : OwnedNetwork) (op : BufferOp) (after : OwnedNetwork) :
      state.Booked → state.buffers.OneOwner → Step long state op after →
        (after.buffers.OneOwner ↔ state.KeepsOwners op) := step_oneOwner_iff
  have deterministic (state : OwnedNetwork) (op : BufferOp) (after after' : OwnedNetwork)
      (step : Step long state op after) (step' : Step long state op after') : after = after' :=
    Except.ok.inj (step.symm.trans step')
  apply Run.throughout_iff_meeting deterministic kept exactly run (fresh_booked empty)
  intro buffer bound
  cases bound

/-- A CREATE of the first variable before anything was written to it. -/
def createOp (slot : Fin maxMessages) : BufferOp :=
  .create (Vector.replicate maxVariables zeroVariable) firstVariable slot fun _ => 0

/-- One channel on the card. -/
def cardParams : NetParams :=
  ⟨1, some (List.replicate ifnamsiz 0), some networkCard.devAddr.toList⟩

/-- Two messages are created and sent, the network is stopped and started, and
a third message is created. -/
def createSendRestart : List BufferOp :=
  [createOp firstSlot, createOp secondSlot, .send 0 firstSlot .ok, .send 0 secondSlot .ok, .stop,
    .start cardParams .carded, createOp firstSlot]

/-- No buffer is lost on the way. -/
theorem buffers_oneOwner_iff_restarted :
    ∃ last, Run (Step .bits32) (fresh cardNetwork) createSendRestart last ∧
      Run.Throughout (Step .bits32) (fun state => state.buffers.OneOwner) (fresh cardNetwork)
        createSendRestart := by
  have empty (slot : Fin maxMessages) : cardNetwork.slot slot = none :=
    Vector.getElem_replicate slot.isLt
  have done : ∃ last,
      Run (Meeting (Step .bits32) KeepsOwners) (fresh cardNetwork) createSendRestart last := by
    have run := Run.single (show Meeting (Step .bits32) KeepsOwners (fresh cardNetwork)
      (createOp firstSlot) _ from ⟨.create rfl, step_create.mpr ⟨rfl, rfl⟩⟩)
    have run := run.tail (show Meeting (Step .bits32) KeepsOwners _ (createOp secondSlot) _ from
      ⟨.create rfl, step_create.mpr ⟨rfl, rfl⟩⟩)
    have run := run.tail (show Meeting (Step .bits32) KeepsOwners _ (.send 0 firstSlot .ok) _ from
      ⟨.accepted rfl, rfl⟩)
    have run := run.tail (show Meeting (Step .bits32) KeepsOwners _ (.send 0 secondSlot .ok) _ from
      ⟨.accepted rfl, rfl⟩)
    have run := run.tail (show Meeting (Step .bits32) KeepsOwners _ .stop _ from ⟨.stop, rfl⟩)
    have run := run.tail (show Meeting (Step .bits32) KeepsOwners _
      (.start cardParams .carded) _ from ⟨.start (by decide), rfl⟩)
    have run := run.tail (show Meeting (Step .bits32) KeepsOwners _ (createOp firstSlot) _ from
      ⟨.create rfl, step_create.mpr ⟨rfl, rfl⟩⟩)
    exact ⟨_, run⟩
  obtain ⟨last, run⟩ := done
  exact ⟨last, run.of_meeting, (buffers_oneOwner_iff empty run.of_meeting).mpr run⟩

/-- A second CREATE into a slot loses the buffer of the first. -/
theorem recreated_slot_loses_buffer :
    ∃ last, Run (Step .bits32) (fresh cardNetwork) [createOp firstSlot, createOp firstSlot] last ∧
      ¬ Run.Throughout (Step .bits32) (fun state => state.buffers.OneOwner) (fresh cardNetwork)
        [createOp firstSlot, createOp firstSlot] := by
  have first := Run.single (step_create.mpr ⟨rfl, rfl⟩ :
    Step .bits32 (fresh cardNetwork) (createOp firstSlot) _)
  have run := first.tail (step_create.mpr ⟨rfl, rfl⟩ : Step _ _ (createOp firstSlot) _)
  refine ⟨_, run, fun throughout => ?_⟩
  have one := throughout _ _ List.prefix_rfl run 0 (by decide)
  have lost : ((Buffers.unused.create firstSlot).create firstSlot).owners 0 = 0 := by decide
  cases lost.symm.trans one

end OwnedNetwork

end NetworkCode.Kernel
