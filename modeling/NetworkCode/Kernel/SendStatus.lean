import NetworkCode.Kernel.BufferOwnership

/-!
# What a SEND reports

SEND takes any result that is not negative for success and empties the slot
whatever the driver has answered.  The driver refuses with a positive number,
so a refused message is reported as sent and is gone.
-/

namespace NetworkCode.Kernel

open Library Library.Checked

/-- A driver has answered a frame with the code. -/
def Answered (events : List Event) (answer : TxAnswer) : Prop :=
  ∃ dev frame, Event.network (.xmit dev frame answer.code) ∈ events

/-- A SEND reports success only for a frame that a driver has taken, and an empty slot or a
refusal as a failure that leaves the message where it was. -/
structure ReportsTaken (before : Network) (slot : Fin maxMessages) (executed : Executed) :
    Prop where
  taken : executed.result = .ok → Answered executed.events .ok
  empty : before.slot slot = none → executed.result = .error ∧ executed.events = []
  refused : Answered executed.events .busy →
    executed.result ≠ .ok ∧ executed.interpreter.network.slot slot = before.slot slot

theorem Event.xmit_mem_singleton {dev other : NetDevice} {frame sent : List UInt8}
    {status answer : Int}
    (member : Event.network (.xmit dev frame status) ∈
      [Event.network (.xmit other sent answer)]) : status = answer := by
  injection List.mem_singleton.mp member with same
  injection same

section Handler

variable {interpreter : Interpreter} {instr : Instr} {input : StepInput} {channel : Channel}
  {dev : NetDevice} {slot : Fin maxMessages} {skb : SkBuff}
  (found : interpreter.network.channel instr.arg0.toNat = .ok channel)
  (up : channel.dev = .device dev) (takes : instr.arg1.toNat = slot.val)

include found takes

/-- A soft SEND of a message passes on what the socket answers. -/
theorem handleSend_soft (soft : interpreter.network.mode = .soft)
    (filled : interpreter.network.slot slot = some skb) :
    handleSend interpreter instr input =
      .ok ⟨if (ncSendmsg interpreter.network.mac broadcastMac channel.ifindex skb.head skb.len
          ethPNc).1 ≥ 0 then .ok else .error, interpreter,
        (ncSendmsg interpreter.network.mac broadcastMac channel.ifindex skb.head skb.len
          ethPNc).2.map .network⟩ := by
  rw [handleSend, takes, ncmSendMessage_soft soft found filled]
  rfl

/-- The report of a soft SEND, which asks no driver, is true exactly if it is a failure. -/
theorem handleSend_soft_reports (soft : interpreter.network.mode = .soft)
    (filled : interpreter.network.slot slot = some skb) :
    ∃ executed, handleSend interpreter instr input = .ok executed ∧
      (ReportsTaken interpreter.network slot executed ↔
        ethDataLen < skb.len ∨ channel.ifindex.toInt32 ≤ 0) := by
  refine ⟨_, handleSend_soft found takes soft filled, ?_⟩
  have unasked (answer : TxAnswer) : ¬ Answered ((ncSendmsg interpreter.network.mac broadcastMac
      channel.ifindex skb.head skb.len ethPNc).2.map .network) answer := by
    rintro ⟨other, frame, member⟩
    obtain ⟨event, sent, same⟩ := List.mem_map.mp member
    injection same with same
    subst same
    revert sent
    fun_cases ncSendmsg interpreter.network.mac broadcastMac channel.ifindex skb.head skb.len
      ethPNc with
    | case1 =>
        intro sent
        cases sent
    | case2 =>
        intro sent
        cases sent
    | case3 =>
        intro sent
        cases List.mem_singleton.mp sent
  constructor
  · intro reports
    by_contra accepted
    obtain ⟨fits, up⟩ := not_or.mp accepted
    have copied : (ncSendmsg interpreter.network.mac broadcastMac channel.ifindex skb.head skb.len
        ethPNc).1 = 0 := by
      rw [ncSendmsg, if_neg fits, if_neg up]
    refine unasked .ok (reports.taken ?_)
    dsimp only
    rw [copied]
    rfl
  · intro refused
    refine ⟨fun success => ?_, fun none => ?_, fun busy => (unasked .busy busy).elim⟩
    · have nonneg : 0 ≤ (ncSendmsg interpreter.network.mac broadcastMac channel.ifindex skb.head
          skb.len ethPNc).1 := by
        by_contra negative
        dsimp only at success
        rw [if_neg negative] at success
        cases success
      obtain ⟨fits, up⟩ := ncSendmsg_nonneg nonneg
      rcases refused with long | down
      · exact (Nat.not_lt.mpr fits long).elim
      · exact (up down).elim
    · rw [filled] at none
      cases none

include up

theorem handleSend_empty (empty : interpreter.network.slot slot = none) :
    handleSend interpreter instr input = .ok ⟨.error, interpreter, []⟩ := by
  rw [handleSend, takes, ncmSendMessage_empty found up empty]
  rfl

/-- A hard SEND of a message passes on what the driver answers. -/
theorem handleSend_filled (hard : interpreter.network.mode = .hard)
    (filled : interpreter.network.slot slot = some skb) :
    handleSend interpreter instr input =
      .ok ⟨if input.txStatus ≥ 0 then .ok else .error,
        { interpreter with network := interpreter.network.setSlot slot none },
        [.network (.xmit dev (hardFrame broadcastMac dev skb) input.txStatus)]⟩ := by
  rw [handleSend, takes, ncmSendMessage_hard hard found up filled]
  rfl

/-- The report of a hard SEND is true exactly if the answer is not positive. -/
theorem handleSend_hard_reports (hard : interpreter.network.mode = .hard)
    (filled : interpreter.network.slot slot = some skb) :
    ∃ executed, handleSend interpreter instr input = .ok executed ∧
      (ReportsTaken interpreter.network slot executed ↔ input.txStatus ≤ 0) := by
  refine ⟨_, handleSend_filled found up takes hard filled, ?_, ?_⟩
  · intro reports
    rcases Int.lt_or_le 0 input.txStatus with positive | notPositive
    · obtain ⟨other, frame, member⟩ := reports.taken (if_pos (Int.le_of_lt positive))
      have taken := Event.xmit_mem_singleton member
      rw [← taken] at positive
      exact absurd positive (by decide)
    · exact notPositive
  · intro notPositive
    refine ⟨fun success => ?_, fun none => ?_, ?_⟩
    · have nonneg : 0 ≤ input.txStatus := by
        by_contra negative
        rw [if_neg negative] at success
        cases success
      have zero : input.txStatus = TxAnswer.ok.code := Int.le_antisymm notPositive nonneg
      rw [zero]
      exact ⟨dev, _, List.mem_singleton_self _⟩
    · rw [filled] at none
      cases none
    · rintro ⟨other, frame, member⟩
      rw [← Event.xmit_mem_singleton member] at notPositive
      exact absurd notPositive (by decide)

/--
For every state, channel with its device, slot and answer of the driver, a SEND
reports what has become of its message if and only if there is none, or the
driver's answer is not positive, or, in soft mode, the socket refuses it.
-/
theorem handleSend_reports_iff :
    ∃ executed, handleSend interpreter instr input = .ok executed ∧
      (ReportsTaken interpreter.network slot executed ↔
        ∀ skb, interpreter.network.slot slot = some skb →
          match interpreter.network.mode with
          | .hard => input.txStatus ≤ 0
          | .soft => ethDataLen < skb.len ∨ channel.ifindex.toInt32 ≤ 0) := by
  cases filled : interpreter.network.slot slot with
  | none =>
      refine ⟨_, handleSend_empty found up takes filled, fun _ => nofun, fun _ => ?_⟩
      refine ⟨nofun, fun _ => ⟨rfl, rfl⟩, ?_⟩
      rintro ⟨_, _, member⟩
      cases member
  | some skb =>
      simp only [Option.some.injEq, forall_eq']
      cases mode : interpreter.network.mode with
      | hard => exact handleSend_hard_reports found up takes mode filled
      | soft => exact handleSend_soft_reports found takes mode filled

end Handler

/-- A state with a message in the first slot of a network with one channel on the card. -/
def filledInterpreter : Interpreter :=
  { zeroInterpreter with
    network := cardNetwork.setSlot firstSlot (some (createdBuffer (fun _ => 0) [])) }

/-- A message that the driver takes. -/
theorem handleSend_reports_iff_taken : ∃ executed,
    handleSend filledInterpreter (.make .send 0 0 0 0) (.atClock 0 0 0) = .ok executed ∧
      (ReportsTaken filledInterpreter.network firstSlot executed ↔
        ∀ skb, filledInterpreter.network.slot firstSlot = some skb →
          match filledInterpreter.network.mode with
          | .hard => (StepInput.atClock 0 0 0).txStatus ≤ 0
          | .soft => ethDataLen < skb.len ∨ cardChannel.ifindex.toInt32 ≤ 0) :=
  handleSend_reports_iff (show filledInterpreter.network.channel 0 = .ok cardChannel from rfl)
    (show cardChannel.dev = .device networkCard from rfl) rfl

/-- The environment of an instruction with a busy driver. -/
def busyInput : StepInput := { StepInput.atClock 0 0 0 with txStatus := TxAnswer.busy.code }

/-- A program creates a message and sends it to a busy driver. -/
theorem busySend_reported : ¬ ∀ (sysfs : NcmSysfs) (instr : Instr) (input : StepInput)
    (channel : Channel) (dev : NetDevice) (slot : Fin maxMessages) (executed : Executed),
    Reachable .bits32 sysfs →
      sysfs.ncmInterp.network.channel instr.arg0.toNat = .ok channel → channel.dev = .device dev →
        instr.arg1.toNat = slot.val → handleSend sysfs.ncmInterp instr input = .ok executed →
          ReportsTaken sysfs.ncmInterp.network slot executed := by
  intro claim
  have done : ∃ labels sysfs channel skb,
      runFromInit .bits32 (loadAndRun [.make .create 0 0 0 0, .make .send 0 0 0 0] oneChannel
        .carded ++ [.instruction (.atClock 0 0 0)]) = .ok (sysfs, labels) ∧
      sysfs.ncmInterp.network.channel 0 = .ok channel ∧ channel.dev = .device networkCard ∧
      sysfs.ncmInterp.network.slot firstSlot = some skb ∧
      sysfs.ncmInterp.network.mode = .hard :=
    ⟨_, _, _, _, rfl, rfl, rfl, rfl, rfl⟩
  obtain ⟨labels, sysfs, channel, skb, done, found, up, filled, hard⟩ := done
  have handled : handleSend sysfs.ncmInterp (.make .send 0 0 0 0) busyInput = _ :=
    handleSend_filled found up (show (0 : UInt32).toNat = firstSlot.val from rfl) hard filled
  have reports := claim sysfs (.make .send 0 0 0 0) busyInput channel networkCard firstSlot _
    ⟨labels, run_of_runFromInit done⟩ found up (show (0 : UInt32).toNat = firstSlot.val from rfl)
    handled
  obtain ⟨dev, frame, member⟩ := reports.taken rfl
  exact absurd (Event.xmit_mem_singleton member) (by decide)

end NetworkCode.Kernel
