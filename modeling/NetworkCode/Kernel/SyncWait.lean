import NetworkCode.Kernel.Sysfs
import NetworkCode.Kernel.TransmitPaths

/-!
# What a sync wait does with a read

A read either ends the wait with a sync frame, lets it go on, or lets it time
out.  Which of them happens at a read does not depend on the reads before it.
-/

namespace NetworkCode.Kernel

open Library Library.Checked

/-! ## One read -/

/-- A frame that carries at least its header. -/
def SockRead.Whole : SockRead → Prop
  | .failed _ => True
  | .frame bytes => ethHlen ≤ bytes.length

/-- The read delivers a frame of the sync protocol. -/
def SockRead.IsSync : SockRead → Prop
  | .failed _ => False
  | .frame bytes => hProto bytes = htons ethPNcSync

section Read

variable {buff bytes : List UInt8} {read : SockRead} {protocol : UInt16}

/-- The header of a frame survives its copy into a buffer that can hold it. -/
theorem hProto_kernelRecvmsg (room : ethHlen ≤ buff.length) (header : ethHlen ≤ bytes.length) :
    hProto (kernelRecvmsg buff (.frame bytes)).2 = hProto bytes := by
  have inside : 12 + 2 ≤ buff.length := room
  have copied : 12 + 2 ≤ (bytes.take buff.length).length := by
    rw [List.length_take]
    exact Nat.le_min.mpr ⟨room, header⟩
  change Bytes.slice (Bytes.overwrite buff 0 (bytes.take buff.length)) 12 2 = _
  rw [Bytes.slice_overwrite_zero copied, Bytes.slice_take inside]
  rfl

theorem ncRcvmsg_failed (n : Nat) :
    ncRcvmsg buff (.failed n) protocol = .ok (Int.negSucc n) := by
  unfold ncRcvmsg kernelRecvmsg
  dsimp only
  rw [if_pos (Int.negSucc_lt_zero n)]

theorem ncRcvmsg_frame (room : ethHlen ≤ buff.length) (header : ethHlen ≤ bytes.length) :
    ncRcvmsg buff (.frame bytes) protocol =
      if hProto bytes = htons protocol then .ok (bytes.take buff.length).length
      else .ok (-ncEnotnc) := by
  have copied : ¬ (kernelRecvmsg buff (.frame bytes)).1 < 0 :=
    Int.not_lt.mpr (Int.natCast_nonneg _)
  have long : ¬ (kernelRecvmsg buff (.frame bytes)).2.length < ethHlen := by
    rw [kernelRecvmsg_length]
    exact Nat.not_lt.mpr room
  unfold ncRcvmsg
  dsimp only
  rw [if_neg copied, if_neg long, hProto_kernelRecvmsg room header, ite_not]
  rfl

theorem ncRcvmsg_short (short : buff.length < ethHlen) :
    ncRcvmsg buff (.frame bytes) protocol = .error (.shortBuffer buff.length) := by
  have copied : ¬ (kernelRecvmsg buff (.frame bytes)).1 < 0 :=
    Int.not_lt.mpr (Int.natCast_nonneg _)
  unfold ncRcvmsg
  dsimp only
  rw [if_neg copied, kernelRecvmsg_length, if_pos short]

/-- A read for a sync stops on a short buffer, or succeeds exactly for a sync frame. -/
theorem ncRcvmsg_sync (buff : List UInt8) (whole : read.Whole) :
    ncRcvmsg buff read ethPNcSync = .error (.shortBuffer buff.length) ∨
      ∃ length, ncRcvmsg buff read ethPNcSync = .ok length ∧ (0 ≤ length ↔ read.IsSync) := by
  cases read with
  | failed n =>
      exact .inr ⟨_, ncRcvmsg_failed n, fun nonneg => absurd (Int.negSucc_lt_zero n)
        (Int.not_lt.mpr nonneg), False.elim⟩
  | frame bytes =>
      rcases Nat.lt_or_ge buff.length ethHlen with short | room
      · exact .inl (ncRcvmsg_short short)
      · rw [ncRcvmsg_frame room whole]
        split
        · next sync => exact .inr ⟨_, rfl, fun _ => sync, fun _ => Int.natCast_nonneg _⟩
        · next other =>
            have negative : ¬ (0 : Int) ≤ -ncEnotnc := by decide
            exact .inr ⟨_, rfl, fun nonneg => absurd nonneg negative, fun sync =>
              absurd sync other⟩

theorem ncRcvmsg_ne_stillWaiting : ncRcvmsg buff read protocol ≠ .error .stillWaiting := by
  unfold ncRcvmsg
  dsimp only
  split
  · exact nofun
  · split
    · exact nofun
    · split <;> exact nofun

end Read

/-! ## The loop -/

section Loop

variable {timeout start : Int64} {buff : List UInt8} {reads : List (SockRead × UInt64)}
  {read : SockRead} {now : UInt64} {ret : Int} {armed : List UInt32}

/-- A read that has not ended the wait leaves a wait with another buffer. -/
theorem receiveSyncLoop_append
    (waiting : receiveSyncLoop timeout start buff reads = .error .stillWaiting) :
    ∃ left, ∀ more, (receiveSyncLoop timeout start buff (reads ++ more)).map Prod.fst =
      (receiveSyncLoop timeout start left more).map Prod.fst := by
  induction reads generalizing buff with
  | nil => exact ⟨buff, fun _ => rfl⟩
  | cons first reads ih =>
      obtain ⟨read, now⟩ := first
      rw [receiveSyncLoop] at waiting
      rcases bind_eq_error.mp waiting with stopped | ⟨length, received, continued⟩
      · exact absurd stopped ncRcvmsg_ne_stillWaiting
      · dsimp only at continued
        split at continued
        · next negative =>
            split at continued
            · cases continued
            · next early =>
                rcases bind_eq_error.mp continued with later | ⟨result, _, finish⟩
                · obtain ⟨left, same⟩ := ih later
                  refine ⟨left, fun more => ?_⟩
                  rw [← same more, List.cons_append, receiveSyncLoop, received, ok_bind,
                    if_pos negative, if_neg early]
                  cases receiveSyncLoop timeout start (kernelRecvmsg buff read).2
                    (reads ++ more) <;> rfl
                · cases finish
        · cases continued

/-- The last read decides: a wait that ends there succeeds for a sync frame. -/
theorem receiveSyncLoop_single (whole : read.Whole)
    (answered : (receiveSyncLoop timeout start buff [(read, now)]).map Prod.fst = .ok ret) :
    0 ≤ ret ↔ read.IsSync := by
  rw [receiveSyncLoop] at answered
  rcases ncRcvmsg_sync buff whole with short | ⟨length, received, sync⟩
  · rw [short] at answered
    cases answered
  · rw [received, ok_bind] at answered
    split at answered
    · next negative =>
        have other : ¬ read.IsSync := fun is => absurd (sync.mpr is) (Int.not_le.mpr negative)
        dsimp only at answered
        split at answered
        · cases answered
          have failed : ¬ (0 : Int) ≤ -ncEtimeout := by decide
          exact ⟨fun nonneg => absurd nonneg failed, fun is => absurd is other⟩
        · cases answered
    · next nonneg =>
        cases answered
        exact ⟨fun _ => sync.mp (Int.not_lt.mp nonneg), fun _ => Int.le_refl 0⟩

theorem receiveSyncLoop_single_waiting (whole : read.Whole)
    (waiting : (receiveSyncLoop timeout start buff [(read, now)]).map Prod.fst =
      .error .stillWaiting) : ¬ read.IsSync := by
  intro is
  rw [receiveSyncLoop] at waiting
  rcases ncRcvmsg_sync buff whole with short | ⟨length, received, sync⟩
  · rw [short] at waiting
    cases waiting
  · rw [received, ok_bind, if_neg (Int.not_lt.mpr (sync.mpr is))] at waiting
    cases waiting

end Loop

/-! ## The wait of a slave SYNC -/

/-- A SYNC whose kind is not that of a master. -/
structure Instr.IsSlaveSync (instr : Instr) : Prop where
  decoded : instr.opcode? = some .sync
  slave : instr.arg0 ≠ syncMaster

/-- What `ncm_receive_sync` returns to a slave SYNC. -/
def syncAnswer (interpreter : Interpreter) (instr : Instr) (input : StepInput) : Exec Int :=
  (ncmReceiveSync interpreter.network instr.arg1.toUInt64.toInt64 input.syncStack input.syncStart
    input.syncReads).map Prod.fst

/-- The environment of a wait with one more read. -/
def StepInput.reading (input : StepInput) (read : SockRead) (now : UInt64) : StepInput :=
  { input with syncReads := input.syncReads ++ [(read, now)] }

section Answer

variable {interpreter : Interpreter} {instr : Instr} {input : StepInput} {read : SockRead}
  {now : UInt64} {ret : Int}

theorem syncAnswer_eq (interpreter : Interpreter) (instr : Instr) (input : StepInput) :
    syncAnswer interpreter instr input =
      (receiveSyncLoop instr.arg1.toUInt64.toInt64 input.syncStart.toInt64
        ((List.range interpreter.network.syncPacketlen).map input.syncStack)
        input.syncReads).map Prod.fst := by
  unfold syncAnswer ncmReceiveSync
  cases receiveSyncLoop _ _ _ input.syncReads <;> rfl

theorem syncAnswer_nil (none : input.syncReads = []) :
    syncAnswer interpreter instr input = .error .stillWaiting := by
  rw [syncAnswer_eq, none]
  rfl

theorem waiting_loop (waiting : syncAnswer interpreter instr input = .error .stillWaiting) :
    receiveSyncLoop instr.arg1.toUInt64.toInt64 input.syncStart.toInt64
      ((List.range interpreter.network.syncPacketlen).map input.syncStack) input.syncReads =
        .error .stillWaiting := by
  rw [syncAnswer_eq] at waiting
  cases loop : receiveSyncLoop instr.arg1.toUInt64.toInt64 input.syncStart.toInt64
      ((List.range interpreter.network.syncPacketlen).map input.syncStack) input.syncReads with
  | error fault =>
      rw [loop] at waiting
      cases waiting
      rfl
  | ok result =>
      rw [loop] at waiting
      cases waiting

/-- A wait that one more read ends has succeeded exactly if the read delivers a
sync frame. -/
theorem syncAnswer_ok (waiting : syncAnswer interpreter instr input = .error .stillWaiting)
    (whole : read.Whole)
    (answered : syncAnswer interpreter instr (input.reading read now) = .ok ret) :
    0 ≤ ret ↔ read.IsSync := by
  obtain ⟨left, same⟩ := receiveSyncLoop_append (waiting_loop waiting)
  rw [syncAnswer_eq, StepInput.reading, same] at answered
  exact receiveSyncLoop_single whole answered

theorem syncAnswer_waiting
    (waiting : syncAnswer interpreter instr input = .error .stillWaiting) (whole : read.Whole)
    (still : syncAnswer interpreter instr (input.reading read now) = .error .stillWaiting) :
    ¬ read.IsSync := by
  obtain ⟨left, same⟩ := receiveSyncLoop_append (waiting_loop waiting)
  rw [syncAnswer_eq, StepInput.reading, same] at still
  exact receiveSyncLoop_single_waiting whole still

end Answer

/-! ## Sending a sync -/

section Sending

variable {network : Network} {chan : Nat} {memory : Nat → UInt8} {status ret : Int}
  {events : List NetEvent}

theorem header_soft (dest source : Mac) (data : List UInt8) :
    ethHlen ≤ (dest.toList ++ source.toList ++ htons ethPNcSync ++ data).length := by
  rw [List.length_append, List.length_append, List.length_append, Vector.length_toList,
    Vector.length_toList]
  exact Nat.le_add_right ethHlen _

theorem hProto_soft (dest source : Mac) (data : List UInt8) :
    hProto (dest.toList ++ source.toList ++ htons ethPNcSync ++ data) = htons ethPNcSync := by
  have front : (dest.toList ++ source.toList).length = 12 := by
    rw [List.length_append, Vector.length_toList, Vector.length_toList]
    rfl
  rw [hProto, Bytes.slice, List.append_assoc, ← front, List.drop_left]
  rfl

/-- The packet that the hard path sends: a header in a buffer of the least frame length. -/
def syncSkb (memory : Nat → UInt8) : SkBuff :=
  ⟨Bytes.overwrite (allocSkb ethZlen memory) 12 (htons ethPNcSync), ethHlen⟩

theorem syncSkb_length (memory : Nat → UInt8) : (syncSkb memory).head.length = ethZlen := by
  have room : 12 + (htons ethPNcSync).length ≤ (allocSkb ethZlen memory).length := by
    rw [allocSkb_length]
    decide
  rw [syncSkb, Bytes.overwrite_length room, allocSkb_length]

theorem addressed_syncSkb_length (memory : Nat → UInt8) :
    (Bytes.overwrite (syncSkb memory).head 0 broadcastMac.toList).length = ethZlen := by
  have room : 0 + broadcastMac.toList.length ≤ (syncSkb memory).head.length := by
    rw [syncSkb_length]
    decide
  rw [Bytes.overwrite_length room, syncSkb_length]

theorem syncFrame_length (dev : NetDevice) (memory : Nat → UInt8) :
    (hardFrame broadcastMac dev (syncSkb memory)).length = ethHlen := by
  have room : ethAlen + dev.devAddr.toList.length ≤
      (Bytes.overwrite (syncSkb memory).head 0 broadcastMac.toList).length := by
    rw [addressed_syncSkb_length, Vector.length_toList]
    decide
  rw [hardFrame, List.length_take, Bytes.overwrite_length room, addressed_syncSkb_length]
  rfl

/-- The addresses in front leave the protocol as it was written. -/
theorem hProto_syncFrame (dev : NetDevice) (memory : Nat → UInt8) :
    hProto (hardFrame broadcastMac dev (syncSkb memory)) = htons ethPNcSync := by
  have source : ethAlen + dev.devAddr.toList.length ≤ 12 := by
    rw [Vector.length_toList]
    decide
  have sourceRoom : ethAlen ≤
      (Bytes.overwrite (syncSkb memory).head 0 broadcastMac.toList).length := by
    rw [addressed_syncSkb_length]
    decide
  have protocolRoom : 12 ≤ (allocSkb ethZlen memory).length := by
    rw [allocSkb_length]
    decide
  have written : Bytes.slice (syncSkb memory).head 12 (htons ethPNcSync).length =
      htons ethPNcSync := Bytes.slice_overwrite_same protocolRoom
  have inside : 12 + 2 ≤ (syncSkb memory).len := Nat.le_refl _
  rw [hProto, hardFrame, Bytes.slice_take inside, Bytes.slice,
    Bytes.drop_overwrite_after source sourceRoom,
    Bytes.drop_overwrite_after (by decide) (Nat.zero_le _)]
  exact written

/-- What a master SYNC sends are whole sync frames. -/
theorem ncmSendSync_frames (sent : ncmSendSync network chan memory status = .ok (ret, events))
    {event : NetEvent} (member : event ∈ events) :
    ethHlen ≤ event.frame.length ∧ hProto event.frame = htons ethPNcSync := by
  unfold ncmSendSync at sent
  split at sent
  · obtain ⟨channel, _, sent⟩ := bind_eq_ok.mp sent
    split at sent
    · cases sent
      cases member
    · obtain ⟨⟨answer, slot, handed⟩, handing, finish⟩ := bind_eq_ok.mp sent
      cases finish
      unfold ncSendmsgHard at handing
      dsimp only at handing
      split at handing
      · next dev _ =>
          cases handing
          cases List.mem_singleton.mp member
          exact ⟨Nat.le_of_eq (syncFrame_length dev memory).symm, hProto_syncFrame dev memory⟩
      · cases handing
  · obtain ⟨channel, _, sent⟩ := bind_eq_ok.mp sent
    have sent := Except.ok.inj sent
    unfold ncSendmsg at sent
    split at sent
    · cases sent
      cases member
    · split at sent
      · cases sent
        cases member
      · cases sent
        cases List.mem_singleton.mp member
        exact ⟨header_soft _ _ _, hProto_soft _ _ _⟩

end Sending

end NetworkCode.Kernel
