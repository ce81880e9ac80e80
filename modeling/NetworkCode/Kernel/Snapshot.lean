import NetworkCode.Kernel.SendStatus

/-!
# The snapshot that CREATE takes

A slot holds the buffer that the last CREATE on it has filled, until a SEND
takes the buffer away or the network is set up anew.  The frame of a SEND
carries what the variable held when the CREATE was executed.
-/

namespace NetworkCode.Kernel

open Library Library.Checked

/-! ## The uses of a slot -/

/-- What fills or empties a slot. -/
inductive SlotUse where
  /-- A CREATE of a variable with this value. -/
  | created (value : List UInt8)
  /-- A SEND that succeeds. -/
  | sent
  /-- `init_network` -/
  | started
  deriving DecidableEq

/-- Whether a SEND returns INSTR_OK. -/
def sendSucceeds (interpreter : Interpreter) (instr : Instr) (input : StepInput) : Bool :=
  match handleSend interpreter instr input with
  | .ok executed => executed.result = .ok
  | .error _ => false

/-- What an instruction does with a slot. -/
def Instr.slotUse? (instr : Instr) (interpreter : Interpreter) (input : StepInput)
    (slot : Fin maxMessages) : Option SlotUse :=
  if instr.arg1.toNat = slot.val then
    if instr.opcode? = some .create then
      (getVariableData interpreter.variableSpace instr.arg0.toNat).toOption.map .created
    else if instr.opcode? = some .send ∧ sendSucceeds interpreter instr input then
      some .sent
    else
      none
  else
    none

/-- What a recorded step does with a slot. -/
def slotUse? (slot : Fin maxMessages) : NcmSysfs × Action × List Observation → Option SlotUse
  | (before, .instruction input, _) =>
      before.ncmInterp.fetch.toOption.bind fun instr =>
        instr.slotUse? before.ncmInterp input slot
  | (before, .storeControl buf _, _) =>
      if buf.take 3 = runCommand ∧ Startable before then some .started else none
  | _ => none

/-- The driver takes what the step hands to it. -/
def DriverAccepts : Action → Prop
  | .instruction input => input.txStatus = TxAnswer.ok.code
  | _ => True

/-- What a slot holds after its last use. -/
def SlotHolds (buffer : Option SkBuff) : Option SlotUse → Prop
  | some (.created value) =>
      value.length ≤ maxVarSizeBytes ∧ ∃ memory, buffer = some (createdBuffer memory value)
  | _ => buffer = none

/-! ## What moves no message out of a slot -/

section Slots

variable {network after : Network} {chan : Nat} {slot : Fin maxMessages}

theorem offers_slot {kmalloc : Nat → NcMessage} {chans : List Nat}
    {state state' : Network × NcMessage}
    (offered : chans.foldlM (offerToChannel kmalloc) state = .ok state') :
    state'.1.slot slot = state.1.slot slot := by
  refine foldlM_keeps (fun current => current.1.slot slot = state.1.slot slot)
    (fun current chan next same offered => ?_) rfl offered
  cases offerToChannel_cases offered with
  | links => exact same
  | passes => exact same

theorem receivingPass_slot {bound : Nat} {read : SockRead} {kmalloc : Nat → NcMessage}
    (received : receivingPass bound network read kmalloc = .ok after) :
    after.slot slot = network.slot slot := by
  cases receivingPass_cases received with
  | refuses => rfl
  | offers answer nonneg offered => exact offers_slot offered

theorem ncmReceiveMessageToVar_slot {varspace varspace' : Varspace} {varId : Nat} {ret : Int}
    (received : ncmReceiveMessageToVar network varspace chan varId = .ok (ret, after, varspace')) :
    after.slot slot = network.slot slot := by
  cases ncmReceiveMessageToVar_cases received with
  | emptyQueue => rfl
  | takes => rfl

theorem initNetwork_slot {params : NetParams} {env : NetEnv} {acquired : List Resource}
    (done : initNetwork network params env = .ok (after, acquired)) : after.slot slot = none := by
  obtain ⟨_, _, rfl⟩ := initNetwork_eq_ok done
  exact Vector.getElem_replicate slot.isLt

/-- CREATE fills its slot and no other. -/
theorem ncmCreateMessageFromVar_cases {long : LongWidth} {varspace : Varspace}
    {varId msgId : Nat} {memory : Nat → UInt8}
    (created : ncmCreateMessageFromVar long network varspace varId msgId memory = .ok after) :
    ∃ (filled : Fin maxMessages) (value : List UInt8), msgId = filled.val ∧
      getVariableData varspace varId = .ok value ∧
      after = network.setSlot filled (some (createdBuffer memory value)) := by
  obtain ⟨_, _, created⟩ := bind_eq_ok.mp created
  obtain ⟨value, copied, created⟩ := bind_eq_ok.mp created
  obtain ⟨_, sized, created⟩ := bind_eq_ok.mp created
  obtain ⟨-, rfl⟩ := storeSize_eq_ok.mp sized
  obtain ⟨slots, stored, finish⟩ := bind_eq_ok.mp created
  obtain ⟨bound, rfl⟩ := store_eq_ok.mp stored
  cases finish
  exact ⟨⟨msgId, bound⟩, value, rfl, copied, rfl⟩

end Slots

/-! ## What an instruction does with a slot -/

section Instructions

variable {long : LongWidth} {interpreter : Interpreter} {instr : Instr} {input : StepInput}
  {iteration : Iteration} {slot : Fin maxMessages} {last : Option SlotUse}

theorem slotUse?_other (other : instr.arg1.toNat ≠ slot.val) :
    instr.slotUse? interpreter input slot = none := by
  rw [Instr.slotUse?, if_neg other]

theorem slotUse?_of_opcode {opcode : Opcode} (decoded : instr.opcode? = some opcode)
    (notCreate : opcode ≠ .create) (notSend : opcode ≠ .send) :
    instr.slotUse? interpreter input slot = none := by
  rw [Instr.slotUse?, decoded]
  split
  · rw [if_neg fun same => notCreate (Option.some.inj same),
      if_neg fun both => notSend (Option.some.inj both.1)]
  · rfl

theorem slotUse?_create (decoded : instr.opcode? = some .create)
    (fills : instr.arg1.toNat = slot.val) {value : List UInt8}
    (copied : getVariableData interpreter.variableSpace instr.arg0.toNat = .ok value) :
    instr.slotUse? interpreter input slot = some (.created value) := by
  rw [Instr.slotUse?, if_pos fills, if_pos decoded, copied]
  rfl

theorem slotUse?_send (decoded : instr.opcode? = some .send)
    (takes : instr.arg1.toNat = slot.val) {executed : Executed}
    (ran : handleSend interpreter instr input = .ok executed) :
    instr.slotUse? interpreter input slot =
      if executed.result = .ok then some .sent else none := by
  have notCreate : instr.opcode? ≠ some .create := by
    rw [decoded]
    exact nofun
  rw [Instr.slotUse?, if_pos takes, if_neg notCreate, sendSucceeds, ran]
  simp [decoded]

/-- A SEND that fails is no use of any slot. -/
theorem slotUse?_failed (decoded : instr.opcode? = some .send) {executed : Executed}
    (ran : handleSend interpreter instr input = .ok executed) (failed : executed.result ≠ .ok) :
    instr.slotUse? interpreter input slot = none := by
  by_cases takes : instr.arg1.toNat = slot.val
  · rw [slotUse?_send decoded takes ran, if_neg failed]
  · exact slotUse?_other takes

theorem execute_create_slotHolds (decoded : instr.opcode? = some .create)
    (done : execute long interpreter instr input = .ok iteration)
    (holds : SlotHolds (interpreter.network.slot slot) last) :
    SlotHolds (iteration.interpreter.network.slot slot)
      ((instr.slotUse? interpreter input slot).or last) := by
  rw [execute_of_handler decoded rfl] at done
  obtain ⟨executed, ran, finish⟩ := bind_eq_ok.mp done
  obtain ⟨network, created, finish'⟩ := bind_eq_ok.mp ran
  cases finish'
  cases finish
  rw [Executed.handleResult_network]
  obtain ⟨filled, value, named, copied, rfl⟩ := ncmCreateMessageFromVar_cases created
  rcases eq_or_ne slot filled with rfl | distinct
  · rw [slotUse?_create decoded named copied]
    exact ⟨getVariableData_length_le copied, _, slot_setSlot_self⟩
  · have other : instr.arg1.toNat ≠ slot.val := fun same =>
      distinct (Fin.ext (same.symm.trans named))
    rw [slotUse?_other other, slot_setSlot_of_ne distinct]
    exact holds

/-- A SEND that hands its message to a driver that takes it succeeds and empties the slot. -/
theorem execute_send_slotHolds (decoded : instr.opcode? = some .send)
    (hard : interpreter.network.mode = .hard) (accepts : input.txStatus = TxAnswer.ok.code)
    (done : execute long interpreter instr input = .ok iteration)
    (holds : SlotHolds (interpreter.network.slot slot) last) :
    SlotHolds (iteration.interpreter.network.slot slot)
      ((instr.slotUse? interpreter input slot).or last) := by
  rw [execute_of_handler decoded rfl] at done
  obtain ⟨executed, ran, finish⟩ := bind_eq_ok.mp done
  have whole := ran
  obtain ⟨⟨ret, network, events⟩, sent, finish'⟩ := bind_eq_ok.mp ran
  cases finish
  rw [Executed.handleResult_network]
  rw [ncmSendMessage_of_hard hard] at sent
  cases ncmSendMessageHard_cases sent with
  | noDevice =>
      cases finish'
      rw [slotUse?_failed decoded whole (nofun : InstrResult.error ≠ .ok)]
      exact holds
  | emptySlot =>
      cases finish'
      rw [slotUse?_failed decoded whole (nofun : InstrResult.error ≠ .ok)]
      exact holds
  | handsOver found up bound filled =>
      have success : input.txStatus ≥ 0 := by
        rw [accepts]
        decide
      cases finish'
      dsimp only
      by_cases takes : instr.arg1.toNat = slot.val
      · rw [slotUse?_send decoded takes whole, if_pos success, if_pos rfl]
        have same : slot = ⟨instr.arg1.toNat, bound⟩ := Fin.ext takes.symm
        rw [same]
        exact Vector.getElem_set_self bound
      · have kept : (interpreter.network.clearSlot instr.arg1.toNat bound).slot slot =
            interpreter.network.slot slot := Vector.getElem_set_ne bound slot.isLt takes
        rw [slotUse?_other takes, kept]
        exact holds

/-- The instructions beside CREATE and SEND leave the slots alone. -/
theorem DataStep.keepsSlot {opcode : Opcode} {network : Network} {varspace : Varspace}
    (step : DataStep long interpreter instr input opcode network varspace)
    (notCreate : opcode ≠ .create) (notSend : opcode ≠ .send) :
    network.slot slot = interpreter.network.slot slot := by
  cases step with
  | leaves => rfl
  | creates => exact absurd rfl notCreate
  | sends => exact absurd rfl notSend
  | receives received => exact ncmReceiveMessageToVar_slot received

theorem execute_slotHolds (hard : interpreter.network.mode = .hard)
    (accepts : input.txStatus = TxAnswer.ok.code)
    (done : execute long interpreter instr input = .ok iteration)
    (holds : SlotHolds (interpreter.network.slot slot) last) :
    SlotHolds (iteration.interpreter.network.slot slot)
      ((instr.slotUse? interpreter input slot).or last) := by
  by_cases create : instr.opcode? = some .create
  · exact execute_create_slotHolds create done holds
  by_cases send : instr.opcode? = some .send
  · exact execute_send_slotHolds send hard accepts done holds
  have silent : instr.slotUse? interpreter input slot = none := by
    cases decoded : instr.opcode? with
    | none =>
        rw [Instr.slotUse?, decoded]
        simp
    | some opcode =>
        apply slotUse?_of_opcode decoded
        · rintro rfl
          exact create decoded
        · rintro rfl
          exact send decoded
  rw [silent]
  rcases execute_data done with ⟨same, _⟩ | ⟨opcode, decoded, step⟩
  · rw [same]
    exact holds
  · have kept : iteration.interpreter.network.slot slot = interpreter.network.slot slot := by
      apply step.keepsSlot
      · rintro rfl
        exact create decoded
      · rintro rfl
        exact send decoded
    rw [kept]
    exact holds

end Instructions

/-! ## Over a run -/

section Runs

variable {long : LongWidth} {before after sysfs : NcmSysfs} {slot : Fin maxMessages}
  {last : Option SlotUse}

/-- A write of `run` that finds the module stopped and configured sets up the network. -/
theorem step_starts {buf : List UInt8} {env : NetEnv} {shown : List Observation}
    (hstep : Step long before (.storeControl buf env, shown) after)
    (command : buf.take 3 = runCommand) (startable : Startable before) :
    ∃ acquired, initNetwork before.ncmInterp.network before.interpParams env =
      .ok (after.ncmInterp.network, acquired) := by
  simp only [Step, NcmSysfs.next] at hstep
  split at hstep
  · cases hstep
  · obtain ⟨stored, hstore, finish⟩ := bind_eq_ok.mp hstep
    cases finish
    unfold ncmSysfsStoreControl at hstore
    rw [if_pos command, if_pos startable] at hstore
    obtain ⟨interpreter, started, built⟩ := bind_eq_ok.mp hstore
    obtain ⟨⟨network, acquired⟩, initialised, made⟩ := bind_eq_ok.mp started
    cases made
    cases built
    exact ⟨acquired, initialised⟩

/-- A step leaves in a slot what its last use has put there. -/
theorem step_slotHolds {label : Action × List Observation} (hstep : Step long before label after)
    (hard : before.ncmInterp.network.mode = .hard) (accepts : DriverAccepts label.1)
    (holds : SlotHolds (before.ncmInterp.network.slot slot) last) :
    SlotHolds (after.ncmInterp.network.slot slot) ((slotUse? slot (before, label)).or last) := by
  obtain ⟨action, shown⟩ := label
  cases step_transition hstep with
  | storesCode buf memory =>
      rw [ncmSysfsStoreCode_ncmInterp]
      exact holds
  | storesParams buf nameMemory macMemory =>
      rw [ncmSysfsStoreParams_ncmInterp]
      exact holds
  | storesVar written => exact holds
  | @storesControl buf env _ idle controls =>
      by_cases starts : buf.take 3 = runCommand ∧ Startable before
      · obtain ⟨acquired, initialised⟩ := step_starts hstep starts.1 starts.2
        rw [slotUse?, if_pos starts, initNetwork_slot initialised]
        rfl
      · rw [slotUse?, if_neg starts]
        cases controls with
        | starts command startable initialised => exact absurd ⟨command, startable⟩ starts
        | tearsDown command running destroyed =>
            rw [destroyNetwork_eq_ok destroyed]
            exact holds
        | ignores => exact holds
  | schedules granted created => exact holds
  | @iterates input instr iteration looping fetched done =>
      rw [slotUse?, fetched]
      dsimp only
      rw [resume_network]
      exact execute_slotHolds hard accepts done holds
  | joins stopping => exact holds
  | receives receiving received =>
      dsimp only
      rw [receivingPass_slot received]
      exact holds

/-- In a run with accepting drivers, a slot holds what its last use has put there. -/
theorem run_slotHolds {records : List (NcmSysfs × Action × List Observation)}
    (run : Run (Recorded (Step long)) initModule records sysfs)
    (accepting : ∀ record ∈ records, DriverAccepts record.2.1) :
    SlotHolds (sysfs.ncmInterp.network.slot slot) (Run.latest (slotUse? slot) records) := by
  revert accepting
  refine (run.history (fun records sysfs => sysfs.ncmInterp.network.WellSet ∧
    ((∀ record ∈ records, DriverAccepts record.2.1) →
      SlotHolds (sysfs.ncmInterp.network.slot slot) (Run.latest (slotUse? slot) records))) ?_ ?_).2
  · refine ⟨⟨nofun, rfl, .inl rfl, rfl⟩, fun _ => ?_⟩
    exact Vector.getElem_replicate slot.isLt
  · rintro records middle ⟨before, label⟩ next - ⟨wellSet, earlier⟩ ⟨rfl, hstep⟩
    refine ⟨step_wellSet _ _ _ wellSet hstep, fun accepting => ?_⟩
    rw [Run.latest_concat]
    apply step_slotHolds hstep wellSet.mode_hard
    · exact accepting (before, label) (List.mem_append_right _ (List.mem_singleton_self _))
    · exact earlier fun record member => accepting record (List.mem_append_left _ member)

end Runs

/-! ## What a SEND transmits -/

/-- A broadcast frame of the module's protocol from the device, with the value as its payload. -/
structure Carries (dev : NetDevice) (value frame : List UInt8) : Prop where
  addresses : frame.take (ethAlen + ethAlen) = List.replicate ethAlen 0xFF ++ dev.devAddr.toList
  protocol : hProto frame = [0x90, 0x09]
  payload : frame.drop ethHlen = value
  length : frame.length = ethHlen + value.length

theorem take_variableFrame {dev : NetDevice} {memory : Nat → UInt8} {value : List UInt8} :
    (variableFrame dev memory value).take (ethAlen + ethAlen) =
      broadcastMac.toList ++ dev.devAddr.toList := by
  have destination : (Bytes.overwrite (createdBuffer memory value).head 0
      broadcastMac.toList).take broadcastMac.toList.length = broadcastMac.toList :=
    Bytes.take_overwrite_zero _ _
  have both : (Bytes.overwrite _ broadcastMac.toList.length dev.devAddr.toList).take
      (broadcastMac.toList.length + dev.devAddr.toList.length) = _ :=
    Bytes.take_overwrite_behind destination
  rw [Vector.length_toList, Vector.length_toList] at both
  have header : ethAlen + ethAlen ≤ (createdBuffer memory value).len :=
    Nat.le_trans (show ethAlen + ethAlen ≤ ethHlen by decide) (Nat.le_add_right _ _)
  rw [variableFrame, hardFrame, List.take_take, Nat.min_eq_left header]
  exact both

theorem variableFrame_carries {dev : NetDevice} {memory : Nat → UInt8} {value : List UInt8}
    (fits : value.length ≤ maxVarSizeBytes) :
    Carries dev value (variableFrame dev memory value) where
  addresses := take_variableFrame
  protocol := hProto_variableFrame fits
  payload := drop_variableFrame fits
  length := variableFrame_length fits

/-- A SEND succeeds exactly if the last use of its slot is a CREATE, and then its frame carries
what the variable held at that CREATE. -/
structure SendsSnapshot (last : Option SlotUse) (dev : NetDevice) (executed : Executed) : Prop where
  succeeds : executed.result = .ok ↔ ∃ value, last = some (.created value)
  carries : ∀ value, last = some (.created value) →
    ∃ frame, executed.events = [.network (.xmit dev frame TxAnswer.ok.code)] ∧
      Carries dev value frame

theorem handleSend_snapshot {interpreter : Interpreter} {instr : Instr} {input : StepInput}
    {channel : Channel} {dev : NetDevice} {slot : Fin maxMessages} {last : Option SlotUse}
    (found : interpreter.network.channel instr.arg0.toNat = .ok channel)
    (up : channel.dev = .device dev) (takes : instr.arg1.toNat = slot.val)
    (hard : interpreter.network.mode = .hard) (accepts : input.txStatus = TxAnswer.ok.code)
    (holds : SlotHolds (interpreter.network.slot slot) last) :
    ∃ executed, handleSend interpreter instr input = .ok executed ∧
      SendsSnapshot last dev executed := by
  have empty (absent : interpreter.network.slot slot = none)
      (notCreated : ∀ value, last ≠ some (.created value)) :
      ∃ executed, handleSend interpreter instr input = .ok executed ∧
        SendsSnapshot last dev executed := by
    refine ⟨_, handleSend_empty found up takes absent, ⟨nofun, ?_⟩, ?_⟩
    · rintro ⟨value, same⟩
      exact absurd same (notCreated value)
    · intro value same
      exact absurd same (notCreated value)
  match last with
  | some (.created value) =>
      obtain ⟨fits, memory, filled⟩ := holds
      have success : input.txStatus ≥ 0 := by
        rw [accepts]
        decide
      refine ⟨_, handleSend_filled found up takes hard filled, ⟨fun _ => ⟨value, rfl⟩, ?_⟩, ?_⟩
      · intro _
        exact if_pos success
      · intro other same
        cases same
        rw [accepts]
        exact ⟨_, rfl, variableFrame_carries fits⟩
  | some .sent => exact empty holds fun value => nofun
  | some .started => exact empty holds fun value => nofun
  | none => exact empty holds fun value => nofun

/-- Every CREATE of a variable into a slot has a meaning, and every SEND on a
channel with its device transmits the snapshot of the last CREATE on its slot. -/
structure TransmitsSnapshots (long : LongWidth)
    (records : List (NcmSysfs × Action × List Observation)) (sysfs : NcmSysfs) : Prop where
  creates : ∀ (create : Instr) (input : StepInput) (var : UInt32), Creates create var →
    var.toNat < maxVariables → ∃ created, execute long sysfs.ncmInterp create input = .ok created
  sends : ∀ (send : Instr) (input : StepInput) (channel : Channel) (dev : NetDevice)
    (slot : Fin maxMessages), sysfs.ncmInterp.network.channel send.arg0.toNat = .ok channel →
    channel.dev = .device dev → send.arg1.toNat = slot.val →
    DriverAccepts (.instruction input) →
    ∃ executed, handleSend sysfs.ncmInterp send input = .ok executed ∧
      SendsSnapshot (Run.latest (slotUse? slot) records) dev executed

/--
At the end of every run with accepting drivers: each CREATE takes a snapshot,
and a SEND on a channel with its device succeeds if and only if a CREATE on its
slot has been executed after the last SEND on it that succeeded and after the
last start, and its frame carries what the variable of the last such CREATE held
at that time, exactly if a `size_t` fits the `u32` that CREATE passes for one.
-/
theorem send_transmits_snapshot_iff {long : LongWidth} {sysfs : NcmSysfs}
    {records : List (NcmSysfs × Action × List Observation)}
    (run : Run (Recorded (Step long)) initModule records sysfs)
    (accepting : ∀ record ∈ records, DriverAccepts record.2.1) :
    TransmitsSnapshots long records sysfs ↔ long = .bits32 := by
  have held : getVariableData sysfs.ncmInterp.variableSpace (0 : UInt32).toNat = _ :=
    getVariableData_of_lt (by decide)
  constructor
  · intro snapshots
    have creates : Creates (.make .create 0 0 0 0) 0 :=
      ⟨Instr.opcode?_make .., rfl, by decide⟩
    have created := snapshots.creates _ (.atClock 0 0 0) 0 creates (by decide)
    exact (creates.defined_iff held).mp created
  · rintro rfl
    constructor
    · intro create input var creates exist
      exact (creates.defined_iff (getVariableData_of_lt exist)).mpr rfl
    · intro send input channel dev slot found up takes accepts
      have hard := (reachable_wellSet ⟨_, run.of_recorded⟩).mode_hard
      exact handleSend_snapshot found up takes hard accepts (run_slotHolds run accepting)

/-- A program that creates a message and sends it. -/
def createAndSend : List Instr := [.make .create 0 0 0 0, .make .send 0 0 0 0]

/-- The variable is written before and after the CREATE. -/
def createBetweenWrites : List Action :=
  loadAndRun createAndSend oneChannel .carded ++
    [.storeVar 0 [1, 2, 3], .instruction (.atClock 0 0 0), .storeVar 0 [9]]

/-- The frame of the SEND carries what was written before the CREATE. -/
theorem send_transmits_snapshot_iff_written : ∃ (sysfs : NcmSysfs) (executed : Executed)
    (frame : List UInt8), Reachable .bits32 sysfs ∧
      handleSend sysfs.ncmInterp (.make .send 0 0 0 0) (.atClock 0 0 0) = .ok executed ∧
      executed.result = .ok ∧
      executed.events = [.network (.xmit networkCard frame TxAnswer.ok.code)] ∧
      Carries networkCard [1, 2, 3] frame := by
  have done : ∃ sysfs labels channel,
      runFromInit .bits32 createBetweenWrites = .ok (sysfs, labels) ∧
      sysfs.ncmInterp.network.channel 0 = .ok channel ∧ channel.dev = .device networkCard :=
    ⟨_, _, _, rfl, rfl, rfl⟩
  obtain ⟨sysfs, labels, channel, done, found, up⟩ := done
  have last : Run.latest (slotUse? firstSlot) (Run.recordsOf
      (fun sysfs : NcmSysfs => sysfs.next .bits32) initModule createBetweenWrites) =
      some (.created [1, 2, 3]) := by decide +kernel
  have accepting : ∀ record ∈ Run.recordsOf (fun sysfs : NcmSysfs => sysfs.next .bits32)
      initModule createBetweenWrites, DriverAccepts record.2.1 := by
    intro record member
    have named := Run.mem_recordsOf member
    simp only [createBetweenWrites, loadAndRun, List.cons_append, List.nil_append, List.mem_cons,
      List.not_mem_nil, or_false] at named
    rcases named with same | same | same | same | same | same | same <;> rw [same]
    all_goals trivial
  have snapshots := (send_transmits_snapshot_iff (Run.recorded_of_carryOut done) accepting).mpr rfl
  obtain ⟨executed, ran, snapshot⟩ := snapshots.sends (.make .send 0 0 0 0) (.atClock 0 0 0)
    channel networkCard firstSlot found up rfl rfl
  obtain ⟨frame, events, carries⟩ := snapshot.carries _ last
  exact ⟨sysfs, executed, frame, ⟨labels, run_of_runFromInit done⟩, ran,
    snapshot.succeeds.mpr ⟨_, last⟩, events, carries⟩

/-- Where a `size_t` has 64 bits, CREATE writes behind its `u32`. -/
theorem create_stores_too_wide : ∃ sysfs labels, Run (Step .bits64) initModule labels sysfs ∧
    (∀ label ∈ labels, DriverAccepts label.1) ∧
    sysfs.ncmInterp.fetch = .ok (.make .create 0 0 0 0) ∧
    execute .bits64 sysfs.ncmInterp (.make .create 0 0 0 0) (.atClock 0 0 0) =
      .error (.wideStore 64) ∧
    ∀ records, ¬ TransmitsSnapshots .bits64 records sysfs := by
  have done : ∃ sysfs labels,
      runFromInit .bits64 (loadAndRun createAndSend oneChannel .carded) = .ok (sysfs, labels) ∧
      sysfs.ncmInterp.fetch = .ok (.make .create 0 0 0 0) ∧
      execute .bits64 sysfs.ncmInterp (.make .create 0 0 0 0) (.atClock 0 0 0) =
        .error (.wideStore 64) := ⟨_, _, rfl, rfl, rfl⟩
  obtain ⟨sysfs, labels, done, fetched, faults⟩ := done
  have accepting : ∀ label ∈ labels, DriverAccepts label.1 := by
    intro label member
    have named : label.1 ∈ labels.map Prod.fst := List.mem_map_of_mem member
    rw [Run.carryOut_actions done] at named
    simp only [loadAndRun, List.mem_cons, List.not_mem_nil, or_false] at named
    rcases named with same | same | same | same <;> rw [same]
    all_goals trivial
  refine ⟨sysfs, labels, run_of_runFromInit done, accepting, fetched, faults, ?_⟩
  intro records snapshots
  have creates : Creates (.make .create 0 0 0 0) 0 := ⟨Instr.opcode?_make .., rfl, by decide⟩
  obtain ⟨created, ran⟩ := snapshots.creates _ (.atClock 0 0 0) 0 creates (by decide)
  cases ran.symm.trans faults

end NetworkCode.Kernel
