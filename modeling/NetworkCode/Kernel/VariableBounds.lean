import NetworkCode.Kernel.NetworkFrame
import NetworkCode.Kernel.ReceivingPass

/-!
# No variable outgrows its buffer

`set_variable_data` copies as many bytes as it is told to.  Its two callers
compute the number from the size of a file and from the length of a frame;
under a bound on the one and a header in the other all copies fit.
-/

namespace NetworkCode.Kernel

open Library Library.Checked

/-- The arguments of a call of `set_variable_data`. -/
structure SetCall where
  varId : Nat
  data : List UInt8
  length : Nat

/-- The call that the next instruction makes, if it is a RECEIVE of a message. -/
def Interpreter.receiveCall? (interpreter : Interpreter) : Option SetCall :=
  match interpreter.fetch with
  | .error _ => none
  | .ok instr =>
      if instr.opcode? = some .receive then
        match interpreter.network.channel instr.arg0.toNat with
        | .error _ => none
        | .ok channel => channel.messageQueue.head?.map fun msg =>
            ⟨instr.arg1.toNat, msg.value.drop ethHlen,
              (msg.length - UInt32.ofNat ethHlen).toNat⟩
      else none

/-- The call of `set_variable_data` that an action makes, if any. -/
def NcmSysfs.setCall? (sysfs : NcmSysfs) : Action → Option SetCall
  | .storeVar var buf => some ⟨var, buf, buf.length⟩
  | .instruction _ => sysfs.ncmInterp.receiveCall?
  | _ => none

/-- The receiving thread would link what it reads into a queue. -/
def Network.Accepts (network : Network) (read : SockRead) : Prop :=
  hProto (network.ncMsg.read read).value = htons ethPNc ∧
    ∃ channel, network.channel 0 = .ok channel ∧
      channel.mac.toList = hSource (network.ncMsg.read read).value

/-- A write to a variable fits into it, and an accepted frame has a header. -/
def NcmSysfs.CopyFits (sysfs : NcmSysfs) : Action → Prop
  | .storeVar _ buf => buf.length ≤ maxVarSizeBytes
  | .arrival read _ => ∀ bytes, read = .frame bytes → sysfs.ncmInterp.network.Accepts read →
      ethHlen ≤ bytes.length
  | _ => True

def CopiesFit (sysfs : NcmSysfs) (label : Action × List Observation) : Prop :=
  sysfs.CopyFits label.1

/-- The message has a header and lies inside its buffer. -/
def NcMessage.Framed (msg : NcMessage) : Prop :=
  ethHlen ≤ msg.length.toNat ∧ msg.length.toNat ≤ ethDataLen

/-- All queued messages have a header. -/
def Network.Framed (network : Network) : Prop :=
  ∀ chan channel, network.channel chan = .ok channel → ∀ msg ∈ channel.messageQueue, msg.Framed

/-! ## What keeps the queues framed -/

namespace Network.Framed

variable {network after : Network} {chan : Nat} {queue : List NcMessage}

theorem of_table (framed : network.Framed) (same : after.table = network.table) :
    after.Framed := by
  intro chan channel found
  unfold Network.channel at found
  rw [same] at found
  exact framed chan channel found

theorem setQueue (framed : network.Framed) (chan : Nat) (all : ∀ msg ∈ queue, msg.Framed) :
    (network.setQueue chan queue).Framed := by
  intro other channel found
  rcases eq_or_ne chan other with rfl | distinct
  · obtain ⟨_, _, rfl⟩ := Network.channel_setQueue_self.mp found
    exact all
  · rw [Network.channel_setQueue_of_ne network queue distinct] at found
    exact framed other channel found

theorem of_empty {table : List Channel} (htable : network.table = some table)
    (empty : ∀ channel ∈ table, channel.messageQueue = []) : network.Framed := by
  intro chan channel found
  unfold Network.channel at found
  rw [htable] at found
  dsimp only at found
  split at found
  · cases found
  · next entry =>
      cases found
      rw [empty _ (List.mem_of_getElem? entry)]
      exact List.forall_mem_nil _

theorem of_released (released : network.table = none) : network.Framed := by
  intro chan channel found
  unfold Network.channel at found
  rw [released] at found
  cases found

end Network.Framed

theorem initChannels_empty {params : NetParams} {env : NetEnv} {count : Nat}
    {table : List Channel} {acquired : List Resource}
    (done : initChannels params env count = .ok (table, acquired)) :
    ∀ channel ∈ table, channel.messageQueue = [] := by
  induction count generalizing table acquired with
  | zero =>
      cases done
      exact List.forall_mem_nil _
  | succ count ih =>
      obtain ⟨⟨table', acquired'⟩, first, done⟩ := bind_eq_ok.mp done
      obtain ⟨⟨channel, more⟩, built, finish⟩ := bind_eq_ok.mp done
      cases finish
      intro entry member
      rcases List.mem_append.mp member with earlier | newest
      · exact ih first entry earlier
      · rw [List.mem_singleton.mp newest]
        obtain ⟨mac, _, built⟩ := bind_eq_ok.mp built
        obtain ⟨name, _, built⟩ := bind_eq_ok.mp built
        split at built <;> cases built <;> rfl

section Operations

variable {network after : Network} {chan msgId varId : Nat} {status ret : Int}
  {events : List NetEvent} {varspace varspace' : Varspace}

theorem ncmSendMessage_table
    (sent : ncmSendMessage network chan msgId status = .ok (ret, after, events)) :
    after.table = network.table := by
  unfold ncmSendMessage at sent
  split at sent
  · cases ncmSendMessageHard_cases sent with
    | noDevice | emptySlot | handsOver => rfl
  · rw [(ncmSendMessageSoft_cases sent).1]

theorem ncmReceiveMessageToVar_framed (framed : network.Framed)
    (received : ncmReceiveMessageToVar network varspace chan varId =
      .ok (ret, after, varspace')) : after.Framed := by
  cases ncmReceiveMessageToVar_cases received with
  | emptyQueue => exact framed
  | takes found queue stored =>
      refine framed.setQueue chan fun other member => framed chan _ found other ?_
      rw [queue]
      exact List.mem_cons_of_mem _ member

/-- A read that succeeds is a frame of the module's protocol. -/
theorem ncRcvmsg_nonneg {msg : NcMessage} {read : SockRead} {protocol : UInt16} {length : Int}
    (done : ncRcvmsg msg.value read protocol = .ok length) (nonneg : ¬ length < 0) :
    ∃ bytes, read = .frame bytes ∧ length = (min ethDataLen bytes.length : Nat) ∧
      hProto (msg.read read).value = htons protocol := by
  cases read with
  | failed n =>
      unfold ncRcvmsg kernelRecvmsg at done
      dsimp only at done
      rw [if_pos (Int.negSucc_lt_zero n)] at done
      cases done
      exact absurd (Int.negSucc_lt_zero n) nonneg
  | frame bytes =>
      have room : ¬ (kernelRecvmsg msg.value (.frame bytes)).2.length < ethHlen := by
        rw [kernelRecvmsg_length, msg.value_length]
        decide
      have copied : ¬ (kernelRecvmsg msg.value (.frame bytes)).1 < 0 :=
        Int.not_lt.mpr (Int.natCast_nonneg _)
      unfold ncRcvmsg at done
      dsimp only at done
      rw [if_neg copied, if_neg room] at done
      split at done
      · cases done
        exact absurd (show -ncEnotnc < 0 by decide) nonneg
      · next protocol =>
          cases done
          refine ⟨bytes, rfl, ?_, not_not.mp protocol⟩
          simp only [kernelRecvmsg, List.length_take, msg.value_length]

theorem receivingPass_framed {read : SockRead} {kmalloc : Nat → NcMessage}
    (framed : network.Framed)
    (header : ∀ bytes, read = .frame bytes → network.Accepts read → ethHlen ≤ bytes.length)
    (received : receivingPass maxChannels network read kmalloc = .ok after) :
    after.Framed := by
  cases receivingPass_cases received with
  | refuses => exact framed.of_table rfl
  | offers answer nonneg offered =>
      obtain ⟨bytes, rfl, rfl, protocol⟩ := ncRcvmsg_nonneg answer nonneg
      obtain ⟨state, first, last⟩ := bind_eq_ok.mp offered
      cases last
      cases offerToChannel_cases first with
      | links found address =>
          have long := header bytes rfl ⟨protocol, _, found, address⟩
          refine (framed.setQueue 0 ?_).of_table rfl
          intro msg member
          rcases List.mem_cons.mp member with rfl | earlier
          · have stored : (UInt32.ofNat (min ethDataLen bytes.length)).toNat =
                min ethDataLen bytes.length := by
              rw [UInt32.toNat_ofNat_of_lt']
              have small : ethDataLen < UInt32.size := by decide
              omega
            have short : ethHlen ≤ ethDataLen := by decide
            constructor
            · dsimp only [Int.toNat_natCast]
              rw [stored]
              exact Nat.le_min.mpr ⟨short, long⟩
            · dsimp only [Int.toNat_natCast]
              rw [stored]
              exact Nat.min_le_left _ _
          · exact framed 0 _ found msg earlier
      | passes => exact framed.of_table rfl

end Operations

/-! ## Instructions -/

section Instructions

variable {interpreter : Interpreter} {instr : Instr} {input : StepInput} {long : LongWidth}

theorem DataStep.framed {opcode : Opcode} {network : Network} {varspace : Varspace}
    (step : DataStep long interpreter instr input opcode network varspace)
    (framed : interpreter.network.Framed) : network.Framed := by
  cases step with
  | leaves => exact framed
  | creates created =>
      obtain ⟨slots, rfl⟩ := ncmCreateMessageFromVar_eq_ok created
      exact framed.of_table rfl
  | sends sent => exact framed.of_table (ncmSendMessage_table sent)
  | receives received => exact ncmReceiveMessageToVar_framed framed received

theorem execute_framed {iteration : Iteration} (framed : interpreter.network.Framed)
    (done : execute long interpreter instr input = .ok iteration) :
    iteration.interpreter.network.Framed := by
  rcases execute_data done with ⟨same, _⟩ | ⟨opcode, _, step⟩
  · rw [same]
    exact framed
  · exact step.framed framed

/-- The instruction leaves the variables alone, or makes its call. -/
theorem execute_calls {iteration : Iteration} (fetched : interpreter.fetch = .ok instr)
    (done : execute long interpreter instr input = .ok iteration) :
    iteration.interpreter.variableSpace = interpreter.variableSpace ∨
      ∃ call, interpreter.receiveCall? = some call ∧
        setVariableData interpreter.variableSpace call.varId call.data call.length =
          .ok iteration.interpreter.variableSpace := by
  rcases execute_data done with ⟨_, same⟩ | ⟨opcode, decoded, step⟩
  · exact .inl same
  · generalize iteration.interpreter.network = network at step
    generalize iteration.interpreter.variableSpace = varspace at step
    cases step with
    | leaves | creates | sends => exact .inl rfl
    | receives received =>
        cases ncmReceiveMessageToVar_cases received with
        | emptyQueue => exact .inl rfl
        | takes found queue wrote =>
            refine .inr ⟨⟨_, _, _⟩, ?_, wrote⟩
            unfold Interpreter.receiveCall?
            rw [fetched]
            dsimp only
            rw [if_pos decoded, found]
            dsimp only
            rw [queue]
            rfl

end Instructions

/-! ## Every run -/

theorem Moves.framed {long : LongWidth} {sysfs : NcmSysfs} {action : Action}
    {shown : List Observation} {interpreter : Interpreter}
    (moves : Moves long sysfs action shown interpreter)
    (framed : sysfs.ncmInterp.network.Framed) (fits : sysfs.CopyFits action) :
    interpreter.network.Framed := by
  cases moves with
  | stays | writes | schedules | joins => exact framed
  | receives _ received => exact receivingPass_framed framed fits received
  | iterates _ _ done =>
      rw [resume_network]
      exact execute_framed framed done
  | tearsDown _ destroyed =>
      rw [destroyNetwork_eq_ok destroyed]
      exact .of_released rfl
  | starts _ _ initialised =>
      obtain ⟨⟨table, acquired⟩, built, finish⟩ := bind_eq_ok.mp initialised
      cases finish
      exact .of_empty rfl (initChannels_empty built)

theorem run_framed {long : LongWidth} {labels : List (Action × List Observation)}
    {sysfs : NcmSysfs}
    (run : Run (Meeting (Step long) CopiesFit) initModule labels sysfs) :
    sysfs.ncmInterp.network.Framed :=
  run.invariant (fun sysfs => sysfs.ncmInterp.network.Framed)
    (fun _ _ _ framed hstep => (step_moves hstep.2).framed framed hstep.1) (.of_released rfl)

/-- The length that a RECEIVE computes for a framed message. -/
theorem NcMessage.Framed.payload_length {msg : NcMessage} (framed : msg.Framed) :
    (msg.length - UInt32.ofNat ethHlen).toNat = msg.length.toNat - ethHlen :=
  UInt32.toNat_sub_of_le _ _ (UInt32.le_iff_toNat_le.mpr framed.1)

theorem Interpreter.receiveCall?_eq_some {interpreter : Interpreter} {call : SetCall}
    (calls : interpreter.receiveCall? = some call) :
    ∃ instr channel msg rest, interpreter.fetch = .ok instr ∧
      instr.opcode? = some .receive ∧ interpreter.network.channel instr.arg0.toNat = .ok channel ∧
      channel.messageQueue = msg :: rest ∧ call = ⟨instr.arg1.toNat, msg.value.drop ethHlen,
        (msg.length - UInt32.ofNat ethHlen).toNat⟩ := by
  unfold receiveCall? at calls
  split at calls
  · cases calls
  · next instr fetched =>
      split at calls
      · next decoded =>
          split at calls
          · cases calls
          · next channel found =>
              cases queue : channel.messageQueue with
              | nil =>
                  rw [queue] at calls
                  cases calls
              | cons msg rest =>
                  rw [queue] at calls
                  cases calls
                  exact ⟨instr, channel, msg, rest, fetched, decoded, found, queue, rfl⟩
      · cases calls

theorem setCall_within {sysfs : NcmSysfs} {action : Action} {call : SetCall}
    (framed : sysfs.ncmInterp.network.Framed) (fits : sysfs.CopyFits action)
    (calls : sysfs.setCall? action = some call) :
    call.length ≤ maxVarSizeBytes ∧ call.length ≤ call.data.length := by
  cases action with
  | storeVar var buf =>
      cases calls
      exact ⟨fits, Nat.le_refl _⟩
  | instruction input =>
      obtain ⟨instr, channel, msg, rest, _, _, found, queue, rfl⟩ :=
        Interpreter.receiveCall?_eq_some calls
      have inside := framed _ channel found msg (queue ▸ List.mem_cons_self)
      dsimp only
      rw [inside.payload_length, List.length_drop, msg.value_length]
      have frame : msg.length.toNat ≤ maxVarSizeBytes := inside.2
      exact ⟨Nat.le_trans (Nat.sub_le _ _) frame, Nat.sub_le_sub_right inside.2 _⟩
  | storeCode | storeParams | storeControl | setScheduler | stopped | arrival => cases calls

/-- Only the calls write variables. -/
theorem Moves.calls {long : LongWidth} {sysfs : NcmSysfs} {action : Action}
    {shown : List Observation} {interpreter : Interpreter}
    (moves : Moves long sysfs action shown interpreter) :
    interpreter.variableSpace = sysfs.ncmInterp.variableSpace ∨
      ∃ call, sysfs.setCall? action = some call ∧
        setVariableData sysfs.ncmInterp.variableSpace call.varId call.data call.length =
          .ok interpreter.variableSpace := by
  cases moves with
  | stays | schedules | joins | receives | tearsDown | starts => exact .inl rfl
  | writes written => exact .inr ⟨⟨_, _, _⟩, rfl, written⟩
  | @iterates input instr iteration _ fetched done =>
      rw [resume_variableSpace]
      exact execute_calls fetched done

/-- In every run whose writes fit and whose accepted frames have a header, all
copies into variables fit, and so does each variable into a frame. -/
theorem variables_within_buffers {long : LongWidth} {labels : List (Action × List Observation)}
    {sysfs : NcmSysfs}
    (run : Run (Meeting (Step long) CopiesFit) initModule labels sysfs) :
    (∀ action call, sysfs.CopyFits action → sysfs.setCall? action = some call →
      call.length ≤ maxVarSizeBytes ∧ call.length ≤ call.data.length) ∧
    ∀ var ∈ sysfs.ncmInterp.variableSpace,
      (∀ index, (var.buffer index).length ≤ maxVarSizeBytes) ∧
        ethHlen + var.value.length ≤ ethFrameLen := by
  refine ⟨fun action call fits calls => setCall_within (run_framed run) fits calls, ?_⟩
  intro var _
  exact ⟨fun index => (var.buffer index).length_le,
    Nat.add_le_add_left var.value_length_le ethHlen⟩

/-- After a write of a full variable another one fits. -/
theorem variables_within_buffers_full :
    ∃ (sysfs : NcmSysfs) (call : SetCall),
      sysfs.setCall? (.storeVar 0 (List.replicate maxVarSizeBytes 1)) = some call ∧
      call.length ≤ maxVarSizeBytes ∧ call.length ≤ call.data.length := by
  have full : (List.replicate maxVarSizeBytes (1 : UInt8)).length ≤ maxVarSizeBytes := by simp
  obtain ⟨varspace, written⟩ := setVariableData_defined initModule.ncmInterp.variableSpace
    (show 0 < maxVariables by decide) (Nat.le_refl _) full
  have hstep : Step .bits64 initModule
      (.storeVar 0 (List.replicate maxVarSizeBytes (1 : UInt8)), [])
      { initModule with ncmInterp := { initModule.ncmInterp with variableSpace := varspace } } := by
    change (ncmSysfsVarStore initModule 0 _ >>= _) = _
    rw [ncmSysfsVarStore, written]
    rfl
  obtain ⟨last, run⟩ : ∃ last, Run (Meeting (Step .bits64) CopiesFit) initModule _ last :=
    ⟨_, run_advance _ (.refl initModule) hstep full⟩
  exact ⟨last, _, rfl, (variables_within_buffers run).1 (.storeVar 0 _) _ full rfl⟩

/-- One page into a variable file runs past the buffer. -/
theorem storeVar_overflows :
    ¬ ∀ (sysfs : NcmSysfs) (var : Nat) (buf : List UInt8) (call : SetCall),
      Reachable .bits64 sysfs → buf.length ≤ 4096 →
      sysfs.setCall? (.storeVar var buf) = some call → call.length ≤ maxVarSizeBytes := by
  intro claim
  have page : (List.replicate 4096 (1 : UInt8)).length = 4096 := List.length_replicate
  have fits := claim initModule 0 (List.replicate 4096 1) _ ⟨[], .refl _⟩ (Nat.le_of_eq page) rfl
  dsimp only at fits
  rw [page] at fits
  exact absurd fits (by decide)

end NetworkCode.Kernel
