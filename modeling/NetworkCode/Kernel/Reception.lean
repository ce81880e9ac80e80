import Mathlib.Logic.Function.Basic
import NetworkCode.Kernel.Network
import NetworkCode.Library.Runs

/-!
# Two threads on the message queues

The receiving thread links arrived messages into the queues while the
interpreter runs `ncm_receive_message_to_var`, which takes the lock of the
channel three times and releases it in between.  Each locked section is one
step here, and so is the copy that runs without the lock.
-/

namespace NetworkCode.Kernel

open Library

/-- A list entry: the message, with the number of its arrival for its address. -/
structure Node where
  id : Nat
  msg : NcMessage
  deriving DecidableEq

/-- Where the interpreter is in `ncm_receive_message_to_var`. -/
inductive Phase where
  | outside
  /-- After the first locked section. -/
  | checked (chan var : Nat) (empty : Bool)
  /-- After the second one, with `nc_msg`. -/
  | holding (chan var : Nat) (node : Node)
  /-- After `set_variable_data`. -/
  | copied (chan var : Nat) (node : Node)
  deriving DecidableEq

/-- What the two threads share, and where the interpreter is. -/
structure Reception where
  channels : Nat
  queues : Nat → List Node
  variableSpace : Varspace
  arrivals : Nat
  phase : Phase

/-- What a step shows. -/
inductive Handling where
  /-- The receiving thread links a new message. -/
  | link (chan : Nat) (node : Node)
  /-- The guard for an empty receive buffer is tested. -/
  | guard (chan : Nat) (empty : Bool)
  | check (chan var : Nat) (empty : Bool)
  | refuse (chan : Nat)
  | take (chan : Nat) (node : Node)
  | copy (chan var : Nat) (node : Node)
  | unlink (chan : Nat) (node : Node)
  deriving DecidableEq

/-- One step of either thread. -/
inductive Handles : Reception → Handling → Reception → Prop where
  | link {state : Reception} {chan : Nat} (msg : NcMessage) (exist : chan < state.channels) :
      Handles state (.link chan ⟨state.arrivals, msg⟩)
        { state with
          queues := Function.update state.queues chan
            (⟨state.arrivals, msg⟩ :: state.queues chan)
          arrivals := state.arrivals + 1 }
  | guard {state : Reception} {chan : Nat} (exist : chan < state.channels)
      (here : state.phase = .outside) :
      Handles state (.guard chan (state.queues chan).isEmpty) state
  | check {state : Reception} {chan : Nat} (var : Nat) (exist : chan < state.channels)
      (here : state.phase = .outside) :
      Handles state (.check chan var (state.queues chan).isEmpty)
        { state with phase := .checked chan var (state.queues chan).isEmpty }
  /-- The queue was empty: return `-NC_ENOMSG`. -/
  | refuse {state : Reception} {chan var : Nat} (here : state.phase = .checked chan var true) :
      Handles state (.refuse chan) { state with phase := .outside }
  /-- `list_first_entry`, which needs an entry. -/
  | take {state : Reception} {chan var : Nat} {node : Node} {rest : List Node}
      (here : state.phase = .checked chan var false) (first : state.queues chan = node :: rest) :
      Handles state (.take chan node) { state with phase := .holding chan var node }
  | copy {state : Reception} {chan var : Nat} {node : Node} {varspace : Varspace}
      (here : state.phase = .holding chan var node)
      (written : setVariableData state.variableSpace var (node.msg.value.drop ethHlen)
        (node.msg.length - UInt32.ofNat ethHlen).toNat = .ok varspace) :
      Handles state (.copy chan var node)
        { state with variableSpace := varspace, phase := .copied chan var node }
  /-- `list_del`, which needs a linked entry; return 0. -/
  | unlink {state : Reception} {chan var : Nat} {node : Node}
      (here : state.phase = .copied chan var node) (linked : node ∈ state.queues chan) :
      Handles state (.unlink chan node)
        { state with
          queues := Function.update state.queues chan ((state.queues chan).erase node)
          phase := .outside }

/-- The state right after `init_network`. -/
def Reception.start (channels : Nat) (varspace : Varspace) : Reception where
  channels := channels
  queues := fun _ => []
  variableSpace := varspace
  arrivals := 0
  phase := .outside

/-! ## What a history contains -/

/-- The messages that a history links into the queue of a channel. -/
def linkedOn (chan : Nat) (history : List Handling) : List Node :=
  history.filterMap fun
    | .link other node => if other = chan then some node else none
    | _ => none

/-- The messages that RECEIVEs from a channel copy. -/
def copiedOn (chan : Nat) (history : List Handling) : List Node :=
  history.filterMap fun
    | .copy other _ node => if other = chan then some node else none
    | _ => none

/-- The value with which a step ends a RECEIVE. -/
def Handling.returned : Handling → Option Int
  | refuse _ => some (-ncEnomsg)
  | unlink _ _ => some 0
  | _ => none

/-- The step is one of the receiving thread. -/
def Handling.IsLink : Handling → Prop
  | link _ _ => True
  | _ => False

/-- The step begins a RECEIVE from the channel. -/
def Handling.ChecksOn (chan : Nat) : Handling → Prop
  | check other _ _ => other = chan
  | _ => False

section Histories

variable {chan : Nat} {history : List Handling} {label : Handling}

theorem linkedOn_append (later : List Handling) :
    linkedOn chan (history ++ later) = linkedOn chan history ++ linkedOn chan later :=
  List.filterMap_append

theorem copiedOn_append (later : List Handling) :
    copiedOn chan (history ++ later) = copiedOn chan history ++ copiedOn chan later :=
  List.filterMap_append

theorem linkedOn_link (other : Nat) (node : Node) :
    linkedOn chan [.link other node] = if other = chan then [node] else [] := by
  unfold linkedOn
  split <;> simp_all

theorem copiedOn_copy (other var : Nat) (node : Node) :
    copiedOn chan [.copy other var node] = if other = chan then [node] else [] := by
  unfold copiedOn
  split <;> simp_all

end Histories

end NetworkCode.Kernel
