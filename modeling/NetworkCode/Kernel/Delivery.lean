import Mathlib.Data.List.Nodup
import NetworkCode.Kernel.Reception
import NetworkCode.Kernel.Sysfs

/-!
# Each message is delivered once

The interpreter is the only thread that unlinks, so an entry that it has seen
stays linked until it unlinks it itself.  The count of every message is
balanced at each step: what was linked is on the queue or was copied, and the
message copied last is both until it is unlinked.
-/

namespace NetworkCode.Kernel

open Library

namespace Reception

/-- The entry that a RECEIVE in progress goes on with is linked. -/
def HandLinked (state : Reception) : Prop :=
  match state.phase with
  | .outside | .checked _ _ true => True
  | .checked chan _ false => state.queues chan ≠ []
  | .holding chan _ node | .copied chan _ node => node ∈ state.queues chan

/-- The message that has been copied and not yet unlinked. -/
def doubled (state : Reception) (chan : Nat) : List Node :=
  match state.phase with
  | .copied other _ node => if other = chan then [node] else []
  | _ => []

end Reception

/-! ## The entry in hand -/

section Linking

variable {queues : Nat → List Node} {chan other : Nat} {node entry : Node}

theorem mem_link (member : entry ∈ queues other) :
    entry ∈ Function.update queues chan (node :: queues chan) other := by
  rcases eq_or_ne other chan with rfl | distinct
  · rw [Function.update_self]
    exact List.mem_cons_of_mem _ member
  · rwa [Function.update_of_ne distinct]

theorem link_ne_nil (nonempty : queues other ≠ []) :
    Function.update queues chan (node :: queues chan) other ≠ [] := by
  obtain ⟨entry, member⟩ := List.exists_mem_of_ne_nil _ nonempty
  exact List.ne_nil_of_mem (mem_link member)

end Linking

theorem handLinked_link {state : Reception} (chan : Nat) (node : Node) (arrivals : Nat)
    (linked : state.HandLinked) :
    Reception.HandLinked { state with
      queues := Function.update state.queues chan (node :: state.queues chan)
      arrivals := arrivals } := by
  obtain ⟨channels, queues, varspace, before, phase⟩ := state
  cases phase with
  | outside => trivial
  | checked other var empty =>
      cases empty with
      | true => trivial
      | false => exact link_ne_nil linked
  | holding other var entry => exact mem_link linked
  | copied other var entry => exact mem_link linked

theorem handles_handLinked (state : Reception) (label : Handling) (after : Reception)
    (linked : state.HandLinked) (hstep : Handles state label after) : after.HandLinked := by
  cases hstep with
  | link msg exist => exact handLinked_link _ _ _ linked
  | guard exist here => exact linked
  | @check chan var exist here =>
      cases hqueue : state.queues chan with
      | nil => trivial
      | cons node rest => simp [Reception.HandLinked, hqueue]
  | refuse here => trivial
  | take here first => simp [Reception.HandLinked, first]
  | copy here written =>
      unfold Reception.HandLinked at linked
      rw [here] at linked
      exact linked
  | unlink here member => trivial

/-- The entry in hand stays linked in every interleaving. -/
theorem run_handLinked {channels : Nat} {varspace : Varspace} {history : List Handling}
    {state : Reception} (run : Run Handles (.start channels varspace) history state) :
    state.HandLinked :=
  run.invariant Reception.HandLinked handles_handLinked trivial

/-- The next step of a RECEIVE in progress is defined, if its copy is. -/
def Reception.Proceeds (state : Reception) : Prop :=
  match state.phase with
  | .outside => True
  | .checked chan _ true => ∃ after, Handles state (.refuse chan) after
  | .checked chan _ false => ∃ node after, Handles state (.take chan node) after
  | .holding chan var node =>
      (∃ varspace, setVariableData state.variableSpace var (node.msg.value.drop ethHlen)
        (node.msg.length - UInt32.ofNat ethHlen).toNat = .ok varspace) →
      ∃ after, Handles state (.copy chan var node) after
  | .copied chan _ node => ∃ after, Handles state (.unlink chan node) after

theorem Reception.HandLinked.proceeds {state : Reception} (linked : state.HandLinked) :
    state.Proceeds := by
  obtain ⟨channels, queues, varspace, arrivals, phase⟩ := state
  cases phase with
  | outside => trivial
  | checked chan var empty =>
      cases empty with
      | true => exact ⟨_, .refuse rfl⟩
      | false =>
          obtain ⟨node, rest, first⟩ := List.exists_cons_of_ne_nil linked
          exact ⟨node, _, .take rfl first⟩
  | holding chan var node => exact fun ⟨_, written⟩ => ⟨_, .copy rfl written⟩
  | copied chan var node => exact ⟨_, .unlink rfl linked⟩

/-! ## The balance -/

/-- The account of the messages that a history has moved. -/
structure Accounted (history : List Handling) (state : Reception) : Prop where
  fresh : ∀ chan, ∀ node ∈ linkedOn chan history, node.id < state.arrivals
  distinct : ∀ chan, (linkedOn chan history).Nodup
  balance : ∀ chan node,
    (linkedOn chan history).count node + (state.doubled chan).count node =
      (copiedOn chan history).count node + (state.queues chan).count node

theorem accounted_link {history : List Handling} {state : Reception} (chan : Nat)
    (msg : NcMessage) (accounted : Accounted history state) :
    Accounted (history ++ [.link chan ⟨state.arrivals, msg⟩])
      { state with
        queues := Function.update state.queues chan (⟨state.arrivals, msg⟩ :: state.queues chan)
        arrivals := state.arrivals + 1 } where
  fresh other node member := by
    rw [linkedOn_append, linkedOn_link, List.mem_append] at member
    rcases member with earlier | new
    · exact Nat.lt_succ_of_lt (accounted.fresh other node earlier)
    · split at new
      · cases List.mem_singleton.mp new
        exact Nat.lt_succ_self _
      · cases new
  distinct other := by
    rw [linkedOn_append, linkedOn_link]
    split
    · refine List.nodup_append.mpr ⟨accounted.distinct other, List.nodup_singleton _, ?_⟩
      rintro node earlier _ new rfl
      cases List.mem_singleton.mp new
      exact Nat.lt_irrefl _ (accounted.fresh other _ earlier)
    · rw [List.append_nil]
      exact accounted.distinct other
  balance other node := by
    have before := accounted.balance other node
    have noCopy : copiedOn other [.link chan ⟨state.arrivals, msg⟩] = [] := rfl
    rw [linkedOn_append, linkedOn_link, copiedOn_append, noCopy, List.append_nil,
      List.count_append]
    change _ + (state.doubled other).count node =
      _ + List.count node (Function.update state.queues chan _ other)
    rcases eq_or_ne chan other with rfl | distinct
    · rw [if_pos rfl, Function.update_self]
      simp only [List.count_cons, List.count_nil]
      omega
    · rw [if_neg distinct, Function.update_of_ne distinct.symm, List.count_nil]
      omega

/-- A step that neither links nor copies keeps the history's account. -/
theorem Accounted.keep {history : List Handling} {state after : Reception} {label : Handling}
    (accounted : Accounted history state) (noLink : ∀ chan, linkedOn chan [label] = [])
    (noCopy : ∀ chan, copiedOn chan [label] = []) (arrivals : after.arrivals = state.arrivals)
    (balance : ∀ chan node, (after.doubled chan).count node + (state.queues chan).count node =
      (state.doubled chan).count node + (after.queues chan).count node) :
    Accounted (history ++ [label]) after where
  fresh chan node member := by
    rw [linkedOn_append, noLink, List.append_nil] at member
    rw [arrivals]
    exact accounted.fresh chan node member
  distinct chan := by
    rw [linkedOn_append, noLink, List.append_nil]
    exact accounted.distinct chan
  balance chan node := by
    have before := accounted.balance chan node
    have moved := balance chan node
    rw [linkedOn_append, noLink, copiedOn_append, noCopy, List.append_nil, List.append_nil]
    omega

theorem accounted_copy {history : List Handling} {state : Reception} {chan var : Nat}
    {node : Node} (varspace : Varspace) (accounted : Accounted history state)
    (here : state.phase = .holding chan var node) :
    Accounted (history ++ [.copy chan var node])
      { state with variableSpace := varspace, phase := .copied chan var node } where
  fresh other entry member := by
    have noLink : linkedOn other [.copy chan var node] = [] := rfl
    rw [linkedOn_append, noLink, List.append_nil] at member
    exact accounted.fresh other entry member
  distinct other := by
    have noLink : linkedOn other [.copy chan var node] = [] := rfl
    rw [linkedOn_append, noLink, List.append_nil]
    exact accounted.distinct other
  balance other entry := by
    have before := accounted.balance other entry
    have noLink : linkedOn other [.copy chan var node] = [] := rfl
    have none : state.doubled other = [] := by rw [Reception.doubled, here]
    rw [none, List.count_nil] at before
    rw [linkedOn_append, noLink, List.append_nil, copiedOn_append, copiedOn_copy,
      List.count_append]
    change _ + List.count entry (if chan = other then [node] else []) = _
    dsimp only
    omega

theorem accounted_unlink {history : List Handling} {state : Reception} {chan var : Nat}
    {node : Node} (accounted : Accounted history state)
    (here : state.phase = .copied chan var node) (linked : node ∈ state.queues chan) :
    Accounted (history ++ [.unlink chan node])
      { state with
        queues := Function.update state.queues chan ((state.queues chan).erase node)
        phase := .outside } := by
  refine accounted.keep (fun _ => rfl) (fun _ => rfl) rfl ?_
  intro other entry
  have doubled : state.doubled other = if chan = other then [node] else [] := by
    rw [Reception.doubled, here]
  rw [doubled]
  change 0 + _ = _ + List.count entry (Function.update state.queues chan _ other)
  rcases eq_or_ne chan other with rfl | distinct
  · have present : 0 < (state.queues chan).count node := List.count_pos_iff.mpr linked
    rw [if_pos rfl, Function.update_self, List.count_erase]
    simp only [List.count_cons, List.count_nil]
    split
    next same =>
      rw [beq_iff_eq.mp same] at present
      omega
    next => omega
  · rw [if_neg distinct, Function.update_of_ne distinct.symm, List.count_nil]

theorem handles_accounted {history : List Handling} {state after : Reception} {label : Handling}
    (accounted : Accounted history state) (hstep : Handles state label after) :
    Accounted (history ++ [label]) after := by
  cases hstep with
  | link msg exist => exact accounted_link _ msg accounted
  | guard exist here =>
      exact accounted.keep (fun _ => rfl) (fun _ => rfl) rfl fun _ _ => rfl
  | check var exist here =>
      refine accounted.keep (fun _ => rfl) (fun _ => rfl) rfl ?_
      intro chan node
      simp [Reception.doubled, here]
  | refuse here =>
      refine accounted.keep (fun _ => rfl) (fun _ => rfl) rfl ?_
      intro chan node
      simp [Reception.doubled, here]
  | take here first =>
      refine accounted.keep (fun _ => rfl) (fun _ => rfl) rfl ?_
      intro chan node
      simp [Reception.doubled, here]
  | copy here written => exact accounted_copy _ accounted here
  | unlink here linked => exact accounted_unlink accounted here linked

/-- Every interleaving keeps the account. -/
theorem run_accounted {channels : Nat} {varspace : Varspace} {history : List Handling}
    {state : Reception} (run : Run Handles (.start channels varspace) history state) :
    Accounted history state := by
  induction run with
  | refl => exact ⟨nofun, fun _ => List.nodup_nil, fun _ _ => rfl⟩
  | tail _ hstep ih => exact handles_accounted ih hstep

/-- Every message linked on a channel is on its queue or was copied once, and
nothing else was copied. -/
structure DeliveredOnce (history : List Handling) (state : Reception) (chan : Nat) : Prop where
  kept : ∀ node ∈ linkedOn chan history,
    node ∈ state.queues chan ∨ (copiedOn chan history).count node = 1
  once : ∀ node, (copiedOn chan history).count node ≤ 1
  genuine : ∀ node ∈ copiedOn chan history, node ∈ linkedOn chan history
  /-- Only the message of a RECEIVE that has yet to unlink it is both. -/
  moved : ∀ node ∈ copiedOn chan history, node ∈ state.queues chan → node ∈ state.doubled chan

theorem Reception.HandLinked.doubled_le {state : Reception} (linked : state.HandLinked)
    (chan : Nat) (node : Node) :
    (state.doubled chan).count node ≤ (state.queues chan).count node := by
  obtain ⟨channels, queues, varspace, arrivals, phase⟩ := state
  cases phase with
  | outside | checked | holding => exact Nat.zero_le _
  | copied other var entry =>
      unfold Reception.doubled
      dsimp only
      split
      next same =>
        cases same
        have present : 0 < (queues chan).count entry := List.count_pos_iff.mpr linked
        rw [List.count_singleton]
        split
        next same =>
          rw [← beq_iff_eq.mp same]
          exact present
        next => exact Nat.zero_le _
      next => exact Nat.zero_le _

theorem Accounted.deliveredOnce {history : List Handling} {state : Reception}
    (accounted : Accounted history state) (linked : state.HandLinked) (chan : Nat) :
    DeliveredOnce history state chan where
  kept node member := by
    have present : 0 < (linkedOn chan history).count node := List.count_pos_iff.mpr member
    have balance := accounted.balance chan node
    have doubled := linked.doubled_le chan node
    have single := List.nodup_iff_count_le_one.mp (accounted.distinct chan) node
    rcases Nat.eq_zero_or_pos ((state.queues chan).count node) with queued | unqueued
    · exact .inr (by omega)
    · exact .inl (List.count_pos_iff.mp unqueued)
  once node := by
    have balance := accounted.balance chan node
    have doubled := linked.doubled_le chan node
    have single := List.nodup_iff_count_le_one.mp (accounted.distinct chan) node
    omega
  genuine node member := by
    have present : 0 < (copiedOn chan history).count node := List.count_pos_iff.mpr member
    have balance := accounted.balance chan node
    have doubled := linked.doubled_le chan node
    apply List.count_pos_iff.mp
    omega
  moved node copied queued := by
    have copied : 0 < (copiedOn chan history).count node := List.count_pos_iff.mpr copied
    have queued : 0 < (state.queues chan).count node := List.count_pos_iff.mpr queued
    have balance := accounted.balance chan node
    have single := List.nodup_iff_count_le_one.mp (accounted.distinct chan) node
    apply List.count_pos_iff.mp
    omega

/-! ## When a RECEIVE fails -/

/-- The interpreter is in a RECEIVE from the channel that saw the queue so. -/
def Phase.InReceive (chan : Nat) (empty : Bool) : Phase → Prop
  | outside => False
  | checked other _ seen => other = chan ∧ seen = empty
  | holding other _ _ | copied other _ _ => other = chan ∧ empty = false

theorem handles_inReceive {chan : Nat} {empty : Bool} (state : Reception) (label : Handling)
    (after : Reception) (going : label.returned = none)
    (inside : state.phase.InReceive chan empty) (hstep : Handles state label after) :
    after.phase.InReceive chan empty := by
  cases hstep with
  | link msg exist => exact inside
  | guard exist here => exact inside
  | check var exist here =>
      rw [here] at inside
      cases inside
  | refuse here => cases going
  | take here first =>
      rw [here] at inside
      obtain ⟨rfl, rfl⟩ := inside
      exact ⟨rfl, rfl⟩
  | copy here written =>
      rw [here] at inside
      exact inside
  | unlink here linked => cases going

/-- What a RECEIVE returns, given what its check has seen. -/
theorem handles_returned {chan : Nat} {empty : Bool} {state after : Reception} {label : Handling}
    {ret : Int} (inside : state.phase.InReceive chan empty) (hstep : Handles state label after)
    (returned : label.returned = some ret) : ret < 0 ↔ empty = true := by
  cases hstep with
  | link | guard | check | take | copy => cases returned
  | refuse here =>
      rw [here] at inside
      obtain ⟨-, rfl⟩ := inside
      cases returned
      decide
  | unlink here linked =>
      rw [here] at inside
      obtain ⟨-, rfl⟩ := inside
      cases returned
      decide

/-- Each RECEIVE fails exactly when its check has seen an empty queue. -/
def FailsWhenEmpty (history : List Handling) : Prop :=
  ∀ before chan var empty between label ret after,
    history = before ++ .check chan var empty :: (between ++ label :: after) →
    (∀ step ∈ between, step.returned = none) → label.returned = some ret →
    (ret < 0 ↔ empty = true)

theorem run_failsWhenEmpty {channels : Nat} {varspace : Varspace} {history : List Handling}
    {state : Reception} (run : Run Handles (.start channels varspace) history state) :
    FailsWhenEmpty history := by
  rintro before chan var empty between label ret after rfl going returned
  obtain ⟨seen, entered, -, hcheck, run⟩ := run.middle_inv
  obtain ⟨last, next, run, hreturn, -⟩ := run.middle_inv
  have inside : entered.phase.InReceive chan empty := by
    cases hcheck
    exact ⟨rfl, rfl⟩
  exact handles_returned (run.invariant_of_labels (fun state => state.phase.InReceive chan empty)
    _ handles_inReceive going inside) hreturn returned

/-! ## What the guard promises -/

theorem handles_guard {state after : Reception} {chan : Nat} {empty : Bool}
    (hstep : Handles state (.guard chan empty) after) :
    after = state ∧ state.phase = .outside ∧ empty = (state.queues chan).isEmpty := by
  cases hstep with
  | guard exist here => exact ⟨rfl, here, rfl⟩

theorem handles_check {state after : Reception} {chan var : Nat} {empty : Bool}
    (hstep : Handles state (.check chan var empty) after) :
    empty = (state.queues chan).isEmpty := by
  cases hstep with
  | check => rfl

/-- The queue holds an entry and the interpreter is not in a RECEIVE from the channel. -/
def Reception.Waiting (chan : Nat) (state : Reception) : Prop :=
  state.queues chan ≠ [] ∧ ∀ empty, ¬ state.phase.InReceive chan empty

theorem handles_waiting {chan : Nat} (state : Reception) (label : Handling) (after : Reception)
    (other : ¬ label.ChecksOn chan) (waiting : state.Waiting chan)
    (hstep : Handles state label after) : after.Waiting chan := by
  obtain ⟨nonempty, elsewhere⟩ := waiting
  cases hstep with
  | link msg exist => exact ⟨link_ne_nil nonempty, elsewhere⟩
  | guard exist here => exact ⟨nonempty, elsewhere⟩
  | check var exist here => exact ⟨nonempty, fun _ inside => other inside.1⟩
  | refuse here => exact ⟨nonempty, fun _ => id⟩
  | take here first =>
      refine ⟨nonempty, fun empty inside => elsewhere false ?_⟩
      rw [here]
      exact ⟨inside.1, rfl⟩
  | copy here written =>
      refine ⟨nonempty, fun empty inside => elsewhere false ?_⟩
      rw [here]
      exact ⟨inside.1, rfl⟩
  | @unlink source _ node here linked =>
      have distinct : chan ≠ source := by
        rintro rfl
        apply elsewhere false
        rw [here]
        exact ⟨rfl, rfl⟩
      refine ⟨?_, fun _ => id⟩
      change Function.update state.queues source _ chan ≠ []
      rwa [Function.update_of_ne distinct]

/-- After a guard that answers false for the channel, the next RECEIVE from it
finds a message. -/
def GuardHolds (history : List Handling) (chan : Nat) : Prop :=
  ∀ before between var empty after,
    history = before ++ .guard chan false :: (between ++ .check chan var empty :: after) →
    (∀ step ∈ between, ¬ step.ChecksOn chan) → empty = false

theorem run_guardHolds {channels : Nat} {varspace : Varspace} {history : List Handling}
    {state : Reception} (run : Run Handles (.start channels varspace) history state)
    (chan : Nat) : GuardHolds history chan := by
  rintro before between var empty after rfl others
  obtain ⟨seen, entered, -, hguard, run⟩ := run.middle_inv
  obtain ⟨last, next, run, hcheck, -⟩ := run.middle_inv
  obtain ⟨rfl, here, answer⟩ := handles_guard hguard
  have waiting : entered.Waiting chan := by
    refine ⟨List.isEmpty_eq_false_iff.mp answer.symm, fun empty inside => ?_⟩
    rw [here] at inside
    exact inside
  obtain ⟨nonempty, -⟩ :=
    run.invariant_of_labels (Reception.Waiting chan) _ handles_waiting others waiting
  rw [handles_check hcheck]
  exact List.isEmpty_eq_false_iff.mpr nonempty

/-- In every interleaving of arrivals with RECEIVEs, each message is delivered
once, a RECEIVE fails exactly on an empty queue, and a guard that sees a message
vouches for the next RECEIVE. -/
theorem messages_delivered_once {channels : Nat} {varspace : Varspace} {history : List Handling}
    {state : Reception} (run : Run Handles (.start channels varspace) history state) :
    (∀ chan, DeliveredOnce history state chan) ∧ FailsWhenEmpty history ∧
      (∀ chan, GuardHolds history chan) ∧ state.Proceeds :=
  ⟨(run_accounted run).deliveredOnce (run_handLinked run), run_failsWhenEmpty run,
    run_guardHolds run, (run_handLinked run).proceeds⟩

theorem zeroMessage_stored : ∃ varspace,
    setVariableData zeroInterpreter.variableSpace 3 (zeroMessage.value.drop ethHlen) 6 =
      .ok varspace := by
  have exist : 3 < maxVariables := by decide
  have inside : 6 ≤ (zeroMessage.value.drop ethHlen).length := by
    rw [List.length_drop, zeroMessage.value_length]
    decide
  have fits : 6 ≤ maxVarSizeBytes := by decide
  exact setVariableData_defined zeroInterpreter.variableSpace exist inside fits

/-- A message arrives after the check of a RECEIVE and is the one it takes. -/
theorem messages_delivered_once_overtaken :
    ∃ history state,
      Run Handles (.start 1 zeroInterpreter.variableSpace) history state ∧
      copiedOn 0 history = [⟨1, { zeroMessage with length := 20 }⟩] ∧
      (∀ chan, DeliveredOnce history state chan) ∧ FailsWhenEmpty history ∧
      (∀ chan, GuardHolds history chan) ∧ state.Proceeds := by
  have begun : Run Handles (.start 1 zeroInterpreter.variableSpace) [] _ := .refl _
  have linked := begun.tail (.link { zeroMessage with length := 20 } Nat.zero_lt_one)
  have guarded := linked.tail (.guard Nat.zero_lt_one rfl)
  have checked := guarded.tail (.check 3 Nat.zero_lt_one rfl)
  have overtaken := checked.tail (.link { zeroMessage with length := 20 } Nat.zero_lt_one)
  have taken := overtaken.tail (.take rfl rfl)
  obtain ⟨varspace, written⟩ := zeroMessage_stored
  have copied := taken.tail (.copy rfl written)
  have unlinked := copied.tail (.unlink rfl List.mem_cons_self)
  exact ⟨_, _, unlinked, rfl, messages_delivered_once unlinked⟩

end NetworkCode.Kernel
