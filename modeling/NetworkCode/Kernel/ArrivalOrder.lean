import NetworkCode.Kernel.Delivery

/-!
# The order of reception

`list_add` links at the head of the list and `list_first_entry` takes from the
head, so a RECEIVE takes the newest message.  Messages come out in the order of
their arrival as long as no RECEIVE finds two of them.
-/

namespace NetworkCode.Kernel

open Library

/-- If one message arrived before another and the other has been received, then
the one has been received before it. -/
def ReceivedInOrder (history : List Handling) (chan : Nat) : Prop :=
  ∀ first second, [first, second].Sublist (linkedOn chan history) →
    second ∈ copiedOn chan history → [first, second].Sublist (copiedOn chan history)

/-- A RECEIVE from the channel takes its message while no other is on the queue. -/
def TakesAlone (chan : Nat) (state : Reception) (label : Handling) : Prop :=
  ∀ node, label = .take chan node → (state.queues chan).length ≤ 1

/-- The messages of a channel not yet received lie behind those received. -/
structure Ordered (history : List Handling) (state : Reception) (chan : Nat) : Prop where
  behind : ∃ pending,
    linkedOn chan history = copiedOn chan history ++ pending.reverse ∧
    state.queues chan = pending ++ state.doubled chan
  oldest : ∀ var node, state.phase = .holding chan var node →
    ∃ newer, state.queues chan = newer ++ [node]
  doubled : ∀ node ∈ state.doubled chan, node ∈ copiedOn chan history

namespace Ordered

variable {history : List Handling} {state : Reception} {chan other var : Nat} {node : Node}

theorem keep {after : Reception} {label : Handling} (ordered : Ordered history state chan)
    (noLink : linkedOn chan [label] = []) (noCopy : copiedOn chan [label] = [])
    (queues : after.queues = state.queues) (before : state.doubled chan = [])
    (none : after.doubled chan = [])
    (oldest : ∀ var node, after.phase = .holding chan var node →
      ∃ newer, after.queues chan = newer ++ [node]) :
    Ordered (history ++ [label]) after chan where
  behind := by
    obtain ⟨pending, linked, queue⟩ := ordered.behind
    refine ⟨pending, ?_, ?_⟩
    · rw [linkedOn_append, noLink, copiedOn_append, noCopy, List.append_nil, List.append_nil]
      exact linked
    · rw [queues, none, queue, before]
  oldest := oldest
  doubled node member := by
    rw [none] at member
    cases member

theorem link (ordered : Ordered history state chan) (other : Nat) (node : Node)
    (arrivals : Nat) :
    Ordered (history ++ [.link other node])
      { state with
        queues := Function.update state.queues other (node :: state.queues other)
        arrivals := arrivals } chan where
  behind := by
    obtain ⟨pending, linked, queue⟩ := ordered.behind
    have noCopy : copiedOn chan [.link other node] = [] := rfl
    rw [linkedOn_append, linkedOn_link, copiedOn_append, noCopy, List.append_nil, linked]
    change ∃ pending', _ ∧ Function.update state.queues other _ chan = _ ++ state.doubled chan
    rcases eq_or_ne other chan with rfl | distinct
    · refine ⟨node :: pending, ?_, ?_⟩
      · rw [if_pos rfl, List.reverse_cons, List.append_assoc]
      · rw [Function.update_self, queue, List.cons_append]
    · refine ⟨pending, ?_, ?_⟩
      · rw [if_neg distinct, List.append_nil]
      · rw [Function.update_of_ne distinct.symm, queue]
  oldest var entry here := by
    obtain ⟨newer, queue⟩ := ordered.oldest var entry here
    change ∃ newer, Function.update state.queues other _ chan = _
    rcases eq_or_ne other chan with rfl | distinct
    · refine ⟨node :: newer, ?_⟩
      rw [Function.update_self, queue, List.cons_append]
    · refine ⟨newer, ?_⟩
      rw [Function.update_of_ne distinct.symm, queue]
  doubled entry member := by
    rw [copiedOn_append]
    exact List.mem_append_left _ (ordered.doubled entry member)

theorem copy (ordered : Ordered history state chan) (here : state.phase = .holding other var node)
    (varspace : Varspace) :
    Ordered (history ++ [.copy other var node])
      { state with variableSpace := varspace, phase := .copied other var node } chan where
  behind := by
    obtain ⟨pending, linked, queue⟩ := ordered.behind
    have none : state.doubled chan = [] := by rw [Reception.doubled, here]
    have noLink : linkedOn chan [.copy other var node] = [] := rfl
    rw [none, List.append_nil] at queue
    rw [linkedOn_append, noLink, List.append_nil, copiedOn_append, copiedOn_copy, linked]
    change ∃ pending', _ ∧ state.queues chan = _ ++ (if other = chan then [node] else [])
    rcases eq_or_ne other chan with rfl | distinct
    · obtain ⟨newer, last⟩ := ordered.oldest var node here
      refine ⟨newer, ?_, ?_⟩
      · rw [← queue, last, if_pos rfl, List.reverse_append, List.append_assoc]
        rfl
      · rw [last, if_pos rfl]
    · refine ⟨pending, ?_, ?_⟩
      · rw [if_neg distinct, List.append_nil]
      · rw [queue, if_neg distinct, List.append_nil]
  oldest := nofun
  doubled entry member := by
    rw [copiedOn_append, copiedOn_copy]
    exact List.mem_append_right _ member

theorem unlink (ordered : Ordered history state chan) (accounted : Accounted history state)
    (here : state.phase = .copied other var node) :
    Ordered (history ++ [.unlink other node])
      { state with
        queues := Function.update state.queues other ((state.queues other).erase node)
        phase := .outside } chan where
  behind := by
    obtain ⟨pending, linked, queue⟩ := ordered.behind
    have doubled : state.doubled chan = if other = chan then [node] else [] := by
      rw [Reception.doubled, here]
    have noLink : linkedOn chan [.unlink other node] = [] := rfl
    have noCopy : copiedOn chan [.unlink other node] = [] := rfl
    refine ⟨pending, ?_, ?_⟩
    · rw [linkedOn_append, noLink, copiedOn_append, noCopy, List.append_nil, List.append_nil]
      exact linked
    · change Function.update state.queues other _ chan = pending ++ []
      rcases eq_or_ne other chan with rfl | distinct
      · rw [if_pos rfl] at doubled
        have received : node ∈ copiedOn other history := by
          apply ordered.doubled
          rw [doubled]
          exact List.mem_singleton_self node
        have single := accounted.distinct other
        rw [linked] at single
        have later : node ∉ pending := fun member =>
          (List.nodup_append.mp single).2.2 node received node (List.mem_reverse.mpr member) rfl
        rw [Function.update_self, queue, doubled, List.erase_append_right _ later,
          List.erase_cons_head]
      · rw [if_neg distinct] at doubled
        rw [Function.update_of_ne distinct.symm, queue, doubled]
  oldest := nofun
  doubled := nofun

end Ordered

theorem handles_ordered {history : List Handling} {state after : Reception} {label : Handling}
    {chan : Nat} (ordered : Ordered history state chan) (accounted : Accounted history state)
    (alone : TakesAlone chan state label) (hstep : Handles state label after) :
    Ordered (history ++ [label]) after chan := by
  cases hstep with
  | link msg exist => exact ordered.link _ _ _
  | guard exist here =>
      have none : state.doubled chan = [] := by rw [Reception.doubled, here]
      exact ordered.keep rfl rfl rfl none none ordered.oldest
  | check var exist here =>
      have none : state.doubled chan = [] := by rw [Reception.doubled, here]
      exact ordered.keep rfl rfl rfl none rfl fun _ _ holding => by cases holding
  | refuse here =>
      have none : state.doubled chan = [] := by rw [Reception.doubled, here]
      exact ordered.keep rfl rfl rfl none rfl fun _ _ holding => by cases holding
  | @take _ _ node rest here first =>
      have none : state.doubled chan = [] := by rw [Reception.doubled, here]
      refine ordered.keep rfl rfl rfl none rfl ?_
      intro var entry same
      cases same
      have short := alone node rfl
      rw [first, List.length_cons] at short
      obtain rfl : rest = [] := List.eq_nil_of_length_eq_zero (by omega)
      exact ⟨[], first⟩
  | copy here written => exact ordered.copy here _
  | unlink here linked => exact ordered.unlink accounted here

theorem run_ordered {channels : Nat} {varspace : Varspace} {history : List Handling}
    {state : Reception} {chan : Nat}
    (run : Run (Meeting Handles (TakesAlone chan)) (.start channels varspace) history state) :
    Ordered history state chan := by
  induction run with
  | refl => exact ⟨⟨[], rfl, rfl⟩, nofun, nofun⟩
  | tail run hstep ih =>
      exact handles_ordered ih (run_accounted run.of_meeting) hstep.1 hstep.2

/-- The first part of a list without duplicates keeps every pair whose second
entry it has. -/
theorem pair_sublist_left {α : Type} {first second : α} {left right : List α}
    (distinct : (left ++ right).Nodup) (pair : [first, second].Sublist (left ++ right))
    (member : second ∈ left) : [first, second].Sublist left := by
  obtain ⟨before, after, split, inLeft, inRight⟩ := List.sublist_append_iff.mp pair
  rcases after.eq_nil_or_concat with rfl | ⟨init, last, rfl⟩
  · rw [List.append_nil] at split
    rwa [split]
  · rw [List.concat_eq_append] at split inRight
    have split : [first] ++ [second] = before ++ init ++ [last] := by
      rw [List.append_assoc]
      exact split
    obtain ⟨-, same⟩ := List.append_inj' split rfl
    cases same
    have inRight : second ∈ right := inRight.subset (List.mem_append_right _ List.mem_cons_self)
    exact ((List.nodup_append.mp distinct).2.2 second member second inRight rfl).elim

/-- Where every RECEIVE from a channel finds one message, its messages are received
in the order of their arrival. -/
theorem messages_received_in_order {channels : Nat} {varspace : Varspace}
    {history : List Handling} {state : Reception} {chan : Nat}
    (run : Run (Meeting Handles (TakesAlone chan)) (.start channels varspace) history state) :
    ReceivedInOrder history chan := by
  intro first second pair received
  obtain ⟨pending, linked, -⟩ := (run_ordered run).behind
  have distinct := (run_accounted run.of_meeting).distinct chan
  rw [linked] at pair distinct
  exact pair_sublist_left distinct pair received

/-- The second message arrives after the RECEIVE of the first. -/
theorem messages_received_in_order_alternating :
    ∃ history state,
      Run (Meeting Handles (TakesAlone 0)) (.start 1 zeroInterpreter.variableSpace) history state ∧
      (linkedOn 0 history).length = 2 ∧ (copiedOn 0 history).length = 1 ∧
      ReceivedInOrder history 0 := by
  obtain ⟨varspace, written⟩ := zeroMessage_stored
  have begun : Run (Meeting Handles (TakesAlone 0)) (.start 1 zeroInterpreter.variableSpace) [] _ :=
    .refl _
  have linked := begun.tail
    ⟨by rintro _ ⟨⟩, .link { zeroMessage with length := 20 } Nat.zero_lt_one⟩
  have checked := linked.tail ⟨by rintro _ ⟨⟩, .check 3 Nat.zero_lt_one rfl⟩
  have taken := checked.tail
    ⟨by rintro _ ⟨⟩; exact Nat.le_refl 1, .take rfl rfl⟩
  have copied := taken.tail ⟨by rintro _ ⟨⟩, .copy rfl written⟩
  have unlinked := copied.tail ⟨by rintro _ ⟨⟩, .unlink rfl List.mem_cons_self⟩
  have again := unlinked.tail
    ⟨by rintro _ ⟨⟩, .link { zeroMessage with length := 20 } Nat.zero_lt_one⟩
  exact ⟨_, _, again, rfl, rfl, messages_received_in_order again⟩

/-! ## Where the order breaks -/

/-- The queue lists messages in the reverse order of their arrival. -/
theorem run_queue_sublist {channels : Nat} {varspace : Varspace} {history : List Handling}
    {state : Reception} (run : Run Handles (.start channels varspace) history state)
    (chan : Nat) : (state.queues chan).reverse.Sublist (linkedOn chan history) := by
  induction run with
  | refl => exact List.Sublist.refl []
  | @tail state after history label run hstep ih =>
      rw [linkedOn_append]
      have longer := ih.trans (List.sublist_append_left _ (linkedOn chan [label]))
      cases hstep with
      | @link other msg exist =>
          rw [linkedOn_link] at longer ⊢
          change (Function.update state.queues other _ chan).reverse.Sublist _
          rcases eq_or_ne other chan with rfl | distinct
          · rw [Function.update_self, List.reverse_cons, if_pos rfl]
            exact ih.append (List.Sublist.refl _)
          · rw [Function.update_of_ne distinct.symm]
            exact longer
      | guard => exact longer
      | check => exact longer
      | refuse => exact longer
      | take => exact longer
      | copy => exact longer
      | @unlink other var node here linked =>
          refine List.Sublist.trans ?_ longer
          apply List.Sublist.reverse
          change (Function.update state.queues other _ chan).Sublist _
          rcases eq_or_ne other chan with rfl | distinct
          · rw [Function.update_self]
            exact List.erase_sublist
          · rw [Function.update_of_ne distinct.symm]

theorem copiedOn_links {history : List Handling} (links : ∀ label ∈ history, label.IsLink)
    (chan : Nat) : copiedOn chan history = [] := by
  apply List.filterMap_eq_nil_iff.mpr
  intro label member
  have isLink := links label member
  cases label with
  | link => rfl
  | guard | check | refuse | take | copy | unlink => cases isLink

/-- A message that is only on the queue has not been copied. -/
theorem Accounted.not_copied {history : List Handling} {state : Reception} {chan : Nat}
    {node : Node} (accounted : Accounted history state) (none : state.doubled chan = [])
    (queued : node ∈ state.queues chan) : node ∉ copiedOn chan history := by
  intro copied
  have queued : 0 < (state.queues chan).count node := List.count_pos_iff.mpr queued
  have copied : 0 < (copiedOn chan history).count node := List.count_pos_iff.mpr copied
  have balance := accounted.balance chan node
  have single := List.nodup_iff_count_le_one.mp (accounted.distinct chan) node
  rw [none, List.count_nil] at balance
  omega

/-- A RECEIVE that takes from a queue of two messages and copies what it took
breaks the order. -/
theorem take_breaks_order {channels : Nat} {varspace : Varspace} {before between : List Handling}
    {seen holding : Reception} {chan var : Nat} {node : Node}
    (run : Run Handles (.start channels varspace) before seen)
    (crowded : 2 ≤ (seen.queues chan).length) (taken : Handles seen (.take chan node) holding)
    (links : ∀ label ∈ between, label.IsLink) :
    ¬ ReceivedInOrder (before ++ .take chan node :: (between ++ [.copy chan var node])) chan := by
  intro inOrder
  have accounted := run_accounted run
  have sorted := run_queue_sublist run chan
  have single := accounted.distinct chan
  cases taken with
  | @take _ _ _ rest here first =>
      have none : seen.doubled chan = [] := by rw [Reception.doubled, here]
      have noCopy : copiedOn chan [.take chan node] = [] := rfl
      have received : copiedOn chan (before ++ .take chan node :: (between ++
          [.copy chan var node])) = copiedOn chan before ++ [node] := by
        rw [List.append_cons, copiedOn_append, copiedOn_append, copiedOn_append,
          copiedOn_links links, noCopy, copiedOn_copy, if_pos rfl, List.append_nil,
          List.nil_append]
      obtain ⟨older, rest, rfl⟩ : ∃ older rest', rest = older :: rest' := by
        rw [first] at crowded
        cases rest with
        | nil => cases Nat.not_succ_le_self 1 crowded
        | cons older rest => exact ⟨older, rest, rfl⟩
      have pair : [older, node].Sublist (linkedOn chan before) := by
        rw [first, List.reverse_cons, List.reverse_cons, List.append_assoc] at sorted
        exact (List.sublist_append_right _ _).trans sorted
      have distinct : older ≠ node := by
        rintro rfl
        have twice := pair.nodup single
        simp at twice
      have both := inOrder older node
        (linkedOn_append _ ▸ pair.trans (List.sublist_append_left _ _))
        (received ▸ List.mem_append_right _ (List.mem_singleton_self node))
      rw [received] at both
      rcases List.mem_append.mp (both.subset List.mem_cons_self) with earlier | same
      · apply accounted.not_copied none _ earlier
        rw [first]
        exact List.mem_cons_of_mem _ List.mem_cons_self
      · exact distinct (List.mem_singleton.mp same)

/-- Two messages arrive, and a RECEIVE copies the second one first. -/
theorem second_message_first :
    ∃ history state first second,
      Run Handles (.start 1 zeroInterpreter.variableSpace) history state ∧
      linkedOn 0 history = [first, second] ∧ copiedOn 0 history = [second] ∧
      ¬ ReceivedInOrder history 0 := by
  obtain ⟨varspace, written⟩ := zeroMessage_stored
  have begun : Run Handles (.start 1 zeroInterpreter.variableSpace) [] _ := .refl _
  have linked := begun.tail (.link { zeroMessage with length := 20 } Nat.zero_lt_one)
  have again := linked.tail (.link { zeroMessage with length := 20 } Nat.zero_lt_one)
  have checked := again.tail (.check 3 Nat.zero_lt_one rfl)
  have taken := checked.tail (.take rfl rfl)
  have copied := taken.tail (.copy rfl written)
  refine ⟨_, _, _, _, copied, rfl, rfl, ?_⟩
  exact take_breaks_order checked (Nat.le_refl 2) (.take rfl rfl) nofun

end NetworkCode.Kernel
