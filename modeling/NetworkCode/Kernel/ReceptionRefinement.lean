import NetworkCode.Kernel.NetworkFrame
import NetworkCode.Kernel.Reception

/-!
# Undisturbed calls are runs of the two threads

A call of `ncm_receive_message_to_var` that nothing interrupts goes through the
locked sections in order, and a pass of the receiving thread links the frame
once for each channel that takes it.
-/

namespace NetworkCode.Kernel

open Library Library.Checked

/-- The queues of the network are the queues of the two threads. -/
structure Reception.Matches (state : Reception) (network : Network) : Prop where
  exist : ∀ chan, chan < state.channels ↔ ∃ channel, network.channel chan = .ok channel
  queues : ∀ chan channel, network.channel chan = .ok channel →
    channel.messageQueue = (state.queues chan).map Node.msg

theorem Reception.Matches.setQueue {state after : Reception} {network : Network} {chan : Nat}
    (nodes : List Node) (same : state.Matches network) (channels : after.channels = state.channels)
    (queues : after.queues = Function.update state.queues chan nodes) :
    after.Matches (network.setQueue chan (nodes.map Node.msg)) where
  exist other := by
    rw [channels, same.exist other]
    rcases eq_or_ne chan other with rfl | distinct
    · constructor
      · rintro ⟨channel, found⟩
        exact ⟨_, Network.channel_setQueue_self.mpr ⟨channel, found, rfl⟩⟩
      · rintro ⟨channel, found⟩
        obtain ⟨before, hbefore, -⟩ := Network.channel_setQueue_self.mp found
        exact ⟨before, hbefore⟩
    · rw [Network.channel_setQueue_of_ne _ _ distinct]
  queues other channel found := by
    rw [queues]
    rcases eq_or_ne chan other with rfl | distinct
    · obtain ⟨before, -, rfl⟩ := Network.channel_setQueue_self.mp found
      rw [Function.update_self]
    · rw [Network.channel_setQueue_of_ne _ _ distinct] at found
      rw [Function.update_of_ne distinct.symm]
      exact same.queues other channel found

/-- A step that leaves the queues alone leaves the match. -/
theorem Reception.Matches.keep {state after : Reception} {network : Network}
    (same : state.Matches network) (channels : after.channels = state.channels)
    (queues : after.queues = state.queues) : after.Matches network where
  exist := by
    rw [channels]
    exact same.exist
  queues := by
    rw [queues]
    exact same.queues

/-! ## RECEIVE -/

/-- An undisturbed call of `ncm_receive_message_to_var` is a run of RECEIVE steps. -/
theorem receive_refines {state : Reception} {network network' : Network} {varspace : Varspace}
    {chan var : Nat} {ret : Int} (same : state.Matches network) (here : state.phase = .outside)
    (received : ncmReceiveMessageToVar network state.variableSpace chan var =
      .ok (ret, network', varspace)) :
    ∃ history label after, Run Handles state (history ++ [label]) after ∧
      label.returned = some ret ∧ after.Matches network' ∧ after.variableSpace = varspace ∧
      after.phase = .outside ∧ ∀ other, linkedOn other (history ++ [label]) = [] := by
  obtain ⟨channel, found, received⟩ := bind_eq_ok.mp received
  have exist : chan < state.channels := (same.exist chan).mpr ⟨channel, found⟩
  have queue := same.queues chan channel found
  have hcheck := Handles.check var exist here
  cases hqueue : state.queues chan with
  | nil =>
      rw [hqueue] at queue hcheck
      rw [queue] at received
      cases received
      exact ⟨[_], _, _, .tail (.single hcheck) (.refuse rfl), rfl, same.keep rfl rfl, rfl, rfl,
        fun _ => rfl⟩
  | cons node rest =>
      rw [hqueue] at queue hcheck
      rw [queue] at received
      obtain ⟨varspace', written, finish⟩ := bind_eq_ok.mp received
      cases finish
      have linked : node ∈ state.queues chan := by
        rw [hqueue]
        exact List.mem_cons_self
      have erased : (state.queues chan).erase node = rest := by
        rw [hqueue, List.erase_cons_head]
      refine ⟨[_, _, _], _, _, .tail (.tail (.tail (.single hcheck) (.take rfl hqueue))
        (.copy rfl written)) (.unlink rfl linked), rfl, ?_, rfl, rfl, fun _ => rfl⟩
      refine same.setQueue rest rfl ?_
      dsimp only
      rw [erased]

/-! ## Arrivals -/

/-- What arrivals leave alone. -/
structure Reception.SameReader (state after : Reception) : Prop where
  variableSpace : after.variableSpace = state.variableSpace
  phase : after.phase = state.phase

theorem offer_refines {state : Reception} {kmalloc : Nat → NcMessage} {network network' : Network}
    {msg msg' : NcMessage} {chan : Nat} (same : state.Matches network)
    (offered : offerToChannel kmalloc (network, msg) chan = .ok (network', msg')) :
    ∃ history after, Run Handles state history after ∧ (∀ label ∈ history, label.IsLink) ∧
      after.Matches network' ∧ state.SameReader after := by
  cases offerToChannel_cases offered with
  | @links channel found address =>
      have exist : chan < state.channels := (same.exist chan).mpr ⟨channel, found⟩
      refine ⟨[_], _, .single (.link msg exist), ?_, ?_, ⟨rfl, rfl⟩⟩
      · intro label member
        cases List.mem_singleton.mp member
        trivial
      · rw [listAdd, same.queues chan channel found]
        exact same.setQueue (⟨state.arrivals, msg⟩ :: state.queues chan) rfl rfl
  | passes => exact ⟨[], state, .refl _, List.forall_mem_nil _, same, ⟨rfl, rfl⟩⟩

theorem offers_refine {kmalloc : Nat → NcMessage} {chans : List Nat} {state : Reception}
    {network network' : Network} {msg msg' : NcMessage} (same : state.Matches network)
    (offered : chans.foldlM (offerToChannel kmalloc) (network, msg) = .ok (network', msg')) :
    ∃ history after, Run Handles state history after ∧ (∀ label ∈ history, label.IsLink) ∧
      after.Matches network' ∧ state.SameReader after := by
  refine foldlM_keeps (fun current => ∃ history after, Run Handles state history after ∧
    (∀ label ∈ history, label.IsLink) ∧ after.Matches current.1 ∧ state.SameReader after) ?_
    ⟨[], state, .refl _, List.forall_mem_nil _, same, ⟨rfl, rfl⟩⟩ offered
  rintro current chan next ⟨history, between, run, links, same, keeps⟩ offered
  obtain ⟨later, after, run', links', same', keeps'⟩ := offer_refines same offered
  exact ⟨history ++ later, after, run.trans run',
    List.forall_mem_append.mpr ⟨links, links'⟩, same',
    keeps'.variableSpace.trans keeps.variableSpace, keeps'.phase.trans keeps.phase⟩

/-- A pass of the receiving thread is a run of links. -/
theorem receivingPass_refines {bound : Nat} {state : Reception} {network network' : Network}
    {read : SockRead} {kmalloc : Nat → NcMessage} (same : state.Matches network)
    (received : receivingPass bound network read kmalloc = .ok network') :
    ∃ history after, Run Handles state history after ∧ (∀ label ∈ history, label.IsLink) ∧
      after.Matches network' ∧ state.SameReader after := by
  cases receivingPass_cases received with
  | refuses =>
      exact ⟨[], state, .refl _, List.forall_mem_nil _, ⟨same.exist, same.queues⟩, ⟨rfl, rfl⟩⟩
  | offers answer nonneg offered =>
      obtain ⟨history, after, run, links, same', keeps⟩ := offers_refine same offered
      exact ⟨history, after, run, links, ⟨same'.exist, same'.queues⟩, keeps⟩

end NetworkCode.Kernel
