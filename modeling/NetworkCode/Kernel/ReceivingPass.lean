import Mathlib.Data.Nat.Find
import NetworkCode.Kernel.NetworkFrame

/-!
# One pass of the receiving thread

The loop over the channels runs to `MAX_CHANNELS` while the channel table has
as many entries as the params configure, and a match replaces the message that
the rest of the loop compares with by newly allocated memory.
-/

namespace NetworkCode.Kernel

open Library Library.Checked

/-! ## The frame in the buffer -/

/-- The message that `receiving_threadfn` has built when its channel loop begins. -/
def Network.received (network : Network) (frame : List UInt8) : NcMessage :=
  { network.ncMsg.read (.frame frame) with
    length := UInt32.ofNat (frame.take network.ncMsg.value.length).length }

section Header

variable {network : Network} {frame : List UInt8} (header : ethHlen ≤ frame.length)

include header

theorem slice_received {start count : Nat} (inside : start + count ≤ ethHlen) :
    Bytes.slice (network.received frame).value start count = Bytes.slice frame start count := by
  have whole : start + count ≤ (frame.take network.ncMsg.value.length).length := by
    rw [network.ncMsg.value_length, List.length_take]
    have fits : ethHlen ≤ ethDataLen := by decide
    omega
  have front : start + count ≤ network.ncMsg.value.length := by
    rw [List.length_take] at whole
    omega
  change Bytes.slice (Bytes.overwrite network.ncMsg.value 0
    (frame.take network.ncMsg.value.length)) start count = _
  rw [Bytes.slice_overwrite_zero whole, Bytes.slice_take front]

theorem hSource_received : hSource (network.received frame).value = hSource frame :=
  slice_received header (by decide)

theorem hProto_received : hProto (network.received frame).value = hProto frame :=
  slice_received header (by decide)

/-- The pass over a frame: the loop runs for frames of the protocol. -/
theorem receivingPass_frame (bound : Nat) (kmalloc : Nat → NcMessage) :
    receivingPass bound network (.frame frame) kmalloc =
      if hProto frame = htons ethPNc then do
        let (network, msg) ← (List.range bound).foldlM (offerToChannel kmalloc)
          (network, network.received frame)
        return { network with ncMsg := msg }
      else
        .ok { network with ncMsg := network.ncMsg.read (.frame frame) } := by
  have long : ¬ (kernelRecvmsg network.ncMsg.value (.frame frame)).2.length < ethHlen := by
    rw [kernelRecvmsg_length, network.ncMsg.value_length]
    decide
  have proto : hProto (kernelRecvmsg network.ncMsg.value (.frame frame)).2 = hProto frame :=
    hProto_received header
  have nonneg : ¬ (kernelRecvmsg network.ncMsg.value (.frame frame)).1 < 0 :=
    Int.not_lt.mpr (Int.natCast_nonneg _)
  unfold receivingPass ncRcvmsg
  dsimp only
  rw [if_neg nonneg, if_neg long, proto]
  rcases eq_or_ne (hProto frame) (htons ethPNc) with same | other
  · rw [if_neg (not_not.mpr same), if_pos same, ok_bind, if_neg nonneg]
    rfl
  · rw [if_pos other, if_neg other]
    rfl

end Header

/-! ## The loop over the channels -/

section Loop

variable {kmalloc : Nat → NcMessage} {network : Network} {msg : NcMessage} {chan : Nat}
  {channel : Channel}

/-- The first iterations of the channel loop. -/
def offers (kmalloc : Nat → NcMessage) (network : Network) (msg : NcMessage) (count : Nat) :
    Exec (Network × NcMessage) :=
  (List.range count).foldlM (offerToChannel kmalloc) (network, msg)

theorem offers_succ (kmalloc : Nat → NcMessage) (network : Network) (msg : NcMessage)
    (count : Nat) :
    offers kmalloc network msg (count + 1) =
      offers kmalloc network msg count >>= fun state => offerToChannel kmalloc state count := by
  unfold offers
  rw [List.range_succ, List.foldlM_append]
  simp only [List.foldlM_cons, List.foldlM_nil, bind_pure]

theorem offerToChannel_match (found : network.channel chan = .ok channel)
    (same : channel.mac.toList = hSource msg.value) :
    offerToChannel kmalloc (network, msg) chan =
      .ok (network.setQueue chan (msg :: channel.messageQueue), kmalloc chan) := by
  unfold offerToChannel
  dsimp only
  rw [found, ok_bind, if_pos same]
  rfl

theorem offerToChannel_other (found : network.channel chan = .ok channel)
    (other : channel.mac.toList ≠ hSource msg.value) :
    offerToChannel kmalloc (network, msg) chan = .ok (network, msg) := by
  unfold offerToChannel
  dsimp only
  rw [found, ok_bind, if_neg other]
  rfl

theorem offers_match {count : Nat} {before : Network} {held : NcMessage}
    (offered : offers kmalloc network msg count = .ok (before, held))
    (found : before.channel count = .ok channel) (same : channel.mac.toList = hSource held.value) :
    offers kmalloc network msg (count + 1) =
      .ok (before.setQueue count (held :: channel.messageQueue), kmalloc count) := by
  rw [offers_succ, offered, ok_bind, offerToChannel_match found same]

/-- An iteration leaves the other channels alone. -/
theorem offerToChannel_channel {state after : Network × NcMessage} {other : Nat}
    (offered : offerToChannel kmalloc state chan = .ok after) (distinct : chan ≠ other) :
    after.1.channel other = state.1.channel other := by
  cases offerToChannel_cases offered with
  | links => exact Network.channel_setQueue_of_ne _ _ distinct
  | passes => rfl

/-- The channels behind the loop counter are untouched. -/
theorem offers_channel_ge {count other : Nat} {after : Network × NcMessage}
    (offered : offers kmalloc network msg count = .ok after) (behind : count ≤ other) :
    after.1.channel other = network.channel other := by
  induction count generalizing after with
  | zero =>
      cases offered
      rfl
  | succ count ih =>
      rw [offers_succ] at offered
      obtain ⟨state, first, last⟩ := bind_eq_ok.mp offered
      rw [offerToChannel_channel last (by omega), ih first (by omega)]

/-- The channels in front of the loop counter stay as they are. -/
theorem offers_channel_lt {count bound other : Nat} {state after : Network × NcMessage}
    (earlier : offers kmalloc network msg count = .ok state) (later : count ≤ bound)
    (offered : offers kmalloc network msg bound = .ok after) (front : other < count) :
    after.1.channel other = state.1.channel other := by
  induction later generalizing after with
  | refl =>
      cases earlier.symm.trans offered
      rfl
  | @step bound later ih =>
      have inside : count ≤ bound := later
      rw [offers_succ] at offered
      obtain ⟨middle, first, last⟩ := bind_eq_ok.mp offered
      rw [offerToChannel_channel last (by omega), ih first]

/-- A loop that gets through has read every channel up to its bound. -/
theorem offers_within {count : Nat} {after : Network × NcMessage}
    (offered : offers kmalloc network msg count = .ok after) :
    ∀ other < count, ∃ channel, network.channel other = .ok channel := by
  induction count generalizing after with
  | zero => exact nofun
  | succ count ih =>
      intro other front
      rw [offers_succ] at offered
      obtain ⟨state, first, last⟩ := bind_eq_ok.mp offered
      rcases Nat.eq_or_lt_of_le (Nat.le_of_lt_succ front) with rfl | earlier
      · obtain ⟨channel, found, -⟩ := bind_eq_ok.mp last
        exact ⟨channel, (offers_channel_ge first (Nat.le_refl _)).symm.trans found⟩
      · exact ih first other earlier

/-- While no channel matches, the loop does nothing. -/
theorem offers_quiet {count : Nat}
    (quiet : ∀ other < count, ∃ channel, network.channel other = .ok channel ∧
      channel.mac.toList ≠ hSource msg.value) :
    offers kmalloc network msg count = .ok (network, msg) := by
  induction count with
  | zero => rfl
  | succ count ih =>
      obtain ⟨channel, found, other⟩ := quiet count (Nat.lt_succ_self _)
      rw [offers_succ, ih fun other front => quiet other (Nat.lt_succ_of_lt front), ok_bind,
        offerToChannel_other found other]

end Loop

/-! ## Frames and the channels they belong to -/

/-- The message has the bytes and the length of the frame. -/
def NcMessage.Holds (msg : NcMessage) (frame : List UInt8) : Prop :=
  msg.length.toNat = frame.length ∧ msg.value.take frame.length = frame

/-- The frame is of the protocol and comes from the channel's address. -/
def Belongs (frame : List UInt8) (channel : Channel) : Prop :=
  hProto frame = htons ethPNc ∧ channel.mac.toList = hSource frame

/-- The channel has gained the frame once if it belongs to it, and nothing otherwise. -/
def DeliveredTo (frame : List UInt8) (before after : Channel) : Prop :=
  (Belongs frame before →
    ∃ msg, msg.Holds frame ∧ after.messageQueue.Perm (msg :: before.messageQueue)) ∧
  (¬ Belongs frame before → after.messageQueue = before.messageQueue)

/-- The pass reads existing channels only and delivers the frame to those it
belongs to, whatever the newly allocated memory holds. -/
def PassCorrect (bound : Nat) (network : Network) (frame : List UInt8) : Prop :=
  ∀ kmalloc, ∃ after, receivingPass bound network (.frame frame) kmalloc = .ok after ∧
    ∀ chan channel, network.channel chan = .ok channel →
      ∃ channel', after.channel chan = .ok channel' ∧ DeliveredTo frame channel channel'

/-- A frame of the protocol meets a table that covers the loop, and only the last
channel of the loop matches it, in the size of the receive buffer. -/
def LoopFits (bound : Nat) (table : List Channel) (frame : List UInt8) : Prop :=
  hProto frame = htons ethPNc → bound ≤ table.length ∧
    ∀ chan channel, table[chan]? = some channel → channel.mac.toList = hSource frame →
      chan + 1 = bound ∧ frame.length ≤ ethDataLen

section Correctness

variable {bound : Nat} {network : Network} {table : List Channel} {frame : List UInt8}

theorem Network.channel_eq_ok (htable : network.table = some table) {chan : Nat}
    {channel : Channel} : network.channel chan = .ok channel ↔ table[chan]? = some channel := by
  unfold Network.channel
  rw [htable]
  dsimp only
  split
  next absent =>
    rw [absent]
    exact ⟨nofun, nofun⟩
  next found =>
    rw [found]
    exact ⟨fun same => congrArg some (Except.ok.inj same),
      fun same => congrArg Except.ok (Option.some.inj same)⟩

theorem received_holds (fits : frame.length ≤ ethDataLen) :
    (network.received frame).Holds frame := by
  have whole : frame.take network.ncMsg.value.length = frame := by
    rw [network.ncMsg.value_length]
    exact List.take_of_length_le fits
  have narrow : frame.length < 2 ^ 32 := Nat.lt_of_le_of_lt fits (by decide)
  constructor
  · change (UInt32.ofNat (frame.take network.ncMsg.value.length).length).toNat = _
    rw [whole, UInt32.toNat_ofNat', Nat.mod_eq_of_lt narrow]
  · change (Bytes.overwrite network.ncMsg.value 0
      (frame.take network.ncMsg.value.length)).take frame.length = frame
    rw [whole, Bytes.take_overwrite_zero]

theorem length_le_of_holds (holds : (network.received frame).Holds frame) :
    frame.length ≤ ethDataLen := by
  have length : (UInt32.ofNat (frame.take network.ncMsg.value.length).length).toNat =
      frame.length := holds.1
  rw [UInt32.toNat_ofNat', List.length_take, network.ncMsg.value_length] at length
  have narrow := Nat.mod_le (min ethDataLen frame.length) (2 ^ 32)
  omega

theorem deliveredTo_of_foreign {channel : Channel} (foreign : ¬ Belongs frame channel) :
    DeliveredTo frame channel channel :=
  ⟨fun belongs => (foreign belongs).elim, fun _ => rfl⟩

/-- A pass that finishes its loop with the frame still in hand. -/
theorem passCorrect_of_quiet (header : ethHlen ≤ frame.length)
    (proto : hProto frame = htons ethPNc)
    (foreign : ∀ chan channel, network.channel chan = .ok channel →
      channel.mac.toList ≠ hSource frame)
    (quiet : ∀ kmalloc, offers kmalloc network (network.received frame) bound =
      .ok (network, network.received frame)) : PassCorrect bound network frame := by
  intro kmalloc
  rw [receivingPass_frame header, if_pos proto]
  change ∃ after, (offers kmalloc network (network.received frame) bound >>= _) = _ ∧ _
  rw [quiet kmalloc]
  refine ⟨_, rfl, fun chan channel found => ⟨channel, found, ?_⟩⟩
  exact deliveredTo_of_foreign fun belongs => foreign chan channel found belongs.2

/-- A pass in which the last channel of the loop takes the frame. -/
theorem passCorrect_of_last {last : Nat} {channel : Channel} (header : ethHlen ≤ frame.length)
    (proto : hProto frame = htons ethPNc) (small : frame.length ≤ ethDataLen)
    (found : network.channel last = .ok channel) (same : channel.mac.toList = hSource frame)
    (foreign : ∀ chan channel, network.channel chan = .ok channel → chan ≠ last →
      channel.mac.toList ≠ hSource frame)
    (quiet : ∀ kmalloc, offers kmalloc network (network.received frame) last =
      .ok (network, network.received frame)) : PassCorrect (last + 1) network frame := by
  intro kmalloc
  rw [receivingPass_frame header, if_pos proto]
  change ∃ after, (offers kmalloc network (network.received frame) (last + 1) >>= _) = _ ∧ _
  rw [← hSource_received header] at same
  rw [offers_succ, quiet kmalloc, ok_bind, offerToChannel_match found same, ok_bind]
  refine ⟨_, rfl, fun chan before hbefore => ?_⟩
  change ∃ channel', (network.setQueue last
    (network.received frame :: channel.messageQueue)).channel chan = .ok channel' ∧ _
  rcases eq_or_ne last chan with rfl | distinct
  · cases found.symm.trans hbefore
    refine ⟨_, Network.channel_setQueue_self.mpr ⟨_, found, rfl⟩, fun _ => ?_,
      fun notBelongs => ?_⟩
    · exact ⟨_, received_holds small, List.Perm.refl _⟩
    · rw [hSource_received header] at same
      exact (notBelongs ⟨proto, same⟩).elim
  · rw [Network.channel_setQueue_of_ne _ _ distinct]
    exact ⟨_, hbefore, deliveredTo_of_foreign fun belongs =>
      foreign chan before hbefore distinct.symm belongs.2⟩

theorem passCorrect_of_fits (htable : network.table = some table)
    (header : ethHlen ≤ frame.length) (fits : LoopFits bound table frame) :
    PassCorrect bound network frame := by
  have entry {chan : Nat} {channel : Channel} :
      network.channel chan = .ok channel ↔ table[chan]? = some channel :=
    Network.channel_eq_ok htable
  rcases em (hProto frame = htons ethPNc) with proto | other
  · obtain ⟨covered, only⟩ := fits proto
    cases bound with
    | zero =>
        apply passCorrect_of_quiet header proto
        · intro chan channel found same
          cases (only chan channel (entry.mp found) same).1
        · exact fun _ => rfl
    | succ last =>
        have foreign (chan : Nat) (channel : Channel) (found : network.channel chan = .ok channel)
            (distinct : chan ≠ last) : channel.mac.toList ≠ hSource frame := fun same =>
          distinct (Nat.succ.inj (only chan channel (entry.mp found) same).1)
        have quiet (kmalloc : Nat → NcMessage) :
            offers kmalloc network (network.received frame) last =
              .ok (network, network.received frame) := by
          apply offers_quiet
          intro other front
          have inside : other < table.length := by omega
          have found := entry.mpr (List.getElem?_eq_getElem inside)
          rw [hSource_received header]
          exact ⟨_, found, foreign other _ found (Nat.ne_of_lt front)⟩
        have found := entry.mpr (List.getElem?_eq_getElem covered)
        rcases em (table[last].mac.toList = hSource frame) with same | distinct
        · have small := (only last _ (entry.mp found) same).2
          exact passCorrect_of_last header proto small found same foreign quiet
        · apply passCorrect_of_quiet header proto
          · intro chan channel hchannel same
            rcases eq_or_ne chan last with rfl | elsewhere
            · cases found.symm.trans hchannel
              exact distinct same
            · exact foreign chan channel hchannel elsewhere same
          · intro kmalloc
            rw [← hSource_received header] at distinct
            rw [offers_succ, quiet, ok_bind, offerToChannel_other found distinct]
  · intro kmalloc
    rw [receivingPass_frame header, if_neg other]
    refine ⟨_, rfl, fun chan channel found => ⟨channel, found, ?_⟩⟩
    exact deliveredTo_of_foreign fun belongs => other belongs.1

/-! ## Where the pass goes wrong -/

theorem head_eq_of_perm {first second : NcMessage} {queue : List NcMessage}
    (same : (first :: queue).Perm (second :: queue)) : first = second := by
  have single : [first].Perm [second] := (List.perm_append_right_iff queue).mp same
  exact List.singleton_perm_singleton.mp single

/-- What a channel's queue becomes when something is linked into it. -/
theorem DeliveredTo.head {before : Channel} {msg : NcMessage}
    (delivered : DeliveredTo frame before
      { before with messageQueue := msg :: before.messageQueue }) :
    msg.Holds frame := by
  rcases em (Belongs frame before) with belongs | foreign
  · obtain ⟨held, holds, same⟩ := delivered.1 belongs
    rw [head_eq_of_perm same]
    exact holds
  · have longer := congrArg List.length (delivered.2 foreign)
    simp at longer

/-- A channel that the frame belongs to does not stay as it is. -/
theorem DeliveredTo.changes {before : Channel} (belongs : Belongs frame before) :
    ¬ DeliveredTo frame before before := by
  intro delivered
  obtain ⟨held, -, same⟩ := delivered.1 belongs
  have longer := same.length_eq
  simp at longer

/-- What a correct pass over a frame of the protocol says about its loop. -/
theorem PassCorrect.offers (correct : PassCorrect bound network frame)
    (header : ethHlen ≤ frame.length) (proto : hProto frame = htons ethPNc)
    (kmalloc : Nat → NcMessage) :
    ∃ state, Kernel.offers kmalloc network (network.received frame) bound = .ok state ∧
      ∀ chan channel, network.channel chan = .ok channel → ∃ channel',
        state.1.channel chan = .ok channel' ∧ DeliveredTo frame channel channel' := by
  obtain ⟨after, passed, delivered⟩ := correct kmalloc
  rw [receivingPass_frame header, if_pos proto] at passed
  obtain ⟨state, looped, finish⟩ := bind_eq_ok.mp passed
  cases finish
  exact ⟨state, looped, delivered⟩

/-- Memory with a given source address where the next frame would have it. -/
def strayMessage (mac : Mac) : NcMessage where
  value := List.replicate ethAlen 0 ++ mac.toList ++ List.replicate 1488 0
  length := 0
  value_length := by
    rw [List.length_append, List.length_append, List.length_replicate, List.length_replicate,
      Vector.length_toList]
    rfl

theorem hSource_strayMessage (mac : Mac) : hSource (strayMessage mac).value = mac.toList := by
  change ((List.replicate ethAlen 0 ++ mac.toList ++ List.replicate 1488 0).drop ethAlen).take
    ethAlen = _
  rw [List.append_assoc, List.drop_left' List.length_replicate]
  exact List.take_left' (Vector.length_toList)

/-- After a match that is not in the last iteration, the loop can link memory that
no frame has been read into. -/
theorem offers_stray {first : Nat} {channel next : Channel} {state : Network × NcMessage}
    (header : ethHlen ≤ frame.length) (inner : first + 1 < bound)
    (found : network.channel first = .ok channel) (same : channel.mac.toList = hSource frame)
    (follows : network.channel (first + 1) = .ok next)
    (quiet : Kernel.offers (fun _ => strayMessage next.mac) network (network.received frame)
      first = .ok (network, network.received frame))
    (looped : Kernel.offers (fun _ => strayMessage next.mac) network (network.received frame)
      bound = .ok state) :
    state.1.channel (first + 1) =
      .ok { next with messageQueue := strayMessage next.mac :: next.messageQueue } := by
  have distinct : first ≠ first + 1 := Nat.ne_of_lt (Nat.lt_succ_self first)
  have follows' : (network.setQueue first
      (network.received frame :: channel.messageQueue)).channel (first + 1) = .ok next := by
    rw [Network.channel_setQueue_of_ne _ _ distinct]
    exact follows
  have once := offers_match quiet found (same.trans (hSource_received header).symm)
  have twice := offers_match once follows' (hSource_strayMessage next.mac).symm
  rw [offers_channel_lt twice inner looped (Nat.lt_succ_self _)]
  exact Network.channel_setQueue_self.mpr ⟨next, follows', rfl⟩

/-- The first channel that the frame belongs to. -/
theorem exists_first_match {chan : Nat} {channel : Channel}
    (found : network.channel chan = .ok channel) (same : channel.mac.toList = hSource frame) :
    ∃ first ≤ chan, (∃ channel, network.channel first = .ok channel ∧
        channel.mac.toList = hSource frame) ∧
      ∀ other < first, ∀ channel, network.channel other = .ok channel →
        channel.mac.toList ≠ hSource frame := by
  classical
  have exist : ∃ chan channel, network.channel chan = .ok channel ∧
      channel.mac.toList = hSource frame := ⟨chan, channel, found, same⟩
  refine ⟨Nat.find exist, Nat.find_min' exist ⟨channel, found, same⟩, Nat.find_spec exist, ?_⟩
  intro other front before hbefore matching
  exact Nat.find_min exist front ⟨before, hbefore, matching⟩

section Fits

variable (htable : network.table = some table) (header : ethHlen ≤ frame.length)
  (proto : hProto frame = htons ethPNc)

include htable header

/-- The loop does nothing up to the first match. -/
theorem offers_before {first : Nat} (inside : first ≤ table.length)
    (none : ∀ other < first, ∀ channel, network.channel other = .ok channel →
      channel.mac.toList ≠ hSource frame) (kmalloc : Nat → NcMessage) :
    Kernel.offers kmalloc network (network.received frame) first =
      .ok (network, network.received frame) := by
  apply offers_quiet
  intro other front
  have present := List.getElem?_eq_getElem (Nat.lt_of_lt_of_le front inside)
  have found := (Network.channel_eq_ok htable).mpr present
  rw [hSource_received header]
  exact ⟨_, found, none other front _ found⟩

include proto

theorem PassCorrect.covered (correct : PassCorrect bound network frame) :
    bound ≤ table.length := by
  obtain ⟨state, looped, -⟩ := correct.offers header proto fun _ => network.ncMsg
  by_contra beyond
  obtain ⟨channel, found⟩ := offers_within looped table.length (Nat.lt_of_not_le beyond)
  have present := (Network.channel_eq_ok htable).mp found
  exact Nat.lt_irrefl _ (List.getElem?_eq_some_iff.mp present).1

/-- A match before the last iteration lets stray memory through. -/
theorem PassCorrect.last (correct : PassCorrect bound network frame) {first : Nat}
    {channel : Channel} (looped : first < bound) (found : network.channel first = .ok channel)
    (same : channel.mac.toList = hSource frame)
    (none : ∀ other < first, ∀ channel, network.channel other = .ok channel →
      channel.mac.toList ≠ hSource frame) : first + 1 = bound := by
  have covered := correct.covered htable header proto
  by_contra inner
  have inner : first + 1 < bound := by omega
  have present := List.getElem?_eq_getElem (Nat.lt_of_lt_of_le inner covered)
  have follows := (Network.channel_eq_ok htable).mpr present
  have quiet := offers_before htable header (by omega) none
  obtain ⟨state, finished, delivered⟩ := correct.offers header proto
    fun _ => strayMessage table[first + 1].mac
  obtain ⟨channel', found', gained⟩ := delivered _ _ follows
  rw [offers_stray header inner found same follows (quiet _) finished] at found'
  cases found'
  have empty : 0 = frame.length := gained.head.1
  rw [← empty] at header
  cases header

/-- A frame that the last channel takes fits the receive buffer. -/
theorem PassCorrect.small {last : Nat} {channel : Channel}
    (correct : PassCorrect (last + 1) network frame) (found : network.channel last = .ok channel)
    (same : channel.mac.toList = hSource frame)
    (none : ∀ other < last, ∀ channel, network.channel other = .ok channel →
      channel.mac.toList ≠ hSource frame) : frame.length ≤ ethDataLen := by
  have covered := correct.covered htable header proto
  have quiet := offers_before htable header (Nat.le_of_succ_le covered) none
  obtain ⟨state, finished, delivered⟩ := correct.offers header proto fun _ => network.ncMsg
  have taken := offers_match (quiet fun _ => network.ncMsg) found
    (same.trans (hSource_received header).symm)
  cases taken.symm.trans finished
  obtain ⟨channel', found', gained⟩ := delivered last channel found
  obtain ⟨_, again, rfl⟩ := Network.channel_setQueue_self.mp found'
  cases found.symm.trans again
  exact length_le_of_holds gained.head

end Fits

theorem fits_of_passCorrect (htable : network.table = some table)
    (header : ethHlen ≤ frame.length) (correct : PassCorrect bound network frame) :
    LoopFits bound table frame := by
  intro proto
  refine ⟨correct.covered htable header proto, fun chan channel present same => ?_⟩
  have found := (Network.channel_eq_ok htable).mpr present
  have looped : chan < bound := by
    obtain ⟨state, finished, delivered⟩ := correct.offers header proto fun _ => network.ncMsg
    by_contra beyond
    obtain ⟨channel', found', gained⟩ := delivered chan channel found
    rw [offers_channel_ge finished (Nat.le_of_not_lt beyond), found] at found'
    cases found'
    exact DeliveredTo.changes ⟨proto, same⟩ gained
  obtain ⟨first, before, ⟨taker, hfirst, taken⟩, none⟩ := exists_first_match found same
  have last := correct.last htable header proto (Nat.lt_of_le_of_lt before looped) hfirst taken none
  obtain rfl : chan = first := by omega
  subst last
  exact ⟨rfl, correct.small htable header proto hfirst taken none⟩

/-- A pass delivers a frame to exactly the channels it belongs to if and only if
the frame is of another type, or the table covers the loop and only its last
channel matches a frame that fits the buffer. -/
theorem receivingPass_correct_iff (htable : network.table = some table)
    (header : ethHlen ≤ frame.length) :
    PassCorrect bound network frame ↔ LoopFits bound table frame :=
  ⟨fits_of_passCorrect htable header, passCorrect_of_fits htable header⟩

/-- A frame from the address of the only channel. -/
theorem receivingPass_correct_iff_one :
    PassCorrect maxChannels
        { zeroNetwork with table := some [⟨[], Vector.replicate ethAlen 2, 1, .null⟩] }
        (List.replicate ethAlen 255 ++ List.replicate ethAlen 2 ++ [0x90, 0x09, 7]) ↔
      LoopFits maxChannels [⟨[], Vector.replicate ethAlen 2, 1, .null⟩]
        (List.replicate ethAlen 255 ++ List.replicate ethAlen 2 ++ [0x90, 0x09, 7]) :=
  receivingPass_correct_iff rfl (by decide)

end Correctness

/-- With no channel configured, the pass over a frame of the protocol reads entry 0. -/
theorem pass_reads_absentChannel :
    ∃ sysfs frame, Reachable .bits64 sysfs ∧ sysfs.ncmInterp.network.receiving = true ∧
      sysfs.ncmInterp.network.table = some [] ∧ ethHlen ≤ frame.length ∧
      ¬ PassCorrect maxChannels sysfs.ncmInterp.network frame := by
  have done : ∃ labels sysfs,
      runFromInit .bits64 (loadAndRun [.make .nop 0 0 0 0] noChannels .bare) =
        .ok (sysfs, labels) ∧
      sysfs.ncmInterp.network.receiving = true ∧ sysfs.ncmInterp.network.table = some [] :=
    ⟨_, _, rfl, rfl, rfl⟩
  obtain ⟨labels, sysfs, done, receiving, htable⟩ := done
  have header : ethHlen ≤ (List.replicate 12 2 ++ [0x90, 0x09] : List UInt8).length := by decide
  refine ⟨sysfs, _, ⟨labels, run_of_runFromInit done⟩, receiving, htable, header, ?_⟩
  intro correct
  cases correct.covered htable header (by decide)

end NetworkCode.Kernel
