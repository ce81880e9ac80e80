import Mathlib.Data.List.Perm.Basic
import NetworkCode.Kernel.TransmitPaths

/-!
# What teardown gives back

`init_network` takes sockets, device references and the channel table, and the
receiving thread takes a buffer for each message that it queues and one for the
next arrival.  This is compared with what `destroy_network` gives back.
-/

namespace NetworkCode.Kernel

open Library Library.Checked

/-! ## The accounts -/

/-- What a network holds between set-up and teardown. -/
inductive Held where
  | resource (resource : Resource)
  /-- The buffer at a position of a channel's message queue. -/
  | message (chan position : Nat)
  /-- The receiving thread's buffer for the next arrival. -/
  | threadBuffer
  deriving DecidableEq

/-- The buffers of the messages in the queue of a channel. -/
def Channel.queuedBuffers (channel : Channel) (chan : Nat) : List Held :=
  (List.range channel.messageQueue.length).map (.message chan)

/-- The buffers that the receiving thread holds. -/
def Network.receivingBuffers (network : Network) : List Held :=
  ((network.table.getD []).zipIdx.flatMap fun entry => entry.1.queuedBuffers entry.2) ++
    [.threadBuffer]

/-- Teardown releases its resources and makes the receiving thread free its
buffer. -/
def givenBack (released : List Resource) : List Held :=
  released.map .resource ++ [.threadBuffer]

/-- `destroy_network` touches no entry outside the channel table and gives back
what was acquired and the buffers of the receiving thread, each once. -/
def TeardownExact (acquired : List Resource) (network : Network) : Prop :=
  ∃ after released, destroyNetwork network = .ok (after, released) ∧
    (givenBack released).Perm (acquired.map .resource ++ network.receivingBuffers)

/-! ## Set-up -/

/-- What set-up acquires for a channel, and the device it leaves there. -/
inductive ChannelSetUp (env : NetEnv) (chan : Nat) (channel : Channel) : List Resource → Prop where
  | found {dev : NetDevice} (up : channel.dev = .device dev) :
      ChannelSetUp env chan channel [.device chan, .sendSocket chan]
  | missing (stale : channel.dev = env.staleDev chan) :
      ChannelSetUp env chan channel [.sendSocket chan]

section SetUp

variable {params : NetParams} {env : NetEnv} {table : List Channel} {channel : Channel}
  {acquired : List Resource} {chan : Nat}

theorem initChannel_setUp (built : initChannel params env chan = .ok (channel, acquired)) :
    ChannelSetUp env chan channel acquired := by
  obtain ⟨mac, _, built⟩ := bind_eq_ok.mp built
  obtain ⟨name, _, built⟩ := bind_eq_ok.mp built
  split at built
  · cases built
    exact .missing rfl
  · cases built
    exact .found rfl

theorem ChannelSetUp.socket (setUp : ChannelSetUp env chan channel acquired) :
    .sendSocket chan ∈ acquired := by
  cases setUp with
  | found => exact List.mem_cons_of_mem _ (List.mem_singleton_self _)
  | missing => exact List.mem_singleton_self _

/-- The first channel of a table, what was acquired for it, and what was
acquired for the others. -/
structure FirstSetUp (env : NetEnv) (count : Nat) (table : List Channel)
    (acquired first later : List Resource) : Prop where
  split : acquired = first ++ later
  first_setUp : ∃ channel, table[0]? = some channel ∧ ChannelSetUp env 0 channel first
  later_sockets : ∀ chan, 1 ≤ chan → chan < count → .sendSocket chan ∈ later
  only_first : count = 1 → later = []

theorem initChannels_firstSetUp {count : Nat}
    (done : initChannels params env (count + 1) = .ok (table, acquired)) :
    ∃ first later, FirstSetUp env (count + 1) table acquired first later := by
  induction count generalizing table acquired with
  | zero =>
      obtain ⟨⟨table', acquired'⟩, first, done⟩ := bind_eq_ok.mp done
      obtain ⟨⟨channel, more⟩, built, finish⟩ := bind_eq_ok.mp done
      cases first
      cases finish
      refine ⟨more, [], (List.append_nil _).symm, ⟨channel, rfl, initChannel_setUp built⟩, ?_,
        fun _ => rfl⟩
      intro chan start bound
      omega
  | succ count ih =>
      obtain ⟨⟨table', acquired'⟩, first, done⟩ := bind_eq_ok.mp done
      obtain ⟨⟨channel, more⟩, built, finish⟩ := bind_eq_ok.mp done
      cases finish
      obtain ⟨head, later, earlier⟩ := ih first
      obtain ⟨channel₀, found, setUp₀⟩ := earlier.first_setUp
      have setUp := initChannel_setUp built
      refine ⟨head, later ++ more, ?_, ⟨channel₀, ?_, setUp₀⟩, ?_, nofun⟩
      · rw [earlier.split, List.append_assoc]
      · rw [List.getElem?_append_left (List.getElem?_eq_some_iff.mp found).1, found]
      · intro chan start bound
        rcases Nat.lt_or_eq_of_le (Nat.le_of_lt_succ bound) with bound | rfl
        · exact List.mem_append_left _ (earlier.later_sockets chan start bound)
        · exact List.mem_append_right _ setUp.socket

end SetUp

/-! ## Teardown -/

/-- What teardown releases for the first channel. -/
inductive FirstTornDown (channel : Channel) : List Resource → Prop where
  | noDevice (dev : channel.dev = .null) : FirstTornDown channel [.sendSocket 0]
  | device {dev : NetDevice} (up : channel.dev = .device dev) :
      FirstTornDown channel [.sendSocket 0, .device 0]

section Teardown

variable {before network used after : Network} {params : NetParams} {env : NetEnv}
  {table : List Channel} {channel : Channel} {acquired released : List Resource}

theorem destroyNetwork_eq (network : Network) : destroyNetwork network =
    (destroyChannel network 0 >>= fun first =>
      .ok ({ network with table := none, receiving := false },
        first ++ [.channelTable, .receiveSocket])) := by
  unfold destroyNetwork
  rw [maxChannels, List.range_one, List.mapM_cons, List.mapM_nil]
  cases destroyChannel network 0 with
  | error fault => rfl
  | ok first =>
      change Except.ok (_, [first].flatten ++ _) = _
      rw [List.flatten_singleton]
      rfl

/-- Teardown touches the first channel and no other. -/
theorem destroyNetwork_cases (destroyed : destroyNetwork network = .ok (after, released)) :
    ∃ channel first, network.channel 0 = .ok channel ∧ FirstTornDown channel first ∧
      released = first ++ [.channelTable, .receiveSocket] := by
  rw [destroyNetwork_eq] at destroyed
  obtain ⟨first, torn, finish⟩ := bind_eq_ok.mp destroyed
  cases finish
  obtain ⟨channel, found, torn⟩ := bind_eq_ok.mp torn
  split at torn
  · next dev =>
      cases torn
      exact ⟨channel, _, found, .noDevice dev, rfl⟩
  · next dev up =>
      cases torn
      exact ⟨channel, _, found, .device up, rfl⟩
  · cases torn

/-- With no channel configured, teardown reads an entry that does not exist. -/
theorem destroyNetwork_noChannel (done : initNetwork before params env = .ok (network, acquired))
    (later : network.SameSetup used) (noChannel : params.channels = 0) :
    destroyNetwork used = .error (.outOfBounds .channels 0) := by
  obtain ⟨table, length, rfl⟩ := initNetwork_eq_ok done
  have empty : table = [] := by
    rw [← List.length_eq_zero_iff, length, noChannel]
    rfl
  have none_left : used.table = some [] := by
    have mapped := later.table
    rw [empty] at mapped
    obtain ⟨table', htable, mapped⟩ := Option.map_eq_some_iff.mp mapped
    rw [htable, List.map_eq_nil_iff.mp mapped]
  rw [destroyNetwork_eq, destroyChannel, Network.channel, none_left]
  rfl

/-- What set-up acquires. -/
theorem initNetwork_acquired (done : initNetwork before params env = .ok (network, acquired)) :
    ∃ table channels, network.table = some table ∧
      initChannels params env params.channels.toNat = .ok (table, channels) ∧
      acquired = .channelTable :: channels ++ [.receiveSocket, .syncSocket] := by
  obtain ⟨⟨table, channels⟩, built, finish⟩ := bind_eq_ok.mp done
  cases finish
  exact ⟨table, channels, rfl, built, rfl⟩

theorem syncSocket_acquired (done : initNetwork before params env = .ok (network, acquired)) :
    .syncSocket ∈ acquired := by
  obtain ⟨table, channels, _, _, rfl⟩ := initNetwork_acquired done
  exact List.mem_append_right _ (List.mem_cons_of_mem _ (List.mem_singleton_self _))

theorem syncSocket_not_released (destroyed : destroyNetwork network = .ok (after, released)) :
    .syncSocket ∉ released := by
  obtain ⟨channel, first, _, torn, rfl⟩ := destroyNetwork_cases destroyed
  cases torn <;> decide

/-- Teardown never gives back a sync socket. -/
theorem not_exact_of_syncSocket (taken : .syncSocket ∈ acquired) :
    ¬ TeardownExact acquired used := by
  rintro ⟨after, released, destroyed, balanced⟩
  have held : Held.resource .syncSocket ∈ acquired.map .resource ++ used.receivingBuffers :=
    List.mem_append_left _ (List.mem_map_of_mem taken)
  rcases List.mem_append.mp (balanced.mem_iff.mpr held) with given | given
  · obtain ⟨resource, member, same⟩ := List.mem_map.mp given
    cases same
    exact syncSocket_not_released destroyed member
  · cases List.mem_singleton.mp given

/--
Teardown never undoes setup: whatever was configured and whatever has become of
the network, `destroy_network` does not give back what `init_network` and the
receiving thread acquired.
-/
theorem teardown_never_exact (done : initNetwork before params env = .ok (network, acquired)) :
    ¬ TeardownExact acquired used :=
  not_exact_of_syncSocket (syncSocket_acquired done)

/-! ### Beside the sync socket -/

/-- Teardown would be exact if it released the sync socket as well. -/
def ExactButSyncSocket (acquired : List Resource) (network : Network) : Prop :=
  ∃ after released, destroyNetwork network = .ok (after, released) ∧
    (givenBack (.syncSocket :: released)).Perm
      (acquired.map .resource ++ network.receivingBuffers)

/-- The first channel after set-up and use, with what was acquired for it and
for the other channels. -/
structure FirstChannel (params : NetParams) (env : NetEnv) (used : Network)
    (acquired : List Resource) (channel : Channel) (rest : List Channel)
    (first later : List Resource) : Prop where
  table : used.table = some (channel :: rest)
  length : rest.length + 1 = params.channels.toNat
  setUp : ChannelSetUp env 0 channel first
  split : acquired = .channelTable :: (first ++ later) ++ [.receiveSocket, .syncSocket]
  second : 1 < params.channels.toNat → .sendSocket 1 ∈ later
  only : params.channels.toNat = 1 → later = []

theorem first_channel (done : initNetwork before params env = .ok (network, acquired))
    (same : network.SameSetup used) (configured : params.channels ≠ 0) :
    ∃ channel rest first later,
      FirstChannel params env used acquired channel rest first later := by
  obtain ⟨table, channels, htable, built, rfl⟩ := initNetwork_acquired done
  have positive : params.channels.toNat ≠ 0 := fun zero => configured (UInt32.toNat_inj.mp zero)
  obtain ⟨count, hcount⟩ := Nat.exists_eq_succ_of_ne_zero positive
  rw [hcount] at built
  obtain ⟨first, later, parts⟩ := initChannels_firstSetUp built
  obtain ⟨channel, found, setUp⟩ := parts.first_setUp
  have mapped := same.table
  rw [htable] at mapped
  obtain ⟨table', htable', mapped⟩ := Option.map_eq_some_iff.mp mapped
  have length := congrArg List.length mapped
  rw [List.length_map, List.length_map, initChannels_length built] at length
  obtain ⟨channel', rest, rfl⟩ := List.exists_cons_of_length_eq_add_one length
  have entries := congrArg (fun channels : List Channel => channels[0]?) mapped
  simp only [List.getElem?_map, found, Option.map_some, List.getElem?_cons_zero] at entries
  have dev : channel'.identity.dev = channel.identity.dev :=
    congrArg Channel.dev (Option.some.inj entries)
  have setUp' : ChannelSetUp env 0 channel' first := by
    cases setUp with
    | found up => exact .found (dev.trans up)
    | missing stale => exact .missing (dev.trans stale)
  refine ⟨channel', rest, first, later, htable', ?_, setUp', ?_, ?_, ?_⟩
  · rw [hcount]
    exact length
  · rw [parts.split]
  · intro more
    exact parts.later_sockets 1 (Nat.le_refl _) (Nat.lt_of_lt_of_eq more hcount)
  · intro only
    exact parts.only_first (hcount.symm.trans only)

/-- The buffers of a table of one channel. -/
theorem receivingBuffers_single (only : used.table = some [channel]) :
    used.receivingBuffers = channel.queuedBuffers 0 ++ [.threadBuffer] := by
  rw [Network.receivingBuffers, only]
  simp

theorem channel_zero {rest : List Channel} (table : used.table = some (channel :: rest)) :
    used.channel 0 = .ok channel := by
  rw [Network.channel, table]
  rfl

/-- A queued message keeps its buffer through teardown. -/
theorem message_of_queued {rest : List Channel} (table : used.table = some (channel :: rest))
    (queued : channel.messageQueue ≠ []) : .message 0 0 ∈ used.receivingBuffers := by
  have position : 0 ∈ List.range channel.messageQueue.length :=
    List.mem_range.mpr (List.length_pos_iff.mpr queued)
  apply List.mem_append_left
  rw [table]
  exact List.mem_append_left _ (List.mem_map_of_mem position)

theorem resource_not_receiving (network : Network) (resource : Resource) :
    .resource resource ∉ network.receivingBuffers := by
  simp [Network.receivingBuffers, Channel.queuedBuffers]

theorem destroyNetwork_of_first {first : List Resource} (found : network.channel 0 = .ok channel)
    (torn : FirstTornDown channel first) : destroyNetwork network =
      .ok ({ network with table := none, receiving := false },
        first ++ [.channelTable, .receiveSocket]) := by
  rw [destroyNetwork_eq, destroyChannel, found, ok_bind]
  cases torn with
  | noDevice dev =>
      rw [dev]
      rfl
  | device up =>
      rw [up]
      rfl

/-- What teardown releases for the first channel, with the rest and the sync
socket, makes up for everything acquired. -/
def Balanced (acquired : List Resource) (used : Network) (torn : List Resource) : Prop :=
  (givenBack (.syncSocket :: (torn ++ [.channelTable, .receiveSocket]))).Perm
    (acquired.map .resource ++ used.receivingBuffers)

namespace FirstChannel

variable {rest : List Channel} {first later torn : List Resource}
  (parts : FirstChannel params env used acquired channel rest first later)

include parts

/-- The socket of a second channel is not released. -/
theorem one_of_balanced (released : FirstTornDown channel torn)
    (balanced : Balanced acquired used torn) : params.channels = 1 := by
  by_contra several
  have more : 1 < params.channels.toNat := by
    have other : params.channels.toNat ≠ 1 := fun one => several (UInt32.toNat_inj.mp one)
    have length := parts.length
    omega
  have taken : Resource.sendSocket 1 ∈ acquired := by
    rw [parts.split]
    exact List.mem_append_left _
      (List.mem_cons_of_mem _ (List.mem_append_right _ (parts.second more)))
  have given := balanced.mem_iff.mpr (List.mem_append_left _ (List.mem_map_of_mem taken))
  revert given
  cases released <;> decide

/-- A device that is released was acquired. -/
theorem clean_of_balanced (released : FirstTornDown channel torn)
    (balanced : Balanced acquired used torn) :
    .device 0 ∈ acquired ∨ env.staleDev 0 = .null := by
  cases released with
  | noDevice dev =>
      cases parts.setUp with
      | found up => cases dev.symm.trans up
      | missing stale => exact .inr (stale.symm.trans dev)
  | device up =>
      have given : Held.resource (.device 0) ∈ givenBack (.syncSocket ::
        ([.sendSocket 0, .device 0] ++ [.channelTable, .receiveSocket])) := by decide
      rcases List.mem_append.mp (balanced.mem_iff.mp given) with taken | taken
      · obtain ⟨resource, member, equal⟩ := List.mem_map.mp taken
        cases equal
        exact .inl member
      · exact (resource_not_receiving _ _ taken).elim

/-- The buffers of queued messages are not released. -/
theorem empty_of_balanced (released : FirstTornDown channel torn)
    (balanced : Balanced acquired used torn) : channel.messageQueue = [] := by
  by_contra queued
  have kept := message_of_queued parts.table queued
  have given := balanced.mem_iff.mpr (List.mem_append_right _ kept)
  revert given
  cases released <;> decide

theorem exact_of_one (one : params.channels = 1)
    (clean : .device 0 ∈ acquired ∨ env.staleDev 0 = .null) (empty : channel.messageQueue = []) :
    ExactButSyncSocket acquired used := by
  have single : params.channels.toNat = 1 := by
    rw [one]
    rfl
  obtain ⟨table, length, setUp, rfl, _, only⟩ := parts
  obtain rfl := only single
  obtain rfl : rest = [] := List.length_eq_zero_iff.mp (by omega)
  have buffers : used.receivingBuffers = [.threadBuffer] := by
    rw [receivingBuffers_single table, Channel.queuedBuffers, empty]
    rfl
  cases setUp with
  | found up =>
      refine ⟨_, _, destroyNetwork_of_first (channel_zero table) (.device up), ?_⟩
      rw [buffers]
      decide
  | missing stale =>
      have dev : channel.dev = .null := by
        rcases clean with taken | null
        · have missing : Resource.device 0 ∉ Resource.channelTable ::
              ([.sendSocket 0] ++ []) ++ [.receiveSocket, .syncSocket] := by decide
          exact (missing taken).elim
        · exact stale.trans null
      refine ⟨_, _, destroyNetwork_of_first (channel_zero table) (.noDevice dev), ?_⟩
      rw [buffers]
      decide

end FirstChannel

/-- Beside the sync socket, teardown misses nothing exactly if there is one
channel, its `dev` field is no leftover, and its queue is empty. -/
theorem exactButSyncSocket_iff (done : initNetwork before params env = .ok (network, acquired))
    (same : network.SameSetup used) :
    ExactButSyncSocket acquired used ↔ params.channels = 1 ∧
      (.device 0 ∈ acquired ∨ env.staleDev 0 = .null) ∧
      ∀ channel, used.channel 0 = .ok channel → channel.messageQueue = [] := by
  rcases eq_or_ne params.channels 0 with noChannel | configured
  · constructor
    · rintro ⟨after, released, destroyed, _⟩
      rw [destroyNetwork_noChannel done same noChannel] at destroyed
      cases destroyed
    · rintro ⟨one, _⟩
      cases noChannel.symm.trans one
  · obtain ⟨channel, rest, first, later, parts⟩ := first_channel done same configured
    have found := channel_zero parts.table
    constructor
    · rintro ⟨after, released, destroyed, balanced⟩
      obtain ⟨channel', torn, found', released, rfl⟩ := destroyNetwork_cases destroyed
      cases found.symm.trans found'
      refine ⟨parts.one_of_balanced released balanced, parts.clean_of_balanced released balanced,
        ?_⟩
      intro channel' found'
      cases found.symm.trans found'
      exact parts.empty_of_balanced released balanced
    · rintro ⟨one, clean, empty⟩
      exact parts.exact_of_one one clean (empty channel found)

end Teardown

/-- The parameters of one channel on the card. -/
def cardParams : NetParams :=
  ⟨1, some (List.replicate ifnamsiz 0), some networkCard.devAddr.toList⟩

theorem initNetwork_card :
    ∃ network acquired, initNetwork zeroNetwork cardParams .carded = .ok (network, acquired) :=
  ⟨_, _, rfl⟩

/-- One channel on the card, nothing queued. -/
theorem teardown_never_exact_oneChannel :
    ∃ network acquired, initNetwork zeroNetwork cardParams .carded = .ok (network, acquired) ∧
      ¬ TeardownExact acquired network := by
  obtain ⟨network, acquired, done⟩ := initNetwork_card
  exact ⟨network, acquired, done, teardown_never_exact done⟩

/-- The sync socket of one channel's network is lost. -/
theorem syncSocket_lost :
    ¬ ∀ (before network used : Network) (params : NetParams) (env : NetEnv)
      (acquired : List Resource), initNetwork before params env = .ok (network, acquired) →
      network.SameSetup used → TeardownExact acquired used := by
  intro claim
  obtain ⟨network, acquired, done⟩ := initNetwork_card
  exact not_exact_of_syncSocket (syncSocket_acquired done) (claim _ _ _ _ _ _ done (.refl _))

end NetworkCode.Kernel
