import NetworkCode.Kernel.VariableSpace

/-!
# The network abstraction

Channels, message slots, sending, receiving and synchronisation.  What the
kernel answers (socket reads, driver status, freshly allocated memory, clock
readings) is an argument of the function that asks for it.
-/

namespace NetworkCode.Kernel

open Library Library.Checked

/-! ## Constants -/

/-- `MAX_CHANNELS` -/
def maxChannels : Nat := 1

/-- `MAX_MESSAGES` -/
def maxMessages : Nat := 10

/-- `ETH_ALEN` -/
def ethAlen : Nat := 6

/-- `ETH_HLEN` -/
def ethHlen : Nat := 14

/-- `ETH_ZLEN` -/
def ethZlen : Nat := 60

/-- `ETH_DATA_LEN` -/
def ethDataLen : Nat := 1500

/-- `ETH_FRAME_LEN` -/
def ethFrameLen : Nat := 1514

/-- `IFNAMSIZ` -/
def ifnamsiz : Nat := 16

/-- `ETH_P_NC` -/
def ethPNc : UInt16 := 0x9009

/-- `ETH_P_NC_SYNC` -/
def ethPNcSync : UInt16 := 0x900A

/-- `NC_ENOMSG` -/
def ncEnomsg : Int := 35

/-- `NC_ENOIF` -/
def ncEnoif : Int := 36

/-- `NC_ETOOBIG` -/
def ncEtoobig : Int := 37

/-- `NC_ENOTNC` -/
def ncEnotnc : Int := 38

/-- `NC_ETIMEOUT` -/
def ncEtimeout : Int := 40

/-- The two bytes of a protocol number in network order. -/
def htons (protocol : UInt16) : List UInt8 :=
  [(protocol >>> 8).toUInt8, protocol.toUInt8]

/-! ## Data -/

abbrev Mac := Vector UInt8 ethAlen

def broadcastMac : Mac := Vector.replicate ethAlen 0xFF

/-- The fields of `struct net_device` that the module reads. -/
structure NetDevice where
  ifindex : UInt32
  devAddr : Mac
  deriving DecidableEq

/-- A `struct net_device *`, which the set-up may leave unset. -/
inductive DevPtr where
  | null
  | device (dev : NetDevice)
  | wild
  deriving DecidableEq

/-- `nc_message_t`; the list node is the message's place in its queue. -/
structure NcMessage where
  value : List UInt8
  length : UInt32
  value_length : value.length = ethDataLen
  deriving DecidableEq

/-- `nc_channel_t`, with the message queue from the head of its list on -/
structure Channel where
  messageQueue : List NcMessage
  mac : Mac
  ifindex : UInt32
  dev : DevPtr
  deriving DecidableEq

/-- The part of `struct sk_buff` that the module uses: the buffer from `head`
on, where `data` also points, and the length. -/
structure SkBuff where
  head : List UInt8
  len : Nat
  deriving DecidableEq

inductive Mode where
  | hard
  | soft
  deriving DecidableEq, Repr

/-- `ncm_network_t` -/
structure Network where
  channels : UInt32
  /-- The block `at` points to; none once it has been released. -/
  table : Option (List Channel)
  mac : Mac
  messageSpace : Vector (Option SkBuff) maxMessages
  syncPacketlen : Nat
  mode : Mode
  /-- The receiving thread exists. -/
  receiving : Bool
  /-- The receiving thread's buffer for the next arrival. -/
  ncMsg : NcMessage
  deriving DecidableEq

/-- `ncm_net_params_t`, with the two tables as the bytes of their blocks -/
structure NetParams where
  channels : UInt32
  netDeviceName : Option (List UInt8)
  channelMac : Option (List UInt8)
  deriving DecidableEq

/-- What a transmission hands to the world. -/
inductive NetEvent where
  /-- `ndo_start_xmit` of the device, with the driver's answer. -/
  | xmit (dev : NetDevice) (frame : List UInt8) (status : Int)
  /-- `kernel_sendmsg` on a raw socket. -/
  | sendmsg (ifindex : UInt32) (packet : List UInt8)
  deriving DecidableEq

/-! ## Sending -/

/-- The memory that `alloc_skb` returns, with the bytes it held before. -/
def allocSkb (size : Nat) (memory : Nat → UInt8) : List UInt8 :=
  (List.range size).map memory

@[simp] theorem allocSkb_length (size : Nat) (memory : Nat → UInt8) :
    (allocSkb size memory).length = size := by
  simp [allocSkb]

/-- An entry of the channel table. -/
def Network.channel (net : Network) (chan : Nat) : Exec Channel :=
  match net.table with
  | none => .error .freedChannels
  | some table =>
      match table[chan]? with
      | none => .error (.outOfBounds .channels chan)
      | some channel => .ok channel

/-- `nc_sendmsg_hard`: the result, what is left in the slot, and the hand-over. -/
def ncSendmsgHard (destMac : Mac) (dev : DevPtr) (slot : Option SkBuff) (status : Int) :
    Exec (Int × Option SkBuff × List NetEvent) :=
  match slot with
  | none => return (-ncEnoif, none, [])
  | some skb =>
      match dev with
      | .device dev =>
          let head := Bytes.overwrite skb.head 0 destMac.toList
          let head := Bytes.overwrite head ethAlen dev.devAddr.toList
          return (status, none, [.xmit dev (head.take skb.len) status])
      | _ => .error .wildDevice

/-- `nc_sendmsg`; the header is written in front of `data`. -/
def ncSendmsg (srcMac destMac : Mac) (ifindex : UInt32) (data : List UInt8) (length : Nat)
    (protocol : UInt16) : Int × List NetEvent :=
  if length > ethDataLen then
    (-ncEtoobig, [])
  else if ifindex.toInt32 ≤ 0 then
    (-ncEnoif, [])
  else
    (0, [.sendmsg ifindex
      (destMac.toList ++ srcMac.toList ++ htons protocol ++ data.take length)])

/-- `*out_length`, where the pointer to a `size_t` is the address of a `u32`. -/
def storeSize (long : LongWidth) (size : Nat) : Exec Nat :=
  if long.bits ≤ 32 then .ok size else .error (.wideStore long.bits)

theorem storeSize_eq_ok {long : LongWidth} {size len : Nat} :
    storeSize long size = .ok len ↔ long = .bits32 ∧ size = len := by
  cases long with
  | bits32 => simp [storeSize, LongWidth.bits]
  | bits64 => simp [storeSize, LongWidth.bits]

def ncmCreateMessageFromVar (long : LongWidth) (net : Network) (varspace : Varspace)
    (varId msgId : Nat) (memory : Nat → UInt8) : Exec Network := do
  let _ ← load (.outOfBounds .messages) net.messageSpace msgId
  let head := allocSkb ethFrameLen memory
  let value ← getVariableData varspace varId
  let len ← storeSize long value.length
  let head := Bytes.overwrite head ethHlen value
  let head := Bytes.overwrite head 12 (htons ethPNc)
  let slots ← store (.outOfBounds .messages) net.messageSpace msgId
    (some ⟨head, ethHlen + len⟩)
  return { net with messageSpace := slots }

def ncmSetModeHard (net : Network) : Network := { net with mode := .hard }

def ncmSetModeSoft (net : Network) : Network := { net with mode := .soft }

def ncmSendMessageHard (net : Network) (chan msgId : Nat) (status : Int) :
    Exec (Int × Network × List NetEvent) := do
  let channel ← net.channel chan
  match channel.dev with
  | .null => return (-9001, net, [])
  | dev =>
      let slot ← load (.outOfBounds .messages) net.messageSpace msgId
      let (ret, slot, events) ← ncSendmsgHard broadcastMac dev slot status
      let slots ← store (.outOfBounds .messages) net.messageSpace msgId slot
      return (ret, { net with messageSpace := slots }, events)

-- the freed buffer stays referenced by its slot
def ncmSendMessageSoft (net : Network) (chan msgId : Nat) :
    Exec (Int × Network × List NetEvent) := do
  let slot ← load (.outOfBounds .messages) net.messageSpace msgId
  match slot with
  | none => return (-ncEnoif, net, [])
  | some skb =>
      let channel ← net.channel chan
      let (ret, events) :=
        ncSendmsg net.mac broadcastMac channel.ifindex skb.head skb.len ethPNc
      return (ret, net, events)

def ncmSendMessage (net : Network) (chan msgId : Nat) (status : Int) :
    Exec (Int × Network × List NetEvent) :=
  match net.mode with
  | .hard => ncmSendMessageHard net chan msgId status
  | .soft => ncmSendMessageSoft net chan msgId

def ncmSendSyncHard (net : Network) (chan : Nat) (memory : Nat → UInt8) (status : Int) :
    Exec (Int × List NetEvent) := do
  let channel ← net.channel chan
  match channel.dev with
  | .null => return (-9001, [])
  | dev =>
      let head := Bytes.overwrite (allocSkb ethZlen memory) 12 (htons ethPNcSync)
      let (ret, _, events) ← ncSendmsgHard broadcastMac dev (some ⟨head, ethHlen⟩) status
      return (ret, events)

-- `sync_packet` is never written: its payload is zero
def ncmSendSyncSoft (net : Network) (chan : Nat) : Exec (Int × List NetEvent) := do
  let channel ← net.channel chan
  return ncSendmsg net.mac broadcastMac channel.ifindex
    (List.replicate (ethZlen - ethHlen) 0) (net.syncPacketlen - ethHlen) ethPNcSync

def ncmSendSync (net : Network) (chan : Nat) (memory : Nat → UInt8) (status : Int) :
    Exec (Int × List NetEvent) :=
  match net.mode with
  | .hard => ncmSendSyncHard net chan memory status
  | .soft => ncmSendSyncSoft net chan

/-! ## Receiving -/

/-- What a socket read delivers: an error `-(n + 1)`, or the next frame. -/
inductive SockRead where
  | failed (n : Nat)
  | frame (bytes : List UInt8)
  deriving DecidableEq

/-- `kernel_recvmsg` copies at most the buffer size and returns the number of
bytes copied. -/
def kernelRecvmsg (buff : List UInt8) : SockRead → Int × List UInt8
  | .failed n => (Int.negSucc n, buff)
  | .frame bytes =>
      ((bytes.take buff.length).length, Bytes.overwrite buff 0 (bytes.take buff.length))

/-- `((struct ethhdr *) buff)->h_source` -/
def hSource (buff : List UInt8) : List UInt8 := Bytes.slice buff ethAlen ethAlen

/-- `((struct ethhdr *) buff)->h_proto` -/
def hProto (buff : List UInt8) : List UInt8 := Bytes.slice buff 12 2

/-- `nc_rcvmsg`; the buffer it leaves is that of `kernel_recvmsg`. -/
def ncRcvmsg (buff : List UInt8) (read : SockRead) (protocol : UInt16) : Exec Int :=
  let (length, buff) := kernelRecvmsg buff read
  if length < 0 then
    .ok length
  else if buff.length < ethHlen then
    .error (.shortBuffer buff.length)
  else if hProto buff ≠ htons protocol then
    .ok (-ncEnotnc)
  else
    .ok length

theorem kernelRecvmsg_length (buff : List UInt8) (read : SockRead) :
    (kernelRecvmsg buff read).2.length = buff.length := by
  cases read with
  | failed n => rfl
  | frame bytes =>
      have short : 0 + (bytes.take buff.length).length ≤ buff.length := by
        rw [Nat.zero_add, List.length_take]
        exact Nat.min_le_left _ _
      exact Bytes.overwrite_length short

/-- The message buffer after a read into it. -/
def NcMessage.read (msg : NcMessage) (read : SockRead) : NcMessage :=
  { msg with
    value := (kernelRecvmsg msg.value read).2
    value_length := (kernelRecvmsg_length msg.value read).trans msg.value_length }

/-- The locked section of `receiving_threadfn`: `list_add` links at the head. -/
def listAdd (msg : NcMessage) (queue : List NcMessage) : List NcMessage :=
  msg :: queue

/-- Replace the message queue of one channel. -/
def Network.setQueue (net : Network) (chan : Nat) (queue : List NcMessage) : Network :=
  { net with
    table := net.table.map fun table =>
      table.modify chan fun channel => { channel with messageQueue := queue } }

/-- The body of the channel loop of `receiving_threadfn`; a match takes the
buffer away and continues with a newly allocated one. -/
def offerToChannel (kmalloc : Nat → NcMessage) (state : Network × NcMessage) (chan : Nat) :
    Exec (Network × NcMessage) := do
  let (net, msg) := state
  let channel ← net.channel chan
  if channel.mac.toList = hSource msg.value then
    return (net.setQueue chan (listAdd msg channel.messageQueue), kmalloc chan)
  else
    return (net, msg)

/-- The two ways through the body of the channel loop. -/
inductive ChannelOffer (kmalloc : Nat → NcMessage) (net : Network) (msg : NcMessage) (chan : Nat) :
    Network × NcMessage → Prop where
  | links {channel : Channel} (found : net.channel chan = .ok channel)
      (same : channel.mac.toList = hSource msg.value) :
      ChannelOffer kmalloc net msg chan
        (net.setQueue chan (listAdd msg channel.messageQueue), kmalloc chan)
  | passes {channel : Channel} (found : net.channel chan = .ok channel)
      (other : channel.mac.toList ≠ hSource msg.value) :
      ChannelOffer kmalloc net msg chan (net, msg)

theorem offerToChannel_cases {kmalloc : Nat → NcMessage} {net : Network} {msg : NcMessage}
    {chan : Nat} {after : Network × NcMessage}
    (offered : offerToChannel kmalloc (net, msg) chan = .ok after) :
    ChannelOffer kmalloc net msg chan after := by
  obtain ⟨channel, found, offered⟩ := bind_eq_ok.mp offered
  split at offered
  · next same =>
      cases offered
      exact .links found same
  · next other =>
      cases offered
      exact .passes found other

/-- One pass of the loop of `receiving_threadfn` that is not told to stop,
with `bound` for `MAX_CHANNELS`. -/
def receivingPass (bound : Nat) (net : Network) (read : SockRead) (kmalloc : Nat → NcMessage) :
    Exec Network := do
  let length ← ncRcvmsg net.ncMsg.value read ethPNc
  let msg := net.ncMsg.read read
  if length < 0 then
    return { net with ncMsg := msg }
  let msg := { msg with length := UInt32.ofNat length.toNat }
  let (net, msg) ← (List.range bound).foldlM (offerToChannel kmalloc) (net, msg)
  return { net with ncMsg := msg }

/-- The two ways in which a pass ends: the read is refused, or the message is
offered to all channels. -/
inductive PassEnd (bound : Nat) (net : Network) (read : SockRead) (kmalloc : Nat → NcMessage) :
    Network → Prop where
  | refuses {length : Int} (answer : ncRcvmsg net.ncMsg.value read ethPNc = .ok length)
      (negative : length < 0) :
      PassEnd bound net read kmalloc { net with ncMsg := net.ncMsg.read read }
  | offers {length : Int} {net' : Network} {msg : NcMessage}
      (answer : ncRcvmsg net.ncMsg.value read ethPNc = .ok length) (nonneg : ¬ length < 0)
      (offered : (List.range bound).foldlM (offerToChannel kmalloc)
        (net, { net.ncMsg.read read with length := UInt32.ofNat length.toNat }) =
          .ok (net', msg)) :
      PassEnd bound net read kmalloc { net' with ncMsg := msg }

theorem receivingPass_cases {bound : Nat} {net after : Network} {read : SockRead}
    {kmalloc : Nat → NcMessage} (received : receivingPass bound net read kmalloc = .ok after) :
    PassEnd bound net read kmalloc after := by
  obtain ⟨length, answer, received⟩ := bind_eq_ok.mp received
  dsimp only at received
  split at received
  · next negative =>
      cases received
      exact .refuses answer negative
  · next nonneg =>
      obtain ⟨⟨net', msg⟩, offered, finish⟩ := bind_eq_ok.mp received
      cases finish
      exact .offers answer nonneg offered

/-- `ncm_receive_message_to_var` without interference: the first entry is
copied without its header and then unlinked. -/
def ncmReceiveMessageToVar (net : Network) (varspace : Varspace) (chan varId : Nat) :
    Exec (Int × Network × Varspace) := do
  let channel ← net.channel chan
  match channel.messageQueue with
  | [] => return (-ncEnomsg, net, varspace)
  | msg :: rest =>
      let varspace ← setVariableData varspace varId (msg.value.drop ethHlen)
        (msg.length - UInt32.ofNat ethHlen).toNat
      return (0, net.setQueue chan rest, varspace)

/-- The two ways in which a RECEIVE returns. -/
inductive VarReceive (net : Network) (varspace : Varspace) (chan varId : Nat) :
    Int → Network → Varspace → Prop where
  | emptyQueue {channel : Channel} (found : net.channel chan = .ok channel)
      (empty : channel.messageQueue = []) :
      VarReceive net varspace chan varId (-ncEnomsg) net varspace
  | takes {channel : Channel} {msg : NcMessage} {rest : List NcMessage} {varspace' : Varspace}
      (found : net.channel chan = .ok channel) (queue : channel.messageQueue = msg :: rest)
      (stored : setVariableData varspace varId (msg.value.drop ethHlen)
        (msg.length - UInt32.ofNat ethHlen).toNat = .ok varspace') :
      VarReceive net varspace chan varId 0 (net.setQueue chan rest) varspace'

theorem ncmReceiveMessageToVar_cases {net after : Network} {varspace varspace' : Varspace}
    {chan varId : Nat} {ret : Int}
    (received : ncmReceiveMessageToVar net varspace chan varId = .ok (ret, after, varspace')) :
    VarReceive net varspace chan varId ret after varspace' := by
  obtain ⟨channel, found, received⟩ := bind_eq_ok.mp received
  split at received
  · next empty =>
      cases received
      exact .emptyQueue found empty
  · next msg rest queue =>
      obtain ⟨stored, wrote, finish⟩ := bind_eq_ok.mp received
      cases finish
      exact .takes found queue wrote

def ncmRxBuffEmpty (net : Network) (chan : Nat) : Exec Bool := do
  let channel ← net.channel chan
  return channel.messageQueue.isEmpty

/-! ## Waiting for a sync -/

/-- The loop of `ncm_receive_sync`: the result and the remaining times it arms
the socket with, already narrowed for `usecs_to_jiffies`. -/
def receiveSyncLoop (timeout start : Int64) :
    List UInt8 → List (SockRead × UInt64) → Exec (Int × List UInt32)
  | _, [] => .error .stillWaiting
  | buff, (read, nowUs) :: reads => do
      let length ← ncRcvmsg buff read ethPNcSync
      if length < 0 then
        let now := nowUs.toInt64
        if start - now + timeout < 0 then
          return (-ncEtimeout, [])
        let (result, armed) ← receiveSyncLoop timeout start (kernelRecvmsg buff read).2 reads
        return (result, (start - now + timeout).toUInt64.toUInt32 :: armed)
      else
        return (0, [])

/-- `ncm_receive_sync`, with the contents of the stack for its buffer, the
clock at its start, and each read with the clock right after it. -/
def ncmReceiveSync (net : Network) (timeout : Int64) (stack : Nat → UInt8) (startUs : UInt64)
    (reads : List (SockRead × UInt64)) : Exec (Int × List UInt32) := do
  let (result, armed) ← receiveSyncLoop timeout startUs.toInt64
    ((List.range net.syncPacketlen).map stack) reads
  return (result, timeout.toUInt64.toUInt32 :: armed)

/-! ## Set-up and teardown -/

/-- What the kernel answers during `init_network`: the devices it knows, and
the `dev` fields left in the memory of the new channel table. -/
structure NetEnv where
  devGetByName : List UInt8 → Option NetDevice
  staleDev : Nat → DevPtr
  /-- The receiving thread's first message buffer. -/
  ncMsg : NcMessage

/-- Resources taken by `init_network` and given back by `destroy_network`. -/
inductive Resource where
  | sendSocket (chan : Nat)
  | device (chan : Nat)
  | receiveSocket
  | syncSocket
  | channelTable
  deriving DecidableEq, Repr

/-- `count` bytes of a parameter block from `offset` on. -/
def readBlock (block : Option (List UInt8)) (offset count : Nat) :
    Exec (Vector UInt8 count) :=
  match block with
  | none => .error (.copyTooLong count)
  | some bytes =>
      if h : (Bytes.slice bytes offset count).length = count then
        .ok ⟨(Bytes.slice bytes offset count).toArray, by simpa using h⟩
      else
        .error (.copyTooLong count)

/-- The loop body of `init_network`, with the resources it acquires. -/
def initChannel (params : NetParams) (env : NetEnv) (i : Nat) :
    Exec (Channel × List Resource) := do
  let mac ← readBlock params.channelMac (ethAlen * i) ethAlen
  let name ← readBlock params.netDeviceName (ifnamsiz * i) ifnamsiz
  match env.devGetByName name.toList with
  | none => return (⟨[], mac, -1, env.staleDev i⟩, [.sendSocket i])
  | some dev => return (⟨[], mac, dev.ifindex, .device dev⟩, [.device i, .sendSocket i])

/-- The first channels of the table. -/
def initChannels (params : NetParams) (env : NetEnv) : Nat → Exec (List Channel × List Resource)
  | 0 => return ([], [])
  | i + 1 => do
      let (table, acquired) ← initChannels params env i
      let (channel, more) ← initChannel params env i
      return (table ++ [channel], acquired ++ more)

/-- `init_network`; every `sock_create` is taken to succeed. -/
def initNetwork (net : Network) (params : NetParams) (env : NetEnv) :
    Exec (Network × List Resource) := do
  let (table, acquired) ← initChannels params env params.channels.toNat
  let net := { net with
    channels := params.channels
    table := some table
    -- assigned in the body of the loop over the channels
    syncPacketlen := if params.channels = 0 then net.syncPacketlen else ethZlen
    messageSpace := Vector.replicate maxMessages none
    receiving := true
    ncMsg := env.ncMsg }
  return (ncmSetModeHard net, .channelTable :: acquired ++ [.receiveSocket, .syncSocket])

/-- The loop body of `destroy_network`, with the resources it releases. -/
def destroyChannel (net : Network) (i : Nat) : Exec (List Resource) := do
  let channel ← net.channel i
  match channel.dev with
  | .null => return [.sendSocket i]
  | .device _ => return [.sendSocket i, .device i]
  | .wild => .error .wildDevice

/-- `destroy_network` -/
def destroyNetwork (net : Network) : Exec (Network × List Resource) := do
  let released ← (List.range maxChannels).mapM (destroyChannel net)
  return ({ net with table := none, receiving := false },
    released.flatten ++ [.channelTable, .receiveSocket])

end NetworkCode.Kernel
