import NetworkCode.Kernel.MissingDevice
import NetworkCode.Library.Lockstep

/-!
# What the memory held before

The module does not clear the memory that it allocates.  Two networks that
differ only in what their buffers held before answer every request alike, as
long as the frames that arrive have a header.
-/

namespace NetworkCode.Kernel

open Library Library.Checked

/-! ## Networks over different memory -/

/-- The same frame was read, over whatever the buffers held. -/
structure NcMessage.Resembles (left right : NcMessage) : Prop where
  length : left.length = right.length
  header : ethHlen ≤ left.length.toNat
  bytes : left.value.take left.length.toNat = right.value.take left.length.toNat

/-- The same frame goes out, whatever the device. -/
def SkBuff.Resembles (left right : SkBuff) : Prop :=
  ∀ dev, hardFrame broadcastMac dev left = hardFrame broadcastMac dev right

structure Channel.Resembles (left right : Channel) : Prop where
  mac : left.mac = right.mac
  dev : left.dev = right.dev
  messageQueue : List.Forall₂ NcMessage.Resembles left.messageQueue right.messageQueue

/-- Networks in hard mode that differ at most in what their memory held. -/
structure Network.Resembles (left right : Network) : Prop where
  hard : left.mode = .hard
  hard' : right.mode = .hard
  receiving : left.receiving = right.receiving
  syncPacketlen : left.syncPacketlen = right.syncPacketlen
  channel : ∀ chan, Alike Channel.Resembles (left.channel chan) (right.channel chan)
  slots : Entrywise (Option.Rel SkBuff.Resembles) left.messageSpace right.messageSpace

/-! ## Frames over different memory -/

section Frames

variable {left right skb : SkBuff} {mac : Mac} {dev : NetDevice} {value : List UInt8}

end Frames

/-! ## Sending -/

section Sending

variable {left right : Network} {long : LongWidth} {varspace : Varspace}
  {chan varId msgId : Nat} {status : Int}

end Sending

/-! ## Receiving -/

section Receiving

variable {left right : Network} {msg msg' : NcMessage} {varspace : Varspace} {chan varId : Nat}

theorem Network.Resembles.setQueue (same : left.Resembles right) {queue queue' : List NcMessage}
    (queues : List.Forall₂ NcMessage.Resembles queue queue') (chan : Nat) :
    (left.setQueue chan queue).Resembles (right.setQueue chan queue') := by
  refine ⟨same.hard, same.hard', same.receiving, same.syncPacketlen, fun other => ?_, same.slots⟩
  rw [Network.channel_setQueue, Network.channel_setQueue]
  refine (same.channel other).bind fun channel channel' found => .ok ?_
  split
  · exact ⟨found.mac, found.dev, queues⟩
  · exact found

end Receiving

/-! ## Waiting for a sync -/

section Waiting

variable {buff buff' : List UInt8} {read : SockRead} {reads : List (SockRead × UInt64)}
  {timeout start : Int64} {left right : Network}

end Waiting

/-! ## Set-up and teardown -/

/-- The same devices are there, and where a configured name is not known the
memory of the channel table holds the same pointer. -/
structure SetUpAlike (params : NetParams) (env env' : NetEnv) : Prop where
  devices : env.devGetByName = env'.devGetByName
  unset : ∀ chan < params.channels.toNat, deviceNamed params env chan = none →
    env.staleDev chan = env'.staleDev chan

section SetUp

variable {left right : Network} {params : NetParams} {env env' : NetEnv}

end SetUp

end NetworkCode.Kernel
