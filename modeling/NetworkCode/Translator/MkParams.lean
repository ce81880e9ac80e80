import NetworkCode.Kernel.ParamsTables
import NetworkCode.Library.Text

/-!
# From a configuration to the params file and back

`mkparams.py` encodes a list of channels, `ncm_sysfs_store` splits the bytes
into two tables, `init_network` reads an entry of each for every channel, and
`ncm_sysfs_show` puts the bytes together again.  The three codecs agree.
-/

namespace NetworkCode.Translator

open Kernel Library Library.Checked

/-- A channel of the configuration. -/
structure ChannelParam where
  dev : String
  mac : String
  deriving DecidableEq, Repr

/-- `b`, the UTF-8 encoding of a text. -/
def b (text : List Char) : List UInt8 := Text.utf8 text

/-- `format_mac`; none where `unhexlify` raises. -/
def formatMac (mac : String) : Option (List UInt8) :=
  Text.unhexlify (b (mac.toList.filter (· ≠ ':')))

/-- `struct.pack('I', count)` on a little-endian machine; none where it raises. -/
def packUInt (count : Nat) : Option (List UInt8) :=
  if count < 2 ^ 32 then some (Bytes.littleEndian (UInt32.ofNat count)) else none

/-- `struct.pack('6s', bytes)` -/
def pack6s (bytes : List UInt8) : List UInt8 :=
  bytes.take 6 ++ List.replicate (6 - bytes.length) 0

/-- The output of `mkparams.py` for the channels of its input. -/
def mkparams (channels : List ChannelParam) : Option (List UInt8) := do
  let count ← packUInt channels.length
  let names := channels.flatMap fun param =>
    b (param.dev.toList ++ List.replicate (16 - param.dev.length) (Char.ofNat 0))
  let macs ← channels.mapM fun param => (formatMac param.mac).map pack6s
  return count ++ names ++ macs.flatten

/-- Six pairs of hexadecimal digits, joined by colons, write a MAC. -/
def WritesMac (text : String) (mac : Mac) : Prop :=
  ∃ pairs, List.Forall₂ Text.WritesOctet pairs mac.toList ∧
    text.toList = [':'].intercalate pairs

/-- A device name of at most 15 ASCII characters without a NUL. -/
structure IsDeviceName (dev : String) : Prop where
  short : dev.length ≤ 15
  ascii : ∀ character ∈ dev.toList, character.toNat < 128
  no_nul : Char.ofNat 0 ∉ dev.toList

/-- The codes of a name, padded with NULs. -/
def paddedName (dev : String) : List UInt8 :=
  dev.toList.map Text.asciiByte ++ List.replicate (ifnamsiz - dev.length) 0

/-- A channel that the configuration describes. -/
structure Describes (param : ChannelParam) (mac : Mac) : Prop where
  dev : IsDeviceName param.dev
  mac : WritesMac param.mac mac

/-- What becomes of a configuration that is written while the module is
stopped. -/
structure ParamsRoundTrip (long : LongWidth) (sysfs : NcmSysfs) (channels : List ChannelParam)
    (macs : List Mac) (buf : List UInt8) (after : NcmSysfs) : Prop where
  produced : mkparams channels = some buf
  accepted : buf.length = expectedLength long buf
  /-- Whatever the two blocks held before. -/
  stored : ∀ nameMemory macMemory : Nat → UInt8,
    ncmSysfsStoreParams sysfs long buf (some nameMemory) (some macMemory) = (after, none)
  count : after.interpParams.channels.toNat = channels.length
  /-- The tables hold the padded names and the MACs in list order. -/
  tables : ∃ names addresses, after.interpParams.netDeviceName = some names ∧
    after.interpParams.channelMac = some addresses ∧
    names.length = ifnamsiz * channels.length ∧ addresses.length = ethAlen * channels.length ∧
    ∀ i param mac, channels[i]? = some param → macs[i]? = some mac →
      Bytes.slice names (ifnamsiz * i) ifnamsiz = paddedName param.dev ∧
      Bytes.slice addresses (ethAlen * i) ethAlen = mac.toList
  /-- `init_network` gives them to the channels. -/
  initialised : ∀ network env, ∃ started acquired table,
    initNetwork network after.interpParams env = .ok (started, acquired) ∧
    started.table = some table ∧ table.length = channels.length ∧
    ∀ i param mac, channels[i]? = some param → macs[i]? = some mac →
      table[i]? = some (channelOf env i (paddedName param.dev) mac)
  read_back : ∀ page, page.length = pageSize → ncmSysfsShowParams long after page = .ok buf
  frame : after = { sysfs with interpParams := after.interpParams }

theorem formatMac_of_writes {text : String} {mac : Mac} (writes : WritesMac text mac) :
    (formatMac text).map pack6s = some mac.toList := by
  obtain ⟨pairs, octets, spelled⟩ := writes
  have decoded : formatMac text = some mac.toList := by
    rw [formatMac, spelled, Text.filter_intercalate octets]
    exact Text.unhexlify_of_writes octets
  have sized : mac.toList.length = 6 := Vector.length_toList
  rw [decoded, Option.map_some, pack6s, sized, List.take_of_length_le (Nat.le_of_eq sized)]
  simp

/-- A name is encoded as its codes with padding. -/
theorem encode_dev {dev : String} (name : IsDeviceName dev) :
    b (dev.toList ++ List.replicate (16 - dev.length) (Char.ofNat 0)) = paddedName dev := by
  have ascii : ∀ character ∈ dev.toList ++ List.replicate (16 - dev.length) (Char.ofNat 0),
      character.toNat < 128 := by
    intro character member
    rcases List.mem_append.mp member with inside | padding
    · exact name.ascii character inside
    · rw [List.eq_of_mem_replicate padding]
      decide
  rw [b, Text.utf8_of_ascii ascii, List.map_append, List.map_replicate]
  rfl

theorem length_paddedName {dev : String} (name : IsDeviceName dev) :
    (paddedName dev).length = ifnamsiz := by
  have short := name.short
  rw [paddedName, List.length_append, List.length_map, List.length_replicate, String.length_toList,
    ifnamsiz]
  omega

/-- The entries of a configuration. -/
theorem exists_names {channels : List ChannelParam} {macs : List Mac}
    (described : List.Forall₂ Describes channels macs) :
    ∃ names : List DeviceName, names.map Vector.toList = channels.map (paddedName ·.dev) := by
  induction described with
  | nil => exact ⟨[], rfl⟩
  | @cons param mac _ _ first _ ih =>
      obtain ⟨names, same⟩ := ih
      have sized := length_paddedName first.dev
      refine ⟨⟨(paddedName param.dev).toArray, by simpa using sized⟩ :: names, ?_⟩
      rw [List.map_cons, List.map_cons, same]
      rfl

section RoundTrip

variable {channels : List ChannelParam} {macs : List Mac} {names : List DeviceName}

/-- A name and its entry, position by position. -/
theorem name_eq (same : names.map Vector.toList = channels.map (paddedName ·.dev)) {i : Nat}
    {param : ChannelParam} (found : channels[i]? = some param) (bound : i < names.length) :
    names[i].toList = paddedName param.dev := by
  have entry := congrArg (·[i]?) same
  simp only [List.getElem?_map, found, List.getElem?_eq_getElem bound, Option.map_some] at entry
  exact Option.some.inj entry

variable (described : List.Forall₂ Describes channels macs)

include described

theorem encode_names : (channels.flatMap fun param =>
      b (param.dev.toList ++ List.replicate (16 - param.dev.length) (Char.ofNat 0))) =
    channels.flatMap (paddedName ·.dev) := by
  induction described with
  | nil => rfl
  | cons first _ ih => rw [List.flatMap_cons, List.flatMap_cons, ih, encode_dev first.dev]

theorem encode_macs : (channels.mapM fun param => (formatMac param.mac).map pack6s) =
    some (macs.map Vector.toList) := by
  induction described with
  | nil => rfl
  | cons first _ ih =>
      rw [List.mapM_cons, formatMac_of_writes first.mac, ih]
      rfl

/-- What `mkparams.py` writes. -/
theorem mkparams_eq (same : names.map Vector.toList = channels.map (paddedName ·.dev))
    (fits : 4 + channelSize * channels.length ≤ pageSize) :
    mkparams channels = some (paramsBytes names macs) := by
  have count : names.length = channels.length := by
    simpa using congrArg List.length same
  have part : channels.length ≤ channelSize * channels.length :=
    Nat.le_mul_of_pos_left _ (by decide)
  have bound : pageSize < 2 ^ 32 := by decide
  have packed : packUInt channels.length =
      some (Bytes.littleEndian (UInt32.ofNat channels.length)) := if_pos (by omega)
  have table : channels.flatMap (paddedName ·.dev) = tableOf names := by
    rw [tableOf, List.flatMap_def, ← same, List.flatMap_def]
  unfold mkparams
  rw [packed, encode_macs described, encode_names described, table, paramsBytes, count, tableOf,
    List.flatMap_def]
  rfl

/-- A configuration that fits in a page survives the way to the module, to the
channels and back. -/
theorem params_roundTrip (long : LongWidth) {sysfs : NcmSysfs}
    (stopped : sysfs.ncmInterp.isRunning = false)
    (fits : 4 + channelSize * channels.length ≤ pageSize) :
    ∃ buf after, ParamsRoundTrip long sysfs channels macs buf after := by
  obtain ⟨names, same⟩ := exists_names described
  have count : names.length = channels.length := by simpa using congrArg List.length same
  have paired : macs.length = names.length := described.length_eq.symm.trans count.symm
  have room : 4 + channelSize * names.length ≤ pageSize := by rw [count]; exact fits
  have holds := holds_paramsBytes paired room
  refine ⟨paramsBytes names macs, _, mkparams_eq described same fits, ?_,
    store_paramsBytes paired room stopped long, ?_, ?_, ?_, ?_, rfl⟩
  · exact expectedLength_paramsBytes paired room long
  · exact holds.names_count.symm.trans count
  · refine ⟨_, _, rfl, rfl, ?_, ?_, ?_⟩
    · rw [length_tableOf, count]
    · rw [length_tableOf, paired, count]
    · intro i param mac found addressed
      obtain ⟨bound, rfl⟩ := List.getElem?_eq_some_iff.mp addressed
      have named : i < names.length := paired ▸ bound
      exact ⟨(slice_tableOf names named).trans (name_eq same found named), slice_tableOf macs bound⟩
  · intro network env
    obtain ⟨started, acquired, table, done, left, length, entries⟩ :=
      initNetwork_of_holds holds network env
    refine ⟨started, acquired, table, done, left, length.trans count, ?_⟩
    intro i param mac found addressed
    obtain ⟨bound, rfl⟩ := List.getElem?_eq_some_iff.mp addressed
    have named : i < names.length := paired ▸ bound
    rw [entries i named bound, name_eq same found named]
  · intro page paged
    exact show_of_holds holds rfl paged room long

end RoundTrip

theorem eth0_described : Describes ⟨"eth0", "08:00:27:C0:56:5B"⟩
    #v[0x08, 0x00, 0x27, 0xC0, 0x56, 0x5B] where
  dev := by
    have all : "eth0".toList.all (fun character => character.toNat < 128) = true := by decide
    refine ⟨by decide, fun character member => ?_, by decide⟩
    exact of_decide_eq_true (List.all_eq_true.mp all character member)
  mac := by
    refine ⟨[['0', '8'], ['0', '0'], ['2', '7'], ['C', '0'], ['5', '6'], ['5', 'B']], ?_, ?_⟩
    · exact .cons ⟨_, _, 0, 8, rfl, rfl, rfl, rfl⟩ <| .cons ⟨_, _, 0, 0, rfl, rfl, rfl, rfl⟩ <|
        .cons ⟨_, _, 2, 7, rfl, rfl, rfl, rfl⟩ <| .cons ⟨_, _, 12, 0, rfl, rfl, rfl, rfl⟩ <|
        .cons ⟨_, _, 5, 6, rfl, rfl, rfl, rfl⟩ <| .cons ⟨_, _, 5, 11, rfl, rfl, rfl, rfl⟩ .nil
    · decide

theorem wlan0_described : Describes ⟨"wlan0", "00:1b:21:3a:f0:0e"⟩
    #v[0x00, 0x1b, 0x21, 0x3a, 0xf0, 0x0e] where
  dev := by
    have all : "wlan0".toList.all (fun character => character.toNat < 128) = true := by decide
    refine ⟨by decide, fun character member => ?_, by decide⟩
    exact of_decide_eq_true (List.all_eq_true.mp all character member)
  mac := by
    refine ⟨[['0', '0'], ['1', 'b'], ['2', '1'], ['3', 'a'], ['f', '0'], ['0', 'e']], ?_, ?_⟩
    · exact .cons ⟨_, _, 0, 0, rfl, rfl, rfl, rfl⟩ <| .cons ⟨_, _, 1, 11, rfl, rfl, rfl, rfl⟩ <|
        .cons ⟨_, _, 2, 1, rfl, rfl, rfl, rfl⟩ <| .cons ⟨_, _, 3, 10, rfl, rfl, rfl, rfl⟩ <|
        .cons ⟨_, _, 15, 0, rfl, rfl, rfl, rfl⟩ <| .cons ⟨_, _, 0, 14, rfl, rfl, rfl, rfl⟩ .nil
    · decide

/-- Two channels, with names of different lengths and octets of either case. -/
theorem params_roundTrip_twoChannels : ∃ buf after, ParamsRoundTrip .bits64 initModule
    [⟨"eth0", "08:00:27:C0:56:5B"⟩, ⟨"wlan0", "00:1b:21:3a:f0:0e"⟩]
    [#v[0x08, 0x00, 0x27, 0xC0, 0x56, 0x5B], #v[0x00, 0x1b, 0x21, 0x3a, 0xf0, 0x0e]] buf after :=
  params_roundTrip (.cons eth0_described (.cons wlan0_described .nil)) .bits64 rfl (by decide)

end NetworkCode.Translator
