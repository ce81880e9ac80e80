import NetworkCode.Kernel.CodeFile
import NetworkCode.Kernel.ParamsFile

/-!
# The stored tables and their readers

The names and the MACs of all channels lie one after the other in two blocks.
`init_network` reads one entry of each for a channel, and a read of the params
file puts the count and both blocks together again.
-/

namespace NetworkCode.Kernel

open Library Library.Checked

/-- `memcpy` of a number of bytes out of a block. -/
def copyOut (block : Option (List UInt8)) (count : Nat) : Exec (List UInt8) :=
  if count ≤ (block.getD []).length then
    .ok ((block.getD []).take count)
  else
    .error (.copyTooLong count)

/-- `memcpy` into the page of a read. -/
def copyToPage (page : List UInt8) (offset : Nat) (bytes : List UInt8) : Exec (List UInt8) :=
  if offset + bytes.length ≤ page.length then
    .ok (Bytes.overwrite page offset bytes)
  else
    .error (.copyTooLong bytes.length)

/-- `ncm_sysfs_show` on the params file, with the page it fills. -/
def ncmSysfsShowParams (long : LongWidth) (sysfs : NcmSysfs) (page : List UInt8) :
    Exec (List UInt8) := do
  let channels := sysfs.interpParams.channels
  let namesSize := (channels * UInt32.ofNat ifnamsiz).toNat
  let macsSize := (channels * UInt32.ofNat ethAlen).toNat
  let entriesSize := (channels * UInt32.ofNat (ifnamsiz + ethAlen)).toNat
  let page ← copyToPage page 0 (Bytes.littleEndian channels)
  let names ← copyOut sysfs.interpParams.netDeviceName namesSize
  let page ← copyToPage page 4 names
  let macs ← copyOut sysfs.interpParams.channelMac macsSize
  let page ← copyToPage page (4 + namesSize) macs
  return page.take ((4 + entriesSize) % 2 ^ long.bits)

theorem copyOut_whole (block : List UInt8) : copyOut (some block) block.length = .ok block := by
  unfold copyOut
  rw [Option.getD_some, if_pos (Nat.le_refl _), List.take_length]

/-- A copy behind what the page already holds. -/
theorem copyToPage_behind {page front bytes : List UInt8}
    (holds : page.take front.length = front)
    (room : front.length + bytes.length ≤ page.length) :
    ∃ after, copyToPage page front.length bytes = .ok after ∧ after.length = page.length ∧
      after.take (front ++ bytes).length = front ++ bytes := by
  refine ⟨Bytes.overwrite page front.length bytes, if_pos room, Bytes.overwrite_length room, ?_⟩
  rw [List.length_append]
  exact Bytes.take_overwrite_behind holds

/-- Three copies, each behind the one before it. -/
theorem copyToPage_three {page first second third : List UInt8}
    (room : first.length + second.length + third.length ≤ page.length) :
    ∃ page₁ page₂ page₃, copyToPage page 0 first = .ok page₁ ∧
      copyToPage page₁ first.length second = .ok page₂ ∧
        copyToPage page₂ (first.length + second.length) third = .ok page₃ ∧
          page₃.take (first ++ second ++ third).length = first ++ second ++ third := by
  have start : page.take ([] : List UInt8).length = [] := rfl
  have both : (first ++ second).length = first.length + second.length := List.length_append
  have room₁ : ([] : List UInt8).length + first.length ≤ page.length := by
    rw [List.length_nil]
    omega
  obtain ⟨page₁, done₁, size₁, front₁⟩ := copyToPage_behind start room₁
  rw [List.nil_append] at front₁
  have room₂ : first.length + second.length ≤ page₁.length := by omega
  obtain ⟨page₂, done₂, size₂, front₂⟩ := copyToPage_behind front₁ room₂
  have room₃ : (first ++ second).length + third.length ≤ page₂.length := by omega
  obtain ⟨page₃, done₃, _, front₃⟩ := copyToPage_behind front₂ room₃
  rw [both] at done₃
  exact ⟨page₁, page₂, page₃, done₁, done₂, done₃, front₃⟩

/-- An entry of the table of names. -/
abbrev DeviceName := Vector UInt8 ifnamsiz

/-- The entries of a table, one after the other. -/
def tableOf {size : Nat} (entries : List (Vector UInt8 size)) : List UInt8 :=
  entries.flatMap fun entry => entry.toList

section Tables

variable {size : Nat} (entries : List (Vector UInt8 size))

@[simp] theorem length_tableOf : (tableOf entries).length = size * entries.length :=
  Bytes.length_flatMap_of_sized (fun _ => Vector.length_toList) entries

theorem slice_tableOf {i : Nat} (bound : i < entries.length) :
    Bytes.slice (tableOf entries) (size * i) size = entries[i].toList :=
  Bytes.slice_flatMap (fun _ => Vector.length_toList) entries i bound

/-- An entry is read back whole. -/
theorem readBlock_tableOf {i : Nat} (bound : i < entries.length) :
    readBlock (some (tableOf entries)) (size * i) size = .ok entries[i] := by
  have whole := slice_tableOf entries bound
  have sized : (Bytes.slice (tableOf entries) (size * i) size).length = size := by
    rw [whole, Vector.length_toList]
  unfold readBlock
  dsimp only
  rw [dif_pos sized]
  refine congrArg Except.ok (Vector.toArray_inj.mp ?_)
  exact (congrArg List.toArray whole).trans Vector.toArray_toList

end Tables

/-- The two tables hold these entries. -/
structure NetParams.Holds (params : NetParams) (names : List DeviceName) (macs : List Mac) :
    Prop where
  names_count : names.length = params.channels.toNat
  macs_count : macs.length = params.channels.toNat
  netDeviceName : params.netDeviceName = some (tableOf names)
  channelMac : params.channelMac = some (tableOf macs)

/-- The channel that `init_network` makes of one entry. -/
def channelOf (env : NetEnv) (i : Nat) (name : List UInt8) (mac : Mac) : Channel :=
  match env.devGetByName name with
  | none => ⟨[], mac, -1, env.staleDev i⟩
  | some dev => ⟨[], mac, dev.ifindex, .device dev⟩

section Holds

variable {params : NetParams} {names : List DeviceName} {macs : List Mac}
  (holds : params.Holds names macs)

include holds

theorem initChannel_of_holds (env : NetEnv) {i : Nat} (named : i < names.length)
    (addressed : i < macs.length) :
    ∃ acquired, initChannel params env i =
      .ok (channelOf env i names[i].toList macs[i], acquired) := by
  unfold initChannel channelOf
  rw [holds.channelMac, holds.netDeviceName, readBlock_tableOf macs addressed,
    readBlock_tableOf names named]
  simp only [ok_bind]
  cases env.devGetByName names[i].toList with
  | none => exact ⟨_, rfl⟩
  | some dev => exact ⟨_, rfl⟩

/-- Entry by entry, the channels are those of the tables. -/
theorem initChannels_of_holds (env : NetEnv) {count : Nat} (inside : count ≤ names.length) :
    ∃ table acquired, initChannels params env count = .ok (table, acquired) ∧
      table.length = count ∧ ∀ i (named : i < names.length) (addressed : i < macs.length),
        i < count → table[i]? = some (channelOf env i names[i].toList macs[i]) := by
  have paired : macs.length = names.length := holds.macs_count.trans holds.names_count.symm
  induction count with
  | zero => exact ⟨[], [], rfl, rfl, fun i _ _ impossible => absurd impossible (Nat.not_lt_zero i)⟩
  | succ count ih =>
      obtain ⟨table, acquired, built, length, entries⟩ := ih (Nat.le_of_succ_le inside)
      obtain ⟨more, last⟩ := initChannel_of_holds holds env inside (paired ▸ inside)
      refine ⟨table ++ [channelOf env count names[count].toList macs[count]], acquired ++ more,
        ?_, ?_, ?_⟩
      · rw [initChannels, built, ok_bind]
        simp only
        rw [last]
        rfl
      · rw [List.length_append, length, List.length_singleton]
      · intro i named addressed bound
        rcases Nat.lt_or_eq_of_le (Nat.le_of_lt_succ bound) with earlier | rfl
        · rw [List.getElem?_append_left (length ▸ earlier)]
          exact entries i named addressed earlier
        · rw [List.getElem?_append_right (Nat.le_of_eq length), length, Nat.sub_self]
          rfl

theorem initNetwork_of_holds (network : Network) (env : NetEnv) :
    ∃ started acquired table, initNetwork network params env = .ok (started, acquired) ∧
      started.table = some table ∧ table.length = names.length ∧
      ∀ i (named : i < names.length) (addressed : i < macs.length),
        table[i]? = some (channelOf env i names[i].toList macs[i]) := by
  obtain ⟨table, acquired, built, length, entries⟩ :=
    initChannels_of_holds holds env (Nat.le_refl _)
  rw [holds.names_count] at built
  unfold initNetwork
  rw [built]
  exact ⟨_, _, table, rfl, rfl, length, fun i named addressed => entries i named addressed named⟩

/-- The size of a table, or of both, is computed exactly where the file fits a page. -/
theorem tableSize_of_holds (fits : 4 + channelSize * names.length ≤ pageSize) {size : Nat}
    (small : size ≤ channelSize) :
    (params.channels * UInt32.ofNat size).toNat = size * names.length := by
  have part : size * names.length ≤ channelSize * names.length := Nat.mul_le_mul_right _ small
  have bound : pageSize < 2 ^ 32 := by decide
  have entry : size < 2 ^ 32 := Nat.lt_of_le_of_lt small (by decide)
  rw [UInt32.toNat_mul, UInt32.toNat_ofNat', Nat.mod_eq_of_lt entry, ← holds.names_count,
    Nat.mul_comm, Nat.mod_eq_of_lt (by omega)]

/-- What the params file contains. -/
theorem show_of_holds {sysfs : NcmSysfs} (stored : sysfs.interpParams = params)
    {page : List UInt8} (paged : page.length = pageSize)
    (fits : 4 + channelSize * names.length ≤ pageSize) (long : LongWidth) :
    ncmSysfsShowParams long sysfs page =
      .ok (Bytes.littleEndian params.channels ++ tableOf names ++ tableOf macs) := by
  have namesSize := tableSize_of_holds holds fits (Nat.le_add_right ifnamsiz ethAlen)
  have macsSize := tableSize_of_holds holds fits (Nat.le_add_left ethAlen ifnamsiz)
  have bothSize := tableSize_of_holds holds fits (Nat.le_refl channelSize)
  have names_length : (tableOf names).length = ifnamsiz * names.length := length_tableOf names
  have macs_length : (tableOf macs).length = ethAlen * names.length := by
    rw [length_tableOf, holds.macs_count, ← holds.names_count]
  have word : (Bytes.littleEndian params.channels).length = 4 := rfl
  have split : channelSize * names.length = ifnamsiz * names.length + ethAlen * names.length :=
    Nat.add_mul _ _ _
  have room : (Bytes.littleEndian params.channels).length + (tableOf names).length +
      (tableOf macs).length ≤ page.length := by
    rw [word, names_length, macs_length, paged]
    omega
  obtain ⟨page₁, page₂, page₃, counted, named, addressed, front⟩ := copyToPage_three room
  have whole : (4 + channelSize * names.length) % 2 ^ long.bits =
      (Bytes.littleEndian params.channels ++ tableOf names ++ tableOf macs).length := by
    have small : pageSize < 2 ^ long.bits := by cases long <;> decide
    rw [List.length_append, List.length_append, word, names_length, macs_length,
      Nat.mod_eq_of_lt (by omega), split, Nat.add_assoc]
  rw [word] at named addressed
  unfold ncmSysfsShowParams
  rw [stored, holds.netDeviceName, holds.channelMac]
  dsimp only
  rw [namesSize, macsSize, ← channelSize, bothSize, counted, ok_bind, ← names_length,
    copyOut_whole, ok_bind, named, ok_bind, ← macs_length, copyOut_whole, ok_bind, addressed,
    ok_bind, whole, front]
  rfl

end Holds

/-! ## Writing the tables -/

/-- The bytes of a count and two tables. -/
def paramsBytes (names : List DeviceName) (macs : List Mac) : List UInt8 :=
  Bytes.littleEndian (UInt32.ofNat names.length) ++ tableOf names ++ tableOf macs

section Written

variable {names : List DeviceName} {macs : List Mac}

theorem word_paramsBytes : Bytes.word (paramsBytes names macs) 0 = UInt32.ofNat names.length :=
  Bytes.word_of_drop (List.append_assoc _ _ _)

variable (paired : macs.length = names.length)
  (fits : 4 + channelSize * names.length ≤ pageSize)

include fits in
theorem channelCount_paramsBytes (macs : List Mac) :
    channelCount (paramsBytes names macs) = names.length := by
  have part : names.length ≤ channelSize * names.length := Nat.le_mul_of_pos_left _ (by decide)
  have bound : pageSize < 2 ^ 32 := by decide
  rw [channelCount, word_paramsBytes, UInt32.toNat_ofNat', Nat.mod_eq_of_lt (by omega)]

include paired in
theorem length_paramsBytes :
    (paramsBytes names macs).length = 4 + channelSize * names.length := by
  rw [paramsBytes, List.length_append, List.length_append, length_tableOf, length_tableOf, paired,
    channelSize, Nat.add_mul, Nat.add_assoc]
  rfl

include paired fits

theorem expectedLength_paramsBytes (long : LongWidth) :
    (paramsBytes names macs).length = expectedLength long (paramsBytes names macs) := by
  have count := channelCount_paramsBytes fits macs
  have length := length_paramsBytes paired
  have bound : pageSize < 2 ^ 32 := by decide
  have small : channelSize * channelCount (paramsBytes names macs) < 2 ^ 32 := by
    rw [count]
    omega
  have sized : (paramsBytes names macs).length < 2 ^ long.bits := by
    have wide : 2 ^ 32 ≤ 2 ^ long.bits := by cases long <;> decide
    rw [length]
    omega
  rw [accepts_of_small sized small, count, length]

/-- Such a write is stored whole. -/
theorem store_paramsBytes {sysfs : NcmSysfs} (stopped : sysfs.ncmInterp.isRunning = false)
    (long : LongWidth) (nameMemory macMemory : Nat → UInt8) :
    ncmSysfsStoreParams sysfs long (paramsBytes names macs) (some nameMemory) (some macMemory) =
      ({ sysfs with interpParams :=
        ⟨UInt32.ofNat names.length, some (tableOf names), some (tableOf macs)⟩ }, none) := by
  have count := channelCount_paramsBytes fits macs
  have length := length_paramsBytes paired
  have bound : pageSize < 2 ^ 32 := by decide
  have small : channelSize * channelCount (paramsBytes names macs) < 2 ^ 32 := by
    rw [count]
    omega
  have exact_length : (paramsBytes names macs).length =
      4 + channelSize * channelCount (paramsBytes names macs) := by
    rw [count, length]
  have granted (size : Nat) (memory : Nat → UInt8) : kmallocBlock size (some memory) ≠ none := by
    rw [ne_eq, kmallocBlock_eq_none]
    exact fun failed => nomatch failed.2
  have word : (Bytes.littleEndian (UInt32.ofNat names.length)).length = 4 := rfl
  have names_eq : Bytes.slice (paramsBytes names macs) 4 (ifnamsiz * names.length) =
      tableOf names := by
    rw [← word, ← length_tableOf]
    exact Bytes.slice_append_right
  have macs_eq : Bytes.slice (paramsBytes names macs) (4 + ifnamsiz * names.length)
      (ethAlen * names.length) = tableOf macs := by
    have behind : (Bytes.littleEndian (UInt32.ofNat names.length) ++ tableOf names).length =
        4 + ifnamsiz * names.length := by
      rw [List.length_append, word, length_tableOf]
    rw [← behind, ← paired, ← length_tableOf, paramsBytes, ← List.append_nil (_ ++ tableOf macs)]
    exact Bytes.slice_append_right
  rw [accepted_write stopped small (expectedLength_paramsBytes paired fits long) exact_length]
  dsimp only
  rw [if_neg (granted _ _), if_neg (granted _ _), count, names_eq, macs_eq, word_paramsBytes]

theorem holds_paramsBytes :
    (⟨UInt32.ofNat names.length, some (tableOf names), some (tableOf macs)⟩ : NetParams).Holds
      names macs := by
  have part : names.length ≤ channelSize * names.length := Nat.le_mul_of_pos_left _ (by decide)
  have bound : pageSize < 2 ^ 32 := by decide
  have count : (UInt32.ofNat names.length).toNat = names.length := by
    rw [UInt32.toNat_ofNat', Nat.mod_eq_of_lt (by omega)]
  exact ⟨count.symm, paired.trans count.symm, rfl, rfl⟩

end Written

end NetworkCode.Kernel
