import NetworkCode.Kernel.Sysfs

/-!
# The params file

A write of params is checked by its length only, and the expected length is a
product of the channel count that is taken modulo `2 ^ 32`.  The check agrees
with exact arithmetic exactly for the counts whose product does not wrap.
-/

namespace NetworkCode.Kernel

open Library

/-- The channel count in the first word of a write. -/
def channelCount (buf : List UInt8) : Nat := (Bytes.word buf 0).toNat

/-- The bytes of one channel: its device name and its MAC. -/
def channelSize : Nat := ifnamsiz + ethAlen

/-- The length that `ncm_sysfs_store` compares a params write with. -/
def expectedLength (long : LongWidth) (buf : List UInt8) : Nat :=
  (4 + (UInt32.ofNat channelSize * Bytes.word buf 0).toNat) % 2 ^ long.bits

/-- What a write of params should do to stopped params. -/
structure ParamsWriteExact (long : LongWidth) (sysfs : NcmSysfs) (buf : List UInt8)
    (nameMemory macMemory : Kmalloc) : Prop where
  /-- Accepted when the length is right in unbounded arithmetic. -/
  accepts : buf.length = expectedLength long buf ↔
    buf.length = 4 + channelSize * channelCount buf
  /-- The count and the two tables that follow it are stored. -/
  stores : buf.length = expectedLength long buf → ∃ names macs,
    names.length = ifnamsiz * channelCount buf ∧ macs.length = ethAlen * channelCount buf ∧
      buf = buf.take 4 ++ names ++ macs ∧
      ncmSysfsStoreParams sysfs long buf nameMemory macMemory =
        ({ sysfs with interpParams := ⟨Bytes.word buf 0, some names, some macs⟩ }, none)
  refuses : buf.length ≠ expectedLength long buf →
    ncmSysfsStoreParams sysfs long buf nameMemory macMemory = (sysfs, none)

/-- The condition: the product does not wrap and there is memory for an
accepted write, or the length is neither the exact nor the wrapped one. -/
def ParamsWriteFits (long : LongWidth) (buf : List UInt8) (nameMemory macMemory : Kmalloc) :
    Prop :=
  if channelSize * channelCount buf < 2 ^ 32 then
    buf.length = 4 + channelSize * channelCount buf →
      channelCount buf = 0 ∨ nameMemory ≠ none ∧ macMemory ≠ none
  else
    buf.length ≠ 4 + channelSize * channelCount buf ∧
      buf.length ≠ (4 + channelSize * channelCount buf % 2 ^ 32) % 2 ^ long.bits

section Lengths

variable {long : LongWidth} {buf : List UInt8}

theorem expectedLength_eq (long : LongWidth) (buf : List UInt8) :
    expectedLength long buf =
      (4 + channelSize * channelCount buf % 2 ^ 32) % 2 ^ long.bits := by
  unfold expectedLength channelCount
  rw [UInt32.toNat_mul]
  rfl

/-- A word of which the last byte is missing. -/
theorem channelCount_of_short (short : buf.length < 4) : channelCount buf < 2 ^ 24 := by
  have missing : buf.getD 3 0 = 0 := by
    rw [List.getD_eq_getElem?_getD, List.getElem?_eq_none (by omega), Option.getD_none]
  have byte0 := (buf.getD 0 0).toNat_lt
  have byte1 := (buf.getD 1 0).toNat_lt
  have byte2 := (buf.getD 2 0).toNat_lt
  unfold channelCount Bytes.word
  simp only [Nat.zero_add, missing, UInt32.toNat_ofNat', UInt8.toNat_zero]
  omega

/-- Without a wrap the check is the exact one. -/
theorem accepts_of_small (sized : buf.length < 2 ^ long.bits)
    (small : channelSize * channelCount buf < 2 ^ 32) :
    buf.length = expectedLength long buf ↔ buf.length = 4 + channelSize * channelCount buf := by
  rw [expectedLength_eq, Nat.mod_eq_of_lt small]
  rcases Nat.lt_or_ge (4 + channelSize * channelCount buf) (2 ^ long.bits) with fits | wraps
  · rw [Nat.mod_eq_of_lt fits]
  · have bits : long.bits = 32 := by
      cases long with
      | bits32 => rfl
      | bits64 =>
          have wide : 2 ^ 64 ≤ 4 + channelSize * channelCount buf := wraps
          omega
    rw [bits] at sized wraps ⊢
    constructor
    · intro wrapped
      have short : buf.length < 4 := by omega
      have count := channelCount_of_short short
      have product : channelSize * channelCount buf ≤ channelSize * 2 ^ 24 :=
        Nat.mul_le_mul_left _ (Nat.le_of_lt count)
      have bound : channelSize * 2 ^ 24 < 2 ^ 31 := by decide
      omega
    · intro exact_length
      omega

/-- With a wrap no length passes both checks. -/
theorem expectedLength_of_large (long : LongWidth)
    (large : 2 ^ 32 ≤ channelSize * channelCount buf) :
    expectedLength long buf < 4 + channelSize * channelCount buf := by
  have reduced : channelSize * channelCount buf % 2 ^ 32 < 2 ^ 32 := Nat.mod_lt _ (by decide)
  have least := Nat.mod_le (4 + channelSize * channelCount buf % 2 ^ 32) (2 ^ long.bits)
  rw [expectedLength_eq]
  omega

end Lengths

section Tables

variable {long : LongWidth} {buf : List UInt8} {sysfs : NcmSysfs}
  {nameMemory macMemory : Kmalloc}

theorem namesSize_eq (small : channelSize * channelCount buf < 2 ^ 32) :
    (UInt32.ofNat ifnamsiz * Bytes.word buf 0).toNat = ifnamsiz * channelCount buf := by
  have part : ifnamsiz * channelCount buf ≤ channelSize * channelCount buf :=
    Nat.mul_le_mul_right _ (by decide)
  rw [UInt32.toNat_mul]
  exact Nat.mod_eq_of_lt (Nat.lt_of_le_of_lt part small)

theorem macsSize_eq (small : channelSize * channelCount buf < 2 ^ 32) :
    (UInt32.ofNat ethAlen * Bytes.word buf 0).toNat = ethAlen * channelCount buf := by
  have part : ethAlen * channelCount buf ≤ channelSize * channelCount buf :=
    Nat.mul_le_mul_right _ (by decide)
  rw [UInt32.toNat_mul]
  exact Nat.mod_eq_of_lt (Nat.lt_of_le_of_lt part small)

theorem refused_write (stopped : sysfs.ncmInterp.isRunning = false)
    (refused : buf.length ≠ expectedLength long buf) :
    ncmSysfsStoreParams sysfs long buf nameMemory macMemory = (sysfs, none) := by
  have idle : ¬ sysfs.ncmInterp.isRunning = true := by simp [stopped]
  unfold ncmSysfsStoreParams
  dsimp only
  rw [if_neg idle]
  exact if_pos refused

/-- The tables of an accepted write without a wrap. -/
structure Tables (buf names macs : List UInt8) : Prop where
  names_length : names.length = ifnamsiz * channelCount buf
  macs_length : macs.length = ethAlen * channelCount buf
  split : buf = buf.take 4 ++ names ++ macs

theorem tables_of_exact (exact_length : buf.length = 4 + channelSize * channelCount buf) :
    Tables buf (Bytes.slice buf 4 (ifnamsiz * channelCount buf))
      (Bytes.slice buf (4 + ifnamsiz * channelCount buf) (ethAlen * channelCount buf)) := by
  rw [channelSize, Nat.add_mul] at exact_length
  refine ⟨?_, ?_, ?_⟩
  · rw [Bytes.slice, List.length_take, List.length_drop]
    omega
  · rw [Bytes.slice, List.length_take, List.length_drop]
    omega
  · have rest : (buf.drop (4 + ifnamsiz * channelCount buf)).length ≤
        ethAlen * channelCount buf := by
      rw [List.length_drop]
      omega
    rw [Bytes.slice, Bytes.slice, List.take_of_length_le rest, ← List.drop_drop,
      List.append_assoc, List.take_append_drop, List.take_append_drop]

section Accepted

variable (stopped : sysfs.ncmInterp.isRunning = false)
  (small : channelSize * channelCount buf < 2 ^ 32)
  (accepted : buf.length = expectedLength long buf)
  (exact_length : buf.length = 4 + channelSize * channelCount buf)

include stopped small accepted exact_length

/-- An accepted write without a wrap copies inside the buffer. -/
theorem accepted_write : ncmSysfsStoreParams sysfs long buf nameMemory macMemory =
    let names := Bytes.slice buf 4 (ifnamsiz * channelCount buf)
    let macs := Bytes.slice buf (4 + ifnamsiz * channelCount buf) (ethAlen * channelCount buf)
    let network : NetParams := ⟨Bytes.word buf 0,
      kmallocBlock (ifnamsiz * channelCount buf) nameMemory,
      kmallocBlock (ethAlen * channelCount buf) macMemory⟩
    if network.netDeviceName = none then
      ({ sysfs with interpParams := network },
        some (.copyTooLong (ifnamsiz * channelCount buf)))
    else if network.channelMac = none then
      ({ sysfs with interpParams := { network with netDeviceName := some names } },
        some (.copyTooLong (ethAlen * channelCount buf)))
    else
      ({ sysfs with interpParams := ⟨Bytes.word buf 0, some names, some macs⟩ }, none) := by
  have idle : ¬ sysfs.ncmInterp.isRunning = true := by simp [stopped]
  have reached : ¬ buf.length ≠
      (4 + (UInt32.ofNat (ifnamsiz + ethAlen) * Bytes.word buf 0).toNat) % 2 ^ long.bits :=
    not_not.mpr accepted
  obtain ⟨names_length, macs_length, _⟩ := tables_of_exact exact_length
  unfold ncmSysfsStoreParams
  dsimp only
  rw [if_neg idle, if_neg reached, namesSize_eq small, macsSize_eq small, names_length,
    macs_length]
  simp only [Nat.lt_irrefl, or_false, Option.isNone_iff_eq_none]

end Accepted

/-- There is memory for the tables of the count. -/
theorem room_iff : kmallocBlock (ifnamsiz * channelCount buf) nameMemory ≠ none ∧
      kmallocBlock (ethAlen * channelCount buf) macMemory ≠ none ↔
    channelCount buf = 0 ∨ nameMemory ≠ none ∧ macMemory ≠ none := by
  have names : ifnamsiz ≠ 0 := by decide
  have macs : ethAlen ≠ 0 := by decide
  simp only [ne_eq, kmallocBlock_eq_none, Nat.mul_eq_zero, names, macs, false_or, not_and_or,
    not_not]
  tauto

/-- A write of params does what it should exactly under the condition. -/
theorem paramsWriteExact_iff (stopped : sysfs.ncmInterp.isRunning = false)
    (sized : buf.length < 2 ^ long.bits) :
    ParamsWriteExact long sysfs buf nameMemory macMemory ↔
      ParamsWriteFits long buf nameMemory macMemory := by
  unfold ParamsWriteFits
  split
  · next small =>
      have accepts := accepts_of_small sized small
      constructor
      · intro write exact_length
        have accepted := accepts.mpr exact_length
        obtain ⟨names, macs, _, _, _, stored⟩ := write.stores accepted
        rw [accepted_write stopped small accepted exact_length] at stored
        dsimp only at stored
        refine room_iff.mp ⟨?_, ?_⟩
        · intro none_left
          rw [if_pos none_left] at stored
          cases congrArg Prod.snd stored
        · intro none_left
          rw [if_pos none_left] at stored
          split at stored <;> cases congrArg Prod.snd stored
      · intro fits
        refine ⟨accepts, ?_, refused_write stopped⟩
        intro accepted
        have exact_length := accepts.mp accepted
        obtain ⟨names_length, macs_length, split⟩ := tables_of_exact exact_length
        obtain ⟨nameRoom, macRoom⟩ := room_iff.mpr (fits exact_length)
        refine ⟨_, _, names_length, macs_length, split, ?_⟩
        rw [accepted_write stopped small accepted exact_length]
        dsimp only
        rw [if_neg nameRoom, if_neg macRoom]
  · next wraps =>
      have large := expectedLength_of_large long (Nat.le_of_not_lt wraps)
      rw [← expectedLength_eq]
      constructor
      · intro write
        have accepts := write.accepts
        constructor
        · intro exact_length
          have accepted := accepts.mpr exact_length
          omega
        · intro accepted
          have exact_length := accepts.mp accepted
          omega
      · rintro ⟨not_exact, refused⟩
        refine ⟨?_, ?_, refused_write stopped⟩
        · exact ⟨fun accepted => absurd accepted refused,
            fun exact_length => absurd exact_length not_exact⟩
        · intro accepted
          exact absurd accepted refused

end Tables

/-- One channel, written in full. -/
theorem paramsWriteExact_iff_oneChannel :
    ParamsWriteExact .bits64 initModule
        ([1, 0, 0, 0] ++ List.replicate 22 7) (some fun _ => 0) (some fun _ => 0) ↔
      ParamsWriteFits .bits64 ([1, 0, 0, 0] ++ List.replicate 22 7) (some fun _ => 0)
        (some fun _ => 0) :=
  paramsWriteExact_iff rfl (by decide)

/-- Four bytes configure `2 ^ 31` channels without a name or a MAC. -/
theorem paramsWrite_wraps :
    ¬ ∀ (long : LongWidth) (sysfs : NcmSysfs) (buf : List UInt8),
      sysfs.ncmInterp.isRunning = false → buf.length < 2 ^ long.bits →
      ParamsWriteExact long sysfs buf (some fun _ => 0) (some fun _ => 0) := by
  intro claim
  have write := claim .bits64 initModule [0, 0, 0, 0x80] rfl (by decide)
  have exact_length := write.accepts.mp (by decide)
  exact absurd exact_length (by decide)

end NetworkCode.Kernel
