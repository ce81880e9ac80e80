import Mathlib.Algebra.Group.Int.Defs
import NetworkCode.Kernel.NetworkFrame
import NetworkCode.Kernel.SyncWait

/-!
# How long a sync wait lasts

The wait reads until a sync frame comes or a failed read ends behind the
deadline.  The time that is left is computed in 64 bits and narrowed to 32
for the socket, and it is exact as long as the wait goes on.  All of it needs a
buffer with room for a header, which only a start with channels provides.
-/

namespace NetworkCode.Kernel

open Library Library.Checked

/-! ## The clock -/

/-- A clock reading as the signed number that `ncm_receive_sync` keeps. -/
def reading (now : UInt64) : Int := now.toInt64.toInt

/-- The clock at the start of the wait and after its reads does not go back, and shows the
microseconds between them as signed 64-bit numbers do. -/
structure ReadingsRun (start : UInt64) (reads : List (SockRead × UInt64)) : Prop where
  nondecreasing : (reading start :: reads.map fun entry => reading entry.2).Pairwise (· ≤ ·)
  span : ∀ entry ∈ reads, reading entry.2 - reading start < 2 ^ 63

/-- A clock that counts from an epoch in the past never shows a negative number. -/
theorem readingsRun_of_nonneg {start : UInt64} {reads : List (SockRead × UInt64)}
    (nonneg : 0 ≤ reading start)
    (nondecreasing : (reading start :: reads.map fun entry => reading entry.2).Pairwise (· ≤ ·)) :
    ReadingsRun start reads := by
  refine ⟨nondecreasing, fun entry _ => ?_⟩
  have bound : reading entry.2 < 2 ^ 63 := entry.2.toInt64.toInt_lt
  omega

/-- What is left of the timeout. -/
def timeLeft (start : UInt64) (timeout : UInt32) (now : UInt64) : Int :=
  reading start + timeout.toNat - reading now

/-- The remaining time as it is computed and narrowed. -/
def rearmed (start : UInt64) (timeout : UInt32) (now : UInt64) : UInt32 :=
  (start.toInt64 - now.toInt64 + timeout.toUInt64.toInt64).toUInt64.toUInt32

section Clock

variable {start now : UInt64} {timeout : UInt32}

theorem toInt_timeout (timeout : UInt32) :
    timeout.toUInt64.toInt64.toInt = timeout.toNat := by
  have small := timeout.toNat_lt
  rw [← Int64.toInt_toBitVec, UInt64.toBitVec_toInt64, BitVec.toInt_eq_toNat_of_lt]
  · rfl
  · change 2 * timeout.toUInt64.toNat < 2 ^ 64
    rw [UInt32.toNat_toUInt64]
    omega

/-- The difference is exact in 64 bits. -/
theorem toInt_timeLeft (forward : reading start ≤ reading now)
    (span : reading now - reading start < 2 ^ 63) :
    (start.toInt64 - now.toInt64 + timeout.toUInt64.toInt64).toInt =
      timeLeft start timeout now := by
  have small := timeout.toNat_lt
  have left : start.toInt64.toInt = reading start := rfl
  have right : now.toInt64.toInt = reading now := rfl
  rw [Int64.toInt_add, Int64.toInt_sub, toInt_timeout, Int.bmod_add_bmod, left, right, timeLeft,
    Int.bmod_eq_of_le (by omega) (by omega)]
  omega

/-- What is left is exact after it has been narrowed. -/
theorem rearmed_toNat (forward : reading start ≤ reading now)
    (span : reading now - reading start < 2 ^ 63) (early : 0 ≤ timeLeft start timeout now) :
    ((rearmed start timeout now).toNat : Int) = timeLeft start timeout now ∧
      timeLeft start timeout now ≤ timeout.toNat := by
  have within : timeLeft start timeout now ≤ timeout.toNat := by
    unfold timeLeft
    omega
  have whole : (start.toInt64 - now.toInt64 + timeout.toUInt64.toInt64).toInt =
      timeLeft start timeout now := toInt_timeLeft forward span
  have nonneg : 0 ≤ start.toInt64 - now.toInt64 + timeout.toUInt64.toInt64 := by
    rw [Int64.le_iff_toInt_le, whole]
    exact early
  have small := timeout.toNat_lt
  have clamp : ((start.toInt64 - now.toInt64 + timeout.toUInt64.toInt64).toNatClampNeg : Int) =
      timeLeft start timeout now := by
    rw [Int64.toNatClampNeg, whole]
    exact Int.toNat_of_nonneg early
  refine ⟨?_, within⟩
  rw [rearmed, UInt64.toNat_toUInt32, Int64.toNat_toUInt64_of_le nonneg,
    Nat.mod_eq_of_lt (by omega)]
  exact clamp

end Clock

/-! ## The reads of a wait -/

/-- A read that is neither a sync frame nor behind the deadline. -/
def FailsInTime (start : UInt64) (timeout : UInt32) (entry : SockRead × UInt64) : Prop :=
  ¬ entry.1.IsSync ∧ reading entry.2 ≤ reading start + timeout.toNat

/-- A read that is no sync frame and is followed by a clock reading behind the deadline. -/
def FailsLate (start : UInt64) (timeout : UInt32) (entry : SockRead × UInt64) : Prop :=
  ¬ entry.1.IsSync ∧ reading start + timeout.toNat < reading entry.2

section Loop

variable {start : UInt64} {timeout : UInt32} {buff : List UInt8} {read : SockRead}
  {now : UInt64} {reads before after : List (SockRead × UInt64)}

/-- A read into a buffer with room for a header succeeds exactly for a sync frame. -/
theorem ncRcvmsg_room (room : ethHlen ≤ buff.length) (whole : read.Whole) :
    ∃ length, ncRcvmsg buff read ethPNcSync = .ok length ∧ (0 ≤ length ↔ read.IsSync) := by
  rcases ncRcvmsg_sync buff whole with short | answered
  · cases read with
    | failed n =>
        rw [ncRcvmsg_failed] at short
        cases short
    | frame bytes =>
        rw [ncRcvmsg_frame room whole] at short
        split at short <;> cases short
  · exact answered

section OneRead

variable (room : ethHlen ≤ buff.length) (whole : read.Whole)

include room whole

/-- A sync frame ends the wait. -/
theorem receiveSyncLoop_synced (sync : read.IsSync) (timeout start : Int64) :
    receiveSyncLoop timeout start buff ((read, now) :: reads) = .ok (0, []) := by
  obtain ⟨length, received, succeeds⟩ := ncRcvmsg_room room whole
  rw [receiveSyncLoop, received, ok_bind, if_neg (Int.not_lt.mpr (succeeds.mpr sync))]
  rfl

variable (forward : reading start ≤ reading now) (span : reading now - reading start < 2 ^ 63)

include forward span

/-- A read that fails behind the deadline ends the wait. -/
theorem receiveSyncLoop_late (late : FailsLate start timeout (read, now)) :
    receiveSyncLoop timeout.toUInt64.toInt64 start.toInt64 buff ((read, now) :: reads) =
      .ok (-ncEtimeout, []) := by
  obtain ⟨length, received, succeeds⟩ := ncRcvmsg_room room whole
  have negative : length < 0 := Int.not_le.mp fun nonneg => late.1 (succeeds.mp nonneg)
  have deadline : reading start + timeout.toNat < reading now := late.2
  have behind : start.toInt64 - now.toInt64 + timeout.toUInt64.toInt64 < 0 := by
    rw [Int64.lt_iff_toInt_lt, toInt_timeLeft forward span, timeLeft, Int64.toInt_zero]
    omega
  rw [receiveSyncLoop, received, ok_bind, if_pos negative]
  dsimp only
  rw [if_pos behind]
  rfl

/-- A read that fails in time leaves the rest of the wait. -/
theorem receiveSyncLoop_early (early : FailsInTime start timeout (read, now)) :
    receiveSyncLoop timeout.toUInt64.toInt64 start.toInt64 buff ((read, now) :: reads) =
      (receiveSyncLoop timeout.toUInt64.toInt64 start.toInt64 (kernelRecvmsg buff read).2
        reads).map fun result => (result.1, rearmed start timeout now :: result.2) := by
  obtain ⟨length, received, succeeds⟩ := ncRcvmsg_room room whole
  have negative : length < 0 := Int.not_le.mp fun nonneg => early.1 (succeeds.mp nonneg)
  have deadline : reading now ≤ reading start + timeout.toNat := early.2
  have ahead : ¬ start.toInt64 - now.toInt64 + timeout.toUInt64.toInt64 < 0 := by
    rw [Int64.lt_iff_toInt_lt, toInt_timeLeft forward span, timeLeft, Int64.toInt_zero]
    omega
  rw [receiveSyncLoop, received, ok_bind, if_pos negative]
  dsimp only
  rw [if_neg ahead]
  cases receiveSyncLoop timeout.toUInt64.toInt64 start.toInt64 (kernelRecvmsg buff read).2
    reads <;> rfl

end OneRead

/-- Reads that fail in time leave a wait with a buffer of the same size. -/
theorem receiveSyncLoop_waits (room : ethHlen ≤ buff.length)
    (whole : ∀ entry ∈ before, entry.1.Whole) (clock : ReadingsRun start before)
    (waits : ∀ entry ∈ before, FailsInTime start timeout entry) :
    ∃ left, left.length = buff.length ∧ ∀ more,
      receiveSyncLoop timeout.toUInt64.toInt64 start.toInt64 buff (before ++ more) =
        (receiveSyncLoop timeout.toUInt64.toInt64 start.toInt64 left more).map fun result =>
          (result.1, (before.map fun entry => rearmed start timeout entry.2) ++ result.2) := by
  induction before generalizing buff with
  | nil =>
      refine ⟨buff, rfl, fun more => ?_⟩
      rw [List.nil_append]
      cases receiveSyncLoop timeout.toUInt64.toInt64 start.toInt64 buff more <;> rfl
  | cons entry before ih =>
      obtain ⟨read, now⟩ := entry
      have forward := List.rel_of_pairwise_cons clock.nondecreasing List.mem_cons_self
      have span := clock.span _ List.mem_cons_self
      have later : ReadingsRun start before := by
        refine ⟨?_, fun entry member => clock.span entry (List.mem_cons_of_mem _ member)⟩
        exact clock.nondecreasing.sublist ((List.sublist_cons_self _ _).cons_cons _)
      have roomLeft : ethHlen ≤ (kernelRecvmsg buff read).2.length := by
        rwa [kernelRecvmsg_length]
      obtain ⟨left, size, rest⟩ := ih roomLeft
        (fun entry member => whole entry (List.mem_cons_of_mem _ member)) later
        fun entry member => waits entry (List.mem_cons_of_mem _ member)
      refine ⟨left, size.trans (kernelRecvmsg_length _ _), fun more => ?_⟩
      rw [List.cons_append, receiveSyncLoop_early room (whole _ List.mem_cons_self) forward span
        (waits _ List.mem_cons_self), rest]
      cases receiveSyncLoop timeout.toUInt64.toInt64 start.toInt64 left more <;> rfl

end Loop

/-! ## The outcome of a wait -/

/-- Either every entry has the property, or there is a first one without it. -/
theorem exists_first {α : Type} (property : α → Prop) (entries : List α) :
    (∀ entry ∈ entries, property entry) ∨ ∃ before entry after,
      entries = before ++ entry :: after ∧ (∀ earlier ∈ before, property earlier) ∧
        ¬ property entry := by
  induction entries with
  | nil => exact .inl (List.forall_mem_nil _)
  | cons head entries ih =>
      by_cases holds : property head
      · rcases ih with all | ⟨before, entry, after, rfl, earlier, fails⟩
        · exact .inl (List.forall_mem_cons.mpr ⟨holds, all⟩)
        · exact .inr ⟨head :: before, entry, after, rfl,
            List.forall_mem_cons.mpr ⟨holds, earlier⟩, fails⟩
      · exact .inr ⟨[], head, entries, rfl, List.forall_mem_nil _, holds⟩

/-- Numbers that increase between two bounds are no more than there is room for. -/
theorem length_le_of_increasing {numbers : List Int} {low high : Int} (room : low ≤ high + 1)
    (increasing : numbers.Pairwise (· < ·)) (above : ∀ number ∈ numbers, low ≤ number)
    (below : ∀ number ∈ numbers, number ≤ high) : (numbers.length : Int) ≤ high - low + 1 := by
  induction numbers generalizing low with
  | nil =>
      rw [List.length_nil]
      omega
  | cons number numbers ih =>
      obtain ⟨larger, rest⟩ := List.pairwise_cons.mp increasing
      have first := above number List.mem_cons_self
      have last := below number List.mem_cons_self
      have tail := ih (show number + 1 ≤ high + 1 by omega) rest
        (fun other member => larger other member)
        fun other member => below other (List.mem_cons_of_mem _ member)
      rw [List.length_cons]
      push_cast
      omega

section Outcome

variable (network : Network) (timeout : UInt32) (stack : Nat → UInt8) (start : UInt64)

/-- What `ncm_receive_sync` answers, as a slave SYNC calls it. -/
def syncWait (reads : List (SockRead × UInt64)) : Exec (Int × List UInt32) :=
  ncmReceiveSync network timeout.toUInt64.toInt64 stack start reads

/-- The times that the socket is armed with, once reads have failed in time. -/
def armedBy (before : List (SockRead × UInt64)) : List UInt32 :=
  timeout :: before.map fun entry => rearmed start timeout entry.2

/-- A wait that ends, and how long it takes. -/
structure SyncWaitBounded (reads : List (SockRead × UInt64)) : Prop where
  succeeds : (∃ armed, syncWait network timeout stack start reads = .ok (0, armed)) ↔
    ∃ before entry after, reads = before ++ entry :: after ∧ entry.1.IsSync ∧
      ∀ earlier ∈ before, ¬ FailsLate start timeout earlier
  timesOut :
    (∃ armed, syncWait network timeout stack start reads = .ok (-ncEtimeout, armed)) ↔
      ∃ before entry after, reads = before ++ entry :: after ∧ FailsLate start timeout entry ∧
        ∀ earlier ∈ before, FailsInTime start timeout earlier
  /-- The first late failure ends the wait, and nothing is read after it. -/
  rightAfter : ∀ before entry after, reads = before ++ entry :: after →
    FailsLate start timeout entry → (∀ earlier ∈ before, FailsInTime start timeout earlier) →
      syncWait network timeout stack start before = .error .stillWaiting ∧
        syncWait network timeout stack start (before ++ [entry]) =
          .ok (-ncEtimeout, armedBy timeout start before)
  armed : ∀ ret armed, syncWait network timeout stack start reads = .ok (ret, armed) →
    ∃ before entry after, reads = before ++ entry :: after ∧
      (∀ earlier ∈ before, FailsInTime start timeout earlier) ∧
        armed = armedBy timeout start before
  /-- What is left after a failure in time neither is negative nor wraps. -/
  left_exact : ∀ entry ∈ reads, FailsInTime start timeout entry →
    0 ≤ timeLeft start timeout entry.2 ∧ timeLeft start timeout entry.2 ≤ timeout.toNat ∧
      ((rearmed start timeout entry.2).toNat : Int) = timeLeft start timeout entry.2
  /-- The clock goes on between reads: the wait ends in time. -/
  ends : (reads.map fun entry => reading entry.2).Pairwise (· < ·) →
    timeout.toNat + 2 ≤ reads.length → ∃ made ret armed, made <+: reads ∧
      made.length ≤ timeout.toNat + 2 ∧
        syncWait network timeout stack start made = .ok (ret, armed)

variable {network timeout stack start} {reads before after : List (SockRead × UInt64)}
  {entry : SockRead × UInt64}

theorem ReadingsRun.of_prefix (clock : ReadingsRun start reads) (part : before <+: reads) :
    ReadingsRun start before := by
  refine ⟨clock.nondecreasing.sublist ?_, fun entry member => clock.span entry (part.subset member)⟩
  exact (part.sublist.map _).cons_cons _

theorem ReadingsRun.forward (clock : ReadingsRun start reads) (member : entry ∈ reads) :
    reading start ≤ reading entry.2 :=
  List.rel_of_pairwise_cons clock.nondecreasing (List.mem_map_of_mem member)

theorem not_failsInTime (fails : ¬ FailsInTime start timeout entry) :
    entry.1.IsSync ∨ FailsLate start timeout entry := by
  by_cases sync : entry.1.IsSync
  · exact .inl sync
  · exact .inr ⟨sync, Int.not_le.mp fun early => fails ⟨sync, early⟩⟩

theorem syncWait_of_loop {ret : Int} {armed : List UInt32}
    (looped : receiveSyncLoop timeout.toUInt64.toInt64 start.toInt64
      ((List.range network.syncPacketlen).map stack) reads = .ok (ret, armed)) :
    syncWait network timeout stack start reads = .ok (ret, timeout :: armed) := by
  have narrowed : timeout.toUInt64.toInt64.toUInt64.toUInt32 = timeout := by simp
  rw [syncWait, ncmReceiveSync, looped, narrowed]
  rfl

theorem syncWait_of_waiting (looped : receiveSyncLoop timeout.toUInt64.toInt64 start.toInt64
      ((List.range network.syncPacketlen).map stack) reads = .error .stillWaiting) :
    syncWait network timeout stack start reads = .error .stillWaiting := by
  rw [syncWait, ncmReceiveSync, looped]
  rfl

/-- The buffer on the stack holds a header. -/
theorem stackBuffer_room (room : ethHlen ≤ network.syncPacketlen) :
    ethHlen ≤ ((List.range network.syncPacketlen).map stack).length := by
  rwa [List.length_map, List.length_range]

section Ends

variable (room : ethHlen ≤ network.syncPacketlen)
  (whole : ∀ other ∈ before ++ entry :: after, other.1.Whole)
  (clock : ReadingsRun start (before ++ entry :: after))
  (waits : ∀ earlier ∈ before, FailsInTime start timeout earlier)

include room whole clock waits

theorem syncWait_waiting : syncWait network timeout stack start before = .error .stillWaiting := by
  obtain ⟨left, _, rest⟩ := receiveSyncLoop_waits (stackBuffer_room room)
    (fun earlier member => whole earlier (List.mem_append_left _ member))
    (clock.of_prefix (List.prefix_append _ _)) waits
  have looped := rest []
  rw [List.append_nil] at looped
  exact syncWait_of_waiting looped

/-- The reads that failed in time have armed the socket, and the next read ends the wait. -/
theorem syncWait_ends {ret : Int}
    (ends : ∀ left : List UInt8, ethHlen ≤ left.length →
      receiveSyncLoop timeout.toUInt64.toInt64 start.toInt64 left (entry :: after) =
        .ok (ret, [])) :
    syncWait network timeout stack start (before ++ entry :: after) =
      .ok (ret, armedBy timeout start before) := by
  obtain ⟨left, same, rest⟩ := receiveSyncLoop_waits (stackBuffer_room room)
    (fun earlier member => whole earlier (List.mem_append_left _ member))
    (clock.of_prefix (List.prefix_append _ _)) waits
  have looped := rest (entry :: after)
  rw [ends left (same ▸ stackBuffer_room room)] at looped
  rw [armedBy, syncWait_of_loop looped]
  simp

theorem syncWait_synced (sync : entry.1.IsSync) :
    syncWait network timeout stack start (before ++ entry :: after) =
      .ok (0, armedBy timeout start before) := by
  apply syncWait_ends room whole clock waits
  intro left enough
  exact receiveSyncLoop_synced enough (whole entry (by simp)) sync _ _

theorem syncWait_late (late : FailsLate start timeout entry) :
    syncWait network timeout stack start (before ++ entry :: after) =
      .ok (-ncEtimeout, armedBy timeout start before) := by
  apply syncWait_ends room whole clock waits
  intro left enough
  exact receiveSyncLoop_late enough (whole entry (by simp)) (clock.forward (by simp))
    (clock.span entry (by simp)) late

end Ends

/-- A wait has one outcome: it goes on, is synced, or is late. -/
theorem syncWait_cases (room : ethHlen ≤ network.syncPacketlen)
    (whole : ∀ entry ∈ reads, entry.1.Whole) (clock : ReadingsRun start reads) :
    (∀ entry ∈ reads, FailsInTime start timeout entry) ∧
        syncWait network timeout stack start reads = .error .stillWaiting ∨
      ∃ before entry after, reads = before ++ entry :: after ∧
        (∀ earlier ∈ before, FailsInTime start timeout earlier) ∧
          (entry.1.IsSync ∧ syncWait network timeout stack start reads =
              .ok (0, armedBy timeout start before) ∨
            FailsLate start timeout entry ∧ syncWait network timeout stack start reads =
              .ok (-ncEtimeout, armedBy timeout start before)) := by
  rcases exists_first (FailsInTime start timeout) reads with
    waits | ⟨before, entry, after, rfl, waits, fails⟩
  · obtain ⟨left, _, rest⟩ := receiveSyncLoop_waits (stackBuffer_room room) whole clock waits
    have looped := rest []
    rw [List.append_nil] at looped
    exact .inl ⟨waits, syncWait_of_waiting looped⟩
  · refine .inr ⟨before, entry, after, rfl, waits, ?_⟩
    rcases not_failsInTime fails with sync | late
    · exact .inl ⟨sync, syncWait_synced room whole clock waits sync⟩
    · exact .inr ⟨late, syncWait_late room whole clock waits late⟩

/-- The wait ends after as many reads as the timeout has microseconds and two. -/
theorem syncWait_ends_in_time (room : ethHlen ≤ network.syncPacketlen)
    (whole : ∀ entry ∈ reads, entry.1.Whole) (clock : ReadingsRun start reads)
    (increasing : (reads.map fun entry => reading entry.2).Pairwise (· < ·))
    (enough : timeout.toNat + 2 ≤ reads.length) :
    ∃ made ret armed, made <+: reads ∧ made.length ≤ timeout.toNat + 2 ∧
      syncWait network timeout stack start made = .ok (ret, armed) := by
  have part : reads.take (timeout.toNat + 2) <+: reads := List.take_prefix _ _
  have count : (reads.take (timeout.toNat + 2)).length = timeout.toNat + 2 := by
    rw [List.length_take, Nat.min_eq_left enough]
  have clockPart := clock.of_prefix part
  rcases syncWait_cases room (fun entry member => whole entry (part.subset member)) clockPart with
    ⟨waits, _⟩ | ⟨before, entry, after, split, waits, ends⟩
  · -- so many readings do not fit between the start and the deadline
    have fits := length_le_of_increasing
      (show reading start ≤ reading start + timeout.toNat + 1 by omega)
      (increasing.sublist (part.sublist.map _))
      (fun number member => by
        obtain ⟨entry, inside, rfl⟩ := List.mem_map.mp member
        exact clockPart.forward inside)
      fun number member => by
        obtain ⟨entry, inside, rfl⟩ := List.mem_map.mp member
        exact (waits entry inside).2
    rw [List.length_map, count] at fits
    push_cast at fits
    omega
  · rcases ends with ⟨_, answered⟩ | ⟨_, answered⟩
    · exact ⟨_, _, _, part, Nat.le_of_eq count, answered⟩
    · exact ⟨_, _, _, part, Nat.le_of_eq count, answered⟩

/--
For every timeout, every sequence of reads and every clock that does not go
back, a sync wait succeeds exactly when a sync frame is read before a failed
read ends behind the deadline, gives up exactly at the first such read, arms
the socket with what is left of the timeout, and ends within as many reads as
the timeout has microseconds and two where the clock goes on between reads.
-/
theorem syncWait_bounded (room : ethHlen ≤ network.syncPacketlen)
    (whole : ∀ entry ∈ reads, entry.1.Whole) (clock : ReadingsRun start reads) :
    SyncWaitBounded network timeout stack start reads where
  succeeds := by
    constructor
    · rintro ⟨armed, answered⟩
      rcases syncWait_cases room whole clock with
        ⟨_, waiting⟩ | ⟨before, entry, after, split, waits, ⟨sync, _⟩ | ⟨_, late⟩⟩
      · cases waiting.symm.trans answered
      · exact ⟨before, entry, after, split, sync, fun earlier member late =>
          Int.not_le.mpr late.2 (waits earlier member).2⟩
      · cases late.symm.trans answered
    · rintro ⟨before, entry, after, rfl, sync, early⟩
      rcases exists_first (FailsInTime start timeout) before with
        waits | ⟨front, first, rest, rfl, waits, fails⟩
      · exact ⟨_, syncWait_synced room whole clock waits sync⟩
      · have firstSync := (not_failsInTime fails).resolve_right (early first (by simp))
        rw [List.append_assoc, List.cons_append] at whole clock ⊢
        exact ⟨_, syncWait_synced room whole clock waits firstSync⟩
  timesOut := by
    constructor
    · rintro ⟨armed, answered⟩
      rcases syncWait_cases room whole clock with
        ⟨_, waiting⟩ | ⟨before, entry, after, split, waits, ⟨_, synced⟩ | ⟨late, _⟩⟩
      · cases waiting.symm.trans answered
      · cases synced.symm.trans answered
      · exact ⟨before, entry, after, split, late, waits⟩
    · rintro ⟨before, entry, after, rfl, late, waits⟩
      exact ⟨_, syncWait_late room whole clock waits late⟩
  rightAfter := by
    rintro before entry after rfl late waits
    have part : before ++ [entry] <+: before ++ entry :: after := ⟨after, by simp⟩
    exact ⟨syncWait_waiting room whole clock waits,
      syncWait_late room (fun other member => whole other (part.subset member))
        (clock.of_prefix part) waits late⟩
  armed := by
    intro ret armed answered
    rcases syncWait_cases room whole clock with
      ⟨_, waiting⟩ | ⟨before, entry, after, split, waits, ⟨_, done⟩ | ⟨_, done⟩⟩
    · cases waiting.symm.trans answered
    · cases done.symm.trans answered
      exact ⟨before, entry, after, split, waits, rfl⟩
    · cases done.symm.trans answered
      exact ⟨before, entry, after, split, waits, rfl⟩
  left_exact := by
    intro entry member early
    have deadline := early.2
    have left : 0 ≤ timeLeft start timeout entry.2 := by
      unfold timeLeft
      omega
    have narrowed := rearmed_toNat (clock.forward member) (clock.span entry member) left
    exact ⟨left, narrowed.2, narrowed.1⟩
  ends := syncWait_ends_in_time room whole clock

end Outcome

/-! ## The room for a header -/

/-- Every sync wait is bounded, whatever is read and at which times. -/
def SyncWaitsBounded (network : Network) : Prop :=
  ∀ (timeout : UInt32) (stack : Nat → UInt8) (start : UInt64) (reads : List (SockRead × UInt64)),
    (∀ entry ∈ reads, entry.1.Whole) → ReadingsRun start reads →
      SyncWaitBounded network timeout stack start reads

/-- A sync frame of nothing but its header. -/
def syncHeader : SockRead := .frame (List.replicate 12 0 ++ htons ethPNcSync)

/-- A sync frame is there to be read. -/
def syncThere : StepInput := { StepInput.atClock 0 0 0 with syncReads := [(syncHeader, 0)] }

theorem syncThere_whole : ∀ read ∈ syncThere.syncReads, read.1.Whole := by
  rintro read member
  cases List.mem_singleton.mp member
  exact (by decide : ethHlen ≤ (List.replicate 12 (0 : UInt8) ++ htons ethPNcSync).length)

/-- Without room for a header the first frame lies outside the buffer. -/
theorem syncWait_short {network : Network} (short : network.syncPacketlen < ethHlen)
    (timeout : UInt32) (stack : Nat → UInt8) (start now : UInt64) :
    syncWait network timeout stack start [(syncHeader, now)] =
      .error (.shortBuffer network.syncPacketlen) := by
  have size : ((List.range network.syncPacketlen).map stack).length = network.syncPacketlen := by
    rw [List.length_map, List.length_range]
  have outside : ((List.range network.syncPacketlen).map stack).length < ethHlen := by rwa [size]
  rw [syncWait, ncmReceiveSync, syncHeader, receiveSyncLoop, ncRcvmsg_short outside, size]
  rfl

theorem syncWaitsBounded_iff_room {network : Network} :
    SyncWaitsBounded network ↔ ethHlen ≤ network.syncPacketlen := by
  constructor
  · intro bounded
    by_contra! short
    have clock : ReadingsRun 0 [(syncHeader, 0)] := readingsRun_of_nonneg (by decide) (by decide)
    obtain ⟨armed, synced⟩ := (bounded 0 (fun _ => 0) 0 _ syncThere_whole clock).succeeds.mpr
      ⟨[], _, [], rfl, rfl, List.forall_mem_nil _⟩
    cases (syncWait_short short 0 (fun _ => 0) 0 0).symm.trans synced
  · intro room timeout stack start reads whole clock
    exact syncWait_bounded room whole clock

/-! ## Starts that configure channels -/

/-- A write of `run` that starts the interpreter with channels. -/
def ConfiguresChannels (before : NcmSysfs) (action : Action) : Prop :=
  StartsInterpreter before action ∧ before.interpParams.channels ≠ 0

section Configured

variable {long : LongWidth} {before after : NcmSysfs} {label : Action × List Observation}

theorem step_of_starts (hstep : Step long before label after)
    (starts : StartsInterpreter before label.1) : ∃ env acquired,
      initNetwork before.ncmInterp.network before.interpParams env =
        .ok (after.ncmInterp.network, acquired) := by
  obtain ⟨action, shown⟩ := label
  obtain ⟨buf, env, rfl, command, startable⟩ := starts
  simp only [Step, NcmSysfs.next, ncmSysfsStoreControl, if_pos command, if_pos startable] at hstep
  split at hstep
  · cases hstep
  · obtain ⟨stored, written, finish⟩ := bind_eq_ok.mp hstep
    obtain ⟨interpreter, started, built⟩ := bind_eq_ok.mp written
    obtain ⟨⟨network, acquired⟩, initialised, assigned⟩ := bind_eq_ok.mp started
    cases assigned
    cases built
    cases finish
    exact ⟨env, acquired, initialised⟩

theorem Moves.syncPacketlen_kept {action : Action} {shown : List Observation} {next : Interpreter}
    (moves : Moves long before action shown next) (unstarted : ¬ StartsInterpreter before action) :
    next.network.syncPacketlen = before.ncmInterp.network.syncPacketlen := by
  rcases moves.network_kept unstarted with same | destroyed
  · exact same.syncPacketlen
  · rw [destroyed]

/-- Only a start that configures channels sets the packet length. -/
theorem step_syncPacketlen (hstep : Step long before label after) :
    after.ncmInterp.network.syncPacketlen ≠ 0 ↔
      before.ncmInterp.network.syncPacketlen ≠ 0 ∨ ConfiguresChannels before label.1 := by
  by_cases starts : StartsInterpreter before label.1
  · obtain ⟨env, acquired, initialised⟩ := step_of_starts hstep starts
    obtain ⟨table, -, built⟩ := initNetwork_eq_ok initialised
    rw [built]
    dsimp only
    split
    · next zero => exact ⟨.inl, fun set => set.resolve_right fun configures => configures.2 zero⟩
    · next channels => exact ⟨fun _ => .inr ⟨starts, channels⟩, fun _ => by decide⟩
  · rw [(step_moves hstep).syncPacketlen_kept starts]
    exact ⟨.inl, fun set => set.resolve_right fun configures => starts configures.1⟩

theorem run_syncPacketlen {records : List (NcmSysfs × Action × List Observation)}
    {last : NcmSysfs} (run : Run (Recorded (Step long)) initModule records last) :
    last.ncmInterp.network.syncPacketlen ≠ 0 ↔
      ∃ record ∈ records, ConfiguresChannels record.1 record.2.1 := by
  refine run.history (fun records last => last.ncmInterp.network.syncPacketlen ≠ 0 ↔
    ∃ record ∈ records, ConfiguresChannels record.1 record.2.1) ?_ ?_
  · exact ⟨fun set => absurd rfl set, fun ⟨record, member, _⟩ => nomatch member⟩
  · rintro records middle ⟨before, label⟩ next - earlier ⟨rfl, hstep⟩
    rw [step_syncPacketlen hstep, earlier]
    simp only [List.mem_append, List.mem_singleton, or_and_right, exists_or, exists_eq_left]

end Configured

/--
In every state that a run from module load reaches, all sync waits are bounded
if and only if some start of the run has configured a channel: only then is
there room for the header that is compared.
-/
theorem syncWaits_bounded_iff {long : LongWidth} {last : NcmSysfs}
    {records : List (NcmSysfs × Action × List Observation)}
    (run : Run (Recorded (Step long)) initModule records last) :
    SyncWaitsBounded last.ncmInterp.network ↔
      ∃ record ∈ records, ConfiguresChannels record.1 record.2.1 := by
  rw [← run_syncPacketlen run, syncWaitsBounded_iff_room]
  have reachable : Reachable long last := ⟨_, run.of_recorded⟩
  rcases (reachable_wellSet reachable).syncPacketlen_cases with zero | set
  · rw [zero]
    decide
  · rw [set]
    decide

/-- A foreign frame, an error and a late error, with a timeout of five microseconds. -/
def lateReads : List (SockRead × UInt64) :=
  [(.frame (List.replicate ethZlen 0), 103), (.failed 10, 105), (.failed 10, 106)]

/-- A start with a channel, then one without: the third read ends a wait, and
the socket has been armed with 5, 2 and 0. -/
theorem syncWaits_bounded_iff_late :
    ∃ (records : List (NcmSysfs × Action × List Observation)) (last : NcmSysfs),
    (SyncWaitsBounded last.ncmInterp.network ↔
      ∃ record ∈ records, ConfiguresChannels record.1 record.2.1) ∧
      (∃ record ∈ records, ConfiguresChannels record.1 record.2.1) ∧
      syncWait last.ncmInterp.network 5 (fun _ => 0) 100 lateReads =
        .ok (-ncEtimeout, [5, 2, 0]) := by
  have done : ∃ last labels, runFromInit .bits64
      (loadAndRun [.make .goto 0 0 0 0] oneChannel .bare ++
        [.instruction (.atClock 0 0 0), .storeControl stopCommand .bare, .stopped] ++
        loadAndRun [.make .goto 0 0 0 0] noChannels .bare) = .ok (last, labels) ∧
      last.ncmInterp.network.syncPacketlen = ethZlen :=
    ⟨_, _, rfl, rfl⟩
  obtain ⟨last, labels, done, length⟩ := done
  have recorded := Run.recorded_of_carryOut done
  have set : last.ncmInterp.network.syncPacketlen ≠ 0 := length ▸ by decide
  refine ⟨_, last, syncWaits_bounded_iff recorded, (run_syncPacketlen recorded).mp set, ?_⟩
  unfold syncWait ncmReceiveSync
  rw [length]
  rfl

/-- A wait for a sync without a time limit. -/
def waitForSync : Instr := .make .sync syncSlave 0 0 0

/-- Without a channel the frame that a SYNC waits for is compared outside the
buffer. -/
theorem syncWaits_unconfigured : ∃ last, Reachable .bits64 last ∧
    last.next .bits64 (.instruction syncThere) = .error (.shortBuffer 0) ∧
      ¬ SyncWaitsBounded last.ncmInterp.network := by
  have done : ∃ last labels,
      runFromInit .bits64 (loadAndRun [waitForSync] noChannels .bare) = .ok (last, labels) ∧
        last.ncmInterp.network.syncPacketlen = 0 ∧
        last.next .bits64 (.instruction syncThere) = .error (.shortBuffer 0) :=
    ⟨_, _, rfl, rfl, rfl⟩
  obtain ⟨last, labels, done, unset, faults⟩ := done
  refine ⟨last, ⟨labels, run_of_runFromInit done⟩, faults, fun bounded => ?_⟩
  have room := syncWaitsBounded_iff_room.mp bounded
  rw [unset] at room
  exact absurd room (by decide)

end NetworkCode.Kernel
