import Mathlib.Algebra.Group.Int.Defs
import NetworkCode.Kernel.Control
import NetworkCode.Kernel.Transitions

/-!
# The clock on both word sizes

`now_us` multiplies and adds in `long` and converts the result to 64 bits.
With 64 bits every reading is exact.  With 32 bits a reading keeps its value
modulo `2^32` and is moved to the end of the 64-bit range in each second half.
-/

namespace NetworkCode.Kernel

open Library Library.Checked

/-- `struct timeval`, as `do_gettimeofday` fills it within the seconds of 31 bits -/
structure Timeval where
  tvSec : Nat
  tvUsec : Nat
  tvSec_lt : tvSec < 0x80000000
  tvUsec_lt : tvUsec < 1000000

/-- `USEC_PER_SEC` -/
def usecPerSec : Int := 1000000

/-- Arithmetic in `long` wraps. -/
def LongWidth.wrap (long : LongWidth) (value : Int) : Int := value.bmod (2 ^ long.bits)

/-- `now_us`, with the time that `do_gettimeofday` delivers. -/
def nowUs (long : LongWidth) (helperTimeval : Timeval) : UInt64 :=
  UInt64.ofInt (long.wrap (long.wrap (helperTimeval.tvSec * usecPerSec) + helperTimeval.tvUsec))

/-- The time in microseconds. -/
def Timeval.micros (time : Timeval) : Nat := time.tvSec * 1000000 + time.tvUsec

/-! ## Readings -/

theorem micros_lt (time : Timeval) : time.micros < 0x80000000 * 1000000 := by
  have sec := time.tvSec_lt
  have usec := time.tvUsec_lt
  unfold Timeval.micros
  omega

theorem toNat_nowUs (long : LongWidth) (time : Timeval) :
    ((nowUs long time).toNat : Int) =
      (time.micros : Int).bmod (2 ^ long.bits) % 0x10000000000000000 := by
  have sum : (time.tvSec * usecPerSec + time.tvUsec : Int) = time.micros := by
    unfold Timeval.micros usecPerSec
    omega
  have wrapped : long.wrap (long.wrap (time.tvSec * usecPerSec) + time.tvUsec) =
      (time.micros : Int).bmod (2 ^ long.bits) := by
    rw [LongWidth.wrap, LongWidth.wrap, Int.bmod_add_bmod, sum]
  rw [nowUs, wrapped, UInt64.ofInt, UInt64.toNat_ofNat']
  omega

/-- A reading with 64 bits is the time. -/
theorem toNat_nowUs_bits64 (time : Timeval) : (nowUs .bits64 time).toNat = time.micros := by
  have small := micros_lt time
  have reading := toNat_nowUs .bits64 time
  have modulus : 2 ^ LongWidth.bits64.bits = 0x10000000000000000 := rfl
  rw [modulus, Int.bmod_eq_of_le (by omega) (by omega)] at reading
  omega

/-- A reading with 32 bits, extended by its sign. -/
def signExtended (micros : Nat) : Nat :=
  if micros % 0x100000000 < 0x80000000 then micros % 0x100000000
  else micros % 0x100000000 + 0xFFFFFFFF00000000

theorem toNat_nowUs_bits32 (time : Timeval) :
    (nowUs .bits32 time).toNat = signExtended time.micros := by
  have reading := toNat_nowUs .bits32 time
  have modulus : 2 ^ LongWidth.bits32.bits = 0x100000000 := rfl
  rw [modulus, Int.bmod_def] at reading
  unfold signExtended
  split
  · next low =>
      rw [if_pos (by omega)] at reading
      omega
  · next high =>
      rw [if_neg (by omega)] at reading
      omega

/-- The expiry of a future pushed at the time. -/
def expiryAt (long : LongWidth) (time : Timeval) (delay : UInt32) : Nat :=
  ((nowUs long time).toNat + delay.toNat) % 0x10000000000000000

theorem due_pushedEl (long : LongWidth) (time : Timeval) (jmp delay : UInt32) :
    (pushedEl jmp delay.toUInt64 (nowUs long time)).due = expiryAt long time delay := by
  unfold pushedEl FutureQueueEl.due expiryAt
  rw [UInt64.toNat_ofNat', UInt32.toNat_toUInt64, Nat.mod_mod]
  rfl

/-! ## Expiries with 32 bits -/

/-- The time lies in the first half of a turn of the 32-bit clock. -/
def FirstHalf (micros : Nat) : Prop := micros % 0x100000000 < 0x80000000

/-- Both times lie in the first half of the same turn. -/
structure SameTurn (first second : Nat) : Prop where
  turn : first / 0x100000000 = second / 0x100000000
  first_half : FirstHalf first
  second_half : FirstHalf second

/-- The expiry of a future with a 32-bit clock. -/
def expiry32 (micros delay : Nat) : Nat := (signExtended micros + delay) % 0x10000000000000000

section Turns

variable {micros delay first second : Nat}

/-- In a first half nothing wraps. -/
theorem expiry32_first (half : FirstHalf micros) (small : delay < 0x100000000) :
    expiry32 micros delay = micros % 0x100000000 + delay := by
  unfold FirstHalf at half
  rw [expiry32, signExtended, if_pos half]
  omega

/-- In a second half a short delay does not leave the end of the range. -/
theorem expiry32_before_turn (half : ¬ FirstHalf micros)
    (short : micros % 0x100000000 + delay < 0x100000000) :
    expiry32 micros delay = micros % 0x100000000 + delay + 0xFFFFFFFF00000000 := by
  unfold FirstHalf at half
  rw [expiry32, signExtended, if_neg half]
  omega

/-- In a second half a long delay wraps. -/
theorem expiry32_after_turn (half : ¬ FirstHalf micros) (small : delay < 0x100000000)
    (long : 0x100000000 ≤ micros % 0x100000000 + delay) :
    expiry32 micros delay = micros % 0x100000000 + delay - 0x100000000 := by
  unfold FirstHalf at half
  rw [expiry32, signExtended, if_neg half]
  omega

/-- The largest delay never leads to the end of the range. -/
theorem expiry32_longest (micros : Nat) : expiry32 micros 0xFFFFFFFF < 0x180000000 := by
  by_cases half : FirstHalf micros
  · have small := half
    unfold FirstHalf at small
    rw [expiry32_first half (by decide)]
    omega
  · have large := half
    unfold FirstHalf at large
    rw [expiry32_after_turn half (by decide) (by omega)]
    omega

/-- Expiries are ordered as the exact times for all delays. -/
def ExpiriesOrdered (first second : Nat) : Prop :=
  ∀ delay delay', delay < 0x100000000 → delay' < 0x100000000 →
    (first + delay ≤ second + delay' ↔ expiry32 first delay ≤ expiry32 second delay')

theorem SameTurn.expiriesOrdered (same : SameTurn first second) :
    ExpiriesOrdered first second := by
  intro delay delay' small small'
  have turn := same.turn
  rw [expiry32_first same.first_half small, expiry32_first same.second_half small']
  omega

/-- A future from a second half is far away, or due at once with the delay that turns the clock. -/
theorem ExpiriesOrdered.first_half (ordered : ExpiriesOrdered first second) :
    FirstHalf first := by
  by_contra half
  have large := half
  unfold FirstHalf at large
  have far := ordered 0 0xFFFFFFFF (by decide) (by decide)
  have near := ordered (0x100000000 - first % 0x100000000) 0 (by omega) (by decide)
  have longest := expiry32_longest second
  rw [expiry32_before_turn half (by omega)] at far
  rw [expiry32_after_turn half (by omega) (by omega)] at near
  omega

theorem ExpiriesOrdered.second_half (ordered : ExpiriesOrdered first second) :
    FirstHalf second := by
  by_contra half
  have large := half
  unfold FirstHalf at large
  have low := ordered.first_half
  have far := ordered 0xFFFFFFFF 0 (by decide) (by decide)
  have near := ordered 1 (0x100000000 - second % 0x100000000) (by decide) (by omega)
  have longest := expiry32_longest first
  rw [expiry32_before_turn half (by omega)] at far
  rw [expiry32_first low (by decide), expiry32_after_turn half (by omega) (by omega)] at near
  omega

theorem ExpiriesOrdered.turn (ordered : ExpiriesOrdered first second) :
    first / 0x100000000 = second / 0x100000000 := by
  have low := ordered.first_half
  have low' := ordered.second_half
  have small := low
  have small' := low'
  unfold FirstHalf at small small'
  have later := ordered (second % 0x100000000 - first % 0x100000000 + 1) 0 (by omega) (by decide)
  have earlier := ordered 0 (first % 0x100000000 - second % 0x100000000) (by decide) (by omega)
  rw [expiry32_first low (by omega), expiry32_first low' (by decide)] at later
  rw [expiry32_first low (by decide), expiry32_first low' (by omega)] at earlier
  omega

theorem expiriesOrdered_iff : ExpiriesOrdered first second ↔ SameTurn first second :=
  ⟨fun ordered => ⟨ordered.turn, ordered.first_half, ordered.second_half⟩,
    SameTurn.expiriesOrdered⟩

end Turns

/-! ## The order in the queue -/

/-- Two futures that are pushed one after the other stand in the queue in the order of their
exact times, and in the order of the pushes if these are equal. -/
def OrdersExactly (long : LongWidth) (first second : Timeval) : Prop :=
  ∀ (jmp jmp' delay delay' : UInt32) (queue : FutureQueue maxFutures) (futures : Futures),
    queue.Represents futures → futures.contents.length + 2 ≤ maxFutures →
      ∃ middle after, pushFuture queue jmp delay.toUInt64 (nowUs long first) = .ok (.ok, middle) ∧
        pushFuture middle jmp' delay'.toUInt64 (nowUs long second) = .ok (.ok, after) ∧
        (first.micros + delay.toNat ≤ second.micros + delay'.toNat →
          [pushedEl jmp delay.toUInt64 (nowUs long first),
            pushedEl jmp' delay'.toUInt64 (nowUs long second)].Sublist after.live) ∧
        (second.micros + delay'.toNat < first.micros + delay.toNat →
          [pushedEl jmp' delay'.toUInt64 (nowUs long second),
            pushedEl jmp delay.toUInt64 (nowUs long first)].Sublist after.live)

/-- The expiries are ordered as the exact times for all delays. -/
def ExpiriesExact (long : LongWidth) (first second : Timeval) : Prop :=
  ∀ delay delay' : UInt32,
    first.micros + delay.toNat ≤ second.micros + delay'.toNat ↔
      expiryAt long first delay ≤ expiryAt long second delay'

section Order

variable {long : LongWidth} {first second : Timeval}

/-- Two pushes with room for both. -/
theorem pushFuture_twice {queue : FutureQueue maxFutures} {futures : Futures}
    (represents : queue.Represents futures) (room : futures.contents.length + 2 ≤ maxFutures)
    (jmp jmp' : UInt32) (waitUs waitUs' nowUs nowUs' : UInt64) :
    ∃ middle after, pushFuture queue jmp waitUs nowUs = .ok (.ok, middle) ∧
      pushFuture middle jmp' waitUs' nowUs' = .ok (.ok, after) ∧
      SortedBy FutureQueueEl.due middle.live ∧ pushedEl jmp waitUs nowUs ∈ middle.live ∧
      after.live = insertAfter FutureQueueEl.due (pushedEl jmp' waitUs' nowUs') middle.live ∧
      after.live.length = futures.contents.length + 2 := by
  have contents := represents.live_eq
  have sorted : SortedBy FutureQueueEl.due queue.live := by
    rw [contents]
    exact futures.contents_sorted
  have length : queue.length.toNat = futures.contents.length := by
    rw [← FutureQueue.live_length, contents]
  obtain ⟨middle, pushed, inRange, live⟩ := pushFuture_room jmp waitUs nowUs maxFutures_small
    represents.inRange sorted (by omega)
  have sorted' : SortedBy FutureQueueEl.due middle.live := by
    rw [live]
    exact sorted.insertAfter _
  have length' : middle.live.length = futures.contents.length + 1 := by
    rw [live, insertAfter_length, contents]
  have room' : middle.length.toNat ≠ maxFutures := by
    rw [← FutureQueue.live_length]
    omega
  obtain ⟨after, pushed', inRange', live'⟩ := pushFuture_room jmp' waitUs' nowUs' maxFutures_small
    inRange sorted' room'
  refine ⟨middle, after, pushed, pushed', sorted', ?_, live', ?_⟩
  · rw [live]
    exact mem_insertAfter.mpr (.inl rfl)
  · rw [live', insertAfter_length, length']

theorem ordersExactly_of_expiries (exactly : ExpiriesExact long first second) :
    OrdersExactly long first second := by
  intro jmp jmp' delay delay' queue futures represents room
  obtain ⟨middle, after, pushed, pushed', sorted, member, live, _⟩ := pushFuture_twice represents
    room jmp jmp' delay.toUInt64 delay'.toUInt64 (nowUs long first) (nowUs long second)
  refine ⟨middle, after, pushed, pushed', ?_, ?_⟩
  · intro inOrder
    rw [live]
    apply sorted.before_insertAfter member
    rw [due_pushedEl, due_pushedEl]
    exact (exactly delay delay').mp inOrder
  · intro crossed
    rw [live]
    apply insertAfter_before member
    rw [due_pushedEl, due_pushedEl]
    exact Nat.lt_of_not_le fun smaller =>
      absurd ((exactly delay delay').mpr smaller) (Nat.not_le.mpr crossed)

/-- An empty queue with two more futures holds nothing else. -/
theorem expiries_of_ordersExactly (ordered : OrdersExactly long first second) :
    ExpiriesExact long first second := by
  intro delay delay'
  have represents : (initFutureQueue zeroInterpreter.futureQueue).Represents
      BoundedQueue.empty := initFutureQueue_represents _
  have room : (BoundedQueue.empty : Futures).contents.length + 2 ≤ maxFutures := by decide
  obtain ⟨middle, after, pushed, pushed', before, behind⟩ :=
    ordered 0 1 delay delay' _ _ represents room
  obtain ⟨middle', after', again, again', sorted, member, live, length⟩ :=
    pushFuture_twice represents room 0 1 delay.toUInt64 delay'.toUInt64 (nowUs long first)
      (nowUs long second)
  cases pushed.symm.trans again
  cases pushed'.symm.trans again'
  have two : after.live.length = 2 := length
  have apart : pushedEl 0 delay.toUInt64 (nowUs long first) ≠
      pushedEl 1 delay'.toUInt64 (nowUs long second) := by
    intro same
    have address := congrArg FutureQueueEl.jmpAddress same
    cases address
  constructor
  · intro inOrder
    by_contra larger
    have earlier : (pushedEl 1 delay'.toUInt64 (nowUs long second)).due <
        (pushedEl 0 delay.toUInt64 (nowUs long first)).due := by
      rw [due_pushedEl, due_pushedEl]
      exact Nat.lt_of_not_le larger
    have crossed := insertAfter_before member earlier
    rw [← live] at crossed
    have same := ((before inOrder).eq_of_length two.symm).trans
      (crossed.eq_of_length two.symm).symm
    exact apart (List.cons.inj same).1
  · intro smaller
    by_contra larger
    have later : (pushedEl 0 delay.toUInt64 (nowUs long first)).due ≤
        (pushedEl 1 delay'.toUInt64 (nowUs long second)).due := by
      rw [due_pushedEl, due_pushedEl]
      exact smaller
    have inOrder := sorted.before_insertAfter member later
    rw [← live] at inOrder
    have same := (inOrder.eq_of_length two.symm).trans
      ((behind (Nat.lt_of_not_le larger)).eq_of_length two.symm).symm
    exact apart (List.cons.inj same).1

theorem expiriesExact_bits64 (first second : Timeval) : ExpiriesExact .bits64 first second := by
  intro delay delay'
  have small := micros_lt first
  have small' := micros_lt second
  have short := delay.toNat_lt
  have short' := delay'.toNat_lt
  rw [expiryAt, expiryAt, toNat_nowUs_bits64, toNat_nowUs_bits64]
  omega

theorem expiriesExact_bits32 : ExpiriesExact .bits32 first second ↔
    SameTurn first.micros second.micros := by
  rw [← expiriesOrdered_iff]
  constructor
  · intro exactly delay delay' small small'
    have ordered := exactly (UInt32.ofNat delay) (UInt32.ofNat delay')
    rw [expiryAt, expiryAt, toNat_nowUs_bits32, toNat_nowUs_bits32, UInt32.toNat_ofNat',
      UInt32.toNat_ofNat', Nat.mod_eq_of_lt small, Nat.mod_eq_of_lt small'] at ordered
    exact ordered
  · intro ordered delay delay'
    rw [expiryAt, expiryAt, toNat_nowUs_bits32, toNat_nowUs_bits32]
    exact ordered delay.toNat delay'.toNat delay.toNat_lt delay'.toNat_lt

end Order

/-! ## The sleep of a HALT -/

/-- A HALT that is not late sleeps for the exact time that is left. -/
def SleepsExactly (long : LongWidth) (pushed halted : Timeval) : Prop :=
  ∀ (jmp delay : UInt32) (interpreter : Interpreter) (input : StepInput)
    (rest : FutureQueue maxFutures),
    popFuture interpreter.futureQueue =
        .ok (.ok, some (pushedEl jmp delay.toUInt64 (nowUs long pushed)), rest) →
      input.haltClock = nowUs long halted → halted.micros ≤ pushed.micros + delay.toNat →
        ∃ executed, handleHalt interpreter input long = .ok executed ∧
          executed.events = [.resumed (pushedEl jmp delay.toUInt64 (nowUs long pushed))
            input.haltClock (pushed.micros + delay.toNat - halted.micros) input.wakeClock]

/-- The sleep that a HALT asks for. -/
def sleepAt (long : LongWidth) (pushed halted : Timeval) (delay : UInt32) : Nat :=
  (0x10000000000000000 - (nowUs long halted).toNat + expiryAt long pushed delay) %
    0x10000000000000000 % 2 ^ long.bits

section Sleep

variable {long : LongWidth} {pushed halted : Timeval} {jmp delay : UInt32}
  {interpreter : Interpreter} {input : StepInput} {rest : FutureQueue maxFutures}

/-- A HALT resumes the future that it takes from the queue. -/
theorem handleHalt_popped {el : FutureQueueEl}
    (popped : popFuture interpreter.futureQueue = .ok (.ok, some el, rest)) :
    ∃ executed, handleHalt interpreter input long = .ok executed ∧
      executed.events = [resumption long el input] := by
  have never : ¬ el.expiry - input.haltClock < 0 := UInt64.not_lt_zero
  unfold handleHalt
  rw [popped]
  simp only [ok_bind, if_neg never]
  exact ⟨_, rfl, rfl⟩

theorem handleHalt_sleeps (popped : popFuture interpreter.futureQueue =
      .ok (.ok, some (pushedEl jmp delay.toUInt64 (nowUs long pushed)), rest))
    (clock : input.haltClock = nowUs long halted) :
    ∃ executed, handleHalt interpreter input long = .ok executed ∧
      executed.events = [.resumed (pushedEl jmp delay.toUInt64 (nowUs long pushed))
        input.haltClock (sleepAt long pushed halted delay) input.wakeClock] := by
  have expiry : (pushedEl jmp delay.toUInt64 (nowUs long pushed)).expiry.toNat =
      expiryAt long pushed delay := due_pushedEl long pushed jmp delay
  have modulus : 2 ^ 64 = 0x10000000000000000 := rfl
  have range : ((pushedEl jmp delay.toUInt64 (nowUs long pushed)).expiry -
      input.haltClock).toNat % 2 ^ long.bits = sleepAt long pushed halted delay := by
    rw [UInt64.toNat_sub, modulus, expiry, clock, sleepAt]
  obtain ⟨executed, ran, events⟩ := handleHalt_popped popped
  rw [resumption, range] at events
  exact ⟨executed, ran, events⟩

/-- Any future can be the next one. -/
theorem exists_popped (jmp delay : UInt32) (nowUs : UInt64) :
    ∃ (interpreter : Interpreter) (rest : FutureQueue maxFutures),
      popFuture interpreter.futureQueue =
        .ok (.ok, some (pushedEl jmp delay.toUInt64 nowUs), rest) := by
  obtain ⟨queue, _, inRange, live⟩ := pushFuture_room jmp delay.toUInt64 nowUs maxFutures_small
    (initFutureQueue_represents zeroInterpreter.futureQueue).inRange
    (show SortedBy FutureQueueEl.due [] from List.Pairwise.nil) (by decide)
  obtain ⟨rest, popped, _, _⟩ := popFuture_cons maxFutures_small inRange live
  exact ⟨{ zeroInterpreter with futureQueue := queue }, rest, popped⟩

theorem sleepAt_bits64 (early : halted.micros ≤ pushed.micros + delay.toNat) :
    sleepAt .bits64 pushed halted delay = pushed.micros + delay.toNat - halted.micros := by
  have small := micros_lt pushed
  have small' := micros_lt halted
  have short := delay.toNat_lt
  have modulus : 2 ^ LongWidth.bits64.bits = 0x10000000000000000 := rfl
  rw [sleepAt, expiryAt, toNat_nowUs_bits64, toNat_nowUs_bits64, modulus]
  omega

/-- Turns of the clock cancel out in a sleep. -/
theorem sleepAt_bits32 (early : halted.micros ≤ pushed.micros + delay.toNat) :
    sleepAt .bits32 pushed halted delay =
      (pushed.micros + delay.toNat - halted.micros) % 0x100000000 := by
  have modulus : 2 ^ LongWidth.bits32.bits = 0x100000000 := rfl
  rw [sleepAt, expiryAt, toNat_nowUs_bits32, toNat_nowUs_bits32, modulus]
  unfold signExtended
  split <;> split <;> omega

theorem sleepsExactly_bits64 (pushed halted : Timeval) : SleepsExactly .bits64 pushed halted := by
  intro jmp delay interpreter input rest popped clock early
  obtain ⟨executed, ran, events⟩ := handleHalt_sleeps popped clock
  rw [sleepAt_bits64 early] at events
  exact ⟨executed, ran, events⟩

theorem sleepsExactly_bits32 : SleepsExactly .bits32 pushed halted ↔
    pushed.micros ≤ halted.micros := by
  constructor
  · intro sleeps
    by_contra back
    -- the longest delay leaves more than 32 bits to sleep
    have longest : (0xFFFFFFFF : UInt32).toNat = 0xFFFFFFFF := rfl
    have early : halted.micros ≤ pushed.micros + (0xFFFFFFFF : UInt32).toNat := by omega
    obtain ⟨interpreter, rest, popped⟩ := exists_popped 0 0xFFFFFFFF (nowUs .bits32 pushed)
    let input : StepInput := .atClock 0 (nowUs .bits32 halted) 0
    obtain ⟨executed, ran, events⟩ := sleeps 0 0xFFFFFFFF interpreter input rest popped rfl early
    have clock : input.haltClock = nowUs .bits32 halted := rfl
    obtain ⟨executed', ran', events'⟩ := handleHalt_sleeps popped clock
    cases ran.symm.trans ran'
    rw [events'] at events
    injection (List.cons.inj events).1 with _ _ same
    rw [sleepAt_bits32 early] at same
    omega
  · intro forward jmp delay interpreter input rest popped clock early
    obtain ⟨executed, ran, events⟩ := handleHalt_sleeps popped clock
    have short := delay.toNat_lt
    rw [sleepAt_bits32 early, Nat.mod_eq_of_lt (by omega)] at events
    exact ⟨executed, ran, events⟩

end Sleep

/-! ## Exactness -/

/-- The queue orders two futures by their exact times, in whichever order they are pushed, and a
HALT that takes the first one sleeps exactly until then. -/
structure ClockExact (long : LongWidth) (first second halted : Timeval) : Prop where
  ordered : OrdersExactly long first second
  reordered : OrdersExactly long second first
  sleeps : SleepsExactly long first halted

/--
The clock arithmetic is exact for all delays if and only if `long` has 64 bits,
or both futures are pushed in the first half of one turn of the 32-bit clock
and the HALT does not read an earlier time than the FUTURE.
-/
theorem clockExact_iff (long : LongWidth) (first second halted : Timeval) :
    ClockExact long first second halted ↔ long = .bits64 ∨
      SameTurn first.micros second.micros ∧ first.micros ≤ halted.micros := by
  cases long with
  | bits64 =>
      refine ⟨fun _ => .inl rfl, fun _ => ⟨?_, ?_, sleepsExactly_bits64 _ _⟩⟩
      · exact ordersExactly_of_expiries (expiriesExact_bits64 _ _)
      · exact ordersExactly_of_expiries (expiriesExact_bits64 _ _)
  | bits32 =>
      constructor
      · intro exactly
        have turn := expiriesExact_bits32.mp (expiries_of_ordersExactly exactly.ordered)
        exact .inr ⟨turn, sleepsExactly_bits32.mp exactly.sleeps⟩
      · rintro (impossible | ⟨same, forward⟩)
        · cases impossible
        · have back : SameTurn second.micros first.micros :=
            ⟨same.turn.symm, same.second_half, same.first_half⟩
          exact ⟨ordersExactly_of_expiries (expiriesExact_bits32.mpr same),
            ordersExactly_of_expiries (expiriesExact_bits32.mpr back),
            sleepsExactly_bits32.mpr forward⟩

/-- Two futures less than a millisecond apart at a turn of the 32-bit clock. -/
theorem clock_turns : ¬ ∀ (long : LongWidth) (first second halted : Timeval),
    ClockExact long first second halted := by
  intro claim
  have exactly := claim .bits32 ⟨2147, 483000, by decide, by decide⟩
    ⟨2147, 484000, by decide, by decide⟩ ⟨2147, 484000, by decide, by decide⟩
  have turn := expiriesExact_bits32.mp (expiries_of_ordersExactly exactly.ordered)
  exact absurd turn.second_half (by unfold FirstHalf; decide)

end NetworkCode.Kernel
