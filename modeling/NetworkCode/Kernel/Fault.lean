import NetworkCode.Library.Checked

/-!
# Undefined behaviour of the module

The module is C running in the kernel.  Where the source indexes a table past
its end, copies past a buffer or follows a bad pointer, the language gives the
step no meaning; the model stops there with a fault that names the access.
-/

namespace NetworkCode.Kernel

/-- The size of `unsigned long` and of `size_t`. -/
inductive LongWidth where
  | bits32
  | bits64
  deriving DecidableEq, Repr

def LongWidth.bits : LongWidth → Nat
  | bits32 => 32
  | bits64 => 64

/-- The tables that instructions index with their operands. -/
inductive Table where
  | program
  | futures
  | variables
  | messages
  | counters
  | channels
  deriving DecidableEq, Repr

/-- Why a step has no defined result. -/
inductive Fault where
  | outOfBounds (table : Table) (index : Nat)
  /-- The block of the channel table has been released. -/
  | freedChannels
  /-- `memcpy` runs past the end of one of its buffers. -/
  | copyTooLong (length : Nat)
  /-- A value of so many bits is stored through the address of a shorter variable. -/
  | wideStore (bits : Nat)
  /-- The pointer to a network device was never set. -/
  | wildDevice
  /-- The Ethernet header lies outside the buffer it is read from. -/
  | shortBuffer (length : Nat)
  /-- The supplied socket reads end while a slave SYNC still waits; the
  instruction has not returned. -/
  | stillWaiting
  /-- The transition is not possible in this state. -/
  | notEnabled
  deriving DecidableEq, Repr

abbrev Exec := Except Fault

end NetworkCode.Kernel
