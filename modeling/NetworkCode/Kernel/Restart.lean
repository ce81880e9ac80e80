import NetworkCode.Kernel.SyncDeadline
import NetworkCode.Kernel.Twins

/-!
# Starting again

`start_interpreter` sets the program, the counter and the network and leaves
futures, counters and error bits as they are, and the `dev` fields of channels
without a known device as the new table's memory held them.  A restart shows no
trace of the past exactly when nothing of it is left.
-/

namespace NetworkCode.Kernel

open Library Library.Checked

variable {long : LongWidth}

/-- The program that a write of `buf` to the code file stores. -/
def Program.stored (buf : List UInt8) : Program := ⟨some ⟨buf⟩, UInt32.ofNat buf.length⟩

section Single

variable {sysfs : NcmSysfs} {interpreter : Interpreter} {instr : Instr} {input : StepInput}

end Single

section Stopped

variable {stopped : NcmSysfs} (reachable : Reachable long stopped) {env env' : NetEnv}

include reachable

end Stopped

end NetworkCode.Kernel
