import NetworkCode.Kernel.Fault

/-!
# The future queue

A ring of `MAX_FUTURES` slots with 8-bit indices.  Every push sorts the live
window in place by expiry, so the next future to occur is the first slot.
-/

namespace NetworkCode.Kernel

open Library.Checked

/-- `MAX_FUTURES` -/
def maxFutures : Nat := 10

/-- `ncm_future_queue_el_t` -/
structure FutureQueueEl where
  jmpAddress : UInt32
  waitTime : UInt32
  expiry : UInt64
  deriving DecidableEq, Repr

/-- `ncm_future_queue_t`, over the capacity `MAX_FUTURES` -/
structure FutureQueue (capacity : Nat) where
  first : UInt8
  length : UInt8
  slots : Vector FutureQueueEl capacity
  deriving DecidableEq

/-- The results of `push_future` and `pop_future`. -/
inductive FutureQStatus where
  | ok
  | full
  | empty
  deriving DecidableEq, Repr

variable {capacity : Nat}

/-- Only the indices are set; the slots keep what they held. -/
def initFutureQueue (queue : FutureQueue capacity) : FutureQueue capacity :=
  { queue with first := 0, length := 0 }

/-- The body of the inner loop of `sort_future_queue`. -/
def compareSwap (queue : FutureQueue capacity) (j : Nat) : Exec (FutureQueue capacity) := do
  let jx := (queue.first.toNat + j) % capacity
  let jxp := (queue.first.toNat + j + 1) % capacity
  let left ← load (.outOfBounds .futures) queue.slots jx
  let right ← load (.outOfBounds .futures) queue.slots jxp
  if left.expiry > right.expiry then
    let slots ← store (.outOfBounds .futures) queue.slots jxp left
    let slots ← store (.outOfBounds .futures) slots jx right
    return { queue with slots := slots }
  else
    return queue

/-- The inner loop of `sort_future_queue`. -/
def sortPass (count : Nat) (queue : FutureQueue capacity) : Exec (FutureQueue capacity) :=
  (List.range count).foldlM compareSwap queue

-- `length` is promoted to `int`, so an empty queue gives an empty loop
def sortFutureQueue (queue : FutureQueue capacity) : Exec (FutureQueue capacity) :=
  (List.range (queue.length.toNat - 1)).foldlM
    (fun current i => sortPass (queue.length.toNat - i - 1) current) queue

/-- `push_future`, with the reading that `now_us` returns in it. -/
def pushFuture (queue : FutureQueue capacity) (jmp : UInt32) (waitUs nowUs : UInt64) :
    Exec (FutureQStatus × FutureQueue capacity) := do
  if queue.length.toNat = capacity then
    return (.full, queue)
  let index := (queue.first.toNat + queue.length.toNat) % capacity
  let slots ← store (.outOfBounds .futures) queue.slots index
    ⟨jmp, waitUs.toUInt32, nowUs + waitUs⟩
  let sorted ← sortFutureQueue { queue with slots := slots, length := queue.length + 1 }
  return (.ok, sorted)

/-- `pop_future`; the element is written only when the status is ok. -/
def popFuture (queue : FutureQueue capacity) :
    Exec (FutureQStatus × Option FutureQueueEl × FutureQueue capacity) := do
  if queue.length = 0 then
    return (.empty, none, queue)
  let head ← load (.outOfBounds .futures) queue.slots queue.first.toNat
  return (.ok, some head,
    { queue with
      first := UInt8.ofNat ((queue.first.toNat + 1) % capacity)
      length := queue.length - 1 })

end NetworkCode.Kernel
