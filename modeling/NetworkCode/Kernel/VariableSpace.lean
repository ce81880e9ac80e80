import NetworkCode.Kernel.Fault
import NetworkCode.Library.Bytes

/-!
# The variable space and the counters

Each variable is a double buffer: readers follow `read_buf`, a writer fills
`write_buf` and then exchanges the two pointers.  Calls are modelled one at a
time here.
-/

namespace NetworkCode.Kernel

open Library Library.Checked

/-- `MAX_VARIABLES` -/
def maxVariables : Nat := 10

/-- `MAX_VAR_SIZE_BYTES` -/
def maxVarSizeBytes : Nat := 1500

/-- `vardata_t`; a longer length could only come from a copy past the buffer. -/
structure VarData where
  data : List UInt8
  length : Nat
  data_length : data.length = maxVarSizeBytes
  length_le : length ≤ maxVarSizeBytes
  deriving DecidableEq

namespace VarData

/-- The bytes stored. -/
def value (buffer : VarData) : List UInt8 :=
  buffer.data.take buffer.length

@[simp] theorem value_length (buffer : VarData) : buffer.value.length = buffer.length := by
  simp [value, buffer.data_length, buffer.length_le]

/-- `memcpy` of the whole source to the front of the data, and its length. -/
def write (buffer : VarData) (bytes : List UInt8) (fits : bytes.length ≤ maxVarSizeBytes) :
    VarData where
  data := Bytes.overwrite buffer.data 0 bytes
  length := bytes.length
  data_length := by
    rw [Bytes.overwrite_length] <;> simp [buffer.data_length, fits]
  length_le := fits

@[simp] theorem value_write (buffer : VarData) (bytes : List UInt8)
    (fits : bytes.length ≤ maxVarSizeBytes) : (buffer.write bytes fits).value = bytes :=
  Bytes.take_overwrite_zero _ _

/-- `memcpy` to the front of the data, before the length is stored. -/
def fill (buffer : VarData) (bytes : List UInt8) (fits : bytes.length ≤ maxVarSizeBytes) :
    VarData :=
  { buffer with
    data := (buffer.write bytes fits).data
    data_length := (buffer.write bytes fits).data_length }

/-- Store the length. -/
def resize (buffer : VarData) (length : Nat) (fits : length ≤ maxVarSizeBytes) : VarData :=
  { buffer with length := length, length_le := fits }

@[simp] theorem length_fill (buffer : VarData) (bytes : List UInt8)
    (fits : bytes.length ≤ maxVarSizeBytes) : (buffer.fill bytes fits).length = buffer.length :=
  rfl

@[simp] theorem data_resize (buffer : VarData) (length : Nat) (fits : length ≤ maxVarSizeBytes) :
    (buffer.resize length fits).data = buffer.data :=
  rfl

@[simp] theorem value_resize (buffer : VarData) (length : Nat)
    (fits : length ≤ maxVarSizeBytes) :
    (buffer.resize length fits).value = buffer.data.take length :=
  rfl

theorem take_fill (buffer : VarData) (bytes : List UInt8)
    (fits : bytes.length ≤ maxVarSizeBytes) :
    (buffer.fill bytes fits).data.take bytes.length = bytes :=
  Bytes.take_overwrite_zero _ _

end VarData

/-- `variable_t`, with the two pointers as indices into its own `varbuf` -/
structure Variable where
  varbuf : Vector VarData 2
  readBuf : Fin 2
  writeBuf : Fin 2
  deriving DecidableEq

/-- `ncm_varspace_t` -/
abbrev Varspace := Vector Variable maxVariables

/-- The variable's current value. -/
def Variable.value (var : Variable) : List UInt8 :=
  var.varbuf[var.readBuf].value

/-- The buffer behind one of the pointers. -/
def Variable.buffer (var : Variable) (index : Fin 2) : VarData := var.varbuf[index]

def Variable.setBuffer (var : Variable) (index : Fin 2) (buffer : VarData) : Variable :=
  { var with varbuf := var.varbuf.set index buffer }

section Buffers

variable {var : Variable} {index other : Fin 2} {buffer : VarData}

@[simp] theorem Variable.buffer_setBuffer_self :
    (var.setBuffer index buffer).buffer index = buffer := by
  simp [Variable.buffer, Variable.setBuffer]

@[simp] theorem Variable.readBuf_setBuffer :
    (var.setBuffer index buffer).readBuf = var.readBuf := rfl

@[simp] theorem Variable.writeBuf_setBuffer :
    (var.setBuffer index buffer).writeBuf = var.writeBuf := rfl

theorem Variable.buffer_setBuffer_of_ne (distinct : other ≠ index) :
    (var.setBuffer index buffer).buffer other = var.buffer other := by
  have apart : index.val ≠ other.val := fun same => distinct (Fin.ext same.symm)
  simp [Variable.buffer, Variable.setBuffer, Vector.getElem_set_ne, apart]

end Buffers

theorem Variable.value_eq (var : Variable) : var.value = (var.buffer var.readBuf).value := rfl

/-- Writing to the other buffer does not change the value. -/
theorem Variable.value_setBuffer_of_ne {var : Variable} {index : Fin 2} {buffer : VarData}
    (distinct : var.readBuf ≠ index) : (var.setBuffer index buffer).value = var.value := by
  rw [Variable.value_eq, Variable.value_eq, Variable.readBuf_setBuffer,
    Variable.buffer_setBuffer_of_ne distinct]

theorem Variable.value_length_le (var : Variable) : var.value.length ≤ maxVarSizeBytes := by
  rw [Variable.value, VarData.value_length]
  exact var.varbuf[var.readBuf].length_le

/-- Zeroed memory. -/
def zeroVarData : VarData where
  data := List.replicate maxVarSizeBytes 0
  length := 0
  data_length := List.length_replicate
  length_le := Nat.zero_le _

def zeroVariable : Variable := ⟨Vector.replicate 2 zeroVarData, 0, 0⟩

/-- The body of the loop of `init_variable_space`. -/
def Variable.init (var : Variable) : Variable where
  varbuf := var.varbuf.map fun buffer => { buffer with length := 0, length_le := Nat.zero_le _ }
  readBuf := 0
  writeBuf := 1

theorem Variable.init_apart (var : Variable) : var.init.readBuf ≠ var.init.writeBuf :=
  Fin.zero_ne_one

@[simp] theorem Variable.init_value (var : Variable) : var.init.value = [] := by
  simp [Variable.value, Variable.init, VarData.value]

@[simp] theorem Variable.buffer_init (index : Fin 2) :
    zeroVariable.init.buffer index = zeroVarData := by
  simp [Variable.buffer, Variable.init, zeroVariable, zeroVarData]

def initVariableSpace (varspace : Varspace) : Varspace :=
  varspace.map Variable.init

/-- The bytes copied to `out_data`; their number is `*out_length`. -/
def getVariableData (varspace : Varspace) (varId : Nat) : Exec (List UInt8) := do
  let var ← load (.outOfBounds .variables) varspace varId
  return var.value

theorem getVariableData_of_lt {varspace : Varspace} {varId : Nat} (exist : varId < maxVariables) :
    getVariableData varspace varId = .ok varspace[varId].value := by
  rw [getVariableData, load_of_lt exist]
  rfl

theorem getVariableData_length_le {varspace : Varspace} {varId : Nat} {value : List UInt8}
    (copied : getVariableData varspace varId = .ok value) : value.length ≤ maxVarSizeBytes := by
  obtain ⟨var, _, finish⟩ := bind_eq_ok.mp copied
  cases finish
  exact var.value_length_le

/-- Copy the first `length` bytes of `data` and publish them. -/
def Variable.set (var : Variable) (data : List UInt8) (length : Nat) : Exec Variable :=
  if h : length ≤ data.length ∧ length ≤ maxVarSizeBytes then
    .ok {
      varbuf := var.varbuf.set var.writeBuf
        (var.varbuf[var.writeBuf].write (data.take length) (by simp; omega))
      readBuf := var.writeBuf
      writeBuf := var.readBuf }
  else
    .error (.copyTooLong length)

def setVariableData (varspace : Varspace) (varId : Nat) (data : List UInt8) (length : Nat) :
    Exec Varspace := do
  let var ← load (.outOfBounds .variables) varspace varId
  let var ← var.set data length
  store (.outOfBounds .variables) varspace varId var

theorem Variable.set_eq_ok {var after : Variable} {data : List UInt8} {length : Nat}
    (written : var.set data length = .ok after) : after.value = data.take length := by
  unfold Variable.set at written
  split at written
  · cases written
    simp [Variable.value]
  · cases written

/-- The back buffer filled with bytes and their number. -/
def Variable.prepare (var : Variable) (bytes : List UInt8)
    (fits : bytes.length ≤ maxVarSizeBytes) : Variable :=
  let filled := var.setBuffer var.writeBuf ((var.buffer var.writeBuf).fill bytes fits)
  filled.setBuffer var.writeBuf ((filled.buffer var.writeBuf).resize bytes.length fits)

section Prepare

variable {var : Variable} {bytes : List UInt8} {fits : bytes.length ≤ maxVarSizeBytes}

theorem Variable.value_buffer_prepare :
    ((var.prepare bytes fits).buffer var.writeBuf).value = bytes := by
  unfold Variable.prepare
  rw [Variable.buffer_setBuffer_self, VarData.value_resize, Variable.buffer_setBuffer_self,
    VarData.take_fill]

theorem Variable.buffer_prepare_of_ne {index : Fin 2} (distinct : index ≠ var.writeBuf) :
    (var.prepare bytes fits).buffer index = var.buffer index := by
  unfold Variable.prepare
  rw [Variable.buffer_setBuffer_of_ne distinct, Variable.buffer_setBuffer_of_ne distinct]

/-- A write prepares the back buffer and exchanges the pointers. -/
theorem Variable.set_eq (fits : bytes.length ≤ maxVarSizeBytes) :
    var.set bytes bytes.length = .ok { var.prepare bytes fits with
      readBuf := var.writeBuf
      writeBuf := var.readBuf } := by
  unfold Variable.set Variable.prepare
  rw [dif_pos ⟨Nat.le_refl _, fits⟩]
  dsimp only
  rw [Variable.buffer_setBuffer_self]
  simp only [Variable.setBuffer, Vector.set_set, List.take_length]
  rfl

end Prepare

/-- A write that fits is defined. -/
theorem setVariableData_defined (varspace : Varspace) {varId length : Nat} {data : List UInt8}
    (exist : varId < maxVariables) (inside : length ≤ data.length)
    (fits : length ≤ maxVarSizeBytes) :
    ∃ after, setVariableData varspace varId data length = .ok after := by
  unfold setVariableData Variable.set
  rw [load_of_lt exist, ok_bind, dif_pos ⟨inside, fits⟩, ok_bind, store_of_lt exist]
  exact ⟨_, rfl⟩

/-- What a write leaves in the variable, which exists and holds it whole. -/
theorem setVariableData_eq_ok {varspace after : Varspace} {varId length : Nat}
    {data : List UInt8} (written : setVariableData varspace varId data length = .ok after) :
    ∃ exist : varId < maxVariables, after[varId].value = data.take length ∧
      length ≤ data.length ∧ length ≤ maxVarSizeBytes := by
  obtain ⟨var, loaded, written⟩ := bind_eq_ok.mp written
  obtain ⟨var', hset, stored⟩ := bind_eq_ok.mp written
  obtain ⟨exist, rfl⟩ := store_eq_ok.mp stored
  refine ⟨exist, ?_, ?_⟩
  · rw [Vector.getElem_set_self]
    exact Variable.set_eq_ok hset
  · unfold Variable.set at hset
    split at hset
    · assumption
    · cases hset

/-! ## Comparing and testing variables -/

/-- The difference of the first bytes that differ. -/
def memcmp : List UInt8 → List UInt8 → Int
  | left :: lefts, right :: rights =>
      if left = right then memcmp lefts rights else (left.toNat : Int) - right.toNat
  | _, _ => 0

/-- The comparison of two values that `cmp_variables` carries out. -/
def cmpValues (left right : List UInt8) : Int :=
  if left.length > right.length then
    match (left.take (left.length - right.length)).find? (· ≠ 0) with
    | some byte => byte.toNat
    | none => memcmp (left.drop (left.length - right.length)) right
  else if left.length < right.length then
    match (right.take (right.length - left.length)).find? (· ≠ 0) with
    | some byte => -(byte.toNat : Int)
    | none => memcmp left (right.drop (right.length - left.length))
  else
    memcmp left right

def cmpVariables (varspace : Varspace) (varId1 varId2 : Nat) : Exec Int := do
  let left ← load (.outOfBounds .variables) varspace varId1
  let right ← load (.outOfBounds .variables) varspace varId2
  return cmpValues left.value right.value

def getParity (byte : UInt8) : UInt8 :=
  (List.range 8).foldl (fun acc i => acc + ((byte >>> UInt8.ofNat i) &&& 1)) 0 &&& 1

/-- The `parity` that both parity handlers accumulate. -/
def parityOf (value : List UInt8) : UInt32 :=
  value.foldl (fun parity byte => parity + (getParity byte).toUInt32) 0

def handleTestVarIsZero (value : List UInt8) : Bool :=
  !value.any (· ≠ 0)

def handleTestVarIsNonzero (value : List UInt8) : Bool :=
  value.any (· ≠ 0)

def handleTestVarEvenParity (value : List UInt8) : Bool :=
  parityOf value &&& 1 = 0

def handleTestVarOddParity (value : List UInt8) : Bool :=
  parityOf value &&& 1 ≠ 0

/-- The condition masks of `test_variable`. -/
inductive VarTest where
  | isZero
  | isNonzero
  | evenParity
  | oddParity
  deriving DecidableEq, Repr

def VarTest.code : VarTest → UInt32
  | .isZero => 0
  | .isNonzero => 1
  | .evenParity => 2
  | .oddParity => 3

def VarTest.ofCode? (code : UInt32) : Option VarTest :=
  match code.toNat with
  | 0 => some .isZero
  | 1 => some .isNonzero
  | 2 => some .evenParity
  | 3 => some .oddParity
  | _ => none

def VarTest.handle : VarTest → List UInt8 → Bool
  | .isZero => handleTestVarIsZero
  | .isNonzero => handleTestVarIsNonzero
  | .evenParity => handleTestVarEvenParity
  | .oddParity => handleTestVarOddParity

def testVariable (varspace : Varspace) (varId : Nat) (conditionMask : UInt32) : Exec Bool :=
  match VarTest.ofCode? conditionMask with
  | some test => do
      let var ← load (.outOfBounds .variables) varspace varId
      return test.handle var.value
  | none => return false

/-! ## Counters -/

/-- `MAX_COUNTERS` -/
def maxCounters : Nat := 10

/-- `ncm_counter_array_t` -/
abbrev CounterArray := Vector UInt32 maxCounters

/-- Replace one counter by a function of its value. -/
def updateCounter (counters : CounterArray) (counterId : Nat) (f : UInt32 → UInt32) :
    Exec CounterArray := do
  let value ← load (.outOfBounds .counters) counters counterId
  store (.outOfBounds .counters) counters counterId (f value)

def resetCounter (counters : CounterArray) (counterId : Nat) : Exec CounterArray :=
  updateCounter counters counterId fun _ => 0

def setCounter (counters : CounterArray) (counterId : Nat) (value : UInt32) :
    Exec CounterArray :=
  updateCounter counters counterId fun _ => value

def addToCounter (counters : CounterArray) (counterId : Nat) (amount : UInt32) :
    Exec CounterArray :=
  updateCounter counters counterId fun value => value + amount

def subFromCounter (counters : CounterArray) (counterId : Nat) (amount : UInt32) :
    Exec CounterArray :=
  updateCounter counters counterId fun value => value - amount

end NetworkCode.Kernel
