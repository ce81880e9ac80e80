import NetworkCode.Library.BigEndian
import NetworkCode.Translator.UnknownWords
import NetworkCode.Visualizer.Records

/-!
# The translated stream

`translator_main.cpp` reads four bytes at a time and writes one record for
each word.  On a little-endian machine the swapped word is the big-endian value
of its bytes, so record `i` is what hardware word `i` translates to, wherever
it is read.
-/

namespace NetworkCode.Translator

open Kernel Library Library.Bits Library.StructLayout Visualizer

/-- What the memory of an `ncm_instr_t` holds before it is written: a type byte
and the padding. -/
structure Uninitialized where
  type : UInt8
  filler : Nat → UInt8

def swapEndian (val : UInt32) : UInt32 :=
  (val <<< 24) ||| ((val <<< 8) &&& (0x00ff0000 : UInt32)) |||
    ((val >>> 8) &&& (0x0000ff00 : UInt32)) ||| (val >>> 24)

/-- The bytes that `fwrite` copies. -/
def recordBytes (filler : Nat → UInt8) (outInstr : Instr) : List UInt8 :=
  layout filler 0 (members outInstr)

/-- `main`, with what the memory of the record holds at each turn of the loop. -/
def translatorMain (memory : Nat → Uninitialized) : List UInt8 → List UInt8
  | byte0 :: byte1 :: byte2 :: byte3 :: rest =>
      let inBytecode := swapEndian (Bytes.word [byte0, byte1, byte2, byte3] 0)
      let outInstr := getInstruction (memory 0).type inBytecode
      recordBytes (memory 0).filler outInstr ++ translatorMain (fun turn => memory (turn + 1)) rest
  | _ => []

/-! ## The swapped word -/

/-- Masking one byte of a word. -/
theorem and_byteMask (value low : Nat) :
    value &&& (255 * 2 ^ low) = value / 2 ^ low % 256 * 2 ^ low := by
  apply Nat.eq_of_testBit_eq
  intro position
  have mask : 255 = 2 ^ 8 - 1 := rfl
  have width : 256 = 2 ^ 8 := rfl
  rw [Nat.testBit_and, mask, width]
  simp only [← Nat.shiftLeft_eq, Nat.testBit_shiftLeft, Nat.testBit_two_pow_sub_one,
    Nat.testBit_mod_two_pow, Nat.testBit_div_two_pow]
  by_cases above : low ≤ position
  · simp [above, Bool.and_comm]
  · simp [above]

theorem byte_between {front width byte back : Nat} (small : front < 2 ^ width)
    (isByte : byte < 256) : (front + 2 ^ width * (byte + 256 * back)) / 2 ^ width % 256 = byte := by
  rw [Nat.add_mul_div_left _ _ (Nat.two_pow_pos width), Nat.div_eq_of_lt small, Nat.zero_add,
    Nat.add_mul_mod_self_left, Nat.mod_eq_of_lt isByte]

theorem toNat_word (byte0 byte1 byte2 byte3 : UInt8) :
    (Bytes.word [byte0, byte1, byte2, byte3] 0).toNat =
      byte0.toNat + 2 ^ 8 * byte1.toNat + 2 ^ 16 * byte2.toNat + 2 ^ 24 * byte3.toNat := by
  have bound0 := byte0.toNat_lt
  have bound1 := byte1.toNat_lt
  have bound2 := byte2.toNat_lt
  have bound3 := byte3.toNat_lt
  simp only [Bytes.word, UInt32.toNat_ofNat', List.getD_cons_zero, List.getD_cons_succ,
    Nat.zero_add]
  omega

theorem value_word (byte0 byte1 byte2 byte3 : UInt8) :
    BigEndian.value [byte0, byte1, byte2, byte3] =
      2 ^ 24 * byte0.toNat + (2 ^ 16 * byte1.toNat + (2 ^ 8 * byte2.toNat + byte3.toNat)) := by
  simp only [BigEndian.value_cons, BigEndian.value_nil, List.length_cons, List.length_nil]
  omega

/-- The four bytes of a word change places. -/
theorem toNat_swapEndian {val : UInt32} {byte0 byte1 byte2 byte3 : Nat} (bound0 : byte0 < 256)
    (bound1 : byte1 < 256) (bound2 : byte2 < 256) (bound3 : byte3 < 256)
    (bytes : val.toNat = byte0 + 2 ^ 8 * byte1 + 2 ^ 16 * byte2 + 2 ^ 24 * byte3) :
    (swapEndian val).toNat = 2 ^ 24 * byte0 + (2 ^ 16 * byte1 + (2 ^ 8 * byte2 + byte3)) := by
  have by8 : (8 : UInt32).toNat % 32 = 8 := rfl
  have by24 : (24 : UInt32).toNat % 32 = 24 := rfl
  have first : (val <<< 24).toNat = 2 ^ 24 * byte0 := by
    have shifted := UInt32.toNat_shiftLeft val 24
    rw [shifted, by24, Nat.shiftLeft_eq, bytes]
    omega
  have second : ((val <<< 8) &&& 0x00ff0000).toNat = 2 ^ 16 * byte1 := by
    have mask : (0x00ff0000 : UInt32).toNat = 255 * 2 ^ 16 := rfl
    have moved : (byte0 + 2 ^ 8 * byte1 + 2 ^ 16 * byte2 + 2 ^ 24 * byte3) * 2 ^ 8 % 2 ^ 32 =
        2 ^ 8 * byte0 + 2 ^ 16 * (byte1 + 256 * byte2) := by omega
    rw [UInt32.toNat_and, mask, and_byteMask, UInt32.toNat_shiftLeft, by8, Nat.shiftLeft_eq, bytes,
      moved, byte_between (by omega) bound1, Nat.mul_comm]
  have third : ((val >>> 8) &&& 0x0000ff00).toNat = 2 ^ 8 * byte2 := by
    have mask : (0x0000ff00 : UInt32).toNat = 255 * 2 ^ 8 := rfl
    have moved : (byte0 + 2 ^ 8 * byte1 + 2 ^ 16 * byte2 + 2 ^ 24 * byte3) / 2 ^ 8 =
        byte1 + 2 ^ 8 * (byte2 + 256 * byte3) := by omega
    rw [UInt32.toNat_and, mask, and_byteMask, UInt32.toNat_shiftRight, by8,
      Nat.shiftRight_eq_div_pow, bytes, moved, byte_between bound1 bound2, Nat.mul_comm]
  have fourth : (val >>> 24).toNat = byte3 := by
    rw [UInt32.toNat_shiftRight, by24, Nat.shiftRight_eq_div_pow, bytes]
    omega
  have below24 : 2 ^ 16 * byte1 + (2 ^ 8 * byte2 + byte3) < 2 ^ 24 := by omega
  have below16 : 2 ^ 8 * byte2 + byte3 < 2 ^ 16 := by omega
  have below8 : byte3 < 2 ^ 8 := bound3
  rw [swapEndian, UInt32.toNat_or, UInt32.toNat_or, UInt32.toNat_or, first, second, third, fourth,
    Nat.or_assoc, Nat.or_assoc, ← Nat.two_pow_add_eq_or_of_lt below8,
    ← Nat.two_pow_add_eq_or_of_lt below16, ← Nat.two_pow_add_eq_or_of_lt below24]

/-- The swapped word is the big-endian value of its bytes. -/
theorem swapEndian_word (byte0 byte1 byte2 byte3 : UInt8) :
    swapEndian (Bytes.word [byte0, byte1, byte2, byte3] 0) =
      UInt32.ofNat (BigEndian.value [byte0, byte1, byte2, byte3]) := by
  have small : BigEndian.value [byte0, byte1, byte2, byte3] < 2 ^ 32 :=
    Nat.lt_of_lt_of_eq (BigEndian.value_lt _) (by simp)
  apply UInt32.toNat_inj.mp
  rw [UInt32.toNat_ofNat', Nat.mod_eq_of_lt small, value_word]
  exact toNat_swapEndian byte0.toNat_lt byte1.toNat_lt byte2.toNat_lt byte3.toNat_lt
    (toNat_word byte0 byte1 byte2 byte3)

/-! ## One record -/

@[simp] theorem length_recordBytes (filler : Nat → UInt8) (outInstr : Instr) :
    (recordBytes filler outInstr).length = Instr.size := by
  have fields : (members outInstr).map Value.field = recordFormat := rfl
  rw [recordBytes, length_layout, fields]
  decide

/-- The module reads the instruction that was written, whatever the padding holds. -/
theorem ofBytes_recordBytes (filler : Nat → UInt8) (outInstr : Instr) :
    Instr.ofBytes (recordBytes filler outInstr) = outInstr := by
  have written : unpackFrom (recordBytes filler outInstr) 0 recordFormat =
      some (members outInstr) := by
    have whole := unpackFrom_layout filler (members outInstr) [] []
    rwa [List.nil_append, List.append_nil] at whole
  have read := unpackFrom_record (Nat.le_of_eq (length_recordBytes filler outInstr).symm)
  exact members_injective (Option.some_injective _ (read.symm.trans written))

section Listed

variable {word : UInt32}

/-- A listed word has an opcode of the interpreter, whatever the record held before. -/
theorem getInstruction_listed (listed : UnlistedOpcode word = false) :
    ∃ opcode, (getInstruction 0 word).opcode? = some opcode ∧
      ∀ stale, getInstruction stale word = getInstruction 0 word := by
  unfold UnlistedOpcode at listed
  unfold getInstruction
  rw [shift_type]
  dsimp only
  generalize HwOpcode.ofCode? (field word 28 4) = opcode at listed
  cases opcode with
  | none => cases listed
  | some opcode =>
      cases opcode with
      | count =>
          simp only [packCount_eq]
          cases counterChange word with
          | keep | clear | increment | decrement => exact ⟨_, rfl, fun _ => trivial⟩
      | future | halt | «if» | create | send | receive | nop | sync =>
          exact ⟨_, rfl, fun _ => rfl⟩

theorem getInstruction_stale (listed : UnlistedOpcode word = false) (stale other : UInt8) :
    getInstruction stale word = getInstruction other word := by
  obtain ⟨_, _, same⟩ := getInstruction_listed listed
  rw [same stale, same other]

theorem getInstruction_opcode (listed : UnlistedOpcode word = false) (stale : UInt8) :
    ∃ opcode, (getInstruction stale word).opcode? = some opcode := by
  obtain ⟨opcode, decoded, same⟩ := getInstruction_listed listed
  rw [same stale]
  exact ⟨opcode, decoded⟩

/-- The guard fields leave the jump alone. -/
theorem packGuardArgs_jump (type : UInt8) (guardMask : UInt32) (outArgs : Args) :
    (Instr.mk type (packGuardArgs guardMask outArgs)).arg1 = (Instr.mk type outArgs).arg1 := by
  unfold packGuardArgs Instr.arg1
  dsimp only
  generalize HwGuard.ofCode? (guardMask >>> 16) = guard
  cases guard with
  | none => rfl
  | some guard =>
      cases guard with
      | bufEmpty =>
          dsimp only
          split
          · simp [Args.set0]
          · simp [Args.set0, Args.set2]
      | testVar =>
          dsimp only
          split
          · simp [Args.set0, Args.set2, Args.set3]
          · split
            · simp [Args.set0, Args.set2, Args.set3]
            · split
              · simp [Args.set0, Args.set2, Args.set3]
              · split
                · simp [Args.set0, Args.set2, Args.set3]
                · simp [Args.set0, Args.set2]
      | alwaysTrue | alwaysFalse => simp [Args.set0]
      | testCount | statusTest | varQueueEmpty | varQueueFull => simp [Args.set0, Args.set2]
      | equalVarVar | greaterVarVar | lessVarVar => simp [Args.set0, Args.set2, Args.set3]

/-- A word with a jump address, a FUTURE or an IF. -/
def HasJump (word : UInt32) : Prop :=
  HwOpcode.ofCode? (field word 28 4) = some .future ∨
    HwOpcode.ofCode? (field word 28 4) = some .if

theorem getInstruction_jump (jumps : HasJump word) (stale : UInt8) :
    (getInstruction stale word).arg1 = field word 20 8 := by
  unfold getInstruction
  rw [shift_type]
  dsimp only
  rcases jumps with future | branch
  · rw [future]
    simp [packFuture, Instr.arg1, Args.set0, Args.set1, shift20_and_mask8]
  · rw [branch]
    rw [packIf, packGuardArgs_jump]
    simp [Instr.arg1, Args.set1, shift20_and_mask8]

end Listed

/-! ## The whole stream -/

/-- The number of whole words in a stream. -/
def wordCount (input : List UInt8) : Nat := input.length / 4

/-- Hardware word `i` of a stream. -/
def hardwareWord (input : List UInt8) (i : Nat) : UInt32 :=
  UInt32.ofNat (BigEndian.value (Bytes.slice input (4 * i) 4))

theorem wordCount_cons (byte0 byte1 byte2 byte3 : UInt8) (rest : List UInt8) :
    wordCount (byte0 :: byte1 :: byte2 :: byte3 :: rest) = wordCount rest + 1 := by
  simp only [wordCount, List.length_cons]
  omega

/-- A tail that fills no word. -/
theorem wordCount_short {input : List UInt8}
    (short : ∀ byte0 byte1 byte2 byte3 rest,
      input = byte0 :: byte1 :: byte2 :: byte3 :: rest → False) : wordCount input = 0 := by
  rcases input with _ | ⟨byte0, _ | ⟨byte1, _ | ⟨byte2, _ | ⟨byte3, rest⟩⟩⟩⟩
  · rfl
  · simp [wordCount]
  · simp [wordCount]
  · simp [wordCount]
  · exact (short byte0 byte1 byte2 byte3 rest rfl).elim

theorem length_translatorMain (memory : Nat → Uninitialized) (input : List UInt8) :
    (translatorMain memory input).length = Instr.size * wordCount input := by
  fun_induction translatorMain memory input with
  | case1 memory byte0 byte1 byte2 byte3 rest inBytecode outInstr ih =>
      rw [List.length_append, length_recordBytes, ih, wordCount_cons, Nat.mul_succ, Nat.add_comm]
  | case2 memory input short => rw [wordCount_short short, Nat.mul_zero, List.length_nil]

/-- Record `i` holds what word `i` translates to. -/
theorem slice_translatorMain (memory : Nat → Uninitialized) (input : List UInt8) {i : Nat}
    (inside : i < wordCount input) :
    Bytes.slice (translatorMain memory input) (Instr.size * i) Instr.size =
      recordBytes (memory i).filler (getInstruction (memory i).type (hardwareWord input i)) := by
  fun_induction translatorMain memory input generalizing i with
  | case1 memory byte0 byte1 byte2 byte3 rest inBytecode outInstr =>
      rename_i ih
      cases i with
      | zero =>
          have swapped : inBytecode = hardwareWord (byte0 :: byte1 :: byte2 :: byte3 :: rest) 0 :=
            swapEndian_word byte0 byte1 byte2 byte3
          rw [Nat.mul_zero, Bytes.slice, List.drop_zero, ← swapped]
          exact List.take_left' (length_recordBytes _ _)
      | succ i =>
          rw [wordCount_cons] at inside
          have skip : Instr.size * (i + 1) =
              (recordBytes (memory 0).filler outInstr).length + Instr.size * i := by
            rw [length_recordBytes, Nat.mul_succ, Nat.add_comm]
          have same : hardwareWord (byte0 :: byte1 :: byte2 :: byte3 :: rest) (i + 1) =
              hardwareWord rest i := rfl
          rw [Bytes.slice, skip, ← List.drop_drop, List.drop_left, same]
          exact ih (Nat.lt_of_succ_lt_succ inside)
  | case2 memory input short => rw [wordCount_short short] at inside; cases inside

/-- What the reader of `parse.py` makes of a stream of whole records. -/
theorem readInstrs_of_records {file : List UInt8} {count : Nat}
    (whole : file.length = Instr.size * count) (entry : Nat → ParsedInstr)
    (records : ∀ i < count,
      parsedOf (Instr.ofBytes (Bytes.slice file (Instr.size * i) Instr.size)) = .ok (entry i)) :
    readInstrs file = .ok ((List.range count).map entry) := by
  induction count generalizing file entry with
  | zero =>
      have ended : file = [] := List.length_eq_zero_iff.mp whole
      rw [readInstrs, if_pos ended]
      rfl
  | succ count ih =>
      have nonempty : file ≠ [] := by
        rintro rfl
        cases whole
      have first : parseRecord (file.take Instr.size) = .ok (entry 0) := by
        have long : Instr.size ≤ (file.take Instr.size).length := by
          rw [List.length_take, whole, Nat.mul_succ]
          omega
        rw [parseRecord_of_whole long]
        exact records 0 (Nat.succ_pos count)
      have rest : readInstrs (file.drop Instr.size) =
          .ok ((List.range count).map fun i => entry (i + 1)) := by
        apply ih
        · rw [List.length_drop, whole, Nat.mul_succ, Nat.add_sub_cancel]
        · intro i inside
          rw [Bytes.slice, List.drop_drop, Nat.add_comm, ← Nat.mul_succ]
          exact records (i + 1) (Nat.succ_lt_succ inside)
      rw [readInstrs, if_neg nonempty, first, rest, List.range_succ_eq_map, List.map_cons,
        List.map_map]
      rfl

section Result

variable (memory : Nat → Uninitialized) (input : List UInt8)

/-- The instruction that word `i` is translated to. -/
def translated (i : Nat) : Instr := getInstruction (memory i).type (hardwareWord input i)

/-- What the written stream is to its readers. -/
structure KeepsAddresses : Prop where
  length : (translatorMain memory input).length = Instr.size * wordCount input
  /-- Instruction `i` of a program with these bytes. -/
  fetch : ∀ i < wordCount input,
    (CodeBlock.mk (translatorMain memory input)).fetch i = .ok (translated memory input i)
  /-- The items that `parse.py` unpacks. -/
  unpack : ∀ i < wordCount input,
    unpackFrom (Bytes.slice (translatorMain memory input) (Instr.size * i) Instr.size) 0
      recordFormat = some (members (translated memory input i))
  /-- A known opcode leaves nothing to the memory of the record. -/
  settled : ∀ i, UnlistedOpcode (hardwareWord input i) = false → ∀ stale,
    translated memory input i = getInstruction stale (hardwareWord input i)
  /-- `parse.py` reads all of it. -/
  entries : (∀ i < wordCount input, UnlistedOpcode (hardwareWord input i) = false) →
    ∃ entry : Nat → ParsedInstr,
      readInstrs (translatorMain memory input) = .ok ((List.range (wordCount input)).map entry) ∧
        ∀ i < wordCount input, parsedOf (translated memory input i) = .ok (entry i)
  /-- A jump to hardware word `target` is a jump to its instruction. -/
  jump : ∀ i < wordCount input, ∀ target < wordCount input, HasJump (hardwareWord input i) →
    (field (hardwareWord input i) 20 8).toNat = target →
      (CodeBlock.mk (translatorMain memory input)).fetch (translated memory input i).arg1.toNat =
        .ok (translated memory input target)

theorem ofBytes_translatorMain {i : Nat} (inside : i < wordCount input) :
    Instr.ofBytes (Bytes.slice (translatorMain memory input) (Instr.size * i) Instr.size) =
      translated memory input i := by
  rw [slice_translatorMain memory input inside, ofBytes_recordBytes]
  rfl

theorem fetch_translatorMain {i : Nat} (inside : i < wordCount input) :
    (CodeBlock.mk (translatorMain memory input)).fetch i = .ok (translated memory input i) := by
  have records : (CodeBlock.mk (translatorMain memory input)).records = wordCount input := by
    rw [CodeBlock.records, length_translatorMain]
    exact Nat.mul_div_cancel_left _ (by decide)
  rw [CodeBlock.fetch_of_lt (records ▸ inside), ofBytes_translatorMain memory input inside]

theorem parsedOf_translated {i : Nat} (listed : UnlistedOpcode (hardwareWord input i) = false) :
    ∃ entry, parsedOf (translated memory input i) = .ok entry := by
  obtain ⟨opcode, decoded⟩ := getInstruction_opcode listed (memory i).type
  exact ⟨_, by rw [parsedOf, translated, decoded]⟩

/-- `parse.py` reads a stream of known opcodes entry by entry. -/
theorem readInstrs_translatorMain
    (listed : ∀ i < wordCount input, UnlistedOpcode (hardwareWord input i) = false) :
    ∃ entry : Nat → ParsedInstr,
      readInstrs (translatorMain memory input) = .ok ((List.range (wordCount input)).map entry) ∧
        ∀ i < wordCount input, parsedOf (translated memory input i) = .ok (entry i) := by
  have parsed : ∀ i, ∃ entry, i < wordCount input →
      parsedOf (translated memory input i) = .ok entry := by
    intro i
    by_cases inside : i < wordCount input
    · obtain ⟨entry, known⟩ := parsedOf_translated memory input (listed i inside)
      exact ⟨entry, fun _ => known⟩
    · exact ⟨⟨.nop, 0, 0, 0, 0⟩, fun impossible => absurd impossible inside⟩
  choose entry known using parsed
  refine ⟨entry, readInstrs_of_records (length_translatorMain memory input) entry ?_, known⟩
  intro i inside
  rw [ofBytes_translatorMain memory input inside]
  exact known i inside

/--
For every input, the translator writes one record for each whole word and
nothing for a tail, and record `i`, as the module and as `parse.py` read it, is
what word `i` translates to; so jump addresses mean the same in both programs.
-/
theorem translatorMain_keepsAddresses : KeepsAddresses memory input where
  length := length_translatorMain memory input
  fetch := fun i inside => fetch_translatorMain memory input inside
  unpack := by
    intro i inside
    have whole : Instr.size ≤
        (Bytes.slice (translatorMain memory input) (Instr.size * i) Instr.size).length := by
      rw [slice_translatorMain memory input inside, length_recordBytes]
    rw [unpackFrom_record whole, ofBytes_translatorMain memory input inside]
  settled := fun i listed stale => getInstruction_stale listed (memory i).type stale
  entries := readInstrs_translatorMain memory input
  jump := by
    intro i inside target reached jumps same
    rw [translated, getInstruction_jump jumps, same, fetch_translatorMain memory input reached]

end Result

end NetworkCode.Translator
