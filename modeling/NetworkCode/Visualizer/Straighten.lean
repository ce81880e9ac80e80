import NetworkCode.Visualizer.TreeBuilder
import Mathlib.Data.Rat.Defs
import Mathlib.Algebra.Order.Ring.Rat

/-!
# The drawn streams

`straighten` of `visualize.js` flattens a tree into the streams that the page
shows.  It carries the time at the chosen percentile and the time at mean
lengths, and shortens each PAUSE by what the instructions before it took
longer than their means.
-/

namespace NetworkCode.Visualizer

open Kernel

/-- An entry of `legend`. -/
structure Colors where
  bg : String
  fg : String
  deriving DecidableEq, Repr

/-- `legend`; looking up anything else throws. -/
def legend : Opcode → Option Colors
  | .future => some ⟨"#295f99", "white"⟩
  | .halt => some ⟨"#ff7f00", "black"⟩
  | .if => some ⟨"#ffff00", "black"⟩
  | .mode => some ⟨"#7f007f", "black"⟩
  | .create => some ⟨"#00a833", "black"⟩
  | .destroy => some ⟨"#ff0000", "black"⟩
  | .send => some ⟨"#94afcc", "black"⟩
  | .receive => some ⟨"#994b00", "white"⟩
  | .sync => some ⟨"#590b3f", "white"⟩
  | .handle => some ⟨"#ffff7f", "black"⟩
  | .nop => some ⟨"#148366", "black"⟩
  | .setCounter => some ⟨"#ff3f00", "black"⟩
  | .addToCounter => some ⟨"#7fd319", "black"⟩
  | .subFromCounter => some ⟨"#bf003f", "black"⟩
  | .goto | .wait | .xsend | .backupSend | .backupReceive | .endOfProgram | .clearCounter => none

/-- Every instruction that `parse.py` gives a length has its colors. -/
theorem legend_of_lengths {opcode : Opcode} {length : Length}
    (found : lengths opcode = some length) : ∃ colors, legend opcode = some colors := by
  cases opcode with
  | future | halt | «if» | mode | create | destroy | send | receive | sync | handle | nop
  | setCounter | addToCounter | subFromCounter => exact ⟨_, rfl⟩
  | goto | wait | xsend | backupSend | backupReceive | endOfProgram | clearCounter => cases found

def legendPause : Colors := ⟨"#196019", "white"⟩

def legendLoop : Colors := ⟨"#000000", "white"⟩

/-- `num_arguments` -/
def numArguments : Opcode → Nat
  | .future => 2
  | .halt => 0
  | .if => 2
  | .mode => 1
  | .create => 2
  | .destroy => 1
  | .send => 2
  | .receive => 2
  | .sync => 2
  | .handle => 0
  | .nop => 0
  | .setCounter => 1
  | .addToCounter => 1
  | .subFromCounter => 1
  | .goto | .wait | .xsend | .backupSend | .backupReceive | .endOfProgram | .clearCounter => 0

/-- What an item stands for: an instruction, or one of the texts `PAUSE`, `LOOP`,
`&nbsp;`, `Negative Time` and `Deadline Missed`. -/
inductive ItemInstr where
  | instr (parsed : ParsedInstr)
  | pause
  | loop
  | spacer
  | negativeTime
  | deadlineMissed
  deriving DecidableEq, Repr

/-- What the template of a description shows. -/
structure InstrInfo where
  instr : ItemInstr
  instrNum : Option Int
  timeNow : ℚ
  len : ℚ
  finish : ℚ
  args : List UInt32

/-- An item of a stream. -/
structure Item where
  instr : ItemInstr
  colors : Option Colors
  descr : String
  length : ℚ

/-- An element of the result: a stream, or a single item where a path is given up. -/
inductive Straightened where
  | stream (items : List Item)
  | givenUp (item : Item)

/-- The globals of the page and the functions of the libraries it loads. -/
structure Page where
  scale : ℚ
  percentile : ℚ
  gaussianPoint : ℚ → ℚ → ℚ → ℚ
  render : InstrInfo → String

/-- The children of a node. -/
def Tree.children : Tree → List Tree
  | .instr _ _ _ _ children => children
  | .pause _ _ _ children => children
  | .loop => []

/-- `data.instr == 'PAUSE' ? data.length : data.length.mew` -/
def Tree.meanLength : Tree → Int
  | .instr _ _ _ length _ => length.mew
  | .pause _ _ length _ => length
  | .loop => 0

def makeSpacer (instrs : List Item) : List Item :=
  [⟨.spacer, some ⟨"", ""⟩, "", (instrs.map Item.length).sum⟩]

namespace Page

variable (page : Page)

/-- `instr_info_html` of an instruction. -/
def instrInfoHtml (parsed : ParsedInstr) (instrNum : Int) (timeNow len : ℚ) : String :=
  page.render
    { instr := .instr parsed, instrNum := some instrNum, timeNow := timeNow, len := len,
      finish := timeNow + len,
      args := [parsed.arg0, parsed.arg1, parsed.arg2, parsed.arg3].take
        (numArguments parsed.instr) }

/-- `instr_info_html` of a PAUSE. -/
def pauseInfoHtml (timeNow len : ℚ) : String :=
  page.render
    { instr := .pause, instrNum := none, timeNow := timeNow, len := len, finish := timeNow + len,
      args := [] }

/-- `len`: the quantile of an instruction, and what is left of a PAUSE. -/
def len (timeNow timeNowMean : ℚ) : Tree → ℚ
  | .instr _ _ _ length _ => page.gaussianPoint page.percentile length.mew length.sigma
  | .pause _ _ length _ => length - (timeNow - timeNowMean)
  | .loop => 0

/-- The item that a node adds to its stream. -/
def item (timeNow timeNowMean : ℚ) (instrNum : Int) (data : Tree) : Item :=
  let len := page.len timeNow timeNowMean data
  match data with
  | .instr _ _ parsed _ _ =>
      ⟨.instr parsed, legend parsed.instr, page.instrInfoHtml parsed instrNum timeNow len,
        len * page.scale⟩
  | .pause _ _ _ _ => ⟨.pause, some legendPause, page.pauseInfoHtml timeNow len, len * page.scale⟩
  | .loop => ⟨.loop, some legendLoop, "", 50⟩

/-- What is returned in place of the streams when `len` is negative. -/
def giveUp : Tree → Straightened
  | .pause _ _ _ _ => .givenUp ⟨.deadlineMissed, some ⟨"white", "black"⟩, "", -1⟩
  | _ => .givenUp ⟨.negativeTime, some ⟨"white", "black"⟩, "", -1⟩

mutual

def straighten (stream : List Item) (timeNow timeNowMean : ℚ) (instrNum : Int) :
    Tree → List Straightened
  | .loop => [.stream (stream ++ [page.item timeNow timeNowMean instrNum .loop])]
  | .instr index time parsed length children =>
      let data := Tree.instr index time parsed length children
      let len := page.len timeNow timeNowMean data
      if len < 0 then
        [giveUp data]
      else
        let stream := stream ++ [page.item timeNow timeNowMean instrNum data]
        straightenAll stream (makeSpacer stream) (timeNow + len)
          (timeNowMean + data.meanLength) (instrNum + 1) children
  | .pause taken scheduledTime length children =>
      let data := Tree.pause taken scheduledTime length children
      let len := page.len timeNow timeNowMean data
      if len < 0 then
        [giveUp data]
      else
        let stream := stream ++ [page.item timeNow timeNowMean (instrNum - 1) data]
        straightenAll stream (makeSpacer stream) (timeNow + len)
          (timeNowMean + data.meanLength) (instrNum - 1 + 1) children

/-- The loop over the children: the first one goes on with the stream, the others
with a spacer.  An only child is the first one. -/
def straightenAll (stream spacer : List Item) (timeNow timeNowMean : ℚ) (instrNum : Int) :
    List Tree → List Straightened
  | [] => []
  | child :: rest =>
      straighten stream timeNow timeNowMean instrNum child ++
        straightenAll spacer spacer timeNow timeNowMean instrNum rest

end

end Page

end NetworkCode.Visualizer
