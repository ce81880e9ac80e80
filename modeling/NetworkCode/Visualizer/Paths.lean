import NetworkCode.Visualizer.Timeline

/-!
# The streams against the paths of the tree

Every LOOP ends one stream, and a node without children ends none: what
`straighten` returns for it is the empty list.  So the streams are the paths of
the tree exactly where every path ends in a LOOP.
-/

namespace NetworkCode.Visualizer

open Kernel

/-- A node of a tree, told apart by its position, with the arguments of `straighten` there. -/
structure Visit where
  position : List Nat
  data : Tree
  timeNow : ℚ
  timeNowMean : ℚ
  instrNum : Int

/-- The shape of the trees that `parse.py` emits, over instructions that the page knows. -/
inductive Emitted : Tree → Prop where
  | instr {index : Nat} {time : Int} {parsed : ParsedInstr} {length : Length}
      {children : List Tree} (known : (legend parsed.instr).isSome) (few : children.length ≤ 2)
      (behind : ∀ child ∈ children, Emitted child) :
      Emitted (.instr index time parsed length children)
  | pause {taken : InstrRef} {scheduledTime length : Int} {children : List Tree}
      (few : children.length ≤ 2) (behind : ∀ child ∈ children, Emitted child) :
      Emitted (.pause taken scheduledTime length children)
  | loop : Emitted .loop

section Emitted

open TreeBuilder

variable {instrs : List ParsedInstr} {i fuel : Nat} {time : Int}

/-- What is known about the trees of the calls of a loop. -/
def StepEmits (step : TreeBuilder → Nat → Int → Except PyError (Tree × TreeBuilder)) : Prop :=
  ∀ {before after : TreeBuilder} {n : Nat} {time : Int} {tree : Tree},
    step before n time = .ok (tree, after) → Emitted tree

theorem TreeBuilder.Follows.emits
    {step : TreeBuilder → Nat → Int → Except PyError (Tree × TreeBuilder)}
    (emits : StepEmits step) {nexts : List Nat} {before after : TreeBuilder}
    {children : List Tree} (follows : Follows instrs step i time nexts before children after) :
    children.length ≤ nexts.length ∧ ∀ child ∈ children, Emitted child := by
  induction follows with
  | nil => exact ⟨Nat.le_refl _, List.forall_mem_nil _⟩
  | back _ _ ih => exact ⟨Nat.succ_le_succ ih.1, List.forall_mem_cons.mpr ⟨.loop, ih.2⟩⟩
  | forward _ _ stepped _ ih =>
      exact ⟨Nat.succ_le_succ ih.1, List.forall_mem_cons.mpr ⟨emits stepped, ih.2⟩⟩
  | outside _ _ _ ih => exact ⟨Nat.le_succ_of_le ih.1, ih.2⟩

theorem nexts_length_le (parsed : ParsedInstr) (i : Nat) : (parsed.nexts i).length ≤ 2 := by
  unfold ParsedInstr.nexts
  split
  · exact Nat.le_refl 2
  · exact Nat.le_succ 1

theorem step_emits (instrs : List ParsedInstr) (fuel : Nat) : StepEmits (step instrs fuel) := by
  induction fuel with
  | zero => intro before after i time tree stepped; cases stepped
  | succ fuel ih =>
      intro before after i time tree stepped
      obtain ⟨arrival, children, arrives, follows, rfl⟩ := step_eq_ok stepped
      obtain ⟨few, behind⟩ := follows.emits ih
      have named {parsed : ParsedInstr} {length : Length}
          (known : lengths parsed.instr = some length) : (legend parsed.instr).isSome := by
        obtain ⟨colors, drawn⟩ := legend_of_lengths known
        rw [drawn]
        rfl
      cases arrives with
      | halt _ known =>
          refine .instr (named known) (Nat.le_succ 1) (List.forall_mem_singleton.mpr ?_)
          exact .pause (few.trans (Nat.le_succ 1)) behind
      | @future parsed _ _ known =>
          exact .instr (named known) (few.trans (nexts_length_le parsed i)) behind
      | @other parsed _ _ known =>
          exact .instr (named known) (few.trans (nexts_length_le parsed i)) behind

/-- The trees of `parse.py` have the shape. -/
theorem buildTree_emitted {tree : Tree} (built : buildTree instrs = .ok tree) : Emitted tree := by
  obtain ⟨⟨root, after⟩, stepped, done⟩ := Library.Checked.bind_eq_ok.mp built
  cases done
  exact step_emits instrs instrs.length stepped

end Emitted

/-- Every path ends in a LOOP. -/
inductive EndsInLoops : Tree → Prop where
  | instr {index : Nat} {time : Int} {parsed : ParsedInstr} {length : Length}
      {children : List Tree} (goesOn : children ≠ [])
      (behind : ∀ child ∈ children, EndsInLoops child) :
      EndsInLoops (.instr index time parsed length children)
  | pause {taken : InstrRef} {scheduledTime length : Int} {children : List Tree}
      (goesOn : children ≠ []) (behind : ∀ child ∈ children, EndsInLoops child) :
      EndsInLoops (.pause taken scheduledTime length children)
  | loop : EndsInLoops .loop

namespace Page

variable (page : Page)

/-- The item of a node. -/
def visitItem (visit : Visit) : Item :=
  page.item visit.timeNow visit.timeNowMean visit.instrNum visit.data

/-- The paths through a node, over those through its children. -/
def through (here : Visit) (behind : List (List Visit)) : List (List Visit) :=
  if here.data.children = [] then [[here]] else behind.map (here :: ·)

mutual

/-- The paths from a node to the leaves, which are the LOOPs and the nodes without
children, from left to right. -/
def paths (position : List Nat) (timeNow timeNowMean : ℚ) (instrNum : Int) :
    Tree → List (List Visit)
  | .loop => [[⟨position, .loop, timeNow, timeNowMean, instrNum⟩]]
  | .instr index time parsed length children =>
      let data := Tree.instr index time parsed length children
      through ⟨position, data, timeNow, timeNowMean, instrNum⟩
        (pathsAll position 0 (timeNow + page.len timeNow timeNowMean data)
          (timeNowMean + data.meanLength) (instrNum + 1) children)
  | .pause taken scheduledTime length children =>
      let data := Tree.pause taken scheduledTime length children
      through ⟨position, data, timeNow, timeNowMean, instrNum - 1⟩
        (pathsAll position 0 (timeNow + page.len timeNow timeNowMean data)
          (timeNowMean + data.meanLength) (instrNum - 1 + 1) children)

/-- The paths from the children of a node. -/
def pathsAll (position : List Nat) (child : Nat) (timeNow timeNowMean : ℚ) (instrNum : Int) :
    List Tree → List (List Visit)
  | [] => []
  | first :: rest =>
      paths (position ++ [child]) timeNow timeNowMean instrNum first ++
        pathsAll position (child + 1) timeNow timeNowMean instrNum rest

end

/-- The items of the visits stand behind the lead, each at its scaled start. -/
def Aligned (lead : List Item) (own : List Visit) : Prop :=
  ∀ before visit behind, own = before ++ visit :: behind →
    ((lead ++ before.map page.visitItem).map Item.length).sum = visit.timeNow * page.scale

/-- A stream shows a path: behind a lead of spacers it holds the nodes that no earlier path
has, each at its scaled start. -/
def Shows (earlier : List (List Visit)) (path : List Visit) (shown : Straightened) : Prop :=
  ∃ lead shared own, path = shared ++ own ∧ (∀ visit ∈ shared, ∃ other ∈ earlier, visit ∈ other) ∧
    shown = .stream (lead ++ own.map page.visitItem) ∧ (∀ item ∈ lead, item.instr = .spacer) ∧
      page.Aligned lead own

/-- The streams of a tree show its paths, one each, from left to right. -/
structure FlattensPaths (tree : Tree) : Prop where
  count : (page.straighten [] 0 0 0 tree).length = (page.paths [] 0 0 0 tree).length
  shows : ∀ i path, (page.paths [] 0 0 0 tree)[i]? = some path →
    ∃ shown, (page.straighten [] 0 0 0 tree)[i]? = some shown ∧
      page.Shows ((page.paths [] 0 0 0 tree).take i) path shown

/-- A tree that `parse.py` emits, with no negative length. -/
structure Drawable (tree : Tree) : Prop where
  emitted : Emitted tree
  nonneg : ∀ call, page.Reaches (.start tree) call →
    0 ≤ page.len call.timeNow call.timeNowMean call.data

/-- A node without a negative length leaves the rest to the loop over its children. -/
theorem straighten_instr {index : Nat} {time : Int} {parsed : ParsedInstr} {length : Length}
    {children : List Tree} {stream : List Item} {timeNow timeNowMean : ℚ} {instrNum : Int}
    (kept : 0 ≤ page.len timeNow timeNowMean (.instr index time parsed length children)) :
    page.straighten stream timeNow timeNowMean instrNum
        (.instr index time parsed length children) =
      let data := Tree.instr index time parsed length children
      let stream := stream ++ [page.item timeNow timeNowMean instrNum data]
      page.straightenAll stream (makeSpacer stream) (timeNow + page.len timeNow timeNowMean data)
        (timeNowMean + data.meanLength) (instrNum + 1) children := by
  rw [straighten]
  exact if_neg (not_lt.mpr kept)

theorem straighten_pause {taken : InstrRef} {scheduledTime length : Int} {children : List Tree}
    {stream : List Item} {timeNow timeNowMean : ℚ} {instrNum : Int}
    (kept : 0 ≤ page.len timeNow timeNowMean (.pause taken scheduledTime length children)) :
    page.straighten stream timeNow timeNowMean instrNum
        (.pause taken scheduledTime length children) =
      let data := Tree.pause taken scheduledTime length children
      let stream := stream ++ [page.item timeNow timeNowMean (instrNum - 1) data]
      page.straightenAll stream (makeSpacer stream) (timeNow + page.len timeNow timeNowMean data)
        (timeNowMean + data.meanLength) (instrNum - 1 + 1) children := by
  rw [straighten]
  exact if_neg (not_lt.mpr kept)

/-! ## What one call draws -/

/-- A stream shows a path: the first one behind what the stream had, the others behind
spacers. -/
def ShowsFrom (stream : List Item) (earlier : List (List Visit)) (path : List Visit)
    (shown : Straightened) : Prop :=
  ∃ lead shared own, path = shared ++ own ∧ (∀ visit ∈ shared, ∃ other ∈ earlier, visit ∈ other) ∧
    shown = .stream (lead ++ own.map page.visitItem) ∧ page.Aligned lead own ∧
      (earlier = [] → lead = stream) ∧ (earlier ≠ [] → ∀ item ∈ lead, item.instr = .spacer)

/-- The streams of a call, which it was given `stream` for, show the paths. -/
structure Drawn (stream : List Item) (streams : List Straightened) (paths : List (List Visit)) :
    Prop where
  count : streams.length = paths.length
  shows : ∀ i path, paths[i]? = some path → ∃ shown, streams[i]? = some shown ∧
    page.ShowsFrom stream (paths.take i) path shown

variable {page} {stream spacer : List Item} {streams others : List Straightened}
  {behind further : List (List Visit)} {here : Visit}

theorem Drawn.nil : page.Drawn stream [] [] := ⟨rfl, nofun⟩

/-- A LOOP ends the stream that it is given. -/
theorem Drawn.loop (starts : (stream.map Item.length).sum = here.timeNow * page.scale) :
    page.Drawn stream [.stream (stream ++ [page.visitItem here])] [[here]] where
  count := rfl
  shows := by
    intro i path found
    cases i with
    | zero =>
        cases found
        refine ⟨_, rfl, stream, [], [here], rfl, List.forall_mem_nil _, rfl, ?_, fun _ => rfl,
          fun impossible => absurd rfl impossible⟩
        intro before visit behind split
        rcases List.append_eq_singleton_iff.mp split.symm with ⟨rfl, only⟩ | ⟨_, impossible⟩
        · obtain ⟨rfl, _⟩ := List.cons.inj only
          rw [List.map_nil, List.append_nil, starts]
        · cases impossible
    | succ => cases found

/-- The streams of a child, and those of the children behind it. -/
theorem Drawn.append (first : page.Drawn stream streams behind) (nonempty : behind ≠ [])
    (rest : page.Drawn spacer others further) (spaces : ∀ item ∈ spacer, item.instr = .spacer) :
    page.Drawn stream (streams ++ others) (behind ++ further) where
  count := by rw [List.length_append, List.length_append, first.count, rest.count]
  shows := by
    intro i path found
    by_cases early : i < behind.length
    · rw [List.getElem?_append_left early] at found
      obtain ⟨shown, at_i, shows⟩ := first.shows i path found
      refine ⟨shown, ?_, ?_⟩
      · rwa [List.getElem?_append_left (first.count ▸ early)]
      · rwa [List.take_append_of_le_length (Nat.le_of_lt early)]
    · have late : behind.length ≤ i := Nat.le_of_not_lt early
      rw [List.getElem?_append_right late] at found
      obtain ⟨shown, at_i, lead, shared, own, split, met, isStream, aligned, leads, spaced⟩ :=
        rest.shows _ path found
      refine ⟨shown, ?_, lead, shared, own, split, ?_, isStream, aligned, ?_, ?_⟩
      · rwa [List.getElem?_append_right (first.count ▸ late), first.count]
      · intro visit member
        obtain ⟨other, earlier, inside⟩ := met visit member
        refine ⟨other, ?_, inside⟩
        rw [List.take_append]
        exact List.mem_append_right _ earlier
      · intro impossible
        rw [List.take_append, List.append_eq_nil_iff, List.take_of_length_le late] at impossible
        exact absurd impossible.1 nonempty
      · intro _
        by_cases none : further.take (i - behind.length) = []
        · rw [leads none]
          exact spaces
        · exact spaced none

/-- A node in front of every path. -/
theorem Drawn.through (drawn : page.Drawn (stream ++ [page.visitItem here]) streams behind)
    (starts : (stream.map Item.length).sum = here.timeNow * page.scale) :
    page.Drawn stream streams (behind.map (here :: ·)) where
  count := by rw [drawn.count, List.length_map]
  shows := by
    intro i path found
    rw [List.getElem?_map, Option.map_eq_some_iff] at found
    obtain ⟨onward, found, rfl⟩ := found
    obtain ⟨shown, at_i, lead, shared, own, rfl, met, isStream, aligned, leads, spaced⟩ :=
      drawn.shows i onward found
    refine ⟨shown, at_i, ?_⟩
    rw [← List.map_take]
    by_cases none : behind.take i = []
    · -- the first path: the node itself is drawn
      have alone : shared = [] := by
        refine List.eq_nil_iff_forall_not_mem.mpr fun visit member => ?_
        obtain ⟨other, earlier, _⟩ := met visit member
        rw [none] at earlier
        cases earlier
      subst alone
      rw [leads none] at isStream aligned
      refine ⟨stream, [], here :: own, rfl, List.forall_mem_nil _, ?_, ?_, fun _ => rfl, ?_⟩
      · rw [isStream, List.map_cons, List.append_assoc]
        rfl
      · intro before visit after split
        cases before with
        | nil =>
            obtain ⟨rfl, _⟩ := List.cons.inj split
            rw [List.map_nil, List.append_nil, starts]
        | cons first before =>
            obtain ⟨rfl, splitOwn⟩ := List.cons.inj split
            have sum := aligned before visit after splitOwn
            rwa [List.append_assoc] at sum
      · intro impossible
        rw [none] at impossible
        exact absurd rfl impossible
    · -- a later path: the node is on every earlier one
      refine ⟨lead, here :: shared, own, rfl, ?_, isStream, aligned, ?_, fun _ => spaced none⟩
      · refine List.forall_mem_cons.mpr ⟨?_, fun visit member => ?_⟩
        · obtain ⟨other, earlier⟩ := List.exists_mem_of_ne_nil _ none
          exact ⟨here :: other, List.mem_map_of_mem earlier, List.mem_cons_self⟩
        · obtain ⟨other, earlier, inside⟩ := met visit member
          exact ⟨here :: other, List.mem_map_of_mem earlier, List.mem_cons_of_mem _ inside⟩
      · intro impossible
        exact absurd (List.map_eq_nil_iff.mp impossible) none

/-! ## The recursion -/

theorem through_of_ne_nil (goesOn : here.data.children ≠ []) :
    through here behind = behind.map (here :: ·) := if_neg goesOn

theorem through_leaf (leaf : here.data.children = []) : through here behind = [[here]] :=
  if_pos leaf

theorem through_ne_nil (some : here.data.children ≠ [] → behind ≠ []) :
    through here behind ≠ [] := by
  by_cases leaf : here.data.children = []
  · rw [through_leaf leaf]
    exact List.cons_ne_nil _ _
  · rw [through_of_ne_nil leaf]
    exact fun impossible => some leaf (List.map_eq_nil_iff.mp impossible)

variable (page)

mutual

theorem paths_ne_nil (tree : Tree) (position : List Nat) (timeNow timeNowMean : ℚ)
    (instrNum : Int) : page.paths position timeNow timeNowMean instrNum tree ≠ [] := by
  cases tree with
  | loop =>
      rw [paths]
      exact List.cons_ne_nil _ _
  | instr index time parsed length children =>
      rw [paths]
      exact through_ne_nil fun goesOn => pathsAll_ne_nil children goesOn _ _ _ _ _
  | pause taken scheduledTime length children =>
      rw [paths]
      exact through_ne_nil fun goesOn => pathsAll_ne_nil children goesOn _ _ _ _ _

theorem pathsAll_ne_nil (children : List Tree) (goesOn : children ≠ []) (position : List Nat)
    (child : Nat) (timeNow timeNowMean : ℚ) (instrNum : Int) :
    page.pathsAll position child timeNow timeNowMean instrNum children ≠ [] := by
  cases children with
  | nil => exact absurd rfl goesOn
  | cons first rest =>
      rw [pathsAll]
      exact fun impossible =>
        paths_ne_nil first _ _ _ _ (List.append_eq_nil_iff.mp impossible).1

end

/-- No negative length is met from a call on. -/
def Nonneg (call : Drawing) : Prop :=
  ∀ later, page.Reaches call later → 0 ≤ page.len later.timeNow later.timeNowMean later.data

variable {page}

theorem Nonneg.root {data : Tree} {timeNow timeNowMean : ℚ}
    (nonneg : page.Nonneg ⟨data, timeNow, timeNowMean⟩) :
    0 ≤ page.len timeNow timeNowMean data := nonneg ⟨data, timeNow, timeNowMean⟩ .refl

/-- No negative length is met from a child on. -/
theorem Nonneg.child {data child : Tree} {timeNow timeNowMean : ℚ}
    (nonneg : page.Nonneg ⟨data, timeNow, timeNowMean⟩) (member : child ∈ data.children) :
    page.Nonneg ⟨child, timeNow + page.len timeNow timeNowMean data,
      timeNowMean + data.meanLength⟩ := fun later reaches =>
  nonneg later (reaches.head ⟨nonneg _ .refl, member, rfl, rfl⟩)

theorem makeSpacer_sum (items : List Item) :
    ((makeSpacer items).map Item.length).sum = (items.map Item.length).sum := by
  simp [makeSpacer]

/-- The stream behind a node ends where the node does. -/
theorem sum_behind {data : Tree} {timeNow : ℚ} (timeNowMean : ℚ) (instrNum : Int)
    (starts : (stream.map Item.length).sum = timeNow * page.scale) (notLoop : data ≠ .loop) :
    ((stream ++ [page.item timeNow timeNowMean instrNum data]).map Item.length).sum =
      (timeNow + page.len timeNow timeNowMean data) * page.scale := by
  rw [List.map_append, List.sum_append, starts, add_mul]
  cases data with
  | loop => exact absurd rfl notLoop
  | instr | pause => simp [item]

variable (page)

mutual

/-- The streams of a tree whose paths end in LOOPs show its paths. -/
theorem straighten_drawn (tree : Tree) (ends : EndsInLoops tree) (position : List Nat)
    (stream : List Item) (timeNow timeNowMean : ℚ) (instrNum : Int)
    (nonneg : page.Nonneg ⟨tree, timeNow, timeNowMean⟩)
    (starts : (stream.map Item.length).sum = timeNow * page.scale) :
    page.Drawn stream (page.straighten stream timeNow timeNowMean instrNum tree)
      (page.paths position timeNow timeNowMean instrNum tree) := by
  cases tree with
  | loop =>
      rw [straighten, paths]
      have loop : page.Drawn stream _ [[⟨position, .loop, timeNow, timeNowMean, instrNum⟩]] :=
        .loop starts
      exact loop
  | instr index time parsed length children =>
      cases ends with
      | instr goesOn behind =>
          rw [straighten_instr page nonneg.root, paths, through_of_ne_nil]
          · refine Drawn.through ?_ starts
            have notLoop : Tree.instr index time parsed length children ≠ .loop := nofun
            have sum := sum_behind timeNowMean instrNum starts notLoop
            exact straightenAll_drawn children behind _ _ _ _ _ _ _
              (fun child member => nonneg.child member) (fun _ => makeSpacer_instr) sum
              ((makeSpacer_sum _).trans sum)
          · exact goesOn
  | pause taken scheduledTime length children =>
      cases ends with
      | pause goesOn behind =>
          rw [straighten_pause page nonneg.root, paths, through_of_ne_nil]
          · refine Drawn.through ?_ starts
            have notLoop : Tree.pause taken scheduledTime length children ≠ .loop := nofun
            have sum := sum_behind timeNowMean (instrNum - 1) starts notLoop
            exact straightenAll_drawn children behind _ _ _ _ _ _ _
              (fun child member => nonneg.child member) (fun _ => makeSpacer_instr) sum
              ((makeSpacer_sum _).trans sum)
          · exact goesOn

theorem straightenAll_drawn (children : List Tree)
    (ends : ∀ child ∈ children, EndsInLoops child) (position : List Nat) (index : Nat)
    (stream spacer : List Item) (timeNow timeNowMean : ℚ) (instrNum : Int)
    (nonneg : ∀ child ∈ children, page.Nonneg ⟨child, timeNow, timeNowMean⟩)
    (spaces : ∀ item ∈ spacer, item.instr = .spacer)
    (starts : (stream.map Item.length).sum = timeNow * page.scale)
    (spaced : (spacer.map Item.length).sum = timeNow * page.scale) :
    page.Drawn stream (page.straightenAll stream spacer timeNow timeNowMean instrNum children)
      (page.pathsAll position index timeNow timeNowMean instrNum children) := by
  cases children with
  | nil =>
      rw [straightenAll, pathsAll]
      exact .nil
  | cons child rest =>
      obtain ⟨endsHere, endsBehind⟩ := List.forall_mem_cons.mp ends
      obtain ⟨nonnegHere, nonnegBehind⟩ := List.forall_mem_cons.mp nonneg
      rw [straightenAll, pathsAll]
      exact (straighten_drawn child endsHere _ stream _ _ _ nonnegHere starts).append
        (paths_ne_nil page child _ _ _ _)
        (straightenAll_drawn rest endsBehind _ _ spacer spacer _ _ _ nonnegBehind spaces spaced
          spaced) spaces

end

/-! ## The number of streams -/

variable {page} in
/-- A node without children ends a path and no stream. -/
theorem through_count {ends : Prop} (leaf : here.data.children = [] → streams = [])
    (count : streams.length ≤ behind.length ∧ (streams.length = behind.length → ends)) :
    streams.length ≤ (through here behind).length ∧
      (streams.length = (through here behind).length → here.data.children ≠ [] ∧ ends) := by
  by_cases ended : here.data.children = []
  · rw [through_leaf ended, leaf ended]
    exact ⟨Nat.zero_le _, nofun⟩
  · rw [through_of_ne_nil ended, List.length_map]
    exact ⟨count.1, fun same => ⟨ended, count.2 same⟩⟩

mutual

/-- There are no more streams than paths, and as many only where all paths end in LOOPs. -/
theorem straighten_count (tree : Tree) (position : List Nat) (stream : List Item)
    (timeNow timeNowMean : ℚ) (instrNum : Int)
    (nonneg : page.Nonneg ⟨tree, timeNow, timeNowMean⟩) :
    (page.straighten stream timeNow timeNowMean instrNum tree).length ≤
        (page.paths position timeNow timeNowMean instrNum tree).length ∧
      ((page.straighten stream timeNow timeNowMean instrNum tree).length =
        (page.paths position timeNow timeNowMean instrNum tree).length → EndsInLoops tree) := by
  cases tree with
  | loop =>
      rw [straighten, paths]
      exact ⟨Nat.le_refl _, fun _ => .loop⟩
  | instr index time parsed length children =>
      rw [straighten_instr page nonneg.root, paths]
      dsimp only
      refine And.imp_right (fun ends same => .instr (ends same).1 (ends same).2)
        (through_count (fun leaf => ?_) (straightenAll_count children position 0 _ _ _ _ _
          fun child member => nonneg.child member))
      change children = [] at leaf
      rw [leaf, straightenAll]
  | pause taken scheduledTime length children =>
      rw [straighten_pause page nonneg.root, paths]
      dsimp only
      refine And.imp_right (fun ends same => .pause (ends same).1 (ends same).2)
        (through_count (fun leaf => ?_) (straightenAll_count children position 0 _ _ _ _ _
          fun child member => nonneg.child member))
      change children = [] at leaf
      rw [leaf, straightenAll]

theorem straightenAll_count (children : List Tree) (position : List Nat) (index : Nat)
    (stream spacer : List Item) (timeNow timeNowMean : ℚ) (instrNum : Int)
    (nonneg : ∀ child ∈ children, page.Nonneg ⟨child, timeNow, timeNowMean⟩) :
    (page.straightenAll stream spacer timeNow timeNowMean instrNum children).length ≤
        (page.pathsAll position index timeNow timeNowMean instrNum children).length ∧
      ((page.straightenAll stream spacer timeNow timeNowMean instrNum children).length =
        (page.pathsAll position index timeNow timeNowMean instrNum children).length →
          ∀ child ∈ children, EndsInLoops child) := by
  cases children with
  | nil =>
      rw [straightenAll, pathsAll]
      exact ⟨Nat.le_refl _, fun _ => List.forall_mem_nil _⟩
  | cons child rest =>
      obtain ⟨nonnegHere, nonnegBehind⟩ := List.forall_mem_cons.mp nonneg
      obtain ⟨fewer, ends⟩ := straighten_count child (position ++ [index]) stream timeNow
        timeNowMean instrNum nonnegHere
      obtain ⟨fewerBehind, endsBehind⟩ := straightenAll_count rest position (index + 1) spacer
        spacer timeNow timeNowMean instrNum nonnegBehind
      rw [straightenAll, pathsAll, List.length_append, List.length_append]
      refine ⟨Nat.add_le_add fewer fewerBehind, fun same => ?_⟩
      exact List.forall_mem_cons.mpr ⟨ends (by omega), endsBehind (by omega)⟩

end

/--
For every page and every tree of the shape that `parse.py` emits, drawn with no
negative length, the streams show the paths of the tree exactly when every path
ends in a LOOP.
-/
theorem flattensPaths_iff {tree : Tree} (drawable : page.Drawable tree) :
    page.FlattensPaths tree ↔ EndsInLoops tree := by
  constructor
  · intro flattens
    exact (page.straighten_count tree [] [] 0 0 0 drawable.nonneg).2 flattens.count
  · intro ends
    have drawn := page.straighten_drawn tree ends [] [] 0 0 0 drawable.nonneg (zero_mul _).symm
    refine ⟨drawn.count, fun i path found => ?_⟩
    obtain ⟨shown, at_i, lead, shared, own, split, met, isStream, aligned, leads, spaced⟩ :=
      drawn.shows i path found
    refine ⟨shown, at_i, lead, shared, own, split, met, isStream, ?_, aligned⟩
    by_cases none : (page.paths [] 0 0 0 tree).take i = []
    · rw [leads none]
      exact List.forall_mem_nil _
    · exact spaced none

end Page

/-- No node has a negative mean length. -/
inductive MeansNonneg : Tree → Prop where
  | instr {index : Nat} {time : Int} {parsed : ParsedInstr} {length : Length}
      {children : List Tree} (nonneg : 0 ≤ length.mew)
      (behind : ∀ child ∈ children, MeansNonneg child) :
      MeansNonneg (.instr index time parsed length children)
  | pause {taken : InstrRef} {scheduledTime length : Int} {children : List Tree}
      (nonneg : 0 ≤ length) (behind : ∀ child ∈ children, MeansNonneg child) :
      MeansNonneg (.pause taken scheduledTime length children)
  | loop : MeansNonneg .loop

theorem MeansNonneg.child {tree child : Tree} (means : MeansNonneg tree)
    (member : child ∈ tree.children) : MeansNonneg child := by
  cases means with
  | instr _ behind => exact behind child member
  | pause _ behind => exact behind child member
  | loop => cases member

/-- While everything takes its mean length, so does a PAUSE. -/
theorem meanPage_len (time : ℚ) (tree : Tree) :
    meanPage.len time time tree = tree.meanLength := by
  cases tree with
  | instr => rfl
  | pause taken scheduledTime length children =>
      rw [Page.len, Tree.meanLength, sub_self, sub_zero]
  | loop => exact Int.cast_zero.symm

theorem MeansNonneg.meanLength {tree : Tree} (means : MeansNonneg tree) : 0 ≤ tree.meanLength := by
  cases means with
  | instr nonneg => exact nonneg
  | pause nonneg => exact nonneg
  | loop => exact le_refl _

theorem meanPage_drawable {tree : Tree} (emitted : Emitted tree) (means : MeansNonneg tree) :
    meanPage.Drawable tree where
  emitted := emitted
  nonneg := by
    intro call reaches
    have onTime : call.timeNow = call.timeNowMean ∧ MeansNonneg call.data := by
      induction reaches with
      | refl => exact ⟨rfl, means⟩
      | tail _ draws ih =>
          obtain ⟨same, meansHere⟩ := ih
          refine ⟨?_, meansHere.child draws.member⟩
          rw [draws.timeNow, draws.timeNowMean, same, meanPage_len]
    obtain ⟨same, meansHere⟩ := onTime
    rw [same, meanPage_len]
    exact Int.cast_nonneg meansHere.meanLength

/-- An IF that goes back, or on to a HALT and its PAUSE. -/
def haltsOrLoops : Tree :=
  .instr 1 100 ⟨.if, 0, 0, 0, 0⟩ ⟨200, 10⟩
    [.loop, .instr 2 300 ⟨.halt, 0, 0, 0, 0⟩ ⟨100, 10⟩
      [.pause ⟨0, ⟨.future, 1000, 3, 0, 0⟩⟩ 1100 700 [.loop]]]

theorem flattensPaths_iff_halt : meanPage.Drawable haltsOrLoops ∧ EndsInLoops haltsOrLoops ∧
    (meanPage.FlattensPaths haltsOrLoops ↔ EndsInLoops haltsOrLoops) := by
  have emitted : Emitted haltsOrLoops := by
    refine .instr rfl (by decide) (List.forall_mem_cons.mpr ⟨.loop, ?_⟩)
    refine List.forall_mem_singleton.mpr (.instr rfl (by decide) ?_)
    exact List.forall_mem_singleton.mpr (.pause (by decide) (List.forall_mem_singleton.mpr .loop))
  have means : MeansNonneg haltsOrLoops := by
    refine .instr (by decide) (List.forall_mem_cons.mpr ⟨.loop, ?_⟩)
    refine List.forall_mem_singleton.mpr (.instr (by decide) ?_)
    exact List.forall_mem_singleton.mpr (.pause (by decide) (List.forall_mem_singleton.mpr .loop))
  have ends : EndsInLoops haltsOrLoops := by
    refine .instr nofun (List.forall_mem_cons.mpr ⟨.loop, ?_⟩)
    refine List.forall_mem_singleton.mpr (.instr nofun ?_)
    exact List.forall_mem_singleton.mpr (.pause nofun (List.forall_mem_singleton.mpr .loop))
  have drawable := meanPage_drawable emitted means
  exact ⟨drawable, ends, meanPage.flattensPaths_iff drawable⟩

/-- A NOP after which the program ends. -/
def lastNop : Tree := .instr 0 0 ⟨.nop, 0, 0, 0, 0⟩ ⟨200, 100⟩ []

/-- It is drawn as no stream at all. -/
theorem flattensPaths_loses : ¬ ∀ (page : Page) (tree : Tree),
    page.Drawable tree → page.FlattensPaths tree := by
  intro claim
  have drawable : meanPage.Drawable lastNop :=
    meanPage_drawable (.instr rfl (by decide) nofun) (.instr (by decide) nofun)
  have kept : 0 ≤ meanPage.len 0 0 lastNop := drawable.nonneg _ .refl
  have none : meanPage.straighten [] 0 0 0 lastNop = [] := by
    rw [lastNop, Page.straighten_instr meanPage kept, Page.straightenAll]
  have count := (claim meanPage lastNop drawable).count
  rw [none, lastNop, Page.paths, Page.through_leaf rfl] at count
  cases count

end NetworkCode.Visualizer
