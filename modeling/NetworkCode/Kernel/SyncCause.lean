import NetworkCode.Kernel.Provenance

/-!
# No sync without a master

On the Ethernet of the nodes, a slave SYNC succeeds only through a frame that a
node has transmitted in a master SYNC before.
-/

namespace NetworkCode.Kernel

open Library Library.Checked

/-- The first read that a wait accepts, a sync frame after reads of other kinds. -/
structure AcceptsSync (reads : List (SockRead × UInt64)) (bytes : List UInt8) : Prop where
  first : ∃ refused now rest, reads = refused ++ (.frame bytes, now) :: rest ∧
    ∀ entry ∈ refused, ¬ entry.1.IsSync
  protocol : hProto bytes = htons ethPNcSync

/-- A wait that succeeds has read a sync frame. -/
theorem receiveSyncLoop_success {timeout start : Int64} {buff : List UInt8}
    {reads : List (SockRead × UInt64)} {ret : Int} {armed : List UInt32}
    (whole : ∀ entry ∈ reads, entry.1.Whole)
    (answered : receiveSyncLoop timeout start buff reads = .ok (ret, armed)) (success : 0 ≤ ret) :
    ∃ bytes, AcceptsSync reads bytes := by
  induction reads generalizing buff armed with
  | nil => cases answered
  | cons entry reads ih =>
      obtain ⟨read, now⟩ := entry
      rw [receiveSyncLoop] at answered
      obtain ⟨length, received, answered⟩ := bind_eq_ok.mp answered
      have here := whole (read, now) List.mem_cons_self
      rcases ncRcvmsg_sync buff here with short | ⟨length', received', sync⟩
      · rw [short] at received
        cases received
      · cases received'.symm.trans received
        by_cases negative : length < 0
        · rw [if_pos negative] at answered
          dsimp only at answered
          by_cases late : start - now.toInt64 + timeout < 0
          · rw [if_pos late] at answered
            cases answered
            exact absurd success (by decide)
          · rw [if_neg late] at answered
            obtain ⟨⟨result, later⟩, continued, finish⟩ := bind_eq_ok.mp answered
            cases finish
            obtain ⟨bytes, ⟨refused, accepted, rest, rfl, others⟩, protocol⟩ :=
              ih (fun entry member => whole entry (List.mem_cons_of_mem _ member)) continued
            refine ⟨bytes, ⟨(read, now) :: refused, accepted, rest, rfl, ?_⟩, protocol⟩
            intro entry member
            rcases List.mem_cons.mp member with rfl | earlier
            · exact fun is => Int.not_lt.mpr (sync.mpr is) negative
            · exact others entry earlier
        · have is := sync.mp (Int.not_lt.mp negative)
          cases read with
          | failed n => exact is.elim
          | frame bytes => exact ⟨bytes, ⟨[], now, reads, rfl, List.forall_mem_nil _⟩, is⟩

/-- A slave SYNC that succeeds has read a sync frame. -/
theorem syncAnswer_success {interpreter : Interpreter} {instr : Instr} {input : StepInput}
    {ret : Int} (whole : ∀ entry ∈ input.syncReads, entry.1.Whole)
    (answered : syncAnswer interpreter instr input = .ok ret) (success : 0 ≤ ret) :
    ∃ bytes, AcceptsSync input.syncReads bytes := by
  rw [syncAnswer_eq] at answered
  generalize loop : receiveSyncLoop _ _ _ input.syncReads = outcome at answered
  cases outcome with
  | error fault => cases answered
  | ok result =>
      obtain ⟨ret', armed⟩ := result
      cases answered
      exact receiveSyncLoop_success whole loop success

/-- The step is a slave SYNC that succeeds. -/
def NodeRecord.SyncSucceeds (record : NodeRecord) (input : StepInput) : Prop :=
  record.2.1 = .instruction input ∧ ∃ instr ret, record.1.ncmInterp.fetch = .ok instr ∧
    instr.IsSlaveSync ∧ syncAnswer record.1.ncmInterp instr input = .ok ret ∧ 0 ≤ ret

section Runs

variable {ν : Type} [DecidableEq ν] {long : ν → LongWidth} {labels : List (ν × NodeRecord)}
  {nodes : Cluster ν NcmSysfs (List UInt8)}

/--
In every run of any number of nodes on an Ethernet that loses, delays, repeats,
reorders and fills up frames, what a slave SYNC that succeeds has accepted, the
first sync frame among its reads, some node has transmitted in a master SYNC
before.
-/
theorem slaveSync_caused (run : Run (NodesStep long) loadedNodes labels nodes)
    {earlier later : List (ν × NodeRecord)} {who : ν} {record : NodeRecord} {input : StepInput}
    (executed : labels = earlier ++ (who, record) :: later)
    (succeeds : record.SyncSucceeds input) :
    ∃ master frame bytes, AcceptsSync input.syncReads bytes ∧ Synced earlier master frame ∧
      Padded frame bytes := by
  subst executed
  obtain ⟨before, action, shown⟩ := record
  obtain ⟨rfl, instr, ret, -, -, answered, success⟩ := succeeds
  obtain ⟨middle, next, reached, step, -⟩ := run.middle_inv
  obtain ⟨-, sentGood⟩ := run_accountable reached
  cases step with
  | intro taken heard =>
      have read (bytes : List UInt8) (now : UInt64)
          (member : (.frame bytes, now) ∈ input.syncReads) :
          ∃ frame, GoodFrame earlier frame ∧ Padded frame bytes := by
        obtain ⟨frame, sent, padded⟩ := heard bytes ⟨now, member⟩
        exact ⟨frame, sentGood frame sent, padded⟩
      have whole : ∀ entry ∈ input.syncReads, entry.1.Whole := by
        rintro ⟨answer, now⟩ member
        cases answer with
        | failed n => trivial
        | frame bytes =>
            obtain ⟨frame, good, padded⟩ := read bytes now member
            exact padded.header good.1
      obtain ⟨bytes, accepts⟩ := syncAnswer_success whole answered success
      obtain ⟨refused, now, rest, same, -⟩ := accepts.first
      have member : (.frame bytes, now) ∈ input.syncReads := by
        rw [same]
        exact List.mem_append_right _ List.mem_cons_self
      obtain ⟨frame, ⟨header, good⟩, padded⟩ := read bytes now member
      have same : hProto bytes = hProto frame :=
        padded.slice (show 12 + 2 ≤ frame.length from header)
      rcases good with ⟨-, master, synced⟩ | ⟨node, dev, value, sent, -⟩
      · exact ⟨master, frame, bytes, accepts, synced, padded⟩
      · have protocol := accepts.protocol
        rw [same, sent.carries.protocol] at protocol
        cases protocol

/-- The frame of a master SYNC on the card, read at once. -/
def readSync : StepInput :=
  (StepInput.atClock 0 0 0).reading
    (.frame (hardFrame broadcastMac networkCard (syncSkb fun _ => 0))) 0

/-- One node sends a sync, and the other one waits for it. -/
theorem slaveSync_caused_pair :
    ∃ (earlier : List (Bool × NodeRecord)) (master : Bool) (frame bytes : List UInt8),
      AcceptsSync readSync.syncReads bytes ∧ Synced earlier master frame ∧ Padded frame bytes := by
  have sends : ∃ sender labels frame,
      runFromInit .bits32 (loadAndRun [.make .sync syncMaster 0 0 0] oneChannel .carded ++
        [.instruction (.atClock 0 0 0)]) = .ok (sender, labels) ∧
      labels.flatMap (fun label => framesIn label.2) = [frame] ∧
      frame = hardFrame broadcastMac networkCard (syncSkb fun _ => 0) :=
    ⟨_, _, _, rfl, rfl, rfl⟩
  have listens : ∃ receiver labels after shown,
      runFromInit .bits32 (loadAndRun [.make .sync syncSlave 0 0 0] oneChannel .carded) =
        .ok (receiver, labels) ∧
      receiver.ncmInterp.fetch = .ok (.make .sync syncSlave 0 0 0) ∧
      syncAnswer receiver.ncmInterp (.make .sync syncSlave 0 0 0) readSync = .ok 0 ∧
      Step .bits32 receiver (.instruction readSync, shown) after :=
    ⟨_, _, _, _, rfl, rfl, rfl, rfl⟩
  obtain ⟨sender, labels, frame, ran, frames, rfl⟩ := sends
  obtain ⟨receiver, quiet, after, shown, ran', fetched, answered, taken⟩ := listens
  obtain ⟨records, nodes, run, rfl, sent⟩ := exists_pair ran ran'
    (by simp [loadAndRun, Action.Hears, StepInput.atClock]) (by simp [loadAndRun, Action.Hears])
    (frames ▸ List.mem_singleton_self _)
  have heard (bytes : List UInt8)
      (hears : NodeRecord.Hears (nodes.machine false, .instruction readSync, shown) bytes) :
      ∃ original ∈ nodes.sent, Padded original bytes := by
    obtain ⟨now, member⟩ := hears
    cases List.mem_singleton.mp member
    exact ⟨_, sent, [], (List.append_nil _).symm, .inl rfl⟩
  have whole := run.tail (.intro ⟨rfl, taken⟩ heard)
  obtain ⟨master, frame, bytes, accepts, synced, padded⟩ := slaveSync_caused whole rfl
    ⟨rfl, _, _, fetched, ⟨rfl, by decide⟩, answered, Int.le_refl 0⟩
  exact ⟨records, master, frame, bytes, accepts, synced, padded⟩

end Runs

end NetworkCode.Kernel
