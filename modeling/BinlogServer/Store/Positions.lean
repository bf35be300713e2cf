import BinlogServer.Store.Refinement

/-!
# Where the current file ends

The position of the storage is the length of what it holds for the current file, on the stream and in the buffer. An
event that is written moves it by its own length, a flush does not move it, and a file is opened where it ended or,
a new one, after the magic.
-/

namespace BinlogServer.Store
open ByteString Util Gtids Events

namespace Storage

section
variable [Externals] {s t : Storage}

/-- The members that say where the storage is. -/
theorem Tracked.opened {log : FileLog} (tracked : Tracked s (some log)) :
    s.isBinlogOpen = true ∧ s.getCurrentBinlogName = log.record.name ∧
      s.getCurrentPosition = log.content.length + (bytesOf log.entries).length := by
  obtain ⟨sound,record,stream,journal,journaled⟩ := tracked
  obtain ⟨content,found,size⟩ := (sound.current record journaled.last).file
  have file : content = log.content ++ bytesOf journal.kept := by
    rw [← journaled.name, journaled.stored, journaled.kept] at found
    exact (Option.some.inj found).symm
  refine ⟨by simp [isBinlogOpen,Backend.isStreamOpen,journaled.opened],?_,?_⟩
  · simp [getCurrentBinlogName,journaled.last,journaled.accounted.kept.name]
  · rw [getCurrentPosition, getFlushedPosition, journaled.last, ← journaled.held, Journal.held, journaled.data]
    simp [← size,file]
    omega

theorem Tracked.closed (tracked : Tracked s none) : s.isBinlogOpen = false := by
  simp [isBinlogOpen,Backend.isStreamOpen,tracked.2.closed]

theorem Tracked.exists_log {log : Option FileLog} (tracked : Tracked s log) (opened : s.isBinlogOpen = true) :
    ∃ file, log = some file := by
  cases log with
  | none => cases opened.symm.trans tracked.closed
  | some file => exact ⟨file,rfl⟩

/-- An event moves the end of the file by its length. -/
theorem Tracked.written {log : Option FileLog} (tracked : Tracked s log) (opened : s.isBinlogOpen = true)
    {entry : EventEntry} {now : Nat} {u : Unit} (run : writeEntry entry now s = .ok u t) :
    (∃ next, Tracked t next) ∧ t.isBinlogOpen = true ∧ t.getCurrentBinlogName = s.getCurrentBinlogName ∧
      t.getCurrentPosition = s.getCurrentPosition + entry.data.length := by
  obtain ⟨file,rfl⟩ := tracked.exists_log opened
  have allowed : (Operation.writeEvent entry).allowed s = true := opened
  have returned : (Operation.writeEvent entry).run now s = .ok u t := run
  have next : Tracked t (some ⟨file.record,file.content,file.entries ++ [entry]⟩) := tracked.step allowed returned
  obtain ⟨-,oldName,oldPosition⟩ := tracked.opened
  obtain ⟨opened,name,position⟩ := next.opened
  refine ⟨⟨_,next⟩,opened,name.trans oldName.symm,?_⟩
  rw [position, oldPosition]
  simp [Nat.add_assoc]

/-- What is written has found room in the buffer. -/
theorem writeEntry_fits {entry : EventEntry} {now : Nat} {u : Unit} (run : writeEntry entry now s = .ok u t) :
    s.buffer.data.length + entry.data.length ≤ EventBuffer.maxSize := by
  simp only [writeEntry, writeEvent, Action.bind_eq_ok, ensureStreamingMode_eq_ok, Action.get_eq_ok, Action.lift_eq_ok,
    raiseIf_eq_ok, not_lt] at run
  obtain ⟨_,_,⟨-,rfl⟩,_,_,⟨rfl,rfl⟩,_,_,⟨fits,rfl⟩,-⟩ := run
  exact fits

/-- The current file stays the current one when it is closed. -/
theorem Tracked.closes {log : Option FileLog} (tracked : Tracked s log) {now : Nat} {u : Unit}
    (run : closeBinlog now s = .ok u t) :
    Tracked t none ∧ t.getCurrentBinlogName = s.getCurrentBinlogName := by
  have returned : Operation.closeBinlog.run now s = .ok u t := run
  refine ⟨tracked.step rfl returned,?_⟩
  obtain ⟨m,checkpoint,flush,opened,rfl⟩ := closeBinlog_ok run
  have name : m.getCurrentBinlogName = s.getCurrentBinlogName := by
    cases log with
    | none =>
      obtain rfl : m = s := (Action.after_ok flush).symm.trans (flushEventBuffer_idle tracked.2.boundary)
      rfl
    | some file =>
      obtain ⟨sound,record,stream,journal,journaled⟩ := tracked
      rcases flushEventBuffer_ok sound.healthy journaled.opened journaled.last flush with ⟨rfl,-⟩ | ⟨-,-,rfl⟩
      · rfl
      · simp [getCurrentBinlogName,journaled.last,flushRecord]
  exact name

/-- A file is opened where it ended, and a new one after the magic. -/
theorem Tracked.opens {log : Option FileLog} (tracked : Tracked s log) {name : CompositeBinlogName} {now : Nat}
    {status : OpenBinlogStatus} (run : openBinlog name now s = .ok status t) (nonempty : name.isEmpty = false) :
    (∃ next, Tracked t next) ∧ t.isBinlogOpen = true ∧ t.getCurrentBinlogName = name ∧
      t.getCurrentPosition = if name = s.getCurrentBinlogName then s.getCurrentPosition else magicBinlogOffset := by
  have returned : (Operation.openBinlog name).run now s = .ok () t := by
    simp only [Operation.run, Action.bind_eq_ok]
    exact ⟨status,t,run,rfl⟩
  have sound := tracked.sound
  obtain ⟨closed,opened⟩ := openBinlog_ok sound.healthy run
  have idle := tracked.idle closed
  refine ⟨⟨_,tracked.step rfl returned⟩,?_⟩
  rcases opened with ⟨unknown,checkpoint,rfl⟩ | ⟨record,last,rfl,opened⟩
  · have other : name ≠ s.getCurrentBinlogName := by
      intro same
      unfold getCurrentBinlogName at same
      cases last : s.records.getLast? with
      | none => simp [same,last,CompositeBinlogName.none,CompositeBinlogName.isEmpty] at nonempty
      | some record => exact unknown record (List.mem_of_getLast? last) (by simp [same,last])
    rw [if_neg other]
    simp [isBinlogOpen,Backend.isStreamOpen,getCurrentBinlogName,getCurrentPosition,getFlushedPosition,newRecord,idle.data]
  · obtain ⟨content,found,-⟩ := (sound.current record last).file
    obtain ⟨checkpoint,rfl⟩ := opened content found (sound.files record.name content found)
    simp [isBinlogOpen,Backend.isStreamOpen,getCurrentBinlogName,getCurrentPosition,getFlushedPosition,last]

/-- A write where no checkpoints are configured. -/
theorem writeEntry_quiet {entry : EventEntry} {gtids : GtidSet} (now : Nat) (streaming : s.constructionMode = .streaming)
    (fits : s.buffer.data.length + entry.data.length ≤ EventBuffer.maxSize)
    (added : entry.atTransactionBoundary = true →
      s.buffer.gtidsWith s.replicationMode entry.transactionGtid = .ok gtids)
    (quiet : ∀ position, s.checkpoint.needsFlush position now = false) :
    writeEntry entry now s = .ok () (s.withBuffer (s.buffer.write entry gtids)) := by
  have due (buffer : EventBuffer) : checkpointIfNeeded now (s.withBuffer buffer) = .ok () (s.withBuffer buffer) := by
    simp only [checkpointIfNeeded, Action.bind_eq_ok, Action.get_eq_ok]
    refine ⟨_,_,⟨rfl,rfl⟩,?_⟩
    rw [if_neg (fun both => by cases (quiet _).symm.trans both.2)]
    rfl
  simp only [writeEntry, writeEvent, Action.bind_eq_ok, ensureStreamingMode_eq_ok, Action.get_eq_ok, Action.lift_eq_ok,
    raiseIf_eq_ok, Action.modify_eq_ok]
  refine ⟨(),s,⟨streaming,rfl⟩,s,s,⟨rfl,rfl⟩,(),s,⟨by omega,rfl⟩,(),_,rfl,?_⟩
  unfold EventBuffer.write
  cases boundary : entry.atTransactionBoundary with
  | false => exact due _
  | true =>
    have added := added boundary
    unfold EventBuffer.gtidsWith at added
    simp only [if_true, Action.bind_eq_ok, Action.get_eq_ok]
    refine ⟨_,_,⟨rfl,rfl⟩,?_⟩
    split at added
    · rename_i counted
      simp only [withBuffer_replicationMode, if_pos counted, Action.bind_eq_ok, Action.lift_eq_ok, Action.modify_eq_ok]
      exact ⟨gtids,_,⟨added,rfl⟩,(),_,rfl,due _⟩
    · rename_i other
      simp only [withBuffer_replicationMode, if_neg other, Action.bind_eq_ok, Action.pure_eq_ok, Action.modify_eq_ok]
      exact ⟨gtids,_,⟨Except.ok.inj added,rfl⟩,(),_,rfl,due _⟩

end
end Storage
end BinlogServer.Store
