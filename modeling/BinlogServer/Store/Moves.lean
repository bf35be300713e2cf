import BinlogServer.Store.Chronicle

/-!
# The steps of a run

What an operation that returns has made of the storage, with everything that decides about it: the file that was
open, and whether a flush was made on the way.
-/

namespace BinlogServer.Store
open ByteString Util Gtids Events

namespace Storage

section
variable [Externals] {s t : Storage}

/-- The storage after the end of a file; `m` is the storage after the flush. -/
@[simps] def closed (m : Storage) (checkpoint : Checkpoint) : Storage :=
  { m with
    backend := m.backend.withStream none
    checkpoint := checkpoint
    buffer := m.buffer.cleared }

/-- An operation leads from one storage to another. -/
inductive Move (s : Storage) : Operation → Storage → Prop
  | setPurgedGtids {gtids : GtidSet} (valid : gtids.Valid) (mode : s.replicationMode = .gtid) (empty : s.records = []) :
      Move s (.setPurgedGtids gtids valid) (s.withPurgedGtids gtids)
  | create {name : CompositeBinlogName} (idle : Idle s) (new : ∀ record ∈ s.records, record.name ≠ name)
      (checkpoint : Checkpoint) : Move s (.openBinlog name) ((s.created name).withCheckpoint checkpoint)
  | reopen {record : BinlogRecord} {content : Bytes} (idle : Idle s) (last : s.records.getLast? = some record)
      (found : s.backend.objects.find? record.name.str = some content) (checkpoint : Checkpoint) :
      Move s (.openBinlog record.name) ((s.reopened record content).withCheckpoint checkpoint)
  | write {entry : EventEntry} {gtids : GtidSet} {m : Storage} {stream : Stream} {record : BinlogRecord}
      (opened : s.backend.stream = some stream) (last : s.records.getLast? = some record)
      (added : entry.atTransactionBoundary = true →
        s.buffer.gtidsWith s.replicationMode entry.transactionGtid = .ok gtids)
      (flush : m = s.withBuffer (s.buffer.write entry gtids) ∨
        Flushes (s.withBuffer (s.buffer.write entry gtids)) stream record m) (checkpoint : Checkpoint) :
      Move s (.writeEvent entry) (m.withCheckpoint checkpoint)
  | discard : Move s .discardIncompleteTransactionEvents (s.withBuffer s.buffer.discard)
  | idle (idle : Idle s) : Move s .flushEventBuffer s
  | flush {t : Storage} {stream : Stream} {record : BinlogRecord} (opened : s.backend.stream = some stream)
      (last : s.records.getLast? = some record) (flush : t = s ∨ Flushes s stream record t) : Move s .flushEventBuffer t
  | close {m : Storage} {stream : Stream} {record : BinlogRecord} (opened : s.backend.stream = some stream)
      (last : s.records.getLast? = some record)
      (flush : m = s ∧ s.buffer.hasEventDataToFlush = false ∨ Flushes s stream record m) (checkpoint : Checkpoint) :
      Move s .closeBinlog (m.closed checkpoint)

theorem Tracked.move {log : Option FileLog} (tracked : Tracked s log) {operation : Operation} {now : Nat} {u : Unit}
    (allowed : operation.allowed s = true) (returned : operation.run now s = .ok u t) : Move s operation t := by
  have sound := tracked.sound
  cases operation with
  | setPurgedGtids gtids valid =>
    simp only [Operation.run, Storage.setPurgedGtids, Action.bind_eq_ok, Action.get_eq_ok, Action.lift_eq_ok,
      raiseIf_eq_ok, Action.modify_eq_ok] at returned
    obtain ⟨_,_,⟨rfl,rfl⟩,_,_,⟨mode,rfl⟩,_,_,⟨empty,rfl⟩,rfl⟩ := returned
    exact .setPurgedGtids valid (by simpa [isInGtidReplicationMode] using mode) (by simpa [isEmpty] using empty)
  | openBinlog name =>
    simp only [Operation.run, Action.bind_eq_ok] at returned
    obtain ⟨status,_,run,rest⟩ := returned
    cases rest
    obtain ⟨closed,⟨new,checkpoint,rfl⟩ | ⟨record,last,rfl,opened⟩⟩ := openBinlog_ok sound.healthy run
    · exact .create (tracked.idle closed) new checkpoint
    · obtain ⟨content,found,-⟩ := (sound.current record last).file
      obtain ⟨checkpoint,rfl⟩ := opened content found (sound.files record.name content found)
      exact .reopen (tracked.idle closed) last found checkpoint
  | writeEvent entry =>
    cases log with
    | none => simp [Operation.allowed,isBinlogOpen,Backend.isStreamOpen,tracked.2.closed] at allowed
    | some log =>
      obtain ⟨-,record,stream,journal,journaled⟩ := tracked
      obtain ⟨gtids,added,run⟩ := writeEntry_ok returned
      obtain ⟨m,checkpoint,flush,rfl⟩ := checkpointIfNeeded_ok (s := s.withBuffer (s.buffer.write entry gtids))
        sound.healthy journaled.opened journaled.last run
      exact .write journaled.opened journaled.last added flush checkpoint
  | discardIncompleteTransactionEvents =>
    simp only [Operation.run, Storage.discardIncompleteTransactionEvents, Action.bind_eq_ok, ensureStreamingMode_eq_ok,
      Action.modify_eq_ok] at returned
    obtain ⟨_,_,⟨-,rfl⟩,rfl⟩ := returned
    exact .discard
  | flushEventBuffer =>
    cases log with
    | none =>
      obtain rfl : t = s := (Action.after_ok returned).symm.trans (flushEventBuffer_idle tracked.2.boundary)
      exact .idle tracked.2
    | some log =>
      obtain ⟨-,record,stream,journal,journaled⟩ := tracked
      exact .flush journaled.opened journaled.last
        ((flushEventBuffer_ok sound.healthy journaled.opened journaled.last returned).imp_left And.left)
  | closeBinlog =>
    obtain ⟨m,checkpoint,flush,opened,rfl⟩ := closeBinlog_ok returned
    cases log with
    | none =>
      obtain rfl : m = s := (Action.after_ok flush).symm.trans (flushEventBuffer_idle tracked.2.boundary)
      simp [isBinlogOpen,Backend.isStreamOpen,tracked.2.closed] at opened
    | some log =>
      obtain ⟨-,record,stream,journal,journaled⟩ := tracked
      exact .close journaled.opened journaled.last
        (flushEventBuffer_ok sound.healthy journaled.opened journaled.last flush) checkpoint

/-- The destructor flushes the event buffer, or it has nothing to flush or fails to. -/
theorem Tracked.flushedAtLast_cases {log : Option FileLog} (tracked : Tracked s log) :
    s.flushedAtLast = s ∨ ∃ stream record, s.backend.stream = some stream ∧ s.records.getLast? = some record ∧
      Flushes s stream record s.flushedAtLast := by
  unfold flushedAtLast
  split
  · cases log with
    | none => exact .inl (flushEventBuffer_idle tracked.2.boundary)
    | some log =>
      obtain ⟨sound,record,stream,journal,journaled⟩ := tracked
      exact (flushEventBuffer_after sound.healthy journaled.opened journaled.last).imp_right
        fun flush => ⟨stream,record,journaled.opened,journaled.last,flush⟩
  · exact .inl rfl

end
end Storage
end BinlogServer.Store
