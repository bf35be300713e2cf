import BinlogServer.Store.FlatJson
import BinlogServer.Store.History
import BinlogServer.Store.Loading

/-!
# The open file as a journal

The stream of the backend and the event buffer together are a journal of the events: the stream has what has left
the buffer, and the end of the last transaction in the buffer is its last mark. This holds in every run of the
operations, in which the records agree with what is stored.
-/

namespace BinlogServer.Store
open ByteString Util Gtids Events

/-- What the buffer is to record fits its types. -/
structure EventBuffer.Valid (buffer : EventBuffer) : Prop where
  gtids : buffer.gtids.Valid
  ready : buffer.readyTimestamps.Bounded
  incomplete : buffer.incompleteTimestamps.Bounded
  readyNumber : buffer.readyLastSequenceNumber < 2 ^ 64
  incompleteNumber : buffer.incompleteLastSequenceNumber < 2 ^ 64

theorem EventBuffer.Valid.write {buffer : EventBuffer} (valid : buffer.Valid) (entry : EventEntry) {mode : ReplicationMode}
    {gtids : GtidSet}
    (added : entry.atTransactionBoundary = true → buffer.gtidsWith mode entry.transactionGtid = .ok gtids) :
    (buffer.write entry gtids).Valid := by
  have stamp : entry.timestamp.toNat ≤ TimestampRange.maxTime := by
    have := entry.timestamp.toNat_lt
    unfold TimestampRange.maxTime
    omega
  have incomplete := valid.incomplete.addTimestamp stamp
  have number : (if entry.sequenceNumber.toNat ≠ 0 then entry.sequenceNumber.toNat
      else buffer.incompleteLastSequenceNumber) < 2 ^ 64 := by
    split
    · exact entry.sequenceNumber.toNat_lt
    · exact valid.incompleteNumber
  unfold EventBuffer.write
  cases marked : entry.atTransactionBoundary with
  | false => exact ⟨valid.gtids,valid.ready,incomplete,valid.readyNumber,number⟩
  | true =>
    refine ⟨?_,valid.ready.addRange incomplete,TimestampRange.bounded_empty,number,number⟩
    have added := added marked
    unfold EventBuffer.gtidsWith at added
    split at added
    · exact valid.gtids.addGtid added
    · cases added
      exact valid.gtids

theorem EventBuffer.Valid.flushed {buffer : EventBuffer} (valid : buffer.Valid) (mode : ReplicationMode) :
    (buffer.flushed mode).Valid := by
  refine ⟨?_,TimestampRange.bounded_empty,valid.incomplete,valid.readyNumber,valid.incompleteNumber⟩
  simp only [EventBuffer.flushed_gtids]
  split
  · exact GtidSet.valid_empty
  · exact valid.gtids

namespace Storage

section
variable [Externals]

/-- A storage, the log of its open file and its history after operations on an empty backend that does not fail. The
    storage may be destroyed and constructed again, and files may be purged meanwhile. -/
inductive Run : Storage → Option FileLog → History → Prop where
  | start {type : BackendType} {mode : ReplicationMode} {checkpoint : Checkpoint} {u : Unit} {s : Storage}
      (constructed : construct .streaming mode checkpoint { type := type, objects := .empty } = .ok u s) : Run s none {}
  | step {s t : Storage} {log : Option FileLog} {history : History} (run : Run s log history) {operation : Operation}
      {now : Nat} {u : Unit} (allowed : operation.allowed s = true) (returned : operation.run now s = .ok u t) :
      Run t (operation.track t log) (operation.chronicle s history)
  | restart {s t : Storage} {log : Option FileLog} {history : History} (run : Run s log history) {mode : ReplicationMode}
      {checkpoint : Checkpoint} {u : Unit} (constructed : construct .streaming mode checkpoint s.destroy = .ok u t) :
      Run t none (history.destroy s)
  | purge {s p q t : Storage} {log : Option FileLog} {history : History} (run : Run s log history)
      {mode : ReplicationMode} {settings checkpoint : Checkpoint} {u v : Unit} {target : CompositeBinlogName}
      {result : List BinlogRecord × String} (examined : construct .purging mode settings s.destroy = .ok u p)
      (purged : purgeBinlogs target p = .ok result q)
      (constructed : construct .streaming mode checkpoint q.destroy = .ok v t) :
      Run t none ((history.destroy s).purge result.1.length)

/-- The record of a file says what is stored. -/
structure Recorded (objects : Objects) (mode : ReplicationMode) (record : BinlogRecord) : Prop where
  file : ∃ content, objects.find? record.name.str = some content ∧ content.length = record.size
  metadata : ∃ document, objects.find? (generateBinlogMetadataName record.name) = some document ∧
    BinlogFileMetadata.storedSize document = some record.size
  bounded : record.Bounded
  validated : validateBinlogMetadata mode record = .ok ()

/-- What holds between the operations. -/
structure Sound (s : Storage) : Prop where
  healthy : s.backend.faults = []
  files : ∀ (name : CompositeBinlogName) content, s.backend.objects.find? name.str = some content →
    magicBinlogOffset ≤ content.length
  buffer : s.buffer.Valid
  current : ∀ record, s.records.getLast? = some record → Recorded s.backend.objects s.replicationMode record

/-- No file is open and nothing is in the buffer. -/
structure Idle (s : Storage) : Prop where
  closed : s.backend.stream = none
  data : s.buffer.data = []
  boundary : s.buffer.lastTransactionBoundaryPosition = 0
  gtids : ∀ gtid, ¬ s.buffer.gtids.contains gtid

/-- The file that is open and the buffer are a journal of the events since it was opened. -/
structure Journaled (s : Storage) (log : FileLog) (record : BinlogRecord) (stream : Stream)
    (journal : Journal EventEntry.atTransactionBoundary) : Prop where
  last : s.records.getLast? = some record
  opened : s.backend.stream = some stream
  name : stream.name = record.name.str
  stored : s.backend.objects.find? stream.name = some (s.backend.written stream)
  kept : s.backend.written stream = log.content ++ bytesOf journal.kept
  data : s.buffer.data = bytesOf journal.buffered
  boundary : s.buffer.lastTransactionBoundaryPosition = (bytesOf journal.ready).length
  held : journal.held = log.entries
  accounted : Accounted s.replicationMode log.record record s.buffer journal

section
variable {s t : Storage} {log : FileLog} {record : BinlogRecord} {stream : Stream}
  {journal : Journal EventEntry.atTransactionBoundary}

omit [Externals] in
/-- A flush writes the transactions that are ready. -/
theorem Journaled.transactionsData (journaled : Journaled s log record stream journal) :
    s.buffer.transactionsData = bytesOf journal.ready := by
  simp [EventBuffer.transactionsData,journaled.data,journaled.boundary,Journal.buffered]

omit [Externals] in
theorem Journaled.name_ne (journaled : Journaled s log record stream journal) (name : CompositeBinlogName) :
    stream.name ≠ generateBinlogMetadataName name := by
  rw [journaled.name]
  exact str_ne_metadata _ _

/-- A flush moves the whole transactions from the buffer to the stream. -/
theorem Journaled.flushed (journaled : Journaled s log record stream journal) :
    Journaled (s.flushed stream record) log (s.flushRecord record)
      (Backend.Stream.extended s.backend.type stream s.buffer.transactionsData) journal.flush := by
  have other := journaled.name_ne record.name
  have written : (s.flushed stream record).backend.written
      (Backend.Stream.extended s.backend.type stream s.buffer.transactionsData) =
      s.backend.written stream ++ s.buffer.transactionsData := by
    rw [flushed_backend, Backend.written_put _ (by simpa using other), Backend.written_streamed]
  refine ⟨by simp,rfl,by simp [flushRecord,journaled.name],?_,?_,?_,rfl,by rw [Journal.held_flush, journaled.held],
    journaled.accounted.flush journaled.boundary⟩
  · rw [written, flushed_backend, Backend.perform_objects, Backend.find?_put, Backend.Stream.extended_name,
      if_neg other, Backend.find?_streamed, if_pos rfl]
  · rw [written, journaled.kept, journaled.transactionsData]
    simp [Journal.flush]
  · simp [journaled.data,journaled.boundary,Journal.buffered,Journal.flush]

/-- A flush keeps the record, the file and the metadata in step. -/
theorem Sound.flushed (sound : Sound s) (journaled : Journaled s log record stream journal)
    (flush : Flushes s stream record t) : Sound t := by
  obtain ⟨-,fits,rfl⟩ := flush
  have other := journaled.name_ne record.name
  obtain ⟨⟨content,file,size⟩,-,bounded,validated⟩ := sound.current record journaled.last
  obtain rfl : content = s.backend.written stream := by
    rw [← journaled.name, journaled.stored] at file
    exact (Option.some.inj file).symm
  have boundary : s.buffer.transactionsData.length = s.buffer.lastTransactionBoundaryPosition := by
    rw [journaled.transactionsData, journaled.boundary]
  have find : ∀ key, key ≠ generateBinlogMetadataName record.name →
      (s.flushed stream record).backend.objects.find? key =
        if key = stream.name then some (s.backend.written stream ++ s.buffer.transactionsData)
        else s.backend.objects.find? key := by
    intro key differs
    rw [flushed_backend, Backend.perform_objects, Backend.find?_put, if_neg differs, Backend.find?_streamed]
  have recorded : (s.flushRecord record).Bounded := by
    refine ⟨?_,bounded.timestamps.addRange sound.buffer.ready,sound.buffer.readyNumber⟩
    have : Backend.maxStreamSize < 2 ^ 64 := by decide
    simp only [flushRecord]
    omega
  refine ⟨sound.healthy,fun name content found => ?_,?_,fun current last => ?_⟩
  · rw [find _ (str_ne_metadata _ _)] at found
    split at found
    · cases found
      have := sound.files name _ (by simpa [*] using journaled.stored)
      simp only [List.length_append]
      omega
    · exact sound.files name content found
  · exact sound.buffer.flushed _
  · simp only [flushed_records, List.getLast?_concat, Option.some.injEq] at last
    subst last
    refine ⟨⟨_,(find _ (str_ne_metadata _ _)).trans (if_pos journaled.name.symm),?_⟩,
      ⟨_,by simp [Backend.find?_put,flushRecord],BinlogFileMetadata.storedSize_str recorded⟩,recorded,?_⟩
    · simp [flushRecord,size,boundary]
    · rw [validateBinlogMetadata_eq_ok] at validated ⊢
      refine ⟨validated.1,Iff.trans ?_ validated.2⟩
      unfold flushRecord
      split <;> simp

omit [Externals] in
theorem Journaled.write (journaled : Journaled s log record stream journal) (entry : EventEntry) {gtids : GtidSet}
    (added : entry.atTransactionBoundary = true →
      s.buffer.gtidsWith s.replicationMode entry.transactionGtid = .ok gtids) :
    Journaled (s.withBuffer (s.buffer.write entry gtids)) { log with entries := log.entries ++ [entry] } record stream
      (journal.write entry) := by
  have data : (s.buffer.write entry gtids).data = bytesOf (journal.write entry).buffered := by
    rw [Journal.buffered_write, bytesOf_append, bytesOf_singleton, ← journaled.data, EventBuffer.write]
    cases entry.atTransactionBoundary <;> rfl
  refine ⟨journaled.last,journaled.opened,journaled.name,journaled.stored,?_,data,?_,?_,journaled.accounted.write entry added⟩
  · rw [Journal.write_kept]
    exact journaled.kept
  · cases marked : entry.atTransactionBoundary with
    | true =>
      obtain ⟨ready,rest⟩ := journal.write_marked entry marked
      have position : (s.buffer.write entry gtids).lastTransactionBoundaryPosition =
          (s.buffer.write entry gtids).data.length := by simp [EventBuffer.write,marked]
      rw [withBuffer_buffer, position, data, Journal.buffered_write, ready]
    | false =>
      obtain ⟨ready,rest⟩ := journal.write_unmarked entry marked
      simp [EventBuffer.write,marked,ready,journaled.boundary]
  · rw [Journal.held_write, journaled.held]

omit [Externals] in
theorem Journaled.discard (journaled : Journaled s log record stream journal) :
    Journaled (s.withBuffer s.buffer.discard)
      { log with entries := wholeTransactions log.entries } record stream journal.discard := by
  refine ⟨journaled.last,journaled.opened,journaled.name,journaled.stored,journaled.kept,?_,journaled.boundary,?_,
    journaled.accounted.discard⟩
  · simpa [Journal.discard,Journal.buffered,EventBuffer.transactionsData] using journaled.transactionsData
  · rw [Journal.held_discard, journaled.held]
    rfl

omit [Externals] in
theorem Journaled.withCheckpoint (journaled : Journaled s log record stream journal) (checkpoint : Checkpoint) :
    Journaled (s.withCheckpoint checkpoint) log record stream journal :=
  ⟨journaled.last,journaled.opened,journaled.name,journaled.stored,journaled.kept,journaled.data,journaled.boundary,
    journaled.held,journaled.accounted⟩

theorem Sound.withCheckpoint (sound : Sound s) (checkpoint : Checkpoint) : Sound (s.withCheckpoint checkpoint) :=
  ⟨sound.healthy,sound.files,sound.buffer,sound.current⟩

theorem Sound.withBuffer (sound : Sound s) {buffer : EventBuffer} (valid : buffer.Valid) :
    Sound (s.withBuffer buffer) := ⟨sound.healthy,sound.files,valid,sound.current⟩

omit [Externals] in
private theorem newRecord_validated (name : CompositeBinlogName) :
    validateBinlogMetadata s.replicationMode (s.newRecord name) = .ok () := by
  rw [validateBinlogMetadata_eq_ok]
  cases mode : s.replicationMode <;> simp [newRecord,mode]

/-- A new file has the magic and nothing else. -/
theorem Idle.created (idle : Idle s) (name : CompositeBinlogName) :
    Journaled (s.created name) ⟨s.newRecord name,magicBinlogPayload,[]⟩ (s.newRecord name)
      (Backend.Stream.extended s.backend.type ⟨name.str,[]⟩ magicBinlogPayload) .empty := by
  have written : (s.created name).backend.written
      (Backend.Stream.extended s.backend.type ⟨name.str,[]⟩ magicBinlogPayload) = magicBinlogPayload := by
    rw [created_backend, Backend.written_put _ (by simp), Backend.written_put _ (by simp), written_startFile]
  refine ⟨by simp,rfl,by simp [newRecord],?_,by rw [written]; simp [Journal.empty],?_,?_,rfl,
    .start (validateBinlogMetadata_eq_ok.mp (newRecord_validated name)).2 idle.gtids⟩
  · rw [written, created_backend, Backend.perform_objects, Backend.find?_put, Backend.perform_objects,
      Backend.find?_put, find?_startFile]
    simp
  · simp [idle.data,Journal.empty,Journal.buffered]
  · simp [idle.boundary,Journal.empty]

theorem find?_created (name : CompositeBinlogName) {key : Bytes} (notIndex : key ≠ defaultBinlogIndexName) :
    (s.created name).backend.objects.find? key =
      if key = generateBinlogMetadataName name then some (BinlogFileMetadata.str (s.newRecord name))
      else if key = name.str then some magicBinlogPayload else s.backend.objects.find? key := by
  rw [created_backend, Backend.perform_objects, Backend.find?_put, if_neg notIndex, Backend.perform_objects,
    Backend.find?_put, find?_startFile]

theorem Sound.created (sound : Sound s) (name : CompositeBinlogName) : Sound (s.created name) := by
  have bounded : (s.newRecord name).Bounded :=
    ⟨by simp [newRecord,magicBinlogOffset],TimestampRange.bounded_empty,by simp [newRecord]⟩
  refine ⟨sound.healthy,fun other content found => ?_,?_,fun record last => ?_⟩
  · rw [find?_created name (by simp), if_neg (by simp)] at found
    split at found
    · cases found
      decide
    · exact sound.files other content found
  · exact ⟨sound.buffer.gtids,sound.buffer.ready,sound.buffer.incomplete,by simp,by simp⟩
  · simp only [created_records, List.getLast?_concat, Option.some.injEq] at last
    subst last
    refine ⟨⟨magicBinlogPayload,?_,rfl⟩,⟨_,?_,BinlogFileMetadata.storedSize_str bounded⟩,bounded,
      newRecord_validated (s := s) name⟩
    · rw [find?_created name (by simp), if_neg (by simp), if_pos (by simp [newRecord])]
    · rw [find?_created name (by simp), if_pos (by simp [newRecord])]

omit [Externals] in
/-- A file that is opened again goes on where it ended. -/
theorem Idle.reopened (idle : Idle s) (last : s.records.getLast? = some record) {content : Bytes}
    (found : s.backend.objects.find? record.name.str = some content)
    (validated : validateBinlogMetadata s.replicationMode record = .ok ()) :
    Journaled (s.reopened record content) ⟨record,content,[]⟩ record
      ⟨record.name.str,if s.backend.type = .s3 then content else []⟩ .empty := by
  have written : (s.reopened record content).backend.written
      ⟨record.name.str,if s.backend.type = .s3 then content else []⟩ = content := by
    cases type : s.backend.type <;> simp [Backend.written,type,found]
  refine ⟨last,rfl,rfl,by rw [written]; exact found,by rw [written]; simp [Journal.empty],?_,?_,rfl,
    .start (validateBinlogMetadata_eq_ok.mp validated).2 idle.gtids⟩
  · simp [idle.data,Journal.empty,Journal.buffered]
  · simp [idle.boundary,Journal.empty]

theorem Sound.reopened (sound : Sound s) (last : s.records.getLast? = some record) (content : Bytes) :
    Sound (s.reopened record content) :=
  have number := (sound.current record last).bounded.lastSequenceNumber
  ⟨sound.healthy,sound.files,⟨sound.buffer.gtids,sound.buffer.ready,sound.buffer.incomplete,number,number⟩,
    sound.current⟩

theorem Sound.withStream (sound : Sound s) (stream : Option Stream) :
    Sound (s.withBackend (s.backend.withStream stream)) := ⟨sound.healthy,sound.files,sound.buffer,sound.current⟩

/-- The invariant of a run. -/
def Tracked (s : Storage) : Option FileLog → Prop
  | none => Sound s ∧ Idle s
  | some log => Sound s ∧ ∃ record stream journal, Journaled s log record stream journal

theorem Tracked.sound {log : Option FileLog} (tracked : Tracked s log) : Sound s := by
  cases log <;> exact tracked.1

theorem Tracked.idle {log : Option FileLog} (tracked : Tracked s log) (closed : s.backend.stream = none) : Idle s := by
  cases log with
  | none => exact tracked.2
  | some log =>
    obtain ⟨-,record,stream,journal,journaled⟩ := tracked
    cases closed.symm.trans journaled.opened

/-- A flush, where it is one. -/
theorem tracked_flushes (sound : Sound s) (journaled : Journaled s log record stream journal)
    (flush : t = s ∨ Flushes s stream record t) : Tracked t (some log) := by
  rcases flush with rfl | flush
  · exact ⟨sound,record,stream,journal,journaled⟩
  · have next := sound.flushed journaled flush
    obtain ⟨-,-,rfl⟩ := flush
    exact ⟨next,_,_,_,journaled.flushed⟩

theorem fileContent_created (name : CompositeBinlogName) : (s.created name).fileContent = magicBinlogPayload := by
  rw [fileContent, getCurrentBinlogName]
  simp only [created_records, List.getLast?_concat]
  rw [find?_created name (by simp), if_neg (by simp), if_pos (by simp [newRecord])]
  rfl

omit [Externals] in
theorem fileContent_reopened (last : s.records.getLast? = some record) {content : Bytes}
    (found : s.backend.objects.find? record.name.str = some content) :
    (s.reopened record content).fileContent = content := by
  simp [fileContent,getCurrentBinlogName,last,found]

private theorem tracked_openBinlog {log : Option FileLog} (tracked : Tracked s log) {name : CompositeBinlogName} {now : Nat}
    {status : OpenBinlogStatus} (run : openBinlog name now s = .ok status t) :
    Tracked t (t.records.getLast?.map fun record => ⟨record,t.fileContent,[]⟩) := by
  have sound := tracked.sound
  obtain ⟨closed,opened⟩ := openBinlog_ok sound.healthy run
  have idle := tracked.idle closed
  rcases opened with ⟨-,checkpoint,rfl⟩ | ⟨record,last,rfl,opened⟩
  · rw [show ((s.created name).withCheckpoint checkpoint).fileContent = _ from fileContent_created name]
    simp only [withCheckpoint_records, created_records, List.getLast?_concat, Option.map_some]
    exact ⟨(sound.created name).withCheckpoint checkpoint,_,_,_,(idle.created name).withCheckpoint checkpoint⟩
  · have recorded := sound.current record last
    obtain ⟨content,found,-⟩ := recorded.file
    obtain ⟨checkpoint,rfl⟩ := opened content found (sound.files record.name content found)
    rw [show ((s.reopened record content).withCheckpoint checkpoint).fileContent = _ from
      fileContent_reopened last found]
    simp only [withCheckpoint_records, reopened_records, last, Option.map_some]
    exact ⟨(sound.reopened last content).withCheckpoint checkpoint,_,_,_,
      (idle.reopened last found recorded.validated).withCheckpoint checkpoint⟩

/-- After a flush that returns, no transaction is ready in the buffer. -/
theorem Journaled.settled (sound : Sound s) (journaled : Journaled s log record stream journal) {u : Unit}
    (flush : flushEventBuffer s = .ok u t) : ∃ next extended settled, Journaled t log next extended settled ∧
      settled.ready = [] := by
  rcases flushEventBuffer_ok sound.healthy journaled.opened journaled.last flush with ⟨rfl,none⟩ | ⟨-,-,rfl⟩
  · have zero : t.buffer.lastTransactionBoundaryPosition = 0 := by
      simpa [EventBuffer.hasEventDataToFlush] using none
    exact ⟨record,stream,journal,journaled,bytesOf_eq_nil (List.length_eq_zero_iff.mp (journaled.boundary ▸ zero))⟩
  · exact ⟨_,_,_,journaled.flushed,rfl⟩

private theorem tracked_closeBinlog {log : Option FileLog} (tracked : Tracked s log) {now : Nat} {u : Unit}
    (run : closeBinlog now s = .ok u t) : Tracked t none := by
  obtain ⟨m,checkpoint,flush,opened,rfl⟩ := closeBinlog_ok run
  cases log with
  | none =>
    obtain rfl : m = s := (Action.after_ok flush).symm.trans (flushEventBuffer_idle tracked.2.boundary)
    simp [isBinlogOpen,Backend.isStreamOpen,tracked.2.closed] at opened
  | some log =>
    obtain ⟨sound,record,stream,journal,journaled⟩ := tracked
    have next := (tracked_flushes sound journaled
      ((flushEventBuffer_ok sound.healthy journaled.opened journaled.last flush).imp_left And.left)).sound
    obtain ⟨_,_,settled,journaled,ready⟩ := journaled.settled sound flush
    have gtids : ∀ gtid, ¬ m.buffer.gtids.contains gtid := fun gtid held => by
      simpa [ready] using (journaled.accounted.gtids gtid).mp held
    have valid : m.buffer.cleared.Valid := ⟨next.buffer.gtids,next.buffer.ready,next.buffer.incomplete,
      next.buffer.readyNumber,next.buffer.incompleteNumber⟩
    exact ⟨((next.withBuffer valid).withStream none).withCheckpoint checkpoint,rfl,rfl,
      by simpa [ready] using journaled.boundary,gtids⟩

theorem Tracked.withPurgedGtids {log : Option FileLog} (tracked : Tracked s log) (gtids : GtidSet) :
    Tracked (s.withPurgedGtids gtids) log := by
  have sound := tracked.sound
  have next : Sound (s.withPurgedGtids gtids) := ⟨sound.healthy,sound.files,sound.buffer,sound.current⟩
  cases log with
  | none => exact ⟨next,tracked.2.closed,tracked.2.data,tracked.2.boundary,tracked.2.gtids⟩
  | some log =>
    obtain ⟨-,record,stream,journal,journaled⟩ := tracked
    exact ⟨next,record,stream,journal,journaled.last,journaled.opened,journaled.name,journaled.stored,journaled.kept,
      journaled.data,journaled.boundary,journaled.held,journaled.accounted⟩

/-- Every operation that returns keeps the invariant. -/
theorem Tracked.step {log : Option FileLog} (tracked : Tracked s log) {operation : Operation} {now : Nat} {u : Unit}
    (allowed : operation.allowed s = true) (returned : operation.run now s = .ok u t) :
    Tracked t (operation.track t log) := by
  cases operation with
  | setPurgedGtids gtids valid =>
    simp only [Operation.run, Storage.setPurgedGtids, Action.bind_eq_ok, Action.get_eq_ok, Action.lift_eq_ok,
      Action.modify_eq_ok] at returned
    obtain ⟨_,_,⟨rfl,rfl⟩,_,_,⟨-,rfl⟩,_,_,⟨-,rfl⟩,rfl⟩ := returned
    exact tracked.withPurgedGtids gtids
  | openBinlog name =>
    simp only [Operation.run, Action.bind_eq_ok] at returned
    obtain ⟨status,_,run,rest⟩ := returned
    cases rest
    exact tracked_openBinlog tracked run
  | closeBinlog => exact tracked_closeBinlog tracked returned
  | writeEvent entry =>
    cases log with
    | none => simp [Operation.allowed,isBinlogOpen,Backend.isStreamOpen,tracked.2.closed] at allowed
    | some log =>
      obtain ⟨sound,record,stream,journal,journaled⟩ := tracked
      obtain ⟨gtids,added,run⟩ := writeEntry_ok returned
      have written := journaled.write entry added
      obtain ⟨m,checkpoint,flush,rfl⟩ := checkpointIfNeeded_ok (s := s.withBuffer (s.buffer.write entry gtids))
        sound.healthy written.opened written.last run
      have next := tracked_flushes (sound.withBuffer (sound.buffer.write entry added)) written flush
      obtain ⟨sound,_,_,_,journaled⟩ := next
      exact ⟨sound.withCheckpoint checkpoint,_,_,_,journaled.withCheckpoint checkpoint⟩
  | discardIncompleteTransactionEvents =>
    simp only [Operation.run, Storage.discardIncompleteTransactionEvents, Action.bind_eq_ok, ensureStreamingMode_eq_ok,
      Action.modify_eq_ok] at returned
    obtain ⟨_,_,⟨-,rfl⟩,rfl⟩ := returned
    have sound := tracked.sound
    have valid : s.buffer.discard.Valid := ⟨sound.buffer.gtids,sound.buffer.ready,TimestampRange.bounded_empty,
      sound.buffer.readyNumber,sound.buffer.readyNumber⟩
    have next := sound.withBuffer valid
    cases log with
    | none => exact ⟨next,tracked.2.closed,by simp [tracked.2.data],tracked.2.boundary,tracked.2.gtids⟩
    | some log =>
      obtain ⟨-,record,stream,journal,journaled⟩ := tracked
      exact ⟨next,_,_,_,journaled.discard⟩
  | flushEventBuffer =>
    cases log with
    | none =>
      obtain rfl : t = s := (Action.after_ok returned).symm.trans (flushEventBuffer_idle tracked.2.boundary)
      exact tracked
    | some log =>
      obtain ⟨sound,record,stream,journal,journaled⟩ := tracked
      exact tracked_flushes sound journaled
        ((flushEventBuffer_ok sound.healthy journaled.opened journaled.last returned).imp_left And.left)

/-- What is constructed over whole files is sound. -/
theorem construct_tracked {mode : ReplicationMode} {checkpoint : Checkpoint} {b : Backend} {u : Unit}
    (healthy : b.faults = []) (closed : b.stream = none)
    (files : ∀ (name : CompositeBinlogName) content, b.objects.find? name.str = some content →
      magicBinlogOffset ≤ content.length)
    (run : construct .streaming mode checkpoint b = .ok u t) : Tracked t none := by
  have blank : EventBuffer.Valid {} :=
    ⟨GtidSet.valid_empty,TimestampRange.bounded_empty,TimestampRange.bounded_empty,by decide,by decide⟩
  rcases construct_ok (by decide) run with ⟨-,⟨-,saved⟩ | ⟨other,-⟩⟩ | ⟨-,⟨-,rfl⟩ | ⟨records,restored,rfl⟩⟩
  · simp only [saveMetadata, Action.bind_eq_ok, Action.get_eq_ok, onBackend_eq_ok] at saved
    obtain ⟨_,_,⟨rfl,rfl⟩,_,put,rfl⟩ := saved
    cases (Backend.putObject_ok healthy _ _).symm.trans put
    refine ⟨⟨healthy,fun name content found => ?_,blank,by simp [fresh]⟩,closed,rfl,rfl,GtidSet.not_contains_empty⟩
    simp only [withBackend_backend, Backend.perform_objects, Backend.find?_put] at found
    rw [if_neg (by simp)] at found
    exact files name content found
  · exact absurd rfl other
  · exact ⟨⟨healthy,files,blank,by simp [fresh]⟩,closed,rfl,rfl,GtidSet.not_contains_empty⟩
  · refine ⟨⟨healthy,files,blank,fun record last => ?_⟩,closed,rfl,rfl,GtidSet.not_contains_empty⟩
    have member := List.mem_of_getLast? last
    obtain ⟨file,document,found,parsed⟩ := restored.loaded record member
    obtain ⟨-,size,bounded⟩ := BinlogFileMetadata.parse_ok parsed
    exact ⟨file,⟨document,found,size⟩,bounded,restored.validated record member⟩

/-- What the destructor leaves behind. -/
theorem Tracked.destroy {log : Option FileLog} (tracked : Tracked s log) :
    s.destroy.faults = [] ∧ s.destroy.stream = none ∧ ∀ (name : CompositeBinlogName) content,
      s.destroy.objects.find? name.str = some content → magicBinlogOffset ≤ content.length := by
  have sound : Sound (if s.constructionMode = .streaming then flushEventBuffer.after s else s) := by
    split
    · cases log with
      | none =>
        rw [flushEventBuffer_idle tracked.2.boundary]
        exact tracked.1
      | some log =>
        obtain ⟨sound,record,stream,journal,journaled⟩ := tracked
        exact (tracked_flushes sound journaled
          (flushEventBuffer_after sound.healthy journaled.opened journaled.last)).sound
    · exact tracked.sound
  exact ⟨sound.healthy,rfl,sound.files⟩

/-- What a purge does to the storage it was called for. -/
theorem purge_ok {p q : Storage} {mode : ReplicationMode} {checkpoint : Checkpoint} {b : Backend} {u : Unit}
    {target : CompositeBinlogName} {result : List BinlogRecord × String} (healthy : b.faults = [])
    (examined : construct .purging mode checkpoint b = .ok u p) (purged : purgeBinlogs target p = .ok result q) :
    Restored b.objects mode p.records ∧ p.backend = b ∧ p.replicationMode = mode ∧
      ∃ kept, p.records = result.1 ++ kept ∧ result.1 ≠ [] ∧ kept ≠ [] ∧ q = p.purged result.1 kept := by
  rcases construct_ok (by decide) examined with ⟨-,⟨other,-⟩ | ⟨-,rfl⟩⟩ | ⟨-,⟨-,rfl⟩ | ⟨records,restored,rfl⟩⟩
  · cases other
  · exact absurd rfl (purgeBinlogs_purging purged).2
  · exact absurd rfl (purgeBinlogs_purging purged).2
  · refine ⟨restored,rfl,rfl,purgeBinlogs_ok healthy restored.distinct (fun victim member name shape => ?_) purged⟩
    obtain ⟨⟨content,file,-⟩,document,metadata,-⟩ := restored.loaded victim member
    simp only [List.mem_cons, List.not_mem_nil, or_false] at shape
    rcases shape with rfl | rfl
    · simp [fresh,metadata]
    · simp [fresh,file]

theorem Tracked.restart {log : Option FileLog} (tracked : Tracked s log) {mode : ReplicationMode} {checkpoint : Checkpoint}
    {u : Unit} (constructed : construct .streaming mode checkpoint s.destroy = .ok u t) : Tracked t none := by
  obtain ⟨healthy,closed,files⟩ := tracked.destroy
  exact construct_tracked healthy closed files constructed

theorem Tracked.purge {p q : Storage} {log : Option FileLog} (tracked : Tracked s log) {mode : ReplicationMode}
    {settings checkpoint : Checkpoint} {u v : Unit} {target : CompositeBinlogName} {result : List BinlogRecord × String}
    (examined : construct .purging mode settings s.destroy = .ok u p) (purged : purgeBinlogs target p = .ok result q)
    (constructed : construct .streaming mode checkpoint q.destroy = .ok v t) : Tracked t none := by
  obtain ⟨healthy,closed,files⟩ := tracked.destroy
  obtain ⟨-,same,-,kept,-,-,-,rfl⟩ := purge_ok healthy examined purged
  rw [destroy_purging (by simpa using (purgeBinlogs_purging purged).1)] at constructed
  refine construct_tracked (by simp [same,healthy]) rfl (fun name content found => files name content ?_) constructed
  rw [Backend.withStream_objects, find?_purged] at found
  split at found
  · cases found
  · rwa [if_neg (by simp), same] at found

theorem Run.tracked {log : Option FileLog} {history : History} (run : Run s log history) : Tracked s log := by
  induction run with
  | start constructed => exact construct_tracked rfl rfl (by simp) constructed
  | step run allowed returned ih => exact ih.step allowed returned
  | restart run constructed ih => exact ih.restart constructed
  | purge run examined purged constructed ih => exact ih.purge examined purged constructed

/-- While a file is open, the stream and the buffer hold what the file had and the events that were written, and
    the stream ends at the end of a transaction; and a file has the size that its record and its metadata say. -/
theorem run_content {log : Option FileLog} {history : History} (run : Run s log history) :
    (s.isBinlogOpen = true ↔ log.isSome = true) ∧
    (∀ opened ∈ log, ∃ stream flushed, s.backend.stream = some stream ∧
      s.backend.written stream ++ s.buffer.data = opened.content ++ bytesOf opened.entries ∧
      flushed <+: opened.entries ∧ EndsMarked EventEntry.atTransactionBoundary flushed ∧
      s.backend.written stream = opened.content ++ bytesOf flushed ∧ s.backend.written stream = s.fileContent) ∧
    ∀ record, s.records.getLast? = some record →
      record.size = s.fileContent.length ∧
      (∃ document, s.backend.objects.find? (generateBinlogMetadataName record.name) = some document ∧
        BinlogFileMetadata.storedSize document = some record.size) := by
  have tracked := run.tracked
  have sound := tracked.sound
  refine ⟨?_,fun opened member => ?_,fun record last => ?_⟩
  · cases log with
    | none => simp [isBinlogOpen,Backend.isStreamOpen,tracked.2.closed]
    | some log =>
      obtain ⟨-,record,stream,journal,journaled⟩ := tracked
      simp [isBinlogOpen,Backend.isStreamOpen,journaled.opened]
  · cases member
    obtain ⟨-,record,stream,journal,journaled⟩ := tracked
    refine ⟨stream,journal.kept,journaled.opened,?_,?_,journal.kept_ends,journaled.kept,?_⟩
    · rw [journaled.kept, journaled.data, ← journaled.held]
      simp [Journal.held]
    · rw [← journaled.held]
      exact journal.kept_prefix_held
    · have stored := journaled.stored
      rw [journaled.name] at stored
      simp [fileContent,getCurrentBinlogName,journaled.last,stored]
  · obtain ⟨⟨content,found,size⟩,metadata,-⟩ := sound.current record last
    refine ⟨?_,metadata⟩
    simp [fileContent,getCurrentBinlogName,last,found,size]

end

/-- What there is in a run. -/
structure Snapshot where
  storage : Storage
  log : Option FileLog
  history : History

/-- Operations one after the other, where they are allowed and return. -/
def follow : List (Operation × Nat) → Snapshot → Option Snapshot
  | [], x => some x
  | (operation,now) :: rest, ⟨s,log,history⟩ =>
    match operation.allowed s, operation.run now s with
    | true, .ok _ t => follow rest ⟨t,operation.track t log,operation.chronicle s history⟩
    | _, _ => none

theorem follow_run {operations : List (Operation × Nat)} {x y : Snapshot} (run : Run x.storage x.log x.history)
    (followed : follow operations x = some y) : Run y.storage y.log y.history := by
  induction operations generalizing x with
  | nil =>
    cases followed
    exact run
  | cons first rest ih =>
    obtain ⟨s,log,history⟩ := x
    simp only [follow] at followed
    split at followed
    · rename_i t allowed returned
      exact ih (run.step allowed returned) followed
    · cases followed

end

section
open FlatJson
attribute [local instance] externals

namespace Sample

/-- A storage over an empty directory. -/
def emptyStorage : Storage := fresh .streaming .gtid { sizeBytes := 8 }
  ((⟨.filesystem,.empty,none,[],[]⟩ : Backend).perform (.put metadataName (StorageMetadata.str .gtid))) .empty []

theorem emptyStorage_run : Run emptyStorage none {} := .start (u := ()) rfl

def entry (text : String) (boundary : Bool) : EventEntry := ⟨ascii text ++ [0x0A],by simp,boundary,.empty,0,1⟩

/-- A transaction that is followed by a checkpoint, and half of another one. -/
def operations : List (Operation × Nat) :=
  [(.openBinlog CompositeBinlogName.Sample.first,0),(.writeEvent (entry "gtid" false),0),
    (.writeEvent (entry "commit" true),0),(.writeEvent (entry "gtid" false),0)]

end Sample

theorem run_content_checkpoint :
    ∃ (s : Storage) (log : FileLog) (history : History), Run s (some log) history ∧ s.buffer.data = ascii "gtid\n" ∧
      ∃ stream flushed, s.backend.stream = some stream ∧
        s.backend.written stream ++ s.buffer.data = log.content ++ bytesOf log.entries ∧
        flushed <+: log.entries ∧ s.backend.written stream = log.content ++ bytesOf flushed := by
  have data : (follow Sample.operations ⟨Sample.emptyStorage,none,{}⟩).map (fun x => (x.storage.buffer.data,x.log.isSome)) =
      some (ascii "gtid\n",true) := by decide
  cases followed : follow Sample.operations ⟨Sample.emptyStorage,none,{}⟩ with
  | none => simp [followed] at data
  | some x =>
    obtain ⟨s,log,history⟩ := x
    simp only [followed, Option.map_some, Option.some.injEq, Prod.mk.injEq, Option.isSome_iff_exists] at data
    obtain ⟨data,log,rfl⟩ := data
    have run := follow_run Sample.emptyStorage_run followed
    obtain ⟨stream,flushed,opened,held,kept,-,written,-⟩ := (run_content run).2.1 log rfl
    exact ⟨s,log,history,run,data,stream,flushed,opened,held,kept,written⟩

end
end Storage
end BinlogServer.Store
