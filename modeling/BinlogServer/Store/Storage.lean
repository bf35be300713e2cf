import BinlogServer.Store.Backend
import BinlogServer.Store.Record
import BinlogServer.Store.Units
import Mathlib.Tactic.Simps.Basic

/-!
# The storage

`binsrv::storage`: the records of the binlog files, and the event buffer in front of the file that is open. Events
go into the buffer; the buffer is written to the backend up to the end of the last whole transaction, at a
checkpoint or when the file is closed. A `now` is what the steady clock answers in nanoseconds.
-/

namespace BinlogServer.Store
open ByteString Util Gtids Events

/-- `storage_construction_mode_type` -/
inductive ConstructionMode where
  | queryingOnly
  | streaming
  | purging
deriving DecidableEq, Repr

/-- `open_binlog_status` -/
inductive OpenBinlogStatus where
  | created
  | openedEmpty
  | openedAtMagicPayloadOffset
  | openedWithDataPresent
deriving DecidableEq, Repr

/-- The event buffer: its bytes, the boundary of the last whole transaction in them, and what is to be recorded
    about the transactions up to that boundary (`ready`) and after it (`incomplete`). -/
structure EventBuffer where
  data : Bytes := []
  lastTransactionBoundaryPosition : Nat := 0
  gtids : GtidSet := .empty
  readyTimestamps : TimestampRange := .empty
  incompleteTimestamps : TimestampRange := .empty
  readyLastSequenceNumber : Nat := 0
  incompleteLastSequenceNumber : Nat := 0
deriving DecidableEq

namespace EventBuffer

/-- An event goes to the end of the buffer. -/
@[simps] def push (buffer : EventBuffer) (data : Bytes) (timestamp sequenceNumber : Nat) : EventBuffer :=
  { buffer with
    data := buffer.data ++ data
    incompleteTimestamps := buffer.incompleteTimestamps.addTimestamp timestamp
    incompleteLastSequenceNumber :=
      if sequenceNumber ≠ 0 then sequenceNumber else buffer.incompleteLastSequenceNumber }

/-- The end of the buffer becomes the boundary of a transaction. -/
@[simps] def complete (buffer : EventBuffer) (gtids : GtidSet) : EventBuffer :=
  { buffer with
    lastTransactionBoundaryPosition := buffer.data.length
    gtids := gtids
    readyTimestamps := buffer.readyTimestamps.addRange buffer.incompleteTimestamps
    incompleteTimestamps := .empty
    readyLastSequenceNumber := buffer.incompleteLastSequenceNumber }

/-- What is after the boundary is dropped. -/
@[simps] def discard (buffer : EventBuffer) : EventBuffer :=
  { buffer with
    data := buffer.data.take buffer.lastTransactionBoundaryPosition
    incompleteTimestamps := .empty
    incompleteLastSequenceNumber := buffer.readyLastSequenceNumber }

/-- What is before the boundary is dropped, as it has been written. -/
@[simps] def flushed (buffer : EventBuffer) (mode : ReplicationMode) : EventBuffer :=
  { buffer with
    data := buffer.data.drop buffer.lastTransactionBoundaryPosition
    lastTransactionBoundaryPosition := 0
    gtids := if mode = .gtid then .empty else buffer.gtids
    readyTimestamps := .empty }

/-- `event_buffer_.clear()` -/
@[simps] def cleared (buffer : EventBuffer) : EventBuffer := { buffer with data := [] }

/-- The counters of sequence numbers where a file is opened. -/
@[simps] def restarted (buffer : EventBuffer) (lastSequenceNumber : Nat) : EventBuffer :=
  { buffer with
    readyLastSequenceNumber := lastSequenceNumber
    incompleteLastSequenceNumber := lastSequenceNumber }

/-- `has_event_data_to_flush` -/
def hasEventDataToFlush (buffer : EventBuffer) : Bool := buffer.lastTransactionBoundaryPosition ≠ 0

/-- The part of the buffer that is written by a flush. -/
def transactionsData (buffer : EventBuffer) : Bytes := buffer.data.take buffer.lastTransactionBoundaryPosition

/-- `std::vector::max_size` -/
def maxSize : Nat := 2 ^ 63 - 1

end EventBuffer

/-- What a `std::int64_t` has after a computation. An overflow, which the language leaves undefined, wraps. -/
def signed64 (value : Int) : Int := value.bmod (2 ^ 64)

/-- The settings and the state of the checkpoints. The interval is a duration of the steady clock: nanoseconds. -/
structure Checkpoint where
  sizeBytes : Nat := 0
  intervalSeconds : Int := 0
  lastPosition : Nat := 0
  lastTimestamp : Nat := 0
deriving DecidableEq, Repr

namespace Checkpoint

/-- The settings, as the constructor of `storage` takes them from the configuration. -/
def configure (checkpointSize : Option SizeUnit) (checkpointInterval : Option TimeUnit) : Checkpoint where
  sizeBytes := (checkpointSize.map SizeUnit.getValue).getD 0
  intervalSeconds := (checkpointInterval.map fun interval => signed64 (signed64 interval.getValue * 1000000000)).getD 0

def sizeCheckpointingEnabled (checkpoint : Checkpoint) : Bool := checkpoint.sizeBytes ≠ 0
def intervalCheckpointingEnabled (checkpoint : Checkpoint) : Bool := checkpoint.intervalSeconds ≠ 0

/-- `needs_flush` in `write_event`; the sums wrap as `std::uint64_t` and `std::int64_t` do. -/
def needsFlush (checkpoint : Checkpoint) (readyToFlushPosition now : Nat) : Bool :=
  (checkpoint.sizeCheckpointingEnabled &&
      readyToFlushPosition ≥ (checkpoint.lastPosition + checkpoint.sizeBytes) % 2 ^ 64) ||
    (checkpoint.intervalCheckpointingEnabled && now ≥ signed64 (checkpoint.lastTimestamp + checkpoint.intervalSeconds))

/-- `update_last_checkpoint_info` -/
def update (checkpoint : Checkpoint) (position now : Nat) : Checkpoint :=
  { checkpoint with
    lastPosition := if checkpoint.sizeCheckpointingEnabled then position else checkpoint.lastPosition
    lastTimestamp := if checkpoint.intervalCheckpointingEnabled then now else checkpoint.lastTimestamp }

end Checkpoint

/-- The data members of `storage`. -/
structure Storage where
  constructionMode : ConstructionMode
  backend : Backend
  replicationMode : ReplicationMode
  purgedGtids : GtidSet := .empty
  records : List BinlogRecord := []
  checkpoint : Checkpoint := {}
  buffer : EventBuffer := {}
deriving DecidableEq

def defaultBinlogIndexName : Bytes := ascii "binlog.index"
def metadataName : Bytes := ascii "metadata.json"
def binlogMetadataExtension : Bytes := ascii ".json"

/-- `generate_binlog_metadata_name` -/
def generateBinlogMetadataName (name : CompositeBinlogName) : Bytes := name.str ++ binlogMetadataExtension

namespace Storage

@[simps] def withBackend (s : Storage) (backend : Backend) : Storage := { s with backend := backend }
@[simps] def withRecords (s : Storage) (records : List BinlogRecord) : Storage := { s with records := records }
@[simps] def withBuffer (s : Storage) (buffer : EventBuffer) : Storage := { s with buffer := buffer }
@[simps] def withCheckpoint (s : Storage) (checkpoint : Checkpoint) : Storage := { s with checkpoint := checkpoint }
@[simps] def withPurgedGtids (s : Storage) (gtids : GtidSet) : Storage := { s with purgedGtids := gtids }
@[simps] def withReplicationMode (s : Storage) (mode : ReplicationMode) : Storage := { s with replicationMode := mode }

/-- A call to the backend. -/
def onBackend {α : Type} (x : Action Backend α) : Action Storage α := fun s =>
  match x s.backend with
  | .ok a backend => .ok a (s.withBackend backend)
  | .error failure backend => .error failure (s.withBackend backend)

def isEmpty (s : Storage) : Bool := s.records.isEmpty
def isInGtidReplicationMode (s : Storage) : Bool := s.replicationMode = .gtid
def isBinlogOpen (s : Storage) : Bool := s.backend.isStreamOpen

/-- `get_current_binlog_name` -/
def getCurrentBinlogName (s : Storage) : CompositeBinlogName :=
  match s.records.getLast? with
  | some record => record.name
  | none => .none

/-- `get_flushed_position` -/
def getFlushedPosition (s : Storage) : Nat :=
  match s.records.getLast? with
  | some record => record.size
  | none => 0

/-- `get_current_position`; sizes that do not fit `std::uint64_t` are out of the backend's reach. -/
def getCurrentPosition (s : Storage) : Nat := s.getFlushedPosition + s.buffer.data.length

/-- `get_ready_to_flush_position` -/
def getReadyToFlushPosition (s : Storage) : Nat := s.getFlushedPosition + s.buffer.lastTransactionBoundaryPosition

/-- `get_gtids` -/
def getGtids (s : Storage) : GtidSet :=
  if s.replicationMode = .gtid then
    match s.records.getLast? with
    | none => s.purgedGtids
    | some record =>
      match record.addedGtids with
      | none => record.previousGtids.getD .empty
      | some added => (record.previousGtids.getD .empty).add added
  else .empty

/-- `get_last_transaction_sequence_number` -/
def getLastTransactionSequenceNumber (s : Storage) : Nat := s.buffer.incompleteLastSequenceNumber

/-- `get_current_binlog_record()` changed in place. -/
def updateCurrentRecord (s : Storage) (f : BinlogRecord → BinlogRecord) : Storage :=
  s.withRecords (s.records.dropLast ++ s.records.getLast?.toList.map f)

def ensureStreamingMode : Action Storage Unit := do
  let s ← get
  raiseIf (s.constructionMode ≠ .streaming) .logicError
    "operation requires storage to be constructed in streaming mode"

def ensurePurgingMode : Action Storage Unit := do
  let s ← get
  raiseIf (s.constructionMode ≠ .purging) .logicError "operation requires storage to be constructed in purging mode"

/-- `update_last_checkpoint_info` -/
def updateLastCheckpointInfo (now : Nat) : Action Storage Unit :=
  modify fun s => s.withCheckpoint (s.checkpoint.update s.getCurrentPosition now)

/-- `set_purged_gtids` -/
def setPurgedGtids (gtids : GtidSet) : Action Storage Unit := do
  let s ← get
  raiseIf (!s.isInGtidReplicationMode) .logicError "cannot set purged GTIDs in position-based replication mode"
  raiseIf (!s.isEmpty) .logicError "cannot set purged GTIDs in a non-empty storage"
  modify (·.withPurgedGtids gtids)

/-- `discard_incomplete_transaction_events` -/
def discardIncompleteTransactionEvents : Action Storage Unit := do
  ensureStreamingMode
  modify fun s => s.withBuffer s.buffer.discard

section
variable [Externals]

/-- `save_metadata` -/
def saveMetadata : Action Storage Unit := do
  let s ← get
  onBackend (Backend.putObject metadataName (StorageMetadata.str s.replicationMode))

/-- `save_binlog_metadata` -/
def saveBinlogMetadata (record : BinlogRecord) : Action Storage Unit :=
  onBackend (Backend.putObject (generateBinlogMetadataName record.name) (BinlogFileMetadata.str record))

/-- The content of the index: the names with the path of their entries, one on each line. -/
def indexText (records : List BinlogRecord) : Bytes :=
  records.flatMap fun record => ascii "./" ++ record.name.str ++ [0x0A]

omit [Externals] in
/-- `save_binlog_index` -/
def saveBinlogIndex : Action Storage Unit := do
  let s ← get
  onBackend (Backend.putObject defaultBinlogIndexName (indexText s.records))

/-- The metadata of the file that is open is saved, as it now is in memory. -/
def saveCurrentBinlogMetadata : Action Storage Unit := do
  match (← get).records.getLast? with
  | some record => saveBinlogMetadata record
  | none => pure ()

/-- What a flush changes in the record of the file that is open. -/
def flushRecord (s : Storage) (record : BinlogRecord) : BinlogRecord :=
  { record with
    size := record.size + s.buffer.lastTransactionBoundaryPosition
    addedGtids := if s.replicationMode = .gtid then record.addedGtids.map (·.add s.buffer.gtids) else record.addedGtids
    timestamps := record.timestamps.addRange s.buffer.readyTimestamps
    lastSequenceNumber := s.buffer.readyLastSequenceNumber }

/-- `flush_event_buffer_internal` -/
def flushEventBufferInternal : Action Storage Unit := do
  let s ← get
  onBackend (Backend.writeDataToStream s.buffer.transactionsData)
  modify fun s => s.updateCurrentRecord s.flushRecord
  saveCurrentBinlogMetadata
  modify fun s => s.withBuffer (s.buffer.flushed s.replicationMode)

/-- `flush_event_buffer` -/
def flushEventBuffer : Action Storage Unit := do
  ensureStreamingMode
  if (← get).buffer.hasEventDataToFlush then flushEventBufferInternal

/-- The record of a file that has just been created. -/
def newRecord (s : Storage) (name : CompositeBinlogName) : BinlogRecord where
  name := name
  size := magicBinlogOffset
  previousGtids := if s.replicationMode = .gtid then some s.getGtids else none
  addedGtids := if s.replicationMode = .gtid then some .empty else none

/-- `open_new_binlog_file_internal` -/
def openNewBinlogFileInternal (name : CompositeBinlogName) : Action Storage OpenBinlogStatus := do
  onBackend (Backend.writeDataToStream magicBinlogPayload)
  modify fun s => s.withRecords (s.records ++ [s.newRecord name])
  saveCurrentBinlogMetadata
  saveBinlogIndex
  pure .created

omit [Externals] in
/-- `open_existing_binlog_file_internal` -/
def openExistingBinlogFileInternal (openStreamOffset : Nat) : Action Storage OpenBinlogStatus :=
  if openStreamOffset ≥ magicBinlogOffset then
    pure (if openStreamOffset = magicBinlogOffset then .openedAtMagicPayloadOffset else .openedWithDataPresent)
  else do
    onBackend (Backend.writeDataToStream magicBinlogPayload)
    modify fun s => s.updateCurrentRecord fun record => { record with size := magicBinlogOffset }
    pure .openedEmpty

/-- The sequence numbers go on from those of the file that is opened. -/
def lastSequenceNumberOf (s : Storage) (binlogExists : Bool) : Nat :=
  if binlogExists then (s.records.getLast?.map BinlogRecord.lastSequenceNumber).getD 0 else 0

/-- `open_binlog` -/
def openBinlog (name : CompositeBinlogName) (now : Nat) : Action Storage OpenBinlogStatus := do
  ensureStreamingMode
  let s ← get
  let binlogExists := s.records.any (·.name = name)
  raiseIf (binlogExists ∧ name ≠ s.getCurrentBinlogName) .logicError
    "cannot open an existing binlog that is not the latest one for append"
  raiseIf (binlogExists ∧ s.getCurrentPosition = 0) .logicError
    "invalid position set when opening an existing binlog"
  let openStreamOffset ← onBackend (Backend.openStream name.str (if binlogExists then .append else .create))
  let status ← if binlogExists then openExistingBinlogFileInternal openStreamOffset else openNewBinlogFileInternal name
  modify fun s => s.withBuffer (s.buffer.restarted (s.lastSequenceNumberOf binlogExists))
  updateLastCheckpointInfo now
  pure status

/-- The part of `write_event` that decides about a checkpoint. -/
def checkpointIfNeeded (now : Nat) : Action Storage Unit := do
  let s ← get
  if s.buffer.hasEventDataToFlush ∧ s.checkpoint.needsFlush s.getReadyToFlushPosition now then
    flushEventBufferInternal
    modify fun t => t.withCheckpoint { t.checkpoint with
      lastPosition := s.getReadyToFlushPosition
      lastTimestamp := now }

/-- `write_event` -/
def writeEvent (data : Bytes) (atTransactionBoundary : Bool) (transactionGtid : Gtid) (timestamp sequenceNumber now : Nat) :
    Action Storage Unit := do
  ensureStreamingMode
  let s ← get
  raiseIf (s.buffer.data.length + data.length > EventBuffer.maxSize) .lengthError "vector::_M_range_insert"
  modify fun s => s.withBuffer (s.buffer.push data timestamp sequenceNumber)
  if atTransactionBoundary then
    let s ← get
    let gtids ← if s.replicationMode = .gtid ∧ ¬ transactionGtid.isEmpty then
        (s.buffer.gtids.addGtid transactionGtid : Fallible GtidSet)
      else pure s.buffer.gtids
    modify fun s => s.withBuffer (s.buffer.complete gtids)
  checkpointIfNeeded now

/-- `close_binlog` -/
def closeBinlog (now : Nat) : Action Storage Unit := do
  ensureStreamingMode
  flushEventBuffer
  modify fun s => s.withBuffer s.buffer.cleared
  onBackend Backend.closeStream
  updateLastCheckpointInfo now

/-- The destructor: what the storage leaves behind. A failure to flush is not reported. -/
def destroy (s : Storage) : Backend :=
  let s := if s.constructionMode = .streaming then flushEventBuffer.after s else s
  { s.backend with stream := none }

omit [Externals] in
/-- The removal of the objects of a purge. Its failure is not raised, as the purge has been committed with the index:
    the answer is its message. -/
def removeVictims (names : List Bytes) : Action Storage String := fun s =>
  match onBackend (Backend.removeObjects names) s with
  | .ok _ s => .ok "" s
  | .error failure s => .ok failure.message s

omit [Externals] in
/-- `purge_binlogs`: the removed records and the message of a failure to remove their objects. -/
def purgeBinlogs (target : CompositeBinlogName) : Action Storage (List BinlogRecord × String) := do
  ensurePurgingMode
  let s ← get
  raiseIf s.isEmpty .runtimeError "cannot purge: binlog storage is empty"
  raiseIf (s.records.head?.any (·.name.baseName ≠ target.baseName)) .runtimeError
    ("cannot purge: target binlog name has a different base name than " ++
      "the binlog records in the storage")
  let position := s.records.findIdx (·.name = target)
  raiseIf (position = s.records.length) .runtimeError
    "cannot purge: target binlog name is not present in the storage"
  raiseIf (position = s.records.length - 1) .runtimeError
    ("cannot purge: target is the current tail binlog file; at least " ++
      "one binlog file must remain in the storage to preserve the resume position")
  let removed := s.records.take (position + 1)
  modify fun s => s.withRecords (s.records.drop (position + 1))
  saveBinlogIndex
  let names := removed.flatMap fun victim => [generateBinlogMetadataName victim.name,victim.name.str]
  let warning ← removeVictims names
  pure (removed,warning)

/-- `std::getline` until the end of the text. -/
def splitLines : Bytes → List Bytes
  | [] => [[]]
  | c :: rest =>
    if c = 0x0A then [] :: splitLines rest
    else match splitLines rest with
      | [] => [[c]]
      | line :: lines => (c :: line) :: lines

/-- `std::filesystem::path::parent_path` and `filename`. -/
def splitPath (path : Bytes) : Bytes × Bytes :=
  let filename := (path.reverse.takeWhile (· ≠ 0x2F)).reverse
  let front := path.take (path.length - filename.length)
  let parent := (front.reverse.dropWhile (· = 0x2F)).reverse
  (if parent = [] then front.take 1 else parent,filename)

/-- `std::filesystem::path::extension`: none for a name that starts with its only dot. -/
def extension (filename : Bytes) : Bytes :=
  let last := (filename.reverse.takeWhile (· ≠ 0x2E)).reverse
  if last.length + 1 < filename.length ∧ filename ≠ [0x2E,0x2E] then 0x2E :: last else []

/-- One entry of the index. -/
def parseIndexEntry (line : Bytes) : Fallible CompositeBinlogName := do
  let (parent,filename) := splitPath line
  raiseIf (parent ≠ ascii ".") .logicError "binlog index contains an entry that has an invalid path"
  raiseIf (filename = defaultBinlogIndexName) .logicError "binlog index contains a reference to the binlog index name"
  CompositeBinlogName.parse filename

/-- The record of a file before its metadata is loaded. -/
def unloadedRecord (mode : ReplicationMode) (name : CompositeBinlogName) : BinlogRecord where
  name := name
  size := 0
  previousGtids := if mode = .gtid then some .empty else none
  addedGtids := if mode = .gtid then some .empty else none

/-- The loop of `load_binlog_index`. -/
def loadIndexLines (mode : ReplicationMode) : List Bytes → List BinlogRecord → Fallible (List BinlogRecord)
  | [], records => .ok records
  | line :: rest, records =>
    if line = [] then loadIndexLines mode rest records
    else do
      let name ← parseIndexEntry line
      raiseIf (records.any (·.name = name)) .logicError "binlog index contains a duplicate entry"
      loadIndexLines mode rest (records ++ [unloadedRecord mode name])

/-- `load_binlog_index` -/
def loadBinlogIndex (s : Storage) : Fallible (List BinlogRecord) := do
  let content ← s.backend.getObject defaultBinlogIndexName
  loadIndexLines s.replicationMode (splitLines content) s.records

/-- `storage_object_name_container::contains` -/
def isListed (objects : List (Bytes × Nat)) (name : Bytes) : Bool := name ∈ objects.map Prod.fst

/-- `validate_binlog_index` -/
def validateBinlogIndex (mode : ConstructionMode) (records : List BinlogRecord) (objects : List (Bytes × Nat)) :
    Fallible Unit := do
  if mode = .queryingOnly then return
  raiseIf (∃ record ∈ records, record.name.str ∉ objects.map Prod.fst) .logicError
    "binlog index contains a reference to a non-existing object"
  raiseIf (objects.length ≠ records.length) .logicError
    "storage contains an object that is not referenced in the binlog index"

/-- `validate_binlog_metadata` -/
def validateBinlogMetadata (mode : ReplicationMode) (record : BinlogRecord) : Fallible Unit :=
  if mode = .gtid then do
    raiseIf (record.previousGtids = none) .logicError
      "missing previous GTID set in the binlog metadata while in GTID replication mode"
    raiseIf (record.addedGtids = none) .logicError
      "missing added GTID set in the binlog metadata while in GTID replication mode"
  else do
    raiseIf (record.previousGtids ≠ none) .logicError
      "found previous GTID set in the binlog metadata while in position replication mode"
    raiseIf (record.addedGtids ≠ none) .logicError
      "found added GTID set in the binlog metadata while in position replication mode"

/-- `load_binlog_metadata` for a file of the index. -/
def loadBinlogMetadata (s : Storage) (metadataObjects : List (Bytes × Nat)) (name : CompositeBinlogName) :
    Fallible BinlogRecord := do
  raiseIf (generateBinlogMetadataName name ∉ metadataObjects.map Prod.fst) .logicError
    "missing metadata for a binlog listed in the binlog index"
  let content ← s.backend.getObject (generateBinlogMetadataName name)
  BinlogFileMetadata.parse name content

/-- The loop of `load_and_validate_binlog_metadata_set`; where only queries are made, a file without valid
    metadata is skipped. -/
def loadRecords (s : Storage) (objects metadataObjects : List (Bytes × Nat)) :
    List BinlogRecord → Fallible (List BinlogRecord)
  | [] => .ok []
  | record :: rest =>
    match s.loadBinlogMetadata metadataObjects record.name with
    | .error failure =>
      if s.constructionMode = .queryingOnly then loadRecords s objects metadataObjects rest else .error failure
    | .ok loaded => do
      validateBinlogMetadata s.replicationMode loaded
      raiseIf (s.constructionMode ≠ .queryingOnly ∧ objects.lookup record.name.str ≠ some loaded.size) .logicError
        "size from the binlog metadata does not match the actual binlog size"
      let others ← loadRecords s objects metadataObjects rest
      pure (loaded :: others)

/-- `load_and_validate_binlog_metadata_set`: the records and the gtids that count as purged. -/
def loadAndValidateBinlogMetadataSet (s : Storage) (objects metadataObjects : List (Bytes × Nat)) :
    Fallible (List BinlogRecord × GtidSet) := do
  let records ← s.loadRecords objects metadataObjects s.records
  raiseIf (s.constructionMode ≠ .queryingOnly ∧ metadataObjects.length ≠ records.length) .logicError
    "found metadata for a non-existing binlog"
  pure (records,(records.head?.bind BinlogRecord.addedGtids).getD s.purgedGtids)

/-- The constructor after the backend has been created: what is found there is loaded and validated. -/
def constructorBody : Action Storage Unit := do
  let s ← get
  let objects := s.backend.listObjects
  if objects = [] then
    if s.constructionMode = .streaming then saveMetadata
  else
    raiseIf (metadataName ∉ objects.map Prod.fst) .logicError "storage is not empty but does not contain metadata"
    let content ← (s.backend.getObject metadataName : Fallible Bytes)
    let mode ← (StorageMetadata.parse content : Fallible ReplicationMode)
    raiseIf (mode ≠ s.replicationMode) .logicError
      "replication mode provided to initialize storage differs from the one stored in metadata"
    let objects := objects.filter (·.1 ≠ metadataName)
    if objects ≠ [] then
      if defaultBinlogIndexName ∉ objects.map Prod.fst then
        raiseIf (s.constructionMode ≠ .queryingOnly) .logicError
          "storage is not empty but does not contain binlog index"
      else
        let objects := objects.filter (·.1 ≠ defaultBinlogIndexName)
        let (metadataObjects,objects) := objects.partition (extension ·.1 = binlogMetadataExtension)
        let records ← (s.loadBinlogIndex : Fallible (List BinlogRecord))
        validateBinlogIndex s.constructionMode records objects
        let (records,purged) ←
          ((s.withRecords records).loadAndValidateBinlogMetadataSet objects metadataObjects : Fallible _)
        modify fun s => (s.withRecords records).withPurgedGtids purged

/-- `storage::storage` over the objects of a backend. -/
def construct (constructionMode : ConstructionMode) (replicationMode : ReplicationMode) (checkpoint : Checkpoint)
    (backend : Backend) : EStateM.Result Failure Storage Unit :=
  constructorBody ⟨constructionMode,backend,replicationMode,.empty,[],checkpoint,{}⟩

end

end Storage
end BinlogServer.Store
