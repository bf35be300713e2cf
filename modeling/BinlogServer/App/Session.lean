import BinlogServer.Events.Event
import BinlogServer.Events.ReaderContext
import BinlogServer.Events.Rewriter
import BinlogServer.Gtids.Encoding
import BinlogServer.Store.Storage

/-!
# Pulling events

`receive_binlog_events` and what it calls: a session connects to the source where the storage has stopped, and hands
every event it receives to the reader and to the storage, in the rewrite mode with the events it generates itself.
What the clocks will answer is part of the state, as is what the source sends in the runs.
-/

namespace BinlogServer.App
open ByteString Util Gtids Events Store

/-- `rewrite_config` -/
structure RewriteConfig where
  baseFileName : Bytes
  fileSize : Nat
deriving DecidableEq, Repr

/-- The settings of a session. -/
structure Config where
  serverId : Nat
  verifyChecksum : Bool
  rewrite : Option RewriteConfig
deriving DecidableEq, Repr

/-- A session: the storage, the reader, and the answers to come of the steady clock and of `ctime_timestamp::now`. -/
structure Session where
  storage : Storage
  context : ReaderContext
  clock : Nat → Nat
  calendar : Nat → Nat

namespace Session

@[simps] def withStorage (session : Session) (storage : Storage) : Session := { session with storage := storage }
@[simps] def withContext (session : Session) (context : ReaderContext) : Session := { session with context := context }
@[simps] def ticked (session : Session) : Session := { session with clock := fun i => session.clock (i + 1) }
@[simps] def aged (session : Session) : Session := { session with calendar := fun i => session.calendar (i + 1) }

/-- A call to the storage. -/
def onStorage {α : Type} (x : Action Storage α) : Action Session α := fun session =>
  match x session.storage with
  | .ok a storage => .ok a (session.withStorage storage)
  | .error failure storage => .error failure (session.withStorage storage)

/-- What the steady clock answers. -/
def tick : Action Session Nat := fun session => .ok (session.clock 0) session.ticked

/-- `ctime_timestamp::now` -/
def currentTime : Action Session Nat := fun session => .ok (session.calendar 0) session.aged

/-- `process_event_view` on the reader of the session; where it raises, the session is over. -/
def processEventView (event : EventView) : Action Session Bool := do
  let session ← get
  let (infoOnly,context) ← (session.context.processEventView event : Fallible (Bool × ReaderContext))
  modify (·.withContext context)
  pure infoOnly

section
variable [Externals]

def openBinlog (name : CompositeBinlogName) : Action Session Unit := do
  let now ← tick
  let _ ← onStorage (Storage.openBinlog name now)

def closeBinlog : Action Session Unit := do
  let now ← tick
  onStorage (Storage.closeBinlog now)

omit [Externals] in
/-- The position of an artificial ROTATE that names the file that is open. -/
def checkReusedPosition (event : EventView) : Action Session Unit := do
  let session ← get
  if session.storage.replicationMode = .position then
    let position ← (RotatePostHeader.make event.getPostHeaderRaw : Fallible Nat)
    raiseIf (position ≠ session.storage.getCurrentPosition) .logicError
      "unexpected binlog position in artificial rotate event"

/-- `process_artificial_rotate_event` -/
def processArtificialRotateEvent (event : EventView) : Action Session Unit := do
  let name ← (CompositeBinlogName.parse event.getBodyRaw : Fallible CompositeBinlogName)
  let session ← get
  if session.storage.isBinlogOpen then
    if name = session.storage.getCurrentBinlogName then checkReusedPosition event
    else do
      closeBinlog
      openBinlog name
  else openBinlog name

/-- The event goes to the storage, with what the reader knows about its transaction. -/
def writeEvent (event : EventView) : Action Session Unit := do
  let session ← get
  let now ← tick
  onStorage (Storage.writeEvent event.portion session.context.isAtTransactionBoundary
    session.context.transactionGtid event.getTimestampRaw session.context.transactionSequenceNumber now)

/-- `process_binlog_event` -/
def processBinlogEvent (event : EventView) : Action Session Unit := do
  let infoOnly ← processEventView event
  if event.getTypeCode = .rotate ∧ event.isArtificial = true then processArtificialRotateEvent event
  if infoOnly = false then writeEvent event
  if (event.getTypeCode = .rotate ∧ event.isArtificial = false) ∨ event.getTypeCode = .stop then closeBinlog

omit [Externals] in
/-- An event that was generated, as the reader sees it. -/
def viewOf (generated : Fallible Bytes) : Action Session EventView := do
  let portion ← generated
  let session ← get
  (EventView.make session.context portion : Fallible EventView)

omit [Externals] in
/-- `generate_rotate_event`; the time of an artificial one is zero. -/
def generateRotateEvent (offset serverId : Nat) (artificial : Bool) (binlogName : CompositeBinlogName) :
    Action Session EventView := do
  let session ← get
  let timestamp ← if artificial then pure 0 else currentTime
  viewOf (createEvent .rotate offset timestamp serverId (if artificial then artificialFlag else 0)
    (RotatePostHeader.encode magicBinlogOffset) binlogName.str session.context.footerExpected)

omit [Externals] in
/-- `generate_format_description_event` -/
def generateFormatDescriptionEvent (offset serverId : Nat) : Action Session EventView := do
  let session ← get
  let serverVersion := SemanticVersion.ofEncoded session.context.currentEncodedServerVersion
  let createTimestamp ← currentTime
  let postHeader := FormatDescriptionPostHeader.ofVersion serverVersion createTimestamp
    (getHardcodedPostHeaderLengths serverVersion.getEncoded)
  let timestamp ← currentTime
  viewOf (do
    let postHeader ← postHeader.encode
    createEvent .formatDescription offset timestamp serverId 0 postHeader (FormatDescriptionBody.encode .crc32) true)

omit [Externals] in
/-- `generate_previous_gtids_log_event` -/
def generatePreviousGtidsLogEvent (offset serverId : Nat) (gtids : GtidSet) : Action Session EventView := do
  let (body,_) ← (gtids.encodeTo (List.replicate gtids.calculateEncodedSize 0) : Fallible (Bytes × Bytes))
  let timestamp ← currentTime
  viewOf (createEvent .previousGtidsLog offset timestamp serverId 0 [] body true)

omit [Externals] in
/-- The name of the local file that is started, or gone on with after a reconnect. -/
def nextBinlogName (session : Session) (config : RewriteConfig) : Fallible CompositeBinlogName :=
  if session.storage.isEmpty then CompositeBinlogName.make config.baseFileName 1
  else if session.context.isFresh then pure session.storage.getCurrentBinlogName
  else session.storage.getCurrentBinlogName.next

/-- The ROTATE at the end of a local file. -/
def endLocalFile (serverId : Nat) (binlogName : CompositeBinlogName) : Action Session Unit := do
  let session ← get
  let rotate ← generateRotateEvent (session.storage.getCurrentPosition % 2 ^ 32) serverId false binlogName
  processBinlogEvent rotate

/-- The artificial ROTATE and the preamble of a local file. -/
def startLocalFile (serverId : Nat) (binlogName : CompositeBinlogName) : Action Session Unit := do
  let rotate ← generateRotateEvent 0 serverId true binlogName
  processBinlogEvent rotate
  let description ← generateFormatDescriptionEvent magicBinlogOffset serverId
  processBinlogEvent description
  let session ← get
  let previousGtids ← generatePreviousGtidsLogEvent ((magicBinlogOffset + description.getTotalSize) % 2 ^ 32) serverId
    session.storage.getGtids
  processBinlogEvent previousGtids

omit [Externals] in
/-- A local file has to be started before the next event. -/
def needsLocalFile (session : Session) (config : RewriteConfig) : Bool :=
  session.context.isFresh ||
    (session.context.isAtTransactionBoundary && session.storage.getCurrentPosition ≥ config.fileSize)

/-- The generated events of `rewrite_and_process_binlog_event`. -/
def changeLocalFile (serverId : Nat) (config : RewriteConfig) : Action Session Unit := do
  let session ← get
  let binlogName ← session.nextBinlogName config
  if session.context.isFresh = false then endLocalFile serverId binlogName
  startLocalFile serverId binlogName

omit [Externals] in
/-- The events of the source's own files, which a local file does not get. -/
def isSkipped (code : CodeType) : Bool :=
  code = .formatDescription || code = .previousGtidsLog || code = .rotate || code = .stop

omit [Externals] in
/-- A skipped FORMAT_DESCRIPTION has to announce checksums. -/
def checkSkipped (event : EventView) : Action Session Unit := do
  if event.getTypeCode = .formatDescription then
    let algorithm ← (FormatDescriptionBody.make event.getBodyRaw : Fallible ChecksumAlgorithmType)
    raiseIf (algorithm = .off) .logicError ("rewrite is supported in gtid replication mode only when " ++
      "all events received from the MySQL server have checksums")

/-- The event itself, at the end of the local file. -/
def processRewritten (event : EventView) : Action Session Unit := do
  let session ← get
  let rewritten ← (Rewriter.rewrite session.storage.getLastTransactionSequenceNumber event
    session.storage.getCurrentPosition : Fallible EventView)
  processBinlogEvent rewritten

/-- `rewrite_and_process_binlog_event` -/
def rewriteAndProcessBinlogEvent (serverId : Nat) (config : RewriteConfig) (event : EventView) :
    Action Session Unit := do
  if isSkipped event.getTypeCode = true then checkSkipped event
  else do
    let session ← get
    if session.needsLocalFile config = true then changeLocalFile serverId config
    processRewritten event

/-- What is done with the event of a packet. -/
def receiveEvent (config : Config) (portion : Bytes) : Action Session Unit := do
  let session ← get
  let event ← (EventView.make session.context portion : Fallible EventView)
  match config.rewrite with
  | none => processBinlogEvent event
  | some rewrite => rewriteAndProcessBinlogEvent config.serverId rewrite event

/-- A round of the loop of `receive_binlog_events`, for a packet that is not the one at the end of the stream. -/
def receivePacket (config : Config) (packet : Bytes) : Action Session Unit := do
  raiseIf (packet.head? ≠ some 0) .runtimeError "unexpected event prefix"
  receiveEvent config packet.tail

end

/-- Where the source is asked to start. -/
inductive RestartPoint where
  | gtids (encoded : Bytes)
  | beginning
  | position (name : Bytes) (position : Nat)

/-- `open_connection_and_switch_to_replication`: the source answers what it has purged to a storage that is empty, and
    is told where to start. -/
def switchToReplication (gtidPurged : Bytes) : Action Storage RestartPoint := do
  let s ← get
  if s.isInGtidReplicationMode then do
    if s.isEmpty then
      let purged ← (GtidSet.ofText gtidPurged : Fallible GtidSet)
      Storage.setPurgedGtids purged
    let s ← get
    let (encoded,_) ← (s.getGtids.encodeTo (List.replicate s.getGtids.calculateEncodedSize 0) : Fallible (Bytes × Bytes))
    pure (.gtids encoded)
  else if s.isEmpty then pure .beginning
  else pure (.position s.getCurrentBinlogName.str s.getCurrentPosition)

/-- The reader of a session that starts. -/
def readerFor (config : Config) (serverVersion : Nat) (s : Storage) : ReaderContext :=
  .make serverVersion config.verifyChecksum s.replicationMode s.getCurrentBinlogName.str (s.getCurrentPosition % 2 ^ 32)

/-- The start of a session. -/
def connect (config : Config) (serverVersion : Nat) (gtidPurged : Bytes) (clock calendar : Nat → Nat) (s : Storage) :
    Fallible (RestartPoint × Session) :=
  match switchToReplication gtidPurged s with
  | .ok point s => .ok (point,⟨s,readerFor config serverVersion s,clock,calendar⟩)
  | .error failure _ => .error failure

/-- The end of a session: after a lost connection or a timeout the storage is brought to a transaction boundary and
    flushed; nothing is done after the packet at the end of the stream. -/
def disconnect [Externals] (endOfStream : Bool) : Action Storage Unit :=
  if endOfStream then pure ()
  else do
    Storage.discardIncompleteTransactionEvents
    Storage.flushEventBuffer

end Session
end BinlogServer.App
