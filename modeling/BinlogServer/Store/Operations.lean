import BinlogServer.Store.Storage

/-!
# What the operations do where the backend does not fail

One equation for the state after each operation. A call to a backend without faults either takes effect or raises
and changes nothing, so an operation that returns has made all of its calls.
-/

namespace BinlogServer.Store
open ByteString Util Gtids Events

namespace Backend
open BasicStorageBackend (tryRemoveObjects tryRemoveObjects_of_ok removeObjects_run)
variable {b : Backend} {stream : Stream} {name content data : Bytes}

@[simps] def withStream (b : Backend) (stream : Option Stream) : Backend := { b with stream := stream }

/-- The effects of `effects`, one after the other. -/
@[simps] def performAll (b : Backend) (effects : List Effect) : Backend :=
  { b with objects := replay b.objects effects, effects := b.effects ++ effects }

/-- What has been written to a stream. -/
def written (b : Backend) (stream : Stream) : Bytes :=
  match b.type with
  | .filesystem => (b.objects.find? stream.name).getD []
  | .s3 => stream.staged

/-- What a write to a stream does to the objects. -/
def streamEffect (b : Backend) (stream : Stream) (data : Bytes) : Effect :=
  match b.type with
  | .filesystem => .append stream.name data
  | .s3 => .put stream.name (stream.staged ++ data)

def Stream.extended (type : BackendType) (stream : Stream) (data : Bytes) : Stream :=
  match type with
  | .filesystem => stream
  | .s3 => ⟨stream.name,stream.staged ++ data⟩

/-- The backend after a write to its stream. -/
@[simps!] def streamed (b : Backend) (stream : Stream) (data : Bytes) : Backend :=
  (b.perform (b.streamEffect stream data)).withStream (some (Stream.extended b.type stream data))

/-- What opening a new stream does to the objects. -/
def createEffects (type : BackendType) (name : Bytes) : List Effect :=
  match type with
  | .filesystem => [.create name]
  | .s3 => []

theorem find?_put (objects : Objects) (name content key : Bytes) :
    ((Effect.put name content).apply objects).find? key = if key = name then some content else objects.find? key := by
  by_cases same : key = name <;> simp [Effect.apply,SortedMap.find?_insert,same]

/-- A write makes what has been written longer, and is seen in the object. -/
theorem find?_streamed (b : Backend) (stream : Stream) (data key : Bytes) :
    (b.streamed stream data).objects.find? key =
      if key = stream.name then some (b.written stream ++ data) else b.objects.find? key := by
  obtain ⟨type,objects,opened,faults,effects⟩ := b
  cases type
  · by_cases same : key = stream.name <;> simp [streamEffect,Effect.apply,written,SortedMap.find?_alter,same]
  · exact find?_put objects _ _ _

theorem written_streamed (b : Backend) (stream : Stream) (data : Bytes) :
    (b.streamed stream data).written (Stream.extended b.type stream data) = b.written stream ++ data := by
  obtain ⟨type,objects,opened,faults,effects⟩ := b
  cases type
  · simp [written,Stream.extended,streamEffect,Effect.apply]
  · rfl

/-- The documents are not written to a stream. -/
theorem written_put (b : Backend) {stream : Stream} {name : Bytes} (other : stream.name ≠ name) (content : Bytes) :
    (b.perform (.put name content)).written stream = b.written stream := by
  simp [written,find?_put,other]

@[simp] theorem Stream.extended_name (type : BackendType) (stream : Stream) (data : Bytes) :
    (Stream.extended type stream data).name = stream.name := by
  cases type <;> rfl

theorem request_ok (healthy : b.faults = []) (effect : Effect) (fileMessage s3Message : String) :
    request effect fileMessage s3Message b = .ok () (b.perform effect) := by
  obtain ⟨type,objects,stream,faults,effects⟩ := b
  cases healthy
  rfl

theorem putObject_ok (healthy : b.faults = []) (name content : Bytes) :
    putObject name content b = .ok () (b.perform (.put name content)) := request_ok healthy _ _ _

theorem performAll_cons (b : Backend) (effect : Effect) (rest : List Effect) :
    b.performAll (effect :: rest) = (b.perform effect).performAll rest := by
  simp [performAll,perform,replay]

theorem find?_replay_remove (objects : Objects) (names : List Bytes) (key : Bytes) :
    (replay objects (names.map .remove)).find? key = if key ∈ names then none else objects.find? key := by
  induction names generalizing objects with
  | nil => simp [replay]
  | cons first rest ih =>
    have step : replay objects ((first :: rest).map .remove) = replay (objects.erase first) (rest.map .remove) := rfl
    rw [step, ih, SortedMap.find?_erase]
    by_cases later : key ∈ rest
    · simp [later]
    · by_cases same : key = first <;> simp [later,same]

/-- Objects that are there are removed. -/
theorem tryRemoveObjects_ok (healthy : b.faults = []) {names : List Bytes} (distinct : names.Nodup)
    (present : ∀ name ∈ names, b.objects.find? name ≠ none) :
    tryRemoveObjects doRemoveObject names b = (none,b.performAll (names.map .remove)) := by
  induction names generalizing b with
  | nil => simp [tryRemoveObjects,performAll,replay]
  | cons first rest ih =>
    obtain ⟨fresh,distinct⟩ := List.nodup_cons.mp distinct
    have there := present first List.mem_cons_self
    have removed : doRemoveObject first b = .ok () (b.perform (.remove first)) := by
      simp only [doRemoveObject, Action.bind_eq_ok, Action.get_eq_ok, Action.lift_eq_ok, raiseIf_eq_ok]
      exact ⟨b,b,⟨rfl,rfl⟩,(),b,⟨fun missing => there missing.2,rfl⟩,request_ok healthy _ _ _⟩
    rw [tryRemoveObjects_of_ok removed, List.map_cons, performAll_cons]
    refine ih healthy distinct fun name member => ?_
    have other : name ≠ first := fun same => fresh (same ▸ member)
    simpa [Effect.apply,SortedMap.find?_erase,other] using present name (List.mem_cons_of_mem _ member)

theorem doFsync_ok (healthy : b.faults = []) : doFsync b = .ok () b := by
  obtain ⟨type,objects,stream,faults,effects⟩ := b
  cases healthy
  cases type <;> rfl

theorem removeObjects_ok (healthy : b.faults = []) {names : List Bytes} (distinct : names.Nodup)
    (present : ∀ name ∈ names, b.objects.find? name ≠ none) :
    removeObjects names b = .ok () (b.performAll (names.map .remove)) := by
  rw [removeObjects, removeObjects_run, tryRemoveObjects_ok healthy distinct present]
  exact Action.bind_of_ok (doFsync_ok (b := b.performAll (names.map .remove)) healthy)

theorem openStream_closed {mode : OpenStreamMode} {t : Backend} {offset : Nat}
    (run : openStream name mode b = .ok offset t) : b.stream = none := by
  simp only [openStream, Action.bind_eq_ok, Action.get_eq_ok, Action.lift_eq_ok, raiseIf_eq_ok] at run
  obtain ⟨_,_,⟨rfl,rfl⟩,_,_,⟨closed,-⟩,-⟩ := run
  simpa [isStreamOpen] using closed

theorem openStream_create (healthy : b.faults = []) (closed : b.stream = none) (name : Bytes) :
    openStream name .create b = .ok 0 ((b.performAll (createEffects b.type name)).withStream (some ⟨name,[]⟩)) := by
  obtain ⟨type,objects,stream,faults,effects⟩ := b
  cases healthy
  cases closed
  cases type
  · rfl
  · simp only [createEffects, performAll, withStream, List.append_nil, replay, List.foldl_nil]
    rfl

theorem openStream_append (closed : b.stream = none) (found : b.objects.find? name = some content) :
    openStream name .append b =
      .ok content.length (b.withStream (some ⟨name,if b.type = .s3 then content else []⟩)) := by
  obtain ⟨type,objects,stream,faults,effects⟩ := b
  cases closed
  simp only at found
  simp only [openStream, Action.get_bind_run, found]
  rfl

/-- A write to a stream takes effect, unless the stream would become too long. -/
theorem writeDataToStream_eq (healthy : b.faults = []) (opened : b.stream = some stream) (data : Bytes) :
    if (b.written stream).length + data.length > maxStreamSize then
      ∃ failure, writeDataToStream data b = .error failure b
    else writeDataToStream data b = .ok () (b.streamed stream data) := by
  obtain ⟨type,objects,open_,faults,effects⟩ := b
  cases healthy
  cases opened
  cases type
  all_goals
    split
    · rename_i long
      simp only [written] at long
      simp [writeDataToStream,raiseIf,long]
    · rename_i short
      simp only [written] at short
      simp only [writeDataToStream, raiseIf, short, Action.get_bind_run]
      rfl

end Backend

section
variable (name other : CompositeBinlogName)

private theorem str_ne_of_last {text : Bytes} {c : UInt8} (last : text.getLast? = some c) (letter : isDigit c = false) :
    name.str ≠ text := by
  obtain ⟨d,ends,digit⟩ := name.str_getLast?
  rintro rfl
  simp_all

/-- The objects of the storage have names of their own. -/
@[simp] theorem str_ne_metadata : name.str ≠ generateBinlogMetadataName other :=
  str_ne_of_last name (c := 0x6E) (by rw [generateBinlogMetadataName, List.getLast?_append]; rfl) rfl

@[simp] theorem str_ne_index : name.str ≠ defaultBinlogIndexName := str_ne_of_last name (c := 0x78) rfl rfl

@[simp] theorem str_ne_metadataName : name.str ≠ metadataName := str_ne_of_last name (c := 0x6E) rfl rfl

@[simp] theorem generateBinlogMetadataName_ne_index : generateBinlogMetadataName name ≠ defaultBinlogIndexName := by
  intro same
  have last := congrArg List.getLast? same
  rw [generateBinlogMetadataName, List.getLast?_append] at last
  cases last

@[simp] theorem generateBinlogMetadataName_ne_metadataName : generateBinlogMetadataName name ≠ metadataName := by
  have split : metadataName = ascii "metadata" ++ binlogMetadataExtension := rfl
  rw [generateBinlogMetadataName, split, Ne, List.append_left_inj]
  exact str_ne_of_last name (c := 0x61) rfl rfl

end

theorem generateBinlogMetadataName_injective : Function.Injective generateBinlogMetadataName := fun _ _ same =>
  CompositeBinlogName.str_injective (List.append_left_injective _ same)

/-- What `write_event` is given, apart from the time; an event has at least its header. -/
structure EventEntry where
  data : Bytes
  nonempty : data ≠ []
  atTransactionBoundary : Bool
  transactionGtid : Gtid
  timestamp : UInt32
  sequenceNumber : UInt64
deriving DecidableEq

/-- The buffer after an event, with the gtids it then holds. -/
def EventBuffer.write (buffer : EventBuffer) (entry : EventEntry) (gtids : GtidSet) : EventBuffer :=
  let buffer := buffer.push entry.data entry.timestamp.toNat entry.sequenceNumber.toNat
  if entry.atTransactionBoundary then buffer.complete gtids else buffer

/-- The gtids that the buffer holds after the end of a transaction. -/
def EventBuffer.gtidsWith (buffer : EventBuffer) (mode : ReplicationMode) (gtid : Gtid) : Fallible GtidSet :=
  if mode = .gtid ∧ ¬ gtid.isEmpty then buffer.gtids.addGtid gtid else .ok buffer.gtids

namespace Storage

/-- `write_event` -/
def writeEntry [Externals] (entry : EventEntry) (now : Nat) : Action Storage Unit :=
  writeEvent entry.data entry.atTransactionBoundary entry.transactionGtid entry.timestamp.toNat
    entry.sequenceNumber.toNat now

@[simp] theorem onBackend_eq_ok {α : Type} {x : Action Backend α} {s t : Storage} {a : α} :
    onBackend x s = .ok a t ↔ ∃ b, x s.backend = .ok a b ∧ t = s.withBackend b := by
  unfold onBackend
  cases x s.backend <;> simp [eq_comm]

@[simp] theorem onBackend_eq_error {α : Type} {x : Action Backend α} {s t : Storage} {failure : Failure} :
    onBackend x s = .error failure t ↔ ∃ b, x s.backend = .error failure b ∧ t = s.withBackend b := by
  unfold onBackend
  cases x s.backend <;> simp [eq_comm]

@[simp] theorem withBuffer_withBuffer (s : Storage) (old new : EventBuffer) :
    (s.withBuffer old).withBuffer new = s.withBuffer new := rfl

@[simp] theorem withBackend_self (s : Storage) : s.withBackend s.backend = s := rfl

theorem ensureStreamingMode_eq_ok {s t : Storage} {u : Unit} :
    ensureStreamingMode s = .ok u t ↔ s.constructionMode = .streaming ∧ s = t := by
  simp [ensureStreamingMode,and_comm]

theorem updateCurrentRecord_eq {s : Storage} {record : BinlogRecord} (last : s.records.getLast? = some record)
    (f : BinlogRecord → BinlogRecord) : s.updateCurrentRecord f = s.withRecords (s.records.dropLast ++ [f record]) := by
  simp [updateCurrentRecord,last]

section
variable [Externals] {s t : Storage} {record : BinlogRecord} {stream : Stream}

/-- The storage after a flush, the metadata saved. -/
@[simps constructionMode backend replicationMode purgedGtids records checkpoint buffer] def flushed (s : Storage) (stream : Stream) (record : BinlogRecord) : Storage :=
  { s with
    backend := (s.backend.streamed stream s.buffer.transactionsData).perform
      (.put (generateBinlogMetadataName record.name) (BinlogFileMetadata.str (s.flushRecord record)))
    records := s.records.dropLast ++ [s.flushRecord record]
    buffer := s.buffer.flushed s.replicationMode }

theorem saveCurrentBinlogMetadata_ok (healthy : s.backend.faults = []) (last : s.records.getLast? = some record) :
    saveCurrentBinlogMetadata s = .ok () (s.withBackend (s.backend.perform
      (.put (generateBinlogMetadataName record.name) (BinlogFileMetadata.str record)))) := by
  rw [saveCurrentBinlogMetadata, Action.bind_of_ok Action.get_run, last]
  simp [saveBinlogMetadata,Backend.putObject_ok healthy]

/-- A flush is complete, or it raises and nothing has changed. -/
theorem flushEventBufferInternal_eq (healthy : s.backend.faults = []) (opened : s.backend.stream = some stream)
    (last : s.records.getLast? = some record) :
    if (s.backend.written stream).length + s.buffer.transactionsData.length > Backend.maxStreamSize then
      ∃ failure, flushEventBufferInternal s = .error failure s
    else flushEventBufferInternal s = .ok () (s.flushed stream record) := by
  have write := Backend.writeDataToStream_eq healthy opened s.buffer.transactionsData
  split
  · rename_i long
    rw [if_pos long] at write
    obtain ⟨failure,write⟩ := write
    exact ⟨failure,by simp [flushEventBufferInternal,onBackend,write]⟩
  · rename_i fits
    rw [if_neg fits] at write
    have append : onBackend (Backend.writeDataToStream s.buffer.transactionsData) s =
        .ok () (s.withBackend (s.backend.streamed stream s.buffer.transactionsData)) := by simp [onBackend,write]
    rw [flushEventBufferInternal, Action.bind_of_ok Action.get_run, Action.bind_of_ok append,
      Action.bind_of_ok (Action.modify_run _), updateCurrentRecord_eq (by simpa using last),
      Action.bind_of_ok (saveCurrentBinlogMetadata_ok (by simp [healthy]) (by simp; rfl))]
    rfl

/-- A flush that has written whole transactions. -/
structure Flushes (s : Storage) (stream : Stream) (record : BinlogRecord) (t : Storage) : Prop where
  some : s.buffer.hasEventDataToFlush = true
  fits : (s.backend.written stream).length + s.buffer.transactionsData.length ≤ Backend.maxStreamSize
  result : t = s.flushed stream record

theorem flushEventBufferInternal_ok (healthy : s.backend.faults = []) (opened : s.backend.stream = some stream)
    (last : s.records.getLast? = some record) (some : s.buffer.hasEventDataToFlush = true) {u : Unit}
    (run : flushEventBufferInternal s = .ok u t) : Flushes s stream record t := by
  have flush := flushEventBufferInternal_eq healthy opened last
  split at flush
  · obtain ⟨failure,flush⟩ := flush
    cases flush.symm.trans run
  · rename_i fits
    cases flush.symm.trans run
    exact ⟨some,not_lt.mp fits,rfl⟩

theorem flushEventBuffer_ok (healthy : s.backend.faults = []) (opened : s.backend.stream = some stream)
    (last : s.records.getLast? = some record) {u : Unit} (run : flushEventBuffer s = .ok u t) :
    t = s ∧ s.buffer.hasEventDataToFlush = false ∨ Flushes s stream record t := by
  simp only [flushEventBuffer, Action.bind_eq_ok, ensureStreamingMode_eq_ok, Action.get_eq_ok] at run
  obtain ⟨_,_,⟨-,rfl⟩,_,_,⟨rfl,rfl⟩,run⟩ := run
  split at run
  · rename_i some
    exact .inr (flushEventBufferInternal_ok healthy opened last some run)
  · rename_i none
    exact .inl ⟨(Action.pure_eq_ok.mp run).2.symm,by simpa using none⟩

/-- What a flush leaves behind, whether it has raised or not. -/
theorem flushEventBuffer_after (healthy : s.backend.faults = []) (opened : s.backend.stream = some stream)
    (last : s.records.getLast? = some record) :
    flushEventBuffer.after s = s ∨ Flushes s stream record (flushEventBuffer.after s) := by
  unfold Action.after
  split
  · rename_i t ran
    exact (flushEventBuffer_ok healthy opened last ran).imp_left And.left
  · rename_i failure t ran
    left
    simp only [flushEventBuffer, Action.bind_eq_error, Action.bind_eq_ok, ensureStreamingMode, Action.get_eq_ok,
      Action.get_ne_error, Action.lift_eq_error, Action.lift_eq_ok, false_or] at ran
    rcases ran with ⟨_,_,⟨rfl,rfl⟩,-,rfl⟩ | ⟨_,_,⟨_,_,⟨rfl,rfl⟩,-,rfl⟩,_,_,⟨rfl,rfl⟩,ran⟩
    · rfl
    · split at ran
      · have flush := flushEventBufferInternal_eq healthy opened last
        split at flush
        · obtain ⟨failure,flush⟩ := flush
          cases flush.symm.trans ran
          rfl
        · cases flush.symm.trans ran
      · cases ran

/-- Where no transaction is ready, a flush does nothing. -/
theorem flushEventBuffer_idle (idle : s.buffer.lastTransactionBoundaryPosition = 0) : flushEventBuffer.after s = s := by
  have none : ¬ s.buffer.hasEventDataToFlush = true := by simp [EventBuffer.hasEventDataToFlush,idle]
  by_cases streaming : s.constructionMode = .streaming
  · refine Action.after_ok (a := ()) ?_
    rw [flushEventBuffer, Action.bind_of_ok (ensureStreamingMode_eq_ok (u := ()) |>.mpr ⟨streaming,rfl⟩),
      Action.bind_of_ok Action.get_run, if_neg none]
    rfl
  · have raised : ∃ failure, flushEventBuffer s = .error failure s := by
      simp [flushEventBuffer,ensureStreamingMode,raiseIf,streaming]
    obtain ⟨failure,raised⟩ := raised
    exact Action.after_error raised

theorem checkpointIfNeeded_ok (healthy : s.backend.faults = []) (opened : s.backend.stream = some stream)
    (last : s.records.getLast? = some record) {now : Nat} {u : Unit} (run : checkpointIfNeeded now s = .ok u t) :
    ∃ m checkpoint, (m = s ∨ Flushes s stream record m) ∧ t = m.withCheckpoint checkpoint := by
  simp only [checkpointIfNeeded, Action.bind_eq_ok, Action.get_eq_ok] at run
  obtain ⟨_,_,⟨rfl,rfl⟩,run⟩ := run
  split at run
  · rename_i needed
    simp only [Action.bind_eq_ok, Action.modify_eq_ok] at run
    obtain ⟨_,m,ran,rfl⟩ := run
    exact ⟨m,_,.inr (flushEventBufferInternal_ok healthy opened last needed.1 ran),rfl⟩
  · exact ⟨s,s.checkpoint,.inl rfl,(Action.pure_eq_ok.mp run).2.symm⟩

/-- An event goes into the buffer, and then a checkpoint may be due. -/
theorem writeEntry_ok {entry : EventEntry} {now : Nat} {u : Unit} (run : writeEntry entry now s = .ok u t) :
    ∃ gtids, (entry.atTransactionBoundary = true →
        s.buffer.gtidsWith s.replicationMode entry.transactionGtid = .ok gtids) ∧
      checkpointIfNeeded now (s.withBuffer (s.buffer.write entry gtids)) = .ok () t := by
  simp only [writeEntry, writeEvent, Action.bind_eq_ok, ensureStreamingMode_eq_ok, Action.get_eq_ok,
    Action.lift_eq_ok, Action.modify_eq_ok] at run
  obtain ⟨_,_,⟨-,rfl⟩,_,_,⟨rfl,rfl⟩,_,_,⟨-,rfl⟩,_,_,rfl,run⟩ := run
  cases boundary : entry.atTransactionBoundary with
  | false =>
    refine ⟨.empty,by simp,?_⟩
    simpa [boundary,EventBuffer.write] using run
  | true =>
    simp only [boundary, if_true, Action.bind_eq_ok, Action.get_eq_ok] at run
    obtain ⟨_,_,⟨rfl,rfl⟩,run⟩ := run
    unfold EventBuffer.gtidsWith
    split at run
    · rename_i counted
      simp only [Action.bind_eq_ok, Action.lift_eq_ok, Action.modify_eq_ok] at run
      obtain ⟨gtids,_,⟨added,rfl⟩,_,_,rfl,run⟩ := run
      exact ⟨gtids,fun _ => (if_pos counted).trans added,by simpa [EventBuffer.write,boundary] using run⟩
    · rename_i uncounted
      simp only [Action.bind_eq_ok, Action.pure_eq_ok, Action.modify_eq_ok] at run
      obtain ⟨gtids,_,⟨rfl,rfl⟩,_,_,rfl,run⟩ := run
      exact ⟨s.buffer.gtids,fun _ => if_neg uncounted,by simpa [EventBuffer.write,boundary] using run⟩

theorem closeBinlog_ok {now : Nat} {u : Unit} (run : closeBinlog now s = .ok u t) :
    ∃ m checkpoint, flushEventBuffer s = .ok () m ∧ m.isBinlogOpen = true ∧
      t = ((m.withBuffer m.buffer.cleared).withBackend (m.backend.withStream none)).withCheckpoint checkpoint := by
  simp only [closeBinlog, Action.bind_eq_ok, ensureStreamingMode_eq_ok, Action.modify_eq_ok, onBackend_eq_ok,
    Backend.closeStream, Action.get_eq_ok, Action.lift_eq_ok, raiseIf_eq_ok, updateLastCheckpointInfo] at run
  obtain ⟨_,_,⟨-,rfl⟩,_,m,flush,_,_,rfl,_,_,⟨_,⟨_,_,⟨rfl,rfl⟩,_,_,⟨opened,rfl⟩,rfl⟩,rfl⟩,rfl⟩ := run
  exact ⟨m,_,flush,by simpa [isBinlogOpen] using opened,rfl⟩

/-- The backend when the magic has been written to a new file. -/
@[simps!] def startFile (b : Backend) (name : Bytes) : Backend :=
  ((b.performAll (Backend.createEffects b.type name)).withStream (some ⟨name,[]⟩)).streamed ⟨name,[]⟩ magicBinlogPayload

omit [Externals] in
theorem find?_startFile (b : Backend) (name key : Bytes) :
    (startFile b name).objects.find? key = if key = name then some magicBinlogPayload else b.objects.find? key := by
  rw [startFile, Backend.find?_streamed]
  obtain ⟨type,objects,opened,faults,effects⟩ := b
  cases type
  · by_cases same : key = name <;>
      simp [same,Backend.written,Backend.createEffects,replay,Effect.apply,SortedMap.find?_insert]
  · simp [Backend.written,Backend.createEffects,replay]

omit [Externals] in
theorem written_startFile (b : Backend) (name : Bytes) :
    (startFile b name).written (Backend.Stream.extended b.type ⟨name,[]⟩ magicBinlogPayload) = magicBinlogPayload := by
  have found := find?_startFile b name name
  rw [if_pos rfl] at found
  obtain ⟨type,objects,opened,faults,effects⟩ := b
  cases type
  · exact congrArg (Option.getD · []) found
  · rfl

/-- The storage after a new file has been opened. -/
@[simps constructionMode backend replicationMode purgedGtids records checkpoint buffer] def created (s : Storage) (name : CompositeBinlogName) : Storage :=
  { s with
    backend := ((startFile s.backend name.str).perform
        (.put (generateBinlogMetadataName name) (BinlogFileMetadata.str (s.newRecord name)))).perform
      (.put defaultBinlogIndexName (indexText (s.records ++ [s.newRecord name])))
    records := s.records ++ [s.newRecord name]
    buffer := s.buffer.restarted 0 }

/-- The storage after the last file has been opened again. -/
@[simps constructionMode backend replicationMode purgedGtids records checkpoint buffer] def reopened (s : Storage) (record : BinlogRecord) (content : Bytes) : Storage :=
  { s with
    backend := s.backend.withStream (some ⟨record.name.str,if s.backend.type = .s3 then content else []⟩)
    buffer := s.buffer.restarted record.lastSequenceNumber }

omit [Externals] in
private theorem startFile_ok {b : Backend} (healthy : b.faults = []) (name : Bytes) :
    Backend.writeDataToStream magicBinlogPayload
      ((b.performAll (Backend.createEffects b.type name)).withStream (some ⟨name,[]⟩)) = .ok () (startFile b name) := by
  have write := @Backend.writeDataToStream_eq
    ((b.performAll (Backend.createEffects b.type name)).withStream (some ⟨name,[]⟩)) ⟨name,[]⟩ healthy rfl
    magicBinlogPayload
  rwa [if_neg] at write
  obtain ⟨type,objects,stream,faults,effects⟩ := b
  cases type
  · simp [Backend.written,Backend.createEffects,replay,Effect.apply,SortedMap.find?_insert,Backend.maxStreamSize,
      magicBinlogPayload]
  · simp [Backend.written,Backend.maxStreamSize,magicBinlogPayload]

theorem openNewBinlogFileInternal_ok (healthy : s.backend.faults = []) (name : CompositeBinlogName) :
    openNewBinlogFileInternal name (s.withBackend
      ((s.backend.performAll (Backend.createEffects s.backend.type name.str)).withStream (some ⟨name.str,[]⟩))) =
    .ok .created ((s.created name).withBuffer s.buffer) := by
  have magic := startFile_ok healthy name.str
  rw [openNewBinlogFileInternal, Action.bind_of_ok (onBackend_eq_ok.mpr ⟨_,magic,rfl⟩),
    Action.bind_of_ok (Action.modify_run _),
    Action.bind_of_ok (saveCurrentBinlogMetadata_ok (by simp [healthy]) (by simp; rfl)), saveBinlogIndex]
  simp only [Action.bind_eq_ok, Action.get_eq_ok, onBackend_eq_ok, Action.pure_eq_ok]
  exact ⟨(),_,⟨_,_,⟨rfl,rfl⟩,_,Backend.putObject_ok (by simp [healthy]) _ _,rfl⟩,trivial,rfl⟩

/-- A file that is opened is a new one, or the last one that is opened again. -/
theorem openBinlog_ok {name : CompositeBinlogName} {now : Nat} {status : OpenBinlogStatus}
    (healthy : s.backend.faults = []) (run : openBinlog name now s = .ok status t) :
    s.backend.stream = none ∧
    ((∀ record ∈ s.records, record.name ≠ name) ∧ (∃ checkpoint, t = (s.created name).withCheckpoint checkpoint) ∨
      ∃ record, s.records.getLast? = some record ∧ record.name = name ∧
        ∀ content, s.backend.objects.find? name.str = some content → magicBinlogOffset ≤ content.length →
          ∃ checkpoint, t = (s.reopened record content).withCheckpoint checkpoint) := by
  simp only [openBinlog, Action.bind_eq_ok, ensureStreamingMode_eq_ok, Action.get_eq_ok, Action.lift_eq_ok,
    raiseIf_eq_ok, onBackend_eq_ok] at run
  obtain ⟨_,_,⟨-,rfl⟩,_,_,⟨rfl,rfl⟩,_,_,⟨latest,rfl⟩,_,_,⟨-,rfl⟩,offset,_,⟨b,opened,rfl⟩,run⟩ := run
  have closed := Backend.openStream_closed opened
  refine ⟨closed,?_⟩
  cases known : s.records.any (·.name = name) with
  | false =>
    rw [known] at opened run
    simp only [Bool.false_eq_true, if_false] at opened run
    cases (Backend.openStream_create healthy closed name.str).symm.trans opened
    rw [Action.bind_of_ok (openNewBinlogFileInternal_ok healthy name), Action.bind_of_ok (Action.modify_run _),
      updateLastCheckpointInfo, Action.bind_of_ok (Action.modify_run _), Action.pure_eq_ok] at run
    exact .inl ⟨by simpa using known,_,run.2.symm⟩
  | true =>
    rw [known] at opened run latest
    simp only [if_true, true_and, not_not] at opened run latest
    obtain ⟨current,last⟩ : ∃ record, s.records.getLast? = some record := by
      cases shape : s.records.getLast? with
      | none => simp [List.getLast?_eq_none_iff.mp shape] at known
      | some record => exact ⟨record,rfl⟩
    obtain rfl : current.name = name := by simp [latest,getCurrentBinlogName,last]
    refine .inr ⟨current,last,rfl,fun content found long => ?_⟩
    cases (Backend.openStream_append closed found).symm.trans opened
    rw [openExistingBinlogFileInternal, if_pos long, Action.bind_of_ok (Action.pure_eq_ok.mpr ⟨rfl,rfl⟩),
      Action.bind_of_ok (Action.modify_run _), updateLastCheckpointInfo, Action.bind_of_ok (Action.modify_run _),
      Action.pure_eq_ok] at run
    simp only [lastSequenceNumberOf, if_true, withBackend_records, last, Option.map_some, Option.getD_some] at run
    exact ⟨_,run.2.symm⟩

/-- A storage that is not for streaming is destroyed without a flush. -/
theorem destroy_purging (purging : s.constructionMode = .purging) : s.destroy = s.backend.withStream none := by
  simp [destroy,purging]
  rfl

/-- The objects of the files that are purged. -/
def purgeNames (removed : List BinlogRecord) : List Bytes :=
  removed.flatMap fun victim => [generateBinlogMetadataName victim.name,victim.name.str]

/-- The storage after a purge: the index is saved first. -/
@[simps constructionMode backend replicationMode purgedGtids records checkpoint buffer]
def purged (s : Storage) (removed kept : List BinlogRecord) : Storage :=
  { s with
    backend := s.backend.performAll (.put defaultBinlogIndexName (indexText kept) :: (purgeNames removed).map .remove)
    records := kept }

omit [Externals] in
theorem mem_purgeNames {removed : List BinlogRecord} {name : Bytes} : name ∈ purgeNames removed ↔
    ∃ victim ∈ removed, name = generateBinlogMetadataName victim.name ∨ name = victim.name.str := by
  simp [purgeNames]

omit [Externals] in
theorem purgeNames_nodup {removed : List BinlogRecord} (distinct : (removed.map BinlogRecord.name).Nodup) :
    (purgeNames removed).Nodup := by
  induction removed with
  | nil => exact List.nodup_nil
  | cons first rest ih =>
    obtain ⟨fresh,distinct⟩ := List.nodup_cons.mp distinct
    have names : purgeNames (first :: rest) =
        [generateBinlogMetadataName first.name,first.name.str] ++ purgeNames rest := rfl
    rw [names, List.nodup_append]
    refine ⟨by simpa using (str_ne_metadata first.name first.name).symm,ih distinct,?_⟩
    rintro name here _ there rfl
    obtain ⟨victim,member,other⟩ := mem_purgeNames.mp there
    have differ : first.name ≠ victim.name := fun same => fresh (same ▸ List.mem_map_of_mem member)
    simp only [List.mem_cons, List.not_mem_nil, or_false] at here
    rcases here with rfl | rfl <;> rcases other with same | same
    · exact differ (generateBinlogMetadataName_injective same)
    · exact str_ne_metadata _ _ same.symm
    · exact str_ne_metadata _ _ same
    · exact differ (CompositeBinlogName.str_injective same)

omit [Externals] in
theorem index_notMem_purgeNames (removed : List BinlogRecord) : defaultBinlogIndexName ∉ purgeNames removed := by
  intro victim
  obtain ⟨record,-,same | same⟩ := mem_purgeNames.mp victim
  · exact generateBinlogMetadataName_ne_index record.name same.symm
  · exact str_ne_index record.name same.symm

omit [Externals] in
theorem metadataName_notMem_purgeNames (removed : List BinlogRecord) : metadataName ∉ purgeNames removed := by
  intro victim
  obtain ⟨record,-,same | same⟩ := mem_purgeNames.mp victim
  · exact generateBinlogMetadataName_ne_metadataName record.name same.symm
  · exact str_ne_metadataName record.name same.symm

omit [Externals] in
/-- The objects of the files that are kept are not removed. -/
theorem kept_notMem_purgeNames {removed kept : List BinlogRecord}
    (distinct : ((removed ++ kept).map BinlogRecord.name).Nodup) {record : BinlogRecord}
    (member : record ∈ kept) :
    record.name.str ∉ purgeNames removed ∧ generateBinlogMetadataName record.name ∉ purgeNames removed := by
  have differ : ∀ victim ∈ removed, victim.name ≠ record.name := by
    intro victim gone
    rw [List.map_append, List.nodup_append] at distinct
    exact distinct.2.2 _ (List.mem_map_of_mem gone) _ (List.mem_map_of_mem member)
  constructor
  · intro there
    obtain ⟨victim,gone,same | same⟩ := mem_purgeNames.mp there
    · exact str_ne_metadata _ _ same
    · exact differ victim gone (CompositeBinlogName.str_injective same.symm)
  · intro there
    obtain ⟨victim,gone,same | same⟩ := mem_purgeNames.mp there
    · exact differ victim gone (generateBinlogMetadataName_injective same.symm)
    · exact str_ne_metadata _ _ same.symm

omit [Externals] in
theorem find?_purged (s : Storage) (removed kept : List BinlogRecord) (key : Bytes) :
    (s.purged removed kept).backend.objects.find? key =
      if key ∈ purgeNames removed then none
      else if key = defaultBinlogIndexName then some (indexText kept) else s.backend.objects.find? key := by
  rw [purged_backend, Backend.performAll_cons, Backend.performAll_objects, Backend.find?_replay_remove,
    Backend.perform_objects, Backend.find?_put]

omit [Externals] in
/-- Only files that there are can be purged, and only in purging mode. -/
theorem purgeBinlogs_purging {target : CompositeBinlogName} {result : List BinlogRecord × String}
    (run : purgeBinlogs target s = .ok result t) : s.constructionMode = .purging ∧ s.records ≠ [] := by
  simp only [purgeBinlogs, ensurePurgingMode, Action.bind_eq_ok, Action.get_eq_ok, Action.lift_eq_ok,
    raiseIf_eq_ok] at run
  obtain ⟨_,_,⟨_,_,⟨rfl,rfl⟩,purging,rfl⟩,_,_,⟨rfl,rfl⟩,_,_,⟨some,rfl⟩,-⟩ := run
  exact ⟨not_not.mp purging,by simpa [isEmpty] using some⟩

omit [Externals] in
private theorem removeVictims_ok {names : List Bytes} {b : Backend}
    (removed : Backend.removeObjects names s.backend = .ok () b) : removeVictims names s = .ok "" (s.withBackend b) := by
  simp [removeVictims,onBackend,removed]

omit [Externals] in
/-- A purge that returns has removed the files up to its target, and at least one file is left. -/
theorem purgeBinlogs_ok (healthy : s.backend.faults = []) {target : CompositeBinlogName}
    {result : List BinlogRecord × String} (distinct : (s.records.map BinlogRecord.name).Nodup)
    (present : ∀ victim ∈ s.records, ∀ name ∈ [generateBinlogMetadataName victim.name,victim.name.str],
      s.backend.objects.find? name ≠ none)
    (run : purgeBinlogs target s = .ok result t) :
    ∃ kept, s.records = result.1 ++ kept ∧ result.1 ≠ [] ∧ kept ≠ [] ∧ t = s.purged result.1 kept := by
  simp only [purgeBinlogs, ensurePurgingMode, saveBinlogIndex, Action.bind_eq_ok, Action.get_eq_ok, Action.lift_eq_ok,
    raiseIf_eq_ok, Action.modify_eq_ok, onBackend_eq_ok, Action.pure_eq_ok] at run
  obtain ⟨_,_,⟨_,_,⟨rfl,rfl⟩,-,rfl⟩,_,_,⟨rfl,rfl⟩,_,_,⟨-,rfl⟩,_,_,⟨-,rfl⟩,_,_,⟨found,rfl⟩,_,_,⟨tail,rfl⟩,_,_,rfl,
    _,_,⟨_,_,⟨rfl,rfl⟩,_,put,rfl⟩,warning,_,remove,rfl,rfl⟩ := run
  cases (Backend.putObject_ok healthy _ _).symm.trans put
  have bound : s.records.findIdx (fun x => decide (x.name = target)) ≤ s.records.length := List.findIdx_le_length
  generalize s.records.findIdx (fun x => decide (x.name = target)) = position at found tail remove bound
  have short : position + 1 < s.records.length := by omega
  refine ⟨s.records.drop (position + 1),(List.take_append_drop _ _).symm,?_,?_,?_⟩
  · simp only [ne_eq, List.take_eq_nil_iff, not_or]
    exact ⟨by omega,fun none => by simp [none] at short⟩
  · simpa using short
  · have victims : ∀ victim ∈ s.records.take (position + 1), victim ∈ s.records := fun _ => List.mem_of_mem_take
    have removed := Backend.removeObjects_ok
      (b := s.backend.perform (.put defaultBinlogIndexName (indexText (s.records.drop (position + 1))))) healthy
      (purgeNames_nodup (distinct.sublist ((List.take_sublist _ _).map _))) (by
        intro name member
        obtain ⟨victim,inside,shape⟩ := mem_purgeNames.mp member
        have there := present victim (victims victim inside) name (by simpa using shape)
        have other : name ≠ defaultBinlogIndexName := by
          rcases shape with rfl | rfl <;> simp
        simpa [Backend.find?_put,other] using there)
    have ran := removeVictims_ok (s := (s.withRecords (s.records.drop (position + 1))).withBackend _) removed
    cases ran.symm.trans remove
    rw [purged, Backend.performAll_cons]
    rfl

end
end Storage
end BinlogServer.Store
