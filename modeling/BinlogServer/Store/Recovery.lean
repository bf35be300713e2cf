import BinlogServer.Store.Refinement

/-!
# What is restored after a crash

The files, their metadata and the index are saved one after the other. Whatever the process has got to when it is
killed, a storage that can be constructed over what it left has the records of the last operation that was
completed: the records are what the index and the metadata say, an operation changes them with its last call, and
while the victims of a purge are not all removed no storage can be constructed at all.
-/

namespace BinlogServer.Store
open ByteString Util Gtids Events

namespace Storage

section
variable [Externals] {s t : Storage}

/-- What is stored and recorded is the same. -/
structure SameStore (s t : Storage) : Prop where
  objects : t.backend.objects = s.backend.objects
  effects : t.backend.effects = s.backend.effects
  records : t.records = s.records
  purged : s.purgedGtids.Valid → t.purgedGtids.Valid

/-- What an operation can do to what is stored. -/
inductive Outcome (s t : Storage) : Prop where
  | quiet (same : SameStore s t)
  | flush {m : Storage} {log : FileLog} {record : BinlogRecord} {stream : Stream}
      {journal : Journal EventEntry.atTransactionBoundary} (before : SameStore s m) (sound : Sound m)
      (journaled : Journaled m log record stream journal) (flush : Sound (m.flushed stream record))
      (after : SameStore (m.flushed stream record) t)
  | create {name : CompositeBinlogName} (new : ∀ record ∈ s.records, record.name ≠ name)
      (after : SameStore (s.created name) t)

private theorem outcome_flushes {m m' : Storage} {log : FileLog} {record : BinlogRecord} {stream : Stream}
    {journal : Journal EventEntry.atTransactionBoundary} (before : SameStore s m) (sound : Sound m)
    (journaled : Journaled m log record stream journal) (flush : m' = m ∨ Flushes m stream record m')
    (after : SameStore m' t) : Outcome s t := by
  rcases flush with rfl | flush
  · exact .quiet ⟨after.objects.trans before.objects,after.effects.trans before.effects,
      after.records.trans before.records,after.purged ∘ before.purged⟩
  · have next := sound.flushed journaled flush
    obtain ⟨-,-,rfl⟩ := flush
    exact .flush before sound journaled next after

theorem Tracked.outcome {log : Option FileLog} (tracked : Tracked s log) {operation : Operation} {now : Nat} {u : Unit}
    (allowed : operation.allowed s = true) (returned : operation.run now s = .ok u t) : Outcome s t := by
  have sound := tracked.sound
  cases operation with
  | setPurgedGtids gtids valid =>
    simp only [Operation.run, Storage.setPurgedGtids, Action.bind_eq_ok, Action.get_eq_ok, Action.lift_eq_ok,
      Action.modify_eq_ok] at returned
    obtain ⟨_,_,⟨rfl,rfl⟩,_,_,⟨-,rfl⟩,_,_,⟨-,rfl⟩,rfl⟩ := returned
    exact .quiet ⟨rfl,rfl,rfl,fun _ => valid⟩
  | openBinlog name =>
    simp only [Operation.run, Action.bind_eq_ok] at returned
    obtain ⟨status,_,run,rest⟩ := returned
    cases rest
    obtain ⟨-,⟨new,checkpoint,rfl⟩ | ⟨record,last,rfl,opened⟩⟩ := openBinlog_ok sound.healthy run
    · exact .create new ⟨rfl,rfl,rfl,id⟩
    · obtain ⟨content,found,-⟩ := (sound.current record last).file
      obtain ⟨checkpoint,rfl⟩ := opened content found (sound.files record.name content found)
      exact .quiet ⟨rfl,rfl,rfl,id⟩
  | writeEvent entry =>
    cases log with
    | none => simp [Operation.allowed,isBinlogOpen,Backend.isStreamOpen,tracked.2.closed] at allowed
    | some log =>
      obtain ⟨-,record,stream,journal,journaled⟩ := tracked
      obtain ⟨gtids,added,run⟩ := writeEntry_ok returned
      have written := journaled.write entry added
      obtain ⟨m,checkpoint,flush,rfl⟩ := checkpointIfNeeded_ok (s := s.withBuffer (s.buffer.write entry gtids))
        sound.healthy written.opened written.last run
      exact outcome_flushes (m := s.withBuffer (s.buffer.write entry gtids)) ⟨rfl,rfl,rfl,id⟩
        (sound.withBuffer (sound.buffer.write entry added)) written flush ⟨rfl,rfl,rfl,id⟩
  | discardIncompleteTransactionEvents =>
    simp only [Operation.run, Storage.discardIncompleteTransactionEvents, Action.bind_eq_ok, ensureStreamingMode_eq_ok,
      Action.modify_eq_ok] at returned
    obtain ⟨_,_,⟨-,rfl⟩,rfl⟩ := returned
    exact .quiet ⟨rfl,rfl,rfl,id⟩
  | flushEventBuffer =>
    cases log with
    | none =>
      obtain rfl : t = s := (Action.after_ok returned).symm.trans (flushEventBuffer_idle tracked.2.boundary)
      exact .quiet ⟨rfl,rfl,rfl,id⟩
    | some log =>
      obtain ⟨-,record,stream,journal,journaled⟩ := tracked
      exact outcome_flushes ⟨rfl,rfl,rfl,id⟩ sound journaled
        ((flushEventBuffer_ok sound.healthy journaled.opened journaled.last returned).imp_left And.left) ⟨rfl,rfl,rfl,id⟩
  | closeBinlog =>
    obtain ⟨m,checkpoint,flush,opened,rfl⟩ := closeBinlog_ok returned
    cases log with
    | none =>
      obtain rfl : m = s := (Action.after_ok flush).symm.trans (flushEventBuffer_idle tracked.2.boundary)
      exact .quiet ⟨rfl,rfl,rfl,id⟩
    | some log =>
      obtain ⟨-,record,stream,journal,journaled⟩ := tracked
      exact outcome_flushes ⟨rfl,rfl,rfl,id⟩ sound journaled
        ((flushEventBuffer_ok sound.healthy journaled.opened journaled.last flush).imp_left And.left) ⟨rfl,rfl,rfl,id⟩

/-- The index and the metadata say what the records are. -/
structure Consistent (s : Storage) : Prop where
  index : s.backend.objects.find? defaultBinlogIndexName = if s.records = [] then none else some (indexText s.records)
  documents : ∀ record ∈ s.records, ∃ document,
    s.backend.objects.find? (generateBinlogMetadataName record.name) = some document ∧
      BinlogFileMetadata.parse record.name document = .ok record
  distinct : (s.records.map BinlogRecord.name).Nodup
  valid : ∀ record ∈ s.records, record.Valid
  purged : s.purgedGtids.Valid

theorem Consistent.same (consistent : Consistent s) (same : SameStore s t) : Consistent t := by
  obtain ⟨objects,-,records,purged⟩ := same
  exact ⟨by rw [objects, records]; exact consistent.index,by rw [objects, records]; exact consistent.documents,
    by rw [records]; exact consistent.distinct,by rw [records]; exact consistent.valid,purged consistent.purged⟩

omit [Externals] in
theorem indexText_congr {records others : List BinlogRecord}
    (names : records.map BinlogRecord.name = others.map BinlogRecord.name) : indexText records = indexText others := by
  have text : ∀ list : List BinlogRecord, indexText list =
      (list.map BinlogRecord.name).flatMap fun name => ascii "./" ++ name.str ++ [0x0A] := by
    intro list
    rw [indexText, List.flatMap_map]
  rw [text, text, names]

theorem Consistent.getGtids_valid (consistent : Consistent s) : s.getGtids.Valid := by
  unfold getGtids
  split
  · split
    · exact consistent.purged
    · rename_i record last
      have valid := consistent.valid record (List.mem_of_getLast? last)
      have previous : (record.previousGtids.getD .empty).Valid := by
        cases held : record.previousGtids with
        | none => exact GtidSet.valid_empty
        | some gtids => exact valid.previousGtids gtids held
      split
      · exact previous
      · rename_i added some
        exact previous.add (valid.addedGtids added some)
  · exact GtidSet.valid_empty

theorem Consistent.created (consistent : Consistent s) {name : CompositeBinlogName}
    (new : ∀ record ∈ s.records, record.name ≠ name) : Consistent (s.created name) := by
  have valid : (s.newRecord name).Valid := by
    refine ⟨⟨by simp [newRecord,magicBinlogOffset],TimestampRange.bounded_empty,by simp [newRecord]⟩,?_,?_⟩
    · intro gtids member
      simp only [newRecord] at member
      split at member <;> cases member
      exact consistent.getGtids_valid
    · intro gtids member
      simp only [newRecord] at member
      split at member <;> cases member
      exact GtidSet.valid_empty
  refine ⟨?_,fun record member => ?_,?_,fun record member => ?_,consistent.purged⟩
  · simp [Backend.find?_put]
  · rw [find?_created name (by simp)]
    rcases List.mem_append.mp (created_records s name ▸ member) with old | last
    · have other : generateBinlogMetadataName record.name ≠ generateBinlogMetadataName name :=
        fun same => new record old (generateBinlogMetadataName_injective same)
      rw [if_neg other, if_neg (str_ne_metadata _ _).symm]
      exact consistent.documents record old
    · obtain rfl := List.mem_singleton.mp last
      exact ⟨_,if_pos rfl,BinlogFileMetadata.parse_str valid⟩
  · rw [created_records, List.map_append, List.nodup_append]
    refine ⟨consistent.distinct,by simp,?_⟩
    intro known member other single same
    obtain ⟨record,old,rfl⟩ := List.mem_map.mp member
    exact new record old (same.trans (by simpa [newRecord] using single))
  · rcases List.mem_append.mp (created_records s name ▸ member) with old | last
    · exact consistent.valid record old
    · rw [List.mem_singleton.mp last]
      exact valid

omit [Externals] in
theorem dropLast_append_last {record : BinlogRecord} (last : s.records.getLast? = some record) :
    s.records = s.records.dropLast ++ [record] := by
  obtain ⟨front,shape⟩ := List.getLast?_eq_some_iff.mp last
  simp [shape]

/-- The objects after a flush, other than the file and its metadata. -/
theorem find?_flushed {log : FileLog} {record : BinlogRecord} {stream : Stream}
    {journal : Journal EventEntry.atTransactionBoundary} (journaled : Journaled s log record stream journal) (key : Bytes) :
    (s.flushed stream record).backend.objects.find? key =
      if key = generateBinlogMetadataName record.name then some (BinlogFileMetadata.str (s.flushRecord record))
      else if key = record.name.str then some (s.backend.written stream ++ s.buffer.transactionsData)
      else s.backend.objects.find? key := by
  rw [flushed_backend, Backend.perform_objects, Backend.find?_put, Backend.find?_streamed, journaled.name]

theorem Consistent.flushed {log : FileLog} {record : BinlogRecord} {stream : Stream}
    {journal : Journal EventEntry.atTransactionBoundary} (consistent : Consistent s) (sound : Sound s)
    (journaled : Journaled s log record stream journal) (flush : Sound (s.flushed stream record)) :
    Consistent (s.flushed stream record) := by
  have shape := dropLast_append_last journaled.last
  have names : (s.flushed stream record).records.map BinlogRecord.name = s.records.map BinlogRecord.name := by
    rw [flushed_records, shape]
    simp [flushRecord]
  have current : record ∈ s.records := List.mem_of_getLast? journaled.last
  have old := consistent.valid record current
  have valid : (s.flushRecord record).Valid := by
    refine ⟨(flush.current _ (by simp)).bounded,old.previousGtids,fun gtids member => ?_⟩
    simp only [flushRecord] at member
    split at member
    · obtain ⟨added,held,rfl⟩ := Option.map_eq_some_iff.mp member
      exact (old.addedGtids added held).add sound.buffer.gtids
    · exact old.addedGtids gtids member
  refine ⟨?_,fun other member => ?_,by rw [names]; exact consistent.distinct,fun other member => ?_,consistent.purged⟩
  · rw [find?_flushed journaled, if_neg (generateBinlogMetadataName_ne_index _).symm,
      if_neg (str_ne_index _).symm, consistent.index, indexText_congr names]
    simp [List.ne_nil_of_mem current]
  · rw [find?_flushed journaled]
    rcases List.mem_append.mp (flushed_records s stream record ▸ member) with front | last
    · have differ : other.name ≠ record.name := by
        have distinct := consistent.distinct
        rw [shape, List.map_append, List.nodup_append] at distinct
        exact distinct.2.2 _ (List.mem_map_of_mem front) _ (by simp)
      rw [if_neg fun same => differ (generateBinlogMetadataName_injective same), if_neg (str_ne_metadata _ _).symm]
      exact consistent.documents other (List.dropLast_subset _ front)
    · obtain rfl := List.mem_singleton.mp last
      exact ⟨_,if_pos rfl,BinlogFileMetadata.parse_str valid⟩
  · rcases List.mem_append.mp (flushed_records s stream record ▸ member) with front | last
    · exact consistent.valid other (List.dropLast_subset _ front)
    · rw [List.mem_singleton.mp last]
      exact valid

/-- Where the index and the metadata are as they were, the records are restored. -/
theorem Consistent.restores (consistent : Consistent s) {mode : ReplicationMode} {checkpoint : Checkpoint} {b : Backend}
    (index : b.objects.find? defaultBinlogIndexName = s.backend.objects.find? defaultBinlogIndexName)
    (metadata : ∀ record ∈ s.records, b.objects.find? (generateBinlogMetadataName record.name) =
      s.backend.objects.find? (generateBinlogMetadataName record.name))
    {constructionMode : ConstructionMode} (checked : constructionMode ≠ .queryingOnly) {u : Unit} {r : Storage}
    (constructed : construct constructionMode mode checkpoint b = .ok u r) : r.records = s.records := by
  have nothing : (∀ name ∈ b.objects.keys, name = metadataName) → s.records = [] := by
    intro only
    cases records : s.records with
    | nil => rfl
    | cons record rest =>
      have member : record ∈ s.records := by simp [records]
      obtain ⟨document,found,-⟩ := consistent.documents record member
      have present := only (generateBinlogMetadataName record.name)
        (SortedMap.mem_keys.mpr (by simp [metadata record member,found]))
      exact absurd present (generateBinlogMetadataName_ne_metadataName _)
  rcases construct_ok checked constructed with ⟨empty,made⟩ | ⟨-,⟨only,rfl⟩ | ⟨records,restored,rfl⟩⟩
  · rw [nothing (by simp [SortedMap.keys,empty])]
    rcases made with ⟨-,saved⟩ | ⟨-,rfl⟩
    · simp only [saveMetadata, Action.bind_eq_ok, Action.get_eq_ok, onBackend_eq_ok] at saved
      obtain ⟨_,_,⟨rfl,rfl⟩,_,-,rfl⟩ := saved
      rfl
    · rfl
  · rw [nothing only]
    rfl
  · rw [consistent.index] at index
    split at index
    · obtain ⟨text,unloaded,found,-⟩ := restored.index
      cases index.symm.trans found
    · refine restored.records_eq index fun record member => ?_
      rw [metadata record member]
      exact consistent.documents record member

theorem Consistent.step (consistent : Consistent s) (outcome : Outcome s t) : Consistent t := by
  cases outcome with
  | quiet same => exact consistent.same same
  | flush before sound journaled flush after =>
    exact ((consistent.same before).flushed sound journaled flush).same after
  | create new after => exact (consistent.created new).same after

omit [Externals] in
/-- The gtids that count as purged after a construction. -/
private theorem purged_valid {records : List BinlogRecord} (valid : ∀ record ∈ records, record.Valid) :
    ((records.head?.bind BinlogRecord.addedGtids).getD .empty).Valid := by
  cases records with
  | nil => exact GtidSet.valid_empty
  | cons record rest =>
    cases held : record.addedGtids with
    | none => simpa [held] using GtidSet.valid_empty
    | some gtids => simpa [held] using (valid record List.mem_cons_self).addedGtids gtids held

/-- The records of a storage that is constructed are in its mode. -/
theorem construct_validated {mode : ReplicationMode} {checkpoint : Checkpoint} {b : Backend}
    {constructionMode : ConstructionMode} (checked : constructionMode ≠ .queryingOnly) {u : Unit} {r : Storage}
    (constructed : construct constructionMode mode checkpoint b = .ok u r) :
    r.constructionMode = constructionMode ∧ r.replicationMode = mode ∧
      ∀ record ∈ r.records, validateBinlogMetadata mode record = .ok () := by
  rcases construct_ok checked constructed with ⟨-,⟨-,saved⟩ | ⟨-,rfl⟩⟩ | ⟨-,⟨-,rfl⟩ | ⟨loaded,restored,rfl⟩⟩
  · simp only [saveMetadata, Action.bind_eq_ok, Action.get_eq_ok, onBackend_eq_ok] at saved
    obtain ⟨_,_,⟨rfl,rfl⟩,_,-,rfl⟩ := saved
    exact ⟨rfl,rfl,by simp [fresh]⟩
  · exact ⟨rfl,rfl,by simp [fresh]⟩
  · exact ⟨rfl,rfl,by simp [fresh]⟩
  · exact ⟨rfl,rfl,restored.validated⟩

/-- A construction changes nothing but the metadata of the storage. -/
theorem construct_same {mode : ReplicationMode} {checkpoint : Checkpoint} {b : Backend} (healthy : b.faults = [])
    {constructionMode : ConstructionMode} (checked : constructionMode ≠ .queryingOnly) {u : Unit} {r : Storage}
    (constructed : construct constructionMode mode checkpoint b = .ok u r) :
    (∀ name, name ≠ metadataName → r.backend.objects.find? name = b.objects.find? name) ∧
      r.purgedGtids = (r.records.head?.bind BinlogRecord.addedGtids).getD .empty ∧ r.replicationMode = mode ∧
      ∀ record ∈ r.records, validateBinlogMetadata mode record = .ok () := by
  rw [← and_assoc]
  refine ⟨?_,(construct_validated checked constructed).2⟩
  rcases construct_ok checked constructed with ⟨-,⟨-,saved⟩ | ⟨-,rfl⟩⟩ | ⟨-,⟨-,rfl⟩ | ⟨loaded,restored,rfl⟩⟩
  · simp only [saveMetadata, Action.bind_eq_ok, Action.get_eq_ok, onBackend_eq_ok] at saved
    obtain ⟨_,_,⟨rfl,rfl⟩,_,put,rfl⟩ := saved
    cases (Backend.putObject_ok healthy _ _).symm.trans put
    refine ⟨fun name other => ?_,rfl⟩
    simp [Backend.find?_put,other,fresh]
  all_goals exact ⟨fun _ _ => rfl,rfl⟩

theorem Consistent.constructed (consistent : Consistent s) {mode : ReplicationMode} {checkpoint : Checkpoint} {b : Backend}
    (healthy : b.faults = []) (objects : b.objects = s.backend.objects) {constructionMode : ConstructionMode}
    (checked : constructionMode ≠ .queryingOnly) {u : Unit} {r : Storage}
    (constructed : construct constructionMode mode checkpoint b = .ok u r) : Consistent r := by
  have records := consistent.restores (by rw [objects]) (fun _ _ => by rw [objects]) checked constructed
  obtain ⟨same,purged,-⟩ := construct_same healthy checked constructed
  have valid : ∀ record ∈ r.records, record.Valid := by
    rw [records]
    exact consistent.valid
  refine ⟨?_,fun record member => ?_,by rw [records]; exact consistent.distinct,valid,?_⟩
  · rw [same _ (by decide), objects, records]
    exact consistent.index
  · rw [same _ (by simp), objects]
    exact consistent.documents record (records ▸ member)
  · rw [purged]
    exact purged_valid valid

/-- The storage when its destructor has flushed the event buffer. -/
def flushedAtLast (s : Storage) : Storage := if s.constructionMode = .streaming then flushEventBuffer.after s else s

theorem destroy_eq (s : Storage) : s.destroy = s.flushedAtLast.backend.withStream none := rfl

theorem Tracked.destroyed {log : Option FileLog} (tracked : Tracked s log) : Outcome s s.flushedAtLast := by
  unfold flushedAtLast
  split
  · cases log with
    | none =>
      rw [flushEventBuffer_idle tracked.2.boundary]
      exact .quiet ⟨rfl,rfl,rfl,id⟩
    | some log =>
      obtain ⟨sound,record,stream,journal,journaled⟩ := tracked
      exact outcome_flushes ⟨rfl,rfl,rfl,id⟩ sound journaled
        (flushEventBuffer_after sound.healthy journaled.opened journaled.last) ⟨rfl,rfl,rfl,id⟩
  · exact .quiet ⟨rfl,rfl,rfl,id⟩

theorem Consistent.purge (consistent : Consistent s) {removed kept : List BinlogRecord}
    (shape : s.records = removed ++ kept) (some : kept ≠ []) : Consistent (s.purged removed kept) := by
  have distinct := consistent.distinct
  rw [shape] at distinct
  have inside : ∀ record ∈ kept, record ∈ s.records := fun record member => by simp [shape,member]
  refine ⟨?_,fun record member => ?_,distinct.sublist ((List.sublist_append_right _ _).map _),
    fun record member => consistent.valid record (inside record member),consistent.purged⟩
  · rw [find?_purged, if_neg (index_notMem_purgeNames removed), if_pos rfl]
    simp [some]
  · rw [find?_purged, if_neg (kept_notMem_purgeNames distinct member).2, if_neg (generateBinlogMetadataName_ne_index _)]
    exact consistent.documents record (inside record member)

theorem Run.consistent {log : Option FileLog} {history : History} (run : Run s log history) : Consistent s := by
  induction run with
  | @start type mode checkpoint u s constructed =>
    have empty : Consistent (fresh .streaming mode checkpoint { type := type, objects := .empty } .empty []) :=
      ⟨by simp [fresh],by simp [fresh],by simp [fresh],by simp [fresh],GtidSet.valid_empty⟩
    exact empty.constructed rfl rfl (by decide) constructed
  | step run allowed returned ih => exact ih.step (run.tracked.outcome allowed returned)
  | restart run constructed ih =>
    exact (ih.step run.tracked.destroyed).constructed run.tracked.destroy.1 (by rw [destroy_eq]; rfl) (by decide)
      constructed
  | @purge s p q t log history run mode settings checkpoint u v target result examined purged constructed ih =>
    have healthy := run.tracked.destroy.1
    have before : Consistent p :=
      (ih.step run.tracked.destroyed).constructed healthy (by rw [destroy_eq]; rfl) (by decide) examined
    obtain ⟨-,backend,-,kept,shape,-,some,rfl⟩ := purge_ok healthy examined purged
    rw [destroy_purging (s := p.purged result.1 kept) (purgeBinlogs_purging purged).1] at constructed
    have after : Consistent (p.purged result.1 kept) := before.purge shape some
    refine after.constructed ?_ (Backend.withStream_objects _ _) (by decide) constructed
    rw [Backend.withStream_faults, purged_backend, Backend.performAll_faults, backend, healthy]

end
end Storage
end BinlogServer.Store
