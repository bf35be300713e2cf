import BinlogServer.Store.Recovery

/-!
# The files have what the history says

Every file of the storage has the magic and the events of the history, up to those that are still in the event
buffer, and its record describes them.
-/

namespace BinlogServer.Store
open ByteString Util Gtids Events

/-- The record of a file that has nothing but the magic. -/
def BinlogRecord.blank (mode : ReplicationMode) (record : BinlogRecord) : BinlogRecord where
  name := record.name
  size := magicBinlogOffset
  previousGtids := record.previousGtids
  addedGtids := if mode = .gtid then some .empty else none

/-- A file has the magic and these events, which end where a transaction ends, and its record describes them. -/
structure Written (objects : Objects) (mode : ReplicationMode) (record : BinlogRecord) (entries : List EventEntry) :
    Prop where
  ends : EndsMarked EventEntry.atTransactionBoundary entries
  content : objects.find? record.name.str = some (magicBinlogPayload ++ bytesOf entries)
  describes : BinlogRecord.Describes mode (record.blank mode) entries record

/-- The events a file had when it was opened. -/
structure FileLog.Began (mode : ReplicationMode) (log : FileLog) (prior : List EventEntry) : Prop where
  ends : EndsMarked EventEntry.atTransactionBoundary prior
  content : log.content = magicBinlogPayload ++ bytesOf prior
  describes : BinlogRecord.Describes mode (log.record.blank mode) prior log.record

theorem written_congr {objects others : Objects} {mode : ReplicationMode} {records : List BinlogRecord}
    {files : List (List EventEntry)}
    (same : ∀ record ∈ records, others.find? record.name.str = objects.find? record.name.str)
    (written : List.Forall₂ (Written objects mode) records files) : List.Forall₂ (Written others mode) records files := by
  induction written with
  | nil => exact .nil
  | cons first rest ih =>
    exact .cons ⟨first.ends,(same _ List.mem_cons_self).trans first.content,first.describes⟩
      (ih fun record member => same record (List.mem_cons_of_mem _ member))

/-- What is in a file can be told from its size. -/
theorem Written.eventsWithin_eq {objects : Objects} {mode : ReplicationMode} {record : BinlogRecord}
    {kept : List EventEntry} (written : Written objects mode record kept) (lost : List EventEntry) :
    eventsWithin (((objects.find? record.name.str).getD []).length - magicBinlogOffset) (kept ++ lost) = kept := by
  have size : ((objects.find? record.name.str).getD []).length - magicBinlogOffset = (bytesOf kept).length := by
    simp [written.content,magicBinlogPayload,magicBinlogOffset]
  rw [size, eventsWithin_append]

namespace Storage

section
variable [Externals] {s t : Storage} {record : BinlogRecord} {stream : Stream}
  {journal : Journal EventEntry.atTransactionBoundary} {prior : List EventEntry}

omit [Externals] in
/-- The file that is open has what it had and what has left the buffer. -/
theorem Journaled.written {log : FileLog} (journaled : Journaled s log record stream journal)
    (began : log.Began s.replicationMode prior) :
    Written s.backend.objects s.replicationMode record (prior ++ journal.kept) := by
  have kept := journaled.accounted.kept
  have blank : record.blank s.replicationMode = log.record.blank s.replicationMode := by
    simp [BinlogRecord.blank,kept.name,kept.previousGtids]
  refine ⟨began.ends.append journal.kept_ends,?_,blank ▸ began.describes.trans kept⟩
  rw [← journaled.name, journaled.stored, journaled.kept, began.content, bytesOf_append, List.append_assoc]

/-- The files have the events of the history. The last one, while it is open, has those of them that are not in the
    buffer; see `Journaled.written`. -/
def Chronicled (s : Storage) (files : List (List EventEntry)) : Option FileLog → Prop
  | none => List.Forall₂ (Written s.backend.objects s.replicationMode) s.records files
  | some log => ∃ front prior,
      List.Forall₂ (Written s.backend.objects s.replicationMode) s.records.dropLast front ∧
      log.Began s.replicationMode prior ∧ files = front ++ [prior ++ log.entries]

/-- A flush does not change the files before the last one. -/
theorem front_flushes (consistent : Consistent s) {log : FileLog}
    (journaled : Journaled s log record stream journal) (flush : t = s ∨ Flushes s stream record t)
    {front : List (List EventEntry)}
    (written : List.Forall₂ (Written s.backend.objects s.replicationMode) s.records.dropLast front) :
    List.Forall₂ (Written t.backend.objects t.replicationMode) t.records.dropLast front := by
  rcases flush with rfl | ⟨-,-,rfl⟩
  · exact written
  · simp only [flushed_records, List.dropLast_concat, flushed_replicationMode]
    refine written_congr (fun other member => ?_) written
    have differ : other.name ≠ record.name := by
      have distinct := consistent.distinct
      rw [dropLast_append_last journaled.last, List.map_append, List.nodup_append] at distinct
      exact distinct.2.2 _ (List.mem_map_of_mem member) _ (by simp)
    rw [find?_flushed journaled, if_neg (str_ne_metadata _ _),
      if_neg fun same => differ (CompositeBinlogName.str_injective same)]

theorem chronicled_flushes (consistent : Consistent s) {log : FileLog}
    (journaled : Journaled s log record stream journal) (flush : t = s ∨ Flushes s stream record t)
    {files : List (List EventEntry)} (chronicled : Chronicled s files (some log)) : Chronicled t files (some log) := by
  obtain ⟨front,prior,written,began,rfl⟩ := chronicled
  have mode : t.replicationMode = s.replicationMode := by rcases flush with rfl | ⟨-,-,rfl⟩ <;> rfl
  exact ⟨front,prior,front_flushes consistent journaled flush written,mode ▸ began,rfl⟩

omit [Externals] in
/-- A storage with files has the last one in its history. -/
theorem last_file {related : BinlogRecord → List EventEntry → Prop} {files : List (List EventEntry)}
    (last : s.records.getLast? = some record) (all : List.Forall₂ related s.records files) :
    ∃ front entries, files = front ++ [entries] ∧ List.Forall₂ related s.records.dropLast front ∧
      related record entries := by
  rw [dropLast_append_last last] at all
  have first := List.forall₂_take s.records.dropLast.length all
  have second := List.forall₂_drop s.records.dropLast.length all
  rw [List.take_left] at first
  rw [List.drop_left] at second
  have split := List.take_append_drop s.records.dropLast.length files
  generalize files.drop s.records.dropLast.length = back at second split
  cases second with
  | cons current rest =>
    cases rest
    exact ⟨_,_,split.symm,first,current⟩

private theorem Chronicled.openBinlog {log : Option FileLog} {history : History} (tracked : Tracked s log)
    (chronicled : Chronicled s history.files log) {name : CompositeBinlogName} {now : Nat} {status : OpenBinlogStatus}
    (run : openBinlog name now s = .ok status t) :
    Chronicled t ((Operation.openBinlog name).chronicle s history).files
      (t.records.getLast?.map fun record => ⟨record,t.fileContent,[]⟩) := by
  have sound := tracked.sound
  obtain ⟨closed,opened⟩ := openBinlog_ok sound.healthy run
  cases log with
  | some log =>
    obtain ⟨-,record,stream,journal,journaled⟩ := tracked
    cases closed.symm.trans journaled.opened
  | none =>
    rcases opened with ⟨new,checkpoint,rfl⟩ | ⟨record,last,rfl,opened⟩
    · rw [show ((s.created name).withCheckpoint checkpoint).fileContent = _ from fileContent_created name]
      simp only [withCheckpoint_records, created_records, List.getLast?_concat, Option.map_some]
      have unknown : s.records.any (fun record => decide (record.name = name)) = false := by simpa using new
      simp only [Operation.chronicle, unknown, Bool.false_eq_true, if_false, History.create_files]
      refine ⟨history.files,[],?_,⟨by simp [EndsMarked],by simp,?_⟩,rfl⟩
      · simp only [withCheckpoint_records, created_records, List.dropLast_concat]
        refine written_congr (fun record member => ?_) chronicled
        simp only [withCheckpoint_backend]
        rw [find?_created name (by simp), if_neg (by simp),
          if_neg fun same => new record member (CompositeBinlogName.str_injective same)]
      · exact ⟨rfl,rfl,rfl,by simp [newRecord],by simp [newRecord,BinlogRecord.blank],by simp [newRecord,BinlogRecord.blank],
          rfl⟩
    · obtain ⟨front,entries,files,written,current⟩ := last_file last chronicled
      have long := sound.files record.name _ current.content
      obtain ⟨checkpoint,rfl⟩ := opened _ current.content long
      rw [show ((s.reopened record _).withCheckpoint checkpoint).fileContent = _ from
        fileContent_reopened last current.content]
      simp only [withCheckpoint_records, reopened_records, last, Option.map_some]
      have known : s.records.any (fun other => decide (other.name = record.name)) = true := by
        simpa using ⟨record,List.mem_of_getLast? last,rfl⟩
      simp only [Operation.chronicle, known, if_true]
      exact ⟨front,entries,written,⟨current.ends,rfl,current.describes⟩,by simpa using files⟩

private theorem Chronicled.closeBinlog {log : Option FileLog} {history : History} (tracked : Tracked s log)
    (consistent : Consistent s) (chronicled : Chronicled s history.files log) {now : Nat} {u : Unit}
    (run : closeBinlog now s = .ok u t) : Chronicled t (history.onCurrent wholeTransactions).files none := by
  obtain ⟨m,checkpoint,flush,opened,rfl⟩ := closeBinlog_ok run
  cases log with
  | none =>
    obtain rfl : m = s := (Action.after_ok flush).symm.trans (flushEventBuffer_idle tracked.2.boundary)
    simp [isBinlogOpen,Backend.isStreamOpen,tracked.2.closed] at opened
  | some log =>
    obtain ⟨sound,record,stream,journal,journaled⟩ := tracked
    obtain ⟨front,prior,written,began,files⟩ := chronicled_flushes consistent journaled
      ((flushEventBuffer_ok sound.healthy journaled.opened journaled.last flush).imp_left And.left) chronicled
    obtain ⟨record,stream,settled,journaled,ready⟩ := journaled.settled sound flush
    have whole : wholeTransactions (prior ++ log.entries) = prior ++ settled.kept := by
      rw [wholeTransactions, began.ends.rdropWhile_append, ← journaled.held, ← Journal.held_discard]
      simp [Journal.held,Journal.buffered,Journal.discard,ready]
    simp only [Chronicled, History.onCurrent_files, files, List.dropLast_concat, List.getLast?_concat, Option.toList_some,
      List.map_cons, List.map_nil, whole]
    show List.Forall₂ (Written m.backend.objects m.replicationMode) m.records _
    rw [dropLast_append_last journaled.last]
    exact List.rel_append written (.cons (journaled.written began) .nil)

theorem Chronicled.step {log : Option FileLog} {history : History} (tracked : Tracked s log) (consistent : Consistent s)
    (chronicled : Chronicled s history.files log) {operation : Operation} {now : Nat} {u : Unit}
    (allowed : operation.allowed s = true) (returned : operation.run now s = .ok u t) :
    Chronicled t (operation.chronicle s history).files (operation.track t log) := by
  cases operation with
  | setPurgedGtids gtids valid =>
    simp only [Operation.run, Storage.setPurgedGtids, Action.bind_eq_ok, Action.get_eq_ok, Action.lift_eq_ok,
      Action.modify_eq_ok] at returned
    obtain ⟨_,_,⟨rfl,rfl⟩,_,_,⟨-,rfl⟩,_,_,⟨-,rfl⟩,rfl⟩ := returned
    cases log <;> exact chronicled
  | openBinlog name =>
    simp only [Operation.run, Action.bind_eq_ok] at returned
    obtain ⟨status,_,run,rest⟩ := returned
    cases rest
    exact chronicled.openBinlog tracked run
  | closeBinlog => exact chronicled.closeBinlog tracked consistent returned
  | writeEvent entry =>
    cases log with
    | none => simp [Operation.allowed,isBinlogOpen,Backend.isStreamOpen,tracked.2.closed] at allowed
    | some log =>
      obtain ⟨sound,record,stream,journal,journaled⟩ := tracked
      obtain ⟨gtids,added,run⟩ := writeEntry_ok returned
      have buffered := journaled.write entry added
      obtain ⟨m,checkpoint,flush,rfl⟩ := checkpointIfNeeded_ok (s := s.withBuffer (s.buffer.write entry gtids))
        sound.healthy buffered.opened buffered.last run
      obtain ⟨front,prior,written,began,files⟩ := chronicled
      refine chronicled_flushes (s := s.withBuffer (s.buffer.write entry gtids)) (consistent.same ⟨rfl,rfl,rfl,id⟩) buffered
        flush ⟨front,prior,written,⟨began.ends,began.content,began.describes⟩,?_⟩
      simp [Operation.chronicle,files]
  | discardIncompleteTransactionEvents =>
    simp only [Operation.run, Storage.discardIncompleteTransactionEvents, Action.bind_eq_ok, ensureStreamingMode_eq_ok,
      Action.modify_eq_ok] at returned
    obtain ⟨_,_,⟨-,rfl⟩,rfl⟩ := returned
    cases log with
    | none =>
      -- the files end where transactions end
      have same : (history.onCurrent wholeTransactions).files = history.files := by
        cases last : s.records.getLast? with
        | none =>
          have none : history.files = [] := by
            simpa [Chronicled,List.getLast?_eq_none_iff.mp last] using chronicled
          simp [none]
        | some record =>
          obtain ⟨front,entries,files,-,current⟩ := last_file last chronicled
          have whole := current.ends.rdropWhile_append []
          simp only [List.append_nil, List.rdropWhile_nil] at whole
          simp [files,wholeTransactions,whole]
      simp only [Operation.chronicle, Operation.track, Option.map_none, same]
      exact chronicled
    | some log =>
      obtain ⟨front,prior,written,began,files⟩ := chronicled
      refine ⟨front,prior,written,⟨began.ends,began.content,began.describes⟩,?_⟩
      simp [Operation.chronicle,files,wholeTransactions,began.ends.rdropWhile_append]
  | flushEventBuffer =>
    cases log with
    | none =>
      obtain rfl : t = s := (Action.after_ok returned).symm.trans (flushEventBuffer_idle tracked.2.boundary)
      exact chronicled
    | some log =>
      obtain ⟨sound,record,stream,journal,journaled⟩ := tracked
      exact chronicled_flushes consistent journaled
        ((flushEventBuffer_ok sound.healthy journaled.opened journaled.last returned).imp_left And.left) chronicled

omit [Externals] in
private theorem onCurrent_files {history : History} {front : List (List EventEntry)} {entries : List EventEntry}
    (files : history.files = front ++ [entries]) (f : List EventEntry → List EventEntry) :
    (history.onCurrent f).files = front ++ [f entries] := by simp [files]

/-- What the destructor leaves behind is in the history. -/
theorem Chronicled.destroyed {log : Option FileLog} {history : History} (tracked : Tracked s log) (consistent : Consistent s)
    (chronicled : Chronicled s history.files log) : s.flushedAtLast.replicationMode = s.replicationMode ∧
      List.Forall₂ (Written s.flushedAtLast.backend.objects s.replicationMode) s.flushedAtLast.records
        (history.destroy s).files := by
  cases log with
  | none =>
    have idle : s.flushedAtLast = s := by
      unfold flushedAtLast
      split
      · exact flushEventBuffer_idle tracked.2.boundary
      · rfl
    rw [idle]
    refine ⟨rfl,?_⟩
    cases last : s.records.getLast? with
    | none =>
      have none : history.files = [] := by simpa [Chronicled,List.getLast?_eq_none_iff.mp last] using chronicled
      simp [History.destroy,none,List.getLast?_eq_none_iff.mp last]
    | some record =>
      obtain ⟨front,entries,files,written,current⟩ := last_file last chronicled
      have same := current.eventsWithin_eq []
      rw [List.append_nil] at same
      rw [History.destroy, onCurrent_files files, destroy_eq, idle, Backend.withStream_objects, getCurrentBinlogName, last,
        same, dropLast_append_last last]
      exact List.rel_append written (.cons current .nil)
  | some log =>
    obtain ⟨sound,record,stream,journal,journaled⟩ := tracked
    have flush : s.flushedAtLast = s ∨ Flushes s stream record s.flushedAtLast := by
      unfold flushedAtLast
      split
      · exact flushEventBuffer_after sound.healthy journaled.opened journaled.last
      · exact .inl rfl
    obtain ⟨front,prior,written,began,files⟩ := chronicled_flushes consistent journaled flush chronicled
    obtain ⟨next,extended,left,journaled',name,mode⟩ : ∃ next extended left,
        Journaled s.flushedAtLast log next extended left ∧ next.name = record.name ∧
        s.flushedAtLast.replicationMode = s.replicationMode := by
      rcases flush with same | ⟨-,-,same⟩
      · rw [same]
        exact ⟨_,_,_,journaled,rfl,rfl⟩
      · rw [same]
        exact ⟨_,_,_,journaled.flushed,rfl,rfl⟩
    have current := journaled'.written began
    have split : prior ++ log.entries = prior ++ left.kept ++ left.buffered := by
      rw [← journaled'.held, Journal.held, List.append_assoc]
    have known : s.getCurrentBinlogName = next.name := by simp [getCurrentBinlogName,journaled.last,name]
    rw [← mode, History.destroy, onCurrent_files files, destroy_eq, Backend.withStream_objects, known, split,
      current.eventsWithin_eq, dropLast_append_last journaled'.last]
    exact ⟨rfl,List.rel_append written (.cons current .nil)⟩

/-- A storage that is constructed over the files has their records, and files are only taken over in the mode they
    were written in. -/
theorem constructed_records (consistent : Consistent s) {files : List (List EventEntry)}
    (written : List.Forall₂ (Written s.backend.objects s.replicationMode) s.records files) {mode : ReplicationMode}
    {checkpoint : Checkpoint} {b : Backend} (objects : b.objects = s.backend.objects)
    {constructionMode : ConstructionMode} (checked : constructionMode ≠ .queryingOnly) {u : Unit} {r : Storage}
    (constructed : construct constructionMode mode checkpoint b = .ok u r) :
    r.records = s.records ∧ (s.records ≠ [] → r.replicationMode = s.replicationMode) := by
  have records := consistent.restores (by rw [objects]) (fun _ _ => by rw [objects]) checked constructed
  obtain ⟨-,modes,validated⟩ := construct_validated checked constructed
  refine ⟨records,?_⟩
  intro some
  rw [records] at validated
  rw [modes]
  generalize s.records = known at some validated written
  cases written with
  | nil => exact absurd rfl some
  | cons first rest =>
    have now := (validateBinlogMetadata_eq_ok.mp (validated _ List.mem_cons_self)).2
    have before := first.describes.inMode
    cases mode <;> cases old : s.replicationMode <;> simp_all

/-- A storage that is constructed over the files has them. -/
theorem Chronicled.constructed (consistent : Consistent s) {files : List (List EventEntry)}
    (written : List.Forall₂ (Written s.backend.objects s.replicationMode) s.records files) {mode : ReplicationMode}
    {checkpoint : Checkpoint} {b : Backend} (healthy : b.faults = []) (objects : b.objects = s.backend.objects)
    {constructionMode : ConstructionMode} (checked : constructionMode ≠ .queryingOnly) {u : Unit} {r : Storage}
    (constructed : construct constructionMode mode checkpoint b = .ok u r) : Chronicled r files none := by
  obtain ⟨records,inMode⟩ := constructed_records consistent written objects checked constructed
  obtain ⟨same,-⟩ := construct_same healthy checked constructed
  simp only [Chronicled, records]
  by_cases empty : s.records = []
  · rw [empty] at written ⊢
    cases written
    exact .nil
  · rw [inMode empty]
    exact written_congr (fun record _ => by rw [same _ (by simp), objects]) written

theorem Chronicled.purge (consistent : Consistent s) {files : List (List EventEntry)}
    (written : List.Forall₂ (Written s.backend.objects s.replicationMode) s.records files)
    {removed kept : List BinlogRecord} (shape : s.records = removed ++ kept) :
    List.Forall₂ (Written (s.purged removed kept).backend.objects s.replicationMode) kept (files.drop removed.length) := by
  have left := List.forall₂_drop removed.length written
  rw [shape, List.drop_left] at left
  refine written_congr (fun record member => ?_) left
  have distinct := consistent.distinct
  rw [shape, List.map_append, List.nodup_append] at distinct
  rw [find?_purged, if_neg, if_neg (str_ne_index _)]
  intro victim
  obtain ⟨other,gone,same | same⟩ := mem_purgeNames.mp victim
  · exact str_ne_metadata _ _ same
  · exact distinct.2.2 _ (List.mem_map_of_mem gone) _ (List.mem_map_of_mem member)
      (CompositeBinlogName.str_injective same).symm

theorem Run.chronicled {log : Option FileLog} {history : History} (run : Run s log history) :
    Chronicled s history.files log := by
  induction run with
  | @start type mode checkpoint u s constructed =>
    have empty : Consistent (fresh .streaming mode checkpoint { type := type, objects := .empty } .empty []) :=
      ⟨by simp [fresh],by simp [fresh],by simp [fresh],by simp [fresh],GtidSet.valid_empty⟩
    exact Chronicled.constructed empty .nil rfl rfl (by decide) constructed
  | step run allowed returned ih => exact ih.step run.tracked run.consistent allowed returned
  | restart run constructed ih =>
    obtain ⟨mode,written⟩ := ih.destroyed run.tracked run.consistent
    exact Chronicled.constructed (run.consistent.step run.tracked.destroyed) (mode ▸ written) run.tracked.destroy.1
      (by rw [destroy_eq]; rfl) (by decide) constructed
  | @purge s p q t log history run mode settings checkpoint u v target result examined purged constructed ih =>
    have healthy := run.tracked.destroy.1
    obtain ⟨same,written⟩ := ih.destroyed run.tracked run.consistent
    have consistent := run.consistent.step run.tracked.destroyed
    have before : Consistent p := consistent.constructed healthy (by rw [destroy_eq]; rfl) (by decide) examined
    have files := Chronicled.constructed consistent (same ▸ written) healthy (by rw [destroy_eq]; rfl) (by decide) examined
    obtain ⟨-,backend,-,kept,shape,-,some,rfl⟩ := purge_ok healthy examined purged
    rw [destroy_purging (s := p.purged result.1 kept) (purgeBinlogs_purging purged).1] at constructed
    refine Chronicled.constructed (before.purge shape some) (Chronicled.purge before files shape) ?_
      (Backend.withStream_objects _ _) (by decide) constructed
    rw [Backend.withStream_faults, purged_backend, Backend.performAll_faults, backend, healthy]

/-- What is stored: every file with a front of the events the history has for it, whole transactions. -/
theorem Chronicled.written {log : Option FileLog} {files : List (List EventEntry)} (tracked : Tracked s log)
    (chronicled : Chronicled s files log) :
    ∃ persisted, List.Forall₂ (· <+: ·) persisted files ∧
      List.Forall₂ (Written s.backend.objects s.replicationMode) s.records persisted := by
  have whole : ∀ files : List (List EventEntry), List.Forall₂ (· <+: ·) files files := fun files =>
    List.forall₂_same.mpr fun entries _ => List.prefix_rfl
  cases log with
  | none => exact ⟨files,whole _,chronicled⟩
  | some log =>
    obtain ⟨-,record,stream,journal,journaled⟩ := tracked
    obtain ⟨front,prior,written,began,rfl⟩ := chronicled
    refine ⟨front ++ [prior ++ journal.kept],?_,?_⟩
    · rw [← journaled.held]
      exact List.rel_append (whole front) (.cons ((List.prefix_append_right_inj prior).mpr journal.kept_prefix_held) .nil)
    · rw [dropLast_append_last journaled.last]
      exact List.rel_append written (.cons (journaled.written began) .nil)

theorem Run.written {log : Option FileLog} {history : History} (run : Run s log history) :
    ∃ persisted, List.Forall₂ (· <+: ·) persisted history.files ∧
      List.Forall₂ (Written s.backend.objects s.replicationMode) s.records persisted :=
  run.chronicled.written run.tracked

end
end Storage
end BinlogServer.Store
