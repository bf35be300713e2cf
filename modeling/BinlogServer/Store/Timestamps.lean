import BinlogServer.Store.Moves

/-!
# The timestamps of a file

The record of a file has the range of the timestamps of its events. An event adds to the range of its transaction, a
transaction that ends to the range that is ready, and a flush to the record. Only a close forgets what it drops
without forgetting its timestamps.
-/

namespace BinlogServer.Store
open ByteString Util Gtids Events

/-- The range goes from the least to the greatest of the timestamps other than zero, and is empty if there are none. -/
structure TimestampRange.Spans (range : TimestampRange) (entries : List EventEntry) : Prop where
  covers : range.Covers entries
  least : range.isEmpty = false → ∃ entry ∈ entries, entry.timestamp.toNat = range.min
  greatest : range.isEmpty = false → ∃ entry ∈ entries, entry.timestamp.toNat = range.max

theorem TimestampRange.isEmpty_iff {range : TimestampRange} : range.isEmpty = true ↔ range = .empty := by
  constructor
  · intro blank
    obtain ⟨min,max,both⟩ := range
    obtain rfl : min = 0 := by simpa [isEmpty] using blank
    obtain rfl : max = 0 := both.mp rfl
    rfl
  · rintro rfl
    rfl

namespace TimestampRange.Spans
variable {range other : TimestampRange} {entries more : List EventEntry}

theorem nil : TimestampRange.empty.Spans [] := ⟨.nil _,by simp [empty,isEmpty],by simp [empty,isEmpty]⟩

theorem eq_empty (spans : range.Spans []) : range = .empty := by
  apply isEmpty_iff.mp
  by_contra some
  obtain ⟨entry,member,-⟩ := spans.least (by simpa using some)
  cases member

theorem addRange (spans : range.Spans entries) (others : other.Spans more) :
    (range.addRange other).Spans (entries ++ more) := by
  refine ⟨spans.covers.addRange others.covers,?_,?_⟩
  · intro some
    unfold TimestampRange.addRange at some ⊢
    split
    · rename_i nothing
      rw [dif_pos nothing] at some
      obtain ⟨entry,member,same⟩ := spans.least some
      exact ⟨entry,List.mem_append_left _ member,same⟩
    · rename_i something
      obtain ⟨entry,member,same⟩ := others.least (by simpa using something)
      split
      · exact ⟨entry,List.mem_append_right _ member,same⟩
      · rename_i present
        obtain ⟨first,inside,equal⟩ := spans.least (by simpa using present)
        rcases le_total range.min other.min with smaller | smaller
        · exact ⟨first,List.mem_append_left _ inside,equal.trans (min_eq_left smaller).symm⟩
        · exact ⟨entry,List.mem_append_right _ member,same.trans (min_eq_right smaller).symm⟩
  · intro some
    unfold TimestampRange.addRange at some ⊢
    split
    · rename_i nothing
      rw [dif_pos nothing] at some
      obtain ⟨entry,member,same⟩ := spans.greatest some
      exact ⟨entry,List.mem_append_left _ member,same⟩
    · rename_i something
      obtain ⟨entry,member,same⟩ := others.greatest (by simpa using something)
      split
      · exact ⟨entry,List.mem_append_right _ member,same⟩
      · rename_i present
        obtain ⟨first,inside,equal⟩ := spans.greatest (by simpa using present)
        rcases le_total range.max other.max with smaller | smaller
        · exact ⟨entry,List.mem_append_right _ member,same.trans (max_eq_right smaller).symm⟩
        · exact ⟨first,List.mem_append_left _ inside,equal.trans (max_eq_left smaller).symm⟩

/-- One timestamp is added like the range that has nothing else. -/
theorem addTimestamp_eq (range : TimestampRange) (timestamp : Nat) :
    range.addTimestamp timestamp = range.addRange ⟨timestamp,timestamp,Iff.rfl⟩ := by
  by_cases zero : timestamp = 0
  · simp [TimestampRange.addTimestamp,TimestampRange.addRange,isEmpty,zero]
  · by_cases blank : range.min = 0
    · simp [TimestampRange.addTimestamp,TimestampRange.addRange,isEmpty,zero,blank]
    · simp [TimestampRange.addTimestamp,TimestampRange.addRange,isEmpty,zero,blank]

theorem addTimestamp (spans : range.Spans entries) (entry : EventEntry) :
    (range.addTimestamp entry.timestamp.toNat).Spans (entries ++ [entry]) := by
  rw [addTimestamp_eq]
  refine spans.addRange ⟨?_,?_,?_⟩
  · intro other member _
    rw [List.mem_singleton.mp member]
    exact ⟨le_rfl,le_rfl⟩
  · exact fun _ => ⟨entry,by simp,rfl⟩
  · exact fun _ => ⟨entry,by simp,rfl⟩

end TimestampRange.Spans

/-- The record of a file has the range of the timestamps of these events, which end where a transaction ends. -/
structure BinlogRecord.Timely (record : BinlogRecord) (entries : List EventEntry) : Prop where
  ends : EndsMarked EventEntry.atTransactionBoundary entries
  spans : record.timestamps.Spans entries

namespace Storage

section
variable [Externals] {s t : Storage} {log : FileLog} {record : BinlogRecord} {stream : Stream}
  {journal : Journal EventEntry.atTransactionBoundary} {front : List (List EventEntry)} {prior : List EventEntry}

/-- The ranges of the record and of the buffer are those of the parts of a journal. -/
structure Stamped (s : Storage) (log : FileLog) (front : List (List EventEntry)) (prior : List EventEntry)
    (record : BinlogRecord) (stream : Stream) (journal : Journal EventEntry.atTransactionBoundary) : Prop where
  journaled : Journaled s log record stream journal
  before : List.Forall₂ BinlogRecord.Timely s.records.dropLast front
  ends : EndsMarked EventEntry.atTransactionBoundary prior
  kept : record.timestamps.Spans (prior ++ journal.kept)
  ready : s.buffer.readyTimestamps.Spans journal.ready
  rest : s.buffer.incompleteTimestamps.Spans journal.rest

theorem Stamped.flushed (stamped : Stamped s log front prior record stream journal) :
    Stamped (s.flushed stream record) log front prior (s.flushRecord record)
      (Backend.Stream.extended s.backend.type stream s.buffer.transactionsData) journal.flush := by
  refine ⟨stamped.journaled.flushed,?_,stamped.ends,?_,.nil,stamped.rest⟩
  · rw [flushed_records, List.dropLast_concat]
    exact stamped.before
  · have kept := stamped.kept.addRange stamped.ready
    rwa [List.append_assoc] at kept

theorem Stamped.flushes (stamped : Stamped s log front prior record stream journal)
    (flush : t = s ∨ Flushes s stream record t) :
    ∃ next extended left, Stamped t log front prior next extended left ∧
      t.buffer.incompleteTimestamps = s.buffer.incompleteTimestamps := by
  rcases flush with rfl | ⟨-,-,rfl⟩
  · exact ⟨_,_,_,stamped,rfl⟩
  · exact ⟨_,_,_,stamped.flushed,rfl⟩

omit [Externals] in
theorem Stamped.write (stamped : Stamped s log front prior record stream journal) (entry : EventEntry) {gtids : GtidSet}
    (added : entry.atTransactionBoundary = true →
      s.buffer.gtidsWith s.replicationMode entry.transactionGtid = .ok gtids) :
    Stamped (s.withBuffer (s.buffer.write entry gtids)) { log with entries := log.entries ++ [entry] } front prior
      record stream (journal.write entry) := by
  have stamps := stamped.rest.addTimestamp entry
  refine ⟨stamped.journaled.write entry added,stamped.before,stamped.ends,?_,?_,?_⟩
  · rw [Journal.write_kept]
    exact stamped.kept
  · cases marked : entry.atTransactionBoundary with
    | true =>
      rw [(journal.write_marked entry marked).1, Journal.buffered, List.append_assoc]
      simpa [EventBuffer.write,marked] using stamped.ready.addRange stamps
    | false =>
      rw [(journal.write_unmarked entry marked).1]
      simpa [EventBuffer.write,marked] using stamped.ready
  · cases marked : entry.atTransactionBoundary with
    | true =>
      rw [(journal.write_marked entry marked).2]
      simpa [EventBuffer.write,marked] using TimestampRange.Spans.nil
    | false =>
      rw [(journal.write_unmarked entry marked).2]
      simpa [EventBuffer.write,marked] using stamps

omit [Externals] in
theorem Stamped.withCheckpoint (stamped : Stamped s log front prior record stream journal) (checkpoint : Checkpoint) :
    Stamped (s.withCheckpoint checkpoint) log front prior record stream journal :=
  ⟨stamped.journaled.withCheckpoint checkpoint,stamped.before,stamped.ends,stamped.kept,stamped.ready,stamped.rest⟩

omit [Externals] in
theorem Stamped.discard (stamped : Stamped s log front prior record stream journal) :
    Stamped (s.withBuffer s.buffer.discard) { log with entries := wholeTransactions log.entries } front prior record
      stream journal.discard :=
  ⟨stamped.journaled.discard,stamped.before,stamped.ends,stamped.kept,stamped.ready,.nil⟩

/-- What is known of the timestamps in a run that forgets none. -/
def Timed (s : Storage) (files : List (List EventEntry)) : Option FileLog → Prop
  | none => List.Forall₂ BinlogRecord.Timely s.records files ∧ s.buffer.readyTimestamps = .empty ∧
      s.buffer.incompleteTimestamps = .empty
  | some log => ∃ front prior record stream journal, files = front ++ [prior ++ log.entries] ∧
      Stamped s log front prior record stream journal

omit [Externals] in
/-- The file that is open is the one of the journal. -/
theorem Stamped.same (stamped : Stamped s log front prior record stream journal) {stream' : Stream}
    {record' : BinlogRecord} (opened : s.backend.stream = some stream') (last : s.records.getLast? = some record') :
    stream = stream' ∧ record = record' :=
  ⟨Option.some.inj (stamped.journaled.opened.symm.trans opened),Option.some.inj (stamped.journaled.last.symm.trans last)⟩

/-- Where a file is closed, the transactions that have ended are in it. -/
theorem Stamped.close {m : Storage} {history : History} (stamped : Stamped s log front prior record stream journal)
    (files : history.files = front ++ [prior ++ log.entries])
    (flush : m = s ∧ s.buffer.hasEventDataToFlush = false ∨ Flushes s stream record m)
    (tidy : s.buffer.incompleteTimestamps.isEmpty = true) (checkpoint : Checkpoint) :
    Timed (m.closed checkpoint) (history.onCurrent wholeTransactions).files none := by
  obtain ⟨next,extended,settled,stamped,ready,incomplete⟩ : ∃ next extended settled,
      Stamped m log front prior next extended settled ∧ settled.ready = [] ∧
      m.buffer.incompleteTimestamps = s.buffer.incompleteTimestamps := by
    rcases flush with ⟨rfl,none⟩ | ⟨-,-,rfl⟩
    · have zero : m.buffer.lastTransactionBoundaryPosition = 0 := by
        simpa [EventBuffer.hasEventDataToFlush] using none
      exact ⟨_,_,_,stamped,bytesOf_eq_nil (List.length_eq_zero_iff.mp (stamped.journaled.boundary ▸ zero)),rfl⟩
    · exact ⟨_,_,_,stamped.flushed,rfl,rfl⟩
  have whole : wholeTransactions (prior ++ log.entries) = prior ++ settled.kept := by
    rw [wholeTransactions, stamped.ends.rdropWhile_append, ← stamped.journaled.held, ← Journal.held_discard]
    simp [Journal.held,Journal.buffered,Journal.discard,ready]
  refine ⟨?_,?_,?_⟩
  · simp only [History.onCurrent_files, files, List.dropLast_concat, List.getLast?_concat, Option.toList_some,
      List.map_cons, List.map_nil, whole, closed_records]
    rw [dropLast_append_last stamped.journaled.last]
    exact List.rel_append stamped.before (.cons ⟨stamped.ends.append settled.kept_ends,stamped.kept⟩ .nil)
  · have nothing := stamped.ready
    rw [ready] at nothing
    exact nothing.eq_empty
  · rw [closed_buffer, EventBuffer.cleared_incompleteTimestamps, incomplete]
    exact TimestampRange.isEmpty_iff.mp tidy

omit [Externals] in
/-- Files that end where transactions end have nothing to discard. -/
private theorem onCurrent_timely {history : History}
    (timely : List.Forall₂ BinlogRecord.Timely s.records history.files) :
    (history.onCurrent wholeTransactions).files = history.files := by
  cases last : s.records.getLast? with
  | none =>
    rw [List.getLast?_eq_none_iff.mp last, List.forall₂_nil_left_iff] at timely
    simp [timely]
  | some record =>
    obtain ⟨front,entries,files,-,current⟩ := last_file last timely
    have whole := current.ends.rdropWhile_append []
    rw [List.append_nil, List.rdropWhile_nil, List.append_nil] at whole
    simp [files,wholeTransactions,whole]

theorem Timed.move {log : Option FileLog} {history : History} {operation : Operation} (tracked : Tracked s log)
    (timed : Timed s history.files log) (move : Move s operation t)
    (tidy : operation = .closeBinlog → s.buffer.incompleteTimestamps.isEmpty = true) :
    Timed t (operation.chronicle s history).files (operation.track t log) := by
  cases move with
  | setPurgedGtids valid mode empty =>
    cases log with
    | none => exact timed
    | some log =>
      obtain ⟨front,prior,record,stream,journal,-,stamped⟩ := timed
      have last := stamped.journaled.last
      simp [empty] at last
  | @create name idle new checkpoint =>
    cases log with
    | some log =>
      obtain ⟨-,record,stream,journal,journaled⟩ := tracked
      cases idle.closed.symm.trans journaled.opened
    | none =>
      obtain ⟨timely,ready,incomplete⟩ := timed
      have unknown : s.records.any (fun record => decide (record.name = name)) = false := by simpa using new
      have created : Stamped (s.created name) ⟨s.newRecord name,magicBinlogPayload,[]⟩ history.files [] _ _ .empty :=
        ⟨idle.created name,by simpa using timely,by simp [EndsMarked],.nil,ready ▸ .nil,incomplete ▸ .nil⟩
      have content : ((s.created name).withCheckpoint checkpoint).fileContent = magicBinlogPayload :=
        fileContent_created name
      simp only [Operation.track, Operation.chronicle, content, unknown, withCheckpoint_records, created_records,
        List.getLast?_concat, Option.map_some, Bool.false_eq_true, if_false, History.create_files]
      exact ⟨_,_,_,_,_,rfl,created.withCheckpoint checkpoint⟩
  | @reopen record content idle last found checkpoint =>
    cases log with
    | some log =>
      obtain ⟨-,record,stream,journal,journaled⟩ := tracked
      cases idle.closed.symm.trans journaled.opened
    | none =>
      obtain ⟨timely,ready,incomplete⟩ := timed
      obtain ⟨front,entries,files,before,current⟩ := last_file last timely
      have known : s.records.any (fun other => decide (other.name = record.name)) = true := by
        simpa using ⟨record,List.mem_of_getLast? last,rfl⟩
      have validated := (tracked.sound.current record last).validated
      have reopened : Stamped (s.reopened record content) ⟨record,content,[]⟩ front entries record _ .empty :=
        ⟨idle.reopened last found validated,before,current.ends,by simpa [Journal.empty] using current.spans,
          ready ▸ .nil,incomplete ▸ .nil⟩
      have same : ((s.reopened record content).withCheckpoint checkpoint).fileContent = content :=
        fileContent_reopened last found
      simp only [Operation.track, Operation.chronicle, same, known, withCheckpoint_records, reopened_records, last,
        Option.map_some, if_true]
      exact ⟨_,_,_,_,_,by simpa using files,reopened.withCheckpoint checkpoint⟩
  | @write entry gtids m stream record opened last added flush checkpoint =>
    cases log with
    | none => cases tracked.2.closed.symm.trans opened
    | some log =>
      obtain ⟨front,prior,record,stream,journal,files,stamped⟩ := timed
      obtain ⟨rfl,rfl⟩ := stamped.same opened last
      obtain ⟨next,extended,left,stamped,-⟩ := (stamped.write entry added).flushes flush
      refine ⟨front,prior,next,extended,left,?_,stamped.withCheckpoint checkpoint⟩
      simp [Operation.chronicle,files]
  | discard =>
    cases log with
    | none =>
      refine ⟨?_,timed.2.1,rfl⟩
      simp only [Operation.chronicle, onCurrent_timely timed.1]
      exact timed.1
    | some log =>
      obtain ⟨front,prior,record,stream,journal,files,stamped⟩ := timed
      refine ⟨front,prior,record,stream,journal.discard,?_,stamped.discard⟩
      simp [Operation.chronicle,files,wholeTransactions,stamped.ends.rdropWhile_append]
  | idle => exact timed
  | flush opened last flush =>
    cases log with
    | none => cases tracked.2.closed.symm.trans opened
    | some log =>
      obtain ⟨front,prior,record,stream,journal,files,stamped⟩ := timed
      obtain ⟨rfl,rfl⟩ := stamped.same opened last
      obtain ⟨next,extended,left,stamped,-⟩ := stamped.flushes flush
      exact ⟨front,prior,next,extended,left,files,stamped⟩
  | close opened last flush checkpoint =>
    cases log with
    | none => cases tracked.2.closed.symm.trans opened
    | some log =>
      obtain ⟨front,prior,record,stream,journal,files,stamped⟩ := timed
      obtain ⟨rfl,rfl⟩ := stamped.same opened last
      exact stamped.close files flush (tidy rfl) checkpoint

omit [Externals] in
/-- The files of a history before the current one, and the events this one had when it was opened. -/
private theorem files_inj {front' : List (List EventEntry)} {prior' : List EventEntry}
    (files : front ++ [prior ++ log.entries] = front' ++ [prior' ++ log.entries]) : front = front' ∧ prior = prior' := by
  obtain ⟨first,same⟩ := List.append_inj' files rfl
  rw [List.singleton_inj, List.append_left_inj] at same
  exact ⟨first,same⟩

/-- What the destructor leaves behind has the timestamps of its events. -/
theorem Timed.destroyed {log : Option FileLog} {history : History} (tracked : Tracked s log)
    (chronicled : Chronicled s history.files log) (timed : Timed s history.files log) :
    List.Forall₂ BinlogRecord.Timely s.flushedAtLast.records (history.destroy s).files := by
  cases log with
  | none =>
    have idle : s.flushedAtLast = s := by
      rcases tracked.flushedAtLast_cases with same | ⟨stream,record,opened,-⟩
      · exact same
      · cases tracked.2.closed.symm.trans opened
    have files : (history.destroy s).files = history.files := by
      cases last : s.records.getLast? with
      | none =>
        have none : history.files = [] := by simpa [Chronicled,List.getLast?_eq_none_iff.mp last] using chronicled
        simp [History.destroy,none]
      | some record =>
        obtain ⟨front,entries,files,-,current⟩ := last_file last chronicled
        have same := current.eventsWithin_eq []
        rw [List.append_nil] at same
        simp [History.destroy,files,destroy_eq,idle,getCurrentBinlogName,last,same]
    rw [idle, files]
    exact timed.1
  | some log =>
    obtain ⟨front,prior,record,stream,journal,files,stamped⟩ := timed
    obtain ⟨front',prior',-,began,files'⟩ := chronicled
    obtain ⟨rfl,rfl⟩ := files_inj (files.symm.trans files')
    have left : ∃ next extended left, Stamped s.flushedAtLast log front prior next extended left ∧
        next.name = record.name ∧ s.flushedAtLast.replicationMode = s.replicationMode := by
      rcases tracked.flushedAtLast_cases with same | ⟨_,_,opened,last,⟨-,-,same⟩⟩
      · rw [same]
        exact ⟨_,_,_,stamped,rfl,rfl⟩
      · obtain ⟨rfl,rfl⟩ := stamped.same opened last
        rw [same]
        exact ⟨_,_,_,stamped.flushed,rfl,rfl⟩
    obtain ⟨next,extended,left,flushed,name,mode⟩ := left
    have current := flushed.journaled.written (mode ▸ began)
    have known : s.getCurrentBinlogName = next.name := by simp [getCurrentBinlogName,stamped.journaled.last,name]
    have within := current.eventsWithin_eq left.buffered
    rw [List.append_assoc] at within
    have held : left.kept ++ left.buffered = log.entries := flushed.journaled.held
    have destroyed : (history.destroy s).files = front ++ [prior ++ left.kept] := by
      simp [History.destroy,files,destroy_eq,known,← held,within]
    rw [destroyed, dropLast_append_last flushed.journaled.last]
    exact List.rel_append flushed.before (.cons ⟨flushed.ends.append left.kept_ends,flushed.kept⟩ .nil)

theorem construct_buffer {constructionMode : ConstructionMode} (checked : constructionMode ≠ .queryingOnly)
    {mode : ReplicationMode} {checkpoint : Checkpoint} {b : Backend} {u : Unit}
    (constructed : construct constructionMode mode checkpoint b = .ok u t) : t.buffer = {} := by
  rcases construct_ok checked constructed with ⟨-,⟨-,saved⟩ | ⟨-,rfl⟩⟩ | ⟨-,⟨-,rfl⟩ | ⟨records,restored,rfl⟩⟩
  · simp only [saveMetadata, Action.bind_eq_ok, Action.get_eq_ok, onBackend_eq_ok] at saved
    obtain ⟨_,_,⟨rfl,rfl⟩,_,-,rfl⟩ := saved
    rfl
  all_goals rfl

/-- A run in which no file is closed while the timestamps of a transaction that has not ended are held. -/
inductive Tidy : Storage → Option FileLog → History → Prop where
  | start {type : BackendType} {mode : ReplicationMode} {checkpoint : Checkpoint} {u : Unit} {s : Storage}
      (constructed : construct .streaming mode checkpoint { type := type, objects := .empty } = .ok u s) : Tidy s none {}
  | step {s t : Storage} {log : Option FileLog} {history : History} (run : Tidy s log history) {operation : Operation}
      {now : Nat} {u : Unit}
      (tidy : operation = .closeBinlog → s.buffer.incompleteTimestamps.isEmpty = true)
      (allowed : operation.allowed s = true) (returned : operation.run now s = .ok u t) :
      Tidy t (operation.track t log) (operation.chronicle s history)
  | restart {s t : Storage} {log : Option FileLog} {history : History} (run : Tidy s log history) {mode : ReplicationMode}
      {checkpoint : Checkpoint} {u : Unit} (constructed : construct .streaming mode checkpoint s.destroy = .ok u t) :
      Tidy t none (history.destroy s)
  | purge {s p q t : Storage} {log : Option FileLog} {history : History} (run : Tidy s log history)
      {mode : ReplicationMode} {settings checkpoint : Checkpoint} {u v : Unit} {target : CompositeBinlogName}
      {result : List BinlogRecord × String} (examined : construct .purging mode settings s.destroy = .ok u p)
      (purged : purgeBinlogs target p = .ok result q)
      (constructed : construct .streaming mode checkpoint q.destroy = .ok v t) :
      Tidy t none ((history.destroy s).purge result.1.length)

theorem Tidy.run {log : Option FileLog} {history : History} (tidy : Tidy s log history) : Run s log history := by
  induction tidy with
  | start constructed => exact .start constructed
  | step _ _ allowed returned ih => exact ih.step allowed returned
  | restart _ constructed ih => exact ih.restart constructed
  | purge _ examined purged constructed ih => exact ih.purge examined purged constructed

theorem Tidy.timed {log : Option FileLog} {history : History} (tidy : Tidy s log history) :
    Timed s history.files log := by
  induction tidy with
  | @start type mode checkpoint u s constructed =>
    have written : List.Forall₂ (Written s.backend.objects s.replicationMode) s.records [] :=
      (Run.start constructed).chronicled
    have records := List.forall₂_nil_right_iff.mp written
    have buffer := construct_buffer (by decide) constructed
    exact ⟨by rw [records]; exact .nil,by rw [buffer],by rw [buffer]⟩
  | step run condition allowed returned ih =>
    exact ih.move run.run.tracked (run.run.tracked.move allowed returned) condition
  | restart run constructed ih =>
    have left := run.run.consistent.step run.run.tracked.destroyed
    have records := left.restores (by rw [destroy_eq]; rfl) (fun _ _ => by rw [destroy_eq]; rfl) (by decide) constructed
    have buffer := construct_buffer (by decide) constructed
    refine ⟨?_,by rw [buffer],by rw [buffer]⟩
    rw [records]
    exact ih.destroyed run.run.tracked run.run.chronicled
  | @purge s p q t log history run mode settings checkpoint u v target result examined purged constructed ih =>
    have healthy := run.run.tracked.destroy.1
    have left := run.run.consistent.step run.run.tracked.destroyed
    have records := left.restores (by rw [destroy_eq]; rfl) (fun _ _ => by rw [destroy_eq]; rfl) (by decide) examined
    have before : Consistent p := left.constructed healthy (by rw [destroy_eq]; rfl) (by decide) examined
    obtain ⟨-,-,-,kept,shape,-,some,rfl⟩ := purge_ok healthy examined purged
    rw [destroy_purging (s := p.purged result.1 kept) (purgeBinlogs_purging purged).1] at constructed
    have restored : t.records = kept := (before.purge shape some).restores
      (by rw [Backend.withStream_objects]) (fun _ _ => by rw [Backend.withStream_objects]) (by decide) constructed
    have buffer := construct_buffer (by decide) constructed
    refine ⟨?_,by rw [buffer],by rw [buffer]⟩
    have timely := List.forall₂_drop result.1.length (ih.destroyed run.run.tracked run.run.chronicled)
    rw [← records, shape, List.drop_left] at timely
    rw [restored]
    exact timely

/-- A file with the events that are in it. -/
structure Persisted (s : Storage) (record : BinlogRecord) (entries : List EventEntry) : Prop where
  written : Written s.backend.objects s.replicationMode record entries
  spans : record.timestamps.Spans entries

omit [Externals] in
private theorem persisted_of_written {records : List BinlogRecord} {files : List (List EventEntry)}
    (written : List.Forall₂ (Written s.backend.objects s.replicationMode) records files)
    (timely : List.Forall₂ BinlogRecord.Timely records files) : List.Forall₂ (Persisted s) records files := by
  induction written with
  | nil => exact .nil
  | cons first rest ih =>
    cases timely with
    | cons stamped others => exact .cons ⟨first,stamped.spans⟩ (ih others)

omit [Externals] in
/-- What is in the files, and the records that describe it. -/
theorem Timed.persisted {log : Option FileLog} {files : List (List EventEntry)} (chronicled : Chronicled s files log)
    (timed : Timed s files log) :
    ∃ persisted, List.Forall₂ (· <+: ·) persisted files ∧ List.Forall₂ (Persisted s) s.records persisted := by
  cases log with
  | none =>
    refine ⟨files,List.forall₂_same.mpr fun entries _ => List.prefix_rfl,?_⟩
    exact persisted_of_written chronicled timed.1
  | some log =>
    obtain ⟨front,prior,record,stream,journal,files,stamped⟩ := timed
    obtain ⟨front',prior',written,began,files'⟩ := chronicled
    obtain ⟨rfl,rfl⟩ := files_inj (files.symm.trans files')
    refine ⟨front ++ [prior ++ journal.kept],?_,?_⟩
    · rw [files, ← stamped.journaled.held]
      refine List.rel_append (List.forall₂_same.mpr fun entries _ => List.prefix_rfl) (.cons ?_ .nil)
      exact (List.prefix_append_right_inj prior).mpr journal.kept_prefix_held
    · rw [dropLast_append_last stamped.journaled.last]
      exact List.rel_append (persisted_of_written written stamped.before)
        (.cons ⟨stamped.journaled.written began,stamped.kept⟩ .nil)

/-- While no file is closed with the timestamps of a transaction that has not ended, every record has just the range
    of the timestamps of the events that are in its file. -/
theorem timestamps_exact {log : Option FileLog} {history : History} (tidy : Tidy s log history) :
    ∃ persisted, List.Forall₂ (· <+: ·) persisted history.files ∧ List.Forall₂ (Persisted s) s.records persisted :=
  tidy.timed.persisted tidy.run.chronicled

theorem follow_tidy {operations : List (Operation × Nat)} {x y : Snapshot} (tidy : Tidy x.storage x.log x.history)
    (none : ∀ operation ∈ operations, operation.1 ≠ .closeBinlog) (followed : follow operations x = some y) :
    Tidy y.storage y.log y.history := by
  induction operations generalizing x with
  | nil =>
    cases followed
    exact tidy
  | cons first rest ih =>
    obtain ⟨s,log,history⟩ := x
    simp only [follow] at followed
    split at followed
    · rename_i t allowed returned
      have next := tidy.step (fun close => absurd close (none first List.mem_cons_self)) allowed returned
      exact ih next (fun operation member => none operation (List.mem_cons_of_mem _ member)) followed
    · cases followed

end

section
open FlatJson
attribute [local instance] externals

namespace Sample

def early : EventEntry := { entry "gtid" false with timestamp := 5 }
def late : EventEntry := { entry "commit" true with timestamp := 100 }

/-- A transaction that ends. -/
def ended : List (Operation × Nat) :=
  [(.openBinlog CompositeBinlogName.Sample.first,0),(.writeEvent early,0),(.writeEvent late,0)]

/-- A file is closed in the middle of a transaction, and there is another one in the next file. -/
def dropped : List (Operation × Nat) :=
  [(.openBinlog CompositeBinlogName.Sample.first,0),(.writeEvent early,0),(.closeBinlog,0),
    (.openBinlog CompositeBinlogName.Sample.second,0),(.writeEvent late,0),(.flushEventBuffer,0)]

theorem emptyStorage_tidy : Tidy emptyStorage none {} := .start (u := ()) rfl

end Sample

/-- The record has the timestamps of both events. -/
theorem timestamps_exact_ended : ∃ s log history record entries, Tidy s log history ∧ s.records = [record] ∧
    record.timestamps.min = 5 ∧ record.timestamps.max = 100 ∧ record.timestamps.Spans entries := by
  have known : (follow Sample.ended ⟨Sample.emptyStorage,none,{}⟩).map
      (fun x => x.storage.records.map fun record => (record.timestamps.min,record.timestamps.max)) =
        some [(5,100)] := by decide +kernel
  cases followed : follow Sample.ended ⟨Sample.emptyStorage,none,{}⟩ with
  | none => simp [followed] at known
  | some x =>
    have tidy := follow_tidy Sample.emptyStorage_tidy (by simp [Sample.ended]) followed
    obtain ⟨persisted,-,both⟩ := timestamps_exact tidy
    rw [followed, Option.map_some, Option.some.injEq, List.map_eq_singleton_iff] at known
    obtain ⟨record,records,range⟩ := known
    rw [Prod.mk.injEq] at range
    rw [records] at both
    cases both with
    | cons first rest => exact ⟨_,_,_,record,_,tidy,records,range.1,range.2,first.spans⟩

/-- The timestamp of an event that was dropped when a file was closed is in the range of the next file. -/
theorem timestamps_leak : ∃ s log history record, Run s log history ∧ history.files = [[],[Sample.late]] ∧
    s.records.getLast? = some record ∧ s.fileContent = magicBinlogPayload ++ bytesOf [Sample.late] ∧
    record.timestamps.min = 5 ∧ ¬ record.timestamps.Spans [Sample.late] := by
  have known : (follow Sample.dropped ⟨Sample.emptyStorage,none,{}⟩).map
      (fun x => (x.history.files,x.storage.fileContent,x.storage.records.getLast?.map fun record =>
        record.timestamps.min)) =
        some ([[],[Sample.late]],magicBinlogPayload ++ bytesOf [Sample.late],some 5) := by decide +kernel
  cases followed : follow Sample.dropped ⟨Sample.emptyStorage,none,{}⟩ with
  | none => simp [followed] at known
  | some x =>
    rw [followed, Option.map_some, Option.some.injEq, Prod.mk.injEq, Prod.mk.injEq, Option.map_eq_some_iff] at known
    obtain ⟨files,content,record,last,least⟩ := known
    refine ⟨_,_,_,record,follow_run Sample.emptyStorage_run followed,files,last,content,least,?_⟩
    intro spans
    obtain ⟨entry,member,same⟩ := spans.least (by simp [TimestampRange.isEmpty,least])
    rw [List.mem_singleton.mp member, least] at same
    exact absurd same (by decide)

end
end Storage
end BinlogServer.Store
