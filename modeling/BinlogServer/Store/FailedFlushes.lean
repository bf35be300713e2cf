import BinlogServer.Store.Faults
import BinlogServer.Store.Timestamps

/-!
# A flush fails, and the destructor flushes again

A flush that raises leaves the event buffer as it is, so the destructor writes the same transactions once more. If the
append has raised, the sizes tell: either they were not written, or no storage is constructed over the file. If it was
the metadata that could not be stored, the record in memory already counts the transactions, the destructor counts
them again, and nothing tells that they are in the file twice.
-/

namespace BinlogServer.Store
open ByteString Util Gtids Events

namespace Storage

section
variable [Externals] {s m t : Storage} {stream : Stream} {record : BinlogRecord} {progress : Progress}

theorem Flushes.streaming (flush : t = s ∨ Flushes s stream record t) : t.constructionMode = s.constructionMode := by
  rcases flush with rfl | ⟨-,-,rfl⟩ <;> rfl

theorem Run.streaming {log : Option FileLog} {history : History} (run : Run s log history) :
    s.constructionMode = .streaming := by
  induction run with
  | start constructed => exact (construct_validated (by decide) constructed).1
  | step run allowed returned ih =>
    cases run.tracked.move allowed returned with
    | setPurgedGtids => exact ih
    | create => exact ih
    | reopen => exact ih
    | write opened last added flush checkpoint => exact (Flushes.streaming flush).trans ih
    | discard => exact ih
    | idle => exact ih
    | flush opened last flush => exact (Flushes.streaming flush).trans ih
    | close opened last flush checkpoint => exact (Flushes.streaming (flush.imp_left And.left)).trans ih
  | restart run constructed ih => exact (construct_validated (by decide) constructed).1
  | purge run examined purged constructed ih => exact (construct_validated (by decide) constructed).1

/-- The calls to the backend go as the script says. -/
@[simps!] def faulty (s : Storage) (faults : List Fault) : Storage := s.withBackend (s.backend.withFaults faults)

/-- Where a flush starts: between the operations, or within the write of an event. Before it, no file was closed while
    the timestamps of a transaction that had not ended were held. -/
inductive Flushing : Storage → FileLog → History → Prop
  | between {s : Storage} {log : FileLog} {history : History} (run : Tidy s (some log) history) : Flushing s log history
  | writing {s : Storage} {log : FileLog} {history : History} (run : Tidy s (some log) history) {entry : EventEntry}
      {gtids : GtidSet} (added : entry.atTransactionBoundary = true →
        s.buffer.gtidsWith s.replicationMode entry.transactionGtid = .ok gtids) :
      Flushing (s.withBuffer (s.buffer.write entry gtids)) { log with entries := log.entries ++ [entry] }
        (history.onCurrent (· ++ [entry]))

/-- What is known where a flush starts. -/
structure Prepared (s : Storage) (log : FileLog) (files : List (List EventEntry)) : Prop where
  tracked : Tracked s (some log)
  consistent : Consistent s
  chronicled : Chronicled s files (some log)
  timed : Timed s files (some log)
  streaming : s.constructionMode = .streaming

theorem Flushing.prepared {log : FileLog} {history : History} (flushing : Flushing s log history) :
    Prepared s log history.files := by
  cases flushing with
  | between tidy =>
    have run := tidy.run
    exact ⟨run.tracked,run.consistent,run.chronicled,tidy.timed,run.streaming⟩
  | @writing s log history tidy entry gtids added =>
    have run := tidy.run
    obtain ⟨sound,-⟩ := run.tracked
    obtain ⟨front,prior,written,began,files⟩ := run.chronicled
    obtain ⟨before,opened,record,stream,journal,same,stamped⟩ := tidy.timed
    have next := stamped.write entry added
    refine ⟨⟨sound.withBuffer (sound.buffer.write entry added),_,_,_,next.journaled⟩,
      run.consistent.same ⟨rfl,rfl,rfl,id⟩,⟨front,prior,written,⟨began.ends,began.content,began.describes⟩,?_⟩,
      ⟨before,opened,_,_,_,?_,next⟩,run.streaming⟩
    · simp [files]
    · simp [same]

/-- The destructor's flush of a buffer that is left from flushes that have raised. -/
theorem Attempted.destroy (attempted : Attempted s stream record progress m)
    (apart : stream.name ≠ generateBinlogMetadataName record.name) (streaming : s.constructionMode = .streaming)
    (some : s.buffer.hasEventDataToFlush = true) {next : Stream} (opened : m.backend.stream = .some next) :
    ∃ last t, Attempted s stream record last t ∧ m.destroy.objects = t.backend.objects ∧
      ((m.backend.fault = .none →
          Backend.maxStreamSize < (m.backend.written next).length + s.buffer.transactionsData.length) ∧
          last.record = progress.record ∧ last.metadata = progress.metadata ∨
        m.backend.fault = .none ∧
          (m.backend.written next).length + s.buffer.transactionsData.length ≤ Backend.maxStreamSize ∧
          last = if TakesEffect m.backend.popped.fault then progress.appended.saved else progress.appended) := by
  have destroyed : m.destroy.objects = (flushEventBufferInternal.after m).backend.objects := by
    have flush : flushEventBuffer m = flushEventBufferInternal m := by
      rw [flushEventBuffer, Action.bind_of_ok (ensureStreamingMode_eq_ok (u := ()) |>.mpr
          ⟨attempted.construction.trans streaming,rfl⟩),
        Action.get_bind_run, attempted.buffer, if_pos some]
    rw [destroy_eq, flushedAtLast, if_pos (attempted.construction.trans streaming), Action.after, flush]
    rfl
  rw [destroyed]
  by_cases returns : m.backend.fault = .none ∧
      (m.backend.written next).length + s.buffer.transactionsData.length ≤ Backend.maxStreamSize
  · obtain ⟨t,-,reached,⟨-,failure,ran⟩ | ⟨-,ran⟩⟩ := attempted.append_returns apart opened returns.1 returns.2
    · exact ⟨_,t,reached,by rw [Action.after_error ran],.inr ⟨returns.1,returns.2,rfl⟩⟩
    · exact ⟨_,t,reached,by rw [Action.after_ok ran]; rfl,.inr ⟨returns.1,returns.2,rfl⟩⟩
  · have raises : m.backend.fault = .none →
        Backend.maxStreamSize < (m.backend.written next).length + s.buffer.transactionsData.length :=
      fun none => Nat.lt_of_not_le fun fits => returns ⟨none,fits⟩
    obtain ⟨failure,t,file,appended,ran,reached⟩ := attempted.append_raises apart opened raises
    exact ⟨_,t,reached,by rw [Action.after_error ran],.inl ⟨raises,rfl,rfl⟩⟩

/-- The append of a flush returns, and so does that of the destructor's flush, whose metadata is then stored. Where the
    first flush raises, it is the call for its metadata that has failed. -/
def Repeats (b : Backend) (data : Bytes) : Prop :=
  b.fault = .none ∧ b.popped.popped.fault = .none ∧ TakesEffect b.popped.popped.popped.fault ∧
    ∀ stream ∈ b.stream, (b.written stream).length + 2 * data.length ≤ Backend.maxStreamSize

/-- No flush has been tried yet. -/
theorem Attempted.start (opened : s.backend.stream = some stream)
    (stored : s.backend.objects.find? stream.name = some (s.backend.written stream))
    (last : s.records.getLast? = some record) : Attempted s stream record ⟨0,0,0,0⟩ s where
  opened := ⟨stream,opened,rfl,by simp [copies]⟩
  file := by simp [stored,copies]
  metadata := rfl
  others := fun _ _ _ => rfl
  records := dropLast_append_last last
  buffer := rfl
  mode := rfl
  construction := rfl
  counted := le_rfl
  fits := fun counted => absurd rfl counted

/-- A flush that raises has something to flush. -/
theorem flushEventBuffer_raises (streaming : s.constructionMode = .streaming) {failure : Failure}
    (raised : flushEventBuffer s = .error failure m) :
    s.buffer.hasEventDataToFlush = true ∧ flushEventBufferInternal s = .error failure m := by
  rw [flushEventBuffer, Action.bind_of_ok (ensureStreamingMode_eq_ok (u := ()) |>.mpr ⟨streaming,rfl⟩),
    Action.get_bind_run] at raised
  by_cases some : s.buffer.hasEventDataToFlush = true
  · rw [if_pos some] at raised
    exact ⟨some,raised⟩
  · rw [if_neg some] at raised
    cases raised

/-- A flush has raised and the destructor has flushed again. -/
theorem flushed_twice (streaming : s.constructionMode = .streaming) (opened : s.backend.stream = some stream)
    (stored : s.backend.objects.find? stream.name = some (s.backend.written stream))
    (last : s.records.getLast? = some record) (apart : stream.name ≠ generateBinlogMetadataName record.name)
    {failure : Failure} (raised : flushEventBuffer s = .error failure m) :
    ∃ final t, Attempted s stream record final t ∧ m.destroy.objects = t.backend.objects ∧
      (final.metadata ≤ 1 ∧ ¬ Repeats s.backend s.buffer.transactionsData ∨
        final.file = 2 ∧ Repeats s.backend s.buffer.transactionsData) := by
  obtain ⟨some,raised⟩ := flushEventBuffer_raises streaming raised
  have start := Attempted.start opened stored last
  by_cases returns : s.backend.fault = .none ∧
      (s.backend.written stream).length + s.buffer.transactionsData.length ≤ Backend.maxStreamSize
  · obtain ⟨none,fits⟩ := returns
    obtain ⟨t,faults,reached,⟨loud,failure',ran⟩ | ⟨-,ran⟩⟩ := start.append_returns apart opened none fits
    swap
    · cases ran.symm.trans raised
    cases ran.symm.trans raised
    -- the record in memory counts the transactions, whether the metadata does or not
    obtain ⟨saved,shape,few⟩ : ∃ saved, (if TakesEffect s.backend.popped.fault then
        (⟨0,0,0,0⟩ : Progress).appended.saved else (⟨0,0,0,0⟩ : Progress).appended) = ⟨1,1,1,saved⟩ ∧ saved ≤ 1 := by
      by_cases takes : TakesEffect s.backend.popped.fault
      · exact ⟨1,if_pos takes,le_rfl⟩
      · exact ⟨0,if_neg takes,Nat.zero_le _⟩
    rw [shape] at reached
    have script : m.backend.fault = s.backend.popped.popped.fault ∧
        m.backend.popped.fault = s.backend.popped.popped.popped.fault := by
      simp [Backend.fault,faults]
    obtain ⟨next,opened',-,content⟩ := reached.opened
    have length : (m.backend.written next).length =
        (s.backend.written stream).length + s.buffer.transactionsData.length := by
      simp [content,copies]
    obtain ⟨final,t,attempted,objects,⟨raises,-,metadata⟩ | ⟨none',fits',rfl⟩⟩ :=
      reached.destroy apart streaming some opened'
    · refine ⟨final,t,attempted,objects,.inl ⟨metadata ▸ few,?_⟩⟩
      rintro ⟨-,again,-,double⟩
      have := raises (script.1.trans again)
      have := double stream opened
      omega
    · by_cases takes : TakesEffect m.backend.popped.fault
      · refine ⟨_,t,attempted,objects,.inr ⟨?_,none,script.1 ▸ none',script.2 ▸ takes,?_⟩⟩
        · rw [if_pos takes]
          rfl
        · intro other same
          cases opened.symm.trans same
          omega
      · refine ⟨_,t,attempted,objects,.inl ⟨?_,?_⟩⟩
        · rw [if_neg takes]
          exact few
        · rintro ⟨-,-,again,-⟩
          exact takes (script.2 ▸ again)
  · have once : ¬ Repeats s.backend s.buffer.transactionsData := by
      rintro ⟨none,-,-,double⟩
      have := double stream opened
      exact returns ⟨none,by omega⟩
    obtain ⟨failure',t,file,appended,ran,reached⟩ := start.append_raises apart opened fun none =>
      Nat.lt_of_not_le fun fits => returns ⟨none,fits⟩
    cases ran.symm.trans raised
    obtain ⟨next,opened',-,-⟩ := reached.opened
    obtain ⟨final,t,attempted,objects,⟨-,-,metadata⟩ | ⟨-,-,rfl⟩⟩ := reached.destroy apart streaming some opened'
    · exact ⟨final,t,attempted,objects,.inl ⟨metadata ▸ Nat.zero_le _,once⟩⟩
    · refine ⟨_,t,attempted,objects,.inl ⟨?_,once⟩⟩
      split
      · exact le_rfl
      · exact Nat.zero_le _

/-- A storage that is constructed where there is an index. -/
theorem construct_indexed {mode : ReplicationMode} {checkpoint : Checkpoint} {b : Backend} {text : Bytes}
    (index : b.objects.find? defaultBinlogIndexName = some text) {u : Unit} {r : Storage}
    (constructed : construct .streaming mode checkpoint b = .ok u r) :
    Restored b.objects mode r.records ∧ r.backend = b := by
  have key : defaultBinlogIndexName ∈ b.objects.keys := SortedMap.mem_keys.mpr (by simp [index])
  rcases construct_ok (by decide) constructed with ⟨empty,-⟩ | ⟨-,⟨only,-⟩ | ⟨records,restored,rfl⟩⟩
  · simp [SortedMap.keys,empty] at key
  · exact absurd (only _ key) (by decide)
  · exact ⟨restored,rfl⟩

/-- What the storage `r` shows: every file has a front of the events that were written to it, whole transactions, and
    its record describes them, with the size, the GTIDs, the last sequence number and the range of the timestamps that
    they have. -/
def Shows (r : Storage) (files : List (List EventEntry)) : Prop :=
  ∃ persisted, List.Forall₂ (· <+: ·) persisted files ∧ List.Forall₂ (Persisted r) r.records persisted

variable {log : FileLog} {files : List (List EventEntry)} {mode : ReplicationMode} {checkpoint : Checkpoint} {b : Backend}
  {u : Unit} {r : Storage}

/-- Where nothing but the content of the current file may be different, a storage that is constructed shows what there
    was: it is the size of the file that tells. -/
theorem Prepared.shows (prepared : Prepared s log files) (last : s.records.getLast? = some record)
    (others : ∀ key, key ≠ record.name.str → b.objects.find? key = s.backend.objects.find? key)
    {known content : Bytes} (before : s.backend.objects.find? record.name.str = some known)
    (after : b.objects.find? record.name.str = some content) (told : content.length = known.length → content = known)
    (constructed : construct .streaming mode checkpoint b = .ok u r) : Shows r files := by
  have current : record ∈ s.records := List.mem_of_getLast? last
  have index := others defaultBinlogIndexName (str_ne_index _).symm
  have records := prepared.consistent.restores index (fun other _ => others _ (str_ne_metadata _ _).symm) (by decide)
    constructed
  rw [prepared.consistent.index, if_neg (List.ne_nil_of_mem current)] at index
  obtain ⟨restored,backend⟩ := construct_indexed index constructed
  obtain ⟨stored,found,size⟩ := (restored.loaded record (records ▸ current)).file
  obtain ⟨old,held,length⟩ := (prepared.tracked.sound.current record last).file
  obtain rfl : stored = content := Option.some.inj (found.symm.trans after)
  obtain rfl : old = known := Option.some.inj (held.symm.trans before)
  have objects : b.objects = s.backend.objects := by
    ext1 key
    by_cases file : key = record.name.str
    · rw [file, after, before, told (size.trans length.symm)]
    · exact others key file
  obtain ⟨persisted,fronts,stored⟩ := prepared.timed.persisted prepared.chronicled
  refine ⟨persisted,fronts,?_⟩
  have inMode := (constructed_records prepared.consistent (stored.imp fun _ _ file => file.written) objects (by decide)
    constructed).2 (List.ne_nil_of_mem current)
  rw [records]
  refine stored.imp fun other entries file => ⟨?_,file.spans⟩
  rw [inMode, backend, objects]
  exact file.written

theorem Prepared.flushed (prepared : Prepared s log files) {journal : Journal EventEntry.atTransactionBoundary}
    (journaled : Journaled s log record stream journal) (flush : Flushes s stream record (s.flushed stream record)) :
    Prepared (s.flushed stream record) log files := by
  obtain ⟨tracked,consistent,chronicled,timed,streaming⟩ := prepared
  have sound := tracked.sound
  obtain ⟨front,prior,_,_,_,held,stamped⟩ := timed
  obtain ⟨rfl,rfl⟩ := stamped.same journaled.opened journaled.last
  exact ⟨tracked_flushes sound journaled (.inr flush),
    consistent.flushed sound journaled (sound.flushed journaled flush),
    chronicled_flushes consistent journaled (.inr flush) chronicled,⟨front,prior,_,_,_,held,stamped.flushed⟩,streaming⟩

/-- A file that has more than all whole transactions that were written to it. -/
theorem Prepared.not_shows (prepared : Prepared s log files) {journal : Journal EventEntry.atTransactionBoundary}
    (journaled : Journaled s log record stream journal) (names : r.records.map BinlogRecord.name =
      s.records.map BinlogRecord.name) {content : Bytes}
    (found : r.backend.objects.find? record.name.str = some content)
    (long : (s.backend.written stream).length + s.buffer.transactionsData.length < content.length) :
    ¬ Shows r files := by
  rintro ⟨persisted,fronts,stored⟩
  obtain ⟨front,prior,-,began,rfl⟩ := prepared.chronicled
  have names := congrArg List.getLast? names
  rw [List.getLast?_map, List.getLast?_map, journaled.last, Option.map_some, Option.map_eq_some_iff] at names
  obtain ⟨known,last,name⟩ := names
  obtain ⟨others,kept,rfl,-,current⟩ := last_file last stored
  have part : kept <+: prior ++ log.entries := by
    have lengths : others.length = front.length := by simpa using fronts.length_eq
    have tail := List.forall₂_drop others.length fronts
    rw [List.drop_left, lengths, List.drop_left] at tail
    cases tail with
    | cons part _ => exact part
  -- the part ends with a transaction, so there is nothing of the transaction that has not ended in it
  have whole : kept <+: prior ++ (journal.kept ++ journal.ready) := by
    obtain ⟨rest,split⟩ := part
    have ends := current.written.ends.rdropWhile_append rest
    rw [split, began.ends.rdropWhile_append, ← journaled.held, ← Journal.held_discard] at ends
    refine ⟨rest.rdropWhile (!EventEntry.atTransactionBoundary ·),ends.symm.trans ?_⟩
    simp [Journal.held,Journal.buffered,Journal.discard]
  obtain ⟨rest,split⟩ := whole
  have content_eq : magicBinlogPayload ++ bytesOf kept = content :=
    Option.some.inj (current.written.content.symm.trans (name ▸ found))
  have sizes := congrArg (fun entries => (bytesOf entries).length) split
  rw [journaled.kept, began.content, journaled.transactionsData] at long
  simp only [bytesOf_append, List.length_append, ← content_eq] at sizes long
  omega

theorem Attempted.healthy {faults : List Fault} (attempted : Attempted (s.faulty faults) stream record progress t) :
    Attempted s stream record progress t :=
  ⟨attempted.opened,attempted.file,attempted.metadata,attempted.others,attempted.records,attempted.buffer,attempted.mode,
    attempted.construction,attempted.counted,attempted.fits⟩

/-- Where the metadata counts the transactions of the buffer at most once, the size tells whether they are in the file. -/
theorem Attempted.shows (prepared : Prepared s log files) {journal : Journal EventEntry.atTransactionBoundary}
    (journaled : Journaled s log record stream journal) (some : s.buffer.hasEventDataToFlush = true)
    (nonempty : 0 < s.buffer.transactionsData.length) (attempted : Attempted s stream record progress t)
    (objects : b.objects = t.backend.objects) (few : progress.metadata ≤ 1)
    (constructed : construct .streaming mode checkpoint b = .ok u r) : Shows r files := by
  have unchanged : ∀ key, key ≠ record.name.str → key ≠ generateBinlogMetadataName record.name →
      b.objects.find? key = s.backend.objects.find? key := fun key other metadata =>
    objects ▸ attempted.others key (journaled.name ▸ other) metadata
  have file := attempted.file
  have metadata := attempted.metadata
  rw [← objects] at file metadata
  rw [journaled.name] at file
  by_cases saved : progress.metadata = 0
  · -- the metadata is what it was
    rw [if_pos saved] at metadata
    refine prepared.shows journaled.last (fun key other => ?_) (journaled.name ▸ journaled.stored) file ?_ constructed
    · by_cases document : key = generateBinlogMetadataName record.name
      · rw [document]
        exact metadata
      · exact unchanged key other document
    · intro told
      rw [List.length_append, length_copies] at told
      have none : progress.file = 0 := by
        by_contra more
        have := Nat.mul_pos (Nat.pos_of_ne_zero more) nonempty
        omega
      simp [none,copies]
  · -- the metadata is that of a complete flush
    have one : progress.metadata = 1 := by omega
    have counted := attempted.counted
    rw [one, if_neg (by decide), Function.iterate_one] at metadata
    have flush : Flushes s stream record (s.flushed stream record) := ⟨some,attempted.fits (by omega),rfl⟩
    have name : (s.flushRecord record).name = record.name := rfl
    have last : (s.flushed stream record).records.getLast? = .some (s.flushRecord record) := by simp
    refine (prepared.flushed journaled flush).shows last (fun key other => ?_)
      (by rw [find?_flushed journaled, if_neg (str_ne_metadata _ _)]; exact if_pos rfl) file ?_ constructed
    · rw [name] at other
      rw [find?_flushed journaled]
      by_cases document : key = generateBinlogMetadataName record.name
      · rw [if_pos document, document]
        exact metadata
      · rw [if_neg document, if_neg other]
        exact unchanged key other document
    · intro told
      rw [List.length_append, List.length_append, length_copies, Nat.add_left_cancel_iff] at told
      have once : progress.file = 1 := Nat.eq_of_mul_eq_mul_right nonempty (told.trans (Nat.one_mul _).symm)
      simp [once,copies]

/-- A flush raises, the storage is destroyed, and one is constructed again. It shows a front of the events that were
    written, unless the flush had raised after the file was written and the destructor's flush took effect: then the
    transactions are in the file twice. -/
theorem failed_flush_shows_iff {history : History} (flushing : Flushing s log history) {faults : List Fault}
    {failure : Failure} (raised : flushEventBuffer (s.faulty faults) = .error failure m)
    (constructed : construct .streaming mode checkpoint m.destroy = .ok u r) :
    Shows r history.files ↔ ¬ Repeats (s.faulty faults).backend s.buffer.transactionsData := by
  have prepared := flushing.prepared
  obtain ⟨-,record,stream,journal,journaled⟩ := prepared.tracked
  have some : s.buffer.hasEventDataToFlush = true :=
    (flushEventBuffer_raises (s := s.faulty faults) prepared.streaming raised).1
  have nonempty : 0 < s.buffer.transactionsData.length := by
    rw [journaled.transactionsData, ← journaled.boundary]
    simpa [EventBuffer.hasEventDataToFlush,Nat.pos_iff_ne_zero] using some
  obtain ⟨final,t,attempted,objects,outcome⟩ := flushed_twice (s := s.faulty faults)
    prepared.streaming journaled.opened journaled.stored journaled.last (journaled.name_ne _) raised
  have attempted := attempted.healthy
  rcases outcome with ⟨few,once⟩ | ⟨twice,repeats⟩
  · exact iff_of_true (attempted.shows prepared journaled some nonempty objects few constructed) once
  · refine iff_of_false ?_ (fun once => once repeats)
    have index : m.destroy.objects.find? defaultBinlogIndexName = .some (indexText s.records) := by
      rw [objects, attempted.others _ (journaled.name ▸ (str_ne_index _).symm) (generateBinlogMetadataName_ne_index _).symm]
      exact prepared.consistent.index.trans (if_neg (List.ne_nil_of_mem (List.mem_of_getLast? journaled.last)))
    have file := attempted.file
    rw [← objects, journaled.name] at file
    obtain ⟨restored,backend⟩ := construct_indexed index constructed
    refine prepared.not_shows journaled (restored.names index) (backend ▸ file) ?_
    rw [List.length_append, length_copies, twice]
    omega

end

section
open FlatJson
attribute [local instance] externals

namespace Sample

def event : EventEntry := entry "abc" true

/-- A transaction that is in the buffer. -/
def unflushed : List (Operation × Nat) :=
  [(.openBinlog CompositeBinlogName.Sample.first,0),(.writeEvent event,0)]

def next : EventEntry := { event with timestamp := 200 }

/-- A transaction that is stored, and another one that is in the buffer. -/
def stored : List (Operation × Nat) := ended ++ [(.writeEvent next,0)]

/-- What is shown after a flush has failed: the content of the current file, and the sizes and the ranges of the
    timestamps in the records. -/
def shown (faults : List Fault) (x : Snapshot) : Option (Bytes × List (Nat × Nat × Nat)) :=
  match flushEventBuffer (x.storage.faulty faults) with
  | .ok _ _ => none
  | .error _ m =>
    match construct .streaming .gtid {} m.destroy with
    | .ok _ r => some (r.fileContent,r.records.map fun record =>
        (record.size,record.timestamps.min,record.timestamps.max))
    | .error _ _ => none

theorem exists_of_shown {faults : List Fault} {x : Snapshot} {content : Bytes} {records : List (Nat × Nat × Nat)}
    (known : shown faults x = some (content,records)) :
    ∃ failure m u r, flushEventBuffer (x.storage.faulty faults) = .error failure m ∧
      construct .streaming .gtid {} m.destroy = .ok u r ∧ r.fileContent = content ∧
      r.records.map (fun record => (record.size,record.timestamps.min,record.timestamps.max)) = records := by
  unfold shown at known
  split at known
  · cases known
  · rename_i failure m raised
    split at known
    · rename_i u r constructed
      rw [Option.some.injEq, Prod.mk.injEq] at known
      exact ⟨failure,m,u,r,raised,constructed,known⟩
    · cases known

end Sample

/-- The append raises at once, and the destructor's flush is complete. -/
theorem failed_flush_shows_append : ∃ s log history failure m u r, Flushing s log history ∧
    flushEventBuffer (s.faulty [.before]) = .error failure m ∧ construct .streaming .gtid {} m.destroy = .ok u r ∧
    r.fileContent = magicBinlogPayload ++ bytesOf [Sample.early,Sample.late,Sample.next] ∧
    r.records.map (fun record => (record.size,record.timestamps.min,record.timestamps.max)) = [(20,5,200)] ∧
    Shows r history.files := by
  have known : (follow Sample.stored ⟨Sample.emptyStorage,none,{}⟩).bind
      (fun x => x.log.bind fun _ => Sample.shown [.before] x) =
        some (magicBinlogPayload ++ bytesOf [Sample.early,Sample.late,Sample.next],[(20,5,200)]) := by decide +kernel
  cases followed : follow Sample.stored ⟨Sample.emptyStorage,none,{}⟩ with
  | none => simp [followed] at known
  | some x =>
    rw [followed, Option.bind_some, Option.bind_eq_some_iff] at known
    obtain ⟨log,opened,known⟩ := known
    have tidy := follow_tidy Sample.emptyStorage_tidy (by simp [Sample.stored,Sample.ended]) followed
    obtain ⟨failure,m,u,r,raised,constructed,content,records⟩ := Sample.exists_of_shown known
    have flushing : Flushing x.storage log x.history := .between (opened ▸ tidy)
    refine ⟨_,_,_,_,_,_,_,flushing,raised,constructed,content,records,
      (failed_flush_shows_iff flushing raised constructed).mpr ?_⟩
    rintro ⟨none,-⟩
    cases none

/-- The metadata is not stored, and the destructor's flush is complete: the event is in the file twice, and the size in
    the record is that of the file. -/
theorem failed_flush_repeats : ∃ s log history failure m u r, Flushing s log history ∧
    flushEventBuffer (s.faulty [.none,.before]) = .error failure m ∧
    construct .streaming .gtid {} m.destroy = .ok u r ∧ history.files = [[Sample.event]] ∧
    r.fileContent = magicBinlogPayload ++ Sample.event.data ++ Sample.event.data ∧
    r.records.map BinlogRecord.size = [12] := by
  have known : (follow Sample.unflushed ⟨Sample.emptyStorage,none,{}⟩).bind
      (fun x => x.log.bind fun _ => (Sample.shown [.none,.before] x).map fun shown => (x.history.files,shown)) =
        some ([[Sample.event]],magicBinlogPayload ++ Sample.event.data ++ Sample.event.data,[(12,0,0)]) := by
    decide +kernel
  cases followed : follow Sample.unflushed ⟨Sample.emptyStorage,none,{}⟩ with
  | none => simp [followed] at known
  | some x =>
    rw [followed, Option.bind_some, Option.bind_eq_some_iff] at known
    obtain ⟨log,opened,known⟩ := known
    rw [Option.map_eq_some_iff] at known
    obtain ⟨shown,evaluated,known⟩ := known
    rw [Prod.mk.injEq] at known
    obtain ⟨files,rfl⟩ := known
    have tidy := follow_tidy Sample.emptyStorage_tidy (by simp [Sample.unflushed]) followed
    obtain ⟨failure,m,u,r,raised,constructed,content,records⟩ := Sample.exists_of_shown evaluated
    refine ⟨_,_,_,_,_,_,_,.between (opened ▸ tidy),raised,constructed,files,content,?_⟩
    have sizes := congrArg (List.map Prod.fst) records
    rwa [List.map_map] at sizes

/-- A file was closed in the middle of a transaction. The flush of the next file raises at once, the destructor's flush
    is complete, and no event is in the file twice: the range in its record begins with a timestamp that is not there. -/
theorem failed_flush_leaks : ∃ s log history failure m u r, Run s (some log) history ∧
    flushEventBuffer (s.faulty [.before]) = .error failure m ∧ construct .streaming .gtid {} m.destroy = .ok u r ∧
    history.files = [[],[Sample.late]] ∧ r.fileContent = magicBinlogPayload ++ Sample.late.data ∧
    r.records.map (fun record => (record.size,record.timestamps.min,record.timestamps.max)) = [(4,0,0),(11,5,100)] := by
  have known : (follow Sample.dropped.dropLast ⟨Sample.emptyStorage,none,{}⟩).bind
      (fun x => x.log.bind fun _ => (Sample.shown [.before] x).map fun shown => (x.history.files,shown)) =
        some ([[],[Sample.late]],magicBinlogPayload ++ Sample.late.data,[(4,0,0),(11,5,100)]) := by decide +kernel
  cases followed : follow Sample.dropped.dropLast ⟨Sample.emptyStorage,none,{}⟩ with
  | none => simp [followed] at known
  | some x =>
    rw [followed, Option.bind_some, Option.bind_eq_some_iff] at known
    obtain ⟨log,opened,known⟩ := known
    rw [Option.map_eq_some_iff] at known
    obtain ⟨shown,evaluated,known⟩ := known
    rw [Prod.mk.injEq] at known
    obtain ⟨files,rfl⟩ := known
    have run := follow_run Sample.emptyStorage_run followed
    obtain ⟨failure,m,u,r,raised,constructed,content,records⟩ := Sample.exists_of_shown evaluated
    exact ⟨_,_,_,_,_,_,_,opened ▸ run,raised,constructed,files,content,records⟩

end
end Storage
end BinlogServer.Store
