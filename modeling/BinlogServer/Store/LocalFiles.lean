import BinlogServer.Store.Moves
import BinlogServer.Store.Positions

/-!
# The files that are held

What a storage holds for each of its files: the events that have been written to it and not been dropped since, on the
stream or in the buffer. An operation changes the last file only, or starts another one, and a restart cuts the last
file to a front of its events.
-/

namespace BinlogServer.Store
open ByteString Util Gtids Events

/-- A file, and the events that are held for it. -/
structure LocalFile where
  name : CompositeBinlogName
  entries : List EventEntry

namespace LocalFile

/-- The length of the file with all its events. -/
def length (file : LocalFile) : Nat := magicBinlogOffset + (bytesOf file.entries).length

/-- The last file is changed. -/
def onLast (f : List EventEntry → List EventEntry) (files : List LocalFile) : List LocalFile :=
  files.dropLast ++ files.getLast?.toList.map fun file => { file with entries := f file.entries }

section
variable (f : List EventEntry → List EventEntry)

@[simp] theorem onLast_nil : onLast f [] = [] := rfl

@[simp] theorem onLast_concat (front : List LocalFile) (file : LocalFile) :
    onLast f (front ++ [file]) = front ++ [⟨file.name,f file.entries⟩] := by simp [onLast]

theorem onLast_eq_self {f : List EventEntry → List EventEntry} (same : ∀ entries, f entries = entries)
    (files : List LocalFile) : onLast f files = files := by
  induction files using List.reverseRecOn with
  | nil => rfl
  | append_singleton front file => simp [same]

theorem map_name_onLast (files : List LocalFile) : (onLast f files).map name = files.map name := by
  induction files using List.reverseRecOn with
  | nil => rfl
  | append_singleton front file => simp

theorem map_entries_onLast (files : List LocalFile) : (onLast f files).map entries =
    (files.map entries).dropLast ++ (files.map entries).getLast?.toList.map f := by
  induction files using List.reverseRecOn with
  | nil => rfl
  | append_singleton front file => simp

variable {f} {files : List LocalFile} {P : List EventEntry → Prop}

/-- What holds of the events of all files, and of a front of them, still holds after the end of the last one has been
    dropped. -/
theorem forall_onLast (closed : ∀ front entries, front <+: entries → P entries → P front)
    (part : ∀ entries, f entries <+: entries) (all : ∀ file ∈ files, P file.entries) :
    ∀ file ∈ onLast f files, P file.entries := by
  induction files using List.reverseRecOn with
  | nil => exact all
  | append_singleton front file =>
    rw [onLast_concat]
    intro other member
    rcases List.mem_append.mp member with old | last
    · exact all other (List.mem_append_left _ old)
    · rw [List.mem_singleton.mp last]
      exact closed _ _ (part file.entries) (all file (by simp))

/-- What holds of the events of all files holds after the last one has got more, if it holds of that one. -/
theorem forall_concat {front : List LocalFile} {file : LocalFile} (all : ∀ other ∈ front ++ [file], P other.entries)
    {more : LocalFile} (last : P more.entries) : ∀ other ∈ front ++ [more], P other.entries := by
  intro other member
  rcases List.mem_append.mp member with old | new
  · exact all other (List.mem_append_left _ old)
  · rw [List.mem_singleton.mp new]
    exact last

end
end LocalFile

/-- The bytes of an event: it has a header, with its size. -/
def IsEvent (portion : Bytes) : Prop :=
  defaultCommonHeaderLength ≤ portion.length ∧ CommonHeader.getEventSizeRaw portion = portion.length % 2 ^ 32

/-- What is held is the bytes of events. -/
def AreEvents (entries : List EventEntry) : Prop := ∀ entry ∈ entries, IsEvent entry.data

theorem AreEvents.of_isPrefix (front entries : List EventEntry) (part : front <+: entries) (all : AreEvents entries) :
    AreEvents front := fun entry member => all entry (part.subset member)

/-- What an operation does to the files. -/
def Operation.onFiles : Operation → List LocalFile → List LocalFile
  | .openBinlog name, files => if name ∈ files.map LocalFile.name then files else files ++ [⟨name,[]⟩]
  | .writeEvent entry, files => LocalFile.onLast (· ++ [entry]) files
  | .discardIncompleteTransactionEvents, files => LocalFile.onLast wholeTransactions files
  | .closeBinlog, files => LocalFile.onLast wholeTransactions files
  | .flushEventBuffer, files => files
  | .setPurgedGtids _ _, files => files

theorem eventsWithin_isPrefix (size : Nat) (entries : List EventEntry) : eventsWithin size entries <+: entries := by
  induction entries generalizing size with
  | nil => exact List.prefix_rfl
  | cons entry rest ih =>
    unfold eventsWithin
    split
    · exact List.cons_prefix_cons.mpr ⟨rfl,ih _⟩
    · exact List.nil_prefix

theorem wholeTransactions_isPrefix (entries : List EventEntry) : wholeTransactions entries <+: entries :=
  List.rdropWhile_prefix _ entries

namespace Storage

section
variable [Externals] {s t : Storage} {files : List LocalFile}

theorem names_of_flushes {stream : Stream} {record : BinlogRecord} (last : s.records.getLast? = some record)
    (flush : t = s ∨ Flushes s stream record t) : t.records.map BinlogRecord.name = s.records.map BinlogRecord.name := by
  rcases flush with rfl | ⟨-,-,rfl⟩
  · rfl
  · rw [flushed_records]
    conv_rhs => rw [dropLast_append_last last]
    simp [flushRecord]

/-- An operation keeps the names of the files, or a file is started under a new name. -/
theorem Move.names {operation : Operation} (move : Move s operation t) :
    t.records.map BinlogRecord.name = (operation.onFiles (s.records.map (⟨·.name,[]⟩))).map LocalFile.name := by
  cases move with
  | setPurgedGtids valid mode empty => simp [Operation.onFiles,Function.comp_def]
  | @create name idle new checkpoint =>
    have unknown : name ∉ s.records.map BinlogRecord.name := by simpa using new
    simp [Operation.onFiles,Function.comp_def,unknown,newRecord]
  | @reopen record content idle last found checkpoint =>
    have known : record.name ∈ s.records.map BinlogRecord.name := List.mem_map_of_mem (List.mem_of_getLast? last)
    simp [Operation.onFiles,Function.comp_def,known]
  | @write entry gtids m stream record opened last added flush checkpoint =>
    have names := @names_of_flushes _ (s.withBuffer (s.buffer.write entry gtids)) m stream record last flush
    simpa [Operation.onFiles,LocalFile.map_name_onLast,Function.comp_def] using names
  | discard => simp [Operation.onFiles,LocalFile.map_name_onLast,Function.comp_def]
  | idle => simp [Operation.onFiles,Function.comp_def]
  | flush opened last flush => simpa [Operation.onFiles,Function.comp_def] using names_of_flushes last flush
  | close opened last flush checkpoint =>
    simpa [Operation.onFiles,LocalFile.map_name_onLast,Function.comp_def] using names_of_flushes last (flush.imp_left And.left)

/-- A run has led to the storage, and it holds these events for its files. -/
def Holds (s : Storage) (files : List LocalFile) : Prop :=
  ∃ log history, Run s log history ∧ s.records.map BinlogRecord.name = files.map LocalFile.name ∧
    history.files = files.map LocalFile.entries

namespace Holds

theorem start {type : BackendType} {mode : ReplicationMode} {checkpoint : Checkpoint} {u : Unit}
    (constructed : construct .streaming mode checkpoint { type := type, objects := .empty } = .ok u s) : Holds s [] := by
  have run := Run.start constructed
  have written : List.Forall₂ (Written s.backend.objects s.replicationMode) s.records [] := run.chronicled
  have records : s.records = [] := by simpa using written
  exact ⟨none,{},run,by simp [records],rfl⟩

theorem tracked (holds : Holds s files) : ∃ log, Tracked s log := by
  obtain ⟨log,history,run,-⟩ := holds
  exact ⟨log,run.tracked⟩

/-- What an operation does to the storage, it does to the files. -/
theorem step (holds : Holds s files) {operation : Operation} {now : Nat} {u : Unit} (allowed : operation.allowed s = true)
    (returned : operation.run now s = .ok u t) : Holds t (operation.onFiles files) := by
  obtain ⟨log,history,run,names,entries⟩ := holds
  have moved := (run.tracked.move allowed returned).names
  refine ⟨_,_,run.step allowed returned,?_,?_⟩
  · rw [moved]
    cases operation with
    | openBinlog name =>
      have same : (s.records.map fun record => (⟨record.name,[]⟩ : LocalFile)).map LocalFile.name =
          files.map LocalFile.name := by simpa [Function.comp_def] using names
      simp only [Operation.onFiles, same]
      split <;> simp [same]
    | _ => simpa [Operation.onFiles,LocalFile.map_name_onLast,Function.comp_def] using names
  · cases operation with
    | openBinlog name =>
      have known : s.records.any (fun record => decide (record.name = name)) = decide (name ∈ files.map LocalFile.name) := by
        rw [← names, Bool.eq_iff_iff]
        simp
      simp only [Operation.chronicle, Operation.onFiles, known, decide_eq_true_eq]
      split <;> simp [entries]
    | _ => simp [Operation.chronicle,Operation.onFiles,LocalFile.map_entries_onLast,entries]

/-- A restart leaves a front of the events of the last file. -/
theorem restart (holds : Holds s files) {mode : ReplicationMode} {checkpoint : Checkpoint} {u : Unit}
    (constructed : construct .streaming mode checkpoint s.destroy = .ok u t) :
    ∃ size, Holds t (LocalFile.onLast (eventsWithin size) files) := by
  obtain ⟨log,history,run,names,entries⟩ := holds
  have left := run.consistent.step run.tracked.destroyed
  have records := left.restores (by rw [destroy_eq]; rfl) (fun _ _ => by rw [destroy_eq]; rfl) (by decide) constructed
  have same : s.flushedAtLast.records.map BinlogRecord.name = s.records.map BinlogRecord.name := by
    rcases run.tracked.flushedAtLast_cases with same | ⟨stream,record,-,last,flush⟩
    · rw [same]
    · exact names_of_flushes last (.inr flush)
  refine ⟨((s.destroy.objects.find? s.getCurrentBinlogName.str).getD []).length - magicBinlogOffset,none,_,
    run.restart constructed,?_,?_⟩
  · rw [LocalFile.map_name_onLast, records, same, names]
  · rw [LocalFile.map_entries_onLast, ← entries]
    rfl

theorem length_records (holds : Holds s files) : s.records.length = files.length := by
  obtain ⟨log,history,run,names,entries⟩ := holds
  simpa using congrArg List.length names

/-- The names of the records are those of the files, and the last one is the current one. -/
theorem getCurrentBinlogName (holds : Holds s files) :
    s.getCurrentBinlogName = (files.getLast?.map LocalFile.name).getD .none := by
  obtain ⟨log,history,run,names,-⟩ := holds
  have last := congrArg List.getLast? names
  simp only [List.getLast?_map] at last
  rw [← last, Storage.getCurrentBinlogName]
  cases s.records.getLast? <;> rfl

theorem isEmpty (holds : Holds s files) : s.isEmpty = files.isEmpty := by
  obtain ⟨log,history,run,names,-⟩ := holds
  have length := congrArg List.length names
  simp only [List.length_map] at length
  cases records : s.records <;> cases files <;> simp_all [Storage.isEmpty]

omit [Externals] in
/-- The files before the last one are stored, with all their events. -/
theorem stored_front {objects : Objects} {mode : ReplicationMode} {records : List BinlogRecord}
    {front : List LocalFile} (names : records.map BinlogRecord.name = front.map LocalFile.name)
    (written : List.Forall₂ (Written objects mode) records (front.map LocalFile.entries)) :
    ∀ file ∈ front, objects.find? file.name.str = some (magicBinlogPayload ++ bytesOf file.entries) := by
  induction front generalizing records with
  | nil => simp
  | cons file front ih =>
    cases written with
    | @cons record entries records _ first rest =>
      obtain ⟨name,names⟩ := List.cons.inj names
      intro other member
      rcases List.mem_cons.mp member with rfl | later
      · rw [← name]
        exact first.content
      · exact ih names rest other later

/-- What is stored: the files before the last one with all their events, and the last one with whole transactions,
    all of them if it is not open. The position is the length of the last file. -/
theorem stored {front : List LocalFile} {file : LocalFile} (holds : Holds s (front ++ [file])) :
    (∀ other ∈ front, s.backend.objects.find? other.name.str = some (magicBinlogPayload ++ bytesOf other.entries)) ∧
      s.getCurrentPosition = file.length ∧
      ∃ kept, kept <+: file.entries ∧ EndsMarked EventEntry.atTransactionBoundary kept ∧
        s.backend.objects.find? file.name.str = some (magicBinlogPayload ++ bytesOf kept) ∧
        (s.isBinlogOpen = false → kept = file.entries) := by
  obtain ⟨log,history,run,names,entries⟩ := holds
  have chronicled := run.chronicled
  rw [entries, List.map_append, List.map_singleton] at chronicled
  rw [List.map_append, List.map_singleton] at names
  obtain ⟨record,last⟩ : ∃ record, s.records.getLast? = some record := by
    cases records : s.records.getLast? with
    | none => simp [List.getLast?_eq_none_iff.mp records] at names
    | some record => exact ⟨record,rfl⟩
  rw [dropLast_append_last last, List.map_append, List.map_singleton] at names
  obtain ⟨fronts,single⟩ := List.append_inj' names rfl
  have name : record.name = file.name := List.singleton_inj.mp single
  cases log with
  | none =>
    obtain ⟨known,current,split,written,described⟩ := last_file last chronicled
    obtain ⟨rfl,same⟩ := List.append_inj' split rfl
    obtain rfl := List.singleton_inj.mp same
    refine ⟨stored_front fronts written,?_,file.entries,List.prefix_rfl,described.ends,?_,fun _ => rfl⟩
    · have size := described.describes.size
      rw [getCurrentPosition, getFlushedPosition, last, run.tracked.2.data]
      exact size
    · rw [← name]
      exact described.content
  | some log =>
    obtain ⟨known,prior,written,began,split⟩ := chronicled
    obtain ⟨rfl,same⟩ := List.append_inj' split rfl
    have same := List.singleton_inj.mp same
    obtain ⟨opened,-,position⟩ := Tracked.opened run.tracked
    obtain ⟨-,current,stream,journal,journaled⟩ := run.tracked
    obtain rfl := Option.some.inj (journaled.last.symm.trans last)
    have kept := journaled.written began
    refine ⟨stored_front fronts written,?_,prior ++ journal.kept,?_,kept.ends,?_,fun closed => ?_⟩
    · rw [position, began.content, LocalFile.length, same]
      simp [magicBinlogPayload,magicBinlogOffset]
      omega
    · rw [same, ← journaled.held, Journal.held]
      exact ⟨journal.buffered,by simp⟩
    · rw [← name]
      exact kept.content
    · cases opened.symm.trans closed

/-- Every file is stored with a front of its events. -/
theorem content (holds : Holds s files) (file : LocalFile) (member : file ∈ files) : ∃ kept, kept <+: file.entries ∧
    s.backend.objects.find? file.name.str = some (magicBinlogPayload ++ bytesOf kept) := by
  induction files using List.reverseRecOn with
  | nil => simp at member
  | append_singleton front last =>
    obtain ⟨earlier,-,kept,part,-,content,-⟩ := holds.stored
    rcases List.mem_append.mp member with old | new
    · exact ⟨file.entries,List.prefix_rfl,earlier file old⟩
    · rw [List.mem_singleton.mp new]
      exact ⟨kept,part,content⟩

theorem exists_last (holds : Holds s files) (opened : s.isBinlogOpen = true) : ∃ front file, files = front ++ [file] := by
  obtain ⟨log,tracked⟩ := holds.tracked
  obtain ⟨log,rfl⟩ := tracked.exists_log opened
  obtain ⟨-,record,stream,journal,journaled⟩ := tracked
  induction files using List.reverseRecOn with
  | nil =>
    have empty : s.records = [] := List.isEmpty_iff.mp holds.isEmpty
    simpa [empty] using journaled.last
  | append_singleton front file => exact ⟨front,file,rfl⟩

/-- The next transaction is numbered after the last one that is held for the open file. -/
theorem getLastTransactionSequenceNumber {front : List LocalFile} {file : LocalFile} (holds : Holds s (front ++ [file]))
    (opened : s.isBinlogOpen = true) : s.getLastTransactionSequenceNumber = lastNumber 0 file.entries := by
  obtain ⟨log,history,run,-,entries⟩ := holds
  have tracked := run.tracked
  have chronicled := run.chronicled
  obtain ⟨log,rfl⟩ := tracked.exists_log opened
  obtain ⟨-,record,stream,journal,journaled⟩ := tracked
  rw [entries, List.map_append, List.map_singleton] at chronicled
  obtain ⟨known,prior,-,began,split⟩ := chronicled
  have same := List.singleton_inj.mp (List.append_inj' split rfl).2
  have number : log.record.lastSequenceNumber = lastNumber 0 prior := began.describes.lastSequenceNumber
  rw [same, lastNumber_append, ← number, ← journaled.held]
  exact journaled.accounted.incompleteNumber

/-- The length of a file is limited by what can be recorded and by what is in the buffer. -/
theorem length_lt {front : List LocalFile} {file : LocalFile} (holds : Holds s (front ++ [file])) :
    file.length < 2 ^ 64 + s.buffer.data.length := by
  obtain ⟨-,position,-⟩ := holds.stored
  obtain ⟨log,tracked⟩ := holds.tracked
  rw [← position, getCurrentPosition, getFlushedPosition]
  cases last : s.records.getLast? with
  | none => exact Nat.add_lt_add_right (by decide) _
  | some record =>
    obtain ⟨-,-,bounded,-⟩ := tracked.sound.current record last
    exact Nat.add_lt_add_right bounded.size _

end Holds

end
end Storage
end BinlogServer.Store
