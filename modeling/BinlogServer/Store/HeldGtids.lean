import BinlogServer.Store.GtidChain
import BinlogServer.Store.LocalFiles

/-!
# The gtids of what is held

The gtids of a storage are those of the transactions that have left the buffer. Together with those of the buffer they
are the gtids of all transactions that are held for the files, and of those that were there before the first file.
-/

namespace BinlogServer.Store
open ByteString Util Gtids Events

namespace Storage

/-- The gtids that count as stored before the first file. -/
def basis (s : Storage) : GtidSet :=
  (s.records.head?.map fun record => record.previousGtids.getD .empty).getD s.purgedGtids

section
variable [Externals] {s : Storage} {files : List LocalFile}

omit [Externals] in
/-- What the records add up to. -/
theorem contains_getGtids_of_adds (mode : s.replicationMode = .gtid) (linked : s.records.IsChain BinlogRecord.Follows)
    {persisted : List (List EventEntry)} (adds : List.Forall₂ BinlogRecord.Adds s.records persisted) (gtid : Gtid) :
    s.getGtids.contains gtid ↔ s.basis.contains gtid ∨ Commits persisted.flatten gtid := by
  cases shape : s.records with
  | nil =>
    rw [shape] at adds
    cases adds
    simp [getGtids,basis,mode,shape]
  | cons first rest =>
    obtain ⟨last,ends⟩ : ∃ last, s.records.getLast? = some last := ⟨_,List.getLast?_eq_some_getLast (by simp [shape])⟩
    rw [contains_getGtids mode ends, basis, shape]
    rw [shape] at linked adds ends
    exact last_has linked adds ends gtid

/-- What has left the buffer and what is in it are the whole transactions of the files. -/
theorem Holds.contains (holds : Holds s files) (mode : s.replicationMode = .gtid) (gtid : Gtid) :
    s.getGtids.contains gtid ∨ s.buffer.gtids.contains gtid ↔
      s.basis.contains gtid ∨ ∃ file ∈ files, Commits file.entries gtid := by
  obtain ⟨log,history,run,-,entries⟩ := holds
  have linked := run.chained.linked mode
  have chronicled := run.chronicled
  have tracked := run.tracked
  have held : (∃ file ∈ files, Commits file.entries gtid) ↔ Commits history.files.flatten gtid := by
    rw [entries]
    simp only [Commits, List.mem_flatten, List.mem_map]
    constructor
    · rintro ⟨file,known,entry,member,rest⟩
      exact ⟨entry,⟨_,⟨file,known,rfl⟩,member⟩,rest⟩
    · rintro ⟨entry,⟨_,⟨file,known,rfl⟩,member⟩,rest⟩
      exact ⟨file,known,entry,member,rest⟩
  rw [held]
  cases log with
  | none =>
    have written : List.Forall₂ (Written s.backend.objects s.replicationMode) s.records history.files := chronicled
    rw [mode] at written
    have none : ¬ s.buffer.gtids.contains gtid := tracked.2.gtids gtid
    simp only [none, or_false]
    exact contains_getGtids_of_adds mode linked (written.imp fun _ _ written => written.adds) gtid
  | some log =>
    obtain ⟨-,record,stream,journal,journaled⟩ := tracked
    obtain ⟨front,prior,written,began,files⟩ := chronicled
    have all : List.Forall₂ (Written s.backend.objects s.replicationMode) s.records (front ++ [prior ++ journal.kept]) := by
      rw [dropLast_append_last journaled.last]
      exact List.rel_append written (.cons (journaled.written began) .nil)
    rw [mode] at all
    have unmarked : ¬ Commits journal.rest gtid := by
      rintro ⟨entry,member,ends,-⟩
      simp [journal.rest_unmarked entry member] at ends
    rw [contains_getGtids_of_adds mode linked (all.imp fun _ _ written => written.adds) gtid,
      journaled.accounted.gtids gtid, files, ← journaled.held]
    simp [Journal.held,Journal.buffered,commits_append,mode,unmarked,or_assoc]

omit [Externals] in
/-- A transaction that has not ended has no gtid to add. -/
theorem commits_wholeTransactions (entries : List EventEntry) (gtid : Gtid) :
    Commits (wholeTransactions entries) gtid ↔ Commits entries gtid := by
  induction entries using List.reverseRecOn with
  | nil => rfl
  | append_singleton front last ih =>
    rw [wholeTransactions, List.rdropWhile_concat]
    cases marked : last.atTransactionBoundary with
    | true => simp
    | false =>
      have nothing : ¬ Commits [last] gtid := by simp [Commits,marked]
      simpa [commits_append,nothing,wholeTransactions] using ih

omit [Externals] in
theorem commits_onLast (files : List LocalFile) (gtid : Gtid) :
    (∃ file ∈ LocalFile.onLast wholeTransactions files, Commits file.entries gtid) ↔
      ∃ file ∈ files, Commits file.entries gtid := by
  induction files using List.reverseRecOn with
  | nil => rfl
  | append_singleton front file => simp [commits_wholeTransactions,or_and_right,exists_or]

/-- The gtids of all whole transactions that are held, whether they have left the buffer or not. -/
def heldGtids (s : Storage) : GtidSet := s.getGtids.add s.buffer.gtids

theorem Holds.contains_heldGtids (holds : Holds s files) (mode : s.replicationMode = .gtid) (gtid : Gtid) :
    s.heldGtids.contains gtid ↔ s.basis.contains gtid ∨ ∃ file ∈ files, Commits file.entries gtid :=
  (GtidSet.contains_add _ _ _).trans (holds.contains mode gtid)

theorem Holds.getGtids_valid (holds : Holds s files) : s.getGtids.Valid := by
  obtain ⟨log,history,run,-⟩ := holds
  exact run.consistent.getGtids_valid

theorem Holds.heldGtids_valid (holds : Holds s files) : s.heldGtids.Valid := by
  obtain ⟨log,tracked⟩ := holds.tracked
  exact holds.getGtids_valid.add tracked.sound.buffer.gtids

/-- An event that ends no transaction is written: the gtids stay, or those of the buffer are added to them. -/
theorem Holds.getGtids_write {t : Storage} {written : List LocalFile} (holds : Holds s files) (after : Holds t written)
    (mode : s.replicationMode = .gtid) {entry : EventEntry} (unmarked : entry.atTransactionBoundary = false) {now : Nat}
    {u : Unit} (opened : s.isBinlogOpen = true) (write : writeEntry entry now s = .ok u t) :
    t.getGtids = s.getGtids ∨ t.getGtids = s.heldGtids := by
  obtain ⟨log,tracked⟩ := holds.tracked
  have move : Move s (.writeEvent entry) t := tracked.move opened write
  cases move with
  | @write _ gtids m stream record _ last added flush checkpoint =>
    rcases flush with rfl | ⟨-,-,rfl⟩
    · exact .inl rfl
    · refine .inr (after.getGtids_valid.eq_of_contains holds.heldGtids_valid fun gtid => ?_)
      have same : (s.buffer.write entry gtids).gtids = s.buffer.gtids := by simp [EventBuffer.write,unmarked]
      have known := (validateBinlogMetadata_eq_ok.mp (tracked.sound.current record last).validated).2
      obtain ⟨added,held⟩ := Option.isSome_iff_exists.mp (known.mpr mode)
      have flushed : (((s.withBuffer (s.buffer.write entry gtids)).flushed stream record).withCheckpoint
          checkpoint).records.getLast? = some ((s.withBuffer (s.buffer.write entry gtids)).flushRecord record) := by simp
      rw [heldGtids, GtidSet.contains_add, contains_getGtids mode last, contains_getGtids (by exact mode) flushed]
      simp [BinlogRecord.Has,flushRecord,mode,same,held,GtidSet.contains_add,or_assoc]

/-- The files have whole transactions only where the buffer ends with one. -/
theorem Holds.whole_iff (holds : Holds s files) :
    (∀ file ∈ files, EndsMarked EventEntry.atTransactionBoundary file.entries) ↔
      s.buffer.lastTransactionBoundaryPosition = s.buffer.data.length := by
  obtain ⟨log,history,run,-,entries⟩ := holds
  have chronicled := run.chronicled
  have tracked := run.tracked
  have each : (∀ file ∈ files, EndsMarked EventEntry.atTransactionBoundary file.entries) ↔
      ∀ entries ∈ history.files, EndsMarked EventEntry.atTransactionBoundary entries := by
    rw [entries, List.forall_mem_map]
  have ends : ∀ {records : List BinlogRecord} {front : List (List EventEntry)},
      List.Forall₂ (Written s.backend.objects s.replicationMode) records front →
      ∀ entries ∈ front, EndsMarked EventEntry.atTransactionBoundary entries := by
    intro records front written
    induction written with
    | nil => simp
    | cons first _ ih => exact List.forall_mem_cons.mpr ⟨first.ends,ih⟩
  rw [each]
  cases log with
  | none =>
    refine iff_of_true (ends chronicled) ?_
    rw [tracked.2.boundary, tracked.2.data]
    rfl
  | some log =>
    obtain ⟨-,record,stream,journal,journaled⟩ := tracked
    obtain ⟨front,prior,written,began,files⟩ := chronicled
    have whole : journal.rest = [] ↔ s.buffer.lastTransactionBoundaryPosition = s.buffer.data.length := by
      rw [journaled.boundary, journaled.data, Journal.buffered, bytesOf_append, List.length_append, Nat.left_eq_add,
        List.length_eq_zero_iff]
      exact ⟨fun none => by rw [none]; rfl,bytesOf_eq_nil⟩
    rw [← whole, files, ← journaled.held]
    constructor
    · intro all
      have last := all _ (List.mem_append_right front (List.mem_singleton_self _))
      by_contra some
      have unmarked := journal.rest_unmarked _ (List.getLast_mem some)
      have marked := last (journal.rest.getLast some) (by simp [Journal.held,Journal.buffered,List.getLast?_append,
        List.getLast?_eq_some_getLast some])
      cases unmarked.symm.trans marked
    · intro none
      rw [List.forall_mem_append, List.forall_mem_singleton, Journal.held, Journal.buffered, none, List.append_nil]
      exact ⟨ends written,began.ends.append (journal.kept_ends.append journal.ready_ends)⟩

/-- Where nothing is in the buffer, the files are stored with all their events. -/
theorem Holds.stored_whole (holds : Holds s files) (empty : s.buffer.data = []) :
    ∀ file ∈ files, s.backend.objects.find? file.name.str = some (magicBinlogPayload ++ bytesOf file.entries) := by
  obtain ⟨log,history,run,names,entries⟩ := holds
  have chronicled := run.chronicled
  have tracked := run.tracked
  have written : List.Forall₂ (Written s.backend.objects s.replicationMode) s.records history.files := by
    cases log with
    | none => exact chronicled
    | some log =>
      obtain ⟨-,record,stream,journal,journaled⟩ := tracked
      obtain ⟨front,prior,written,began,files⟩ := chronicled
      have kept : log.entries = journal.kept := by
        rw [← journaled.held, Journal.held, bytesOf_eq_nil (journaled.data.symm.trans empty), List.append_nil]
      rw [files, kept, dropLast_append_last journaled.last]
      exact List.rel_append written (.cons (journaled.written began) .nil)
  rw [entries] at written
  exact stored_front names written

/-- Before a transaction of the last file is whole, the gtids are those of the files before it. -/
theorem Holds.contains_front {front : List LocalFile} {file : LocalFile} (holds : Holds s (front ++ [file]))
    (mode : s.replicationMode = .gtid) (unmarked : ∀ entry ∈ file.entries, entry.atTransactionBoundary = false)
    (gtid : Gtid) :
    s.getGtids.contains gtid ↔ s.basis.contains gtid ∨ ∃ file ∈ front, Commits file.entries gtid := by
  have none : ¬ Commits file.entries gtid := by
    rintro ⟨entry,member,ends,-⟩
    cases (unmarked entry member).symm.trans ends
  have all := holds.contains mode gtid
  simp only [List.mem_append, List.mem_singleton, or_and_right, exists_or, exists_eq_left, none, or_false] at all
  suffices missing : ¬ s.buffer.gtids.contains gtid by
    rwa [or_iff_left missing] at all
  obtain ⟨log,history,run,-,entries⟩ := holds
  have chronicled := run.chronicled
  have tracked := run.tracked
  cases log with
  | none => exact tracked.2.gtids gtid
  | some log =>
    obtain ⟨-,record,stream,journal,journaled⟩ := tracked
    obtain ⟨before,prior,-,-,files⟩ := chronicled
    obtain ⟨-,last⟩ : front.map LocalFile.entries = before ∧ file.entries = prior ++ log.entries := by
      have parts : front.map LocalFile.entries ++ [file.entries] = before ++ [prior ++ log.entries] := by
        rw [← files, entries, List.map_append, List.map_singleton]
      obtain ⟨same,last⟩ := List.append_inj' parts rfl
      exact ⟨same,List.singleton_inj.mp last⟩
    rw [journaled.accounted.gtids]
    rintro ⟨-,entry,member,ends,-⟩
    have held : entry ∈ file.entries := by
      rw [last, ← journaled.held, Journal.held, Journal.buffered]
      simp [member]
    cases (unmarked entry held).symm.trans ends

theorem basis_of_flushes {t : Storage} {stream : Stream} {record : BinlogRecord} (last : s.records.getLast? = some record)
    (flush : t = s ∨ Flushes s stream record t) : t.basis = s.basis ∧ t.replicationMode = s.replicationMode := by
  rcases flush with rfl | ⟨-,-,rfl⟩
  · exact ⟨rfl,rfl⟩
  · refine ⟨?_,flushed_replicationMode ..⟩
    unfold basis
    rw [flushed_records, flushed_purgedGtids]
    conv_rhs => rw [dropLast_append_last last]
    cases s.records.dropLast <;> rfl

/-- What counts as stored before the first file is what counted as purged when it was created. -/
theorem Move.basis {t : Storage} {operation : Operation} (move : Move s operation t) (mode : s.replicationMode = .gtid)
    (other : ∀ gtids valid, operation ≠ .setPurgedGtids gtids valid) : t.basis = s.basis ∧ t.replicationMode = .gtid := by
  cases move with
  | setPurgedGtids valid _ _ => exact absurd rfl (other _ valid)
  | @create name idle new checkpoint =>
    refine ⟨?_,mode⟩
    cases records : s.records with
    | nil => simp [Storage.basis,records,newRecord,mode,getGtids]
    | cons old rest => simp [Storage.basis,records]
  | reopen idle last found checkpoint => exact ⟨rfl,mode⟩
  | @write entry gtids m stream record opened last added flush checkpoint =>
    have same := @basis_of_flushes _ (s.withBuffer (s.buffer.write entry gtids)) m stream record last flush
    exact ⟨same.1,same.2.trans mode⟩
  | discard => exact ⟨rfl,mode⟩
  | idle => exact ⟨rfl,mode⟩
  | flush opened last flush =>
    have same := basis_of_flushes last flush
    exact ⟨same.1,same.2.trans mode⟩
  | close opened last flush checkpoint =>
    have same := basis_of_flushes last (flush.imp_left And.left)
    exact ⟨same.1,same.2.trans mode⟩

theorem Holds.basis_step {t : Storage} (holds : Holds s files) (mode : s.replicationMode = .gtid) {operation : Operation}
    (other : ∀ gtids valid, operation ≠ .setPurgedGtids gtids valid) {now : Nat} {u : Unit}
    (allowed : operation.allowed s = true) (returned : operation.run now s = .ok u t) :
    t.basis = s.basis ∧ t.replicationMode = .gtid := by
  obtain ⟨log,tracked⟩ := holds.tracked
  exact (tracked.move allowed returned).basis mode other

/-- A process that takes the files over takes that over too. -/
theorem Holds.basis_restart {t : Storage} (holds : Holds s files) (nonempty : files ≠ []) {mode : ReplicationMode}
    {checkpoint : Checkpoint} {u : Unit} (constructed : construct .streaming mode checkpoint s.destroy = .ok u t) :
    t.basis = s.basis := by
  obtain ⟨log,history,run,names,-⟩ := holds
  have left := run.consistent.step run.tracked.destroyed
  have records := left.restores (by rw [destroy_eq]; rfl) (fun _ _ => by rw [destroy_eq]; rfl) (by decide) constructed
  have flushed : s.flushedAtLast.basis = s.basis := by
    rcases run.tracked.flushedAtLast_cases with same | ⟨stream,record,-,last,flush⟩
    · rw [same]
    · exact (basis_of_flushes last (.inr flush)).1
  have known : s.flushedAtLast.records ≠ [] := by
    have same : s.flushedAtLast.records.map BinlogRecord.name = s.records.map BinlogRecord.name := by
      rcases run.tracked.flushedAtLast_cases with same | ⟨stream,record,-,last,flush⟩
      · rw [same]
      · exact names_of_flushes last (.inr flush)
    rw [names] at same
    intro none
    rw [none, List.map_nil, eq_comm, List.map_eq_nil_iff] at same
    exact nonempty same
  rw [← flushed]
  unfold basis
  rw [records]
  obtain ⟨first,rest,shape⟩ := List.exists_cons_of_ne_nil known
  simp [shape]

end
end Storage
end BinlogServer.Store
