import BinlogServer.Lib.Journal
import BinlogServer.Store.Operations

/-!
# What the records say about the events

The record of the open file and the data members next to the event buffer account for the events of a journal: the
record for those that have left the buffer, the `ready` members for the whole transactions in it, and the
`incomplete` ones for the rest.
-/

namespace BinlogServer.Store
open ByteString Util Gtids Events

def bytesOf (entries : List EventEntry) : Bytes := entries.flatMap EventEntry.data

@[simp] theorem bytesOf_nil : bytesOf [] = [] := rfl

@[simp] theorem bytesOf_append (front back : List EventEntry) : bytesOf (front ++ back) = bytesOf front ++ bytesOf back :=
  List.flatMap_append

@[simp] theorem bytesOf_singleton (entry : EventEntry) : bytesOf [entry] = entry.data := by simp [bytesOf]

theorem bytesOf_eq_nil {entries : List EventEntry} (none : bytesOf entries = []) : entries = [] := by
  cases entries with
  | nil => rfl
  | cons entry rest => exact absurd (List.append_eq_nil_iff.mp none).1 entry.nonempty

/-- A transaction with this gtid ends in these events. -/
def Commits (entries : List EventEntry) (gtid : Gtid) : Prop :=
  ∃ entry ∈ entries, entry.atTransactionBoundary = true ∧ ¬ gtid.isEmpty ∧ entry.transactionGtid = gtid

@[simp] theorem commits_nil (gtid : Gtid) : ¬ Commits [] gtid := by simp [Commits]

theorem commits_append {front back : List EventEntry} {gtid : Gtid} :
    Commits (front ++ back) gtid ↔ Commits front gtid ∨ Commits back gtid := by
  simp only [Commits, List.mem_append, or_and_right, exists_or]

/-- The last sequence number in events that come after the number `last`; zero stands for none. -/
def lastNumber (last : Nat) (entries : List EventEntry) : Nat :=
  entries.foldl (fun last entry => if entry.sequenceNumber.toNat ≠ 0 then entry.sequenceNumber.toNat else last) last

@[simp] theorem lastNumber_nil (last : Nat) : lastNumber last [] = last := rfl

theorem lastNumber_concat (last : Nat) (entries : List EventEntry) (entry : EventEntry) :
    lastNumber last (entries ++ [entry]) =
      if entry.sequenceNumber.toNat ≠ 0 then entry.sequenceNumber.toNat else lastNumber last entries := by
  simp [lastNumber]

theorem lastNumber_append (last : Nat) (front back : List EventEntry) :
    lastNumber last (front ++ back) = lastNumber (lastNumber last front) back := List.foldl_append

/-- All timestamps of the events are in the range. -/
def TimestampRange.Covers (range : TimestampRange) (entries : List EventEntry) : Prop :=
  ∀ entry ∈ entries, entry.timestamp.toNat ≠ 0 → range.min ≤ entry.timestamp.toNat ∧ entry.timestamp.toNat ≤ range.max

namespace TimestampRange.Covers
variable {range other : TimestampRange} {entries more : List EventEntry}

theorem nil (range : TimestampRange) : range.Covers [] := by simp [Covers]

theorem append (front : range.Covers entries) (back : range.Covers more) : range.Covers (entries ++ more) := by
  intro entry member
  rcases List.mem_append.mp member with old | new
  · exact front entry old
  · exact back entry new

theorem addTimestamp (covers : range.Covers entries) (entry : EventEntry) :
    (range.addTimestamp entry.timestamp.toNat).Covers (entries ++ [entry]) := by
  intro some member stamped
  have old : some ∈ entries → range.min ≤ some.timestamp.toNat ∧ some.timestamp.toNat ≤ range.max :=
    fun known => covers some known stamped
  have which : some ∈ entries ∨ some = entry := by simpa using member
  unfold TimestampRange.addTimestamp
  split
  · rename_i zero
    rcases which with known | rfl
    · exact old known
    · exact absurd zero stamped
  · split
    · rename_i blank
      simp only [isEmpty, decide_eq_true_eq] at blank
      have none := range.both.mp blank
      rcases which with known | rfl
      · have := old known
        omega
      · exact ⟨le_rfl,le_rfl⟩
    · rcases which with known | rfl
      · exact ⟨min_le_of_left_le (old known).1,le_max_of_le_left (old known).2⟩
      · exact ⟨min_le_right _ _,le_max_right _ _⟩

theorem addRange (covers : range.Covers entries) (others : other.Covers more) :
    (range.addRange other).Covers (entries ++ more) := by
  intro some member stamped
  have which : range.min ≤ some.timestamp.toNat ∧ some.timestamp.toNat ≤ range.max ∨
      other.min ≤ some.timestamp.toNat ∧ some.timestamp.toNat ≤ other.max :=
    (List.mem_append.mp member).imp (covers some · stamped) (others some · stamped)
  unfold TimestampRange.addRange
  split
  · rename_i nothing
    simp only [isEmpty, decide_eq_true_eq] at nothing
    have none := other.both.mp nothing
    omega
  · split
    · rename_i blank
      simp only [isEmpty, decide_eq_true_eq] at blank
      have none := range.both.mp blank
      omega
    · simp only [min_le_iff, le_max_iff]
      omega

end TimestampRange.Covers

/-- A record says what it said when its file was opened, and what the events since then add. The range of timestamps
    may be wider than that: events of a transaction that was dropped with the file before are not forgotten. -/
structure BinlogRecord.Describes (mode : ReplicationMode) (opened : BinlogRecord) (entries : List EventEntry)
    (record : BinlogRecord) : Prop where
  name : record.name = opened.name
  previousGtids : record.previousGtids = opened.previousGtids
  size : record.size = opened.size + (bytesOf entries).length
  inMode : record.addedGtids.isSome = true ↔ mode = .gtid
  addedGtids : mode = .gtid → ∀ gtid, (record.addedGtids.getD .empty).contains gtid ↔
    (opened.addedGtids.getD .empty).contains gtid ∨ Commits entries gtid
  timestamps : ∀ before, opened.timestamps.Covers before → record.timestamps.Covers (before ++ entries)
  lastSequenceNumber : record.lastSequenceNumber = lastNumber opened.lastSequenceNumber entries

theorem BinlogRecord.Describes.trans {mode : ReplicationMode} {opened between record : BinlogRecord}
    {front back : List EventEntry} (first : BinlogRecord.Describes mode opened front between)
    (second : BinlogRecord.Describes mode between back record) :
    BinlogRecord.Describes mode opened (front ++ back) record where
  name := second.name.trans first.name
  previousGtids := second.previousGtids.trans first.previousGtids
  size := by rw [second.size, first.size, bytesOf_append, List.length_append, Nat.add_assoc]
  inMode := second.inMode
  addedGtids := fun gtidMode gtid => by
    rw [second.addedGtids gtidMode, first.addedGtids gtidMode, commits_append, or_assoc]
  timestamps := fun before covers => by
    rw [← List.append_assoc]
    exact second.timestamps _ (first.timestamps before covers)
  lastSequenceNumber := by rw [second.lastSequenceNumber, first.lastSequenceNumber, lastNumber_append]

/-- The members of the storage account for the events of a journal. -/
structure Accounted (mode : ReplicationMode) (opened record : BinlogRecord) (buffer : EventBuffer)
    (journal : Journal EventEntry.atTransactionBoundary) : Prop where
  kept : BinlogRecord.Describes mode opened journal.kept record
  gtids : ∀ gtid, buffer.gtids.contains gtid ↔ mode = .gtid ∧ Commits journal.ready gtid
  ready : buffer.readyTimestamps.Covers journal.ready
  rest : buffer.incompleteTimestamps.Covers journal.rest
  readyNumber : buffer.readyLastSequenceNumber =
    lastNumber opened.lastSequenceNumber (journal.kept ++ journal.ready)
  incompleteNumber : buffer.incompleteLastSequenceNumber = lastNumber opened.lastSequenceNumber journal.held

namespace Accounted
variable {mode : ReplicationMode} {opened record : BinlogRecord} {buffer : EventBuffer}
  {journal : Journal EventEntry.atTransactionBoundary}

/-- A file that has just been opened. -/
theorem start (inMode : record.addedGtids.isSome = true ↔ mode = .gtid)
    (noGtids : ∀ gtid, ¬ buffer.gtids.contains gtid) :
    Accounted mode record record (buffer.restarted record.lastSequenceNumber) .empty where
  kept := ⟨rfl,rfl,by simp [Journal.empty],inMode,by simp [Journal.empty],by simp [Journal.empty],rfl⟩
  gtids := by simp [Journal.empty,noGtids]
  ready := .nil _
  rest := .nil _
  readyNumber := rfl
  incompleteNumber := rfl

theorem discard (accounted : Accounted mode opened record buffer journal) :
    Accounted mode opened record buffer.discard journal.discard where
  kept := accounted.kept
  gtids := accounted.gtids
  ready := accounted.ready
  rest := .nil _
  readyNumber := accounted.readyNumber
  incompleteNumber := by simpa [Journal.discard,Journal.held,Journal.buffered] using accounted.readyNumber

private theorem commits_buffered (entry : EventEntry) (marked : entry.atTransactionBoundary = true) (gtid : Gtid) :
    Commits (journal.buffered ++ [entry]) gtid ↔
      Commits journal.ready gtid ∨ ¬ gtid.isEmpty ∧ entry.transactionGtid = gtid := by
  have rest : ¬ Commits journal.rest gtid := by
    rintro ⟨other,member,ends,-⟩
    simp [journal.rest_unmarked other member] at ends
  simp only [Journal.buffered, commits_append, rest, or_false]
  simp [Commits,marked]

private theorem contains_gtidsWith {gtid : Gtid} {gtids : GtidSet} (added : buffer.gtidsWith mode gtid = .ok gtids)
    (other : Gtid) :
    gtids.contains other ↔ buffer.gtids.contains other ∨ mode = .gtid ∧ ¬ other.isEmpty ∧ gtid = other := by
  unfold EventBuffer.gtidsWith at added
  split at added
  · rename_i counted
    rw [GtidSet.contains_addGtid added]
    refine or_congr_right ⟨?_,fun same => same.2.2.symm⟩
    rintro rfl
    exact ⟨counted.1,counted.2,rfl⟩
  · rename_i uncounted
    cases added
    refine ⟨.inl,fun either => either.resolve_right ?_⟩
    rintro ⟨inMode,some,rfl⟩
    exact uncounted ⟨inMode,some⟩

theorem write (accounted : Accounted mode opened record buffer journal) (entry : EventEntry) {gtids : GtidSet}
    (added : entry.atTransactionBoundary = true → buffer.gtidsWith mode entry.transactionGtid = .ok gtids) :
    Accounted mode opened record (buffer.write entry gtids) (journal.write entry) := by
  have number : (if entry.sequenceNumber.toNat ≠ 0 then entry.sequenceNumber.toNat
      else buffer.incompleteLastSequenceNumber) = lastNumber opened.lastSequenceNumber (journal.held ++ [entry]) := by
    rw [lastNumber_concat, accounted.incompleteNumber]
  have stamps := accounted.rest.addTimestamp entry
  unfold EventBuffer.write
  cases marked : entry.atTransactionBoundary with
  | true =>
    obtain ⟨ready,rest⟩ := journal.write_marked entry marked
    refine ⟨by rw [Journal.write_kept]; exact accounted.kept,fun gtid => ?_,?_,by rw [rest]; exact .nil _,?_,?_⟩
    · rw [ready, commits_buffered entry marked]
      refine (contains_gtidsWith (added marked) gtid).trans ?_
      rw [accounted.gtids, ← and_or_left]
    · rw [ready, Journal.buffered, List.append_assoc]
      exact accounted.ready.addRange stamps
    · rw [ready, Journal.write_kept, ← List.append_assoc]
      exact number
    · rw [Journal.held_write]
      exact number
  | false =>
    obtain ⟨ready,rest⟩ := journal.write_unmarked entry marked
    refine ⟨by rw [Journal.write_kept]; exact accounted.kept,by rw [ready]; exact accounted.gtids,
      by rw [ready]; exact accounted.ready,by rw [rest]; exact stamps,?_,?_⟩
    · rw [ready, Journal.write_kept]
      exact accounted.readyNumber
    · rw [Journal.held_write]
      exact number

/-- The record after a flush says what the flushed transactions are. -/
theorem flushRecord {s : Storage} (accounted : Accounted s.replicationMode opened record s.buffer journal)
    (boundary : s.buffer.lastTransactionBoundaryPosition = (bytesOf journal.ready).length) :
    BinlogRecord.Describes s.replicationMode opened (journal.kept ++ journal.ready) (s.flushRecord record) := by
  obtain ⟨name,previous,size,inMode,added,timestamps,number⟩ := accounted.kept
  refine ⟨name,previous,?_,?_,fun gtidMode gtid => ?_,fun before covers => ?_,accounted.readyNumber⟩
  · simp [Storage.flushRecord,size,boundary,Nat.add_assoc]
  · rw [← inMode]
    unfold Storage.flushRecord
    split <;> simp
  · obtain ⟨gtids,some⟩ := Option.isSome_iff_exists.mp (inMode.mpr gtidMode)
    have old := added gtidMode gtid
    rw [some, Option.getD_some] at old
    simp only [Storage.flushRecord, if_pos gtidMode, some, Option.map_some, Option.getD_some]
    rw [GtidSet.contains_add, old, accounted.gtids, commits_append, or_assoc]
    simp [gtidMode]
  · rw [← List.append_assoc]
    exact (timestamps before covers).addRange accounted.ready

theorem flush {s : Storage} (accounted : Accounted s.replicationMode opened record s.buffer journal)
    (boundary : s.buffer.lastTransactionBoundaryPosition = (bytesOf journal.ready).length) :
    Accounted s.replicationMode opened (s.flushRecord record) (s.buffer.flushed s.replicationMode) journal.flush where
  kept := accounted.flushRecord boundary
  gtids := by
    intro gtid
    simp only [Journal.flush, commits_nil, and_false, iff_false, EventBuffer.flushed_gtids]
    split
    · exact GtidSet.not_contains_empty gtid
    · rename_i position
      rw [accounted.gtids]
      exact fun inMode => position inMode.1
  ready := .nil _
  rest := accounted.rest
  readyNumber := by simpa [Journal.flush] using accounted.readyNumber
  incompleteNumber := by simpa using accounted.incompleteNumber

end Accounted
end BinlogServer.Store
