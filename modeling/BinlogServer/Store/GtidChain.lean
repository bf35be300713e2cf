import Mathlib.Data.List.Chain
import BinlogServer.Store.Moves

/-!
# The gtids of one file after the other

The previous gtids of a file are all that the storage had when the file was created, so the records of the files are
linked: each one has the previous gtids of the record before it and what that one has added. Through the links the
last record has all that was ever stored, also in files that are purged.
-/

namespace BinlogServer.Store
open ByteString Util Gtids Events

/-- The previous gtids of a file are those of the file before it and what that one has added. -/
def BinlogRecord.Follows (earlier later : BinlogRecord) : Prop :=
  ∃ previous added, earlier.previousGtids = some previous ∧ earlier.addedGtids = some added ∧
    later.previousGtids = some (previous.add added)

/-- A record has added the transactions that end in these events. -/
def BinlogRecord.Adds (record : BinlogRecord) (entries : List EventEntry) : Prop :=
  ∀ gtid, (record.addedGtids.getD .empty).contains gtid ↔ Commits entries gtid

theorem Written.adds {objects : Objects} {record : BinlogRecord} {entries : List EventEntry}
    (written : Written objects .gtid record entries) : record.Adds entries := by
  intro gtid
  simpa [BinlogRecord.blank] using written.describes.addedGtids rfl gtid

/-- The gtids of a storage whose last record this is. -/
def BinlogRecord.Has (record : BinlogRecord) (gtid : Gtid) : Prop :=
  (record.previousGtids.getD .empty).contains gtid ∨ (record.addedGtids.getD .empty).contains gtid

theorem BinlogRecord.Follows.contains {earlier later : BinlogRecord} (follows : Follows earlier later) (gtid : Gtid) :
    (later.previousGtids.getD .empty).contains gtid ↔ earlier.Has gtid := by
  obtain ⟨previous,added,before,between,after⟩ := follows
  simp only [Has, before, between, after, Option.getD_some, GtidSet.contains_add]

/-- What the last one of linked records has: the previous gtids of the first one and the transactions of all. -/
theorem last_has {first last : BinlogRecord} {rest : List BinlogRecord} {files : List (List EventEntry)}
    (linked : (first :: rest).IsChain BinlogRecord.Follows)
    (adds : List.Forall₂ BinlogRecord.Adds (first :: rest) files) (ends : (first :: rest).getLast? = some last)
    (gtid : Gtid) :
    last.Has gtid ↔ (first.previousGtids.getD .empty).contains gtid ∨ Commits files.flatten gtid := by
  induction rest generalizing first files with
  | nil =>
    obtain rfl : first = last := by simpa using ends
    cases adds with
    | @cons _ entries _ _ added nothing =>
      cases nothing
      rw [BinlogRecord.Has, added gtid, List.flatten_singleton]
  | cons second rest ih =>
    obtain ⟨follows,linked⟩ := List.isChain_cons_cons.mp linked
    cases adds with
    | @cons _ entries _ others added adds =>
      rw [List.getLast?_cons_cons] at ends
      rw [ih linked adds ends, follows.contains, BinlogRecord.Has, added gtid, List.flatten_cons, commits_append, or_assoc]

namespace Storage

section
variable [Externals] {s t : Storage} {log : Option FileLog} {history : History}

omit [Externals] in
theorem contains_getGtids (mode : s.replicationMode = .gtid) {record : BinlogRecord}
    (last : s.records.getLast? = some record) (gtid : Gtid) : s.getGtids.contains gtid ↔ record.Has gtid := by
  simp only [getGtids, if_pos mode, last, BinlogRecord.Has]
  cases record.addedGtids with
  | none => simp [GtidSet.not_contains_empty]
  | some added => exact GtidSet.contains_add _ _ _

/-- The records are linked, and the previous gtids of the first one are those that counted as purged when the first
    file was created and those of the files that have been removed. -/
structure Chained (s : Storage) (history : History) : Prop where
  started : s.records = [] → history.gone = []
  linked : s.replicationMode = .gtid → s.records.IsChain BinlogRecord.Follows
  first : s.replicationMode = .gtid → ∀ record ∈ s.records.head?, ∀ gtid,
    (record.previousGtids.getD .empty).contains gtid ↔ history.purgedGtids.contains gtid ∨ Commits history.gone gtid

omit [Externals] in
/-- A change of the last record that leaves its previous gtids. -/
theorem Chained.changeLast (chained : Chained s history) {record changed : BinlogRecord}
    (last : s.records.getLast? = some record) (mode : t.replicationMode = s.replicationMode)
    (records : t.records = s.records.dropLast ++ [changed]) (same : changed.previousGtids = record.previousGtids) :
    Chained t history := by
  have shape := dropLast_append_last last
  refine ⟨?_,?_,?_⟩
  · intro none
    simp [records] at none
  · intro gtidMode
    have linked := chained.linked (mode ▸ gtidMode)
    rw [shape, List.isChain_append] at linked
    rw [records, List.isChain_append]
    refine ⟨linked.1,List.isChain_singleton _,?_⟩
    intro earlier before later after
    obtain rfl : changed = later := by simpa using after
    obtain ⟨previous,added,known,between,follows⟩ := linked.2.2 earlier before record (by simp)
    exact ⟨previous,added,known,between,same.trans follows⟩
  · intro gtidMode other head gtid
    have first := chained.first (mode ▸ gtidMode)
    rw [shape] at first
    rw [records] at head
    cases front : s.records.dropLast with
    | nil =>
      obtain rfl : changed = other := by simpa [front] using head
      rw [same]
      exact first record (by simp [front]) gtid
    | cons old rest => exact first other (by simpa [front] using head) gtid

theorem Chained.flushes {stream : Stream} {record : BinlogRecord} (chained : Chained s history)
    (last : s.records.getLast? = some record) (flush : t = s ∨ Flushes s stream record t) : Chained t history := by
  rcases flush with rfl | ⟨-,-,rfl⟩
  · exact chained
  · exact chained.changeLast last rfl rfl rfl

/-- A new file has all gtids of the storage as its previous ones. -/
theorem Chained.created (chained : Chained s history) (files : history.files = [] ↔ s.records = [])
    (validated : ∀ record, s.records.getLast? = some record →
      validateBinlogMetadata s.replicationMode record = .ok ()) (name : CompositeBinlogName) :
    Chained (s.created name) (history.create s.purgedGtids) := by
  refine ⟨by simp,?_,?_⟩
  · intro mode
    rw [created_replicationMode] at mode
    rw [created_records, List.isChain_append]
    refine ⟨chained.linked mode,List.isChain_singleton _,?_⟩
    intro earlier last later new
    obtain rfl : s.newRecord name = later := by simpa using new
    obtain ⟨previous,added⟩ := validateBinlogMetadata_eq_ok.mp (validated earlier last)
    obtain ⟨previous,before⟩ := Option.isSome_iff_exists.mp (previous.mpr mode)
    obtain ⟨added,between⟩ := Option.isSome_iff_exists.mp (added.mpr mode)
    refine ⟨previous,added,before,between,?_⟩
    have known : s.records.getLast? = some earlier := last
    simp [newRecord,getGtids,mode,known,before,between]
  · intro mode record head gtid
    rw [created_replicationMode] at mode
    rw [created_records] at head
    by_cases empty : s.records = []
    · obtain rfl : s.newRecord name = record := by simpa [empty] using head
      simp [newRecord,getGtids,mode,empty,files.mpr empty,chained.started empty]
    · have old : record ∈ s.records.head? := by
        obtain ⟨first,rest,shape⟩ := List.exists_cons_of_ne_nil empty
        simpa [shape] using head
      simp only [History.create_purgedGtids, History.create_gone, if_neg (fun none => empty (files.mp none))]
      exact chained.first mode record old gtid

theorem Chained.move {operation : Operation} (chained : Chained s history)
    (files : history.files = [] ↔ s.records = [])
    (validated : ∀ record, s.records.getLast? = some record →
      validateBinlogMetadata s.replicationMode record = .ok ()) (move : Move s operation t) :
    Chained t (operation.chronicle s history) := by
  cases move with
  | setPurgedGtids valid mode empty => exact ⟨chained.started,chained.linked,chained.first⟩
  | @create name idle new checkpoint =>
    have unknown : s.records.any (fun record => decide (record.name = name)) = false := by simpa using new
    simp only [Operation.chronicle, unknown, Bool.false_eq_true, if_false]
    obtain ⟨started,linked,first⟩ := chained.created files validated name
    exact ⟨started,linked,first⟩
  | @reopen record content idle last found checkpoint =>
    have known : s.records.any (fun other => decide (other.name = record.name)) = true := by
      simpa using ⟨record,List.mem_of_getLast? last,rfl⟩
    simp only [Operation.chronicle, known, if_true]
    exact ⟨chained.started,chained.linked,chained.first⟩
  | @write entry gtids m stream record opened last added flush checkpoint =>
    have buffered : Chained (s.withBuffer (s.buffer.write entry gtids)) history :=
      ⟨chained.started,chained.linked,chained.first⟩
    obtain ⟨started,linked,first⟩ := buffered.flushes last flush
    exact ⟨started,linked,first⟩
  | discard => exact ⟨chained.started,chained.linked,chained.first⟩
  | idle => exact chained
  | flush opened last flush => exact chained.flushes last flush
  | close opened last flush checkpoint =>
    obtain ⟨started,linked,first⟩ := chained.flushes last (flush.imp_left And.left)
    exact ⟨started,linked,first⟩

omit [Externals] in
/-- A storage that is constructed over the files has their records, in the mode the files were written in. -/
theorem Chained.taken {r : Storage} (chained : Chained s history) (records : r.records = s.records)
    (mode : s.records ≠ [] → r.replicationMode = s.replicationMode) : Chained r history := by
  by_cases empty : s.records = []
  · rw [empty] at records
    refine ⟨fun _ => chained.started empty,?_,?_⟩
    · intro _
      rw [records]
      exact .nil
    · intro _ record head
      simp [records] at head
  · refine ⟨?_,?_,?_⟩
    · intro none
      exact absurd (records ▸ none) empty
    · intro gtidMode
      rw [records]
      exact chained.linked (mode empty ▸ gtidMode)
    · intro gtidMode
      rw [records]
      exact chained.first (mode empty ▸ gtidMode)

omit [Externals] in
/-- The oldest files are removed: the first one that is left has their transactions among its previous gtids. -/
theorem Chained.purge {removed kept : List BinlogRecord} (chained : Chained s history)
    (shape : s.records = removed ++ kept) (victims : removed ≠ []) (left : kept ≠ [])
    (written : List.Forall₂ (Written s.backend.objects s.replicationMode) s.records history.files) :
    Chained (s.purged removed kept) (history.purge removed.length) := by
  refine ⟨fun none => absurd none left,?_,?_⟩
  · intro mode
    have linked := chained.linked mode
    rw [shape, List.isChain_append] at linked
    exact linked.2.1
  · intro mode record head gtid
    obtain ⟨first,rest,rfl⟩ := List.exists_cons_of_ne_nil victims
    have linked := chained.linked mode
    rw [shape, List.isChain_append] at linked
    obtain ⟨last,ends⟩ : ∃ last, (first :: rest).getLast? = some last := ⟨_,List.getLast?_eq_some_getLast (by simp)⟩
    have follows := linked.2.2 last ends record head
    have adds : List.Forall₂ BinlogRecord.Adds (first :: rest) (history.files.take (first :: rest).length) := by
      have front := List.forall₂_take (first :: rest).length written
      rw [shape, List.take_left, show s.replicationMode = .gtid from mode] at front
      exact front.imp fun _ _ written => written.adds
    rw [follows.contains, last_has linked.1 adds ends, chained.first mode first (by simp [shape]) gtid]
    simp only [History.purge_purgedGtids, History.purge_gone, commits_append, or_assoc]

/-- The destructor. -/
theorem Chained.destroyed (chained : Chained s history) (tracked : Tracked s log) :
    Chained s.flushedAtLast (history.destroy s) := by
  have flushed : Chained s.flushedAtLast history := by
    rcases tracked.flushedAtLast_cases with same | ⟨stream,record,-,last,flush⟩
    · rw [same]
      exact chained
    · exact chained.flushes last (.inr flush)
  exact ⟨flushed.started,flushed.linked,flushed.first⟩

theorem Run.chained (run : Run s log history) : Chained s history := by
  induction run with
  | @start type mode checkpoint u s constructed =>
    have records := Consistent.restores (s := fresh .streaming mode checkpoint { type := type, objects := .empty } .empty [])
      ⟨by simp [fresh],by simp [fresh],by simp [fresh],by simp [fresh],GtidSet.valid_empty⟩ rfl (fun _ _ => rfl) (by decide)
      constructed
    have empty : s.records = [] := records
    refine ⟨fun _ => rfl,?_,?_⟩
    · intro _
      rw [empty]
      exact .nil
    · intro _ record head
      simp [empty] at head
  | @step s t log history run operation now u allowed returned ih =>
    refine ih.move ?_ (fun record last => (run.tracked.sound.current record last).validated)
      (run.tracked.move allowed returned)
    obtain ⟨persisted,fronts,written⟩ := run.written
    rw [← List.length_eq_zero_iff, ← List.length_eq_zero_iff, ← fronts.length_eq, written.length_eq]
  | @restart s t log history run mode checkpoint u constructed ih =>
    obtain ⟨modes,written⟩ := run.chronicled.destroyed run.tracked run.consistent
    obtain ⟨records,inMode⟩ := constructed_records (run.consistent.step run.tracked.destroyed) (modes ▸ written)
      (by rw [destroy_eq]; rfl) (by decide) constructed
    exact (ih.destroyed run.tracked).taken records inMode
  | @purge s p q t log history run mode settings checkpoint u v target result examined purged constructed ih =>
    have healthy := run.tracked.destroy.1
    obtain ⟨same,written⟩ := run.chronicled.destroyed run.tracked run.consistent
    have consistent := run.consistent.step run.tracked.destroyed
    have before : Consistent p := consistent.constructed healthy (by rw [destroy_eq]; rfl) (by decide) examined
    have files := Chronicled.constructed consistent (same ▸ written) healthy (by rw [destroy_eq]; rfl) (by decide) examined
    obtain ⟨records,inMode⟩ := constructed_records consistent (same ▸ written) (by rw [destroy_eq]; rfl) (by decide)
      examined
    obtain ⟨-,-,-,kept,shape,victims,left,rfl⟩ := purge_ok healthy examined purged
    have trimmed := ((ih.destroyed run.tracked).taken records inMode).purge shape victims left files
    rw [destroy_purging (s := p.purged result.1 kept) (purgeBinlogs_purging purged).1] at constructed
    obtain ⟨records,inMode⟩ := constructed_records (before.purge shape left) (Chronicled.purge before files shape)
      (Backend.withStream_objects _ _) (by decide) constructed
    exact trimmed.taken records inMode

/-- What a file has and what its record says: the file has whole transactions, and the gtids the record has added are
    theirs. -/
structure Recounts (s : Storage) (record : BinlogRecord) (entries : List EventEntry) : Prop where
  ends : EndsMarked EventEntry.atTransactionBoundary entries
  content : s.backend.objects.find? record.name.str = some (magicBinlogPayload ++ bytesOf entries)
  added : ∃ added, record.addedGtids = some added ∧ ∀ gtid, added.contains gtid ↔ Commits entries gtid

/-- In the mode for gtids, the records tell of the transactions in their files, each one has what the one before it
    had and added as its previous gtids, and once there is a file the gtids of the storage are those that counted as
    purged when the first one was created and those of all transactions that were ever stored. -/
theorem gtids_chained (run : Run s log history) (mode : s.replicationMode = .gtid) :
    ∃ persisted, List.Forall₂ (· <+: ·) persisted history.files ∧ List.Forall₂ (Recounts s) s.records persisted ∧
      s.records.IsChain BinlogRecord.Follows ∧
      (s.records ≠ [] → ∀ gtid, s.getGtids.contains gtid ↔
        history.purgedGtids.contains gtid ∨ Commits (history.gone ++ persisted.flatten) gtid) := by
  obtain ⟨persisted,fronts,written⟩ := run.written
  have chained := run.chained
  rw [mode] at written
  refine ⟨persisted,fronts,written.imp ?_,chained.linked mode,?_⟩
  · intro record entries written
    obtain ⟨added,known⟩ := Option.isSome_iff_exists.mp (written.describes.inMode.mpr rfl)
    have adds := written.adds
    rw [BinlogRecord.Adds, known] at adds
    exact ⟨written.ends,written.content,added,known,adds⟩
  · intro some gtid
    obtain ⟨first,rest,shape⟩ := List.exists_cons_of_ne_nil some
    have linked := chained.linked mode
    have adds := written.imp fun _ _ written => written.adds
    have ends : s.records.getLast? = .some (s.records.getLast some) := List.getLast?_eq_some_getLast some
    rw [contains_getGtids mode ends, commits_append, ← or_assoc, ← chained.first mode first (by simp [shape]) gtid]
    rw [shape] at linked adds
    exact last_has linked adds (shape ▸ ends) gtid

end

section
open FlatJson
attribute [local instance] externals

namespace Sample

private theorem fourth_valid : (GtidSet.Sample.uuid = .nil ∧ Tag.none = .none ∧ 4 = 0) ∨
    (¬ GtidSet.Sample.uuid.isEmpty ∧ minGno ≤ 4 ∧ 4 ≤ maxGno) := by decide

def fourth : EventEntry := { entry "four" true with transactionGtid := ⟨GtidSet.Sample.uuid,.none,4,fourth_valid⟩ }

/-- The transactions 1 to 3 count as purged, the fourth one goes to the first file, and there is a second file. -/
def chain : List (Operation × Nat) :=
  [(.setPurgedGtids GtidSet.Sample.first GtidSet.Sample.first_valid,0),(.openBinlog CompositeBinlogName.Sample.first,0),
    (.writeEvent fourth,0),(.closeBinlog,0),(.openBinlog CompositeBinlogName.Sample.second,0)]

end Sample

/-- The second file has the gtids that counted as purged and the fourth one as its previous ones. -/
theorem gtids_chained_two : ∃ s log history earlier later persisted, Run s log history ∧ s.replicationMode = .gtid ∧
    s.records = [earlier,later] ∧ earlier.Follows later ∧ List.Forall₂ (Recounts s) s.records persisted ∧
    ∀ gtid, s.getGtids.contains gtid ↔
      GtidSet.Sample.first.contains gtid ∨ Commits (history.gone ++ persisted.flatten) gtid := by
  have known : (follow Sample.chain ⟨Sample.emptyStorage,none,{}⟩).map
      (fun x => (x.storage.replicationMode,x.storage.records.length,x.history.purgedGtids)) =
        some (.gtid,2,GtidSet.Sample.first) := by decide +kernel
  cases followed : follow Sample.chain ⟨Sample.emptyStorage,none,{}⟩ with
  | none => simp [followed] at known
  | some x =>
    have run := follow_run Sample.emptyStorage_run followed
    rw [followed, Option.map_some, Option.some.injEq, Prod.mk.injEq, Prod.mk.injEq] at known
    obtain ⟨mode,two,purged⟩ := known
    obtain ⟨earlier,later,records⟩ := List.length_eq_two.mp two
    obtain ⟨persisted,-,recounts,linked,gtids⟩ := gtids_chained run mode
    rw [records] at linked
    rw [purged] at gtids
    exact ⟨x.storage,x.log,x.history,earlier,later,persisted,run,mode,records,(List.isChain_cons_cons.mp linked).1,recounts,
      gtids (by simp [records])⟩

end
end Storage
end BinlogServer.Store
