import BinlogServer.Store.Purging

/-!
# Construction for queries while the backend changes

In the mode `querying_only` nothing is locked: other processes may add and remove objects between the calls of the
constructor. Each call sees the objects of its own moment.
-/

namespace BinlogServer.Store
open ByteString Util Gtids Events

/-- The objects at the moment of each call: of the listing, of the metadata of the storage, of the index, and then of
    the metadata of the files, in the order of the index. -/
abbrev Moments := Nat → Objects

/-- What becomes of a construction. Where the front of an empty list of records is read, the behaviour is undefined. -/
inductive Construction where
  | raises (failure : Failure)
  | yields (records : List BinlogRecord) (purgedGtids : GtidSet)
  | readsFrontOfNone
deriving DecidableEq

namespace Storage

section
variable [Externals]

/-- A storage that is being constructed for queries, at a moment. -/
def querying (type : BackendType) (mode : ReplicationMode) (objects : Objects) (records : List BinlogRecord) : Storage :=
  ⟨.queryingOnly,{ type := type, objects := objects },mode,.empty,records,{},{}⟩

/-- The loop of `load_and_validate_binlog_metadata_set`, with the call for the first record at the given moment. -/
def loadRecordsAt (type : BackendType) (mode : ReplicationMode) (moments : Moments) (metadataObjects : List (Bytes × Nat)) :
    Nat → List BinlogRecord → Fallible (List BinlogRecord)
  | _, [] => .ok []
  | moment, record :: rest =>
    match (querying type mode (moments moment) []).loadBinlogMetadata metadataObjects record.name with
    | .error _ => loadRecordsAt type mode moments metadataObjects (moment + 1) rest
    | .ok loaded => do
      validateBinlogMetadata mode loaded
      let others ← loadRecordsAt type mode moments metadataObjects (moment + 1) rest
      pure (loaded :: others)

/-- The end of `load_and_validate_binlog_metadata_set`, which looks at the first record. -/
def readFront : Fallible (List BinlogRecord) → Construction
  | .error failure => .raises failure
  | .ok [] => .readsFrontOfNone
  | .ok (first :: rest) => .yields (first :: rest) (first.addedGtids.getD .empty)

/-- What has been found when the metadata of the files is loaded. -/
structure Found where
  index : List BinlogRecord
  metadataObjects : List (Bytes × Nat)

/-- The constructor up to the metadata of the files; there may be none to load. -/
def findIndex (type : BackendType) (mode : ReplicationMode) (moments : Moments) : Fallible (Option Found) :=
  let objects := (querying type mode (moments 0) []).backend.listObjects
  if objects = [] then .ok none
  else do
    raiseIf (!isListed objects metadataName) .logicError "storage is not empty but does not contain metadata"
    let content ← (querying type mode (moments 1) []).backend.getObject metadataName
    let stored ← StorageMetadata.parse content
    raiseIf (stored ≠ mode) .logicError
      "replication mode provided to initialize storage differs from the one stored in metadata"
    let objects := objects.filter (·.1 ≠ metadataName)
    if objects = [] then pure none
    else if !isListed objects defaultBinlogIndexName then pure none
    else do
      let objects := objects.filter (·.1 ≠ defaultBinlogIndexName)
      let index ← (querying type mode (moments 2) []).loadBinlogIndex
      pure (some ⟨index,objects.filter (extension ·.1 = binlogMetadataExtension)⟩)

/-- `storage::storage` in the mode `querying_only`. -/
def constructQuerying (type : BackendType) (mode : ReplicationMode) (moments : Moments) : Construction :=
  match findIndex type mode moments with
  | .error failure => .raises failure
  | .ok none => .yields [] .empty
  | .ok (some found) => readFront (loadRecordsAt type mode moments found.metadataObjects 3 found.index)

section
variable {type : BackendType} {mode : ReplicationMode} {moments : Moments} {metadataObjects : List (Bytes × Nat)}

/-- The metadata of a file is listed, and at its moment it is stored and valid. -/
def LoadedAt (type : BackendType) (mode : ReplicationMode) (moments : Moments) (metadataObjects : List (Bytes × Nat)) (moment : Nat)
    (name : CompositeBinlogName) (loaded : BinlogRecord) : Prop :=
  (querying type mode (moments moment) []).loadBinlogMetadata metadataObjects name = .ok loaded

theorem LoadedAt.stored {moment : Nat} {name : CompositeBinlogName} {loaded : BinlogRecord}
    (load : LoadedAt type mode moments metadataObjects moment name loaded) : loaded.name = name ∧
      ∃ content, (moments moment).find? (generateBinlogMetadataName name) = some content ∧
        BinlogFileMetadata.parse name content = .ok loaded := by
  simp only [LoadedAt, loadBinlogMetadata, bind_eq_ok, raiseIf_eq_ok, exists_const] at load
  obtain ⟨-,content,got,parsed⟩ := load
  exact ⟨(BinlogFileMetadata.parse_ok parsed).1,content,getObject_eq_ok got,parsed⟩

/-- The records that are loaded are some of the index, as they were stored. -/
theorem loadRecordsAt_ok {moment : Nat} {index records : List BinlogRecord}
    (run : loadRecordsAt type mode moments metadataObjects moment index = .ok records) :
    (records.map BinlogRecord.name).Sublist (index.map BinlogRecord.name) ∧
      ∀ record ∈ records, ∃ i < index.length, LoadedAt type mode moments metadataObjects (moment + i) record.name record := by
  induction index generalizing moment records with
  | nil =>
    cases run
    simp
  | cons first rest ih =>
    rw [loadRecordsAt] at run
    cases load : (querying type mode (moments moment) []).loadBinlogMetadata metadataObjects first.name with
    | error failure =>
      rw [load] at run
      obtain ⟨sub,stored⟩ := ih run
      refine ⟨sub.cons _,fun record member => ?_⟩
      obtain ⟨i,inside,load⟩ := stored record member
      exact ⟨i + 1,by simpa using inside,by rwa [show moment + (i + 1) = moment + 1 + i by omega]⟩
    | ok loaded =>
      simp only [load, bind_eq_ok, pure_eq_ok] at run
      obtain ⟨-,-,others,later,rfl⟩ := run
      obtain ⟨sub,stored⟩ := ih later
      have loadedAt : LoadedAt type mode moments metadataObjects moment first.name loaded := load
      have name := loadedAt.stored.1
      refine ⟨?_,fun record member => ?_⟩
      · rw [List.map_cons, List.map_cons, name]
        exact sub.cons_cons _
      · rcases List.mem_cons.mp member with rfl | inside
        · exact ⟨0,by simp,name ▸ loadedAt⟩
        · obtain ⟨i,bound,load⟩ := stored record inside
          exact ⟨i + 1,by simpa using bound,by rwa [show moment + (i + 1) = moment + 1 + i by omega]⟩

/-- No record is left just when none can be loaded. -/
theorem loadRecordsAt_none {moment : Nat} {index : List BinlogRecord} :
    loadRecordsAt type mode moments metadataObjects moment index = .ok [] ↔
      ∀ i record loaded, index[i]? = some record → ¬ LoadedAt type mode moments metadataObjects (moment + i) record.name loaded := by
  induction index generalizing moment with
  | nil => simp [loadRecordsAt]
  | cons first rest ih =>
    rw [loadRecordsAt]
    cases load : (querying type mode (moments moment) []).loadBinlogMetadata metadataObjects first.name with
    | error failure =>
      simp only [ih]
      constructor
      · intro none i record loaded known
        cases i with
        | zero =>
          cases known
          intro (loadedAt : _ = _)
          cases load.symm.trans loadedAt
        | succ i =>
          rw [show moment + (i + 1) = moment + 1 + i by omega]
          exact none i record loaded known
      · intro none i record loaded known
        rw [show moment + 1 + i = moment + (i + 1) by omega]
        exact none (i + 1) record loaded known
    | ok loaded =>
      refine iff_of_false ?_ fun none => none 0 first loaded rfl load
      intro run
      simp only [bind_eq_ok, pure_eq_ok] at run
      obtain ⟨-,-,others,-,more⟩ := run
      cases more

theorem exists_loadedAt {moment : Nat} {index : List BinlogRecord}
    (some : loadRecordsAt type mode moments metadataObjects moment index ≠ .ok []) :
    ∃ i record loaded, index[i]? = .some record ∧ LoadedAt type mode moments metadataObjects (moment + i) record.name loaded := by
  by_contra none
  apply some
  rw [loadRecordsAt_none]
  intro i record loaded known load
  exact none ⟨i,record,loaded,known,load⟩

/-- What a construction is to be: it raises, or the records are some of the index that was loaded, and each was stored
    as the metadata of its file at a moment of the construction. -/
def Construction.Sound (type : BackendType) (mode : ReplicationMode) (moments : Moments) : Construction → Prop
  | .raises _ => True
  | .readsFrontOfNone => False
  | .yields records _ => records = [] ∨ ∃ found, findIndex type mode moments = .ok (some found) ∧
      (records.map BinlogRecord.name).Sublist (found.index.map BinlogRecord.name) ∧
      ∀ record ∈ records, ∃ moment < 3 + found.index.length, ∃ content,
        (moments moment).find? (generateBinlogMetadataName record.name) = some content ∧
          BinlogFileMetadata.parse record.name content = .ok record

/-- Whatever the other processes do, a construction is sound just when some file of the index that is loaded has
    metadata that was in the listing and can be loaded at its moment. -/
theorem querying_sound_iff (type : BackendType) (mode : ReplicationMode) (moments : Moments) :
    Construction.Sound type mode moments (constructQuerying type mode moments) ↔
      ∀ found, findIndex type mode moments = .ok (some found) → ∃ i record loaded, found.index[i]? = some record ∧
        LoadedAt type mode moments found.metadataObjects (3 + i) record.name loaded := by
  unfold constructQuerying
  cases started : findIndex type mode moments with
  | error failure => simp [Construction.Sound]
  | ok some =>
    cases some with
    | none => simp [Construction.Sound]
    | some found =>
      simp only [Except.ok.injEq, Option.some.injEq, forall_eq']
      cases run : loadRecordsAt type mode moments found.metadataObjects 3 found.index with
      | error failure =>
        exact iff_of_true trivial (exists_loadedAt (by rw [run]; simp))
      | ok records =>
        cases records with
        | nil =>
          refine iff_of_false id ?_
          rintro ⟨i,record,loaded,known,load⟩
          exact loadRecordsAt_none.mp run i record loaded known load
        | cons first rest =>
          obtain ⟨sub,stored⟩ := loadRecordsAt_ok run
          refine iff_of_true (.inr ⟨found,started,sub,fun record member => ?_⟩) (exists_loadedAt (by rw [run]; simp))
          obtain ⟨i,inside,load⟩ := stored record member
          exact ⟨3 + i,by omega,load.stored.2⟩

end

/-- What `construct` has for it. It takes the front of an empty list for a record without gtids. -/
def Construction.settled (mode : ReplicationMode) (checkpoint : Checkpoint) (b : Backend) :
    Construction → EStateM.Result Failure Storage Unit
  | .raises failure => .error failure (fresh .queryingOnly mode checkpoint b .empty [])
  | .yields records purged => .ok () (fresh .queryingOnly mode checkpoint b purged records)
  | .readsFrontOfNone => .ok () (fresh .queryingOnly mode checkpoint b .empty [])

theorem loadRecordsAt_constant (mode : ReplicationMode) (checkpoint : Checkpoint) (b : Backend)
    (objects metadataObjects : List (Bytes × Nat)) (moment : Nat) (records index : List BinlogRecord) :
    loadRecordsAt b.type mode (fun _ => b.objects) metadataObjects moment index =
      (fresh .queryingOnly mode checkpoint b .empty records).loadRecords objects metadataObjects index := by
  induction index generalizing moment with
  | nil => rfl
  | cons first rest ih =>
    have same : (querying b.type mode b.objects []).loadBinlogMetadata metadataObjects first.name =
        (fresh .queryingOnly mode checkpoint b .empty records).loadBinlogMetadata metadataObjects first.name := rfl
    rw [loadRecordsAt, loadRecords, same]
    cases (fresh .queryingOnly mode checkpoint b .empty records).loadBinlogMetadata metadataObjects first.name with
    | error failure => exact ih _
    | ok loaded =>
      simp only [ih]
      rfl

/-- The last part of the constructor, where the records are set. -/
theorem loadAndValidateBinlogMetadataSet_querying (mode : ReplicationMode) (checkpoint : Checkpoint) (b : Backend)
    (objects metadataObjects : List (Bytes × Nat)) (index : List BinlogRecord) :
    ((liftM (((fresh .queryingOnly mode checkpoint b .empty []).withRecords index).loadAndValidateBinlogMetadataSet
        objects metadataObjects) : Action Storage _) >>= fun x => modify fun s =>
          (s.withRecords x.1).withPurgedGtids x.2) (fresh .queryingOnly mode checkpoint b .empty []) =
      Construction.settled mode checkpoint b
        (readFront (loadRecordsAt b.type mode (fun _ => b.objects) metadataObjects 3 index)) := by
  have known : ((fresh .queryingOnly mode checkpoint b .empty []).withRecords index) =
    fresh .queryingOnly mode checkpoint b .empty index := rfl
  rw [known, loadAndValidateBinlogMetadataSet, loadRecordsAt_constant mode checkpoint b objects metadataObjects 3 index]
  have records : (fresh .queryingOnly mode checkpoint b .empty index).records = index := rfl
  rw [records]
  cases (fresh .queryingOnly mode checkpoint b .empty index).loadRecords objects metadataObjects index with
  | error failure => rfl
  | ok records =>
    rw [ok_bind, raiseIf_bind, if_neg (fun wrong => wrong.1 rfl)]
    cases records <;> rfl

/-- A construction that nobody interferes with is the one of `construct`. -/
theorem construct_querying (mode : ReplicationMode) (checkpoint : Checkpoint) (b : Backend) :
    construct .queryingOnly mode checkpoint b =
      Construction.settled mode checkpoint b (constructQuerying b.type mode fun _ => b.objects) := by
  have unlisted {objects : List (Bytes × Nat)} {name : Bytes} :
      (!isListed objects name) = true ↔ name ∉ objects.map Prod.fst := by simp [isListed]
  have listed : (querying b.type mode b.objects []).backend.listObjects = b.listObjects := rfl
  have read (name : Bytes) : (querying b.type mode b.objects []).backend.getObject name = b.getObject name := rfl
  have indexed : (querying b.type mode b.objects []).loadBinlogIndex =
      (fresh .queryingOnly mode checkpoint b .empty []).loadBinlogIndex := rfl
  rw [construct, constructorBody, Action.get_bind_run]
  unfold constructQuerying findIndex
  simp only [listed, read, indexed]
  by_cases empty : b.listObjects = []
  · rw [if_pos empty, if_pos empty]
    rfl
  rw [if_neg empty, if_neg empty, Action.raiseIf_bind_run, raiseIf_bind]
  by_cases missing : metadataName ∉ b.listObjects.map Prod.fst
  · rw [if_pos missing, if_pos (unlisted.mpr missing)]
    rfl
  rw [if_neg missing, if_neg (unlisted.not.mpr missing)]
  cases b.getObject metadataName with
  | error failure => rfl
  | ok content =>
  rw [Action.lift_ok_bind_run, ok_bind]
  cases StorageMetadata.parse content with
  | error failure => rfl
  | ok stored =>
  rw [Action.lift_ok_bind_run, ok_bind, Action.raiseIf_bind_run, raiseIf_bind]
  by_cases other : stored ≠ mode
  · rw [if_pos other, if_pos other]
    rfl
  rw [if_neg other, if_neg other]
  set objects := b.listObjects.filter (·.1 ≠ metadataName)
  by_cases alone : objects = []
  · rw [if_neg (not_not.mpr alone), if_pos alone]
    rfl
  rw [if_pos alone, if_neg alone]
  by_cases unindexed : defaultBinlogIndexName ∉ objects.map Prod.fst
  · rw [if_pos unindexed, if_pos (unlisted.mpr unindexed)]
    rfl
  rw [if_neg unindexed, if_neg (unlisted.not.mpr unindexed)]
  simp only [List.partition_eq_filter_filter]
  set rest := objects.filter (·.1 ≠ defaultBinlogIndexName)
  have start : (⟨.queryingOnly,b,mode,.empty,[],checkpoint,{}⟩ : Storage) =
    fresh .queryingOnly mode checkpoint b .empty [] := rfl
  rw [start]
  cases (fresh .queryingOnly mode checkpoint b .empty []).loadBinlogIndex with
  | error failure => rfl
  | ok index =>
  rw [Action.lift_ok_bind_run, ok_bind]
  have valid (files : List (Bytes × Nat)) : validateBinlogIndex .queryingOnly index files = .ok () := rfl
  rw [valid, Action.lift_ok_bind_run]
  exact loadAndValidateBinlogMetadataSet_querying mode checkpoint b _ _ index

end

section
open FlatJson
attribute [local instance] externals

namespace Sample

/-- The objects of a storage with one file. -/
def withFile (record : BinlogRecord) : Objects :=
  replay .empty [.put metadataName (StorageMetadata.str .position),.put defaultBinlogIndexName (indexText [record]),
    .put record.name.str (ascii "log1"),.put (generateBinlogMetadataName record.name) (BinlogFileMetadata.str record)]

def older : BinlogRecord := ⟨CompositeBinlogName.Sample.first,4,none,none,.empty,0⟩
def newer : BinlogRecord := ⟨CompositeBinlogName.Sample.second,4,none,none,.empty,0⟩

/-- Between the listing and the index, a new file has been opened and the old one has been purged. -/
def overtaken : Moments := fun moment => if moment < 2 then withFile older else withFile newer

end Sample

example : constructQuerying .filesystem .position (fun _ => Sample.withFile Sample.older) = .yields [Sample.older] .empty := by
  decide +kernel

/-- When the only file is purged while another one is opened, the front of an empty list is read. -/
theorem querying_overtaken : constructQuerying .filesystem .position Sample.overtaken = .readsFrontOfNone := by decide +kernel

end
end Storage
end BinlogServer.Store
