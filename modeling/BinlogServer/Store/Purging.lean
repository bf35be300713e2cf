import BinlogServer.Store.Accepting
import BinlogServer.Store.Faults

/-!
# Purges

A purge is refused and changes nothing, or it forgets the files up to its target, saves the index and then tries to
remove the objects of these files one by one. Where all of them are removed, what is left is accepted again.
-/

namespace BinlogServer.Store
open ByteString Util Gtids Events

namespace Backend
open BasicStorageBackend (tryRemoveObjects tryRemoveObjects_of_ok tryRemoveObjects_of_error removeObjects_run)
variable {b c : Backend} {name : Bytes} {names : List Bytes} {failure : Failure}

/-- The backend when the removal of every one of some objects has been tried. -/
def attempted (b : Backend) (names : List Bytes) : Backend :=
  names.foldl (fun b name => (doRemoveObject name).after b) b

/-- None of the removals fails. -/
def AllRemoved (b : Backend) (names : List Bytes) : Prop :=
  ∀ earlier name later, names = earlier ++ name :: later → ∃ c, doRemoveObject name (b.attempted earlier) = .ok () c

/-- The barrier does not fail. -/
def Synced (b : Backend) : Prop := b.type = .filesystem → b.fault = .none

/-- The backend when the removal of some objects has been tried and the barrier has been run. -/
def cleaned (b : Backend) (names : List Bytes) : Backend := doFsync.after (b.attempted names)

@[simp] theorem attempted_nil (b : Backend) : b.attempted [] = b := rfl

@[simp] theorem attempted_cons (b : Backend) (name : Bytes) (rest : List Bytes) :
    b.attempted (name :: rest) = ((doRemoveObject name).after b).attempted rest := rfl

theorem AllRemoved.nil (b : Backend) : b.AllRemoved [] := by
  intro earlier name later shape
  simp at shape

theorem allRemoved_cons {rest : List Bytes} :
    b.AllRemoved (name :: rest) ↔ ∃ c, doRemoveObject name b = .ok () c ∧ c.AllRemoved rest := by
  constructor
  · intro removed
    obtain ⟨c,first⟩ := removed [] name rest rfl
    rw [attempted_nil] at first
    refine ⟨c,first,?_⟩
    intro earlier other later shape
    have next := removed (name :: earlier) other later (by rw [shape, List.cons_append])
    rwa [attempted_cons, Action.after_ok first] at next
  · rintro ⟨c,first,others⟩ earlier other later shape
    cases earlier with
    | nil =>
      cases shape
      exact ⟨c,first⟩
    | cons before earlier =>
      obtain ⟨rfl,behind⟩ := List.cons.inj shape
      rw [attempted_cons, Action.after_ok first]
      exact others earlier other later behind

theorem request_message {effect : Effect} {fileMessage s3Message : String} (file : fileMessage ≠ "") (s3 : s3Message ≠ "")
    (run : request effect fileMessage s3Message b = .error failure c) : failure.message ≠ "" := by
  obtain ⟨type,objects,stream,faults,effects⟩ := b
  have message : (if type = .filesystem then fileMessage else s3Message) ≠ "" := by split <;> assumption
  cases faults with
  | nil => cases run
  | cons fault rest =>
    cases fault with
    | none => cases run
    | _ =>
      cases run
      exact message

/-- A removal that fails has a message. -/
theorem doRemoveObject_message (run : doRemoveObject name b = .error failure c) : failure.message ≠ "" := by
  simp only [doRemoveObject, Action.bind_eq_error, Action.lift_eq_error, raiseIf_eq_error] at run
  rcases run with run | ⟨_,_,-,⟨⟨-,rfl⟩,-⟩ | ⟨_,_,-,run⟩⟩
  · simp at run
  · simp
  · exact request_message (by decide) (by decide) run

/-- Every removal is tried, whatever the ones before it did. -/
theorem tryRemoveObjects_attempted (b : Backend) (names : List Bytes) :
    (tryRemoveObjects doRemoveObject names b).2 = b.attempted names := by
  induction names generalizing b with
  | nil => rfl
  | cons name rest ih =>
    rw [attempted_cons]
    cases first : doRemoveObject name b with
    | ok u c => rw [tryRemoveObjects_of_ok first, Action.after_ok first, ih]
    | error failure c => rw [tryRemoveObjects_of_error first, Action.after_error first, ih]

theorem tryRemoveObjects_none (b : Backend) (names : List Bytes) :
    (tryRemoveObjects doRemoveObject names b).1 = none ↔ b.AllRemoved names := by
  induction names generalizing b with
  | nil => exact iff_of_true rfl (.nil b)
  | cons name rest ih =>
    rw [allRemoved_cons]
    cases first : doRemoveObject name b with
    | ok u c =>
      rw [tryRemoveObjects_of_ok first, ih]
      constructor
      · exact fun others => ⟨c,rfl,others⟩
      · rintro ⟨_,⟨⟩,others⟩
        exact others
    | error failure c => simp [tryRemoveObjects_of_error first]

theorem tryRemoveObjects_message (run : (tryRemoveObjects doRemoveObject names b).1 = some failure) :
    failure.message ≠ "" := by
  induction names generalizing b with
  | nil => cases run
  | cons name rest ih =>
    cases first : doRemoveObject name b with
    | ok u c =>
      rw [tryRemoveObjects_of_ok first] at run
      exact ih run
    | error other c =>
      rw [tryRemoveObjects_of_error first] at run
      cases run
      exact doRemoveObject_message first

/-- The barrier changes no object, whether it fails or not. -/
theorem doFsync_cases (b : Backend) : (doFsync.after b).objects = b.objects ∧
    (b.Synced ∧ doFsync b = .ok () (doFsync.after b) ∨
      ¬ b.Synced ∧ ∃ failure : Failure, failure.message ≠ "" ∧ doFsync b = .error failure (doFsync.after b)) := by
  obtain ⟨type,objects,stream,faults,effects⟩ := b
  cases type with
  | s3 => exact ⟨rfl,.inl ⟨nofun,rfl⟩⟩
  | filesystem =>
    cases faults with
    | nil => exact ⟨rfl,.inl ⟨fun _ => rfl,rfl⟩⟩
    | cons fault rest =>
      cases fault with
      | none => exact ⟨rfl,.inl ⟨fun _ => rfl,rfl⟩⟩
      | _ => exact ⟨rfl,.inr ⟨by simp [Synced,Backend.fault],⟨.runtimeError,"cannot fsync path"⟩,by simp,rfl⟩⟩

/-- The removals and the barrier succeed, or what is raised has a message. -/
theorem removeObjects_cases (b : Backend) (names : List Bytes) :
    (b.AllRemoved names ∧ (b.attempted names).Synced) ∧ removeObjects names b = .ok () (b.cleaned names) ∨
    ¬ (b.AllRemoved names ∧ (b.attempted names).Synced) ∧
      ∃ failure : Failure, failure.message ≠ "" ∧ removeObjects names b = .error failure (b.cleaned names) := by
  rw [removeObjects, removeObjects_run, tryRemoveObjects_attempted, ← tryRemoveObjects_none]
  rcases (doFsync_cases (b.attempted names)).2 with ⟨synced,barrier⟩ | ⟨unsynced,failure,message,barrier⟩
  · rw [Action.bind_of_ok barrier]
    cases tried : (tryRemoveObjects doRemoveObject names b).1 with
    | none => exact .inl ⟨⟨rfl,synced⟩,rfl⟩
    | some failure => exact .inr ⟨by simp,failure,tryRemoveObjects_message tried,rfl⟩
  · exact .inr ⟨fun all => unsynced all.2,failure,message,Action.bind_eq_error.mpr (.inl barrier)⟩

theorem doRemoveObject_eq_ok {u : Unit} (run : doRemoveObject name b = .ok u c) :
    c = b.popped.perform (.remove name) := by
  simp only [doRemoveObject, Action.bind_eq_ok, Action.get_eq_ok, Action.lift_eq_ok] at run
  obtain ⟨_,_,⟨rfl,rfl⟩,_,_,⟨-,rfl⟩,run⟩ := run
  rcases request_cases (b := b) (.remove name) "cannot remove underlying object file"
    "cannot delete object from S3 bucket" with ⟨-,ran⟩ | ⟨-,failure,⟨-,ran⟩ | ⟨-,ran⟩⟩
  · cases ran.symm.trans run
    rfl
  · cases ran.symm.trans run
  · cases ran.symm.trans run

/-- Where none of the removals fails, the objects are gone and the others are as they were. -/
theorem AllRemoved.objects (removed : b.AllRemoved names) :
    (b.cleaned names).objects = replay b.objects (names.map .remove) := by
  rw [cleaned, (doFsync_cases _).1]
  induction names generalizing b with
  | nil => rfl
  | cons name rest ih =>
    obtain ⟨c,first,later⟩ := allRemoved_cons.mp removed
    rw [attempted_cons, Action.after_ok first, ih later, doRemoveObject_eq_ok first]
    rfl

end Backend

namespace Storage

section
variable {s t : Storage} {target : CompositeBinlogName} {removed kept : List BinlogRecord}

/-- No purge of the files up to the target is possible: there are none, or the target is no file of the storage, or
    the last one. -/
def Refused (records : List BinlogRecord) (target : CompositeBinlogName) : Prop :=
  records = [] ∨ (∃ first ∈ records.head?, first.name.baseName ≠ target.baseName) ∨
    (∀ record ∈ records, record.name ≠ target) ∨ ∃ last ∈ records.getLast?, last.name = target

/-- A purge when its target has been found. -/
def commitPurge (removed kept : List BinlogRecord) : Action Storage (List BinlogRecord × String) := do
  modify fun s => s.withRecords kept
  saveBinlogIndex
  let warning ← removeVictims (purgeNames removed)
  pure (removed,warning)

/-- A purge whose target is refused changes nothing. -/
theorem purgeBinlogs_refused (distinct : (s.records.map BinlogRecord.name).Nodup) (refused : Refused s.records target) :
    ∃ failure, purgeBinlogs target s = .error failure s := by
  simp only [purgeBinlogs, ensurePurgingMode, Action.get_bind_run, bind_assoc, Action.raiseIf_bind_run]
  split_ifs with mode empty foreign absent last
  any_goals exact ⟨_,rfl⟩
  exfalso
  rcases refused with none | ⟨first,head,differ⟩ | missing | ⟨record,tail,same⟩
  · exact empty (by simp [isEmpty,none])
  · rw [Option.mem_def.mp head] at foreign
    simp [differ] at foreign
  · exact absent (List.findIdx_eq_length.mpr fun record member => decide_eq_false (missing record member))
  · -- the names are distinct, so that the file that is found is the last one
    have bound : s.records.findIdx (fun x => decide (x.name = target)) < s.records.length :=
      lt_of_le_of_ne List.findIdx_le_length absent
    have found := List.findIdx_getElem (w := bound)
    rw [List.getLast?_eq_getElem?, Option.mem_def, List.getElem?_eq_some_iff] at tail
    obtain ⟨inside,rfl⟩ := tail
    apply last
    apply (@List.Nodup.getElem_inj_iff _ _ distinct _ (by simpa using bound) _ (by simpa using inside)).mp
    rw [List.getElem_map, List.getElem_map, same]
    exact of_decide_eq_true found

/-- A purge with another target is made. -/
theorem purgeBinlogs_commits (purging : s.constructionMode = .purging) (allowed : ¬ Refused s.records target) :
    ∃ removed kept, s.records = removed ++ kept ∧ removed.getLast?.map BinlogRecord.name = some target ∧ kept ≠ [] ∧
      purgeBinlogs target s = commitPurge removed kept s := by
  simp only [Refused, not_or] at allowed
  obtain ⟨some,base,found,tail⟩ := allowed
  simp only [purgeBinlogs, ensurePurgingMode, Action.get_bind_run, bind_assoc, Action.raiseIf_bind_run]
  have here : s.records.findIdx (fun x => decide (x.name = target)) < s.records.length := by
    apply List.findIdx_lt_length.mpr
    simpa using found
  have name := of_decide_eq_true (List.findIdx_getElem (w := here))
  have short : s.records.findIdx (fun x => decide (x.name = target)) ≠ s.records.length - 1 := by
    intro last
    refine tail ⟨_,?_,name⟩
    rw [List.getLast?_eq_getElem?, Option.mem_def, ← last]
    exact List.getElem?_eq_getElem here
  have own : ¬ Option.any (fun x => decide (x.name.baseName ≠ target.baseName)) s.records.head? = true := by
    intro foreign
    cases head : s.records.head? with
    | none => simp [head] at foreign
    | some first => exact base ⟨first,head,by simpa [head] using foreign⟩
  rw [if_neg (not_not.mpr purging), if_neg (by simpa [isEmpty] using some), if_neg own, if_neg here.ne, if_neg short]
  refine ⟨_,_,(List.take_append_drop _ _).symm,?_,?_,rfl⟩
  · rw [List.getLast?_take, if_neg (Nat.succ_ne_zero _), Nat.add_sub_cancel, List.getElem?_eq_getElem here]
    simp [name]
  · rw [ne_eq, List.drop_eq_nil_iff]
    omega

/-- The backend when the index has been saved. -/
def indexed (s : Storage) (kept : List BinlogRecord) : Backend :=
  s.backend.popped.perform (.put defaultBinlogIndexName (indexText kept))

/-- The storage when the removal of every object of the purged files has been tried. -/
@[simps constructionMode backend replicationMode purgedGtids records buffer]
def trimmed (s : Storage) (removed kept : List BinlogRecord) : Storage :=
  { s with
    backend := (s.indexed kept).cleaned (purgeNames removed)
    records := kept }

/-- The storage when the index could not be saved; the call may have taken effect all the same. -/
@[simps! constructionMode backend replicationMode records]
def unindexed (s : Storage) (kept : List BinlogRecord) : Storage :=
  { s with
    backend := if s.backend.fault = .after then s.indexed kept else s.backend.popped
    records := kept }

/-- A purge returns if the index can be saved; otherwise the files are gone from memory only. -/
theorem commitPurge_cases (s : Storage) (removed kept : List BinlogRecord) :
    s.backend.fault = .none ∧ (∃ warning, commitPurge removed kept s = .ok (removed,warning) (s.trimmed removed kept) ∧
      (warning = "" ↔ (s.indexed kept).AllRemoved (purgeNames removed) ∧
        ((s.indexed kept).attempted (purgeNames removed)).Synced)) ∨
    s.backend.fault ≠ .none ∧ ∃ failure, commitPurge removed kept s = .error failure (s.unindexed kept) := by
  have raised : ∀ {failure b}, Backend.putObject defaultBinlogIndexName (indexText kept) s.backend = .error failure b →
      commitPurge removed kept s = .error failure ((s.withRecords kept).withBackend b) := by
    intro failure b put
    simp only [commitPurge, saveBinlogIndex, Action.bind_eq_error, Action.modify_eq_ok, Action.get_eq_ok]
    refine .inr ⟨(),_,rfl,.inl (.inr ⟨_,_,⟨rfl,rfl⟩,?_⟩)⟩
    simp only [onBackend, withRecords_backend, withRecords_records, put]
  rcases Backend.request_cases (b := s.backend) (.put defaultBinlogIndexName (indexText kept))
    "cannot write data to underlying tmp object file" "cannot put object into S3 bucket" with
    ⟨none,put⟩ | ⟨failed,failure,⟨early,put⟩ | ⟨late,put⟩⟩
  · refine .inl ⟨none,?_⟩
    have returned : ∀ {warning}, removeVictims (purgeNames removed) ((s.withRecords kept).withBackend (s.indexed kept)) =
        .ok warning (s.trimmed removed kept) →
          commitPurge removed kept s = .ok (removed,warning) (s.trimmed removed kept) := by
      intro warning tried
      simp only [commitPurge, saveBinlogIndex, Action.bind_eq_ok, Action.modify_eq_ok, Action.get_eq_ok,
        onBackend_eq_ok, Action.pure_eq_ok]
      exact ⟨(),_,rfl,_,_,⟨_,_,⟨rfl,rfl⟩,_,put,rfl⟩,_,_,tried,rfl,rfl⟩
    rcases Backend.removeObjects_cases (s.indexed kept) (purgeNames removed) with ⟨all,tried⟩ | ⟨some,failure,message,tried⟩
    · refine ⟨"",returned ?_,iff_of_true rfl all⟩
      simp only [removeVictims, onBackend, withBackend_backend, tried]
      rfl
    · refine ⟨failure.message,returned ?_,iff_of_false message some⟩
      simp only [removeVictims, onBackend, withBackend_backend, tried]
      rfl
  · refine .inr ⟨failed,failure,?_⟩
    rw [unindexed, if_neg early]
    exact raised put
  · refine .inr ⟨failed,failure,?_⟩
    rw [unindexed, if_pos late]
    exact raised put

end

section
variable [Externals] {objects left : Objects} {mode : ReplicationMode} {removed kept : List BinlogRecord}

/-- Where the index is saved and the objects of the files in front are removed, the rest is accepted. -/
theorem Accepted.purge (accepted : Accepted objects mode (removed ++ kept)) (gone : removed ≠ [])
    (find : ∀ key, left.find? key = if key ∈ purgeNames removed then none
      else if key = defaultBinlogIndexName then some (indexText kept) else objects.find? key) :
    Accepted left mode kept := by
  obtain ⟨restored,readable,listable,entries⟩ := accepted
  have distinct : (kept.map BinlogRecord.name).Nodup :=
    restored.distinct.sublist ((List.sublist_append_right _ _).map _)
  have inside : ∀ record ∈ kept, record ∈ removed ++ kept := fun _ => List.mem_append_right removed
  have index : left.find? defaultBinlogIndexName = some (indexText kept) := by
    rw [find, if_neg (index_notMem_purgeNames removed), if_pos rfl]
  have file : ∀ record ∈ kept, left.find? record.name.str = objects.find? record.name.str := by
    intro record member
    rw [find, if_neg (kept_notMem_purgeNames restored.distinct member).1, if_neg (str_ne_index _)]
  have metadata : ∀ record ∈ kept, left.find? (generateBinlogMetadataName record.name) =
      objects.find? (generateBinlogMetadataName record.name) := by
    intro record member
    rw [find, if_neg (kept_notMem_purgeNames restored.distinct member).2,
      if_neg (generateBinlogMetadataName_ne_index _)]
  have fewer : (kept.map fun record => record.name.str.length + 3).sum ≤ Backend.maxMemoryObjectSize := by
    obtain ⟨first,rest,rfl⟩ := List.exists_cons_of_ne_nil gone
    simp only [List.map_append, List.sum_append, List.map_cons, List.sum_cons] at entries
    omega
  refine ⟨⟨⟨_,_,index,loadIndexLines_saved (fun record member => listable record (inside record member))
    (by simpa using distinct),by simp [unloadedRecord]⟩,distinct,?_,?_,?_⟩,⟨?_,?_,?_⟩,?_,by omega⟩
  · intro record member
    obtain ⟨old,document⟩ := restored.loaded record (inside record member)
    exact ⟨by rwa [file record member],by rwa [metadata record member]⟩
  · exact fun record member => restored.validated record (inside record member)
  · intro name present notMetadata notIndex
    rw [SortedMap.mem_keys, find, if_neg notIndex] at present
    by_cases removedName : name ∈ purgeNames removed
    · simp [removedName] at present
    · rw [if_neg removedName, ← SortedMap.mem_keys] at present
      obtain ⟨record,member,shape⟩ := restored.known name present notMetadata notIndex
      rcases List.mem_append.mp member with victim | stays
      · exact absurd (mem_purgeNames.mpr ⟨record,victim,shape.symm⟩) removedName
      · exact ⟨record,stays,shape⟩
  · obtain ⟨content,found,small,parsed⟩ := readable.document
    refine ⟨content,?_,small,parsed⟩
    rwa [find, if_neg (metadataName_notMem_purgeNames removed),
      if_neg (show metadataName ≠ defaultBinlogIndexName by decide)]
  · intro content found
    cases index.symm.trans found
    rwa [indexText_length]
  · intro record member content found
    rw [metadata record member] at found
    exact readable.metadata record (inside record member) content found
  · exact fun record member => listable record (inside record member)

/-- A storage that was constructed for purging, after any number of purges. It is clean while no object of a purged
    file has been left behind. -/
inductive Examined (mode : ReplicationMode) : Storage → Bool → Prop
  | construct {checkpoint : Checkpoint} {b : Backend} {u : Unit} {p : Storage}
      (constructed : construct .purging mode checkpoint b = .ok u p) : Examined mode p true
  | purge {p q : Storage} {target : CompositeBinlogName} {removed : List BinlogRecord} {warning : String}
      (examined : Examined mode p true) (purged : purgeBinlogs target p = .ok (removed,warning) q)
      (all : (p.indexed q.records).AllRemoved (purgeNames removed)) : Examined mode q true
  | leave {p q : Storage} {clean : Bool} {target : CompositeBinlogName} {result : List BinlogRecord × String}
      (examined : Examined mode p clean) (purged : purgeBinlogs target p = .ok result q) : Examined mode q false
  | fail {p q : Storage} {clean : Bool} {target : CompositeBinlogName} {failure : Failure}
      (examined : Examined mode p clean) (raised : purgeBinlogs target p = .error failure q) : Examined mode q false

structure ForPurging (mode : ReplicationMode) (p : Storage) (clean : Bool) : Prop where
  purging : p.constructionMode = .purging
  replication : p.replicationMode = mode
  distinct : (p.records.map BinlogRecord.name).Nodup
  accepted : clean = true → p.records = [] ∨ Accepted p.backend.objects mode p.records

omit [Externals] in
theorem trimmed_objects {p : Storage} (all : (p.indexed kept).AllRemoved (purgeNames removed)) (key : Bytes) :
    (p.trimmed removed kept).backend.objects.find? key = if key ∈ purgeNames removed then none
      else if key = defaultBinlogIndexName then some (indexText kept) else p.backend.objects.find? key := by
  rw [trimmed_backend, all.objects, Backend.find?_replay_remove, indexed, Backend.perform_objects, Backend.find?_put]
  rfl

theorem ForPurging.purge {p : Storage} (ready : ForPurging mode p true) (shape : p.records = removed ++ kept)
    (gone : removed ≠ []) (all : (p.indexed kept).AllRemoved (purgeNames removed)) :
    Accepted (p.trimmed removed kept).backend.objects mode kept := by
  rcases ready.accepted rfl with none | accepted
  · rw [none, eq_comm, List.append_eq_nil_iff] at shape
    exact absurd shape.1 gone
  · rw [shape] at accepted
    exact accepted.purge gone (trimmed_objects all)

/-- A purge is refused, or its records are cut off and the index is saved, or cannot be saved. -/
theorem ForPurging.outcome {p : Storage} {clean : Bool} (ready : ForPurging mode p clean) (target : CompositeBinlogName) :
    Refused p.records target ∧ (∃ failure, purgeBinlogs target p = .error failure p) ∨
    ¬ Refused p.records target ∧ ∃ removed kept, p.records = removed ++ kept ∧
      removed.getLast?.map BinlogRecord.name = some target ∧ kept ≠ [] ∧
      (p.backend.fault = .none ∧ (∃ warning, purgeBinlogs target p = .ok (removed,warning) (p.trimmed removed kept) ∧
          (warning = "" ↔ (p.indexed kept).AllRemoved (purgeNames removed) ∧
            ((p.indexed kept).attempted (purgeNames removed)).Synced)) ∨
        p.backend.fault ≠ .none ∧ ∃ failure, purgeBinlogs target p = .error failure (p.unindexed kept)) := by
  by_cases refused : Refused p.records target
  · exact .inl ⟨refused,purgeBinlogs_refused ready.distinct refused⟩
  · obtain ⟨removed,kept,shape,last,some,commits⟩ := purgeBinlogs_commits ready.purging refused
    refine .inr ⟨refused,removed,kept,shape,last,some,?_⟩
    rw [commits]
    exact commitPurge_cases p removed kept

private theorem ForPurging.cut {p q : Storage} {clean : Bool} (ready : ForPurging mode p clean)
    (shape : p.records = removed ++ q.records) (construction : q.constructionMode = p.constructionMode)
    (replication : q.replicationMode = p.replicationMode) : ForPurging mode q false := by
  have distinct := ready.distinct
  rw [shape] at distinct
  exact ⟨construction.trans ready.purging,replication.trans ready.replication,
    distinct.sublist ((List.sublist_append_right _ _).map _),by simp⟩

theorem Examined.forPurging {p : Storage} {clean : Bool} (examined : Examined mode p clean) :
    ForPurging mode p clean := by
  induction examined with
  | construct constructed =>
    have accepted := construct_accepted (by decide) constructed
    rcases construct_ok (by decide) constructed with ⟨-,⟨streaming,-⟩ | ⟨-,rfl⟩⟩ | ⟨-,⟨-,rfl⟩ | ⟨records,restored,rfl⟩⟩
    · cases streaming
    · exact ⟨rfl,rfl,List.nodup_nil,fun _ => accepted⟩
    · exact ⟨rfl,rfl,List.nodup_nil,fun _ => accepted⟩
    · exact ⟨rfl,rfl,restored.distinct,fun _ => accepted⟩
  | @purge p q target removed warning examined purged all ih =>
    rcases ih.outcome target with ⟨-,failure,raised⟩ | ⟨-,gone,kept,shape,last,-,⟨-,_,ran,-⟩ | ⟨-,failure,raised⟩⟩
    · cases raised.symm.trans purged
    · cases ran.symm.trans purged
      have rest : Accepted (p.trimmed removed kept).backend.objects mode kept :=
        ih.purge shape (by rintro rfl; simp at last) all
      obtain ⟨purging,replication,distinct,-⟩ := ih.cut (q := p.trimmed removed kept) shape rfl rfl
      exact ⟨purging,replication,distinct,fun _ => .inr rest⟩
    · cases raised.symm.trans purged
  | @leave p q clean target result examined purged ih =>
    rcases ih.outcome target with ⟨-,failure,raised⟩ | ⟨-,gone,kept,shape,-,-,⟨-,_,ran,-⟩ | ⟨-,failure,raised⟩⟩
    · cases raised.symm.trans purged
    · cases ran.symm.trans purged
      exact ih.cut shape rfl rfl
    · cases raised.symm.trans purged
  | @fail p q clean target failure examined raised ih =>
    rcases ih.outcome target with ⟨-,_,refused⟩ |
      ⟨-,gone,kept,shape,-,-,⟨-,_,ran,-⟩ | ⟨-,_,failed⟩⟩
    · cases refused.symm.trans raised
      exact ⟨ih.purging,ih.replication,ih.distinct,by simp⟩
    · cases ran.symm.trans raised
    · cases failed.symm.trans raised
      exact ih.cut shape rfl rfl

/-- A purge with a target that is refused changes nothing. Otherwise the files up to its target are cut off the records. If
    the index cannot be saved, the purge raises and no removal is tried. If it can, the purge returns the files: every
    removal has been tried and the barrier has been run, there is no warning exactly if none of these has failed, and if
    all of the objects are gone a storage can be constructed with the rest. -/
theorem purge_removes_front {p : Storage} {clean : Bool} (examined : Examined mode p clean)
    (target : CompositeBinlogName) :
    (Refused p.records target → ∃ failure, purgeBinlogs target p = .error failure p) ∧
    (¬ Refused p.records target → ∃ removed kept, p.records = removed ++ kept ∧
      removed.getLast?.map BinlogRecord.name = some target ∧ kept ≠ [] ∧
      (p.backend.fault ≠ .none → ∃ failure q, purgeBinlogs target p = .error failure q ∧ q.records = kept ∧
        q.backend = if p.backend.fault = .after then p.indexed kept else p.backend.popped) ∧
      (p.backend.fault = .none → ∃ warning q, purgeBinlogs target p = .ok (removed,warning) q ∧ q.records = kept ∧
        q.getCurrentBinlogName = p.getCurrentBinlogName ∧ q.getCurrentPosition = p.getCurrentPosition ∧
        q.getGtids = p.getGtids ∧ q.backend = (p.indexed kept).cleaned (purgeNames removed) ∧
        (warning = "" ↔ (p.indexed kept).AllRemoved (purgeNames removed) ∧
          ((p.indexed kept).attempted (purgeNames removed)).Synced) ∧
        ((p.indexed kept).AllRemoved (purgeNames removed) → clean = true → ∀ checkpoint,
          ∃ r, construct .streaming mode checkpoint q.destroy = .ok () r ∧ r.records = kept))) := by
  have ready := examined.forPurging
  rcases ready.outcome target with ⟨refused,raised⟩ | ⟨allowed,removed,kept,shape,last,some,outcome⟩
  · exact ⟨fun _ => raised,fun allowed => absurd refused allowed⟩
  refine ⟨fun refused => absurd refused allowed,fun _ => ⟨removed,kept,shape,last,some,?_,?_⟩⟩
  · intro failed
    rcases outcome with ⟨none,-⟩ | ⟨-,failure,raised⟩
    · exact absurd none failed
    · exact ⟨failure,_,raised,rfl,rfl⟩
  · intro none
    rcases outcome with ⟨-,warning,ran,quiet⟩ | ⟨failed,-⟩
    · have tail : p.records.getLast? = kept.getLast? := by rw [shape, List.getLast?_append_of_ne_nil _ some]
      refine ⟨warning,_,ran,rfl,?_,?_,?_,rfl,quiet,?_⟩
      · simp only [getCurrentBinlogName, trimmed_records, tail]
      · simp only [getCurrentPosition, getFlushedPosition, trimmed_records, trimmed_buffer, tail]
      · simp only [getGtids, trimmed_records, trimmed_replicationMode, trimmed_purgedGtids, tail]
      · rintro all rfl checkpoint
        have rest := ready.purge shape (by rintro rfl; simp at last) all
        rw [destroy_purging (s := p.trimmed removed kept) ready.purging]
        exact ⟨_,construct_restored (b := (p.trimmed removed kept).backend.withStream Option.none) rest.restored
          rest.readable (by decide) checkpoint,rfl⟩
    · exact absurd none failed

end

section
open FlatJson
attribute [local instance] externals

namespace Sample

def fileOf (name : CompositeBinlogName) : BinlogRecord := ⟨name,4,none,none,.empty,0⟩

def first : BinlogRecord := fileOf CompositeBinlogName.Sample.first
def second : BinlogRecord := fileOf CompositeBinlogName.Sample.second
def third : BinlogRecord := fileOf CompositeBinlogName.Sample.third

/-- Some files and what belongs to them. -/
def filesOf (records : List BinlogRecord) (faults : List Fault) : Backend where
  type := .filesystem
  objects := replay .empty ([.put metadataName (StorageMetadata.str .position),
    .put defaultBinlogIndexName (indexText records)] ++ records.flatMap fun record =>
      [.put record.name.str (ascii "log1"),.put (generateBinlogMetadataName record.name) (BinlogFileMetadata.str record)])
  faults := faults

def found : EStateM.Result Failure Storage Unit → Option (List BinlogRecord × Backend)
  | .error _ _ => none
  | .ok _ p => some (p.records,p.backend)

/-- The records and objects when a call has raised. -/
def raised {α : Type} : EStateM.Result Failure Storage α → Option (List BinlogRecord × Objects)
  | .ok _ _ => none
  | .error _ p => some (p.records,p.backend.objects)

def purgeFirst : EStateM.Result Failure Storage Unit → EStateM.Result Failure Storage (List BinlogRecord × String)
  | .error failure p => .error failure p
  | .ok _ p => purgeBinlogs first.name p

/-- The answer to a purge, and whether a storage can be constructed afterwards. -/
def openable : EStateM.Result Failure Storage (List BinlogRecord × String) → Option (List BinlogRecord × String × Bool)
  | .error _ _ => none
  | .ok result q => some (result.1,result.2,(found (construct .streaming .position {} q.destroy)).isSome)

def purgeSecond : EStateM.Result Failure Storage (List BinlogRecord × String) →
    EStateM.Result Failure Storage (List BinlogRecord × String)
  | .error failure p => .error failure p
  | .ok _ p => purgeBinlogs second.name p

/-- A storage that is constructed over some files for a purge. -/
theorem examined_filesOf (records : List BinlogRecord) (faults : List Fault)
    (loaded : found (construct .purging .position {} (filesOf records faults)) = some (records,filesOf records faults)) :
    ∃ p, construct .purging .position {} (filesOf records faults) = .ok () p ∧ Examined .position p true ∧
      p.records = records ∧ p.backend = filesOf records faults := by
  cases constructed : construct .purging .position {} (filesOf records faults) with
  | error failure p =>
    rw [constructed] at loaded
    cases loaded
  | ok u p =>
    rw [constructed] at loaded
    simp only [found, Option.some.injEq, Prod.mk.injEq] at loaded
    exact ⟨p,rfl,.construct constructed,loaded⟩

theorem first_allowed : ¬ Refused [first,second] first.name := by
  simp only [Refused]
  decide

/-- A purge that has left an object behind, and one after it that removes all of its own. -/
theorem left_behind : ∃ p q failure r, Examined .position p false ∧ purgeBinlogs second.name p = .ok ([second],"") q ∧
    (p.indexed q.records).AllRemoved (purgeNames [second]) ∧
    construct .streaming .position {} q.destroy = .error failure r := by
  obtain ⟨o,constructed,examined,-,-⟩ :=
    examined_filesOf [first,second,third] [.none,.before] (by decide +kernel)
  have outcome : openable (purgeSecond (purgeFirst (construct .purging .position {}
      (filesOf [first,second,third] [.none,.before])))) = some ([second],"",false) := by decide +kernel
  rw [constructed, purgeFirst] at outcome
  cases left : purgeBinlogs first.name o with
  | error failure p =>
    rw [left] at outcome
    cases outcome
  | ok result p =>
    have examined : Examined .position p false := .leave examined left
    rw [left, purgeSecond] at outcome
    rcases examined.forPurging.outcome second.name with
      ⟨-,failure,ran⟩ | ⟨-,removed,kept,-,-,-,⟨-,warning,ran,quiet⟩ | ⟨-,failure,ran⟩⟩
    · rw [ran] at outcome
      cases outcome
    · rw [ran] at outcome
      simp only [openable, Option.some.injEq, Prod.mk.injEq, Option.isSome_eq_false_iff, Option.isNone_iff_eq_none] at outcome
      obtain ⟨rfl,rfl,closed⟩ := outcome
      cases opened : construct .streaming .position {} (p.trimmed [second] kept).destroy with
      | ok u r =>
        rw [opened] at closed
        cases closed
      | error failure r => exact ⟨p,_,failure,r,examined,ran,(quiet.mp rfl).1,opened⟩
    · rw [ran] at outcome
      cases outcome

end Sample

/-- The first of two files is purged, and a storage can be constructed with the second one. -/
theorem purge_removes_first : ∃ p q r, Examined .position p true ∧ p.records = [Sample.first,Sample.second] ∧
    purgeBinlogs Sample.first.name p = .ok ([Sample.first],"") q ∧ q.records = [Sample.second] ∧
    construct .streaming .position {} q.destroy = .ok () r ∧ r.records = [Sample.second] := by
  obtain ⟨p,constructed,examined,records,backend⟩ :=
    Sample.examined_filesOf [Sample.first,Sample.second] [] (by decide +kernel)
  obtain ⟨removed,kept,shape,-,-,-,purged⟩ :=
    (purge_removes_front examined Sample.first.name).2 (records ▸ Sample.first_allowed)
  obtain ⟨warning,q,ran,rest,-,-,-,-,quiet,opens⟩ := purged (by rw [backend]; rfl)
  have answer : Sample.openable (Sample.purgeFirst (construct .purging .position {}
      (Sample.filesOf [Sample.first,Sample.second] []))) = some ([Sample.first],"",true) := by decide +kernel
  rw [constructed, Sample.purgeFirst, ran] at answer
  simp only [Sample.openable, Option.some.injEq, Prod.mk.injEq] at answer
  obtain ⟨rfl,rfl,-⟩ := answer
  obtain rfl : kept = [Sample.second] := by simpa [records] using shape.symm
  obtain ⟨r,constructed,same⟩ := opens (quiet.mp rfl).1 rfl {}
  exact ⟨p,q,r,examined,records,ran,rest,constructed,same⟩

/-- When the index cannot be saved, a purge that is not refused raises: the first of two files is gone from memory, and
    nothing has been removed. And after a purge that has left an object behind, no storage can be constructed though the
    next purge has removed all of its objects. -/
theorem purge_index_unsaved :
    (∃ p failure q, Examined .position p true ∧ ¬ Refused p.records Sample.first.name ∧
      purgeBinlogs Sample.first.name p = .error failure q ∧ p.records = [Sample.first,Sample.second] ∧
      q.records = [Sample.second] ∧ q.backend.objects = p.backend.objects) ∧
    ∃ p q failure r, Examined .position p false ∧ purgeBinlogs Sample.second.name p = .ok ([Sample.second],"") q ∧
      (p.indexed q.records).AllRemoved (purgeNames [Sample.second]) ∧
      construct .streaming .position {} q.destroy = .error failure r := by
  refine ⟨?_,Sample.left_behind⟩
  obtain ⟨p,constructed,examined,records,backend⟩ :=
    Sample.examined_filesOf [Sample.first,Sample.second] [.before] (by decide +kernel)
  have outcome : Sample.raised (Sample.purgeFirst (construct .purging .position {}
      (Sample.filesOf [Sample.first,Sample.second] [.before]))) =
      some ([Sample.second],(Sample.filesOf [Sample.first,Sample.second] [.before]).objects) := by decide +kernel
  rw [constructed, Sample.purgeFirst] at outcome
  cases ran : purgeBinlogs Sample.first.name p with
  | ok result q =>
    rw [ran] at outcome
    cases outcome
  | error failure q =>
    rw [ran] at outcome
    simp only [Sample.raised, Option.some.injEq, Prod.mk.injEq] at outcome
    exact ⟨p,failure,q,examined,records ▸ Sample.first_allowed,ran,records,outcome.1,by rw [outcome.2, backend]⟩

end
end Storage
end BinlogServer.Store
