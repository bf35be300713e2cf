import BinlogServer.Store.Operations
import Mathlib.Data.List.Nodup
import Mathlib.Data.List.Perm.Subperm
import Mathlib.Data.List.TakeWhile

/-!
# What the storage loads

The constructor in streaming mode accepts the objects of a backend only if the index, the binlog files and their
metadata fit together.
-/

namespace BinlogServer.Store
open ByteString Util Gtids Events

namespace Storage
variable [Externals]

/-- A file with its metadata, as the record says. -/
structure Loaded (objects : Objects) (record : BinlogRecord) : Prop where
  file : ∃ content, objects.find? record.name.str = some content ∧ content.length = record.size
  metadata : ∃ document, objects.find? (generateBinlogMetadataName record.name) = some document ∧
    BinlogFileMetadata.parse record.name document = .ok record

omit [Externals] in
/-- A record has gtids in one of the two modes only. -/
theorem validateBinlogMetadata_eq_ok {mode : ReplicationMode} {record : BinlogRecord} {u : Unit} :
    validateBinlogMetadata mode record = .ok u ↔
      (record.previousGtids.isSome = true ↔ mode = .gtid) ∧ (record.addedGtids.isSome = true ↔ mode = .gtid) := by
  unfold validateBinlogMetadata
  cases mode <;> simp [Option.isSome_iff_ne_none]

omit [Externals] in
theorem getObject_eq_ok {b : Backend} {name content : Bytes} (read : b.getObject name = .ok content) :
    b.objects.find? name = some content := by
  unfold Backend.getObject at read
  split at read
  · cases read
  · split at read
    · cases read
    · cases read
      assumption

omit [Externals] in
private theorem mem_of_lookup {objects : List (Bytes × Nat)} {name : Bytes} {size : Nat}
    (found : objects.lookup name = some size) : (name,size) ∈ objects := by
  obtain ⟨before,after,rfl,-⟩ := List.lookup_eq_some_iff.mp found
  exact List.mem_append_right before List.mem_cons_self

/-- Every file of the index is loaded with the metadata that is stored for it. -/
theorem loadRecords_ok {s : Storage} (checked : s.constructionMode ≠ .queryingOnly)
    {objects metadataObjects : List (Bytes × Nat)} (listed : objects ⊆ s.backend.listObjects)
    {unloaded records : List BinlogRecord} (run : s.loadRecords objects metadataObjects unloaded = .ok records) :
    records.map BinlogRecord.name = unloaded.map BinlogRecord.name ∧
      ∀ record ∈ records, Loaded s.backend.objects record ∧ validateBinlogMetadata s.replicationMode record = .ok () ∧
        generateBinlogMetadataName record.name ∈ metadataObjects.map Prod.fst := by
  induction unloaded generalizing records with
  | nil =>
    cases run
    simp
  | cons first rest ih =>
    rw [loadRecords] at run
    split at run
    · simp [checked] at run
    · rename_i loaded read
      simp only [bind_eq_ok, raiseIf_eq_ok, pure_eq_ok, exists_const] at run
      obtain ⟨_,valid,size,others,run,rfl⟩ := run
      obtain ⟨names,each⟩ := ih run
      simp only [loadBinlogMetadata, bind_eq_ok, raiseIf_eq_ok, exists_const] at read
      obtain ⟨present,document,got,parsed⟩ := read
      obtain ⟨name,-,-⟩ := BinlogFileMetadata.parse_ok parsed
      have listedSize : (first.name.str,loaded.size) ∈ s.backend.listObjects :=
        listed (mem_of_lookup (by simpa [checked] using size))
      obtain ⟨⟨key,content⟩,stored,same⟩ := List.mem_map.mp listedSize
      simp only [Prod.mk.injEq] at same
      refine ⟨by simp [names,name],fun record member => ?_⟩
      rcases List.mem_cons.mp member with rfl | member
      · rw [← name] at got same parsed present
        exact ⟨⟨⟨content,SortedMap.find?_eq_some.mpr (same.1 ▸ stored),same.2⟩,document,getObject_eq_ok got,parsed⟩,
          valid,not_not.mp present⟩
      · exact each record member

omit [Externals] in
/-- No file is listed twice. -/
theorem loadIndexLines_nodup {mode : ReplicationMode} {lines : List Bytes} {records unloaded : List BinlogRecord}
    (distinct : (records.map BinlogRecord.name).Nodup) (run : loadIndexLines mode lines records = .ok unloaded) :
    (unloaded.map BinlogRecord.name).Nodup := by
  induction lines generalizing records with
  | nil =>
    cases run
    exact distinct
  | cons line rest ih =>
    rw [loadIndexLines] at run
    split at run
    · exact ih distinct run
    · simp only [bind_eq_ok, raiseIf_eq_ok, exists_const] at run
      obtain ⟨name,-,fresh,run⟩ := run
      refine ih ?_ run
      simp only [List.map_append, List.map_cons, List.map_nil, unloadedRecord]
      rw [List.nodup_append]
      refine ⟨distinct,by simp,?_⟩
      intro other member new single same
      obtain ⟨record,known,rfl⟩ := List.mem_map.mp member
      exact fresh (List.any_eq_true.mpr ⟨record,known,by simp [same,List.mem_singleton.mp single]⟩)

section
omit [Externals]

theorem splitLines_ne_nil (text : Bytes) : splitLines text ≠ [] := by
  cases text with
  | nil => simp [splitLines]
  | cons c rest =>
    rw [splitLines]
    split
    · simp
    · split <;> simp

theorem splitLines_newline (front back : Bytes) : splitLines (front ++ 0x0A :: back) = splitLines front ++ splitLines back := by
  induction front with
  | nil => rfl
  | cons c rest ih =>
    simp only [List.cons_append, splitLines]
    split
    · rw [ih, List.cons_append]
    · rw [ih]
      cases lines : splitLines rest with
      | nil => exact absurd lines (splitLines_ne_nil rest)
      | cons line others => rfl

theorem splitLines_line {line : Bytes} (whole : 0x0A ∉ line) : splitLines line = [line] := by
  induction line with
  | nil => rfl
  | cons c rest ih =>
    rw [List.mem_cons, not_or] at whole
    rw [splitLines, if_neg (Ne.symm whole.1), ih whole.2]

/-- An entry of the index is a path in the current directory. -/
theorem parseIndexEntry_slash {filename : Bytes} (noSeparator : 0x2F ∉ filename) :
    parseIndexEntry (ascii "./" ++ filename) = (do
      raiseIf (filename = defaultBinlogIndexName) .logicError "binlog index contains a reference to the binlog index name"
      CompositeBinlogName.parse filename) := by
  have taken : (ascii "./" ++ filename).reverse.takeWhile (· ≠ 0x2F) = filename.reverse := by
    rw [List.reverse_append]
    refine takeWhile_append_stop (fun c member => ?_) (fun c head => ?_)
    · simpa using fun same : c = 0x2F => noSeparator (same ▸ List.mem_reverse.mp member)
    · cases head
      rfl
  have path : splitPath (ascii "./" ++ filename) = (ascii ".",filename) := by
    simp only [splitPath, taken, List.reverse_reverse, List.length_append, Nat.add_sub_cancel, List.take_left]
    rfl
  simp only [parseIndexEntry, path]
  rfl

theorem parseIndexEntry_plain {filename : Bytes} (noSeparator : 0x2F ∉ filename) {name : CompositeBinlogName} :
    parseIndexEntry filename ≠ .ok name := by
  have taken : filename.reverse.takeWhile (· ≠ 0x2F) = filename.reverse := by
    have all : ∀ c ∈ filename.reverse, decide (c ≠ 0x2F) = true := fun c member => by
      simpa using fun same : c = 0x2F => noSeparator (same ▸ List.mem_reverse.mp member)
    exact List.takeWhile_eq_self_iff.mpr all
  have path : splitPath filename = ([],filename) := by
    simp only [splitPath, taken, List.reverse_reverse, Nat.sub_self, List.take_zero]
    rfl
  simp only [parseIndexEntry, path, ne_eq, bind_eq_ok, raiseIf_eq_ok, exists_const, not_and, not_not]
  intro none
  cases none

/-- What is accepted as an index has entries on all of its lines. -/
theorem parseIndexEntry_of_mem {mode : ReplicationMode} {lines : List Bytes} {records unloaded : List BinlogRecord}
    (run : loadIndexLines mode lines records = .ok unloaded) {line : Bytes} (member : line ∈ lines) (some : line ≠ []) :
    ∃ name, parseIndexEntry line = .ok name := by
  induction lines generalizing records with
  | nil => cases member
  | cons first rest ih =>
    rw [loadIndexLines] at run
    split at run
    · rename_i blank
      rcases List.mem_cons.mp member with rfl | later
      · exact absurd blank some
      · exact ih run later
    · simp only [bind_eq_ok, raiseIf_eq_ok, exists_const] at run
      obtain ⟨name,parsed,-,run⟩ := run
      rcases List.mem_cons.mp member with rfl | later
      · exact ⟨name,parsed⟩
      · exact ih run later

/-- The index that is saved is read back. -/
theorem loadIndexLines_indexText {mode : ReplicationMode} {records loaded unloaded : List BinlogRecord}
    (run : loadIndexLines mode (splitLines (indexText records)) loaded = .ok unloaded) :
    unloaded.map BinlogRecord.name = loaded.map BinlogRecord.name ++ records.map BinlogRecord.name := by
  induction records generalizing loaded with
  | nil =>
    simp only [indexText, List.flatMap_nil, splitLines, loadIndexLines, if_true] at run
    cases run
    simp
  | cons first rest ih =>
    have text : indexText (first :: rest) = (ascii "./" ++ first.name.str) ++ 0x0A :: indexText rest := by
      simp [indexText]
    rw [text, splitLines_newline] at run
    by_cases broken : 0x0A ∈ first.name.str
    · -- the part of the name after its last line end is on a line of its own, and is no path
      obtain ⟨front,line,shape,whole⟩ : ∃ front line, first.name.str = front ++ 0x0A :: line ∧ 0x0A ∉ line := by
        obtain ⟨after,before,shape,whole⟩ := List.eq_append_cons_of_mem (List.mem_reverse.mpr broken)
        exact ⟨before.reverse,after.reverse,by simpa using congrArg List.reverse shape,by simpa using whole⟩
      have some : line ≠ [] := by
        rintro rfl
        obtain ⟨c,last,digit⟩ := first.name.str_getLast?
        rw [shape, List.getLast?_append] at last
        cases last
        cases digit
      have member : line ∈ splitLines (ascii "./" ++ first.name.str) ++ splitLines (indexText rest) := by
        rw [shape, ← List.append_assoc, splitLines_newline, splitLines_line whole]
        simp
      obtain ⟨name,parsed⟩ := parseIndexEntry_of_mem run member some
      refine absurd parsed (parseIndexEntry_plain fun separator => ?_)
      exact first.name.separator_notMem_str (by simp [shape,separator])
    · have line : 0x0A ∉ ascii "./" ++ first.name.str := by
        simp only [List.mem_append, not_or]
        exact ⟨by decide,broken⟩
      rw [splitLines_line line, List.singleton_append, loadIndexLines, if_neg (by simp [ascii])] at run
      simp only [bind_eq_ok, raiseIf_eq_ok, exists_const, parseIndexEntry_slash first.name.separator_notMem_str] at run
      obtain ⟨name,⟨-,parsed⟩,-,run⟩ := run
      rw [ih run]
      simp [unloadedRecord,CompositeBinlogName.parse_str_eq_ok parsed]

end

/-- What the objects of a backend are where they are accepted. -/
structure Restored (objects : Objects) (mode : ReplicationMode) (records : List BinlogRecord) : Prop where
  index : ∃ text unloaded, objects.find? defaultBinlogIndexName = some text ∧
    loadIndexLines mode (splitLines text) [] = .ok unloaded ∧
    records.map BinlogRecord.name = unloaded.map BinlogRecord.name
  distinct : (records.map BinlogRecord.name).Nodup
  loaded : ∀ record ∈ records, Loaded objects record
  validated : ∀ record ∈ records, validateBinlogMetadata mode record = .ok ()
  /-- There are no other objects. -/
  known : ∀ name, name ∈ objects.keys → name ≠ metadataName → name ≠ defaultBinlogIndexName →
    ∃ record ∈ records, name = record.name.str ∨ name = generateBinlogMetadataName record.name

private theorem loaded_eq {objects : Objects} {loaded records : List BinlogRecord}
    (names : loaded.map BinlogRecord.name = records.map BinlogRecord.name)
    (each : ∀ record ∈ loaded, Loaded objects record)
    (documents : ∀ record ∈ records, ∃ document,
      objects.find? (generateBinlogMetadataName record.name) = some document ∧
        BinlogFileMetadata.parse record.name document = .ok record) : loaded = records := by
  induction loaded generalizing records with
  | nil => cases records <;> simp_all
  | cons first rest ih =>
    cases records with
    | nil => simp at names
    | cons record others =>
      simp only [List.map_cons, List.cons.injEq] at names
      obtain ⟨name,names⟩ := names
      obtain ⟨-,document,found,parsed⟩ := each first List.mem_cons_self
      obtain ⟨document',found',parsed'⟩ := documents record List.mem_cons_self
      rw [name, found'] at found
      cases found
      rw [name, parsed'] at parsed
      cases parsed
      rw [ih names (fun x member => each x (List.mem_cons_of_mem _ member))
        fun x member => documents x (List.mem_cons_of_mem _ member)]

theorem Restored.names {objects : Objects} {mode : ReplicationMode} {loaded records : List BinlogRecord}
    (restored : Restored objects mode loaded)
    (index : objects.find? defaultBinlogIndexName = some (indexText records)) :
    loaded.map BinlogRecord.name = records.map BinlogRecord.name := by
  obtain ⟨text,unloaded,found,lines,names⟩ := restored.index
  cases index.symm.trans found
  exact names.trans (by simpa using loadIndexLines_indexText lines)

/-- The records are what the index and the metadata of the files say. -/
theorem Restored.records_eq {objects : Objects} {mode : ReplicationMode} {loaded records : List BinlogRecord}
    (restored : Restored objects mode loaded)
    (index : objects.find? defaultBinlogIndexName = some (indexText records))
    (documents : ∀ record ∈ records, ∃ document,
      objects.find? (generateBinlogMetadataName record.name) = some document ∧
        BinlogFileMetadata.parse record.name document = .ok record) : loaded = records :=
  loaded_eq (restored.names index) restored.loaded documents

omit [Externals] in
/-- Where there are as many objects as names and each name has an object, there are no other objects. -/
private theorem known_names {key : CompositeBinlogName → Bytes} (injective : Function.Injective key)
    {names : List CompositeBinlogName} (distinct : names.Nodup) {objects : List (Bytes × Nat)}
    (inside : ∀ name ∈ names, key name ∈ objects.map Prod.fst) (many : objects.length = names.length) :
    ∀ x ∈ objects, ∃ name ∈ names, x.1 = key name := by
  intro x member
  have sub : names.map key ⊆ objects.map Prod.fst := by
    intro text known
    obtain ⟨name,listed,rfl⟩ := List.mem_map.mp known
    exact inside name listed
  have all := (List.subperm_of_subset (List.Nodup.map injective distinct) sub).perm_of_length_le (by simp [many])
  obtain ⟨name,listed,same⟩ := List.mem_map.mp (all.mem_iff.mpr (List.mem_map_of_mem member))
  exact ⟨name,listed,same.symm⟩

omit [Externals] in
theorem listObjects_keys (b : Backend) : b.listObjects.map Prod.fst = b.objects.keys := by
  simp [Backend.listObjects,SortedMap.keys,Function.comp_def]

/-- The objects other than the two documents of the storage are the files of the index and their metadata. -/
private theorem known_objects {s : Storage} (checked : s.constructionMode ≠ .queryingOnly)
    {objects metadataObjects : List (Bytes × Nat)} (listed : objects ⊆ s.backend.listObjects)
    {records : List BinlogRecord} {purged : GtidSet} (distinct : (s.records.map BinlogRecord.name).Nodup)
    (validated : validateBinlogIndex s.constructionMode s.records objects = .ok ())
    (loaded : s.loadAndValidateBinlogMetadataSet objects metadataObjects = .ok (records,purged)) :
    records.map BinlogRecord.name = s.records.map BinlogRecord.name ∧
    (∀ record ∈ records, Loaded s.backend.objects record ∧
      validateBinlogMetadata s.replicationMode record = .ok ()) ∧
    (∀ x ∈ objects, ∃ record ∈ records, x.1 = record.name.str) ∧
    (∀ x ∈ metadataObjects, ∃ record ∈ records, x.1 = generateBinlogMetadataName record.name) ∧
    purged = (records.head?.bind BinlogRecord.addedGtids).getD s.purgedGtids := by
  simp only [loadAndValidateBinlogMetadataSet, bind_eq_ok, raiseIf_eq_ok, pure_eq_ok, exists_const,
    Prod.mk.injEq] at loaded
  obtain ⟨records,run,documents,rfl,rfl⟩ := loaded
  obtain ⟨names,each⟩ := loadRecords_ok checked listed run
  simp only [validateBinlogIndex, checked, if_false, bind_eq_ok, raiseIf_eq_ok, exists_const, not_exists, not_and,
    not_not] at validated
  obtain ⟨files,count⟩ := validated
  have many := congrArg List.length names
  simp only [List.length_map] at many
  simp only [ne_eq, checked, not_false_eq_true, true_and, not_not] at documents
  rw [← names] at distinct
  have named : ∀ {text : Bytes} {key : CompositeBinlogName → Bytes},
      (∃ name ∈ records.map BinlogRecord.name, text = key name) → ∃ record ∈ records, text = key record.name := by
    rintro text key ⟨_,listed,same⟩
    obtain ⟨record,inside,rfl⟩ := List.mem_map.mp listed
    exact ⟨record,inside,same⟩
  refine ⟨names,fun record member => ⟨(each record member).1,(each record member).2.1⟩,fun x member => named ?_,
    fun x member => named ?_,rfl⟩
  · refine known_names CompositeBinlogName.str_injective distinct ?_ (by simpa [many] using count) x member
    rw [names]
    simpa using files
  · refine known_names generateBinlogMetadataName_injective distinct ?_ (by simpa using documents) x member
    intro name listed
    obtain ⟨record,inside,rfl⟩ := List.mem_map.mp listed
    exact (each record inside).2.2

/-- The storage as its constructor leaves it. -/
def fresh (constructionMode : ConstructionMode) (mode : ReplicationMode) (checkpoint : Checkpoint) (b : Backend)
    (purged : GtidSet) (records : List BinlogRecord) : Storage := ⟨constructionMode,b,mode,purged,records,checkpoint,{}⟩

/-- A construction that returns has found nothing at all, nothing but the metadata of the storage, or binlog files
    with all that belongs to them. -/
theorem construct_ok {constructionMode : ConstructionMode} (checked : constructionMode ≠ .queryingOnly)
    {mode : ReplicationMode} {checkpoint : Checkpoint} {b : Backend} {t : Storage} {u : Unit}
    (run : construct constructionMode mode checkpoint b = .ok u t) :
    b.objects.entries = [] ∧ (constructionMode = .streaming ∧
        saveMetadata (fresh constructionMode mode checkpoint b .empty []) = .ok () t ∨
      constructionMode ≠ .streaming ∧ t = fresh constructionMode mode checkpoint b .empty []) ∨
    (∃ document, b.objects.find? metadataName = some document ∧ StorageMetadata.parse document = .ok mode) ∧
      ((∀ name ∈ b.objects.keys, name = metadataName) ∧ t = fresh constructionMode mode checkpoint b .empty [] ∨
        ∃ records, Restored b.objects mode records ∧
          t = fresh constructionMode mode checkpoint b ((records.head?.bind BinlogRecord.addedGtids).getD .empty)
            records) := by
  simp only [construct, constructorBody, Action.bind_eq_ok, Action.get_eq_ok] at run
  obtain ⟨_,_,⟨rfl,rfl⟩,run⟩ := run
  split at run
  · rename_i empty
    refine .inl ⟨by simpa [Backend.listObjects] using empty,?_⟩
    split at run
    · rename_i streaming
      exact .inl ⟨streaming,run⟩
    · rename_i streaming
      exact .inr ⟨streaming,(Action.pure_eq_ok.mp run).2.symm⟩
  · simp only [Action.bind_eq_ok, Action.lift_eq_ok, raiseIf_eq_ok] at run
    obtain ⟨_,_,⟨-,rfl⟩,content,_,⟨got,rfl⟩,stored,_,⟨parsed,rfl⟩,_,_,⟨same,rfl⟩,run⟩ := run
    obtain rfl : stored = mode := not_not.mp same
    refine .inr ⟨⟨content,getObject_eq_ok got,parsed⟩,?_⟩
    split at run
    · split at run
      · simp [checked] at run
      · simp only [List.partition_eq_filter_filter, Action.bind_eq_ok, Action.lift_eq_ok, Action.modify_eq_ok] at run
        obtain ⟨unloaded,_,⟨read,rfl⟩,_,_,⟨validated,rfl⟩,⟨records,purged⟩,_,⟨loaded,rfl⟩,rfl⟩ := run
        simp only [loadBinlogIndex, bind_eq_ok] at read
        obtain ⟨text,index,lines⟩ := read
        have distinct := loadIndexLines_nodup (by simp) lines
        obtain ⟨names,each,files,documents,purge⟩ := known_objects checked
          (fun x member => List.mem_of_mem_filter (List.mem_of_mem_filter (List.mem_of_mem_filter member)))
          distinct validated loaded
        refine .inr ⟨records,⟨⟨text,unloaded,getObject_eq_ok index,lines,names⟩,by rw [names]; exact distinct,
          fun record member => (each record member).1,fun record member => (each record member).2,?_⟩,by simp [purge]; rfl⟩
        intro name present notMetadata notIndex
        rw [← listObjects_keys] at present
        obtain ⟨x,listed,rfl⟩ := List.mem_map.mp present
        have other : x ∈ (b.listObjects.filter (·.1 ≠ metadataName)).filter (·.1 ≠ defaultBinlogIndexName) := by
          simp [listed,notMetadata,notIndex]
        by_cases document : extension x.1 = binlogMetadataExtension
        · obtain ⟨record,member,same⟩ := documents x (List.mem_filter.mpr ⟨other,by simpa using document⟩)
          exact ⟨record,member,.inr same⟩
        · obtain ⟨record,member,same⟩ := files x (List.mem_filter.mpr ⟨other,by simpa using document⟩)
          exact ⟨record,member,.inl same⟩
    · rename_i only
      refine .inl ⟨fun name present => ?_,(Action.pure_eq_ok.mp run).2.symm⟩
      rw [← listObjects_keys] at present
      obtain ⟨x,listed,rfl⟩ := List.mem_map.mp present
      by_contra other
      exact only (List.ne_nil_of_mem (List.mem_filter.mpr ⟨listed,by simpa using other⟩))

end Storage
end BinlogServer.Store
