import BinlogServer.Store.Loading

/-!
# What the constructor accepts

A backend with an index, the files of the index, their metadata and nothing else is accepted, and the records are what
the index and the metadata say. The index that is written for some of the files of an accepted backend is accepted too.
-/

namespace BinlogServer.Store
open ByteString Util Gtids Events

namespace Storage

section Index
variable {mode : ReplicationMode}

/-- A name that is on one line of an index. -/
structure Listable (name : CompositeBinlogName) : Prop where
  nonempty : name.isEmpty = false
  line : 0x0A ∉ name.str

/-- An entry of an index is a name after a path, which takes two characters at least. -/
theorem parseIndexEntry_ok {line : Bytes} {name : CompositeBinlogName} (parsed : parseIndexEntry line = .ok name) :
    ∃ path, line = path ++ name.str ∧ 2 ≤ path.length ∧ name.isEmpty = false := by
  simp only [parseIndexEntry, bind_eq_ok, raiseIf_eq_ok, exists_const, ne_eq, not_not] at parsed
  obtain ⟨parent,-,parsed⟩ := parsed
  have shape := List.takeWhile_append_dropWhile (p := fun c => decide (c ≠ 0x2F)) (l := line.reverse)
  set filename := line.reverse.takeWhile (fun c => decide (c ≠ 0x2F))
  set path := line.reverse.dropWhile (fun c => decide (c ≠ 0x2F)) with rest
  have whole : line = path.reverse ++ filename.reverse := by
    rw [← List.reverse_append, shape, List.reverse_reverse]
  refine ⟨path.reverse,?_,?_,CompositeBinlogName.parse_nonempty parsed⟩
  · rw [CompositeBinlogName.str_of_parse parsed]
    exact whole
  · have front : line.take (line.length - filename.reverse.length) = path.reverse := by
      conv_lhs => rw [whole]
      exact List.take_left' (by simp)
    have dot : (if (path.dropWhile (fun c => decide (c = 0x2F))).reverse = [] then path.reverse.take 1
        else (path.dropWhile (fun c => decide (c = 0x2F))).reverse) = [0x2E] := by
      simp only [splitPath] at parent
      rw [front, List.reverse_reverse] at parent
      exact parent
    have slash : ∀ c ∈ path.head?, c = 0x2F := by
      intro c first
      have stops := List.head?_dropWhile_not (fun c => decide (c ≠ 0x2F)) line.reverse
      rw [← rest, first] at stops
      simpa using stops
    cases shape : path with
    | nil => simp [shape] at dot
    | cons c others =>
      obtain rfl : c = 0x2F := slash c (by simp [shape])
      cases others with
      | nil => simp [shape] at dot
      | cons d more => simp

/-- The names of an accepted index are each on a line, and the lines are longer than the names. -/
theorem loadIndexLines_listable {lines : List Bytes} {loaded unloaded : List BinlogRecord}
    (whole : ∀ line ∈ lines, 0x0A ∉ line) (before : ∀ record ∈ loaded, Listable record.name)
    (run : loadIndexLines mode lines loaded = .ok unloaded) :
    (∀ record ∈ unloaded, Listable record.name) ∧
      (unloaded.map fun record => record.name.str.length + 3).sum ≤
        (loaded.map fun record => record.name.str.length + 3).sum + (lines.map fun line => line.length + 1).sum := by
  induction lines generalizing loaded with
  | nil =>
    cases run
    exact ⟨before,by simp⟩
  | cons line rest ih =>
    rw [loadIndexLines] at run
    have later : ∀ line ∈ rest, 0x0A ∉ line := fun line member => whole line (List.mem_cons_of_mem _ member)
    by_cases blank : line = []
    · rw [if_pos blank] at run
      obtain ⟨listable,length⟩ := ih later before run
      refine ⟨listable,length.trans ?_⟩
      simp only [List.map_cons, List.sum_cons]
      omega
    · rw [if_neg blank] at run
      simp only [bind_eq_ok, raiseIf_eq_ok, exists_const] at run
      obtain ⟨name,parsed,-,run⟩ := run
      obtain ⟨path,rfl,two,nonempty⟩ := parseIndexEntry_ok parsed
      have new : Listable name := ⟨nonempty,fun broken => whole _ List.mem_cons_self (by simp [broken])⟩
      have added : ∀ record ∈ loaded ++ [unloadedRecord mode name], Listable record.name := by
        intro record member
        rcases List.mem_append.mp member with old | last
        · exact before record old
        · rw [List.mem_singleton.mp last]
          exact new
      obtain ⟨listable,length⟩ := ih later added run
      refine ⟨listable,length.trans ?_⟩
      simp only [List.map_append, List.map_cons, List.map_nil, List.sum_append, List.sum_cons, List.sum_nil,
        unloadedRecord, List.length_append]
      omega

theorem splitLines_whole (text : Bytes) : (∀ line ∈ splitLines text, 0x0A ∉ line) ∧
    ((splitLines text).map fun line => line.length + 1).sum = text.length + 1 := by
  induction text with
  | nil => simp [splitLines]
  | cons c rest ih =>
    obtain ⟨whole,length⟩ := ih
    rw [splitLines]
    by_cases newline : c = 0x0A
    · rw [if_pos newline]
      refine ⟨?_,?_⟩
      · intro line member
        rcases List.mem_cons.mp member with rfl | later
        · simp
        · exact whole line later
      · simp only [List.map_cons, List.sum_cons, List.length_nil, List.length_cons, length]
        omega
    · rw [if_neg newline]
      cases shape : splitLines rest with
      | nil => exact absurd shape (splitLines_ne_nil rest)
      | cons first others =>
        rw [shape] at whole length
        refine ⟨?_,?_⟩
        · intro line member
          rcases List.mem_cons.mp member with rfl | later
          · have old := whole first List.mem_cons_self
            simp [old,Ne.symm newline]
          · exact whole line (List.mem_cons_of_mem _ later)
        · simp only [List.map_cons, List.sum_cons, List.length_cons] at length ⊢
          omega

/-- An index that is saved is accepted. -/
theorem loadIndexLines_saved {records loaded : List BinlogRecord} (listable : ∀ record ∈ records, Listable record.name)
    (distinct : ((loaded ++ records).map BinlogRecord.name).Nodup) :
    loadIndexLines mode (splitLines (indexText records)) loaded =
      .ok (loaded ++ records.map fun record => unloadedRecord mode record.name) := by
  induction records generalizing loaded with
  | nil => simp [indexText,splitLines,loadIndexLines]
  | cons first rest ih =>
    obtain ⟨nonempty,line⟩ := listable first List.mem_cons_self
    have text : indexText (first :: rest) = (ascii "./" ++ first.name.str) ++ 0x0A :: indexText rest := by
      simp [indexText]
    have single : 0x0A ∉ ascii "./" ++ first.name.str := by
      rw [List.mem_append, not_or]
      exact ⟨by decide,line⟩
    have parsed : parseIndexEntry (ascii "./" ++ first.name.str) = .ok first.name := by
      rw [parseIndexEntry_slash first.name.separator_notMem_str]
      simp only [bind_eq_ok, raiseIf_eq_ok, exists_const]
      exact ⟨str_ne_index first.name,CompositeBinlogName.parse_str nonempty⟩
    have new : ¬ loaded.any (fun record => decide (record.name = first.name)) = true := by
      rw [List.map_append, List.nodup_append] at distinct
      intro known
      obtain ⟨record,member,same⟩ := List.any_eq_true.mp known
      exact distinct.2.2 _ (List.mem_map_of_mem member) _ (by simp) (of_decide_eq_true same)
    rw [text, splitLines_newline, splitLines_line single, List.singleton_append, loadIndexLines, if_neg (by simp [ascii])]
    simp only [bind_eq_ok, raiseIf_eq_ok, exists_const]
    refine ⟨first.name,parsed,new,?_⟩
    rw [ih (fun record member => listable record (List.mem_cons_of_mem _ member)) (by
      simpa [unloadedRecord] using distinct)]
    simp

theorem indexText_length (records : List BinlogRecord) :
    (indexText records).length = (records.map fun record => record.name.str.length + 3).sum := by
  rw [indexText, List.length_flatMap]
  congr 2
  funext record
  rw [List.length_append, List.length_append, Nat.add_comm]
  show 1 + (2 + record.name.str.length) = _
  omega

/-- A binlog file does not look like metadata. -/
theorem extension_str (name : CompositeBinlogName) : extension name.str ≠ binlogMetadataExtension := by
  obtain ⟨d,last,digit⟩ := name.str_getLast?
  intro same
  simp only [extension] at same
  split at same
  · have ends := congrArg List.getLast? same
    have rest : (name.str.reverse.takeWhile (· ≠ 0x2E)).head? = some d ∨ d = 0x2E := by
      rw [← List.head?_reverse] at last
      cases shape : name.str.reverse with
      | nil => simp [shape] at last
      | cons c others =>
        obtain rfl : c = d := by simpa [shape] using last
        by_cases dot : c = 0x2E
        · exact .inr dot
        · simp [dot]
    rcases rest with first | rfl
    · rw [List.getLast?_cons, List.getLast?_reverse, first] at ends
      obtain rfl : d = 0x6E := by simpa [binlogMetadataExtension,ascii] using ends
      cases digit
    · cases digit
  · cases same

theorem extension_metadata (name : CompositeBinlogName) :
    extension (generateBinlogMetadataName name) = binlogMetadataExtension := by
  have long : name.str ≠ [] := by
    obtain ⟨d,last,-⟩ := name.str_getLast?
    rintro empty
    simp [empty] at last
  have taken : ((generateBinlogMetadataName name).reverse.takeWhile (· ≠ 0x2E)).reverse = ascii "json" := by
    rw [generateBinlogMetadataName, List.reverse_append]
    rfl
  unfold extension
  rw [taken, if_pos]
  · rfl
  · have length : (generateBinlogMetadataName name).length = name.str.length + 5 := by
      rw [generateBinlogMetadataName, List.length_append]
      rfl
    have some := List.length_pos_iff.mpr long
    refine ⟨?_,?_⟩
    · rw [length]
      show 4 + 1 < _
      omega
    · intro dots
      rw [dots] at length
      simp at length

end Index

section Constructor
variable [Externals] {mode : ReplicationMode} {records : List BinlogRecord}

/-- What the constructor reads is small enough to be read. -/
structure Readable (objects : Objects) (mode : ReplicationMode) (records : List BinlogRecord) : Prop where
  document : ∃ content, objects.find? metadataName = some content ∧ content.length ≤ Backend.maxMemoryObjectSize ∧
    StorageMetadata.parse content = .ok mode
  index : ∀ content, objects.find? defaultBinlogIndexName = some content →
    content.length ≤ Backend.maxMemoryObjectSize
  metadata : ∀ record ∈ records, ∀ content, objects.find? (generateBinlogMetadataName record.name) = some content →
    content.length ≤ Backend.maxMemoryObjectSize

omit [Externals] in
theorem getObject_of_find? {b : Backend} {name content : Bytes} (found : b.objects.find? name = some content)
    (small : content.length ≤ Backend.maxMemoryObjectSize) : b.getObject name = .ok content := by
  rw [Backend.getObject, found]
  exact if_neg (not_lt.mpr small)

omit [Externals] in
theorem getObject_small {b : Backend} {name content : Bytes} (read : b.getObject name = .ok content) :
    content.length ≤ Backend.maxMemoryObjectSize := by
  have found := getObject_eq_ok read
  rw [Backend.getObject, found] at read
  simp only at read
  split at read
  · cases read
  · rename_i small
    exact not_lt.mp small

omit [Externals] in
private theorem lookup_of_mem {objects : List (Bytes × Nat)} (distinct : (objects.map Prod.fst).Nodup) {name : Bytes}
    {size : Nat} (member : (name,size) ∈ objects) : objects.lookup name = some size := by
  obtain ⟨before,after,rfl⟩ := List.append_of_mem member
  rw [List.map_append, List.nodup_append] at distinct
  refine List.lookup_eq_some_iff.mpr ⟨before,after,rfl,?_⟩
  intro other inside
  have differ := distinct.2.2 other.1 (List.mem_map_of_mem inside) name (by simp)
  simpa using Ne.symm differ

/-- Files with metadata that says what they are have their records loaded. -/
theorem loadRecords_eq_ok {s : Storage} {objects metadataObjects : List (Bytes × Nat)} {unloaded : List BinlogRecord}
    (names : records.map BinlogRecord.name = unloaded.map BinlogRecord.name)
    (each : ∀ record ∈ records, ∃ document, s.backend.getObject (generateBinlogMetadataName record.name) = .ok document ∧
      BinlogFileMetadata.parse record.name document = .ok record ∧
      generateBinlogMetadataName record.name ∈ metadataObjects.map Prod.fst ∧
      validateBinlogMetadata s.replicationMode record = .ok () ∧ objects.lookup record.name.str = some record.size) :
    s.loadRecords objects metadataObjects unloaded = .ok records := by
  induction unloaded generalizing records with
  | nil =>
    rw [List.map_nil, List.map_eq_nil_iff] at names
    rw [names, loadRecords]
  | cons first rest ih =>
    cases records with
    | nil => simp at names
    | cons record others =>
      rw [List.map_cons, List.map_cons, List.cons.injEq] at names
      obtain ⟨document,got,parsed,listed,validated,size⟩ := each record List.mem_cons_self
      have loaded : s.loadBinlogMetadata metadataObjects first.name = .ok record := by
        rw [← names.1]
        simp only [loadBinlogMetadata, bind_eq_ok, raiseIf_eq_ok, exists_const]
        exact ⟨not_not.mpr listed,document,got,parsed⟩
      rw [loadRecords, loaded]
      simp only [bind_eq_ok, raiseIf_eq_ok, exists_const, pure_eq_ok]
      refine ⟨(),validated,?_,others,ih names.2 fun record member => each record (List.mem_cons_of_mem _ member),rfl⟩
      rw [← names.1, size]
      simp

omit [Externals] in
/-- Where the names of some objects are those of the files, there are as many of them. -/
private theorem length_of_names {key : CompositeBinlogName → Bytes} (injective : Function.Injective key)
    (distinct : (records.map BinlogRecord.name).Nodup) {objects : List (Bytes × Nat)}
    (single : (objects.map Prod.fst).Nodup)
    (names : ∀ name, name ∈ objects.map Prod.fst ↔ ∃ record ∈ records, name = key record.name) :
    objects.length = records.length := by
  have keyed : ((records.map BinlogRecord.name).map key).Nodup := distinct.map injective
  have perm : (objects.map Prod.fst).Perm ((records.map BinlogRecord.name).map key) := by
    rw [List.perm_ext_iff_of_nodup single keyed]
    intro name
    rw [names]
    simp [eq_comm]
  simpa using perm.length_eq

omit [Externals] in
theorem mem_listObjects {b : Backend} {name content : Bytes} (found : b.objects.find? name = some content) :
    (name,content.length) ∈ b.listObjects :=
  List.mem_map.mpr ⟨(name,content),SortedMap.find?_eq_some.mp found,rfl⟩

/-- The objects that are neither the metadata of the storage nor the index, and look like metadata of a file or not. -/
private def otherObjects (b : Backend) (document : Bool) : List (Bytes × Nat) :=
  ((b.listObjects.filter (·.1 ≠ metadataName)).filter (·.1 ≠ defaultBinlogIndexName)).filter
    (fun x => decide (extension x.1 = binlogMetadataExtension) == document)

omit [Externals] in
private theorem otherObjects_nodup (b : Backend) (document : Bool) : ((otherObjects b document).map Prod.fst).Nodup := by
  have keys := b.objects.keys_nodup
  rw [← listObjects_keys] at keys
  exact keys.sublist ((List.filter_sublist.trans (List.filter_sublist.trans List.filter_sublist)).map _)

private theorem names_of_restored {b : Backend} (restored : Restored b.objects mode records) (document : Bool)
    (name : Bytes) : name ∈ (otherObjects b document).map Prod.fst ↔
      ∃ record ∈ records, name = if document then generateBinlogMetadataName record.name else record.name.str := by
  constructor
  · intro member
    obtain ⟨x,listed,rfl⟩ := List.mem_map.mp member
    simp only [otherObjects, List.mem_filter, decide_eq_true_eq, beq_iff_eq] at listed
    obtain ⟨⟨⟨listed,notMetadata⟩,notIndex⟩,kind⟩ := listed
    have present : x.1 ∈ b.objects.keys := by
      rw [← listObjects_keys]
      exact List.mem_map_of_mem listed
    obtain ⟨record,member,shape⟩ := restored.known x.1 present notMetadata notIndex
    refine ⟨record,member,?_⟩
    rcases shape with same | same
    · rw [same, decide_eq_false (extension_str record.name)] at kind
      rw [same, ← kind]
      rfl
    · rw [same, decide_eq_true (extension_metadata record.name)] at kind
      rw [same, ← kind]
      rfl
  · rintro ⟨record,member,rfl⟩
    obtain ⟨⟨content,file,-⟩,text,metadata,-⟩ := restored.loaded record member
    cases document with
    | false =>
      refine List.mem_map.mpr ⟨(record.name.str,content.length),?_,rfl⟩
      simp [otherObjects,mem_listObjects file,extension_str]
    | true =>
      refine List.mem_map.mpr ⟨(generateBinlogMetadataName record.name,text.length),?_,rfl⟩
      simp [otherObjects,mem_listObjects metadata,extension_metadata]

/-- What belongs together is accepted, and the records are loaded. -/
theorem construct_restored {b : Backend} (restored : Restored b.objects mode records)
    (readable : Readable b.objects mode records) {constructionMode : ConstructionMode}
    (checked : constructionMode ≠ .queryingOnly) (checkpoint : Checkpoint) :
    construct constructionMode mode checkpoint b = .ok () (fresh constructionMode mode checkpoint b
      ((records.head?.bind BinlogRecord.addedGtids).getD .empty) records) := by
  obtain ⟨content,found,small,parsed⟩ := readable.document
  obtain ⟨text,unloaded,index,lines,names⟩ := restored.index
  have stored : metadataName ∈ b.listObjects.map Prod.fst := List.mem_map_of_mem (mem_listObjects found)
  have listed : (defaultBinlogIndexName,text.length) ∈ b.listObjects.filter (·.1 ≠ metadataName) :=
    List.mem_filter.mpr ⟨mem_listObjects index,decide_eq_true (show defaultBinlogIndexName ≠ metadataName by decide)⟩
  simp only [construct, constructorBody, Action.bind_eq_ok, Action.get_eq_ok]
  refine ⟨_,_,⟨rfl,rfl⟩,?_⟩
  rw [if_neg (List.ne_nil_of_mem (mem_listObjects found))]
  simp only [Action.bind_eq_ok, Action.lift_eq_ok, raiseIf_eq_ok]
  refine ⟨(),_,⟨not_not.mpr stored,rfl⟩,content,_,⟨getObject_of_find? found small,rfl⟩,mode,_,⟨parsed,rfl⟩,(),_,
    ⟨not_not.mpr rfl,rfl⟩,?_⟩
  rw [if_pos (List.ne_nil_of_mem listed), if_neg (not_not.mpr (List.mem_map_of_mem listed))]
  simp only [List.partition_eq_filter_filter, Action.bind_eq_ok, Action.lift_eq_ok, Action.modify_eq_ok]
  have files := names_of_restored restored false
  have documents := names_of_restored restored true
  have many := length_of_names CompositeBinlogName.str_injective restored.distinct (otherObjects_nodup b false)
    (by simpa using files)
  have manyDocuments := length_of_names generateBinlogMetadataName_injective restored.distinct
    (otherObjects_nodup b true) (by simpa using documents)
  have filesEq : otherObjects b false = ((b.listObjects.filter (·.1 ≠ metadataName)).filter
      (·.1 ≠ defaultBinlogIndexName)).filter (not ∘ fun x => decide (extension x.1 = binlogMetadataExtension)) := by
    simp [otherObjects,Function.comp_def]
  have documentsEq : otherObjects b true = ((b.listObjects.filter (·.1 ≠ metadataName)).filter
      (·.1 ≠ defaultBinlogIndexName)).filter (fun x => decide (extension x.1 = binlogMetadataExtension)) := by
    simp [otherObjects]
  rw [← filesEq, ← documentsEq]
  refine ⟨unloaded,_,⟨?_,rfl⟩,(),_,⟨?_,rfl⟩,(records,_),_,⟨?_,rfl⟩,rfl⟩
  · simp only [loadBinlogIndex, bind_eq_ok]
    exact ⟨text,getObject_of_find? index (readable.index text index),lines⟩
  · simp only [validateBinlogIndex, checked, if_false, bind_eq_ok, raiseIf_eq_ok, exists_const, not_exists, not_and,
      not_not]
    refine ⟨?_,by rw [many, ← List.length_map BinlogRecord.name, names, List.length_map]⟩
    intro entry member
    have named : entry.name ∈ records.map BinlogRecord.name := names ▸ List.mem_map_of_mem member
    obtain ⟨record,loaded,same⟩ := List.mem_map.mp named
    exact (files _).mpr ⟨record,loaded,by rw [same]; rfl⟩
  · simp only [loadAndValidateBinlogMetadataSet, bind_eq_ok, raiseIf_eq_ok, pure_eq_ok, exists_const]
    refine ⟨records,loadRecords_eq_ok names ?_,fun differ => differ.2 manyDocuments,rfl⟩
    intro record member
    obtain ⟨⟨object,file,size⟩,document,metadata,parsed⟩ := restored.loaded record member
    refine ⟨document,getObject_of_find? metadata (readable.metadata record member document metadata),parsed,
      (documents _).mpr ⟨record,member,rfl⟩,restored.validated record member,?_⟩
    apply lookup_of_mem (otherObjects_nodup b false)
    simp [otherObjects,← size,mem_listObjects file,extension_str]

/-- What the constructor has accepted: an index that is written for some of the files is accepted as well. -/
structure Accepted (objects : Objects) (mode : ReplicationMode) (records : List BinlogRecord) : Prop where
  restored : Restored objects mode records
  readable : Readable objects mode records
  listable : ∀ record ∈ records, Listable record.name
  entries : (records.map fun record => record.name.str.length + 3).sum ≤ Backend.maxMemoryObjectSize + 1

private theorem loadRecords_small {s : Storage} (checked : s.constructionMode ≠ .queryingOnly)
    {objects metadataObjects : List (Bytes × Nat)} {unloaded : List BinlogRecord}
    (run : s.loadRecords objects metadataObjects unloaded = .ok records) :
    ∀ record ∈ records, ∃ content, s.backend.getObject (generateBinlogMetadataName record.name) = .ok content := by
  induction unloaded generalizing records with
  | nil =>
    cases run
    simp
  | cons first rest ih =>
    rw [loadRecords] at run
    split at run
    · simp [checked] at run
    · rename_i loaded read
      simp only [bind_eq_ok, raiseIf_eq_ok, pure_eq_ok, exists_const] at run
      obtain ⟨_,-,-,others,run,rfl⟩ := run
      simp only [loadBinlogMetadata, bind_eq_ok, raiseIf_eq_ok, exists_const] at read
      obtain ⟨-,document,got,parsed⟩ := read
      obtain ⟨name,-,-⟩ := BinlogFileMetadata.parse_ok parsed
      intro record member
      rcases List.mem_cons.mp member with rfl | member
      · exact ⟨document,name ▸ got⟩
      · exact ih run record member

theorem construct_accepted {constructionMode : ConstructionMode} (checked : constructionMode ≠ .queryingOnly)
    {checkpoint : Checkpoint} {b : Backend} {t : Storage} {u : Unit}
    (run : construct constructionMode mode checkpoint b = .ok u t) :
    t.records = [] ∨ Accepted b.objects mode t.records := by
  rcases construct_ok checked run with ⟨-,⟨-,saved⟩ | ⟨-,rfl⟩⟩ | ⟨-,⟨-,rfl⟩ | ⟨records,restored,rfl⟩⟩
  · left
    simp only [saveMetadata, Action.bind_eq_ok, Action.get_eq_ok, onBackend_eq_ok] at saved
    obtain ⟨_,_,⟨rfl,rfl⟩,_,-,rfl⟩ := saved
    rfl
  · exact .inl rfl
  · exact .inl rfl
  right
  change Accepted b.objects mode records
  obtain ⟨text,unloaded,index,lines,names⟩ := restored.index
  have present := mem_listObjects index
  simp only [construct, constructorBody, Action.bind_eq_ok, Action.get_eq_ok] at run
  obtain ⟨_,_,⟨rfl,rfl⟩,run⟩ := run
  rw [if_neg (List.ne_nil_of_mem present)] at run
  simp only [Action.bind_eq_ok, Action.lift_eq_ok, raiseIf_eq_ok] at run
  obtain ⟨_,_,⟨-,rfl⟩,content,_,⟨got,rfl⟩,stored,_,⟨parsed,rfl⟩,_,_,⟨same,rfl⟩,run⟩ := run
  have listed : (defaultBinlogIndexName,text.length) ∈ b.listObjects.filter (·.1 ≠ metadataName) :=
    List.mem_filter.mpr ⟨present,decide_eq_true (show defaultBinlogIndexName ≠ metadataName by decide)⟩
  rw [if_pos (List.ne_nil_of_mem listed), if_neg (not_not.mpr (List.mem_map_of_mem listed))] at run
  simp only [List.partition_eq_filter_filter, Action.bind_eq_ok, Action.lift_eq_ok, Action.modify_eq_ok] at run
  obtain ⟨_,_,⟨read,rfl⟩,_,_,⟨-,rfl⟩,⟨final,_⟩,_,⟨loaded,rfl⟩,result⟩ := run
  obtain rfl : final = records := congrArg Storage.records result
  simp only [loadBinlogIndex, bind_eq_ok] at read
  obtain ⟨_,indexed,-⟩ := read
  cases index.symm.trans (getObject_eq_ok indexed)
  simp only [loadAndValidateBinlogMetadataSet, bind_eq_ok, raiseIf_eq_ok, pure_eq_ok, exists_const,
    Prod.mk.injEq] at loaded
  obtain ⟨_,documents,-,rfl,-⟩ := loaded
  have each := loadRecords_small checked documents
  obtain ⟨whole,length⟩ := splitLines_whole text
  obtain ⟨listable,entries⟩ := loadIndexLines_listable whole (by simp) lines
  have small := getObject_small indexed
  refine ⟨restored,⟨⟨content,getObject_eq_ok got,getObject_small got,?_⟩,?_,?_⟩,?_,?_⟩
  · rw [parsed, not_not.mp same]
  · intro other found
    cases index.symm.trans found
    exact small
  · intro record member other found
    obtain ⟨document,got⟩ := each record member
    cases found.symm.trans (getObject_eq_ok got)
    exact getObject_small got
  · intro record member
    have named : record.name ∈ unloaded.map BinlogRecord.name := names ▸ List.mem_map_of_mem member
    obtain ⟨entry,inside,same⟩ := List.mem_map.mp named
    exact same ▸ listable entry inside
  · have sums := congrArg (fun names => (names.map fun name => name.str.length + 3).sum) names
    simp only [List.map_map, Function.comp_def] at sums
    simp only [List.map_nil, List.sum_nil] at entries
    omega

end Constructor
end Storage
end BinlogServer.Store
