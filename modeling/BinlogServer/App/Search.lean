import BinlogServer.Gtids.Algebra
import BinlogServer.Lib.Cover
import BinlogServer.Store.Timestamps

/-!
# Searching for files

`search_by_timestamp` and `search_by_gtid_set` go through the records of a storage from the front and answer with
those that were chosen. The first one stops where a file starts later than the timestamp; the second one takes every
file that has some of the gtids that are still to be found.
-/

namespace BinlogServer.App
open ByteString Util Gtids Events Store

/-- `binlog_file_record` -/
structure BinlogFileRecord where
  name : Bytes
  size : Nat
  uri : Bytes
  previousGtids : Option GtidSet
  addedGtids : Option GtidSet
  minTimestamp : Nat
  maxTimestamp : Nat
deriving DecidableEq

/-- `search_response`: its `result`, where the status is success and there is no message. -/
structure SearchResponse where
  result : List BinlogFileRecord := []
deriving DecidableEq

namespace Search
variable (objectUri : Bytes → Bytes)

/-- What a response says about a record; `objectUri` is `get_object_uri` of the backend. -/
def binlogFileRecord (record : BinlogRecord) : BinlogFileRecord where
  name := record.name.str
  size := record.size
  uri := objectUri record.name.str
  previousGtids := record.previousGtids
  addedGtids := record.addedGtids
  minTimestamp := record.timestamps.min
  maxTimestamp := record.timestamps.max

/-- `append_record_to_response` -/
def appendRecordToResponse (response : SearchResponse) (record : BinlogRecord) : SearchResponse :=
  { response with result := response.result ++ [binlogFileRecord objectUri record] }

/-- The loop of `handle_search_by_timestamp`. -/
def timestampLoop (timestamp : Int) : List BinlogRecord → SearchResponse → SearchResponse
  | [], response => response
  | record :: rest, response =>
    if record.timestamps.min > timestamp then response
    else timestampLoop timestamp rest (appendRecordToResponse objectUri response record)

/-- `handle_search_by_timestamp` with the records of the storage. -/
def searchByTimestamp (records : List BinlogRecord) (timestamp : Int) : Fallible SearchResponse := do
  raiseIf (records = []) .runtimeError "Binlog storage is empty"
  let response := timestampLoop objectUri timestamp records {}
  raiseIf (response.result = []) .runtimeError "Timestamp is too old"
  pure response

/-- The loop of `handle_search_by_gtid_set`: what could not be found, and the response. -/
def gtidSetLoop : GtidSet → List BinlogRecord → SearchResponse → GtidSet × SearchResponse
  | remaining, [], response => (remaining,response)
  | remaining, record :: rest, response =>
    if remaining.isEmpty then (remaining,response)
    else match record.addedGtids with
      | none => gtidSetLoop remaining rest response
      | some added =>
        if ¬ remaining.intersects added then gtidSetLoop remaining rest response
        else gtidSetLoop (remaining.subtract added) rest (appendRecordToResponse objectUri response record)

/-- `handle_search_by_gtid_set` with the storage. -/
def searchByGtidSet (s : Storage) (remainingGtids : GtidSet) : Fallible SearchResponse := do
  raiseIf (s.records = []) .runtimeError "Binlog storage is empty"
  raiseIf (¬ s.isInGtidReplicationMode) .runtimeError
    ("GTID set search is not supported in storages " ++ "created in position-based replication mode")
  let found := gtidSetLoop objectUri remainingGtids s.records {}
  raiseIf (¬ found.1.isEmpty) .runtimeError "The specified GTID set cannot be covered"
  pure found.2

section
variable [Externals]

/-- The storage that is queried. -/
def openForQueries (mode : ReplicationMode) (backend : Backend) : Fallible Storage :=
  match Storage.construct .queryingOnly mode {} backend with
  | .ok _ s => .ok s
  | .error failure _ => .error failure

/-- `handle_search_by_timestamp` -/
def handleSearchByTimestamp (tryParse : Bytes → Option Int) (mode : ReplicationMode) (backend : Backend)
    (subcommandValue : Bytes) : Fallible SearchResponse := do
  match tryParse subcommandValue with
  | none => .error ⟨.runtimeError,"Invalid timestamp format"⟩
  | some timestamp => do
    let storage ← openForQueries mode backend
    searchByTimestamp objectUri storage.records timestamp

/-- `handle_search_by_gtid_set` -/
def handleSearchByGtidSet (mode : ReplicationMode) (backend : Backend) (subcommandValue : Bytes) :
    Fallible SearchResponse := do
  let remainingGtids ← GtidSet.ofText subcommandValue
  let storage ← openForQueries mode backend
  searchByGtidSet objectUri storage remainingGtids

end
section
variable {objectUri}

/-- The gtids that are new in a file. -/
def added (record : BinlogRecord) : Set (Uuid × Tag × Nat) := (record.addedGtids.getD .empty).denoted

/-- A set that is valid is empty if it stands for nothing. -/
theorem isEmpty_iff_denoted {s : GtidSet} (valid : s.Valid) : s.isEmpty ↔ s.denoted = ∅ := by
  rw [GtidSet.isEmpty_iff, ← GtidSet.denoted_empty]
  exact ⟨congrArg GtidSet.denoted,valid.ext GtidSet.valid_empty⟩

/-- What the loop of a search finds and what it does not. -/
theorem gtidSetLoop_spec {remaining : GtidSet} (valid : remaining.Valid) (records : List BinlogRecord)
    (response : SearchResponse) :
    (gtidSetLoop objectUri remaining records response).1.Valid ∧
      (gtidSetLoop objectUri remaining records response).1.denoted =
        remaining.denoted \ {x | ∃ record ∈ records, x ∈ added record} ∧
      (gtidSetLoop objectUri remaining records response).2.result = response.result ++
        ((Cover.selected added records remaining.denoted).map records.get).map (binlogFileRecord objectUri) := by
  induction records generalizing remaining response with
  | nil => exact ⟨valid,by simp [gtidSetLoop],by simp [gtidSetLoop,Cover.selected]⟩
  | cons record rest ih =>
    rw [gtidSetLoop, Cover.selected_cons]
    by_cases nothing : remaining.isEmpty
    · have none := (isEmpty_iff_denoted valid).mp nothing
      rw [if_pos nothing]
      exact ⟨valid,by simp [none],by simp [none,Cover.selected_empty]⟩
    have split : remaining.denoted \ {x | ∃ other ∈ record :: rest, x ∈ added other} =
        (remaining.denoted \ added record) \ {x | ∃ other ∈ rest, x ∈ added other} := by
      ext x
      simp only [Set.mem_sdiff, Set.mem_ofPred_eq, List.mem_cons, exists_eq_or_imp, not_or]
      exact and_assoc.symm
    rw [if_neg nothing, split]
    -- a file that has nothing of what remains is passed over
    have skipped : ¬ (remaining.denoted ∩ added record).Nonempty → remaining.denoted \ added record = remaining.denoted := by
      intro apart
      rw [sdiff_eq_left, Set.disjoint_iff_inter_eq_empty]
      exact Set.not_nonempty_iff_eq_empty.mp apart
    cases held : record.addedGtids with
    | none =>
      have apart : ¬ (remaining.denoted ∩ added record).Nonempty := by simp [added,held,GtidSet.denoted_empty]
      rw [skipped apart, if_neg apart, List.nil_append]
      exact ih valid response
    | some gtids =>
      have same : added record = gtids.denoted := by rw [added, held, Option.getD_some]
      by_cases shared : remaining.intersects gtids
      · have some : (remaining.denoted ∩ added record).Nonempty := by
          rw [same]
          exact GtidSet.intersects_iff.mp shared
        have left := ih (valid.subtract gtids) (appendRecordToResponse objectUri response record)
        rw [GtidSet.denoted_subtract, ← same] at left
        simp only [shared, not_true_eq_false, if_false, if_pos some]
        refine ⟨left.1,left.2.1,left.2.2.trans ?_⟩
        simp [appendRecordToResponse]
      · have apart : ¬ (remaining.denoted ∩ added record).Nonempty := by
          rw [same, ← GtidSet.intersects_iff]
          exact shared
        simp only [shared]
        rw [skipped apart, if_neg apart, List.nil_append]
        exact ih valid response

theorem searchByGtidSet_eq_ok {s : Storage} {query : GtidSet} {response : SearchResponse} :
    searchByGtidSet objectUri s query = .ok response ↔ s.records ≠ [] ∧ s.replicationMode = .gtid ∧
      (gtidSetLoop objectUri query s.records {}).1.isEmpty ∧ (gtidSetLoop objectUri query s.records {}).2 = response := by
  simp only [searchByGtidSet, bind_eq_ok, raiseIf_eq_ok, exists_const, pure_eq_ok, not_not]
  simp [Storage.isInGtidReplicationMode]

/-- A search for gtids returns if they are all in the files, and then its response has the files that have a gtid
    which no file before them has. Where no gtid is in two files, these are a cover, every other cover has more files. -/
theorem search_by_gtid_set_exact {s : Storage} (some : s.records ≠ []) (mode : s.replicationMode = .gtid)
    {query : GtidSet} (valid : query.Valid) :
    ((∃ response, searchByGtidSet objectUri s query = .ok response) ↔
      ∀ x ∈ query.denoted, ∃ record ∈ s.records, x ∈ added record) ∧
    ∀ response, searchByGtidSet objectUri s query = .ok response →
      response.result = ((Cover.selected added s.records query.denoted).map s.records.get).map
        (binlogFileRecord objectUri) ∧
      (s.records.Pairwise (fun a b => ∀ x ∈ added a, x ∉ added b) →
        Cover.Covers added s.records query.denoted (Cover.selected added s.records query.denoted).toFinset ∧
        ∀ places, Cover.Covers added s.records query.denoted places →
          (Cover.selected added s.records query.denoted).toFinset.card ≤ places.card ∧
          ((Cover.selected added s.records query.denoted).toFinset.card = places.card →
            (Cover.selected added s.records query.denoted).toFinset = places)) := by
  obtain ⟨left,rest,result⟩ := @gtidSetLoop_spec objectUri query valid s.records {}
  have covered : (gtidSetLoop objectUri query s.records {}).1.isEmpty ↔
      ∀ x ∈ query.denoted, ∃ record ∈ s.records, x ∈ added record := by
    rw [isEmpty_iff_denoted left, rest, Set.sdiff_eq_empty]
    rfl
  simp only [searchByGtidSet_eq_ok, some, mode, ne_eq, not_false_eq_true, true_and, exists_eq_right']
  refine ⟨covered,?_⟩
  rintro response ⟨found,rfl⟩
  have all := covered.mp found
  refine ⟨by simpa using result,fun disjoint => ⟨Cover.selected_covers all,?_⟩⟩
  intro places covers
  have inside := Cover.selected_subset disjoint covers
  exact ⟨Finset.card_le_card inside,fun same => Finset.eq_of_subset_of_card_le inside same.ge⟩

/-- The file does not start later; a range without timestamps starts at zero. -/
def notLater (timestamp : Int) (record : BinlogRecord) : Bool := (record.timestamps.min : Int) ≤ timestamp

theorem timestampLoop_result (timestamp : Int) (records : List BinlogRecord) (response : SearchResponse) :
    (timestampLoop objectUri timestamp records response).result =
      response.result ++ (records.takeWhile (notLater timestamp)).map (binlogFileRecord objectUri) := by
  induction records generalizing response with
  | nil => simp [timestampLoop]
  | cons record rest ih =>
    rw [timestampLoop]
    by_cases later : (record.timestamps.min : Int) > timestamp
    · rw [if_pos later, List.takeWhile_cons_of_neg (by simpa [notLater] using later)]
      simp
    · rw [if_neg later, ih, List.takeWhile_cons_of_pos (by simpa [notLater] using later)]
      simp [appendRecordToResponse]

theorem searchByTimestamp_eq {records : List BinlogRecord} (some : records ≠ []) (timestamp : Int) :
    searchByTimestamp objectUri records timestamp =
      if records.takeWhile (notLater timestamp) = [] then .error ⟨.runtimeError,"Timestamp is too old"⟩
      else .ok ⟨(records.takeWhile (notLater timestamp)).map (binlogFileRecord objectUri)⟩ := by
  have result : timestampLoop objectUri timestamp records {} =
      ⟨(records.takeWhile (notLater timestamp)).map (binlogFileRecord objectUri)⟩ :=
    congrArg SearchResponse.mk (timestampLoop_result timestamp records {})
  unfold searchByTimestamp
  rw [result]
  by_cases nothing : records.takeWhile (notLater timestamp) = []
  · simp only [raiseIf, some, nothing, List.map_nil, if_true, if_false]
    rfl
  · have chosen : (records.takeWhile (notLater timestamp)).map (binlogFileRecord objectUri) ≠ [] :=
      mt List.map_eq_nil_iff.mp nothing
    simp only [raiseIf, some, nothing, chosen, if_false]
    rfl

/-- One of the events has a timestamp, and it is not later than the given one. -/
def ReachesBackTo (timestamp : Int) (entries : List EventEntry) : Prop :=
  ∃ entry ∈ entries, entry.timestamp.toNat ≠ 0 ∧ (entry.timestamp.toNat : Int) ≤ timestamp

instance (timestamp : Int) (entries : List EventEntry) : Decidable (ReachesBackTo timestamp entries) :=
  List.decidableBEx _ entries

/-- The records whose files have such an event. -/
def recordsUntil (timestamp : Int) (records : List BinlogRecord) (files : List (List EventEntry)) : List BinlogRecord :=
  ((records.zip files).filter fun x => ReachesBackTo timestamp x.2).map Prod.fst

/-- The same is seen from the range of the timestamps. -/
def startsBy (timestamp : Int) (record : BinlogRecord) : Bool :=
  !record.timestamps.isEmpty && decide ((record.timestamps.min : Int) ≤ timestamp)

theorem reachesBackTo_iff {record : BinlogRecord} {entries : List EventEntry} (spans : record.timestamps.Spans entries)
    (timestamp : Int) : ReachesBackTo timestamp entries ↔ startsBy timestamp record = true := by
  simp only [startsBy, Bool.and_eq_true, Bool.not_eq_true', decide_eq_true_eq]
  constructor
  · rintro ⟨entry,member,stamped,early⟩
    have least := (spans.covers entry member stamped).1
    have greatest := (spans.covers entry member stamped).2
    refine ⟨?_,by omega⟩
    by_contra blank
    rw [Bool.not_eq_false, TimestampRange.isEmpty_iff] at blank
    rw [blank] at greatest
    exact stamped (Nat.le_zero.mp greatest)
  · rintro ⟨some,early⟩
    obtain ⟨entry,member,same⟩ := spans.least some
    refine ⟨entry,member,?_,by omega⟩
    rw [same]
    simpa [TimestampRange.isEmpty] using some

theorem recordsUntil_eq {records : List BinlogRecord} {files : List (List EventEntry)}
    (spans : List.Forall₂ (fun record entries => record.timestamps.Spans entries) records files) (timestamp : Int) :
    recordsUntil timestamp records files = records.filter (startsBy timestamp) := by
  induction spans with
  | nil => rfl
  | @cons record entries _ _ first rest ih =>
    have head := reachesBackTo_iff first timestamp
    rw [recordsUntil, List.zip_cons_cons, List.filter_cons, List.filter_cons]
    by_cases early : startsBy timestamp record = true
    · rw [if_pos (decide_eq_true (head.mpr early)), if_pos early, List.map_cons]
      exact congrArg _ ih
    · rw [if_neg (by simpa using mt head.mp early), if_neg early]
      exact ih

/-- The files before the first one that starts later have timestamps, and those after it do not reach back. -/
def Ordered (timestamp : Int) (records : List BinlogRecord) : Prop :=
  (∀ record ∈ records.takeWhile (notLater timestamp), record.timestamps.isEmpty = false) ∧
  ∀ record ∈ records.dropWhile (notLater timestamp), startsBy timestamp record = false

variable (objectUri) in
/-- The records are ordered if those that the search chooses are those that reach back. -/
theorem ordered_iff (timestamp : Int) (records : List BinlogRecord) : Ordered timestamp records ↔
    (records.takeWhile (notLater timestamp)).map (binlogFileRecord objectUri) =
      (records.filter (startsBy timestamp)).map (binlogFileRecord objectUri) := by
  have split : records.filter (startsBy timestamp) = (records.takeWhile (notLater timestamp)).filter (startsBy timestamp) ++
      (records.dropWhile (notLater timestamp)).filter (startsBy timestamp) := by
    rw [← List.filter_append, List.takeWhile_append_dropWhile]
  -- what is chosen reaches back if it has timestamps at all
  have front : (∀ record ∈ records.takeWhile (notLater timestamp), record.timestamps.isEmpty = false) →
      (records.takeWhile (notLater timestamp)).filter (startsBy timestamp) = records.takeWhile (notLater timestamp) := by
    intro stamped
    apply List.filter_eq_self.mpr
    intro record member
    have early := List.mem_takeWhile_imp member
    rw [notLater] at early
    simp [startsBy,stamped record member,of_decide_eq_true early]
  constructor
  · rintro ⟨stamped,apart⟩
    have back : (records.dropWhile (notLater timestamp)).filter (startsBy timestamp) = [] :=
      List.filter_eq_nil_iff.mpr fun record member => by simp [apart record member]
    rw [split, front stamped, back, List.append_nil]
  · intro same
    have stamped : ∀ record ∈ records.takeWhile (notLater timestamp), record.timestamps.isEmpty = false := by
      intro record member
      have chosen := List.mem_map_of_mem (f := binlogFileRecord objectUri) member
      rw [same] at chosen
      obtain ⟨other,inside,equal⟩ := List.mem_map.mp chosen
      have least : other.timestamps.min = record.timestamps.min := congrArg BinlogFileRecord.minTimestamp equal
      have reaches := (List.mem_filter.mp inside).2
      simp only [startsBy, Bool.and_eq_true, Bool.not_eq_true'] at reaches
      rw [TimestampRange.isEmpty, ← least]
      exact reaches.1
    refine ⟨stamped,?_⟩
    have length := congrArg List.length same
    rw [split, front stamped, List.length_map, List.length_map, List.length_append] at length
    have back : (records.dropWhile (notLater timestamp)).filter (startsBy timestamp) = [] :=
      List.length_eq_zero_iff.mp (by omega)
    intro record member
    simpa using List.filter_eq_nil_iff.mp back record member

/-- A search for a timestamp answers with the records of the files that reach back to it, or raises if there are none,
    if and only if the records are ordered. -/
theorem search_by_timestamp_exact_iff {records : List BinlogRecord} (some : records ≠ [])
    {files : List (List EventEntry)}
    (spans : List.Forall₂ (fun record entries => record.timestamps.Spans entries) records files) (timestamp : Int) :
    ((∀ response, searchByTimestamp objectUri records timestamp = .ok response →
        response.result = (recordsUntil timestamp records files).map (binlogFileRecord objectUri)) ∧
      ((∃ failure, searchByTimestamp objectUri records timestamp = .error failure) ↔
        recordsUntil timestamp records files = [])) ↔ Ordered timestamp records := by
  rw [recordsUntil_eq spans, searchByTimestamp_eq some, ordered_iff objectUri]
  by_cases nothing : records.takeWhile (notLater timestamp) = []
  · rw [if_pos nothing, nothing, List.map_nil]
    constructor
    · rintro ⟨-,raised⟩
      rw [raised.mp ⟨_,rfl⟩, List.map_nil]
    · intro same
      refine ⟨by simp,fun _ => ?_,fun _ => ⟨_,rfl⟩⟩
      exact List.map_eq_nil_iff.mp same.symm
  · rw [if_neg nothing]
    constructor
    · intro exact'
      exact exact'.1 _ rfl
    · intro same
      refine ⟨?_,?_⟩
      · rintro _ ⟨⟩
        exact same
      · constructor
        · rintro ⟨failure,⟨⟩⟩
        · intro none
          rw [none, List.map_nil, List.map_eq_nil_iff] at same
          exact absurd same nothing

end

namespace Sample

/-- Two files; some of the gtids are in both. -/
def storage : Storage where
  constructionMode := .queryingOnly
  backend := { type := .filesystem, objects := .empty }
  replicationMode := .gtid
  records := [⟨CompositeBinlogName.Sample.first,4,some .empty,some GtidSet.Sample.first,.empty,0⟩,
    ⟨CompositeBinlogName.Sample.second,4,some GtidSet.Sample.first,some GtidSet.Sample.second,.empty,0⟩]

def event (timestamp : UInt32) : EventEntry := { Storage.Sample.early with timestamp := timestamp }

def recordOf (name : CompositeBinlogName) (entry : EventEntry) : BinlogRecord :=
  ⟨name,9,none,none,TimestampRange.empty.addTimestamp entry.timestamp.toNat,0⟩

/-- A file of an event at 100 and one of an event at 5. -/
def backwards : List BinlogRecord :=
  [recordOf CompositeBinlogName.Sample.first (event 100),recordOf CompositeBinlogName.Sample.second (event 5)]

theorem backwards_spans : List.Forall₂ (fun record entries => record.timestamps.Spans entries) backwards
    [[event 100],[event 5]] := .cons (TimestampRange.Spans.nil.addTimestamp (event 100))
      (.cons (TimestampRange.Spans.nil.addTimestamp (event 5)) .nil)

end Sample

/-- The gtids of the first file are found. -/
theorem search_by_gtid_set_found : Sample.storage.records ≠ [] ∧ Sample.storage.replicationMode = .gtid ∧
    GtidSet.Sample.first.Valid ∧ ∃ response, searchByGtidSet id Sample.storage GtidSet.Sample.first = .ok response ∧
      response.result = ((Cover.selected added Sample.storage.records GtidSet.Sample.first.denoted).map
        Sample.storage.records.get).map (binlogFileRecord id) := by
  have some : Sample.storage.records ≠ [] := by simp [Sample.storage]
  obtain ⟨found,result⟩ := @search_by_gtid_set_exact id Sample.storage some rfl _ GtidSet.Sample.first_valid
  obtain ⟨response,returned⟩ := found.mpr fun x member => ⟨_,List.mem_cons_self,member⟩
  exact ⟨some,rfl,GtidSet.Sample.first_valid,response,returned,(result response returned).1⟩

/-- Both files have an event that is not later than 200. -/
theorem search_by_timestamp_exact_late : Ordered 200 Sample.backwards ∧
    ∀ response, searchByTimestamp id Sample.backwards 200 = .ok response → response.result =
      (recordsUntil 200 Sample.backwards [[Sample.event 100],[Sample.event 5]]).map (binlogFileRecord id) := by
  have some : Sample.backwards ≠ [] := by simp [Sample.backwards]
  have ordered : Ordered 200 Sample.backwards := by
    unfold Ordered
    decide
  have exact' := (@search_by_timestamp_exact_iff id _ some _ Sample.backwards_spans 200).mpr ordered
  exact ⟨ordered,exact'.1⟩

/-- The second file has an event that is not later than 50, but the search stops at the first one. -/
theorem search_by_timestamp_stops : List.Forall₂ (fun record entries => record.timestamps.Spans entries) Sample.backwards
      [[Sample.event 100],[Sample.event 5]] ∧
    searchByTimestamp id Sample.backwards 50 = .error ⟨.runtimeError,"Timestamp is too old"⟩ ∧
    (recordsUntil 50 Sample.backwards [[Sample.event 100],[Sample.event 5]]).length = 1 :=
  ⟨Sample.backwards_spans,by rfl,by decide⟩

end Search
end BinlogServer.App
