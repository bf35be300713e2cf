import BinlogServer.Store.Accepting
import BinlogServer.Store.Faults

/-!
# The index and the names in it

What `save_binlog_index` has written is read by `load_binlog_index` when it is not too large for the memory.
-/

namespace BinlogServer.Store
open ByteString Util Gtids Events
namespace Storage

/-- An index that is saved is there as it was written. -/
theorem saveBinlogIndex_ok {s t : Storage} {u : Unit} (saved : saveBinlogIndex s = .ok u t) :
    t.backend.objects.find? defaultBinlogIndexName = some (indexText s.records) := by
  simp only [saveBinlogIndex, Backend.putObject, Action.bind_eq_ok, Action.get_eq_ok, onBackend_eq_ok] at saved
  obtain ⟨_,_,⟨rfl,rfl⟩,b,put,rfl⟩ := saved
  rcases Backend.request_cases (b := s.backend) (.put defaultBinlogIndexName (indexText s.records))
    "cannot write data to underlying tmp object file" "cannot put object into S3 bucket"
    with ⟨-,done⟩ | ⟨-,failure,⟨-,refused⟩ | ⟨-,late⟩⟩
  · cases put.symm.trans done
    exact (SortedMap.find?_insert _ _ _ _).trans (if_pos rfl)
  · cases put.symm.trans refused
  · cases put.symm.trans late

/-- An index that is too large cannot be read. -/
theorem loadBinlogIndex_large {r : Storage} {content : Bytes}
    (found : r.backend.objects.find? defaultBinlogIndexName = some content)
    (large : Backend.maxMemoryObjectSize < content.length) :
    r.loadBinlogIndex = .error ⟨.outOfRange,
      if r.backend.type = .filesystem then "underlying object file is too large to be loaded in memory"
      else "S3 object is too large to be loaded in memory"⟩ := by
  have unread : r.backend.getObject defaultBinlogIndexName = .error ⟨.outOfRange,
      if r.backend.type = .filesystem then "underlying object file is too large to be loaded in memory"
      else "S3 object is too large to be loaded in memory"⟩ := by
    rw [Backend.getObject, found]
    exact if_pos large
  rw [loadBinlogIndex, unread]
  rfl

/-- Names are read back from their texts, and a saved index is loaded with the same names exactly when it is not larger
    than what is read into memory. -/
theorem names_round_trip_iff {s t reader : Storage}
    (valid : ∀ record ∈ s.records, record.name.isEmpty = false ∧ 0x0A ∉ record.name.baseName)
    (distinct : (s.records.map BinlogRecord.name).Nodup) (saved : saveBinlogIndex s = .ok () t)
    (same : reader.backend.objects = t.backend.objects) (fresh : reader.records = []) :
    (∀ name : CompositeBinlogName, name.isEmpty = false → CompositeBinlogName.parse name.str = .ok name) ∧
    (∀ text name, CompositeBinlogName.parse text = .ok name → name.str = text) ∧
    ((∃ loaded, reader.loadBinlogIndex = .ok loaded ∧
        loaded.map BinlogRecord.name = s.records.map BinlogRecord.name) ↔
      (s.records.map fun record => record.name.str.length + 3).sum ≤ 1048576) := by
  refine ⟨fun name => CompositeBinlogName.parse_str,fun text name => CompositeBinlogName.str_of_parse,?_⟩
  have listable : ∀ record ∈ s.records, Listable record.name := fun record member =>
    ⟨(valid record member).1,CompositeBinlogName.notMem_str (valid record member).2 (by decide) rfl⟩
  have found : reader.backend.objects.find? defaultBinlogIndexName = some (indexText s.records) :=
    same ▸ saveBinlogIndex_ok saved
  rw [← indexText_length]
  constructor
  · rintro ⟨loaded,read,-⟩
    by_contra large
    rw [loadBinlogIndex_large found (not_le.mp large)] at read
    cases read
  · intro small
    refine ⟨s.records.map fun record => unloadedRecord reader.replicationMode record.name,?_,?_⟩
    · simp only [loadBinlogIndex, bind_eq_ok]
      refine ⟨_,getObject_of_find? found small,?_⟩
      rw [fresh]
      exact @loadIndexLines_saved _ s.records [] listable distinct
    · rw [List.map_map]
      rfl

namespace Numbered

/-- The record of the file b.000001, of the file b.000002 and so on. -/
def record (n : Fin 999999) : BinlogRecord := ⟨CompositeBinlogName.Sample.numbered n,4,none,none,.empty,0⟩

theorem record_valid (n : Fin 999999) :
    (record n).name.isEmpty = false ∧ 0x0A ∉ (record n).name.baseName := by
  have line : 0x0A ∉ ascii "b" := by decide
  refine ⟨?_,line⟩
  simp [record,CompositeBinlogName.Sample.numbered,CompositeBinlogName.isEmpty]

theorem record_injective : Function.Injective fun n => (record n).name := by
  intro n m same
  have numbers : n.val + 1 = m.val + 1 := congrArg CompositeBinlogName.sequenceNumber same
  exact Fin.ext (Nat.succ.inj numbers)

/-- A storage with the first files. -/
def storage (count : Nat) : Storage where
  constructionMode := .streaming
  backend := ⟨.filesystem,.empty,.none,[],[]⟩
  replicationMode := .position
  records := ((List.finRange 999999).take count).map record

theorem storage_valid (count : Nat) :
    ∀ entry ∈ (storage count).records, entry.name.isEmpty = false ∧ 0x0A ∉ entry.name.baseName := by
  intro entry member
  obtain ⟨n,-,rfl⟩ := List.mem_map.mp member
  exact record_valid n

theorem storage_distinct (count : Nat) : ((storage count).records.map BinlogRecord.name).Nodup := by
  rw [storage, List.map_map]
  exact ((List.nodup_finRange _).sublist (List.take_sublist _ _)).map record_injective

/-- Eleven characters are written for a file. -/
theorem storage_size (count : Nat) :
    ((storage count).records.map fun entry => entry.name.str.length + 3).sum = min count 999999 * 11 := by
  have each : (fun entry : BinlogRecord => entry.name.str.length + 3) ∘ record = fun _ => 11 := by
    funext n
    rw [Function.comp_apply, CompositeBinlogName.str_length]
    rfl
  rw [storage, List.map_map, each, List.map_const', List.sum_replicate_nat,
    List.length_take, List.length_finRange]

theorem storage_saved (count : Nat) :
    ∃ t, saveBinlogIndex (storage count) = .ok () t ∧ t.backend.type = .filesystem := by
  simp only [saveBinlogIndex, Action.bind_eq_ok, Action.get_eq_ok, onBackend_eq_ok]
  exact ⟨_,⟨_,_,⟨rfl,rfl⟩,_,Backend.putObject_ok rfl _ _,rfl⟩,rfl⟩

end Numbered

/-- The index of two files is read back. -/
theorem names_round_trip_two : ∃ t loaded, saveBinlogIndex (Numbered.storage 2) = .ok () t ∧
    (t.withRecords []).loadBinlogIndex = .ok loaded ∧
    loaded.map BinlogRecord.name = (Numbered.storage 2).records.map BinlogRecord.name := by
  obtain ⟨t,saved,-⟩ := Numbered.storage_saved 2
  have round := @names_round_trip_iff _ t (t.withRecords []) (Numbered.storage_valid 2) (Numbered.storage_distinct 2) saved
    rfl rfl
  obtain ⟨loaded,read,same⟩ := round.2.2.mpr (by rw [Numbered.storage_size]; decide)
  exact ⟨t,loaded,saved,read,same⟩

/-- The index of 95326 files with short names is saved and cannot be loaded. -/
theorem names_round_trip_large : ∃ s t : Storage, s.records.length = 95326 ∧
    (∀ record ∈ s.records, record.name.isEmpty = false ∧ 0x0A ∉ record.name.baseName) ∧
    (s.records.map BinlogRecord.name).Nodup ∧ saveBinlogIndex s = .ok () t ∧
    (t.withRecords []).loadBinlogIndex =
      .error ⟨.outOfRange,"underlying object file is too large to be loaded in memory"⟩ := by
  obtain ⟨t,saved,type⟩ := Numbered.storage_saved 95326
  refine ⟨Numbered.storage 95326,t,?_,Numbered.storage_valid _,Numbered.storage_distinct _,saved,?_⟩
  · simp [Numbered.storage]
  · have found := saveBinlogIndex_ok saved
    have large : Backend.maxMemoryObjectSize < (indexText (Numbered.storage 95326).records).length := by
      rw [indexText_length, Numbered.storage_size]
      decide
    rw [loadBinlogIndex_large (r := t.withRecords []) found large, withRecords_backend, type, if_pos rfl]
end Storage
end BinlogServer.Store
