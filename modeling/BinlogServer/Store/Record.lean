import BinlogServer.Events.CompositeBinlogName
import BinlogServer.Events.EventView
import BinlogServer.Gtids.Algebra
import BinlogServer.Gtids.Text
import Mathlib.Tactic.IntervalCases

/-!
# Records of binlog files and their metadata

The storage keeps a record for every binlog file and saves it next to the file as a JSON document
(`binlog_file_metadata`); a document of the same kind says what the storage as a whole is for
(`storage_metadata`).
-/

namespace BinlogServer.Store
open ByteString Util Gtids Events

/-- `util::ctime_timestamp_range`; the epoch stands for no timestamp at all. -/
structure TimestampRange where
  min : Nat
  max : Nat
  both : min = 0 ↔ max = 0
deriving DecidableEq

namespace TimestampRange

def empty : TimestampRange := ⟨0,0,Iff.rfl⟩

/-- The constructor from two timestamps. -/
def make (min max : Nat) : TimestampRange :=
  if zero : min = 0 then ⟨max,max,Iff.rfl⟩
  else if none : max = 0 then ⟨min,min,Iff.rfl⟩
  else ⟨min,max,by simp [zero,none]⟩

def isEmpty (range : TimestampRange) : Bool := range.min = 0

/-- `add_range` -/
def addRange (range other : TimestampRange) : TimestampRange :=
  if nothing : other.isEmpty then range
  else if blank : range.isEmpty then other
  else ⟨Min.min range.min other.min,Max.max range.max other.max,by
    simp only [isEmpty, decide_eq_true_eq] at nothing blank
    have := mt range.both.mpr blank
    omega⟩

/-- `add_timestamp` -/
def addTimestamp (range : TimestampRange) (timestamp : Nat) : TimestampRange :=
  if nothing : timestamp = 0 then range
  else if blank : range.isEmpty then ⟨timestamp,timestamp,Iff.rfl⟩
  else ⟨Min.min range.min timestamp,Max.max range.max timestamp,by
    simp only [isEmpty, decide_eq_true_eq] at blank
    omega⟩

theorem make_self (range : TimestampRange) : make range.min range.max = range := by
  obtain ⟨min,max,both⟩ := range
  unfold make
  split
  · rename_i zero
    simp only at zero
    simp [zero,both.mp zero]
  · rename_i zero
    rw [dif_neg (mt both.mpr zero)]

/-- The last second of the year 9999, the greatest time `boost::posix_time` knows. -/
def maxTime : Nat := 253402300799

def Bounded (range : TimestampRange) : Prop := range.min ≤ maxTime ∧ range.max ≤ maxTime

theorem bounded_empty : empty.Bounded := by simp [Bounded,empty]

theorem bounded_make {min max : Nat} (least : min ≤ maxTime) (greatest : max ≤ maxTime) : (make min max).Bounded := by
  unfold make
  split
  · exact ⟨greatest,greatest⟩
  · split
    · exact ⟨least,least⟩
    · exact ⟨least,greatest⟩

theorem Bounded.addRange {range other : TimestampRange} (bounded : range.Bounded) (small : other.Bounded) :
    (range.addRange other).Bounded := by
  unfold TimestampRange.addRange
  split
  · exact bounded
  · split
    · exact small
    · exact ⟨min_le_of_left_le bounded.1,max_le bounded.2 small.2⟩

theorem Bounded.addTimestamp {range : TimestampRange} (bounded : range.Bounded) {timestamp : Nat}
    (small : timestamp ≤ maxTime) : (range.addTimestamp timestamp).Bounded := by
  unfold TimestampRange.addTimestamp
  split
  · exact bounded
  · split
    · exact ⟨small,small⟩
    · exact ⟨min_le_of_left_le bounded.1,max_le bounded.2 small⟩

end TimestampRange

/-- `storage::binlog_record` -/
structure BinlogRecord where
  name : CompositeBinlogName
  size : Nat
  previousGtids : Option GtidSet
  addedGtids : Option GtidSet
  timestamps : TimestampRange := .empty
  lastSequenceNumber : Nat := 0
deriving DecidableEq

/-- A member of a JSON object, as far as the server tells them apart; `other` is everything it has no use for. -/
inductive JsonValue where
  | null
  | number (value : Nat)
  | text (value : Bytes)
  | other
deriving DecidableEq, Repr

abbrev JsonObject := List (Bytes × JsonValue)

/-- Text that JSON represents as it is: printable ASCII without quotes and backslashes. -/
def Plain (text : Bytes) : Prop := ∀ c ∈ text, 0x20 ≤ c ∧ c < 0x7F ∧ c ≠ 0x22 ∧ c ≠ 0x5C

instance (text : Bytes) : Decidable (Plain text) := List.decidableBAll _ text

def JsonValue.IsPlain : JsonValue → Prop
  | .number value => value < 2 ^ 64
  | .text value => Plain value
  | _ => False

/-- The objects the server writes: distinct plain keys with numbers and plain text. -/
def PlainObject (object : JsonObject) : Prop :=
  (object.map Prod.fst).Nodup ∧ ∀ x ∈ object, Plain x.1 ∧ x.2.IsPlain

/-- The libraries the metadata relies on, as they are documented: what `boost::json` writes it reads back, and so
    does `boost::posix_time` with the times it knows. `parse` answers `none` where it throws, and for a document
    that is not an object. -/
class Externals where
  serialize : JsonObject → Bytes
  parse : Bytes → Option JsonObject
  isoExtendedStr : Nat → Bytes
  parseIsoExtended : Bytes → Option Nat
  parse_serialize : ∀ object, PlainObject object → parse (serialize object) = some object
  isoExtendedStr_plain : ∀ time ≤ TimestampRange.maxTime, Plain (isoExtendedStr time)
  parse_isoExtendedStr : ∀ time ≤ TimestampRange.maxTime, parseIsoExtended (isoExtendedStr time) = some time
  parseIsoExtended_le : ∀ text time, parseIsoExtended text = some time → time ≤ TimestampRange.maxTime

/-- A member of an object; one that is not there is null. -/
def JsonObject.member (object : JsonObject) (name : Bytes) : JsonValue := (object.lookup name).getD .null

/-- The failure of `nv_tuple_from_json` for a member. -/
def unableToExtract {α : Type} (name : String) : Fallible α :=
  .error ⟨.invalidArgument,"unable to extract \"" ++ name ++ "\""⟩

def extractNumber (object : JsonObject) (max : Nat) (name : String) : Fallible Nat :=
  match JsonObject.member object (ascii name) with
  | .number value => if value ≤ max then .ok value else unableToExtract name
  | _ => unableToExtract name

/-- An optional gtid set, read by `boost::lexical_cast`: nothing may be left in the stream. -/
def extractOptionalGtids (object : JsonObject) (name : String) : Fallible (Option GtidSet) :=
  match JsonObject.member object (ascii name) with
  | .null => .ok none
  | .text value =>
    match GtidSet.extract value with
    | some (gtids,[]) => .ok (some gtids)
    | _ => unableToExtract name
  | _ => unableToExtract name

def extractTimestamp [Externals] (object : JsonObject) (name : String) : Fallible Nat :=
  match JsonObject.member object (ascii name) with
  | .text value =>
    match Externals.parseIsoExtended value with
    | some time => .ok time
    | none => unableToExtract name
  | _ => unableToExtract name

def parseJson [Externals] (data : Bytes) : Fallible JsonObject :=
  match Externals.parse data with
  | some object => .ok object
  | none => .error ⟨.runtimeError,"syntax error"⟩

namespace BinlogFileMetadata

def expectedVersion : Nat := 1

/-- The members `nv_tuple_to_json` writes; a gtid set that is not there is left out. -/
def toJson [Externals] (record : BinlogRecord) : JsonObject :=
  [(ascii "version",.number expectedVersion),(ascii "size",.number record.size)] ++
    (record.previousGtids.toList.map fun gtids => (ascii "previous_gtids",.text gtids.str)) ++
    (record.addedGtids.toList.map fun gtids => (ascii "added_gtids",.text gtids.str)) ++
    [(ascii "min_timestamp",.text (Externals.isoExtendedStr record.timestamps.min)),
      (ascii "max_timestamp",.text (Externals.isoExtendedStr record.timestamps.max)),
      (ascii "last_sequence_number",.number record.lastSequenceNumber)]

/-- `binlog_file_metadata::str` for a record. -/
def str [Externals] (record : BinlogRecord) : Bytes := Externals.serialize (toJson record)

/-- `binlog_file_metadata(std::string_view)`, as the record of a file. -/
def parse [Externals] (name : CompositeBinlogName) (data : Bytes) : Fallible BinlogRecord := do
  let object ← parseJson data
  let version ← extractNumber object (2 ^ 32 - 1) "version"
  let size ← extractNumber object (2 ^ 64 - 1) "size"
  let previousGtids ← extractOptionalGtids object "previous_gtids"
  let addedGtids ← extractOptionalGtids object "added_gtids"
  let minTimestamp ← extractTimestamp object "min_timestamp"
  let maxTimestamp ← extractTimestamp object "max_timestamp"
  let lastSequenceNumber ← extractNumber object (2 ^ 64 - 1) "last_sequence_number"
  raiseIf (version ≠ expectedVersion) .invalidArgument "unsupported binlog file metadata version"
  pure ⟨name,size,previousGtids,addedGtids,.make minTimestamp maxTimestamp,lastSequenceNumber⟩

end BinlogFileMetadata

namespace StorageMetadata

def expectedVersion : Nat := 1

def modeText : ReplicationMode → Bytes
  | .position => ascii "position"
  | .gtid => ascii "gtid"

/-- `storage_metadata::str` -/
def str [Externals] (mode : ReplicationMode) : Bytes :=
  Externals.serialize [(ascii "version",.number expectedVersion),(ascii "mode",.text (modeText mode))]

/-- `storage_metadata(std::string_view)` -/
def parse [Externals] (data : Bytes) : Fallible ReplicationMode := do
  let object ← parseJson data
  let version ← extractNumber object (2 ^ 32 - 1) "version"
  let mode ← match JsonObject.member object (ascii "mode") with
    | .text value =>
      if value = modeText .position then pure ReplicationMode.position
      else if value = modeText .gtid then pure ReplicationMode.gtid
      else unableToExtract "mode"
    | _ => unableToExtract "mode"
  raiseIf (version ≠ expectedVersion) .invalidArgument "unsupported storage metadata version"
  pure mode

end StorageMetadata

section
variable {text other : Bytes}

theorem plain_append : Plain (text ++ other) ↔ Plain text ∧ Plain other := List.forall_mem_append

theorem plain_cons {c : UInt8} : Plain (c :: text) ↔ Plain [c] ∧ Plain text := @plain_append [c] text

theorem plain_flatMap {α : Type} {items : List α} {f : α → Bytes} (each : ∀ item ∈ items, Plain (f item)) :
    Plain (items.flatMap f) := by
  intro c member
  obtain ⟨item,known,inside⟩ := List.mem_flatMap.mp member
  exact each item known c inside

private theorem plain_of_isAlnum {c : UInt8} (alnum : isAlnum c = true) : Plain [c] := by
  simp only [isAlnum, isAlpha, isDigit, Bool.or_eq_true, Bool.and_eq_true, decide_eq_true_eq, UInt8.le_iff_toNat_le] at alnum
  simp only [Plain, List.mem_singleton, UInt8.le_iff_toNat_le, UInt8.lt_iff_toNat_lt, ne_eq,
    ← UInt8.toNat_inj]
  have values : (0x41 : UInt8).toNat = 0x41 ∧ (0x5A : UInt8).toNat = 0x5A ∧ (0x61 : UInt8).toNat = 0x61 ∧
      (0x7A : UInt8).toNat = 0x7A ∧ (0x30 : UInt8).toNat = 0x30 ∧ (0x39 : UInt8).toNat = 0x39 ∧
      (0x20 : UInt8).toNat = 0x20 ∧ (0x7F : UInt8).toNat = 0x7F ∧ (0x22 : UInt8).toNat = 0x22 ∧
      (0x5C : UInt8).toNat = 0x5C := by decide
  omega

theorem plain_toDecimal (n : Nat) : Plain (toDecimal n) := by
  intro c member
  exact plain_of_isAlnum (c := c) (by simp [isAlnum,isDigit_of_mem_toDecimal member]) c (by simp)

private theorem plain_tag (tag : Tag) : Plain tag.name := by
  obtain ⟨-,start,others⟩ := tag.valid
  intro c member
  have letter : c = 0x5F ∨ isAlnum c = true := by
    cases shape : tag.name with
    | nil => simp [shape] at member
    | cons first rest =>
      rw [shape] at member start others
      rcases List.mem_cons.mp member with rfl | later
      · exact (start c rfl).imp_right fun alpha => by simp [isAlnum,alpha]
      · exact others c later
  rcases letter with rfl | alnum
  · decide
  · exact plain_of_isAlnum alnum c (by simp)

private theorem plain_hexDigit : ∀ n < 16, Plain [Uuid.hexDigit n] := by
  intro n small
  interval_cases n <;> decide

private theorem plain_uuid (uuid : Uuid) : Plain uuid.str := by
  have groups : ∀ (sizes : List Nat) (raw : Bytes), Plain (Uuid.printGroups sizes raw) := by
    intro sizes
    induction sizes with
    | nil => intro raw c member; cases member
    | cons count rest ih =>
      intro raw
      rw [Uuid.printGroups, plain_append]
      refine ⟨plain_flatMap fun b _ => ?_,?_⟩
      · have high : b.toNat / 16 < 16 := by have := b.toNat_lt; omega
        exact plain_cons.mpr ⟨plain_hexDigit _ high,plain_hexDigit _ (by omega)⟩
      · split
        · intro c member; cases member
        · exact plain_cons.mpr ⟨by decide,ih _⟩
  exact groups _ _

/-- The text of a gtid set needs no escapes. -/
theorem plain_str (gtids : GtidSet) : Plain gtids.str := by
  have uuids : ∀ entry, Plain (GtidSet.uuidText entry) := by
    intro entry
    refine plain_append.mpr ⟨plain_uuid entry.1,plain_flatMap fun tagged _ => ?_⟩
    refine plain_append.mpr ⟨?_,plain_flatMap fun interval _ => ?_⟩
    · split
      · intro c member; cases member
      · exact plain_cons.mpr ⟨by decide,plain_tag _⟩
    · refine plain_cons.mpr ⟨by decide,plain_append.mpr ⟨plain_toDecimal _,?_⟩⟩
      split
      · exact plain_cons.mpr ⟨by decide,plain_toDecimal _⟩
      · intro c member; cases member
  unfold GtidSet.str
  split
  · intro c member; cases member
  · refine plain_append.mpr ⟨uuids _,plain_flatMap fun entry _ => ?_⟩
    exact plain_cons.mpr ⟨by decide,plain_cons.mpr ⟨by decide,uuids _⟩⟩

end

/-- The numbers of a record fit their types. -/
structure BinlogRecord.Bounded (record : BinlogRecord) : Prop where
  size : record.size < 2 ^ 64
  timestamps : record.timestamps.Bounded
  lastSequenceNumber : record.lastSequenceNumber < 2 ^ 64

/-- The sets of a record are made of gtids. -/
structure BinlogRecord.Valid (record : BinlogRecord) : Prop extends record.Bounded where
  previousGtids : ∀ gtids ∈ record.previousGtids, gtids.Valid
  addedGtids : ∀ gtids ∈ record.addedGtids, gtids.Valid

private theorem takeWhile_str (gtids : GtidSet) (rest : Bytes) (stops : ∀ c ∈ rest.head?, decide (c ≠ 0x0A) = false) :
    (gtids.str ++ rest).takeWhile (fun c => decide (c ≠ 0x0A)) = gtids.str := by
  refine takeWhile_append_stop (fun c member => ?_) stops
  have printable := (plain_str gtids c member).1
  simp only [decide_eq_true_eq]
  rintro rfl
  exact absurd printable (by decide)

theorem extract_str {gtids : GtidSet} (valid : gtids.Valid) : GtidSet.extract gtids.str = some (gtids,[]) := by
  have line := takeWhile_str gtids [] (by simp)
  rw [List.append_nil] at line
  rw [GtidSet.extract, line, valid.ofText_str]
  simp

theorem extract_line {gtids : GtidSet} (valid : gtids.Valid) (rest : Bytes) :
    GtidSet.extract (gtids.str ++ 0x0A :: rest) = some (gtids,rest) := by
  rw [GtidSet.extract, takeWhile_str gtids _ (by simp), valid.ofText_str]
  simp

/-- A valid set is read back from its text: by the constructor, and from a stream up to the end of the input or of the
    line. -/
theorem gtids_read_back {gtids : GtidSet} (valid : gtids.Valid) :
    GtidSet.ofText gtids.str = .ok gtids ∧ GtidSet.extract gtids.str = some (gtids,[]) ∧
      ∀ rest, GtidSet.extract (gtids.str ++ 0x0A :: rest) = some (gtids,rest) :=
  ⟨valid.ofText_str,extract_str valid,extract_line valid⟩

theorem gtids_read_back_sample : GtidSet.Sample.several.Valid ∧
    GtidSet.Sample.several.str = ascii
      "01000000-0000-0000-0000-000000000000:1-3:7:a_1:2-5, 02000000-0000-0000-0000-000000000000:a_1:9" ∧
    GtidSet.extract GtidSet.Sample.several.str = some (GtidSet.Sample.several,[]) ∧
    GtidSet.extract (GtidSet.Sample.several.str ++ 0x0A :: ascii "rest") = some (GtidSet.Sample.several,ascii "rest") := by
  obtain ⟨-,all,line⟩ := gtids_read_back GtidSet.Sample.several_valid
  exact ⟨GtidSet.Sample.several_valid,by decide +kernel,all,line _⟩

private theorem extractOptionalGtids_eq {object : JsonObject} {name : String} {gtids : Option GtidSet}
    (member : JsonObject.member object (ascii name) = (gtids.map fun g => JsonValue.text g.str).getD .null)
    (valid : ∀ g ∈ gtids, g.Valid) : extractOptionalGtids object name = .ok gtids := by
  unfold extractOptionalGtids
  rw [member]
  cases gtids with
  | none => rfl
  | some g => simp [extract_str (valid g rfl)]

section
variable [Externals]

private theorem plainObject_toJson {record : BinlogRecord} (valid : record.Bounded) :
    PlainObject (BinlogFileMetadata.toJson record) := by
  have least := Externals.isoExtendedStr_plain _ valid.timestamps.1
  have greatest := Externals.isoExtendedStr_plain _ valid.timestamps.2
  unfold BinlogFileMetadata.toJson
  refine ⟨?_,fun member known => ?_⟩
  · cases record.previousGtids <;> cases record.addedGtids <;>
      simp only [Option.toList, List.map, List.append_nil, List.cons_append, List.nil_append] <;> decide
  · simp only [List.mem_append, List.mem_cons, List.mem_map, Option.mem_toList, List.not_mem_nil, or_false] at known
    rcases known with (((rfl | rfl) | ⟨gtids,-,rfl⟩) | ⟨gtids,-,rfl⟩) | rfl | rfl | rfl
    · exact ⟨show Plain (ascii "version") by decide,show 1 < 2 ^ 64 by decide⟩
    · exact ⟨show Plain (ascii "size") by decide,valid.size⟩
    · exact ⟨show Plain (ascii "previous_gtids") by decide,plain_str gtids⟩
    · exact ⟨show Plain (ascii "added_gtids") by decide,plain_str gtids⟩
    · exact ⟨show Plain (ascii "min_timestamp") by decide,least⟩
    · exact ⟨show Plain (ascii "max_timestamp") by decide,greatest⟩
    · exact ⟨show Plain (ascii "last_sequence_number") by decide,valid.lastSequenceNumber⟩

/-- What the members of the document are. -/
private theorem members (record : BinlogRecord) :
    JsonObject.member (BinlogFileMetadata.toJson record) (ascii "version") = .number 1 ∧
    JsonObject.member (BinlogFileMetadata.toJson record) (ascii "size") = .number record.size ∧
    JsonObject.member (BinlogFileMetadata.toJson record) (ascii "previous_gtids") =
      (record.previousGtids.map fun g => JsonValue.text g.str).getD .null ∧
    JsonObject.member (BinlogFileMetadata.toJson record) (ascii "added_gtids") =
      (record.addedGtids.map fun g => JsonValue.text g.str).getD .null ∧
    JsonObject.member (BinlogFileMetadata.toJson record) (ascii "min_timestamp") =
      .text (Externals.isoExtendedStr record.timestamps.min) ∧
    JsonObject.member (BinlogFileMetadata.toJson record) (ascii "max_timestamp") =
      .text (Externals.isoExtendedStr record.timestamps.max) ∧
    JsonObject.member (BinlogFileMetadata.toJson record) (ascii "last_sequence_number") =
      .number record.lastSequenceNumber := by
  obtain ⟨name,size,previous,added,timestamps,last⟩ := record
  cases previous <;> cases added <;> exact ⟨rfl,rfl,rfl,rfl,rfl,rfl,rfl⟩

private theorem extractTimestamp_eq {object : JsonObject} {name : String} {time : Nat}
    (member : JsonObject.member object (ascii name) = .text (Externals.isoExtendedStr time))
    (small : time ≤ TimestampRange.maxTime) :
    extractTimestamp object name = .ok time := by
  unfold extractTimestamp
  rw [member]
  simp [Externals.parse_isoExtendedStr time small]

/-- A record is read back from its metadata. -/
theorem BinlogFileMetadata.parse_str {record : BinlogRecord} (valid : record.Valid) :
    parse record.name (str record) = .ok record := by
  obtain ⟨version,size,previous,added,least,greatest,last⟩ := members record
  have read : parseJson (str record) = .ok (toJson record) := by
    simp [parseJson,str,Externals.parse_serialize _ (plainObject_toJson valid.toBounded)]
  have sizeOk : record.size ≤ 2 ^ 64 - 1 := by have := valid.size; omega
  have lastOk : record.lastSequenceNumber ≤ 2 ^ 64 - 1 := by have := valid.lastSequenceNumber; omega
  unfold parse
  simp only [bind_eq_ok, raiseIf_eq_ok, pure_eq_ok, exists_const]
  refine ⟨_,read,1,?_,record.size,?_,_,extractOptionalGtids_eq previous valid.previousGtids,_,
    extractOptionalGtids_eq added valid.addedGtids,_,extractTimestamp_eq least valid.timestamps.1,_,
    extractTimestamp_eq greatest valid.timestamps.2,record.lastSequenceNumber,?_,by decide,?_⟩
  · rw [extractNumber, version]
    rfl
  · rw [extractNumber, size]
    exact if_pos sizeOk
  · rw [extractNumber, last]
    exact if_pos lastOk
  · rw [TimestampRange.make_self]

/-- The size a metadata document says the file has. -/
def BinlogFileMetadata.storedSize (content : Bytes) : Option Nat :=
  match Externals.parse content with
  | none => none
  | some object =>
    match JsonObject.member object (ascii "size") with
    | .number size => some size
    | _ => none

theorem BinlogFileMetadata.storedSize_str {record : BinlogRecord} (bounded : record.Bounded) :
    storedSize (str record) = some record.size := by
  have size := (members record).2.1
  simp [storedSize,str,Externals.parse_serialize _ (plainObject_toJson bounded),size]

omit [Externals] in
private theorem extractNumber_le {object : JsonObject} {max value : Nat} {name : String}
    (extracted : extractNumber object max name = .ok value) :
    JsonObject.member object (ascii name) = .number value ∧ value ≤ max := by
  unfold extractNumber at extracted
  split at extracted
  · rename_i found
    split at extracted
    · cases extracted
      exact ⟨found,by assumption⟩
    · cases extracted
  · cases extracted

private theorem extractTimestamp_le {object : JsonObject} {time : Nat} {name : String}
    (extracted : extractTimestamp object name = .ok time) : time ≤ TimestampRange.maxTime := by
  unfold extractTimestamp at extracted
  split at extracted
  · split at extracted
    · cases extracted
      exact Externals.parseIsoExtended_le _ _ (by assumption)
    · cases extracted
  · cases extracted

/-- What is loaded is the record of the file asked for, with the size that is stored. -/
theorem BinlogFileMetadata.parse_ok {name : CompositeBinlogName} {content : Bytes} {record : BinlogRecord}
    (parsed : parse name content = .ok record) :
    record.name = name ∧ storedSize content = some record.size ∧ record.Bounded := by
  simp only [parse, bind_eq_ok, raiseIf_eq_ok, pure_eq_ok, exists_const] at parsed
  obtain ⟨object,read,_,-,size,sized,_,-,_,-,least,low,greatest,high,last,numbered,-,rfl⟩ := parsed
  have found : Externals.parse content = some object := by
    unfold parseJson at read
    split at read
    · cases read
      assumption
    · cases read
  obtain ⟨member,small⟩ := extractNumber_le sized
  refine ⟨rfl,by simp [storedSize,found,member],?_⟩
  exact ⟨by simp only; omega,TimestampRange.bounded_make (extractTimestamp_le low) (extractTimestamp_le high),
    by have := (extractNumber_le numbered).2; simp only; omega⟩

theorem StorageMetadata.parse_str (mode : ReplicationMode) : parse (str mode) = .ok mode := by
  have plain : PlainObject [(ascii "version",.number expectedVersion),(ascii "mode",.text (modeText mode))] := by
    refine ⟨show [ascii "version",ascii "mode"].Nodup by decide,fun member known => ?_⟩
    simp only [List.mem_cons, List.not_mem_nil, or_false] at known
    rcases known with rfl | rfl
    · exact ⟨show Plain (ascii "version") by decide,show 1 < 2 ^ 64 by decide⟩
    · exact ⟨show Plain (ascii "mode") by decide,by cases mode <;> (unfold JsonValue.IsPlain; decide)⟩
  have read : parseJson (str mode) = .ok [(ascii "version",.number expectedVersion),(ascii "mode",.text (modeText mode))] := by
    simp [parseJson,str,Externals.parse_serialize _ plain]
  unfold parse
  rw [read]
  cases mode <;> rfl

end

end BinlogServer.Store
