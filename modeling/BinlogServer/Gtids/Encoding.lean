import BinlogServer.Gtids.Algebra
import BinlogServer.Util.ByteSpan

/-!
# The binary form of gtid sets

`gtid_set::encode_to` and the constructor from a byte span. A set is written as its pairs of a uuid and a tag (TSIDs),
with the intervals of each; the tags are left out where there are none, which the header says. The constructor reads
exactly what the format describes, and so what was written.
-/

namespace BinlogServer.Gtids
open ByteString Util

/-- `tag::calculate_encoded_size` -/
def Tag.calculateEncodedSize (tag : Tag) : Nat := calculateVarlenIntSize tag.name.length + tag.name.length

/-- What `tag::encode_to` writes. -/
def Tag.encode (tag : Tag) : Bytes := insertVarlenInt tag.name.length ++ tag.name

namespace GtidSet

/-- `gtid_set::calculate_encoded_size` -/
def calculateEncodedSize (s : GtidSet) : Nat :=
  let taggedFlag := s.containsTags
  s.pairs.foldl (fun result x =>
    result + 16 + (if taggedFlag then x.2.1.calculateEncodedSize else 0) + 8 + x.2.2.intervals.length * 2 * 8) 8

/-- `header_encoder` of `gtid_set::encode_to`. -/
def headerEncoder (tagged : Bool) (numberOfTsids : Nat) : Fallible Nat :=
  if tagged then do
    raiseIf (numberOfTsids ≥ 2 ^ 48) .invalidArgument
      "the number of TSIDs in the tagged GTID set being encoded is too large"
    pure (((2 ^ 48 ||| numberOfTsids) <<< 8) % 2 ^ 64 ||| 1)
  else do
    raiseIf (numberOfTsids ≥ 2 ^ 56) .invalidArgument
      "the number of TSIDs in the untagged GTID set being encoded is too large"
    pure numberOfTsids

def encodeInterval (interval : Nat × Nat) : Bytes := leBytes 8 interval.1 ++ leBytes 8 interval.2

def encodePair (tagged : Bool) (x : Uuid × Tag × IntervalSet) : Bytes :=
  x.1.raw ++ (if tagged then x.2.1.encode else []) ++ leBytes 8 x.2.2.intervals.length ++
    x.2.2.intervals.flatMap encodeInterval

/-- `gtid_set::encode_to`: what is written, and what is left of the destination, which the caller has made long
    enough. -/
def encodeTo (s : GtidSet) (destination : Bytes) : Fallible (Bytes × Bytes) := do
  let taggedFlag := s.containsTags
  let header ← headerEncoder taggedFlag s.pairs.length
  let written := leBytes 8 header ++ s.pairs.flatMap (encodePair taggedFlag)
  pure (written,destination.drop written.length)

/-- `header_parser` of the constructor. A `std::size_t` holds whatever a header says, so that check never raises. -/
def headerParser (value : Nat) : Fallible (Bool × Nat) := do
  let gtidFormatField := value >>> 56
  raiseIf (gtidFormatField >>> 1 ≠ 0) .invalidArgument "invalid header in the encoded GTID set"
  let taggedFlag : Bool := gtidFormatField = 1
  pure (taggedFlag,if taggedFlag then ((value <<< 8) % 2 ^ 64) >>> 16 else value)

/-- `tag_parser` of the constructor. -/
def tagParser (source : Bytes) : Fallible (Bytes × Bytes) := do
  let (extractedTagLength,source) ← extracted (extractVarlenIntChecked (2 ^ 64 - 1) source)
    "encoded GTID set is too short to extract tag length"
  -- `tag_storage` holds at most 32 bytes: resizing it beyond throws
  raiseIf (extractedTagLength > 32) .badAlloc "boost::container::bad_alloc thrown"
  extracted (extractByteSpanChecked extractedTagLength source) "encoded GTID set is too short to extract tag data"

/-- The tag of a pair, which is read only if the header says that there are tags. -/
def readTag (tagged : Bool) (remainder : Bytes) : Fallible (Tag × Bytes) := do
  let (currentTagRaw,remainder) ← (if tagged then tagParser remainder else pure ([],remainder) :
    Fallible (Bytes × Bytes))
  pure (← Tag.make currentTagRaw,remainder)

/-- `interval_parser` of `gtid_set::process_intervals`. -/
def intervalParser (source : Bytes) : Fallible ((Nat × Nat) × Bytes) := do
  let (lower,source) ← extracted (extractFixedIntChecked 8 source)
    "encoded GTID set is too short to extract the lower component of the interval"
  let (upper,source) ← extracted (extractFixedIntChecked 8 source)
    "encoded GTID set is too short to extract the upper component of the interval"
  raiseIf (upper ≤ lower) .invalidArgument
    "lower and upper components of the interval in the encoded GTID set do not represent a valid range "
  pure ((lower,upper),source)

/-- The loop of `gtid_set::process_intervals`. -/
def insertIntervals (uuid : Uuid) (tag : Tag) : Nat → GtidSet → Bytes → Fallible (GtidSet × Bytes)
  | 0, s, remainder => pure (s,remainder)
  | count + 1, s, remainder => do
    let ((lower,upper),remainder) ← intervalParser remainder
    insertIntervals uuid tag count (s.update uuid tag (·.add lower upper)) remainder

/-- `gtid_set::process_intervals`: the entry is made before the first interval is read. -/
def processIntervals (s : GtidSet) (remainder : Bytes) (currentUuid : Uuid) (currentTag : Tag) :
    Fallible (GtidSet × Bytes) := do
  let (currentNumberOfIntervals,remainder) ← extracted (extractFixedIntChecked 8 remainder)
    "encoded GTID set is too short to number of intervals"
  insertIntervals currentUuid currentTag currentNumberOfIntervals (s.update currentUuid currentTag id) remainder

/-- The loop of the constructor. -/
def processTsids (tagged : Bool) : Nat → GtidSet → Bytes → Fallible (GtidSet × Bytes)
  | 0, s, remainder => pure (s,remainder)
  | numberOfTsids + 1, s, remainder => do
    let (currentUuidRaw,remainder) ← extracted (extractByteSpanChecked 16 remainder)
      "encoded GTID set is too short to extract UUID"
    let (currentTag,remainder) ← readTag tagged remainder
    let (s,remainder) ← s.processIntervals remainder (.ofStorage currentUuidRaw) currentTag
    processTsids tagged numberOfTsids s remainder

/-- `gtid_set::gtid_set(util::const_byte_span)` -/
def ofBytes (portion : Bytes) : Fallible GtidSet := do
  let (header,remainder) ← extracted (extractFixedIntChecked 8 portion)
    "encoded GTID set is too short to extract header"
  let (tagged,numberOfTsids) ← headerParser header
  let (s,remainder) ← processTsids tagged numberOfTsids .empty remainder
  raiseIf (remainder ≠ []) .invalidArgument "extra bytes in the encoded gtid_set"
  pure s

end GtidSet

/-! What the format describes. -/

/-- A pair of a uuid and a tag, with its intervals in the order they are written. -/
structure Tsid where
  uuid : Uuid
  tag : Tag
  intervals : List (Nat × Nat)

namespace Tsid

/-- The field of a tag: any bytes that read as its length and then its name. -/
def TagField (tagged : Bool) (bytes : Bytes) (tag : Tag) : Prop :=
  if tagged then extractVarlenIntChecked (2 ^ 64 - 1) bytes = some (tag.name.length,tag.name)
  else bytes = [] ∧ tag = .none

/-- The bytes of an interval list. -/
structure IntervalsField (bytes : Bytes) (intervals : List (Nat × Nat)) : Prop where
  few : intervals.length < 2 ^ 64
  proper : ∀ i ∈ intervals, i.1 < i.2 ∧ i.2 < 2 ^ 64
  layout : bytes = leBytes 8 intervals.length ++ intervals.flatMap GtidSet.encodeInterval

inductive Fields (tagged : Bool) : Bytes → List Tsid → Prop where
  | nil : Fields tagged [] []
  | cons {name numbers more : Bytes} {tsid : Tsid} {tsids : List Tsid} (tag : TagField tagged name tsid.tag)
      (intervals : IntervalsField numbers tsid.intervals) (rest : Fields tagged more tsids) :
      Fields tagged (tsid.uuid.raw ++ name ++ numbers ++ more) (tsid :: tsids)

/-- The whole of an encoded set. -/
inductive Encoded : Bytes → List Tsid → Prop where
  | intro {header : Nat} {tagged : Bool} {body : Bytes} {tsids : List Tsid} (fits : header < 2 ^ 64)
      (counted : GtidSet.headerParser header = .ok (tagged,tsids.length)) (fields : Fields tagged body tsids) :
      Encoded (leBytes 8 header ++ body) tsids

/-- What the constructor does with a pair. -/
def addTo (s : GtidSet) (tsid : Tsid) : GtidSet :=
  tsid.intervals.foldl (fun s i => s.update tsid.uuid tsid.tag (·.add i.1 i.2)) (s.update tsid.uuid tsid.tag id)

end Tsid

namespace GtidSet
open Tsid

theorem intervalParser_eq_ok {source rest : Bytes} {interval : Nat × Nat} :
    intervalParser source = .ok (interval,rest) ↔
      (interval.1 < interval.2 ∧ interval.2 < 2 ^ 64) ∧ source = encodeInterval interval ++ rest := by
  have width : (256 : Nat) ^ 8 = 2 ^ 64 := by norm_num
  simp only [intervalParser, bind_eq_ok, extracted_eq_ok, raiseIf_eq_ok, pure_eq_ok, Prod.exists,
    extractFixedIntChecked_eq_some, width, encodeInterval]
  constructor
  · rintro ⟨lower,_,⟨-,rfl⟩,upper,tail,⟨fits,rfl⟩,-,proper,result⟩
    cases result
    exact ⟨⟨by omega,fits⟩,by simp⟩
  · rintro ⟨⟨proper,fits⟩,rfl⟩
    exact ⟨interval.1,_,⟨by omega,by rw [List.append_assoc]⟩,interval.2,rest,⟨fits,rfl⟩,(),by omega,rfl⟩

theorem insertIntervals_eq_ok {uuid : Uuid} {tag : Tag} {count : Nat} {s t : GtidSet} {remainder rest : Bytes} :
    insertIntervals uuid tag count s remainder = .ok (t,rest) ↔
      ∃ intervals : List (Nat × Nat), intervals.length = count ∧ (∀ i ∈ intervals, i.1 < i.2 ∧ i.2 < 2 ^ 64) ∧
        remainder = intervals.flatMap encodeInterval ++ rest ∧
        t = intervals.foldl (fun s i => s.update uuid tag (·.add i.1 i.2)) s := by
  induction count generalizing s remainder with
  | zero =>
    constructor
    · intro read
      cases read
      exact ⟨[],rfl,by simp,rfl,rfl⟩
    · rintro ⟨intervals,none,-,rfl,rfl⟩
      obtain rfl := List.length_eq_zero_iff.mp none
      rfl
  | succ count ih =>
    simp only [insertIntervals, bind_eq_ok, Prod.exists, intervalParser_eq_ok, ih]
    constructor
    · rintro ⟨lower,upper,_,⟨proper,rfl⟩,intervals,rfl,others,rfl,rfl⟩
      exact ⟨(lower,upper) :: intervals,rfl,List.forall_mem_cons.mpr ⟨proper,others⟩,by simp,rfl⟩
    · rintro ⟨intervals,counted,proper,rfl,rfl⟩
      cases intervals with
      | nil => cases counted
      | cons first others =>
        obtain ⟨here,later⟩ := List.forall_mem_cons.mp proper
        exact ⟨first.1,first.2,_,⟨here,by simp⟩,others,by simpa using counted,later,rfl,rfl⟩

theorem processIntervals_eq_ok {uuid : Uuid} {tag : Tag} {s t : GtidSet} {remainder rest : Bytes} :
    s.processIntervals remainder uuid tag = .ok (t,rest) ↔
      ∃ intervals numbers, IntervalsField numbers intervals ∧ remainder = numbers ++ rest ∧
        t = addTo s ⟨uuid,tag,intervals⟩ := by
  have width : (256 : Nat) ^ 8 = 2 ^ 64 := by norm_num
  simp only [processIntervals, bind_eq_ok, extracted_eq_ok, Prod.exists, extractFixedIntChecked_eq_some, width,
    insertIntervals_eq_ok]
  constructor
  · rintro ⟨count,_,⟨few,rfl⟩,intervals,rfl,proper,rfl,rfl⟩
    exact ⟨intervals,_,⟨few,proper,rfl⟩,by simp,rfl⟩
  · rintro ⟨intervals,numbers,⟨few,proper,rfl⟩,rfl,rfl⟩
    exact ⟨intervals.length,_,⟨few,by simp⟩,intervals,rfl,proper,rfl,rfl⟩

theorem tagParser_eq_ok {source name rest : Bytes} :
    tagParser source = .ok (name,rest) ↔ name.length ≤ 32 ∧
      ∃ field, extractVarlenIntChecked (2 ^ 64 - 1) field = some (name.length,name) ∧ source = field ++ rest := by
  simp only [tagParser, bind_eq_ok, extracted_eq_ok, raiseIf_eq_ok, Prod.exists, extractByteSpanChecked_eq_some]
  constructor
  · rintro ⟨length,_,read,-,small,rfl,rfl⟩
    obtain ⟨front,rfl,anywhere⟩ := extractVarlenIntChecked_split read
    exact ⟨by omega,front ++ name,anywhere name,by simp⟩
  · rintro ⟨small,field,read,rfl⟩
    obtain ⟨front,rfl,anywhere⟩ := extractVarlenIntChecked_split read
    exact ⟨name.length,name ++ rest,by rw [List.append_assoc, anywhere],(),by omega,rfl,rfl⟩

theorem readTag_eq_ok {tagged : Bool} {tag : Tag} {remainder rest : Bytes} :
    readTag tagged remainder = .ok (tag,rest) ↔ ∃ name, TagField tagged name tag ∧ remainder = name ++ rest := by
  simp only [readTag, bind_eq_ok, pure_eq_ok, Prod.exists, Prod.mk.injEq, Tag.make_eq_ok]
  cases tagged with
  | false =>
    simp only [Bool.false_eq_true, if_false, pure_eq_ok, Prod.mk.injEq, TagField]
    constructor
    · rintro ⟨_,_,⟨rfl,rfl⟩,_,blank,rfl,rfl⟩
      exact ⟨[],⟨rfl,Tag.ext blank⟩,rfl⟩
    · rintro ⟨_,⟨rfl,rfl⟩,rfl⟩
      exact ⟨[],_,⟨rfl,rfl⟩,_,rfl,rfl,rfl⟩
  | true =>
    simp only [if_true, tagParser_eq_ok, TagField]
    constructor
    · rintro ⟨_,_,⟨-,field,read,rfl⟩,_,rfl,rfl,rfl⟩
      exact ⟨field,read,rfl⟩
    · rintro ⟨field,read,rfl⟩
      exact ⟨tag.name,rest,⟨tag.valid.1,field,read,rfl⟩,tag,rfl,rfl,rfl⟩

theorem processTsids_eq_ok {tagged : Bool} {count : Nat} {s t : GtidSet} {remainder rest : Bytes} :
    processTsids tagged count s remainder = .ok (t,rest) ↔
      ∃ tsids body, tsids.length = count ∧ Fields tagged body tsids ∧ remainder = body ++ rest ∧
        t = tsids.foldl addTo s := by
  induction count generalizing s remainder with
  | zero =>
    constructor
    · intro read
      cases read
      exact ⟨[],[],rfl,.nil,rfl,rfl⟩
    · rintro ⟨tsids,body,none,fields,rfl,rfl⟩
      obtain rfl := List.length_eq_zero_iff.mp none
      cases fields
      rfl
  | succ count ih =>
    simp only [processTsids, bind_eq_ok, extracted_eq_ok, Prod.exists, extractByteSpanChecked_eq_some,
      readTag_eq_ok, processIntervals_eq_ok, ih]
    constructor
    · rintro ⟨raw,_,⟨sized,rfl⟩,tag,_,⟨name,tagField,rfl⟩,_,_,⟨intervals,numbers,field,rfl,rfl⟩,
        tsids,body,rfl,fields,rfl,rfl⟩
      have uuid : (Uuid.ofStorage raw).raw = raw := by simp [Uuid.ofStorage,← sized]
      have whole : Fields tagged ((Uuid.ofStorage raw).raw ++ name ++ numbers ++ body)
        (⟨.ofStorage raw,tag,intervals⟩ :: tsids) :=
        @Fields.cons tagged name numbers body ⟨.ofStorage raw,tag,intervals⟩ tsids tagField field fields
      exact ⟨_ :: tsids,_,rfl,whole,by simp [uuid],rfl⟩
    · rintro ⟨tsids,body,counted,fields,rfl,rfl⟩
      cases fields with
      | nil => cases counted
      | @cons name numbers more tsid tsids tagField field fields =>
        refine ⟨tsid.uuid.raw,name ++ (numbers ++ (more ++ rest)),⟨tsid.uuid.sized,by simp only [List.append_assoc]⟩,
          tsid.tag,_,⟨name,tagField,rfl⟩,_,_,⟨tsid.intervals,numbers,field,rfl,rfl⟩,tsids,more,
          by simpa using counted,fields,rfl,?_⟩
        rw [Uuid.ofStorage_raw]
        rfl

/-- The constructor takes just what the format describes. -/
theorem ofBytes_eq_ok {portion : Bytes} {s : GtidSet} :
    ofBytes portion = .ok s ↔ ∃ tsids, Encoded portion tsids ∧ s = tsids.foldl addTo .empty := by
  have width : (256 : Nat) ^ 8 = 2 ^ 64 := by norm_num
  simp only [ofBytes, bind_eq_ok, extracted_eq_ok, Prod.exists, extractFixedIntChecked_eq_some, width,
    processTsids_eq_ok, raiseIf_eq_ok, pure_eq_ok, ne_eq, not_not]
  constructor
  · rintro ⟨header,_,⟨fits,rfl⟩,tagged,_,parsed,t,rest,⟨tsids,body,rfl,fields,rfl,rfl⟩,-,rfl,rfl⟩
    exact ⟨tsids,by simpa using .intro fits parsed fields,rfl⟩
  · rintro ⟨tsids,@⟨header,tagged,body,_,fits,parsed,fields⟩,rfl⟩
    exact ⟨header,body,⟨fits,rfl⟩,tagged,_,parsed,_,[],⟨tsids,body,rfl,fields,by simp,rfl⟩,(),rfl,rfl⟩

/-! What is written is read back. -/

theorem headerEncoder_eq_ok (tagged : Bool) {count : Nat} (few : count < 2 ^ 48) :
    ∃ header, headerEncoder tagged count = .ok header ∧ header < 2 ^ 64 ∧ headerParser header = .ok (tagged,count) := by
  cases tagged with
  | false =>
    have high : count >>> 56 = 0 := by rw [Nat.shiftRight_eq_div_pow]; omega
    have small : ¬ count ≥ 2 ^ 56 := by omega
    refine ⟨count,?_,by omega,by simp [headerParser,high,raiseIf]⟩
    rw [headerEncoder, if_neg (by decide), raiseIf, if_neg small]
    rfl
  | true =>
    have marked : 2 ^ 48 ||| count = 2 ^ 48 + count := by
      have sum := Nat.two_pow_add_eq_or_of_lt few 1
      rw [mul_one] at sum
      exact sum.symm
    have whole : ((2 ^ 48 ||| count) <<< 8) % 2 ^ 64 ||| 1 = 2 ^ 56 + count * 2 ^ 8 + 1 := by
      have sum := Nat.two_pow_add_eq_or_of_lt (show 1 < 2 ^ 8 by decide) (2 ^ 48 + count)
      rw [marked, Nat.shiftLeft_eq, Nat.mod_eq_of_lt (by omega), Nat.mul_comm, ← sum]
      omega
    have small : ¬ count ≥ 2 ^ 48 := by omega
    have high : (2 ^ 56 + count * 2 ^ 8 + 1) >>> 56 = 1 := by rw [Nat.shiftRight_eq_div_pow]; omega
    have low : (((2 ^ 56 + count * 2 ^ 8 + 1) <<< 8) % 2 ^ 64) >>> 16 = count := by
      rw [Nat.shiftLeft_eq, Nat.shiftRight_eq_div_pow]
      omega
    refine ⟨2 ^ 56 + count * 2 ^ 8 + 1,?_,by omega,?_⟩
    · rw [headerEncoder, if_pos rfl, whole, raiseIf, if_neg small]
      rfl
    · simp only [headerParser, high, low]
      rfl

theorem Tag.encode_length (tag : Tag) : tag.encode.length = tag.calculateEncodedSize := by
  simp [Tag.encode,Tag.calculateEncodedSize]

theorem encodePair_length (tagged : Bool) (x : Uuid × Tag × IntervalSet) :
    (encodePair tagged x).length =
      16 + (if tagged then x.2.1.calculateEncodedSize else 0) + 8 + x.2.2.intervals.length * 2 * 8 := by
  have intervals : ∀ l : List (Nat × Nat), (l.flatMap encodeInterval).length = l.length * 2 * 8 := by
    intro l
    induction l with
    | nil => rfl
    | cons i rest ih => simp [encodeInterval,ih]; omega
  rw [encodePair, List.length_append, List.length_append, List.length_append, intervals, x.1.sized, leBytes_length]
  cases tagged <;> simp [Tag.encode_length]

theorem encoded_length (s : GtidSet) (header : Nat) :
    (leBytes 8 header ++ s.pairs.flatMap (encodePair s.containsTags)).length = s.calculateEncodedSize := by
  have sum : ∀ (l : List (Uuid × Tag × IntervalSet)) (start : Nat),
      l.foldl (fun result x => result + 16 + (if s.containsTags then x.2.1.calculateEncodedSize else 0) + 8 +
        x.2.2.intervals.length * 2 * 8) start = start + (l.flatMap (encodePair s.containsTags)).length := by
    intro l
    induction l with
    | nil => intro start; rfl
    | cons x rest ih =>
      intro start
      rw [List.foldl_cons, ih, List.flatMap_cons, List.length_append, encodePair_length]
      omega
  rw [calculateEncodedSize, sum, List.length_append, leBytes_length]

theorem length_of_encodeTo {s : GtidSet} {destination bytes rest : Bytes}
    (encoded : s.encodeTo destination = .ok (bytes,rest)) : bytes.length = s.calculateEncodedSize := by
  simp only [encodeTo, bind_eq_ok, pure_eq_ok, Prod.mk.injEq] at encoded
  obtain ⟨header,-,rfl,-⟩ := encoded
  exact encoded_length s header

/-- The pairs of a set, as they are written. -/
def tsids (s : GtidSet) : List Tsid := s.pairs.map fun x => ⟨x.1,x.2.1,x.2.2.intervals⟩

theorem Valid.interval_bounds {s : GtidSet} (valid : s.Valid) {x : Uuid × Tag × IntervalSet} (member : x ∈ s.pairs)
    {i : Nat × Nat} (inside : i ∈ x.2.2.intervals) : minGno ≤ i.1 ∧ i.1 < i.2 ∧ i.2 ≤ maxGno + 1 := by
  have proper := x.2.2.nonempty i inside
  have here : ∀ n, i.1 ≤ n → n < i.2 → n ∈ s.gnos x.1 x.2.1 := fun n low high =>
    mem_gnos_pairs.mpr ⟨x.2.2,member,i,inside,low,high⟩
  have first := valid.range _ _ _ (here i.1 (le_refl _) proper)
  have last := valid.range _ _ _ (here (i.2 - 1) (by omega) (by omega))
  omega

theorem Valid.intervalsField {s : GtidSet} (valid : s.Valid) {x : Uuid × Tag × IntervalSet} (member : x ∈ s.pairs) :
    IntervalsField (leBytes 8 x.2.2.intervals.length ++ x.2.2.intervals.flatMap encodeInterval) x.2.2.intervals where
  few := by
    have few := IntervalSet.length_intervals_le fun i inside => (valid.interval_bounds member inside).2.2
    unfold maxGno at few
    omega
  proper i inside := by
    obtain ⟨-,proper,most⟩ := valid.interval_bounds member inside
    unfold maxGno at most
    exact ⟨proper,by omega⟩
  layout := rfl

theorem tagField_encode {tagged : Bool} {tag : Tag} (blank : tagged = false → tag = .none) :
    TagField tagged (if tagged then tag.encode else []) tag := by
  cases tagged with
  | false => exact ⟨rfl,blank rfl⟩
  | true =>
    have short := tag.valid.1
    exact extractVarlenIntChecked_insertVarlenInt (by omega) (by omega) tag.name

theorem isEmpty_of_not_containsTags {s : GtidSet} (none : s.containsTags = false) {x : Uuid × Tag × IntervalSet}
    (member : x ∈ s.pairs) : x.2.1 = .none := by
  obtain ⟨uuid,tag,gnos⟩ := x
  obtain ⟨tagged,outer,inner⟩ := mem_pairs.mp member
  rw [containsTags, List.any_eq_false] at none
  have here := none _ outer
  rw [Bool.not_eq_true, List.any_eq_false] at here
  exact Tag.ext (by simpa [Tag.isEmpty,Tag.none] using here _ inner)

theorem Valid.fields {s : GtidSet} (valid : s.Valid) :
    Fields s.containsTags (s.pairs.flatMap (encodePair s.containsTags)) s.tsids := by
  have each : ∀ l : List (Uuid × Tag × IntervalSet), (∀ x ∈ l, x ∈ s.pairs) →
      Fields s.containsTags (l.flatMap (encodePair s.containsTags)) (l.map fun x => ⟨x.1,x.2.1,x.2.2.intervals⟩) := by
    intro l
    induction l with
    | nil => exact fun _ => .nil
    | cons x rest ih =>
      intro members
      obtain ⟨here,others⟩ := List.forall_mem_cons.mp members
      have field := tagField_encode fun none => isEmpty_of_not_containsTags none here
      have whole := @Fields.cons _ _ _ _ ⟨x.1,x.2.1,x.2.2.intervals⟩ _ field (valid.intervalsField here) (ih others)
      simpa [encodePair] using whole
  exact each s.pairs fun _ => id

theorem foldl_update_add (s : GtidSet) (uuid : Uuid) (tag : Tag) (f : IntervalSet → IntervalSet)
    (intervals : List (Nat × Nat)) :
    intervals.foldl (fun s i => s.update uuid tag (·.add i.1 i.2)) (s.update uuid tag f) =
      s.update uuid tag fun gnos => intervals.foldl (fun acc i => acc.add i.1 i.2) (f gnos) := by
  induction intervals generalizing f with
  | nil => rfl
  | cons i rest ih => rw [List.foldl_cons, update_update, ih]; rfl

theorem addTo_eq (s : GtidSet) (tsid : Tsid) :
    addTo s tsid = s.update tsid.uuid tsid.tag fun gnos =>
      tsid.intervals.foldl (fun acc i => acc.add i.1 i.2) gnos :=
  foldl_update_add s tsid.uuid tsid.tag id tsid.intervals

theorem Valid.foldl_tsids {s : GtidSet} (valid : s.Valid) : s.tsids.foldl addTo .empty = s := by
  have union : s.tsids.foldl addTo .empty = empty.add s := by
    simp only [tsids, pairs, List.foldl_map, List.foldl_flatMap, addTo_eq]
    rfl
  rw [union, valid.empty_add]

/-- A header that is written is read back. -/
theorem headerParser_of_headerEncoder {tagged : Bool} {count header : Nat} (encoded : headerEncoder tagged count = .ok header) :
    header < 2 ^ 64 ∧ headerParser header = .ok (tagged,count) := by
  cases tagged with
  | true =>
    have few : count < 2 ^ 48 := by
      by_contra many
      rw [headerEncoder, if_pos rfl, raiseIf, if_pos (not_lt.mp many)] at encoded
      cases encoded
    obtain ⟨other,made,fits,parsed⟩ := headerEncoder_eq_ok true few
    obtain rfl : other = header := Except.ok.inj (made.symm.trans encoded)
    exact ⟨fits,parsed⟩
  | false =>
    have few : count < 2 ^ 56 := by
      by_contra many
      rw [headerEncoder, if_neg (by decide), raiseIf, if_pos (not_lt.mp many)] at encoded
      cases encoded
    obtain rfl : count = header := by
      rw [headerEncoder, if_neg (by decide), raiseIf, if_neg (not_le.mpr few)] at encoded
      exact Except.ok.inj encoded
    have high : count >>> 56 = 0 := by
      rw [Nat.shiftRight_eq_div_pow]
      omega
    exact ⟨by omega,by simp [headerParser,high,raiseIf]⟩

/-- What has been encoded is read back. -/
theorem Valid.ofBytes_of_encodeTo {s : GtidSet} (valid : s.Valid) {destination bytes rest : Bytes}
    (encoded : s.encodeTo destination = .ok (bytes,rest)) : ofBytes bytes = .ok s := by
  simp only [encodeTo, bind_eq_ok, pure_eq_ok, Prod.mk.injEq] at encoded
  obtain ⟨header,made,rfl,-⟩ := encoded
  obtain ⟨fits,parsed⟩ := headerParser_of_headerEncoder made
  refine ofBytes_eq_ok.mpr ⟨s.tsids,.intro fits ?_ valid.fields,valid.foldl_tsids.symm⟩
  rw [parsed, tsids, List.length_map]

/-- Encoding a valid set fills a buffer of the size that was calculated, the constructor makes the same set of it,
    and no other set is written so. -/
theorem encodeTo_ofBytes {s t : GtidSet} (valid : s.Valid) (others : t.Valid) (few : s.pairs.length < 2 ^ 48)
    (fewer : t.pairs.length < 2 ^ 48) (destination : Bytes) (sized : destination.length = s.calculateEncodedSize) :
    ∃ bytes, s.encodeTo destination = .ok (bytes,[]) ∧ bytes.length = destination.length ∧ ofBytes bytes = .ok s ∧
      ∀ target : Bytes, target.length = t.calculateEncodedSize → (s = t ↔ t.encodeTo target = .ok (bytes,[])) := by
  have encoded : ∀ {r : GtidSet}, r.Valid → r.pairs.length < 2 ^ 48 → ∀ target : Bytes,
      target.length = r.calculateEncodedSize → ∃ bytes, r.encodeTo target = .ok (bytes,[]) ∧
        bytes.length = target.length ∧ ofBytes bytes = .ok r := by
    intro r valid few target sized
    obtain ⟨header,written,fits,parsed⟩ := headerEncoder_eq_ok r.containsTags few
    have length := encoded_length r header
    refine ⟨_,?_,length.trans sized.symm,ofBytes_eq_ok.mpr ⟨r.tsids,.intro fits ?_ valid.fields,valid.foldl_tsids.symm⟩⟩
    · simp only [encodeTo, written, bind_eq_ok, pure_eq_ok]
      exact ⟨header,rfl,by rw [length, ← sized, List.drop_length]⟩
    · rw [parsed, tsids, List.length_map]
  obtain ⟨bytes,written,length,read⟩ := encoded valid few destination sized
  refine ⟨bytes,written,length,read,fun target sized' => ⟨?_,fun same => ?_⟩⟩
  · rintro rfl
    have equal : target.length = destination.length := sized'.trans sized.symm
    simp only [encodeTo, bind_eq_ok, pure_eq_ok, Prod.mk.injEq] at written ⊢
    obtain ⟨header,made,rfl,-⟩ := written
    exact ⟨header,made,rfl,List.drop_of_length_le (by omega)⟩
  · obtain ⟨bytes',written',-,read'⟩ := encoded others fewer target sized'
    rw [same] at written'
    cases written'
    rw [read] at read'
    cases read'
    rfl

theorem encodeTo_ofBytes_sample : Sample.several.containsTags ∧ Sample.several.tsids.length = 3 ∧ ∃ bytes,
    Sample.several.encodeTo (List.replicate Sample.several.calculateEncodedSize 0) = .ok (bytes,[]) ∧
      bytes.length = Sample.several.calculateEncodedSize ∧ ofBytes bytes = .ok Sample.several ∧
      Sample.first.encodeTo (List.replicate Sample.first.calculateEncodedSize 0) ≠ .ok (bytes,[]) := by
  refine ⟨by decide +kernel,by decide +kernel,?_⟩
  obtain ⟨bytes,written,length,read,injective⟩ := encodeTo_ofBytes Sample.several_valid Sample.first_valid (by decide)
    (by decide) (List.replicate Sample.several.calculateEncodedSize 0) List.length_replicate
  have other : Sample.several ≠ Sample.first := by decide +kernel
  exact ⟨bytes,written,length.trans List.length_replicate,read,
    fun same => other ((injective _ List.length_replicate).mpr same)⟩

end GtidSet
end BinlogServer.Gtids
