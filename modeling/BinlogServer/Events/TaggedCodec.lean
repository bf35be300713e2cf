import BinlogServer.Events.Bodies
import Mathlib.Algebra.Order.BigOperators.Group.List

/-!
# Bodies of tagged GTID events

A body that was read is written back by `encode_to` in the size that `calculate_encoded_size` says, and is read again
as it was. The body is a list of fields; the fields that are not there have the values of a body without them.
-/

namespace BinlogServer.Events
open ByteString Util Gtids

namespace GtidTaggedLogBody

/-- The values of the members fit their types. -/
structure Bounded (body : GtidTaggedLogBody) : Prop where
  flags : body.flags < 2 ^ 8
  uuid : body.uuid.length = 16
  gno : body.gno < 2 ^ 64
  tag : body.tag.length ≤ 32
  lastCommitted : body.lastCommitted < 2 ^ 64
  sequenceNumber : body.sequenceNumber < 2 ^ 64
  immediateCommitTimestamp : body.immediateCommitTimestamp < 2 ^ 64
  originalCommitTimestamp : body.originalCommitTimestamp < 2 ^ 64
  transactionLength : body.transactionLength < 2 ^ 64
  immediateServerVersion : body.immediateServerVersion < 2 ^ 32
  originalServerVersion : body.originalServerVersion < 2 ^ 32
  commitGroupTicket : body.commitGroupTicket < 2 ^ 64

section Reading
variable {body body' : GtidTaggedLogBody} {remainder rest : Bytes} {label : String} {value : Nat}

theorem extractVarlen_lt (bits : Nat) (wide : 7 ≤ bits)
    (read : extractVarlen (2 ^ bits - 1) label remainder = .ok (value,rest)) : value < 2 ^ bits :=
  extractVarlenIntChecked_lt wide (extracted_eq_ok.mp read)

theorem extractVarlenSigned_lt (read : extractVarlenSigned label remainder = .ok (value,rest)) : value < 2 ^ 64 := by
  simp only [extractVarlenSigned, bind_eq_ok, pure_eq_ok] at read
  obtain ⟨⟨signed,_⟩,-,same⟩ := read
  cases same
  exact ofSigned_lt signed

theorem extractUuid_length {count : Nat} {uuid : Bytes} (read : extractUuid count remainder = .ok (uuid,rest)) :
    uuid.length = count := by
  induction count generalizing remainder uuid with
  | zero =>
    cases read
    rfl
  | succ count ih =>
    simp only [extractUuid, bind_eq_ok, pure_eq_ok] at read
    obtain ⟨⟨value,next⟩,-,⟨others,left⟩,later,same⟩ := read
    cases same
    simp [ih later]

theorem Bounded.field (bounded : body.Bounded) {fieldId : Nat}
    (read : body.processFieldData fieldId remainder = .ok (body',rest)) : body'.Bounded := by
  unfold processFieldData at read
  split at read
  case h_4 =>
    simp only [bind_eq_ok, pure_eq_ok, raiseIf_eq_ok, exists_const] at read
    obtain ⟨⟨length,_⟩,-,short,⟨value,_⟩,taken,same⟩ := read
    cases same
    have sized := (extractByteSpanChecked_eq_some.mp (extracted_eq_ok.mp taken)).1
    exact { bounded with tag := by simp only; omega }
  case h_13 => cases read
  all_goals
    simp only [bind_eq_ok, pure_eq_ok] at read
    obtain ⟨⟨value,_⟩,extracted,same⟩ := read
    cases same
  · exact { bounded with flags := extractVarlen_lt 8 (by decide) extracted }
  · exact { bounded with uuid := extractUuid_length extracted }
  · exact { bounded with gno := extractVarlenSigned_lt extracted }
  · exact { bounded with lastCommitted := extractVarlenSigned_lt extracted }
  · exact { bounded with sequenceNumber := extractVarlenSigned_lt extracted }
  · exact { bounded with immediateCommitTimestamp := extractVarlen_lt 64 (by decide) extracted }
  · exact { bounded with originalCommitTimestamp := extractVarlen_lt 64 (by decide) extracted }
  · exact { bounded with transactionLength := extractVarlen_lt 64 (by decide) extracted }
  · exact { bounded with immediateServerVersion := extractVarlen_lt 32 (by decide) extracted }
  · exact { bounded with originalServerVersion := extractVarlen_lt 32 (by decide) extracted }
  · exact { bounded with commitGroupTicket := extractVarlen_lt 64 (by decide) extracted }

theorem Bounded.walk (bounded : body.Bounded) {rounds lastSeenFieldId : Nat} {seen seen' : List Nat}
    (read : processFields rounds body lastSeenFieldId seen remainder = .ok (body',seen',rest)) :
    body'.Bounded := by
  induction rounds generalizing body lastSeenFieldId seen remainder with
  | zero =>
    cases read
    exact bounded
  | succ rounds ih =>
    rw [processFields.eq_def] at read
    simp only at read
    split at read
    · cases read
      exact bounded
    · simp only [bind_eq_ok, raiseIf_eq_ok, exists_const] at read
      obtain ⟨-,-,⟨next,_⟩,field,later⟩ := read
      exact ih (bounded.field field) later

/-- What is read is bounded. -/
theorem make_bounded {portion : Bytes} (read : make portion = .ok body) : body.Bounded := by
  have fresh : Bounded {} := by constructor <;> decide
  simp only [make, bind_eq_ok, raiseIf_eq_ok, pure_eq_ok, exists_const] at read
  obtain ⟨⟨_,_⟩,-,-,⟨_,_⟩,-,-,⟨_,_⟩,-,-,⟨_,_,_⟩,fields,-,-,rfl⟩ := read
  exact fresh.walk fields

end Reading
section Size
variable {body : GtidTaggedLogBody}

/-- The width only grows from one round to the next, and the rounds are enough for it to reach the widest one. -/
theorem stabilizeWidth_fixed {tail iterations width : Nat} (small : tail < 2 ^ 63)
    (below : width ≤ calculateVarlenIntSize (tail + width)) (enough : 9 ≤ width + iterations) (most : width ≤ 9) :
    calculateVarlenIntSize (tail + stabilizeWidth tail iterations width) = stabilizeWidth tail iterations width ∧
      stabilizeWidth tail iterations width ≤ 9 := by
  have room : tail + width < 2 ^ 64 := by omega
  have limit := (calculateVarlenIntSize_bounds room).2.1
  induction iterations generalizing width with
  | zero =>
    simp only [stabilizeWidth]
    omega
  | succ iterations ih =>
    simp only [stabilizeWidth]
    split
    · rename_i differs
      have more := calculateVarlenIntSize_mono (Nat.add_le_add_left below tail)
      have room : tail + calculateVarlenIntSize (tail + width) < 2 ^ 64 := by omega
      exact ih more (by omega) limit room (calculateVarlenIntSize_bounds room).2.1
    · rename_i same
      exact ⟨not_not.mp same,most⟩

/-- The loop iterates the width that a width leads to; once that is the same, it stays the same. -/
theorem stabilizeWidth_eq_iterate (tail iterations width : Nat) :
    stabilizeWidth tail iterations width = (fun width => calculateVarlenIntSize (tail + width))^[iterations] width := by
  induction iterations generalizing width with
  | zero => rfl
  | succ iterations ih =>
    simp only [stabilizeWidth, Function.iterate_succ_apply, ih]
    by_cases differs : calculateVarlenIntSize (tail + width) ≠ width
    · rw [if_pos differs]
    · have fixed := not_not.mp differs
      rw [if_neg differs, fixed]
      exact (Function.iterate_fixed fixed iterations).symm

theorem length_encodeTlvSection (body : GtidTaggedLogBody) :
    body.encodeTlvSection.length = body.calculateTlvSectionSize := by
  unfold encodeTlvSection calculateTlvSectionSize
  simp only [List.length_append, insertVarlenInt_length, insertVarlenSigned_length, List.length_flatMap,
    apply_ite List.length, List.length_nil]

theorem Bounded.encodedTail_lt (bounded : body.Bounded) : body.encodedTail < 2 ^ 9 := by
  have varlen : ∀ {value}, value < 2 ^ 64 → calculateVarlenIntSize value ≤ 9 := fun fits =>
    (calculateVarlenIntSize_bounds fits).2.1
  have signed : ∀ {value}, value < 2 ^ 64 → calculateVarlenSignedSize (toSigned 64 value) ≤ 9 := by
    intro value fits
    obtain ⟨least,most⟩ := toSigned_bounds fits
    have form : getSignedRepresentationAsUnsigned (toSigned 64 value) = zigzag (toSigned 64 value) :=
      signedRepresentation_eq least most
    refine varlen ?_
    rw [form]
    exact zigzag_lt least most
  have uuid : (body.uuid.map fun b => calculateVarlenIntSize b.toNat).sum ≤ 16 * 9 := by
    have each : ∀ size ∈ body.uuid.map fun b => calculateVarlenIntSize b.toNat, size ≤ 9 := by
      intro size member
      obtain ⟨b,-,rfl⟩ := List.mem_map.mp member
      exact varlen (by have := b.toNat_lt; omega)
    simpa [bounded.uuid] using List.sum_le_card_nsmul _ _ each
  have small : ∀ value < 128, calculateVarlenIntSize value = 1 := by decide
  have flags : calculateVarlenIntSize body.flags ≤ 9 := varlen (lt_trans bounded.flags (by decide))
  have gno := signed bounded.gno
  have short := bounded.tag
  have tag : calculateVarlenIntSize body.tag.length ≤ 9 := varlen (by omega)
  have lastCommitted := signed bounded.lastCommitted
  have sequenceNumber := signed bounded.sequenceNumber
  have immediate := varlen bounded.immediateCommitTimestamp
  have original := varlen bounded.originalCommitTimestamp
  have length := varlen bounded.transactionLength
  have version : calculateVarlenIntSize body.immediateServerVersion ≤ 9 :=
    varlen (lt_trans bounded.immediateServerVersion (by decide))
  have originalVersion : calculateVarlenIntSize body.originalServerVersion ≤ 9 :=
    varlen (lt_trans bounded.originalServerVersion (by decide))
  have ticket := varlen bounded.commitGroupTicket
  unfold encodedTail calculateTlvSectionSize knownSerializationVersionNumber knownLastNonIgnorableFieldId
  simp only [small, Nat.reduceLT]
  split_ifs <;> omega

theorem Bounded.width_fixed (bounded : body.Bounded) :
    calculateVarlenIntSize body.calculateEncodedSize = stabilizeWidth body.encodedTail 9 1 ∧
      body.calculateEncodedSize < 2 ^ 64 := by
  have small := bounded.encodedTail_lt
  have room : body.encodedTail + 1 < 2 ^ 64 := by omega
  obtain ⟨fixed,most⟩ : calculateVarlenIntSize (body.encodedTail + stabilizeWidth body.encodedTail 9 1) = _ ∧ _ :=
    stabilizeWidth_fixed (small.trans (by decide)) (calculateVarlenIntSize_bounds room).1 (by decide) (by decide)
  exact ⟨fixed,by unfold calculateEncodedSize; omega⟩

/-- A body is written in the size that was calculated for it. -/
theorem Bounded.length_encode (bounded : body.Bounded) : body.encode.length = body.calculateEncodedSize := by
  simp only [encode, List.length_append, insertVarlenInt_length, length_encodeTlvSection, bounded.width_fixed.1]
  unfold calculateEncodedSize encodedTail
  omega

end Size

/-- The fields that are written, with their data. -/
def fields (body : GtidTaggedLogBody) : List (Nat × Bytes) :=
  let signed := fun value => insertVarlenSigned (toSigned 64 value)
  [(0,insertVarlenInt body.flags),(1,body.uuid.flatMap fun b => insertVarlenInt b.toNat),(2,signed body.gno),
      (3,insertVarlenInt body.tag.length ++ body.tag),(4,signed body.lastCommitted),(5,signed body.sequenceNumber),
      (6,insertVarlenInt body.immediateCommitTimestamp)] ++
    (if body.originalCommitTimestamp ≠ unset64 then [(7,insertVarlenInt body.originalCommitTimestamp)] else []) ++
    [(8,insertVarlenInt body.transactionLength),(9,insertVarlenInt body.immediateServerVersion)] ++
    (if body.originalServerVersion ≠ unset32 then [(10,insertVarlenInt body.originalServerVersion)] else []) ++
    (if body.commitGroupTicket ≠ unset64 then [(11,insertVarlenInt body.commitGroupTicket)] else [])

/-- A field of one body in another one. -/
def withField (other : GtidTaggedLogBody) (fieldId : Nat) (body : GtidTaggedLogBody) : GtidTaggedLogBody :=
  match fieldId with
  | 0 => { body with flags := other.flags }
  | 1 => { body with uuid := other.uuid }
  | 2 => { body with gno := other.gno }
  | 3 => { body with tag := other.tag }
  | 4 => { body with lastCommitted := other.lastCommitted }
  | 5 => { body with sequenceNumber := other.sequenceNumber }
  | 6 => { body with immediateCommitTimestamp := other.immediateCommitTimestamp }
  | 7 => { body with originalCommitTimestamp := other.originalCommitTimestamp }
  | 8 => { body with transactionLength := other.transactionLength }
  | 9 => { body with immediateServerVersion := other.immediateServerVersion }
  | 10 => { body with originalServerVersion := other.originalServerVersion }
  | 11 => { body with commitGroupTicket := other.commitGroupTicket }
  | _ => body

section RoundTrip
variable {body : GtidTaggedLogBody}

theorem encodeTlvSection_eq (body : GtidTaggedLogBody) :
    body.encodeTlvSection = body.fields.flatMap fun field => insertVarlenInt field.1 ++ field.2 := by
  unfold encodeTlvSection fields
  split_ifs <;> simp

theorem extractVarlen_insert {max value : Nat} {label : String} (fits : value < 2 ^ 64) (small : value ≤ max)
    (rest : Bytes) : extractVarlen max label (insertVarlenInt value ++ rest) = .ok (value,rest) :=
  extracted_eq_ok.mpr (extractVarlenIntChecked_insertVarlenInt fits small rest)

theorem extractVarlenSigned_insert {value : Nat} {label : String} (fits : value < 2 ^ 64) (rest : Bytes) :
    extractVarlenSigned label (insertVarlenSigned (toSigned 64 value) ++ rest) = .ok (value,rest) := by
  obtain ⟨least,most⟩ := toSigned_bounds fits
  simp only [extractVarlenSigned, bind_eq_ok, pure_eq_ok]
  exact ⟨_,extracted_eq_ok.mpr (extractVarlenSignedChecked_insertVarlenSigned least most rest),
    by rw [ofSigned_toSigned fits]⟩

theorem extractUuid_insert (uuid rest : Bytes) :
    extractUuid uuid.length ((uuid.flatMap fun b => insertVarlenInt b.toNat) ++ rest) = .ok (uuid,rest) := by
  induction uuid with
  | nil => rfl
  | cons b uuid ih =>
    have byte := b.toNat_lt
    simp only [List.length_cons, extractUuid, List.flatMap_cons, List.append_assoc, bind_eq_ok, pure_eq_ok]
    exact ⟨_,extractVarlen_insert (by omega) (by omega) _,_,ih,by simp⟩

/-- A field that was written is read. -/
theorem Bounded.read_field (bounded : body.Bounded) {field : Nat × Bytes} (member : field ∈ body.fields)
    (other : GtidTaggedLogBody) (rest : Bytes) :
    other.processFieldData field.1 (field.2 ++ rest) = .ok (body.withField field.1 other,rest) := by
  have version := bounded.immediateServerVersion
  have original := bounded.originalServerVersion
  have flags := bounded.flags
  have tag := bounded.tag
  simp only [fields, List.mem_append, List.mem_cons, List.not_mem_nil, or_false, List.mem_ite_nil_right] at member
  rcases member with ((((rfl | rfl | rfl | rfl | rfl | rfl | rfl) | ⟨-,rfl⟩) | rfl | rfl) | ⟨-,rfl⟩) | ⟨-,rfl⟩ <;>
    simp only [processFieldData, withField, bind_eq_ok, pure_eq_ok, raiseIf_eq_ok, exists_const]
  · exact ⟨_,extractVarlen_insert (by omega) (by omega) _,rfl⟩
  · have read := extractUuid_insert body.uuid rest
    rw [bounded.uuid] at read
    exact ⟨_,read,rfl⟩
  · exact ⟨_,extractVarlenSigned_insert bounded.gno _,rfl⟩
  · rw [List.append_assoc]
    exact ⟨_,extractVarlen_insert (by omega) (by omega) _,by omega,_,
      extracted_eq_ok.mpr (extractByteSpanChecked_eq_some.mpr ⟨rfl,rfl⟩),rfl⟩
  · exact ⟨_,extractVarlenSigned_insert bounded.lastCommitted _,rfl⟩
  · exact ⟨_,extractVarlenSigned_insert bounded.sequenceNumber _,rfl⟩
  · exact ⟨_,extractVarlen_insert bounded.immediateCommitTimestamp (Nat.le_pred_of_lt bounded.immediateCommitTimestamp) _,rfl⟩
  · exact ⟨_,extractVarlen_insert bounded.originalCommitTimestamp (Nat.le_pred_of_lt bounded.originalCommitTimestamp) _,rfl⟩
  · exact ⟨_,extractVarlen_insert bounded.transactionLength (Nat.le_pred_of_lt bounded.transactionLength) _,rfl⟩
  · exact ⟨_,extractVarlen_insert (by omega) (Nat.le_pred_of_lt version) _,rfl⟩
  · exact ⟨_,extractVarlen_insert (by omega) (Nat.le_pred_of_lt original) _,rfl⟩
  · exact ⟨_,extractVarlen_insert bounded.commitGroupTicket (Nat.le_pred_of_lt bounded.commitGroupTicket) _,rfl⟩

/-- Fields in the order of their ids are read one after the other. -/
theorem processFields_flatMap {list : List (Nat × Bytes)} {rounds lastSeenFieldId : Nat} {seen : List Nat}
    {other : GtidTaggedLogBody} (small : ∀ field ∈ list, field.1 < 128)
    (ordered : list.Pairwise fun field later => field.1 < later.1)
    (after : ∀ field ∈ list, lastSeenFieldId = 255 ∨ lastSeenFieldId < field.1)
    (readable : ∀ field ∈ list, ∀ (other : GtidTaggedLogBody) rest,
      other.processFieldData field.1 (field.2 ++ rest) = .ok (body.withField field.1 other,rest))
    (enough : list.length ≤ rounds) :
    processFields rounds other lastSeenFieldId seen (list.flatMap fun field => insertVarlenInt field.1 ++ field.2) =
      .ok (list.foldl (fun other field => body.withField field.1 other) other,
        (list.map Prod.fst).reverse ++ seen,[]) := by
  induction list generalizing rounds lastSeenFieldId seen other with
  | nil => cases rounds <;> rfl
  | cons field list ih =>
    obtain ⟨rounds,rfl⟩ : ∃ n, rounds = n + 1 := ⟨rounds - 1,by simp at enough; omega⟩
    have id := small field (by simp)
    rw [List.pairwise_cons] at ordered
    have next : processFields rounds (body.withField field.1 other) field.1 (field.1 :: seen) _ = _ :=
      ih (fun later member => small later (by simp [member])) ordered.2
        (fun later member => .inr (ordered.1 later member)) (fun later member => readable later (by simp [member]))
        (by simpa using enough)
    rw [List.flatMap_cons, List.append_assoc, processFields.eq_def]
    simp only [extractVarlenIntChecked_insertVarlenInt (show field.1 < 2 ^ 64 by omega) (show field.1 ≤ 255 by omega),
      bind_eq_ok, raiseIf_eq_ok, exists_const]
    refine ⟨?_,?_,_,readable field (by simp) _ _,?_⟩
    · rcases after field (by simp) with last | last <;> omega
    · unfold knownLastNonIgnorableFieldId
      omega
    · simpa using next

theorem pairwise_fields (body : GtidTaggedLogBody) :
    body.fields.Pairwise (fun field later => field.1 < later.1) ∧ (∀ field ∈ body.fields, field.1 < 12) ∧
      ∀ fieldId ∈ requiredFieldIds, fieldId ∈ body.fields.map Prod.fst := by
  unfold fields requiredFieldIds
  split_ifs <;> simp

theorem foldl_withField (body : GtidTaggedLogBody) :
    body.fields.foldl (fun other field => body.withField field.1 other) {} = body := by
  cases body
  simp only [fields]
  split_ifs <;> simp_all [withField]

/-- A bounded body is read back from what is written for it. -/
theorem Bounded.make_encode (bounded : body.Bounded) : make body.encode = .ok body := by
  obtain ⟨ordered,small,required⟩ := body.pairwise_fields
  have enough : body.fields.length ≤ body.encodeTlvSection.length := by
    have each : ∀ size ∈ body.fields.map fun field => (insertVarlenInt field.1 ++ field.2).length, 1 ≤ size := by
      intro size member
      obtain ⟨field,-,rfl⟩ := List.mem_map.mp member
      simp only [List.length_append, insertVarlenInt_length, calculateVarlenIntSize]
      omega
    rw [encodeTlvSection_eq, List.length_flatMap]
    simpa using List.card_nsmul_le_sum _ 1 each
  have read : processFields body.encodeTlvSection.length {} 255 [] body.encodeTlvSection =
      .ok (body,(body.fields.map Prod.fst).reverse,[]) := by
    have walk : processFields _ {} 255 [] _ = _ := processFields_flatMap (fun field member =>
      lt_trans (small field member) (by decide)) ordered (fun _ _ => .inl rfl)
      (fun _ member => bounded.read_field member) enough
    rwa [foldl_withField, List.append_nil, ← encodeTlvSection_eq] at walk
  have size := bounded.length_encode
  simp only [make, bind_eq_ok, raiseIf_eq_ok, pure_eq_ok, exists_const]
  rw [size, encode]
  simp only [List.append_assoc]
  exact ⟨_,extracted_eq_ok.mpr (extractVarlenIntChecked_insertVarlenInt (by decide) (by decide) _),by simp,
    _,extracted_eq_ok.mpr (extractVarlenIntChecked_insertVarlenInt bounded.width_fixed.2
      (Nat.le_pred_of_lt bounded.width_fixed.2) _),by simp,
    _,extracted_eq_ok.mpr (extractVarlenIntChecked_insertVarlenInt (by decide) (by decide) _),by simp,
    _,read,by simpa using required,by simp,rfl⟩

/-- For a body that was read the loop over the width of the total size ends before its ninth round, in a width that is
    the one of the total size with it. The body is written in that size, which is the size that its framing states,
    and what is written is read as the same body. -/
theorem tagged_body_reread {portion : Bytes} (read : make portion = .ok body) :
    ∃ iterations < 9, ∃ width afterVersion afterSize, stabilizeWidth body.encodedTail iterations 1 = width ∧
      calculateVarlenIntSize body.calculateEncodedSize = width ∧
      body.calculateEncodedSize = body.encodedTail + width ∧
      body.encode.length = body.calculateEncodedSize ∧
      extractVarlenIntChecked 255 body.encode = some (knownSerializationVersionNumber,afterVersion) ∧
      extractVarlenIntChecked unset64 afterVersion = some (body.calculateEncodedSize,afterSize) ∧
      make body.encode = .ok body := by
  have bounded := make_bounded read
  obtain ⟨fixed,small⟩ := bounded.width_fixed
  have tail := bounded.encodedTail_lt
  -- the width starts at one and cannot go beyond nine, so eight rounds are enough
  have early : stabilizeWidth body.encodedTail 9 1 = stabilizeWidth body.encodedTail 8 1 := by
    have room : body.encodedTail + 1 < 2 ^ 64 := by omega
    have stable : calculateVarlenIntSize (body.encodedTail + stabilizeWidth body.encodedTail 8 1) = _ :=
      (stabilizeWidth_fixed (tail.trans (by decide)) (calculateVarlenIntSize_bounds room).1 (by decide) (by decide)).1
    rw [stabilizeWidth_eq_iterate] at stable
    rw [stabilizeWidth_eq_iterate, stabilizeWidth_eq_iterate, Function.iterate_succ_apply']
    exact stable
  have version : extractVarlenIntChecked 255 body.encode = some (knownSerializationVersionNumber,
      insertVarlenInt body.calculateEncodedSize ++
        (insertVarlenInt knownLastNonIgnorableFieldId ++ body.encodeTlvSection)) := by
    rw [encode, List.append_assoc, List.append_assoc]
    exact extractVarlenIntChecked_insertVarlenInt (by decide) (by decide) _
  have size := extractVarlenIntChecked_insertVarlenInt small (Nat.le_pred_of_lt small)
    (insertVarlenInt knownLastNonIgnorableFieldId ++ body.encodeTlvSection)
  refine ⟨8,by decide,_,_,_,rfl,?_,?_,bounded.length_encode,version,size,bounded.make_encode⟩
  · rw [fixed, early]
  · rw [← early]
    rfl

def Sample.taggedBody : GtidTaggedLogBody where
  flags := 1
  uuid := 1 :: List.replicate 15 0
  gno := 300
  tag := [0x61,0x5F,0x31]
  lastCommitted := 2
  sequenceNumber := 10
  immediateCommitTimestamp := 1700000000000000
  originalCommitTimestamp := 1600000000000000
  transactionLength := 500
  immediateServerVersion := 80400
  originalServerVersion := 80300
  commitGroupTicket := 7

theorem tagged_body_reread_sample : ∃ iterations < 9, ∃ width afterVersion afterSize,
    stabilizeWidth Sample.taggedBody.encodedTail iterations 1 = width ∧
      calculateVarlenIntSize Sample.taggedBody.calculateEncodedSize = width ∧
      Sample.taggedBody.calculateEncodedSize = Sample.taggedBody.encodedTail + width ∧
      Sample.taggedBody.encode.length = Sample.taggedBody.calculateEncodedSize ∧
      extractVarlenIntChecked 255 Sample.taggedBody.encode = some (knownSerializationVersionNumber,afterVersion) ∧
      extractVarlenIntChecked unset64 afterVersion = some (Sample.taggedBody.calculateEncodedSize,afterSize) ∧
      make Sample.taggedBody.encode = .ok Sample.taggedBody :=
  have read : make Sample.taggedBody.encode = .ok Sample.taggedBody := by decide +kernel
  tagged_body_reread read

end RoundTrip
end GtidTaggedLogBody
end BinlogServer.Events
