import BinlogServer.Events.CommonHeader
import BinlogServer.Gtids.GtidSet
import BinlogServer.Util.SemanticVersion

/-!
# Post headers and bodies

The specialisations of `generic_post_header_impl` and `generic_body_impl` the server looks into: ROTATE,
FORMAT_DESCRIPTION, GTID_LOG, ANONYMOUS_GTID_LOG and GTID_TAGGED_LOG. Each constructor from a byte span is a `make`.
-/

namespace BinlogServer.Events
open ByteString Util Gtids

/-- `generic_post_header_impl<code_type::rotate>`: the position. -/
def RotatePostHeader.make (portion : Bytes) : Fallible Nat := do
  raiseIf (portion.length ≠ 8) .invalidArgument "invalid rotate event post header length"
  pure (leNat portion)

def RotatePostHeader.encode (position : Nat) : Bytes := leBytes 8 position

/-- `generic_post_header_impl<code_type::format_description>` -/
structure FormatDescriptionPostHeader where
  binlogVersion : Nat
  serverVersion : Bytes
  createTimestamp : Nat
  commonHeaderLength : Nat
  postHeaderLengths : Bytes
deriving DecidableEq, Repr

namespace FormatDescriptionPostHeader

def serverVersionLength : Nat := 50

def getSizeInBytes (encodedServerVersion : Nat) : Nat :=
  serverVersionLength + 7 + getNumberOfEvents encodedServerVersion - 1

/-- `get_encoded_server_version`, which is `noexcept`: a malformed version ends the process. -/
def getEncodedServerVersion (serverVersion : Bytes) : Fallible Nat :=
  noexcept (do pure (← SemanticVersion.parse serverVersion).getEncoded)

/-- The constructor from the values of a generated event. -/
def ofVersion (serverVersion : SemanticVersion) (createTimestamp : Nat) (postHeaderLengths : Bytes) :
    FormatDescriptionPostHeader where
  binlogVersion := defaultBinlogVersion
  serverVersion := serverVersion.getString.take serverVersionLength
  createTimestamp := createTimestamp
  commonHeaderLength := defaultCommonHeaderLength
  postHeaderLengths := postHeaderLengths

/-- The constructor from a byte span. -/
def make (portion : Bytes) : Fallible FormatDescriptionPostHeader := do
  raiseIf (portion.length < getSizeInBytes earliestSupportedProtocolServerVersion ∨
      portion.length > getSizeInBytes latestKnownProtocolServerVersion) .invalidArgument
    "format_description event post header length is not in allowed range"
  let (binlogVersion,remainder) := extractFixedInt 2 portion
  -- `normalize_for_c_str` cuts the version at its first zero byte
  let serverVersion := (remainder.take serverVersionLength).takeWhile (· ≠ 0)
  let remainder := remainder.drop serverVersionLength
  let encodedServerVersion ← getEncodedServerVersion serverVersion
  raiseIf (portion.length ≠ getSizeInBytes encodedServerVersion) .invalidArgument
    ("format_description event post header length does not match the value " ++
      "expected for the server version specified in its own fields")
  let (createTimestamp,remainder) := extractFixedInt 4 remainder
  let (commonHeaderLength,remainder) := extractFixedInt 1 remainder
  let lengths := remainder.take (getNumberOfEvents encodedServerVersion - 1)
  let postHeaderLengths := lengths ++ List.replicate (maxNumberOfEvents - 1 - lengths.length) 0
  raiseIf (portion.length ≠
      getPostHeaderLengthForCode encodedServerVersion postHeaderLengths .formatDescription) .invalidArgument
    ("format_description event post header length does not match the value " ++
      "specified in the post header length array in its own fields")
  pure ⟨binlogVersion,serverVersion,createTimestamp,commonHeaderLength,postHeaderLengths⟩

/-- `encode_to`; the version is padded with zeros. -/
def encode (header : FormatDescriptionPostHeader) : Fallible Bytes := do
  let encodedServerVersion ← getEncodedServerVersion header.serverVersion
  pure (leBytes 2 header.binlogVersion ++ header.serverVersion ++
    List.replicate (serverVersionLength - header.serverVersion.length) 0 ++
    leBytes 4 header.createTimestamp ++ leBytes 1 header.commonHeaderLength ++
    header.postHeaderLengths.take (getNumberOfEvents encodedServerVersion - 1))

end FormatDescriptionPostHeader

/-- `checksum_algorithm_type` -/
inductive ChecksumAlgorithmType where
  | off
  | crc32
deriving DecidableEq, Repr

/-- `generic_body_impl<code_type::format_description>` -/
def FormatDescriptionBody.make (portion : Bytes) : Fallible ChecksumAlgorithmType := do
  raiseIf (portion.length ≠ 1) .invalidArgument "invalid format_description event body length"
  raiseIf (leNat portion ≥ 2) .logicError "invalid checksum algorithm in format_description event body"
  pure (if leNat portion = 0 then .off else .crc32)

def FormatDescriptionBody.encode : ChecksumAlgorithmType → Bytes
  | .off => [0]
  | .crc32 => [1]

/-- `gtid_log_post_header`; the numbers are signed in the source and read as `seq_no_t` and `gno_t` here. -/
structure GtidLogPostHeader where
  flags : Nat
  uuid : Uuid
  gno : Nat
  logicalTsCode : Nat
  lastCommitted : Nat
  sequenceNumber : Nat
deriving DecidableEq

namespace GtidLogPostHeader

def make (portion : Bytes) : Fallible GtidLogPostHeader := do
  raiseIf (portion.length ≠ 42) .invalidArgument "invalid gtid_log event post header length"
  let (flags,remainder) := extractFixedInt 1 portion
  let uuid := Uuid.ofStorage (remainder.take 16)
  let remainder := remainder.drop 16
  let (gno,remainder) := extractFixedInt 8 remainder
  let (logicalTsCode,remainder) := extractFixedInt 1 remainder
  raiseIf (logicalTsCode ≠ 2) .invalidArgument "unsupported logical timestamp code in gtid_log post header"
  let (lastCommitted,remainder) := extractFixedInt 8 remainder
  let (sequenceNumber,_) := extractFixedInt 8 remainder
  pure ⟨flags,uuid,gno,logicalTsCode,lastCommitted,sequenceNumber⟩

/-- `get_gtid`: empty for a zero number. -/
def getGtid (header : GtidLogPostHeader) : Fallible Gtid :=
  if header.gno < minGno then .ok .empty else Gtid.make header.uuid .none header.gno

def encode (header : GtidLogPostHeader) : Bytes :=
  leBytes 1 header.flags ++ header.uuid.raw ++ leBytes 8 header.gno ++ leBytes 1 header.logicalTsCode ++
    leBytes 8 header.lastCommitted ++ leBytes 8 header.sequenceNumber

end GtidLogPostHeader

/-- The values of optional fields that are not there. -/
def unset64 : Nat := 2 ^ 64 - 1
def unset32 : Nat := 2 ^ 32 - 1

/-- `gtid_log_body` -/
structure GtidLogBody where
  immediateCommitTimestamp : Nat := unset64
  originalCommitTimestamp : Nat := unset64
  transactionLength : Nat := unset64
  immediateServerVersion : Nat := unset32
  originalServerVersion : Nat := unset32
  commitGroupTicket : Nat := unset64
deriving DecidableEq, Repr

namespace GtidLogBody

def hasOriginalCommitTimestamp (body : GtidLogBody) : Bool := body.originalCommitTimestamp ≠ unset64
def hasImmediateServerVersion (body : GtidLogBody) : Bool := body.immediateServerVersion ≠ unset32
def hasOriginalServerVersion (body : GtidLogBody) : Bool := body.originalServerVersion ≠ unset32
def hasCommitGroupTicket (body : GtidLogBody) : Bool := body.commitGroupTicket ≠ unset64

/-- The commit timestamps: the top bit of the first one says that a second one follows. -/
def extractCommitTimestamps (remainder : Bytes) : Fallible (Nat × Nat × Bytes) := do
  let (immediate,remainder) ← extracted (extractFixedIntChecked 7 remainder)
    "gtid_log event body is too short to extract immediate commit timestamp"
  if immediate.testBit 55 then
    let (original,remainder) ← extracted (extractFixedIntChecked 7 remainder)
      "gtid_log event body is too short to extract original commit timestamp"
    pure (immediate % 2 ^ 55,original,remainder)
  else pure (immediate,unset64,remainder)

/-- The server versions, of which the second follows if the top bit of the first is set. -/
def extractServerVersions (remainder : Bytes) : Fallible (Nat × Nat × Bytes) := do
  let (immediate,remainder) := extractFixedInt 4 remainder
  if immediate.testBit 31 then
    let (original,remainder) ← extracted (extractFixedIntChecked 4 remainder)
      "gtid_log event body is too short to extract original server version"
    pure (immediate % 2 ^ 31,original,remainder)
  else pure (immediate,unset32,remainder)

def make (portion : Bytes) : Fallible GtidLogBody := do
  let (immediateTimestamp,originalTimestamp,remainder) ← extractCommitTimestamps portion
  let (transactionLength,remainder) ← extracted (extractPackedIntChecked remainder)
    "unable to extract transaction length from the gtid_log event body"
  let (immediateVersion,originalVersion,ticket,remainder) ←
    if remainder.length ≥ 4 then do
      let (immediate,original,remainder) ← extractServerVersions remainder
      if remainder.length ≥ 8 then
        let (ticket,remainder) := extractFixedInt 8 remainder
        pure (immediate,original,ticket,remainder)
      else pure (immediate,original,unset64,remainder)
    else pure (unset32,unset32,unset64,remainder)
  raiseIf (remainder ≠ []) .invalidArgument "extra bytes in the gtid_log event body"
  pure ⟨immediateTimestamp,originalTimestamp,transactionLength,immediateVersion,originalVersion,ticket⟩

def calculateEncodedSize (body : GtidLogBody) : Nat :=
  7 + (if body.originalCommitTimestamp ≠ unset64 then 7 else 0) + calculatePackedIntSize body.transactionLength +
    if body.immediateServerVersion ≠ unset32 then
      4 + (if body.originalServerVersion ≠ unset32 then 4 else 0) + (if body.commitGroupTicket ≠ unset64 then 8 else 0)
    else 0

/-- The part of `encode_to` with the commit timestamps. -/
def encodeCommitTimestamps (body : GtidLogBody) : Bytes :=
  if body.originalCommitTimestamp ≠ unset64 then
    leBytes 7 (body.immediateCommitTimestamp ||| 2 ^ 55) ++ leBytes 7 body.originalCommitTimestamp
  else leBytes 7 body.immediateCommitTimestamp

/-- The part of `encode_to` with the server versions. -/
def encodeServerVersions (body : GtidLogBody) : Bytes :=
  if body.originalServerVersion ≠ unset32 then
    leBytes 4 (body.immediateServerVersion ||| 2 ^ 31) ++ leBytes 4 body.originalServerVersion
  else leBytes 4 body.immediateServerVersion

/-- What `encode_to` writes. -/
def encode (body : GtidLogBody) : Bytes :=
  body.encodeCommitTimestamps ++ insertPackedInt body.transactionLength ++
    if body.immediateServerVersion ≠ unset32 then
      body.encodeServerVersions ++ if body.commitGroupTicket ≠ unset64 then leBytes 8 body.commitGroupTicket else []
    else []

end GtidLogBody

/-- `generic_body_impl<code_type::gtid_tagged_log>` -/
structure GtidTaggedLogBody where
  flags : Nat := 0
  uuid : Bytes := List.replicate 16 0
  gno : Nat := 0
  tag : Bytes := []
  lastCommitted : Nat := 0
  sequenceNumber : Nat := 0
  immediateCommitTimestamp : Nat := unset64
  originalCommitTimestamp : Nat := unset64
  transactionLength : Nat := unset64
  immediateServerVersion : Nat := unset32
  originalServerVersion : Nat := unset32
  commitGroupTicket : Nat := unset64
deriving DecidableEq, Repr

namespace GtidTaggedLogBody

/-- `varlen_int_extractor` for an unsigned type. -/
def extractVarlen (max : Nat) (label : String) (remainder : Bytes) : Fallible (Nat × Bytes) :=
  extracted (extractVarlenIntChecked max remainder)
    ("gtid_tagged_log event body is too short to extract " ++ label)

/-- `varlen_int_extractor` for `std::int64_t`; the number is kept as its unsigned pattern. -/
def extractVarlenSigned (label : String) (remainder : Bytes) : Fallible (Nat × Bytes) := do
  let (value,remainder) ← extracted (extractVarlenSignedChecked remainder)
    ("gtid_tagged_log event body is too short to extract " ++ label)
  pure (ofSigned 64 value,remainder)

/-- The bytes of the uuid, each one a variable-length integer. -/
def extractUuid : Nat → Bytes → Fallible (Bytes × Bytes)
  | 0, remainder => .ok ([],remainder)
  | count + 1, remainder => do
    let (value,remainder) ← extractVarlen 255 "uuid" remainder
    let (rest,remainder) ← extractUuid count remainder
    pure (UInt8.ofNat value :: rest,remainder)

/-- `process_field_data` -/
def processFieldData (body : GtidTaggedLogBody) (fieldId : Nat) (remainder : Bytes) :
    Fallible (GtidTaggedLogBody × Bytes) :=
  match fieldId with
  | 0 => do
    let (value,remainder) ← extractVarlen 255 "flags" remainder
    pure ({ body with flags := value },remainder)
  | 1 => do
    let (value,remainder) ← extractUuid 16 remainder
    pure ({ body with uuid := value },remainder)
  | 2 => do
    let (value,remainder) ← extractVarlenSigned "gno" remainder
    pure ({ body with gno := value },remainder)
  | 3 => do
    let (length,remainder) ← extractVarlen (2 ^ 64 - 1) "tag length" remainder
    -- `tag_storage` holds at most 32 bytes: resizing it beyond throws
    raiseIf (length > 32) .badAlloc "boost::container::bad_alloc thrown"
    let (value,remainder) ← extracted (extractByteSpanChecked length remainder)
      "gtid_tagged_log event body is too short to extract tag data"
    pure ({ body with tag := value },remainder)
  | 4 => do
    let (value,remainder) ← extractVarlenSigned "last_committed" remainder
    pure ({ body with lastCommitted := value },remainder)
  | 5 => do
    let (value,remainder) ← extractVarlenSigned "sequence_number" remainder
    pure ({ body with sequenceNumber := value },remainder)
  | 6 => do
    let (value,remainder) ← extractVarlen unset64 "immediate_commit_timestamp" remainder
    pure ({ body with immediateCommitTimestamp := value },remainder)
  | 7 => do
    let (value,remainder) ← extractVarlen unset64 "original_commit_timestamp" remainder
    pure ({ body with originalCommitTimestamp := value },remainder)
  | 8 => do
    let (value,remainder) ← extractVarlen unset64 "transaction_length" remainder
    pure ({ body with transactionLength := value },remainder)
  | 9 => do
    let (value,remainder) ← extractVarlen unset32 "immediate_server_version" remainder
    pure ({ body with immediateServerVersion := value },remainder)
  | 10 => do
    let (value,remainder) ← extractVarlen unset32 "original_server_version" remainder
    pure ({ body with originalServerVersion := value },remainder)
  | 11 => do
    let (value,remainder) ← extractVarlen unset64 "commit_group_ticket" remainder
    pure ({ body with commitGroupTicket := value },remainder)
  | _ => .error ⟨.invalidArgument,"unknown field_id in the gtid_tagged_log event body"⟩

def knownSerializationVersionNumber : Nat := 1
def knownLastNonIgnorableFieldId : Nat := 0

/-- The fields that must be there: all but the original timestamp and version and the ticket. -/
def requiredFieldIds : List Nat := [0,1,2,3,4,5,6,8,9]

/-- The loop over the fields, which goes on for as long as a field id can be extracted. Every round consumes
    at least one byte, so as many rounds as there are bytes are enough. -/
def processFields : Nat → GtidTaggedLogBody → Nat → List Nat → Bytes →
    Fallible (GtidTaggedLogBody × List Nat × Bytes)
  | 0, body, _, seen, remainder => .ok (body,seen,remainder)
  | rounds + 1, body, lastSeenFieldId, seen, remainder =>
    match extractVarlenIntChecked 255 remainder with
    | none => .ok (body,seen,remainder)
    | some (fieldId,remainder) => do
      raiseIf (lastSeenFieldId ≠ 255 ∧ fieldId ≤ lastSeenFieldId) .invalidArgument
        "broken field_id sequence in the gtid_tagged_log event body"
      raiseIf (fieldId ≤ knownLastNonIgnorableFieldId ∧ fieldId ≠ 0 ∧ fieldId ≠ lastSeenFieldId + 1) .invalidArgument
        "violated last_non_ignorable_field_id rule in the gtid_tagged_log event body"
      let (body,remainder) ← processFieldData body fieldId remainder
      processFields rounds body fieldId (fieldId :: seen) remainder

/-- The constructor from a byte span. -/
def make (portion : Bytes) : Fallible GtidTaggedLogBody := do
  let (versionNumber,remainder) ← extracted (extractVarlenIntChecked 255 portion)
    "gtid_tagged_log event body is too short to extract serialization_version_number"
  raiseIf (versionNumber ≠ knownSerializationVersionNumber) .invalidArgument
    "unexpected serialization_version_number in the gtid_tagged_log event body"
  let (fieldSize,remainder) ← extracted (extractVarlenIntChecked unset64 remainder)
    "gtid_tagged_log event body is too short to extract serializable_field_size"
  raiseIf (fieldSize ≠ portion.length) .invalidArgument
    "invalid serializable_field_size in the gtid_tagged_log event body"
  let (lastNonIgnorable,remainder) ← extracted (extractVarlenIntChecked 255 remainder)
    "gtid_tagged_log event body is too short to extract last_non_ignorable_field_id"
  raiseIf (lastNonIgnorable ≠ knownLastNonIgnorableFieldId) .invalidArgument
    "unexpected last_non_ignorable_field_id in the gtid_tagged_log event body"
  let (body,seen,remainder) ← processFields remainder.length {} 255 [] remainder
  raiseIf (¬ ∀ fieldId ∈ requiredFieldIds, fieldId ∈ seen) .invalidArgument
    "missing required non-optional fields in the gtid_tagged_log event body"
  raiseIf (remainder ≠ []) .invalidArgument "extra bytes in the gtid_log event body"
  pure body

def getGtid (body : GtidTaggedLogBody) : Fallible Gtid := do
  let tag ← Tag.make body.tag
  Gtid.make (.ofStorage body.uuid) tag body.gno

/-- `calculate_tlv_section_size` -/
def calculateTlvSectionSize (body : GtidTaggedLogBody) : Nat :=
  let fieldId := calculateVarlenIntSize
  let signed := fun value => calculateVarlenSignedSize (toSigned 64 value)
  fieldId 0 + calculateVarlenIntSize body.flags +
    (fieldId 1 + (body.uuid.map fun b => calculateVarlenIntSize b.toNat).sum) +
    (fieldId 2 + signed body.gno) +
    (fieldId 3 + calculateVarlenIntSize body.tag.length + body.tag.length) +
    (fieldId 4 + signed body.lastCommitted) +
    (fieldId 5 + signed body.sequenceNumber) +
    (fieldId 6 + calculateVarlenIntSize body.immediateCommitTimestamp) +
    (if body.originalCommitTimestamp ≠ unset64 then
      fieldId 7 + calculateVarlenIntSize body.originalCommitTimestamp else 0) +
    (fieldId 8 + calculateVarlenIntSize body.transactionLength) +
    (fieldId 9 + calculateVarlenIntSize body.immediateServerVersion) +
    (if body.originalServerVersion ≠ unset32 then
      fieldId 10 + calculateVarlenIntSize body.originalServerVersion else 0) +
    (if body.commitGroupTicket ≠ unset64 then fieldId 11 + calculateVarlenIntSize body.commitGroupTicket else 0)

/-- The loop of `calculate_encoded_size`: the width of the total size, which the total size includes. -/
def stabilizeWidth (tail : Nat) : Nat → Nat → Nat
  | 0, width => width
  | iterations + 1, width =>
    let newWidth := calculateVarlenIntSize (tail + width)
    if newWidth ≠ width then stabilizeWidth tail iterations newWidth else width

/-- The encoded size of everything but the total size itself. -/
def encodedTail (body : GtidTaggedLogBody) : Nat :=
  calculateVarlenIntSize knownSerializationVersionNumber + calculateVarlenIntSize knownLastNonIgnorableFieldId +
    body.calculateTlvSectionSize

/-- `calculate_encoded_size` -/
def calculateEncodedSize (body : GtidTaggedLogBody) : Nat :=
  body.encodedTail + stabilizeWidth body.encodedTail 9 1

/-- `encode_tlv_section_to` -/
def encodeTlvSection (body : GtidTaggedLogBody) : Bytes :=
  let signed := fun value => insertVarlenSigned (toSigned 64 value)
  insertVarlenInt 0 ++ insertVarlenInt body.flags ++
    (insertVarlenInt 1 ++ body.uuid.flatMap fun b => insertVarlenInt b.toNat) ++
    (insertVarlenInt 2 ++ signed body.gno) ++
    (insertVarlenInt 3 ++ insertVarlenInt body.tag.length ++ body.tag) ++
    (insertVarlenInt 4 ++ signed body.lastCommitted) ++
    (insertVarlenInt 5 ++ signed body.sequenceNumber) ++
    (insertVarlenInt 6 ++ insertVarlenInt body.immediateCommitTimestamp) ++
    (if body.originalCommitTimestamp ≠ unset64 then
      insertVarlenInt 7 ++ insertVarlenInt body.originalCommitTimestamp else []) ++
    (insertVarlenInt 8 ++ insertVarlenInt body.transactionLength) ++
    (insertVarlenInt 9 ++ insertVarlenInt body.immediateServerVersion) ++
    (if body.originalServerVersion ≠ unset32 then
      insertVarlenInt 10 ++ insertVarlenInt body.originalServerVersion else []) ++
    (if body.commitGroupTicket ≠ unset64 then insertVarlenInt 11 ++ insertVarlenInt body.commitGroupTicket else [])

/-- What `encode_to` writes. -/
def encode (body : GtidTaggedLogBody) : Bytes :=
  insertVarlenInt knownSerializationVersionNumber ++ insertVarlenInt body.calculateEncodedSize ++
    insertVarlenInt knownLastNonIgnorableFieldId ++ body.encodeTlvSection

end GtidTaggedLogBody

end BinlogServer.Events
