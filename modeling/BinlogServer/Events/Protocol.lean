import BinlogServer.Util.ByteSpan

/-!
# Protocol constants

Event codes, the fixed sizes of the binary log format and the tables of post header lengths
(`code_type.hpp`, `protocol_traits.cpp`, `reader_context::get_known_post_header_lengths`,
`reader_context::get_hardcoded_post_header_lengths`).
-/

namespace BinlogServer.Events
open ByteString Util

/-- `code_type`, in the order of the codes. -/
inductive CodeType where
  | unknown | startV3 | query | stop | rotate | intvar | obsolete6 | slave | obsolete8 | appendBlock
  | obsolete10 | deleteFile | obsolete12 | rand | userVar | formatDescription | xid | beginLoadQuery
  | executeLoadQuery | tableMap | obsolete20 | obsolete21 | obsolete22 | writeRowsV1 | updateRowsV1
  | deleteRowsV1 | incident | heartbeatLog | ignorableLog | rowsQueryLog | writeRows | updateRows
  | deleteRows | gtidLog | anonymousGtidLog | previousGtidsLog | transactionContext | viewChange
  | xaPrepareLog | partialUpdateRows | transactionPayload | heartbeatLogV2 | gtidTaggedLog
deriving DecidableEq, Repr

namespace CodeType

/-- All codes; the position of a code in the list is its number. -/
def all : List CodeType :=
  [.unknown,.startV3,.query,.stop,.rotate,.intvar,.obsolete6,.slave,.obsolete8,.appendBlock,.obsolete10,
    .deleteFile,.obsolete12,.rand,.userVar,.formatDescription,.xid,.beginLoadQuery,.executeLoadQuery,
    .tableMap,.obsolete20,.obsolete21,.obsolete22,.writeRowsV1,.updateRowsV1,.deleteRowsV1,.incident,
    .heartbeatLog,.ignorableLog,.rowsQueryLog,.writeRows,.updateRows,.deleteRows,.gtidLog,.anonymousGtidLog,
    .previousGtidsLog,.transactionContext,.viewChange,.xaPrepareLog,.partialUpdateRows,.transactionPayload,
    .heartbeatLogV2,.gtidTaggedLog]

/-- The labels of `to_string_view`, by code number. -/
def labels : List String :=
  ["unknown","start_v3","query","stop","rotate","intvar","obsolete_6","slave","obsolete_8","append_block",
    "obsolete_10","delete_file","obsolete_12","rand","user_var","format_description","xid",
    "begin_load_query","execute_load_query","table_map","obsolete_20","obsolete_21","obsolete_22",
    "write_rows_v1","update_rows_v1","delete_rows_v1","incident","heartbeat_log","ignorable_log",
    "rows_query_log","write_rows","update_rows","delete_rows","gtid_log","anonymous_gtid_log",
    "previous_gtids_log","transaction_context","view_change","xa_prepare_log","partial_update_rows",
    "transaction_payload","heartbeat_log_v2","gtid_tagged_log"]

/-- `get_type_code_from_raw`, for a number below `delimiter`. -/
def ofRaw (raw : Nat) : CodeType := all.getD raw .unknown

/-- `enum_to_index` -/
def toIndex (code : CodeType) : Nat := all.idxOf code

def label (code : CodeType) : String := labels.getD code.toIndex ""

theorem ofRaw_toIndex (code : CodeType) : ofRaw code.toIndex = code := by cases code <;> rfl

theorem toIndex_ofRaw {raw : Nat} (known : raw < 43) : (ofRaw raw).toIndex = raw := by
  interval_cases raw <;> rfl

/-- The three codes a transaction starts with. -/
def isGtid (code : CodeType) : Bool :=
  code = .anonymousGtidLog || code = .gtidLog || code = .gtidTaggedLog

end CodeType

def magicBinlogPayload : Bytes := [0xFE,0x62,0x69,0x6E]
def magicBinlogOffset : Nat := 4
def defaultBinlogVersion : Nat := 4
def defaultCommonHeaderLength : Nat := 19
def defaultFooterLength : Nat := 4
def latestKnownProtocolServerVersion : Nat := 80300
def earliestSupportedProtocolServerVersion : Nat := 80000

/-- `get_number_of_events` -/
def getNumberOfEvents (encodedServerVersion : Nat) : Nat :=
  if encodedServerVersion < latestKnownProtocolServerVersion then 42 else 43

def maxNumberOfEvents : Nat := 43

/-- `unspecified_post_header_length`, and how it looks in a table of lengths. -/
def unspecifiedPostHeaderLength : Nat := 2 ^ 64 - 1
def encodedUnspecified : UInt8 := 255

/-- `get_post_header_length_for_code` -/
def getPostHeaderLengthForCode (encodedServerVersion : Nat) (storage : Bytes) (code : CodeType) : Nat :=
  let index := code.toIndex
  if index = 0 ∨ index ≥ getNumberOfEvents encodedServerVersion then unspecifiedPostHeaderLength
  else
    let encodedLength := storage.getD (index - 1) 0
    if encodedLength = encodedUnspecified then unspecifiedPostHeaderLength else encodedLength.toNat

/-- The first position at which a table of lengths differs from the known one. -/
def mismatch : Bytes → Bytes → Option Nat
  | real :: runtime, expected :: known =>
    if expected = encodedUnspecified ∨ real = expected then (mismatch runtime known).map (· + 1) else some 0
  | _, _ => none

/-- `validate_post_header_lengths` -/
def validatePostHeaderLengths (encodedServerVersion : Nat) (runtime known : Bytes) : Fallible Unit :=
  let numberOfEvents := getNumberOfEvents encodedServerVersion
  match mismatch (runtime.take numberOfEvents) (known.take numberOfEvents) with
  | none => .ok ()
  | some offset =>
    .error ⟨.logicError,"mismatch in expected post header length for '" ++ (CodeType.ofRaw (offset + 1)).label ++
      "' event"⟩

/-- `generic_post_header<code>::get_size_in_bytes` -/
def postHeaderSizeInBytes (version : Nat) : CodeType → Nat
  | .rotate => 8
  | .stop => 0
  | .formatDescription => 57 + getNumberOfEvents version - 1
  | .gtidLog => 42
  | .anonymousGtidLog => 42
  | .previousGtidsLog => 0
  | .gtidTaggedLog => 0
  | _ => unspecifiedPostHeaderLength

/-- The generator of `get_known_post_header_lengths`; the rest of the array is zero. -/
def knownPostHeaderLengthsFor (version : Nat) : Bytes :=
  let lengths := (CodeType.all.tail.take (getNumberOfEvents version - 1)).map
    fun code => UInt8.ofNat (postHeaderSizeInBytes version code)
  lengths ++ List.replicate (maxNumberOfEvents - 1 - lengths.length) 0

/-- `reader_context::get_known_post_header_lengths` -/
def getKnownPostHeaderLengths (encodedServerVersion : Nat) : Bytes :=
  if encodedServerVersion < latestKnownProtocolServerVersion then
    knownPostHeaderLengthsFor earliestSupportedProtocolServerVersion
  else knownPostHeaderLengthsFor latestKnownProtocolServerVersion

/-- `reader_context::get_hardcoded_post_header_lengths` -/
def getHardcodedPostHeaderLengths (encodedServerVersion : Nat) : Bytes :=
  if encodedServerVersion < latestKnownProtocolServerVersion then
    [0,13,0,8,0,0,0,0,4,0,4,0,0,0,98,0,4,26,8,0,0,0,8,8,8,2,0,0,0,10,10,10,42,42,0,18,52,0,10,40,0,0]
  else
    [0,13,0,8,0,0,0,0,4,0,4,0,0,0,99,0,4,26,8,0,0,0,0,0,0,2,0,0,0,10,10,10,42,42,0,18,52,0,10,40,0,0]

/-- The generated tables agree with the known sizes, so a generated description passes its own check. -/
theorem validate_hardcoded (encodedServerVersion : Nat) :
    validatePostHeaderLengths encodedServerVersion (getHardcodedPostHeaderLengths encodedServerVersion)
      (getKnownPostHeaderLengths encodedServerVersion) = .ok () := by
  unfold validatePostHeaderLengths getHardcodedPostHeaderLengths getKnownPostHeaderLengths getNumberOfEvents
  split <;> rfl

end BinlogServer.Events
