import BinlogServer.Events.Protocol

/-!
# Common headers and footers

Every event starts with a header of nineteen bytes (`common_header_view`) and may end with a checksum of
four (`footer_view`). The getters and setters are those of the views: they read and overwrite the fields
in place.
-/

namespace BinlogServer.Events
open ByteString Util

namespace CommonHeader

def getTimestampRaw (portion : Bytes) : Nat := leNat (slice 0 4 portion)
def getTypeCodeRaw (portion : Bytes) : Nat := leNat (slice 4 1 portion)
def getServerIdRaw (portion : Bytes) : Nat := leNat (slice 5 4 portion)
def getEventSizeRaw (portion : Bytes) : Nat := leNat (slice 9 4 portion)
def getNextEventPositionRaw (portion : Bytes) : Nat := leNat (slice 13 4 portion)
def getFlagsRaw (portion : Bytes) : Nat := leNat (slice 17 2 portion)

def getTypeCode (portion : Bytes) : CodeType := .ofRaw (getTypeCodeRaw portion)

/-- `get_flags().has_element(common_header_flag_type::artificial)` -/
def isArtificial (portion : Bytes) : Bool := (getFlagsRaw portion).testBit 5

def setEventSizeRaw (eventSize : Nat) (portion : Bytes) : Bytes := patch 9 (leBytes 4 eventSize) portion
def setNextEventPositionRaw (position : Nat) (portion : Bytes) : Bytes := patch 13 (leBytes 4 position) portion

/-- The checks of the `common_header_view_base` constructor: the size, and a code the enumeration has. -/
def validate (portion : Bytes) : Fallible Unit := do
  raiseIf (portion.length ≠ defaultCommonHeaderLength) .invalidArgument "invalid event common header length"
  raiseIf (getTypeCodeRaw portion ≥ CodeType.all.length) .logicError "invalid event code in event header"

/-- `common_header::encode_to` -/
def encode (timestamp : Nat) (code : CodeType) (serverId eventSize nextEventPosition flags : Nat) : Bytes :=
  leBytes 4 timestamp ++ leBytes 1 code.toIndex ++ leBytes 4 serverId ++ leBytes 4 eventSize ++
    leBytes 4 nextEventPosition ++ leBytes 2 flags

/-- `common_header::create_with_offset`: an artificial ROTATE has no next position. -/
def createWithOffset (offset eventSize timestamp : Nat) (code : CodeType) (serverId flags : Nat) : Bytes :=
  encode timestamp code serverId eventSize
    (if code = .rotate ∧ flags.testBit 5 then 0 else (offset + eventSize) % 2 ^ 32) flags

@[simp] theorem createWithOffset_length (offset eventSize timestamp : Nat) (code : CodeType) (serverId flags : Nat) :
    (createWithOffset offset eventSize timestamp code serverId flags).length = 19 := by
  simp [createWithOffset,encode]

private theorem leNat_field_lt (start len : Nat) (portion : Bytes) : leNat (slice start len portion) < 256 ^ len :=
  lt_of_lt_of_le (leNat_lt _) (Nat.pow_le_pow_right (by decide) (by simp [slice]))

theorem getTimestampRaw_lt (portion : Bytes) : getTimestampRaw portion < 2 ^ 32 := leNat_field_lt 0 4 portion

theorem getEventSizeRaw_lt (portion : Bytes) : getEventSizeRaw portion < 2 ^ 32 := leNat_field_lt 9 4 portion

theorem getNextEventPositionRaw_lt (portion : Bytes) : getNextEventPositionRaw portion < 2 ^ 32 :=
  leNat_field_lt 13 4 portion

end CommonHeader

namespace Footer

/-- `footer_view_base::get_crc_raw` of the last four bytes of an event. -/
def getCrcRaw (portion : Bytes) : Nat := leNat portion

def encode (crc : Nat) : Bytes := leBytes 4 crc

end Footer
end BinlogServer.Events
