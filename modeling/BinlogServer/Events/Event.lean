import BinlogServer.Events.EventView

/-!
# Events

`event`: the parts of an event, read from a view of it, and `event::create_event`, by which the server makes events of
its own in the rewrite mode.
-/

namespace BinlogServer.Events
open ByteString Util

/-- What `create_event` leaves in its buffer, for an encoded post header and body. A total size that does not
    fit `std::uint32_t` leaves too little room in the buffer. -/
def createEvent (code : CodeType) (offset timestamp serverId flags : Nat) (postHeader body : Bytes)
    (includeChecksum : Bool) : Fallible Bytes := do
  let eventSize := (defaultCommonHeaderLength + postHeader.length + body.length +
    (if includeChecksum then defaultFooterLength else 0)) % 2 ^ 32
  let encoded := CommonHeader.createWithOffset offset eventSize timestamp code serverId flags ++ postHeader ++ body
  raiseIf (eventSize < encoded.length) .invalidArgument "cannot encode event"
  -- a FORMAT_DESCRIPTION always includes a footer
  if includeChecksum || code = .formatDescription then
    raiseIf (eventSize - encoded.length ≠ defaultFooterLength) .invalidArgument "invalid event footer length"
    pure (encoded ++ Footer.encode (calculateCrc32 encoded))
  else pure encoded

/-- The data members of `common_header`. -/
structure CommonHeader where
  timestamp : Nat
  typeCode : Nat
  serverId : Nat
  eventSize : Nat
  nextEventPosition : Nat
  flags : Nat
deriving DecidableEq, Repr

def CommonHeader.ofView (portion : Bytes) : CommonHeader :=
  ⟨getTimestampRaw portion,getTypeCodeRaw portion,getServerIdRaw portion,getEventSizeRaw portion,
    getNextEventPositionRaw portion,getFlagsRaw portion⟩

/-- `create_with_offset`; the time is cut to `std::uint32_t`. -/
def CommonHeader.create (offset eventSize timestamp : Nat) (code : CodeType) (serverId flags : Nat) : CommonHeader where
  timestamp := timestamp % 2 ^ 32
  typeCode := code.toIndex
  serverId := serverId
  eventSize := eventSize
  nextEventPosition := if code = .rotate ∧ flags.testBit 5 then 0 else (offset + eventSize) % 2 ^ 32
  flags := flags

/-- `post_header_variant` -/
inductive PostHeader where
  | unknown
  | empty
  | rotate (position : Nat)
  | formatDescription (postHeader : FormatDescriptionPostHeader)
  | gtidLog (postHeader : GtidLogPostHeader)
deriving DecidableEq

namespace PostHeader

/-- `emplace_post_header` -/
def make (code : CodeType) (portion : Bytes) : Fallible PostHeader :=
  match code with
  | .rotate => do pure (.rotate (← RotatePostHeader.make portion))
  | .formatDescription => do pure (.formatDescription (← FormatDescriptionPostHeader.make portion))
  | .gtidLog | .anonymousGtidLog => do pure (.gtidLog (← GtidLogPostHeader.make portion))
  | .stop | .previousGtidsLog | .gtidTaggedLog => do
    raiseIf (portion.length ≠ 0) .invalidArgument "invalid event empty post header length"
    pure .empty
  | _ => pure .unknown

def calculateEncodedSize : PostHeader → Fallible Nat
  | .unknown => throw ⟨.logicError,"calculate_encoded_size() not implemented for this event post header / body"⟩
  | .empty => pure 0
  | .rotate _ => pure 8
  | .formatDescription postHeader => do
    pure (FormatDescriptionPostHeader.getSizeInBytes
      (← FormatDescriptionPostHeader.getEncodedServerVersion postHeader.serverVersion))
  | .gtidLog _ => pure 42

/-- What `encode_to` writes. -/
def encode : PostHeader → Fallible Bytes
  | .unknown => throw ⟨.logicError,"encode_to() not implemented for this event post header / body"⟩
  | .empty => pure []
  | .rotate position => pure (RotatePostHeader.encode position)
  | .formatDescription postHeader => postHeader.encode
  | .gtidLog postHeader => pure postHeader.encode

end PostHeader

/-- `body_variant` -/
inductive Body where
  | unknown
  | empty
  | rotate (binlog : Bytes)
  | formatDescription (checksumAlgorithm : ChecksumAlgorithmType)
  | previousGtidsLog (gtids : Bytes)
  | gtidLog (body : GtidLogBody)
  | gtidTaggedLog (body : GtidTaggedLogBody)
deriving DecidableEq

namespace Body

/-- `emplace_body` -/
def make (code : CodeType) (portion : Bytes) : Fallible Body :=
  match code with
  | .rotate => pure (.rotate portion)
  | .formatDescription => do pure (.formatDescription (← FormatDescriptionBody.make portion))
  | .previousGtidsLog => pure (.previousGtidsLog portion)
  | .gtidLog | .anonymousGtidLog => do pure (.gtidLog (← GtidLogBody.make portion))
  | .gtidTaggedLog => do pure (.gtidTaggedLog (← GtidTaggedLogBody.make portion))
  | .stop => do
    raiseIf (portion.length ≠ 0) .invalidArgument "invalid event empty body length"
    pure .empty
  | _ => pure .unknown

def calculateEncodedSize : Body → Fallible Nat
  | .unknown => throw ⟨.logicError,"calculate_encoded_size() not implemented for this event post header / body"⟩
  | .empty => pure 0
  | .rotate binlog => pure binlog.length
  | .formatDescription _ => pure 1
  | .previousGtidsLog gtids => pure gtids.length
  | .gtidLog body => pure body.calculateEncodedSize
  | .gtidTaggedLog body => pure body.calculateEncodedSize

/-- What `encode_to` writes. -/
def encode : Body → Fallible Bytes
  | .unknown => throw ⟨.logicError,"encode_to() not implemented for this event post header / body"⟩
  | .empty => pure []
  | .rotate binlog => pure binlog
  | .formatDescription checksumAlgorithm => pure (FormatDescriptionBody.encode checksumAlgorithm)
  | .previousGtidsLog gtids => pure gtids
  | .gtidLog body => pure body.encode
  | .gtidTaggedLog body => pure body.encode

end Body

/-- `event` -/
structure Event where
  commonHeader : CommonHeader
  postHeader : PostHeader
  body : Body
  footer : Option Nat
deriving DecidableEq

namespace Event

/-- `event(view)` -/
def ofView (view : EventView) : Fallible Event := do
  let postHeader ← PostHeader.make view.getTypeCode view.getPostHeaderRaw
  let body ← Body.make view.getTypeCode view.getBodyRaw
  pure ⟨CommonHeader.ofView view.getCommonHeaderRaw,postHeader,body,
    if view.hasFooter then some (Footer.getCrcRaw view.getFooterRaw) else none⟩

/-- `event(context, portion)` -/
def make (context : ReaderContext) (portion : Bytes) : Fallible Event := do
  ofView (← EventView.make context portion)

/-- `create_event`: the event and what it leaves in the buffer. A total size that does not fit `std::uint32_t` leaves
    too little room in the buffer. -/
def create (code : CodeType) (offset timestamp serverId flags : Nat) (postHeader : PostHeader) (body : Body)
    (includeChecksum : Bool) : Fallible (Event × Bytes) := do
  let postHeaderSize ← postHeader.calculateEncodedSize
  let bodySize ← body.calculateEncodedSize
  let eventSize := (defaultCommonHeaderLength + postHeaderSize + bodySize +
    (if includeChecksum then defaultFooterLength else 0)) % 2 ^ 32
  let commonHeader := CommonHeader.create offset eventSize timestamp code serverId flags
  raiseIf (eventSize < defaultCommonHeaderLength + postHeaderSize + bodySize) .invalidArgument "cannot encode event"
  let encodedPostHeader ← postHeader.encode
  let encodedBody ← body.encode
  let encoded := CommonHeader.createWithOffset offset eventSize timestamp code serverId flags ++ encodedPostHeader ++
    encodedBody
  -- a FORMAT_DESCRIPTION always includes a footer
  if includeChecksum || code = .formatDescription then
    raiseIf (eventSize - encoded.length ≠ defaultFooterLength) .invalidArgument "invalid event footer length"
    let crc := calculateCrc32 encoded
    pure (⟨commonHeader,postHeader,body,some crc⟩,encoded ++ Footer.encode crc)
  else pure (⟨commonHeader,postHeader,body,none⟩,
    encoded ++ List.replicate (eventSize - encoded.length) 0)

end Event

/-- The flags of an artificial event. -/
def artificialFlag : Nat := 2 ^ 5

/-! The events of a small source file without checksums: a preamble, one transaction of two events and a ROTATE. -/
namespace Sample

def encoded (event : Fallible Bytes) : Bytes := event.toOption.getD []

/-- `b.000001` -/
def name : Bytes := [0x62,0x2E,0x30,0x30,0x30,0x30,0x30,0x31]

def artificialRotate (name : Bytes) (position : Nat) : Bytes :=
  encoded (createEvent .rotate 0 0 1 artificialFlag (RotatePostHeader.encode position) name false)

def formatDescription : Bytes :=
  let postHeader := FormatDescriptionPostHeader.ofVersion (.ofEncoded 80400) 0 (getHardcodedPostHeaderLengths 80400)
  encoded (postHeader.encode >>= fun postHeader =>
    createEvent .formatDescription 4 0 1 0 postHeader (FormatDescriptionBody.encode .off) true)

def previousGtids : Bytes := encoded (createEvent .previousGtidsLog 127 0 1 0 [] (List.replicate 8 0) false)

/-- The first event of a transaction of 96 bytes. -/
def anonymousGtid (offset : Nat) : Bytes :=
  encoded (createEvent .anonymousGtidLog offset 0 1 0 (GtidLogPostHeader.encode ⟨0,.nil,0,2,0,1⟩)
    (List.replicate 7 0 ++ [96]) false)

def xid (offset : Nat) : Bytes := encoded (createEvent .xid offset 0 1 0 [] (List.replicate 8 0) false)

def rotate (offset : Nat) (name : Bytes) : Bytes :=
  encoded (createEvent .rotate offset 0 1 0 (RotatePostHeader.encode magicBinlogOffset) name false)

end Sample
end BinlogServer.Events
