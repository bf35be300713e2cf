import BinlogServer.Events.Bodies

/-!
# The reader's context and event views

The state of `reader_context` and the views of events that are built with its help: where the post header,
the body and the footer of an event lie depends on the lengths and the checksum setting the reader has
learned from the last FORMAT_DESCRIPTION.
-/

namespace BinlogServer.Events
open ByteString Util Gtids

/-- `replication_mode_type` -/
inductive ReplicationMode where
  | position
  | gtid
deriving DecidableEq, Repr

/-- `reader_context::state_type` -/
inductive StateType where
  | rotateArtificialExpected
  | formatDescriptionExpected
  | previousGtidsExpected
  | gtidLogExpected
  | anyOtherExpected
  | rotateOrStopExpected
deriving DecidableEq, Repr

/-- The data members of `reader_context`. -/
structure ReaderContext where
  state : StateType := .rotateArtificialExpected
  connectionEncodedServerVersion : Nat
  currentEncodedServerVersion : Nat
  checksumVerificationEnabled : Bool
  footerExpected : Bool
  replicationMode : ReplicationMode
  binlogName : Bytes
  position : Nat
  postHeaderLengths : Bytes
  transactionGtid : Gtid := .empty
  transactionSequenceNumber : Nat := 0
  expectedTransactionLength : Nat := 0
  currentTransactionLength : Nat := 0
  expectInfoOnlyPreambleEvents : Bool := false
  cycleNumber : Nat := 0
deriving DecidableEq

namespace ReaderContext

/-- The constructor. -/
def make (connectionEncodedServerVersion : Nat) (checksumVerificationEnabled : Bool)
    (replicationMode : ReplicationMode) (binlogName : Bytes) (position : Nat) : ReaderContext where
  connectionEncodedServerVersion := connectionEncodedServerVersion
  currentEncodedServerVersion := connectionEncodedServerVersion
  checksumVerificationEnabled := checksumVerificationEnabled
  footerExpected := checksumVerificationEnabled
  replicationMode := replicationMode
  binlogName := binlogName
  position := if position = 0 then magicBinlogOffset else position
  postHeaderLengths := getKnownPostHeaderLengths connectionEncodedServerVersion

def isFresh (context : ReaderContext) : Bool := context.cycleNumber = 0

def getCurrentPostHeaderLength (context : ReaderContext) (code : CodeType) : Nat :=
  getPostHeaderLengthForCode context.currentEncodedServerVersion context.postHeaderLengths code

def isAtTransactionBoundary (context : ReaderContext) : Bool :=
  (context.state = .anyOtherExpected &&
      context.currentTransactionLength = context.expectedTransactionLength) ||
    context.state = .rotateArtificialExpected

end ReaderContext

/-- The data members of `event_view_base`: the bytes of an event and the sizes of two of its parts. -/
structure EventView where
  portion : Bytes
  postHeaderSize : Nat
  footerSize : Nat
deriving DecidableEq, Repr

namespace EventView

def getTotalSize (event : EventView) : Nat := event.portion.length
def getTypeCode (event : EventView) : CodeType := CommonHeader.getTypeCode event.portion
def isArtificial (event : EventView) : Bool := CommonHeader.isArtificial event.portion
def getTimestampRaw (event : EventView) : Nat := CommonHeader.getTimestampRaw event.portion
def getEventSizeRaw (event : EventView) : Nat := CommonHeader.getEventSizeRaw event.portion
def getNextEventPositionRaw (event : EventView) : Nat := CommonHeader.getNextEventPositionRaw event.portion

def getCommonHeaderRaw (event : EventView) : Bytes := slice 0 defaultCommonHeaderLength event.portion

def getPostHeaderRaw (event : EventView) : Bytes :=
  slice defaultCommonHeaderLength event.postHeaderSize event.portion

def getBodySize (event : EventView) : Nat :=
  event.getTotalSize - defaultCommonHeaderLength - event.postHeaderSize - event.footerSize

def getBodyRaw (event : EventView) : Bytes :=
  slice (defaultCommonHeaderLength + event.postHeaderSize) event.getBodySize event.portion

def hasFooter (event : EventView) : Bool := event.footerSize ≠ 0

def getFooterRaw (event : EventView) : Bytes :=
  slice (event.getTotalSize - event.footerSize) event.footerSize event.portion

def calculateCrc (event : EventView) : Nat :=
  calculateCrc32 (event.portion.take (event.getTotalSize - event.footerSize))

/-- The last part of the constructor: the checksum is compared if the reader was asked to, the event has
    a footer and, for a FORMAT_DESCRIPTION, its own body says that there are checksums. -/
def verifyChecksum (context : ReaderContext) (event : EventView) : Fallible Unit := do
  if !context.checksumVerificationEnabled then return
  if !event.hasFooter then return
  if event.getTypeCode = .formatDescription then
    let algorithm ← FormatDescriptionBody.make event.getBodyRaw
    if algorithm = .off then return
  raiseIf (event.calculateCrc ≠ Footer.getCrcRaw event.getFooterRaw) .invalidArgument "event checksum mismatch"

/-- The size of the footer: a FORMAT_DESCRIPTION always has one, for other events the context knows. -/
def footerSizeFor (context : ReaderContext) (portion : Bytes) : Nat :=
  if CommonHeader.getTypeCode portion = .formatDescription then defaultFooterLength
  else if context.footerExpected then defaultFooterLength else 0

/-- The size of the post header. A FORMAT_DESCRIPTION has a body of one byte, which leaves the rest for its
    post header; for every other event the context has the length. -/
def postHeaderSizeFor (context : ReaderContext) (portion : Bytes) : Fallible Nat :=
  let code := CommonHeader.getTypeCode portion
  let footerSize := footerSizeFor context portion
  if code = .formatDescription then do
    let groupSize := defaultCommonHeaderLength + 1 + footerSize
    raiseIf (portion.length < groupSize) .logicError
      "not enough data for format description event common header + body + footer"
    pure (portion.length - groupSize)
  else do
    let postHeaderSize := context.getCurrentPostHeaderLength code
    raiseIf (postHeaderSize = unspecifiedPostHeaderLength) .invalidArgument
      ("received event of type " ++ Nat.repr code.toIndex ++ " \"" ++ code.label ++
        "\" is not known in server version " ++ Nat.repr context.currentEncodedServerVersion)
    raiseIf (portion.length < defaultCommonHeaderLength + postHeaderSize + footerSize) .logicError
      "not enough data for event common header + post header + footer"
    pure postHeaderSize

/-- `event_view(context, portion)` -/
def make (context : ReaderContext) (portion : Bytes) : Fallible EventView := do
  raiseIf (portion.length < defaultCommonHeaderLength) .invalidArgument "not enough data for event common header"
  CommonHeader.validate (slice 0 defaultCommonHeaderLength portion)
  raiseIf (portion.length ≠ CommonHeader.getEventSizeRaw portion) .invalidArgument
    "actual event size does not match the one specified in event common header"
  let postHeaderSize ← postHeaderSizeFor context portion
  let event : EventView := ⟨portion,postHeaderSize,footerSizeFor context portion⟩
  verifyChecksum context event
  pure event

theorem getEventSizeRaw_lt (event : EventView) : event.getEventSizeRaw < 2 ^ 32 :=
  CommonHeader.getEventSizeRaw_lt _

end EventView
end BinlogServer.Events
