import BinlogServer.Events.EventView
import Mathlib.Tactic.Simps.Basic

/-!
# The reader's state machine

`reader_context::process_event_view` with its six states. A handler that answers `processed = false` has
only changed the state: the loop hands the same event to the handler of the new state.
-/

namespace BinlogServer.Events
open ByteString Util Gtids

/-- What a handler leaves behind: its result, the flag it may set and the context. -/
structure Outcome where
  processed : Bool
  infoOnly : Bool
  context : ReaderContext

namespace ReaderContext

@[simps] def withPosition (context : ReaderContext) (position : Nat) : ReaderContext := { context with position := position }

@[simps!] def resetPosition (context : ReaderContext) : ReaderContext := context.withPosition magicBinlogOffset

/-- `validate_position`; the sum wraps as `std::uint32_t` does. -/
def validatePosition (context : ReaderContext) (event : EventView) : Fallible Unit := do
  raiseIf (event.getNextEventPositionRaw = 0) .logicError
    "next event position in the event common header cannot be zero"
  raiseIf ((context.position + event.getEventSizeRaw) % 2 ^ 32 ≠ event.getNextEventPositionRaw) .logicError
    "unexpected next event position in the event common header"

/-- `validate_position_and_advance` -/
def validatePositionAndAdvance (context : ReaderContext) (event : EventView) : Fallible ReaderContext := do
  context.validatePosition event
  pure (context.withPosition event.getNextEventPositionRaw)

/-- What the first event of a transaction sets. -/
@[simps] def withTransaction (context : ReaderContext) (gtid : Gtid) (sequenceNumber length : Nat) : ReaderContext :=
  { context with
    transactionGtid := gtid
    transactionSequenceNumber := sequenceNumber
    expectedTransactionLength := length }

@[simps] def withCurrentLength (context : ReaderContext) (length : Nat) : ReaderContext :=
  { context with currentTransactionLength := length }

/-- `start_transaction` -/
def startTransaction (context : ReaderContext) (event : EventView) : Fallible ReaderContext := do
  let context ← match event.getTypeCode with
    | .anonymousGtidLog => do
      let postHeader ← GtidLogPostHeader.make event.getPostHeaderRaw
      let gtid ← postHeader.getGtid
      raiseIf (¬ gtid.isEmpty) .logicError "encountered non-empty gtid in the anonymous gtid log event"
      let body ← GtidLogBody.make event.getBodyRaw
      raiseIf (body.transactionLength ≥ 2 ^ 32) .logicError
        "transaction length in the anonymous gtid log event is too large"
      -- the gtid is not touched here: between transactions it is empty
      pure (context.withTransaction context.transactionGtid postHeader.sequenceNumber body.transactionLength)
    | .gtidLog => do
      let postHeader ← GtidLogPostHeader.make event.getPostHeaderRaw
      let gtid ← postHeader.getGtid
      raiseIf gtid.isEmpty .logicError "encountered an empty gtid in the gtid log event"
      let body ← GtidLogBody.make event.getBodyRaw
      raiseIf (body.transactionLength ≥ 2 ^ 32) .logicError
        "transaction length in the gtid log event is too large"
      pure (context.withTransaction gtid postHeader.sequenceNumber body.transactionLength)
    | .gtidTaggedLog => do
      let body ← GtidTaggedLogBody.make event.getBodyRaw
      let gtid ← body.getGtid
      raiseIf gtid.isEmpty .logicError "encountered an empty gtid in the gtid tagged log event"
      raiseIf (body.transactionLength ≥ 2 ^ 32) .logicError
        "transaction length in the gtid tagged log event is too large"
      pure (context.withTransaction gtid body.sequenceNumber body.transactionLength)
    | _ => pure context
  pure (context.withCurrentLength event.getEventSizeRaw)

/-- `update_transaction`; the sum wraps as `std::uint32_t` does. -/
def updateTransaction (context : ReaderContext) (event : EventView) : Fallible ReaderContext := do
  let current := (context.currentTransactionLength + event.getEventSizeRaw) % 2 ^ 32
  raiseIf (current > context.expectedTransactionLength) .logicError
    "current event exceeds declared transaction length"
  pure (context.withCurrentLength current)

/-- The context with the transaction it was reading, if any, forgotten. -/
@[simps!] def finished (context : ReaderContext) : ReaderContext := (context.withTransaction .empty 0 0).withCurrentLength 0

/-- `finish_transaction` -/
def finishTransaction (context : ReaderContext) : Fallible ReaderContext := do
  raiseIf (context.currentTransactionLength ≠ context.expectedTransactionLength) .logicError
    "transaction did not end at the declared length"
  pure context.finished

/-- The checks of the state in which an artificial ROTATE is expected. -/
def checkArtificialRotate (context : ReaderContext) (event : EventView) : Fallible Unit := do
  raiseIf (¬ (event.getTypeCode = .rotate ∧ event.isArtificial)) .logicError
    "an artificial rotate event must be the very first event in the rotate_artificial_expected state"
  raiseIf (event.getTimestampRaw ≠ 0) .logicError "non-zero timestamp found in an artificial rotate event"
  raiseIf (event.getNextEventPositionRaw ≠ 0) .logicError
    "non-zero next event position found in an artificial rotate event"
  let position ← RotatePostHeader.make event.getPostHeaderRaw
  if context.replicationMode = .position then
    if event.getBodyRaw = context.binlogName then
      raiseIf (position ≠ context.position) .logicError
        "unexpected position found in an artificial rotate event in position-based replication mode"
    else
      raiseIf (position ≠ magicBinlogOffset) .logicError
        "unexpected position found in an artificial rotate event in position-based replication mode"
  else
    raiseIf (position ≠ magicBinlogOffset) .logicError
      "unexpected position found in an artificial rotate event in GTID-based replication mode"

/-- What an artificial ROTATE that names `binlog` changes. -/
def enterBinlog (context : ReaderContext) (binlog : Bytes) : ReaderContext :=
  let expectInfoOnly :=
    context.cycleNumber = 0 && binlog = context.binlogName && context.position > magicBinlogOffset
  let context := { context with expectInfoOnlyPreambleEvents := expectInfoOnly }
  let context := if binlog ≠ context.binlogName then { context with binlogName := binlog }.resetPosition else context
  { context with cycleNumber := context.cycleNumber + 1, state := .formatDescriptionExpected }

/-- `process_event_in_rotate_artificial_expected_state` -/
def processEventInRotateArtificialExpectedState (context : ReaderContext) (event : EventView) :
    Fallible Outcome := do
  context.checkArtificialRotate event
  pure ⟨true,true,context.enterBinlog event.getBodyRaw⟩

/-- What the reader learns from a FORMAT_DESCRIPTION. -/
structure Layout where
  encodedServerVersion : Nat
  postHeaderLengths : Bytes
  footerExpected : Bool

/-- The checks of the state in which a FORMAT_DESCRIPTION is expected, up to its position. -/
def readFormatDescription (context : ReaderContext) (event : EventView) : Fallible Layout := do
  raiseIf (event.getTypeCode ≠ .formatDescription) .logicError
    "format description event must follow an artificial rotate event"
  raiseIf event.isArtificial .logicError "format description event is not expected to be artificial"
  let postHeader ← FormatDescriptionPostHeader.make event.getPostHeaderRaw
  raiseIf (postHeader.binlogVersion ≠ defaultBinlogVersion) .logicError
    "unexpected binlog version number in format description event"
  raiseIf (postHeader.commonHeaderLength ≠ defaultCommonHeaderLength) .logicError
    "unexpected common header length in format description event"
  let version ← FormatDescriptionPostHeader.getEncodedServerVersion postHeader.serverVersion
  raiseIf (version > context.connectionEncodedServerVersion) .logicError
    "unexpected server version in format description event"
  validatePostHeaderLengths version postHeader.postHeaderLengths (getKnownPostHeaderLengths version)
  let algorithm ← FormatDescriptionBody.make event.getBodyRaw
  pure ⟨version,postHeader.postHeaderLengths,algorithm ≠ .off⟩

@[simps] def adoptLayout (context : ReaderContext) (layout : Layout) : ReaderContext :=
  { context with
    currentEncodedServerVersion := layout.encodedServerVersion
    postHeaderLengths := layout.postHeaderLengths
    footerExpected := layout.footerExpected }

/-- The position of an event of the preamble counts only where it is written to the file. -/
def advancePreamble (context : ReaderContext) (event : EventView) : Fallible ReaderContext :=
  if context.expectInfoOnlyPreambleEvents then pure context else context.validatePositionAndAdvance event

@[simps] def withState (context : ReaderContext) (state : StateType) : ReaderContext := { context with state := state }

/-- `process_event_in_format_description_expected_state` -/
def processEventInFormatDescriptionExpectedState (context : ReaderContext) (event : EventView) :
    Fallible Outcome := do
  let layout ← context.readFormatDescription event
  let infoOnly := context.expectInfoOnlyPreambleEvents
  raiseIf (context.replicationMode = .position ∧ infoOnly ∧ event.getNextEventPositionRaw ≠ 0) .logicError
    "expected next event position set to zero in pseudo format description event"
  let context ← (context.adoptLayout layout).advancePreamble event
  pure ⟨true,infoOnly,context.withState
    (if context.replicationMode = .position ∧ infoOnly then .gtidLogExpected else .previousGtidsExpected)⟩

/-- `process_event_in_previous_gtids_expected_state` -/
def processEventInPreviousGtidsExpectedState (context : ReaderContext) (event : EventView) :
    Fallible Outcome := do
  raiseIf (event.getTypeCode ≠ .previousGtidsLog) .logicError
    "previous gtids log event must follow a format description event"
  raiseIf event.isArtificial .logicError "previous gtids log event is not expected to be artificial"
  let infoOnly := context.expectInfoOnlyPreambleEvents
  let context ← context.advancePreamble event
  pure ⟨true,infoOnly,context.withState .gtidLogExpected⟩

/-- What the star loops of the two transaction states do with a ROTATE or a STOP: nothing yet but leave the
    loop, for the state in which that event is expected. -/
def leaveTransactions (context : ReaderContext) (event : EventView) (infoOnly : Bool) : Fallible Outcome := do
  let context ← context.finishTransaction
  if event.getTypeCode = .rotate ∧ event.isArtificial then
    pure ⟨false,infoOnly,context.resetPosition.withState .rotateArtificialExpected⟩
  else pure ⟨false,infoOnly,context.withState .rotateOrStopExpected⟩

/-- `process_event_in_gtid_log_expected_state` -/
def processEventInGtidLogExpectedState (context : ReaderContext) (event : EventView) (infoOnly : Bool) :
    Fallible Outcome :=
  let code := event.getTypeCode
  if code = .rotate ∨ code = .stop then context.leaveTransactions event infoOnly
  else do
    raiseIf (code ≠ .anonymousGtidLog ∧ code ≠ .gtidLog ∧ code ≠ .gtidTaggedLog) .logicError
      "transaction group must start from one of the gtid log events"
    raiseIf (context.replicationMode = .gtid ∧ code = .anonymousGtidLog) .logicError
      "unexpected anonymous gtid log event in gtid mode replication"
    let context ← context.startTransaction event
    let context ← context.validatePositionAndAdvance event
    pure ⟨true,false,context.withState .anyOtherExpected⟩

/-- `process_event_in_any_other_expected_state` -/
def processEventInAnyOtherExpectedState (context : ReaderContext) (event : EventView) (infoOnly : Bool) :
    Fallible Outcome :=
  let code := event.getTypeCode
  if code = .anonymousGtidLog ∨ code = .gtidLog ∨ code = .gtidTaggedLog then do
    let context ← context.finishTransaction
    pure ⟨false,infoOnly,context.withState .gtidLogExpected⟩
  else if code = .rotate ∨ code = .stop then context.leaveTransactions event infoOnly
  else do
    raiseIf (code = .formatDescription) .logicError
      "encountered second format description event within the same binlog"
    raiseIf (code = .previousGtidsLog) .logicError
      "encountered second previous gtids log event within the same binlog"
    raiseIf event.isArtificial .logicError
      "unexpected artificial event in the 'previous gtids log processed' state"
    let context ← context.updateTransaction event
    let context ← context.validatePositionAndAdvance event
    pure ⟨true,false,context⟩

/-- `process_event_in_rotate_or_stop_expected_state` -/
def processEventInRotateOrStopExpectedState (context : ReaderContext) (event : EventView) : Fallible Outcome := do
  let code := event.getTypeCode
  raiseIf (code ≠ .rotate ∧ code ≠ .stop) .logicError
    "the very last event in the binlog must be either rotate or stop"
  raiseIf event.isArtificial .logicError "the very last event in the binlog is not expected to be artificial"
  if code = .rotate then
    let position ← RotatePostHeader.make event.getPostHeaderRaw
    raiseIf (position ≠ magicBinlogOffset) .logicError
      "unexpected position in an non-artificial rotate event post header"
  context.validatePosition event
  pure ⟨true,false,context.resetPosition.withState .rotateArtificialExpected⟩

/-- The switch of `process_event_view`. -/
def dispatch (context : ReaderContext) (event : EventView) (infoOnly : Bool) : Fallible Outcome :=
  match context.state with
  | .rotateArtificialExpected => context.processEventInRotateArtificialExpectedState event
  | .formatDescriptionExpected => context.processEventInFormatDescriptionExpectedState event
  | .previousGtidsExpected => context.processEventInPreviousGtidsExpectedState event
  | .gtidLogExpected => context.processEventInGtidLogExpectedState event infoOnly
  | .anyOtherExpected => context.processEventInAnyOtherExpectedState event infoOnly
  | .rotateOrStopExpected => context.processEventInRotateOrStopExpectedState event

/-- The loop of `process_event_view`, for at most so many rounds; `none` where they are not enough. -/
def processLoop : Nat → ReaderContext → EventView → Bool → Fallible (Option (Bool × ReaderContext))
  | 0, _, _, _ => .ok none
  | rounds + 1, context, event, infoOnly => do
    let outcome ← context.dispatch event infoOnly
    if outcome.processed then pure (some (outcome.infoOnly,outcome.context))
    else processLoop rounds outcome.context event outcome.infoOnly

/-- `process_event_view`: the `info_only` flag and the new context. Two rounds of the loop are always enough
    (`processLoop_two`). -/
def processEventView (context : ReaderContext) (event : EventView) : Fallible (Bool × ReaderContext) := do
  match ← processLoop 2 context event false with
  | some result => pure result
  | none => throw ⟨.terminate,"the dispatch loop does not end"⟩

end ReaderContext
end BinlogServer.Events
