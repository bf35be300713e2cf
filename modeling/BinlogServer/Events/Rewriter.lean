import BinlogServer.Events.EventView

/-!
# Rewriting events

`rewriter`: an event is copied to a place of its own in a local file. Its position changes, a footer is added where
there was none, and a GTID event gets the numbers that follow those of the file.
-/

namespace BinlogServer.Events
open ByteString Util Gtids

/-- `materialization_type` -/
inductive MaterializationType where
  | leaveChecksumAsIs
  | forceAddChecksum
  | forceRemoveChecksum
deriving DecidableEq, Repr

namespace EventView

@[simps] def withPortion (event : EventView) (portion : Bytes) : EventView := { event with portion := portion }

def setEventSizeRaw (event : EventView) (eventSize : Nat) : EventView :=
  event.withPortion (CommonHeader.setEventSizeRaw (eventSize % 2 ^ 32) event.portion)

def setNextEventPositionRaw (event : EventView) (position : Nat) : EventView :=
  event.withPortion (CommonHeader.setNextEventPositionRaw (position % 2 ^ 32) event.portion)

def setPostHeaderRaw (event : EventView) (postHeader : Bytes) : EventView :=
  event.withPortion (patch defaultCommonHeaderLength postHeader event.portion)

/-- The destructor of `write_proxy`. -/
def recalculateCrc (event : EventView) : EventView :=
  if event.hasFooter then
    event.withPortion (patch (event.getTotalSize - event.footerSize) (Footer.encode event.calculateCrc) event.portion)
  else event

end EventView

namespace Rewriter

/-- `prepare_generic_materialize_internal`: the mode where nothing else has to be changed, and the copy. -/
def prepareGenericMaterializeInternal (event : EventView) (mode : MaterializationType) :
    MaterializationType × EventView :=
  match mode, event.hasFooter with
  | .forceAddChecksum, false =>
    (.forceAddChecksum,⟨event.portion ++ List.replicate defaultFooterLength 0,event.postHeaderSize,defaultFooterLength⟩)
  | .forceRemoveChecksum, true =>
    (.forceRemoveChecksum,
      ⟨event.portion.take (event.getTotalSize - defaultFooterLength),event.postHeaderSize,0⟩)
  | _, _ => (.leaveChecksumAsIs,event)

/-- `generic_materialize` -/
def genericMaterialize (event : EventView) (mode : MaterializationType)
    (modificationFunctor : MaterializationType → EventView → Fallible EventView) : Fallible EventView := do
  let (mode,result) := prepareGenericMaterializeInternal event mode
  let result ← modificationFunctor mode result
  pure result.recalculateCrc

/-- `materialize` -/
def materialize (event : EventView) (mode : MaterializationType) : Fallible EventView :=
  genericMaterialize event mode fun normalizedMode event =>
    pure (if normalizedMode ≠ .leaveChecksumAsIs then event.setEventSizeRaw event.getTotalSize else event)

/-- What every rewritten event has changed: its end, and its size if that is another one. -/
def relocate (offset : Nat) (normalizedMode : MaterializationType) (event : EventView) : EventView :=
  let totalSize := event.getTotalSize
  let event := if normalizedMode ≠ .leaveChecksumAsIs then event.setEventSizeRaw totalSize else event
  event.setNextEventPositionRaw (offset + totalSize)

/-- `materialize_and_relocate` -/
def materializeAndRelocate (event : EventView) (mode : MaterializationType) (offset : Nat) : Fallible EventView :=
  genericMaterialize event mode fun normalizedMode event => pure (relocate offset normalizedMode event)

/-- `fix_sequence_number_and_last_committed`: the new sequence number and what it depends on. -/
def fixSequenceNumberAndLastCommitted (lastLocalSequenceNumber remoteSequenceNumber remoteLastCommitted : Nat) :
    Fallible (Nat × Nat) := do
  raiseIf (remoteLastCommitted ≥ remoteSequenceNumber) .logicError
    "remote last_committed is greater than or equal to remote sequence_number"
  let delta := remoteSequenceNumber - remoteLastCommitted
  let sequenceNumber := (lastLocalSequenceNumber + 1) % 2 ^ 64
  pure (sequenceNumber,
    if sequenceNumber > delta then sequenceNumber - delta else if sequenceNumber = 1 then 0 else 1)

/-- `rewrite_gtid_log_internal` -/
def rewriteGtidLogInternal (lastLocalSequenceNumber : Nat) (event : EventView) (offset : Nat) : Fallible EventView :=
  genericMaterialize event .forceAddChecksum fun normalizedMode event => do
    let event := relocate offset normalizedMode event
    let postHeader ← GtidLogPostHeader.make event.getPostHeaderRaw
    let (sequenceNumber,lastCommitted) ← fixSequenceNumberAndLastCommitted lastLocalSequenceNumber
      postHeader.sequenceNumber postHeader.lastCommitted
    pure (event.setPostHeaderRaw
      { postHeader with sequenceNumber := sequenceNumber, lastCommitted := lastCommitted }.encode)

/-- `event_size_calculator`: the body with the length that follows from a size of the event, and the size it has. -/
def eventSizeCalculator (body : GtidTaggedLogBody) (transactionTailLength eventSizeCandidate : Nat) :
    GtidTaggedLogBody × Nat :=
  let body := { body with transactionLength := (eventSizeCandidate + transactionTailLength) % 2 ^ 64 }
  (body,defaultCommonHeaderLength + body.calculateEncodedSize + defaultFooterLength)

/-- The loop that looks for a size that is its own consequence. -/
def stabilizeEventSize (body : GtidTaggedLogBody) (transactionTailLength : Nat) : Nat → Nat → GtidTaggedLogBody × Nat
  | 0, eventSizeCandidate => eventSizeCalculator body transactionTailLength eventSizeCandidate
  | iterations + 1, eventSizeCandidate =>
    let (updated,recalculatedEventSize) := eventSizeCalculator body transactionTailLength eventSizeCandidate
    if recalculatedEventSize ≠ eventSizeCandidate then
      stabilizeEventSize body transactionTailLength iterations recalculatedEventSize
    else (updated,recalculatedEventSize)

def maxNumberOfIterations : Nat := 9

/-- `rewrite_gtid_tagged_log_internal` -/
def rewriteGtidTaggedLogInternal (lastLocalSequenceNumber : Nat) (event : EventView) (offset : Nat) :
    Fallible EventView := do
  let originalEventSize := event.getTotalSize
  let body ← GtidTaggedLogBody.make event.getBodyRaw
  raiseIf (body.transactionLength < originalEventSize) .logicError
    "transaction length in the gtid tagged log event is less than the event size"
  let transactionTailLength := body.transactionLength - originalEventSize
  let (sequenceNumber,lastCommitted) ← fixSequenceNumberAndLastCommitted lastLocalSequenceNumber
    body.sequenceNumber body.lastCommitted
  let body := { body with sequenceNumber := sequenceNumber, lastCommitted := lastCommitted }
  let (body,recalculatedEventSize) :=
    stabilizeEventSize body transactionTailLength maxNumberOfIterations originalEventSize
  let result : EventView :=
    ⟨event.getCommonHeaderRaw ++ body.encode ++ List.replicate defaultFooterLength 0,0,defaultFooterLength⟩
  let result := result.setEventSizeRaw recalculatedEventSize
  let result := result.setNextEventPositionRaw (offset + recalculatedEventSize)
  pure result.recalculateCrc

/-- `rewriter::rewrite` -/
def rewrite (lastLocalSequenceNumber : Nat) (event : EventView) (offset : Nat) : Fallible EventView :=
  match event.getTypeCode with
  | .gtidLog | .anonymousGtidLog => rewriteGtidLogInternal lastLocalSequenceNumber event offset
  | .gtidTaggedLog => rewriteGtidTaggedLogInternal lastLocalSequenceNumber event offset
  | _ => materializeAndRelocate event .forceAddChecksum offset

end Rewriter
end BinlogServer.Events
