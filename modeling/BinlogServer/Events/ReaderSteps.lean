import BinlogServer.Events.ReaderContext

/-!
# What the reader does with one event

`Step` says everything a call of `process_event_view` that does not raise can do: which events it lets
through in which state, what it answers and what the context becomes. The proofs about the reader go
through it and not through the handlers.
-/

namespace BinlogServer.Events
open ByteString Util Gtids

namespace EventView

/-- What the first event of a transaction says about it: identifier, sequence number and length. -/
def transactionInfo (event : EventView) : Fallible (Gtid × Nat × Nat) :=
  match event.getTypeCode with
  | .anonymousGtidLog => do
    let postHeader ← GtidLogPostHeader.make event.getPostHeaderRaw
    let body ← GtidLogBody.make event.getBodyRaw
    pure (.empty,postHeader.sequenceNumber,body.transactionLength)
  | .gtidLog => do
    let postHeader ← GtidLogPostHeader.make event.getPostHeaderRaw
    let gtid ← postHeader.getGtid
    let body ← GtidLogBody.make event.getBodyRaw
    pure (gtid,postHeader.sequenceNumber,body.transactionLength)
  | .gtidTaggedLog => do
    let body ← GtidTaggedLogBody.make event.getBodyRaw
    let gtid ← body.getGtid
    pure (gtid,body.sequenceNumber,body.transactionLength)
  | _ => throw ⟨.logicError,"not the first event of a transaction"⟩

/-- An event that may stand inside a transaction, after its first one. -/
def IsOther (event : EventView) : Prop :=
  event.getTypeCode.isGtid = false ∧ event.getTypeCode ≠ .rotate ∧ event.getTypeCode ≠ .stop ∧
    event.getTypeCode ≠ .formatDescription ∧ event.getTypeCode ≠ .previousGtidsLog ∧ event.isArtificial = false

instance (event : EventView) : Decidable event.IsOther :=
  inferInstanceAs (Decidable (_ ∧ _ ∧ _ ∧ _ ∧ _ ∧ _))

/-- An artificial ROTATE as the source sends it. -/
structure IsArtificialRotate (event : EventView) : Prop where
  code : event.getTypeCode = .rotate
  artificial : event.isArtificial = true
  timestamp : event.getTimestampRaw = 0
  nextPosition : event.getNextEventPositionRaw = 0

/-- The last event of a file: a ROTATE to the start of the next one, or a STOP. -/
structure IsTerminator (event : EventView) : Prop where
  code : event.getTypeCode = .rotate ∨ event.getTypeCode = .stop
  artificial : event.isArtificial = false
  position : event.getTypeCode = .rotate → RotatePostHeader.make event.getPostHeaderRaw = .ok magicBinlogOffset

end EventView

namespace ReaderContext

section
variable (context : ReaderContext) (binlog : Bytes)

@[simp] theorem enterBinlog_state : (context.enterBinlog binlog).state = .formatDescriptionExpected := rfl

@[simp] theorem enterBinlog_cycleNumber : (context.enterBinlog binlog).cycleNumber = context.cycleNumber + 1 := by
  simp only [enterBinlog]
  split <;> rfl

@[simp] theorem enterBinlog_binlogName : (context.enterBinlog binlog).binlogName = binlog := by
  simp only [enterBinlog]
  split
  · rfl
  · rename_i same
    exact (not_not.mp same).symm

@[simp] theorem enterBinlog_position : (context.enterBinlog binlog).position =
    if binlog = context.binlogName then context.position else magicBinlogOffset := by
  simp only [enterBinlog, ite_not]
  split <;> rfl

@[simp] theorem enterBinlog_expectInfoOnlyPreambleEvents :
    (context.enterBinlog binlog).expectInfoOnlyPreambleEvents =
      (context.cycleNumber = 0 && binlog = context.binlogName && context.position > magicBinlogOffset) := by
  simp only [enterBinlog]
  split <;> rfl

@[simp] theorem enterBinlog_connectionEncodedServerVersion : (context.enterBinlog binlog).connectionEncodedServerVersion =
    context.connectionEncodedServerVersion := by
  simp only [enterBinlog]
  split <;> rfl

@[simp] theorem enterBinlog_currentEncodedServerVersion : (context.enterBinlog binlog).currentEncodedServerVersion =
    context.currentEncodedServerVersion := by
  simp only [enterBinlog]
  split <;> rfl

@[simp] theorem enterBinlog_checksumVerificationEnabled : (context.enterBinlog binlog).checksumVerificationEnabled =
    context.checksumVerificationEnabled := by
  simp only [enterBinlog]
  split <;> rfl

@[simp] theorem enterBinlog_footerExpected : (context.enterBinlog binlog).footerExpected =
    context.footerExpected := by
  simp only [enterBinlog]
  split <;> rfl

@[simp] theorem enterBinlog_replicationMode : (context.enterBinlog binlog).replicationMode =
    context.replicationMode := by
  simp only [enterBinlog]
  split <;> rfl

@[simp] theorem enterBinlog_postHeaderLengths : (context.enterBinlog binlog).postHeaderLengths =
    context.postHeaderLengths := by
  simp only [enterBinlog]
  split <;> rfl

@[simp] theorem enterBinlog_transactionGtid : (context.enterBinlog binlog).transactionGtid =
    context.transactionGtid := by
  simp only [enterBinlog]
  split <;> rfl

@[simp] theorem enterBinlog_transactionSequenceNumber : (context.enterBinlog binlog).transactionSequenceNumber =
    context.transactionSequenceNumber := by
  simp only [enterBinlog]
  split <;> rfl

@[simp] theorem enterBinlog_expectedTransactionLength : (context.enterBinlog binlog).expectedTransactionLength =
    context.expectedTransactionLength := by
  simp only [enterBinlog]
  split <;> rfl

@[simp] theorem enterBinlog_currentTransactionLength : (context.enterBinlog binlog).currentTransactionLength =
    context.currentTransactionLength := by
  simp only [enterBinlog]
  split <;> rfl

end

/-- The event ends where the next one starts, as its header says. -/
def PositionOk (context : ReaderContext) (event : EventView) : Prop :=
  event.getNextEventPositionRaw ≠ 0 ∧
    (context.position + event.getEventSizeRaw) % 2 ^ 32 = event.getNextEventPositionRaw

/-- No transaction is being read. -/
structure Idle (context : ReaderContext) : Prop where
  gtid : context.transactionGtid = .empty
  sequenceNumber : context.transactionSequenceNumber = 0
  expected : context.expectedTransactionLength = 0
  current : context.currentTransactionLength = 0

/-- A transaction may start, or the file end, here. -/
def Between (context : ReaderContext) : Prop :=
  context.state = .gtidLogExpected ∨
    context.state = .anyOtherExpected ∧ context.currentTransactionLength = context.expectedTransactionLength

/-- What holds of a context between two calls. -/
structure Settled (context : ReaderContext) : Prop where
  idle : context.state ≠ .anyOtherExpected → context.Idle
  state : context.state ≠ .rotateOrStopExpected

/-- The context in which an artificial ROTATE is looked at: a file that was being read is left. -/
def left (context : ReaderContext) : ReaderContext :=
  if context.state = .rotateArtificialExpected then context
  else context.finished.resetPosition.withState .rotateArtificialExpected

/-- The position an artificial ROTATE has to name. -/
def rotatePosition (context : ReaderContext) (event : EventView) : Nat :=
  if context.replicationMode = .position ∧ event.getBodyRaw = context.binlogName then context.position
  else magicBinlogOffset

/-- The position after an event of the preamble. -/
def preamblePosition (context : ReaderContext) (event : EventView) : Nat :=
  if context.expectInfoOnlyPreambleEvents then context.position else event.getNextEventPositionRaw

/-- The state after a FORMAT_DESCRIPTION. -/
def describedState (context : ReaderContext) : StateType :=
  if context.replicationMode = .position ∧ context.expectInfoOnlyPreambleEvents then .gtidLogExpected
  else .previousGtidsExpected

/-- One accepted event. -/
inductive Step (context : ReaderContext) (event : EventView) : Bool → ReaderContext → Prop where
  /-- An artificial ROTATE, at the start, after a terminator or after a whole transaction. -/
  | artificialRotate
      (start : context.state = .rotateArtificialExpected ∨ context.Between)
      (rotate : event.IsArtificialRotate)
      (position : RotatePostHeader.make event.getPostHeaderRaw = .ok (context.left.rotatePosition event)) :
      Step context event true (context.left.enterBinlog event.getBodyRaw)
  /-- A FORMAT_DESCRIPTION, from which the layout of the events that follow is learned. -/
  | formatDescription (layout : Layout)
      (start : context.state = .formatDescriptionExpected)
      (code : event.getTypeCode = .formatDescription) (plain : event.isArtificial = false)
      (learned : context.readFormatDescription event = .ok layout)
      (position : context.expectInfoOnlyPreambleEvents = false → context.PositionOk event) :
      Step context event context.expectInfoOnlyPreambleEvents
        (((context.adoptLayout layout).withPosition (context.preamblePosition event)).withState context.describedState)
  /-- A PREVIOUS_GTIDS. -/
  | previousGtids
      (start : context.state = .previousGtidsExpected)
      (code : event.getTypeCode = .previousGtidsLog) (plain : event.isArtificial = false)
      (position : context.expectInfoOnlyPreambleEvents = false → context.PositionOk event) :
      Step context event context.expectInfoOnlyPreambleEvents
        ((context.withPosition (context.preamblePosition event)).withState .gtidLogExpected)
  /-- The first event of a transaction. -/
  | gtid (gtid : Gtid) (sequenceNumber length : Nat)
      (start : context.Between)
      (code : event.getTypeCode.isGtid = true)
      (known : context.replicationMode = .gtid → event.getTypeCode ≠ .anonymousGtidLog)
      (info : event.transactionInfo = .ok (gtid,sequenceNumber,length))
      (named : event.getTypeCode ≠ .anonymousGtidLog → ¬ gtid.isEmpty)
      (short : length < 2 ^ 32)
      (position : context.PositionOk event) :
      Step context event false
        ((((context.withTransaction gtid sequenceNumber length).withCurrentLength event.getEventSizeRaw).withPosition
          event.getNextEventPositionRaw).withState .anyOtherExpected)
  /-- A later event of a transaction. -/
  | other
      (start : context.state = .anyOtherExpected)
      (plain : event.IsOther)
      (within : (context.currentTransactionLength + event.getEventSizeRaw) % 2 ^ 32 ≤
        context.expectedTransactionLength)
      (position : context.PositionOk event) :
      Step context event false
        ((context.withCurrentLength ((context.currentTransactionLength + event.getEventSizeRaw) % 2 ^ 32)).withPosition
          event.getNextEventPositionRaw)
  /-- The event that ends a file. -/
  | terminator
      (start : context.Between)
      (last : event.IsTerminator)
      (position : context.PositionOk event) :
      Step context event false (context.finished.resetPosition.withState .rotateArtificialExpected)

section
variable {context context' : ReaderContext} {event : EventView} {infoOnly : Bool} {outcome : Outcome}

theorem validatePosition_eq_ok {u : Unit} : context.validatePosition event = .ok u ↔ context.PositionOk event := by
  simp [validatePosition,PositionOk]

theorem validatePositionAndAdvance_eq_ok :
    context.validatePositionAndAdvance event = .ok context' ↔
      context.PositionOk event ∧ context.withPosition event.getNextEventPositionRaw = context' := by
  simp only [validatePositionAndAdvance, bind_eq_ok, validatePosition_eq_ok, pure_eq_ok, exists_const]

theorem finishTransaction_eq_ok :
    context.finishTransaction = .ok context' ↔
      context.currentTransactionLength = context.expectedTransactionLength ∧ context.finished = context' := by
  simp only [finishTransaction, bind_eq_ok, raiseIf_eq_ok, pure_eq_ok, exists_const, ne_eq, not_not]

theorem updateTransaction_eq_ok :
    context.updateTransaction event = .ok context' ↔
      (context.currentTransactionLength + event.getEventSizeRaw) % 2 ^ 32 ≤ context.expectedTransactionLength ∧
        context.withCurrentLength ((context.currentTransactionLength + event.getEventSizeRaw) % 2 ^ 32) = context' := by
  simp only [updateTransaction, bind_eq_ok, raiseIf_eq_ok, pure_eq_ok, exists_const, gt_iff_lt, not_lt]

theorem advancePreamble_ok (accepted : context.advancePreamble event = .ok context') :
    (context.expectInfoOnlyPreambleEvents = false → context.PositionOk event) ∧
      context' = context.withPosition (context.preamblePosition event) := by
  unfold advancePreamble at accepted
  unfold preamblePosition
  cases info : context.expectInfoOnlyPreambleEvents with
  | true =>
    rw [if_pos info, pure_eq_ok] at accepted
    subst accepted
    simp [withPosition]
  | false =>
    rw [if_neg (by simp [info]), validatePositionAndAdvance_eq_ok] at accepted
    exact ⟨fun _ => accepted.1,by simp [accepted.2]⟩

theorem checkArtificialRotate_ok {u : Unit} (accepted : context.checkArtificialRotate event = .ok u) :
    event.IsArtificialRotate ∧ RotatePostHeader.make event.getPostHeaderRaw = .ok (context.rotatePosition event) := by
  simp only [checkArtificialRotate, bind_eq_ok, raiseIf_eq_ok, not_not, ne_eq, exists_const] at accepted
  obtain ⟨⟨code,artificial⟩,timestamp,next,position,made,check⟩ := accepted
  refine ⟨⟨code,artificial,timestamp,next⟩,?_⟩
  rw [made]
  unfold rotatePosition
  split at check
  · rename_i mode
    split at check
    · rename_i same
      rw [if_pos ⟨mode,same⟩, not_not.mp (raiseIf_eq_ok.mp check)]
    · rename_i differ
      rw [if_neg (fun both => differ both.2), not_not.mp (raiseIf_eq_ok.mp check)]
  · rename_i mode
    rw [if_neg (fun both => mode both.1), not_not.mp (raiseIf_eq_ok.mp check)]

theorem readFormatDescription_ok {layout : Layout} (accepted : context.readFormatDescription event = .ok layout) :
    event.getTypeCode = .formatDescription ∧ event.isArtificial = false := by
  simp only [readFormatDescription, bind_eq_ok, raiseIf_eq_ok, not_not, ne_eq, exists_const] at accepted
  exact ⟨accepted.1,by simpa using accepted.2.1⟩

/-- A transaction is started by one of the three GTID events, and by what that event says about it. -/
theorem startTransaction_ok (accepted : context.startTransaction event = .ok context')
    (code : event.getTypeCode.isGtid = true) (empty : context.transactionGtid = .empty) :
    ∃ gtid sequenceNumber length, event.transactionInfo = .ok (gtid,sequenceNumber,length) ∧
      (event.getTypeCode ≠ .anonymousGtidLog → ¬ gtid.isEmpty) ∧ length < 2 ^ 32 ∧
      context' = (context.withTransaction gtid sequenceNumber length).withCurrentLength event.getEventSizeRaw := by
  unfold startTransaction at accepted
  split at accepted
  · rename_i anonymous
    simp only [bind_eq_ok, raiseIf_eq_ok, pure_eq_ok, exists_const, ge_iff_le, not_le] at accepted
    obtain ⟨postHeader,header,gtid,-,-,body,made,short,-,rfl,rfl⟩ := accepted
    refine ⟨.empty,postHeader.sequenceNumber,body.transactionLength,?_,fun other => absurd anonymous other,short,?_⟩
    · rw [EventView.transactionInfo, anonymous]
      simp only [bind_eq_ok, pure_eq_ok]
      exact ⟨postHeader,header,body,made,rfl⟩
    · rw [empty]
  · rename_i named
    simp only [bind_eq_ok, raiseIf_eq_ok, pure_eq_ok, exists_const, ge_iff_le, not_le] at accepted
    obtain ⟨postHeader,header,gtid,got,nonempty,body,made,short,-,rfl,rfl⟩ := accepted
    refine ⟨gtid,postHeader.sequenceNumber,body.transactionLength,?_,fun _ => nonempty,short,rfl⟩
    rw [EventView.transactionInfo, named]
    simp only [bind_eq_ok, pure_eq_ok]
    exact ⟨postHeader,header,gtid,got,body,made,rfl⟩
  · rename_i tagged
    simp only [bind_eq_ok, raiseIf_eq_ok, pure_eq_ok, exists_const, ge_iff_le, not_le] at accepted
    obtain ⟨body,made,gtid,got,nonempty,short,-,rfl,rfl⟩ := accepted
    refine ⟨gtid,body.sequenceNumber,body.transactionLength,?_,fun _ => nonempty,short,rfl⟩
    rw [EventView.transactionInfo, tagged]
    simp only [bind_eq_ok, pure_eq_ok]
    exact ⟨body,made,gtid,got,rfl⟩
  · rename_i anonymous named tagged
    simp only [CodeType.isGtid, Bool.or_eq_true, decide_eq_true_eq] at code
    rcases code with (code | code) | code
    · exact absurd code anonymous
    · exact absurd code named
    · exact absurd code tagged

/-- The handler of the state for artificial ROTATEs. -/
theorem rotateArtificial_ok (accepted : context.processEventInRotateArtificialExpectedState event = .ok outcome) :
    event.IsArtificialRotate ∧ RotatePostHeader.make event.getPostHeaderRaw = .ok (context.rotatePosition event) ∧
      outcome = ⟨true,true,context.enterBinlog event.getBodyRaw⟩ := by
  simp only [processEventInRotateArtificialExpectedState, bind_eq_ok, pure_eq_ok] at accepted
  obtain ⟨_,checked,rfl⟩ := accepted
  obtain ⟨rotate,position⟩ := checkArtificialRotate_ok checked
  exact ⟨rotate,position,rfl⟩

/-- The handler of the state for the events that end a file. -/
theorem rotateOrStop_ok (accepted : context.processEventInRotateOrStopExpectedState event = .ok outcome) :
    event.IsTerminator ∧ context.PositionOk event ∧
      outcome = ⟨true,false,context.resetPosition.withState .rotateArtificialExpected⟩ := by
  unfold processEventInRotateOrStopExpectedState at accepted
  simp only [bind_eq_ok, raiseIf_eq_ok, exists_const] at accepted
  obtain ⟨code,plain,accepted⟩ := accepted
  have code : event.getTypeCode = .rotate ∨ event.getTypeCode = .stop := by tauto
  have plain : event.isArtificial = false := by simpa using plain
  split at accepted
  · simp only [bind_eq_ok, raiseIf_eq_ok, pure_eq_ok, exists_const, validatePosition_eq_ok, ne_eq, not_not] at accepted
    obtain ⟨position,made,rfl,ok,rfl⟩ := accepted
    exact ⟨⟨code,plain,fun _ => made⟩,ok,rfl⟩
  · rename_i other
    simp only [bind_eq_ok, pure_eq_ok, exists_const, validatePosition_eq_ok] at accepted
    obtain ⟨ok,rfl⟩ := accepted
    exact ⟨⟨code,plain,fun same => absurd same other⟩,ok,rfl⟩

theorem leaveTransactions_ok (accepted : context.leaveTransactions event infoOnly = .ok outcome) :
    context.currentTransactionLength = context.expectedTransactionLength ∧
      outcome = ⟨false,infoOnly,if event.getTypeCode = .rotate ∧ event.isArtificial = true then
          context.finished.resetPosition.withState .rotateArtificialExpected
        else context.finished.withState .rotateOrStopExpected⟩ := by
  simp only [leaveTransactions, bind_eq_ok, finishTransaction_eq_ok] at accepted
  obtain ⟨-,⟨total,rfl⟩,accepted⟩ := accepted
  refine ⟨total,?_⟩
  split at accepted
  · rename_i artificial
    rw [pure_eq_ok] at accepted
    rw [← accepted, if_pos artificial]
  · rename_i other
    rw [pure_eq_ok] at accepted
    rw [← accepted, if_neg other]

/-- The handler of the state in which a transaction starts, for the events it does not send on. -/
theorem gtidLog_ok (accepted : context.processEventInGtidLogExpectedState event infoOnly = .ok outcome)
    (stays : ¬ (event.getTypeCode = .rotate ∨ event.getTypeCode = .stop)) (empty : context.transactionGtid = .empty) :
    ∃ gtid sequenceNumber length, event.getTypeCode.isGtid = true ∧
      (context.replicationMode = .gtid → event.getTypeCode ≠ .anonymousGtidLog) ∧
      event.transactionInfo = .ok (gtid,sequenceNumber,length) ∧
      (event.getTypeCode ≠ .anonymousGtidLog → ¬ gtid.isEmpty) ∧ length < 2 ^ 32 ∧ context.PositionOk event ∧
      outcome = ⟨true,false,(((context.withTransaction gtid sequenceNumber length).withCurrentLength
        event.getEventSizeRaw).withPosition event.getNextEventPositionRaw).withState .anyOtherExpected⟩ := by
  unfold processEventInGtidLogExpectedState at accepted
  simp only [if_neg stays, bind_eq_ok, raiseIf_eq_ok, pure_eq_ok, exists_const,
    validatePositionAndAdvance_eq_ok] at accepted
  obtain ⟨code,known,started,start,-,⟨ok,rfl⟩,rfl⟩ := accepted
  have code : event.getTypeCode.isGtid = true := by
    simp only [CodeType.isGtid, Bool.or_eq_true, decide_eq_true_eq]
    tauto
  obtain ⟨gtid,sequenceNumber,length,info,named,short,rfl⟩ := startTransaction_ok start code empty
  exact ⟨gtid,sequenceNumber,length,code,fun mode anonymous => known ⟨mode,anonymous⟩,info,named,short,ok,rfl⟩

/-- The handler of the state inside a transaction, for the events it does not send on. -/
theorem anyOther_ok (accepted : context.processEventInAnyOtherExpectedState event infoOnly = .ok outcome)
    (notGtid : event.getTypeCode.isGtid = false)
    (stays : ¬ (event.getTypeCode = .rotate ∨ event.getTypeCode = .stop)) :
    event.IsOther ∧
      (context.currentTransactionLength + event.getEventSizeRaw) % 2 ^ 32 ≤ context.expectedTransactionLength ∧
      context.PositionOk event ∧
      outcome = ⟨true,false,(context.withCurrentLength ((context.currentTransactionLength +
        event.getEventSizeRaw) % 2 ^ 32)).withPosition event.getNextEventPositionRaw⟩ := by
  have later : ¬ (event.getTypeCode = .anonymousGtidLog ∨ event.getTypeCode = .gtidLog ∨
      event.getTypeCode = .gtidTaggedLog) := by
    simp only [CodeType.isGtid, Bool.or_eq_false_iff, decide_eq_false_iff_not] at notGtid
    tauto
  unfold processEventInAnyOtherExpectedState at accepted
  simp only [if_neg later, if_neg stays, bind_eq_ok, raiseIf_eq_ok, pure_eq_ok, exists_const,
    validatePositionAndAdvance_eq_ok, updateTransaction_eq_ok] at accepted
  obtain ⟨description,previous,plain,-,⟨within,rfl⟩,-,⟨ok,rfl⟩,rfl⟩ := accepted
  refine ⟨⟨notGtid,fun rotate => stays (.inl rotate),fun stop => stays (.inr stop),description,previous,?_⟩,
    within,ok,rfl⟩
  simpa using plain

/-- One round of the loop: either the event is processed, or it is sent on to the state that expects it. -/
theorem dispatch_sent (sent : context.dispatch event infoOnly = .ok outcome) (unprocessed : outcome.processed = false) :
    outcome.infoOnly = infoOnly ∧
      (context.state = .anyOtherExpected ∧ event.getTypeCode.isGtid = true ∧
          context.currentTransactionLength = context.expectedTransactionLength ∧
          outcome.context = context.finished.withState .gtidLogExpected ∨
        (context.state = .gtidLogExpected ∨ context.state = .anyOtherExpected) ∧
          context.currentTransactionLength = context.expectedTransactionLength ∧
          (event.getTypeCode = .rotate ∨ event.getTypeCode = .stop) ∧
          outcome.context = if event.getTypeCode = .rotate ∧ event.isArtificial = true then
              context.finished.resetPosition.withState .rotateArtificialExpected
            else context.finished.withState .rotateOrStopExpected) := by
  unfold dispatch at sent
  cases state : context.state with
  | rotateArtificialExpected =>
    simp only [state] at sent
    simp [(rotateArtificial_ok sent).2.2] at unprocessed
  | formatDescriptionExpected =>
    simp only [state, processEventInFormatDescriptionExpectedState, bind_eq_ok, pure_eq_ok] at sent
    obtain ⟨_,_,_,_,_,_,rfl⟩ := sent
    cases unprocessed
  | previousGtidsExpected =>
    simp only [state, processEventInPreviousGtidsExpectedState, bind_eq_ok, pure_eq_ok] at sent
    obtain ⟨_,_,_,_,_,_,rfl⟩ := sent
    cases unprocessed
  | gtidLogExpected =>
    simp only [state] at sent
    unfold processEventInGtidLogExpectedState at sent
    by_cases leaves : event.getTypeCode = .rotate ∨ event.getTypeCode = .stop
    · simp only [if_pos leaves] at sent
      obtain ⟨total,rfl⟩ := leaveTransactions_ok sent
      exact ⟨rfl,.inr ⟨.inl rfl,total,leaves,rfl⟩⟩
    · simp only [if_neg leaves, bind_eq_ok, pure_eq_ok] at sent
      obtain ⟨_,_,_,_,_,_,_,_,rfl⟩ := sent
      cases unprocessed
  | anyOtherExpected =>
    simp only [state] at sent
    unfold processEventInAnyOtherExpectedState at sent
    by_cases starts : event.getTypeCode = .anonymousGtidLog ∨ event.getTypeCode = .gtidLog ∨
        event.getTypeCode = .gtidTaggedLog
    · simp only [if_pos starts, bind_eq_ok, finishTransaction_eq_ok, pure_eq_ok] at sent
      obtain ⟨-,⟨total,rfl⟩,rfl⟩ := sent
      refine ⟨rfl,.inl ⟨rfl,?_,total,rfl⟩⟩
      simp only [CodeType.isGtid, Bool.or_eq_true, decide_eq_true_eq]
      tauto
    · by_cases leaves : event.getTypeCode = .rotate ∨ event.getTypeCode = .stop
      · simp only [if_neg starts, if_pos leaves] at sent
        obtain ⟨total,rfl⟩ := leaveTransactions_ok sent
        exact ⟨rfl,.inr ⟨.inr rfl,total,leaves,rfl⟩⟩
      · simp only [if_neg starts, if_neg leaves, bind_eq_ok, pure_eq_ok] at sent
        obtain ⟨_,_,_,_,_,_,_,_,_,_,rfl⟩ := sent
        cases unprocessed
  | rotateOrStopExpected =>
    simp only [state] at sent
    simp [(rotateOrStop_ok sent).2.2] at unprocessed

theorem isGtid_not_last (code : event.getTypeCode.isGtid = true) :
    ¬ (event.getTypeCode = .rotate ∨ event.getTypeCode = .stop) := by
  rintro (same | same) <;> simp [same,CodeType.isGtid] at code

/-- An event that has been sent on is processed in the next round. -/
theorem dispatch_processed (sent : context.dispatch event infoOnly = .ok outcome)
    (unprocessed : outcome.processed = false) {flag : Bool} {next : Outcome}
    (again : outcome.context.dispatch event flag = .ok next) : next.processed = true := by
  by_contra unfinished
  have unfinished : next.processed = false := by simpa using unfinished
  obtain ⟨-,second⟩ := dispatch_sent again unfinished
  rcases (dispatch_sent sent unprocessed).2 with ⟨-,code,-,reached⟩ | ⟨-,-,-,reached⟩
  · rw [reached] at second
    rcases second with ⟨state,-⟩ | ⟨-,-,leaves,-⟩
    · cases state
    · exact isGtid_not_last code leaves
  · rw [reached] at second
    split at second
    all_goals
      rcases second with ⟨state,-⟩ | ⟨state | state,-⟩
      all_goals cases state

/-- The loop never needs a third round, from any context and for any event. -/
theorem processLoop_two (context : ReaderContext) (event : EventView) (infoOnly : Bool) (rounds : Nat) :
    processLoop (rounds + 2) context event infoOnly = processLoop 2 context event infoOnly ∧
      processLoop 2 context event infoOnly ≠ .ok none := by
  simp only [processLoop]
  cases first : context.dispatch event infoOnly with
  | error failure => exact ⟨rfl,by rintro ⟨⟩⟩
  | ok outcome =>
    cases done : outcome.processed with
    | true => simp [done,bind,Except.bind,pure,Except.pure]
    | false =>
      cases second : outcome.context.dispatch event outcome.infoOnly with
      | error failure => simp [done,second,bind,Except.bind]
      | ok next =>
        have finished := dispatch_processed first done second
        simp [done,second,finished,bind,Except.bind,pure,Except.pure]

/-- A round that processes the event, in a state that is not the one for the end of a file. -/
theorem dispatch_step (settled : context.Settled) (accepted : context.dispatch event infoOnly = .ok outcome)
    (processed : outcome.processed = true) : Step context event outcome.infoOnly outcome.context := by
  unfold dispatch at accepted
  cases state : context.state with
  | rotateArtificialExpected =>
    simp only [state] at accepted
    obtain ⟨rotate,position,rfl⟩ := rotateArtificial_ok accepted
    have same : context.left = context := by simp [left,state]
    have step := Step.artificialRotate (.inl state) rotate (same.symm ▸ position)
    rwa [same] at step
  | formatDescriptionExpected =>
    simp only [state, processEventInFormatDescriptionExpectedState, bind_eq_ok, pure_eq_ok] at accepted
    obtain ⟨layout,learned,_,_,_,advanced,rfl⟩ := accepted
    obtain ⟨position,rfl⟩ := advancePreamble_ok advanced
    obtain ⟨code,plain⟩ := readFormatDescription_ok learned
    exact Step.formatDescription layout state code plain learned position
  | previousGtidsExpected =>
    simp only [state, processEventInPreviousGtidsExpectedState, bind_eq_ok, pure_eq_ok, raiseIf_eq_ok,
      exists_const] at accepted
    obtain ⟨code,plain,_,advanced,rfl⟩ := accepted
    obtain ⟨position,rfl⟩ := advancePreamble_ok advanced
    exact Step.previousGtids state (not_not.mp code) (by simpa using plain) position
  | gtidLogExpected =>
    simp only [state] at accepted
    have stays : ¬ (event.getTypeCode = .rotate ∨ event.getTypeCode = .stop) := by
      intro leaves
      simp only [processEventInGtidLogExpectedState, if_pos leaves] at accepted
      rw [(leaveTransactions_ok accepted).2] at processed
      cases processed
    obtain ⟨gtid,sequenceNumber,length,code,known,info,named,short,position,rfl⟩ :=
      gtidLog_ok accepted stays (settled.idle (by simp [state])).gtid
    exact Step.gtid gtid sequenceNumber length (.inl state) code known info named short position
  | anyOtherExpected =>
    simp only [state] at accepted
    have notGtid : event.getTypeCode.isGtid = false := by
      by_contra code
      have starts : event.getTypeCode = .anonymousGtidLog ∨ event.getTypeCode = .gtidLog ∨
          event.getTypeCode = .gtidTaggedLog := by
        simp only [CodeType.isGtid, Bool.or_eq_false_iff, decide_eq_false_iff_not] at code
        tauto
      simp only [processEventInAnyOtherExpectedState, if_pos starts, bind_eq_ok, pure_eq_ok] at accepted
      obtain ⟨_,_,rfl⟩ := accepted
      cases processed
    have stays : ¬ (event.getTypeCode = .rotate ∨ event.getTypeCode = .stop) := by
      intro leaves
      have later : ¬ (event.getTypeCode = .anonymousGtidLog ∨ event.getTypeCode = .gtidLog ∨
          event.getTypeCode = .gtidTaggedLog) := by
        simp only [CodeType.isGtid, Bool.or_eq_false_iff, decide_eq_false_iff_not] at notGtid
        tauto
      simp only [processEventInAnyOtherExpectedState, if_neg later, if_pos leaves] at accepted
      rw [(leaveTransactions_ok accepted).2] at processed
      cases processed
    obtain ⟨plain,within,position,rfl⟩ := anyOther_ok accepted notGtid stays
    exact Step.other state plain within position
  | rotateOrStopExpected => exact absurd state settled.state

/-- Whatever `process_event_view` accepts is a step. -/
theorem processEventView_step (settled : context.Settled)
    (accepted : context.processEventView event = .ok (infoOnly,context')) : Step context event infoOnly context' := by
  unfold processEventView at accepted
  simp only [bind_eq_ok] at accepted
  obtain ⟨result,loop,accepted⟩ := accepted
  cases result with
  | none => exact absurd accepted throw_ne_ok
  | some result =>
    rw [pure_eq_ok] at accepted
    subst accepted
    simp only [processLoop, bind_eq_ok] at loop
    obtain ⟨outcome,first,loop⟩ := loop
    cases processed : outcome.processed with
    | true =>
      simp only [processed, if_true, pure_eq_ok, Option.some.injEq, Prod.mk.injEq] at loop
      obtain ⟨rfl,rfl⟩ := loop
      exact dispatch_step settled first processed
    | false =>
      simp only [processed, Bool.false_eq_true, if_false, bind_eq_ok] at loop
      obtain ⟨next,second,loop⟩ := loop
      simp only [dispatch_processed first processed second, if_true, pure_eq_ok, Option.some.injEq,
        Prod.mk.injEq] at loop
      obtain ⟨rfl,rfl⟩ := loop
      rcases (dispatch_sent first processed).2 with ⟨state,code,total,reached⟩ | ⟨state,total,leaves,reached⟩
      · rw [reached] at second
        obtain ⟨gtid,sequenceNumber,length,-,known,info,named,short,position,rfl⟩ :=
          gtidLog_ok second (isGtid_not_last code) rfl
        exact Step.gtid gtid sequenceNumber length (.inr ⟨state,total⟩) code known info named short position
      · have between : context.Between := state.imp_right fun inside => ⟨inside,total⟩
        by_cases artificial : event.getTypeCode = .rotate ∧ event.isArtificial = true
        · rw [reached, if_pos artificial] at second
          obtain ⟨rotate,position,rfl⟩ := rotateArtificial_ok second
          have out : context.left = context.finished.resetPosition.withState .rotateArtificialExpected := by
            rcases state with state | state <;> simp [left,state]
          have step := Step.artificialRotate (.inr between) rotate (out.symm ▸ position)
          rwa [out] at step
        · rw [reached, if_neg artificial] at second
          obtain ⟨last,position,rfl⟩ := rotateOrStop_ok second
          exact Step.terminator between last position

theorem make_settled (version : Nat) (verify : Bool) (mode : ReplicationMode) (name : Bytes) (position : Nat) :
    (make version verify mode name position).Settled :=
  ⟨fun _ => ⟨rfl,rfl,rfl,rfl⟩,by rintro ⟨⟩⟩

/-- The context is settled again after every event. -/
theorem Step.settled (settled : context.Settled) (step : Step context event infoOnly context') : context'.Settled := by
  have calm : context.left.Idle := by
    unfold left
    split
    · rename_i state
      exact settled.idle (by simp [state])
    · exact ⟨rfl,rfl,rfl,rfl⟩
  cases step with
  | artificialRotate start rotate position =>
    exact ⟨fun _ => ⟨by simp [calm.gtid],by simp [calm.sequenceNumber],by simp [calm.expected],by simp [calm.current]⟩,
      by simp⟩
  | formatDescription layout start code plain learned position =>
    have idle := settled.idle (by simp [start])
    refine ⟨fun _ => ⟨idle.gtid,idle.sequenceNumber,idle.expected,idle.current⟩,?_⟩
    simp only [withState_state, describedState]
    split <;> simp
  | previousGtids start code plain position =>
    have idle := settled.idle (by simp [start])
    exact ⟨fun _ => ⟨idle.gtid,idle.sequenceNumber,idle.expected,idle.current⟩,by simp⟩
  | gtid gtid sequenceNumber length start code known info named short position =>
    exact ⟨fun inside => absurd rfl inside,by simp⟩
  | other start plain within position =>
    exact ⟨fun inside => absurd start inside,by simp [start]⟩
  | terminator start last position => exact ⟨fun _ => ⟨rfl,rfl,rfl,rfl⟩,by simp⟩

end

end ReaderContext
end BinlogServer.Events
