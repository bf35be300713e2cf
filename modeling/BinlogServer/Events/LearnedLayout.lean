import BinlogServer.Events.ReaderSteps
import BinlogServer.Events.Rewritten
import BinlogServer.Events.RoundTrip

/-!
# What the reader learns from a FORMAT_DESCRIPTION

A FORMAT_DESCRIPTION says how long the post headers of the events after it are, and whether there are footers. The table of
lengths is accepted if it agrees with what is known, so some lengths are known in every state of the reader.
-/

namespace BinlogServer.Events
open ByteString Util Gtids

theorem mismatch_eq_none {runtime known : Bytes} (same : mismatch runtime known = none) {i : Nat} {expected : UInt8}
    (there : known[i]? = some expected) (specified : expected ≠ encodedUnspecified) (inside : i < runtime.length) :
    runtime[i]? = some expected := by
  induction runtime generalizing known i with
  | nil => simp at inside
  | cons real runtime ih =>
    cases known with
    | nil => simp at there
    | cons first known =>
      simp only [mismatch] at same
      split at same
      · rename_i fine
        cases i with
        | zero =>
          simp only [List.getElem?_cons_zero, Option.some.injEq] at there ⊢
          subst there
          exact fine.resolve_left specified
        | succ i =>
          simp only [List.getElem?_cons_succ] at there ⊢
          exact ih (by simpa using same) there (by simpa using inside)
      · cases same

/-- A table of lengths that has been accepted has nothing for an event that is known to have no post header. -/
theorem validated_length {version i : Nat} {lengths : Bytes} {code : CodeType}
    (validated : validatePostHeaderLengths version lengths (getKnownPostHeaderLengths version) = .ok ())
    (index : code.toIndex = i + 1) (counted : i + 1 < getNumberOfEvents version)
    (known : (getKnownPostHeaderLengths version)[i]? = some 0) : getPostHeaderLengthForCode version lengths code = 0 := by
  have same : mismatch (lengths.take (getNumberOfEvents version))
      ((getKnownPostHeaderLengths version).take (getNumberOfEvents version)) = none := by
    simp only [validatePostHeaderLengths] at validated
    split at validated
    · assumption
    · cases validated
  have zero : lengths.getD i 0 = 0 := by
    by_cases inside : i < lengths.length
    · have there : ((getKnownPostHeaderLengths version).take (getNumberOfEvents version))[i]? = some 0 := by
        rw [List.getElem?_take_of_lt (by omega), known]
      have found := mismatch_eq_none same there (by decide) (by rw [List.length_take]; omega)
      rw [List.getElem?_take_of_lt (by omega)] at found
      rw [List.getD_eq_getElem?_getD, found]
      rfl
    · exact List.getD_eq_default _ _ (by omega)
  simp only [getPostHeaderLengthForCode, index]
  rw [if_neg (by omega), Nat.add_sub_cancel, zero]
  rfl

theorem previousGtids_length {version : Nat} {lengths : Bytes}
    (validated : validatePostHeaderLengths version lengths (getKnownPostHeaderLengths version) = .ok ()) :
    getPostHeaderLengthForCode version lengths .previousGtidsLog = 0 := by
  refine validated_length validated (i := 34) (by decide) ?_ ?_
  · unfold getNumberOfEvents
    split <;> omega
  · unfold getKnownPostHeaderLengths
    split <;> rfl

/-- A tagged GTID has no post header, if the version has such an event. -/
theorem tagged_length {version : Nat} {lengths : Bytes}
    (validated : validatePostHeaderLengths version lengths (getKnownPostHeaderLengths version) = .ok ()) :
    getPostHeaderLengthForCode version lengths .gtidTaggedLog = 0 ∨
      getPostHeaderLengthForCode version lengths .gtidTaggedLog = unspecifiedPostHeaderLength := by
  have index : CodeType.toIndex .gtidTaggedLog = 42 := by decide
  by_cases old : version < latestKnownProtocolServerVersion
  · have count : getNumberOfEvents version = 42 := if_pos old
    right
    simp only [getPostHeaderLengthForCode, index, count]
    exact if_pos (.inr le_rfl)
  · have count : getNumberOfEvents version = 43 := if_neg old
    left
    refine validated_length validated (i := 41) index (by omega) ?_
    rw [getKnownPostHeaderLengths, if_neg old]
    rfl

theorem EventView.make_postHeaderSize {context : ReaderContext} {portion : Bytes} {event : EventView}
    (made : make context portion = .ok event) : postHeaderSizeFor context portion = .ok event.postHeaderSize := by
  simp only [make, bind_eq_ok, raiseIf_eq_ok, exists_const, pure_eq_ok] at made
  obtain ⟨-,-,-,-,_,sized,_,-,rfl⟩ := made
  exact sized

namespace ReaderContext
variable {context context' : ReaderContext} {event : EventView} {infoOnly : Bool}

/-- The mode stays, and only a FORMAT_DESCRIPTION says anything about footers. -/
theorem Step.settings (step : Step context event infoOnly context') :
    context'.replicationMode = context.replicationMode ∧
      (event.getTypeCode ≠ .formatDescription → context'.footerExpected = context.footerExpected) := by
  have left : context.left.replicationMode = context.replicationMode ∧
      context.left.footerExpected = context.footerExpected := by
    unfold ReaderContext.left
    split <;> exact ⟨rfl,rfl⟩
  cases step with
  | artificialRotate start rotate => simp [left]
  | formatDescription layout start code => exact ⟨rfl,fun other => absurd code other⟩
  | previousGtids => exact ⟨rfl,fun _ => rfl⟩
  | gtid => exact ⟨rfl,fun _ => rfl⟩
  | other => exact ⟨rfl,fun _ => rfl⟩
  | terminator => exact ⟨rfl,fun _ => rfl⟩

/-- An event of a preamble ends no transaction. -/
theorem Step.preamble_quiet (step : Step context event infoOnly context') (settled : context.Settled)
    (mode : context.replicationMode = .gtid)
    (preamble : event.getTypeCode = .formatDescription ∨ event.getTypeCode = .previousGtidsLog) :
    context'.isAtTransactionBoundary = false ∧ context'.transactionGtid = .empty ∧
      (event.getTypeCode = .previousGtidsLog → context'.state = .gtidLogExpected) := by
  cases step with
  | artificialRotate start rotate => rcases preamble with code | code <;> cases code.symm.trans rotate.code
  | formatDescription layout start code =>
    refine ⟨?_,(settled.idle (by simp [start])).gtid,fun other => by cases code.symm.trans other⟩
    simp [isAtTransactionBoundary,describedState,mode]
  | previousGtids start code =>
    exact ⟨by simp [isAtTransactionBoundary],(settled.idle (by simp [start])).gtid,fun _ => rfl⟩
  | gtid _ _ _ start code => rcases preamble with same | same <;> simp [same,CodeType.isGtid] at code
  | other start plain =>
    rcases preamble with code | code
    · exact absurd code plain.2.2.2.1
    · exact absurd code plain.2.2.2.2.1
  | terminator start last =>
    rcases preamble with code | code <;> rcases last.code with same | same <;> cases code.symm.trans same

/-- What the reader learns from a FORMAT_DESCRIPTION that was generated. -/
theorem Step.learned {offset timestamp serverId : Nat} {postHeader : Bytes} (step : Step context event infoOnly context')
    (view : EventView.make context event.portion = .ok event)
    (created : createEvent .formatDescription offset timestamp serverId 0 postHeader (FormatDescriptionBody.encode .crc32)
      true = .ok event.portion) :
    context'.footerExpected = true ∧ context'.getCurrentPostHeaderLength .previousGtidsLog = 0 := by
  have code : event.getTypeCode = .formatDescription := (createEvent_header (by decide) created).2
  cases step with
  | artificialRotate start rotate => cases code.symm.trans rotate.code
  | previousGtids start other => cases code.symm.trans other
  | gtid _ _ _ start first => simp [code,CodeType.isGtid] at first
  | other start plain => exact absurd code plain.2.2.2.1
  | terminator start last => rcases last.code with same | same <;> cases code.symm.trans same
  | formatDescription layout start code plain learned position =>
    simp only [readFormatDescription, bind_eq_ok, raiseIf_eq_ok, exists_const, pure_eq_ok] at learned
    obtain ⟨-,-,_,-,-,-,version,-,-,_,validated,algorithm,body,rfl⟩ := learned
    have footer : event.footerSize = defaultFooterLength := by
      rw [EventView.make_footerSize view]
      exact if_pos code
    have size : event.postHeaderSize = postHeader.length := by
      have length := (createEvent_ok created).2.1
      have sized := EventView.make_postHeaderSize view
      have typed : CommonHeader.getTypeCode event.portion = .formatDescription := code
      have one : (FormatDescriptionBody.encode .crc32).length = 1 := rfl
      simp only [EventView.postHeaderSizeFor, typed, if_true, EventView.footerSizeFor, bind_eq_ok, raiseIf_eq_ok,
        exists_const, pure_eq_ok] at sized
      rw [one, if_pos rfl] at length
      omega
    obtain ⟨-,bodyRaw,-⟩ := EventView.parts_created created size (by simpa using footer)
    have crc : algorithm = .crc32 := by
      rw [bodyRaw] at body
      exact (Except.ok.inj body).symm
    refine ⟨?_,previousGtids_length validated⟩
    simp [crc]

/-- A tagged GTID has no post header as far as the reader knows. -/
def KnowsTagged (context : ReaderContext) : Prop :=
  context.getCurrentPostHeaderLength .gtidTaggedLog = 0 ∨
    context.getCurrentPostHeaderLength .gtidTaggedLog = unspecifiedPostHeaderLength

theorem knowsTagged_make (version : Nat) (verify : Bool) (mode : ReplicationMode) (name : Bytes) (position : Nat) :
    (make version verify mode name position).KnowsTagged := by
  have validated : validatePostHeaderLengths version (getKnownPostHeaderLengths version)
      (getKnownPostHeaderLengths version) = .ok () := by
    unfold validatePostHeaderLengths getKnownPostHeaderLengths getNumberOfEvents
    split <;> rfl
  exact tagged_length validated

theorem Step.knowsTagged (step : Step context event infoOnly context') (knows : context.KnowsTagged) :
    context'.KnowsTagged := by
  have left : context.left.getCurrentPostHeaderLength = context.getCurrentPostHeaderLength := by
    unfold ReaderContext.left
    split <;> rfl
  cases step with
  | artificialRotate start rotate =>
    have same : (context.left.enterBinlog event.getBodyRaw).getCurrentPostHeaderLength =
        context.left.getCurrentPostHeaderLength := by
      funext code
      simp only [getCurrentPostHeaderLength, enterBinlog_currentEncodedServerVersion, enterBinlog_postHeaderLengths]
    rw [KnowsTagged, same, left]
    exact knows
  | formatDescription layout start code plain learned position =>
    simp only [readFormatDescription, bind_eq_ok, raiseIf_eq_ok, exists_const, pure_eq_ok] at learned
    obtain ⟨-,-,_,-,-,-,version,-,-,_,validated,algorithm,body,rfl⟩ := learned
    exact tagged_length validated
  | previousGtids => exact knows
  | gtid => exact knows
  | other => exact knows
  | terminator => exact knows

/-- The view of a tagged GTID. -/
theorem KnowsTagged.postHeaderSize {portion : Bytes} (knows : context.KnowsTagged)
    (made : EventView.make context portion = .ok event) (code : event.getTypeCode = .gtidTaggedLog) :
    event.postHeaderSize = 0 := by
  have sized := EventView.make_postHeaderSize made
  have typed : CommonHeader.getTypeCode portion = .gtidTaggedLog := by
    rw [← code, EventView.getTypeCode, (EventView.make_sound made).2]
  simp only [EventView.postHeaderSizeFor, typed, reduceCtorEq, if_false, bind_eq_ok, raiseIf_eq_ok, exists_const,
    pure_eq_ok] at sized
  rcases knows with zero | unspecified
  · rw [← sized.2.2, zero]
  · exact absurd unspecified sized.1

end ReaderContext
end BinlogServer.Events

