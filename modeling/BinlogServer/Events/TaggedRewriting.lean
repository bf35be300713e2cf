import BinlogServer.Events.Materialization
import BinlogServer.Events.RoundTrip
import BinlogServer.Lib.Iteration

/-!
# Rewriting tagged GTID events

The length of the transaction is a part of its first event, and includes the size of that event. The size of the event
depends on the length only by the number of bytes that the length takes, and grows with it, so the loop that looks for
the size comes to rest; for lengths of 32 bits there are five widths, and five rounds are enough.
-/

namespace BinlogServer.Events
open ByteString Util Iteration

namespace GtidTaggedLogBody
variable {body other : GtidTaggedLogBody}

theorem Bounded.withTransactionLength (bounded : body.Bounded) {transactionLength : Nat}
    (fits : transactionLength < 2 ^ 64) : ({ body with transactionLength } : GtidTaggedLogBody).Bounded :=
  { bounded with transactionLength := fits }

/-- The length of the transaction counts with its width. -/
theorem encodedTail_withTransactionLength (body : GtidTaggedLogBody) (transactionLength : Nat) :
    ({ body with transactionLength } : GtidTaggedLogBody).encodedTail + calculateVarlenIntSize body.transactionLength =
      body.encodedTail + calculateVarlenIntSize transactionLength := by
  simp only [encodedTail, calculateTlvSectionSize]
  omega

theorem calculateEncodedSize_mono (shorter : body.encodedTail ≤ other.encodedTail) :
    body.calculateEncodedSize ≤ other.calculateEncodedSize := by
  have grows : Monotone fun width => calculateVarlenIntSize (body.encodedTail + width) := by
    intro width wider below
    exact calculateVarlenIntSize_mono (Nat.add_le_add_left below _)
  have below : (fun width => calculateVarlenIntSize (body.encodedTail + width)) ≤
      fun width => calculateVarlenIntSize (other.encodedTail + width) := by
    intro width
    exact calculateVarlenIntSize_mono (Nat.add_le_add_right shorter width)
  rw [calculateEncodedSize, calculateEncodedSize, stabilizeWidth_eq_iterate, stabilizeWidth_eq_iterate]
  exact Nat.add_le_add shorter (grows.iterate_le_of_le below 9 1)

theorem Bounded.calculateEncodedSize_lt (bounded : body.Bounded) : body.calculateEncodedSize < 2 ^ 10 := by
  have small := bounded.encodedTail_lt
  obtain ⟨width,fits⟩ := bounded.width_fixed
  have most := (calculateVarlenIntSize_bounds fits).2.1
  rw [calculateEncodedSize, ← width]
  omega

end GtidTaggedLogBody

namespace Rewriter
variable {body : GtidTaggedLogBody} {tail : Nat}

/-- The size of the event that follows from a size of the event. -/
def nextEventSize (body : GtidTaggedLogBody) (tail candidate : Nat) : Nat := (eventSizeCalculator body tail candidate).2

theorem stabilizeEventSize_eq_iterate (iterations candidate : Nat) :
    stabilizeEventSize body tail iterations candidate =
      eventSizeCalculator body tail ((nextEventSize body tail)^[iterations] candidate) := by
  induction iterations generalizing candidate with
  | zero => rfl
  | succ iterations ih =>
    simp only [stabilizeEventSize, Function.iterate_succ_apply, ih]
    by_cases differs : (eventSizeCalculator body tail candidate).2 ≠ candidate
    · rw [if_pos differs]
      rfl
    · have fixed : nextEventSize body tail candidate = candidate := not_not.mp differs
      rw [if_neg differs, fixed, Function.iterate_fixed fixed]

theorem eventSizeCalculator_eq {candidate : Nat} (fits : candidate + tail < 2 ^ 64) :
    eventSizeCalculator body tail candidate = ({ body with transactionLength := candidate + tail },
      defaultCommonHeaderLength +
        ({ body with transactionLength := candidate + tail } : GtidTaggedLogBody).calculateEncodedSize +
        defaultFooterLength) := by
  rw [eventSizeCalculator, Nat.mod_eq_of_lt fits]

/-- The next size depends on the width of the length, and grows with it. -/
theorem nextEventSize_levelled (bounded : body.Bounded) (short : tail < 2 ^ 32) :
    Levelled (nextEventSize body tail) (fun candidate => calculateVarlenIntSize (candidate + tail))
      (fun candidate => candidate + tail < 2 ^ 33) := by
  have size : ∀ candidate, candidate + tail < 2 ^ 33 → nextEventSize body tail candidate =
      defaultCommonHeaderLength +
        ({ body with transactionLength := candidate + tail } : GtidTaggedLogBody).calculateEncodedSize +
        defaultFooterLength := by
    intro candidate small
    rw [nextEventSize, eventSizeCalculator_eq (by omega)]
  refine ⟨?_,?_,?_⟩
  · intro candidate small
    have fits : candidate + tail < 2 ^ 64 := by omega
    have limit := (bounded.withTransactionLength fits).calculateEncodedSize_lt
    rw [size candidate small]
    unfold defaultCommonHeaderLength defaultFooterLength
    omega
  · intro candidate larger _ _ below
    exact calculateVarlenIntSize_mono (Nat.add_le_add_right below tail)
  · intro candidate larger small smallLarger narrower
    have first := body.encodedTail_withTransactionLength (candidate + tail)
    have second := body.encodedTail_withTransactionLength (larger + tail)
    rw [size candidate small, size larger smallLarger]
    have encoded := @GtidTaggedLogBody.calculateEncodedSize_mono { body with transactionLength := candidate + tail }
      { body with transactionLength := larger + tail } (by omega)
    omega

/-- Five rounds lead to a size that is its own consequence. -/
theorem nextEventSize_fixed (bounded : body.Bounded) (short : tail < 2 ^ 32) {candidate : Nat}
    (small : candidate + tail < 2 ^ 33) :
    nextEventSize body tail ((nextEventSize body tail)^[5] candidate) = (nextEventSize body tail)^[5] candidate := by
  have bounds : ∀ other, other + tail < 2 ^ 33 →
      1 ≤ calculateVarlenIntSize (other + tail) ∧ calculateVarlenIntSize (other + tail) ≤ 5 := by
    intro other below
    have narrow : calculateVarlenIntSize (2 ^ 33) = 5 := by decide
    exact ⟨(calculateVarlenIntSize_bounds (show other + tail < 2 ^ 64 by omega)).1,
      narrow ▸ calculateVarlenIntSize_mono below.le⟩
  have fixed := @Levelled.iterate_fixed _ _ _ _ _ _ (nextEventSize_levelled bounded short) 1 5 bounds small
  rwa [show 5 - 1 + 1 = 5 from rfl] at fixed

/-- The loop ends with the length that the size leads to. -/
theorem stabilizeEventSize_stable (bounded : body.Bounded) (short : tail < 2 ^ 32) {candidate : Nat}
    (small : candidate + tail < 2 ^ 33) :
    ∃ size < 2 ^ 11, (nextEventSize body tail)^[5] candidate = size ∧ nextEventSize body tail size = size ∧
      stabilizeEventSize body tail maxNumberOfIterations candidate =
        ({ body with transactionLength := size + tail },size) := by
  have resting := nextEventSize_fixed bounded short small
  set size := (nextEventSize body tail)^[5] candidate
  have limit : size < 2 ^ 11 := by
    have wrapped := bounded.withTransactionLength (Nat.mod_lt (size + tail) (show 0 < 2 ^ 64 by decide))
    have encoded := wrapped.calculateEncodedSize_lt
    rw [← resting, nextEventSize, eventSizeCalculator]
    unfold defaultCommonHeaderLength defaultFooterLength
    omega
  refine ⟨size,limit,rfl,resting,?_⟩
  have rounds : (nextEventSize body tail)^[4 + 5] candidate = size := by
    rw [Function.iterate_add_apply]
    exact Function.iterate_fixed resting 4
  rw [stabilizeEventSize_eq_iterate]
  refine (congrArg (eventSizeCalculator body tail) rounds).trans (Prod.ext ?_ resting)
  rw [eventSizeCalculator_eq (by omega)]

variable {event : EventView} {lastLocalSequenceNumber offset sequenceNumber lastCommitted size : Nat}
  {updated : GtidTaggedLogBody}

/-- The header of an event with its new size and end. -/
def relocatedHeader (event : EventView) (size offset : Nat) : Bytes :=
  CommonHeader.setNextEventPositionRaw ((offset + size) % 2 ^ 32)
    (CommonHeader.setEventSizeRaw (size % 2 ^ 32) event.getCommonHeaderRaw)

theorem relocatedHeader_spec (sound : event.Sound) (size offset : Nat) :
    (relocatedHeader event size offset).length = defaultCommonHeaderLength ∧
      ∀ rest, CommonHeader.ofView (relocatedHeader event size offset ++ rest) =
        (event.header.withEventSize (size % 2 ^ 32)).withNextEventPosition ((offset + size) % 2 ^ 32) := by
  have parts := sound.parts
  have front : event.getCommonHeaderRaw.length = 19 := slice_length (by unfold defaultCommonHeaderLength at *; omega)
  have sized : (CommonHeader.setEventSizeRaw (size % 2 ^ 32) event.getCommonHeaderRaw).length = 19 :=
    (patch_length (by rw [leBytes_length]; omega)).trans front
  have length : (relocatedHeader event size offset).length = 19 := (patch_length (by rw [leBytes_length]; omega)).trans sized
  refine ⟨length,?_⟩
  intro rest
  have same : CommonHeader.ofView event.getCommonHeaderRaw = event.header := CommonHeader.ofView_front
  rw [CommonHeader.ofView_append length.ge, relocatedHeader,
    CommonHeader.ofView_setNextEventPositionRaw sized.ge (Nat.mod_lt _ (by decide)),
    CommonHeader.ofView_setEventSizeRaw front.ge (Nat.mod_lt _ (by decide)), same]

/-- The rewritten event part by part. -/
theorem rewriteGtidTaggedLogInternal_eq (sound : event.Sound) (read : GtidTaggedLogBody.make event.getBodyRaw = .ok body)
    (whole : event.getTotalSize ≤ body.transactionLength)
    (fixed : fixSequenceNumberAndLastCommitted lastLocalSequenceNumber body.sequenceNumber body.lastCommitted =
      .ok (sequenceNumber,lastCommitted))
    (stable : stabilizeEventSize { body with sequenceNumber := sequenceNumber, lastCommitted := lastCommitted }
      (body.transactionLength - event.getTotalSize) maxNumberOfIterations event.getTotalSize = (updated,size)) :
    rewriteGtidTaggedLogInternal lastLocalSequenceNumber event offset =
      .ok ⟨relocatedHeader event size offset ++ updated.encode ++
        Footer.encode (calculateCrc32 (relocatedHeader event size offset ++ updated.encode)),0,defaultFooterLength⟩ := by
  have parts := sound.parts
  have front : event.getCommonHeaderRaw.length = 19 := slice_length (by unfold defaultCommonHeaderLength at *; omega)
  have sized : (CommonHeader.setEventSizeRaw (size % 2 ^ 32) event.getCommonHeaderRaw).length = 19 :=
    (patch_length (by rw [leBytes_length]; omega)).trans front
  set rest := updated.encode ++ List.replicate defaultFooterLength 0
  have eventSize : CommonHeader.setEventSizeRaw (size % 2 ^ 32) (event.getCommonHeaderRaw ++ rest) =
      CommonHeader.setEventSizeRaw (size % 2 ^ 32) event.getCommonHeaderRaw ++ rest :=
    patch_append (by rw [leBytes_length]; omega) rest
  have position : CommonHeader.setNextEventPositionRaw ((offset + size) % 2 ^ 32)
      (CommonHeader.setEventSizeRaw (size % 2 ^ 32) event.getCommonHeaderRaw ++ rest) =
      relocatedHeader event size offset ++ rest := patch_append (by rw [leBytes_length]; omega) rest
  simp only [rewriteGtidTaggedLogInternal, bind_eq_ok, raiseIf_eq_ok, exists_const, pure_eq_ok]
  refine ⟨body,read,by omega,(sequenceNumber,lastCommitted),fixed,?_⟩
  simp only [stable, EventView.setEventSizeRaw, EventView.setNextEventPositionRaw, EventView.withPortion, List.append_assoc]
  rw [eventSize, position, EventView.recalculateCrc_eq (by simp [rest]; omega) (.inr rfl)]
  have cut : (⟨relocatedHeader event size offset ++ rest,0,defaultFooterLength⟩ : EventView).front =
      relocatedHeader event size offset ++ updated.encode := by
    simp only [EventView.front, EventView.getTotalSize, rest]
    rw [← List.append_assoc]
    apply List.take_left'
    simp only [List.length_append, List.length_replicate]
    omega
  rw [cut]
  simp [EventView.hasFooter,defaultFooterLength]

/-- The type of a view is one of the known ones. -/
theorem typeCode_of_make {context : ReaderContext} {portion : Bytes} (made : EventView.make context portion = .ok event) :
    event.header.typeCode = event.getTypeCode.toIndex := by
  simp only [EventView.make, bind_eq_ok, raiseIf_eq_ok, exists_const, pure_eq_ok] at made
  obtain ⟨-,_,validated,-,_,-,_,-,rfl⟩ := made
  simp only [CommonHeader.validate, bind_eq_ok, raiseIf_eq_ok, exists_const] at validated
  have raw : CommonHeader.getTypeCodeRaw (slice 0 defaultCommonHeaderLength portion) =
      CommonHeader.getTypeCodeRaw portion := congrArg CommonHeader.typeCode CommonHeader.ofView_front
  have known : CommonHeader.getTypeCodeRaw portion < 43 := by
    rw [← raw]
    exact not_le.mp validated.2
  exact (CodeType.toIndex_ofRaw known).symm

/-- The loop of the rewriter ends before its ninth round in a size that is its own consequence. The rewritten event
    has that size in its header and in its buffer, and is parsed as an event with the new numbers, the length that the
    size leads to, and in all else the body that was rewritten. -/
theorem rewrite_tagged_stable {context : ReaderContext} {portion : Bytes}
    (made : EventView.make context portion = .ok event) (code : event.getTypeCode = .gtidTaggedLog)
    (read : GtidTaggedLogBody.make event.getBodyRaw = .ok body) (whole : event.getTotalSize ≤ body.transactionLength)
    (fits : body.transactionLength < 2 ^ 32) (ordered : body.lastCommitted < body.sequenceNumber)
    (lastLocalSequenceNumber offset : Nat) :
    ∃ sequenceNumber lastCommitted, ∃ iterations < maxNumberOfIterations, ∃ size rewritten,
      let tail := body.transactionLength - event.getTotalSize
      let numbered := { body with sequenceNumber := sequenceNumber, lastCommitted := lastCommitted }
      let updated := { numbered with transactionLength := size + tail }
      (nextEventSize numbered tail)^[iterations] event.getTotalSize = size ∧ nextEventSize numbered tail size = size ∧
        rewrite lastLocalSequenceNumber event offset = .ok rewritten ∧
        rewritten.portion.length = size ∧ rewritten.getEventSizeRaw = size ∧
        GtidTaggedLogBody.make rewritten.getBodyRaw = .ok updated ∧
        ∀ reader : ReaderContext, reader.footerExpected = true → reader.getCurrentPostHeaderLength .gtidTaggedLog = 0 →
          ∃ commonHeader crc,
            Event.make reader rewritten.portion = .ok ⟨commonHeader,.empty,.gtidTaggedLog updated,some crc⟩ := by
  obtain ⟨sound,-⟩ := EventView.make_sound made
  obtain ⟨⟨sequenceNumber,lastCommitted⟩,fixed⟩ : ∃ numbers,
      fixSequenceNumberAndLastCommitted lastLocalSequenceNumber body.sequenceNumber body.lastCommitted = .ok numbers := by
    simp only [fixSequenceNumberAndLastCommitted, bind_eq_ok, raiseIf_eq_ok, exists_const, pure_eq_ok]
    exact ⟨_,by omega,rfl⟩
  obtain ⟨numberBound,committedBound⟩ := fixSequenceNumberAndLastCommitted_lt fixed
  set tail := body.transactionLength - event.getTotalSize with tailed
  set numbered : GtidTaggedLogBody := { body with sequenceNumber := sequenceNumber, lastCommitted := lastCommitted }
  have bounded : numbered.Bounded := { GtidTaggedLogBody.make_bounded read with
    sequenceNumber := numberBound
    lastCommitted := committedBound }
  have short : tail < 2 ^ 32 := by omega
  have start : event.getTotalSize + tail < 2 ^ 33 := by omega
  obtain ⟨size,limit,reached,resting,stable⟩ := stabilizeEventSize_stable bounded short start
  set updated : GtidTaggedLogBody := { numbered with transactionLength := size + tail }
  have updatedBounded : updated.Bounded := bounded.withTransactionLength (by omega)
  have total : defaultCommonHeaderLength + updated.encode.length + defaultFooterLength = size := by
    rw [updatedBounded.length_encode, ← resting, nextEventSize, eventSizeCalculator_eq (by omega)]
  obtain ⟨width,fields⟩ := relocatedHeader_spec sound size offset
  set header := relocatedHeader event size offset
  set footer := Footer.encode (calculateCrc32 (header ++ updated.encode))
  have footed : footer.length = defaultFooterLength := leBytes_length 4 _
  obtain ⟨-,-,bodyRaw,-,-⟩ := @EventView.parts header [] updated.encode footer width
  simp only [List.append_nil, List.length_nil, footed] at bodyRaw
  refine ⟨sequenceNumber,lastCommitted,5,by decide,size,⟨header ++ updated.encode ++ footer,0,defaultFooterLength⟩,
    reached,resting,?_,?_,?_,?_,?_⟩
  · rw [rewrite, code]
    exact rewriteGtidTaggedLogInternal_eq sound read whole fixed stable
  · rw [List.length_append, List.length_append, width, footed, total]
  · rw [List.append_assoc]
    refine (congrArg CommonHeader.eventSize (fields _)).trans (Nat.mod_eq_of_lt ?_)
    omega
  · rw [bodyRaw]
    exact updatedBounded.make_encode
  · intro reader expects lengths
    have typed : ((event.header.withEventSize (size % 2 ^ 32)).withNextEventPosition ((offset + size) % 2 ^ 32)).typeCode =
        CodeType.gtidTaggedLog.toIndex := (typeCode_of_make made).trans (by rw [code])
    have viewed := @EventView.make_parts header [] updated.encode footer _ .gtidTaggedLog reader width fields typed
      (by simp only [List.append_nil, List.length_append, width, footed, total]; exact Nat.mod_eq_of_lt (by omega))
      (by simp [footed,expects]) (by simp [footer]) (by simp) (by simp [lengths]) (by decide)
    have postHeaderRead : PostHeader.make .gtidTaggedLog [] = .ok .empty := rfl
    have bodyRead : Body.make .gtidTaggedLog updated.encode = .ok (.gtidTaggedLog updated) := by
      simp [Body.make,updatedBounded.make_encode]
    have parsed := Event.make_parts width fields viewed typed postHeaderRead bodyRead
    simp only [List.append_nil] at parsed
    exact ⟨_,_,parsed.trans (by rw [footed, if_pos (by decide)])⟩

namespace Sample

/-- The view of a tagged GTID event with these numbers, whose transaction takes 300 bytes. -/
def taggedPortion (sequenceNumber lastCommitted : Nat) : Bytes :=
  let body : GtidTaggedLogBody :=
    { sequenceNumber := sequenceNumber, lastCommitted := lastCommitted, transactionLength := 300 }
  leBytes 4 1700000000 ++ [42] ++ leBytes 4 1 ++ leBytes 4 (19 + body.encode.length) ++ leBytes 4 500 ++ leBytes 2 0 ++
    body.encode

def taggedView (sequenceNumber lastCommitted : Nat) : EventView := ⟨taggedPortion sequenceNumber lastCommitted,0,0⟩

end Sample

theorem rewrite_tagged_stable_sample :
    ∃ sequenceNumber lastCommitted, ∃ iterations < maxNumberOfIterations, ∃ size rewritten,
      let body : GtidTaggedLogBody := { sequenceNumber := 9, lastCommitted := 7, transactionLength := 300 }
      let tail := body.transactionLength - (Sample.taggedView 9 7).getTotalSize
      let numbered := { body with sequenceNumber := sequenceNumber, lastCommitted := lastCommitted }
      let updated := { numbered with transactionLength := size + tail }
      (nextEventSize numbered tail)^[iterations] (Sample.taggedView 9 7).getTotalSize = size ∧
        nextEventSize numbered tail size = size ∧ rewrite 3 (Sample.taggedView 9 7) 157 = .ok rewritten ∧
        rewritten.portion.length = size ∧ rewritten.getEventSizeRaw = size ∧
        GtidTaggedLogBody.make rewritten.getBodyRaw = .ok updated ∧
        ∀ reader : ReaderContext, reader.footerExpected = true → reader.getCurrentPostHeaderLength .gtidTaggedLog = 0 →
          ∃ commonHeader crc,
            Event.make reader rewritten.portion = .ok ⟨commonHeader,.empty,.gtidTaggedLog updated,some crc⟩ :=
  have made : EventView.make Sample.context (Sample.taggedPortion 9 7) = .ok (Sample.taggedView 9 7) := by decide +kernel
  have read : GtidTaggedLogBody.make (Sample.taggedView 9 7).getBodyRaw =
      .ok { sequenceNumber := 9, lastCommitted := 7, transactionLength := 300 } := by decide +kernel
  rewrite_tagged_stable made (by decide +kernel) read (by decide +kernel) (by decide) (by decide) 3 157

/-- An event that does not come after what it depends on is refused. -/
theorem rewrite_tagged_refused :
    ∃ body, EventView.make Sample.context (Sample.taggedPortion 7 7) = .ok (Sample.taggedView 7 7) ∧
      (Sample.taggedView 7 7).getTypeCode = .gtidTaggedLog ∧
      GtidTaggedLogBody.make (Sample.taggedView 7 7).getBodyRaw = .ok body ∧
      (Sample.taggedView 7 7).getTotalSize ≤ body.transactionLength ∧ body.transactionLength < 2 ^ 32 ∧
      rewrite 3 (Sample.taggedView 7 7) 157 = .error ⟨.logicError,
        "remote last_committed is greater than or equal to remote sequence_number"⟩ :=
  ⟨{ sequenceNumber := 7, lastCommitted := 7, transactionLength := 300 },by decide +kernel,by decide +kernel,
    by decide +kernel,by decide +kernel,by decide,by decide +kernel⟩

end Rewriter
end BinlogServer.Events
