import BinlogServer.Events.Numbers

/-!
# What rewriting keeps

An event is rewritten for its place in a local file: there it has its own size, ends where its header says, and has the
checksum of what is before its footer. What it tells is not touched, but for the numbers of a transaction and, where the
size of its first event is part of it, the length of the transaction.
-/

namespace BinlogServer.Events
open ByteString Util

namespace EventView
variable {event rewritten : EventView} {offset : Nat}

/-- The footer has the checksum of what is before it. -/
def Checked (event : EventView) : Prop := Footer.getCrcRaw event.getFooterRaw = event.calculateCrc

/-- The event as it is in a local file, where it starts at the offset. -/
structure Seated (event : EventView) (offset : Nat) : Prop where
  sound : event.Sound
  footer : event.footerSize = defaultFooterLength
  position : event.getNextEventPositionRaw = (offset + event.portion.length) % 2 ^ 32
  checked : event.Checked

theorem Seated.of_mod (seated : event.Seated (offset % 2 ^ 32)) : event.Seated offset :=
  ⟨seated.sound,seated.footer,seated.position.trans (Nat.mod_add_mod ..),seated.checked⟩

/-- The event tells the same, in a place of its own. -/
structure Tells (event rewritten : EventView) : Prop where
  header : ∃ eventSize position,
    rewritten.header = (event.header.withEventSize eventSize).withNextEventPosition position
  numbered : event.getTypeCode = .gtidLog ∨ event.getTypeCode = .anonymousGtidLog →
    rewritten.getBodyRaw = event.getBodyRaw ∧
    ∃ postHeader sequenceNumber lastCommitted, GtidLogPostHeader.make event.getPostHeaderRaw = .ok postHeader ∧
      GtidLogPostHeader.make rewritten.getPostHeaderRaw =
        .ok { postHeader with sequenceNumber := sequenceNumber, lastCommitted := lastCommitted }
  tagged : event.getTypeCode = .gtidTaggedLog → ∃ body sequenceNumber lastCommitted transactionLength,
    GtidTaggedLogBody.make event.getBodyRaw = .ok body ∧
      GtidTaggedLogBody.make rewritten.getBodyRaw = .ok { body with
        sequenceNumber := sequenceNumber
        lastCommitted := lastCommitted
        transactionLength := transactionLength }
  other : event.getTypeCode.isGtid = false →
    rewritten.getPostHeaderRaw = event.getPostHeaderRaw ∧ rewritten.getBodyRaw = event.getBodyRaw

/-- The parts of an event with a footer. -/
theorem parts_front {front footer : Bytes} {postHeaderSize : Nat} (length : footer.length = defaultFooterLength)
    (inside : defaultCommonHeaderLength + postHeaderSize ≤ front.length) :
    let event : EventView := ⟨front ++ footer,postHeaderSize,defaultFooterLength⟩
    event.getPostHeaderRaw = slice defaultCommonHeaderLength postHeaderSize front ∧
      event.getBodyRaw = slice (defaultCommonHeaderLength + postHeaderSize)
        (front.length - defaultCommonHeaderLength - postHeaderSize) front ∧
      event.getFooterRaw = footer ∧ event.calculateCrc = calculateCrc32 front := by
  have total : (front ++ footer).length - defaultFooterLength = front.length := by
    rw [List.length_append, length, Nat.add_sub_cancel]
  have size : (front ++ footer).length - defaultCommonHeaderLength - postHeaderSize - defaultFooterLength =
      front.length - defaultCommonHeaderLength - postHeaderSize := by omega
  refine ⟨slice_append inside _,?_,?_,?_⟩
  · simp only [getBodyRaw, getBodySize, getTotalSize, size]
    exact slice_append (by omega) _
  · simp only [getFooterRaw, getTotalSize, total, slice, List.drop_left]
    rw [← length, List.take_length]
  · simp only [calculateCrc, getTotalSize, total, List.take_left]

/-- A footer that is calculated again leaves the parts before it. -/
theorem recalculateCrc_parts
    (parts : defaultCommonHeaderLength + event.postHeaderSize + event.footerSize ≤ event.portion.length)
    (footer : event.footerSize = defaultFooterLength) :
    event.recalculateCrc.getPostHeaderRaw = event.getPostHeaderRaw ∧
      event.recalculateCrc.getBodyRaw = event.getBodyRaw ∧ event.recalculateCrc.Checked := by
  have same := recalculateCrc_eq (by omega) (.inr footer)
  obtain ⟨portion,postHeaderSize,footerSize⟩ := event
  obtain rfl : footerSize = defaultFooterLength := footer
  simp only at parts
  set front := portion.take (portion.length - defaultFooterLength) with cut
  have whole : portion = front ++ portion.drop (portion.length - defaultFooterLength) := (List.take_append_drop _ _).symm
  have length : (portion.drop (portion.length - defaultFooterLength)).length = defaultFooterLength := by
    rw [List.length_drop]
    omega
  have inside : defaultCommonHeaderLength + postHeaderSize ≤ front.length := by
    rw [cut, List.length_take]
    omega
  generalize portion.drop (portion.length - defaultFooterLength) = old at whole length
  have calculated : (⟨portion,postHeaderSize,defaultFooterLength⟩ : EventView).recalculateCrc =
      ⟨front ++ Footer.encode (calculateCrc32 front),postHeaderSize,defaultFooterLength⟩ := same
  obtain ⟨postHeader,body,-,-⟩ := parts_front length inside
  obtain ⟨postHeader',body',footer',crc⟩ := @parts_front front (Footer.encode (calculateCrc32 front)) postHeaderSize
    (leBytes_length 4 _) inside
  rw [calculated]
  refine ⟨?_,?_,?_⟩
  · rw [postHeader', ← postHeader, ← whole]
  · rw [body', ← body, ← whole]
  · rw [Checked, footer', crc]
    exact leNat_leBytes_of_lt (calculateCrc32_lt _)

theorem setPostHeaderRaw_getBodyRaw {postHeader : Bytes} (length : postHeader.length = event.postHeaderSize)
    (parts : defaultCommonHeaderLength + event.postHeaderSize ≤ event.portion.length) :
    (event.setPostHeaderRaw postHeader).getBodyRaw = event.getBodyRaw := by
  have total : (patch defaultCommonHeaderLength postHeader event.portion).length = event.portion.length :=
    patch_length (by omega)
  rw [setPostHeaderRaw, getBodyRaw, getBodySize, getTotalSize, withPortion_portion, total]
  exact slice_patch_after (by rw [length]; exact le_rfl) (by omega)

end EventView

namespace Rewriter
variable {event result rewritten : EventView} {mode : MaterializationType} {offset lastLocalSequenceNumber : Nat}

theorem prepare_getBodyRaw (sound : event.Sound)
    (prepared : prepareGenericMaterializeInternal event .forceAddChecksum = (mode,result)) :
    result.getBodyRaw = event.getBodyRaw := by
  have parts := sound.parts
  unfold prepareGenericMaterializeInternal at prepared
  cases footed : event.hasFooter with
  | false =>
    rw [footed] at prepared
    cases prepared
    have none : event.footerSize = 0 := by simpa [EventView.hasFooter] using footed
    have size : (event.portion ++ List.replicate defaultFooterLength 0).length - defaultCommonHeaderLength -
        event.postHeaderSize - defaultFooterLength = event.getBodySize := by
      rw [EventView.getBodySize, EventView.getTotalSize, List.length_append, List.length_replicate]
      omega
    simp only [EventView.getBodyRaw, EventView.getBodySize, EventView.getTotalSize] at size ⊢
    rw [size]
    exact slice_append (by omega) _
  | true =>
    rw [footed] at prepared
    cases prepared
    rfl

theorem relocate_getBodyRaw (whole : 19 ≤ event.portion.length) :
    (relocate offset mode event).getBodyRaw = event.getBodyRaw := by
  have moved : ∀ position : Nat, ∀ other : EventView, 19 ≤ other.portion.length →
      (other.setNextEventPositionRaw position).getBodyRaw = other.getBodyRaw := by
    intro position other whole
    have length := (other.setNextEventPositionRaw_spec whole position).2
    rw [EventView.getBodyRaw, EventView.getBodySize, EventView.getTotalSize, length]
    exact slice_patch_after (by simp [defaultCommonHeaderLength]; omega) (by simp; omega)
  have sized : ∀ eventSize : Nat, (event.setEventSizeRaw eventSize).getBodyRaw = event.getBodyRaw := by
    intro eventSize
    have length := (event.setEventSizeRaw_spec whole eventSize).2
    rw [EventView.getBodyRaw, EventView.getBodySize, EventView.getTotalSize, length]
    exact slice_patch_after (by simp [defaultCommonHeaderLength]; omega) (by simp; omega)
  by_cases leave : mode = .leaveChecksumAsIs
  · rw [relocate, if_neg (not_not.mpr leave)]
    exact moved _ event whole
  · rw [relocate, if_pos leave, moved _ _ (by rw [(event.setEventSizeRaw_spec whole _).2]; exact whole)]
    exact sized _

/-- What an event has before the checksum is calculated. -/
theorem relocate_parts (offset : Nat) (sound : event.Sound)
    (prepared : prepareGenericMaterializeInternal event .forceAddChecksum = (mode,result)) :
    (relocate offset mode result).getPostHeaderRaw = event.getPostHeaderRaw ∧
      (relocate offset mode result).getBodyRaw = event.getBodyRaw ∧
      (relocate offset mode result).footerSize = defaultFooterLength ∧
      defaultCommonHeaderLength + (relocate offset mode result).postHeaderSize +
        (relocate offset mode result).footerSize ≤ (relocate offset mode result).portion.length := by
  obtain ⟨-,-,footer,parts,sized⟩ := prepare_spec sound prepared
  have whole : 19 ≤ result.portion.length := by
    unfold defaultCommonHeaderLength at parts
    omega
  obtain ⟨-,length,sameSize,sameFooter⟩ := relocate_spec offset whole sized
  refine ⟨?_,?_,sameFooter.trans footer,?_⟩
  · rw [relocate_getPostHeaderRaw whole, prepare_getPostHeaderRaw sound prepared]
  · rw [relocate_getBodyRaw whole, prepare_getBodyRaw sound prepared]
  · rw [sameSize, sameFooter, length]
    exact parts

theorem materializeAndRelocate_parts (sound : event.Sound)
    (made : materializeAndRelocate event .forceAddChecksum offset = .ok rewritten) :
    rewritten.getPostHeaderRaw = event.getPostHeaderRaw ∧ rewritten.getBodyRaw = event.getBodyRaw ∧ rewritten.Checked := by
  rcases prepared : prepareGenericMaterializeInternal event .forceAddChecksum with ⟨mode,result⟩
  simp only [materializeAndRelocate, genericMaterialize, prepared, bind_eq_ok, pure_eq_ok] at made
  obtain ⟨_,rfl,rfl⟩ := made
  obtain ⟨postHeader,body,footer,parts⟩ := relocate_parts offset sound prepared
  obtain ⟨samePostHeader,sameBody,checked⟩ := EventView.recalculateCrc_parts parts footer
  exact ⟨samePostHeader.trans postHeader,sameBody.trans body,checked⟩

theorem rewriteGtidLogInternal_parts (sound : event.Sound)
    (made : rewriteGtidLogInternal lastLocalSequenceNumber event offset = .ok rewritten) :
    rewritten.getBodyRaw = event.getBodyRaw ∧ rewritten.Checked := by
  rcases prepared : prepareGenericMaterializeInternal event .forceAddChecksum with ⟨mode,result⟩
  simp only [rewriteGtidLogInternal, genericMaterialize, prepared, bind_eq_ok, pure_eq_ok] at made
  obtain ⟨_,⟨postHeader,read,⟨sequenceNumber,lastCommitted⟩,-,rfl⟩,rfl⟩ := made
  obtain ⟨-,body,footer,parts⟩ := relocate_parts offset sound prepared
  have size : (relocate offset mode result).postHeaderSize = 42 := by
    simp only [GtidLogPostHeader.make, bind_eq_ok, raiseIf_eq_ok, exists_const, ne_eq, not_not] at read
    have taken := read.1
    rw [EventView.getPostHeaderRaw, slice_length (by omega)] at taken
    exact taken
  set updated : GtidLogPostHeader := { postHeader with sequenceNumber := sequenceNumber, lastCommitted := lastCommitted }
  have length : updated.encode.length = (relocate offset mode result).postHeaderSize := by
    rw [GtidLogPostHeader.length_encode, size]
  have total := (EventView.setPostHeaderRaw_spec
    (show 19 + updated.encode.length ≤ (relocate offset mode result).portion.length by
      unfold defaultCommonHeaderLength at parts
      omega)).2
  obtain ⟨-,sameBody,checked⟩ := @EventView.recalculateCrc_parts
    ((relocate offset mode result).setPostHeaderRaw updated.encode) (by rw [total]; exact parts) footer
  exact ⟨sameBody.trans ((EventView.setPostHeaderRaw_getBodyRaw length (by omega)).trans body),checked⟩

theorem rewriteGtidTaggedLogInternal_checked (sound : event.Sound)
    (made : rewriteGtidTaggedLogInternal lastLocalSequenceNumber event offset = .ok rewritten) : rewritten.Checked := by
  have steps := made
  simp only [rewriteGtidTaggedLogInternal, bind_eq_ok, raiseIf_eq_ok, exists_const, pure_eq_ok] at steps
  obtain ⟨body,read,whole,⟨sequenceNumber,lastCommitted⟩,fixed,-⟩ := steps
  rcases stable : stabilizeEventSize { body with sequenceNumber := sequenceNumber, lastCommitted := lastCommitted }
    (body.transactionLength - event.getTotalSize) maxNumberOfIterations event.getTotalSize with ⟨updated,size⟩
  obtain rfl := Except.ok.inj (made.symm.trans
    (rewriteGtidTaggedLogInternal_eq sound read (not_lt.mp whole) fixed stable))
  obtain ⟨width,-⟩ := relocatedHeader_spec sound size offset
  obtain ⟨-,-,footer,crc⟩ := @EventView.parts_front (relocatedHeader event size offset ++ updated.encode)
    (Footer.encode (calculateCrc32 (relocatedHeader event size offset ++ updated.encode))) 0 (leBytes_length 4 _)
    (by rw [List.length_append, width]; omega)
  rw [EventView.Checked, footer, crc]
  exact leNat_leBytes_of_lt (calculateCrc32_lt _)

theorem rewrite_checked (sound : event.Sound) (made : rewrite lastLocalSequenceNumber event offset = .ok rewritten) :
    rewritten.Checked := by
  unfold rewrite at made
  split at made
  · exact (rewriteGtidLogInternal_parts sound made).2
  · exact (rewriteGtidLogInternal_parts sound made).2
  · exact rewriteGtidTaggedLogInternal_checked sound made
  · exact (materializeAndRelocate_parts sound made).2.2

/-- A rewritten event is where it was meant to be. -/
theorem rewrite_seated (sound : event.Sound) (made : rewrite lastLocalSequenceNumber event offset = .ok rewritten) :
    rewritten.Seated offset := by
  have relocated := rewrite_spec sound made
  exact ⟨relocated.sound,relocated.footer,congrArg CommonHeader.nextEventPosition relocated.header,rewrite_checked sound made⟩

theorem rewrite_numbered (code : event.getTypeCode = .gtidLog ∨ event.getTypeCode = .anonymousGtidLog) :
    rewrite lastLocalSequenceNumber event offset = rewriteGtidLogInternal lastLocalSequenceNumber event offset := by
  rcases code with code | code <;> simp only [rewrite, code]

theorem rewrite_tagged (code : event.getTypeCode = .gtidTaggedLog) :
    rewrite lastLocalSequenceNumber event offset = rewriteGtidTaggedLogInternal lastLocalSequenceNumber event offset := by
  simp only [rewrite, code]

theorem rewrite_other (other : event.getTypeCode.isGtid = false) :
    rewrite lastLocalSequenceNumber event offset = materializeAndRelocate event .forceAddChecksum offset := by
  unfold rewrite
  split
  · rename_i code
    simp [code,CodeType.isGtid] at other
  · rename_i code
    simp [code,CodeType.isGtid] at other
  · rename_i code
    simp [code,CodeType.isGtid] at other
  · rfl

/-- A rewritten event tells what the original told. -/
theorem rewrite_tells (sound : event.Sound) (made : rewrite lastLocalSequenceNumber event offset = .ok rewritten) :
    event.Tells rewritten := by
  refine ⟨⟨_,_,(rewrite_spec sound made).header⟩,?_,?_,?_⟩
  · intro code
    rw [rewrite_numbered code] at made
    obtain ⟨postHeader,updated,read,-,reread,-,same⟩ := rewriteGtidLogInternal_numbers sound made
    exact ⟨(rewriteGtidLogInternal_parts sound made).1,postHeader,_,_,read,same ▸ reread⟩
  · intro code
    rw [rewrite_tagged code] at made
    obtain ⟨body,updated,read,-,reread,-,same⟩ := rewriteGtidTaggedLogInternal_numbers sound made
    exact ⟨body,_,_,_,read,same ▸ reread⟩
  · intro other
    rw [rewrite_other other] at made
    obtain ⟨postHeader,body,-⟩ := materializeAndRelocate_parts sound made
    exact ⟨postHeader,body⟩

/-- An event with a footer keeps its length. -/
theorem materializeAndRelocate_length (sound : event.Sound) (footed : event.hasFooter = true)
    (made : materializeAndRelocate event .forceAddChecksum offset = .ok rewritten) :
    rewritten.portion.length = event.portion.length ∧ rewritten.postHeaderSize = event.postHeaderSize := by
  have prepared : prepareGenericMaterializeInternal event .forceAddChecksum = (.leaveChecksumAsIs,event) := by
    simp [prepareGenericMaterializeInternal,footed]
  simp only [materializeAndRelocate, genericMaterialize, prepared, bind_eq_ok, pure_eq_ok] at made
  obtain ⟨_,rfl,rfl⟩ := made
  have parts := sound.parts
  unfold defaultCommonHeaderLength at parts
  obtain ⟨-,length,postHeaderSize,footerSize⟩ := relocate_spec offset (show 19 ≤ event.portion.length by omega)
    (fun _ => sound.size)
  obtain ⟨-,same,sameSize,-⟩ := (relocate offset .leaveChecksumAsIs event).recalculateCrc_spec
    (by rw [length, footerSize]; omega) (by rw [footerSize]; exact sound.footer)
  exact ⟨same.trans length,sameSize.trans postHeaderSize⟩

theorem rewriteGtidLogInternal_length (sound : event.Sound) (footed : event.hasFooter = true)
    (made : rewriteGtidLogInternal lastLocalSequenceNumber event offset = .ok rewritten) :
    rewritten.portion.length = event.portion.length ∧ rewritten.postHeaderSize = event.postHeaderSize := by
  obtain ⟨postHeader,updated,read,fixed,-,size,-⟩ := rewriteGtidLogInternal_numbers sound made
  have ordered : postHeader.lastCommitted < postHeader.sequenceNumber := by
    simp only [fixSequenceNumberAndLastCommitted, bind_eq_ok, raiseIf_eq_ok, exists_const] at fixed
    exact not_le.mp fixed.1
  obtain ⟨same,again,length⟩ := rewriteGtidLogInternal_footed sound footed read ordered
  obtain rfl := Except.ok.inj (again.symm.trans made)
  refine ⟨length,size.trans ?_⟩
  have parts := sound.parts
  simp only [GtidLogPostHeader.make, bind_eq_ok, raiseIf_eq_ok, exists_const, ne_eq, not_not] at read
  have taken := read.1
  rw [EventView.getPostHeaderRaw, slice_length (by omega)] at taken
  exact taken.symm

/-- The length of a transaction changes as the size of its first event does. -/
theorem rewriteGtidTaggedLogInternal_length {body : GtidTaggedLogBody} (sound : event.Sound)
    (read : GtidTaggedLogBody.make event.getBodyRaw = .ok body) (short : body.transactionLength < 2 ^ 32)
    (made : rewriteGtidTaggedLogInternal lastLocalSequenceNumber event offset = .ok rewritten) :
    ∃ sequenceNumber lastCommitted transactionLength,
      GtidTaggedLogBody.make rewritten.getBodyRaw = .ok { body with
        sequenceNumber := sequenceNumber
        lastCommitted := lastCommitted
        transactionLength := transactionLength } ∧
      transactionLength + event.portion.length = body.transactionLength + rewritten.portion.length := by
  have steps := made
  simp only [rewriteGtidTaggedLogInternal, bind_eq_ok, raiseIf_eq_ok, exists_const, pure_eq_ok] at steps
  obtain ⟨other,again,whole,⟨sequenceNumber,lastCommitted⟩,fixed,-⟩ := steps
  have same : other = body := Except.ok.inj (again.symm.trans read)
  subst other
  obtain ⟨numberBound,committedBound⟩ := fixSequenceNumberAndLastCommitted_lt fixed
  set numbered : GtidTaggedLogBody := { body with sequenceNumber := sequenceNumber, lastCommitted := lastCommitted }
  have bounded : numbered.Bounded :=
    { GtidTaggedLogBody.make_bounded read with sequenceNumber := numberBound, lastCommitted := committedBound }
  obtain ⟨size,limit,-,resting,stable⟩ := @stabilizeEventSize_stable numbered (body.transactionLength - event.getTotalSize)
    bounded (by omega) event.getTotalSize (by omega)
  obtain rfl := Except.ok.inj (made.symm.trans
    (rewriteGtidTaggedLogInternal_eq sound read (not_lt.mp whole) fixed stable))
  set updated : GtidTaggedLogBody :=
    { numbered with transactionLength := size + (body.transactionLength - event.getTotalSize) }
  have fits : updated.Bounded := bounded.withTransactionLength (by omega)
  have total : defaultCommonHeaderLength + updated.encode.length + defaultFooterLength = size := by
    rw [fits.length_encode, ← resting, nextEventSize, eventSizeCalculator_eq (by omega)]
  obtain ⟨width,-⟩ := relocatedHeader_spec sound size offset
  set footer := Footer.encode (calculateCrc32 (relocatedHeader event size offset ++ updated.encode))
  have footed : footer.length = defaultFooterLength := leBytes_length 4 _
  obtain ⟨-,-,bodyRaw,-,-⟩ := @EventView.parts (relocatedHeader event size offset) [] updated.encode footer width
  simp only [List.append_nil, List.length_nil, footed] at bodyRaw
  refine ⟨sequenceNumber,lastCommitted,size + (body.transactionLength - event.getTotalSize),?_,?_⟩
  · rw [bodyRaw]
    exact fits.make_encode
  · have length : event.getTotalSize = event.portion.length := rfl
    rw [List.length_append, List.length_append, width, footed, total]
    omega

/-- What the first event of a transaction says of it. -/
theorem rewrite_transactionInfo {gtid : Gtids.Gtid} {sequenceNumber length : Nat} (sound : event.Sound)
    (footed : event.hasFooter = true) (info : event.transactionInfo = .ok (gtid,sequenceNumber,length))
    (short : length < 2 ^ 32) (made : rewrite lastLocalSequenceNumber event offset = .ok rewritten) :
    ∃ sequenceNumber' length', rewritten.transactionInfo = .ok (gtid,sequenceNumber',length') ∧
      length' + event.portion.length = length + rewritten.portion.length := by
  have sameCode : rewritten.getTypeCode = event.getTypeCode :=
    congrArg CodeType.ofRaw (congrArg CommonHeader.typeCode (rewrite_spec sound made).header)
  have tells := rewrite_tells sound made
  unfold EventView.transactionInfo at info
  split at info
  · rename_i anonymous
    simp only [bind_eq_ok, pure_eq_ok, Prod.mk.injEq] at info
    obtain ⟨postHeader,read,body,bodyRead,rfl,-,rfl⟩ := info
    obtain ⟨bodyRaw,_,number,committed,read',reread⟩ := tells.numbered (.inr anonymous)
    rw [rewrite_numbered (.inr anonymous)] at made
    refine ⟨number,body.transactionLength,?_,by rw [(rewriteGtidLogInternal_length sound footed made).1]⟩
    simp only [EventView.transactionInfo, sameCode, anonymous, bind_eq_ok, pure_eq_ok]
    exact ⟨_,reread,body,by rw [bodyRaw, bodyRead],rfl⟩
  · rename_i named
    simp only [bind_eq_ok, pure_eq_ok, Prod.mk.injEq] at info
    obtain ⟨postHeader,read,_,gtidRead,body,bodyRead,rfl,-,rfl⟩ := info
    obtain ⟨bodyRaw,other,number,committed,again,reread⟩ := tells.numbered (.inl named)
    have same : other = postHeader := Except.ok.inj (again.symm.trans read)
    subst other
    rw [rewrite_numbered (.inl named)] at made
    refine ⟨number,body.transactionLength,?_,by rw [(rewriteGtidLogInternal_length sound footed made).1]⟩
    simp only [EventView.transactionInfo, sameCode, named, bind_eq_ok, pure_eq_ok]
    exact ⟨_,reread,_,gtidRead,body,by rw [bodyRaw, bodyRead],rfl⟩
  · rename_i tagged
    simp only [bind_eq_ok, pure_eq_ok, Prod.mk.injEq] at info
    obtain ⟨body,read,_,gtidRead,rfl,-,rfl⟩ := info
    rw [rewrite_tagged tagged] at made
    obtain ⟨number,committed,transactionLength,reread,lengths⟩ := rewriteGtidTaggedLogInternal_length sound read short made
    refine ⟨number,transactionLength,?_,lengths⟩
    simp only [EventView.transactionInfo, sameCode, tagged, bind_eq_ok, pure_eq_ok]
    exact ⟨_,reread,_,gtidRead,rfl⟩
  · cases info

/-- The parts of an event are where they were. -/
theorem rewrite_postHeaderSize (sound : event.Sound) (footed : event.hasFooter = true)
    (tagged : event.getTypeCode = .gtidTaggedLog → event.postHeaderSize = 0)
    (made : rewrite lastLocalSequenceNumber event offset = .ok rewritten) :
    rewritten.postHeaderSize = event.postHeaderSize := by
  unfold rewrite at made
  split at made
  · exact (rewriteGtidLogInternal_length sound footed made).2
  · exact (rewriteGtidLogInternal_length sound footed made).2
  · rename_i code
    obtain ⟨-,-,-,-,-,size,-⟩ := rewriteGtidTaggedLogInternal_numbers sound made
    rw [size, tagged code]
  · exact (materializeAndRelocate_length sound footed made).2

end Rewriter
end BinlogServer.Events
