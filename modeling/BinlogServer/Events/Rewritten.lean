import BinlogServer.Events.Codecs
import BinlogServer.Events.Event
import BinlogServer.Events.Rewriter

/-!
# What a rewritten event looks like

A rewritten event has its own size and its new end in its header, and is in everything else of its header the event
that was rewritten.
-/

namespace BinlogServer.Events
open ByteString Util Gtids

namespace CommonHeader
variable {bytes : Bytes}

/-- The fields of a header with another size. -/
@[simps] def withEventSize (header : CommonHeader) (eventSize : Nat) : CommonHeader := { header with eventSize := eventSize }

/-- The fields of a header with another end. -/
@[simps] def withNextEventPosition (header : CommonHeader) (position : Nat) : CommonHeader :=
  { header with nextEventPosition := position }

/-- The fields are those of the first bytes. -/
theorem ofView_congr {other : Bytes} (same : ∀ start len, start + len ≤ 19 → slice start len bytes = slice start len other) :
    ofView bytes = ofView other := by
  unfold ofView getTimestampRaw getTypeCodeRaw getServerIdRaw getEventSizeRaw getNextEventPositionRaw getFlagsRaw
  rw [same 0 4 (by decide), same 4 1 (by decide), same 5 4 (by decide), same 9 4 (by decide), same 13 4 (by decide),
    same 17 2 (by decide)]

theorem ofView_patch {offset : Nat} {field : Bytes} (after : 19 ≤ offset) (inside : offset ≤ bytes.length) :
    ofView (patch offset field bytes) = ofView bytes :=
  ofView_congr fun _ _ within => slice_patch_before (by omega) inside

theorem ofView_append (whole : 19 ≤ bytes.length) (rest : Bytes) : ofView (bytes ++ rest) = ofView bytes :=
  ofView_congr fun _ _ within => slice_append (within.trans whole) rest

theorem ofView_front : ofView (slice 0 19 bytes) = ofView bytes :=
  ofView_congr fun start len within => by
    simp only [slice, List.drop_zero, List.drop_take, List.take_take]
    congr 1
    omega

theorem ofView_setEventSizeRaw {eventSize : Nat} (whole : 19 ≤ bytes.length) (small : eventSize < 2 ^ 32) :
    ofView (setEventSizeRaw eventSize bytes) = (ofView bytes).withEventSize eventSize := by
  have inside : 9 + (leBytes 4 eventSize).length ≤ bytes.length := by simp; omega
  have size : slice 9 4 (patch 9 (leBytes 4 eventSize) bytes) = leBytes 4 eventSize := by
    simpa using slice_patch_same inside
  unfold ofView withEventSize getTimestampRaw getTypeCodeRaw getServerIdRaw getEventSizeRaw getNextEventPositionRaw
    getFlagsRaw setEventSizeRaw
  rw [slice_patch_before (by decide) (by omega), slice_patch_before (by decide) (by omega),
    slice_patch_before (by decide) (by omega), size, slice_patch_after (by simp) inside,
    slice_patch_after (by simp) inside, leNat_leBytes_of_lt (by omega)]

theorem ofView_setNextEventPositionRaw {position : Nat} (whole : 19 ≤ bytes.length) (small : position < 2 ^ 32) :
    ofView (setNextEventPositionRaw position bytes) = (ofView bytes).withNextEventPosition position := by
  have inside : 13 + (leBytes 4 position).length ≤ bytes.length := by simp; omega
  have next : slice 13 4 (patch 13 (leBytes 4 position) bytes) = leBytes 4 position := by
    simpa using slice_patch_same inside
  unfold ofView withNextEventPosition getTimestampRaw getTypeCodeRaw getServerIdRaw getEventSizeRaw
    getNextEventPositionRaw getFlagsRaw setNextEventPositionRaw
  rw [slice_patch_before (by decide) (by omega), slice_patch_before (by decide) (by omega),
    slice_patch_before (by decide) (by omega), slice_patch_before (by decide) (by omega), next,
    slice_patch_after (by simp) inside, leNat_leBytes_of_lt (by omega)]

end CommonHeader

namespace EventView

/-- What holds of every view: its parts are there, and its header has its size. -/
structure Sound (event : EventView) : Prop where
  parts : defaultCommonHeaderLength + event.postHeaderSize + event.footerSize ≤ event.portion.length
  footer : event.footerSize = 0 ∨ event.footerSize = defaultFooterLength
  size : event.getEventSizeRaw = event.portion.length % 2 ^ 32

theorem Sound.nonempty {event : EventView} (sound : event.Sound) : event.portion ≠ [] := by
  intro none
  have parts := sound.parts
  simp [none,defaultCommonHeaderLength] at parts

theorem make_sound {context : ReaderContext} {portion : Bytes} {event : EventView}
    (made : make context portion = .ok event) : event.Sound ∧ event.portion = portion := by
  simp only [make, bind_eq_ok, raiseIf_eq_ok, exists_const, pure_eq_ok, ne_eq, not_not] at made
  obtain ⟨-,-,-,sized,postHeaderSize,parts,-,-,rfl⟩ := made
  have below := CommonHeader.getEventSizeRaw_lt portion
  refine ⟨⟨?_,?_,?_⟩,rfl⟩
  · simp only [postHeaderSizeFor] at parts
    split at parts <;> simp only [bind_eq_ok, raiseIf_eq_ok, exists_const, pure_eq_ok] at parts
    · obtain ⟨enough,rfl⟩ := parts
      simp only
      omega
    · obtain ⟨-,enough,rfl⟩ := parts
      simp only
      omega
  · simp only [footerSizeFor]
    split_ifs <;> simp
  · rw [Nat.mod_eq_of_lt (by simp only; omega)]
    exact sized.symm

theorem make_footerSize {context : ReaderContext} {portion : Bytes} {event : EventView}
    (made : make context portion = .ok event) : event.footerSize = footerSizeFor context portion := by
  simp only [make, bind_eq_ok, raiseIf_eq_ok, exists_const, pure_eq_ok] at made
  obtain ⟨-,-,-,-,_,-,_,-,rfl⟩ := made
  rfl

variable {event rewritten : EventView}

/-- The header of a view. -/
def header (event : EventView) : CommonHeader := .ofView event.portion

theorem setEventSizeRaw_spec (whole : 19 ≤ event.portion.length) (eventSize : Nat) :
    (event.setEventSizeRaw eventSize).header = event.header.withEventSize (eventSize % 2 ^ 32) ∧
      (event.setEventSizeRaw eventSize).portion.length = event.portion.length :=
  ⟨CommonHeader.ofView_setEventSizeRaw whole (Nat.mod_lt _ (by decide)),patch_length (by simp; omega)⟩

theorem setNextEventPositionRaw_spec (whole : 19 ≤ event.portion.length) (position : Nat) :
    (event.setNextEventPositionRaw position).header = event.header.withNextEventPosition (position % 2 ^ 32) ∧
      (event.setNextEventPositionRaw position).portion.length = event.portion.length :=
  ⟨CommonHeader.ofView_setNextEventPositionRaw whole (Nat.mod_lt _ (by decide)),patch_length (by simp; omega)⟩

theorem setPostHeaderRaw_spec {postHeader : Bytes} (inside : 19 + postHeader.length ≤ event.portion.length) :
    (event.setPostHeaderRaw postHeader).header = event.header ∧
      (event.setPostHeaderRaw postHeader).portion.length = event.portion.length :=
  ⟨CommonHeader.ofView_patch (by decide) (by unfold defaultCommonHeaderLength; omega),patch_length inside⟩

theorem recalculateCrc_spec (parts : 19 + event.footerSize ≤ event.portion.length)
    (footer : event.footerSize = 0 ∨ event.footerSize = defaultFooterLength) :
    event.recalculateCrc.header = event.header ∧ event.recalculateCrc.portion.length = event.portion.length ∧
      event.recalculateCrc.postHeaderSize = event.postHeaderSize ∧ event.recalculateCrc.footerSize = event.footerSize := by
  unfold recalculateCrc
  split
  · rename_i present
    have four : event.footerSize = 4 := by
      simp only [hasFooter, ne_eq, decide_eq_true_eq] at present
      exact footer.resolve_left present
    have length : (Footer.encode event.calculateCrc).length = 4 := by simp [Footer.encode]
    refine ⟨CommonHeader.ofView_patch ?_ ?_,patch_length ?_,rfl,rfl⟩
    · rw [getTotalSize]
      omega
    · rw [getTotalSize]
      omega
    · rw [getTotalSize, length]
      omega
  · exact ⟨rfl,rfl,rfl,rfl⟩

/-- What a rewritten event has of the original one. -/
structure Relocated (event : EventView) (offset : Nat) (rewritten : EventView) : Prop where
  sound : rewritten.Sound
  footer : rewritten.footerSize = defaultFooterLength
  header : rewritten.header = (event.header.withEventSize (rewritten.portion.length % 2 ^ 32)).withNextEventPosition
    ((offset + rewritten.portion.length) % 2 ^ 32)

end EventView

namespace Rewriter
variable {event result rewritten : EventView} {mode : MaterializationType} {offset lastLocalSequenceNumber : Nat}

/-- The copy of an event has a footer, and otherwise what the event has. -/
theorem prepare_spec (sound : event.Sound)
    (prepared : prepareGenericMaterializeInternal event .forceAddChecksum = (mode,result)) :
    result.header = event.header ∧ result.postHeaderSize = event.postHeaderSize ∧
      result.footerSize = defaultFooterLength ∧
      defaultCommonHeaderLength + result.postHeaderSize + result.footerSize ≤ result.portion.length ∧
      (mode = .leaveChecksumAsIs → result.getEventSizeRaw = result.portion.length % 2 ^ 32) := by
  have parts := sound.parts
  unfold defaultCommonHeaderLength at parts
  unfold prepareGenericMaterializeInternal at prepared
  cases footed : event.hasFooter with
  | false =>
    rw [footed] at prepared
    cases prepared
    refine ⟨CommonHeader.ofView_append (by omega) _,rfl,rfl,?_,nofun⟩
    simp only [EventView.hasFooter, ne_eq, decide_eq_false_iff_not, not_not] at footed
    simp only [defaultCommonHeaderLength, List.length_append, List.length_replicate]
    omega
  | true =>
    rw [footed] at prepared
    cases prepared
    simp only [EventView.hasFooter, ne_eq, decide_eq_true_eq] at footed
    exact ⟨rfl,rfl,sound.footer.resolve_left footed,sound.parts,fun _ => sound.size⟩

theorem relocate_spec (offset : Nat) (whole : 19 ≤ event.portion.length)
    (sized : mode = .leaveChecksumAsIs → event.getEventSizeRaw = event.portion.length % 2 ^ 32) :
    (relocate offset mode event).header = (event.header.withEventSize (event.portion.length % 2 ^ 32)).withNextEventPosition
        ((offset + event.portion.length) % 2 ^ 32) ∧
      (relocate offset mode event).portion.length = event.portion.length ∧
      (relocate offset mode event).postHeaderSize = event.postHeaderSize ∧
      (relocate offset mode event).footerSize = event.footerSize := by
  by_cases leave : mode = .leaveChecksumAsIs
  · have same : event.header.withEventSize (event.portion.length % 2 ^ 32) = event.header := by
      rw [← sized leave]
      rfl
    rw [relocate, if_neg (not_not.mpr leave), same]
    obtain ⟨header,length⟩ := EventView.setNextEventPositionRaw_spec whole (offset + event.getTotalSize)
    exact ⟨header,length,rfl,rfl⟩
  · obtain ⟨header,length⟩ := EventView.setEventSizeRaw_spec whole event.getTotalSize
    obtain ⟨next,kept⟩ := EventView.setNextEventPositionRaw_spec (whole.trans_eq length.symm) (offset + event.getTotalSize)
    rw [relocate, if_pos leave]
    exact ⟨next.trans (by rw [header]; rfl),kept.trans length,rfl,rfl⟩

/-- What is the same before and after the checksum is recalculated. -/
theorem relocated_recalculateCrc (parts : defaultCommonHeaderLength + result.postHeaderSize + result.footerSize ≤
      result.portion.length) (footer : result.footerSize = defaultFooterLength)
    (header : result.header = (event.header.withEventSize (result.portion.length % 2 ^ 32)).withNextEventPosition
      ((offset + result.portion.length) % 2 ^ 32)) : event.Relocated offset result.recalculateCrc := by
  unfold defaultCommonHeaderLength at parts
  obtain ⟨same,length,postHeaderSize,footerSize⟩ := result.recalculateCrc_spec (by omega) (.inr footer)
  have fields : result.recalculateCrc.header = (event.header.withEventSize
      (result.recalculateCrc.portion.length % 2 ^ 32)).withNextEventPosition
      ((offset + result.recalculateCrc.portion.length) % 2 ^ 32) := by rw [same, length, header]
  refine ⟨⟨?_,.inr (footerSize.trans footer),congrArg CommonHeader.eventSize fields⟩,footerSize.trans footer,fields⟩
  rw [length, postHeaderSize, footerSize]
  exact parts

theorem materializeAndRelocate_spec (sound : event.Sound)
    (made : materializeAndRelocate event .forceAddChecksum offset = .ok rewritten) : event.Relocated offset rewritten := by
  rcases prepared : prepareGenericMaterializeInternal event .forceAddChecksum with ⟨mode,result⟩
  simp only [materializeAndRelocate, genericMaterialize, prepared, bind_eq_ok, pure_eq_ok] at made
  obtain ⟨_,rfl,rfl⟩ := made
  obtain ⟨header,postHeaderSize,footer,parts,sized⟩ := prepare_spec sound prepared
  obtain ⟨moved,length,sameSize,sameFooter⟩ := relocate_spec offset
    (by unfold defaultCommonHeaderLength at parts; omega) sized
  refine relocated_recalculateCrc ?_ (sameFooter.trans footer) ?_
  · rw [sameSize, sameFooter, length]
    exact parts
  · rw [moved, length, header]

theorem rewriteGtidLogInternal_spec (sound : event.Sound)
    (made : rewriteGtidLogInternal lastLocalSequenceNumber event offset = .ok rewritten) :
    event.Relocated offset rewritten := by
  rcases prepared : prepareGenericMaterializeInternal event .forceAddChecksum with ⟨mode,result⟩
  simp only [rewriteGtidLogInternal, genericMaterialize, prepared, bind_eq_ok, pure_eq_ok] at made
  obtain ⟨_,⟨postHeader,read,⟨sequenceNumber,lastCommitted⟩,-,rfl⟩,rfl⟩ := made
  obtain ⟨header,postHeaderSize,footer,parts,sized⟩ := prepare_spec sound prepared
  have whole : 19 ≤ result.portion.length := by
    unfold defaultCommonHeaderLength at parts
    omega
  obtain ⟨moved,length,sameSize,sameFooter⟩ := relocate_spec offset whole sized
  have inside : 19 + 42 ≤ (relocate offset mode result).portion.length := by
    have read := read
    simp only [GtidLogPostHeader.make, bind_eq_ok, raiseIf_eq_ok, exists_const, ne_eq, not_not] at read
    have taken := read.1
    simp only [EventView.getPostHeaderRaw, slice, List.length_take, List.length_drop, defaultCommonHeaderLength] at taken
    omega
  obtain ⟨same,kept⟩ := EventView.setPostHeaderRaw_spec (inside.trans_eq' (by rw [GtidLogPostHeader.length_encode
    { postHeader with sequenceNumber := sequenceNumber, lastCommitted := lastCommitted }]))
  refine relocated_recalculateCrc ?_ (sameFooter.trans footer) ?_
  · rw [← sameSize, ← sameFooter] at parts
    rw [kept, length]
    exact parts
  · rw [same, kept, moved, length, header]

/-- A GTID event with a footer is rewritten in place. -/
theorem rewriteGtidLogInternal_footed (sound : event.Sound) (footed : event.hasFooter = true) {postHeader : GtidLogPostHeader}
    (read : GtidLogPostHeader.make event.getPostHeaderRaw = .ok postHeader)
    (ordered : postHeader.lastCommitted < postHeader.sequenceNumber) :
    ∃ rewritten, rewriteGtidLogInternal lastLocalSequenceNumber event offset = .ok rewritten ∧
      rewritten.portion.length = event.portion.length := by
  have parts := sound.parts
  unfold defaultCommonHeaderLength at parts
  have prepared : prepareGenericMaterializeInternal event .forceAddChecksum = (.leaveChecksumAsIs,event) := by
    simp [prepareGenericMaterializeInternal,footed]
  obtain ⟨-,length,postHeaderSize,footerSize⟩ := relocate_spec offset (show 19 ≤ event.portion.length by omega)
    (fun _ => sound.size)
  have same : (relocate offset .leaveChecksumAsIs event).getPostHeaderRaw = event.getPostHeaderRaw := by
    rw [EventView.getPostHeaderRaw, postHeaderSize]
    exact slice_patch_after (by simp [defaultCommonHeaderLength]) (by simp; omega)
  have long : 19 + 42 ≤ event.portion.length := by
    simp only [GtidLogPostHeader.make, bind_eq_ok, raiseIf_eq_ok, exists_const, ne_eq, not_not] at read
    have taken := read.1
    simp only [EventView.getPostHeaderRaw, slice, List.length_take, List.length_drop, defaultCommonHeaderLength] at taken
    omega
  simp only [rewriteGtidLogInternal, genericMaterialize, prepared, bind_eq_ok, pure_eq_ok,
    fixSequenceNumberAndLastCommitted, raiseIf_eq_ok, exists_const, same]
  refine ⟨_,⟨_,⟨postHeader,read,_,⟨by omega,rfl⟩,rfl⟩,rfl⟩,?_⟩
  set updated : GtidLogPostHeader := { postHeader with
    sequenceNumber := (lastLocalSequenceNumber + 1) % 2 ^ 64
    lastCommitted := _ }
  obtain ⟨-,kept⟩ := EventView.setPostHeaderRaw_spec
    (show 19 + updated.encode.length ≤ (relocate offset .leaveChecksumAsIs event).portion.length by
      rw [GtidLogPostHeader.length_encode, length]
      exact long)
  rw [(EventView.recalculateCrc_spec ?_ ?_).2.1, kept, length]
  · rw [kept, length]
    exact (show 19 + (relocate offset .leaveChecksumAsIs event).footerSize ≤ _ by omega)
  · exact (show (relocate offset .leaveChecksumAsIs event).footerSize = 0 ∨ _ by rw [footerSize]; exact sound.footer)

theorem fixSequenceNumberAndLastCommitted_lt {remoteSequenceNumber remoteLastCommitted sequenceNumber lastCommitted : Nat}
    (fixed : fixSequenceNumberAndLastCommitted lastLocalSequenceNumber remoteSequenceNumber remoteLastCommitted =
      .ok (sequenceNumber,lastCommitted)) : sequenceNumber < 2 ^ 64 ∧ lastCommitted < 2 ^ 64 := by
  simp only [fixSequenceNumberAndLastCommitted, bind_eq_ok, raiseIf_eq_ok, exists_const, pure_eq_ok] at fixed
  obtain ⟨-,same⟩ := fixed
  cases same
  have below := Nat.mod_lt (lastLocalSequenceNumber + 1) (show 0 < 2 ^ 64 by decide)
  refine ⟨below,?_⟩
  split_ifs <;> omega

/-- The size that a body was given in the end is the one that was calculated for it. -/
theorem stabilizeEventSize_spec {body updated : GtidTaggedLogBody} {tail iterations candidate size : Nat}
    (stable : stabilizeEventSize body tail iterations candidate = (updated,size)) :
    ∃ length, updated = { body with transactionLength := length % 2 ^ 64 } ∧
      size = defaultCommonHeaderLength + updated.calculateEncodedSize + defaultFooterLength := by
  induction iterations generalizing candidate with
  | zero =>
    cases stable
    exact ⟨_,rfl,rfl⟩
  | succ iterations ih =>
    simp only [stabilizeEventSize] at stable
    split at stable
    · exact ih stable
    · cases stable
      exact ⟨_,rfl,rfl⟩

theorem rewriteGtidTaggedLogInternal_spec (sound : event.Sound)
    (made : rewriteGtidTaggedLogInternal lastLocalSequenceNumber event offset = .ok rewritten) :
    event.Relocated offset rewritten := by
  simp only [rewriteGtidTaggedLogInternal, bind_eq_ok, raiseIf_eq_ok, exists_const, pure_eq_ok] at made
  obtain ⟨body,read,-,⟨sequenceNumber,lastCommitted⟩,fixed,rfl⟩ := made
  obtain ⟨numberBound,committedBound⟩ := fixSequenceNumberAndLastCommitted_lt fixed
  rcases stable : stabilizeEventSize { body with sequenceNumber := sequenceNumber, lastCommitted := lastCommitted }
    (body.transactionLength - event.getTotalSize) maxNumberOfIterations event.getTotalSize with ⟨updated,size⟩
  obtain ⟨length,same,rfl⟩ := stabilizeEventSize_spec stable
  have bounded : updated.Bounded := by
    rw [same]
    exact { GtidTaggedLogBody.make_bounded read with
      sequenceNumber := numberBound
      lastCommitted := committedBound
      transactionLength := Nat.mod_lt _ (by decide) }
  clear same stable
  have whole := sound.parts
  have front : event.getCommonHeaderRaw.length = 19 := slice_length (by unfold defaultCommonHeaderLength at *; omega)
  set result : EventView := ⟨event.getCommonHeaderRaw ++ updated.encode ++ List.replicate defaultFooterLength 0,0,
    defaultFooterLength⟩ with built
  have total : result.portion.length = defaultCommonHeaderLength + updated.calculateEncodedSize + defaultFooterLength := by
    simp only [built, List.length_append, front, bounded.length_encode, List.length_replicate, defaultCommonHeaderLength]
  have header : result.header = event.header := by
    rw [EventView.header, built, List.append_assoc, CommonHeader.ofView_append front.ge]
    exact CommonHeader.ofView_front
  have long : 19 ≤ result.portion.length := by
    rw [total]
    unfold defaultCommonHeaderLength
    omega
  obtain ⟨sizeHeader,sizeLength⟩ := result.setEventSizeRaw_spec long
    (defaultCommonHeaderLength + updated.calculateEncodedSize + defaultFooterLength)
  obtain ⟨nextHeader,nextLength⟩ := EventView.setNextEventPositionRaw_spec (long.trans_eq sizeLength.symm)
    (offset + (defaultCommonHeaderLength + updated.calculateEncodedSize + defaultFooterLength))
  refine relocated_recalculateCrc ?_ rfl ?_
  · rw [nextLength, sizeLength, total]
    simp only [built, EventView.setNextEventPositionRaw, EventView.setEventSizeRaw, EventView.withPortion]
    omega
  · rw [nextHeader, sizeHeader, nextLength, sizeLength, total, header]

/-- A rewritten event is the event at its new place. -/
theorem rewrite_spec (sound : event.Sound) (made : rewrite lastLocalSequenceNumber event offset = .ok rewritten) :
    event.Relocated offset rewritten := by
  unfold rewrite at made
  split at made
  · exact rewriteGtidLogInternal_spec sound made
  · exact rewriteGtidLogInternal_spec sound made
  · exact rewriteGtidTaggedLogInternal_spec sound made
  · exact materializeAndRelocate_spec sound made

end Rewriter
end BinlogServer.Events
