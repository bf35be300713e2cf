import BinlogServer.Events.ReaderSteps
import BinlogServer.Events.TaggedRewriting

/-!
# The numbers of transactions

The first event of a transaction has a sequence number, and the number of the last transaction that has to be committed
before it. A local file counts its own transactions: the rewriter keeps the distance between the two numbers, as far as
the file reaches back.
-/

namespace BinlogServer.Events
open ByteString Util

namespace EventView

/-- The numbers of the first event of a transaction: its own, and the last one it depends on. -/
def numbers (event : EventView) : Fallible (Nat × Nat) :=
  match event.getTypeCode with
  | .gtidLog | .anonymousGtidLog => do
    let postHeader ← GtidLogPostHeader.make event.getPostHeaderRaw
    pure (postHeader.sequenceNumber,postHeader.lastCommitted)
  | .gtidTaggedLog => do
    let body ← GtidTaggedLogBody.make event.getBodyRaw
    pure (body.sequenceNumber,body.lastCommitted)
  | _ => throw ⟨.logicError,"not the first event of a transaction"⟩

/-- A GTID event of a local file, where every event has a footer. -/
def ofStored (portion : Bytes) : EventView :=
  ⟨portion,if CodeType.ofRaw (CommonHeader.getTypeCodeRaw portion) = .gtidTaggedLog then 0 else 42,defaultFooterLength⟩

end EventView

/-- The numbers in an event of a local file, if it is the first one of a transaction. -/
def storedNumbers (portion : Bytes) : Option (Nat × Nat) :=
  (EventView.ofStored portion).numbers.toOption

theorem storedNumbers_none {portion : Bytes}
    (other : (CodeType.ofRaw (CommonHeader.getTypeCodeRaw portion)).isGtid = false) : storedNumbers portion = none := by
  have code : (EventView.ofStored portion).getTypeCode.isGtid = false := other
  unfold storedNumbers EventView.numbers
  split
  · rename_i named
    simp [named,CodeType.isGtid] at code
  · rename_i anonymous
    simp [anonymous,CodeType.isGtid] at code
  · rename_i tagged
    simp [tagged,CodeType.isGtid] at code
  · rfl

/-- The type of an event is one of its bytes. -/
theorem storedNumbers_length {portion : Bytes} {numbers : Nat × Nat} (read : storedNumbers portion = some numbers) :
    5 ≤ portion.length := by
  by_contra short
  have blank : slice 4 1 portion = [] := by
    rw [slice, List.drop_eq_nil_of_le (by omega), List.take_nil]
  have code : CommonHeader.getTypeCodeRaw portion = 0 := by
    rw [CommonHeader.getTypeCodeRaw, blank]
    rfl
  rw [storedNumbers_none (by rw [code]; decide)] at read
  cases read

namespace EventView
variable {event : EventView}

/-- The sequence number of a transaction is that of its first event. -/
theorem numbers_of_info {gtid : Gtids.Gtid} {sequenceNumber length : Nat}
    (info : event.transactionInfo = .ok (gtid,sequenceNumber,length)) :
    ∃ lastCommitted, event.numbers = .ok (sequenceNumber,lastCommitted) := by
  unfold transactionInfo at info
  unfold numbers
  split at info
  · rename_i code
    simp only [bind_eq_ok, pure_eq_ok, Prod.mk.injEq] at info
    obtain ⟨postHeader,read,body,-,-,rfl,-⟩ := info
    simp only [code, bind_eq_ok, pure_eq_ok]
    exact ⟨_,postHeader,read,rfl⟩
  · rename_i code
    simp only [bind_eq_ok, pure_eq_ok, Prod.mk.injEq] at info
    obtain ⟨postHeader,read,_,-,body,-,-,rfl,-⟩ := info
    simp only [code, bind_eq_ok, pure_eq_ok]
    exact ⟨_,postHeader,read,rfl⟩
  · rename_i code
    simp only [bind_eq_ok, pure_eq_ok, Prod.mk.injEq] at info
    obtain ⟨body,read,_,-,-,rfl,-⟩ := info
    simp only [code, bind_eq_ok, pure_eq_ok]
    exact ⟨_,body,read,rfl⟩
  · exact absurd info throw_ne_ok

end EventView

namespace Rewriter
variable {event result rewritten : EventView} {mode : MaterializationType}
  {offset lastLocalSequenceNumber remoteSequenceNumber remoteLastCommitted sequenceNumber lastCommitted : Nat}

/-- The numbers that a transaction gets: the next one of the file, and one before it that is zero for the first
    transaction only. Another transaction of the file is not after what it depends on if it is as far away as in the
    numbers of the source, or if it is the first one. -/
theorem fixSequenceNumberAndLastCommitted_spec (small : lastLocalSequenceNumber + 1 < 2 ^ 64)
    (fixed : fixSequenceNumberAndLastCommitted lastLocalSequenceNumber remoteSequenceNumber remoteLastCommitted =
      .ok (sequenceNumber,lastCommitted)) :
    sequenceNumber = lastLocalSequenceNumber + 1 ∧ lastCommitted < sequenceNumber ∧
      (lastCommitted = 0 ↔ sequenceNumber = 1) ∧
      ∀ other, 0 < other → other < sequenceNumber → (other ≤ lastCommitted ↔
        remoteSequenceNumber - remoteLastCommitted ≤ sequenceNumber - other ∨ other = 1) := by
  simp only [fixSequenceNumberAndLastCommitted, bind_eq_ok, raiseIf_eq_ok, exists_const, pure_eq_ok, Prod.mk.injEq,
    Nat.mod_eq_of_lt small] at fixed
  obtain ⟨ordered,rfl,rfl⟩ := fixed
  by_cases reaches : lastLocalSequenceNumber + 1 > remoteSequenceNumber - remoteLastCommitted
  · rw [if_pos reaches]
    exact ⟨rfl,by omega,by omega,fun other positive before => by omega⟩
  · rw [if_neg reaches]
    by_cases first : lastLocalSequenceNumber + 1 = 1
    · rw [if_pos first]
      exact ⟨rfl,by omega,by omega,fun other positive before => by omega⟩
    · rw [if_neg first]
      exact ⟨rfl,by omega,iff_of_false one_ne_zero first,fun other positive before => by omega⟩

theorem prepare_getPostHeaderRaw (sound : event.Sound)
    (prepared : prepareGenericMaterializeInternal event .forceAddChecksum = (mode,result)) :
    result.getPostHeaderRaw = event.getPostHeaderRaw := by
  have inside : defaultCommonHeaderLength + event.postHeaderSize ≤ event.portion.length := by
    have parts := sound.parts
    omega
  unfold prepareGenericMaterializeInternal at prepared
  cases footed : event.hasFooter with
  | false =>
    rw [footed] at prepared
    cases prepared
    exact slice_append inside _
  | true =>
    rw [footed] at prepared
    cases prepared
    rfl

theorem relocate_getPostHeaderRaw (whole : 19 ≤ event.portion.length) :
    (relocate offset mode event).getPostHeaderRaw = event.getPostHeaderRaw := by
  have after : ∀ position : Nat, ∀ other : EventView, 19 ≤ other.portion.length →
      (other.setNextEventPositionRaw position).getPostHeaderRaw = other.getPostHeaderRaw := by
    intro position other whole
    exact slice_patch_after (by simp [defaultCommonHeaderLength]) (by simp; omega)
  by_cases leave : mode = .leaveChecksumAsIs
  · rw [relocate, if_neg (not_not.mpr leave)]
    exact after _ event whole
  · rw [relocate, if_pos leave, after _ _ (by rw [(EventView.setEventSizeRaw_spec whole _).2]; exact whole)]
    exact slice_patch_after (by simp [defaultCommonHeaderLength]) (by simp; omega)

/-- The post header of a rewritten GTID event is the one it was given. -/
theorem renumbered_getPostHeaderRaw {postHeader : Bytes} (length : postHeader.length = event.postHeaderSize)
    (parts : defaultCommonHeaderLength + event.postHeaderSize + event.footerSize ≤ event.portion.length)
    (footer : event.footerSize = defaultFooterLength) :
    (event.setPostHeaderRaw postHeader).recalculateCrc.getPostHeaderRaw = postHeader := by
  have inside : defaultCommonHeaderLength + postHeader.length ≤ event.portion.length := by omega
  have total : (event.setPostHeaderRaw postHeader).portion.length = event.portion.length := patch_length inside
  have footed : (event.setPostHeaderRaw postHeader).hasFooter = true := by
    simp [EventView.hasFooter,EventView.setPostHeaderRaw,footer,defaultFooterLength]
  have read : slice defaultCommonHeaderLength event.postHeaderSize (event.setPostHeaderRaw postHeader).portion = postHeader := by
    rw [← length]
    exact slice_patch_same inside
  rw [EventView.recalculateCrc, if_pos footed]
  refine (slice_patch_before ?_ ?_).trans read
  · have same : (event.setPostHeaderRaw postHeader).footerSize = event.footerSize := rfl
    rw [EventView.getTotalSize, total, same]
    exact Nat.le_sub_of_add_le parts
  · exact Nat.sub_le _ _

theorem rewriteGtidLogInternal_numbers (sound : event.Sound)
    (made : rewriteGtidLogInternal lastLocalSequenceNumber event offset = .ok rewritten) :
    ∃ postHeader updated : GtidLogPostHeader, GtidLogPostHeader.make event.getPostHeaderRaw = .ok postHeader ∧
      fixSequenceNumberAndLastCommitted lastLocalSequenceNumber postHeader.sequenceNumber postHeader.lastCommitted =
        .ok (updated.sequenceNumber,updated.lastCommitted) ∧
      GtidLogPostHeader.make rewritten.getPostHeaderRaw = .ok updated ∧ rewritten.postHeaderSize = 42 ∧
      updated = { postHeader with
        sequenceNumber := updated.sequenceNumber
        lastCommitted := updated.lastCommitted } := by
  rcases prepared : prepareGenericMaterializeInternal event .forceAddChecksum with ⟨mode,result⟩
  simp only [rewriteGtidLogInternal, genericMaterialize, prepared, bind_eq_ok, pure_eq_ok] at made
  obtain ⟨_,⟨postHeader,read,⟨sequenceNumber,lastCommitted⟩,fixed,rfl⟩,rfl⟩ := made
  obtain ⟨-,-,footer,parts,sized⟩ := prepare_spec sound prepared
  have whole : 19 ≤ result.portion.length := by
    unfold defaultCommonHeaderLength at parts
    omega
  obtain ⟨-,length,sameSize,sameFooter⟩ := relocate_spec offset whole sized
  rw [← sameSize, ← sameFooter, ← length] at parts
  set updated : GtidLogPostHeader := { postHeader with sequenceNumber := sequenceNumber, lastCommitted := lastCommitted }
    with built
  have bounded : updated.Bounded := by
    obtain ⟨numberBound,committedBound⟩ := fixSequenceNumberAndLastCommitted_lt fixed
    exact { GtidLogPostHeader.make_bounded read with sequenceNumber := numberBound, lastCommitted := committedBound }
  have size : (relocate offset mode result).postHeaderSize = 42 := by
    have taken : (relocate offset mode result).getPostHeaderRaw.length = 42 := by
      simp only [GtidLogPostHeader.make, bind_eq_ok, raiseIf_eq_ok, exists_const, ne_eq, not_not] at read
      exact read.1
    rw [EventView.getPostHeaderRaw, slice_length (by omega)] at taken
    exact taken
  refine ⟨postHeader,updated,?_,fixed,?_,?_,rfl⟩
  · rw [← read, relocate_getPostHeaderRaw whole, prepare_getPostHeaderRaw sound prepared]
  · rw [renumbered_getPostHeaderRaw (by rw [GtidLogPostHeader.length_encode, size]) parts (sameFooter.trans footer)]
    exact bounded.make_encode
  · rw [EventView.recalculateCrc]
    split <;> exact size

theorem rewriteGtidTaggedLogInternal_numbers (sound : event.Sound)
    (made : rewriteGtidTaggedLogInternal lastLocalSequenceNumber event offset = .ok rewritten) :
    ∃ body updated : GtidTaggedLogBody, GtidTaggedLogBody.make event.getBodyRaw = .ok body ∧
      fixSequenceNumberAndLastCommitted lastLocalSequenceNumber body.sequenceNumber body.lastCommitted =
        .ok (updated.sequenceNumber,updated.lastCommitted) ∧
      GtidTaggedLogBody.make rewritten.getBodyRaw = .ok updated ∧ rewritten.postHeaderSize = 0 ∧
      updated = { body with
        sequenceNumber := updated.sequenceNumber
        lastCommitted := updated.lastCommitted
        transactionLength := updated.transactionLength } := by
  have steps := made
  simp only [rewriteGtidTaggedLogInternal, bind_eq_ok, raiseIf_eq_ok, exists_const, pure_eq_ok] at steps
  obtain ⟨body,read,whole,⟨sequenceNumber,lastCommitted⟩,fixed,-⟩ := steps
  rcases stable : stabilizeEventSize { body with sequenceNumber := sequenceNumber, lastCommitted := lastCommitted }
    (body.transactionLength - event.getTotalSize) maxNumberOfIterations event.getTotalSize with ⟨updated,size⟩
  obtain rfl := Except.ok.inj (made.symm.trans
    (rewriteGtidTaggedLogInternal_eq sound read (not_lt.mp whole) fixed stable))
  obtain ⟨length,same,-⟩ := stabilizeEventSize_spec stable
  have bounded : updated.Bounded := by
    obtain ⟨numberBound,committedBound⟩ := fixSequenceNumberAndLastCommitted_lt fixed
    rw [same]
    exact { GtidTaggedLogBody.make_bounded read with
      sequenceNumber := numberBound
      lastCommitted := committedBound
      transactionLength := Nat.mod_lt _ (by decide) }
  refine ⟨body,updated,read,by rw [same]; exact fixed,?_,rfl,by rw [same]⟩
  obtain ⟨width,-⟩ := relocatedHeader_spec sound size offset
  obtain ⟨-,-,bodyRaw,-,-⟩ := @EventView.parts (relocatedHeader event size offset) [] updated.encode
    (Footer.encode (calculateCrc32 (relocatedHeader event size offset ++ updated.encode))) width
  simp only [List.append_nil, List.length_nil] at bodyRaw
  exact (congrArg GtidTaggedLogBody.make bodyRaw).trans bounded.make_encode

/-- A GTID event that is rewritten has numbers, and gets those of the file; they can be read from its bytes. -/
theorem rewrite_numbers (sound : event.Sound) (code : event.getTypeCode.isGtid = true)
    (made : rewrite lastLocalSequenceNumber event offset = .ok rewritten) :
    ∃ remote fixed, event.numbers = .ok remote ∧
      fixSequenceNumberAndLastCommitted lastLocalSequenceNumber remote.1 remote.2 = .ok fixed ∧
      rewritten.numbers = .ok fixed ∧ storedNumbers rewritten.portion = some fixed := by
  have relocated := rewrite_spec sound made
  have sameCode : rewritten.getTypeCode = event.getTypeCode :=
    congrArg CodeType.ofRaw (congrArg CommonHeader.typeCode relocated.header)
  suffices found : ∃ remote fixed, event.numbers = .ok remote ∧
      fixSequenceNumberAndLastCommitted lastLocalSequenceNumber remote.1 remote.2 = .ok fixed ∧
      rewritten.numbers = .ok fixed ∧
      rewritten.postHeaderSize = if rewritten.getTypeCode = .gtidTaggedLog then 0 else 42 by
    obtain ⟨remote,fixed,read,numbers,reread,size⟩ := found
    have stored : EventView.ofStored rewritten.portion = rewritten :=
      EventView.mk.injEq .. |>.mpr ⟨rfl,size.symm,relocated.footer.symm⟩
    exact ⟨remote,fixed,read,numbers,reread,by rw [storedNumbers, stored, reread]; rfl⟩
  unfold rewrite at made
  unfold EventView.numbers
  rw [sameCode]
  split at made
  · rename_i named
    obtain ⟨postHeader,updated,read,fixed,reread,size,-⟩ := rewriteGtidLogInternal_numbers sound made
    simp only [named, read, reread]
    exact ⟨_,_,rfl,fixed,rfl,size⟩
  · rename_i anonymous
    obtain ⟨postHeader,updated,read,fixed,reread,size,-⟩ := rewriteGtidLogInternal_numbers sound made
    simp only [anonymous, read, reread]
    exact ⟨_,_,rfl,fixed,rfl,size⟩
  · rename_i tagged
    obtain ⟨body,updated,read,fixed,reread,size,-⟩ := rewriteGtidTaggedLogInternal_numbers sound made
    simp only [tagged, read, reread]
    exact ⟨_,_,rfl,fixed,rfl,size⟩
  · rename_i named anonymous tagged
    simp only [CodeType.isGtid, Bool.or_eq_true, decide_eq_true_eq] at code
    tauto

end Rewriter
end BinlogServer.Events
