import BinlogServer.Events.Rewritten

/-!
# Materialized events

A copy of an event has a footer or has none, as the mode asks for. In each of the modes it is the event without its
footer, with the size of the copy in its header, followed by the checksum of that if there is a footer. What the copy
is does not depend on the footer the event had, so a footer that was added is removed again without a trace, and the
other way round.
-/

namespace BinlogServer.Events
open ByteString Util

namespace EventView
variable {event : EventView}

/-- Everything before the footer. -/
def front (event : EventView) : Bytes := event.portion.take (event.getTotalSize - event.footerSize)

/-- An event that consists of this, with the size it has then, and a footer if there is to be one. -/
def assemble (front : Bytes) (postHeaderSize : Nat) (footed : Bool) : EventView :=
  let footerSize := if footed then defaultFooterLength else 0
  let front := CommonHeader.setEventSizeRaw ((front.length + footerSize) % 2 ^ 32) front
  ⟨front ++ (if footed then Footer.encode (calculateCrc32 front) else []),postHeaderSize,footerSize⟩

theorem Sound.front_length (sound : event.Sound) : event.front.length = event.portion.length - event.footerSize ∧
    defaultCommonHeaderLength + event.postHeaderSize ≤ event.front.length := by
  have parts := sound.parts
  have length : event.front.length = event.portion.length - event.footerSize := by
    rw [front, List.length_take, getTotalSize]
    omega
  exact ⟨length,by omega⟩

theorem Sound.front_append (sound : event.Sound) : event.portion = event.front ++ event.getFooterRaw := by
  have parts := sound.parts
  rw [getFooterRaw, slice, List.take_of_length_le (by rw [List.length_drop, getTotalSize]; omega)]
  exact (List.take_append_drop _ _).symm

/-- The parts of an event but its footer. -/
theorem Sound.front_parts (sound : event.Sound) : event.header = .ofView event.front ∧
    event.getPostHeaderRaw = slice defaultCommonHeaderLength event.postHeaderSize event.front ∧
    event.getBodyRaw = slice (defaultCommonHeaderLength + event.postHeaderSize)
      (event.front.length - defaultCommonHeaderLength - event.postHeaderSize) event.front := by
  obtain ⟨length,long⟩ := sound.front_length
  have body : event.getBodySize = event.front.length - defaultCommonHeaderLength - event.postHeaderSize := by
    rw [getBodySize, length, getTotalSize]
    omega
  refine ⟨?_,?_,?_⟩
  · rw [header, sound.front_append]
    exact CommonHeader.ofView_append (by unfold defaultCommonHeaderLength at long; omega) _
  · rw [getPostHeaderRaw, sound.front_append]
    exact slice_append long _
  · rw [getBodyRaw, body, sound.front_append]
    exact slice_append (by omega) _

/-- The copy of a footer is the checksum of what is before it. -/
theorem recalculateCrc_eq (whole : event.footerSize ≤ event.portion.length)
    (footer : event.footerSize = 0 ∨ event.footerSize = defaultFooterLength) :
    event.recalculateCrc = ⟨event.front ++ (if event.hasFooter then Footer.encode (calculateCrc32 event.front) else []),
      event.postHeaderSize,event.footerSize⟩ := by
  obtain ⟨portion,postHeaderSize,footerSize⟩ := event
  simp only at whole footer
  rcases footer with rfl | rfl
  · simp [recalculateCrc,hasFooter,front,getTotalSize]
  · set before := portion.take (portion.length - defaultFooterLength) with cut
    have width : before.length = portion.length - defaultFooterLength := by
      rw [cut, List.length_take]
      omega
    have rest : (portion.drop (portion.length - defaultFooterLength)).length = 4 := by
      rw [List.length_drop]
      unfold defaultFooterLength at *
      omega
    have crc : patch before.length (Footer.encode (calculateCrc32 before))
        (before ++ portion.drop (portion.length - defaultFooterLength)) = before ++ Footer.encode (calculateCrc32 before) :=
      patch_end (rest.trans (leBytes_length 4 _).symm)
    rw [width, List.take_append_drop] at crc
    simp only [recalculateCrc, hasFooter, front, calculateCrc, getTotalSize, withPortion, ← cut]
    rw [crc]
    rfl

section Assembled
variable {bytes : Bytes} {postHeaderSize : Nat} {footed : Bool}

theorem assemble_front : (assemble bytes postHeaderSize footed).front =
    CommonHeader.setEventSizeRaw ((bytes.length + if footed then defaultFooterLength else 0) % 2 ^ 32) bytes := by
  cases footed with
  | false => simp [assemble,front,getTotalSize]
  | true => simp [assemble,front,getTotalSize,Footer.encode,defaultFooterLength]

theorem assemble_hasFooter : (assemble bytes postHeaderSize footed).hasFooter = footed := by
  cases footed <;> rfl

theorem assemble_length (whole : defaultCommonHeaderLength ≤ bytes.length) :
    (assemble bytes postHeaderSize footed).portion.length = bytes.length + if footed then defaultFooterLength else 0 := by
  unfold defaultCommonHeaderLength at whole
  have length : (CommonHeader.setEventSizeRaw ((bytes.length + if footed then defaultFooterLength else 0) % 2 ^ 32)
      bytes).length = bytes.length := patch_length (by simp; omega)
  cases footed with
  | false => simpa [assemble] using length
  | true => simpa [assemble,Footer.encode,defaultFooterLength] using length

theorem assemble_header (whole : defaultCommonHeaderLength ≤ bytes.length) :
    (assemble bytes postHeaderSize footed).header = (CommonHeader.ofView bytes).withEventSize
      ((bytes.length + if footed then defaultFooterLength else 0) % 2 ^ 32) := by
  unfold defaultCommonHeaderLength at whole
  rw [← CommonHeader.ofView_setEventSizeRaw whole (Nat.mod_lt _ (by decide))]
  exact CommonHeader.ofView_append (whole.trans_eq (patch_length (by simp; omega)).symm) _

theorem assemble_sound (whole : defaultCommonHeaderLength + postHeaderSize ≤ bytes.length) :
    (assemble bytes postHeaderSize footed).Sound := by
  have length := @assemble_length bytes postHeaderSize footed (le_of_add_le_left whole)
  have header := @assemble_header bytes postHeaderSize footed (le_of_add_le_left whole)
  refine ⟨?_,?_,?_⟩
  · rw [length]
    simp only [assemble]
    omega
  · cases footed
    · exact .inl rfl
    · exact .inr rfl
  · rw [length]
    exact congrArg CommonHeader.eventSize header

/-- The footer has the checksum of what is before it. -/
theorem assemble_crc (whole : defaultCommonHeaderLength + postHeaderSize ≤ bytes.length) :
    Footer.getCrcRaw (assemble bytes postHeaderSize true).getFooterRaw =
      (assemble bytes postHeaderSize true).calculateCrc := by
  have parts := (@assemble_sound bytes postHeaderSize true whole).front_append
  have same : (assemble bytes postHeaderSize true).getFooterRaw =
      Footer.encode (calculateCrc32 (assemble bytes postHeaderSize true).front) := by
    apply List.append_cancel_left
    rw [← parts, assemble_front]
    rfl
  rw [same]
  exact leNat_leBytes_of_lt (calculateCrc32_lt _)

/-- The parts after the header are those it was assembled from. -/
theorem assemble_parts (whole : defaultCommonHeaderLength + postHeaderSize ≤ bytes.length) :
    (assemble bytes postHeaderSize footed).getPostHeaderRaw = slice defaultCommonHeaderLength postHeaderSize bytes ∧
      (assemble bytes postHeaderSize footed).getBodyRaw = slice (defaultCommonHeaderLength + postHeaderSize)
        (bytes.length - defaultCommonHeaderLength - postHeaderSize) bytes := by
  obtain ⟨-,postHeader,body⟩ := (@assemble_sound bytes postHeaderSize footed whole).front_parts
  unfold defaultCommonHeaderLength at *
  have inside : ∀ eventSize, 9 + (leBytes 4 eventSize).length ≤ bytes.length := by
    intro eventSize
    simp
    omega
  have length : (assemble bytes postHeaderSize footed).front.length = bytes.length := by
    rw [assemble_front]
    exact patch_length (inside _)
  rw [length, assemble_front] at body
  rw [assemble_front] at postHeader
  refine ⟨postHeader.trans ?_,body.trans ?_⟩
  · exact slice_patch_after (by simp) (inside _)
  · exact slice_patch_after (by simp; omega) (inside _)

/-- What is assembled from a copy is assembled from the event itself. -/
theorem assemble_again (whole : defaultCommonHeaderLength ≤ bytes.length) (again : Bool) :
    assemble (assemble bytes postHeaderSize footed).front postHeaderSize again = assemble bytes postHeaderSize again := by
  unfold defaultCommonHeaderLength at whole
  have length : (assemble bytes postHeaderSize footed).front.length = bytes.length := by
    rw [assemble_front]
    exact patch_length (by simp; omega)
  have header : ∀ eventSize, CommonHeader.setEventSizeRaw eventSize (assemble bytes postHeaderSize footed).front =
      CommonHeader.setEventSizeRaw eventSize bytes := by
    intro eventSize
    rw [assemble_front]
    exact patch_patch (by simp) (by simp; omega)
  rw [assemble, length]
  simp only [header]
  rfl

end Assembled
end EventView

/-- Whether a copy has a footer. -/
def MaterializationType.footed (hasFooter : Bool) : MaterializationType → Bool
  | .leaveChecksumAsIs => hasFooter
  | .forceAddChecksum => true
  | .forceRemoveChecksum => false

theorem CommonHeader.setEventSizeRaw_self {bytes : Bytes} (whole : 19 ≤ bytes.length) :
    setEventSizeRaw (getEventSizeRaw bytes) bytes = bytes := by
  have field := leBytes_leNat (slice 9 4 bytes)
  rw [slice_length (by omega)] at field
  rw [setEventSizeRaw, getEventSizeRaw, field, patch_slice (by omega)]

namespace Rewriter
open EventView
variable {event : EventView}

/-- The header of the copy has the size already. -/
theorem materialize_kept (sound : event.Sound) : materialize event .leaveChecksumAsIs =
    .ok (assemble event.front event.postHeaderSize event.hasFooter) := by
  obtain ⟨length,long⟩ := sound.front_length
  have parts := sound.parts
  unfold defaultCommonHeaderLength at parts long
  have size : (event.front.length + event.footerSize) % 2 ^ 32 = CommonHeader.getEventSizeRaw event.front := by
    have same : CommonHeader.getEventSizeRaw event.front = event.getEventSizeRaw := by
      conv_rhs => rw [getEventSizeRaw, sound.front_append]
      exact congrArg CommonHeader.eventSize (CommonHeader.ofView_append (by omega) _).symm
    rw [same, sound.size, length]
    congr 1
    omega
  have footerSize : (if event.hasFooter then defaultFooterLength else 0) = event.footerSize := by
    rcases sound.footer with none | four
    · simp [hasFooter,none]
    · simp [hasFooter,four,defaultFooterLength]
  simp only [materialize, genericMaterialize, prepareGenericMaterializeInternal, assemble, footerSize]
  rw [size, CommonHeader.setEventSizeRaw_self (by omega), ← recalculateCrc_eq (by omega) sound.footer]
  rfl

theorem materialize_added (sound : event.Sound) (footless : event.hasFooter = false) :
    materialize event .forceAddChecksum = .ok (assemble event.front event.postHeaderSize true) := by
  have parts := sound.parts
  unfold defaultCommonHeaderLength at parts
  obtain ⟨portion,postHeaderSize,footerSize⟩ := event
  obtain rfl : footerSize = 0 := by simpa [hasFooter] using footless
  simp only at parts
  have size : (⟨portion ++ List.replicate defaultFooterLength 0,postHeaderSize,defaultFooterLength⟩ :
      EventView).getTotalSize = portion.length + defaultFooterLength := by simp [getTotalSize]
  have header : CommonHeader.setEventSizeRaw ((portion.length + defaultFooterLength) % 2 ^ 32)
      (portion ++ List.replicate defaultFooterLength 0) =
      CommonHeader.setEventSizeRaw ((portion.length + defaultFooterLength) % 2 ^ 32) portion ++
        List.replicate defaultFooterLength 0 := patch_append (by simp; omega) _
  simp only [materialize, genericMaterialize, prepareGenericMaterializeInternal, footless, ne_eq, reduceCtorEq,
    not_false_eq_true, if_true, setEventSizeRaw, size, header, withPortion, pure_bind]
  rw [recalculateCrc_eq (by simp) (.inr rfl)]
  simp [front,getTotalSize,hasFooter,assemble,defaultFooterLength]

theorem materialize_removed (sound : event.Sound) (footed : event.hasFooter = true) :
    materialize event .forceRemoveChecksum = .ok (assemble event.front event.postHeaderSize false) := by
  have four : event.footerSize = defaultFooterLength := by
    apply sound.footer.resolve_left
    simpa [hasFooter] using footed
  have cut : event.portion.take (event.getTotalSize - defaultFooterLength) = event.front := by rw [front, four]
  simp only [materialize, genericMaterialize, prepareGenericMaterializeInternal, footed, ne_eq, reduceCtorEq,
    not_false_eq_true, if_true, setEventSizeRaw, withPortion, pure_bind, cut]
  simp [recalculateCrc,hasFooter,assemble,getTotalSize]

/-- A copy is assembled from what the event has before its footer. -/
theorem materialize_eq (sound : event.Sound) (mode : MaterializationType) :
    materialize event mode = .ok (assemble event.front event.postHeaderSize (mode.footed event.hasFooter)) := by
  have unchanged : ∀ mode, prepareGenericMaterializeInternal event mode = (.leaveChecksumAsIs,event) →
      materialize event mode = materialize event .leaveChecksumAsIs := by
    intro mode same
    rw [materialize, materialize, genericMaterialize, genericMaterialize, same]
    rfl
  cases mode with
  | leaveChecksumAsIs => exact materialize_kept sound
  | forceAddChecksum =>
    cases footed : event.hasFooter with
    | false => exact materialize_added sound footed
    | true =>
      rw [unchanged _ (by simp [prepareGenericMaterializeInternal,footed]), materialize_kept sound, footed]
      rfl
  | forceRemoveChecksum =>
    cases footed : event.hasFooter with
    | false =>
      rw [unchanged _ (by simp [prepareGenericMaterializeInternal,footed]), materialize_kept sound, footed]
      rfl
    | true => exact materialize_removed sound footed

/-- An event is what is assembled from it, unless its checksum is wrong. -/
theorem assemble_self (sound : event.Sound)
    (correct : event.hasFooter = true → Footer.getCrcRaw event.getFooterRaw = event.calculateCrc) :
    assemble event.front event.postHeaderSize event.hasFooter = event := by
  have copy := materialize_kept sound
  have unchanged : materialize event .leaveChecksumAsIs = .ok event.recalculateCrc := rfl
  obtain ⟨length,-⟩ := sound.front_length
  have parts := sound.parts
  rw [unchanged] at copy
  rw [← Except.ok.inj copy, recalculateCrc_eq (by omega) sound.footer]
  cases footed : event.hasFooter with
  | false =>
    have none : event.footerSize = 0 := by simpa [hasFooter] using footed
    have whole : event.front = event.portion := by simp [front,none,getTotalSize]
    simp only [whole, Bool.false_eq_true, if_false, List.append_nil]
  | true =>
    have width : event.getFooterRaw.length = 4 := by
      have four : event.footerSize = defaultFooterLength := sound.footer.resolve_left (by simpa [hasFooter] using footed)
      rw [getFooterRaw, four]
      exact slice_length (by rw [getTotalSize]; omega)
    have crc : Footer.encode (calculateCrc32 event.front) = event.getFooterRaw := by
      have same := correct footed
      unfold Footer.getCrcRaw calculateCrc at same
      rw [Footer.encode, front, ← same, ← width, leBytes_leNat]
    simp only [if_true, crc, ← sound.front_append]

/-- In every mode the copy has the footer that the mode asks for, its own size, the right checksum, and in everything
    else what the event has. Removing a footer that was added gives the event back, and so does adding one that was
    removed, if it was right. -/
theorem materialize_copies {context : ReaderContext} {portion : Bytes} (made : EventView.make context portion = .ok event)
    (small : event.portion.length + (if event.hasFooter then 0 else defaultFooterLength) < 2 ^ 32) :
    (∀ mode, ∃ copy, materialize event mode = .ok copy ∧
      (copy.hasFooter = true ↔
        mode = .forceAddChecksum ∨ mode = .leaveChecksumAsIs ∧ event.hasFooter = true) ∧
      copy.getEventSizeRaw = copy.portion.length ∧
      (copy.hasFooter = true → Footer.getCrcRaw copy.getFooterRaw = copy.calculateCrc) ∧
      copy.getPostHeaderRaw = event.getPostHeaderRaw ∧ copy.getBodyRaw = event.getBodyRaw ∧
      copy.header = event.header.withEventSize copy.portion.length) ∧
    (event.hasFooter = false → ∃ added, materialize event .forceAddChecksum = .ok added ∧
      materialize added .forceRemoveChecksum = .ok event) ∧
    (event.hasFooter = true → Footer.getCrcRaw event.getFooterRaw = event.calculateCrc →
      ∃ removed, materialize event .forceRemoveChecksum = .ok removed ∧
        materialize removed .forceAddChecksum = .ok event) := by
  obtain ⟨sound,-⟩ := make_sound made
  obtain ⟨length,long⟩ := sound.front_length
  obtain ⟨header,postHeader,body⟩ := sound.front_parts
  have whole : defaultCommonHeaderLength ≤ event.front.length := le_of_add_le_left long
  have copied : ∀ footed, (assemble event.front event.postHeaderSize footed).Sound := fun _ => assemble_sound long
  -- a second copy is assembled from the same front
  have again : ∀ footed mode, materialize (assemble event.front event.postHeaderSize footed) mode =
      .ok (assemble event.front event.postHeaderSize (mode.footed footed)) := by
    intro footed mode
    rw [materialize_eq (copied footed), assemble_hasFooter]
    exact congrArg _ (assemble_again whole _)
  refine ⟨?_,?_,?_⟩
  · intro mode
    obtain ⟨samePostHeader,sameBody⟩ := @assemble_parts _ _ (mode.footed event.hasFooter) long
    have total := @assemble_length event.front event.postHeaderSize (mode.footed event.hasFooter) whole
    have fits : event.front.length + (if mode.footed event.hasFooter then defaultFooterLength else 0) < 2 ^ 32 := by
      have parts := sound.parts
      rcases sound.footer with none | four
      · simp only [hasFooter, none, ne_eq, not_true_eq_false, decide_false, Bool.false_eq_true, if_false] at small
        split <;> omega
      · split <;> omega
    refine ⟨_,materialize_eq sound mode,?_,?_,?_,samePostHeader.trans postHeader.symm,sameBody.trans body.symm,?_⟩
    · rw [assemble_hasFooter]
      cases mode <;> simp [MaterializationType.footed]
    · rw [(copied _).size, total, Nat.mod_eq_of_lt fits]
    · rw [assemble_hasFooter]
      intro footed
      rw [footed]
      exact assemble_crc long
    · rw [assemble_header whole, Nat.mod_eq_of_lt fits, total, header]
  · intro footless
    refine ⟨_,materialize_eq sound _,?_⟩
    rw [again]
    have self := assemble_self sound (by simp [footless])
    rw [footless] at self
    exact congrArg _ self
  · intro footed correct
    refine ⟨_,materialize_eq sound _,?_⟩
    rw [again]
    have self := assemble_self sound (fun _ => correct)
    rw [footed] at self
    exact congrArg _ self

namespace Sample

/-- A ROTATE to the start of another file, without its footer. -/
def rotate (size : Nat) : Bytes :=
  leBytes 4 1700000000 ++ [4] ++ leBytes 4 1 ++ leBytes 4 size ++ leBytes 4 300 ++ leBytes 2 0 ++ leBytes 8 4 ++
    ascii "s.000002"

/-- The server does not send checksums. -/
def context : ReaderContext := .make 80400 false .gtid [] 4

/-- The server sends checksums. -/
def verifying : ReaderContext := .make 80400 true .gtid [] 4

def plain : EventView := ⟨rotate 35,8,0⟩

def checked : EventView := ⟨rotate 39 ++ leBytes 4 (calculateCrc32 (rotate 39)),8,4⟩

end Sample

theorem materialize_copies_sample :
    (EventView.make Sample.context Sample.plain.portion = .ok Sample.plain ∧
      ∃ added, materialize Sample.plain .forceAddChecksum = .ok added ∧ added = Sample.checked ∧
        materialize added .forceRemoveChecksum = .ok Sample.plain) ∧
    EventView.make Sample.verifying Sample.checked.portion = .ok Sample.checked ∧
      ∃ removed, materialize Sample.checked .forceRemoveChecksum = .ok removed ∧ removed = Sample.plain ∧
        materialize removed .forceAddChecksum = .ok Sample.checked := by
  have plain : EventView.make Sample.context Sample.plain.portion = .ok Sample.plain := by decide +kernel
  have checked : EventView.make Sample.verifying Sample.checked.portion = .ok Sample.checked := by decide +kernel
  have adding : materialize Sample.plain .forceAddChecksum = .ok Sample.checked := by decide +kernel
  have removing : materialize Sample.checked .forceRemoveChecksum = .ok Sample.plain := by decide +kernel
  obtain ⟨added,first,back⟩ := (materialize_copies plain (by decide)).2.1 (by decide)
  obtain ⟨removed,second,forth⟩ := (materialize_copies checked (by decide)).2.2 (by decide) (by decide +kernel)
  have same : added = Sample.checked := Except.ok.inj (first.symm.trans adding)
  have same' : removed = Sample.plain := Except.ok.inj (second.symm.trans removing)
  exact ⟨⟨plain,added,first,same,back⟩,checked,removed,second,same',forth⟩

end Rewriter
end BinlogServer.Events
