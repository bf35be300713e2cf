import BinlogServer.Events.Codecs
import BinlogServer.Events.Event

/-!
# Events that are created and read back

The buffer of `create_event` has the layout that the views expect, so that the event that is parsed from it is the one
that was created.
-/

namespace BinlogServer.Events
open ByteString Util Gtids

namespace CommonHeader

/-- The fields of a header are read back, whatever follows it. -/
theorem ofView_createWithOffset {offset eventSize timestamp serverId flags : Nat} (code : CodeType)
    (small : eventSize < 2 ^ 32) (bits : flags < 2 ^ 16) (rest : Bytes) :
    ofView (createWithOffset offset eventSize timestamp code serverId flags ++ rest) =
      create offset eventSize timestamp code (serverId % 2 ^ 32) flags := by
  have number : code.toIndex < 256 ^ 1 := by cases code <;> decide
  unfold ofView create createWithOffset encode getTimestampRaw getTypeCodeRaw getServerIdRaw getEventSizeRaw
    getNextEventPositionRaw getFlagsRaw
  set position := if code = .rotate ∧ flags.testBit 5 = true then 0 else (offset + eventSize) % 2 ^ 32 with next
  have below : position < 2 ^ 32 := by
    rw [next]
    split
    · decide
    · exact Nat.mod_lt _ (by decide)
  simp only [List.append_assoc]
  simp [slice,List.drop_append,leNat_leBytes,List.drop_of_length_le]
  exact ⟨number,small,below,bits⟩

theorem getTypeCode_append {header : Bytes} {values : CommonHeader} {code : CodeType}
    (fields : ∀ rest, ofView (header ++ rest) = values) (typed : values.typeCode = code.toIndex) (rest : Bytes) :
    getTypeCode (header ++ rest) = code := by
  have raw : getTypeCodeRaw (header ++ rest) = values.typeCode := congrArg CommonHeader.typeCode (fields rest)
  rw [getTypeCode, raw, typed, CodeType.ofRaw_toIndex]

end CommonHeader

/-- An event that was created has the size that is in its header. -/
theorem createEvent_ok {code : CodeType} {offset timestamp serverId flags : Nat} {postHeader body portion : Bytes}
    {includeChecksum : Bool}
    (created : createEvent code offset timestamp serverId flags postHeader body includeChecksum = .ok portion) :
    portion.length < 2 ^ 32 ∧
      portion.length = defaultCommonHeaderLength + postHeader.length + body.length +
        (if includeChecksum then defaultFooterLength else 0) ∧
      let encoded := CommonHeader.createWithOffset offset portion.length timestamp code serverId flags ++ postHeader ++ body
      portion = encoded ++ if includeChecksum then Footer.encode (calculateCrc32 encoded) else [] := by
  set total := defaultCommonHeaderLength + postHeader.length + body.length +
    (if includeChecksum then defaultFooterLength else 0) with total_eq
  have length : (CommonHeader.createWithOffset offset (total % 2 ^ 32) timestamp code serverId flags ++ postHeader ++
      body).length = defaultCommonHeaderLength + postHeader.length + body.length := by
    simp [defaultCommonHeaderLength]
    omega
  have modulo := Nat.mod_le total (2 ^ 32)
  have below := Nat.mod_lt total (show 0 < 2 ^ 32 by decide)
  simp only [createEvent, bind_eq_ok, raiseIf_eq_ok, exists_const, ← total_eq, length] at created
  obtain ⟨enough,created⟩ := created
  cases includeChecksum with
  | true =>
    simp only [Bool.true_or, if_true, bind_eq_ok, raiseIf_eq_ok, exists_const, pure_eq_ok, ne_eq, not_not] at created total_eq
    obtain ⟨room,rfl⟩ := created
    have fits : total % 2 ^ 32 = total := by omega
    have sized : (CommonHeader.createWithOffset offset (total % 2 ^ 32) timestamp code serverId flags ++ postHeader ++
        body ++ Footer.encode (calculateCrc32 (CommonHeader.createWithOffset offset (total % 2 ^ 32) timestamp code
          serverId flags ++ postHeader ++ body))).length = total := by
      rw [List.length_append, length, total_eq]
      simp [Footer.encode,defaultFooterLength]
    rw [sized, fits]
    exact ⟨by omega,rfl,rfl⟩
  | false =>
    simp only [Bool.false_or, Bool.false_eq_true, if_false, Nat.add_zero, decide_eq_true_eq] at created total_eq
    have fits : total % 2 ^ 32 = total := by omega
    rw [← total_eq] at length
    split at created
    · -- there is no room for the footer of a FORMAT_DESCRIPTION
      obtain ⟨_,room,-⟩ := bind_eq_ok.mp created
      have room := not_not.mp (raiseIf_eq_ok.mp room)
      unfold defaultFooterLength at room
      omega
    · rw [pure_eq_ok] at created
      subst created
      rw [length, fits]
      simp only [Bool.false_eq_true, if_false, List.append_nil, and_true]
      omega

theorem createEvent_header {code : CodeType} {offset timestamp serverId flags : Nat} {postHeader body portion : Bytes}
    {includeChecksum : Bool} (bits : flags < 2 ^ 16)
    (created : createEvent code offset timestamp serverId flags postHeader body includeChecksum = .ok portion) :
    CommonHeader.ofView portion = .create offset portion.length timestamp code (serverId % 2 ^ 32) flags ∧
      CommonHeader.getTypeCode portion = code := by
  obtain ⟨small,-,whole⟩ := createEvent_ok created
  have fields := @CommonHeader.ofView_createWithOffset offset portion.length timestamp serverId flags code small bits
  simp only [List.append_assoc] at whole
  have header : CommonHeader.ofView portion = .create offset portion.length timestamp code (serverId % 2 ^ 32) flags := by
    nth_rewrite 1 [whole]
    exact fields _
  refine ⟨header,?_⟩
  have raw : CommonHeader.getTypeCodeRaw portion = code.toIndex := congrArg CommonHeader.typeCode header
  rw [CommonHeader.getTypeCode, raw, CodeType.ofRaw_toIndex]

/-- The codes of the events that can be created. -/
def encodableCodes : List CodeType :=
  [.rotate,.formatDescription,.previousGtidsLog,.gtidLog,.anonymousGtidLog,.gtidTaggedLog]

/-- A post header that was read is written in its size and read again. -/
theorem PostHeader.make_encode {code : CodeType} (encodable : code ∈ encodableCodes) {portion : Bytes}
    {postHeader : PostHeader} (read : make code portion = .ok postHeader) :
    ∃ size bytes, postHeader.calculateEncodedSize = .ok size ∧ postHeader.encode = .ok bytes ∧
      bytes.length = size ∧ make code bytes = .ok postHeader := by
  have gtid : ∀ {header : GtidLogPostHeader}, GtidLogPostHeader.make portion = .ok header →
      GtidLogPostHeader.make header.encode = .ok header := fun read => (GtidLogPostHeader.make_bounded read).make_encode
  simp only [encodableCodes, List.mem_cons, List.not_mem_nil, or_false] at encodable
  rcases encodable with rfl | rfl | rfl | rfl | rfl | rfl <;>
    simp only [make, bind_eq_ok, pure_eq_ok, raiseIf_eq_ok, exists_const] at read ⊢
  · obtain ⟨position,read,rfl⟩ := read
    exact ⟨8,_,rfl,rfl,by simp [RotatePostHeader.encode],
      position,RotatePostHeader.make_eq_ok.mpr ⟨(RotatePostHeader.make_eq_ok.mp read).1,rfl⟩,rfl⟩
  · obtain ⟨header,read,rfl⟩ := read
    obtain ⟨version,readable⟩ := FormatDescriptionPostHeader.make_readable read
    obtain ⟨bytes,encoded,sized,again⟩ := readable.make_encode
    refine ⟨_,bytes,?_,encoded,sized,header,again,rfl⟩
    simp only [calculateEncodedSize, bind_eq_ok, pure_eq_ok]
    exact ⟨version,readable.parsed,rfl⟩
  · obtain ⟨-,rfl⟩ := read
    exact ⟨0,[],rfl,rfl,rfl,by simp,rfl⟩
  · obtain ⟨header,read,rfl⟩ := read
    exact ⟨42,_,rfl,rfl,by simp,header,gtid read,rfl⟩
  · obtain ⟨header,read,rfl⟩ := read
    exact ⟨42,_,rfl,rfl,by simp,header,gtid read,rfl⟩
  · obtain ⟨-,rfl⟩ := read
    exact ⟨0,[],rfl,rfl,rfl,by simp,rfl⟩

/-- A body that was read is written in its size and read again; that of a FORMAT_DESCRIPTION has one byte. -/
theorem Body.make_encode {code : CodeType} (encodable : code ∈ encodableCodes) {portion : Bytes} {body : Body}
    (read : make code portion = .ok body) :
    ∃ size bytes, body.calculateEncodedSize = .ok size ∧ body.encode = .ok bytes ∧ bytes.length = size ∧
      make code bytes = .ok body ∧ (code = .formatDescription → bytes.length = 1) := by
  have gtid : ∀ {body : GtidLogBody}, GtidLogBody.make portion = .ok body →
      GtidLogBody.make body.encode = .ok body := fun read => (GtidLogBody.make_readable read).make_encode
  simp only [encodableCodes, List.mem_cons, List.not_mem_nil, or_false] at encodable
  rcases encodable with rfl | rfl | rfl | rfl | rfl | rfl <;>
    simp only [make, bind_eq_ok, pure_eq_ok, reduceCtorEq, false_implies, and_true, true_implies] at read ⊢
  · subst read
    exact ⟨_,_,rfl,rfl,rfl,rfl⟩
  · obtain ⟨algorithm,-,rfl⟩ := read
    exact ⟨1,_,rfl,rfl,by cases algorithm <;> rfl,⟨algorithm,FormatDescriptionBody.make_encode algorithm,rfl⟩,
      by cases algorithm <;> rfl⟩
  · subst read
    exact ⟨_,_,rfl,rfl,rfl,rfl⟩
  · obtain ⟨body,read,rfl⟩ := read
    exact ⟨_,_,rfl,rfl,by simp,body,gtid read,rfl⟩
  · obtain ⟨body,read,rfl⟩ := read
    exact ⟨_,_,rfl,rfl,by simp,body,gtid read,rfl⟩
  · obtain ⟨body,read,rfl⟩ := read
    have bounded := GtidTaggedLogBody.make_bounded read
    exact ⟨_,_,rfl,rfl,bounded.length_encode,body,bounded.make_encode,rfl⟩

namespace EventView

/-- The parts of an event that lies in a buffer part by part. -/
theorem parts {header postHeader body footer : Bytes} (sized : header.length = defaultCommonHeaderLength) :
    let event : EventView := ⟨header ++ postHeader ++ body ++ footer,postHeader.length,footer.length⟩
    event.getCommonHeaderRaw = header ∧ event.getPostHeaderRaw = postHeader ∧ event.getBodyRaw = body ∧
      event.getFooterRaw = footer ∧ event.calculateCrc = calculateCrc32 (header ++ postHeader ++ body) := by
  have front : (header ++ postHeader).length = defaultCommonHeaderLength + postHeader.length := by simp [sized]
  have total : (header ++ postHeader ++ body ++ footer).length - footer.length =
      (header ++ postHeader ++ body).length := by
    rw [List.length_append, Nat.add_sub_cancel]
  have size : (header ++ postHeader ++ body ++ footer).length - defaultCommonHeaderLength - postHeader.length -
      footer.length = body.length := by
    simp only [List.length_append, sized]
    omega
  simp only [getCommonHeaderRaw, getPostHeaderRaw, getBodyRaw, getBodySize, getFooterRaw, calculateCrc, getTotalSize,
    size, total, slice, List.drop_zero]
  refine ⟨?_,?_,?_,?_,?_⟩
  · rw [List.append_assoc, List.append_assoc, List.take_left' sized]
  · rw [List.append_assoc, List.append_assoc, List.drop_left' sized, List.take_left]
  · rw [List.append_assoc, List.drop_left' front, List.take_left]
  · rw [List.drop_left, List.take_length]
  · rw [List.take_left]

/-- A created event is found again part by part. -/
theorem parts_created {code : CodeType} {offset timestamp serverId flags : Nat} {postHeader body : Bytes}
    {includeChecksum : Bool} {event : EventView}
    (created : createEvent code offset timestamp serverId flags postHeader body includeChecksum = .ok event.portion)
    (postHeaderSize : event.postHeaderSize = postHeader.length)
    (footerSize : event.footerSize = if includeChecksum then defaultFooterLength else 0) :
    event.getPostHeaderRaw = postHeader ∧ event.getBodyRaw = body ∧
      (includeChecksum = true → event.getFooterRaw = Footer.encode event.calculateCrc) := by
  obtain ⟨-,-,whole⟩ := createEvent_ok created
  have sized := CommonHeader.createWithOffset_length offset event.portion.length timestamp code serverId flags
  generalize CommonHeader.createWithOffset offset event.portion.length timestamp code serverId flags = header at whole sized
  obtain ⟨portion,postHeaderSize',footerSize'⟩ := event
  simp only at whole postHeaderSize footerSize
  have footer : footerSize' = (if includeChecksum then Footer.encode (calculateCrc32 (header ++ postHeader ++ body))
      else []).length := by
    rw [footerSize]
    split <;> simp [Footer.encode,defaultFooterLength]
  clear created
  subst whole postHeaderSize footer
  obtain ⟨-,postHeaderRaw,bodyRaw,footerRaw,crc⟩ := @parts header postHeader body _ sized
  refine ⟨postHeaderRaw,bodyRaw,fun checked => ?_⟩
  rw [footerRaw, crc, if_pos checked]

/-- An event that lies in a buffer part by part is a view in a context that expects its parts. -/
theorem make_parts {header postHeader body footer : Bytes} {values : CommonHeader} {code : CodeType}
    {context : ReaderContext} (sized : header.length = defaultCommonHeaderLength)
    (fields : ∀ rest, CommonHeader.ofView (header ++ rest) = values) (typed : values.typeCode = code.toIndex)
    (size : values.eventSize = (header ++ postHeader ++ body ++ footer).length)
    (footed : footer.length = if code = .formatDescription ∨ context.footerExpected = true then defaultFooterLength else 0)
    (checked : footer ≠ [] → footer = Footer.encode (calculateCrc32 (header ++ postHeader ++ body)))
    (description : code = .formatDescription → body.length = 1 ∧ ∃ algorithm, FormatDescriptionBody.make body = .ok algorithm)
    (expected : code ≠ .formatDescription → context.getCurrentPostHeaderLength code = postHeader.length)
    (short : postHeader.length < unspecifiedPostHeaderLength) :
    make context (header ++ postHeader ++ body ++ footer) =
      .ok ⟨header ++ postHeader ++ body ++ footer,postHeader.length,footer.length⟩ := by
  have indexed : code.toIndex < CodeType.all.length := by cases code <;> decide
  obtain ⟨headerRaw,-,bodyRaw,footerRaw,crc⟩ := @parts header postHeader body footer sized
  have total : (header ++ postHeader ++ body ++ footer).length =
      defaultCommonHeaderLength + postHeader.length + body.length + footer.length := by
    simp only [List.length_append, sized]
  have ofWhole : CommonHeader.ofView (header ++ postHeader ++ body ++ footer) = values := by
    rw [List.append_assoc, List.append_assoc]
    exact fields _
  have ofHeader : CommonHeader.ofView header = values := by simpa using fields []
  have typeCode : CommonHeader.getTypeCode (header ++ postHeader ++ body ++ footer) = code := by
    rw [List.append_assoc, List.append_assoc]
    exact CommonHeader.getTypeCode_append fields typed _
  have raw : CommonHeader.getTypeCodeRaw header = values.typeCode := congrArg CommonHeader.typeCode ofHeader
  have eventSize : CommonHeader.getEventSizeRaw (header ++ postHeader ++ body ++ footer) = values.eventSize :=
    congrArg CommonHeader.eventSize ofWhole
  have footerSize : footerSizeFor context (header ++ postHeader ++ body ++ footer) = footer.length := by
    rw [footerSizeFor, typeCode, footed]
    by_cases same : code = .formatDescription <;> simp [same]
  have postHeaderSize : postHeaderSizeFor context (header ++ postHeader ++ body ++ footer) = .ok postHeader.length := by
    rw [postHeaderSizeFor, typeCode, footerSize, total]
    by_cases same : code = .formatDescription
    · obtain ⟨one,-⟩ := description same
      simp only [same, if_true, bind_eq_ok, raiseIf_eq_ok, pure_eq_ok, exists_const, one]
      omega
    · have length := expected same
      simp only [same, if_false, bind_eq_ok, raiseIf_eq_ok, pure_eq_ok, exists_const, length]
      exact ⟨by omega,by omega,trivial⟩
  have verified : verifyChecksum context
      ⟨header ++ postHeader ++ body ++ footer,postHeader.length,footer.length⟩ = .ok () := by
    have typed : getTypeCode ⟨header ++ postHeader ++ body ++ footer,postHeader.length,footer.length⟩ = code := typeCode
    rw [verifyChecksum, typed, bodyRaw, footerRaw, crc]
    by_cases present : footer = []
    · simp [present,hasFooter]
    · have agree : calculateCrc32 (header ++ postHeader ++ body) = Footer.getCrcRaw footer := by
        rw [checked present, Footer.getCrcRaw, Footer.encode, leNat_leBytes_of_lt (calculateCrc32_lt _)]
      split_ifs with off absent same
      · rfl
      · rfl
      · obtain ⟨-,algorithm,read⟩ := description same
        simp only [bind_eq_ok]
        refine ⟨algorithm,read,?_⟩
        split
        · rfl
        · exact raiseIf_eq_ok.mpr (not_not.mpr agree)
      · exact raiseIf_eq_ok.mpr (not_not.mpr agree)
  simp only [make, bind_eq_ok, raiseIf_eq_ok, exists_const, pure_eq_ok, postHeaderSize, footerSize]
  refine ⟨?_,(),?_,?_,_,rfl,(),verified,rfl⟩
  · rw [total]
    omega
  · have front : slice 0 defaultCommonHeaderLength (header ++ postHeader ++ body ++ footer) = header := headerRaw
    rw [front]
    simp only [CommonHeader.validate, bind_eq_ok, raiseIf_eq_ok, exists_const]
    exact ⟨by simp [sized],by rw [raw, typed]; omega⟩
  · rw [eventSize, size]
    simp

end EventView

namespace Event
variable {code : CodeType} {timestamp serverId flags postHeaderSize bodySize : Nat} {postHeader : PostHeader} {body : Body}
  {includeChecksum : Bool}

/-- The footer over the other parts of an event. -/
def footerOf (includeChecksum : Bool) (encoded : Bytes) : Bytes :=
  if includeChecksum then Footer.encode (calculateCrc32 encoded) else []

theorem length_footerOf (includeChecksum : Bool) (encoded : Bytes) :
    (footerOf includeChecksum encoded).length = if includeChecksum then defaultFooterLength else 0 := by
  unfold footerOf
  split <;> simp [Footer.encode,defaultFooterLength]

/-- The parts of an event are created one after the other. -/
theorem create_eq {postHeaderBytes bodyBytes : Bytes} {eventSize offset : Nat}
    (described : code = .formatDescription → includeChecksum = true)
    (postHeaderSized : postHeader.calculateEncodedSize = .ok postHeaderBytes.length)
    (bodySized : body.calculateEncodedSize = .ok bodyBytes.length)
    (postHeaderEncoded : postHeader.encode = .ok postHeaderBytes) (bodyEncoded : body.encode = .ok bodyBytes)
    (size : eventSize = defaultCommonHeaderLength + postHeaderBytes.length + bodyBytes.length +
      if includeChecksum then defaultFooterLength else 0) (small : eventSize < 2 ^ 32) :
    let encoded := CommonHeader.createWithOffset offset eventSize timestamp code serverId flags ++ postHeaderBytes ++
      bodyBytes
    create code offset timestamp serverId flags postHeader body includeChecksum =
      .ok (⟨.create offset eventSize timestamp code serverId flags,postHeader,body,
        if includeChecksum then some (calculateCrc32 encoded) else none⟩,encoded ++ footerOf includeChecksum encoded) := by
  intro encoded
  have footed : (includeChecksum || decide (code = .formatDescription)) = includeChecksum := by
    cases includeChecksum with
    | true => rfl
    | false => simpa using fun same => absurd (described same) (by decide)
  have length : encoded.length = defaultCommonHeaderLength + postHeaderBytes.length + bodyBytes.length := by
    simp [encoded,defaultCommonHeaderLength]
    omega
  simp only [create, bind_eq_ok, raiseIf_eq_ok, exists_const]
  refine ⟨_,postHeaderSized,_,bodySized,?_⟩
  rw [← size, Nat.mod_eq_of_lt small, footed]
  refine ⟨by omega,_,postHeaderEncoded,_,bodyEncoded,?_⟩
  cases includeChecksum with
  | true =>
    simp only [if_true, bind_eq_ok, raiseIf_eq_ok, pure_eq_ok, exists_const] at size ⊢
    exact ⟨by change ¬ (eventSize - encoded.length ≠ _); omega,rfl⟩
  | false =>
    simp only [Bool.false_eq_true, if_false, Nat.add_zero] at size ⊢
    have none : eventSize - encoded.length = 0 := by omega
    change pure (_,encoded ++ List.replicate (eventSize - encoded.length) 0) = _
    rw [none]
    rfl

/-- What is left in the buffer depends on the encoded parts only. -/
theorem create_buffer {postHeaderBytes bodyBytes : Bytes} (offset timestamp serverId flags : Nat) (includeChecksum : Bool)
    (postHeaderSized : postHeader.calculateEncodedSize = .ok postHeaderBytes.length)
    (bodySized : body.calculateEncodedSize = .ok bodyBytes.length)
    (postHeaderEncoded : postHeader.encode = .ok postHeaderBytes) (bodyEncoded : body.encode = .ok bodyBytes) :
    (create code offset timestamp serverId flags postHeader body includeChecksum).map Prod.snd =
      createEvent code offset timestamp serverId flags postHeaderBytes bodyBytes includeChecksum := by
  simp only [create, createEvent, postHeaderSized, bodySized, postHeaderEncoded, bodyEncoded, bind, Except.bind]
  generalize sum : (defaultCommonHeaderLength + postHeaderBytes.length + bodyBytes.length +
    if includeChecksum = true then defaultFooterLength else 0) % 2 ^ 32 = eventSize
  have length : (CommonHeader.createWithOffset offset eventSize timestamp code serverId flags ++
      postHeaderBytes ++ bodyBytes).length = defaultCommonHeaderLength + postHeaderBytes.length + bodyBytes.length := by
    simp [defaultCommonHeaderLength]
    omega
  generalize CommonHeader.createWithOffset offset eventSize timestamp code serverId flags ++
    postHeaderBytes ++ bodyBytes = encoded at *
  rw [← length] at sum ⊢
  by_cases wraps : eventSize < encoded.length
  · simp [raiseIf,wraps,Except.map]
  · simp only [raiseIf, wraps, if_false]
    cases footed : includeChecksum || decide (code = .formatDescription) with
    | true =>
      simp only [if_true]
      split_ifs <;> rfl
    | false =>
      obtain ⟨rfl,-⟩ := Bool.or_eq_false_iff.mp footed
      have fits : eventSize - encoded.length = 0 := by
        simp only [Bool.false_eq_true, if_false, Nat.add_zero] at sum
        have := Nat.mod_le encoded.length (2 ^ 32)
        omega
      rw [fits]
      simp [Except.map,pure,Except.pure]

/-- An event that lies in a buffer part by part is read part by part. -/
theorem make_parts {header postHeaderBytes bodyBytes footer : Bytes} {values : CommonHeader} {context : ReaderContext}
    (sized : header.length = defaultCommonHeaderLength)
    (fields : ∀ rest, CommonHeader.ofView (header ++ rest) = values)
    (viewed : EventView.make context (header ++ postHeaderBytes ++ bodyBytes ++ footer) =
      .ok ⟨header ++ postHeaderBytes ++ bodyBytes ++ footer,postHeaderBytes.length,footer.length⟩)
    (typed : values.typeCode = code.toIndex)
    (postHeaderRead : PostHeader.make code postHeaderBytes = .ok postHeader) (bodyRead : Body.make code bodyBytes = .ok body) :
    make context (header ++ postHeaderBytes ++ bodyBytes ++ footer) =
      .ok ⟨values,postHeader,body,if footer.length ≠ 0 then some (Footer.getCrcRaw footer) else none⟩ := by
  obtain ⟨headerRaw,postHeaderRaw,bodyRaw,footerRaw,-⟩ := @EventView.parts header postHeaderBytes bodyBytes footer sized
  have typeCode : EventView.getTypeCode ⟨header ++ postHeaderBytes ++ bodyBytes ++ footer,postHeaderBytes.length,
      footer.length⟩ = code := by
    rw [EventView.getTypeCode, List.append_assoc, List.append_assoc]
    exact CommonHeader.getTypeCode_append fields typed _
  simp only [make, ofView, bind_eq_ok, pure_eq_ok, viewed]
  refine ⟨_,rfl,?_⟩
  rw [typeCode, headerRaw, postHeaderRaw, bodyRaw, footerRaw]
  have values : CommonHeader.ofView header = values := by simpa using fields []
  exact ⟨_,postHeaderRead,_,bodyRead,by rw [values]; simp [EventView.hasFooter]⟩

/-- A created event is parsed as it was created, in every context that expects a footer where it has one and a post
    header of its length. -/
theorem create_make (encodable : code ∈ encodableCodes) {postHeaderPortion bodyPortion : Bytes}
    (postHeaderRead : PostHeader.make code postHeaderPortion = .ok postHeader)
    (bodyRead : Body.make code bodyPortion = .ok body)
    (described : code = .formatDescription → includeChecksum = true)
    (server : serverId < 2 ^ 32) (bits : flags < 2 ^ 16)
    (postHeaderSized : postHeader.calculateEncodedSize = .ok postHeaderSize)
    (bodySized : body.calculateEncodedSize = .ok bodySize)
    (small : defaultCommonHeaderLength + postHeaderSize + bodySize +
      (if includeChecksum then defaultFooterLength else 0) < 2 ^ 32) (offset : Nat) :
    ∃ event buffer, create code offset timestamp serverId flags postHeader body includeChecksum = .ok (event,buffer) ∧
      CommonHeader.getEventSizeRaw buffer = buffer.length ∧
      CommonHeader.getNextEventPositionRaw buffer =
        (if code = .rotate ∧ flags.testBit 5 then 0 else (offset + buffer.length) % 2 ^ 32) ∧
      ∀ context : ReaderContext,
        (code ≠ .formatDescription → context.footerExpected = includeChecksum ∧
          context.getCurrentPostHeaderLength code = postHeaderSize) →
        make context buffer = .ok event := by
  obtain ⟨size,postHeaderBytes,sized,postHeaderEncoded,rfl,postHeaderAgain⟩ := PostHeader.make_encode encodable postHeaderRead
  cases sized.symm.trans postHeaderSized
  obtain ⟨size,bodyBytes,sized,bodyEncoded,rfl,bodyAgain,single⟩ := Body.make_encode encodable bodyRead
  cases sized.symm.trans bodySized
  obtain ⟨eventSize,size⟩ : ∃ eventSize, eventSize = defaultCommonHeaderLength + postHeaderBytes.length +
    bodyBytes.length + if includeChecksum then defaultFooterLength else 0 := ⟨_,rfl⟩
  rw [← size] at small
  have created : create code offset timestamp serverId flags postHeader body includeChecksum = _ :=
    create_eq described postHeaderSized bodySized postHeaderEncoded bodyEncoded size small
  have fields := @CommonHeader.ofView_createWithOffset offset eventSize timestamp serverId flags code small bits
  rw [Nat.mod_eq_of_lt server] at fields
  have sized : (CommonHeader.createWithOffset offset eventSize timestamp code serverId flags).length =
    defaultCommonHeaderLength := by simp [defaultCommonHeaderLength]
  generalize CommonHeader.createWithOffset offset eventSize timestamp code serverId flags = header at created fields sized
  have footed := length_footerOf includeChecksum (header ++ postHeaderBytes ++ bodyBytes)
  have total : (header ++ postHeaderBytes ++ bodyBytes ++ footerOf includeChecksum
      (header ++ postHeaderBytes ++ bodyBytes)).length = eventSize := by
    rw [List.length_append, footed, size]
    simp only [List.length_append, sized]
  refine ⟨_,_,created,?_,?_,fun context expects => ?_⟩
  · rw [total, List.append_assoc, List.append_assoc]
    exact congrArg CommonHeader.eventSize (fields _)
  · rw [total, List.append_assoc, List.append_assoc]
    exact congrArg CommonHeader.nextEventPosition (fields _)
  · have expected : (footerOf includeChecksum (header ++ postHeaderBytes ++ bodyBytes)).length =
        if code = .formatDescription ∨ context.footerExpected = true then defaultFooterLength else 0 := by
      rw [footed]
      by_cases same : code = .formatDescription
      · simp [same,described same]
      · simp [same,(expects same).1]
    have checked : footerOf includeChecksum (header ++ postHeaderBytes ++ bodyBytes) ≠ [] →
        footerOf includeChecksum (header ++ postHeaderBytes ++ bodyBytes) =
          Footer.encode (calculateCrc32 (header ++ postHeaderBytes ++ bodyBytes)) := by
      cases includeChecksum <;> simp [footerOf]
    have description : code = .formatDescription → bodyBytes.length = 1 ∧
        ∃ algorithm, FormatDescriptionBody.make bodyBytes = .ok algorithm := by
      rintro rfl
      simp only [Body.make, bind_eq_ok] at bodyAgain
      obtain ⟨algorithm,read,-⟩ := bodyAgain
      exact ⟨single rfl,algorithm,read⟩
    have short : postHeaderBytes.length < unspecifiedPostHeaderLength := by
      unfold unspecifiedPostHeaderLength
      omega
    have viewed : EventView.make context _ = _ := EventView.make_parts sized fields rfl total.symm expected checked
      description (fun other => (expects other).2) short
    rw [make_parts sized fields viewed rfl postHeaderAgain bodyAgain]
    cases includeChecksum with
    | true =>
      have crc : Footer.getCrcRaw (Footer.encode (calculateCrc32 (header ++ postHeaderBytes ++ bodyBytes))) =
        calculateCrc32 (header ++ postHeaderBytes ++ bodyBytes) := leNat_leBytes_of_lt (calculateCrc32_lt _)
      simp only [footerOf, if_true, crc]
      rfl
    | false => simp [footerOf]

/-- A ROTATE with a footer, and a reader that verifies checksums. -/
theorem create_make_rotate :
    let context := ReaderContext.make 80400 true .gtid [] 4
    (context.checksumVerificationEnabled = true ∧ context.getCurrentPostHeaderLength .rotate = 8) ∧
    ∃ event buffer, create .rotate 120 7 1 0 (.rotate 4) (.rotate Sample.name) true = .ok (event,buffer) ∧
      CommonHeader.getEventSizeRaw buffer = buffer.length ∧
      CommonHeader.getNextEventPositionRaw buffer = (120 + buffer.length) % 2 ^ 32 ∧ make context buffer = .ok event := by
  have expects : (ReaderContext.make 80400 true .gtid [] 4).getCurrentPostHeaderLength .rotate = 8 := by decide
  obtain ⟨event,buffer,created,size,position,parsed⟩ := @create_make .rotate 7 1 0 8 8 (.rotate 4) (.rotate Sample.name)
    true (by decide) (RotatePostHeader.encode 4) Sample.name (by decide) rfl (fun _ => rfl) (by decide) (by decide) rfl rfl
    (by decide) 120
  exact ⟨⟨rfl,expects⟩,event,buffer,created,size,by simpa using position,parsed _ (fun _ => ⟨rfl,expects⟩)⟩

end Event
end BinlogServer.Events
