import BinlogServer.App.Preamble

/-!
# Where rewritten events are put

In the rewrite mode the end of an event is computed from where the storage is, and checked against where the reader is.
The two agree in every session that does not start where a file ends at a multiple of `2 ^ 32`; what is left is that no
event may end there.
-/

namespace BinlogServer.App
open ByteString Util Gtids Events Store

namespace Session

section Generated
variable {session session' : Session} {rotate event : EventView} {offset serverId : Nat} {binlogName : CompositeBinlogName}

/-- The parts of a generated ROTATE lie where the reader looks for them. -/
theorem generateRotateEvent_body {artificial : Bool}
    (run : generateRotateEvent offset serverId artificial binlogName session = .ok rotate session') {position : Nat}
    (read : RotatePostHeader.make rotate.getPostHeaderRaw = .ok position) : rotate.getBodyRaw = binlogName.str := by
  obtain ⟨-,view,timestamp,created,-⟩ := generateRotateEvent_ok run
  have bits : (if artificial then artificialFlag else 0) < 2 ^ 16 := by cases artificial <;> decide
  obtain ⟨-,code⟩ := createEvent_header bits created
  have parts := (EventView.make_sound view).1.parts
  have eight : rotate.postHeaderSize = (RotatePostHeader.encode magicBinlogOffset).length := by
    have taken := congrArg List.length (RotatePostHeader.make_eq_ok.mp read).2
    rw [EventView.getPostHeaderRaw, slice_length (by omega)] at taken
    simpa [RotatePostHeader.encode] using taken
  have footer : rotate.footerSize = if session.context.footerExpected then defaultFooterLength else 0 := by
    rw [EventView.make_footerSize view, EventView.footerSizeFor, code, if_neg (by decide)]
  exact (EventView.parts_created created eight footer).2.1

theorem generateRotateEvent_header {artificial : Bool}
    (run : generateRotateEvent offset serverId artificial binlogName session = .ok rotate session') :
    rotate.getTypeCode = .rotate ∧ rotate.isArtificial = artificial ∧
      rotate.getNextEventPositionRaw = if artificial then 0 else (offset + rotate.portion.length) % 2 ^ 32 := by
  obtain ⟨-,view,timestamp,created,-⟩ := generateRotateEvent_ok run
  have bits : (if artificial then artificialFlag else 0) < 2 ^ 16 := by cases artificial <;> decide
  obtain ⟨header,code⟩ := createEvent_header bits created
  have flags : CommonHeader.getFlagsRaw rotate.portion = if artificial then artificialFlag else 0 :=
    congrArg CommonHeader.flags header
  have next : CommonHeader.getNextEventPositionRaw rotate.portion = _ := congrArg CommonHeader.nextEventPosition header
  refine ⟨code,?_,?_⟩
  · rw [EventView.isArtificial, CommonHeader.isArtificial, flags]
    cases artificial <;> decide
  · rw [EventView.getNextEventPositionRaw, next, CommonHeader.create]
    cases artificial with
    | true => rfl
    | false => simp

end Generated

/-- The first file of a session does not end at a multiple of `2 ^ 32`. -/
def Continues (start : Session) : Prop :=
  start.storage.isEmpty = true ∨ start.storage.getCurrentPosition % 2 ^ 32 ≠ 0

section
variable [Externals] {start session session' m : Session} {event rewritten : EventView} {serverId : Nat}
  {binlogName : CompositeBinlogName} {config : RewriteConfig} {u : Unit}

/-- What is said about the events in the source's words is what the position check does. -/
theorem Joined.positionOk_iff (joined : Joined session) (sound : event.Sound)
    (next : event.getNextEventPositionRaw = (session.storage.getCurrentPosition + event.portion.length) % 2 ^ 32) :
    session.context.PositionOk event ↔
      session.Agrees ∧ (session.storage.getCurrentPosition + event.portion.length) % 2 ^ 32 ≠ 0 := by
  have small := joined.small
  unfold ReaderContext.PositionOk Agrees
  rw [next, sound.size]
  omega

/-- A generated artificial ROTATE that has been accepted names its file. -/
theorem Joined.rotateTo (joined : Joined session) {rotate : EventView} {offset : Nat}
    (generated : generateRotateEvent offset serverId true binlogName session = .ok rotate session)
    (run : processBinlogEvent rotate session = .ok () session') :
    rotate.Sound ∧ rotate.IsArtificialRotate ∧ rotate.getBodyRaw = binlogName.str := by
  have sound := (EventView.make_sound (generateRotateEvent_ok generated).2.1).1
  obtain ⟨code,artificial,-⟩ := generateRotateEvent_header generated
  obtain ⟨infoOnly,step,-⟩ := processBinlogEvent_ok joined.sound sound.nonempty run
  rcases step.kind with rotate | inner | last
  · exact ⟨sound,rotate,generateRotateEvent_body generated (step.rotated rotate).2⟩
  · exact absurd code inner.1
  · cases artificial.symm.trans last.artificial

/-- The events of a preamble leave the agreement as it is. -/
theorem Joined.preambled (joined : Joined session) {offset timestamp : Nat} {code : CodeType} {postHeader body : Bytes}
    (view : EventView.make session.context event.portion = .ok event)
    (created : createEvent code offset timestamp serverId 0 postHeader body true = .ok event.portion)
    (inner : code ≠ .rotate ∧ code ≠ .stop) (run : processBinlogEvent event session = .ok () session') :
    Joined session' ∧ session'.context.state ≠ .rotateArtificialExpected ∧
      session'.context.isFresh = session.context.isFresh ∧ (session'.Agrees ↔ session.Agrees) := by
  have coded : event.getTypeCode = code := (createEvent_header (by decide) created).2
  obtain ⟨joined,-,state,fresh,agrees⟩ := joined.moved (EventView.make_sound view).1 (coded ▸ inner) run
  exact ⟨joined,state,fresh,agrees⟩

/-- The preamble of a local file, once it has been named. -/
theorem Joined.startLocalFile (joined : Joined session)
    (run : startLocalFile serverId binlogName session = .ok u session') :
    Joined session' ∧ session'.context.state ≠ .rotateArtificialExpected ∧ session'.context.isFresh = false ∧
      (session'.Agrees ↔ (binlogName = session.storage.getCurrentBinlogName →
        session.storage.getCurrentPosition % 2 ^ 32 = magicBinlogOffset ∨
          session.context.isFresh = true ∧ session.storage.getCurrentPosition % 2 ^ 32 ≠ 0)) := by
  obtain ⟨rotate,entered,description,described,previousGtids,rotated,enter,generated,describe,encoded,finish⟩ :=
    startLocalFile_ok run
  obtain ⟨sound,artificial,name⟩ := joined.rotateTo rotated enter
  have place := joined.rotated_agrees sound artificial enter
  obtain ⟨joined,-,old,-⟩ := joined.rotated sound artificial enter
  obtain ⟨-,view,_,_,_,-,created⟩ := generateFormatDescriptionEvent_ok generated
  obtain ⟨joined,-,fresh,describedAgrees⟩ := joined.aged.aged.preambled view created (by decide) describe
  obtain ⟨-,view,_,_,_,-,created⟩ := generatePreviousGtidsLogEvent_ok encoded
  obtain ⟨joined,state,finished,agrees⟩ := joined.aged.preambled view created (by decide) finish
  refine ⟨joined,state,?_,?_⟩
  · rw [finished]
    exact fresh.trans old
  · rw [agrees]
    refine describedAgrees.trans (place.trans ?_)
    unfold RotatesInPlace
    rw [name, CompositeBinlogName.str_injective.eq_iff]
    exact ⟨fun found => found artificial,fun found _ => found⟩

omit [Externals] in
/-- A local file is gone on with after a connect only. -/
theorem nextBinlogName_ok (named : session.nextBinlogName config = .ok binlogName) :
    session.storage.isEmpty = false ∧ session.context.isFresh = true ∧
        binlogName = session.storage.getCurrentBinlogName ∨
      (session.storage.isEmpty = true ∨ session.context.isFresh = false) ∧
        binlogName ≠ session.storage.getCurrentBinlogName := by
  unfold nextBinlogName at named
  split at named
  · rename_i empty
    refine .inr ⟨.inl empty,?_⟩
    have none : session.storage.getCurrentBinlogName = .none := by
      have records : session.storage.records = [] := List.isEmpty_iff.mp empty
      simp [Storage.getCurrentBinlogName,records]
    rintro rfl
    cases (congrArg CompositeBinlogName.isEmpty none).symm.trans (CompositeBinlogName.make_nonempty named)
  · rename_i nonempty
    split at named
    · rename_i fresh
      exact .inl ⟨by simpa using nonempty,fresh,(pure_eq_ok.mp named).symm⟩
    · rename_i old
      refine .inr ⟨.inr (by simpa using old),?_⟩
      rintro rfl
      have number := (CompositeBinlogName.make_eq_ok.mp named).2.2
      omega

/-- The ROTATE at the end of a local file closes it. -/
theorem Joined.endLocalFile (joined : Joined session) (run : endLocalFile serverId binlogName session = .ok u session') :
    Joined session' ∧ session'.storage.getCurrentBinlogName = session.storage.getCurrentBinlogName := by
  obtain ⟨rotate,generated,run⟩ := endLocalFile_ok run
  have sound := (EventView.make_sound (generateRotateEvent_ok generated).2.1).1
  obtain ⟨code,plain,-⟩ := generateRotateEvent_header generated
  obtain ⟨infoOnly,step,-⟩ := processBinlogEvent_ok joined.aged.sound sound.nonempty run
  rcases step.kind with artificial | inner | last
  · cases plain.symm.trans artificial.artificial
  · exact absurd code inner.1
  · obtain ⟨joined,-,-,-,-,same⟩ := joined.aged.terminated sound last run
    exact ⟨joined,same⟩

/-- A session in the rewrite mode has not got an event to store, or has got all of them past the position check. -/
inductive Underway (start : Session) : Session → Prop where
  | waiting : Underway start start
  | inside {session : Session} (joined : Joined session) (state : session.context.state ≠ .rotateArtificialExpected)
      (old : session.context.isFresh = false) (agrees : session.Agrees) (continues : start.Continues) :
      Underway start session

/-- The next event finds the positions in agreement, if the session continues. -/
theorem Underway.prepared (underway : Underway start session) (joined : Joined start)
    (fresh : start.context.isFresh = true) (prepared : Prepared serverId config session m) :
    Joined m ∧ m.context.state ≠ .rotateArtificialExpected ∧ m.context.isFresh = false ∧
      (m.Agrees ↔ start.Continues) := by
  unfold Prepared at prepared
  cases underway with
  | waiting =>
    rw [if_pos (by simp [needsLocalFile,fresh])] at prepared
    obtain ⟨binlogName,_,named,same,started⟩ := changeLocalFile_ok prepared
    rw [if_pos fresh] at same
    rw [same] at started
    obtain ⟨joined,state,old,agrees⟩ := joined.startLocalFile started
    refine ⟨joined,state,old,agrees.trans ?_⟩
    unfold Continues
    rcases nextBinlogName_ok named with ⟨nonempty,-,rfl⟩ | ⟨empty,other⟩
    · simp only [nonempty, fresh, true_and, true_imp_iff, Bool.false_eq_true, false_or, magicBinlogOffset]
      omega
    · have empty : start.storage.isEmpty = true := empty.resolve_right (by simp [fresh])
      simp [other,empty]
  | inside joined state old agrees continues =>
    split at prepared
    · obtain ⟨binlogName,closed,named,ended,started⟩ := changeLocalFile_ok prepared
      rw [if_neg (by simp [old])] at ended
      obtain ⟨joined,same⟩ := joined.endLocalFile ended
      obtain ⟨joined,state,nonfresh,agrees⟩ := joined.startLocalFile started
      refine ⟨joined,state,nonfresh,iff_of_true (agrees.mpr fun current => ?_) continues⟩
      rcases nextBinlogName_ok named with ⟨-,new,-⟩ | ⟨-,other⟩
      · cases old.symm.trans new
      · exact absurd (current.trans same) other
    · subst prepared
      exact ⟨joined,state,old,iff_of_true agrees continues⟩

omit [Externals] in
/-- An event that a local file gets is not of the preamble, and does not end the file. -/
theorem isSkipped_false {code : CodeType} (kept : isSkipped code = false) :
    (code ≠ .rotate ∧ code ≠ .stop) ∧ ¬ (code = .formatDescription ∨ code = .previousGtidsLog) := by
  simp only [isSkipped, Bool.or_eq_false_iff, decide_eq_false_iff_not] at kept
  tauto

/-- A rewritten event passes the position check where the positions agree and it does not end at a multiple of
    `2 ^ 32`. -/
theorem Joined.rewritten_positionOk (joined : Joined m) (sound : event.Sound)
    (made : Rewriter.rewrite m.storage.getLastTransactionSequenceNumber event m.storage.getCurrentPosition = .ok rewritten) :
    rewritten.Sound ∧ rewritten.getTypeCode = event.getTypeCode ∧ (m.context.PositionOk rewritten ↔
      m.Agrees ∧ (m.storage.getCurrentPosition + rewritten.portion.length) % 2 ^ 32 ≠ 0) := by
  have relocated := Rewriter.rewrite_spec sound made
  have code : CommonHeader.getTypeCodeRaw rewritten.portion = CommonHeader.getTypeCodeRaw event.portion :=
    congrArg CommonHeader.typeCode relocated.header
  have next : rewritten.getNextEventPositionRaw = _ := congrArg CommonHeader.nextEventPosition relocated.header
  exact ⟨relocated.sound,congrArg CodeType.ofRaw code,joined.positionOk_iff relocated.sound next⟩

/-- What one packet does. -/
theorem Underway.step (underway : Underway start session) (joined : Joined start)
    (fresh : start.context.isFresh = true) {config : Config} {rewrite : RewriteConfig} (mode : config.rewrite = some rewrite)
    {packet : Bytes} (run : receivePacket config packet session = .ok u session') : Underway start session' := by
  obtain ⟨event,view,-,rewritten⟩ := receivePacket_ok run
  rcases rewriteAndProcessBinlogEvent_ok (rewritten rewrite mode) with ⟨-,rfl⟩ | ⟨kept,m,prepared,run⟩
  · exact underway
  · obtain ⟨joined,state,old,agrees⟩ := underway.prepared joined fresh prepared
    obtain ⟨relocated,made,processed⟩ := processRewritten_ok run
    obtain ⟨sound,code,positionOk⟩ := joined.rewritten_positionOk (EventView.make_sound view).1 made
    rw [← code] at kept
    obtain ⟨inner,plain⟩ := isSkipped_false kept
    obtain ⟨infoOnly,step,-⟩ := processBinlogEvent_ok joined.sound sound.nonempty processed
    have checked : m.context.PositionOk relocated := by
      have position := (step.moved inner).2.2.2.2
      rw [if_neg (by rw [step.written inner plain]; exact nofun)] at position
      exact position.1
    have agreed := (positionOk.mp checked).1
    obtain ⟨joined,-,state,same,kept⟩ := joined.moved sound inner processed
    exact .inside joined state (same.trans old) (kept.mpr agreed) (agrees.mp agreed)

theorem Underway.run (underway : Underway start session) (joined : Joined start)
    (fresh : start.context.isFresh = true) {config : Config} {rewrite : RewriteConfig} (mode : config.rewrite = some rewrite)
    {packets : List Bytes} (run : receivePackets config packets session = .ok u session') : Underway start session' := by
  induction packets generalizing session with
  | nil =>
    obtain ⟨-,rfl⟩ := Action.pure_eq_ok.mp run
    exact underway
  | cons packet packets ih =>
    obtain ⟨_,m,received,run⟩ := Action.bind_eq_ok.mp run
    exact ih (underway.step joined fresh mode received) run

/-- In a session in the rewrite mode the position check accepts a rewritten event exactly if the session has not started
    where a file ends at a multiple of `2 ^ 32`, and the event does not end there; and a generated ROTATE exactly if it
    does not end there. -/
theorem position_check_iff {config : Config} {rewrite : RewriteConfig} {serverVersion : Nat} {gtidPurged : Bytes}
    {clock calendar : Nat → Nat} {s : Storage} {point : RestartPoint} {packets : List Bytes} (reachable : Reachable s)
    (mode : config.rewrite = some rewrite)
    (connected : connect config serverVersion gtidPurged clock calendar s = .ok (point,start))
    (received : receivePackets config packets start = .ok () session) :
    (∀ portion event m rewritten, EventView.make session.context portion = .ok event →
        Prepared config.serverId rewrite session m →
        Rewriter.rewrite m.storage.getLastTransactionSequenceNumber event m.storage.getCurrentPosition = .ok rewritten →
        (m.context.validatePosition rewritten = .ok () ↔
          (s.isEmpty = true ∨ s.getCurrentPosition % 2 ^ 32 ≠ 0) ∧
            (m.storage.getCurrentPosition + rewritten.portion.length) % 2 ^ 32 ≠ 0)) ∧
      ∀ binlogName rotate, session.context.isFresh = false →
        generateRotateEvent (session.storage.getCurrentPosition % 2 ^ 32) config.serverId false binlogName session =
          .ok rotate session.aged →
        (session.context.validatePosition rotate = .ok () ↔
          (session.storage.getCurrentPosition + rotate.portion.length) % 2 ^ 32 ≠ 0) := by
  obtain ⟨joined,fresh,position,-,empty⟩ := connect_joined reachable.tracked connected
  have underway := (Underway.waiting : Underway start start).run joined fresh mode received
  refine ⟨fun portion event m rewritten view prepared made => ?_,fun binlogName rotate old generated => ?_⟩
  · obtain ⟨ready,-,-,agrees⟩ := underway.prepared joined fresh prepared
    obtain ⟨-,-,positionOk⟩ := ready.rewritten_positionOk (EventView.make_sound view).1 made
    rw [ReaderContext.validatePosition_eq_ok, positionOk, agrees, Continues, empty, position]
  · cases underway with
    | waiting => cases old.symm.trans fresh
    | inside joined state old agrees continues =>
      have sound := (EventView.make_sound (generateRotateEvent_ok generated).2.1).1
      have next := (generateRotateEvent_header generated).2.2
      rw [if_neg (by decide), Nat.mod_add_mod] at next
      rw [ReaderContext.validatePosition_eq_ok, joined.positionOk_iff sound next, and_iff_right agrees]

end

namespace Sample
attribute [local instance] FlatJson.externals

def rewriteConfig : RewriteConfig := ⟨ascii "b",1024⟩

/-- Local files of about 1024 bytes. -/
def rewriting : Config := ⟨1,true,some rewriteConfig⟩

/-- The first event of a transaction, with a checksum; it has 73 bytes. -/
def gtidLog : Bytes :=
  Events.Sample.encoded (createEvent .gtidLog 0 0 1 0
    (GtidLogPostHeader.encode ⟨0,Gtids.GtidSet.Sample.uuid,1,2,0,1⟩) (List.replicate 7 0 ++ [96]) true)

/-- The reader of a session that goes on with a file of so many bytes. -/
def readerAt (position : Nat) : ReaderContext := .make 80400 true .gtid Events.Sample.name position

def gtidView : EventView := ⟨gtidLog,42,4⟩

/-- The position of the reader once the local file is open. -/
def preparedPosition (session : Session) : Option Nat :=
  match changeLocalFile 1 rewriteConfig session with
  | .ok _ m => some m.context.position
  | .error _ _ => none

theorem prepared_of_position {session : Session} (fresh : session.context.isFresh = true) {position : Nat}
    (evaluated : preparedPosition session = some position) :
    ∃ m, Prepared 1 rewriteConfig session m ∧ m.context.position = position := by
  unfold preparedPosition at evaluated
  split at evaluated
  · rename_i m changed
    refine ⟨m,?_,Option.some.inj evaluated⟩
    rw [Prepared, if_pos (by simp [needsLocalFile,fresh]), changed]
  · cases evaluated

theorem gtidView_rewritten (lastLocalSequenceNumber offset : Nat) : ∃ rewritten,
    Rewriter.rewrite lastLocalSequenceNumber gtidView offset = .ok rewritten ∧ rewritten.portion.length = 73 := by
  have code : gtidView.getTypeCode = .gtidLog := by decide +kernel
  have sound : gtidView.Sound := ⟨by decide +kernel,by decide +kernel,by decide +kernel⟩
  have read : GtidLogPostHeader.make gtidView.getPostHeaderRaw = .ok ⟨0,Gtids.GtidSet.Sample.uuid,1,2,0,1⟩ := by
    decide +kernel
  obtain ⟨rewritten,made,length⟩ := @Rewriter.rewriteGtidLogInternal_footed gtidView offset lastLocalSequenceNumber sound
    (by decide +kernel) _ read (by decide)
  refine ⟨rewritten,?_,length.trans (by decide +kernel)⟩
  rw [Rewriter.rewrite, code]
  exact made

end Sample

section
attribute [local instance] FlatJson.externals

theorem position_check_iff_new : ∃ point m rewritten, Reachable Sample.opened ∧
    connect Sample.rewriting 80400 [] (fun _ => 0) (fun _ => 0) Sample.opened =
      .ok (point,Sample.sessionOf Sample.opened (Sample.readerAt 4)) ∧
    Prepared 1 Sample.rewriteConfig (Sample.sessionOf Sample.opened (Sample.readerAt 4)) m ∧
    Rewriter.rewrite m.storage.getLastTransactionSequenceNumber Sample.gtidView m.storage.getCurrentPosition =
      .ok rewritten ∧
    (m.context.validatePosition rewritten = .ok () ↔
      (Sample.opened.isEmpty = true ∨ Sample.opened.getCurrentPosition % 2 ^ 32 ≠ 0) ∧
        (m.storage.getCurrentPosition + rewritten.portion.length) % 2 ^ 32 ≠ 0) := by
  obtain ⟨point,connected⟩ : ∃ point, connect Sample.rewriting 80400 [] (fun _ => 0) (fun _ => 0) Sample.opened =
      .ok (point,Sample.sessionOf Sample.opened (Sample.readerAt 4)) := ⟨_,rfl⟩
  have reads : Sample.preparedPosition (Sample.sessionOf Sample.opened (Sample.readerAt 4)) = some 158 := by decide +kernel
  obtain ⟨m,prepared,-⟩ := Sample.prepared_of_position rfl reads
  obtain ⟨rewritten,made,-⟩ := Sample.gtidView_rewritten m.storage.getLastTransactionSequenceNumber
    m.storage.getCurrentPosition
  have view : EventView.make (Sample.readerAt 4) Sample.gtidLog = .ok Sample.gtidView := by decide +kernel
  exact ⟨point,m,rewritten,Sample.opened_reachable,connected,prepared,made,
    (@position_check_iff _ _ _ _ _ _ _ _ _ _ _ [] Sample.opened_reachable rfl connected rfl).1 _ _ m rewritten view prepared made⟩

/-- Seventy-three bytes before `2 ^ 32` an event of that size is rejected. -/
theorem position_check_rejects : ∃ s point start event m rewritten, Reachable s ∧
    connect Sample.rewriting 80400 [] (fun _ => 0) (fun _ => 0) s = .ok (point,start) ∧
    EventView.make start.context Sample.gtidLog = .ok event ∧ Prepared 1 Sample.rewriteConfig start m ∧
    Rewriter.rewrite m.storage.getLastTransactionSequenceNumber event m.storage.getCurrentPosition = .ok rewritten ∧
    m.context.position = 2 ^ 32 - 73 ∧ m.storage.getCurrentPosition % 2 ^ 32 = 2 ^ 32 - 73 ∧
    m.context.validatePosition rewritten =
      .error ⟨.logicError,"next event position in the event common header cannot be zero"⟩ := by
  have position : (Sample.held (2 ^ 31 - 77) (by decide)).getCurrentPosition = 2 ^ 32 - 73 := Sample.held_position _ _
  have reachable := @Sample.held_reachable (2 ^ 31 - 77) (by decide) (by decide)
  have reader : readerFor Sample.rewriting 80400 (Sample.held (2 ^ 31 - 77) (by decide)) =
      Sample.readerAt (2 ^ 32 - 73) := by
    rw [readerFor, position]
    rfl
  obtain ⟨point,connected⟩ : ∃ point, connect Sample.rewriting 80400 [] (fun _ => 0) (fun _ => 0)
      (Sample.held (2 ^ 31 - 77) (by decide)) =
        .ok (point,Sample.sessionOf (Sample.held (2 ^ 31 - 77) (by decide)) (Sample.readerAt (2 ^ 32 - 73))) := by
    rw [← reader]
    exact ⟨_,rfl⟩
  obtain ⟨m,prepared,reads⟩ := @Sample.prepared_of_position (Sample.sessionOf (Sample.held (2 ^ 31 - 77) (by decide))
    (Sample.readerAt (2 ^ 32 - 73))) rfl (2 ^ 32 - 73) (by decide +kernel)
  obtain ⟨rewritten,made,length⟩ := Sample.gtidView_rewritten m.storage.getLastTransactionSequenceNumber
    m.storage.getCurrentPosition
  obtain ⟨joined,fresh,-⟩ := connect_joined reachable.tracked connected
  have agrees : m.Agrees := by
    refine ((Underway.waiting.prepared joined fresh prepared).2.2.2).mpr (.inr ?_)
    rw [Sample.sessionOf_storage, position]
    decide
  have held : m.storage.getCurrentPosition % 2 ^ 32 = 2 ^ 32 - 73 := agrees.symm.trans reads
  have view : EventView.make (Sample.readerAt (2 ^ 32 - 73)) Sample.gtidLog = .ok Sample.gtidView := by decide +kernel
  have relocated := Rewriter.rewrite_spec (EventView.make_sound view).1 made
  have next : rewritten.getNextEventPositionRaw = (m.storage.getCurrentPosition + rewritten.portion.length) % 2 ^ 32 :=
    congrArg CommonHeader.nextEventPosition relocated.header
  refine ⟨_,point,_,Sample.gtidView,m,rewritten,reachable,connected,view,prepared,made,reads,held,?_⟩
  rw [ReaderContext.validatePosition, next, length, Nat.add_mod, held]
  rfl

end

end Session
end BinlogServer.App
