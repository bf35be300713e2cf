import BinlogServer.App.FileSizes
import BinlogServer.App.Numbering
import BinlogServer.App.Restarts
import BinlogServer.Store.Layout

/-!
# What local files are

In the rewrite mode the files are made here: their preambles and the ROTATEs at their ends are generated, and the events of
the source are rewritten in between. Whatever sessions and restarts there have been, the files are laid out as binlog
files are, each event in its place, with the gtids of all files before it in its PREVIOUS_GTIDS.
-/

namespace BinlogServer.App
open ByteString Util Gtids Events Store
open Store.Storage (Holds)
open Store.Layout (Rests)

namespace Session

section
variable [Externals] {session session' m : Session} {event : EventView} {front files : List LocalFile}
  {file : LocalFile} {stage : Stage} {told : List EventEntry} {serverId : Nat} {binlogName : CompositeBinlogName}
  {config : RewriteConfig} {u : Unit}

/-- An event inside a file is passed over or goes to the end of the current one. -/
theorem Filed.places (filed : Filed session (front ++ [file])) (sound : event.Sound)
    (inner : event.getTypeCode ≠ .rotate ∧ event.getTypeCode ≠ .stop)
    (run : processBinlogEvent event session = .ok () session') :
    ∃ infoOnly, ReaderContext.Step session.context event infoOnly session'.context ∧
      if infoOnly = true then Filed session' (front ++ [file])
      else Filed session' (front ++ [⟨file.name,file.entries ++ [entryFor event session'.context sound.nonempty]⟩]) := by
  obtain ⟨infoOnly,files',step,filing,filed⟩ := filed.step sound run
  refine ⟨infoOnly,step,?_⟩
  cases filing with
  | rotated name rotate => exact absurd rotate.code inner.1
  | passed inner => exact filed
  | written inner nonempty fits =>
    rw [LocalFile.onLast_concat] at filed
    exact filed
  | ended last =>
    rcases last.code with code | code
    · exact absurd code inner.1
    · exact absurd code inner.2

/-- The events in the files that are those of the source, and not of the files themselves. -/
def relayedIn (files : List LocalFile) : List EventEntry :=
  files.flatMap fun file => file.entries.filter fun entry => !isSkipped (CommonHeader.getTypeCode entry.data)

omit [Externals] in
theorem relayedIn_append (front back : List LocalFile) : relayedIn (front ++ back) = relayedIn front ++ relayedIn back :=
  List.flatMap_append

omit [Externals] in
/-- An event is added to the last file. -/
theorem relayedIn_concat (front : List LocalFile) (file : LocalFile) (entry : EventEntry) :
    relayedIn (front ++ [⟨file.name,file.entries ++ [entry]⟩]) = relayedIn (front ++ [file]) ++
      if isSkipped (CommonHeader.getTypeCode entry.data) = true then [] else [entry] := by
  rw [relayedIn_append, relayedIn_append, List.append_assoc]
  cases skipped : isSkipped (CommonHeader.getTypeCode entry.data) <;> simp [relayedIn,List.filter_append,skipped]

/-- A session whose files are laid out, up to a stage of the last one, with the events of the source in them. -/
structure Relaying (session : Session) (files : List LocalFile) (stage : Stage) (told : List EventEntry) : Prop where
  filed : Filed session files
  mode : session.storage.replicationMode = .gtid
  reads : session.context.replicationMode = .gtid
  footers : session.context.footerExpected = true
  layout : Layout session.storage.basis.contains files stage
  relayed : relayedIn files = told

theorem Relaying.aged (relaying : Relaying session files stage told) : Relaying session.aged files stage told :=
  ⟨relaying.filed.aged,relaying.mode,relaying.reads,relaying.footers,relaying.layout,relaying.relayed⟩

/-- An event goes to the end of the last file. -/
theorem Relaying.concat (relaying : Relaying session (front ++ [file]) stage told) (sound : event.Sound) {stage' : Stage}
    {infoOnly : Bool} (run : processBinlogEvent event session = .ok () session')
    (step : ReaderContext.Step session.context event infoOnly session'.context)
    (filed : Filed session' (front ++ [⟨file.name,file.entries ++ [entryFor event session'.context sound.nonempty]⟩]))
    (footers : session'.context.footerExpected = true)
    (next : Stage.Next (heldIn session.storage.basis.contains front) event stage stage')
    (seated : event.Seated session.storage.getCurrentPosition)
    (marked : session'.context.isAtTransactionBoundary = stage'.isWhole)
    (named : session'.context.transactionGtid = stage'.gtid) :
    Relaying session' (front ++ [⟨file.name,file.entries ++ [entryFor event session'.context sound.nonempty]⟩]) stage'
      (told ++ if isSkipped event.getTypeCode = true then [] else [entryFor event session'.context sound.nonempty]) := by
  obtain ⟨basis,mode⟩ := relaying.filed.basis sound relaying.mode run
  refine ⟨filed,mode,step.settings.1.trans relaying.reads,footers,?_,?_⟩
  swap
  · rw [relayedIn_concat, relaying.relayed]
    rfl
  rw [basis]
  have position : session.storage.getCurrentPosition = magicBinlogOffset + (bytesOf file.entries).length :=
    relaying.filed.holds.stored.2.1
  exact relaying.layout.extend next rfl (position ▸ seated) marked named

/-- An event that is passed over leaves the files. -/
theorem Relaying.pass (relaying : Relaying session files stage told) (sound : event.Sound) {infoOnly : Bool}
    (run : processBinlogEvent event session = .ok () session')
    (step : ReaderContext.Step session.context event infoOnly session'.context) (filed : Filed session' files)
    (footers : session'.context.footerExpected = true) : Relaying session' files stage told := by
  obtain ⟨basis,mode⟩ := relaying.filed.basis sound relaying.mode run
  exact ⟨filed,mode,step.settings.1.trans relaying.reads,footers,by rw [basis]; exact relaying.layout,relaying.relayed⟩

omit [Externals] in
/-- An event that has been created is where it was meant to be. -/
theorem seated_of_created {code : CodeType} {offset timestamp : Nat} {postHeader body : Bytes} {context : ReaderContext}
    (view : EventView.make context event.portion = .ok event) (footer : event.footerSize = defaultFooterLength)
    (created : createEvent code offset timestamp serverId 0 postHeader body true = .ok event.portion) :
    event.Seated offset := by
  refine ⟨(EventView.make_sound view).1,footer,?_,?_⟩
  · have position : event.getNextEventPositionRaw = _ :=
      congrArg CommonHeader.nextEventPosition (createEvent_header (by decide) created).1
    rw [position]
    exact if_neg (by simp)
  · -- the footer does not depend on where the post header ends
    have parts := (@EventView.parts_created _ _ _ _ _ _ _ _ ⟨event.portion,postHeader.length,event.footerSize⟩ created rfl
      (by simpa using footer)).2.2 rfl
    have same : event.getFooterRaw = Footer.encode event.calculateCrc := parts
    rw [EventView.Checked, same]
    exact leNat_leBytes_of_lt (calculateCrc32_lt _)

/-- A FORMAT_DESCRIPTION that is generated goes to an empty file, or is passed over. -/
theorem Relaying.describes (relaying : Relaying session (front ++ [file]) stage told) {offset : Nat}
    (place : session.context.expectInfoOnlyPreambleEvents = false ∧ stage = .empty ∧ offset = magicBinlogOffset ∨
      session.context.expectInfoOnlyPreambleEvents = true)
    (generated : generateFormatDescriptionEvent offset serverId session = .ok event session.aged.aged)
    (run : processBinlogEvent event session.aged.aged = .ok () session') :
    session'.context.expectInfoOnlyPreambleEvents = session.context.expectInfoOnlyPreambleEvents ∧
      session'.context.getCurrentPostHeaderLength .previousGtidsLog = 0 ∧
      if session.context.expectInfoOnlyPreambleEvents = true then Relaying session' (front ++ [file]) stage told
      else ∃ entry, entry.data = event.portion ∧ entry.atTransactionBoundary = false ∧
        Relaying session' (front ++ [⟨file.name,[entry]⟩]) .described told := by
  obtain ⟨-,view,_,_,_,-,created⟩ := generateFormatDescriptionEvent_ok generated
  have code : event.getTypeCode = .formatDescription := (createEvent_header (by decide) created).2
  have inner : event.getTypeCode ≠ .rotate ∧ event.getTypeCode ≠ .stop := by simp [code]
  have sound := (EventView.make_sound view).1
  obtain ⟨infoOnly,step,filed⟩ := relaying.aged.aged.filed.places sound inner run
  obtain ⟨footers,length⟩ := step.learned view created
  have expects := step.expectInfoOnlyPreambleEvents fun rotate => inner.1 rotate.code
  have info : infoOnly = session.context.expectInfoOnlyPreambleEvents := step.preamble (.inl code)
  refine ⟨expects,length,?_⟩
  split
  · rename_i passes
    rw [if_pos (info.trans passes)] at filed
    exact relaying.aged.aged.pass sound run step filed footers
  · rename_i stores
    obtain ⟨-,rfl,rfl⟩ := place.resolve_right stores
    rw [if_neg (info ▸ stores)] at filed
    have nothing := relaying.layout.last.2.eq_nil
    have position : session.storage.getCurrentPosition = magicBinlogOffset := by
      have length : session.storage.getCurrentPosition = magicBinlogOffset + (bytesOf file.entries).length :=
        relaying.filed.holds.stored.2.1
      rw [length, nothing]
      rfl
    have footer : event.footerSize = defaultFooterLength := (EventView.make_footerSize view).trans (if_pos code)
    obtain ⟨unmarked,unnamed,-⟩ := step.preamble_quiet relaying.filed.joined.sound.settled relaying.reads (.inl code)
    have next := relaying.aged.aged.concat sound run step filed footers (.description code)
      (position ▸ seated_of_created view footer created) unmarked unnamed
    rw [nothing, List.nil_append, if_pos (by simp [isSkipped,code]), List.append_nil] at next
    exact ⟨_,rfl,unmarked,next⟩

omit [Externals] in
/-- The parts of a PREVIOUS_GTIDS that is generated. -/
theorem generatePreviousGtidsLogEvent_parts {offset : Nat} {gtids : GtidSet} (valid : gtids.Valid)
    (footers : session.context.footerExpected = true)
    (length : session.context.getCurrentPostHeaderLength .previousGtidsLog = 0)
    (generated : generatePreviousGtidsLogEvent offset serverId gtids session = .ok event session') :
    event.getTypeCode = .previousGtidsLog ∧ event.Seated offset ∧ GtidSet.ofBytes event.getBodyRaw = .ok gtids := by
  obtain ⟨-,view,body,rest,timestamp,encoded,created⟩ := generatePreviousGtidsLogEvent_ok generated
  have code : event.getTypeCode = .previousGtidsLog := (createEvent_header (by decide) created).2
  have typed : CommonHeader.getTypeCode event.portion = .previousGtidsLog := code
  have footer : event.footerSize = defaultFooterLength := by
    rw [EventView.make_footerSize view, EventView.footerSizeFor, typed, if_neg (by decide), if_pos footers]
  have size : event.postHeaderSize = 0 := by
    have sized := EventView.make_postHeaderSize view
    simp only [EventView.postHeaderSizeFor, typed, reduceCtorEq, if_false, bind_eq_ok, raiseIf_eq_ok, exists_const,
      pure_eq_ok, length] at sized
    exact sized.2.2.symm
  obtain ⟨-,bodyRaw,-⟩ := EventView.parts_created created size (by simpa using footer)
  refine ⟨code,seated_of_created view footer created,?_⟩
  rw [bodyRaw]
  exact valid.ofBytes_of_encodeTo encoded

/-- A PREVIOUS_GTIDS that is generated comes after the FORMAT_DESCRIPTION of a file, with the gtids of everything before
    the file, or is passed over. -/
theorem Relaying.begins (relaying : Relaying session (front ++ [file]) stage told) {offset : Nat}
    (place : session.context.expectInfoOnlyPreambleEvents = false ∧ stage = .described ∧
        offset = session.storage.getCurrentPosition % 2 ^ 32 ∧
        (∀ entry ∈ file.entries, entry.atTransactionBoundary = false) ∨
      session.context.expectInfoOnlyPreambleEvents = true ∧ stage.isFree = true)
    (length : session.context.getCurrentPostHeaderLength .previousGtidsLog = 0)
    (generated : generatePreviousGtidsLogEvent offset serverId session.storage.getGtids session = .ok event session.aged)
    (run : processBinlogEvent event session.aged = .ok () session') :
    ∃ file' stage', Relaying session' (front ++ [file']) stage' told ∧ stage'.isFree = true ∧
      session'.context.state = .gtidLogExpected := by
  have valid : session.storage.getGtids.Valid := by
    obtain ⟨log,history,run,-⟩ := relaying.filed.holds
    exact run.consistent.getGtids_valid
  obtain ⟨code,seated,read⟩ := generatePreviousGtidsLogEvent_parts valid relaying.footers length generated
  have inner : event.getTypeCode ≠ .rotate ∧ event.getTypeCode ≠ .stop := by simp [code]
  obtain ⟨infoOnly,step,filed⟩ := relaying.aged.filed.places seated.sound inner run
  have footers : session'.context.footerExpected = true := (step.settings.2 (by simp [code])).trans relaying.footers
  have info : infoOnly = session.context.expectInfoOnlyPreambleEvents := step.preamble (.inr code)
  obtain ⟨unmarked,unnamed,state⟩ := step.preamble_quiet relaying.filed.joined.sound.settled relaying.reads (.inr code)
  rcases place with ⟨stores,rfl,rfl,before⟩ | ⟨passes,free⟩
  · rw [if_neg (by simp [info,stores])] at filed
    have same := relaying.filed.holds.contains_front relaying.mode before
    have next := relaying.aged.concat seated.sound run step filed footers (.previousGtids code read same) seated.of_mod
      unmarked unnamed
    rw [if_pos (by simp [isSkipped,code]), List.append_nil] at next
    exact ⟨_,.begun,next,rfl,state code⟩
  · rw [if_pos (info.trans passes)] at filed
    exact ⟨file,stage,relaying.aged.pass seated.sound run step filed footers,free,state code⟩

/-- The file that has been named gets a preamble if it is empty; if not, it has one. -/
theorem Relaying.preambled {entered described : Session} {description previousGtids : EventView}
    (relaying : Relaying entered (front ++ [file]) stage told)
    (place : entered.context.expectInfoOnlyPreambleEvents = false ∧ stage = .empty ∨
      entered.context.expectInfoOnlyPreambleEvents = true ∧ stage.isFree = true)
    (generated : generateFormatDescriptionEvent magicBinlogOffset serverId entered = .ok description entered.aged.aged)
    (describe : processBinlogEvent description entered.aged.aged = .ok () described)
    (encoded : generatePreviousGtidsLogEvent ((magicBinlogOffset + description.getTotalSize) % 2 ^ 32) serverId
      described.storage.getGtids described = .ok previousGtids described.aged)
    (finish : processBinlogEvent previousGtids described.aged = .ok () session') :
    ∃ file' stage', Relaying session' (front ++ [file']) stage' told ∧ stage'.isFree = true ∧
      session'.context.state = .gtidLogExpected := by
  obtain ⟨expects,length,rest⟩ := relaying.describes (place.imp (fun ⟨stores,empty⟩ => ⟨stores,empty,rfl⟩) And.left)
    generated describe
  rcases place with ⟨stores,-⟩ | ⟨passes,free⟩
  · rw [if_neg (by simp [stores])] at rest
    obtain ⟨entry,data,unmarked,next⟩ := rest
    have position : described.storage.getCurrentPosition = magicBinlogOffset + description.getTotalSize := by
      have length : described.storage.getCurrentPosition = magicBinlogOffset + (bytesOf [entry]).length :=
        next.filed.holds.stored.2.1
      rw [length, EventView.getTotalSize, ← data]
      simp [bytesOf]
    exact next.begins (.inl ⟨expects.trans stores,rfl,by rw [position],by simp [unmarked]⟩) length encoded finish
  · rw [if_pos passes] at rest
    exact rest.begins (.inr ⟨expects.trans passes,free⟩) length encoded finish

/-- A local file is started after the last one has been ended, or a session goes on with the last one. -/
theorem Relaying.startLocalFile (relaying : Relaying session files stage told)
    (place : binlogName ≠ session.storage.getCurrentBinlogName ∧ stage = .ended binlogName.str ∧
        session.storage.isBinlogOpen = false ∨
      binlogName = session.storage.getCurrentBinlogName ∧ session.context.isFresh = true ∧ files ≠ [] ∧
        session.storage.getCurrentPosition < 2 ^ 32 ∧ (stage = .empty ∨ stage.isFree = true))
    (run : Session.startLocalFile serverId binlogName session = .ok u session') :
    ∃ front file stage', Relaying session' (front ++ [file]) stage' told ∧ stage'.isFree = true ∧
      session'.context.state = .gtidLogExpected := by
  obtain ⟨rotate,entered,description,described,previousGtids,rotated,enter,generated,describe,encoded,finish⟩ :=
    startLocalFile_ok run
  obtain ⟨sound,artificial,body⟩ := relaying.filed.joined.rotateTo rotated enter
  obtain ⟨basis,mode⟩ := relaying.filed.basis sound relaying.mode enter
  obtain ⟨infoOnly,files',step,filing,filed⟩ := relaying.filed.step sound enter
  have reads := step.settings.1.trans relaying.reads
  have footers := (step.settings.2 (by simp [artificial.code])).trans relaying.footers
  rcases place with ⟨new,rfl,closed⟩ | ⟨current,fresh,some,short,resting⟩
  · obtain ⟨filed,stores⟩ := relaying.filed.rotates sound enter artificial body.symm new
    rw [relaying.filed.holds.whole closed] at filed
    have opened : Relaying entered (files ++ [⟨binlogName,[]⟩]) .empty told := by
      refine ⟨filed,mode,reads,footers,?_,?_⟩
      · rw [basis]
        exact @Layout.concat _ _ ⟨binlogName,[]⟩ _ relaying.layout .nil
      · rw [relayedIn_append, relaying.relayed]
        simp [relayedIn]
    obtain ⟨file,stage,rest⟩ := opened.preambled (.inl ⟨stores,rfl⟩) generated describe encoded finish
    exact ⟨files,file,stage,rest⟩
  · obtain ⟨front,file,rfl⟩ := (List.eq_nil_or_concat' files).resolve_left some
    have same : files' = front ++ [file] := by
      cases filing with
      | rotated name rotate named =>
        obtain rfl := CompositeBinlogName.str_injective (named.trans body)
        exact if_pos current
      | passed inner => exact absurd artificial.code inner.1
      | written inner => exact absurd artificial.code inner.1
      | ended last => cases artificial.artificial.symm.trans last.artificial
    subst same
    have entered' : Relaying entered (front ++ [file]) stage told :=
      ⟨filed,mode,reads,footers,by rw [basis]; exact relaying.layout,relaying.relayed⟩
    have expects := relaying.filed.joined.resumed fresh sound artificial (by rw [body, current]) enter
    have position : session.storage.getCurrentPosition = magicBinlogOffset + (bytesOf file.entries).length :=
      relaying.filed.holds.stored.2.1
    rw [Nat.mod_eq_of_lt short, position] at expects
    have formed := relaying.layout.last.2
    have place : entered.context.expectInfoOnlyPreambleEvents = false ∧ stage = .empty ∨
        entered.context.expectInfoOnlyPreambleEvents = true ∧ stage.isFree = true := by
      rcases resting with rfl | free
      · rw [expects, formed.eq_nil]
        exact .inl ⟨by simp [bytesOf],rfl⟩
      · have bytes : bytesOf file.entries ≠ [] := fun nothing =>
          formed.nonempty (by rintro rfl; cases free) (bytesOf_eq_nil nothing)
        have long := List.length_pos_of_ne_nil bytes
        rw [expects]
        exact .inr ⟨by simp [long],free⟩
    obtain ⟨file,stage,rest⟩ := entered'.preambled place generated describe encoded finish
    exact ⟨front,file,stage,rest⟩

/-- What the reader knows of the file that is being written. -/
inductive Knows (context : ReaderContext) : Stage → Prop where
  | between {stage : Stage} (state : context.state = .gtidLogExpected) (free : stage.isFree = true) : Knows context stage
  | inside {size : Nat} (state : context.state = .anyOtherExpected) (current : size % 2 ^ 32 = context.currentTransactionLength) :
      Knows context (.within context.transactionGtid context.expectedTransactionLength size)

section
variable {context context' : ReaderContext} {infoOnly : Bool}

omit [Externals] in
theorem Knows.free (knows : Knows context stage) (between : context.Between) : stage.isFree = true := by
  cases knows with
  | between state free => exact free
  | inside state current =>
    rcases between with other | ⟨-,whole⟩
    · cases state.symm.trans other
    · exact decide_eq_true (current.trans whole)

omit [Externals] in
/-- An event of a transaction that the reader accepts is the next one of the file. -/
theorem Knows.step (knows : Knows context stage) (step : ReaderContext.Step context event infoOnly context')
    (sound : event.Sound) (kept : isSkipped event.getTypeCode = false) (held : Gtid → Prop) :
    ∃ stage', Stage.Next held event stage stage' ∧ Knows context' stage' ∧
      context'.isAtTransactionBoundary = stage'.isWhole ∧ context'.transactionGtid = stage'.gtid := by
  obtain ⟨inner,plain⟩ := isSkipped_false kept
  cases step with
  | artificialRotate start rotate => exact absurd rotate.code inner.1
  | formatDescription layout start code => exact absurd (.inl code) plain
  | previousGtids start code => exact absurd (.inr code) plain
  | gtid gtid sequenceNumber length start code known info =>
    refine ⟨_,.first (knows.free start) code info,.inside rfl sound.size.symm,?_,rfl⟩
    simp [ReaderContext.isAtTransactionBoundary,Stage.isWhole,sound.size]
  | other start other =>
    cases knows with
    | between state free => cases start.symm.trans state
    | @inside size state current =>
      have sum : (size + event.portion.length) % 2 ^ 32 =
          (context.currentTransactionLength + event.getEventSizeRaw) % 2 ^ 32 := by
        rw [sound.size, ← current, Nat.mod_add_mod, Nat.add_mod_mod]
      refine ⟨_,.other other,.inside start sum,?_,rfl⟩
      rw [Stage.isWhole, sum]
      simp [ReaderContext.isAtTransactionBoundary,start]
  | terminator start last =>
    rcases last.code with code | code
    · exact absurd code inner.1
    · exact absurd code inner.2

omit [Externals] in
/-- The last event of a file comes where a transaction might. -/
theorem Knows.ends (knows : Knows context stage) (step : ReaderContext.Step context event infoOnly context')
    (last : event.IsTerminator) : stage.isFree = true ∧ context'.isAtTransactionBoundary = true ∧
      context'.transactionGtid = .empty := by
  cases step with
  | terminator start last => exact ⟨knows.free start,rfl,rfl⟩
  | artificialRotate start rotate => cases rotate.artificial.symm.trans last.artificial
  | formatDescription layout start code => rcases last.code with same | same <;> cases code.symm.trans same
  | previousGtids start code => rcases last.code with same | same <;> cases code.symm.trans same
  | gtid _ _ _ start code => exact absurd last.code (ReaderContext.isGtid_not_last code)
  | other start plain =>
    rcases last.code with same | same
    · exact absurd same plain.2.1
    · exact absurd same plain.2.2.1

end

/-- An event of the source is rewritten at the end of the last file. -/
theorem Relaying.rewritten (relaying : Relaying session (front ++ [file]) stage told) (knows : Knows session.context stage)
    (sound : event.Sound) (kept : isSkipped event.getTypeCode = false)
    (run : processRewritten event session = .ok u session') :
    ∃ rewritten entry file' stage', Rewriter.rewrite session.storage.getLastTransactionSequenceNumber event
        session.storage.getCurrentPosition = .ok rewritten ∧
      ReaderContext.Step session.context rewritten false session'.context ∧
      entry.data = rewritten.portion ∧ entry.atTransactionBoundary = session'.context.isAtTransactionBoundary ∧
      entry.transactionGtid = session'.context.transactionGtid ∧
      Relaying session' (front ++ [file']) stage' (told ++ [entry]) ∧ Knows session'.context stage' ∧
      session'.context.isFresh = session.context.isFresh := by
  obtain ⟨rewritten,made,run⟩ := processRewritten_ok run
  have seated := Rewriter.rewrite_seated sound made
  have code : rewritten.getTypeCode = event.getTypeCode :=
    congrArg CodeType.ofRaw (congrArg CommonHeader.typeCode (Rewriter.rewrite_spec sound made).header)
  rw [← code] at kept
  obtain ⟨inner,plain⟩ := isSkipped_false kept
  obtain ⟨infoOnly,step,filed⟩ := relaying.filed.places seated.sound inner run
  obtain rfl := step.written inner plain
  rw [if_neg (by simp)] at filed
  have footers := (step.settings.2 (fun same => plain (.inl same))).trans relaying.footers
  obtain ⟨stage',next,knows,marked,named⟩ := knows.step step seated.sound kept (heldIn session.storage.basis.contains front)
  have fresh := (relaying.filed.joined.moved seated.sound inner run).2.2.2.1
  have after := relaying.concat seated.sound run step filed footers next seated marked named
  rw [if_neg (by simp [kept])] at after
  exact ⟨rewritten,_,_,stage',made,step,rfl,rfl,rfl,after,knows,fresh⟩

/-- The last file is ended by a ROTATE that names the next one. -/
theorem Relaying.endLocalFile (relaying : Relaying session (front ++ [file]) stage told) (knows : Knows session.context stage)
    (run : Session.endLocalFile serverId binlogName session = .ok u session') :
    ∃ file', Relaying session' (front ++ [file']) (.ended binlogName.str) told ∧ session'.storage.isBinlogOpen = false ∧
      session'.storage.getCurrentBinlogName = session.storage.getCurrentBinlogName := by
  obtain ⟨rotate,generated,run⟩ := endLocalFile_ok run
  obtain ⟨-,view,timestamp,created,-⟩ := generateRotateEvent_ok generated
  obtain ⟨code,plain,-⟩ := generateRotateEvent_header generated
  have sound := (EventView.make_sound view).1
  have typed : CommonHeader.getTypeCode rotate.portion = .rotate := code
  have footer : rotate.footerSize = defaultFooterLength := by
    rw [EventView.make_footerSize view, EventView.footerSizeFor, typed, if_neg (by decide), if_pos relaying.footers]
  rw [relaying.footers, if_neg (by decide)] at created
  obtain ⟨infoOnly,files',step,filing,filed⟩ := relaying.aged.filed.step sound run
  cases filing with
  | rotated name artificial => cases plain.symm.trans artificial.artificial
  | passed inner => exact absurd code inner.1
  | written inner => exact absurd code inner.1
  | ended last nonempty =>
    obtain ⟨free,marked,named⟩ := knows.ends step last
    obtain ⟨-,-,-,-,closed,same⟩ := relaying.aged.filed.joined.terminated sound last run
    have footers := (step.settings.2 (by simp [code])).trans relaying.footers
    rw [LocalFile.onLast_concat] at filed
    have next := relaying.aged.concat sound run step filed footers (.rotate free code)
      (seated_of_created view footer created).of_mod marked named
    rw [generateRotateEvent_body generated (last.position code), if_pos (by simp [isSkipped,code]), List.append_nil] at next
    exact ⟨_,next,closed,same⟩

/-- A session that has not got an event to store, or that knows the last file. -/
inductive Working (session : Session) : List LocalFile → Stage → Prop where
  | waiting {files : List LocalFile} {stage : Stage} (fresh : session.context.isFresh = true)
      (short : session.storage.getCurrentPosition < 2 ^ 32) (rests : Rests files stage) : Working session files stage
  | inside {front : List LocalFile} {file : LocalFile} {stage : Stage} (old : session.context.isFresh = false)
      (knows : Knows session.context stage) : Working session (front ++ [file]) stage

/-- A local file is started. -/
theorem Working.changed (working : Working session files stage) (relaying : Relaying session files stage told)
    (run : changeLocalFile serverId config session = .ok u m) :
    ∃ front file stage', Relaying m (front ++ [file]) stage' told ∧ m.context.isFresh = false ∧ Knows m.context stage' := by
  obtain ⟨binlogName,closed,named,ended,started⟩ := changeLocalFile_ok run
  suffices place : ∃ files stage, Relaying closed files stage told ∧
      (binlogName ≠ closed.storage.getCurrentBinlogName ∧ stage = .ended binlogName.str ∧
        closed.storage.isBinlogOpen = false ∨
      binlogName = closed.storage.getCurrentBinlogName ∧ closed.context.isFresh = true ∧ files ≠ [] ∧
        closed.storage.getCurrentPosition < 2 ^ 32 ∧ (stage = .empty ∨ stage.isFree = true)) by
    obtain ⟨files,stage,relaying,place⟩ := place
    obtain ⟨front,file,stage,after,free,state⟩ := relaying.startLocalFile place started
    obtain ⟨-,-,old,-⟩ := relaying.filed.joined.startLocalFile started
    exact ⟨front,file,stage,after,old,.between state free⟩
  cases working with
  | waiting fresh short rests =>
    rw [if_pos fresh] at ended
    subst ended
    rcases nextBinlogName_ok named with ⟨nonempty,-,same⟩ | ⟨empty,new⟩
    · have some : files ≠ [] := by
        rintro rfl
        cases nonempty.symm.trans relaying.filed.holds.isEmpty
      exact ⟨files,stage,relaying,.inr ⟨same,fresh,some,short,rests.resolve_left some⟩⟩
    · have none : files = [] := by
        have empty := empty.resolve_right (by simp [fresh])
        rw [relaying.filed.holds.isEmpty] at empty
        exact List.isEmpty_iff.mp empty
      subst none
      have closed : closed.storage.isBinlogOpen = false := by
        by_contra opened
        obtain ⟨front,file,split⟩ := relaying.filed.holds.exists_last (by simpa using opened)
        simp at split
      refine ⟨[],_,?_,.inl ⟨new,rfl,closed⟩⟩
      exact ⟨relaying.filed,relaying.mode,relaying.reads,relaying.footers,.nil,relaying.relayed⟩
  | inside old knows =>
    rw [if_neg (by simp [old])] at ended
    obtain ⟨file,relaying,closed,same⟩ := relaying.endLocalFile knows ended
    have new := ((nextBinlogName_ok named).resolve_left (by simp [old])).2
    exact ⟨_,_,relaying,.inl ⟨by rwa [same],rfl,closed⟩⟩

/-- The local file of the next event is open. -/
theorem Working.prepared (working : Working session files stage) (relaying : Relaying session files stage told)
    (prepared : Prepared serverId config session m) :
    ∃ front file stage', Relaying m (front ++ [file]) stage' told ∧ m.context.isFresh = false ∧ Knows m.context stage' := by
  unfold Prepared at prepared
  split at prepared
  · exact working.changed relaying prepared
  · rename_i unneeded
    subst prepared
    cases working with
    | waiting fresh => simp [needsLocalFile,fresh] at unneeded
    | inside old knows => exact ⟨_,_,_,relaying,old,knows⟩

/-- A packet is received. -/
theorem Working.packet (working : Working session files stage) (relaying : Relaying session files stage told)
    {settings : Config} (mode : settings.rewrite = some config) {packet : Bytes}
    (run : receivePacket settings packet session = .ok u session') :
    ∃ files' stage' told', Relaying session' files' stage' told' ∧ Working session' files' stage' := by
  obtain ⟨event,view,-,rewritten⟩ := receivePacket_ok run
  rcases rewriteAndProcessBinlogEvent_ok (rewritten config mode) with ⟨-,rfl⟩ | ⟨kept,m,prepared,run⟩
  · exact ⟨files,stage,told,relaying,working⟩
  · obtain ⟨front,file,stage,relaying,old,knows⟩ := working.prepared relaying prepared
    obtain ⟨-,entry,file,stage,-,-,-,-,-,relaying,knows,fresh⟩ :=
      relaying.rewritten knows (EventView.make_sound view).1 kept run
    exact ⟨_,stage,_,relaying,.inside (fresh.trans old) knows⟩

theorem Working.run {settings : Config} {start : Session} {packets : List Bytes} (working : Working start files stage)
    (relaying : Relaying start files stage told) (mode : settings.rewrite = some config)
    (run : receivePackets settings packets start = .ok () session) :
    ∃ files' stage' told', Relaying session files' stage' told' ∧ Working session files' stage' := by
  induction packets using List.reverseRecOn generalizing session with
  | nil =>
    obtain ⟨-,rfl⟩ := Action.pure_eq_ok.mp run
    exact ⟨files,stage,told,relaying,working⟩
  | append_singleton front packet ih =>
    obtain ⟨m,before,last⟩ := receivePackets_concat.mp run
    obtain ⟨files,stage,told,relaying,working⟩ := ih before
    exact working.packet relaying mode last

omit [Externals] in
/-- Where a session stops, the last file is not ended, and rests if there is no unfinished transaction. -/
theorem Working.stops (working : Working session files stage) :
    (files ≠ [] → ∀ next, stage ≠ .ended next) ∧ (session.context.isAtTransactionBoundary = true → Rests files stage) := by
  cases working with
  | waiting fresh short rests => exact ⟨rests.not_ended,fun _ => rests⟩
  | inside old knows =>
    cases knows with
    | between state free => exact ⟨fun _ next ended => by simp [ended,Stage.isFree] at free,fun _ => .inr (.inr free)⟩
    | inside state current =>
      refine ⟨fun _ next => by simp,fun boundary => .inr (.inr ?_)⟩
      have whole : session.context.currentTransactionLength = session.context.expectedTransactionLength := by
        simpa [ReaderContext.isAtTransactionBoundary,state] using boundary
      exact decide_eq_true (current.trans whole)

/-- Between two sessions: the files are laid out, and the last one rests. -/
structure Laid (s : Storage) (files : List LocalFile) : Prop where
  holds : Holds s files
  events : ∀ file ∈ files, AreEvents file.entries
  layout : ∃ stage, Layout s.basis.contains files stage ∧ Rests files stage

/-- Events at the end of the last file are dropped so that there are whole transactions. -/
theorem Laid.cut {s t : Storage} {f : List EventEntry → List EventEntry} (part : ∀ entries, f entries <+: entries)
    (holds : Holds t (LocalFile.onLast f files)) (events : ∀ file ∈ files, AreEvents file.entries)
    (layout : Layout s.basis.contains files stage) (going : files ≠ [] → ∀ next, stage ≠ .ended next)
    (basis : files ≠ [] → t.basis = s.basis) (unbuffered : Unbuffered t) : Laid t (LocalFile.onLast f files) := by
  refine ⟨holds,LocalFile.forall_onLast AreEvents.of_isPrefix part events,?_⟩
  by_cases none : files = []
  · subst none
    exact ⟨.ended [],.nil,.inl rfl⟩
  · rw [basis none]
    refine layout.cut_rests part going (holds.whole_iff.mpr ?_)
    rw [unbuffered.boundary, unbuffered.data]
    rfl

variable {s t : Storage} {settings : Config} {serverVersion : Nat} {gtidPurged : Bytes} {clock calendar : Nat → Nat}
  {point : RestartPoint} {start : Session}

/-- What counts as stored before the first file stays where there is one. -/
theorem connect_basis (holds : Holds s files) (some : files ≠ [])
    (connected : connect settings serverVersion gtidPurged clock calendar s = .ok (point,start)) :
    start.storage.basis = s.basis := by
  have nonempty : s.isEmpty = false := by
    rw [holds.isEmpty]
    simpa using some
  obtain ⟨t,switched,rfl⟩ := connect_ok connected
  rcases switchToReplication_ok switched with ⟨-,changed,-⟩ | ⟨-,rfl,-⟩
  · rw [if_neg (by simp [nonempty])] at changed
    rw [changed]
  · rfl

/-- A session starts. -/
theorem Laid.connect (laid : Laid s files) (proper : ∀ gtids, GtidSet.ofText gtidPurged = .ok gtids → gtids.Valid)
    (connected : connect settings serverVersion gtidPurged clock calendar s = .ok (point,start))
    (checksums : settings.verifyChecksum = true) (mode : start.storage.replicationMode = .gtid) :
    ∃ stage, Relaying start files stage (relayedIn files) ∧ start.context.isFresh = true ∧ Rests files stage := by
  obtain ⟨stage,layout,rests⟩ := laid.layout
  have filed := Filed.connect laid.holds laid.events proper connected
  have basis : files ≠ [] → start.storage.basis = s.basis := fun some => connect_basis laid.holds some connected
  obtain ⟨t,-,rfl⟩ := connect_ok connected
  by_cases none : files = []
  · subst none
    exact ⟨.ended [],⟨filed,mode,mode,checksums,.nil,rfl⟩,rfl,.inl rfl⟩
  · rw [← basis none] at layout
    exact ⟨stage,⟨filed,mode,mode,checksums,layout,rfl⟩,rfl,rests⟩

/-- A process takes over. -/
theorem Laid.restarted {mode : ReplicationMode} {checkpoint : Checkpoint} (holds : Holds s files)
    (events : ∀ file ∈ files, AreEvents file.entries) (layout : Layout s.basis.contains files stage)
    (going : files ≠ [] → ∀ next, stage ≠ .ended next)
    (constructed : Storage.construct .streaming mode checkpoint s.destroy = .ok u t) :
    ∃ f : List EventEntry → List EventEntry, (∀ entries, f entries <+: entries) ∧ Laid t (LocalFile.onLast f files) ∧
      (files ≠ [] → t.basis = s.basis) ∧ Unbuffered t := by
  obtain ⟨size,after⟩ := holds.restart constructed
  have unbuffered := Unbuffered.restarted holds constructed
  have basis : files ≠ [] → t.basis = s.basis := fun some => holds.basis_restart some constructed
  exact ⟨_,eventsWithin_isPrefix size,.cut (eventsWithin_isPrefix size) after events layout going basis unbuffered,basis,
    unbuffered⟩

/-- A connection is lost. -/
theorem Laid.lost (relaying : Relaying session files stage told) (going : files ≠ [] → ∀ next, stage ≠ .ended next)
    (disconnected : disconnect false session.storage = .ok u t) :
    ∃ f : List EventEntry → List EventEntry, (∀ entries, f entries <+: entries) ∧ Laid t (LocalFile.onLast f files) ∧
      t.basis = session.storage.basis ∧ Unbuffered t := by
  have basis : t.basis = session.storage.basis := by
    obtain ⟨_,m,discarded,flushed⟩ := Action.bind_eq_ok.mp disconnected
    have drops := @Holds.basis_step _ session.storage files m relaying.filed.holds relaying.mode
      .discardIncompleteTransactionEvents (by simp) 0 _ rfl discarded
    have between := @Holds.step _ session.storage m files relaying.filed.holds .discardIncompleteTransactionEvents 0 _ rfl
      discarded
    have flushes := @Holds.basis_step _ m _ t between drops.2 .flushEventBuffer (by simp) 0 _ rfl flushed
    exact flushes.1.trans drops.1
  have unbuffered := disconnect_empties relaying.filed.holds disconnected
  exact ⟨_,wholeTransactions_isPrefix,.cut wholeTransactions_isPrefix (disconnect_holds relaying.filed.holds disconnected)
    relaying.filed.events relaying.layout going (fun _ => basis) unbuffered,basis,unbuffered⟩

end

/-- A session in the rewrite mode that has processed whole packets, with checksums and in the mode for gtids. It has been
    started while the last file was shorter than `2 ^ 32`, and the stream does not end in the middle of a transaction. -/
structure Relays [Externals] (visit : Visit) : Prop where
  rewrites : ∃ rewrite packets, visit.config.rewrite = some rewrite ∧
    receivePackets visit.config packets visit.first = .ok () visit.last
  checksums : visit.config.verifyChecksum = true
  mode : visit.first.storage.replicationMode = .gtid
  short : visit.first.storage.getCurrentPosition < 2 ^ 32
  ends : visit.endOfStream = true → visit.last.context.isAtTransactionBoundary = true

section
variable [Externals] {s t : Storage} {settings : Config} {serverVersion : Nat} {gtidPurged : Bytes}
  {clock calendar : Nat → Nat} {point : RestartPoint} {start session : Session} {files : List LocalFile}

theorem Laid.served (laid : Laid s files) (proper : ∀ gtids, GtidSet.ofText gtidPurged = .ok gtids → gtids.Valid)
    (connected : Session.connect settings serverVersion gtidPurged clock calendar s = .ok (point,start))
    {trace : List Processed} {endOfStream : Bool} (relays : Relays ⟨settings,point,start,trace,session,endOfStream⟩) :
    ∃ files' stage told, Relaying session files' stage told ∧ Working session files' stage := by
  obtain ⟨⟨rewrite,packets,rewrites,received⟩,checksums,mode,short,-⟩ := relays
  obtain ⟨stage,relaying,fresh,rests⟩ := laid.connect proper connected checksums mode
  exact (Working.waiting fresh short rests).run relaying rewrites received

/-- The files that are stored in the rewrite mode are binlog files. -/
theorem stored_files_laid_out (lives : Lives Relays s) : ∃ files stage,
    s.records.map BinlogRecord.name = files.map LocalFile.name ∧
    (∀ file ∈ files, s.backend.objects.find? file.name.str = some (magicBinlogPayload ++ bytesOf file.entries)) ∧
    Layout s.basis.contains files stage ∧ Rests files stage := by
  have reached : ∃ files, Laid s files := by
    induction lives with
    | start constructed => exact ⟨[],Holds.start constructed,by simp,.ended [],.nil,.inl rfl⟩
    | @session s t lives config serverVersion gtidPurged clock calendar point trace session session' endOfStream u proper
        connected processes admitted disconnected ih =>
      obtain ⟨files,laid⟩ := ih
      obtain ⟨files,stage,_,relaying,working⟩ := laid.served proper connected admitted
      cases endOfStream with
      | true =>
        obtain ⟨-,rfl⟩ := Action.pure_eq_ok.mp disconnected
        exact ⟨files,relaying.filed.holds,relaying.filed.events,stage,relaying.layout,working.stops.2 (admitted.ends rfl)⟩
      | false =>
        obtain ⟨_,-,laid,-⟩ := Laid.lost relaying working.stops.1 disconnected
        exact ⟨_,laid⟩
    | restart lives constructed ih =>
      obtain ⟨files,laid⟩ := ih
      obtain ⟨stage,layout,rests⟩ := laid.layout
      obtain ⟨_,-,laid,-⟩ := Laid.restarted laid.holds laid.events layout rests.not_ended constructed
      exact ⟨_,laid⟩
    | stopped lives proper connected processes admitted constructed ih =>
      obtain ⟨files,laid⟩ := ih
      obtain ⟨files,stage,_,relaying,working⟩ := laid.served proper connected admitted
      obtain ⟨_,-,laid,-⟩ := Laid.restarted relaying.filed.holds relaying.filed.events relaying.layout working.stops.1
        constructed
      exact ⟨_,laid⟩
  obtain ⟨files,laid⟩ := reached
  obtain ⟨stage,layout,rests⟩ := laid.layout
  have names : s.records.map BinlogRecord.name = files.map LocalFile.name := by
    obtain ⟨-,-,-,names,-⟩ := laid.holds
    exact names
  rcases List.eq_nil_or_concat' files with rfl | ⟨front,file,rfl⟩
  · exact ⟨[],stage,names,by simp,layout,rests⟩
  -- what is stored of the last file ends with a transaction, too
  obtain ⟨earlier,-,kept,part,ends,content,-⟩ := laid.holds.stored
  obtain ⟨before,formed⟩ := layout.last
  obtain ⟨stage',formed',rests⟩ := formed.rests part (rests.not_ended (by simp)) ends
  refine ⟨front ++ [⟨file.name,kept⟩],stage',by simpa using names,?_,@Layout.concat _ _ ⟨file.name,kept⟩ _ before formed',
    .inr rests⟩
  rw [List.forall_mem_append, List.forall_mem_singleton]
  exact ⟨earlier,content⟩

end

namespace Sample
attribute [local instance] FlatJson.externals

/-- The storage after two transactions and a lost connection. -/
def relayed : Option (Session × Storage) :=
  match receivePackets rewriting first relay with
  | .ok _ session => (lost session.storage).map fun t => (session,t)
  | .error .. => none

theorem relayed_eq_some {session : Session} {t : Storage} (known : relayed = some (session,t)) :
    receivePackets rewriting first relay = .ok () session ∧ disconnect false session.storage = .ok () t := by
  unfold relayed at known
  split at known
  · rename_i received
    obtain ⟨_,left,same⟩ := Option.map_eq_some_iff.mp known
    obtain ⟨rfl,rfl⟩ := Prod.mk.inj same
    exact ⟨received,lost_eq_some left⟩
  · cases known

end Sample

section
attribute [local instance] FlatJson.externals

theorem stored_files_laid_out_lost : ∃ s, Lives Relays s ∧ s.records.length = 1 ∧ ∃ files stage,
    (∀ file ∈ files, s.backend.objects.find? file.name.str = some (magicBinlogPayload ++ bytesOf file.entries)) ∧
    Layout s.basis.contains files stage ∧ Rests files stage := by
  have known : Sample.relayed.map (fun found => found.2.records.length) = some 1 := by decide +kernel
  obtain ⟨⟨session,t⟩,found,count⟩ := Option.map_eq_some_iff.mp known
  obtain ⟨received,disconnected⟩ := Sample.relayed_eq_some found
  obtain ⟨point,connected⟩ := Sample.relay_connected
  obtain ⟨trace,processes⟩ := Processes.stay.receivePackets received
  have relays : Relays ⟨Sample.rewriting,point,Sample.relay,trace,session,false⟩ :=
    ⟨⟨_,Sample.first,rfl,received⟩,rfl,rfl,show Sample.relay.storage.getCurrentPosition < 2 ^ 32 by decide,by simp⟩
  have lives : Lives Relays t :=
    (Sample.emptyStorage_lives Relays).session Sample.nothing_purged connected processes relays disconnected
  obtain ⟨files,stage,-,rest⟩ := stored_files_laid_out lives
  exact ⟨t,lives,count,files,stage,rest⟩

end
end Session
end BinlogServer.App
