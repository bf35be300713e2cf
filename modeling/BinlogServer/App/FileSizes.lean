import BinlogServer.App.Files
import BinlogServer.Events.LearnedLayout
import BinlogServer.Store.HeldGtids

/-!
# How long local files become

In the rewrite mode a local file that has reached the size that is set is ended before the next transaction. The size is
looked at in a session that already has a file, and not when a session goes on with the file of the one before it, nor
once the preamble of a file has been written.
-/

namespace BinlogServer.Store
open ByteString Util Gtids Events

/-- The event is the first one of a transaction. -/
def isFirst (portion : Bytes) : Bool := (CodeType.ofRaw (CommonHeader.getTypeCodeRaw portion)).isGtid

def isRotate (portion : Bytes) : Bool := CodeType.ofRaw (CommonHeader.getTypeCodeRaw portion) = .rotate

/-- The events of one transaction. -/
def OneTransaction (portions : List Bytes) : Prop :=
  ∃ first others, portions = first :: others ∧ isFirst first = true ∧
    ∀ other ∈ others, isFirst other = false ∧ isRotate other = false

/-- No event, or one transaction, or one transaction and a ROTATE. -/
def IsTail (portions : List Bytes) : Prop :=
  portions = [] ∨ ∃ transaction ending, portions = transaction ++ ending ∧ OneTransaction transaction ∧
    (ending = [] ∨ ∃ rotate, ending = [rotate] ∧ isRotate rotate = true)

/-- No transaction is started where the file has reached the size. -/
def StartsBelow (fileSize : Nat) (portions : List Bytes) : Prop :=
  ∀ front first, front ++ [first] <+: portions → isFirst first = true → magicBinlogOffset + front.flatten.length < fileSize

/-- The events of a file that is shorter than the size with one transaction and one ROTATE. -/
structure Limited (fileSize : Nat) (portions : List Bytes) : Prop where
  started : StartsBelow fileSize portions
  bounded : ∃ front tail, portions = front ++ tail ∧ IsTail tail ∧ magicBinlogOffset + front.flatten.length < fileSize

theorem OneTransaction.of_isPrefix {portions front : List Bytes} (one : OneTransaction portions) (part : front <+: portions)
    (nonempty : front ≠ []) : OneTransaction front := by
  obtain ⟨first,others,rfl,starts,rest⟩ := one
  obtain ⟨head,tail,rfl⟩ := List.exists_cons_of_ne_nil nonempty
  obtain ⟨rfl,within⟩ := List.cons_prefix_cons.mp part
  exact ⟨head,tail,rfl,starts,fun other member => rest other (within.subset member)⟩

theorem IsTail.of_isPrefix {portions front : List Bytes} (tail : IsTail portions) (part : front <+: portions) :
    IsTail front := by
  by_cases empty : front = []
  · exact .inl empty
  · rcases tail with rfl | ⟨transaction,ending,rfl,one,ends⟩
    · exact absurd (List.prefix_nil.mp part) empty
    · rcases ends with rfl | ⟨rotate,rfl,code⟩
      · rw [List.append_nil] at part
        exact .inr ⟨front,[],by simp,one.of_isPrefix part empty,.inl rfl⟩
      · rcases List.prefix_concat_iff.mp part with rfl | part
        · exact .inr ⟨transaction,[rotate],rfl,one,.inr ⟨rotate,rfl,code⟩⟩
        · exact .inr ⟨front,[],by simp,one.of_isPrefix part empty,.inl rfl⟩

section
variable {fileSize : Nat} {portions front : List Bytes} {portion : Bytes}

theorem StartsBelow.concat (started : StartsBelow fileSize portions)
    (below : isFirst portion = true → magicBinlogOffset + portions.flatten.length < fileSize) :
    StartsBelow fileSize (portions ++ [portion]) := by
  intro front first part starts
  rcases List.prefix_concat_iff.mp part with whole | part
  · obtain ⟨rfl,same⟩ := List.append_inj' whole rfl
    rw [List.singleton_inj] at same
    exact below (same ▸ starts)
  · exact started front first part starts

theorem StartsBelow.append (started : StartsBelow fileSize portions) {more : List Bytes}
    (plain : ∀ portion ∈ more, isFirst portion = false) : StartsBelow fileSize (portions ++ more) := by
  induction more using List.reverseRecOn with
  | nil => rwa [List.append_nil]
  | append_singleton more last ih =>
    rw [List.forall_mem_append, List.forall_mem_singleton] at plain
    rw [← List.append_assoc]
    exact (ih plain.1).concat (by simp [plain.2])

namespace Limited

theorem nil (large : magicBinlogOffset < fileSize) : Limited fileSize [] := by
  refine ⟨fun front first part => ?_,[],[],rfl,.inl rfl,large⟩
  simpa using List.prefix_nil.mp part

theorem of_isPrefix (limited : Limited fileSize portions) (part : front <+: portions) : Limited fileSize front := by
  refine ⟨fun before first within => limited.started before first (within.trans part),?_⟩
  obtain ⟨short,tail,rfl,one,below⟩ := limited.bounded
  rcases List.prefix_or_prefix_of_prefix part (List.prefix_append short tail) with ⟨rest,rfl⟩ | ⟨more,rfl⟩
  · rw [List.flatten_append, List.length_append] at below
    exact ⟨front,[],by simp,.inl rfl,by omega⟩
  · exact ⟨short,more,rfl,one.of_isPrefix ((List.prefix_append_right_inj short).mp part),below⟩

end Limited

/-- The same of events as they are held. -/
def AreLimited (fileSize : Nat) (entries : List EventEntry) : Prop := Limited fileSize (entries.map EventEntry.data)

theorem AreLimited.of_isPrefix (front entries : List EventEntry) (part : front <+: entries)
    (limited : AreLimited fileSize entries) : AreLimited fileSize front := Limited.of_isPrefix limited (part.map _)

/-- The events of a file that is being written, in the transaction that was the last one to start. -/
structure Growing (fileSize : Nat) (portions : List Bytes) : Prop where
  started : StartsBelow fileSize portions
  last : ∃ front transaction, portions = front ++ transaction ∧ OneTransaction transaction ∧
    magicBinlogOffset + front.flatten.length < fileSize

namespace Growing

theorem first (started : StartsBelow fileSize portions) (starts : isFirst portion = true)
    (short : magicBinlogOffset + portions.flatten.length < fileSize) : Growing fileSize (portions ++ [portion]) :=
  ⟨started.concat fun _ => short,portions,[portion],rfl,⟨portion,[],rfl,starts,by simp⟩,short⟩

theorem other (growing : Growing fileSize portions) (plain : isFirst portion = false ∧ isRotate portion = false) :
    Growing fileSize (portions ++ [portion]) := by
  refine ⟨growing.started.concat (by simp [plain.1]),?_⟩
  obtain ⟨front,_,rfl,⟨first,others,rfl,starts,rest⟩,short⟩ := growing.last
  refine ⟨front,first :: (others ++ [portion]),by simp,⟨first,_,rfl,starts,fun some member => ?_⟩,short⟩
  rcases List.mem_append.mp member with old | new
  · exact rest some old
  · rw [List.mem_singleton.mp new]
    exact plain

theorem limited (growing : Growing fileSize portions) : Limited fileSize portions := by
  obtain ⟨front,transaction,rfl,one,short⟩ := growing.last
  exact ⟨growing.started,front,transaction,rfl,.inr ⟨transaction,[],by simp,one,.inl rfl⟩,short⟩

/-- The file is ended by a ROTATE. -/
theorem rotated (growing : Growing fileSize portions) (code : isRotate portion = true) :
    Limited fileSize (portions ++ [portion]) := by
  have plain : isFirst portion = false := by
    simp only [isRotate, decide_eq_true_eq] at code
    simp [isFirst,code,CodeType.isGtid]
  obtain ⟨front,transaction,rfl,one,short⟩ := growing.last
  refine ⟨growing.started.concat (by simp [plain]),front,transaction ++ [portion],by simp,
    .inr ⟨transaction,[portion],rfl,one,.inr ⟨portion,rfl,code⟩⟩,short⟩

end Growing
end
end BinlogServer.Store

namespace BinlogServer.Events.ReaderContext

variable {context context' : ReaderContext} {event : EventView} {infoOnly : Bool}

/-- An event of a transaction is its first one, or comes after it. -/
theorem Step.transaction (step : Step context event infoOnly context')
    (inner : event.getTypeCode ≠ .rotate ∧ event.getTypeCode ≠ .stop)
    (plain : ¬ (event.getTypeCode = .formatDescription ∨ event.getTypeCode = .previousGtidsLog)) :
    context'.state = .anyOtherExpected ∧ (context.Between ∧ event.getTypeCode.isGtid = true ∨
      context.state = .anyOtherExpected ∧ event.getTypeCode.isGtid = false) := by
  cases step with
  | artificialRotate start rotate => exact absurd rotate.code inner.1
  | formatDescription layout start code => exact absurd (.inl code) plain
  | previousGtids start code => exact absurd (.inr code) plain
  | gtid _ _ _ start code => exact ⟨rfl,.inl ⟨start,code⟩⟩
  | other start other => exact ⟨start,.inr ⟨start,other.1⟩⟩
  | terminator start last =>
    rcases last.code with code | code
    · exact absurd code inner.1
    · exact absurd code inner.2

end BinlogServer.Events.ReaderContext

namespace BinlogServer.App
open ByteString Util Gtids Events Store
open Store.Storage (Holds)

namespace Session

section
variable [Externals] {session session' m : Session} {event rewritten : EventView} {files : List LocalFile}
  {serverId : Nat} {binlogName : CompositeBinlogName} {config : RewriteConfig} {u : Unit}

/-- An event inside a file goes to the end of the current one, or is left out. -/
theorem Filed.inner (filed : Filed session files) (sound : event.Sound)
    (inner : event.getTypeCode ≠ .rotate ∧ event.getTypeCode ≠ .stop)
    (run : processBinlogEvent event session = .ok () session') :
    ∃ infoOnly added, ReaderContext.Step session.context event infoOnly session'.context ∧
      Filed session' (LocalFile.onLast (· ++ added) files) ∧
      (infoOnly = true ∧ added = [] ∨
        infoOnly = false ∧ ∃ nonempty, added = [entryFor event session'.context nonempty]) := by
  obtain ⟨infoOnly,files',step,filing,filed⟩ := filed.step sound run
  cases filing with
  | rotated name rotate => exact absurd rotate.code inner.1
  | passed inner =>
    refine ⟨true,[],step,?_,.inl ⟨rfl,rfl⟩⟩
    rw [LocalFile.onLast_eq_self List.append_nil]
    exact filed
  | written inner nonempty fits => exact ⟨false,_,step,filed,.inr ⟨rfl,nonempty,rfl⟩⟩
  | ended last =>
    rcases last.code with code | code
    · exact absurd code inner.1
    · exact absurd code inner.2

/-- What counts as stored before the first file stays. -/
theorem Stored.basis {s t : Storage} {context : ReaderContext} {infoOnly : Bool} (stored : Stored s event context infoOnly t)
    (holds : Holds s files) (mode : s.replicationMode = .gtid)
    (opened : ¬ event.IsArtificialRotate → s.isBinlogOpen = true) : t.basis = s.basis ∧ t.replicationMode = .gtid := by
  have opens : ∀ {s t : Storage} {files : List LocalFile} {name : CompositeBinlogName} {now : Nat}
      {status : OpenBinlogStatus}, Holds s files → s.replicationMode = .gtid → Storage.openBinlog name now s = .ok status t →
      t.basis = s.basis ∧ t.replicationMode = .gtid := by
    intro s t files name now status holds mode run
    have returned : (Operation.openBinlog name).run now s = .ok () t := by
      simp only [Operation.run, Action.bind_eq_ok]
      exact ⟨status,t,run,rfl⟩
    exact holds.basis_step mode (by simp) rfl returned
  cases stored with
  | reused => exact ⟨rfl,mode⟩
  | passed => exact ⟨rfl,mode⟩
  | changed name now later status closed t rotate opened named other close reopen =>
    have closes := @Holds.basis_step _ s files closed holds mode .closeBinlog (by simp) now () rfl close
    have between := @Holds.step _ s closed files holds .closeBinlog now () rfl close
    have reopens := opens between closes.2 reopen
    exact ⟨reopens.1.trans closes.1,reopens.2⟩
  | opened name now status t rotate closed named reopen => exact opens holds mode reopen
  | written nonempty now t inner write =>
    exact @Holds.basis_step _ s files t holds mode (.writeEvent (entryFor event context nonempty)) (by simp) now ()
      (opened fun rotate => inner.1 rotate.code) write
  | ended nonempty now later m t last write close =>
    have inside : s.isBinlogOpen = true := opened fun rotate => by cases rotate.artificial.symm.trans last.artificial
    have writes := @Holds.basis_step _ s files m holds mode (.writeEvent (entryFor event context nonempty)) (by simp) now ()
      inside write
    have between := @Holds.step _ s m files holds (.writeEvent (entryFor event context nonempty)) now () inside write
    have closes := @Holds.basis_step _ m _ t between writes.2 .closeBinlog (by simp) later () rfl close
    exact ⟨closes.1.trans writes.1,closes.2⟩

theorem Filed.basis (filed : Filed session files) (sound : event.Sound) (mode : session.storage.replicationMode = .gtid)
    (run : processBinlogEvent event session = .ok () session') :
    session'.storage.basis = session.storage.basis ∧ session'.storage.replicationMode = .gtid := by
  obtain ⟨infoOnly,step,stored⟩ := processBinlogEvent_ok filed.joined.sound sound.nonempty run
  refine stored.basis filed.holds mode fun other => filed.joined.opened ?_
  rcases step.kind with rotate | inner | last
  · exact absurd rotate other
  · exact (step.moved inner).1
  · exact (step.terminated last).1

/-- The storage and the reader are in the GTID mode, as they have to be where events are rewritten. -/
structure InGtidMode (session : Session) : Prop where
  stores : session.storage.replicationMode = .gtid
  reads : session.context.replicationMode = .gtid

omit [Externals] in
theorem InGtidMode.aged (mode : InGtidMode session) : InGtidMode session.aged := ⟨mode.stores,mode.reads⟩

theorem Filed.inGtidMode (filed : Filed session files) (sound : event.Sound) (mode : InGtidMode session)
    (run : processBinlogEvent event session = .ok () session') : InGtidMode session' := by
  obtain ⟨_,_,step,-⟩ := filed.step sound run
  exact ⟨(filed.basis sound mode.stores run).2,step.settings.1.trans mode.reads⟩

/-- An event of a preamble starts no transaction and ends none. It goes to the end of the file, unless the reader expects
    it for information only. -/
theorem Filed.preamble (filed : Filed session files) (mode : InGtidMode session) (sound : event.Sound)
    (code : event.getTypeCode = .formatDescription ∨ event.getTypeCode = .previousGtidsLog)
    (run : processBinlogEvent event session = .ok () session') :
    ∃ added, Filed session' (LocalFile.onLast (· ++ added) files) ∧
      (∀ entry ∈ added, isFirst entry.data = false ∧ entry.atTransactionBoundary = false) ∧
      (bytesOf added).length ≤ event.portion.length ∧
      (session.context.expectInfoOnlyPreambleEvents = true → added = []) ∧
      session'.context.expectInfoOnlyPreambleEvents = session.context.expectInfoOnlyPreambleEvents ∧
      (event.getTypeCode = .previousGtidsLog → session'.context.state = .gtidLogExpected) := by
  have inner : event.getTypeCode ≠ .rotate ∧ event.getTypeCode ≠ .stop := by rcases code with same | same <;> simp [same]
  have plain : isFirst event.portion = false := by
    rw [show isFirst event.portion = event.getTypeCode.isGtid from rfl]
    rcases code with same | same <;> simp [same,CodeType.isGtid]
  obtain ⟨infoOnly,added,step,filed',which⟩ := filed.inner sound inner run
  obtain ⟨unmarked,-,state⟩ := step.preamble_quiet filed.joined.sound.settled mode.reads code
  refine ⟨added,filed',?_,?_,?_,step.expectInfoOnlyPreambleEvents fun rotate => inner.1 rotate.code,state⟩
  · intro entry member
    rcases which with ⟨-,rfl⟩ | ⟨-,nonempty,rfl⟩
    · simp at member
    · rw [List.mem_singleton.mp member]
      exact ⟨plain,unmarked⟩
  · rcases which with ⟨-,rfl⟩ | ⟨-,nonempty,rfl⟩
    · exact Nat.zero_le _
    · simp [bytesOf,entryFor]
  · intro passes
    rcases which with ⟨-,none⟩ | ⟨written,-⟩
    · exact none
    · rw [step.preamble code, passes] at written
      cases written

/-- How long the preamble of a local file is at most: a FORMAT_DESCRIPTION and a PREVIOUS_GTIDS with these gtids. -/
def preambleSize (gtids : GtidSet) : Nat :=
  (defaultCommonHeaderLength + FormatDescriptionPostHeader.getSizeInBytes latestKnownProtocolServerVersion +
      (FormatDescriptionBody.encode .crc32).length + defaultFooterLength) +
    (defaultCommonHeaderLength + gtids.calculateEncodedSize + defaultFooterLength)

omit [Externals] in
theorem preamble_length {description previousGtids : EventView} {offset next : Nat} {gtids : GtidSet} {m m' : Session}
    (generated : generateFormatDescriptionEvent offset serverId session = .ok description session')
    (encoded : generatePreviousGtidsLogEvent next serverId gtids m = .ok previousGtids m') :
    description.portion.length + previousGtids.portion.length ≤ preambleSize gtids := by
  obtain ⟨-,-,_,_,postHeader,made,created⟩ := generateFormatDescriptionEvent_ok generated
  have short := FormatDescriptionPostHeader.length_of_encode (List.length_take_le _ _) made
  have first := (createEvent_ok created).2.1
  obtain ⟨-,-,body,_,_,written,created⟩ := generatePreviousGtidsLogEvent_ok encoded
  have second := (createEvent_ok created).2.1
  rw [GtidSet.length_of_encodeTo written] at second
  simp only [if_true, List.length_nil] at first second
  unfold preambleSize
  omega

/-- An event of a preamble that is written may flush the buffer. -/
theorem Filed.getGtids_preamble (filed : Filed session files) (mode : InGtidMode session) (sound : event.Sound)
    (code : event.getTypeCode = .formatDescription ∨ event.getTypeCode = .previousGtidsLog)
    (run : processBinlogEvent event session = .ok () session') :
    session'.storage.getGtids = session.storage.getGtids ∨ session'.storage.getGtids = session.storage.heldGtids := by
  have inner : event.getTypeCode ≠ .rotate ∧ event.getTypeCode ≠ .stop := by rcases code with same | same <;> simp [same]
  obtain ⟨_,_,-,-,after⟩ := filed.step sound run
  obtain ⟨infoOnly,step,stored⟩ := processBinlogEvent_ok filed.joined.sound sound.nonempty run
  obtain ⟨unmarked,-⟩ := step.preamble_quiet filed.joined.sound.settled mode.reads code
  have written := stored.inner inner
  split at written
  · exact .inl (by rw [written])
  · obtain ⟨nonempty,now,write⟩ := written
    exact filed.holds.getGtids_write after.holds mode.stores unmarked (filed.joined.opened (step.moved inner).1) write

omit [Externals] in
/-- A file that is gone on with leaves the gtids. -/
theorem Stored.getGtids [Externals] {s t : Storage} {context : ReaderContext} {infoOnly : Bool}
    (stored : Stored s event context infoOnly t) (holds : Holds s files) (rotate : event.IsArtificialRotate)
    (same : event.getBodyRaw = s.getCurrentBinlogName.str) : t.getGtids = s.getGtids ∧ t.heldGtids = s.heldGtids := by
  cases stored with
  | reused => exact ⟨rfl,rfl⟩
  | changed name now later status closed t rotate opened named other =>
    exact absurd (CompositeBinlogName.str_injective ((CompositeBinlogName.str_of_parse named).trans same)) other
  | opened name now status t rotate closed named reopen =>
    have current := CompositeBinlogName.str_injective ((CompositeBinlogName.str_of_parse named).trans same)
    obtain ⟨log,tracked⟩ := holds.tracked
    obtain ⟨-,⟨new,-⟩ | ⟨record,last,rfl,reopened⟩⟩ := Storage.openBinlog_ok tracked.sound.healthy reopen
    · have nonempty := CompositeBinlogName.parse_nonempty named
      unfold Storage.getCurrentBinlogName at current
      cases last : s.records.getLast? with
      | none => simp [current,last,CompositeBinlogName.none,CompositeBinlogName.isEmpty] at nonempty
      | some record => exact absurd (by simp [current,last]) (new record (List.mem_of_getLast? last))
    · obtain ⟨content,found,-⟩ := (tracked.sound.current record last).file
      obtain ⟨checkpoint,rfl⟩ := reopened content found (tracked.sound.files record.name content found)
      exact ⟨rfl,rfl⟩
  | passed preamble => simp [rotate.code] at preamble
  | written nonempty now t inner => exact absurd rotate.code inner.1
  | ended nonempty now later m t last => cases rotate.artificial.symm.trans last.artificial

omit [Externals] in
/-- An artificial ROTATE goes on with the last file or makes a new one. -/
theorem Filing.entered {front : List LocalFile} {file : LocalFile} {infoOnly : Bool}
    (filing : Filing session event session' files infoOnly (front ++ [file])) (artificial : event.IsArtificialRotate)
    (body : event.getBodyRaw = binlogName.str) :
    if binlogName = session.storage.getCurrentBinlogName then files = front ++ [file]
    else front = LocalFile.onLast wholeTransactions files ∧ file.entries = [] := by
  obtain ⟨after,split⟩ : ∃ after, after = front ++ [file] := ⟨_,rfl⟩
  rw [← split] at filing
  cases filing with
  | rotated name rotate named =>
    obtain rfl := CompositeBinlogName.str_injective (named.trans body)
    by_cases same : name = session.storage.getCurrentBinlogName
    · rw [if_pos same] at split ⊢
      exact split
    · rw [if_neg same] at split ⊢
      obtain ⟨rfl,last⟩ := List.append_inj' split rfl
      exact ⟨rfl,congrArg LocalFile.entries (List.singleton_inj.mp last).symm⟩
  | passed inner => exact absurd artificial.code inner.1
  | written inner => exact absurd artificial.code inner.1
  | ended last => cases artificial.artificial.symm.trans last.artificial

/-- The file that is open once a local file has been started: the one that was the last one, or a new one, with a preamble.
    The preamble is left out where a session goes on with a file that has one. In a new file PREVIOUS_GTIDS has the gtids
    of everything that was held. -/
theorem Filed.startLocalFile (filed : Filed session files) (mode : InGtidMode session)
    (run : startLocalFile serverId binlogName session = .ok u session') :
    ∃ front file added gtids, Filed session' (front ++ [⟨file.name,file.entries ++ added⟩]) ∧ InGtidMode session' ∧
      (if binlogName = session.storage.getCurrentBinlogName then
          files = front ++ [file] ∧ (gtids = session.storage.getGtids ∨ gtids = session.storage.heldGtids)
        else front = LocalFile.onLast wholeTransactions files ∧ file.entries = [] ∧ gtids = session.storage.heldGtids) ∧
      (∀ entry ∈ added, isFirst entry.data = false) ∧ (bytesOf added).length ≤ preambleSize gtids ∧
      (binlogName = session.storage.getCurrentBinlogName → session.context.isFresh = true →
        magicBinlogOffset < session.storage.getCurrentPosition % 2 ^ 32 → added = []) ∧
      session'.context.state = .gtidLogExpected := by
  obtain ⟨rotate,entered,description,described,previousGtids,rotated,enter,generated,describe,encoded,finish⟩ :=
    startLocalFile_ok run
  obtain ⟨sound,artificial,body⟩ := filed.joined.rotateTo rotated enter
  have opened := (filed.joined.rotated sound artificial enter).2.1
  have passes : binlogName = session.storage.getCurrentBinlogName → session.context.isFresh = true →
      magicBinlogOffset < session.storage.getCurrentPosition % 2 ^ 32 →
      entered.context.expectInfoOnlyPreambleEvents = true := by
    intro same fresh long
    rw [filed.joined.resumed fresh sound artificial (by rw [body, same]) enter, decide_eq_true long]
  obtain ⟨_,files',-,filing,inside⟩ := filed.step sound enter
  have mode₁ := filed.inGtidMode sound mode enter
  have basis₁ := (filed.basis sound mode.stores enter).1
  obtain ⟨front,file,rfl⟩ := inside.holds.exists_last opened
  have current := filing.entered artificial body
  obtain ⟨descriptionSound,descriptionCode⟩ := generateFormatDescriptionEvent_sound generated
  obtain ⟨first,filed₂,firstPlain,firstLength,firstPassed,expects,-⟩ := inside.aged.aged.preamble mode₁.aged.aged
    descriptionSound (.inl descriptionCode) describe
  have mode₂ := inside.aged.aged.inGtidMode descriptionSound mode₁.aged.aged describe
  have basis₂ : described.storage.basis = entered.storage.basis :=
    (inside.aged.aged.basis descriptionSound mode₁.stores describe).1
  rw [LocalFile.onLast_concat] at filed₂
  obtain ⟨previousSound,previousCode⟩ := generatePreviousGtidsLogEvent_sound encoded
  obtain ⟨second,filed₃,secondPlain,secondLength,secondPassed,-,state⟩ := filed₂.aged.preamble mode₂.aged previousSound
    (.inr previousCode) finish
  rw [LocalFile.onLast_concat] at filed₃
  refine ⟨front,file,first ++ second,described.storage.getGtids,by simpa using filed₃,
    filed₂.aged.inGtidMode previousSound mode₂.aged finish,?_,?_,?_,?_,state previousCode⟩
  · split at current
    · rename_i same
      rw [if_pos same]
      obtain ⟨_,-,stored⟩ := processBinlogEvent_ok filed.joined.sound sound.nonempty enter
      obtain ⟨stays,holds⟩ := stored.getGtids filed.holds artificial (by rw [body, same])
      refine ⟨current,?_⟩
      rw [← stays, ← holds]
      exact inside.aged.aged.getGtids_preamble mode₁.aged.aged descriptionSound (.inl descriptionCode) describe
    · rename_i other
      rw [if_neg other]
      obtain ⟨rfl,none⟩ := current
      refine ⟨rfl,none,filed₂.holds.getGtids_valid.eq_of_contains filed.holds.heldGtids_valid fun gtid => ?_⟩
      rw [filed₂.holds.contains_front mode₂.stores (by simpa [none] using fun entry member => (firstPlain entry member).2),
        filed.holds.contains_heldGtids mode.stores, basis₂, basis₁, Storage.commits_onLast]
  · intro entry member
    rcases List.mem_append.mp member with old | new
    · exact (firstPlain entry old).1
    · exact (secondPlain entry new).1
  · have most := preamble_length generated encoded
    rw [bytesOf_append, List.length_append]
    omega
  · intro same fresh long
    have passed := passes same fresh long
    rw [firstPassed passed, secondPassed (expects.trans passed), List.append_nil]

/-- A local file is started while the others are limited. -/
theorem Filed.startLimited {fileSize : Nat} (filed : Filed session files) (mode : InGtidMode session)
    (large : magicBinlogOffset < fileSize) (limited : ∀ file ∈ files, AreLimited fileSize file.entries)
    (run : Session.startLocalFile serverId binlogName session = .ok u session') :
    ∃ front file, Filed session' (front ++ [file]) ∧ InGtidMode session' ∧
      (∀ other ∈ front, AreLimited fileSize other.entries) ∧ StartsBelow fileSize (file.entries.map EventEntry.data) ∧
      session'.context.state = .gtidLogExpected ∧
      if binlogName = session.storage.getCurrentBinlogName then
        (session.context.isFresh = true → magicBinlogOffset < session.storage.getCurrentPosition % 2 ^ 32 →
          session'.storage.getCurrentPosition = session.storage.getCurrentPosition) ∧
        ∃ gtids ∈ [session.storage.getGtids,session.storage.heldGtids],
          session'.storage.getCurrentPosition ≤ session.storage.getCurrentPosition + preambleSize gtids
      else session'.storage.getCurrentPosition ≤ magicBinlogOffset + preambleSize session.storage.heldGtids := by
  obtain ⟨front,file,added,gtids,after,next,current,plain,short,passed,state⟩ := filed.startLocalFile mode run
  have old : (∀ other ∈ front, AreLimited fileSize other.entries) ∧ StartsBelow fileSize (file.entries.map EventEntry.data) := by
    split at current
    · obtain ⟨rfl,-⟩ := current
      exact ⟨fun other member => limited other (List.mem_append_left _ member),(limited file (by simp)).started⟩
    · obtain ⟨rfl,none,-⟩ := current
      refine ⟨LocalFile.forall_onLast AreLimited.of_isPrefix wholeTransactions_isPrefix limited,?_⟩
      rw [none]
      exact (Limited.nil large).started
  refine ⟨front,_,after,next,old.1,?_,state,?_⟩
  · rw [List.map_append]
    refine old.2.append fun portion member => ?_
    obtain ⟨entry,known,rfl⟩ := List.mem_map.mp member
    exact plain entry known
  · have position : session'.storage.getCurrentPosition =
        magicBinlogOffset + ((bytesOf file.entries).length + (bytesOf added).length) := by
      rw [after.holds.stored.2.1, LocalFile.length, bytesOf_append, List.length_append]
    split at current
    · rename_i same
      rw [if_pos same]
      obtain ⟨rfl,which⟩ := current
      have before : session.storage.getCurrentPosition = magicBinlogOffset + (bytesOf file.entries).length :=
        filed.holds.stored.2.1
      refine ⟨fun fresh long => ?_,gtids,by simpa using which,by omega⟩
      rw [position, before, passed same fresh long]
      rfl
    · rename_i other
      rw [if_neg other]
      obtain ⟨-,none,rfl⟩ := current
      rw [none] at position
      simp only [bytesOf, List.flatMap_nil, List.length_nil, Nat.zero_add] at position
      rw [position]
      exact Nat.add_le_add_left short _

/-- The ROTATE at the end of a file, which adds no gtid. -/
theorem Filed.endLocalFile (filed : Filed session files) (mode : InGtidMode session)
    (run : endLocalFile serverId binlogName session = .ok u session') :
    ∃ entry, Filed session' (LocalFile.onLast (· ++ [entry]) files) ∧ InGtidMode session' ∧
      isRotate entry.data = true ∧ session'.storage.heldGtids = session.storage.heldGtids := by
  obtain ⟨rotate,generated,run⟩ := endLocalFile_ok run
  obtain ⟨code,plain,-⟩ := generateRotateEvent_header generated
  have sound := (EventView.make_sound (generateRotateEvent_ok generated).2.1).1
  obtain ⟨_,_,step,filing,after⟩ := filed.aged.step sound run
  have next := filed.aged.inGtidMode sound mode.aged run
  have basis : session'.storage.basis = session.storage.basis := (filed.aged.basis sound mode.stores run).1
  cases filing with
  | rotated name rotate => cases plain.symm.trans rotate.artificial
  | passed inner => exact absurd code inner.1
  | written inner => exact absurd code inner.1
  | ended last nonempty =>
    refine ⟨_,after,next,decide_eq_true code,after.holds.heldGtids_valid.eq_of_contains filed.holds.heldGtids_valid ?_⟩
    intro gtid
    have unnamed : session'.context.transactionGtid = .empty := by
      obtain ⟨-,-,context⟩ := step.terminated last
      rw [context]
      rfl
    have nothing : ¬ Commits [entryFor rotate session'.context nonempty] gtid := by
      rintro ⟨entry,member,-,some,same⟩
      obtain rfl := List.mem_singleton.mp member
      rw [← same] at some
      exact some (by simp [entryFor,unnamed,Gtid.isEmpty,Gtid.empty])
    rw [after.holds.contains_heldGtids next.stores, filed.holds.contains_heldGtids mode.stores, basis]
    refine or_congr_right ?_
    induction files using List.reverseRecOn with
    | nil => rfl
    | append_singleton front file => simp [commits_append,nothing]

end

/-- A session goes on with the file of the one before it, which has its preamble. -/
def Resumes (session : Session) : Prop :=
  session.context.isFresh = true ∧ session.storage.isEmpty = false ∧
    magicBinlogOffset < session.storage.getCurrentPosition % 2 ^ 32

/-- The local file of the next event has room. A file that a session goes on with has not reached the size that is set; a
    file that is started does not reach it with its preamble, nor does a file that a session gives a preamble to because
    its length, as far as the reader knows it, is that of the magic. -/
structure Roomy (config : RewriteConfig) (session : Session) : Prop where
  resumed : session.Resumes → session.storage.getCurrentPosition < config.fileSize
  repeated : session.context.isFresh = true → session.storage.isEmpty = false → ¬ session.Resumes →
    ∀ gtids ∈ [session.storage.getGtids,session.storage.heldGtids],
      session.storage.getCurrentPosition + preambleSize gtids < config.fileSize
  started : session.needsLocalFile config = true → (session.context.isFresh = true → session.storage.isEmpty = true) →
    magicBinlogOffset + preambleSize session.storage.heldGtids < config.fileSize

instance (session : Session) : Decidable session.Resumes := inferInstanceAs (Decidable (_ ∧ _ ∧ _))

theorem roomy_iff (config : RewriteConfig) (session : Session) :
    (session.Resumes → session.storage.getCurrentPosition < config.fileSize) ∧
      (session.context.isFresh = true → session.storage.isEmpty = false → ¬ session.Resumes →
        ∀ gtids ∈ [session.storage.getGtids,session.storage.heldGtids],
          session.storage.getCurrentPosition + preambleSize gtids < config.fileSize) ∧
      (session.needsLocalFile config = true → (session.context.isFresh = true → session.storage.isEmpty = true) →
        magicBinlogOffset + preambleSize session.storage.heldGtids < config.fileSize) ↔ Roomy config session :=
  ⟨fun ⟨resumed,repeated,started⟩ => ⟨resumed,repeated,started⟩,fun roomy => ⟨roomy.resumed,roomy.repeated,roomy.started⟩⟩

instance (config : RewriteConfig) (session : Session) : Decidable (Roomy config session) :=
  decidable_of_iff _ (roomy_iff config session)

section
variable [Externals] {session session' m : Session} {event rewritten : EventView} {files : List LocalFile}
  {serverId : Nat} {config : RewriteConfig} {u : Unit}

omit [Externals] in
theorem fresh_of_state {context : ReaderContext} (fresh : context.isFresh = true → context.state = .rotateArtificialExpected)
    (state : context.state ≠ .rotateArtificialExpected) : context.isFresh = false := by
  by_contra new
  exact state (fresh (by simpa using new))

/-- All files are limited, and the current one grows by events of one transaction. -/
inductive Sized (fileSize : Nat) (session : Session) : List LocalFile → Prop where
  | waiting {files : List LocalFile} (filed : Filed session files) (mode : InGtidMode session) (fresh : session.context.isFresh = true)
      (limited : ∀ file ∈ files, AreLimited fileSize file.entries) : Sized fileSize session files
  | inside {front : List LocalFile} {file : LocalFile} (filed : Filed session (front ++ [file]))
      (mode : InGtidMode session) (state : session.context.state = .anyOtherExpected) (limited : ∀ other ∈ front, AreLimited fileSize other.entries)
      (growing : Growing fileSize (file.entries.map EventEntry.data)) : Sized fileSize session (front ++ [file])

/-- A local file is started, or gone on with. -/
theorem Sized.changed (sized : Sized config.fileSize session files) (large : magicBinlogOffset < config.fileSize)
    (needed : session.needsLocalFile config = true) (run : changeLocalFile serverId config session = .ok u m) :
    ∃ front file, Filed m (front ++ [file]) ∧ InGtidMode m ∧ (∀ other ∈ front, AreLimited config.fileSize other.entries) ∧
      StartsBelow config.fileSize (file.entries.map EventEntry.data) ∧ m.context.state = .gtidLogExpected ∧
      (Roomy config session → m.storage.getCurrentPosition < config.fileSize) := by
  obtain ⟨binlogName,closed,named,ended,started⟩ := changeLocalFile_ok run
  cases sized with
  | waiting filed mode fresh limited =>
    rw [if_pos fresh] at ended
    subst ended
    obtain ⟨front,file,filed,mode,limited,below,state,position⟩ := filed.startLimited mode large limited started
    refine ⟨front,file,filed,mode,limited,below,state,fun roomy => ?_⟩
    rcases nextBinlogName_ok named with ⟨nonempty,-,same⟩ | ⟨empty,other⟩
    · rw [if_pos same] at position
      obtain ⟨stays,gtids,which,most⟩ := position
      by_cases resumes : closed.Resumes
      · rw [stays fresh resumes.2.2]
        exact roomy.resumed resumes
      · exact most.trans_lt (roomy.repeated fresh nonempty resumes gtids which)
    · rw [if_neg other] at position
      exact position.trans_lt (roomy.started needed fun _ => empty.resolve_right (by simp [fresh]))
  | inside filed mode state limited growing =>
    have old := fresh_of_state filed.joined.fresh (by simp [state])
    have new := ((nextBinlogName_ok named).resolve_left (by simp [old])).2
    rw [if_neg (by simp [old])] at ended
    have same := (filed.joined.endLocalFile ended).2
    obtain ⟨entry,filed,mode,rotate,held⟩ := filed.endLocalFile mode ended
    rw [LocalFile.onLast_concat] at filed
    have ends := growing.rotated rotate
    obtain ⟨front,file,filed,mode,limited,below,state,position⟩ := filed.startLimited mode large (fun other member => by
      rcases List.mem_append.mp member with before | last
      · exact limited other before
      · rw [List.mem_singleton.mp last, AreLimited, List.map_append]
        exact ends) started
    rw [if_neg (by rwa [same]), held] at position
    exact ⟨front,file,filed,mode,limited,below,state,
      fun roomy => position.trans_lt (roomy.started needed (by simp [old]))⟩

/-- In `m` an event can be appended: the first one of a transaction to a file that has not reached the size, or another
    one to a transaction. -/
theorem Sized.prepared (sized : Sized config.fileSize session files) (large : magicBinlogOffset < config.fileSize)
    (prepared : Prepared serverId config session m) :
    ∃ front file, Filed m (front ++ [file]) ∧ InGtidMode m ∧ (∀ other ∈ front, AreLimited config.fileSize other.entries) ∧
      StartsBelow config.fileSize (file.entries.map EventEntry.data) ∧
      (m.context.Between → Roomy config session → m.storage.getCurrentPosition < config.fileSize) ∧
      (m.context.state = .anyOtherExpected → Growing config.fileSize (file.entries.map EventEntry.data)) := by
  unfold Prepared at prepared
  split at prepared
  · rename_i needed
    obtain ⟨front,file,filed,mode,limited,below,state,position⟩ := sized.changed large needed prepared
    exact ⟨front,file,filed,mode,limited,below,fun _ => position,by simp [state]⟩
  · rename_i unneeded
    subst prepared
    cases sized with
    | waiting filed mode fresh => simp [needsLocalFile,fresh] at unneeded
    | @inside front file filed mode state limited growing =>
      refine ⟨front,file,filed,mode,limited,growing.started,fun between _ => ?_,fun _ => growing⟩
      have boundary : m.context.isAtTransactionBoundary = true := by
        rcases between with other | ⟨-,same⟩
        · cases other.symm.trans state
        · simp [ReaderContext.isAtTransactionBoundary,state,same]
      simp only [needsLocalFile, boundary, Bool.true_and, Bool.or_eq_true, decide_eq_true_eq, not_or] at unneeded
      omega

/-- The first event of a transaction is written where the file has not reached the size, and the others after it. -/
theorem Sized.appended (sized : Sized config.fileSize session files) (large : magicBinlogOffset < config.fileSize)
    (prepared : Prepared serverId config session m) (sound : event.Sound) (kept : isSkipped event.getTypeCode = false)
    (roomy : event.getTypeCode.isGtid = true → Roomy config session)
    (made : Rewriter.rewrite m.storage.getLastTransactionSequenceNumber event m.storage.getCurrentPosition = .ok rewritten)
    (processed : processBinlogEvent rewritten m = .ok () session') : ∃ files', Sized config.fileSize session' files' := by
  obtain ⟨front,file,filed,mode,limited,below,room,growing⟩ := sized.prepared large prepared
  obtain ⟨relocated,sameCode,-⟩ := filed.joined.rewritten_positionOk sound made
  obtain ⟨inner,plain⟩ := isSkipped_false kept
  rw [← sameCode] at inner plain roomy
  obtain ⟨infoOnly,added,step,after,which⟩ := filed.inner relocated inner processed
  obtain ⟨nonempty,rfl⟩ : ∃ nonempty, added = [entryFor rewritten session'.context nonempty] := by
    rcases which with ⟨passed,-⟩ | ⟨-,written⟩
    · cases passed.symm.trans (step.written inner plain)
    · exact written
  rw [LocalFile.onLast_concat] at after
  have position : m.storage.getCurrentPosition = magicBinlogOffset + (bytesOf file.entries).length := filed.holds.stored.2.1
  have flat : (file.entries.map EventEntry.data).flatten = bytesOf file.entries := by rw [bytesOf, List.flatMap_def]
  suffices rest : session'.context.state = .anyOtherExpected ∧
      Growing config.fileSize (file.entries.map EventEntry.data ++ [rewritten.portion]) by
    refine ⟨_,.inside after (filed.inGtidMode relocated mode processed) rest.1 limited ?_⟩
    rw [List.map_append]
    exact rest.2
  obtain ⟨state,⟨start,code⟩ | ⟨start,code⟩⟩ := step.transaction inner plain
  · refine ⟨state,.first below code ?_⟩
    rw [flat, ← position]
    exact room start (roomy code)
  · exact ⟨state,(growing start).other ⟨code,decide_eq_false inner.1⟩⟩

theorem Sized.limited {fileSize : Nat} (sized : Sized fileSize session files) :
    Filed session files ∧ ∀ file ∈ files, AreLimited fileSize file.entries := by
  cases sized with
  | waiting filed mode fresh limited => exact ⟨filed,limited⟩
  | @inside front file filed mode state limited growing =>
    refine ⟨filed,fun other member => ?_⟩
    rcases List.mem_append.mp member with old | last
    · exact limited other old
    · rw [List.mem_singleton.mp last]
      exact growing.limited

variable {settings : Config} {start : Session} {packets : List Bytes}

/-- In a session of the rewrite mode, which is one of the GTID mode, the local file has room wherever a transaction
    starts. -/
structure Ample (config : RewriteConfig) (settings : Config) (start : Session) (packets : List Bytes) : Prop where
  rewrites : settings.rewrite = some config
  gtid : start.storage.replicationMode = .gtid
  roomy : ∀ front packet rest session event, packets = front ++ packet :: rest →
    receivePackets settings front start = .ok () session → EventView.make session.context packet.tail = .ok event →
    event.getTypeCode.isGtid = true → Roomy config session

theorem Sized.run (sized : Sized config.fileSize start files) (large : magicBinlogOffset < config.fileSize)
    (ample : Ample config settings start packets) (run : receivePackets settings packets start = .ok () session) :
    ∃ files', Sized config.fileSize session files' := by
  induction packets using List.reverseRecOn generalizing session with
  | nil =>
    obtain ⟨-,rfl⟩ := Action.pure_eq_ok.mp run
    exact ⟨files,sized⟩
  | append_singleton front packet ih =>
    obtain ⟨m,before,last⟩ := receivePackets_concat.mp run
    have shorter : Ample config settings start front := by
      refine ⟨ample.rewrites,ample.gtid,fun first other rest session event split => ?_⟩
      exact ample.roomy first other (rest ++ [packet]) session event (by simp [split])
    obtain ⟨files,sized⟩ := ih shorter before
    obtain ⟨event,view,-,rewritten⟩ := receivePacket_ok last
    rcases rewriteAndProcessBinlogEvent_ok (rewritten config ample.rewrites) with ⟨-,rfl⟩ | ⟨kept,prepared,ready,run⟩
    · exact ⟨files,sized⟩
    · obtain ⟨relocated,made,processed⟩ := processRewritten_ok run
      refine sized.appended large ready (EventView.make_sound view).1 kept (fun code => ?_) made processed
      exact ample.roomy front packet [] m event rfl before view code

/-- In the rewrite mode, whatever sessions, lost connections, terminations and restarts there have been: if the local file
    has had room wherever a transaction has been started, no transaction has been started in a file that had reached the
    size that is set, and every file is shorter than that size with one transaction and one ROTATE. -/
theorem stored_files_limited {s : Storage} (large : 1024 ≤ config.fileSize) (relayed : Relayed (Ample config) s) :
    ∀ record ∈ s.records, ∃ events,
      s.backend.objects.find? record.name.str = some (magicBinlogPayload ++ events.flatten) ∧
        (∀ event ∈ events, IsEvent event) ∧ Limited config.fileSize events := by
  have long : magicBinlogOffset < config.fileSize := by
    unfold magicBinlogOffset
    omega
  obtain ⟨files,holds,limited⟩ := relayed.files (P := AreLimited config.fileSize) AreLimited.of_isPrefix (by
    intro settings rewrite packets serverVersion storage clock calendar files session start mode ample filed limited received
    obtain ⟨files',sized⟩ := (Sized.waiting filed ⟨ample.gtid,ample.gtid⟩ rfl limited).run long ample received
    exact ⟨files',sized.limited⟩)
  intro record member
  obtain ⟨entries,limited,events,content⟩ := stored_of_holds AreLimited.of_isPrefix holds limited record member
  exact ⟨_,content,by simpa [AreEvents] using events,limited⟩

end
namespace Sample
attribute [local instance] FlatJson.externals

/-- A transaction of 1059 bytes. -/
def large : List Bytes :=
  packet (Events.Sample.encoded (createEvent .gtidLog 0 0 1 0
    (GtidLogPostHeader.encode ⟨0,Gtids.GtidSet.Sample.uuid,1,2,0,1⟩) (List.replicate 7 0 ++ [252,35,4]) true)) ::
    List.replicate 8 (packet (Events.Sample.encoded (createEvent .xid 0 0 1 0 [] (List.replicate 100 0) true)))

/-- Where the file ends after a session and its connection has been lost, whether the next session goes on with the file,
    and whether a transaction starts there. -/
def resumedAfter (packets : List Bytes) : Option (Nat × Bool × Bool) :=
  match receivePackets rewriting packets relay with
  | .error _ _ => none
  | .ok _ session =>
    match disconnect false session.storage with
    | .error _ _ => none
    | .ok _ s =>
      match connect rewriting 80400 [] (fun _ => 0) (fun _ => 0) s with
      | .error _ => none
      | .ok (_,start) =>
        match receivePackets rewriting [packet gtidLog] start with
        | .error _ _ => none
        | .ok _ session' => some (s.getCurrentPosition,
            session'.storage.getCurrentBinlogName = s.getCurrentBinlogName,
            isFirst ((session'.storage.fileContent ++ session'.storage.buffer.data).drop s.getCurrentPosition))

/-- A transaction of 96 bytes. -/
def short (number : Nat) : List Bytes :=
  [packet (transaction number (number - 1) number),packet commit]

/-- The session after packets, if the local file has room wherever a transaction starts. -/
def receiveAmple : List Bytes → Session → Option Session
  | [],session => some session
  | packet :: rest,session =>
    match EventView.make session.context packet.tail with
    | .error _ => none
    | .ok event =>
      if event.getTypeCode.isGtid = true → Roomy rewriteConfig session then
        match receivePacket rewriting packet session with
        | .ok _ next => receiveAmple rest next
        | .error _ _ => none
      else none

theorem ample_of_receiveAmple {packets : List Bytes} {start last : Session} (found : receiveAmple packets start = some last) :
    receivePackets rewriting packets start = .ok () last ∧
      ∀ front packet rest session event, packets = front ++ packet :: rest →
        receivePackets rewriting front start = .ok () session → EventView.make session.context packet.tail = .ok event →
        event.getTypeCode.isGtid = true → Roomy rewriteConfig session := by
  induction packets generalizing start with
  | nil =>
    cases found
    exact ⟨rfl,fun front packet rest session event split => by simp at split⟩
  | cons first others ih =>
    unfold receiveAmple at found
    split at found
    · cases found
    · rename_i event view
      split at found
      · rename_i roomy
        split at found
        · rename_i u next received
          obtain ⟨rest,all⟩ := ih found
          refine ⟨Action.bind_eq_ok.mpr ⟨u,next,received,rest⟩,?_⟩
          intro front packet back session other split before made code
          cases front with
          | nil =>
            obtain ⟨-,rfl⟩ := Action.pure_eq_ok.mp before
            obtain ⟨rfl,-⟩ := List.cons.inj split
            cases made.symm.trans view
            exact roomy code
          | cons head front =>
            obtain ⟨rfl,split'⟩ := List.cons.inj split
            obtain ⟨_,m,done,before⟩ := Action.bind_eq_ok.mp before
            cases done.symm.trans received
            exact all front packet back session other split' before made code
        · cases found
      · cases found

/-- A session over a storage, which ends with its connection, if the local file has room wherever a transaction starts. -/
def visitAmple (packets : List Bytes) (s : Storage) : Option Storage :=
  match connect rewriting 80400 [] (fun _ => 0) (fun _ => 0) s with
  | .error _ => none
  | .ok (_,start) =>
    if start.storage.replicationMode = .gtid then
      match receiveAmple packets start with
      | none => none
      | some session =>
        match disconnect false session.storage with
        | .error _ _ => none
        | .ok _ t => some t
    else none

theorem relayed_of_visitAmple {packets : List Bytes} {s t : Storage} (relayed : Relayed (Ample rewriteConfig) s)
    (found : visitAmple packets s = some t) : Relayed (Ample rewriteConfig) t := by
  unfold visitAmple at found
  split at found
  · cases found
  · rename_i point start connected
    split at found
    · rename_i mode
      split at found
      · cases found
      · rename_i session received
        split at found
        · cases found
        · rename_i left
          cases found
          obtain ⟨received,roomy⟩ := ample_of_receiveAmple received
          exact .session relayed rfl ⟨rfl,mode,roomy⟩ nothing_purged connected received left
    · cases found

end Sample

section
attribute [local instance] FlatJson.externals

/-- The first local file is longer than the size that is set by a part of its only transaction and a ROTATE; the second one
    has a transaction of each session. -/
theorem stored_files_limited_sample : ∃ s, 1024 ≤ Sample.rewriteConfig.fileSize ∧
    Relayed (Ample Sample.rewriteConfig) s ∧ s.records.map BinlogRecord.size = [1256,390] ∧
    ∀ record ∈ s.records, ∃ events,
      s.backend.objects.find? record.name.str = some (magicBinlogPayload ++ events.flatten) ∧
        (∀ event ∈ events, IsEvent event) ∧ Limited Sample.rewriteConfig.fileSize events := by
  have evaluated : ((Sample.visitAmple (Sample.large ++ Sample.short 2) Storage.Sample.emptyStorage).bind
      (Sample.visitAmple (Sample.short 3))).map (fun s => s.records.map BinlogRecord.size) = some [1256,390] := by
    decide +kernel
  rw [Option.map_eq_some_iff] at evaluated
  obtain ⟨s,found,sizes⟩ := evaluated
  obtain ⟨between,first,second⟩ := Option.bind_eq_some_iff.mp found
  have relayed := Sample.relayed_of_visitAmple (Sample.relayed_of_visitAmple (Sample.emptyStorage_relayed _) first) second
  exact ⟨s,by decide,relayed,sizes,stored_files_limited (by decide) relayed⟩

/-- A file that has 1217 bytes, of which 1024 are the size that is set, is gone on with by the next session. -/
theorem stored_files_unlimited : ∃ s point start session, Relayed (fun _ _ _ => True) s ∧
    1024 ≤ Sample.rewriteConfig.fileSize ∧ Sample.rewriteConfig.fileSize ≤ s.getCurrentPosition ∧
    connect Sample.rewriting 80400 [] (fun _ => 0) (fun _ => 0) s = .ok (point,start) ∧
    receivePackets Sample.rewriting [Sample.packet Sample.gtidLog] start = .ok () session ∧
    session.storage.getCurrentBinlogName = s.getCurrentBinlogName ∧
    isFirst ((session.storage.fileContent ++ session.storage.buffer.data).drop s.getCurrentPosition) = true := by
  have evaluated : Sample.resumedAfter Sample.large = some (1217,true,true) := by decide +kernel
  unfold Sample.resumedAfter at evaluated
  split at evaluated
  · cases evaluated
  · rename_i session received
    split at evaluated
    · cases evaluated
    · rename_i s disconnected
      split at evaluated
      · cases evaluated
      · rename_i point start connected
        split at evaluated
        · cases evaluated
        · rename_i after resumed
          simp only [Option.some.injEq, Prod.mk.injEq, decide_eq_true_eq] at evaluated
          obtain ⟨point₀,first⟩ := Sample.relay_connected
          have relayed : Relayed (fun _ _ _ => True) s :=
            .session (Sample.emptyStorage_relayed _) rfl trivial Sample.nothing_purged first received disconnected
          exact ⟨s,point,start,after,relayed,by decide,by rw [evaluated.1]; decide,connected,resumed,evaluated.2⟩

end

end Session
end BinlogServer.App
