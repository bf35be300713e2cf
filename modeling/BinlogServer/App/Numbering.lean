import BinlogServer.App.Files
import BinlogServer.Events.Numbers

/-!
# The transactions of a local file are counted

In the rewrite mode the transactions of every local file are numbered from one, whatever has been dropped in between: the
number of the next one comes from the storage, which knows the last one it holds for the file.
-/

namespace BinlogServer.Store
open ByteString Util Gtids Events

/-- The numbers of the transactions that start in these events. -/
def numbersOf (portions : List Bytes) : List (Nat × Nat) := portions.filterMap storedNumbers

/-- The events of a local file: its transactions are numbered from one, and each one depends on one before it, or, the
    first one only, on none. -/
structure Numbered (portions : List Bytes) : Prop where
  sequence : (numbersOf portions).map Prod.fst = List.range' 1 (numbersOf portions).length
  committed : ∀ numbers ∈ numbersOf portions, numbers.2 < numbers.1 ∧ (numbers.2 = 0 ↔ numbers.1 = 1)

namespace Numbered
variable {portions front : List Bytes} {portion : Bytes}

theorem nil : Numbered [] := ⟨rfl,by simp [numbersOf]⟩

theorem of_isPrefix (numbered : Numbered portions) (part : front <+: portions) : Numbered front := by
  obtain ⟨rest,rfl⟩ := part
  have split : numbersOf (front ++ rest) = numbersOf front ++ numbersOf rest := List.filterMap_append
  refine ⟨?_,fun numbers member => ?_⟩
  · have sequence := numbered.sequence
    rw [split, List.map_append, List.length_append, ← List.range'_append_1] at sequence
    exact (List.append_inj sequence (by simp)).1
  · exact numbered.committed numbers (by rw [split]; exact List.mem_append_left _ member)

theorem bounds (numbered : Numbered portions) {numbers : Nat × Nat} (member : numbers ∈ numbersOf portions) :
    0 < numbers.1 ∧ numbers.1 ≤ (numbersOf portions).length := by
  have listed : numbers.1 ∈ List.range' 1 (numbersOf portions).length := by
    rw [← numbered.sequence]
    exact List.mem_map_of_mem member
  have range := List.mem_range'_1.mp listed
  omega

/-- The first event of the next transaction. -/
theorem concat (numbered : Numbered portions) {lastCommitted : Nat}
    (read : storedNumbers portion = some ((numbersOf portions).length + 1,lastCommitted))
    (before : lastCommitted < (numbersOf portions).length + 1)
    (first : lastCommitted = 0 ↔ (numbersOf portions).length + 1 = 1) : Numbered (portions ++ [portion]) := by
  have more : numbersOf (portions ++ [portion]) =
      numbersOf portions ++ [((numbersOf portions).length + 1,lastCommitted)] := by simp [numbersOf,read]
  refine ⟨?_,fun numbers member => ?_⟩
  · rw [more, List.map_append, numbered.sequence, List.length_append, List.length_singleton, List.range'_concat]
    simp [Nat.add_comm]
  · rw [more] at member
    rcases List.mem_append.mp member with old | new
    · exact numbered.committed numbers old
    · rw [List.mem_singleton.mp new]
      exact ⟨before,first⟩

end Numbered

/-- In the events of a local file the last number counts the transactions, and every GTID event has numbers. -/
structure Counted (entries : List EventEntry) : Prop where
  numbered : Numbered (entries.map EventEntry.data)
  counted : ∀ front, front <+: entries → lastNumber 0 front = (numbersOf (front.map EventEntry.data)).length
  read : ∀ entry ∈ entries, (CommonHeader.getTypeCode entry.data).isGtid = true → storedNumbers entry.data ≠ none

namespace Counted
variable {entries : List EventEntry} {entry : EventEntry}

theorem nil : Counted [] := by
  refine ⟨Numbered.nil,fun front part => ?_,by simp⟩
  rw [List.prefix_nil.mp part]
  rfl

theorem of_isPrefix (front entries : List EventEntry) (part : front <+: entries) (counted : Counted entries) : Counted front :=
  ⟨counted.numbered.of_isPrefix (part.map _),fun shorter within => counted.counted shorter (within.trans part),
    fun entry member => counted.read entry (part.subset member)⟩

private theorem counted_concat (counted : Counted entries)
    (last : lastNumber 0 (entries ++ [entry]) = (numbersOf ((entries ++ [entry]).map EventEntry.data)).length)
    (shorter : List EventEntry) (within : shorter <+: entries ++ [entry]) :
    lastNumber 0 shorter = (numbersOf (shorter.map EventEntry.data)).length := by
  rcases List.prefix_concat_iff.mp within with rfl | old
  · exact last
  · exact counted.counted shorter old

private theorem read_concat (counted : Counted entries)
    (last : (CommonHeader.getTypeCode entry.data).isGtid = true → storedNumbers entry.data ≠ none) :
    ∀ other ∈ entries ++ [entry], (CommonHeader.getTypeCode other.data).isGtid = true → storedNumbers other.data ≠ none := by
  rw [List.forall_mem_append, List.forall_mem_singleton]
  exact ⟨counted.read,last⟩

theorem length_numbersOf (counted : Counted entries) :
    (numbersOf (entries.map EventEntry.data)).length = lastNumber 0 entries := (counted.counted entries List.prefix_rfl).symm

/-- An event that is not the first one of a transaction has the number of the last one, or none. -/
theorem concat (counted : Counted entries) (plain : (CommonHeader.getTypeCode entry.data).isGtid = false)
    (number : entry.sequenceNumber.toNat = 0 ∨ entry.sequenceNumber.toNat = lastNumber 0 entries) :
    Counted (entries ++ [entry]) := by
  have same : numbersOf ((entries ++ [entry]).map EventEntry.data) = numbersOf (entries.map EventEntry.data) := by
    simp [numbersOf,storedNumbers_none plain]
  refine ⟨⟨by rw [same]; exact counted.numbered.sequence,by rw [same]; exact counted.numbered.committed⟩,
    counted_concat counted ?_,counted.read_concat (by simp [plain])⟩
  rw [same, counted.length_numbersOf, lastNumber_concat]
  by_cases zero : entry.sequenceNumber.toNat = 0
  · exact if_neg (not_not.mpr zero)
  · rw [if_pos zero]
    exact number.resolve_left zero

/-- The first event of a transaction has the next number. -/
theorem concat_next (counted : Counted entries) {lastCommitted : Nat}
    (read : storedNumbers entry.data = some (lastNumber 0 entries + 1,lastCommitted))
    (number : entry.sequenceNumber.toNat = lastNumber 0 entries + 1) (before : lastCommitted < lastNumber 0 entries + 1)
    (first : lastCommitted = 0 ↔ lastNumber 0 entries + 1 = 1) : Counted (entries ++ [entry]) := by
  have more : (numbersOf ((entries ++ [entry]).map EventEntry.data)).length = lastNumber 0 entries + 1 := by
    rw [← counted.length_numbersOf]
    simp [numbersOf,read]
  refine ⟨?_,counted_concat counted ?_,counted.read_concat (by simp [read])⟩
  · rw [← counted.length_numbersOf] at read before first
    rw [List.map_append]
    exact counted.numbered.concat read before first
  · rw [more, lastNumber_concat, number]
    exact if_pos (Nat.succ_ne_zero _)

/-- There are fewer transactions than bytes. -/
theorem lastNumber_le (counted : Counted entries) : 5 * lastNumber 0 entries ≤ (bytesOf entries).length := by
  rw [← counted.length_numbersOf]
  clear counted
  induction entries with
  | nil => simp [numbersOf]
  | cons entry rest ih =>
    have split : (bytesOf (entry :: rest)).length = entry.data.length + (bytesOf rest).length := by simp [bytesOf]
    rw [split]
    cases read : storedNumbers entry.data with
    | none =>
      have same : numbersOf ((entry :: rest).map EventEntry.data) = numbersOf (rest.map EventEntry.data) := by
        simp [numbersOf,read]
      rw [same]
      omega
    | some numbers =>
      have more : numbersOf ((entry :: rest).map EventEntry.data) = numbers :: numbersOf (rest.map EventEntry.data) := by
        simp [numbersOf,read]
      have long := storedNumbers_length read
      rw [more, List.length_cons]
      omega

end Counted

def LocalFile.numbers (file : LocalFile) : List (Nat × Nat) := numbersOf (file.entries.map EventEntry.data)

/-- The numbers of the transactions of each file. -/
def tally (files : List LocalFile) : List (List (Nat × Nat)) := files.map LocalFile.numbers

theorem tally_concat (front : List LocalFile) (file : LocalFile) :
    tally (front ++ [file]) = tally front ++ [file.numbers] := by simp [tally]

/-- An event that is not the first one of a transaction has no numbers. -/
theorem tally_onLast (files : List LocalFile) {entry : EventEntry} (other : storedNumbers entry.data = none) :
    tally (LocalFile.onLast (· ++ [entry]) files) = tally files := by
  induction files using List.reverseRecOn with
  | nil => rfl
  | append_singleton front file => simp [tally,LocalFile.numbers,numbersOf,other]

end BinlogServer.Store

namespace BinlogServer.Events.ReaderContext
variable {context context' : ReaderContext} {event : EventView} {infoOnly : Bool}

/-- The reader has the number of the transaction it reads from its first event on. -/
theorem Step.sequenceNumber (settled : context.Settled) (step : Step context event infoOnly context') :
    event.getTypeCode.isGtid = true ∧ infoOnly = false ∧
        (∃ gtid length, event.transactionInfo = .ok (gtid,context'.transactionSequenceNumber,length)) ∨
      event.getTypeCode.isGtid = false ∧ (context'.transactionSequenceNumber = 0 ∨
        infoOnly = false ∧ context'.transactionSequenceNumber = context.transactionSequenceNumber) := by
  cases step with
  | artificialRotate start rotate =>
    refine .inr ⟨by simp [rotate.code,CodeType.isGtid],.inl ?_⟩
    rw [enterBinlog_transactionSequenceNumber, left]
    split
    · rename_i waits
      exact (settled.idle (by simp [waits])).sequenceNumber
    · rfl
  | formatDescription layout start code =>
    exact .inr ⟨by simp [code,CodeType.isGtid],.inl (settled.idle (by simp [start])).sequenceNumber⟩
  | previousGtids start code =>
    exact .inr ⟨by simp [code,CodeType.isGtid],.inl (settled.idle (by simp [start])).sequenceNumber⟩
  | gtid gtid sequenceNumber length start code known info => exact .inl ⟨code,rfl,gtid,length,info⟩
  | other start plain => exact .inr ⟨plain.1,.inr ⟨rfl,rfl⟩⟩
  | terminator start last =>
    refine .inr ⟨?_,.inl rfl⟩
    rcases last.code with code | code <;> simp [code,CodeType.isGtid]

end BinlogServer.Events.ReaderContext

namespace BinlogServer.App
open ByteString Util Gtids Events Store
open Store.Storage (Holds)

namespace Session

/-- The events of the current file. -/
def currentEntries (files : List LocalFile) : List EventEntry := (files.getLast?.map LocalFile.entries).getD []

@[simp] theorem currentEntries_concat (front : List LocalFile) (file : LocalFile) :
    currentEntries (front ++ [file]) = file.entries := by simp [currentEntries]

/-- A GTID event has the numbers of the transaction after `last`. -/
def IsNext (last : Nat) (event : EventView) : Prop :=
  ∃ lastCommitted, event.numbers = .ok (last + 1,lastCommitted) ∧ storedNumbers event.portion = some (last + 1,lastCommitted) ∧
    lastCommitted < last + 1 ∧ (lastCommitted = 0 ↔ last + 1 = 1)

section
variable [Externals] {session session' m : Session} {event rewritten : EventView} {files : List LocalFile}
  {infoOnly : Bool} {serverId : Nat} {binlogName : CompositeBinlogName} {config : RewriteConfig} {u : Unit}

/-- The transactions of the files are counted, and the reader has the number of the last one, or none. -/
structure Counting (session : Session) (files : List LocalFile) : Prop extends Filed session files where
  counted : ∀ file ∈ files, Counted file.entries
  current : session.context.transactionSequenceNumber = 0 ∨
    session.context.transactionSequenceNumber = lastNumber 0 (currentEntries files)

theorem Counting.aged (counting : Counting session files) : Counting session.aged files :=
  ⟨counting.toFiled.aged,counting.counted,counting.current⟩

omit [Externals] in
/-- An event goes to the end of the file with a number that follows. -/
theorem counted_entryFor {entries : List EventEntry} {context : ReaderContext} (nonempty : event.portion ≠ [])
    (numbered : context.transactionSequenceNumber < 2 ^ 64) (counted : Counted entries)
    (next : event.getTypeCode.isGtid = true → IsNext (lastNumber 0 entries) event ∧
      ∃ lastCommitted, event.numbers = .ok (context.transactionSequenceNumber,lastCommitted))
    (other : event.getTypeCode.isGtid = false → context.transactionSequenceNumber = 0 ∨
      context.transactionSequenceNumber = lastNumber 0 entries) :
    Counted (entries ++ [entryFor event context nonempty]) ∧ (context.transactionSequenceNumber = 0 ∨
      context.transactionSequenceNumber = lastNumber 0 (entries ++ [entryFor event context nonempty])) := by
  have number : (entryFor event context nonempty).sequenceNumber.toNat = context.transactionSequenceNumber :=
    UInt64.toNat_ofNat_of_lt' numbered
  have last : context.transactionSequenceNumber = 0 ∨ context.transactionSequenceNumber =
      lastNumber 0 (entries ++ [entryFor event context nonempty]) := by
    rw [lastNumber_concat, number]
    by_cases zero : context.transactionSequenceNumber = 0
    · exact .inl zero
    · exact .inr (if_pos zero).symm
  cases code : event.getTypeCode.isGtid with
  | true =>
    obtain ⟨⟨lastCommitted,numbers,read,before,first⟩,_,reread⟩ := next code
    have same := (Prod.mk.inj (Except.ok.inj (reread.symm.trans numbers))).1
    exact ⟨counted.concat_next read (number.trans same) before first,last⟩
  | false => exact ⟨counted.concat code (by rw [number]; exact other code),last⟩

/-- An event that is stored leaves the transactions counted, if the first event of a transaction has the next number. -/
theorem Counting.stored (counting : Counting session files) (nonempty : event.portion ≠ [])
    (step : ReaderContext.Step session.context event false session'.context)
    (opened : session.storage.isBinlogOpen = true)
    (next : event.getTypeCode.isGtid = true → IsNext (lastNumber 0 (currentEntries files)) event) :
    (∀ file ∈ LocalFile.onLast (· ++ [entryFor event session'.context nonempty]) files, Counted file.entries) ∧
      (session'.context.transactionSequenceNumber = 0 ∨ session'.context.transactionSequenceNumber =
        lastNumber 0 (currentEntries (LocalFile.onLast (· ++ [entryFor event session'.context nonempty]) files))) := by
  obtain ⟨front,file,rfl⟩ := counting.holds.exists_last opened
  have current := counting.current
  rw [currentEntries_concat] at current next
  have number := step.sequenceNumber counting.joined.sound.settled
  have numbered := (step.sound counting.joined.sound).numbered
  have rest := @counted_entryFor event file.entries session'.context nonempty numbered (counting.counted file (by simp))
    (fun code => ⟨next code,?_⟩) (fun code => ?_)
  · rw [LocalFile.onLast_concat, currentEntries_concat]
    exact ⟨LocalFile.forall_concat counting.counted rest.1,rest.2⟩
  · obtain ⟨-,-,gtid,length,info⟩ := number.resolve_right (by simp [code])
    exact EventView.numbers_of_info info
  · obtain ⟨-,zero | ⟨-,same⟩⟩ := number.resolve_left (by simp [code])
    · exact .inl zero
    · rw [same]
      exact current

theorem Counting.step (counting : Counting session files) (sound : event.Sound)
    (run : processBinlogEvent event session = .ok () session')
    (next : event.getTypeCode.isGtid = true → IsNext (lastNumber 0 (currentEntries files)) event) :
    ∃ infoOnly files', ReaderContext.Step session.context event infoOnly session'.context ∧
      Filing session event session' files infoOnly files' ∧ Counting session' files' := by
  obtain ⟨infoOnly,files',step,filing,filed⟩ := counting.toFiled.step sound run
  have number := step.sequenceNumber counting.joined.sound.settled
  suffices rest : (∀ file ∈ files', Counted file.entries) ∧ (session'.context.transactionSequenceNumber = 0 ∨
      session'.context.transactionSequenceNumber = lastNumber 0 (currentEntries files')) by
    exact ⟨infoOnly,files',step,filing,filed,rest.1,rest.2⟩
  cases filing with
  | rotated name rotate named =>
    obtain ⟨-,zero⟩ := number.resolve_left (by simp)
    refine ⟨?_,.inl (zero.resolve_right (by simp))⟩
    split
    · exact counting.counted
    · intro file member
      rcases List.mem_append.mp member with old | new
      · exact LocalFile.forall_onLast Counted.of_isPrefix wholeTransactions_isPrefix counting.counted file old
      · rw [List.mem_singleton.mp new]
        exact .nil
  | passed inner =>
    obtain ⟨-,zero⟩ := number.resolve_left (by simp)
    exact ⟨counting.counted,.inl (zero.resolve_right (by simp))⟩
  | written inner nonempty fits =>
    exact counting.stored nonempty step (counting.joined.opened (step.moved inner).1) next
  | ended last nonempty =>
    exact counting.stored nonempty step (counting.joined.opened (step.terminated last).1) next

omit [Externals] in
/-- Only the events of the source start a transaction. -/
theorem Filing.tally {files' : List LocalFile} (filing : Filing session event session' files infoOnly files')
    (plain : event.getTypeCode.isGtid = false) (inner : ¬ event.IsArtificialRotate) : tally files' = tally files := by
  cases filing with
  | rotated name rotate named => exact absurd rotate inner
  | passed inner => rfl
  | written inner nonempty fits => exact tally_onLast files (storedNumbers_none plain)
  | ended last nonempty => exact tally_onLast files (storedNumbers_none plain)

/-- A local file is started without a transaction, or gone on with. The events of the others stay if they are whole
    transactions. -/
theorem Counting.startLocalFile (counting : Counting session files)
    (whole : binlogName = session.storage.getCurrentBinlogName ∨ LocalFile.onLast wholeTransactions files = files)
    (run : startLocalFile serverId binlogName session = .ok u session') :
    ∃ files', Counting session' files' ∧ (tally files' = tally files ∨ tally files' = tally files ++ [[]]) := by
  obtain ⟨rotate,entered,description,described,previousGtids,rotated,enter,generated,describe,encoded,finish⟩ :=
    startLocalFile_ok run
  obtain ⟨sound,artificial,body⟩ := counting.joined.rotateTo rotated enter
  obtain ⟨_,_,-,filing,counting⟩ := counting.step sound enter (by simp [artificial.code,CodeType.isGtid])
  obtain ⟨descriptionSound,descriptionCode⟩ := generateFormatDescriptionEvent_sound generated
  have descriptionPlain : description.getTypeCode.isGtid = false := by simp [descriptionCode,CodeType.isGtid]
  obtain ⟨_,_,-,described,counting⟩ := counting.aged.aged.step descriptionSound describe (by simp [descriptionPlain])
  obtain ⟨previousSound,previousCode⟩ := generatePreviousGtidsLogEvent_sound encoded
  have previousPlain : previousGtids.getTypeCode.isGtid = false := by simp [previousCode,CodeType.isGtid]
  obtain ⟨_,files',-,finished,counting⟩ := counting.aged.step previousSound finish (by simp [previousPlain])
  have first := described.tally descriptionPlain fun other => by cases descriptionCode.symm.trans other.code
  have second := finished.tally previousPlain fun other => by cases previousCode.symm.trans other.code
  refine ⟨files',counting,?_⟩
  rw [second, first]
  cases filing with
  | rotated name rotate named =>
    obtain rfl := CompositeBinlogName.str_injective (named.trans body)
    split
    · exact .inl rfl
    · rename_i other
      rw [whole.resolve_left other, tally_concat]
      exact .inr rfl
  | passed inner => exact absurd artificial.code inner.1
  | written inner => exact absurd artificial.code inner.1
  | ended last => cases artificial.artificial.symm.trans last.artificial

theorem Counting.prepared (counting : Counting session files) (prepared : Prepared serverId config session m) :
    ∃ files', Counting m files' ∧ (tally files' = tally files ∨ tally files' = tally files ++ [[]]) := by
  unfold Prepared at prepared
  split at prepared
  · obtain ⟨binlogName,closed,named,ended,started⟩ := changeLocalFile_ok prepared
    split at ended
    · rename_i fresh
      subst ended
      refine counting.startLocalFile ?_ started
      rcases nextBinlogName_ok named with ⟨-,-,same⟩ | ⟨empty,-⟩
      · exact .inl same
      · have none := empty.resolve_right (by simp [fresh])
        rw [counting.holds.isEmpty, List.isEmpty_iff] at none
        exact .inr (by rw [none]; rfl)
    · obtain ⟨rotate,rotated,processed⟩ := endLocalFile_ok ended
      obtain ⟨code,real,-⟩ := generateRotateEvent_header rotated
      have sound := (EventView.make_sound (generateRotateEvent_ok rotated).2.1).1
      have plain : rotate.getTypeCode.isGtid = false := by simp [code,CodeType.isGtid]
      obtain ⟨_,files',step,filing,after⟩ := counting.aged.step sound processed (by simp [plain])
      have inner : ¬ rotate.IsArtificialRotate := fun artificial => by cases real.symm.trans artificial.artificial
      have last : rotate.IsTerminator := by
        rcases step.kind with artificial | other | last
        · exact absurd artificial inner
        · exact absurd code other.1
        · exact last
      obtain ⟨-,-,-,-,shut,-⟩ := counting.aged.joined.terminated sound last processed
      rw [← filing.tally plain inner]
      exact after.startLocalFile (.inr (after.holds.whole shut)) started
  · subst prepared
    exact ⟨files,counting,.inl rfl⟩

omit [Externals] in
theorem isGtid_not_skipped {code : CodeType} (first : code.isGtid = true) : isSkipped code = false := by
  simp only [CodeType.isGtid, Bool.or_eq_true, decide_eq_true_eq] at first
  rcases first with (rfl | rfl) | rfl <;> rfl

/-- What a file gets of an event of the source. -/
structure Appended (files : List LocalFile) (event rewritten : EventView) (session' : Session) : Prop where
  opened : ∃ front file, files = front ++ [file]
  nonempty : rewritten.portion ≠ []
  made : Rewriter.rewrite (lastNumber 0 (currentEntries files)) event
    (magicBinlogOffset + (bytesOf (currentEntries files)).length) = .ok rewritten
  counting : Counting session' (LocalFile.onLast (· ++ [entryFor rewritten session'.context nonempty]) files)
  numbers : event.getTypeCode.isGtid = true → ∃ remote numbers, event.numbers = .ok remote ∧
    storedNumbers rewritten.portion = some numbers ∧
    Rewriter.fixSequenceNumberAndLastCommitted (lastNumber 0 (currentEntries files)) remote.1 remote.2 = .ok numbers
  other : event.getTypeCode.isGtid = false → storedNumbers rewritten.portion = none

/-- A rewritten event goes to the end of the file, the first event of a transaction with the next number. -/
theorem Counting.appended (counting : Counting m files) (sound : event.Sound) (kept : isSkipped event.getTypeCode = false)
    (made : Rewriter.rewrite m.storage.getLastTransactionSequenceNumber event m.storage.getCurrentPosition = .ok rewritten)
    (processed : processBinlogEvent rewritten m = .ok () session') : Appended files event rewritten session' := by
  obtain ⟨relocated,sameCode,-⟩ := counting.joined.rewritten_positionOk sound made
  obtain ⟨inner,plain⟩ := isSkipped_false kept
  rw [← sameCode] at inner plain
  obtain ⟨infoOnly,files',step,filing,filed⟩ := counting.toFiled.step relocated processed
  have opened := counting.joined.opened (step.moved inner).1
  obtain ⟨front,file,rfl⟩ := counting.holds.exists_last opened
  obtain rfl : infoOnly = false := step.written inner plain
  obtain ⟨nonempty,fits,rfl⟩ : ∃ nonempty, m.storage.buffer.data.length + rewritten.portion.length ≤ EventBuffer.maxSize ∧
      files' = LocalFile.onLast (· ++ [entryFor rewritten session'.context nonempty]) (front ++ [file]) := by
    cases filing with
    | written inner nonempty fits => exact ⟨nonempty,fits,rfl⟩
    | ended last =>
      rcases last.code with code | code
      · exact absurd code inner.1
      · exact absurd code inner.2
  -- The file is too short for the numbers to run out.
  have small : lastNumber 0 file.entries + 1 < 2 ^ 64 := by
    have count := (counting.counted file (by simp)).lastNumber_le
    have length := counting.holds.length_lt
    unfold LocalFile.length magicBinlogOffset at length
    unfold EventBuffer.maxSize at fits
    omega
  have position : m.storage.getCurrentPosition = magicBinlogOffset + (bytesOf file.entries).length := counting.holds.stored.2.1
  rw [counting.holds.getLastTransactionSequenceNumber opened, position] at made
  have numbers : event.getTypeCode.isGtid = true → ∃ remote sequenceNumber lastCommitted, event.numbers = .ok remote ∧
      rewritten.numbers = .ok (sequenceNumber,lastCommitted) ∧
      storedNumbers rewritten.portion = some (sequenceNumber,lastCommitted) ∧
      Rewriter.fixSequenceNumberAndLastCommitted (lastNumber 0 file.entries) remote.1 remote.2 =
        .ok (sequenceNumber,lastCommitted) := by
    intro code
    obtain ⟨remote,fixed,read,numbers,reread,stored⟩ := Rewriter.rewrite_numbers sound code made
    exact ⟨remote,fixed.1,fixed.2,read,reread,stored,numbers⟩
  have rest := counting.stored nonempty step opened (fun code => by
    obtain ⟨remote,sequenceNumber,lastCommitted,-,reread,stored,fixed⟩ := numbers (sameCode ▸ code)
    obtain ⟨rfl,before,first,-⟩ := Rewriter.fixSequenceNumberAndLastCommitted_spec small fixed
    rw [currentEntries_concat]
    exact ⟨lastCommitted,reread,stored,before,first⟩)
  refine ⟨⟨front,file,rfl⟩,nonempty,by rwa [currentEntries_concat],⟨filed,rest.1,rest.2⟩,fun code => ?_,fun plain => ?_⟩
  · obtain ⟨remote,sequenceNumber,lastCommitted,read,-,stored,fixed⟩ := numbers code
    rw [currentEntries_concat]
    exact ⟨remote,(sequenceNumber,lastCommitted),read,stored,fixed⟩
  · rw [← sameCode] at plain
    exact storedNumbers_none plain

variable {settings : Config}

/-- What a packet does to the files: nothing, or its event goes to the end of the last one. -/
theorem Counting.packet (counting : Counting session files) (mode : settings.rewrite = some config) {packet : Bytes}
    (run : receivePacket settings packet session = .ok u session') :
    ∃ event, EventView.make session.context packet.tail = .ok event ∧
      (isSkipped event.getTypeCode = true ∧ session' = session ∨
        isSkipped event.getTypeCode = false ∧ ∃ m files' rewritten, Counting m files' ∧
          (tally files' = tally files ∨ tally files' = tally files ++ [[]]) ∧ Appended files' event rewritten session') := by
  obtain ⟨event,view,-,rewritten⟩ := receivePacket_ok run
  refine ⟨event,view,?_⟩
  rcases rewriteAndProcessBinlogEvent_ok (rewritten config mode) with ⟨skipped,rfl⟩ | ⟨kept,m,prepared,run⟩
  · exact .inl ⟨skipped,rfl⟩
  · obtain ⟨files',counting,grown⟩ := counting.prepared prepared
    obtain ⟨relocated,made,processed⟩ := processRewritten_ok run
    exact .inr ⟨kept,m,files',relocated,counting,grown,counting.appended (EventView.make_sound view).1 kept made processed⟩

theorem Counting.run (counting : Counting session files) (mode : settings.rewrite = some config) {packets : List Bytes}
    (run : receivePackets settings packets session = .ok u session') : ∃ files', Counting session' files' := by
  induction packets generalizing session files with
  | nil =>
    obtain ⟨-,rfl⟩ := Action.pure_eq_ok.mp run
    exact ⟨files,counting⟩
  | cons packet packets ih =>
    obtain ⟨_,m,received,rest⟩ := Action.bind_eq_ok.mp run
    obtain ⟨event,-,⟨-,same⟩ | ⟨-,_,_,_,-,-,appended⟩⟩ := counting.packet mode received
    · rw [same] at rest
      exact ih counting rest
    · exact ih appended.counting rest

end

/-- The files of a process in the rewrite mode are counted. -/
theorem Relayed.counted [Externals] {admits : Config → Session → List Bytes → Prop} {s : Storage}
    (relayed : Relayed admits s) : ∃ files, Holds s files ∧ ∀ file ∈ files, AreEvents file.entries ∧ Counted file.entries := by
  refine relayed.files Counted.of_isPrefix ?_
  intro config rewrite packets serverVersion storage clock calendar files session start mode admitted filed counted received
  obtain ⟨files',filed,counted,-⟩ := (⟨filed,counted,.inl rfl⟩ : Counting start files).run mode received
  exact ⟨files',filed,counted⟩

section
variable [Externals] {admits : Config → Session → List Bytes → Prop} {s : Storage}

/-- In the rewrite mode, whatever sessions, lost connections, terminations and restarts there have been, every GTID event
    that is stored in a local file has numbers; they count from one, and each transaction depends on one before it, or, the
    first one only, on none. What is stored for a file is a front of the events that are held for it. -/
theorem stored_gtid_events_numbered (relayed : Relayed admits s) : ∃ files, Holds s files ∧
    ∀ record ∈ s.records, ∃ file ∈ files, ∃ events, file.name = record.name ∧
      events <+: file.entries.map EventEntry.data ∧
      s.backend.objects.find? record.name.str = some (magicBinlogPayload ++ events.flatten) ∧
      (∀ event ∈ events, IsEvent event) ∧
      (∀ event ∈ events, (CommonHeader.getTypeCode event).isGtid = true → storedNumbers event ≠ none) ∧ Numbered events := by
  obtain ⟨files,holds,all⟩ := relayed.counted
  refine ⟨files,holds,fun record member => ?_⟩
  obtain ⟨file,known,name⟩ : ∃ file ∈ files, file.name = record.name := by
    obtain ⟨-,-,-,names,-⟩ := holds
    exact List.mem_map.mp (names ▸ List.mem_map_of_mem member)
  obtain ⟨kept,part,content⟩ := holds.content file known
  have events := AreEvents.of_isPrefix kept _ part (all file known).1
  have counted := Counted.of_isPrefix kept _ part (all file known).2
  refine ⟨file,known,kept.map EventEntry.data,name,part.map _,?_,?_,?_,counted.numbered⟩
  · rw [← name, content, bytesOf, List.flatMap_def]
  · simpa [AreEvents] using events
  · rw [List.forall_mem_map]
    exact counted.read

end

namespace Sample
attribute [local instance] FlatJson.externals

/-- Two transactions, and a third one after some that the source has left out. -/
def first : List Bytes := [packet (transaction 1 0 1),packet commit,packet (transaction 2 1 2),packet commit]
def gap : Bytes := transaction 3 2 10

/-- What is held for the file after some packets. -/
def heldAfter (packets : List Bytes) : Option Bytes :=
  match receivePackets rewriting packets relay with
  | .ok _ session => some (session.storage.fileContent ++ session.storage.buffer.data)
  | .error _ _ => none

theorem gap_received : ∃ session, receivePackets rewriting (first ++ [packet gap]) relay = .ok () session ∧
    storedNumbers (slice 254 73 (session.storage.fileContent ++ session.storage.buffer.data)) = some (2,1) := by
  have evaluated : (heldAfter (first ++ [packet gap])).map (fun bytes => storedNumbers (slice 254 73 bytes)) =
      some (some (2,1)) := by decide +kernel
  unfold heldAfter at evaluated
  split at evaluated
  · rename_i u session received
    rw [Option.map_some, Option.some.injEq] at evaluated
    exact ⟨session,received,evaluated⟩
  · cases evaluated

end Sample

section
attribute [local instance] FlatJson.externals

theorem stored_gtid_events_numbered_sample : ∃ s, Relayed (fun _ _ _ => True) s ∧
    storedNumbers (slice 254 73 (s.fileContent ++ s.buffer.data)) = some (2,1) ∧ ∃ files, Holds s files ∧
    ∀ record ∈ s.records, ∃ file ∈ files, ∃ events, file.name = record.name ∧
      events <+: file.entries.map EventEntry.data ∧
      s.backend.objects.find? record.name.str = some (magicBinlogPayload ++ events.flatten) ∧
      (∀ event ∈ events, IsEvent event) ∧
      (∀ event ∈ events, (CommonHeader.getTypeCode event).isGtid = true → storedNumbers event ≠ none) ∧ Numbered events := by
  obtain ⟨point,connected⟩ := Sample.relay_connected
  obtain ⟨session,received,numbers⟩ := Sample.gap_received
  have ended : disconnect true session.storage = .ok () session.storage := rfl
  have relayed : Relayed (fun _ _ _ => True) session.storage :=
    .session (Sample.emptyStorage_relayed _) rfl trivial Sample.nothing_purged connected received ended
  exact ⟨session.storage,relayed,numbers,stored_gtid_events_numbered relayed⟩

end

end Session
end BinlogServer.App
