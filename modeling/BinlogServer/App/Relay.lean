import BinlogServer.App.LocalBinlogs
import BinlogServer.Lib.Batches

/-!
# What is relayed

A source in the mode for gtids has its transactions in an order, and sends those that a restart point does not have. In the
rewrite mode its own files are of no importance. Whatever sessions and restarts there have been, the local files have the
first transactions of the source, in its order and each of them once, with every event as it was sent but for its place.
-/

namespace BinlogServer.Events

theorem EventView.isGtid_of_transactionInfo {event : EventView} {found : Gtids.Gtid × Nat × Nat}
    (info : event.transactionInfo = .ok found) : event.getTypeCode.isGtid = true := by
  unfold transactionInfo at info
  split at info
  · rename_i code
    simp [code,CodeType.isGtid]
  · rename_i code
    simp [code,CodeType.isGtid]
  · rename_i code
    simp [code,CodeType.isGtid]
  · cases info

namespace ReaderContext
variable {context context' : ReaderContext} {event : EventView} {infoOnly : Bool}

/-- What the reader has of a transaction after its first event. -/
theorem Step.first {gtid : Gtids.Gtid} {sequenceNumber length : Nat} (step : Step context event infoOnly context')
    (info : event.transactionInfo = .ok (gtid,sequenceNumber,length)) :
    context'.state = .anyOtherExpected ∧ context'.transactionGtid = gtid ∧ context'.expectedTransactionLength = length ∧
      context'.currentTransactionLength = event.getEventSizeRaw ∧ length < 2 ^ 32 := by
  have first := EventView.isGtid_of_transactionInfo info
  cases step with
  | gtid gtid sequenceNumber length start code known found named short =>
    obtain ⟨rfl,rfl,rfl⟩ := by simpa using found.symm.trans info
    exact ⟨rfl,rfl,rfl,rfl,short⟩
  | artificialRotate start rotate => simp [rotate.code,CodeType.isGtid] at first
  | formatDescription layout start code => simp [code,CodeType.isGtid] at first
  | previousGtids start code => simp [code,CodeType.isGtid] at first
  | other start plain => cases plain.1.symm.trans first
  | terminator start last => exact absurd last.code (isGtid_not_last first)

/-- What it has after another one. -/
theorem Step.later (step : Step context event infoOnly context') (state : context.state = .anyOtherExpected)
    (unfinished : context.currentTransactionLength ≠ context.expectedTransactionLength) :
    event.IsOther ∧ context'.state = .anyOtherExpected ∧ context'.transactionGtid = context.transactionGtid ∧
      context'.expectedTransactionLength = context.expectedTransactionLength ∧
      context'.currentTransactionLength = (context.currentTransactionLength + event.getEventSizeRaw) % 2 ^ 32 := by
  have inside : ¬ context.Between := by
    rintro (other | ⟨-,whole⟩)
    · cases state.symm.trans other
    · exact unfinished whole
  cases step with
  | gtid _ _ _ start => exact absurd start inside
  | artificialRotate start rotate =>
    rcases start with start | start
    · cases state.symm.trans start
    · exact absurd start inside
  | formatDescription layout start => cases state.symm.trans start
  | previousGtids start => cases state.symm.trans start
  | other start plain => exact ⟨plain,state,rfl,rfl,rfl⟩
  | terminator start => exact absurd start inside

end ReaderContext
end BinlogServer.Events

namespace BinlogServer.App
open ByteString Util Gtids Events Store
open Store.Storage (Holds)
open Store.Layout (Rests)

namespace Session

/-- The bytes of some events. -/
def sizeOf (events : List Bytes) : Nat := (events.map List.length).sum

@[simp] theorem sizeOf_nil : sizeOf [] = 0 := rfl

@[simp] theorem sizeOf_cons (event : Bytes) (rest : List Bytes) : sizeOf (event :: rest) = event.length + sizeOf rest := by
  simp [sizeOf]

theorem sizeOf_pos {events : List Bytes} (nonempty : ∀ event ∈ events, event ≠ []) (some : events ≠ []) :
    0 < sizeOf events := by
  cases events with
  | nil => exact absurd rfl some
  | cons event rest =>
    have long := List.length_pos_of_ne_nil (nonempty event (by simp))
    rw [sizeOf_cons]
    omega

/-- A transaction of a source is known by its gtid. Its first event, which has a footer as all events have, says which
    transaction it is and how many bytes it has. -/
structure Upright (transaction : Batch Gtid Bytes) : Prop where
  named : ¬ transaction.key.isEmpty
  declares : ∃ first others sequenceNumber, transaction.items = first :: others ∧
    (EventView.ofStored first).transactionInfo = .ok (transaction.key,sequenceNumber,sizeOf transaction.items)
  nonempty : ∀ event ∈ transaction.items, event ≠ []
  short : sizeOf transaction.items < 2 ^ 32

/-- The stored event tells what the source has sent. -/
structure Retells (sent stored : Bytes) : Prop where
  views : ∃ event rewritten : EventView, event.portion = sent ∧ rewritten.portion = stored ∧
    event.footerSize = defaultFooterLength ∧ rewritten.footerSize = defaultFooterLength ∧
    rewritten.postHeaderSize = event.postHeaderSize ∧ event.Tells rewritten

/-- Where the reader is in what the source sends: between two transactions, or before the rest of one. -/
inductive Expects (context : ReaderContext) : List (Line Gtid Bytes) → Prop where
  | between {transactions : List (Batch Gtid Bytes)} (upright : ∀ transaction ∈ transactions, Upright transaction) :
      Expects context (Line.script transactions)
  | inside {gtid : Gtid} {rest : List Bytes} {transactions : List (Batch Gtid Bytes)}
      (upright : ∀ transaction ∈ transactions, Upright transaction) (state : context.state = .anyOtherExpected)
      (named : context.transactionGtid = gtid) (some : rest ≠ []) (nonempty : ∀ event ∈ rest, event ≠ [])
      (left : context.expectedTransactionLength = context.currentTransactionLength + sizeOf rest)
      (short : context.expectedTransactionLength < 2 ^ 32) :
      Expects context (Line.ofItems gtid rest ++ Line.script transactions)

section
variable {reader context context' : ReaderContext} {line : Line Gtid Bytes} {lines : List (Line Gtid Bytes)}
  {transactions : List (Batch Gtid Bytes)} {event rewritten : EventView} {number offset : Nat}

/-- What the reader expects after an event of a transaction. -/
theorem Expects.of_left {gtid : Gtid} {rest : List Bytes} (upright : ∀ transaction ∈ transactions, Upright transaction)
    (state : context.state = .anyOtherExpected) (named : context.transactionGtid = gtid)
    (nonempty : ∀ event ∈ rest, event ≠ [])
    (left : context.expectedTransactionLength = context.currentTransactionLength + sizeOf rest)
    (short : context.expectedTransactionLength < 2 ^ 32) :
    Expects context (Line.ofItems gtid rest ++ Line.script transactions) ∧
      context.isAtTransactionBoundary = rest.isEmpty := by
  by_cases last : rest = []
  · subst last
    refine ⟨.between upright,?_⟩
    have whole : context.currentTransactionLength = context.expectedTransactionLength := by simpa using left.symm
    simp [ReaderContext.isAtTransactionBoundary,state,whole]
  · refine ⟨.inside upright state named last nonempty left short,?_⟩
    have more := sizeOf_pos nonempty last
    have unfinished : context.currentTransactionLength ≠ context.expectedTransactionLength := by omega
    simp [ReaderContext.isAtTransactionBoundary,state,unfinished,last]

/-- A view of an event that is not left out has a footer, where footers are expected. -/
theorem footerSize_of_kept {portion : Bytes} (view : EventView.make reader portion = .ok event)
    (footers : reader.footerExpected = true) : event.footerSize = defaultFooterLength := by
  rw [EventView.make_footerSize view]
  simp [EventView.footerSizeFor,footers]

/-- The view of the first event of a transaction. -/
theorem ofStored_of_made (view : EventView.make reader event.portion = .ok event) (footers : reader.footerExpected = true)
    (tagged : reader.KnowsTagged) (code : event.getTypeCode.isGtid = true)
    (made : Rewriter.rewrite number event offset = .ok rewritten) : EventView.ofStored event.portion = event := by
  have footer := footerSize_of_kept view footers
  have footed : event.hasFooter = true := by simp [EventView.hasFooter,footer,defaultFooterLength]
  have sound := (EventView.make_sound view).1
  have size : event.postHeaderSize = if event.getTypeCode = .gtidTaggedLog then 0 else 42 := by
    by_cases isTagged : event.getTypeCode = .gtidTaggedLog
    · rw [if_pos isTagged]
      exact tagged.postHeaderSize view isTagged
    · rw [if_neg isTagged]
      have numbered : event.getTypeCode = .gtidLog ∨ event.getTypeCode = .anonymousGtidLog := by
        simp only [CodeType.isGtid, Bool.or_eq_true, decide_eq_true_eq] at code
        tauto
      rw [Rewriter.rewrite_numbered numbered] at made
      obtain ⟨-,-,-,-,-,forty,-⟩ := Rewriter.rewriteGtidLogInternal_numbers sound made
      rw [← (Rewriter.rewriteGtidLogInternal_length sound footed made).2, forty]
  exact EventView.mk.injEq .. |>.mpr ⟨rfl,size.symm,footer.symm⟩

/-- An event that the source sends is stored as it is expected. -/
theorem Expects.step {infoOnly : Bool} (expects : Expects context (line :: lines))
    (view : EventView.make reader line.item = .ok event) (footers : reader.footerExpected = true)
    (tagged : reader.KnowsTagged) (made : Rewriter.rewrite number event offset = .ok rewritten)
    (step : ReaderContext.Step context rewritten infoOnly context') :
    Expects context' lines ∧ context'.isAtTransactionBoundary = line.rest.isEmpty ∧ context'.transactionGtid = line.key := by
  obtain ⟨sound,portion⟩ := EventView.make_sound view
  have footer := footerSize_of_kept view footers
  have footed : event.hasFooter = true := by simp [EventView.hasFooter,footer,defaultFooterLength]
  have relocated := Rewriter.rewrite_spec sound made
  have sameCode : rewritten.getTypeCode = event.getTypeCode :=
    congrArg CodeType.ofRaw (congrArg CommonHeader.typeCode relocated.header)
  have size : rewritten.getEventSizeRaw = rewritten.portion.length % 2 ^ 32 := relocated.sound.size
  generalize all : line :: lines = script at expects
  cases expects with
  | @between transactions upright =>
    cases transactions with
    | nil => cases all
    | cons transaction transactions =>
      obtain ⟨-,⟨first,others,sequenceNumber,items,info⟩,nonempty,short⟩ := upright transaction (by simp)
      rw [Line.script_cons, items, Line.ofItems_cons, List.cons_append] at all
      obtain ⟨rfl,rfl⟩ := List.cons.inj all
      rw [items] at info nonempty short
      obtain rfl : event.portion = first := portion
      have code : event.getTypeCode.isGtid = true :=
        @EventView.isGtid_of_transactionInfo (EventView.ofStored event.portion) _ info
      rw [ofStored_of_made view footers tagged code made] at info
      obtain ⟨number',length',info',lengths⟩ := Rewriter.rewrite_transactionInfo sound footed info short made
      obtain ⟨state,named,expected,current,limit⟩ := step.first info'
      rw [sizeOf_cons] at lengths
      have whole : rewritten.portion.length % 2 ^ 32 = rewritten.portion.length := Nat.mod_eq_of_lt (by omega)
      obtain ⟨expects,boundary⟩ := @Expects.of_left context' transactions transaction.key others
        (fun other member => upright other (List.mem_cons_of_mem _ member)) state named
        (fun other member => nonempty other (List.mem_cons_of_mem _ member)) (by omega) (by omega)
      exact ⟨expects,boundary,named⟩
  | @inside gtid rest transactions upright state named some nonempty left short =>
    cases rest with
    | nil => exact absurd rfl some
    | cons first rest =>
      rw [Line.ofItems_cons, List.cons_append] at all
      obtain ⟨rfl,rfl⟩ := List.cons.inj all
      obtain rfl : event.portion = first := portion
      have more := sizeOf_pos nonempty some
      rw [sizeOf_cons] at left more
      obtain ⟨other,state',named',expected,current⟩ := step.later state (by omega)
      have plain : event.getTypeCode.isGtid = false := sameCode ▸ other.1
      rw [Rewriter.rewrite_other plain] at made
      have length := (Rewriter.materializeAndRelocate_length sound footed made).1
      have sum : (context.currentTransactionLength + rewritten.getEventSizeRaw) % 2 ^ 32 =
          context.currentTransactionLength + event.portion.length := by
        rw [size, Nat.add_mod_mod, length]
        exact Nat.mod_eq_of_lt (by omega)
      obtain ⟨expects,boundary⟩ := @Expects.of_left context' transactions gtid rest upright state' (named'.trans named)
        (fun other member => nonempty other (List.mem_cons_of_mem _ member)) (by omega) (by omega)
      exact ⟨expects,boundary,named'.trans named⟩

theorem retells_of_rewrite {portion : Bytes} (view : EventView.make reader portion = .ok event)
    (footers : reader.footerExpected = true) (tagged : reader.KnowsTagged)
    (made : Rewriter.rewrite number event offset = .ok rewritten) : Retells portion rewritten.portion := by
  obtain ⟨sound,same⟩ := EventView.make_sound view
  have footer := footerSize_of_kept view footers
  have footed : event.hasFooter = true := by simp [EventView.hasFooter,footer,defaultFooterLength]
  refine ⟨event,rewritten,same,rfl,footer,(Rewriter.rewrite_spec sound made).footer,?_,Rewriter.rewrite_tells sound made⟩
  exact Rewriter.rewrite_postHeaderSize sound footed (tagged.postHeaderSize view) made

end

/-- An event of the source is stored, with what the storage is told of its transaction. -/
structure Copies (line : Line Gtid Bytes) (entry : EventEntry) : Prop where
  retells : Retells line.item entry.data
  marked : entry.atTransactionBoundary = line.rest.isEmpty
  named : entry.transactionGtid = line.key

/-- The events in the packets that are not those of the source's own files. -/
def keptIn (packets : List Bytes) : List Bytes :=
  (packets.map List.tail).filter fun portion => !isSkipped (CommonHeader.getTypeCode portion)

section
variable [Externals] {start session session' m : Session} {files : List LocalFile} {stage : Stage} {told : List EventEntry}
  {settings : Config} {config : RewriteConfig} {serverId : Nat} {packets : List Bytes}

/-- In the middle of a transaction no local file is started. -/
theorem Expects.prepared {lines : List (Line Gtid Bytes)} (expects : Expects session.context lines)
    (joined : Joined session) (prepared : Prepared serverId config session m) : Expects m.context lines := by
  cases expects with
  | between upright => exact .between upright
  | @inside gtid rest transactions upright state named some nonempty left short =>
    have more := sizeOf_pos nonempty some
    have unfinished : session.context.currentTransactionLength ≠ session.context.expectedTransactionLength := by omega
    have old := fresh_of_state joined.fresh (by simp [state])
    rw [Prepared, if_neg (by simp [needsLocalFile,ReaderContext.isAtTransactionBoundary,state,unfinished,old])] at prepared
    rw [prepared]
    exact .inside upright state named some nonempty left short

theorem Processes.knowsTagged {trace : List Processed} (processes : Processes start trace session) (joined : Joined start)
    (knows : start.context.KnowsTagged) : session.context.KnowsTagged := by
  induction processes with
  | stay => exact knows
  | aged before ih => exact ih
  | event before sound processed ih =>
    obtain ⟨_,step,-⟩ := processBinlogEvent_ok (before.joined joined).sound sound.nonempty processed
    exact step.knowsTagged ih

/-- What counts as stored before the first file is not changed by a session. -/
theorem Processes.basis {trace : List Processed} (processes : Processes start trace session) (filed : Filed start files)
    (mode : start.storage.replicationMode = .gtid) :
    session.storage.basis = start.storage.basis ∧ session.storage.replicationMode = .gtid := by
  induction processes with
  | stay => exact ⟨rfl,mode⟩
  | aged before ih => exact ih
  | event before sound processed ih =>
    obtain ⟨files,filed⟩ := filed.run before
    obtain ⟨same,mode⟩ := filed.basis sound ih.2 processed
    exact ⟨same.trans ih.1,mode⟩

/-- A session as far as it has come: what it has been sent is stored, in the same order. -/
theorem Working.copies {missing : List (Batch Gtid Bytes)} (upright : ∀ transaction ∈ missing, Upright transaction)
    (working : Working start files stage) (relaying : Relaying start files stage told) (tagged : start.context.KnowsTagged)
    (mode : settings.rewrite = some config) (run : receivePackets settings packets start = .ok () session)
    (sent : keptIn packets <+: missing.flatMap Batch.items) :
    ∃ files' stage' news lines left, Relaying session files' stage' (told ++ news) ∧ Working session files' stage' ∧
      Line.script missing = lines ++ left ∧ lines.map Line.item = keptIn packets ∧ List.Forall₂ Copies lines news ∧
      Expects session.context left := by
  induction packets using List.reverseRecOn generalizing session with
  | nil =>
    obtain ⟨-,rfl⟩ := Action.pure_eq_ok.mp run
    exact ⟨files,stage,[],[],_,by simpa using relaying,working,rfl,rfl,.nil,.between upright⟩
  | append_singleton front packet ih =>
    obtain ⟨m,before,last⟩ := receivePackets_concat.mp run
    have split : keptIn (front ++ [packet]) = keptIn front ++ keptIn [packet] := by simp [keptIn]
    have shorter : keptIn front <+: missing.flatMap Batch.items := (split ▸ List.prefix_append ..).trans sent
    obtain ⟨files,stage,news,lines,left,relaying',working',parts,items,copies,expects⟩ := ih before shorter
    obtain ⟨event,view,-,rewritten⟩ := receivePacket_ok last
    have typed : CommonHeader.getTypeCode packet.tail = event.getTypeCode := by
      rw [EventView.getTypeCode, (EventView.make_sound view).2]
    rcases rewriteAndProcessBinlogEvent_ok (rewritten config mode) with ⟨skipped,rfl⟩ | ⟨kept,prepared,ready,run⟩
    · have none : keptIn [packet] = [] := by simp [keptIn,typed,skipped]
      exact ⟨files,stage,news,lines,left,relaying',working',parts,by rw [split, none, List.append_nil, items],copies,expects⟩
    · have one : keptIn [packet] = [packet.tail] := by simp [keptIn,typed,kept]
      obtain ⟨line,left,rfl,item⟩ : ∃ line rest, left = line :: rest ∧ line.item = packet.tail := by
        rw [split, one, ← items, ← Line.map_item_script, parts, List.map_append, List.prefix_append_right_inj] at sent
        cases left with
        | nil => simp at sent
        | cons line rest => exact ⟨line,rest,rfl,(List.cons_prefix_cons.mp sent).1.symm⟩
      obtain ⟨trace,processes⟩ := Processes.stay.receivePackets before
      have tagged := processes.knowsTagged relaying.filed.joined tagged
      have expects := expects.prepared relaying'.filed.joined ready
      obtain ⟨front,file,stage,opened,old,knows⟩ := working'.prepared relaying' ready
      obtain ⟨rewritten,entry,file,stage,made,step,data,marked,named,after,knows,fresh⟩ :=
        opened.rewritten knows (EventView.make_sound view).1 kept run
      rw [← item] at view
      obtain ⟨expects,boundary,gtid⟩ := expects.step view relaying'.footers tagged made step
      have retells : Retells line.item entry.data := data ▸ retells_of_rewrite view relaying'.footers tagged made
      refine ⟨_,stage,news ++ [entry],lines ++ [line],left,by rwa [← List.append_assoc],.inside (fresh.trans old) knows,
        by simp [parts],by simp [split,one,items,item],?_,expects⟩
      exact List.rel_append copies (.cons ⟨retells,marked.trans boundary,named.trans gtid⟩ .nil)

end

section
variable {basis : Gtid → Prop} {files : List LocalFile} {stage : Stage}

/-- The stage is one of a transaction, of which all is there. -/
def WholeIfWithin (stage : Stage) : Prop := ∀ gtid declared size, stage = .within gtid declared size → stage.isWhole = true

/-- The events of the files themselves come where no transaction goes on, and belong to none. -/
theorem skipped_of_next {held : Gtid → Prop} {event : EventView} {stage' : Stage}
    (next : Stage.Next held event stage stage') :
    isSkipped event.getTypeCode = true ∧ stage'.gtid = .empty ∧ WholeIfWithin stage ∨
      isSkipped event.getTypeCode = false ∧ ∃ gtid declared size, stage' = .within gtid declared size := by
  cases next with
  | description code => exact .inl ⟨by simp [isSkipped,code],rfl,by simp [WholeIfWithin]⟩
  | previousGtids code => exact .inl ⟨by simp [isSkipped,code],rfl,by simp [WholeIfWithin]⟩
  | first free code =>
    refine .inr ⟨?_,_,_,_,rfl⟩
    simp only [CodeType.isGtid, Bool.or_eq_true, decide_eq_true_eq] at code
    rcases code with (code | code) | code <;> simp [isSkipped,code]
  | other plain =>
    obtain ⟨-,rotate,stop,description,previousGtids,-⟩ := plain
    exact .inr ⟨by simp [isSkipped,rotate,stop,description,previousGtids],_,_,_,rfl⟩
  | rotate free code =>
    refine .inl ⟨by simp [isSkipped,code],rfl,?_⟩
    rintro gtid declared size rfl
    exact free

theorem unnamed_of_formed {held : Gtid → Prop} {entries : List EventEntry} (formed : Formed held entries stage) :
    ∀ entry ∈ entries, isSkipped (CommonHeader.getTypeCode entry.data) = true → entry.transactionGtid = .empty := by
  induction formed with
  | nil => simp
  | @concat entries entry event stage stage' before next data seated marked named ih =>
    rw [List.forall_mem_append, List.forall_mem_singleton]
    refine ⟨ih,fun skipped => ?_⟩
    rw [data, ← EventView.getTypeCode] at skipped
    rcases skipped_of_next next with ⟨-,empty,-⟩ | ⟨kept,-⟩
    · exact named.trans empty
    · cases skipped.symm.trans kept

theorem relayed_ends_of_formed {held : Gtid → Prop} {entries : List EventEntry} (formed : Formed held entries stage)
    (whole : WholeIfWithin stage) : EndsMarked EventEntry.atTransactionBoundary
      (entries.filter fun entry => !isSkipped (CommonHeader.getTypeCode entry.data)) := by
  induction formed with
  | nil => simp [EndsMarked]
  | @concat entries entry event stage stage' before next data seated marked named ih =>
    have typed : CommonHeader.getTypeCode entry.data = event.getTypeCode := congrArg CommonHeader.getTypeCode data
    rw [List.filter_append]
    rcases skipped_of_next next with ⟨skipped,-,settled⟩ | ⟨kept,gtid,declared,size,within⟩
    · have none : [entry].filter (fun entry => !isSkipped (CommonHeader.getTypeCode entry.data)) = [] := by
        simp [typed,skipped]
      rw [none, List.append_nil]
      exact ih settled
    · have one : [entry].filter (fun entry => !isSkipped (CommonHeader.getTypeCode entry.data)) = [entry] := by
        simp [typed,kept]
      rw [one]
      intro last member
      obtain rfl : entry = last := by simpa using member
      rw [marked, whole gtid declared size within]

/-- The gtids of the transactions that are whole in the files. -/
theorem commits_relayedIn (layout : Layout basis files stage) (gtid : Gtid) :
    (∃ file ∈ files, Commits file.entries gtid) ↔ Commits (relayedIn files) gtid := by
  have unnamed : ∀ file ∈ files, ∀ entry ∈ file.entries, isSkipped (CommonHeader.getTypeCode entry.data) = true →
      entry.transactionGtid = .empty := by
    induction layout with
    | nil => simp
    | concat before last ih =>
      rw [List.forall_mem_append, List.forall_mem_singleton]
      exact ⟨ih,unnamed_of_formed last⟩
  constructor
  · rintro ⟨file,known,entry,member,marked,some,rfl⟩
    refine ⟨entry,List.mem_flatMap.mpr ⟨file,known,List.mem_filter.mpr ⟨member,?_⟩⟩,marked,some,rfl⟩
    by_contra skipped
    rw [unnamed file known entry member (by simpa using skipped)] at some
    exact some (by decide)
  · rintro ⟨entry,member,committed⟩
    obtain ⟨file,known,member⟩ := List.mem_flatMap.mp member
    exact ⟨file,known,entry,List.mem_of_mem_filter member,committed⟩

/-- Where the last file rests, the last event of the source ends its transaction. -/
theorem relayedIn_ends (layout : Layout basis files stage) (rests : Rests files stage) :
    EndsMarked EventEntry.atTransactionBoundary (relayedIn files) := by
  suffices ends : WholeIfWithin stage → EndsMarked EventEntry.atTransactionBoundary (relayedIn files) by
    rcases rests with rfl | rfl | free
    · simp [relayedIn,EndsMarked]
    · exact ends (by simp [WholeIfWithin])
    · refine ends ?_
      rintro gtid declared size rfl
      exact free
  clear rests
  induction layout with
  | nil => simp [relayedIn,EndsMarked]
  | @concat front file stage before last ih =>
    intro whole
    rw [relayedIn_append]
    refine (ih (by simp [WholeIfWithin])).append ?_
    simpa [relayedIn] using relayed_ends_of_formed last whole

theorem relayedIn_onLast {f : List EventEntry → List EventEntry} (part : ∀ entries, f entries <+: entries)
    (files : List LocalFile) : relayedIn (LocalFile.onLast f files) <+: relayedIn files := by
  induction files using List.reverseRecOn with
  | nil => exact List.prefix_rfl
  | append_singleton front file =>
    rw [LocalFile.onLast_concat, relayedIn_append, relayedIn_append]
    refine (List.prefix_append_right_inj _).mpr ?_
    simpa [relayedIn] using (part file.entries).filter _

end

/-- A source sends the transactions that a restart point does not have, in its order, cut anywhere by a lost connection or
    the end of the process, between events of its own files. -/
structure Sends [Externals] (source : List (Batch Gtid Bytes)) (visit : Visit) : Prop where
  relays : Relays visit
  lost : visit.endOfStream = false
  sent : ∃ encoded gtids packets, visit.point = .gtids encoded ∧ GtidSet.ofBytes encoded = .ok gtids ∧
    receivePackets visit.config packets visit.first = .ok () visit.last ∧
    keptIn packets <+: (source.filter fun transaction => ¬ gtids.contains transaction.key).flatMap Batch.items

/-- The transactions of the source that are not among what counts as stored before the first file. -/
def wanted (source : List (Batch Gtid Bytes)) (s : Storage) : List (Batch Gtid Bytes) :=
  source.filter fun transaction => ¬ s.basis.contains transaction.key

section
variable [Externals] {source front back : List (Batch Gtid Bytes)} {s t : Storage} {files : List LocalFile}
  {lines : List (Line Gtid Bytes)} {settings : Config} {serverVersion : Nat} {gtidPurged : Bytes}
  {clock calendar : Nat → Nat} {point : RestartPoint} {start session : Session} {trace : List Processed}
  {endOfStream : Bool}

/-- Between two sessions: the files have the first transactions of the source. -/
structure Mirrored (source : List (Batch Gtid Bytes)) (s : Storage) (files : List LocalFile) : Prop where
  laid : Laid s files
  unbuffered : Unbuffered s
  copied : ∃ front, front <+: wanted source s ∧ List.Forall₂ Copies (Line.script front) (relayedIn files)

/-- What is left where the end of the last file is dropped. -/
theorem Mirrored.cut {f : List EventEntry → List EventEntry} (part : ∀ entries, f entries <+: entries)
    (laid : Laid t (LocalFile.onLast f files)) (basis : files ≠ [] → t.basis = s.basis) (unbuffered : Unbuffered t)
    (stream : lines <+: Line.script (wanted source s)) (copies : List.Forall₂ Copies lines (relayedIn files)) :
    Mirrored source t (LocalFile.onLast f files) := by
  refine ⟨laid,unbuffered,?_⟩
  by_cases none : files = []
  · subst none
    exact ⟨[],List.nil_prefix,.nil⟩
  obtain ⟨stage,layout,rests⟩ := laid.layout
  have shorter := relayedIn_onLast part files
  rw [List.prefix_iff_eq_take] at shorter
  have cut := List.forall₂_take (relayedIn (LocalFile.onLast f files)).length copies
  rw [← shorter] at cut
  have ends : ∀ last ∈ (lines.take (relayedIn (LocalFile.onLast f files)).length).getLast?, last.rest = [] := by
    intro last member
    obtain ⟨entry,final,copied⟩ := forall₂_getLast? cut member
    have marked := relayedIn_ends layout rests entry final
    rw [copied.marked] at marked
    exact List.isEmpty_iff.mp marked
  obtain ⟨front,first,same⟩ := Line.script_isPrefix ((List.take_prefix _ _).trans stream) ends
  refine ⟨front,?_,same ▸ cut⟩
  rw [wanted, basis none]
  exact first

/-- The gtids of the storage are those of the transactions in the files. -/
theorem Mirrored.gtids (laid : Laid s files) (unbuffered : Unbuffered s) (upright : ∀ transaction ∈ front, Upright transaction)
    (copies : List.Forall₂ Copies (Line.script front) (relayedIn files)) (mode : s.replicationMode = .gtid) (gtid : Gtid) :
    s.getGtids.contains gtid ↔ s.basis.contains gtid ∨ gtid ∈ front.map Batch.key := by
  obtain ⟨stage,layout,-⟩ := laid.layout
  have held := laid.holds.contains mode gtid
  rw [or_iff_left (unbuffered.gtids gtid), commits_relayedIn layout] at held
  rw [held]
  refine or_congr_right ⟨?_,?_⟩
  · rintro ⟨entry,member,-,-,rfl⟩
    obtain ⟨line,known,copied⟩ := forall₂_mem copies.flip member
    rw [copied.named]
    exact Line.mem_script known
  · intro known
    obtain ⟨transaction,member,rfl⟩ := List.mem_map.mp known
    obtain ⟨named,⟨first,others,-,items,-⟩,-,-⟩ := upright transaction member
    obtain ⟨line,there,key,last⟩ := Line.exists_last_script member (by simp [items])
    obtain ⟨entry,stored,copied⟩ := forall₂_mem copies there
    exact ⟨entry,stored,by rw [copied.marked, last]; rfl,named,copied.named.trans key⟩

/-- A session starts with the files as they are. -/
theorem Mirrored.connect (mirrored : Mirrored source s files)
    (proper : ∀ gtids, GtidSet.ofText gtidPurged = .ok gtids → gtids.Valid)
    (connected : Session.connect settings serverVersion gtidPurged clock calendar s = .ok (point,start))
    (relays : Relays ⟨settings,point,start,trace,session,endOfStream⟩) : Mirrored source start.storage files := by
  obtain ⟨stage,relaying,-,rests⟩ := mirrored.laid.connect proper connected relays.checksums relays.mode
  refine ⟨⟨relaying.filed.holds,relaying.filed.events,stage,relaying.layout,rests⟩,?_,?_⟩
  · obtain ⟨data,boundary,gtids⟩ := mirrored.unbuffered
    rw [← connect_buffer connected] at data boundary gtids
    exact ⟨data,boundary,gtids⟩
  · by_cases none : files = []
    · subst none
      exact ⟨[],List.nil_prefix,.nil⟩
    · rw [wanted, connect_basis mirrored.laid.holds none connected]
      exact mirrored.copied

omit [Externals] in
/-- What a source still has to send is what comes after the transactions in the files. -/
theorem wanted_rest (distinct : (source.map Batch.key).Nodup) (split : wanted source s = front ++ back) {gtids : GtidSet}
    (same : ∀ gtid, gtids.contains gtid ↔ s.basis.contains gtid ∨ gtid ∈ front.map Batch.key) :
    (source.filter fun transaction => ¬ gtids.contains transaction.key) = back := by
  have rest := @Batch.filter_rest _ _ _ front back (by
    rw [← split]
    exact distinct.sublist (List.filter_sublist.map _))
  rw [← split, wanted, List.filter_filter] at rest
  rw [← rest]
  refine List.filter_congr fun transaction _ => ?_
  simp only [same, decide_not, Bool.decide_or, Bool.not_or, Bool.and_comm]

/-- A session that is served by such a source. -/
theorem Mirrored.served (mirrored : Mirrored source s files) (upright : ∀ transaction ∈ source, Upright transaction)
    (distinct : (source.map Batch.key).Nodup)
    (proper : ∀ gtids, GtidSet.ofText gtidPurged = .ok gtids → gtids.Valid)
    (connected : Session.connect settings serverVersion gtidPurged clock calendar s = .ok (point,start))
    (processes : Processes start trace session) (sends : Sends source ⟨settings,point,start,trace,session,endOfStream⟩) :
    ∃ files' stage told lines, Relaying session files' stage told ∧ Working session files' stage ∧
      lines <+: Line.script (wanted source session.storage) ∧ List.Forall₂ Copies lines (relayedIn files') := by
  obtain ⟨laid,unbuffered,front,⟨back,split⟩,copies⟩ := mirrored.connect proper connected sends.relays
  obtain ⟨stage,relaying,fresh,rests⟩ := mirrored.laid.connect proper connected sends.relays.checksums sends.relays.mode
  obtain ⟨encoded,gtids,packets,rfl,read,received,sent⟩ := sends.sent
  obtain rfl : start.storage.getGtids = gtids :=
    Except.ok.inj ((restartPoint_gtids relaying.filed.holds connected).2.symm.trans read)
  have known : ∀ transaction ∈ front ++ back, Upright transaction := by
    intro transaction member
    rw [split] at member
    exact upright transaction (List.mem_of_mem_filter member)
  rw [List.forall_mem_append] at known
  rw [wanted_rest distinct split.symm (Mirrored.gtids laid unbuffered known.1 copies sends.relays.mode)] at sent
  obtain ⟨rewrite,-,rewrites,-⟩ := sends.relays.rewrites
  have tagged : start.context.KnowsTagged := by
    obtain ⟨t,-,rfl⟩ := connect_ok connected
    exact ReaderContext.knowsTagged_make ..
  obtain ⟨files',stage,news,lines,left,after,working,parts,-,copied,-⟩ :=
    (Working.waiting fresh sends.relays.short rests).copies known.2 relaying tagged rewrites received sent
  refine ⟨files',stage,_,Line.script front ++ lines,after,working,?_,?_⟩
  · rw [wanted, (processes.basis relaying.filed relaying.mode).1, ← wanted, ← split, Line.script_append, parts,
      ← List.append_assoc]
    exact List.prefix_append ..
  · rw [after.relayed]
    exact List.rel_append copies copied

/-- Whatever sessions, lost connections, terminations and restarts there have been, the stored files have the first
    transactions of the source that had not been purged, in their order and each of them once, with every event as it was
    sent but for its place; and the next session asks for all others. -/
theorem stored_transactions_mirror (upright : ∀ transaction ∈ source, Upright transaction)
    (distinct : (source.map Batch.key).Nodup) (lives : Lives (Sends source) s) : ∃ files front,
    Laid s files ∧ s.records.map BinlogRecord.name = files.map LocalFile.name ∧
    (∀ file ∈ files, s.backend.objects.find? file.name.str = some (magicBinlogPayload ++ bytesOf file.entries)) ∧
    front <+: wanted source s ∧
    List.Forall₂ Retells (front.flatMap Batch.items) ((relayedIn files).map EventEntry.data) ∧
    (s.replicationMode = .gtid → ∀ gtid, s.getGtids.contains gtid ↔ s.basis.contains gtid ∨ gtid ∈ front.map Batch.key) := by
  have reached : ∃ files, Mirrored source s files := by
    induction lives with
    | start constructed =>
      exact ⟨[],⟨Holds.start constructed,by simp,.ended [],.nil,.inl rfl⟩,.constructed constructed,[],
        List.nil_prefix,.nil⟩
    | session lives proper connected processes admitted disconnected ih =>
      obtain ⟨files,mirrored⟩ := ih
      obtain ⟨files,stage,_,lines,relaying,working,stream,copies⟩ :=
        mirrored.served upright distinct proper connected processes admitted
      obtain rfl := admitted.lost
      obtain ⟨f,part,laid,basis,unbuffered⟩ := Laid.lost relaying working.stops.1 disconnected
      exact ⟨_,.cut part laid (fun _ => basis) unbuffered stream copies⟩
    | restart lives constructed ih =>
      obtain ⟨files,laid,unbuffered,front,first,copies⟩ := ih
      obtain ⟨stage,layout,rests⟩ := laid.layout
      obtain ⟨f,part,after,basis,empty⟩ := Laid.restarted laid.holds laid.events layout rests.not_ended constructed
      obtain ⟨back,split⟩ := first
      refine ⟨_,.cut part after basis empty ?_ copies⟩
      rw [← split, Line.script_append]
      exact List.prefix_append ..
    | stopped lives proper connected processes admitted constructed ih =>
      obtain ⟨files,mirrored⟩ := ih
      obtain ⟨files,stage,_,lines,relaying,working,stream,copies⟩ :=
        mirrored.served upright distinct proper connected processes admitted
      obtain ⟨f,part,laid,basis,unbuffered⟩ := Laid.restarted relaying.filed.holds relaying.filed.events relaying.layout
        working.stops.1 constructed
      exact ⟨_,.cut part laid basis unbuffered stream copies⟩
  obtain ⟨files,laid,unbuffered,front,first,copies⟩ := reached
  have known : ∀ transaction ∈ front, Upright transaction :=
    fun transaction member => upright transaction (List.mem_of_mem_filter (first.subset member))
  refine ⟨files,front,laid,?_,laid.holds.stored_whole unbuffered.data,first,?_,Mirrored.gtids laid unbuffered known copies⟩
  · obtain ⟨-,-,-,names,-⟩ := laid.holds
    exact names
  · rw [← Line.map_item_script, List.forall₂_map_left_iff, List.forall₂_map_right_iff]
    exact copies.imp fun _ _ copied => copied.retells

end

namespace Sample
attribute [local instance] FlatJson.externals

private theorem secondGtid_valid : (GtidSet.Sample.uuid = .nil ∧ Tag.none = .none ∧ 2 = 0) ∨
    (¬ GtidSet.Sample.uuid.isEmpty ∧ minGno ≤ 2 ∧ 2 ≤ maxGno) := by decide

/-- A source of two transactions. -/
def transactions : List (Batch Gtid Bytes) :=
  [⟨firstGtid,[transaction 1 0 1,commit]⟩,⟨⟨GtidSet.Sample.uuid,.none,2,secondGtid_valid⟩,[transaction 2 1 2,commit]⟩]

theorem transactions_upright : ∀ transaction ∈ transactions, Upright transaction := by
  have declares : ∀ gno lastCommitted sequenceNumber, ∀ key : Gtid, ¬ key.isEmpty →
      (EventView.ofStored (transaction gno lastCommitted sequenceNumber)).transactionInfo = .ok (key,sequenceNumber,96) →
      sizeOf [transaction gno lastCommitted sequenceNumber,commit] = 96 →
      (transaction gno lastCommitted sequenceNumber ≠ [] ∧ commit ≠ []) →
      Upright ⟨key,[transaction gno lastCommitted sequenceNumber,commit]⟩ := by
    intro gno lastCommitted sequenceNumber key named info size some
    exact ⟨named,⟨_,_,_,rfl,by rw [info, size]⟩,by simpa using some,by rw [size]; decide⟩
  simp only [transactions, List.forall_mem_cons]
  exact ⟨declares 1 0 1 _ (by decide) (by decide +kernel) (by decide +kernel) (by decide +kernel),
    declares 2 1 2 _ (by decide) (by decide +kernel) (by decide +kernel) (by decide +kernel),by simp⟩

end Sample

section
attribute [local instance] FlatJson.externals

theorem stored_transactions_mirror_lost : ∃ s, (∀ transaction ∈ Sample.transactions, Upright transaction) ∧
    (Sample.transactions.map Batch.key).Nodup ∧ Lives (Sends Sample.transactions) s ∧
    s.getGtids.contains Sample.firstGtid ∧ ∃ files front, Laid s files ∧
      (∀ file ∈ files, s.backend.objects.find? file.name.str = some (magicBinlogPayload ++ bytesOf file.entries)) ∧
      front <+: wanted Sample.transactions s ∧
      List.Forall₂ Retells (front.flatMap Batch.items) ((relayedIn files).map EventEntry.data) := by
  have known : Sample.relayed.map (fun found => decide (found.2.getGtids.contains Sample.firstGtid)) = some true := by
    decide +kernel
  obtain ⟨⟨session,t⟩,found,held⟩ := Option.map_eq_some_iff.mp known
  obtain ⟨received,disconnected⟩ := Sample.relayed_eq_some found
  obtain ⟨encoded,connected⟩ : ∃ encoded, connect Sample.rewriting 80400 [] (fun _ => 0) (fun _ => 0)
      Storage.Sample.emptyStorage = .ok (.gtids encoded,Sample.relay) := ⟨_,rfl⟩
  obtain ⟨trace,processes⟩ := Processes.stay.receivePackets received
  have distinct : (Sample.transactions.map Batch.key).Nodup := by decide
  have sends : Sends Sample.transactions ⟨Sample.rewriting,.gtids encoded,Sample.relay,trace,session,false⟩ := by
    have holds := (Filed.connect (Holds.start (u := ()) rfl) (by simp) Sample.nothing_purged connected).holds
    have sent : keptIn Sample.first <+: (Sample.transactions.filter fun transaction =>
        ¬ Sample.relay.storage.getGtids.contains transaction.key).flatMap Batch.items := by decide +kernel
    exact ⟨⟨⟨_,Sample.first,rfl,received⟩,rfl,rfl,show Sample.relay.storage.getCurrentPosition < 2 ^ 32 by decide,by simp⟩,
      rfl,encoded,_,_,rfl,(restartPoint_gtids holds connected).2,received,sent⟩
  have lives : Lives (Sends Sample.transactions) t :=
    (Sample.emptyStorage_lives _).session Sample.nothing_purged connected processes sends disconnected
  obtain ⟨files,front,laid,-,stored,first,retells,-⟩ := stored_transactions_mirror Sample.transactions_upright distinct lives
  exact ⟨t,Sample.transactions_upright,distinct,lives,of_decide_eq_true held,files,front,laid,stored,first,retells⟩

end
end Session
end BinlogServer.App
