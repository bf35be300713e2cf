import BinlogServer.App.Relocation
import BinlogServer.Store.LocalFiles

/-!
# The files of a session

What an event does to the files that a storage holds: an artificial ROTATE starts a file unless it names the current
one, and every other event that is not for information only goes to the end of the current file.
-/

namespace BinlogServer.Store.Storage
open ByteString Util Gtids Events

section
variable [Externals] {s t : Storage} {files : List LocalFile}

/-- A file that is not open has whole transactions. -/
theorem Holds.whole (holds : Holds s files) (closed : s.isBinlogOpen = false) :
    LocalFile.onLast wholeTransactions files = files := by
  induction files using List.reverseRecOn with
  | nil => rfl
  | append_singleton front file =>
    obtain ⟨-,-,kept,-,ends,-,all⟩ := holds.stored
    have marked : EndsMarked EventEntry.atTransactionBoundary file.entries := all closed ▸ ends
    have same := marked.rdropWhile_append []
    rw [List.append_nil, List.rdropWhile_nil, List.append_nil] at same
    simp [wholeTransactions,same]

theorem Holds.opens (holds : Holds s files) {name : CompositeBinlogName} {now : Nat} {status : OpenBinlogStatus}
    (run : openBinlog name now s = .ok status t) (nonempty : name.isEmpty = false) :
    Holds t (if name = s.getCurrentBinlogName then files else files ++ [⟨name,[]⟩]) := by
  have returned : (Operation.openBinlog name).run now s = .ok () t := by
    simp only [Operation.run, Action.bind_eq_ok]
    exact ⟨status,t,run,rfl⟩
  have next := holds.step rfl returned
  obtain ⟨log,tracked⟩ := holds.tracked
  have known : name ∈ files.map LocalFile.name ↔ name = s.getCurrentBinlogName := by
    obtain ⟨-,-,-,names,-⟩ := holds
    rw [← names]
    obtain ⟨-,⟨new,-⟩ | ⟨record,last,rfl,-⟩⟩ := openBinlog_ok tracked.sound.healthy run
    · refine iff_of_false (by simpa using new) fun current => ?_
      unfold Storage.getCurrentBinlogName at current
      cases last : s.records.getLast? with
      | none => simp [current,last,CompositeBinlogName.none,CompositeBinlogName.isEmpty] at nonempty
      | some record => exact new record (List.mem_of_getLast? last) (by simp [current,last])
    · refine iff_of_true (List.mem_map_of_mem (List.mem_of_getLast? last)) ?_
      simp [Storage.getCurrentBinlogName,last]
  simpa only [Operation.onFiles, known] using next

end
end BinlogServer.Store.Storage

namespace BinlogServer.Events.ReaderContext
variable {context context' : ReaderContext} {event : EventView} {infoOnly : Bool}

theorem Step.rotated_infoOnly (step : Step context event infoOnly context') (rotate : event.IsArtificialRotate) :
    infoOnly = true := by
  cases step with
  | artificialRotate => rfl
  | formatDescription layout start code => cases code.symm.trans rotate.code
  | previousGtids start code => cases code.symm.trans rotate.code
  | gtid _ _ _ start code => simp [rotate.code,CodeType.isGtid] at code
  | other start plain => exact absurd rotate.code plain.2.1
  | terminator start last => cases rotate.artificial.symm.trans last.artificial

/-- The last event of a file is stored, outside of a transaction. -/
theorem Step.terminated_boundary (step : Step context event infoOnly context') (last : event.IsTerminator) :
    infoOnly = false ∧ context'.isAtTransactionBoundary = true := by
  refine ⟨?_,?_⟩
  · cases step with
    | artificialRotate start rotate => cases rotate.artificial.symm.trans last.artificial
    | formatDescription layout start code => rcases last.code with same | same <;> cases code.symm.trans same
    | previousGtids start code => rcases last.code with same | same <;> cases code.symm.trans same
    | gtid => rfl
    | other => rfl
    | terminator => rfl
  · obtain ⟨-,-,rfl⟩ := step.terminated last
    rfl

end BinlogServer.Events.ReaderContext

namespace BinlogServer.App
open ByteString Util Gtids Events Store
open Store.Storage (Holds)

namespace Session

section
variable [Externals] {s t : Storage} {event : EventView} {context : ReaderContext} {infoOnly : Bool} {files : List LocalFile}

/-- An artificial ROTATE that names another file than the current one starts it. -/
theorem Stored.rotated_holds (stored : Stored s event context infoOnly t) (holds : Holds s files)
    (rotate : event.IsArtificialRotate) : ∃ name : CompositeBinlogName, name.str = event.getBodyRaw ∧
      Holds t (if name = s.getCurrentBinlogName then files
        else LocalFile.onLast wholeTransactions files ++ [⟨name,[]⟩]) := by
  cases stored with
  | reused rotate opened named position =>
    exact ⟨_,CompositeBinlogName.str_of_parse named,by rwa [if_pos rfl]⟩
  | changed name now later status closed t rotate opened named other close reopen =>
    obtain ⟨log,tracked⟩ := holds.tracked
    have same := (tracked.closes close).2
    have between : Holds closed (Operation.closeBinlog.onFiles files) := holds.step rfl close
    have after := between.opens reopen (CompositeBinlogName.parse_nonempty named)
    rw [same] at after
    refine ⟨name,CompositeBinlogName.str_of_parse named,?_⟩
    rw [if_neg other] at after ⊢
    exact after
  | opened name now status t rotate closed named reopen =>
    refine ⟨name,CompositeBinlogName.str_of_parse named,?_⟩
    rw [holds.whole closed]
    exact holds.opens reopen (CompositeBinlogName.parse_nonempty named)
  | passed preamble => simp [rotate.code] at preamble
  | written nonempty now t inner => exact absurd rotate.code inner.1
  | ended nonempty now later m t last => cases rotate.artificial.symm.trans last.artificial

/-- An event inside a file goes to its end, unless the file already has it. -/
theorem Stored.inner_holds (stored : Stored s event context infoOnly t) (holds : Holds s files)
    (opened : s.isBinlogOpen = true) (nonempty : event.portion ≠ [])
    (inner : event.getTypeCode ≠ .rotate ∧ event.getTypeCode ≠ .stop) :
    Holds t (if infoOnly = true then files else LocalFile.onLast (· ++ [entryFor event context nonempty]) files) := by
  have written := stored.inner inner
  split at written <;> rename_i info
  · rw [if_pos info, written]
    exact holds
  · obtain ⟨_,now,write⟩ := written
    rw [if_neg info]
    exact @Holds.step _ s t files holds (.writeEvent (entryFor event context nonempty)) now () opened write

/-- The last event of a file is the end of its last transaction. -/
theorem Stored.closed_holds (stored : Stored s event context infoOnly t) (holds : Holds s files)
    (opened : s.isBinlogOpen = true) (nonempty : event.portion ≠ []) (last : event.IsTerminator)
    (boundary : context.isAtTransactionBoundary = true) :
    Holds t (LocalFile.onLast (· ++ [entryFor event context nonempty]) files) := by
  cases stored with
  | reused rotate => cases rotate.artificial.symm.trans last.artificial
  | changed name now later status closed t rotate => cases rotate.artificial.symm.trans last.artificial
  | opened name now status t rotate => cases rotate.artificial.symm.trans last.artificial
  | passed preamble => rcases preamble with code | code <;> rcases last.code with end' | end' <;> cases code.symm.trans end'
  | written nonempty now t inner =>
    rcases last.code with code | code
    · exact absurd code inner.1
    · exact absurd code inner.2
  | ended _ now later m t last write close =>
    have wrote := @Holds.step _ s m files holds (.writeEvent (entryFor event context nonempty)) now () opened write
    have closes : Holds t (Operation.closeBinlog.onFiles (Operation.onFiles (.writeEvent (entryFor event context nonempty))
      files)) := wrote.step rfl close
    have whole : LocalFile.onLast wholeTransactions (LocalFile.onLast (· ++ [entryFor event context nonempty]) files) =
        LocalFile.onLast (· ++ [entryFor event context nonempty]) files := by
      induction files using List.reverseRecOn with
      | nil => rfl
      | append_singleton front file => simp [wholeTransactions,entryFor,boundary]
    rw [← whole]
    exact closes

/-- The reader and the storage know about each other, and these files are held. -/
structure Filed (session : Session) (files : List LocalFile) : Prop where
  joined : Joined session
  holds : Holds session.storage files
  events : ∀ file ∈ files, AreEvents file.entries

/-- What an event does to the files. -/
inductive Filing (session : Session) (event : EventView) (session' : Session) (files : List LocalFile) :
    Bool → List LocalFile → Prop where
  | rotated (name : CompositeBinlogName) (rotate : event.IsArtificialRotate) (named : name.str = event.getBodyRaw) :
      Filing session event session' files true
        (if name = session.storage.getCurrentBinlogName then files
          else LocalFile.onLast wholeTransactions files ++ [⟨name,[]⟩])
  | passed (inner : event.getTypeCode ≠ .rotate ∧ event.getTypeCode ≠ .stop) :
      Filing session event session' files true files
  | written (inner : event.getTypeCode ≠ .rotate ∧ event.getTypeCode ≠ .stop) (nonempty : event.portion ≠ [])
      (fits : session.storage.buffer.data.length + event.portion.length ≤ EventBuffer.maxSize) :
      Filing session event session' files false
        (LocalFile.onLast (· ++ [entryFor event session'.context nonempty]) files)
  | ended (last : event.IsTerminator) (nonempty : event.portion ≠ []) :
      Filing session event session' files false
        (LocalFile.onLast (· ++ [entryFor event session'.context nonempty]) files)

variable {session session' : Session}

omit [Externals] in
theorem Filing.events {files' : List LocalFile} (filing : Filing session event session' files infoOnly files')
    (sound : event.Sound) (events : ∀ file ∈ files, AreEvents file.entries) : ∀ file ∈ files', AreEvents file.entries := by
  have whole : IsEvent event.portion := ⟨by have := sound.parts; omega,sound.size⟩
  have stored : ∀ nonempty, ∀ file ∈ LocalFile.onLast (· ++ [entryFor event session'.context nonempty]) files,
      AreEvents file.entries := by
    intro nonempty
    induction files using List.reverseRecOn with
    | nil => exact events
    | append_singleton front file =>
      rw [LocalFile.onLast_concat]
      refine LocalFile.forall_concat events fun entry member => ?_
      rcases List.mem_append.mp member with old | new
      · exact events file (by simp) entry old
      · rw [List.mem_singleton.mp new]
        exact whole
  cases filing with
  | rotated name rotate named =>
    split
    · exact events
    · intro file member
      rcases List.mem_append.mp member with old | new
      · exact LocalFile.forall_onLast AreEvents.of_isPrefix wholeTransactions_isPrefix events file old
      · rw [List.mem_singleton.mp new]
        exact fun entry none => absurd none List.not_mem_nil
  | passed inner => exact events
  | written inner nonempty fits => exact stored nonempty
  | ended last nonempty => exact stored nonempty

theorem Filed.step (filed : Filed session files) (sound : event.Sound)
    (run : processBinlogEvent event session = .ok () session') :
    ∃ infoOnly files', ReaderContext.Step session.context event infoOnly session'.context ∧
      Filing session event session' files infoOnly files' ∧ Filed session' files' := by
  obtain ⟨joined,holds,events⟩ := filed
  obtain ⟨infoOnly,step,stored⟩ := processBinlogEvent_ok joined.sound sound.nonempty run
  suffices found : ∃ files', Filing session event session' files infoOnly files' ∧ Holds session'.storage files' by
    obtain ⟨files',filing,holds⟩ := found
    exact ⟨infoOnly,files',step,filing,joined.step sound run,holds,filing.events sound events⟩
  rcases step.kind with rotate | inner | last
  · obtain ⟨name,named,holds⟩ := stored.rotated_holds holds rotate
    obtain rfl : infoOnly = true := step.rotated_infoOnly rotate
    exact ⟨_,.rotated name rotate named,holds⟩
  · have opened := joined.opened (step.moved inner).1
    have written := stored.inner inner
    have after := stored.inner_holds holds opened sound.nonempty inner
    cases infoOnly with
    | true => exact ⟨files,.passed inner,after⟩
    | false =>
      obtain ⟨nonempty,now,write⟩ := written
      exact ⟨_,.written inner nonempty (Storage.writeEntry_fits write),after⟩
  · have opened := joined.opened (step.terminated last).1
    obtain ⟨rfl,boundary⟩ : infoOnly = false ∧ session'.context.isAtTransactionBoundary = true :=
      step.terminated_boundary last
    exact ⟨_,.ended last sound.nonempty,stored.closed_holds holds opened sound.nonempty last boundary⟩

theorem Filed.aged (filed : Filed session files) : Filed session.aged files :=
  ⟨filed.joined.aged,filed.holds,filed.events⟩

variable {config : Config} {serverVersion : Nat} {gtidPurged : Bytes} {clock calendar : Nat → Nat} {point : RestartPoint}
  {endOfStream : Bool} {u : Unit}

/-- A session starts with the files of the storage. -/
theorem Filed.connect (holds : Holds s files) (events : ∀ file ∈ files, AreEvents file.entries)
    (proper : ∀ gtids, GtidSet.ofText gtidPurged = .ok gtids → gtids.Valid)
    (connected : connect config serverVersion gtidPurged clock calendar s = .ok (point,session)) : Filed session files := by
  refine ⟨(connect_joined holds.tracked connected).1,?_,events⟩
  obtain ⟨t,switched,rfl⟩ := connect_ok connected
  rcases switchToReplication_ok switched with ⟨mode,changed,-⟩ | ⟨-,rfl,-⟩
  · split at changed
    · rename_i empty
      obtain ⟨gtids,parsed,rfl⟩ := changed
      have set : Storage.setPurgedGtids gtids s = .ok () (s.withPurgedGtids gtids) := by
        simp only [Storage.setPurgedGtids, Action.bind_eq_ok, Action.get_eq_ok, Action.lift_eq_ok, raiseIf_eq_ok,
          Action.modify_eq_ok]
        exact ⟨_,_,⟨rfl,rfl⟩,(),_,⟨by simp [mode],rfl⟩,(),_,⟨by simp [empty],rfl⟩,rfl⟩
      exact @Holds.step _ s _ files holds (.setPurgedGtids gtids (proper gtids parsed)) 0 () rfl set
    · subst changed
      exact holds
  · exact holds

/-- A session leaves the files, or the whole transactions in them. -/
theorem disconnect_holds {t : Storage} (holds : Holds s files) (disconnected : disconnect endOfStream s = .ok u t) :
    Holds t (if endOfStream then files else LocalFile.onLast wholeTransactions files) := by
  cases endOfStream with
  | true =>
    obtain ⟨-,rfl⟩ := Action.pure_eq_ok.mp disconnected
    exact holds
  | false =>
    obtain ⟨_,m,discarded,flushed⟩ := Action.bind_eq_ok.mp disconnected
    have whole := @Holds.step _ s m files holds .discardIncompleteTransactionEvents 0 _ rfl discarded
    exact @Holds.step _ m t _ whole .flushEventBuffer 0 _ rfl flushed

end

/-- The storages of the processes that have run in the rewrite mode, each with any number of sessions of the kind that is
    admitted. Between two sessions a process may be replaced by another one. -/
inductive Relayed [Externals] (admits : Config → Session → List Bytes → Prop) : Storage → Prop where
  | start {type : BackendType} {mode : ReplicationMode} {checkpoint : Checkpoint} {u : Unit} {s : Storage}
      (constructed : Storage.construct .streaming mode checkpoint { type := type, objects := .empty } = .ok u s) :
      Relayed admits s
  | session {s t : Storage} (relayed : Relayed admits s) {config : Config} {rewrite : RewriteConfig} {serverVersion : Nat}
      {gtidPurged : Bytes} {clock calendar : Nat → Nat} {point : RestartPoint} {packets : List Bytes}
      {session session' : Session} {endOfStream : Bool} {v : Unit}
      (mode : config.rewrite = some rewrite) (admitted : admits config session packets)
      (proper : ∀ gtids, GtidSet.ofText gtidPurged = .ok gtids → gtids.Valid)
      (connected : connect config serverVersion gtidPurged clock calendar s = .ok (point,session))
      (received : receivePackets config packets session = .ok () session')
      (disconnected : disconnect endOfStream session'.storage = .ok v t) : Relayed admits t
  | restart {s t : Storage} (relayed : Relayed admits s) {mode : ReplicationMode} {checkpoint : Checkpoint} {u : Unit}
      (constructed : Storage.construct .streaming mode checkpoint s.destroy = .ok u t) : Relayed admits t

/-- What is preserved by the sessions and holds of a front of the events of a file holds of all files. -/
theorem Relayed.files [Externals] {admits : Config → Session → List Bytes → Prop} {P : List EventEntry → Prop}
    (closed : ∀ front entries, front <+: entries → P entries → P front)
    (session : ∀ config rewrite packets serverVersion storage clock calendar files session,
      let start : Session := ⟨storage,readerFor config serverVersion storage,clock,calendar⟩
      config.rewrite = some rewrite → admits config start packets → Filed start files → (∀ file ∈ files, P file.entries) →
      receivePackets config packets start = .ok () session →
      ∃ files', Filed session files' ∧ ∀ file ∈ files', P file.entries)
    {s : Storage} (relayed : Relayed admits s) :
    ∃ files, Holds s files ∧ ∀ file ∈ files, AreEvents file.entries ∧ P file.entries := by
  have both : ∀ front entries, front <+: entries → AreEvents entries ∧ P entries → AreEvents front ∧ P front :=
    fun front entries part all => ⟨AreEvents.of_isPrefix front entries part all.1,closed front entries part all.2⟩
  induction relayed with
  | start constructed => exact ⟨[],Holds.start constructed,by simp⟩
  | session relayed mode admitted proper connected received disconnected ih =>
    obtain ⟨files,holds,all⟩ := ih
    have filed := Filed.connect holds (fun file member => (all file member).1) proper connected
    obtain ⟨t,-,rfl⟩ := connect_ok connected
    obtain ⟨files',filed,rest⟩ := session _ _ _ _ _ _ _ files _ mode admitted filed
      (fun file member => (all file member).2) received
    have next : ∀ file ∈ files', AreEvents file.entries ∧ P file.entries :=
      fun file member => ⟨filed.events file member,rest file member⟩
    refine ⟨_,disconnect_holds filed.holds disconnected,?_⟩
    split
    · exact next
    · exact LocalFile.forall_onLast both wholeTransactions_isPrefix next
  | restart relayed constructed ih =>
    obtain ⟨files,holds,all⟩ := ih
    obtain ⟨size,holds⟩ := holds.restart constructed
    exact ⟨_,holds,LocalFile.forall_onLast both (eventsWithin_isPrefix size) all⟩

/-- What is stored for the files is a front of what is held. -/
theorem stored_of_holds [Externals] {P : List EventEntry → Prop}
    (closed : ∀ front entries, front <+: entries → P entries → P front) {s : Storage} {files : List LocalFile}
    (holds : Holds s files) (all : ∀ file ∈ files, AreEvents file.entries ∧ P file.entries) :
    ∀ record ∈ s.records, ∃ entries, P entries ∧ AreEvents entries ∧
      s.backend.objects.find? record.name.str = some (magicBinlogPayload ++ (entries.map EventEntry.data).flatten) := by
  intro record member
  obtain ⟨file,known,name⟩ : ∃ file ∈ files, file.name = record.name := by
    obtain ⟨-,-,-,names,-⟩ := holds
    have listed : record.name ∈ files.map LocalFile.name := by
      rw [← names]
      exact List.mem_map_of_mem member
    simpa using listed
  obtain ⟨kept,part,content⟩ := holds.content file known
  obtain ⟨events,rest⟩ := all file known
  refine ⟨kept,closed kept _ part rest,AreEvents.of_isPrefix kept _ part events,?_⟩
  rw [← name, content, bytesOf, List.flatMap_def]

namespace Sample
attribute [local instance] FlatJson.externals

/-- The first event of a transaction with these numbers; with `commit` it has 96 bytes. -/
def transaction (gno lastCommitted sequenceNumber : Nat) : Bytes :=
  Events.Sample.encoded (createEvent .gtidLog 0 0 1 0
    (GtidLogPostHeader.encode ⟨0,Gtids.GtidSet.Sample.uuid,gno,2,lastCommitted,sequenceNumber⟩)
    (List.replicate 7 0 ++ [96]) true)

def commit : Bytes := Events.Sample.encoded (createEvent .xid 0 0 1 0 [] [] true)

/-- A session in the rewrite mode over an empty storage. -/
def relay : Session :=
  let s := Storage.Sample.emptyStorage.withPurgedGtids .empty
  ⟨s,readerFor rewriting 80400 s,fun _ => 0,fun _ => 0⟩

theorem relay_connected : ∃ point,
    connect rewriting 80400 [] (fun _ => 0) (fun _ => 0) Storage.Sample.emptyStorage = .ok (point,relay) := ⟨_,rfl⟩

theorem emptyStorage_relayed (admits : Config → Session → List Bytes → Prop) :
    Relayed admits Storage.Sample.emptyStorage :=
  .start (u := ()) rfl

theorem nothing_purged (gtids : GtidSet) (parsed : GtidSet.ofText [] = .ok gtids) : gtids.Valid := by
  obtain rfl : gtids = .empty := by simpa [GtidSet.ofText,eq_comm] using parsed
  exact GtidSet.valid_empty

end Sample

end Session
end BinlogServer.App
