import BinlogServer.App.Lifetimes
import BinlogServer.Store.HeldGtids

/-!
# What a source is asked for in the mode for gtids

The restart point of a session has the gtids of the transactions that have left the buffer. Where the session before it
was ended by a lost connection, these are the transactions that are held; after the end of the stream whole transactions
may be left in the buffer. If the sessions are ended so that nothing is left, a source that sends what is missing
from the restart point is never sent for the same transaction twice.
-/

namespace BinlogServer.App
open ByteString Util Gtids Events Store
open Store.Storage (Holds)

namespace Session

section
variable [Externals] {admits : Visit → Prop} {s t : Storage} {config : Config}
  {serverVersion : Nat} {gtidPurged : Bytes} {clock calendar : Nat → Nat} {start : Session} {files : List LocalFile}

/-- In the mode for gtids the restart point is the gtids of the storage. -/
theorem restartPoint_gtids (holds : Holds start.storage files) {encoded : Bytes}
    (connected : connect config serverVersion gtidPurged clock calendar s = .ok (.gtids encoded,start)) :
    start.storage.replicationMode = .gtid ∧ GtidSet.ofBytes encoded = .ok start.storage.getGtids := by
  obtain ⟨t,switched,rfl⟩ := connect_ok connected
  rcases switchToReplication_ok switched with ⟨mode,changed,encoded',rest,written,same⟩ | ⟨-,-,point⟩
  · obtain rfl := RestartPoint.gtids.inj same
    have kept : t.replicationMode = s.replicationMode := by
      split at changed
      · obtain ⟨purged,-,rfl⟩ := changed
        rfl
      · rw [changed]
    refine ⟨by simpa [kept,Storage.isInGtidReplicationMode] using mode,?_⟩
    obtain ⟨log,history,run,-⟩ := holds
    exact run.consistent.getGtids_valid.ofBytes_of_encodeTo written
  · split at point <;> cases point

/-- The gtids of the storage are those of what is held unless there is another transaction in the buffer. -/
theorem getGtids_exact_iff (holds : Holds s files) (mode : s.replicationMode = .gtid) :
    (∀ gtid, s.getGtids.contains gtid ↔ s.basis.contains gtid ∨ ∃ file ∈ files, Commits file.entries gtid) ↔
      ∀ gtid, s.buffer.gtids.contains gtid → s.getGtids.contains gtid := by
  constructor
  · intro exact gtid buffered
    exact (exact gtid).mpr ((holds.contains mode gtid).mp (.inr buffered))
  · intro covered gtid
    rw [← holds.contains mode gtid]
    exact ⟨.inl,fun either => either.elim id (covered gtid)⟩

/-- The restart point has exactly the transactions that are held, and these are whole, if and only if no other
    transaction and no part of one is left in the buffer. -/
theorem restart_point_exact_iff (lives : Lives admits s)
    (proper : ∀ gtids, GtidSet.ofText gtidPurged = .ok gtids → gtids.Valid) {encoded : Bytes}
    (connected : connect config serverVersion gtidPurged clock calendar s = .ok (.gtids encoded,start)) :
    ∃ gtids files, GtidSet.ofBytes encoded = .ok gtids ∧ Holds start.storage files ∧
      ((∀ gtid, gtids.contains gtid ↔
          start.storage.basis.contains gtid ∨ ∃ file ∈ files, Commits file.entries gtid) ∧
        (∀ file ∈ files, EndsMarked EventEntry.atTransactionBoundary file.entries) ↔
      (∀ gtid, start.storage.buffer.gtids.contains gtid → gtids.contains gtid) ∧
        start.storage.buffer.lastTransactionBoundaryPosition = start.storage.buffer.data.length) := by
  obtain ⟨files,holds,events⟩ := lives.holds
  have held := (Filed.connect holds events proper connected).holds
  obtain ⟨mode,read⟩ := restartPoint_gtids held connected
  exact ⟨_,files,read,held,and_congr (getGtids_exact_iff held mode) held.whole_iff⟩

end

/-- The transaction that begins with an event, by its gtid. -/
def begins (event : EventView) : Option Gtid :=
  match event.transactionInfo with
  | .ok (gtid,_) => if gtid.isEmpty then none else some gtid
  | .error _ => none

/-- The transaction that begins with a stored event. -/
def starts (entry : EventEntry) : Option Gtid :=
  if (CommonHeader.getTypeCode entry.data).isGtid ∧ ¬ entry.transactionGtid.isEmpty then some entry.transactionGtid else none

theorem starts_eq_some {entry : EventEntry} {gtid : Gtid} (starting : starts entry = some gtid) :
    ¬ gtid.isEmpty ∧ entry.transactionGtid = gtid := by
  unfold starts at starting
  split at starting
  · rename_i both
    obtain rfl := Option.some.inj starting
    exact ⟨both.2,rfl⟩
  · cases starting

/-- An event that begins a transaction is stored with its gtid. -/
theorem starts_entryFor {context context' : ReaderContext} {event : EventView} {infoOnly : Bool}
    (step : ReaderContext.Step context event infoOnly context') (nonempty : event.portion ≠ []) :
    starts (entryFor event context' nonempty) = begins event := by
  have type : (CommonHeader.getTypeCode (entryFor event context' nonempty).data) = event.getTypeCode := rfl
  unfold starts begins
  rw [type]
  by_cases first : event.getTypeCode.isGtid = true
  · cases step with
    | gtid gtid sequenceNumber length start code known info =>
      rw [info]
      by_cases empty : gtid.isEmpty
      · rw [if_neg (fun both => both.2 empty)]
        exact (if_pos empty).symm
      · rw [if_pos ⟨first,empty⟩]
        exact (if_neg empty).symm
    | artificialRotate start rotate => simp [rotate.code,CodeType.isGtid] at first
    | formatDescription layout start code => simp [code,CodeType.isGtid] at first
    | previousGtids start code => simp [code,CodeType.isGtid] at first
    | other start plain => cases plain.1.symm.trans first
    | terminator start last => rcases last.code with code | code <;> simp [code,CodeType.isGtid] at first
  · rw [if_neg (fun both => first both.1)]
    unfold EventView.transactionInfo
    cases code : event.getTypeCode with
    | anonymousGtidLog => simp [code,CodeType.isGtid] at first
    | gtidLog => simp [code,CodeType.isGtid] at first
    | gtidTaggedLog => simp [code,CodeType.isGtid] at first
    | _ => rfl

/-- After an event of a transaction that has not ended comes one of the same transaction. -/
def Tied (entry next : EventEntry) : Prop :=
  entry.atTransactionBoundary = false → ¬ entry.transactionGtid.isEmpty → next.transactionGtid = entry.transactionGtid

/-- Where a file has whole transactions, those that begin in it end in it. -/
theorem commits_of_tied {entries : List EventEntry} (tied : entries.IsChain Tied)
    (ends : EndsMarked EventEntry.atTransactionBoundary entries) :
    ∀ entry ∈ entries, ¬ entry.transactionGtid.isEmpty → Commits entries entry.transactionGtid := by
  induction entries with
  | nil => simp
  | cons first rest ih =>
    intro entry member some
    cases rest with
    | nil =>
      obtain rfl := List.mem_singleton.mp member
      exact ⟨entry,member,ends entry rfl,some,rfl⟩
    | cons next rest =>
      obtain ⟨follows,tied⟩ := List.isChain_cons_cons.mp tied
      have ends : EndsMarked EventEntry.atTransactionBoundary (next :: rest) := fun last known => ends last known
      have later : ∀ other ∈ next :: rest, ¬ other.transactionGtid.isEmpty →
          Commits (first :: next :: rest) other.transactionGtid := by
        intro other known some
        obtain ⟨last,there,committed⟩ := ih tied ends other known some
        exact ⟨last,List.mem_cons_of_mem _ there,committed⟩
      rcases List.mem_cons.mp member with rfl | known
      · cases marked : entry.atTransactionBoundary with
        | true => exact ⟨entry,member,marked,some,rfl⟩
        | false =>
          have same := follows marked some
          rw [← same] at some ⊢
          exact later next (by simp) some
      · exact later entry known some

/-- The reader is where the events end: in the transaction of the last one, if that has not ended. -/
def GoesOn (context : ReaderContext) (entries : List EventEntry) : Prop :=
  ∀ last ∈ entries.getLast?, last.atTransactionBoundary = false → ¬ last.transactionGtid.isEmpty →
    context.state = .anyOtherExpected ∧ context.currentTransactionLength ≠ context.expectedTransactionLength ∧
      context.transactionGtid = last.transactionGtid

/-- Outside of a transaction there is nothing to be continued. -/
theorem GoesOn.outside {context : ReaderContext} {entries : List EventEntry} (goesOn : GoesOn context entries)
    (outside : context.state = .anyOtherExpected →
      context.currentTransactionLength = context.expectedTransactionLength) (next : ReaderContext) :
    GoesOn next entries := by
  intro last member unmarked some
  obtain ⟨state,inside,-⟩ := goesOn last member unmarked some
  exact absurd (outside state) inside

section
variable {context context' : ReaderContext} {event : EventView} {infoOnly : Bool} {entries : List EventEntry}

/-- An event for information only does not come inside of a transaction. -/
theorem outside_of_infoOnly (step : ReaderContext.Step context event infoOnly context') (info : infoOnly = true)
    (state : context.state = .anyOtherExpected) :
    context.currentTransactionLength = context.expectedTransactionLength := by
  cases step with
  | artificialRotate start rotate =>
    rcases start with start | start | ⟨-,ended⟩
    · cases state.symm.trans start
    · cases state.symm.trans start
    · exact ended
  | formatDescription layout start => cases state.symm.trans start
  | previousGtids start => cases state.symm.trans start
  | gtid => cases info
  | other => cases info
  | terminator => cases info

/-- The event after one of a transaction that has not ended is of the same transaction. -/
theorem GoesOn.tied (goesOn : GoesOn context entries) (step : ReaderContext.Step context event infoOnly context')
    (nonempty : event.portion ≠ []) (tied : entries.IsChain Tied) :
    (entries ++ [entryFor event context' nonempty]).IsChain Tied := by
  refine List.isChain_append.mpr ⟨tied,List.isChain_singleton _,?_⟩
  intro last member next new unmarked some
  obtain rfl : entryFor event context' nonempty = next := by simpa using new
  obtain ⟨state,inside,same⟩ := goesOn last member unmarked some
  have between : ¬ context.Between := by
    rintro (other | ⟨-,ended⟩)
    · cases state.symm.trans other
    · exact inside ended
  cases step with
  | artificialRotate start rotate =>
    rcases start with start | start
    · cases state.symm.trans start
    · exact absurd start between
  | formatDescription layout start => cases state.symm.trans start
  | previousGtids start => cases state.symm.trans start
  | gtid _ _ _ start => exact absurd start between
  | other => exact same
  | terminator start => exact absurd start between

theorem goesOn_entryFor (settled : context'.Settled) (nonempty : event.portion ≠ []) :
    GoesOn context' (entries ++ [entryFor event context' nonempty]) := by
  intro last member unmarked some
  obtain rfl : entryFor event context' nonempty = last := by simpa using member
  have state : context'.state = .anyOtherExpected := by
    by_contra outside
    exact some (by rw [show (entryFor event context' nonempty).transactionGtid = .empty from (settled.idle outside).gtid]; decide)
  refine ⟨state,?_,rfl⟩
  have boundary : context'.isAtTransactionBoundary = false := unmarked
  simpa [ReaderContext.isAtTransactionBoundary,state] using boundary

end

/-- The events of a file as they were told to the storage: after an event of a transaction come the others of it, and the
    transaction that an event begins is the one that its bytes name. -/
structure Told (entries : List EventEntry) : Prop where
  tied : entries.IsChain Tied
  named : ∀ entry ∈ entries, ∃ event : EventView, event.portion = entry.data ∧ begins event = starts entry

theorem Told.nil : Told [] := ⟨.nil,by simp⟩

theorem Told.of_isPrefix (front entries : List EventEntry) (part : front <+: entries) (told : Told entries) : Told front := by
  obtain ⟨rest,rfl⟩ := part
  exact ⟨told.tied.left_of_append,fun entry member => told.named entry (List.mem_append_left rest member)⟩

theorem Told.concat {context context' : ReaderContext} {event : EventView} {infoOnly : Bool} {entries : List EventEntry}
    (told : Told entries) (goesOn : GoesOn context entries) (step : ReaderContext.Step context event infoOnly context')
    (nonempty : event.portion ≠ []) : Told (entries ++ [entryFor event context' nonempty]) := by
  refine ⟨goesOn.tied step nonempty told.tied,?_⟩
  rw [List.forall_mem_append, List.forall_mem_singleton]
  exact ⟨told.named,event,rfl,(starts_entryFor step nonempty).symm⟩

/-- The transactions that begin in the files. -/
def startedIn (files : List LocalFile) : List Gtid := files.flatMap fun file => file.entries.filterMap starts

theorem startedIn_append (front back : List LocalFile) : startedIn (front ++ back) = startedIn front ++ startedIn back :=
  List.flatMap_append

/-- Where the end of the last file is dropped, no transaction is added. -/
theorem startedIn_onLast {f : List EventEntry → List EventEntry} (part : ∀ entries, f entries <+: entries)
    (files : List LocalFile) : (startedIn (LocalFile.onLast f files)).Sublist (startedIn files) := by
  induction files using List.reverseRecOn with
  | nil => exact .refl _
  | append_singleton front file =>
    rw [LocalFile.onLast_concat, startedIn_append, startedIn_append]
    refine (List.append_sublist_append_left _).mpr ?_
    simpa [startedIn] using (part file.entries).sublist.filterMap starts

/-- The files of a session, and where its reader is in them. -/
structure Orderly [Externals] (session : Session) (files : List LocalFile) : Prop where
  filed : Filed session files
  told : ∀ file ∈ files, Told file.entries
  goesOn : ∀ file ∈ files.getLast?, GoesOn session.context file.entries

section
variable [Externals] {s t : Storage} {config : Config} {serverVersion : Nat} {gtidPurged : Bytes}
  {clock calendar : Nat → Nat} {start session : Session} {files : List LocalFile} {event : EventView}

theorem Orderly.step (orderly : Orderly start files) (sound : event.Sound)
    (processed : processBinlogEvent event start = .ok () session) :
    ∃ files', Orderly session files' ∧ (startedIn files').Sublist (startedIn files ++ (begins event).toList) := by
  obtain ⟨filed,told,goesOn⟩ := orderly
  obtain ⟨infoOnly,files',step,filing,after⟩ := filed.step sound processed
  suffices stored : ∀ nonempty,
      let entry := entryFor event session.context nonempty
      Filed session (LocalFile.onLast (· ++ [entry]) files) →
      Orderly session (LocalFile.onLast (· ++ [entry]) files) ∧
        (startedIn (LocalFile.onLast (· ++ [entry]) files)).Sublist (startedIn files ++ (begins event).toList) by
    cases filing with
    | rotated name rotate named =>
      by_cases same : name = start.storage.getCurrentBinlogName
      · rw [if_pos same] at after
        exact ⟨files,⟨after,told,fun file last => (goesOn file last).outside (outside_of_infoOnly step rfl) _⟩,
          List.sublist_append_left ..⟩
      · rw [if_neg same] at after
        refine ⟨_,⟨after,?_,?_⟩,?_⟩
        · rw [List.forall_mem_append, List.forall_mem_singleton]
          exact ⟨LocalFile.forall_onLast Told.of_isPrefix wholeTransactions_isPrefix told,.nil⟩
        · intro file last
          obtain rfl : ⟨name,[]⟩ = file := by simpa using last
          simp [GoesOn]
        · have nothing : startedIn [⟨name,[]⟩] = [] := rfl
          rw [startedIn_append, nothing, List.append_nil]
          exact (startedIn_onLast wholeTransactions_isPrefix files).trans (List.sublist_append_left ..)
    | passed inner =>
      exact ⟨files,⟨after,told,fun file last => (goesOn file last).outside (outside_of_infoOnly step rfl) _⟩,
        List.sublist_append_left ..⟩
    | written inner nonempty fits => exact ⟨_,stored nonempty after⟩
    | ended last nonempty => exact ⟨_,stored nonempty after⟩
  intro nonempty entry after
  induction files using List.reverseRecOn with
  | nil => exact ⟨⟨after,told,by simp⟩,List.nil_sublist _⟩
  | append_singleton front file =>
    rw [LocalFile.onLast_concat] at after ⊢
    have current := goesOn file (by simp)
    refine ⟨⟨after,?_,?_⟩,?_⟩
    · exact LocalFile.forall_concat told ((told file (by simp)).concat current step nonempty)
    · intro last member
      obtain rfl : ⟨file.name,file.entries ++ [entry]⟩ = last := by simpa using member
      exact goesOn_entryFor after.joined.sound.settled nonempty
    · have begun : [entry].filterMap starts = (begins event).toList := by
        rw [← starts_entryFor step nonempty]
        cases starting : starts entry <;> simp [starting,entry]
      simp only [startedIn_append, List.append_assoc]
      refine (List.append_sublist_append_left _).mpr ?_
      simp [startedIn,List.filterMap_append,← begun]

theorem Orderly.run (orderly : Orderly start files) {trace : List Processed} (processes : Processes start trace session) :
    ∃ files', Orderly session files' ∧
      (startedIn files').Sublist (startedIn files ++ (trace.map Processed.event).filterMap begins) := by
  induction processes with
  | stay => exact ⟨files,orderly,by simp⟩
  | aged before ih =>
    obtain ⟨files,orderly,part⟩ := ih
    exact ⟨files,⟨orderly.filed.aged,orderly.told,orderly.goesOn⟩,part⟩
  | @event trace m session event before sound processed ih =>
    obtain ⟨files,orderly,part⟩ := ih
    obtain ⟨files,orderly,more⟩ := orderly.step sound processed
    refine ⟨files,orderly,more.trans ?_⟩
    rw [List.map_append, List.map_singleton, List.filterMap_append, ← List.append_assoc]
    have same : [event].filterMap begins = (begins event).toList := by cases begun : begins event <;> simp [begun]
    rw [same]
    exact (List.append_sublist_append_right _).mpr part

/-- A source that keeps to the restart points: it sends no transaction that the point has and none twice, until the
    connection is lost or the process ends. -/
def Honours (visit : Visit) : Prop :=
  visit.endOfStream = false ∧ ∃ encoded gtids, visit.point = .gtids encoded ∧ GtidSet.ofBytes encoded = .ok gtids ∧
    (visit.events.filterMap begins).Nodup ∧ ∀ gtid ∈ visit.events.filterMap begins, ¬ gtids.contains gtid

/-- Nothing is in the buffer. -/
structure Unbuffered (s : Storage) : Prop where
  data : s.buffer.data = []
  boundary : s.buffer.lastTransactionBoundaryPosition = 0
  gtids : ∀ gtid, ¬ s.buffer.gtids.contains gtid

/-- Between two sessions: the files have whole transactions, each of them once, and all are recorded. -/
structure Once (s : Storage) (files : List LocalFile) : Prop where
  holds : Holds s files
  events : ∀ file ∈ files, AreEvents file.entries
  told : ∀ file ∈ files, Told file.entries
  once : (startedIn files).Nodup
  whole : ∀ file ∈ files, EndsMarked EventEntry.atTransactionBoundary file.entries
  unbuffered : Unbuffered s

/-- A transaction in the files is one of the gtids of the storage. -/
theorem Once.recorded (once : Once s files) (mode : s.replicationMode = .gtid) :
    ∀ gtid ∈ startedIn files, s.getGtids.contains gtid := by
  intro gtid member
  obtain ⟨file,known,member⟩ := List.mem_flatMap.mp member
  obtain ⟨entry,there,starting⟩ := List.mem_filterMap.mp member
  obtain ⟨some,rfl⟩ := starts_eq_some starting
  have committed := commits_of_tied (once.told file known).tied (once.whole file known) entry there some
  exact ((once.holds.contains mode _).mpr (.inr ⟨file,known,committed⟩)).resolve_right (once.unbuffered.gtids _)

/-- What is left where the end of the last file is dropped and the buffer is empty. -/
theorem Once.cut {f : List EventEntry → List EventEntry} (part : ∀ entries, f entries <+: entries)
    (holds : Holds s (LocalFile.onLast f files)) (events : ∀ file ∈ files, AreEvents file.entries)
    (told : ∀ file ∈ files, Told file.entries) (once : (startedIn files).Nodup) (unbuffered : Unbuffered s) :
    Once s (LocalFile.onLast f files) where
  holds := holds
  events := LocalFile.forall_onLast AreEvents.of_isPrefix part events
  told := LocalFile.forall_onLast Told.of_isPrefix part told
  once := once.sublist (startedIn_onLast part files)
  whole := holds.whole_iff.mpr (by rw [unbuffered.boundary, unbuffered.data]; rfl)
  unbuffered := unbuffered

omit [Externals] in
theorem connect_buffer {point : RestartPoint}
    (connected : connect config serverVersion gtidPurged clock calendar s = .ok (point,start)) :
    start.storage.buffer = s.buffer := by
  obtain ⟨t,switched,rfl⟩ := connect_ok connected
  rcases switchToReplication_ok switched with ⟨-,changed,-⟩ | ⟨-,rfl,-⟩
  · split at changed
    · obtain ⟨purged,-,rfl⟩ := changed
      rfl
    · rw [changed]
  · rfl

/-- A session that is served by such a source. -/
theorem Once.served (once : Once s files)
    (proper : ∀ gtids, GtidSet.ofText gtidPurged = .ok gtids → gtids.Valid) {point : RestartPoint}
    (connected : connect config serverVersion gtidPurged clock calendar s = .ok (point,start)) {trace : List Processed}
    (processes : Processes start trace session) {endOfStream : Bool}
    (honours : Honours ⟨config,point,start,trace,session,endOfStream⟩) :
    ∃ files', Orderly session files' ∧ (startedIn files').Nodup := by
  obtain ⟨-,encoded,gtids,rfl,read,distinct,missing⟩ := honours
  have filed := Filed.connect once.holds once.events proper connected
  obtain ⟨mode,same⟩ := restartPoint_gtids filed.holds connected
  obtain rfl : start.storage.getGtids = gtids := Except.ok.inj (same.symm.trans read)
  have unbuffered : Unbuffered start.storage := by
    obtain ⟨data,boundary,gtids⟩ := once.unbuffered
    rw [← connect_buffer connected] at data boundary gtids
    exact ⟨data,boundary,gtids⟩
  have begun : Once start.storage files := ⟨filed.holds,once.events,once.told,once.once,once.whole,unbuffered⟩
  have orderly : Orderly start files := by
    refine ⟨filed,once.told,fun file last entry member unmarked => ?_⟩
    cases unmarked.symm.trans (once.whole file (List.mem_of_getLast? last) entry member)
  obtain ⟨files',orderly,part⟩ := orderly.run processes
  refine ⟨files',orderly,List.Nodup.sublist part (List.nodup_append.mpr ⟨once.once,distinct,?_⟩)⟩
  rintro gtid old _ new rfl
  exact missing gtid new (begun.recorded mode gtid old)

/-- Where a connection is lost, the buffer is emptied. -/
theorem disconnect_empties {u : Unit} (holds : Holds s files) (disconnected : disconnect false s = .ok u t) :
    Unbuffered t := by
  obtain ⟨_,m,discarded,flushed⟩ := Action.bind_eq_ok.mp disconnected
  have between := @Holds.step _ s m files holds .discardIncompleteTransactionEvents 0 _ rfl discarded
  obtain rfl : m = s.withBuffer s.buffer.discard := by
    simp only [Storage.discardIncompleteTransactionEvents, Action.bind_eq_ok, Storage.ensureStreamingMode_eq_ok,
      Action.modify_eq_ok] at discarded
    obtain ⟨_,_,⟨-,rfl⟩,rfl⟩ := discarded
    rfl
  obtain ⟨log,tracked⟩ := between.tracked
  cases log with
  | none =>
    have same := Storage.flushEventBuffer_idle tracked.2.boundary
    rw [Action.after_ok flushed] at same
    rw [same]
    exact ⟨tracked.2.data,tracked.2.boundary,tracked.2.gtids⟩
  | some log =>
    obtain ⟨sound,record,stream,journal,journaled⟩ := tracked
    have accounted := journaled.accounted.gtids
    rcases Storage.flushEventBuffer_ok sound.healthy journaled.opened journaled.last flushed with ⟨rfl,none⟩ | ⟨-,-,rfl⟩
    · -- there was no whole transaction in the buffer
      have none : s.buffer.lastTransactionBoundaryPosition = 0 := by simpa [EventBuffer.hasEventDataToFlush] using none
      have boundary := journaled.boundary
      rw [Storage.withBuffer_buffer, EventBuffer.discard_lastTransactionBoundaryPosition, none] at boundary
      have empty := bytesOf_eq_nil (List.length_eq_zero_iff.mp boundary.symm)
      refine ⟨by simp [none],none,fun gtid => ?_⟩
      rw [accounted, empty]
      simp
    · refine ⟨by simp,rfl,fun gtid => ?_⟩
      rw [Storage.flushed_buffer, EventBuffer.flushed_gtids]
      split
      · exact GtidSet.not_contains_empty gtid
      · rename_i position
        rw [accounted]
        exact fun both => position both.1

theorem Unbuffered.constructed {type : BackendType} {mode : ReplicationMode} {checkpoint : Checkpoint} {u : Unit}
    (constructed : Storage.construct .streaming mode checkpoint { type := type, objects := .empty } = .ok u s) :
    Unbuffered s := by
  obtain ⟨-,idle⟩ := (Storage.Run.start constructed).tracked
  exact ⟨idle.data,idle.boundary,idle.gtids⟩

/-- The next process starts with an empty buffer. -/
theorem Unbuffered.restarted {mode : ReplicationMode} {checkpoint : Checkpoint} {u : Unit} (holds : Holds s files)
    (constructed : Storage.construct .streaming mode checkpoint s.destroy = .ok u t) : Unbuffered t := by
  obtain ⟨log,tracked⟩ := holds.tracked
  obtain ⟨-,idle⟩ := tracked.restart constructed
  exact ⟨idle.data,idle.boundary,idle.gtids⟩

/-- The storage of the next process. -/
theorem Once.restarted {mode : ReplicationMode} {checkpoint : Checkpoint} {u : Unit} (holds : Holds s files)
    (events : ∀ file ∈ files, AreEvents file.entries) (told : ∀ file ∈ files, Told file.entries)
    (once : (startedIn files).Nodup)
    (constructed : Storage.construct .streaming mode checkpoint s.destroy = .ok u t) : ∃ files', Once t files' := by
  have unbuffered := Unbuffered.restarted holds constructed
  obtain ⟨size,holds⟩ := holds.restart constructed
  exact ⟨_,.cut (eventsWithin_isPrefix size) holds events told once unbuffered⟩

/-- A source that keeps to the restart points sends no transaction twice. -/
theorem Lives.once (lives : Lives Honours s) : ∃ files, Once s files := by
  induction lives with
  | start constructed => exact ⟨[],Holds.start constructed,by simp,by simp,.nil,by simp,.constructed constructed⟩
  | session lives proper connected processes admitted disconnected ih =>
    obtain ⟨files,once⟩ := ih
    obtain ⟨files,orderly,distinct⟩ := once.served proper connected processes admitted
    obtain rfl := admitted.1
    have unbuffered := disconnect_empties orderly.filed.holds disconnected
    exact ⟨_,.cut wholeTransactions_isPrefix (disconnect_holds orderly.filed.holds disconnected) orderly.filed.events
      orderly.told distinct unbuffered⟩
  | restart lives constructed ih =>
    obtain ⟨files,once⟩ := ih
    exact Once.restarted once.holds once.events once.told once.once constructed
  | stopped lives proper connected processes admitted constructed ih =>
    obtain ⟨files,once⟩ := ih
    obtain ⟨files,orderly,distinct⟩ := once.served proper connected processes admitted
    exact Once.restarted orderly.filed.holds orderly.filed.events orderly.told distinct constructed

end
section
attribute [local instance] FlatJson.externals

namespace Sample

/-- A session in the mode for gtids over an empty storage without checkpoints. -/
def asking : Session :=
  let s := quiet.withPurgedGtids .empty
  sessionOf s (readerFor config 80400 s)

/-- What remains of a storage after a lost connection. -/
def lost (s : Storage) : Option Storage :=
  match disconnect false s with
  | .ok _ t => some t
  | .error .. => none

theorem lost_eq_some {s t : Storage} (left : lost s = some t) : disconnect false s = .ok () t := by
  unfold lost at left
  split at left
  · rename_i disconnected
    obtain rfl := Option.some.inj left
    exact disconnected
  · cases left

def oneTransaction : List EventView :=
  [rotate,description,previousGtids,firstEvent,⟨Events.Sample.xid 223,0,0⟩]

private theorem firstGtid_valid : (GtidSet.Sample.uuid = .nil ∧ Tag.none = .none ∧ 1 = 0) ∨
    (¬ GtidSet.Sample.uuid.isEmpty ∧ minGno ≤ 1 ∧ 1 ≤ maxGno) := by decide

def firstGtid : Gtid := ⟨GtidSet.Sample.uuid,.none,1,firstGtid_valid⟩

theorem asking_lives (admits : Visit → Prop) : Lives admits quiet := .start (u := ()) rfl

theorem asking_connected : ∃ encoded,
    connect config 80400 [] (fun _ => 0) (fun _ => 0) quiet = .ok (.gtids encoded,asking) := ⟨_,rfl⟩

/-- The session with its transaction. -/
theorem oneTransaction_processed : ∃ steps session, follow oneTransaction asking = some (steps,session) ∧
    Processes asking steps session ∧ steps.map Processed.event = oneTransaction := by
  have known : (follow oneTransaction asking).isSome = true := by decide +kernel
  obtain ⟨⟨steps,session⟩,followed⟩ := Option.isSome_iff_exists.mp known
  obtain ⟨processes,events⟩ := follow_processes followed (by decide +kernel) .stay
  exact ⟨steps,session,followed,processes,events⟩

end Sample

/-- After the end of the stream a transaction is left in the buffer, and it is asked for again. -/
theorem restart_point_exact_iff_buffered : ∃ s encoded start gtids files, Lives (fun _ => True) s ∧
    connect Sample.config 80400 [] (fun _ => 0) (fun _ => 0) s = .ok (.gtids encoded,start) ∧
    GtidSet.ofBytes encoded = .ok gtids ∧ Holds start.storage files ∧
    ¬ ((∀ gtid, gtids.contains gtid ↔
        start.storage.basis.contains gtid ∨ ∃ file ∈ files, Commits file.entries gtid) ∧
      ∀ file ∈ files, EndsMarked EventEntry.atTransactionBoundary file.entries) := by
  obtain ⟨encoded,connected⟩ := Sample.asking_connected
  obtain ⟨steps,session,followed,processes,-⟩ := Sample.oneTransaction_processed
  have disconnected : disconnect true session.storage = .ok () session.storage := rfl
  have lives := (Sample.asking_lives fun _ => True).session Sample.nothing_purged connected processes trivial disconnected
  have known : (Sample.follow Sample.oneTransaction Sample.asking).bind (fun found =>
      match connect Sample.config 80400 [] (fun _ => 0) (fun _ => 0) found.2.storage with
      | .ok (.gtids _,start) => some (decide (start.storage.buffer.gtids.contains Sample.firstGtid),
          decide (start.storage.getGtids.contains Sample.firstGtid))
      | _ => none) = some (true,false) := by decide +kernel
  rw [followed, Option.bind_some] at known
  split at known
  · rename_i encoded' start connected'
    obtain ⟨buffered,missing⟩ : start.storage.buffer.gtids.contains Sample.firstGtid ∧
        ¬ start.storage.getGtids.contains Sample.firstGtid := by simpa using known
    obtain ⟨gtids,files,read,holds,same⟩ := restart_point_exact_iff lives Sample.nothing_purged connected'
    obtain rfl : start.storage.getGtids = gtids :=
      Except.ok.inj ((restartPoint_gtids holds connected').2.symm.trans read)
    exact ⟨session.storage,encoded',start,_,files,lives,connected',read,holds,
      fun exact => missing ((same.mp exact).1 Sample.firstGtid buffered)⟩
  · cases known

end

end Session
end BinlogServer.App
