import BinlogServer.App.Files

/-!
# The lifetimes of a storage

The storage of a process goes through any number of sessions, each of them by the events that it processes, and through
the restarts of the process, between two sessions or in the middle of one. What every session keeps of the files is kept
over the whole lifetime.
-/

instance (event : BinlogServer.Events.EventView) : Decidable event.Sound :=
  decidable_of_iff (_ ∧ _ ∧ _) ⟨fun ⟨parts,footer,size⟩ => ⟨parts,footer,size⟩,
    fun sound => ⟨sound.parts,sound.footer,sound.size⟩⟩

instance (event : BinlogServer.Events.EventView) : Decidable event.IsArtificialRotate :=
  decidable_of_iff (_ ∧ _ ∧ _ ∧ _) ⟨fun ⟨code,artificial,timestamp,position⟩ => ⟨code,artificial,timestamp,position⟩,
    fun rotate => ⟨rotate.code,rotate.artificial,rotate.timestamp,rotate.nextPosition⟩⟩

namespace BinlogServer.App
open ByteString Util Gtids Events Store
open Store.Storage (Holds)

namespace Session

section
variable [Externals] {start session : Session} {files front : List LocalFile}

theorem Processes.split {earlier later : List Processed} (processes : Processes start (earlier ++ later) session) :
    ∃ between, Processes start earlier between ∧ Processes between later session := by
  generalize whole : earlier ++ later = trace at processes
  induction processes generalizing later with
  | stay =>
    obtain ⟨rfl,rfl⟩ := List.append_eq_nil_iff.mp whole
    exact ⟨start,.stay,.stay⟩
  | aged before ih =>
    obtain ⟨between,first,second⟩ := ih whole
    exact ⟨between,first,second.aged⟩
  | @event trace m session event before sound processed ih =>
    rcases List.eq_nil_or_concat' later with rfl | ⟨rest,last,rfl⟩
    · rw [List.append_nil] at whole
      rw [whole]
      exact ⟨session,before.event sound processed,.stay⟩
    · rw [← List.append_assoc] at whole
      obtain ⟨parts,same⟩ := List.append_inj' whole rfl
      obtain rfl := List.singleton_inj.mp same
      obtain ⟨between,first,second⟩ := ih parts
      exact ⟨between,first,second.event sound processed⟩

theorem Filed.run (filed : Filed start files) {trace : List Processed} (processes : Processes start trace session) :
    ∃ files', Filed session files' := by
  induction processes with
  | stay => exact ⟨files,filed⟩
  | aged before ih =>
    obtain ⟨files,filed⟩ := ih
    exact ⟨files,filed.aged⟩
  | event before sound processed ih =>
    obtain ⟨files,filed⟩ := ih
    obtain ⟨-,files,-,-,filed⟩ := filed.step sound processed
    exact ⟨files,filed⟩

/-- Where no event is processed, only the calendar has been asked. -/
theorem Processes.idle {files : List LocalFile} (processes : Processes start [] session) (filed : Filed start files) :
    Filed session files ∧ session.storage = start.storage ∧ session.context = start.context := by
  generalize nothing : ([] : List Processed) = trace at processes
  induction processes with
  | stay => exact ⟨filed,rfl,rfl⟩
  | aged before ih =>
    obtain ⟨filed,same⟩ := ih nothing
    exact ⟨filed.aged,same⟩
  | event => simp at nothing

/-- One event is processed. -/
theorem Processes.single {step : Processed} (processes : Processes start [step] session) (filed : Filed start files) :
    (Filed step.before files ∧ step.before.storage = start.storage ∧ step.before.context = start.context) ∧
      step.event.Sound ∧ processBinlogEvent step.event step.before = .ok () step.after ∧
      Processes step.after [] session := by
  generalize one : [step] = trace at processes
  induction processes with
  | stay => cases one
  | aged before ih =>
    obtain ⟨same,sound,processed,rest⟩ := ih one
    exact ⟨same,sound,processed,rest.aged⟩
  | @event trace m session event before sound processed ih =>
    obtain ⟨rfl,rfl⟩ : [] = trace ∧ step = ⟨m,event,session⟩ := by
      have parts : [] ++ [step] = trace ++ [⟨m,event,session⟩] := one
      obtain ⟨first,last⟩ := List.append_inj' parts rfl
      exact ⟨first,List.singleton_inj.mp last⟩
    exact ⟨before.idle filed,sound,processed,.stay⟩

/-- An artificial ROTATE that names another file than the current one closes that one, and the preamble of the new file
    is stored. -/
theorem Filed.rotates {event : EventView} (filed : Filed start files) (sound : event.Sound)
    (processed : processBinlogEvent event start = .ok () session) (artificial : event.IsArtificialRotate)
    {name : CompositeBinlogName} (named : name.str = event.getBodyRaw) (new : name ≠ start.storage.getCurrentBinlogName) :
    Filed session (LocalFile.onLast wholeTransactions files ++ [⟨name,[]⟩]) ∧
      session.context.expectInfoOnlyPreambleEvents = false := by
  obtain ⟨infoOnly,files',step,filing,after⟩ := filed.step sound processed
  constructor
  · cases filing with
    | rotated other rotate named' =>
      obtain rfl : other = name := CompositeBinlogName.str_injective (named'.trans named.symm)
      rwa [if_neg new] at after
    | passed inner => exact absurd artificial.code inner.1
    | written inner nonempty fits => exact absurd artificial.code inner.1
    | ended last nonempty => cases artificial.artificial.symm.trans last.artificial
  · have left : start.context.left.binlogName = start.context.binlogName := by
      unfold ReaderContext.left
      split <;> rfl
    have other : event.getBodyRaw ≠ start.context.left.binlogName := by
      rw [left, filed.joined.named, ← named]
      exact fun equal => new (CompositeBinlogName.str_injective equal)
    rw [(step.rotated artificial).1, ReaderContext.enterBinlog_expectInfoOnlyPreambleEvents]
    simp [other]

/-- A file that is not the last one stays as it is. -/
theorem Filed.keeps {back : List LocalFile} (filed : Filed start (front ++ back)) (more : back ≠ [])
    {trace : List Processed} (processes : Processes start trace session) :
    ∃ back', back' ≠ [] ∧ Filed session (front ++ back') := by
  have onLast : ∀ (f : List EventEntry → List EventEntry) (back : List LocalFile), back ≠ [] →
      LocalFile.onLast f (front ++ back) = front ++ LocalFile.onLast f back ∧ LocalFile.onLast f back ≠ [] := by
    intro f back more
    obtain ⟨rest,last,rfl⟩ := (List.eq_nil_or_concat' back).resolve_left more
    rw [← List.append_assoc, LocalFile.onLast_concat, LocalFile.onLast_concat, List.append_assoc]
    exact ⟨rfl,by simp⟩
  induction processes with
  | stay => exact ⟨back,more,filed⟩
  | aged before ih =>
    obtain ⟨back,more,filed⟩ := ih
    exact ⟨back,more,filed.aged⟩
  | @event trace m session event before sound processed ih =>
    obtain ⟨back,more,filed⟩ := ih
    obtain ⟨infoOnly,files,-,filing,filed⟩ := filed.step sound processed
    cases filing with
    | rotated name rotate named =>
      by_cases same : name = m.storage.getCurrentBinlogName
      · rw [if_pos same] at filed
        exact ⟨back,more,filed⟩
      · rw [if_neg same, (onLast _ back more).1, List.append_assoc] at filed
        exact ⟨_,by simp,filed⟩
    | passed inner => exact ⟨back,more,filed⟩
    | written inner nonempty fits =>
      rw [(onLast _ back more).1] at filed
      exact ⟨_,(onLast _ back more).2,filed⟩
    | ended last nonempty =>
      rw [(onLast _ back more).1] at filed
      exact ⟨_,(onLast _ back more).2,filed⟩

end

/-- A session as far as it has come: what it was set to, the point it has asked for, where it has started, what it has
    processed, where it is, and whether that is the end of the stream. -/
structure Visit where
  config : Config
  point : RestartPoint
  first : Session
  trace : List Processed
  last : Session
  endOfStream : Bool

def Visit.events (visit : Visit) : List EventView := visit.trace.map Processed.event

/-- The storages of the processes that have run, with any number of sessions of the kind that is admitted. -/
inductive Lives [Externals] (admits : Visit → Prop) : Storage → Prop where
  | start {type : BackendType} {mode : ReplicationMode} {checkpoint : Checkpoint} {u : Unit} {s : Storage}
      (constructed : Storage.construct .streaming mode checkpoint { type := type, objects := .empty } = .ok u s) :
      Lives admits s
  | session {s t : Storage} (lives : Lives admits s) {config : Config} {serverVersion : Nat} {gtidPurged : Bytes}
      {clock calendar : Nat → Nat} {point : RestartPoint} {trace : List Processed} {session session' : Session}
      {endOfStream : Bool} {u : Unit}
      (proper : ∀ gtids, GtidSet.ofText gtidPurged = .ok gtids → gtids.Valid)
      (connected : connect config serverVersion gtidPurged clock calendar s = .ok (point,session))
      (processes : Processes session trace session') (admitted : admits ⟨config,point,session,trace,session',endOfStream⟩)
      (disconnected : disconnect endOfStream session'.storage = .ok u t) : Lives admits t
  | restart {s t : Storage} (lives : Lives admits s) {mode : ReplicationMode} {checkpoint : Checkpoint} {u : Unit}
      (constructed : Storage.construct .streaming mode checkpoint s.destroy = .ok u t) : Lives admits t
  /-- The process ends in the middle of a session. -/
  | stopped {s t : Storage} (lives : Lives admits s) {config : Config} {serverVersion : Nat} {gtidPurged : Bytes}
      {clock calendar : Nat → Nat} {point : RestartPoint} {trace : List Processed} {session session' : Session}
      {mode : ReplicationMode} {checkpoint : Checkpoint} {u : Unit}
      (proper : ∀ gtids, GtidSet.ofText gtidPurged = .ok gtids → gtids.Valid)
      (connected : connect config serverVersion gtidPurged clock calendar s = .ok (point,session))
      (processes : Processes session trace session') (admitted : admits ⟨config,point,session,trace,session',false⟩)
      (constructed : Storage.construct .streaming mode checkpoint session'.storage.destroy = .ok u t) : Lives admits t

section
variable [Externals] {admits : Visit → Prop} {s : Storage} {P : List LocalFile → Prop}

/-- What the sessions keep, and is kept where events at the end of the last file are dropped, is kept. -/
theorem Lives.files (empty : P [])
    (cut : ∀ (f : List EventEntry → List EventEntry) files, (∀ entries, f entries <+: entries) → P files →
      P (LocalFile.onLast f files))
    (session : ∀ config serverVersion gtidPurged clock calendar s files point session trace session' endOfStream,
      connect config serverVersion gtidPurged clock calendar s = .ok (point,session) → Holds s files → P files →
      Filed session files → Processes session trace session' → admits ⟨config,point,session,trace,session',endOfStream⟩ →
      ∃ files', Filed session' files' ∧ P files')
    (lives : Lives admits s) : ∃ files, Holds s files ∧ (∀ file ∈ files, AreEvents file.entries) ∧ P files := by
  induction lives with
  | start constructed => exact ⟨[],Holds.start constructed,by simp,empty⟩
  | session lives proper connected processes admitted disconnected ih =>
    obtain ⟨files,holds,events,kept⟩ := ih
    have filed := Filed.connect holds events proper connected
    obtain ⟨files,filed,kept⟩ := session _ _ _ _ _ _ files _ _ _ _ _ connected holds kept filed processes admitted
    refine ⟨_,disconnect_holds filed.holds disconnected,?_,?_⟩
    · split
      · exact filed.events
      · exact LocalFile.forall_onLast AreEvents.of_isPrefix wholeTransactions_isPrefix filed.events
    · split
      · exact kept
      · exact cut _ files wholeTransactions_isPrefix kept
  | restart lives constructed ih =>
    obtain ⟨files,holds,events,kept⟩ := ih
    obtain ⟨size,holds⟩ := holds.restart constructed
    exact ⟨_,holds,LocalFile.forall_onLast AreEvents.of_isPrefix (eventsWithin_isPrefix size) events,
      cut _ files (eventsWithin_isPrefix size) kept⟩
  | stopped lives proper connected processes admitted constructed ih =>
    obtain ⟨files,holds,events,kept⟩ := ih
    have filed := Filed.connect holds events proper connected
    obtain ⟨files,filed,kept⟩ := session _ _ _ _ _ _ files _ _ _ _ _ connected holds kept filed processes admitted
    obtain ⟨size,holds⟩ := filed.holds.restart constructed
    exact ⟨_,holds,LocalFile.forall_onLast AreEvents.of_isPrefix (eventsWithin_isPrefix size) filed.events,
      cut _ files (eventsWithin_isPrefix size) kept⟩

theorem Lives.holds (lives : Lives admits s) : ∃ files, Holds s files ∧ ∀ file ∈ files, AreEvents file.entries := by
  obtain ⟨files,holds,events,-⟩ := lives.files (P := fun _ => True) trivial (fun _ _ _ _ => trivial) (by
    intro _ _ _ _ _ _ files _ _ _ _ _ _ _ _ filed processes _
    obtain ⟨files,filed⟩ := filed.run processes
    exact ⟨files,filed,trivial⟩)
  exact ⟨files,holds,events⟩

/-- Sessions of one kind are sessions of a wider kind. -/
theorem Lives.mono {admits' : Visit → Prop} (wider : ∀ visit, admits visit → admits' visit) (lives : Lives admits s) :
    Lives admits' s := by
  induction lives with
  | start constructed => exact .start constructed
  | session _ proper connected processes admitted disconnected ih =>
    exact ih.session proper connected processes (wider _ admitted) disconnected
  | restart _ constructed ih => exact ih.restart constructed
  | stopped _ proper connected processes admitted constructed ih =>
    exact ih.stopped proper connected processes (wider _ admitted) constructed

end

namespace Sample
attribute [local instance] FlatJson.externals

/-- The events are processed one after the other. -/
def follow : List EventView → Session → Option (List Processed × Session)
  | [], session => some ([],session)
  | event :: rest, session =>
    match processBinlogEvent event session with
    | .ok _ next => (follow rest next).map fun (trace,last) => (⟨session,event,next⟩ :: trace,last)
    | .error .. => none

theorem follow_processes {events : List EventView} {start m session : Session} {earlier trace : List Processed}
    (followed : follow events m = some (trace,session)) (sound : ∀ event ∈ events, event.Sound)
    (before : Processes start earlier m) :
    Processes start (earlier ++ trace) session ∧ trace.map Processed.event = events := by
  induction events generalizing m earlier trace with
  | nil =>
    obtain ⟨rfl,rfl⟩ : [] = trace ∧ m = session := by simpa [follow] using followed
    exact ⟨by simpa using before,rfl⟩
  | cons event rest ih =>
    unfold follow at followed
    split at followed
    · rename_i next processed
      obtain ⟨⟨later,last⟩,going,same⟩ := Option.map_eq_some_iff.mp followed
      obtain ⟨rfl,rfl⟩ := Prod.mk.inj same
      rw [List.forall_mem_cons] at sound
      obtain ⟨processes,events⟩ := ih going sound.2 (before.event sound.1 processed)
      exact ⟨by simpa using processes,by simp [events]⟩
    · cases followed

theorem emptyStorage_lives (admits : Visit → Prop) : Lives admits Storage.Sample.emptyStorage :=
  .start (u := ()) rfl

/-- The first event of a transaction of 96 bytes. -/
def firstEvent : EventView :=
  ⟨Events.Sample.encoded (createEvent .gtidLog 154 0 1 0
    (GtidLogPostHeader.encode ⟨0,Gtids.GtidSet.Sample.uuid,1,2,0,1⟩) (List.replicate 7 0 ++ [96]) false),42,0⟩

end Sample
end Session
end BinlogServer.App
