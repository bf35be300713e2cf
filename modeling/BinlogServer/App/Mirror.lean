import BinlogServer.App.Lifetimes
import Mathlib.Data.List.Infix

/-!
# The files of a storage are those of its source

In the position mode a source that is asked for a file and a position sends the events from there on, file after file.
Whatever the sessions and the restarts are, the storage then holds a front of the files of the source, each of them a
front of the original: nothing is stored twice, and nothing is left out.
-/

/-- Where a file is gone on with in the position mode, its transactions come right after the FORMAT_DESCRIPTION. -/
theorem BinlogServer.Events.ReaderContext.Step.described {context context' : ReaderContext} {event : EventView}
    {infoOnly : Bool} (step : Step context event infoOnly context') (code : event.getTypeCode = .formatDescription)
    (mode : context.replicationMode = .position) (expects : context.expectInfoOnlyPreambleEvents = true) :
    context'.state = .gtidLogExpected := by
  cases step with
  | artificialRotate start rotate => cases code.symm.trans rotate.code
  | formatDescription => simp [describedState,mode,expects]
  | previousGtids start other => cases code.symm.trans other
  | gtid _ _ _ start first => simp [code,CodeType.isGtid] at first
  | other start plain => exact absurd code plain.2.2.2.1
  | terminator start last => rcases last.code with same | same <;> cases code.symm.trans same

namespace BinlogServer.App
open ByteString Util Gtids Events Store
open Store.Storage (Holds)

namespace Session

/-- A file of the source, by its events. -/
structure SourceFile where
  name : CompositeBinlogName
  events : List Bytes

def SourceFile.content (file : SourceFile) : Bytes := magicBinlogPayload ++ file.events.flatten

/-- The event is the last one of a file. -/
def EndsBinlog (portion : Bytes) : Prop :=
  CommonHeader.getTypeCode portion = .rotate ∨ CommonHeader.getTypeCode portion = .stop

instance (portion : Bytes) : Decidable (EndsBinlog portion) := inferInstanceAs (Decidable (_ ∨ _))

/-- What a source sends: an artificial ROTATE, the FORMAT_DESCRIPTION of a file from whose middle it goes on, or an event
    as it is in the file. -/
inductive Sent where
  | rotate (name : CompositeBinlogName)
  | description
  | event (portion : Bytes)

def Sent.Is : Sent → EventView → Prop
  | .rotate name, view => view.IsArtificialRotate ∧ name.str = view.getBodyRaw
  | .description, view => view.getTypeCode = .formatDescription
  | .event portion, view => ¬ view.IsArtificialRotate ∧ view.portion = portion

/-- A source with its files, in their order. Positions are stored in 4 bytes, so the files are shorter than that. -/
structure Source where
  files : List SourceFile
  distinct : (files.map SourceFile.name).Nodup
  named : ∀ file ∈ files, file.name ≠ .none
  nonempty : ∀ file ∈ files, ∀ portion ∈ file.events, portion ≠ []
  short : ∀ file ∈ files, file.content.length < 2 ^ 32

namespace Source

/-- Whole files are sent. -/
def whole (files : List SourceFile) : List Sent := files.flatMap fun file => .rotate file.name :: file.events.map .event

@[simp] theorem whole_nil : whole [] = [] := rfl

@[simp] theorem whole_cons (file : SourceFile) (files : List SourceFile) :
    whole (file :: files) = .rotate file.name :: (file.events.map .event ++ whole files) := rfl

/-- What the source has for a point. -/
inductive Answers (source : Source) : RestartPoint → List Sent → Prop where
  | beginning : Answers source .beginning (whole source.files)
  | position {before later : List SourceFile} {file : SourceFile} {front back : List Bytes}
      (shape : source.files = before ++ file :: later) (split : file.events = front ++ back) :
      Answers source (.position file.name.str (magicBinlogOffset + front.flatten.length))
        (.rotate file.name :: ((if front = [] then [] else [.description]) ++ (back.map .event ++ whole later)))

theorem Answers.position_cases {source : Source} {name : Bytes} {position : Nat} {stream : List Sent}
    (answers : source.Answers (.position name position) stream) :
    ∃ before file later front back, source.files = before ++ file :: later ∧ file.events = front ++ back ∧
      name = file.name.str ∧ position = magicBinlogOffset + front.flatten.length ∧
      stream = .rotate file.name :: ((if front = [] then [] else [.description]) ++ (back.map .event ++ whole later)) := by
  cases answers with
  | position shape split => exact ⟨_,_,_,_,_,shape,split,rfl,rfl,rfl⟩

/-- A file is known by its name. -/
theorem split_unique (source : Source) {before before' later later' : List SourceFile} {file file' : SourceFile}
    (shape : source.files = before ++ file :: later) (shape' : source.files = before' ++ file' :: later')
    (same : file.name = file'.name) : file = file' ∧ later = later' := by
  have distinct := source.distinct
  rw [shape, List.map_append, List.map_cons, List.nodup_middle, List.nodup_cons, List.mem_append, not_or, same] at distinct
  have parts := (List.append_cons_inj_of_notMem (fun member => distinct.1.1 (List.mem_map_of_mem member))
    (fun member => distinct.1.2 (List.mem_map_of_mem member))).mp (shape.symm.trans shape')
  exact parts.2

/-- A front of the events is known by its length. -/
theorem front_unique (source : Source) {file : SourceFile} (known : file ∈ source.files) {front front' back back' : List Bytes}
    (split : file.events = front ++ back) (split' : file.events = front' ++ back')
    (same : front.flatten.length = front'.flatten.length) : front = front' ∧ back = back' := by
  have nonempty := source.nonempty file known
  have shorter : ∀ {first second rest rest' : List Bytes}, file.events = first ++ rest → file.events = second ++ rest' →
      first.flatten.length = second.flatten.length → first <+: second → first = second := by
    intro first second rest rest' split split' same part
    obtain ⟨more,rfl⟩ := part
    rw [List.flatten_append, List.length_append] at same
    cases more with
    | nil => simp
    | cons portion more =>
      have long := List.length_pos_iff.mpr (nonempty portion (by simp [split']))
      rw [List.flatten_cons, List.length_append] at same
      omega
  have equal : front = front' := by
    rcases List.prefix_or_prefix_of_prefix ⟨back,split.symm⟩ ⟨back',split'.symm⟩ with part | part
    · exact shorter split split' same part
    · exact (shorter split' split same.symm part).symm
  subst equal
  exact ⟨rfl,List.append_cancel_left (split.symm.trans split')⟩

/-- The events are what the source sends, up to the end of the session, whatever ends it. -/
def Serves (source : Source) (visit : Visit) : Prop :=
  ∃ stream sent, source.Answers visit.point stream ∧ sent <+: stream ∧ List.Forall₂ Sent.Is sent visit.events

end Source

/-- The events at the end of a file are taken for the end of a transaction. -/
def Ends (entries : List EventEntry) : Prop := ∀ entry ∈ entries, EndsBinlog entry.data → entry.atTransactionBoundary = true

/-- The file has been left: it has all events of the original, if that was ended. -/
structure Copied (file : LocalFile) (original : SourceFile) : Prop where
  name : file.name = original.name
  part : file.entries.map EventEntry.data <+: original.events
  all : (∃ last ∈ original.events.getLast?, EndsBinlog last) → file.entries.map EventEntry.data = original.events

/-- The file that is being received has the events of the original but for these. -/
structure Copying (file : LocalFile) (original : SourceFile) (missing : List Bytes) : Prop where
  name : file.name = original.name
  events : file.entries.map EventEntry.data ++ missing = original.events
  ends : Ends file.entries

/-- The storage holds the first files of the source; `missing` and the later files are still to come. -/
inductive Mirrors (source : Source) : List LocalFile → List Bytes → List SourceFile → Prop where
  | nothing {later : List SourceFile} (shape : source.files = later) : Mirrors source [] [] later
  | files {front : List LocalFile} {last : LocalFile} {before later : List SourceFile} {original : SourceFile}
      {missing : List Bytes} (shape : source.files = before ++ original :: later)
      (copied : List.Forall₂ Copied front before) (copying : Copying last original missing) :
      Mirrors source (front ++ [last]) missing later

/-- The reader is past the preamble of a file that is gone on with, or there is none to be passed over. -/
def Reads (context : ReaderContext) : Prop :=
  context.expectInfoOnlyPreambleEvents = true →
    context.state ≠ .formatDescriptionExpected ∧ context.state ≠ .previousGtidsExpected

section
variable [Externals] {start session : Session} {source : Source} {files : List LocalFile} {missing : List Bytes}
  {later : List SourceFile} {event : EventView}

omit [Externals] in
theorem Reads.step {context context' : ReaderContext} {infoOnly : Bool} (reads : Reads context)
    (step : ReaderContext.Step context event infoOnly context') (inner : ¬ event.IsArtificialRotate) :
    infoOnly = false ∧ Reads context' := by
  have expects := step.expectInfoOnlyPreambleEvents inner
  cases step with
  | artificialRotate start rotate => exact absurd rotate inner
  | formatDescription layout start code plain learned position =>
    have off : context.expectInfoOnlyPreambleEvents = false := by
      by_contra on
      exact (reads (by simpa using on)).1 start
    exact ⟨off,fun on => by cases (expects.trans off).symm.trans on⟩
  | previousGtids start =>
    have off : context.expectInfoOnlyPreambleEvents = false := by
      by_contra on
      exact (reads (by simpa using on)).2 start
    exact ⟨off,fun on => by cases (expects.trans off).symm.trans on⟩
  | gtid => exact ⟨rfl,fun _ => ⟨nofun,nofun⟩⟩
  | other start =>
    refine ⟨rfl,fun on => ?_⟩
    rw [expects] at on
    exact reads on
  | terminator => exact ⟨rfl,fun _ => ⟨nofun,nofun⟩⟩

/-- Where a session is in what the source sends. -/
structure Follows (source : Source) (session : Session) (files : List LocalFile) (missing : List Bytes)
    (later : List SourceFile) : Prop where
  filed : Filed session files
  mirrors : Mirrors source files missing later
  reads : Reads session.context

theorem Follows.aged (follows : Follows source session files missing later) :
    Follows source session.aged files missing later := ⟨follows.filed.aged,follows.mirrors,follows.reads⟩

/-- An event of the file is stored. -/
theorem Follows.stored (follows : Follows source start files (event.portion :: missing) later) (sound : event.Sound)
    (inner : ¬ event.IsArtificialRotate) (processed : processBinlogEvent event start = .ok () session) :
    ∃ files', Follows source session files' missing later := by
  obtain ⟨filed,mirrors,reads⟩ := follows
  obtain ⟨infoOnly,files',step,filing,after⟩ := filed.step sound processed
  obtain ⟨rfl,reads⟩ := reads.step step inner
  suffices stored : ∀ nonempty, Filed session (LocalFile.onLast (· ++ [entryFor event session.context nonempty]) files) →
      ∃ files', Follows source session files' missing later by
    cases filing with
    | written inner nonempty fits => exact stored nonempty after
    | ended last nonempty => exact stored nonempty after
  intro nonempty after
  cases mirrors with
  | @files front last before later original missing shape copied copying =>
    rw [LocalFile.onLast_concat] at after
    refine ⟨_,after,.files shape copied ⟨copying.name,?_,?_⟩,reads⟩
    · rw [← copying.events]
      simp [entryFor]
    · intro entry member ends
      rcases List.mem_append.mp member with old | new
      · exact copying.ends entry old ends
      · rw [List.mem_singleton.mp new] at ends ⊢
        rcases step.kind with rotate | plain | last
        · exact absurd rotate inner
        · exact absurd ends (not_or.mpr plain)
        · exact (step.terminated_boundary last).2

omit [Externals] in
/-- A file that is left after its last event has been received. -/
theorem Copying.left {file : LocalFile} {original : SourceFile} (copying : Copying file original []) :
    Copied ⟨file.name,wholeTransactions file.entries⟩ original := by
  obtain ⟨name,events,ends⟩ := copying
  rw [List.append_nil] at events
  refine ⟨name,events ▸ (wholeTransactions_isPrefix file.entries).map _,?_⟩
  rintro ⟨portion,member,ended⟩
  rw [← events] at member ⊢
  -- the last event ends a transaction, so nothing is dropped
  have marked : EndsMarked EventEntry.atTransactionBoundary file.entries := by
    intro last known
    rw [List.getLast?_map, known] at member
    obtain rfl : last.data = portion := by simpa using member
    exact ends last (List.mem_of_getLast? known) ended
  have same := marked.rdropWhile_append []
  rw [List.append_nil, List.rdropWhile_nil, List.append_nil] at same
  exact congrArg (List.map EventEntry.data) same

/-- The next file of the source is started. -/
theorem Follows.rotated {original : SourceFile} (follows : Follows source start files [] (original :: later))
    (sound : event.Sound) (artificial : event.IsArtificialRotate) (named : original.name.str = event.getBodyRaw)
    (processed : processBinlogEvent event start = .ok () session) :
    ∃ files', Follows source session files' original.events later := by
  obtain ⟨filed,mirrors,-⟩ := follows
  have current := filed.holds.getCurrentBinlogName
  cases mirrors with
  | nothing shape =>
    have new : original.name ≠ start.storage.getCurrentBinlogName := by
      rw [current]
      exact source.named original (by simp [shape])
    obtain ⟨after,expects⟩ := filed.rotates sound processed artificial named new
    have shape : source.files = [] ++ original :: later := shape
    exact ⟨_,after,.files shape .nil ⟨rfl,rfl,by simp [Ends]⟩,fun on => by cases expects.symm.trans on⟩
  | @files front last before _ previous missing shape copied copying =>
    have new : original.name ≠ start.storage.getCurrentBinlogName := by
      rw [current, List.getLast?_concat, Option.map_some, Option.getD_some, copying.name]
      have distinct := source.distinct
      rw [shape, List.map_append, List.nodup_append] at distinct
      have apart := distinct.2.1
      rw [List.map_cons, List.map_cons, List.nodup_cons] at apart
      exact fun same => apart.1 (by simp [same])
    obtain ⟨after,expects⟩ := filed.rotates sound processed artificial named new
    rw [LocalFile.onLast_concat] at after
    have shape : source.files = (before ++ [previous]) ++ original :: later := by simpa using shape
    have copied := List.rel_append copied (.cons copying.left .nil)
    exact ⟨_,after,.files shape copied ⟨rfl,rfl,by simp [Ends]⟩,fun on => by cases expects.symm.trans on⟩

/-- What the source sends is followed, event after event. -/
theorem Follows.run (follows : Follows source start files missing later) {trace : List Processed}
    (processes : Processes start trace session) {sent : List Sent}
    (part : sent <+: missing.map .event ++ Source.whole later) (is : List.Forall₂ Sent.Is sent (trace.map Processed.event)) :
    ∃ files' missing' later', Follows source session files' missing' later' ∧
      missing.map .event ++ Source.whole later = sent ++ (missing'.map .event ++ Source.whole later') := by
  induction processes generalizing sent with
  | stay =>
    obtain rfl := List.forall₂_nil_right_iff.mp is
    exact ⟨files,missing,later,follows,rfl⟩
  | aged before ih =>
    obtain ⟨files,missing,later,follows,rest⟩ := ih part is
    exact ⟨files,missing,later,follows.aged,rest⟩
  | @event trace m session event before sound processed ih =>
    obtain ⟨sent,item,rfl,is,last⟩ : ∃ front item, sent = front ++ [item] ∧
        List.Forall₂ Sent.Is front (trace.map Processed.event) ∧ item.Is event := by
      rw [List.map_append, List.map_singleton] at is
      have front := List.forall₂_take_append _ _ _ is
      have back := List.forall₂_drop_append _ _ _ is
      generalize dropped : List.drop _ sent = rest at back
      cases back with
      | @cons item _ _ _ last none =>
        cases none
        exact ⟨_,item,by rw [← dropped, List.take_append_drop],front,last⟩
    obtain ⟨files,missing,later,follows,rest⟩ := ih ((List.prefix_append _ _).trans part) is
    rw [rest, List.prefix_append_right_inj] at part
    simp only [rest, List.append_assoc, List.append_cancel_left_eq]
    cases missing with
    | cons portion missing =>
      obtain rfl : item = .event portion := by simpa using part
      obtain ⟨inner,rfl⟩ := last
      obtain ⟨files,follows⟩ := follows.stored sound inner processed
      exact ⟨files,missing,later,follows,rfl⟩
    | nil =>
      cases later with
      | nil => simp at part
      | cons original later =>
        obtain rfl : item = .rotate original.name := by simpa using part
        obtain ⟨files,follows⟩ := follows.rotated sound last.1 last.2 processed
        exact ⟨files,original.events,later,follows,rfl⟩

/-- The file that is current is gone on with. -/
theorem Filed.resumes (filed : Filed start files) (sound : event.Sound)
    (processed : processBinlogEvent event start = .ok () session) (artificial : event.IsArtificialRotate)
    (named : start.storage.getCurrentBinlogName.str = event.getBodyRaw) :
    Filed session files ∧ session.context = start.context.left.enterBinlog event.getBodyRaw := by
  obtain ⟨infoOnly,files',step,filing,after⟩ := filed.step sound processed
  refine ⟨?_,(step.rotated artificial).1⟩
  cases filing with
  | rotated name rotate named' =>
    rwa [if_pos (CompositeBinlogName.str_injective (named'.trans named.symm))] at after
  | passed inner => exact absurd artificial.code inner.1
  | written inner nonempty fits => exact absurd artificial.code inner.1
  | ended last nonempty => cases artificial.artificial.symm.trans last.artificial

/-- The FORMAT_DESCRIPTION of a file that is gone on with is passed over. -/
theorem Filed.describes (filed : Filed start files) (sound : event.Sound)
    (processed : processBinlogEvent event start = .ok () session) (code : event.getTypeCode = .formatDescription)
    (mode : start.context.replicationMode = .position) (expects : start.context.expectInfoOnlyPreambleEvents = true) :
    Filed session files ∧ Reads session.context := by
  obtain ⟨infoOnly,files',step,filing,after⟩ := filed.step sound processed
  obtain rfl : infoOnly = true := (step.preamble (.inl code)).trans expects
  constructor
  · cases filing with
    | rotated name rotate => cases code.symm.trans rotate.code
    | passed inner => exact after
  · intro _
    rw [step.described code mode expects]
    exact ⟨nofun,nofun⟩

omit [Externals] in
/-- Where events are dropped from the end, the file is still a front of the original. -/
theorem Mirrors.cut {f : List EventEntry → List EventEntry} (part : ∀ entries, f entries <+: entries)
    (mirrors : Mirrors source files missing later) : ∃ missing, Mirrors source (LocalFile.onLast f files) missing later := by
  cases mirrors with
  | nothing shape => exact ⟨[],.nothing shape⟩
  | @files front last before later original missing shape copied copying =>
    obtain ⟨dropped,split⟩ := part last.entries
    rw [LocalFile.onLast_concat]
    refine ⟨dropped.map EventEntry.data ++ missing,.files shape copied ⟨copying.name,?_,?_⟩⟩
    · rw [← copying.events, ← List.append_assoc, ← List.map_append, split]
    · exact fun entry member => copying.ends entry ((part last.entries).subset member)

variable {config : Config} {serverVersion : Nat} {gtidPurged : Bytes} {clock calendar : Nat → Nat} {s : Storage}
  {trace : List Processed} {point : RestartPoint}

omit [Externals] in
/-- The reader of a session that enters the current file passes its preamble over, if there is one. -/
theorem readerFor_entered (small : s.getCurrentPosition < 2 ^ 32) (magic : magicBinlogOffset ≤ s.getCurrentPosition) :
    let entered := (readerFor config serverVersion s).left.enterBinlog s.getCurrentBinlogName.str
    entered.expectInfoOnlyPreambleEvents = decide (magicBinlogOffset < s.getCurrentPosition) ∧
      entered.replicationMode = s.replicationMode := by
  have left : (readerFor config serverVersion s).left = readerFor config serverVersion s := if_pos rfl
  have position : (readerFor config serverVersion s).position = s.getCurrentPosition := by
    rw [readerFor, ReaderContext.make, Nat.mod_eq_of_lt small]
    exact if_neg (Nat.ne_of_gt (Nat.lt_of_lt_of_le (by decide) magic))
  rw [left]
  refine ⟨?_,ReaderContext.enterBinlog_replicationMode ..⟩
  rw [ReaderContext.enterBinlog_expectInfoOnlyPreambleEvents, position]
  simp [readerFor,ReaderContext.make]

/-- A session that goes on with a file, up to where its events start. -/
theorem Follows.resume {front : List LocalFile} {last : LocalFile} {before : List SourceFile} {original : SourceFile}
    (filed : Filed start (front ++ [last])) (shape : source.files = before ++ original :: later)
    (copied : List.Forall₂ Copied front before) (copying : Copying last original missing)
    (reader : start.context = readerFor config serverVersion start.storage)
    (mode : start.storage.replicationMode = .position) (processes : Processes start trace session) {sent : List Sent}
    (part : sent <+: .rotate original.name :: ((if last.entries = [] then [] else [.description]) ++
      (missing.map .event ++ Source.whole later)))
    (is : List.Forall₂ Sent.Is sent (trace.map Processed.event)) :
    ∃ files', Filed session files' ∧ ∃ missing later, Mirrors source files' missing later := by
  have mirrors : Mirrors source (front ++ [last]) missing later := .files shape copied copying
  obtain ⟨-,position,-⟩ := filed.holds.stored
  have current : start.storage.getCurrentBinlogName = original.name := by
    rw [filed.holds.getCurrentBinlogName, List.getLast?_concat, Option.map_some, Option.getD_some, copying.name]
  have short : last.length < 2 ^ 32 := by
    have limit := source.short original (by simp [shape])
    rw [SourceFile.content, List.length_append, ← copying.events, List.flatten_append, List.length_append,
      ← List.flatMap_def] at limit
    have magic : magicBinlogPayload.length = magicBinlogOffset := rfl
    rw [LocalFile.length, bytesOf]
    omega
  cases sent with
  | nil =>
    obtain rfl : trace = [] := by simpa using is
    exact ⟨_,(processes.idle filed).1,missing,later,mirrors⟩
  | cons item sent =>
    obtain ⟨rfl,within⟩ := List.cons_prefix_cons.mp part
    clear part
    obtain ⟨rotate,rest,rfl⟩ : ∃ rotate rest, trace = rotate :: rest := by
      cases trace with
      | nil => cases is
      | cons rotate rest => exact ⟨rotate,rest,rfl⟩
    obtain ⟨⟨artificial,named⟩,is⟩ := List.forall₂_cons.mp is
    have parts : Processes start ([rotate] ++ rest) session := processes
    obtain ⟨mid,first,processes⟩ := parts.split
    obtain ⟨⟨filed,storage,context⟩,sound,processed,idle⟩ := first.single filed
    obtain ⟨filed,entered⟩ := filed.resumes sound processed artificial (by rw [storage, current, named])
    obtain ⟨filed,-,same⟩ := idle.idle filed
    rw [context, reader, ← named, ← current] at entered
    have position : start.storage.getCurrentPosition = magicBinlogOffset + (bytesOf last.entries).length := position
    obtain ⟨expects,replication⟩ := @readerFor_entered config serverVersion start.storage (position ▸ short)
      (position ▸ Nat.le_add_right ..)
    rw [← entered, ← same] at expects replication
    by_cases none : last.entries = []
    · -- the file has nothing, and its preamble is stored
      have off : mid.context.expectInfoOnlyPreambleEvents = false := by
        rw [expects, position, none]
        rfl
      have follows : Follows source mid (front ++ [last]) missing later :=
        ⟨filed,mirrors,fun on => by cases off.symm.trans on⟩
      obtain ⟨files,missing,later,follows,-⟩ := follows.run processes (by simpa [none] using within) is
      exact ⟨files,follows.filed,missing,later,follows.mirrors⟩
    · have on : mid.context.expectInfoOnlyPreambleEvents = true := by
        have long := List.length_pos_iff.mpr (mt bytesOf_eq_nil none)
        rw [expects, position, decide_eq_true_eq]
        omega
      rw [if_neg none] at within
      cases sent with
      | nil =>
        obtain rfl : rest = [] := by simpa using is
        exact ⟨_,(processes.idle filed).1,missing,later,mirrors⟩
      | cons item sent =>
        obtain ⟨rfl,part⟩ := List.cons_prefix_cons.mp within
        obtain ⟨description,rest,rfl⟩ : ∃ description more, rest = description :: more := by
          cases rest with
          | nil => cases is
          | cons description rest => exact ⟨description,rest,rfl⟩
        obtain ⟨code,is⟩ := List.forall₂_cons.mp is
        have parts : Processes mid ([description] ++ rest) session := processes
        obtain ⟨mid',second,processes⟩ := parts.split
        obtain ⟨⟨filed,-,context⟩,sound,processed,idle⟩ := second.single filed
        obtain ⟨filed,reads⟩ := filed.describes sound processed code (by rw [context, replication, mode])
          (by rw [context, on])
        obtain ⟨filed,-,same⟩ := idle.idle filed
        have follows : Follows source mid' (front ++ [last]) missing later := ⟨filed,mirrors,same ▸ reads⟩
        obtain ⟨files,missing,later,follows,-⟩ := follows.run processes part is
        exact ⟨files,follows.filed,missing,later,follows.mirrors⟩

/-- A session that the source serves keeps the mirror. -/
theorem Mirrors.served (mirrors : Mirrors source files missing later) (holds : Holds s files)
    (connected : connect config serverVersion gtidPurged clock calendar s = .ok (point,start)) (filed : Filed start files)
    (processes : Processes start trace session) {endOfStream : Bool}
    (serves : source.Serves ⟨config,point,start,trace,session,endOfStream⟩) :
    ∃ files', Filed session files' ∧ ∃ missing later, Mirrors source files' missing later := by
  obtain ⟨stream,sent,answers,part,is⟩ := serves
  obtain ⟨t,switched,rfl⟩ := connect_ok connected
  rcases switchToReplication_ok switched with ⟨-,-,_,_,-,rfl⟩ | ⟨mode,rfl,rfl⟩
  · cases answers
  by_cases empty : t.isEmpty = true
  · rw [if_pos empty] at answers
    cases answers with
    | beginning =>
      rw [holds.isEmpty, List.isEmpty_iff] at empty
      subst empty
      have follows : Follows source _ [] [] source.files := ⟨filed,.nothing rfl,nofun⟩
      obtain ⟨files,missing,later,follows,-⟩ := follows.run processes part is
      exact ⟨files,follows.filed,missing,later,follows.mirrors⟩
  · rw [if_neg empty] at answers
    obtain ⟨before,file,later',front,back,shape,split,name,position,rfl⟩ := answers.position_cases
    cases mirrors with
    | nothing => exact absurd holds.isEmpty empty
    | @files earlier last before' later original missing shape' copied copying =>
      -- the source has found the file that is current, and its events up to the end of it
      obtain ⟨-,length,-⟩ := holds.stored
      rw [holds.getCurrentBinlogName, List.getLast?_concat, Option.map_some, Option.getD_some, copying.name] at name
      obtain ⟨rfl,rfl⟩ := source.split_unique shape' shape (CompositeBinlogName.str_injective name)
      obtain ⟨rfl,rfl⟩ := source.front_unique (by simp [shape]) split copying.events.symm (by
        rw [length, LocalFile.length, Nat.add_left_cancel_iff, bytesOf, List.flatMap_def] at position
        exact position.symm)
      refine Follows.resume filed shape' copied copying rfl ?_ processes (by simpa using part) is
      cases kind : t.replicationMode with
      | position => rfl
      | gtid => simp [Storage.isInGtidReplicationMode,kind] at mode

omit [Externals] in
theorem Mirrors.original (mirrors : Mirrors source files missing later) {i : Nat} {file : LocalFile}
    (found : files[i]? = some file) :
    ∃ original, source.files[i]? = some original ∧ file.name = original.name ∧
      file.entries.map EventEntry.data <+: original.events ∧
      (i + 1 < files.length → (∃ last ∈ original.events.getLast?, EndsBinlog last) →
        file.entries.map EventEntry.data = original.events) := by
  cases mirrors with
  | nothing => simp at found
  | @files front last before later original missing shape copied copying =>
    obtain ⟨lengths,each⟩ := List.forall₂_iff_get.mp copied
    rw [List.length_append, List.length_singleton, shape]
    by_cases earlier : i < front.length
    · rw [List.getElem?_append_left earlier, List.getElem?_eq_getElem earlier] at found
      obtain rfl := Option.some.inj found
      have there : i < before.length := lengths ▸ earlier
      obtain ⟨name,part,all⟩ := each i earlier there
      exact ⟨before.get ⟨i,there⟩,by simp [List.getElem?_append_left there,there],name,part,fun _ => all⟩
    · obtain ⟨rfl,rfl⟩ : i = front.length ∧ last = file := by
        have inside := (List.getElem?_eq_some_iff.mp found).1
        rw [List.length_append, List.length_singleton] at inside
        have here : i = front.length := by omega
        exact ⟨here,by simpa [here] using found⟩
      refine ⟨original,by simp [lengths],copying.name,⟨missing,copying.events⟩,fun more => ?_⟩
      omega

/-- What is stored for a file, by its number. -/
theorem Holds.stored_at (holds : Holds s files) {i : Nat} {file : LocalFile} (found : files[i]? = some file) :
    ∃ kept, kept <+: file.entries ∧ s.backend.objects.find? file.name.str = some (magicBinlogPayload ++ bytesOf kept) ∧
      (i + 1 < files.length → kept = file.entries) := by
  by_cases more : i + 1 < files.length
  · obtain ⟨front,last,rfl⟩ := (List.eq_nil_or_concat' files).resolve_left (by rintro rfl; simp at found)
    have earlier : i < front.length := by simpa using more
    rw [List.getElem?_append_left earlier] at found
    exact ⟨file.entries,List.prefix_rfl,holds.stored.1 file (List.mem_of_getElem? found),fun _ => rfl⟩
  · obtain ⟨kept,part,content⟩ := holds.content file (List.mem_of_getElem? found)
    exact ⟨kept,part,content,fun less => absurd less more⟩

/-- The files of a storage whose sessions are served by one source are the first files of the source, in its order, and
    what is stored for each is a front of the original. A file that is not the last one has all of it, if the original
    was ended. -/
theorem stored_files_mirror (lives : Lives source.Serves s) (i : Nat) {record : BinlogRecord}
    (known : s.records[i]? = some record) :
    ∃ original content, source.files[i]? = some original ∧ record.name = original.name ∧
      s.backend.objects.find? record.name.str = some content ∧ content <+: original.content ∧
      (i + 1 < s.records.length → (∃ last ∈ original.events.getLast?, EndsBinlog last) → content = original.content) := by
  obtain ⟨files,holds,-,missing,later,mirrors⟩ := lives.files (P := fun files => ∃ missing later,
      Mirrors source files missing later) ⟨[],_,.nothing rfl⟩ (fun f files part => by
    rintro ⟨missing,later,mirrors⟩
    obtain ⟨missing,mirrors⟩ := mirrors.cut part
    exact ⟨missing,later,mirrors⟩) (by
    rintro _ _ _ _ _ _ files _ _ _ _ _ connected holds ⟨missing,later,mirrors⟩ filed processes serves
    exact mirrors.served holds connected filed processes serves)
  have names : s.records.map BinlogRecord.name = files.map LocalFile.name := by
    obtain ⟨-,-,-,names,-⟩ := holds
    exact names
  obtain ⟨file,found,name⟩ : ∃ file, files[i]? = some file ∧ file.name = record.name := by
    have same := congrArg (·[i]?) names
    simpa [known,eq_comm] using same
  have length : s.records.length = files.length := by simpa using congrArg List.length names
  obtain ⟨original,there,named,part,all⟩ := mirrors.original found
  obtain ⟨kept,front,content,whole⟩ := Holds.stored_at holds found
  have bytes : ∀ entries, bytesOf entries = (entries.map EventEntry.data).flatten := fun entries => List.flatMap_def ..
  refine ⟨original,_,there,name.symm.trans named,name ▸ content,?_,fun more ended => ?_⟩
  · rw [SourceFile.content, bytes, List.prefix_append_right_inj]
    exact ((front.map EventEntry.data).trans part : kept.map EventEntry.data <+: original.events).flatten
  · rw [length] at more
    rw [whole more, bytes, all more ended, SourceFile.content]

end

section
attribute [local instance] FlatJson.externals

namespace Sample

/-- A storage in the position mode over an empty directory. -/
def positioned : Storage := Storage.fresh .streaming .position {}
  ((⟨.filesystem,.empty,none,[],[]⟩ : Backend).perform (.put metadataName (StorageMetadata.str .position))) .empty []

def reading : Session := sessionOf positioned (readerFor config 80400 positioned)

def ending : EventView :=
  ⟨Events.Sample.encoded (createEvent .rotate 154 0 1 0 (RotatePostHeader.encode 4) (ascii "b.000002") false),8,0⟩

/-- `b.000001` with its end, and `b.000002`, of which nothing has been sent yet. -/
def source : Source where
  files := [⟨name,[description.portion,previousGtids.portion,ending.portion]⟩,⟨CompositeBinlogName.Sample.second,[]⟩]
  distinct := by decide +kernel
  named := by decide +kernel
  nonempty := by decide +kernel
  short := by decide +kernel

def sourceEvents : List EventView :=
  [rotate,description,previousGtids,ending,⟨Events.Sample.artificialRotate (ascii "b.000002") 4,8,0⟩]

theorem source_serves {steps : List Processed} {session : Session} (events : steps.map Processed.event = sourceEvents) :
    source.Serves ⟨config,.beginning,reading,steps,session,true⟩ := by
  refine ⟨_,_,.beginning,List.prefix_rfl,?_⟩
  rw [Visit.events, events]
  refine .cons ⟨by decide +kernel,by decide +kernel⟩ (.cons ⟨by decide +kernel,rfl⟩ (.cons ⟨by decide +kernel,rfl⟩
    (.cons ⟨by decide +kernel,rfl⟩ (.cons ⟨by decide +kernel,by decide +kernel⟩ .nil))))

end Sample

theorem stored_files_mirror_ended : ∃ s record, Lives Sample.source.Serves s ∧ s.records[0]? = some record ∧
    s.records.length = 2 ∧ s.backend.objects.find? record.name.str = some (magicBinlogPayload ++
      [Sample.description.portion,Sample.previousGtids.portion,Sample.ending.portion].flatten) := by
  have start : Lives Sample.source.Serves Sample.positioned := .start (u := ()) rfl
  have connected : connect Sample.config 80400 [] (fun _ => 0) (fun _ => 0) Sample.positioned =
      .ok (.beginning,Sample.reading) := rfl
  have known : (Sample.follow Sample.sourceEvents Sample.reading).map (fun found => found.2.storage.records.length) =
      some 2 := by decide +kernel
  cases followed : Sample.follow Sample.sourceEvents Sample.reading with
  | none => simp [followed] at known
  | some found =>
    obtain ⟨steps,session⟩ := found
    obtain ⟨processes,events⟩ := Sample.follow_processes followed (by decide +kernel) .stay
    have two : session.storage.records.length = 2 := by simpa [followed] using known
    have disconnected : disconnect true session.storage = .ok () session.storage := rfl
    have lives := start.session Sample.nothing_purged connected processes (Sample.source_serves events) disconnected
    obtain ⟨record,there⟩ : ∃ record, session.storage.records[0]? = some record :=
      ⟨_,List.getElem?_eq_getElem (by omega)⟩
    obtain ⟨original,content,same,-,stored,-,all⟩ := stored_files_mirror lives 0 there
    obtain rfl := Option.some.inj same
    refine ⟨_,record,lives,there,two,?_⟩
    rw [stored, all (by omega) ⟨Sample.ending.portion,rfl,by decide +kernel⟩]
    rfl

end
end Session
end BinlogServer.App
