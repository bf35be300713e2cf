import BinlogServer.App.Positions

/-!
# The preamble of a file that is gone on with

A source that goes on with a file after a reconnect sends the preamble of the file again. The reader takes the events
for known, and the storage does not get them, where the file has more than the magic; but how long the file is, it
knows only modulo `2 ^ 32`.
-/

namespace BinlogServer.Events.ReaderContext
variable {context context' : ReaderContext} {event : EventView} {infoOnly : Bool}

/-- The events of a preamble are written or not as the last artificial ROTATE has decided. -/
theorem Step.preamble (step : Step context event infoOnly context')
    (preamble : event.getTypeCode = .formatDescription ∨ event.getTypeCode = .previousGtidsLog) :
    infoOnly = context.expectInfoOnlyPreambleEvents := by
  cases step with
  | artificialRotate start rotate => rcases preamble with code | code <;> cases code.symm.trans rotate.code
  | formatDescription => rfl
  | previousGtids => rfl
  | gtid _ _ _ start code => rcases preamble with same | same <;> simp [same,CodeType.isGtid] at code
  | other start plain =>
    rcases preamble with code | code
    · exact absurd code plain.2.2.2.1
    · exact absurd code plain.2.2.2.2.1
  | terminator start last =>
    rcases preamble with code | code <;> rcases last.code with same | same <;> cases code.symm.trans same

/-- Other events of a file are always written. -/
theorem Step.written (step : Step context event infoOnly context')
    (inner : event.getTypeCode ≠ .rotate ∧ event.getTypeCode ≠ .stop)
    (plain : ¬ (event.getTypeCode = .formatDescription ∨ event.getTypeCode = .previousGtidsLog)) : infoOnly = false := by
  cases step with
  | artificialRotate start rotate => exact absurd rotate.code inner.1
  | formatDescription layout start code => exact absurd (.inl code) plain
  | previousGtids start code => exact absurd (.inr code) plain
  | gtid => rfl
  | other => rfl
  | terminator => rfl

theorem Step.expectInfoOnlyPreambleEvents (step : Step context event infoOnly context')
    (inner : ¬ event.IsArtificialRotate) :
    context'.expectInfoOnlyPreambleEvents = context.expectInfoOnlyPreambleEvents := by
  cases step with
  | artificialRotate start rotate => exact absurd rotate inner
  | formatDescription => rfl
  | previousGtids => rfl
  | gtid => rfl
  | other => rfl
  | terminator => rfl

end BinlogServer.Events.ReaderContext

namespace BinlogServer.App
open ByteString Util Gtids Events Store

namespace Session

section
variable [Externals]

/-- The event went to the storage. -/
def Processed.Wrote (step : Processed) : Prop :=
  ∃ nonempty now, Storage.writeEntry (entryFor step.event step.after.context nonempty) now step.before.storage =
    .ok () step.after.storage

variable {session session' : Session} {event : EventView}

/-- The artificial ROTATE of a file that is gone on with decides about the preamble. -/
theorem Joined.resumed (joined : Joined session) (fresh : session.context.isFresh = true) (sound : event.Sound)
    (rotate : event.IsArtificialRotate) (same : event.getBodyRaw = session.storage.getCurrentBinlogName.str)
    (run : processBinlogEvent event session = .ok () session') :
    session'.context.expectInfoOnlyPreambleEvents =
      decide (magicBinlogOffset < session.storage.getCurrentPosition % 2 ^ 32) := by
  obtain ⟨infoOnly,step,-⟩ := processBinlogEvent_ok joined.sound sound.nonempty run
  obtain ⟨context,-⟩ := step.rotated rotate
  have state := joined.fresh fresh
  have stays : session.context.left = session.context := by simp [ReaderContext.left,state]
  have first : session.context.cycleNumber = 0 := by simpa [ReaderContext.isFresh] using fresh
  rw [context, ReaderContext.enterBinlog_expectInfoOnlyPreambleEvents, stays, first, joined.named, same,
    joined.waiting state, restartPosition]
  simp only [decide_true, Bool.true_and, fresh, true_and, gt_iff_lt]
  congr 1
  split <;> simp_all [magicBinlogOffset]

/-- An event of a preamble is written exactly if the reader does not expect it as information only. -/
theorem Joined.preamble (joined : Joined session) (sound : event.Sound)
    (preamble : event.getTypeCode = .formatDescription ∨ event.getTypeCode = .previousGtidsLog)
    (run : processBinlogEvent event session = .ok () session') :
    (Processed.Wrote ⟨session,event,session'⟩ ∨ session'.storage = session.storage) ∧
      (Processed.Wrote ⟨session,event,session'⟩ ↔ session.context.expectInfoOnlyPreambleEvents = false) := by
  obtain ⟨infoOnly,step,stored⟩ := processBinlogEvent_ok joined.sound sound.nonempty run
  have inner : event.getTypeCode ≠ .rotate ∧ event.getTypeCode ≠ .stop := by
    rcases preamble with code | code <;> simp [code]
  have opened := joined.opened (step.moved inner).1
  rw [← step.preamble preamble]
  have written := stored.inner inner
  cases infoOnly with
  | false => exact ⟨.inl written,iff_of_true written rfl⟩
  | true =>
    refine ⟨.inr written,iff_of_false ?_ nofun⟩
    -- a write would have moved the end of the file
    rintro ⟨nonempty,now,write⟩
    obtain ⟨log,tracked⟩ := joined.tracked
    have position := (tracked.written opened write).2.2.2
    rw [show session'.storage = session.storage from written] at position
    have some := List.length_pos_of_ne_nil sound.nonempty
    simp only [entryFor] at position
    omega

/-- What the artificial ROTATE has decided holds for all of the preamble. -/
theorem Processes.preamble {start : Session} {trace : List Processed} (processes : Processes start trace session)
    (joined : Joined start) (inner : ∀ step ∈ trace, step.event.getTypeCode ≠ .rotate) :
    session.context.expectInfoOnlyPreambleEvents = start.context.expectInfoOnlyPreambleEvents ∧
      ∀ step ∈ trace, step.event.getTypeCode = .formatDescription ∨ step.event.getTypeCode = .previousGtidsLog →
        (step.Wrote ∨ step.after.storage = step.before.storage) ∧
          (step.Wrote ↔ start.context.expectInfoOnlyPreambleEvents = false) := by
  induction processes with
  | stay => simp
  | aged before ih => exact ih inner
  | @event trace m session event before sound processed ih =>
    rw [List.forall_mem_append, List.forall_mem_singleton] at inner
    obtain ⟨expects,all⟩ := ih inner.1
    have joined := before.joined joined
    obtain ⟨infoOnly,step,-⟩ := processBinlogEvent_ok joined.sound sound.nonempty processed
    refine ⟨(step.expectInfoOnlyPreambleEvents fun rotate => inner.2 rotate.code).trans expects,?_⟩
    rw [List.forall_mem_append, List.forall_mem_singleton]
    exact ⟨all,fun preamble => expects ▸ joined.preamble sound preamble processed⟩

/-- A session goes on with the current file of `s`, of any length: the events of the preamble are written exactly if
    the length modulo `2 ^ 32` is at most that of the magic, which is as it should be exactly if the file has nothing
    but the magic, or the length modulo `2 ^ 32` is larger. -/
theorem preamble_written_iff {config : Config} {serverVersion : Nat} {gtidPurged : Bytes} {clock calendar : Nat → Nat}
    {s : Storage} {point : RestartPoint} {entered : Session} {rotate : EventView} {trace : List Processed}
    (reachable : Reachable s)
    (connected : connect config serverVersion gtidPurged clock calendar s = .ok (point,session))
    (sound : rotate.Sound) (artificial : rotate.IsArtificialRotate)
    (same : rotate.getBodyRaw = s.getCurrentBinlogName.str)
    (enter : processBinlogEvent rotate session = .ok () entered)
    (processes : Processes entered trace session') (inner : ∀ step ∈ trace, step.event.getTypeCode ≠ .rotate) :
    ∀ step ∈ trace, step.event.getTypeCode = .formatDescription ∨ step.event.getTypeCode = .previousGtidsLog →
      (step.Wrote ∨ step.after.storage = step.before.storage) ∧
      (step.Wrote ↔ s.getCurrentPosition % 2 ^ 32 ≤ 4) ∧
      ((step.Wrote ↔ s.getCurrentPosition = 4) ↔ s.getCurrentPosition = 4 ∨ 4 < s.getCurrentPosition % 2 ^ 32) := by
  obtain ⟨start,fresh,position,name,-⟩ := connect_joined reachable.tracked connected
  have decided := start.resumed fresh sound artificial (by rw [name, same]) enter
  rw [position] at decided
  intro step member preamble
  obtain ⟨either,wrote⟩ := (processes.preamble (start.rotated sound artificial enter).1 inner).2 step member preamble
  have small : step.Wrote ↔ s.getCurrentPosition % 2 ^ 32 ≤ 4 := by
    rw [wrote, decided, decide_eq_false_iff_not, not_lt, magicBinlogOffset]
  refine ⟨either,small,?_⟩
  rw [small]
  omega

end

namespace Sample
attribute [local instance] FlatJson.externals

/-- `b.000001` -/
def name : CompositeBinlogName := CompositeBinlogName.Sample.first

/-- A storage in the GTID mode without checkpoints. -/
def quiet : Storage := Storage.Sample.emptyStorage.withCheckpoint {}

/-- An event of many bytes, in the middle of a transaction or at its end. -/
def bulk (size : Nat) (some : size ≠ 0) (last : Bool) : EventEntry where
  data := List.replicate size 0
  nonempty := by simpa using some
  atTransactionBoundary := last
  transactionGtid := .empty
  timestamp := 0
  sequenceNumber := 1

theorem bulk_length {size : Nat} (some : size ≠ 0) (last : Bool) : (bulk size some last).data.length = size :=
  List.length_replicate

def opened : Storage := (Storage.openBinlog name 0).after quiet

def half : Storage := opened.withBuffer (opened.buffer.write (bulk (2 ^ 31) (by decide) false) .empty)

/-- The file has `2 ^ 31` bytes of one event and `size` bytes of another one. -/
def held (size : Nat) (some : size ≠ 0) : Storage := half.withBuffer (half.buffer.write (bulk size some true) .empty)

theorem opened_reachable : Reachable opened := by
  have start : Reachable quiet := .start (u := ()) rfl
  exact @Reachable.step _ quiet opened start (.openBinlog name) 0 () rfl rfl

theorem opened_data : opened.buffer.data.length = 0 := rfl

theorem half_data : half.buffer.data.length = 2 ^ 31 := by
  show (opened.buffer.data ++ List.replicate (2 ^ 31) 0).length = 2 ^ 31
  rw [List.length_append, List.length_replicate, opened_data, Nat.zero_add]

theorem held_data (size : Nat) (some : size ≠ 0) : (held size some).buffer.data.length = 2 ^ 31 + size := by
  show (half.buffer.data ++ List.replicate size 0).length = _
  rw [List.length_append, List.length_replicate, half_data]

theorem held_position (size : Nat) (some : size ≠ 0) : (held size some).getCurrentPosition = 4 + 2 ^ 31 + size := by
  rw [Storage.getCurrentPosition, held_data, ← Nat.add_assoc]
  rfl

theorem held_reachable {size : Nat} (some : size ≠ 0) (small : size ≤ 2 ^ 31) : Reachable (held size some) := by
  have first : Storage.writeEntry (bulk (2 ^ 31) (by decide) false) 0 opened = .ok () half :=
    Storage.writeEntry_quiet 0 rfl (by
      rw [opened_data, bulk_length, EventBuffer.maxSize]
      omega) nofun (fun _ => rfl)
  have second : Storage.writeEntry (bulk size some true) 0 half = .ok () (held size some) :=
    Storage.writeEntry_quiet 0 rfl (by
      rw [half_data, bulk_length, EventBuffer.maxSize]
      omega) (fun _ => rfl) (fun _ => rfl)
  have halfway := @Reachable.step _ opened half opened_reachable (.writeEvent (bulk (2 ^ 31) (by decide) false)) 0 () rfl first
  exact @Reachable.step _ half (held size some) halfway (.writeEvent (bulk size some true)) 0 () rfl second

/-- The reader of a session that goes on with a file of `2 ^ 32 + 4` bytes. -/
def reader : ReaderContext := .make 80400 false .gtid Events.Sample.name 4

def rotate : EventView := ⟨Events.Sample.artificialRotate Events.Sample.name 4,8,0⟩
def description : EventView := ⟨Events.Sample.formatDescription,99,4⟩
def previousGtids : EventView := ⟨Events.Sample.previousGtids,0,0⟩

/-- What the reader becomes by an event. -/
def read (context : ReaderContext) (event : EventView) : ReaderContext :=
  match context.processEventView event with
  | .ok (_,next) => next
  | .error _ => context

def entered : ReaderContext := read reader rotate
def described : ReaderContext := read entered description
def preambled : ReaderContext := read described previousGtids

/-- A session over `s`; its clocks do not move. -/
@[simps] def sessionOf (s : Storage) (context : ReaderContext) : Session := ⟨s,context,fun _ => 0,fun _ => 0⟩

/-- The storage with an event of the preamble. -/
def written (s : Storage) (event : EventView) (context : ReaderContext) (nonempty : event.portion ≠ []) : Storage :=
  s.withBuffer (s.buffer.write (entryFor event context nonempty) .empty)

theorem enters (s : Storage) (mode : s.replicationMode = .gtid) (opened : s.isBinlogOpen = true)
    (named : s.getCurrentBinlogName = name) : processBinlogEvent rotate (sessionOf s reader) = .ok () (sessionOf s entered) := by
  have accepted : reader.processEventView rotate = .ok (true,entered) := by decide +kernel
  have parsed : CompositeBinlogName.parse rotate.getBodyRaw = .ok name := by decide +kernel
  rw [← named] at parsed
  exact @processBinlogEvent_reused _ (sessionOf s reader) rotate entered accepted
    ⟨by decide +kernel,by decide +kernel,by decide +kernel,by decide +kernel⟩ mode opened parsed

theorem writes (s : Storage) {context next : ReaderContext} {event : EventView} (nonempty : event.portion ≠ [])
    (streaming : s.constructionMode = .streaming) (quiet : s.checkpoint = {})
    (accepted : context.processEventView event = .ok (false,next))
    (inner : event.getTypeCode ≠ .rotate ∧ event.getTypeCode ≠ .stop)
    (idle : next.transactionSequenceNumber = 0 ∧ next.isAtTransactionBoundary = false)
    (fits : s.buffer.data.length + event.portion.length ≤ EventBuffer.maxSize) :
    processBinlogEvent event (sessionOf s context) = .ok () (sessionOf (written s event next nonempty) next) := by
  refine @processBinlogEvent_written _ (sessionOf s context) event next nonempty _ accepted inner (by rw [idle.1]; decide) ?_
  refine Storage.writeEntry_quiet 0 streaming fits (fun boundary => ?_) (fun position => ?_)
  · cases idle.2.symm.trans boundary
  · rw [sessionOf, quiet]
    rfl

theorem written_data (s : Storage) (event : EventView) (context : ReaderContext) (nonempty : event.portion ≠ []) :
    (written s event context nonempty).buffer.data = s.buffer.data ++ event.portion := by
  simp only [written, Storage.withBuffer_buffer, EventBuffer.write]
  split <;> rfl

theorem written_settings (s : Storage) (event : EventView) (context : ReaderContext) (nonempty : event.portion ≠ []) :
    (written s event context nonempty).constructionMode = s.constructionMode ∧
      (written s event context nonempty).checkpoint = s.checkpoint := ⟨rfl,rfl⟩

/-- The reader takes the file for one that has nothing but the magic, and the preamble is written. -/
theorem preamble_received (s : Storage) (streaming : s.constructionMode = .streaming) (quiet : s.checkpoint = {})
    (mode : s.replicationMode = .gtid) (opened : s.isBinlogOpen = true) (named : s.getCurrentBinlogName = name)
    (fits : s.buffer.data.length ≤ 2 ^ 32) : ∃ session',
    receivePackets config preamble (sessionOf s reader) = .ok () session' ∧
      session'.storage.buffer.data = s.buffer.data ++ Events.Sample.formatDescription ++ Events.Sample.previousGtids := by
  have descriptionLength : description.portion.length = 123 := by decide +kernel
  have previousLength : previousGtids.portion.length = 27 := by decide +kernel
  have some : description.portion ≠ [] := by decide +kernel
  have more : previousGtids.portion ≠ [] := by decide +kernel
  have describe := @writes s entered described description some streaming quiet (by decide +kernel) (by decide +kernel)
    (by decide +kernel) (by
      rw [descriptionLength, EventBuffer.maxSize]
      omega)
  obtain ⟨sameMode,sameCheckpoint⟩ := written_settings s description described some
  have finish := @writes (written s description described some) described preambled previousGtids more
    (sameMode.trans streaming) (sameCheckpoint.trans quiet)
    (by decide +kernel) (by decide +kernel) (by decide +kernel) (by
      rw [written_data, List.length_append, descriptionLength, previousLength, EventBuffer.maxSize]
      omega)
  have rotateView : EventView.make (sessionOf s reader).context (Events.Sample.artificialRotate Events.Sample.name 4) =
      .ok rotate := by
    rw [sessionOf_context]
    decide +kernel
  have descriptionView : EventView.make (sessionOf s entered).context Events.Sample.formatDescription = .ok description := by
    rw [sessionOf_context]
    decide +kernel
  have previousView : EventView.make (sessionOf (written s description described some) described).context
      Events.Sample.previousGtids = .ok previousGtids := by
    rw [sessionOf_context]
    decide +kernel
  refine ⟨sessionOf (written (written s description described some) previousGtids preambled more) preambled,?_,?_⟩
  · rw [preamble, packet, packet, packet, receivePackets_cons rfl rotateView (enters s mode opened named),
      receivePackets_cons rfl descriptionView describe, receivePackets_cons rfl previousView finish]
    rfl
  · simp only [sessionOf_storage, written_data, description, previousGtids]

end Sample

section
attribute [local instance] FlatJson.externals

theorem preamble_written_iff_new : ∃ point described, Reachable Sample.opened ∧
    connect Sample.config 80400 [] (fun _ => 0) (fun _ => 0) Sample.opened =
      .ok (point,Sample.sessionOf Sample.opened Sample.reader) ∧
    processBinlogEvent Sample.rotate (Sample.sessionOf Sample.opened Sample.reader) =
      .ok () (Sample.sessionOf Sample.opened Sample.entered) ∧
    processBinlogEvent Sample.description (Sample.sessionOf Sample.opened Sample.entered) = .ok () described ∧
    (Processed.Wrote ⟨Sample.sessionOf Sample.opened Sample.entered,Sample.description,described⟩ ↔
      Sample.opened.getCurrentPosition % 2 ^ 32 ≤ 4) := by
  obtain ⟨point,connected⟩ : ∃ point, connect Sample.config 80400 [] (fun _ => 0) (fun _ => 0) Sample.opened =
      .ok (point,Sample.sessionOf Sample.opened Sample.reader) := ⟨_,rfl⟩
  have enter := Sample.enters Sample.opened rfl rfl rfl
  have describe := @Sample.writes Sample.opened Sample.entered Sample.described Sample.description (by decide +kernel) rfl
    rfl (by decide +kernel) (by decide +kernel) (by decide +kernel) (by decide +kernel)
  have sound : Sample.rotate.Sound := ⟨by decide +kernel,by decide +kernel,by decide +kernel⟩
  have described : Sample.description.Sound := ⟨by decide +kernel,by decide +kernel,by decide +kernel⟩
  have artificial : Sample.rotate.IsArtificialRotate :=
    ⟨by decide +kernel,by decide +kernel,by decide +kernel,by decide +kernel⟩
  have code : Sample.description.getTypeCode = .formatDescription := by decide +kernel
  refine ⟨point,_,Sample.opened_reachable,connected,enter,describe,?_⟩
  refine (preamble_written_iff Sample.opened_reachable connected sound artificial (by decide +kernel) enter
    (Processes.stay.event described describe) ?_ _ (List.mem_singleton_self _) (.inl code)).2.1
  intro step member
  rw [List.mem_singleton.mp member, code]
  decide

/-- A file of `2 ^ 32 + 4` bytes gets its preamble a second time. -/
theorem preamble_written_twice : ∃ s point session session', Reachable s ∧ s.getCurrentPosition = 2 ^ 32 + 4 ∧
    s.getCurrentBinlogName.str = Events.Sample.name ∧
    connect Sample.config 80400 [] (fun _ => 0) (fun _ => 0) s = .ok (point,session) ∧
    receivePackets Sample.config Sample.preamble session = .ok () session' ∧
    session'.storage.buffer.data = s.buffer.data ++ Events.Sample.formatDescription ++ Events.Sample.previousGtids := by
  have position : (Sample.held (2 ^ 31) (by decide)).getCurrentPosition = 2 ^ 32 + 4 := Sample.held_position _ _
  have reachable := @Sample.held_reachable (2 ^ 31) (by decide) le_rfl
  have reader : readerFor Sample.config 80400 (Sample.held (2 ^ 31) (by decide)) = Sample.reader := by
    rw [readerFor, position]
    rfl
  obtain ⟨point,connected⟩ : ∃ point, connect Sample.config 80400 [] (fun _ => 0) (fun _ => 0)
      (Sample.held (2 ^ 31) (by decide)) = .ok (point,Sample.sessionOf (Sample.held (2 ^ 31) (by decide)) Sample.reader) := by
    rw [← reader]
    exact ⟨_,rfl⟩
  obtain ⟨session',received,data⟩ := Sample.preamble_received (Sample.held (2 ^ 31) (by decide)) rfl rfl rfl rfl rfl
    (Sample.held_data _ _).le
  exact ⟨_,point,_,session',reachable,position,by decide +kernel,connected,received,data⟩

end
end Session
end BinlogServer.App
