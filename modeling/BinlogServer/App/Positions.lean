import BinlogServer.App.Runs
import BinlogServer.Store.Positions

/-!
# Two counters for one file

The reader counts where the events of a file end, modulo `2 ^ 32`, and the storage knows how much it holds for the
file. The reader starts again at the magic when an artificial ROTATE comes, while the storage goes on with a file it
already has.
-/

namespace BinlogServer.Events.ReaderContext
variable {context context' : ReaderContext} {event : EventView} {infoOnly : Bool}

theorem Between.inside (between : context.Between) : context.state ≠ .rotateArtificialExpected := by
  rcases between with state | ⟨state,-⟩ <;> simp [state]

theorem Step.rotated (step : Step context event infoOnly context') (rotate : event.IsArtificialRotate) :
    context' = context.left.enterBinlog event.getBodyRaw ∧
      RotatePostHeader.make event.getPostHeaderRaw = .ok (context.left.rotatePosition event) := by
  cases step with
  | artificialRotate start rotate position => exact ⟨rfl,position⟩
  | formatDescription layout start code => cases code.symm.trans rotate.code
  | previousGtids start code => cases code.symm.trans rotate.code
  | gtid _ _ _ start code => simp [rotate.code,CodeType.isGtid] at code
  | other start plain => exact absurd rotate.code plain.2.1
  | terminator start last => cases rotate.artificial.symm.trans last.artificial

/-- An event inside a file moves the reader by its size, unless the file already has it. -/
theorem Step.moved (step : Step context event infoOnly context')
    (inner : event.getTypeCode ≠ .rotate ∧ event.getTypeCode ≠ .stop) :
    context.state ≠ .rotateArtificialExpected ∧ context'.state ≠ .rotateArtificialExpected ∧
      context'.binlogName = context.binlogName ∧ context'.isFresh = context.isFresh ∧
      if infoOnly then context'.position = context.position
      else context.PositionOk event ∧ context'.position = event.getNextEventPositionRaw := by
  cases step with
  | artificialRotate start rotate => exact absurd rotate.code inner.1
  | formatDescription layout start code plain learned position =>
    refine ⟨by simp [start],?_,rfl,rfl,?_⟩
    · simp only [withState_state, describedState]
      split <;> simp
    · cases info : context.expectInfoOnlyPreambleEvents with
      | true => simp [preamblePosition,info]
      | false => simpa [preamblePosition,info] using position info
  | previousGtids start code plain position =>
    refine ⟨by simp [start],by simp,rfl,rfl,?_⟩
    cases info : context.expectInfoOnlyPreambleEvents with
    | true => simp [preamblePosition,info]
    | false => simpa [preamblePosition,info] using position info
  | gtid _ _ _ start code known info named short position => exact ⟨start.inside,by simp,rfl,rfl,position,rfl⟩
  | other start plain within position => exact ⟨by simp [start],by simp [start],rfl,rfl,position,rfl⟩
  | terminator start last =>
    rcases last.code with code | code
    · exact absurd code inner.1
    · exact absurd code inner.2

/-- The last event of a file takes the reader back to the magic. -/
theorem Step.terminated (step : Step context event infoOnly context') (last : event.IsTerminator) :
    context.state ≠ .rotateArtificialExpected ∧ context.PositionOk event ∧
      context' = context.finished.resetPosition.withState .rotateArtificialExpected := by
  cases step with
  | artificialRotate start rotate => cases rotate.artificial.symm.trans last.artificial
  | formatDescription layout start code => rcases last.code with same | same <;> cases code.symm.trans same
  | previousGtids start code => rcases last.code with same | same <;> cases code.symm.trans same
  | gtid _ _ _ start code => exact absurd last.code (isGtid_not_last code)
  | other start plain =>
    rcases last.code with same | same
    · exact absurd same plain.2.1
    · exact absurd same plain.2.2.1
  | terminator start last position => exact ⟨start.inside,position,rfl⟩

/-- There are three kinds of events. -/
theorem Step.kind (step : Step context event infoOnly context') :
    event.IsArtificialRotate ∨ (event.getTypeCode ≠ .rotate ∧ event.getTypeCode ≠ .stop) ∨ event.IsTerminator := by
  cases step with
  | artificialRotate start rotate => exact .inl rotate
  | formatDescription layout start code => exact .inr (.inl (by simp [code]))
  | previousGtids start code => exact .inr (.inl (by simp [code]))
  | gtid _ _ _ start code => exact .inr (.inl (not_or.mp (isGtid_not_last code)))
  | other start plain => exact .inr (.inl ⟨plain.2.1,plain.2.2.1⟩)
  | terminator start last => exact .inr (.inr last)

end BinlogServer.Events.ReaderContext

namespace BinlogServer.App
open ByteString Util Gtids Events Store

namespace Session

section
variable [Externals] {s t : Storage} {event : EventView} {context : ReaderContext} {infoOnly : Bool}

/-- An artificial ROTATE leaves the file open that it names: where that one ended, or a new one. -/
theorem Stored.rotated (stored : Stored s event context infoOnly t) (tracked : ∃ log, Storage.Tracked s log)
    (rotate : event.IsArtificialRotate) :
    (∃ log, Storage.Tracked t log) ∧ t.isBinlogOpen = true ∧ t.getCurrentBinlogName.str = event.getBodyRaw ∧
      t.getCurrentPosition =
        if event.getBodyRaw = s.getCurrentBinlogName.str then s.getCurrentPosition else magicBinlogOffset := by
  obtain ⟨log,tracked⟩ := tracked
  cases stored with
  | reused rotate opened named position =>
    have text := CompositeBinlogName.str_of_parse named
    exact ⟨⟨log,tracked⟩,opened,text,by rw [if_pos text.symm]⟩
  | changed name now later status closed t rotate opened named other close reopen =>
    obtain ⟨idle,same⟩ := tracked.closes close
    obtain ⟨tracked,opened,current,position⟩ := idle.opens reopen (CompositeBinlogName.parse_nonempty named)
    have text := CompositeBinlogName.str_of_parse named
    refine ⟨tracked,opened,by rw [current, text],?_⟩
    rw [position, if_neg (by rw [same]; exact other), if_neg]
    rw [← text]
    exact fun equal => other (CompositeBinlogName.str_injective equal)
  | opened name now status t rotate closed named reopen =>
    obtain ⟨tracked,opened,current,position⟩ := tracked.opens reopen (CompositeBinlogName.parse_nonempty named)
    have text := CompositeBinlogName.str_of_parse named
    refine ⟨tracked,opened,by rw [current, text],?_⟩
    rw [position, ← text]
    simp only [CompositeBinlogName.str_injective.eq_iff]
  | passed preamble => simp [rotate.code] at preamble
  | written nonempty now t inner => exact absurd rotate.code inner.1
  | ended nonempty now later m t last => cases rotate.artificial.symm.trans last.artificial

/-- An event inside a file is written, if it is not for information only. -/
theorem Stored.inner (stored : Stored s event context infoOnly t)
    (inner : event.getTypeCode ≠ .rotate ∧ event.getTypeCode ≠ .stop) :
    if infoOnly = true then t = s
    else ∃ nonempty now, Storage.writeEntry (entryFor event context nonempty) now s = .ok () t := by
  cases stored with
  | reused rotate => exact absurd rotate.code inner.1
  | changed name now later status closed t rotate => exact absurd rotate.code inner.1
  | opened name now status t rotate => exact absurd rotate.code inner.1
  | passed preamble => exact rfl
  | written nonempty now t inner write => exact ⟨nonempty,now,write⟩
  | ended nonempty now later m t last =>
    rcases last.code with code | code
    · exact absurd code inner.1
    · exact absurd code inner.2

theorem Stored.moved (stored : Stored s event context infoOnly t) (tracked : ∃ log, Storage.Tracked s log)
    (opened : s.isBinlogOpen = true) (inner : event.getTypeCode ≠ .rotate ∧ event.getTypeCode ≠ .stop) :
    (∃ log, Storage.Tracked t log) ∧ t.isBinlogOpen = true ∧ t.getCurrentBinlogName = s.getCurrentBinlogName ∧
      t.getCurrentPosition = s.getCurrentPosition + if infoOnly then 0 else event.portion.length := by
  obtain ⟨log,tracked⟩ := tracked
  have written := stored.inner inner
  split at written
  · rename_i info
    subst written
    exact ⟨⟨log,tracked⟩,opened,rfl,by simp [info]⟩
  · rename_i plain
    obtain ⟨nonempty,now,write⟩ := written
    obtain ⟨next,opened,name,position⟩ := tracked.written opened write
    exact ⟨next,opened,name,by simp [plain,position,entryFor]⟩

/-- The last event of a file leaves it closed. -/
theorem Stored.closed (stored : Stored s event context infoOnly t) (tracked : ∃ log, Storage.Tracked s log)
    (opened : s.isBinlogOpen = true) (last : event.IsTerminator) :
    Storage.Tracked t none ∧ t.getCurrentBinlogName = s.getCurrentBinlogName := by
  obtain ⟨log,tracked⟩ := tracked
  cases stored with
  | reused rotate => cases rotate.artificial.symm.trans last.artificial
  | changed name now later status closed t rotate => cases rotate.artificial.symm.trans last.artificial
  | opened name now status t rotate => cases rotate.artificial.symm.trans last.artificial
  | passed preamble => rcases preamble with code | code <;> rcases last.code with end' | end' <;> cases code.symm.trans end'
  | written nonempty now t inner =>
    rcases last.code with code | code
    · exact absurd code inner.1
    · exact absurd code inner.2
  | ended nonempty now later m t last write close =>
    obtain ⟨⟨log,tracked⟩,-,name,-⟩ := tracked.written opened write
    obtain ⟨idle,same⟩ := tracked.closes close
    exact ⟨idle,same.trans name⟩

end
/-- The position of the reader while it waits for an artificial ROTATE. -/
def restartPosition (session : Session) : Nat :=
  if session.context.isFresh = true ∧ session.storage.getCurrentPosition % 2 ^ 32 ≠ 0 then
    session.storage.getCurrentPosition % 2 ^ 32
  else magicBinlogOffset

/-- What the reader and the storage know about each other between two events. -/
structure Joined [Externals] (session : Session) : Prop where
  sound : session.context.Sound
  tracked : ∃ log, Storage.Tracked session.storage log
  named : session.context.binlogName = session.storage.getCurrentBinlogName.str
  small : session.context.position < 2 ^ 32
  fresh : session.context.isFresh = true → session.context.state = .rotateArtificialExpected
  waiting : session.context.state = .rotateArtificialExpected → session.context.position = session.restartPosition
  opened : session.context.state ≠ .rotateArtificialExpected → session.storage.isBinlogOpen = true

/-- The reader and the storage agree on where the current file ends. -/
def Agrees (session : Session) : Prop := session.context.position = session.storage.getCurrentPosition % 2 ^ 32

instance (session : Session) : Decidable session.Agrees := inferInstanceAs (Decidable (_ = _))

section
variable [Externals] {session session' : Session} {event : EventView}

theorem Joined.aged (joined : Joined session) : Joined session.aged :=
  ⟨joined.sound,joined.tracked,joined.named,joined.small,joined.fresh,joined.waiting,joined.opened⟩

/-- A session starts with the two joined. -/
theorem connect_joined {config : Config} {serverVersion : Nat} {gtidPurged : Bytes} {clock calendar : Nat → Nat}
    {s : Storage} {point : RestartPoint} (tracked : ∃ log, Storage.Tracked s log)
    (connected : connect config serverVersion gtidPurged clock calendar s = .ok (point,session)) :
    Joined session ∧ session.context.isFresh = true ∧ session.storage.getCurrentPosition = s.getCurrentPosition ∧
      session.storage.getCurrentBinlogName = s.getCurrentBinlogName ∧ session.storage.isEmpty = s.isEmpty := by
  obtain ⟨t,switched,rfl⟩ := connect_ok connected
  obtain ⟨log,tracked⟩ := tracked
  have same : t = s ∨ ∃ gtids, t = s.withPurgedGtids gtids := by
    rcases switchToReplication_ok switched with ⟨-,changed,-⟩ | ⟨-,rfl,-⟩
    · split at changed
      · obtain ⟨gtids,-,rfl⟩ := changed
        exact .inr ⟨gtids,rfl⟩
      · exact .inl changed
    · exact .inl rfl
  have kept : Storage.Tracked t log ∧ t.getCurrentPosition = s.getCurrentPosition ∧
      t.getCurrentBinlogName = s.getCurrentBinlogName ∧ t.isEmpty = s.isEmpty := by
    rcases same with rfl | ⟨gtids,rfl⟩
    · exact ⟨tracked,rfl,rfl,rfl⟩
    · exact ⟨tracked.withPurgedGtids gtids,rfl,rfl,rfl⟩
  have position : (readerFor config serverVersion t).position =
      restartPosition ⟨t,readerFor config serverVersion t,clock,calendar⟩ := by
    simp [readerFor,ReaderContext.make,restartPosition,ReaderContext.isFresh,ite_not]
  refine ⟨⟨⟨ReaderContext.make_settled ..,by simp [readerFor,ReaderContext.make]⟩,⟨log,kept.1⟩,rfl,?_,fun _ => rfl,
    fun _ => position,fun inside => absurd rfl inside⟩,rfl,kept.2⟩
  rw [position, restartPosition]
  split
  · exact Nat.mod_lt _ (by decide)
  · decide

/-- An artificial ROTATE: the reader starts where it waited, or at the magic. -/
theorem Joined.rotated (joined : Joined session) (sound : event.Sound) (rotate : event.IsArtificialRotate)
    (run : processBinlogEvent event session = .ok () session') :
    Joined session' ∧ session'.storage.isBinlogOpen = true ∧ session'.context.isFresh = false ∧
      session'.context.state = .formatDescriptionExpected ∧
      session'.storage.getCurrentBinlogName.str = event.getBodyRaw ∧
      (if event.getBodyRaw = session.storage.getCurrentBinlogName.str then
        session'.storage.getCurrentPosition = session.storage.getCurrentPosition ∧
          session'.context.position = session.restartPosition
      else session'.storage.getCurrentPosition = magicBinlogOffset ∧ session'.context.position = magicBinlogOffset) := by
  obtain ⟨infoOnly,step,stored⟩ := processBinlogEvent_ok joined.sound sound.nonempty run
  obtain ⟨tracked,opened,name,position⟩ := stored.rotated joined.tracked rotate
  have next := step.sound joined.sound
  obtain ⟨context,-⟩ := step.rotated rotate
  have start : session.context.left.position = session.restartPosition := by
    unfold ReaderContext.left
    split
    · rename_i waits
      exact joined.waiting waits
    · rename_i inside
      have old : session.context.isFresh ≠ true := fun fresh => inside (joined.fresh fresh)
      simp [restartPosition,old]
  have bounded : session.restartPosition < 2 ^ 32 := by
    unfold restartPosition
    split
    · exact Nat.mod_lt _ (by decide)
    · decide
  have sameName : session.context.left.binlogName = session.storage.getCurrentBinlogName.str := by
    rw [← joined.named, ReaderContext.left]
    split <;> rfl
  have state : session'.context.state = .formatDescriptionExpected := by simp [context]
  have fresh : session'.context.isFresh = false := by simp [context,ReaderContext.isFresh]
  have reader : session'.context.position =
      if event.getBodyRaw = session.storage.getCurrentBinlogName.str then session.restartPosition
      else magicBinlogOffset := by
    rw [context, ReaderContext.enterBinlog_position, sameName, start]
  refine ⟨⟨next,tracked,?_,?_,by simp [fresh],by simp [state],fun _ => opened⟩,opened,fresh,state,name,?_⟩
  · rw [name, context, ReaderContext.enterBinlog_binlogName]
  · rw [reader]
    split
    · exact bounded
    · decide
  · rw [position, reader]
    split <;> exact ⟨rfl,rfl⟩

/-- An event inside a file moves both counters, or none. -/
theorem Joined.moved (joined : Joined session) (sound : event.Sound)
    (inner : event.getTypeCode ≠ .rotate ∧ event.getTypeCode ≠ .stop)
    (run : processBinlogEvent event session = .ok () session') :
    Joined session' ∧ session.context.state ≠ .rotateArtificialExpected ∧
      session'.context.state ≠ .rotateArtificialExpected ∧ session'.context.isFresh = session.context.isFresh ∧
      (session'.Agrees ↔ session.Agrees) := by
  obtain ⟨infoOnly,step,stored⟩ := processBinlogEvent_ok joined.sound sound.nonempty run
  obtain ⟨inside,state,name,fresh,position⟩ := step.moved inner
  obtain ⟨tracked,opened,same,moved⟩ := stored.moved joined.tracked (joined.opened inside) inner
  have next := step.sound joined.sound
  have bounded : session'.context.position < 2 ^ 32 := by
    split at position
    · rw [position]
      exact joined.small
    · rw [position.2]
      exact CommonHeader.getNextEventPositionRaw_lt _
  refine ⟨⟨next,tracked,?_,bounded,?_,fun waits => absurd waits state,fun _ => opened⟩,inside,state,fresh,?_⟩
  · rw [name, same, joined.named]
  · rw [fresh]
    exact fun new => absurd (joined.fresh new) inside
  · unfold Agrees
    rw [moved]
    have size := sound.size
    have small := joined.small
    cases infoOnly with
    | true =>
      simp only [if_true] at position ⊢
      rw [position, Nat.add_zero]
    | false =>
      simp only [Bool.false_eq_true, if_false, ReaderContext.PositionOk] at position ⊢
      rw [position.2, ← position.1.2, size]
      omega

/-- The last event of a file leaves the reader waiting. -/
theorem Joined.terminated (joined : Joined session) (sound : event.Sound) (last : event.IsTerminator)
    (run : processBinlogEvent event session = .ok () session') :
    Joined session' ∧ session.context.state ≠ .rotateArtificialExpected ∧
      session'.context.state = .rotateArtificialExpected ∧ session'.context.isFresh = session.context.isFresh ∧
      session'.storage.isBinlogOpen = false ∧
      session'.storage.getCurrentBinlogName = session.storage.getCurrentBinlogName := by
  obtain ⟨infoOnly,step,stored⟩ := processBinlogEvent_ok joined.sound sound.nonempty run
  obtain ⟨inside,position,context⟩ := step.terminated last
  obtain ⟨tracked,same⟩ := stored.closed joined.tracked (joined.opened inside) last
  have next := step.sound joined.sound
  have fresh : session'.context.isFresh = session.context.isFresh := by rw [context]; rfl
  have old : session'.context.isFresh ≠ true := by
    rw [fresh]
    exact fun new => inside (joined.fresh new)
  have state : session'.context.state = .rotateArtificialExpected := by rw [context]; rfl
  have reset : session'.context.position = magicBinlogOffset := by rw [context]; rfl
  refine ⟨⟨next,⟨none,tracked⟩,?_,?_,fun _ => state,fun _ => ?_,fun outside => absurd state outside⟩,inside,state,fresh,
    tracked.closed,same⟩
  · rw [same, ← joined.named, context]
    rfl
  · rw [reset]
    decide
  · rw [reset, restartPosition, if_neg (fun both => old both.1)]

theorem Joined.step (joined : Joined session) (sound : event.Sound)
    (run : processBinlogEvent event session = .ok () session') : Joined session' := by
  obtain ⟨infoOnly,step,-⟩ := processBinlogEvent_ok joined.sound sound.nonempty run
  rcases step.kind with rotate | inner | last
  · exact (joined.rotated sound rotate run).1
  · exact (joined.moved sound inner run).1
  · exact (joined.terminated sound last run).1

theorem Processes.joined {start : Session} {trace : List Processed} (processes : Processes start trace session)
    (joined : Joined start) : Joined session := by
  induction processes with
  | stay => exact joined
  | aged before ih => exact ih.aged
  | event before sound processed ih => exact ih.step sound processed

theorem disconnect_tracked {s t : Storage} {endOfStream : Bool} {u : Unit} (tracked : ∃ log, Storage.Tracked s log)
    (disconnected : disconnect endOfStream s = .ok u t) : ∃ log, Storage.Tracked t log := by
  obtain ⟨log,tracked⟩ := tracked
  cases endOfStream with
  | true =>
    obtain ⟨-,rfl⟩ := Action.pure_eq_ok.mp disconnected
    exact ⟨log,tracked⟩
  | false =>
    obtain ⟨_,m,discarded,flushed⟩ := Action.bind_eq_ok.mp disconnected
    have whole := @Storage.Tracked.step _ s m log tracked .discardIncompleteTransactionEvents 0 _ rfl discarded
    exact ⟨_,@Storage.Tracked.step _ m t _ whole .flushEventBuffer 0 _ rfl flushed⟩

theorem Reachable.tracked {s : Storage} (reachable : Reachable s) : ∃ log, Storage.Tracked s log := by
  induction reachable with
  | start constructed => exact ⟨_,(Storage.Run.start constructed).tracked⟩
  | step reachable allowed returned ih =>
    obtain ⟨log,tracked⟩ := ih
    exact ⟨_,tracked.step allowed returned⟩
  | session reachable connected received disconnected ih =>
    obtain ⟨trace,processes⟩ := Processes.stay.receivePackets received
    exact disconnect_tracked (processes.joined (connect_joined ih connected).1).tracked disconnected
  | restart reachable constructed ih =>
    obtain ⟨log,tracked⟩ := ih
    exact ⟨none,tracked.restart constructed⟩
  | purge reachable examined purged constructed ih =>
    obtain ⟨log,tracked⟩ := ih
    exact ⟨none,tracked.purge examined purged constructed⟩

/-- An artificial ROTATE does not name the current file, or that file has nothing but the magic, or the session has
    just been connected and the file does not end at a multiple of `2 ^ 32`. -/
def RotatesInPlace (before : Session) (event : EventView) : Prop :=
  event.IsArtificialRotate → event.getBodyRaw = before.storage.getCurrentBinlogName.str →
    before.storage.getCurrentPosition % 2 ^ 32 = magicBinlogOffset ∨
      before.context.isFresh = true ∧ before.storage.getCurrentPosition % 2 ^ 32 ≠ 0

omit [Externals] in
theorem restartPosition_eq_iff : session.restartPosition = session.storage.getCurrentPosition % 2 ^ 32 ↔
    session.storage.getCurrentPosition % 2 ^ 32 = magicBinlogOffset ∨
      session.context.isFresh = true ∧ session.storage.getCurrentPosition % 2 ^ 32 ≠ 0 := by
  unfold restartPosition
  split
  · rename_i both
    exact ⟨fun _ => .inr both,fun _ => rfl⟩
  · rename_i other
    rw [or_iff_left other, eq_comm]

/-- What an artificial ROTATE does to the agreement depends on the file it names only. -/
theorem Joined.rotated_agrees (joined : Joined session) (sound : event.Sound) (rotate : event.IsArtificialRotate)
    (run : processBinlogEvent event session = .ok () session') : session'.Agrees ↔ RotatesInPlace session event := by
  obtain ⟨-,-,-,-,-,positions⟩ := joined.rotated sound rotate run
  unfold Agrees RotatesInPlace
  split at positions
  · rename_i same
    rw [positions.1, positions.2, restartPosition_eq_iff]
    exact ⟨fun found _ _ => found,fun found => found rotate same⟩
  · rename_i other
    rw [positions.1, positions.2]
    exact ⟨fun _ _ same => absurd same other,fun _ => by decide⟩

/-- The run lemma: as long as every artificial ROTATE is in place, the two agree on every open file, and no longer. -/
theorem Processes.agrees {start : Session} {trace : List Processed} (processes : Processes start trace session)
    (joined : Joined start) (waiting : start.context.state = .rotateArtificialExpected) :
    ((∀ step ∈ trace, step.after.storage.isBinlogOpen = true → step.after.Agrees) ↔
        ∀ step ∈ trace, RotatesInPlace step.before step.event) ∧
      ((∀ step ∈ trace, RotatesInPlace step.before step.event) →
        session.context.state ≠ .rotateArtificialExpected → session.Agrees) := by
  induction processes with
  | stay => exact ⟨by simp,fun _ inside => absurd waiting inside⟩
  | aged before ih => exact ih
  | @event trace m session event before sound processed ih =>
    obtain ⟨all,last⟩ := ih
    have joined := before.joined joined
    obtain ⟨infoOnly,step,-⟩ := processBinlogEvent_ok joined.sound sound.nonempty processed
    simp only [List.forall_mem_append, List.forall_mem_singleton, all]
    rcases step.kind with rotate | inner | terminator
    · have opened := (joined.rotated sound rotate processed).2.1
      have agrees := joined.rotated_agrees sound rotate processed
      exact ⟨and_congr_right fun _ => by simp [opened,agrees],fun both _ => agrees.mpr both.2⟩
    · obtain ⟨-,inside,-,-,agrees⟩ := joined.moved sound inner processed
      have place : RotatesInPlace m event := fun rotate => absurd rotate.code inner.1
      exact ⟨and_congr_right fun earlier => ⟨fun _ => place,fun _ _ => agrees.mpr (last earlier inside)⟩,
        fun both _ => agrees.mpr (last both.1 inside)⟩
    · obtain ⟨-,-,state,-,closed,-⟩ := joined.terminated sound terminator processed
      have place : RotatesInPlace m event := fun rotate => by cases rotate.artificial.symm.trans terminator.artificial
      exact ⟨and_congr_right fun _ => ⟨fun _ => place,fun _ opened => by cases closed.symm.trans opened⟩,
        fun _ inside => absurd state inside⟩

/-- In a session over any storage a process can have, what the packets lead to is a run by events, and in every such
    run the two positions agree after all events that leave a file open exactly if all its artificial ROTATEs are in
    place. -/
theorem positions_agree_iff {config : Config} {serverVersion : Nat} {gtidPurged : Bytes} {clock calendar : Nat → Nat}
    {s : Storage} {point : RestartPoint} (reachable : Reachable s)
    (connected : connect config serverVersion gtidPurged clock calendar s = .ok (point,session)) :
    (∀ packets session', receivePackets config packets session = .ok () session' →
        ∃ trace, Processes session trace session') ∧
      ∀ trace session', Processes session trace session' →
        ((∀ step ∈ trace, step.after.storage.isBinlogOpen = true →
            step.after.context.position = step.after.storage.getCurrentPosition % 2 ^ 32) ↔
          ∀ step ∈ trace, RotatesInPlace step.before step.event) := by
  refine ⟨fun packets session' received => ?_,fun trace session' processes => ?_⟩
  · exact Processes.stay.receivePackets received
  · obtain ⟨joined,fresh,-⟩ := connect_joined reachable.tracked connected
    exact (processes.agrees joined (joined.fresh fresh)).1

end

namespace Sample
attribute [local instance] FlatJson.externals

/-- Events are stored as they are received, in the GTID mode. -/
def config : Config := ⟨1,false,none⟩

def packet (event : Bytes) : Bytes := 0 :: event

/-- A session over an empty storage. -/
def session : Session :=
  let s := Storage.Sample.emptyStorage.withPurgedGtids .empty
  ⟨s,readerFor config 80400 s,fun _ => 0,fun _ => 0⟩

/-- The preamble of a file. -/
def preamble : List Bytes :=
  [packet (Events.Sample.artificialRotate Events.Sample.name 4),packet Events.Sample.formatDescription,
    packet Events.Sample.previousGtids]

theorem emptyStorage_reachable : Reachable Storage.Sample.emptyStorage := .start (u := ()) rfl

/-- Whether a file is open after some packets, and the two positions. -/
def positionsAfter (packets : List Bytes) : Option (Bool × Nat × Nat) :=
  match receivePackets config packets session with
  | .ok _ session' =>
    some (session'.storage.isBinlogOpen,session'.context.position,session'.storage.getCurrentPosition)
  | .error _ _ => none

theorem received_of_positionsAfter {packets : List Bytes} {opened : Bool} {position current : Nat}
    (positions : positionsAfter packets = some (opened,position,current)) :
    ∃ session', receivePackets config packets session = .ok () session' ∧ session'.storage.isBinlogOpen = opened ∧
      session'.context.position = position ∧ session'.storage.getCurrentPosition = current := by
  unfold positionsAfter at positions
  split at positions
  · rename_i session' received
    simp only [Option.some.injEq, Prod.mk.injEq] at positions
    exact ⟨session',received,positions⟩
  · cases positions

theorem session_connected : ∃ point,
    connect config 80400 [] (fun _ => 0) (fun _ => 0) Storage.Sample.emptyStorage = .ok (point,session) := ⟨_,rfl⟩

end Sample

section
attribute [local instance] FlatJson.externals

theorem positions_agree_iff_sample : ∃ point session', Reachable Storage.Sample.emptyStorage ∧
    connect Sample.config 80400 [] (fun _ => 0) (fun _ => 0) Storage.Sample.emptyStorage = .ok (point,Sample.session) ∧
    receivePackets Sample.config Sample.preamble Sample.session = .ok () session' ∧
    ∃ trace, Processes Sample.session trace session' ∧
      ((∀ step ∈ trace, step.after.storage.isBinlogOpen = true →
          step.after.context.position = step.after.storage.getCurrentPosition % 2 ^ 32) ↔
        ∀ step ∈ trace, RotatesInPlace step.before step.event) := by
  obtain ⟨point,connected⟩ := Sample.session_connected
  obtain ⟨runs,agree⟩ := positions_agree_iff Sample.emptyStorage_reachable connected
  obtain ⟨session',received,-⟩ := Sample.received_of_positionsAfter
    (show Sample.positionsAfter Sample.preamble = some (true,154,154) by decide +kernel)
  obtain ⟨trace,processes⟩ := runs _ _ received
  exact ⟨point,session',Sample.emptyStorage_reachable,connected,received,trace,processes,agree trace session' processes⟩

/-- A second artificial ROTATE that names the same file takes the reader back to the magic. -/
theorem positions_disagree : ∃ point session', Reachable Storage.Sample.emptyStorage ∧
    connect Sample.config 80400 [] (fun _ => 0) (fun _ => 0) Storage.Sample.emptyStorage = .ok (point,Sample.session) ∧
    receivePackets Sample.config
      (Sample.preamble ++ [Sample.packet (Events.Sample.artificialRotate Events.Sample.name 4)]) Sample.session =
        .ok () session' ∧
    session'.storage.isBinlogOpen = true ∧ session'.context.position = 4 ∧
    session'.storage.getCurrentPosition % 2 ^ 32 = 154 := by
  obtain ⟨point,connected⟩ := Sample.session_connected
  obtain ⟨session',received,opened,position,current⟩ := Sample.received_of_positionsAfter
    (show Sample.positionsAfter (Sample.preamble ++
      [Sample.packet (Events.Sample.artificialRotate Events.Sample.name 4)]) = some (true,4,154) by decide +kernel)
  exact ⟨point,session',Sample.emptyStorage_reachable,connected,received,opened,position,by rw [current]; rfl⟩

end

end Session
end BinlogServer.App
