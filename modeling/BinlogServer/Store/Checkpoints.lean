import BinlogServer.Store.Purging

/-!
# Checkpoints

When `write_event` flushes. Between the operations the position of the last checkpoint is not after what has been
flushed, and so what a write leaves in the buffer is smaller than the size of a checkpoint.
-/

namespace BinlogServer.Util.Action
variable {σ α β : Type} {R : σ → σ → Prop}

/-- What holds between the state before a computation and the state it leaves behind, whether it threw or not. -/
def Keeps (R : σ → σ → Prop) (x : Action σ α) : Prop := ∀ s, R s (x.after s)

theorem Keeps.bind [IsTrans σ R] {x : Action σ α} {f : α → Action σ β} (first : Keeps R x)
    (rest : ∀ a, Keeps R (f a)) : Keeps R (x >>= f) := by
  intro s
  have before := first s
  cases run : x s with
  | error failure t =>
    rw [after_error run] at before
    rwa [after_error (bind_eq_error.mpr (.inl run))]
  | ok a t =>
    rw [after_ok run] at before
    have same : (x >>= f).after s = (f a).after t := by
      rw [after, after, bind_of_ok run]
    rw [same]
    exact IsTrans.trans _ _ _ before (rest a t)

theorem Keeps.modify {f : σ → σ} (each : ∀ s, R s (f s)) : Keeps R (modify f : Action σ PUnit) := fun s => each s

theorem Keeps.get [Std.Refl R] : Keeps R (MonadState.get : Action σ σ) := fun s => Std.Refl.refl s

theorem Keeps.lift [Std.Refl R] (x : Fallible α) : Keeps R (liftM x : Action σ α) := by
  intro s
  cases x <;> exact Std.Refl.refl s

theorem Keeps.pure [Std.Refl R] (a : α) : Keeps R (Pure.pure a : Action σ α) := fun s => Std.Refl.refl s

end BinlogServer.Util.Action

namespace BinlogServer.Store
open ByteString Util Gtids Events

namespace Backend

/-- A stream is open or not, as before. -/
def SameOpen (b c : Backend) : Prop := c.isStreamOpen = b.isStreamOpen

theorem request_keeps (effect : Effect) (fileMessage s3Message : String) :
    Action.Keeps SameOpen (request effect fileMessage s3Message) := by
  intro b
  rcases request_cases (b := b) effect fileMessage s3Message with ⟨-,done⟩ | ⟨-,failure,⟨-,refused⟩ | ⟨-,late⟩⟩
  · rw [Action.after_ok done]
    rfl
  · rw [Action.after_error refused]
    rfl
  · rw [Action.after_error late]
    rfl

theorem writeDataToStream_keeps (data : Bytes) : Action.Keeps SameOpen (writeDataToStream data) := by
  intro b
  cases opened : b.stream with
  | none =>
    have closed : writeDataToStream data b =
        .error ⟨.logicError,"cannot write to the stream as it has not been opened"⟩ b := by
      rw [writeDataToStream, Action.get_bind_run, opened]
      rfl
    rw [Action.after_error closed]
    rfl
  | some stream =>
    rcases writeDataToStream_cases opened data with ⟨-,-,wrote⟩ | ⟨failure,left,raised,attempt,-⟩
    · rw [Action.after_ok wrote]
      simp [SameOpen,isStreamOpen,opened]
    · obtain ⟨next,still,-⟩ := attempt.opened
      rw [Action.after_error raised]
      simp [SameOpen,isStreamOpen,opened,still]

theorem request_raised {b c : Backend} {effect : Effect} {fileMessage s3Message : String} {failure : Failure}
    (raised : request effect fileMessage s3Message b = .error failure c) : SameOpen b c := by
  have keeps := request_keeps effect fileMessage s3Message b
  rwa [Action.after_error raised] at keeps

theorem openStream_raised {b c : Backend} {name : Bytes} {mode : OpenStreamMode} {failure : Failure}
    (raised : openStream name mode b = .error failure c) : SameOpen b c := by
  rw [openStream, Action.get_bind_run, Action.raiseIf_bind_run] at raised
  by_cases opened : b.isStreamOpen = true
  · rw [if_pos opened] at raised
    cases raised
    rfl
  · rw [if_neg opened] at raised
    cases mode with
    | create =>
      by_cases file : b.type = .filesystem
      · simp only [file, if_true, Action.bind_eq_error, Action.modify_ne_error, Action.pure_ne_error, and_false,
          exists_false, or_false] at raised
        exact request_raised raised
      · rw [if_neg file] at raised
        cases raised
    | append =>
      cases found : b.objects.find? name with
      | some content =>
        simp only [found] at raised
        cases raised
      | none =>
        simp only [found] at raised
        rw [Action.raiseIf_bind_run] at raised
        by_cases s3 : b.type = .s3
        · rw [if_pos s3] at raised
          cases raised
          rfl
        · rw [if_neg s3] at raised
          simp only [Action.bind_eq_error, Action.modify_ne_error, Action.pure_ne_error, and_false, exists_false,
            or_false] at raised
          exact request_raised raised

end Backend

namespace Storage

/-- What has been flushed has become more and what is buffered less, and neither the checkpoint nor the file that is open
    is another one. -/
structure Advances (s t : Storage) : Prop where
  checkpoint : t.checkpoint = s.checkpoint
  flushed : s.getFlushedPosition ≤ t.getFlushedPosition
  opened : t.isBinlogOpen = s.isBinlogOpen
  records : s.records ≠ [] → t.records ≠ []
  drained : s.buffer.data = [] → t.buffer.data = []

instance advancesRefl : Std.Refl Advances where
  refl _ := ⟨rfl,le_rfl,rfl,id,id⟩

instance advancesTrans : IsTrans Storage Advances where
  trans _ _ _ first second := ⟨second.checkpoint.trans first.checkpoint,first.flushed.trans second.flushed,
    second.opened.trans first.opened,second.records ∘ first.records,second.drained ∘ first.drained⟩

theorem onBackend_keeps {α : Type} {x : Action Backend α} (keeps : Action.Keeps Backend.SameOpen x) :
    Action.Keeps Advances (onBackend x) := by
  intro s
  have same := keeps s.backend
  cases run : x s.backend with
  | ok a b =>
    rw [Action.after_ok run] at same
    rw [Action.after_ok (onBackend_eq_ok.mpr ⟨b,run,rfl⟩)]
    exact ⟨rfl,le_rfl,same,id,id⟩
  | error failure b =>
    rw [Action.after_error run] at same
    rw [Action.after_error (onBackend_eq_error.mpr ⟨b,run,rfl⟩)]
    exact ⟨rfl,le_rfl,same,id,id⟩

theorem withBuffer_advances {s : Storage} {buffer : EventBuffer} (drained : s.buffer.data = [] → buffer.data = []) :
    Advances s (s.withBuffer buffer) := ⟨rfl,le_rfl,rfl,id,drained⟩

section
variable [Externals] {s t : Storage}

theorem saveMetadata_keeps : Action.Keeps Advances saveMetadata :=
  .bind .get fun _ => onBackend_keeps (Backend.request_keeps _ _ _)

theorem saveCurrentBinlogMetadata_keeps : Action.Keeps Advances saveCurrentBinlogMetadata := by
  refine .bind .get fun s => ?_
  cases s.records.getLast? with
  | none => exact .pure ()
  | some record => exact onBackend_keeps (Backend.request_keeps _ _ _)

theorem saveCurrentBinlogMetadata_records {u : Unit} (saved : saveCurrentBinlogMetadata s = .ok u t) :
    t.records = s.records ∧ t.buffer = s.buffer := by
  rw [saveCurrentBinlogMetadata, Action.get_bind_run] at saved
  cases last : s.records.getLast? with
  | none =>
    rw [last] at saved
    cases saved
    exact ⟨rfl,rfl⟩
  | some record =>
    rw [last] at saved
    obtain ⟨b,-,rfl⟩ := onBackend_eq_ok.mp saved
    exact ⟨rfl,rfl⟩

/-- A flush adds to what has been flushed, even when it raises. -/
theorem flushEventBufferInternal_keeps : Action.Keeps Advances flushEventBufferInternal := by
  refine .bind .get fun s => ?_
  refine .bind (onBackend_keeps (Backend.writeDataToStream_keeps _)) fun _ => ?_
  refine .bind (.modify fun s => ?_) fun _ => ?_
  · cases last : s.records.getLast? with
    | none =>
      have none := List.getLast?_eq_none_iff.mp last
      exact ⟨rfl,by simp [getFlushedPosition,none],rfl,fun some => absurd none some,id⟩
    | some record =>
      rw [updateCurrentRecord_eq last]
      refine ⟨rfl,?_,rfl,by simp,id⟩
      simp [getFlushedPosition,last,flushRecord]
  · refine .bind saveCurrentBinlogMetadata_keeps fun _ => .modify fun s => withBuffer_advances fun empty => ?_
    simp [empty]

theorem flushEventBuffer_keeps : Action.Keeps Advances flushEventBuffer := by
  refine .bind (.bind .get fun s => .lift _) fun _ => .bind .get fun s => ?_
  split
  · exact flushEventBufferInternal_keeps
  · exact .pure ()

/-- A flush of a file that has a record brings what has been flushed to the last transaction in the buffer. -/
theorem flushEventBufferInternal_flushed {u : Unit} (run : flushEventBufferInternal s = .ok u t) :
    s.isBinlogOpen = true ∧ t.buffer.lastTransactionBoundaryPosition = 0 ∧
      (s.records ≠ [] → t.getFlushedPosition = s.getReadyToFlushPosition) := by
  simp only [flushEventBufferInternal, Action.bind_eq_ok, Action.get_eq_ok, onBackend_eq_ok, Action.modify_eq_ok] at run
  obtain ⟨_,_,⟨rfl,rfl⟩,_,_,⟨b,wrote,rfl⟩,_,_,rfl,_,m,saved,rfl⟩ := run
  refine ⟨?_,rfl,fun some => ?_⟩
  · cases closed : s.backend.stream with
    | none =>
      rw [Backend.writeDataToStream, Action.get_bind_run, closed] at wrote
      cases wrote
    | some stream => simp [isBinlogOpen,Backend.isStreamOpen,closed]
  · obtain ⟨record,last⟩ := Option.ne_none_iff_exists'.mp (mt List.getLast?_eq_none_iff.mp some)
    have same := (saveCurrentBinlogMetadata_records saved).1
    simp only [getFlushedPosition, withBuffer_records, same]
    rw [updateCurrentRecord_eq (by simpa using last)]
    simp [flushRecord,getReadyToFlushPosition,getFlushedPosition,last]

/-- A file that is open has a record. -/
def Registered (s : Storage) : Prop := s.isBinlogOpen = true → s.records ≠ []

/-- The position of the last checkpoint is not after what has been flushed. -/
def Reached (s : Storage) : Prop :=
  s.checkpoint.sizeCheckpointingEnabled = true → s.checkpoint.lastPosition ≤ s.getFlushedPosition

/-- Where no file is open, nothing is buffered. -/
def Settled (s : Storage) : Prop := s.isBinlogOpen = false → s.buffer.data = []

/-- What holds of the checkpoints of the first storage holds of those of the second. -/
structure Checkpointing (s t : Storage) : Prop where
  registered : Registered s → Registered t
  reached : Registered s → Reached s → Reached t

omit [Externals] in
theorem Advances.checkpointing (advances : Advances s t) : Checkpointing s t := by
  refine ⟨fun registered opened => ?_,fun _ reached enabled => ?_⟩
  · exact advances.records (registered (advances.opened ▸ opened))
  · rw [advances.checkpoint] at enabled ⊢
    exact (reached enabled).trans advances.flushed

omit [Externals] in
theorem Advances.settled (advances : Advances s t) (settled : Settled s) : Settled t :=
  fun closed => advances.drained (settled (advances.opened ▸ closed))

instance checkpointingRefl : Std.Refl Checkpointing where
  refl _ := ⟨id,fun _ => id⟩

instance checkpointingTrans : IsTrans Storage Checkpointing where
  trans _ _ _ first second := ⟨second.registered ∘ first.registered,
    fun registered reached => second.reached (first.registered registered) (first.reached registered reached)⟩

omit [Externals] in
theorem Advances.keeps {α : Type} {x : Action Storage α} (keeps : Action.Keeps Advances x) :
    Action.Keeps Checkpointing x := fun s => (keeps s).checkpointing

/-- A flush is made if it is needed. -/
theorem checkpointIfNeeded_cases {now : Nat} {u : Unit} (run : checkpointIfNeeded now s = .ok u t) :
    (s.buffer.hasEventDataToFlush = true ∧ s.checkpoint.needsFlush s.getReadyToFlushPosition now = true) ∧
      (∃ m, flushEventBufferInternal s = .ok () m ∧ t = m.withCheckpoint { m.checkpoint with
        lastPosition := s.getReadyToFlushPosition
        lastTimestamp := now }) ∨
    ¬ (s.buffer.hasEventDataToFlush = true ∧ s.checkpoint.needsFlush s.getReadyToFlushPosition now = true) ∧ t = s := by
  rw [checkpointIfNeeded, Action.get_bind_run] at run
  split_ifs at run with needed
  · simp only [Action.bind_eq_ok, Action.modify_eq_ok] at run
    obtain ⟨_,m,flush,rfl⟩ := run
    exact .inl ⟨needed,m,flush,rfl⟩
  · exact .inr ⟨needed,(Action.pure_eq_ok.mp run).2.symm⟩

theorem checkpointIfNeeded_keeps (now : Nat) : Action.Keeps Checkpointing (checkpointIfNeeded now) := by
  intro s
  rw [Action.after, checkpointIfNeeded, Action.get_bind_run]
  split_ifs with needed
  · have advances := flushEventBufferInternal_keeps s
    cases flush : flushEventBufferInternal s with
    | error failure t =>
      rw [Action.after_error flush] at advances
      rw [Action.bind_eq_error.mpr (.inl flush)]
      exact advances.checkpointing
    | ok u t =>
      rw [Action.after_ok flush] at advances
      rw [Action.bind_of_ok flush, Action.modify_run]
      obtain ⟨opened,-,position⟩ := flushEventBufferInternal_flushed flush
      exact ⟨advances.checkpointing.registered,fun registered _ _ => (position (registered opened)).ge⟩
  · exact Std.Refl.refl s

omit [Externals] in
theorem ensureStreamingMode_keeps : Action.Keeps Advances ensureStreamingMode := .bind .get fun _ => .lift _

/-- A write fills the buffer and may make a checkpoint. -/
theorem writeEntry_keeps {R : Storage → Storage → Prop} [Std.Refl R] [IsTrans Storage R] (entry : EventEntry) {now : Nat}
    (buffered : ∀ s buffer, R s (s.withBuffer buffer)) (checkpoints : Action.Keeps R (checkpointIfNeeded now)) :
    Action.Keeps R (writeEntry entry now) := by
  refine .bind (.bind .get fun _ => .lift _) fun _ => .bind .get fun s => .bind (.lift _) fun _ => ?_
  refine .bind (.modify fun s => buffered s _) fun _ => ?_
  cases entry.atTransactionBoundary with
  | false => exact checkpoints
  | true =>
    refine .bind .get fun s => ?_
    split
    · exact .bind (.lift _) fun _ => .bind (.modify fun s => buffered s _) fun _ => checkpoints
    · exact .bind (.pure _) fun _ => .bind (.modify fun s => buffered s _) fun _ => checkpoints

omit [Externals] in
theorem withBuffer_checkpointing (s : Storage) (buffer : EventBuffer) : Checkpointing s (s.withBuffer buffer) :=
  ⟨id,fun _ => id⟩

/-- A file is open or not, as before. -/
def SameOpen (s t : Storage) : Prop := t.isBinlogOpen = s.isBinlogOpen

instance sameOpenRefl : Std.Refl SameOpen where
  refl _ := rfl

instance sameOpenTrans : IsTrans Storage SameOpen where
  trans _ _ _ first second := second.trans first

theorem checkpointIfNeeded_sameOpen (now : Nat) : Action.Keeps SameOpen (checkpointIfNeeded now) := by
  refine .bind .get fun s => ?_
  split
  · exact .bind (fun s => (flushEventBufferInternal_keeps s).opened) fun _ => .modify fun _ => rfl
  · exact .pure ()

omit [Externals] in
/-- The checkpoint that is made where a file begins or ends. -/
theorem updateLastCheckpointInfo_reached {now : Nat} (empty : s.buffer.data = []) :
    Reached (s.withCheckpoint (s.checkpoint.update s.getCurrentPosition now)) := by
  intro enabled
  have enabled : s.checkpoint.sizeCheckpointingEnabled = true := enabled
  have position : s.getCurrentPosition = s.getFlushedPosition := by simp [getCurrentPosition,empty]
  simp only [withCheckpoint_checkpoint, Checkpoint.update, if_pos enabled, position]
  rfl

/-- A file that is closed leaves nothing in the buffer. -/
theorem closeBinlog_keeps (now : Nat) :
    Action.Keeps (fun s t => Checkpointing s t ∧ (Settled s → Settled t)) (closeBinlog now) := by
  have : Std.Refl fun s t => Checkpointing s t ∧ (Settled s → Settled t) := ⟨fun s => ⟨Std.Refl.refl s,id⟩⟩
  have : IsTrans Storage fun s t => Checkpointing s t ∧ (Settled s → Settled t) :=
    ⟨fun _ _ _ first second => ⟨IsTrans.trans _ _ _ first.1 second.1,second.2 ∘ first.2⟩⟩
  have advanced {x : Action Storage Unit} (keeps : Action.Keeps Advances x) :
      Action.Keeps (fun s t => Checkpointing s t ∧ (Settled s → Settled t)) x :=
    fun s => ⟨(keeps s).checkpointing,(keeps s).settled⟩
  refine .bind (advanced ensureStreamingMode_keeps) fun _ => .bind (advanced flushEventBuffer_keeps) fun _ => ?_
  intro s
  rw [Action.after, Action.bind_of_ok (Action.modify_run _)]
  cases opened : s.isBinlogOpen with
  | false =>
    have raised : onBackend Backend.closeStream (s.withBuffer s.buffer.cleared) =
        .error ⟨.logicError,"cannot close the stream as it has not been opened"⟩ (s.withBuffer s.buffer.cleared) := by
      refine onBackend_eq_error.mpr ⟨s.backend,?_,rfl⟩
      rw [Backend.closeStream, Action.get_bind_run, Action.raiseIf_bind_run]
      exact if_pos (by simpa [isBinlogOpen] using opened)
    rw [Action.bind_eq_error.mpr (.inl raised)]
    exact ⟨withBuffer_checkpointing s _,fun _ _ => rfl⟩
  | true =>
    have closed : onBackend Backend.closeStream (s.withBuffer s.buffer.cleared) =
        .ok () ((s.withBuffer s.buffer.cleared).withBackend (s.backend.withStream none)) := by
      refine onBackend_eq_ok.mpr ⟨s.backend.withStream none,?_,rfl⟩
      rw [Backend.closeStream, Action.get_bind_run, Action.raiseIf_bind_run]
      exact if_neg (by simpa [isBinlogOpen] using opened)
    rw [Action.bind_of_ok closed, updateLastCheckpointInfo, Action.modify_run]
    refine ⟨⟨fun _ still => ?_,fun _ _ => ?_⟩,fun _ _ => rfl⟩
    · cases still
    · exact updateLastCheckpointInfo_reached (s := (s.withBuffer s.buffer.cleared).withBackend (s.backend.withStream none)) rfl

omit [Externals] in
theorem openExistingBinlogFileInternal_records {offset : Nat} {status : OpenBinlogStatus} (known : s.records ≠ [])
    (run : openExistingBinlogFileInternal offset s = .ok status t) : t.records ≠ [] ∧ t.buffer = s.buffer := by
  unfold openExistingBinlogFileInternal at run
  by_cases written : offset ≥ magicBinlogOffset
  · rw [if_pos written] at run
    cases run
    exact ⟨known,rfl⟩
  · rw [if_neg written] at run
    simp only [Action.bind_eq_ok, onBackend_eq_ok, Action.modify_eq_ok, Action.pure_eq_ok] at run
    obtain ⟨_,_,⟨b,-,rfl⟩,_,_,rfl,-,rfl⟩ := run
    obtain ⟨record,last⟩ := Option.ne_none_iff_exists'.mp (mt List.getLast?_eq_none_iff.mp known)
    exact ⟨by simp [updateCurrentRecord,last],rfl⟩

omit [Externals] in
theorem openExistingBinlogFileInternal_raised {offset : Nat} {failure : Failure}
    (run : openExistingBinlogFileInternal offset s = .error failure t) : Advances s t := by
  unfold openExistingBinlogFileInternal at run
  by_cases written : offset ≥ magicBinlogOffset
  · rw [if_pos written] at run
    cases run
  · rw [if_neg written] at run
    simp only [Action.bind_eq_error, Action.modify_ne_error, Action.pure_ne_error, and_false, exists_false,
      or_false] at run
    have advances := onBackend_keeps (Backend.writeDataToStream_keeps magicBinlogPayload) s
    rwa [Action.after_error run] at advances

theorem openNewBinlogFileInternal_records {name : CompositeBinlogName} {status : OpenBinlogStatus}
    (run : openNewBinlogFileInternal name s = .ok status t) : t.records ≠ [] ∧ t.buffer = s.buffer := by
  simp only [openNewBinlogFileInternal, saveBinlogIndex, Action.bind_eq_ok, onBackend_eq_ok, Action.modify_eq_ok,
    Action.get_eq_ok, Action.pure_eq_ok] at run
  obtain ⟨_,_,⟨b,-,rfl⟩,_,_,rfl,_,m,saved,_,_,⟨_,_,⟨rfl,rfl⟩,c,-,rfl⟩,-,rfl⟩ := run
  obtain ⟨records,buffer⟩ := saveCurrentBinlogMetadata_records saved
  rw [withBackend_records, records]
  exact ⟨by simp,buffer⟩

/-- A file is opened where none is open. It has a record, what has been in the buffer stays there, and a checkpoint is
    made. -/
theorem openBinlog_updated {name : CompositeBinlogName} {now : Nat} {status : OpenBinlogStatus}
    (run : openBinlog name now s = .ok status t) : s.isBinlogOpen = false ∧ ∃ m : Storage,
      m.records ≠ [] ∧ m.buffer.data = s.buffer.data ∧ t = m.withCheckpoint (m.checkpoint.update m.getCurrentPosition now) := by
  simp only [openBinlog, Action.bind_eq_ok, ensureStreamingMode_eq_ok, Action.get_eq_ok, Action.lift_eq_ok,
    onBackend_eq_ok] at run
  obtain ⟨_,_,⟨-,rfl⟩,_,_,⟨rfl,rfl⟩,_,_,⟨-,rfl⟩,_,_,⟨-,rfl⟩,offset,_,⟨b,opened,rfl⟩,run⟩ := run
  refine ⟨by simp [isBinlogOpen,Backend.isStreamOpen,Backend.openStream_closed opened],?_⟩
  cases known : s.records.any (·.name = name) with
  | false =>
    simp only [known, Bool.false_eq_true, if_false, Action.bind_eq_ok, Action.modify_eq_ok, updateLastCheckpointInfo,
      Action.pure_eq_ok] at run
    obtain ⟨_,m,internal,_,_,rfl,_,_,rfl,-,rfl⟩ := run
    obtain ⟨kept,buffer⟩ := openNewBinlogFileInternal_records internal
    exact ⟨m.withBuffer (m.buffer.restarted _),kept,(congrArg EventBuffer.data buffer : m.buffer.data = s.buffer.data),rfl⟩
  | true =>
    simp only [known, if_true, Action.bind_eq_ok, Action.modify_eq_ok, updateLastCheckpointInfo,
      Action.pure_eq_ok] at run
    obtain ⟨_,m,internal,_,_,rfl,_,_,rfl,-,rfl⟩ := run
    have known : (s.withBackend b).records ≠ [] := fun (none : s.records = []) => by simp [none] at known
    obtain ⟨kept,buffer⟩ := openExistingBinlogFileInternal_records known internal
    exact ⟨m.withBuffer (m.buffer.restarted _),kept,(congrArg EventBuffer.data buffer : m.buffer.data = s.buffer.data),rfl⟩

/-- When a file cannot be opened and the backend does not fail, nothing has been made of the records. -/
theorem openBinlog_raised {name : CompositeBinlogName} {now : Nat} {failure : Failure} (healthy : s.backend.faults = [])
    (run : openBinlog name now s = .error failure t) : Checkpointing s t ∧ (Settled s → Settled t) := by
  have advanced : Advances s t → Checkpointing s t ∧ (Settled s → Settled t) :=
    fun advances => ⟨advances.checkpointing,advances.settled⟩
  rw [openBinlog] at run
  simp only [Action.bind_eq_error, ensureStreamingMode_eq_ok, Action.get_eq_ok, Action.lift_eq_ok, Action.lift_eq_error,
    onBackend_eq_ok, onBackend_eq_error, Action.get_ne_error, false_or] at run
  rcases run with run | ⟨_,_,⟨-,rfl⟩,_,_,⟨rfl,rfl⟩,⟨-,rfl⟩ | ⟨_,_,⟨-,rfl⟩,⟨-,rfl⟩ | ⟨_,_,⟨-,rfl⟩,
    ⟨b,raised,rfl⟩ | ⟨offset,_,⟨b,opened,rfl⟩,run⟩⟩⟩⟩
  · have advances := ensureStreamingMode_keeps s
    rw [Action.after_error run] at advances
    exact advanced advances
  · exact advanced (Std.Refl.refl s)
  · exact advanced (Std.Refl.refl s)
  · exact advanced ⟨rfl,le_rfl,Backend.openStream_raised raised,id,id⟩
  · have closed := Backend.openStream_closed opened
    cases known : s.records.any (·.name = name) with
    | false =>
      rw [known] at opened run
      simp only [Bool.false_eq_true, if_false] at opened run
      cases (Backend.openStream_create healthy closed name.str).symm.trans opened
      rw [Action.bind_of_ok (openNewBinlogFileInternal_ok healthy name)] at run
      cases run
    | true =>
      have some : s.records ≠ [] := fun none => by simp [none] at known
      simp only [known, if_true, updateLastCheckpointInfo, Action.bind_eq_error, Action.modify_ne_error,
        Action.pure_ne_error, and_false, exists_false, or_false] at run
      have advances := openExistingBinlogFileInternal_raised run
      refine ⟨⟨fun _ => advances.checkpointing.registered fun _ => some,
        fun _ => advances.checkpointing.reached fun _ => some⟩,fun settled _ => advances.drained ?_⟩
      exact settled (by simp [isBinlogOpen,Backend.isStreamOpen,closed])

/-- A storage after operations that returned or raised, on a backend that does not fail. Each operation is one of those that
    are allowed where it is made. -/
inductive Served (allowed : Storage → Operation → Bool) : Storage → Prop where
  | construct {mode : ReplicationMode} {checkpoint : Checkpoint} {b : Backend} {u : Unit} {s : Storage}
      (configured : checkpoint.lastPosition = 0) (closed : b.stream = none)
      (constructed : construct .streaming mode checkpoint b = .ok u s) : Served allowed s
  | returned {s t : Storage} (served : Served allowed s) (healthy : s.backend.faults = []) {operation : Operation} {now : Nat}
      {u : Unit} (fine : allowed s operation = true) (run : operation.run now s = .ok u t) : Served allowed t
  | raised {s t : Storage} (served : Served allowed s) (healthy : s.backend.faults = []) {operation : Operation} {now : Nat}
      {failure : Failure} (fine : allowed s operation = true) (run : operation.run now s = .error failure t) :
      Served allowed t

/-- The operations, but for the opening of a file. -/
theorem Operation.keeps {operation : Operation} (other : ∀ name, operation ≠ .openBinlog name) (now : Nat) :
    Action.Keeps Checkpointing (operation.run now) := by
  cases operation with
  | setPurgedGtids gtids valid =>
    refine .bind .get fun s => .bind (.lift _) fun _ => .bind (.lift _) fun _ => .modify fun s => ?_
    exact Advances.checkpointing ⟨rfl,le_rfl,rfl,id,id⟩
  | openBinlog name => exact absurd rfl (other name)
  | writeEvent entry => exact writeEntry_keeps entry withBuffer_checkpointing (checkpointIfNeeded_keeps now)
  | discardIncompleteTransactionEvents =>
    exact .bind (Advances.keeps ensureStreamingMode_keeps) fun _ => .modify fun s => withBuffer_checkpointing s _
  | flushEventBuffer => exact Advances.keeps flushEventBuffer_keeps
  | closeBinlog => exact fun s => (closeBinlog_keeps now s).1

/-- Where events are written to an open file only, nothing is buffered without one. -/
theorem Operation.settles {operation : Operation} (other : ∀ name, operation ≠ .openBinlog name) (now : Nat)
    (allowed : operation.allowed s = true) (settled : Settled s) : Settled ((operation.run now).after s) := by
  cases operation with
  | setPurgedGtids gtids valid =>
    have keeps : Action.Keeps Advances (Operation.run now (.setPurgedGtids gtids valid)) :=
      .bind .get fun s => .bind (.lift _) fun _ => .bind (.lift _) fun _ => .modify fun s => ⟨rfl,le_rfl,rfl,id,id⟩
    exact (keeps s).settled settled
  | openBinlog name => exact absurd rfl (other name)
  | writeEvent entry =>
    have same := writeEntry_keeps (R := SameOpen) entry (fun _ _ => rfl) (checkpointIfNeeded_sameOpen now) s
    intro closed
    cases (allowed.symm.trans (same.symm.trans closed))
  | discardIncompleteTransactionEvents =>
    have keeps : Action.Keeps Advances (Operation.run now .discardIncompleteTransactionEvents) :=
      .bind ensureStreamingMode_keeps fun _ => .modify fun s => withBuffer_advances fun empty => by simp [empty]
    exact (keeps s).settled settled
  | flushEventBuffer => exact (flushEventBuffer_keeps s).settled settled
  | closeBinlog => exact (closeBinlog_keeps now s).2 settled

/-- The constructor takes the settings of the checkpoints as they are, and opens no file. -/
theorem construct_settings {mode : ReplicationMode} {checkpoint : Checkpoint} {b : Backend} {u : Unit}
    (constructed : construct .streaming mode checkpoint b = .ok u t) :
    t.checkpoint = checkpoint ∧ t.isBinlogOpen = b.isStreamOpen ∧ t.buffer.data = [] := by
  rcases construct_ok (by decide) constructed with ⟨-,⟨-,saved⟩ | ⟨-,rfl⟩⟩ | ⟨-,⟨-,rfl⟩ | ⟨records,restored,rfl⟩⟩
  · have advances := saveMetadata_keeps (fresh .streaming mode checkpoint b .empty [])
    rw [Action.after_ok saved] at advances
    exact ⟨advances.checkpoint,advances.opened,advances.drained rfl⟩
  all_goals exact ⟨rfl,rfl,rfl⟩

theorem Served.registered {allowed : Storage → Operation → Bool} (served : Served allowed s) : Registered s := by
  induction served with
  | construct configured closed constructed =>
    intro still
    rw [(construct_settings constructed).2.1, Backend.isStreamOpen, closed] at still
    cases still
  | @returned s t served healthy operation now u fine run ih =>
    by_cases opens : ∃ name, operation = .openBinlog name
    · obtain ⟨name,rfl⟩ := opens
      simp only [Operation.run, Action.bind_eq_ok, Action.pure_eq_ok] at run
      obtain ⟨status,m,opened,-,rfl⟩ := run
      obtain ⟨-,m,known,-,rfl⟩ := openBinlog_updated opened
      exact fun _ => known
    · have keeps := Operation.keeps (not_exists.mp opens) now s
      rw [Action.after_ok run] at keeps
      exact keeps.registered ih
  | @raised s t served healthy operation now failure fine run ih =>
    by_cases opens : ∃ name, operation = .openBinlog name
    · obtain ⟨name,rfl⟩ := opens
      simp only [Operation.run, Action.bind_eq_error, Action.pure_ne_error, and_false, exists_false, or_false] at run
      exact (openBinlog_raised healthy run).1.registered ih
    · have keeps := Operation.keeps (not_exists.mp opens) now s
      rw [Action.after_error run] at keeps
      exact keeps.registered ih

/-- Where a file is opened the buffer is empty, so that the checkpoint made there is not after what has been flushed. -/
theorem Served.reached (served : Served Operation.allowed s) : Reached s ∧ Settled s := by
  induction served with
  | construct configured closed constructed =>
    obtain ⟨settings,-,empty⟩ := construct_settings constructed
    refine ⟨fun _ => ?_,fun _ => empty⟩
    rw [settings, configured]
    exact Nat.zero_le _
  | @returned s t served healthy operation now u fine run ih =>
    by_cases opens : ∃ name, operation = .openBinlog name
    · obtain ⟨name,rfl⟩ := opens
      simp only [Operation.run, Action.bind_eq_ok, Action.pure_eq_ok] at run
      obtain ⟨status,m,opened,-,rfl⟩ := run
      obtain ⟨closed,m,-,same,rfl⟩ := openBinlog_updated opened
      have empty := same.trans (ih.2 closed)
      exact ⟨updateLastCheckpointInfo_reached empty,fun _ => empty⟩
    · have keeps := Operation.keeps (not_exists.mp opens) now s
      have settles := Operation.settles (not_exists.mp opens) now fine ih.2
      rw [Action.after_ok run] at keeps settles
      exact ⟨keeps.reached served.registered ih.1,settles⟩
  | @raised s t served healthy operation now failure fine run ih =>
    by_cases opens : ∃ name, operation = .openBinlog name
    · obtain ⟨name,rfl⟩ := opens
      simp only [Operation.run, Action.bind_eq_error, Action.pure_ne_error, and_false, exists_false, or_false] at run
      obtain ⟨keeps,settles⟩ := openBinlog_raised healthy run
      exact ⟨keeps.reached served.registered ih.1,settles ih.2⟩
    · have keeps := Operation.keeps (not_exists.mp opens) now s
      have settles := Operation.settles (not_exists.mp opens) now fine ih.2
      rw [Action.after_error run] at keeps settles
      exact ⟨keeps.reached served.registered ih.1,settles⟩

omit [Externals] in
/-- Where no flush is needed, the transactions in the buffer are smaller than the size of a checkpoint, even if the sum
    of the positions has wrapped. -/
theorem Reached.small (reaches : Reached s) (enabled : s.checkpoint.sizeCheckpointingEnabled = true)
    {now : Nat} (quiet : s.checkpoint.needsFlush s.getReadyToFlushPosition now = false) :
    s.buffer.lastTransactionBoundaryPosition < s.checkpoint.sizeBytes := by
  have reached := reaches enabled
  have wrapped := Nat.mod_le (s.checkpoint.lastPosition + s.checkpoint.sizeBytes) (2 ^ 64)
  have before : s.getReadyToFlushPosition < (s.checkpoint.lastPosition + s.checkpoint.sizeBytes) % 2 ^ 64 := by
    simp only [Checkpoint.needsFlush, enabled, Bool.true_and, Bool.or_eq_false_iff, decide_eq_false_iff_not,
      not_le] at quiet
    exact quiet.1
  have position : s.getReadyToFlushPosition = s.getFlushedPosition + s.buffer.lastTransactionBoundaryPosition := rfl
  omega

/-- Where events are written to an open file only, the transactions that a write leaves in the buffer are smaller than the
    size of a checkpoint. -/
theorem write_leaves_less_than_checkpoint_size (served : Served Operation.allowed s) (enabled : s.checkpoint.sizeBytes ≠ 0)
    {entry : EventEntry} {now : Nat} {u : Unit} (wrote : writeEntry entry now s = .ok u t) :
    t.buffer.transactionsData.length < t.checkpoint.sizeBytes := by
  have bound : t.buffer.transactionsData.length ≤ t.buffer.lastTransactionBoundaryPosition :=
    (List.length_take ..).trans_le (min_le_left _ _)
  refine bound.trans_lt ?_
  obtain ⟨gtids,-,run⟩ := writeEntry_ok wrote
  rcases checkpointIfNeeded_cases run with ⟨-,m,flush,rfl⟩ | ⟨needless,rfl⟩
  · have advances := flushEventBufferInternal_keeps (s.withBuffer (s.buffer.write entry gtids))
    rw [Action.after_ok flush] at advances
    obtain ⟨-,boundary,-⟩ := flushEventBufferInternal_flushed flush
    show m.buffer.lastTransactionBoundaryPosition < m.checkpoint.sizeBytes
    rw [boundary, advances.checkpoint]
    exact Nat.pos_of_ne_zero enabled
  · have reached : Reached (s.withBuffer (s.buffer.write entry gtids)) := served.reached.1
    by_cases some : (s.buffer.write entry gtids).hasEventDataToFlush = true
    · have quiet := Bool.eq_false_of_not_eq_true (not_and.mp needless some)
      exact reached.small (decide_eq_true enabled) quiet
    · have none : (s.buffer.write entry gtids).lastTransactionBoundaryPosition = 0 := by
        simpa [EventBuffer.hasEventDataToFlush] using some
      show (s.buffer.write entry gtids).lastTransactionBoundaryPosition < s.checkpoint.sizeBytes
      rw [none]
      exact Nat.pos_of_ne_zero enabled

end
end Storage

namespace Checkpoint

theorem signed64_of_lt {value : Int} (least : 0 ≤ value) (most : value < 0x8000000000000000) : signed64 value = value := by
  rw [signed64, Int.bmod_def]
  split <;> omega

theorem signed64_lt (value : Int) : signed64 value < 0x8000000000000000 := by
  rw [signed64, Int.bmod_def]
  split <;> omega

/-- A flush is due, in exact numbers: the transactions have grown by the bytes of a checkpoint, or its seconds have
    passed. -/
def Due (checkpoint : Checkpoint) (bytes seconds readyToFlushPosition now : Nat) : Prop :=
  bytes ≠ 0 ∧ checkpoint.lastPosition + bytes ≤ readyToFlushPosition ∨
    seconds ≠ 0 ∧ checkpoint.lastTimestamp + seconds * 1000000000 ≤ now

/-- The settings are those of a configuration. -/
structure Configured (checkpoint : Checkpoint) (checkpointSize : SizeUnit) (checkpointInterval : TimeUnit) : Prop where
  size : checkpoint.sizeBytes = (configure (some checkpointSize) (some checkpointInterval)).sizeBytes
  interval : checkpoint.intervalSeconds = (configure (some checkpointSize) (some checkpointInterval)).intervalSeconds

/-- What is decided from a checkpoint on is exact, and no computation with signed numbers leaves its type. -/
structure Exact (checkpoint : Checkpoint) (bytes seconds : Nat) : Prop where
  represented : signed64 seconds = seconds ∧ signed64 (seconds * 1000000000) = seconds * 1000000000
  added : seconds ≠ 0 →
    signed64 (checkpoint.lastTimestamp + seconds * 1000000000) = checkpoint.lastTimestamp + seconds * 1000000000
  decided : ∀ readyToFlushPosition now, checkpoint.lastPosition ≤ readyToFlushPosition →
    readyToFlushPosition < 2 ^ 64 → checkpoint.lastTimestamp ≤ now → now < 2 ^ 63 →
      (checkpoint.needsFlush readyToFlushPosition now = true ↔ checkpoint.Due bytes seconds readyToFlushPosition now)

/-- The settings can be added to the last checkpoint. -/
def Fits (checkpoint : Checkpoint) (bytes seconds : Nat) : Prop :=
  (bytes = 0 ∨ checkpoint.lastPosition + bytes < 2 ^ 64) ∧
    (seconds = 0 ∨ checkpoint.lastTimestamp + seconds * 1000000000 < 2 ^ 63)

variable {checkpoint : Checkpoint} {bytes seconds : Nat}

/-- Settings that fit are decided about exactly. -/
theorem Fits.decided (fits : checkpoint.Fits bytes seconds) (size : checkpoint.sizeBytes = bytes)
    (interval : checkpoint.intervalSeconds = signed64 (signed64 seconds * 1000000000)) (readyToFlushPosition now : Nat) :
    checkpoint.needsFlush readyToFlushPosition now = true ↔
      checkpoint.Due bytes seconds readyToFlushPosition now := by
  have ticks : checkpoint.intervalSeconds = seconds * 1000000000 := by
    rw [interval]
    rcases fits.2 with rfl | small
    · rfl
    · have held : signed64 seconds = seconds := signed64_of_lt (by omega) (by omega)
      rw [held, signed64_of_lt (by omega) (by omega)]
  have grown : (checkpoint.sizeCheckpointingEnabled = true ∧
      (checkpoint.lastPosition + checkpoint.sizeBytes) % 2 ^ 64 ≤ readyToFlushPosition) ↔
      bytes ≠ 0 ∧ checkpoint.lastPosition + bytes ≤ readyToFlushPosition := by
    rw [sizeCheckpointingEnabled, size, decide_eq_true_eq]
    refine and_congr_right fun enabled => ?_
    rw [Nat.mod_eq_of_lt (fits.1.resolve_left enabled)]
  have passed : (checkpoint.intervalCheckpointingEnabled = true ∧
      signed64 (checkpoint.lastTimestamp + checkpoint.intervalSeconds) ≤ now) ↔
      seconds ≠ 0 ∧ checkpoint.lastTimestamp + seconds * 1000000000 ≤ now := by
    rw [intervalCheckpointingEnabled, ticks, decide_eq_true_eq]
    by_cases disabled : seconds = 0
    · simp [disabled]
    · have small := fits.2.resolve_left disabled
      rw [signed64_of_lt (by omega) (by omega)]
      omega
  rw [needsFlush, Bool.or_eq_true, Bool.and_eq_true, Bool.and_eq_true, decide_eq_true_eq, decide_eq_true_eq]
  exact or_congr grown passed

/-- The decisions are exact just when the settings fit. Where the sum of the positions wraps, the position of the last
    checkpoint itself is after it; where the interval is too long, a sum of signed numbers overflows. -/
theorem exact_iff (small : bytes < 2 ^ 64) (position : checkpoint.lastPosition < 2 ^ 64)
    (timestamp : checkpoint.lastTimestamp < 2 ^ 63) (size : checkpoint.sizeBytes = bytes)
    (interval : checkpoint.intervalSeconds = signed64 (signed64 seconds * 1000000000)) :
    checkpoint.Exact bytes seconds ↔ checkpoint.Fits bytes seconds := by
  constructor
  · intro exact
    refine ⟨?_,?_⟩
    · by_contra wraps
      obtain ⟨enabled,large⟩ := not_or.mp wraps
      have due := (exact.decided checkpoint.lastPosition checkpoint.lastTimestamp le_rfl position le_rfl timestamp).mp (by
        rw [needsFlush, sizeCheckpointingEnabled, size, decide_eq_true enabled, Bool.true_and, Bool.or_eq_true]
        exact .inl (decide_eq_true (by omega)))
      rcases due with ⟨-,grown⟩ | ⟨some,passed⟩ <;> omega
    · by_cases disabled : seconds = 0
      · exact .inl disabled
      · have bound := signed64_lt (checkpoint.lastTimestamp + seconds * 1000000000)
        rw [exact.added disabled] at bound
        exact .inr (by omega)
  · intro fits
    refine ⟨?_,?_,fun ready now _ _ _ _ => fits.decided size interval ready now⟩
    · rcases fits.2 with rfl | short
      · exact ⟨rfl,rfl⟩
      · exact ⟨signed64_of_lt (by omega) (by omega),signed64_of_lt (by omega) (by omega)⟩
    · intro enabled
      have short := fits.2.resolve_left enabled
      exact signed64_of_lt (by omega) (by omega)

/-- The settings of a configuration that has been accepted are the numbers it stands for. -/
theorem Configured.settings {checkpoint : Checkpoint} {sizeText intervalText : Bytes} {checkpointSize : SizeUnit}
    {checkpointInterval : TimeUnit} (configured : checkpoint.Configured checkpointSize checkpointInterval)
    (sizeAccepted : SizeUnit.make sizeText = .ok checkpointSize)
    (intervalAccepted : TimeUnit.make intervalText = .ok checkpointInterval) :
    checkpoint.sizeBytes = SizeUnit.bytes sizeText ∧
      checkpoint.intervalSeconds = signed64 (signed64 (TimeUnit.seconds intervalText) * 1000000000) := by
  obtain ⟨size,interval⟩ := configured
  rw [configure, Option.map_some, Option.getD_some] at size interval
  refine ⟨?_,?_⟩
  · rw [size]
    exact (SizeUnit.getValue_make sizeAccepted).1
  · rw [interval, Option.map_some, Option.getD_some, (TimeUnit.getValue_make intervalAccepted).1]

end Checkpoint

namespace Storage

section
variable [Externals] {s t : Storage}

/-- The transactions in the buffer end here after an event has been written. -/
def boundaryAfter (s : Storage) (entry : EventEntry) : Nat :=
  if entry.atTransactionBoundary then s.buffer.data.length + entry.data.length
  else s.buffer.lastTransactionBoundaryPosition

/-- A write flushes when there are transactions in the buffer and a flush is needed. -/
theorem writeEntry_flushes {entry : EventEntry} {now : Nat} {u : Unit} (registered : Registered s)
    (wrote : writeEntry entry now s = .ok u t) : s.getFlushedPosition < t.getFlushedPosition ↔
      s.boundaryAfter entry ≠ 0 ∧
        s.checkpoint.needsFlush (s.getFlushedPosition + s.boundaryAfter entry) now = true := by
  obtain ⟨gtids,-,run⟩ := writeEntry_ok wrote
  have boundary : (s.buffer.write entry gtids).lastTransactionBoundaryPosition = s.boundaryAfter entry := by
    unfold EventBuffer.write boundaryAfter
    cases entry.atTransactionBoundary <;> simp
  have ready : (s.withBuffer (s.buffer.write entry gtids)).getReadyToFlushPosition =
      s.getFlushedPosition + s.boundaryAfter entry := by
    rw [← boundary]
    rfl
  have some : (s.buffer.write entry gtids).hasEventDataToFlush = true ↔ s.boundaryAfter entry ≠ 0 := by
    rw [EventBuffer.hasEventDataToFlush, boundary, decide_eq_true_eq]
  rcases checkpointIfNeeded_cases run with ⟨⟨data,needs⟩,m,flush,rfl⟩ | ⟨needless,rfl⟩
  · obtain ⟨opened,-,flushed⟩ := flushEventBufferInternal_flushed flush
    have position := flushed (registered opened)
    rw [ready] at position needs
    have positive := Nat.pos_of_ne_zero (some.mp data)
    refine iff_of_true ?_ ⟨some.mp data,needs⟩
    show s.getFlushedPosition < m.getFlushedPosition
    omega
  · rw [ready] at needless
    refine iff_of_false (lt_irrefl _) ?_
    rintro ⟨data,needs⟩
    exact needless ⟨some.mpr data,needs⟩

/-- With settings that have been accepted, the decisions from a checkpoint on are exact just when the settings can be
    added to it, and then a write flushes just when there are transactions and a flush is due. -/
theorem checkpoints_exact_iff {sizeText intervalText : Bytes} {checkpointSize : SizeUnit} {checkpointInterval : TimeUnit}
    (sizeAccepted : SizeUnit.make sizeText = .ok checkpointSize)
    (intervalAccepted : TimeUnit.make intervalText = .ok checkpointInterval) {checkpoint : Checkpoint}
    (configured : checkpoint.Configured checkpointSize checkpointInterval) (position : checkpoint.lastPosition < 2 ^ 64)
    (timestamp : checkpoint.lastTimestamp < 2 ^ 63) :
    (checkpoint.Exact (SizeUnit.bytes sizeText) (TimeUnit.seconds intervalText) ↔
      checkpoint.Fits (SizeUnit.bytes sizeText) (TimeUnit.seconds intervalText)) ∧
    (checkpoint.Fits (SizeUnit.bytes sizeText) (TimeUnit.seconds intervalText) → ∀ s t entry now u, Served (fun _ _ => true) s →
      s.checkpoint = checkpoint → writeEntry entry now s = .ok u t →
        (s.getFlushedPosition < t.getFlushedPosition ↔ s.boundaryAfter entry ≠ 0 ∧
          checkpoint.Due (SizeUnit.bytes sizeText) (TimeUnit.seconds intervalText)
            (s.getFlushedPosition + s.boundaryAfter entry) now)) := by
  obtain ⟨size,interval⟩ := configured.settings sizeAccepted intervalAccepted
  refine ⟨?_,?_⟩
  · exact Checkpoint.exact_iff (SizeUnit.getValue_make sizeAccepted).2 position timestamp size interval
  · rintro fits s t entry now u served rfl wrote
    rw [writeEntry_flushes served.registered wrote]
    exact and_congr_right fun _ => fits.decided size interval _ _

end

section
open FlatJson
attribute [local instance] externals
variable {s t : Storage}

namespace Sample

/-- A storage over an empty directory. -/
def configuredStorage (checkpoint : Checkpoint) : Storage := fresh .streaming .position checkpoint
  ((⟨.filesystem,.empty,none,[],[]⟩ : Backend).perform (.put metadataName (StorageMetadata.str .position))) .empty []

/-- The storage after a computation that returns. -/
def outcome {α : Type} : EStateM.Result Failure Storage α → Option Storage
  | .ok _ t => some t
  | .error _ _ => none

theorem outcome_eq_some {α : Type} {result : EStateM.Result Failure Storage α} (returned : outcome result = some t) :
    ∃ a, result = .ok a t := by
  cases result with
  | ok a s =>
    cases returned
    exact ⟨a,rfl⟩
  | error failure s => cases returned

/-- A file is opened. -/
def openedStorage (checkpoint : Checkpoint) : Option Storage :=
  outcome ((Operation.openBinlog CompositeBinlogName.Sample.first).run 0 (configuredStorage checkpoint))

theorem configuredStorage_served {allowed : Storage → Operation → Bool} {checkpoint : Checkpoint}
    (configured : checkpoint.lastPosition = 0) : Served allowed (configuredStorage checkpoint) :=
  .construct (u := ()) (b := ⟨.filesystem,.empty,none,[],[]⟩) configured rfl rfl

theorem openedStorage_served {allowed : Storage → Operation → Bool} {checkpoint : Checkpoint}
    (configured : checkpoint.lastPosition = 0) (opened : openedStorage checkpoint = some s)
    (fine : allowed (configuredStorage checkpoint) (.openBinlog CompositeBinlogName.Sample.first) = true) :
    Served allowed s := by
  obtain ⟨u,run⟩ := outcome_eq_some opened
  exact (configuredStorage_served configured).returned rfl fine run

/-- A transaction in one event. -/
def transaction : EventEntry := ⟨ascii "commit",by decide,true,.empty,0,1⟩

end Sample

/-- Six bytes stay in the buffer when a checkpoint is due after eight. -/
theorem write_leaves_six_bytes : ∃ s t, Served Operation.allowed s ∧ s.isBinlogOpen = true ∧ s.checkpoint.sizeBytes = 8 ∧
    writeEntry Sample.transaction 0 s = .ok () t ∧ t.buffer.transactionsData = ascii "commit" ∧
    t.buffer.transactionsData.length < t.checkpoint.sizeBytes := by
  have known : (Sample.openedStorage { sizeBytes := 8 }).bind (fun s =>
      (Sample.outcome (writeEntry Sample.transaction 0 s)).map fun t =>
        (s.isBinlogOpen,s.checkpoint.sizeBytes,t.buffer.transactionsData)) = some (true,8,ascii "commit") := by
    decide +kernel
  obtain ⟨s,opened,known⟩ := Option.bind_eq_some_iff.mp known
  obtain ⟨t,wrote,same⟩ := Option.map_eq_some_iff.mp known
  simp only [Prod.mk.injEq] at same
  obtain ⟨u,wrote⟩ := Sample.outcome_eq_some wrote
  have served : Served Operation.allowed s := Sample.openedStorage_served rfl opened rfl
  exact ⟨s,t,served,same.1,same.2.1,wrote,same.2.2,
    write_leaves_less_than_checkpoint_size served (by rw [same.2.1]; decide) wrote⟩

namespace Sample

/-- A transaction is written while no file is open, and then a file is opened. -/
def openedLate (checkpoint : Checkpoint) : Option Storage :=
  (outcome ((Operation.writeEvent transaction).run 0 (configuredStorage checkpoint))).bind fun s =>
    outcome ((Operation.openBinlog CompositeBinlogName.Sample.first).run 0 s)

theorem openedLate_served {checkpoint : Checkpoint} (configured : checkpoint.lastPosition = 0)
    (healthy : ∀ s, outcome ((Operation.writeEvent transaction).run 0 (configuredStorage checkpoint)) = some s →
      s.backend.faults = []) (opened : openedLate checkpoint = some s) : Served (fun _ _ => true) s := by
  obtain ⟨m,wrote,opened⟩ := Option.bind_eq_some_iff.mp opened
  obtain ⟨u,run⟩ := outcome_eq_some wrote
  obtain ⟨v,opens⟩ := outcome_eq_some opened
  exact ((configuredStorage_served configured).returned rfl rfl run).returned (healthy m wrote) rfl opens

end Sample

/-- Events that were written while no file was open count as flushed when a file is opened: twelve bytes stay in the buffer
    when a checkpoint is due after eight. -/
theorem write_leaves_twelve_bytes : ∃ s t, Served (fun _ _ => true) s ∧ s.isBinlogOpen = true ∧ s.checkpoint.sizeBytes = 8 ∧
    writeEntry Sample.transaction 0 s = .ok () t ∧ t.buffer.transactionsData.length = 12 ∧ t.checkpoint.sizeBytes = 8 := by
  have known : (Sample.openedLate { sizeBytes := 8 }).bind (fun s =>
      (Sample.outcome (writeEntry Sample.transaction 0 s)).map fun t =>
        (s.isBinlogOpen,s.checkpoint.sizeBytes,t.buffer.transactionsData.length,t.checkpoint.sizeBytes)) =
      some (true,8,12,8) := by
    decide +kernel
  have healthy : (Sample.outcome ((Operation.writeEvent Sample.transaction).run 0
      (Sample.configuredStorage { sizeBytes := 8 }))).map (·.backend.faults) = some [] := by decide +kernel
  obtain ⟨s,opened,known⟩ := Option.bind_eq_some_iff.mp known
  obtain ⟨t,wrote,same⟩ := Option.map_eq_some_iff.mp known
  simp only [Prod.mk.injEq] at same
  obtain ⟨u,wrote⟩ := Sample.outcome_eq_some wrote
  refine ⟨s,t,Sample.openedLate_served rfl (fun m written => ?_) opened,same.1,same.2.1,wrote,same.2.2⟩
  simpa [written] using healthy

namespace Sample

theorem eight_accepted : SizeUnit.make (ascii "8") = .ok ⟨8,0⟩ := rfl

theorem minute_accepted : TimeUnit.make (ascii "1m") = .ok ⟨1,60⟩ := rfl

theorem largest_accepted : SizeUnit.make (ascii "18446744073709551615") = .ok ⟨2 ^ 64 - 1,0⟩ := rfl

theorem zero_accepted : TimeUnit.make (ascii "0") = .ok ⟨0,1⟩ := rfl

end Sample

/-- A flush is due after eight bytes or after a minute, and six bytes are written in the first second. -/
theorem checkpoints_exact_minute : ∃ s t, Served (fun _ _ => true) s ∧ writeEntry Sample.transaction 1000000000 s = .ok () t ∧
    s.checkpoint.Exact (SizeUnit.bytes (ascii "8")) (TimeUnit.seconds (ascii "1m")) ∧
    ¬ s.getFlushedPosition < t.getFlushedPosition ∧ s.boundaryAfter Sample.transaction = 6 ∧
    ¬ s.checkpoint.Due (SizeUnit.bytes (ascii "8")) (TimeUnit.seconds (ascii "1m")) (s.getFlushedPosition + 6)
      1000000000 := by
  have known : (Sample.openedStorage (.configure (some ⟨8,0⟩) (some ⟨1,60⟩))).bind (fun s =>
      (Sample.outcome (writeEntry Sample.transaction 1000000000 s)).map fun t =>
        (s.buffer.data,s.checkpoint,s.getFlushedPosition,t.getFlushedPosition)) =
      some ([],⟨8,60 * 1000000000,4,0⟩,4,4) := by
    decide +kernel
  obtain ⟨s,opened,known⟩ := Option.bind_eq_some_iff.mp known
  obtain ⟨t,wrote,same⟩ := Option.map_eq_some_iff.mp known
  simp only [Prod.mk.injEq] at same
  obtain ⟨empty,checkpoint,before,after⟩ := same
  obtain ⟨u,wrote⟩ := Sample.outcome_eq_some wrote
  have served : Served (fun _ _ => true) s := Sample.openedStorage_served rfl opened rfl
  have fits : s.checkpoint.Fits (SizeUnit.bytes (ascii "8")) (TimeUnit.seconds (ascii "1m")) := by
    rw [checkpoint]
    exact ⟨.inr (by decide),.inr (by decide)⟩
  have configured : s.checkpoint.Configured ⟨8,0⟩ ⟨1,60⟩ := by
    rw [checkpoint]
    exact ⟨rfl,rfl⟩
  obtain ⟨exact,flushes⟩ := checkpoints_exact_iff Sample.eight_accepted Sample.minute_accepted configured
    (by rw [checkpoint]; decide) (by rw [checkpoint]; decide)
  have boundary : s.boundaryAfter Sample.transaction = 6 := by
    rw [boundaryAfter, empty]
    rfl
  have unflushed : ¬ s.getFlushedPosition < t.getFlushedPosition := by
    rw [before, after]
    exact lt_irrefl 4
  refine ⟨s,t,served,wrote,exact.mpr fits,unflushed,boundary,fun due => unflushed ?_⟩
  rw [flushes fits s t _ _ u served rfl wrote, boundary]
  exact ⟨by decide,due⟩

/-- The largest size is accepted, and six bytes are flushed at once. -/
theorem checkpoints_inexact : ∃ s t checkpointSize checkpointInterval, Served (fun _ _ => true) s ∧
    SizeUnit.make (ascii "18446744073709551615") = .ok checkpointSize ∧
    TimeUnit.make (ascii "0") = .ok checkpointInterval ∧ s.checkpoint.Configured checkpointSize checkpointInterval ∧
    writeEntry Sample.transaction 0 s = .ok () t ∧ s.getFlushedPosition = 4 ∧ t.getFlushedPosition = 10 ∧
    ¬ s.checkpoint.Due (SizeUnit.bytes (ascii "18446744073709551615")) (TimeUnit.seconds (ascii "0")) 10 0 := by
  have known : (Sample.openedStorage (.configure (some ⟨2 ^ 64 - 1,0⟩) (some ⟨0,1⟩))).bind (fun s =>
      (Sample.outcome (writeEntry Sample.transaction 0 s)).map fun t =>
        (s.buffer.data,s.checkpoint,s.getFlushedPosition,t.getFlushedPosition)) =
      some ([],⟨2 ^ 64 - 1,0,4,0⟩,4,10) := by
    decide +kernel
  obtain ⟨s,opened,known⟩ := Option.bind_eq_some_iff.mp known
  obtain ⟨t,wrote,same⟩ := Option.map_eq_some_iff.mp known
  simp only [Prod.mk.injEq] at same
  obtain ⟨empty,checkpoint,before,after⟩ := same
  obtain ⟨u,wrote⟩ := Sample.outcome_eq_some wrote
  have served : Served (fun _ _ => true) s := Sample.openedStorage_served rfl opened rfl
  refine ⟨s,t,_,_,served,Sample.largest_accepted,Sample.zero_accepted,?_,wrote,before,after,?_⟩
  · rw [checkpoint]
    exact ⟨rfl,rfl⟩
  · rw [checkpoint]
    rintro (⟨-,grown⟩ | ⟨some,-⟩)
    · exact absurd grown (by decide)
    · exact some rfl

end
end Storage
end BinlogServer.Store
