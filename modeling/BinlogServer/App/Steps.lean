import BinlogServer.App.Session
import BinlogServer.Events.ReaderSteps
import BinlogServer.Events.Rewritten
import BinlogServer.Store.Operations

/-!
# What a session does with one event

`Stored` says everything that the storage can be told about an event the reader has accepted. The proofs about
sessions go through it and through the reader's `Step`, not through `process_binlog_event`.
-/

namespace BinlogServer.Events
open ByteString Util Gtids

theorem EventView.transactionInfo_lt {event : EventView} {gtid : Gtid} {sequenceNumber length : Nat}
    (info : event.transactionInfo = .ok (gtid,sequenceNumber,length)) : sequenceNumber < 2 ^ 64 := by
  unfold transactionInfo at info
  split at info
  · simp only [bind_eq_ok, pure_eq_ok, Prod.mk.injEq] at info
    obtain ⟨postHeader,read,body,-,-,rfl,-⟩ := info
    exact (GtidLogPostHeader.make_bounded read).sequenceNumber
  · simp only [bind_eq_ok, pure_eq_ok, Prod.mk.injEq] at info
    obtain ⟨postHeader,read,_,-,body,-,-,rfl,-⟩ := info
    exact (GtidLogPostHeader.make_bounded read).sequenceNumber
  · simp only [bind_eq_ok, pure_eq_ok, Prod.mk.injEq] at info
    obtain ⟨body,read,_,-,-,rfl,-⟩ := info
    exact (GtidTaggedLogBody.make_bounded read).sequenceNumber
  · exact absurd info throw_ne_ok

namespace ReaderContext

/-- What holds of the reader of a session between two events. -/
structure Sound (context : ReaderContext) : Prop where
  settled : context.Settled
  numbered : context.transactionSequenceNumber < 2 ^ 64

theorem Step.sound {context context' : ReaderContext} {event : EventView} {infoOnly : Bool} (sound : context.Sound)
    (step : Step context event infoOnly context') : context'.Sound := by
  refine ⟨step.settled sound.settled,?_⟩
  have numbered := sound.numbered
  cases step with
  | artificialRotate =>
    rw [enterBinlog_transactionSequenceNumber, left]
    split
    · exact numbered
    · simp
  | formatDescription => exact numbered
  | previousGtids => exact numbered
  | gtid gtid sequenceNumber length start code known info => exact EventView.transactionInfo_lt info
  | other => exact numbered
  | terminator => simp

end ReaderContext
end BinlogServer.Events

namespace BinlogServer.App
open ByteString Util Gtids Events Store

namespace Session

/-- What the storage is given of an event. -/
def entryFor (event : EventView) (context : ReaderContext) (nonempty : event.portion ≠ []) : EventEntry where
  data := event.portion
  nonempty := nonempty
  atTransactionBoundary := context.isAtTransactionBoundary
  transactionGtid := context.transactionGtid
  timestamp := .ofNat event.getTimestampRaw
  sequenceNumber := .ofNat context.transactionSequenceNumber

section
variable {session session' : Session} {event : EventView}

@[simp] theorem onStorage_eq_ok {α : Type} {x : Action Storage α} {a : α} :
    onStorage x session = .ok a session' ↔
      ∃ storage, x session.storage = .ok a storage ∧ session.withStorage storage = session' := by
  unfold onStorage
  cases x session.storage <;> simp

@[simp] theorem tick_eq_ok {now : Nat} : tick session = .ok now session' ↔ session.clock 0 = now ∧ session.ticked = session' := by
  simp [tick]

@[simp] theorem currentTime_eq_ok {now : Nat} :
    currentTime session = .ok now session' ↔ session.calendar 0 = now ∧ session.aged = session' := by
  simp [currentTime]

theorem processEventView_eq_ok {infoOnly : Bool} :
    processEventView event session = .ok infoOnly session' ↔
      ∃ context, session.context.processEventView event = .ok (infoOnly,context) ∧
        session.withContext context = session' := by
  simp only [processEventView, Action.bind_eq_ok, Action.get_eq_ok, Action.lift_eq_ok, Action.modify_eq_ok,
    Action.pure_eq_ok]
  constructor
  · rintro ⟨_,_,⟨rfl,rfl⟩,⟨_,context⟩,_,⟨accepted,rfl⟩,_,_,rfl,rfl,rfl⟩
    exact ⟨context,accepted,rfl⟩
  · rintro ⟨context,accepted,rfl⟩
    exact ⟨session,session,⟨rfl,rfl⟩,(infoOnly,context),session,⟨accepted,rfl⟩,(),_,rfl,rfl,rfl⟩

end

/-- What is done to the storage `s` about an event, once the reader has accepted it and gone over to `context`. -/
inductive Stored [Externals] (s : Storage) (event : EventView) (context : ReaderContext) : Bool → Storage → Prop where
  /-- An artificial ROTATE that names the open file. -/
  | reused
      (rotate : event.IsArtificialRotate)
      (opened : s.isBinlogOpen = true)
      (named : CompositeBinlogName.parse event.getBodyRaw = .ok s.getCurrentBinlogName)
      (position : s.replicationMode = .position →
        RotatePostHeader.make event.getPostHeaderRaw = .ok s.getCurrentPosition) :
      Stored s event context true s
  /-- An artificial ROTATE that names another file than the open one. -/
  | changed (name : CompositeBinlogName) (now later : Nat) (status : OpenBinlogStatus) (closed t : Storage)
      (rotate : event.IsArtificialRotate)
      (opened : s.isBinlogOpen = true)
      (named : CompositeBinlogName.parse event.getBodyRaw = .ok name)
      (other : name ≠ s.getCurrentBinlogName)
      (close : Storage.closeBinlog now s = .ok () closed)
      (reopen : Storage.openBinlog name later closed = .ok status t) :
      Stored s event context true t
  /-- An artificial ROTATE while no file is open. -/
  | opened (name : CompositeBinlogName) (now : Nat) (status : OpenBinlogStatus) (t : Storage)
      (rotate : event.IsArtificialRotate)
      (closed : s.isBinlogOpen = false)
      (named : CompositeBinlogName.parse event.getBodyRaw = .ok name)
      (reopen : Storage.openBinlog name now s = .ok status t) :
      Stored s event context true t
  /-- An event of a preamble that the file already has. -/
  | passed
      (preamble : event.getTypeCode = .formatDescription ∨ event.getTypeCode = .previousGtidsLog) :
      Stored s event context true s
  /-- An event that is written. -/
  | written (nonempty : event.portion ≠ []) (now : Nat) (t : Storage)
      (inner : event.getTypeCode ≠ .rotate ∧ event.getTypeCode ≠ .stop)
      (write : Storage.writeEntry (entryFor event context nonempty) now s = .ok () t) :
      Stored s event context false t
  /-- The last event of a file is written, and the file closed. -/
  | ended (nonempty : event.portion ≠ []) (now later : Nat) (m t : Storage)
      (last : event.IsTerminator)
      (write : Storage.writeEntry (entryFor event context nonempty) now s = .ok () m)
      (close : Storage.closeBinlog later m = .ok () t) :
      Stored s event context false t

section
variable [Externals] {session session' : Session} {event : EventView} {u : Unit}

@[simp] theorem openBinlog_eq_ok {name : CompositeBinlogName} :
    openBinlog name session = .ok u session' ↔
      ∃ status storage, Storage.openBinlog name (session.clock 0) session.storage = .ok status storage ∧
        session.ticked.withStorage storage = session' := by
  simp only [openBinlog, Action.bind_eq_ok, tick_eq_ok, onStorage_eq_ok, Action.pure_eq_ok]
  constructor
  · rintro ⟨_,_,⟨rfl,rfl⟩,status,_,⟨storage,reopen,rfl⟩,-,rfl⟩
    exact ⟨status,storage,reopen,rfl⟩
  · rintro ⟨status,storage,reopen,rfl⟩
    exact ⟨_,_,⟨rfl,rfl⟩,status,_,⟨storage,reopen,rfl⟩,trivial,rfl⟩

@[simp] theorem closeBinlog_eq_ok :
    closeBinlog session = .ok u session' ↔
      ∃ storage, Storage.closeBinlog (session.clock 0) session.storage = .ok u storage ∧
        session.ticked.withStorage storage = session' := by
  simp only [closeBinlog, Action.bind_eq_ok, tick_eq_ok, onStorage_eq_ok]
  constructor
  · rintro ⟨_,_,⟨rfl,rfl⟩,storage,close,rfl⟩
    exact ⟨storage,close,rfl⟩
  · rintro ⟨storage,close,rfl⟩
    exact ⟨_,_,⟨rfl,rfl⟩,storage,close,rfl⟩

/-- An event is written as the reader has left its transaction. -/
theorem writeEvent_eq_ok (nonempty : event.portion ≠ []) (small : session.context.transactionSequenceNumber < 2 ^ 64) :
    writeEvent event session = .ok u session' ↔
      ∃ storage, Storage.writeEntry (entryFor event session.context nonempty) (session.clock 0) session.storage =
          .ok () storage ∧ session.ticked.withStorage storage = session' := by
  have timestamp : (UInt32.ofNat event.getTimestampRaw).toNat = event.getTimestampRaw :=
    UInt32.toNat_ofNat_of_lt' (CommonHeader.getTimestampRaw_lt _)
  have sequenceNumber : (UInt64.ofNat session.context.transactionSequenceNumber).toNat =
      session.context.transactionSequenceNumber := UInt64.toNat_ofNat_of_lt' small
  simp only [writeEvent, Action.bind_eq_ok, Action.get_eq_ok, tick_eq_ok, onStorage_eq_ok, Storage.writeEntry, entryFor,
    timestamp, sequenceNumber]
  constructor
  · rintro ⟨_,_,⟨rfl,rfl⟩,_,_,⟨rfl,rfl⟩,storage,write,rfl⟩
    exact ⟨storage,write,rfl⟩
  · rintro ⟨storage,write,rfl⟩
    exact ⟨_,_,⟨rfl,rfl⟩,_,_,⟨rfl,rfl⟩,storage,write,rfl⟩

omit [Externals] in
theorem checkReusedPosition_ok (run : checkReusedPosition event session = .ok u session') :
    (session.storage.replicationMode = .position →
      RotatePostHeader.make event.getPostHeaderRaw = .ok session.storage.getCurrentPosition) ∧ session' = session := by
  simp only [checkReusedPosition, Action.bind_eq_ok, Action.get_eq_ok] at run
  obtain ⟨_,_,⟨rfl,rfl⟩,run⟩ := run
  split at run
  · simp only [Action.bind_eq_ok, Action.lift_eq_ok, raiseIf_eq_ok, ne_eq, not_not] at run
    obtain ⟨position,_,⟨made,rfl⟩,same,rfl⟩ := run
    exact ⟨fun _ => by rw [made, same],rfl⟩
  · rename_i other
    rw [Action.pure_eq_ok] at run
    exact ⟨fun mode => absurd mode other,run.2.symm⟩

theorem processArtificialRotateEvent_ok (rotate : event.IsArtificialRotate)
    (run : processArtificialRotateEvent event session = .ok u session') :
    session'.context = session.context ∧ Stored session.storage event session.context true session'.storage := by
  simp only [processArtificialRotateEvent, Action.bind_eq_ok, Action.lift_eq_ok, Action.get_eq_ok] at run
  obtain ⟨name,_,⟨named,rfl⟩,_,_,⟨rfl,rfl⟩,run⟩ := run
  split at run
  · rename_i opened
    split at run
    · rename_i same
      obtain ⟨position,rfl⟩ := checkReusedPosition_ok run
      exact ⟨rfl,.reused rotate opened (same ▸ named) position⟩
    · rename_i other
      simp only [Action.bind_eq_ok, closeBinlog_eq_ok, openBinlog_eq_ok] at run
      obtain ⟨_,_,⟨closed,close,rfl⟩,status,t,reopen,rfl⟩ := run
      exact ⟨rfl,.changed name _ _ status closed t rotate opened named other close reopen⟩
  · rename_i closed
    rw [openBinlog_eq_ok] at run
    obtain ⟨status,t,reopen,rfl⟩ := run
    exact ⟨rfl,.opened name _ status t rotate (by simpa using closed) named reopen⟩

/-- An event that does not end a file is written, unless the file already has it. -/
theorem writeEvent_stored {context : ReaderContext} {infoOnly : Bool} (nonempty : event.portion ≠ [])
    (small : context.transactionSequenceNumber < 2 ^ 64)
    (inner : event.getTypeCode ≠ .rotate ∧ event.getTypeCode ≠ .stop)
    (preamble : infoOnly = true → event.getTypeCode = .formatDescription ∨ event.getTypeCode = .previousGtidsLog)
    (run : (if infoOnly = false then writeEvent event else pure ()) (session.withContext context) = .ok u session') :
    session'.context = context ∧ Stored session.storage event context infoOnly session'.storage := by
  cases infoOnly with
  | true =>
    rw [if_neg nofun, Action.pure_eq_ok] at run
    obtain ⟨-,rfl⟩ := run
    exact ⟨rfl,.passed (preamble rfl)⟩
  | false =>
    rw [if_pos rfl] at run
    obtain ⟨t,write,rfl⟩ := (writeEvent_eq_ok nonempty small).mp run
    exact ⟨rfl,.written nonempty _ t inner write⟩

/-- Whatever `process_binlog_event` does about an event is a step of the reader and one of the storage. -/
theorem processBinlogEvent_ok (sound : session.context.Sound) (nonempty : event.portion ≠ [])
    (run : processBinlogEvent event session = .ok u session') :
    ∃ infoOnly, ReaderContext.Step session.context event infoOnly session'.context ∧
      Stored session.storage event session'.context infoOnly session'.storage := by
  simp only [processBinlogEvent, Action.bind_eq_ok, processEventView_eq_ok] at run
  obtain ⟨infoOnly,_,⟨context,accepted,rfl⟩,run⟩ := run
  have step := ReaderContext.processEventView_step sound.settled accepted
  have small := (step.sound sound).numbered
  suffices stored : session'.context = context ∧ Stored session.storage event context infoOnly session'.storage by
    rw [stored.1]
    exact ⟨infoOnly,step,stored.2⟩
  clear accepted
  cases step with
  | artificialRotate start rotate =>
    simp only [rotate.code, rotate.artificial, and_self, if_true, Bool.true_eq_false, reduceCtorEq, and_false,
      or_self, if_false, bind_pure_unit] at run
    exact processArtificialRotateEvent_ok rotate run
  | formatDescription layout start code =>
    simp only [code, reduceCtorEq, false_and, or_self, if_false, bind_pure_unit] at run
    exact writeEvent_stored nonempty small (by simp [code]) (fun _ => .inl code) run
  | previousGtids start code =>
    simp only [code, reduceCtorEq, false_and, or_self, if_false, bind_pure_unit] at run
    exact writeEvent_stored nonempty small (by simp [code]) (fun _ => .inr code) run
  | gtid _ _ _ start code =>
    obtain ⟨notRotate,notStop⟩ := not_or.mp (ReaderContext.isGtid_not_last code)
    simp only [notRotate, notStop, false_and, or_self, if_false, bind_pure_unit] at run
    exact writeEvent_stored nonempty small ⟨notRotate,notStop⟩ (by simp) run
  | other start plain =>
    obtain ⟨-,notRotate,notStop,-⟩ := plain
    simp only [notRotate, notStop, false_and, or_self, if_false, bind_pure_unit] at run
    exact writeEvent_stored nonempty small ⟨notRotate,notStop⟩ (by simp) run
  | terminator start last =>
    simp only [last.artificial, Bool.false_eq_true, and_false, if_false, if_true, and_true, if_pos last.code,
      Action.bind_eq_ok, closeBinlog_eq_ok] at run
    obtain ⟨_,_,wrote,t,close,rfl⟩ := run
    obtain ⟨m,write,rfl⟩ := (writeEvent_eq_ok nonempty small).mp wrote
    exact ⟨rfl,.ended nonempty _ _ m t last write close⟩

/-- An artificial ROTATE that names the open file, in the GTID mode. -/
theorem processBinlogEvent_reused {context : ReaderContext}
    (accepted : session.context.processEventView event = .ok (true,context)) (rotate : event.IsArtificialRotate)
    (mode : session.storage.replicationMode = .gtid) (opened : session.storage.isBinlogOpen = true)
    (named : CompositeBinlogName.parse event.getBodyRaw = .ok session.storage.getCurrentBinlogName) :
    processBinlogEvent event session = .ok () (session.withContext context) := by
  simp only [processBinlogEvent, Action.bind_eq_ok, processEventView_eq_ok]
  refine ⟨true,_,⟨context,accepted,rfl⟩,?_⟩
  simp only [rotate.code, rotate.artificial, and_self, if_true, Bool.true_eq_false, reduceCtorEq, and_false, or_self,
    if_false, bind_pure_unit, processArtificialRotateEvent, checkReusedPosition, Action.bind_eq_ok, Action.lift_eq_ok,
    Action.get_eq_ok]
  refine ⟨_,_,⟨named,rfl⟩,_,_,⟨rfl,rfl⟩,?_⟩
  simp only [withContext_storage, opened, if_true, Action.bind_eq_ok, Action.get_eq_ok]
  exact ⟨_,_,⟨rfl,rfl⟩,by simp [mode]⟩

/-- An event inside a file that is written. -/
theorem processBinlogEvent_written {context : ReaderContext} {nonempty : event.portion ≠ []} {t : Storage}
    (accepted : session.context.processEventView event = .ok (false,context))
    (inner : event.getTypeCode ≠ .rotate ∧ event.getTypeCode ≠ .stop) (small : context.transactionSequenceNumber < 2 ^ 64)
    (write : Storage.writeEntry (entryFor event context nonempty) (session.clock 0) session.storage = .ok () t) :
    processBinlogEvent event session = .ok () ((session.withContext context).ticked.withStorage t) := by
  simp only [processBinlogEvent, Action.bind_eq_ok, processEventView_eq_ok]
  refine ⟨false,_,⟨context,accepted,rfl⟩,?_⟩
  simp only [inner.1, inner.2, false_and, or_self, if_false, if_true, bind_pure_unit]
  exact (writeEvent_eq_ok nonempty small).mpr ⟨t,write,rfl⟩

end
end Session
end BinlogServer.App
