import BinlogServer.Store.Accounts

/-!
# What the storage is for

Events are written to files, a transaction at a time. The history of a storage has the events of each of its files,
and how it goes on is said here without buffers, sizes and metadata: a discard drops the events of a transaction
that has not ended, and so does a close.
-/

namespace BinlogServer.Store
open ByteString Util Gtids Events

/-- The operations of a storage in streaming mode. -/
inductive Operation where
  | setPurgedGtids (gtids : GtidSet) (valid : gtids.Valid)
  | openBinlog (name : CompositeBinlogName)
  | writeEvent (entry : EventEntry)
  | discardIncompleteTransactionEvents
  | flushEventBuffer
  | closeBinlog

/-- An operation at a time. -/
def Operation.run [Externals] (now : Nat) : Operation → Action Storage Unit
  | .setPurgedGtids gtids _ => Storage.setPurgedGtids gtids
  | .openBinlog name => do let _ ← Storage.openBinlog name now
  | .writeEvent entry => Storage.writeEntry entry now
  | .discardIncompleteTransactionEvents => Storage.discardIncompleteTransactionEvents
  | .flushEventBuffer => Storage.flushEventBuffer
  | .closeBinlog => Storage.closeBinlog now

/-- Events are written to an open file only. -/
def Operation.allowed (s : Storage) : Operation → Bool
  | .writeEvent _ => s.isBinlogOpen
  | _ => true

/-- The events up to the end of the last transaction. -/
def wholeTransactions (entries : List EventEntry) : List EventEntry :=
  entries.rdropWhile (!EventEntry.atTransactionBoundary ·)

/-- What is to be held for the file that is open: its record and its content when it was opened, and the events
    since. -/
structure FileLog where
  record : BinlogRecord
  content : Bytes
  entries : List EventEntry

/-- The content of the object of the current file. -/
def Storage.fileContent (s : Storage) : Bytes := (s.backend.objects.find? s.getCurrentBinlogName.str).getD []

/-- The log after an operation that has led to the storage `t`. -/
def Operation.track (t : Storage) : Operation → Option FileLog → Option FileLog
  | .openBinlog _, _ => t.records.getLast?.map fun record => ⟨record,t.fileContent,[]⟩
  | .writeEvent entry, log => log.map fun log => { log with entries := log.entries ++ [entry] }
  | .discardIncompleteTransactionEvents, log => log.map fun log => { log with entries := wholeTransactions log.entries }
  | .flushEventBuffer, log => log
  | .setPurgedGtids _ _, log => log
  | .closeBinlog, _ => none

/-- The events of the files of a storage, those of the files that have been purged, and the gtids that counted as
    purged when the first file was created. -/
structure History where
  purgedGtids : GtidSet := .empty
  gone : List EventEntry := []
  files : List (List EventEntry) := []

namespace History

/-- The last file is changed. -/
@[simps] def onCurrent (history : History) (f : List EventEntry → List EventEntry) : History :=
  { history with files := history.files.dropLast ++ history.files.getLast?.toList.map f }

/-- A file is created. -/
@[simps] def create (history : History) (purgedGtids : GtidSet) : History :=
  { history with
    purgedGtids := if history.files = [] then purgedGtids else history.purgedGtids
    files := history.files ++ [[]] }

/-- The oldest files are removed. -/
@[simps] def purge (history : History) (count : Nat) : History :=
  { history with
    gone := history.gone ++ (history.files.take count).flatten
    files := history.files.drop count }

end History

/-- How an operation on the storage `s` goes into the history. -/
def Operation.chronicle (s : Storage) : Operation → History → History
  | .openBinlog name, history =>
    if s.records.any (·.name = name) then history else history.create s.purgedGtids
  | .writeEvent entry, history => history.onCurrent (· ++ [entry])
  | .discardIncompleteTransactionEvents, history => history.onCurrent wholeTransactions
  | .closeBinlog, history => history.onCurrent wholeTransactions
  | .flushEventBuffer, history => history
  | .setPurgedGtids _ _, history => history

/-- The events that are in the first `size` bytes. -/
def eventsWithin : Nat → List EventEntry → List EventEntry
  | _, [] => []
  | size, entry :: rest =>
    if entry.data.length ≤ size then entry :: eventsWithin (size - entry.data.length) rest else []

theorem eventsWithin_append (kept lost : List EventEntry) : eventsWithin (bytesOf kept).length (kept ++ lost) = kept := by
  induction kept with
  | nil =>
    cases lost with
    | nil => rfl
    | cons entry rest =>
      have some := List.length_pos_of_ne_nil entry.nonempty
      exact if_neg (Nat.not_le.mpr some)
  | cons entry rest ih =>
    have split : (bytesOf (entry :: rest)).length = entry.data.length + (bytesOf rest).length := by simp [bytesOf]
    rw [List.cons_append, eventsWithin, split, if_pos (Nat.le_add_right _ _), Nat.add_sub_cancel_left, ih]

/-- The history when the storage has been destroyed: what the destructor has not been able to flush is lost. -/
def History.destroy [Externals] (history : History) (s : Storage) : History :=
  history.onCurrent (eventsWithin
    (((s.destroy.objects.find? s.getCurrentBinlogName.str).getD []).length - magicBinlogOffset))

end BinlogServer.Store
