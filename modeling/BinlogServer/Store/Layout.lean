import BinlogServer.Events.Preservation
import BinlogServer.Events.ReaderSteps
import BinlogServer.Gtids.Encoding
import BinlogServer.Store.LocalFiles

/-!
# The layout of local files

What a binlog file is meant to be: a FORMAT_DESCRIPTION, a PREVIOUS_GTIDS with the gtids of everything before the file,
transactions of the length they declare, and a ROTATE that names the next file. `Stage` says how far a file has come, and
`Formed` reads the events of a file from the first one on; `Layout` does so for the files of a storage, one after the other.
-/

namespace BinlogServer.Store
open ByteString Util Gtids Events

/-- How far the events of a file have come. -/
inductive Stage where
  | empty
  | described
  | begun
  /-- In a transaction, with the length it declares and the bytes it has. -/
  | within (gtid : Gtid) (declared size : Nat)
  /-- After a ROTATE to another file. -/
  | ended (next : Bytes)
deriving DecidableEq

namespace Stage

/-- A transaction may start here, or the file may be ended. -/
def isFree : Stage → Bool
  | .begun => true
  | .within _ declared size => size % 2 ^ 32 = declared
  | _ => false

/-- The last event is the end of a transaction, or of the file. -/
def isWhole : Stage → Bool
  | .within _ declared size => size % 2 ^ 32 = declared
  | .ended _ => true
  | _ => false

/-- The transaction that the last event belongs to. -/
def gtid : Stage → Gtid
  | .within gtid _ _ => gtid
  | _ => .empty

/-- The events that may come at a stage. The gtids that are `held` are those of everything before the file. -/
inductive Next (held : Gtid → Prop) (event : EventView) : Stage → Stage → Prop where
  | description (code : event.getTypeCode = .formatDescription) : Next held event .empty .described
  | previousGtids {gtids : GtidSet} (code : event.getTypeCode = .previousGtidsLog)
      (read : GtidSet.ofBytes event.getBodyRaw = .ok gtids) (same : ∀ gtid, gtids.contains gtid ↔ held gtid) :
      Next held event .described .begun
  | first {stage : Stage} {gtid : Gtid} {sequenceNumber length : Nat} (free : stage.isFree = true)
      (code : event.getTypeCode.isGtid = true) (info : event.transactionInfo = .ok (gtid,sequenceNumber,length)) :
      Next held event stage (.within gtid length event.portion.length)
  | other {gtid : Gtid} {declared size : Nat} (plain : event.IsOther) :
      Next held event (.within gtid declared size) (.within gtid declared (size + event.portion.length))
  | rotate {stage : Stage} (free : stage.isFree = true) (code : event.getTypeCode = .rotate) :
      Next held event stage (.ended event.getBodyRaw)

/-- Nothing comes after the end. -/
theorem Next.not_ended {held : Gtid → Prop} {event : EventView} {stage stage' : Stage} (next : Next held event stage stage')
    (name : Bytes) : stage ≠ .ended name := by
  rintro rfl
  cases next with
  | first free => cases free
  | rotate free => cases free

theorem isFree_of_isWhole {stage : Stage} (whole : stage.isWhole = true) (going : ∀ next, stage ≠ .ended next) :
    stage.isFree = true := by
  cases stage with
  | within gtid declared size => exact whole
  | ended next => exact absurd rfl (going next)
  | _ => cases whole

end Stage

/-- The events of a file up to a stage. Each of them is where its header says, and the storage has been told where the
    transactions end and which ones they are. -/
inductive Formed (held : Gtid → Prop) : List EventEntry → Stage → Prop where
  | nil : Formed held [] .empty
  | concat {entries : List EventEntry} {entry : EventEntry} {event : EventView} {stage stage' : Stage}
      (before : Formed held entries stage) (next : Stage.Next held event stage stage') (data : entry.data = event.portion)
      (seated : event.Seated (magicBinlogOffset + (bytesOf entries).length))
      (marked : entry.atTransactionBoundary = stage'.isWhole) (named : entry.transactionGtid = stage'.gtid) :
      Formed held (entries ++ [entry]) stage'

namespace Formed
variable {held : Gtid → Prop} {entries front : List EventEntry} {stage : Stage}

/-- A front of the events of a file is formed, and not ended unless it is all of them. -/
theorem of_isPrefix (formed : Formed held entries stage) (part : front <+: entries) :
    ∃ stage', Formed held front stage' ∧ ((∀ next, stage' ≠ .ended next) ∨ stage' = stage) := by
  induction formed with
  | nil =>
    rw [List.prefix_nil.mp part]
    exact ⟨_,.nil,.inr rfl⟩
  | concat before next data seated marked named ih =>
    rcases List.prefix_concat_iff.mp part with rfl | part
    · exact ⟨_,before.concat next data seated marked named,.inr rfl⟩
    · obtain ⟨stage',formed,open'⟩ := ih part
      refine ⟨stage',formed,.inl ?_⟩
      rcases open' with open' | rfl
      · exact open'
      · exact next.not_ended

/-- Where events at the end of a file have been dropped so that it has whole transactions, another one may come. -/
theorem rests (formed : Formed held entries stage) (part : front <+: entries) (going : ∀ next, stage ≠ .ended next)
    (whole : EndsMarked EventEntry.atTransactionBoundary front) :
    ∃ stage', Formed held front stage' ∧ (stage' = .empty ∨ stage'.isFree = true) := by
  obtain ⟨stage',formed',open'⟩ := formed.of_isPrefix part
  refine ⟨stage',formed',?_⟩
  have going : ∀ next, stage' ≠ .ended next := by
    rcases open' with open' | rfl
    · exact open'
    · exact going
  cases formed' with
  | nil => exact .inl rfl
  | concat before next data seated marked named =>
    refine .inr (Stage.isFree_of_isWhole ?_ going)
    rw [← marked]
    exact whole _ (by simp)

theorem nonempty (formed : Formed held entries stage) (some : stage ≠ .empty) : entries ≠ [] := by
  cases formed with
  | nil => exact absurd rfl some
  | concat => simp

theorem eq_nil (formed : Formed held entries .empty) : entries = [] := by
  cases formed with
  | nil => rfl
  | concat before next => cases next

end Formed

/-- The gtids of what is before a file. -/
def heldIn (basis : Gtid → Prop) (front : List LocalFile) (gtid : Gtid) : Prop :=
  basis gtid ∨ ∃ file ∈ front, Commits file.entries gtid

/-- The files of a storage, and the stage of the last one. Each one but the last has been ended by a ROTATE to the next
    one; before the first file there is nothing. -/
inductive Layout (basis : Gtid → Prop) : List LocalFile → Stage → Prop where
  | nil {next : Bytes} : Layout basis [] (.ended next)
  | concat {front : List LocalFile} {file : LocalFile} {stage : Stage}
      (before : Layout basis front (.ended file.name.str)) (formed : Formed (heldIn basis front) file.entries stage) :
      Layout basis (front ++ [file]) stage

namespace Layout
variable {basis : Gtid → Prop} {files front : List LocalFile} {file : LocalFile} {stage : Stage}

theorem last (layout : Layout basis (front ++ [file]) stage) :
    Layout basis front (.ended file.name.str) ∧ Formed (heldIn basis front) file.entries stage := by
  generalize whole : front ++ [file] = files at layout
  cases layout with
  | nil => simp at whole
  | concat before formed =>
    obtain ⟨rfl,same⟩ := List.append_inj' whole rfl
    obtain rfl := List.singleton_inj.mp same
    exact ⟨before,formed⟩

/-- An event is added to the last file. -/
theorem extend (layout : Layout basis (front ++ [file]) stage) {entry : EventEntry} {event : EventView} {stage' : Stage}
    (next : Stage.Next (heldIn basis front) event stage stage') (data : entry.data = event.portion)
    (seated : event.Seated (magicBinlogOffset + (bytesOf file.entries).length))
    (marked : entry.atTransactionBoundary = stage'.isWhole) (named : entry.transactionGtid = stage'.gtid) :
    Layout basis (front ++ [⟨file.name,file.entries ++ [entry]⟩]) stage' := by
  obtain ⟨before,formed⟩ := layout.last
  exact @concat basis front ⟨file.name,file.entries ++ [entry]⟩ stage' before
    (formed.concat next data seated marked named)

/-- The last file is not in the middle of a transaction, and not ended. -/
def Rests (files : List LocalFile) (stage : Stage) : Prop := files = [] ∨ stage = .empty ∨ stage.isFree = true

theorem Rests.not_ended (rests : Rests files stage) (some : files ≠ []) (next : Bytes) : stage ≠ .ended next := by
  rintro rfl
  rcases rests with none | empty | free
  · exact some none
  · cases empty
  · cases free

/-- Where events at the end of the last file have been dropped so that it has whole transactions, it rests. -/
theorem cut_rests {f : List EventEntry → List EventEntry} (part : ∀ entries, f entries <+: entries)
    (layout : Layout basis files stage) (going : files ≠ [] → ∀ next, stage ≠ .ended next)
    (whole : ∀ file ∈ LocalFile.onLast f files, EndsMarked EventEntry.atTransactionBoundary file.entries) :
    ∃ stage', Layout basis (LocalFile.onLast f files) stage' ∧ Rests (LocalFile.onLast f files) stage' := by
  cases layout with
  | nil => exact ⟨.ended [],.nil,.inl rfl⟩
  | @concat front file stage before formed =>
    rw [LocalFile.onLast_concat] at whole ⊢
    obtain ⟨stage',formed,rests⟩ := formed.rests (part _) (going (by simp)) (whole ⟨file.name,f file.entries⟩ (by simp))
    exact ⟨stage',@concat basis front ⟨file.name,f file.entries⟩ stage' before formed,.inr rests⟩

end Layout
end BinlogServer.Store
