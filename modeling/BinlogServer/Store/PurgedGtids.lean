import BinlogServer.Store.Moves

/-!
# The gtids that count as purged

`set_purged_gtids` says what an empty storage is to leave out, and the first file that is created has these gtids as
its previous ones. They are not stored otherwise, and where a storage is constructed again the gtids that the first
file has added are taken for them.
-/

namespace BinlogServer.Store
open ByteString Util Gtids Events

namespace Storage

section
variable [Externals] {P : GtidSet} {s t : Storage} {log : Option FileLog} {history : History}

/-- The transactions in the first file are those that count as purged; if there is no file, none do. -/
def FirstFileHas (P : GtidSet) (history : History) : Prop :=
  ∀ gtid, P.contains gtid ↔ Commits (history.files.headD []) gtid

/-- A run that starts on an empty storage for gtids with `set_purged_gtids`. The storage may be constructed again
    where the first file has just the transactions that count as purged. -/
inductive Provisioned (P : GtidSet) : Storage → Option FileLog → History → Prop
  | start {type : BackendType} {checkpoint : Checkpoint} {u v : Unit} {s t : Storage} (valid : P.Valid)
      (constructed : construct .streaming .gtid checkpoint { type := type, objects := .empty } = .ok u s)
      (set : setPurgedGtids P s = .ok v t) : Provisioned P t none {}
  | step {s t : Storage} {log : Option FileLog} {history : History} (run : Provisioned P s log history)
      {operation : Operation} {now : Nat} {u : Unit} (other : ∀ gtids valid, operation ≠ .setPurgedGtids gtids valid)
      (allowed : operation.allowed s = true) (returned : operation.run now s = .ok u t) :
      Provisioned P t (operation.track t log) (operation.chronicle s history)
  | reopen {s t : Storage} {log : Option FileLog} {history : History} (run : Provisioned P s log history)
      {checkpoint : Checkpoint} {u : Unit} (first : FirstFileHas P (history.destroy s))
      (constructed : construct .streaming .gtid checkpoint s.destroy = .ok u t) :
      Provisioned P t none (history.destroy s)

theorem Provisioned.run (provisioned : Provisioned P s log history) : Run s log history := by
  induction provisioned with
  | @start type checkpoint u v s t valid constructed set =>
    have returned : (Operation.setPurgedGtids P valid).run 0 s = .ok v t := set
    exact (Run.start constructed).step rfl returned
  | step _ _ allowed returned ih => exact ih.step allowed returned
  | reopen _ _ constructed ih => exact ih.restart constructed

theorem Provisioned.valid (provisioned : Provisioned P s log history) : P.Valid := by
  induction provisioned with
  | start valid _ _ => exact valid
  | step _ _ _ _ ih => exact ih
  | reopen _ _ _ ih => exact ih

/-- What is known of the gtids that count as purged. -/
structure Provides (P : GtidSet) (s : Storage) : Prop where
  mode : s.replicationMode = .gtid
  purged : s.purgedGtids = P
  first : ∀ record ∈ s.records.head?, record.previousGtids = some P

theorem Provides.flushes {stream : Stream} {record : BinlogRecord} (provides : Provides P s)
    (last : s.records.getLast? = some record) (flush : t = s ∨ Flushes s stream record t) : Provides P t := by
  rcases flush with rfl | ⟨-,-,rfl⟩
  · exact provides
  · refine ⟨provides.mode,provides.purged,?_⟩
    intro first head
    have before := provides.first
    rw [dropLast_append_last last] at before
    rw [flushed_records] at head
    cases front : s.records.dropLast with
    | nil =>
      rw [front] at before head
      obtain rfl : s.flushRecord record = first := by simpa using head
      exact before record (by simp)
    | cons old rest =>
      rw [front] at before head
      exact before first head

theorem Provides.move {operation : Operation} (provides : Provides P s) (move : Move s operation t)
    (other : ∀ gtids valid, operation ≠ .setPurgedGtids gtids valid) : Provides P t := by
  obtain ⟨mode,purged,first⟩ := provides
  cases move with
  | setPurgedGtids valid _ _ => exact absurd rfl (other _ valid)
  | @create name idle new checkpoint =>
    refine ⟨mode,purged,?_⟩
    intro record head
    simp only [withCheckpoint_records, created_records] at head
    cases records : s.records with
    | nil =>
      obtain rfl : s.newRecord name = record := by simpa [records] using head
      simp [newRecord,mode,getGtids,records,purged]
    | cons old rest =>
      rw [records] at head first
      exact first record head
  | reopen idle last found checkpoint => exact ⟨mode,purged,first⟩
  | @write entry gtids m stream record opened last added flush checkpoint =>
    have buffered : Provides P (s.withBuffer (s.buffer.write entry gtids)) := ⟨mode,purged,first⟩
    obtain ⟨mode,purged,first⟩ := buffered.flushes last flush
    exact ⟨mode,purged,first⟩
  | discard => exact ⟨mode,purged,first⟩
  | idle => exact ⟨mode,purged,first⟩
  | flush opened last flush =>
    have before : Provides P s := ⟨mode,purged,first⟩
    exact before.flushes last flush
  | close opened last flush checkpoint =>
    have before : Provides P s := ⟨mode,purged,first⟩
    obtain ⟨mode,purged,first⟩ := before.flushes last (flush.imp_left And.left)
    exact ⟨mode,purged,first⟩

/-- A storage that is constructed again takes the transactions of the first file for those that count as purged. -/
theorem reopen_purgedGtids (run : Run s log history) (valid : P.Valid) {checkpoint : Checkpoint} {u : Unit}
    (constructed : construct .streaming .gtid checkpoint s.destroy = .ok u t) :
    t.replicationMode = .gtid ∧ t.records = s.flushedAtLast.records ∧
      (t.purgedGtids = P ↔ FirstFileHas P (history.destroy s)) := by
  have next := run.restart constructed
  have left := run.consistent.step run.tracked.destroyed
  have records := left.restores (by rw [destroy_eq]; rfl) (fun _ _ => by rw [destroy_eq]; rfl) (by decide) constructed
  obtain ⟨-,purged,mode,-⟩ := construct_same run.tracked.destroy.1 (by decide) constructed
  refine ⟨mode,records,?_⟩
  have same : ∀ gtid, t.purgedGtids.contains gtid ↔ Commits ((history.destroy s).files.headD []) gtid := by
    intro gtid
    rw [purged]
    have written : List.Forall₂ (Written t.backend.objects t.replicationMode) t.records (history.destroy s).files :=
      next.chronicled
    generalize t.records = known at written
    generalize (history.destroy s).files = files at written
    cases written with
    | nil => simp
    | @cons record entries _ _ first rest =>
      have added := first.describes.addedGtids mode gtid
      have started : (record.blank t.replicationMode).addedGtids = some .empty := by simp [BinlogRecord.blank,mode]
      rw [started] at added
      simpa using added
  rw [next.consistent.purged.eq_iff_contains valid, FirstFileHas]
  exact forall_congr' fun gtid => by rw [same]; exact iff_comm

theorem Provisioned.provides (provisioned : Provisioned P s log history) : Provides P s := by
  induction provisioned with
  | start valid constructed set =>
    simp only [setPurgedGtids, Action.bind_eq_ok, Action.get_eq_ok, Action.lift_eq_ok, raiseIf_eq_ok,
      Action.modify_eq_ok] at set
    obtain ⟨_,_,⟨rfl,rfl⟩,_,_,⟨mode,rfl⟩,_,_,⟨empty,rfl⟩,rfl⟩ := set
    refine ⟨by simpa [isInGtidReplicationMode] using mode,rfl,?_⟩
    intro record head
    rw [isEmpty, Bool.not_eq_true, Bool.not_eq_eq_eq_not, Bool.not_false, List.isEmpty_iff] at empty
    simp [empty] at head
  | step provisioned other allowed returned ih => exact ih.move (provisioned.run.tracked.move allowed returned) other
  | @reopen s t log history provisioned checkpoint u first constructed ih =>
    obtain ⟨mode,records,purged⟩ := reopen_purgedGtids provisioned.run provisioned.valid constructed
    refine ⟨mode,purged.mpr first,?_⟩
    rw [records]
    rcases provisioned.run.tracked.flushedAtLast_cases with same | ⟨stream,record,-,last,flush⟩
    · rw [same]
      exact ih.first
    · exact (ih.flushes last (.inr flush)).first

/-- The gtids that count as purged are kept, and are the previous ones of the first file, while each time the storage
    is constructed again the first file has just these transactions; otherwise they are lost then. -/
theorem purgedGtids_kept (provisioned : Provisioned P s log history) :
    s.purgedGtids = P ∧ (∀ first ∈ s.records.head?, first.previousGtids = some P) ∧
      ∀ checkpoint u t, construct .streaming .gtid checkpoint s.destroy = .ok u t →
        (t.purgedGtids = P ↔ FirstFileHas P (history.destroy s)) := by
  have provides := provisioned.provides
  refine ⟨provides.purged,provides.first,?_⟩
  intro checkpoint u t constructed
  exact (reopen_purgedGtids provisioned.run provisioned.valid constructed).2.2

theorem follow_provisioned {operations : List (Operation × Nat)} {x y : Snapshot}
    (provisioned : Provisioned P x.storage x.log x.history)
    (others : ∀ operation ∈ operations, ∀ gtids valid, operation.1 ≠ .setPurgedGtids gtids valid)
    (followed : follow operations x = some y) : Provisioned P y.storage y.log y.history := by
  induction operations generalizing x with
  | nil =>
    cases followed
    exact provisioned
  | cons first rest ih =>
    obtain ⟨s,log,history⟩ := x
    simp only [follow] at followed
    split at followed
    · rename_i t allowed returned
      have next := provisioned.step (others first List.mem_cons_self) allowed returned
      exact ih next (fun operation member => others operation (List.mem_cons_of_mem _ member)) followed
    · cases followed

end

section
open FlatJson
attribute [local instance] externals

namespace Sample

/-- An empty storage that is to leave out some gtids. -/
def provisioned : Snapshot := ⟨emptyStorage.withPurgedGtids GtidSet.Sample.first,none,{}⟩

theorem provisioned_start : Provisioned GtidSet.Sample.first provisioned.storage provisioned.log provisioned.history :=
  .start (u := ()) (v := ()) (s := emptyStorage) GtidSet.Sample.first_valid rfl rfl

/-- A file is opened and no event is written to it. -/
def opening : List (Operation × Nat) := [(.openBinlog CompositeBinlogName.Sample.first,0)]

/-- What is known of the gtids when the storage has been constructed again. -/
def reopened : EStateM.Result Failure Storage Unit → Option (GtidSet × List (Option GtidSet))
  | .error _ _ => none
  | .ok _ t => some (t.purgedGtids,t.records.map BinlogRecord.previousGtids)

end Sample

/-- The first file is opened, and its previous gtids are those that count as purged. -/
theorem purgedGtids_kept_opened : ∃ s log history record, Provisioned GtidSet.Sample.first s log history ∧
    s.records.head? = some record ∧ s.purgedGtids = GtidSet.Sample.first ∧
    record.previousGtids = some GtidSet.Sample.first := by
  have known : (follow Sample.opening Sample.provisioned).map (fun x => x.storage.records.length) = some 1 := by
    decide +kernel
  cases followed : follow Sample.opening Sample.provisioned with
  | none => simp [followed] at known
  | some x =>
    have run := follow_provisioned Sample.provisioned_start (by simp [Sample.opening]) followed
    obtain ⟨purged,first,-⟩ := purgedGtids_kept run
    cases records : x.storage.records with
    | nil => simp [followed,records] at known
    | cons record rest =>
      exact ⟨x.storage,x.log,x.history,record,run,by simp [records],purged,first record (by simp [records])⟩

/-- The storage is constructed again when the first file has no transaction: the gtids that counted as purged are
    forgotten. -/
theorem purgedGtids_forgotten : ∃ s log history checkpoint u t, Provisioned GtidSet.Sample.first s log history ∧
    construct .streaming .gtid checkpoint s.destroy = .ok u t ∧
    t.records.map BinlogRecord.previousGtids = [some GtidSet.Sample.first] ∧ t.purgedGtids = .empty ∧
    t.purgedGtids ≠ GtidSet.Sample.first := by
  have known : (follow Sample.opening Sample.provisioned).bind
      (fun x => Sample.reopened (construct .streaming .gtid {} x.storage.destroy)) =
      some (.empty,[some GtidSet.Sample.first]) := by decide +kernel
  cases followed : follow Sample.opening Sample.provisioned with
  | none => simp [followed] at known
  | some x =>
    have run := follow_provisioned Sample.provisioned_start (by simp [Sample.opening]) followed
    rw [followed, Option.bind_some] at known
    cases constructed : construct .streaming .gtid {} x.storage.destroy with
    | error failure t =>
      rw [constructed] at known
      cases known
    | ok u t =>
      rw [constructed, Sample.reopened, Option.some.injEq, Prod.mk.injEq] at known
      refine ⟨_,_,_,_,u,t,run,constructed,known.2,known.1,?_⟩
      rw [known.1]
      decide

end
end Storage
end BinlogServer.Store
