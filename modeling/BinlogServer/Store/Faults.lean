import BinlogServer.Store.Recovery

/-!
# Flushes that fail

A flush appends to the file and then saves the metadata; either call may raise, and may have taken effect all the
same. The storage is left as it is at that point, and its destructor flushes once more.
-/

namespace BinlogServer.Store
open ByteString Util Gtids Events

namespace Backend
variable {b : Backend} {stream : Stream}

@[simps] def withFaults (b : Backend) (faults : List Fault) : Backend := { b with faults := faults }

/-- The outcome of the next call. -/
def fault (b : Backend) : Fault := b.faults.headD .none

/-- The backend when the outcome of a call has been taken off the script. -/
abbrev popped (b : Backend) : Backend := b.withFaults b.faults.tail

theorem request_cases (effect : Effect) (fileMessage s3Message : String) :
    b.fault = .none ∧ request effect fileMessage s3Message b = .ok () (b.popped.perform effect) ∨
    b.fault ≠ .none ∧ ∃ failure, b.fault ≠ .after ∧ request effect fileMessage s3Message b = .error failure b.popped ∨
      b.fault = .after ∧ request effect fileMessage s3Message b = .error failure (b.popped.perform effect) := by
  obtain ⟨type,objects,stream,faults,effects⟩ := b
  cases faults with
  | nil => exact .inl ⟨rfl,rfl⟩
  | cons fault rest =>
    cases fault with
    | none => exact .inl ⟨rfl,rfl⟩
    | before => exact .inr ⟨by simp [fault],_,.inl ⟨by simp [fault],rfl⟩⟩
    | staged => exact .inr ⟨by simp [fault],_,.inl ⟨by simp [fault],rfl⟩⟩
    | after => exact .inr ⟨by simp [fault],_,.inr ⟨rfl,rfl⟩⟩

/-- What a write to a stream may have done when it raises: the data may be in the stream, and in the object. -/
structure WriteAttempt (b : Backend) (stream : Stream) (data : Bytes) (left : Backend) : Prop where
  opened : ∃ next, left.stream = some next ∧ next.name = stream.name ∧
    (left.written next = b.written stream ∨ left.written next = b.written stream ++ data)
  file : left.objects.find? stream.name = b.objects.find? stream.name ∨
    left.objects.find? stream.name = some (b.written stream ++ data)
  others : ∀ key, key ≠ stream.name → left.objects.find? key = b.objects.find? key

theorem WriteAttempt.streamed (b : Backend) (stream : Stream) (data : Bytes) :
    WriteAttempt b stream data (b.popped.streamed stream data) where
  opened := ⟨_,rfl,by simp,.inr (written_streamed b.popped stream data)⟩
  file := .inr (by rw [find?_streamed, if_pos rfl]; rfl)
  others := fun key other => by rw [find?_streamed, if_neg other]; rfl

/-- A write to a stream takes effect, or it raises. -/
theorem writeDataToStream_cases (opened : b.stream = some stream) (data : Bytes) :
    b.fault = .none ∧ (b.written stream).length + data.length ≤ maxStreamSize ∧
      writeDataToStream data b = .ok () (b.popped.streamed stream data) ∨
    ∃ failure left, writeDataToStream data b = .error failure left ∧ WriteAttempt b stream data left ∧
      (b.fault = .none → maxStreamSize < (b.written stream).length + data.length) := by
  have untouched : ∀ faults, WriteAttempt b stream data (b.withFaults faults) := fun faults =>
    ⟨⟨stream,opened,rfl,.inl rfl⟩,.inl rfl,fun _ _ => rfl⟩
  by_cases long : (b.written stream).length + data.length > maxStreamSize
  · have raised : ∃ failure, writeDataToStream data b = .error failure b := by
      obtain ⟨type,objects,open_,faults,effects⟩ := b
      cases opened
      cases type <;> simp only [written] at long <;> simp [writeDataToStream,raiseIf,long]
    obtain ⟨failure,raised⟩ := raised
    exact .inr ⟨failure,b,raised,untouched b.faults,fun _ => long⟩
  · have fits := not_lt.mp long
    obtain ⟨type,objects,open_,faults,effects⟩ := b
    cases opened
    cases type with
    | filesystem =>
      have called : writeDataToStream data ⟨.filesystem,objects,some stream,faults,effects⟩ =
          request (.append stream.name data) "cannot write data to the underlying stream file" ""
            ⟨.filesystem,objects,some stream,faults,effects⟩ := by
        simp only [written] at long
        simp only [writeDataToStream, raiseIf, long, Action.get_bind_run]
        rfl
      rw [called]
      rcases request_cases (b := ⟨.filesystem,objects,some stream,faults,effects⟩) (.append stream.name data)
        "cannot write data to the underlying stream file" "" with ⟨none,ran⟩ | ⟨fault,failure,⟨-,ran⟩ | ⟨-,ran⟩⟩
      · exact .inl ⟨none,fits,ran⟩
      · exact .inr ⟨failure,_,ran,untouched _,fun none => absurd none fault⟩
      · exact .inr ⟨failure,_,ran,.streamed _ stream data,fun none => absurd none fault⟩
    | s3 =>
      simp only [written] at long
      have called : writeDataToStream data ⟨.s3,objects,some stream,faults,effects⟩ =
          request (.put stream.name (stream.staged ++ data)) "" "cannot put object into S3 bucket"
            ⟨.s3,objects,some (if faults.headD .none ≠ .before then ⟨stream.name,stream.staged ++ data⟩ else stream),
              faults,effects⟩ := by
        by_cases early : faults.headD .none = .before
        all_goals
          simp only [writeDataToStream, raiseIf, long, Action.get_bind_run,
            early, ne_eq, not_true_eq_false, not_false_eq_true, if_true, if_false]
          rfl
      -- the temporary file has the data, unless the call fails at once
      rw [called]
      cases faults with
      | nil => exact .inl ⟨rfl,fits,rfl⟩
      | cons fault rest =>
        cases fault with
        | none => exact .inl ⟨rfl,fits,rfl⟩
        | before => exact .inr ⟨_,_,rfl,untouched rest,fun none => absurd none (by simp [Backend.fault])⟩
        | staged => exact .inr ⟨_,_,rfl,⟨⟨_,rfl,rfl,.inr rfl⟩,.inl rfl,fun _ _ => rfl⟩,fun none => absurd none (by simp [Backend.fault])⟩
        | after => exact .inr ⟨_,_,rfl,.streamed _ stream data,fun none => absurd none (by simp [Backend.fault])⟩

end Backend

namespace Storage

/-- The call has taken effect, whether it raised or not. -/
def TakesEffect (fault : Fault) : Prop := fault = .none ∨ fault = .after

instance TakesEffect.decidable (fault : Fault) : Decidable (TakesEffect fault) :=
  inferInstanceAs (Decidable (_ ∨ _))

/-- How far the flushes of one buffer have come: how many times its transactions are in the file and in the stream,
    and how many times the record and the stored metadata count them. -/
structure Progress where
  file : Nat
  stream : Nat
  record : Nat
  metadata : Nat

namespace Progress

/-- The append has returned. -/
def appended (progress : Progress) : Progress :=
  ⟨progress.stream + 1,progress.stream + 1,progress.record + 1,progress.metadata⟩

/-- The metadata has been stored. -/
def saved (progress : Progress) : Progress := { progress with metadata := progress.record }

end Progress

/-- The data a number of times. -/
def copies (count : Nat) (data : Bytes) : Bytes := (List.replicate count data).flatten

theorem copies_succ (count : Nat) (data : Bytes) : copies (count + 1) data = copies count data ++ data := by
  simp [copies,List.replicate_succ']

theorem length_copies (count : Nat) (data : Bytes) : (copies count data).length = count * data.length := by
  simp [copies]

section
variable [Externals] {s m : Storage} {progress : Progress} {stream : Stream} {record : BinlogRecord}

/-- The storage `m` is where the flushes of the buffer of `s` have come so far, each but the last one having raised. -/
structure Attempted (s : Storage) (stream : Stream) (record : BinlogRecord) (progress : Progress) (m : Storage) : Prop where
  opened : ∃ next, m.backend.stream = some next ∧ next.name = stream.name ∧
    m.backend.written next = s.backend.written stream ++ copies progress.stream s.buffer.transactionsData
  file : m.backend.objects.find? stream.name =
    some (s.backend.written stream ++ copies progress.file s.buffer.transactionsData)
  metadata : m.backend.objects.find? (generateBinlogMetadataName record.name) =
    if progress.metadata = 0 then s.backend.objects.find? (generateBinlogMetadataName record.name)
    else some (BinlogFileMetadata.str (s.flushRecord^[progress.metadata] record))
  others : ∀ key, key ≠ stream.name → key ≠ generateBinlogMetadataName record.name →
    m.backend.objects.find? key = s.backend.objects.find? key
  records : m.records = s.records.dropLast ++ [s.flushRecord^[progress.record] record]
  buffer : m.buffer = s.buffer
  mode : m.replicationMode = s.replicationMode
  construction : m.constructionMode = s.constructionMode
  counted : progress.metadata ≤ progress.record
  fits : progress.record ≠ 0 →
    (s.backend.written stream).length + s.buffer.transactionsData.length ≤ Backend.maxStreamSize

section
variable (attempted : Attempted s stream record progress m)
  (apart : stream.name ≠ generateBinlogMetadataName record.name)
include attempted

theorem Attempted.flushRecord_eq : m.flushRecord = s.flushRecord := by
  funext record
  rw [flushRecord, flushRecord, attempted.buffer, attempted.mode]

include apart

/-- A flush whose append raises: the record and the metadata are as they were. -/
theorem Attempted.append_raises {next : Stream} (opened : m.backend.stream = some next)
    (raises : m.backend.fault = .none →
      Backend.maxStreamSize < (m.backend.written next).length + s.buffer.transactionsData.length) :
    ∃ failure t file appended, flushEventBufferInternal m = .error failure t ∧
      Attempted s stream record { progress with file := file, stream := appended } t := by
  obtain ⟨same,opened',name,content⟩ := attempted.opened
  obtain rfl := Option.some.inj (opened'.symm.trans opened)
  rcases Backend.writeDataToStream_cases opened s.buffer.transactionsData with
    ⟨none,fits,-⟩ | ⟨failure,left,raised,attempt,-⟩
  · exact absurd fits (Nat.not_le.mpr (raises none))
  · have run : flushEventBufferInternal m = .error failure (m.withBackend left) := by
      simp [flushEventBufferInternal,onBackend,attempted.buffer,raised]
    obtain ⟨file,filed⟩ : ∃ file, left.objects.find? stream.name =
        some (s.backend.written stream ++ copies file s.buffer.transactionsData) := by
      rcases attempt.file with same | more
      · exact ⟨progress.file,by rw [← name, same, name, attempted.file]⟩
      · exact ⟨progress.stream + 1,by rw [← name, more, content, copies_succ, List.append_assoc]⟩
    obtain ⟨last,opened,renamed,written⟩ := attempt.opened
    obtain ⟨appended,streamed⟩ : ∃ appended, left.written last =
        s.backend.written stream ++ copies appended s.buffer.transactionsData := by
      rcases written with same | more
      · exact ⟨progress.stream,same.trans content⟩
      · exact ⟨progress.stream + 1,by rw [more, content, copies_succ, List.append_assoc]⟩
    refine ⟨failure,_,file,appended,run,⟨last,opened,renamed.trans name,streamed⟩,filed,?_,?_,attempted.records,
      attempted.buffer,attempted.mode,attempted.construction,attempted.counted,attempted.fits⟩
    · exact (attempt.others _ (name ▸ apart.symm)).trans attempted.metadata
    · exact fun key other metadata => (attempt.others key (name ▸ other)).trans (attempted.others key other metadata)

/-- The metadata is stored. -/
private theorem Attempted.put (counted : progress.record ≠ 0) (faults : List Fault) :
    Attempted s stream record progress.saved (m.withBackend ((m.backend.withFaults faults).perform
      (.put (generateBinlogMetadataName record.name)
        (BinlogFileMetadata.str (s.flushRecord^[progress.record] record))))) := by
  obtain ⟨next,opened,name,content⟩ := attempted.opened
  refine ⟨⟨next,opened,name,?_⟩,?_,?_,fun key other metadata => ?_,attempted.records,attempted.buffer,attempted.mode,
    attempted.construction,le_rfl,attempted.fits⟩
  · rw [withBackend_backend, Backend.written_put _ (name ▸ apart)]
    exact content
  · rw [withBackend_backend, Backend.perform_objects, Backend.find?_put, if_neg apart]
    exact attempted.file
  · rw [withBackend_backend, Backend.perform_objects, Backend.find?_put, if_pos rfl]
    simp [Progress.saved,counted]
  · rw [withBackend_backend, Backend.perform_objects, Backend.find?_put, if_neg metadata]
    exact attempted.others key other metadata

/-- A flush whose append returns: the record counts the transactions once more, and the metadata does if its call takes
    effect. If that call raises, the buffer is left as it was. -/
theorem Attempted.append_returns {next : Stream} (opened : m.backend.stream = some next) (none : m.backend.fault = .none)
    (fits : (m.backend.written next).length + s.buffer.transactionsData.length ≤ Backend.maxStreamSize) :
    ∃ t, t.backend.faults = m.backend.faults.tail.tail ∧
      Attempted s stream record (if TakesEffect m.backend.popped.fault then progress.appended.saved else progress.appended)
        t ∧
      (m.backend.popped.fault ≠ .none ∧ (∃ failure, flushEventBufferInternal m = .error failure t) ∨
        m.backend.popped.fault = .none ∧
          flushEventBufferInternal m = .ok () (t.withBuffer (t.buffer.flushed t.replicationMode))) := by
  obtain ⟨same,opened',name,content⟩ := attempted.opened
  obtain rfl := Option.some.inj (opened'.symm.trans opened)
  rcases Backend.writeDataToStream_cases opened s.buffer.transactionsData with
    ⟨-,-,wrote⟩ | ⟨failure,left,raised,-,long⟩
  swap
  · exact absurd fits (Nat.not_le.mpr (long none))
  obtain ⟨written,written_eq⟩ : ∃ written, written = m.backend.popped.streamed same s.buffer.transactionsData := ⟨_,rfl⟩
  obtain ⟨recorded,recorded_eq⟩ : ∃ recorded, recorded = (m.withBackend written).withRecords
      (s.records.dropLast ++ [s.flushRecord^[progress.appended.record] record]) := ⟨_,rfl⟩
  have append : onBackend (Backend.writeDataToStream m.buffer.transactionsData) m = .ok () (m.withBackend written) := by
    simp [onBackend,attempted.buffer,wrote,written_eq]
  have last : (m.withBackend written).records.getLast? = some (s.flushRecord^[progress.record] record) := by
    simp [attempted.records]
  -- the name of the record does not change
  have named : ∀ count, (s.flushRecord^[count] record).name = record.name := by
    intro count
    induction count with
    | zero => rfl
    | succ count ih =>
      rw [Function.iterate_succ_apply']
      exact ih
  have flush : flushEventBufferInternal m = (saveCurrentBinlogMetadata >>= fun _ =>
      modify fun s => s.withBuffer (s.buffer.flushed s.replicationMode)) recorded := by
    rw [flushEventBufferInternal, Action.bind_of_ok Action.get_run, Action.bind_of_ok append,
      Action.bind_of_ok (Action.modify_run _), updateCurrentRecord_eq last, recorded_eq, Progress.appended,
      Function.iterate_succ_apply', ← attempted.flushRecord_eq]
    simp only [withBackend_records, attempted.records, List.dropLast_concat]
    rfl
  have save : saveCurrentBinlogMetadata recorded = onBackend (Backend.putObject (generateBinlogMetadataName record.name)
      (BinlogFileMetadata.str (s.flushRecord^[progress.appended.record] record))) recorded := by
    rw [saveCurrentBinlogMetadata, Action.bind_of_ok Action.get_run, recorded_eq]
    simp only [withRecords_records, List.getLast?_concat, saveBinlogMetadata, named]
  have reached : Attempted s stream record progress.appended recorded := by
    have stored : ∀ key, written.objects.find? key =
        if key = same.name then some (m.backend.written same ++ s.buffer.transactionsData)
        else m.backend.objects.find? key := by
      intro key
      rw [written_eq, Backend.find?_streamed]
      rfl
    rw [recorded_eq]
    refine ⟨⟨_,by rw [written_eq]; rfl,(Backend.Stream.extended_name _ _ _).trans name,?_⟩,?_,?_,fun key other metadata => ?_,
      rfl,attempted.buffer,attempted.mode,attempted.construction,Nat.le_succ_of_le attempted.counted,fun _ => ?_⟩
    · rw [withRecords_backend, withBackend_backend, written_eq]
      refine (Backend.written_streamed m.backend.popped same s.buffer.transactionsData).trans ?_
      rw [Progress.appended, copies_succ, ← List.append_assoc, ← content]
      rfl
    · rw [withRecords_backend, withBackend_backend, stored, if_pos name.symm, content, Progress.appended, copies_succ,
        List.append_assoc]
    · rw [withRecords_backend, withBackend_backend, stored, if_neg (name ▸ apart.symm), attempted.metadata]
      rfl
    · rw [withRecords_backend, withBackend_backend, stored, if_neg (name ▸ other)]
      exact attempted.others key other metadata
    · rw [content, List.length_append] at fits
      omega
  have faults : recorded.backend.faults = m.backend.faults.tail := by rw [recorded_eq, written_eq]; rfl
  have fault : recorded.backend.fault = m.backend.popped.fault := by rw [Backend.fault, Backend.fault, faults]; rfl
  rw [flush, ← fault]
  rcases Backend.request_cases (b := recorded.backend) (.put (generateBinlogMetadataName record.name)
      (BinlogFileMetadata.str (s.flushRecord^[progress.appended.record] record)))
      "cannot write data to underlying tmp object file" "cannot put object into S3 bucket" with
    ⟨quiet,put⟩ | ⟨loud,failure,⟨early,put⟩ | ⟨late,put⟩⟩
  · have done := save.trans (onBackend_eq_ok.mpr ⟨_,put,rfl⟩)
    refine ⟨_,?_,by rw [if_pos (.inl quiet)]; exact reached.put apart (Nat.succ_ne_zero _) recorded.backend.faults.tail,
      .inr ⟨quiet,?_⟩⟩
    · simp [faults]
    · rw [Action.bind_of_ok done]
      rfl
  · have raised := save.trans (onBackend_eq_error.mpr ⟨_,put,rfl⟩)
    have unsaved : ¬ TakesEffect recorded.backend.fault := not_or.mpr ⟨loud,early⟩
    refine ⟨recorded.withBackend recorded.backend.popped,by simp [faults],?_,
      .inl ⟨loud,failure,Action.bind_eq_error.mpr (.inl raised)⟩⟩
    rw [if_neg unsaved]
    exact ⟨reached.opened,reached.file,reached.metadata,reached.others,reached.records,reached.buffer,reached.mode,
      reached.construction,reached.counted,reached.fits⟩
  · have raised := save.trans (onBackend_eq_error.mpr ⟨_,put,rfl⟩)
    refine ⟨_,?_,by rw [if_pos (.inr late)]; exact reached.put apart (Nat.succ_ne_zero _) recorded.backend.faults.tail,
      .inl ⟨loud,failure,Action.bind_eq_error.mpr (.inl raised)⟩⟩
    simp [faults]

end

end
end Storage
end BinlogServer.Store
