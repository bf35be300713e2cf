import BinlogServer.Store.Crash
import BinlogServer.Store.Faults
import BinlogServer.Store.FileSystem

/-!
# The filesystem backend refines the backend

Over any run of requests the system calls of `filesystem_storage_backend` do what `Backend` does with some script of faults:
the same answers, the same objects afterwards, and a process that is killed anywhere leaves what a cut of the effects leaves.
-/

namespace BinlogServer.Store
open ByteString Util

namespace Backend

theorem performAll_nil (b : Backend) : b.performAll [] = b := by
  simp [performAll,replay]

theorem performAll_append (b : Backend) (first second : List Effect) :
    b.performAll (first ++ second) = (b.performAll first).performAll second := by
  simp [performAll,replay]

/-- The barrier takes one outcome off the script. -/
theorem doFsync_run {b : Backend} (files : b.type = .filesystem) (rest : List Fault) :
    doFsync (b.withFaults (.none :: rest)) = .ok () (b.withFaults rest) ∧
      doFsync (b.withFaults (.before :: rest)) = .error ⟨.runtimeError,"cannot fsync path"⟩ (b.withFaults rest) := by
  obtain ⟨type,objects,stream,faults,effects⟩ := b
  cases files
  exact ⟨rfl,rfl⟩

theorem openStream_made {b : Backend} {name : Bytes} {mode : OpenStreamMode} (files : b.type = .filesystem)
    (closed : b.stream = none) (new : mode = .create ∨ b.objects.find? name = none) (rest : List Fault) :
    openStream name mode (b.withFaults (.none :: rest)) =
      .ok 0 (((b.performAll [.create name]).withFaults rest).withStream (some ⟨name,[]⟩)) := by
  obtain ⟨type,objects,stream,faults,effects⟩ := b
  cases files
  cases closed
  cases mode with
  | create => rfl
  | append =>
    have missing : objects.find? name = none := new.resolve_left (by simp)
    simp only [openStream, Action.get_bind_run, withFaults, missing]
    rfl

theorem openStream_unmade {b : Backend} {name : Bytes} {mode : OpenStreamMode} (files : b.type = .filesystem)
    (closed : b.stream = none) (new : mode = .create ∨ b.objects.find? name = none) (rest : List Fault) :
    openStream name mode (b.withFaults (.before :: rest)) =
      .error ⟨.runtimeError,"cannot open underlying file for the stream"⟩ (b.withFaults rest) := by
  obtain ⟨type,objects,stream,faults,effects⟩ := b
  cases files
  cases closed
  cases mode with
  | create => rfl
  | append =>
    have missing : objects.find? name = none := new.resolve_left (by simp)
    simp only [openStream, Action.get_bind_run, withFaults, missing]
    rfl

theorem writeDataToStream_run {b : Backend} {name data : Bytes} (files : b.type = .filesystem)
    (opened : b.stream = some ⟨name,[]⟩) (short : ¬ ((b.objects.find? name).getD []).length + data.length > maxStreamSize)
    (fault : Fault) (rest : List Fault) : writeDataToStream data (b.withFaults (fault :: rest)) =
      request (.append name data) "cannot write data to the underlying stream file" "" (b.withFaults (fault :: rest)) := by
  obtain ⟨type,objects,stream,faults,effects⟩ := b
  cases files
  cases opened
  simp only at short
  simp only [writeDataToStream, raiseIf, Action.get_bind_run, withFaults, short]
  rfl

theorem writeDataToStream_long {b : Backend} {name data : Bytes} (files : b.type = .filesystem)
    (opened : b.stream = some ⟨name,[]⟩) (long : ((b.objects.find? name).getD []).length + data.length > maxStreamSize)
    (faults : List Fault) : writeDataToStream data (b.withFaults faults) =
      .error ⟨.runtimeError,"cannot write data to the underlying stream file"⟩ (b.withFaults faults) := by
  obtain ⟨type,objects,stream,faults',effects⟩ := b
  cases files
  cases opened
  simp only at long
  simp only [writeDataToStream, raiseIf, Action.get_bind_run, withFaults, long]
  rfl

def serve : Request → Action Backend Reply
  | .listObjects => do
    let b ← get
    pure (.objects b.listObjects)
  | .getObject name => do
    let b ← get
    let content ← b.getObject name
    pure (.content content)
  | .putObject name content => do
    putObject name content
    pure .nothing
  | .removeObjects names => do
    removeObjects names
    pure .nothing
  | .openStream name mode => do
    let offset ← openStream name mode
    pure (.offset offset)
  | .writeDataToStream data => do
    writeDataToStream data
    pure .nothing
  | .closeStream => do
    closeStream
    pure .nothing

end Backend

/-- What a caller gets: what is returned, or the class of what is raised. -/
def answer {σ : Type} (x : Action σ Reply) (s : σ) : Except ExceptionType Reply :=
  match x s with
  | .ok reply _ => .ok reply
  | .error failure _ => .error failure.type

theorem answer_ok {σ : Type} {x : Action σ Reply} {s t : σ} {reply : Reply} (run : x s = .ok reply t) :
    answer x s = .ok reply := by
  simp [answer,run]

theorem answer_error {σ : Type} {x : Action σ Reply} {s t : σ} {failure : Failure} (run : x s = .error failure t) :
    answer x s = .error failure.type := by
  simp [answer,run]

/-- All of the effects have taken place, or a cut of them. -/
def Left (objects : Objects) (effects : List Effect) (left : Objects) : Prop :=
  left = replay objects effects ∨ Cut objects effects left

namespace Cut
variable {objects left : Objects} {first second : List Effect}

theorem append_right (cut : Cut objects first left) (second : List Effect) : Cut objects (first ++ second) left := by
  induction cut with
  | before objects effect rest => exact .before objects effect _
  | within objects name data rest count => exact .within objects name data _ count
  | after cut ih => exact .after ih

theorem append_left (first : List Effect) (cut : Cut (replay objects first) second left) :
    Cut objects (first ++ second) left := by
  induction first generalizing objects with
  | nil => exact cut
  | cons effect first ih => exact .after (ih cut)

end Cut

namespace Left
variable {objects left : Objects} {first second : List Effect}

theorem untouched (objects : Objects) (effects : List Effect) : Left objects effects objects := by
  cases effects with
  | nil => exact .inl rfl
  | cons effect rest => exact .inr (.before objects effect rest)

theorem append_right (kept : Left objects first left) (second : List Effect) : Left objects (first ++ second) left := by
  rcases kept with rfl | cut
  · cases second with
    | nil => exact .inl (by rw [List.append_nil])
    | cons effect rest => exact .inr (.append_left first (.before _ effect rest))
  · exact .inr (cut.append_right second)

theorem append_left (first : List Effect) (kept : Left (replay objects first) second left) :
    Left objects (first ++ second) left := by
  rcases kept with rfl | cut
  · exact .inl (by simp [replay])
  · exact .inr (cut.append_left first)

end Left

namespace FileSystem
open BasicStorageBackend (tryRemoveObjects tryRemoveObjects_of_ok tryRemoveObjects_of_error removeObjects_run)

/-- The objects in a directory; temporary files are none. -/
def objectsOf (disk : Disk Bytes UInt8) : Objects :=
  disk.names.filterMap fun name file => if isTmp name then none else disk.files[file]?.map DiskFile.content

theorem find?_objectsOf (disk : Disk Bytes UInt8) (name : Bytes) :
    (objectsOf disk).find? name = if isTmp name then none else disk.read name := by
  rw [objectsOf, SortedMap.find?_filterMap]
  by_cases tmp : isTmp name = true <;> simp [tmp,Disk.read]

theorem doListObjects_eq (fs : FileSystem) :
    fs.doListObjects = (objectsOf fs.disk).entries.map fun x => (x.1,x.2.length) := by
  rw [doListObjects, ← SortedMap.entries_filterMap_some]
  congr 1
  apply SortedMap.ext
  intro name
  rw [SortedMap.find?_filterMap, SortedMap.find?_filterMap, find?_objectsOf]
  by_cases tmp : isTmp name = true
  · cases fs.disk.names.find? name <;> simp [tmp]
  · cases found : fs.disk.names.find? name with
    | none => simp [tmp,Disk.read,found]
    | some file => cases held : fs.disk.files[file]? <;> simp [tmp,Disk.read,found,held]

/-- Two disks with the same objects. -/
def Same (disk disk' : Disk Bytes UInt8) : Prop :=
  ∀ name, isTmp name = false → disk'.names.find? name = disk.names.find? name ∧ disk'.read name = disk.read name

theorem Same.objectsOf {disk disk' : Disk Bytes UInt8} (same : Same disk disk') : objectsOf disk' = objectsOf disk := by
  apply SortedMap.ext
  intro name
  rw [find?_objectsOf, find?_objectsOf]
  by_cases tmp : isTmp name = true
  · simp [tmp]
  · rw [(same name (by simpa using tmp)).2]

/-- The directory is what the backend says it is. -/
structure Shows (fs : FileSystem) (b : Backend) : Prop where
  type : b.type = .filesystem
  objects : b.objects = objectsOf fs.disk
  closed : fs.stream = none → b.stream = none
  opened : ∀ stream ∈ fs.stream, ∃ name, b.stream = some ⟨name,[]⟩ ∧ isTmp name = false ∧
    fs.disk.names.find? name = some stream.file

/-- Both have gone on in the same way. -/
structure Agrees (fs : FileSystem) (b : Backend) (fs' : FileSystem) (b' : Backend) : Prop where
  shows : Shows fs' b'
  left : ∃ made effects, fs'.calls = fs.calls ++ made ∧ fs'.disk = fs.disk.performAll made ∧
    b'.effects = b.effects ++ effects ∧ b'.objects = replay b.objects effects ∧
    ∀ done, Disk.Part made done → Left b.objects effects (objectsOf (fs.disk.performAll done))

/-- There are faults with which the backend answers as the file system does, and goes on in the same way. -/
def Simulated (request : Request) (fs : FileSystem) (b : Backend) : Prop :=
  ∃ faults b', Agrees fs b ((serve request).after fs) b' ∧ ∀ rest,
    answer (serve request) fs = answer (Backend.serve request) (b.withFaults (faults ++ rest)) ∧
    (Backend.serve request).after (b.withFaults (faults ++ rest)) = b'.withFaults rest

section
variable {request : Request} {fs fs' : FileSystem} {b b' : Backend}

theorem simulated_ok {reply : Reply} (here : serve request fs = .ok reply fs') (faults : List Fault)
    (there : ∀ rest, Backend.serve request (b.withFaults (faults ++ rest)) = .ok reply (b'.withFaults rest))
    (agrees : Agrees fs b fs' b') : Simulated request fs b := by
  refine ⟨faults,b',?_,fun rest => ?_⟩
  · rw [Action.after_ok here]
    exact agrees
  · rw [answer_ok here, answer_ok (there rest), Action.after_ok (there rest)]
    exact ⟨rfl,rfl⟩

theorem simulated_error {failure : Failure} {type : ExceptionType} (here : serve request fs = .error failure fs')
    (raised : failure.type = type) (faults : List Fault) (there : ∀ rest, ∃ message,
      Backend.serve request (b.withFaults (faults ++ rest)) = .error ⟨type,message⟩ (b'.withFaults rest))
    (agrees : Agrees fs b fs' b') : Simulated request fs b := by
  refine ⟨faults,b',?_,fun rest => ?_⟩
  · rw [Action.after_error here]
    exact agrees
  · obtain ⟨message,run⟩ := there rest
    rw [answer_error here, answer_error run, Action.after_error run, raised]
    exact ⟨rfl,rfl⟩

end

/-- The name is not that of the open file. -/
def IsClosed (fs : FileSystem) (name : Bytes) : Prop := ∀ stream ∈ fs.stream, fs.disk.names.find? name ≠ some stream.file

/-- Requests that the model of the backend has room for. Temporary files are not asked for, the file of the open stream is not
    replaced or removed, opening a file that is there does not fail, and a write to a stream that fails has been made or not. -/
def Careful (fs : FileSystem) : Request → Prop
  | .getObject name => isTmp name = false
  | .putObject name _ => name ≠ [] ∧ isTmp name = false ∧ fs.IsClosed name
  | .removeObjects names => ∀ name ∈ names, isTmp name = false ∧ fs.IsClosed name
  | .openStream name mode => isTmp name = false ∧
      (mode = .append → fs.disk.names.find? name ≠ none → fs.outcomes.headD .done = .done)
  | .writeDataToStream data => ∀ reason count, fs.outcomes.head? = some (.failed reason count) → count = 0 ∨ data.length ≤ count
  | _ => True

section
variable {fs fs' : FileSystem} {b b' : Backend} {name content : Bytes} {disk : Disk Bytes UInt8}
  {made done : List (Disk.Call Bytes UInt8)}

/-- Where the objects are the same and the stream is, nothing else is to be shown. -/
theorem Shows.of_same (shows : Shows fs b) (same : Same fs.disk fs'.disk)
    (stream : fs'.stream.map OutputStream.file = fs.stream.map OutputStream.file) : Shows fs' b where
  type := shows.type
  objects := by rw [same.objectsOf]; exact shows.objects
  closed := fun none => shows.closed (by simpa [none] using stream.symm)
  opened := by
    intro opened member
    obtain ⟨former,held,file⟩ : ∃ former, fs.stream = some former ∧ former.file = opened.file :=
      Option.map_eq_some_iff.mp (stream.symm.trans (by rw [Option.mem_def.mp member]; rfl))
    obtain ⟨name,there,plain,bound⟩ := shows.opened former held
    exact ⟨name,there,plain,(same name plain).1.trans (bound.trans (congrArg some file))⟩

/-- A request that makes no calls. -/
theorem Shows.agrees_quiet (shows : Shows fs b) (disk : fs'.disk = fs.disk) (calls : fs'.calls = fs.calls)
    (stream : fs'.stream.map OutputStream.file = fs.stream.map OutputStream.file) : Agrees fs b fs' b where
  shows := shows.of_same (fun _ _ => by rw [disk]; exact ⟨rfl,rfl⟩) stream
  left := by
    refine ⟨[],[],by rw [calls, List.append_nil],disk,(List.append_nil _).symm,rfl,fun done part => ?_⟩
    cases part with
    | nil => exact .inl shows.objects.symm

/-! ### Putting an object -/

theorem staging_same {tmp : Bytes} (hidden : isTmp tmp = true) (part : Disk.Part (disk.stagingCalls tmp content) done) :
    Same disk (disk.performAll done) := by
  obtain ⟨file,bound⟩ := disk.openFile_bound tmp true
  have opened : Same disk (disk.openFile tmp true) := by
    intro other plain
    have differ : other ≠ tmp := by
      rintro rfl
      simp [hidden] at plain
    exact ⟨Disk.find?_openFile disk tmp true differ,by simp [Disk.read_openFile,differ]⟩
  have appended : ∀ data, Same disk ((disk.openFile tmp true).append file data) := by
    intro data other plain
    have differ : other ≠ tmp := by
      rintro rfl
      simp [hidden] at plain
    exact ⟨(opened other plain).1,by rw [Disk.read_append _ bound, if_neg differ]; exact (opened other plain).2⟩
  rcases Disk.staging_cases bound part with same | same | ⟨data,same⟩ | same <;> rw [same]
  · exact fun _ _ => ⟨rfl,rfl⟩
  · exact opened
  · exact appended data
  · intro other plain
    rw [Disk.read_syncFile, Disk.names_syncFile]
    exact appended content other plain

/-- The objects when a part of the calls has been made. -/
theorem put_cases (some : name ≠ []) (plain : isTmp name = false) (part : Disk.Part (putCalls disk name content) done) :
    Disk.Part (disk.stagingCalls (name ++ tmpObjectSuffix) content) done ∨
    objectsOf (disk.performAll done) = (Effect.put name content).apply (objectsOf disk) ∧
      ∀ other, isTmp other = false → other ≠ name → (disk.performAll done).names.find? other = disk.names.find? other := by
  unfold putCalls at part
  rcases part.append_cases with staging | ⟨later,ending,rfl⟩
  · exact .inl staging
  · cases ending with
    | nil => exact .inl (by rw [List.append_nil]; exact .refl _)
    | cons _ ending =>
      refine .inr ?_
      have hidden := isTmp_append some
      obtain ⟨file,bound,whole⟩ := disk.staged (name ++ tmpObjectSuffix) content
      have same := staging_same hidden (.refl (disk.stagingCalls (name ++ tmpObjectSuffix) content))
      have renamed : ∀ other, isTmp other = false →
          ((disk.performAll (disk.stagingCalls (name ++ tmpObjectSuffix) content)).rename (name ++ tmpObjectSuffix) name).read
            other = if other = name then Option.some content else disk.read other := by
        intro other ordinary
        have differ : other ≠ name ++ tmpObjectSuffix := by
          rintro rfl
          simp [hidden] at ordinary
        rw [Disk.read_rename bound, if_neg differ, Disk.read_bound bound, whole, (same other ordinary).2]
        by_cases target : other = name <;> simp [target]
      have kept : ∀ other, isTmp other = false → other ≠ name →
          ((disk.performAll (disk.stagingCalls (name ++ tmpObjectSuffix) content)).rename (name ++ tmpObjectSuffix)
            name).names.find? other = disk.names.find? other := by
        intro other ordinary differ
        have apart : other ≠ name ++ tmpObjectSuffix := by
          rintro rfl
          simp [hidden] at ordinary
        rw [(Disk.rename_names bound name).1, SortedMap.find?_insert, if_neg differ, SortedMap.find?_erase, if_neg apart]
        exact (same other ordinary).1
      have objects : ∀ last : Disk Bytes UInt8, (∀ other, isTmp other = false →
          last.read other = if other = name then Option.some content else disk.read other) →
          objectsOf last = (Effect.put name content).apply (objectsOf disk) := by
        intro last reads
        apply SortedMap.ext
        intro other
        rw [Effect.apply, SortedMap.find?_insert, find?_objectsOf, find?_objectsOf]
        by_cases tmp : isTmp other = true
        · have differ : other ≠ name := by
            rintro rfl
            simp [tmp] at plain
          simp [tmp,differ]
        · simp [tmp,reads other (by simpa using tmp)]
      rw [Disk.performAll_append]
      cases ending with
      | nil => exact ⟨objects _ renamed,kept⟩
      | cons _ ending =>
        cases ending with
        | nil => exact ⟨objects _ renamed,kept⟩
        | cons _ ending =>
          cases ending with
          | nil => exact ⟨objects _ renamed,kept⟩

theorem Shows.put (shows : Shows fs b) (careful : fs.Careful (.putObject name content)) :
    Simulated (.putObject name content) fs b := by
  obtain ⟨nonempty,plain,closed⟩ := careful
  have hidden := isTmp_append nonempty
  have tries := doPutObject_tries name content fs
  -- where it has not been renamed, nothing has happened; otherwise it has been put
  have unchanged : ∀ {made fs'}, Disk.Part (fs.disk.stagingCalls (name ++ tmpObjectSuffix) content) made → fs.Did fs' made →
      Agrees fs b fs' b := by
    intro made fs' staging did
    refine ⟨shows.of_same (did.disk ▸ staging_same hidden staging) (by rw [did.stream]),made,[],did.calls,did.disk,
      (List.append_nil _).symm,rfl,fun done cut => .inl ?_⟩
    rw [(staging_same hidden (staging.trans cut)).objectsOf]
    exact shows.objects.symm
  have changed : ∀ {made fs'}, Disk.Part (putCalls fs.disk name content) made → fs.Did fs' made →
      objectsOf (fs.disk.performAll made) = (Effect.put name content).apply (objectsOf fs.disk) →
      (∀ other, isTmp other = false → other ≠ name → (fs.disk.performAll made).names.find? other = fs.disk.names.find? other) →
      Agrees fs b fs' (b.perform (.put name content)) := by
    intro made fs' part did objects others
    refine ⟨⟨shows.type,?_,fun none => shows.closed (did.stream ▸ none),?_⟩,made,[.put name content],did.calls,did.disk,
      rfl,rfl,?_⟩
    · rw [did.disk, objects, ← shows.objects]
      rfl
    · intro stream member
      have member : stream ∈ fs.stream := did.stream ▸ member
      obtain ⟨opened,there,ordinary,bound⟩ := shows.opened stream member
      refine ⟨opened,there,ordinary,?_⟩
      rw [did.disk, others opened ordinary fun same => closed stream member (same ▸ bound)]
      exact bound
    · intro done cut
      rcases put_cases nonempty plain (part.trans cut) with staging | ⟨put,-⟩
      · rw [(staging_same hidden staging).objectsOf, ← shows.objects]
        exact .untouched _ _
      · rw [put, ← shows.objects]
        exact .inl rfl
  generalize run : doPutObject name content fs = result at tries
  cases tries with
  | @ok u fs' did =>
    have here : serve (.putObject name content) fs = .ok .nothing fs' := Action.bind_of_ok run
    rcases put_cases nonempty plain (.refl (putCalls fs.disk name content)) with staging | ⟨objects,others⟩
    · have member : .rename (name ++ tmpObjectSuffix) name ∈ putCalls fs.disk name content := by simp [putCalls]
      exact absurd (staging.mem_rename member) (by simp [Disk.stagingCalls])
    · exact simulated_ok here [.none] (fun _ => rfl) (changed (.refl _) did objects others)
  | @error failure fs' made type part did =>
    have here : serve (.putObject name content) fs = .error failure fs' := Action.bind_eq_error.mpr (.inl run)
    rcases put_cases nonempty plain part with staging | ⟨objects,others⟩
    · exact simulated_error here type [.before] (fun _ => ⟨_,rfl⟩) (unchanged staging did)
    · exact simulated_error here type [.after] (fun _ => ⟨_,rfl⟩) (changed part did objects others)

/-! ### Removing objects -/

theorem objectsOf_remove (disk : Disk Bytes UInt8) (plain : isTmp name = false) :
    objectsOf (disk.remove name) = (Effect.remove name).apply (objectsOf disk) := by
  apply SortedMap.ext
  intro other
  rw [Effect.apply, SortedMap.find?_erase, find?_objectsOf, find?_objectsOf, Disk.read_remove]
  by_cases same : other = name
  · subst same
    simp [plain]
  · simp [same]

theorem objectsOf_removed (disk : Disk Bytes UInt8) {gone : List Bytes} (plain : ∀ name ∈ gone, isTmp name = false) :
    objectsOf (disk.performAll (gone.map .remove)) = replay (objectsOf disk) (gone.map .remove) := by
  induction gone generalizing disk with
  | nil => rfl
  | cons first rest ih =>
    refine (ih (disk.remove first) fun name member => plain name (List.mem_cons_of_mem _ member)).trans ?_
    rw [objectsOf_remove disk (plain first List.mem_cons_self)]
    rfl

theorem find?_removed (disk : Disk Bytes UInt8) {gone : List Bytes} {other : Bytes} (kept : other ∉ gone) :
    (disk.performAll (gone.map .remove)).names.find? other = disk.names.find? other := by
  induction gone generalizing disk with
  | nil => rfl
  | cons first rest ih =>
    rw [List.mem_cons, not_or] at kept
    refine (ih (disk.remove first) kept.2).trans ?_
    rw [Disk.remove, SortedMap.find?_erase, if_neg kept.1]

/-- An object that is there is asked for, whatever comes of it. -/
theorem doRemoveObject_present (objects : b.objects = objectsOf fs.disk) (plain : isTmp name = false)
    (present : fs.disk.names.find? name ≠ none) (fault : Fault) (rest : List Fault) :
    Backend.doRemoveObject name (b.withFaults (fault :: rest)) =
      Backend.request (.remove name) "cannot remove underlying object file" "cannot delete object from S3 bucket"
        (b.withFaults (fault :: rest)) := by
  unfold Backend.doRemoveObject
  rw [Action.get_bind_run, Action.raiseIf_bind_run, if_neg]
  rintro ⟨-,absent⟩
  refine present (Disk.read_eq_none_iff.mp ?_)
  simpa [objects,find?_objectsOf,plain] using absent

/-- One object is removed, and there is a fault with which the backend goes on in the same way. -/
theorem removeOne_simulated (files : b.type = .filesystem) (objects : b.objects = objectsOf fs.disk) (plain : isTmp name = false) :
    ∃ gone faults, (∀ other ∈ gone, other = name) ∧
      ((∃ fs', doRemoveObject name fs = .ok () fs' ∧ fs.Did fs' (gone.map .remove) ∧ gone = [name] ∧
        ∀ rest, Backend.doRemoveObject name (b.withFaults (faults ++ rest)) =
          .ok () ((b.performAll (gone.map .remove)).withFaults rest)) ∨
      ∃ failure fs', doRemoveObject name fs = .error failure fs' ∧ failure.type = .runtimeError ∧
        fs.Did fs' (gone.map .remove) ∧ ∀ rest, ∃ message, Backend.doRemoveObject name (b.withFaults (faults ++ rest)) =
          .error ⟨.runtimeError,message⟩ ((b.performAll (gone.map .remove)).withFaults rest)) := by
  rcases doRemoveObject_tries name fs with ⟨absent,failure,type,raised⟩ | ⟨present,tries⟩
  · refine ⟨[],[],by simp,.inr ⟨failure,fs,raised,type,.nil fs,fun rest =>
      ⟨"cannot remove underlying object file: file does not exist",?_⟩⟩⟩
    unfold Backend.doRemoveObject
    rw [Action.get_bind_run, Action.raiseIf_bind_run, if_pos, List.map_nil, Backend.performAll_nil]
    · rfl
    · refine ⟨files,?_⟩
      simpa [objects,find?_objectsOf,plain] using Disk.read_eq_none_iff.mpr absent
  · have there := doRemoveObject_present objects plain present
    generalize doRemoveObject name fs = result at tries
    cases tries with
    | ok did => exact ⟨[name],[.none],by simp,.inl ⟨_,rfl,did,rfl,fun rest => there .none rest⟩⟩
    | error type part did =>
      cases part with
      | nil =>
        refine ⟨[],[.before],by simp,.inr ⟨_,_,rfl,type,did,fun rest => ?_⟩⟩
        rw [List.map_nil, Backend.performAll_nil]
        exact ⟨_,there .before rest⟩
      | cons _ part =>
        cases part with
        | nil => exact ⟨[name],[.after],by simp,.inr ⟨_,_,rfl,type,did,fun rest => ⟨_,there .after rest⟩⟩⟩

/-- The objects are removed one after the other. -/
theorem removeAll_simulated {names : List Bytes} (files : b.type = .filesystem) (objects : b.objects = objectsOf fs.disk)
    (plain : ∀ name ∈ names, isTmp name = false) :
    ∃ (gone : List Bytes) (faults : List Fault), (∀ name ∈ gone, name ∈ names) ∧
      fs.Did (tryRemoveObjects doRemoveObject names fs).2 (gone.map .remove) ∧
      (∀ failure ∈ (tryRemoveObjects doRemoveObject names fs).1, failure.type = .runtimeError) ∧ ∀ rest,
        (tryRemoveObjects Backend.doRemoveObject names (b.withFaults (faults ++ rest))).2 =
          (b.performAll (gone.map .remove)).withFaults rest ∧
        ((tryRemoveObjects doRemoveObject names fs).1 = none →
          (tryRemoveObjects Backend.doRemoveObject names (b.withFaults (faults ++ rest))).1 = none) := by
  induction names generalizing fs b with
  | nil =>
    refine ⟨[],[],by simp,.nil fs,by simp [tryRemoveObjects],fun rest => ⟨?_,fun _ => rfl⟩⟩
    rw [List.map_nil, Backend.performAll_nil]
    rfl
  | cons name names ih =>
    have plainFirst := plain name List.mem_cons_self
    obtain ⟨first,faults,among,step⟩ := removeOne_simulated files objects plainFirst
    -- the others are tried in the state that the first one has left
    have objects' : ∀ {fs'}, fs.Did fs' (first.map .remove) →
        (b.performAll (first.map .remove)).objects = objectsOf fs'.disk := by
      intro fs' did
      rw [did.disk, objectsOf_removed fs.disk fun other member => among other member ▸ plainFirst, ← objects]
      rfl
    have within : ∀ {gone : List Bytes}, (∀ other ∈ gone, other ∈ names) → ∀ other ∈ first ++ gone, other ∈ name :: names := by
      intro gone some other member
      rcases List.mem_append.mp member with member | member
      · rw [among other member]
        exact List.mem_cons_self
      · exact List.mem_cons_of_mem _ (some other member)
    have together : ∀ (gone : List Bytes) rest, ((b.performAll (first.map .remove)).performAll (gone.map .remove)).withFaults rest =
        (b.performAll ((first ++ gone).map .remove)).withFaults rest := by
      intro gone rest
      rw [List.map_append, Backend.performAll_append]
    have files' : (b.performAll (first.map .remove)).type = .filesystem := files
    have rest' := fun other member => plain other (List.mem_cons_of_mem name member)
    rcases step with ⟨fs',removed,did,-,there⟩ | ⟨failure,fs',raised,type,did,there⟩
    · obtain ⟨gone,faults',some,did',types,runs⟩ := ih files' (objects' did) rest'
      rw [tryRemoveObjects_of_ok removed]
      refine ⟨first ++ gone,faults ++ faults',within some,by rw [List.map_append]; exact did.append did',types,fun rest => ?_⟩
      rw [List.append_assoc, tryRemoveObjects_of_ok (there _), ← together]
      exact runs rest
    · obtain ⟨gone,faults',some,did',-,runs⟩ := ih files' (objects' did) rest'
      rw [tryRemoveObjects_of_error raised]
      refine ⟨first ++ gone,faults ++ faults',within some,by rw [List.map_append]; exact did.append did',?_,fun rest => ?_⟩
      · rintro _ ⟨⟩
        exact type
      · obtain ⟨message,run⟩ := there (faults' ++ rest)
        rw [List.append_assoc, tryRemoveObjects_of_error run, ← together]
        exact ⟨(runs rest).1,fun none => by cases none⟩

theorem synced_same (part : Disk.Part [.idle,.syncNames] made) : Same disk (disk.performAll made) := by
  intro other _
  cases part with
  | nil => exact ⟨rfl,rfl⟩
  | cons _ part =>
    cases part with
    | nil => exact ⟨rfl,rfl⟩
    | cons _ part =>
      cases part with
      | nil => exact ⟨rfl,rfl⟩

theorem Shows.remove (shows : Shows fs b) {names : List Bytes} (careful : fs.Careful (.removeObjects names)) :
    Simulated (.removeObjects names) fs b := by
  have plain : ∀ name ∈ names, isTmp name = false := fun name member => (careful name member).1
  obtain ⟨gone,faults,among,removed,types,runs⟩ := removeAll_simulated shows.type shows.objects plain
  have objects : ∀ front : List Bytes, (∀ name ∈ front, name ∈ names) →
      objectsOf (fs.disk.performAll (front.map .remove)) = replay b.objects (front.map .remove) := by
    intro front some
    rw [objectsOf_removed fs.disk fun name member => plain name (some name member), ← shows.objects]
  have agrees : ∀ {made fs'}, Disk.Part [.idle,.syncNames] made →
      (tryRemoveObjects doRemoveObject names fs).2.Did fs' made →
      Agrees fs b fs' (b.performAll (gone.map .remove)) := by
    intro made fs' part did
    have all := removed.append did
    have same : Same (fs.disk.performAll (gone.map .remove)) fs'.disk := by
      rw [all.disk, Disk.performAll_append]
      exact synced_same part
    refine ⟨⟨shows.type,?_,fun none => shows.closed (all.stream ▸ none),?_⟩,_,gone.map .remove,all.calls,all.disk,
      rfl,rfl,?_⟩
    · rw [same.objectsOf, objects gone among]
      rfl
    · intro stream member
      have member : stream ∈ fs.stream := all.stream ▸ member
      obtain ⟨opened,there,ordinary,bound⟩ := shows.opened stream member
      refine ⟨opened,there,ordinary,?_⟩
      rw [(same opened ordinary).1, find?_removed]
      · exact bound
      · exact fun gone' => (careful opened (among opened gone')).2 stream member bound
    · intro done cut
      rcases cut.append_cases with cut | ⟨later,last,rfl⟩
      · obtain ⟨front,⟨back,rfl⟩,rfl⟩ := part_removed cut
        rw [objects front fun name member => among name (List.mem_append_left _ member), List.map_append]
        exact Left.append_right (.inl rfl) _
      · rw [Disk.performAll_append, (synced_same (part.trans last)).objectsOf, objects gone among]
        exact .inl rfl
  -- a run that raises is shown by one whose barrier fails
  have files : (b.performAll (gone.map .remove)).type = .filesystem := shows.type
  have synced : ∀ (fault : Fault) rest, (tryRemoveObjects Backend.doRemoveObject names
      (b.withFaults (faults ++ [fault] ++ rest))).2 = (b.performAll (gone.map .remove)).withFaults (fault :: rest) := by
    intro fault rest
    rw [List.append_assoc]
    exact (runs ([fault] ++ rest)).1
  rcases removeObjects_cases names fs with ⟨fs',run,clean,did⟩ | ⟨failure,fs',made,run,part,did,why⟩
  · refine simulated_ok (Action.bind_of_ok run) (faults ++ [.none]) (fun rest => Action.bind_of_ok (a := ()) ?_)
      (agrees (.refl _) did)
    have clean' : (tryRemoveObjects Backend.doRemoveObject names (b.withFaults (faults ++ [Fault.none] ++ rest))).1 = none := by
      rw [List.append_assoc]
      exact (runs ([.none] ++ rest)).2 clean
    rw [Backend.removeObjects, removeObjects_run, synced, clean', Action.bind_of_ok (Backend.doFsync_run files rest).1]
    rfl
  · have here : serve (.removeObjects names) fs = .error failure fs' := Action.bind_eq_error.mpr (.inl run)
    refine simulated_error here (why.elim id fun first => types failure first) (faults ++ [.before])
      (fun rest => ⟨"cannot fsync path",Action.bind_eq_error.mpr (.inl ?_)⟩) (agrees part did)
    rw [Backend.removeObjects, removeObjects_run, synced]
    exact Action.bind_eq_error.mpr (.inl (Backend.doFsync_run files rest).2)

/-! ### Streams -/

theorem objectsOf_openFile (disk : Disk Bytes UInt8) (plain : isTmp name = false) (truncated : Bool) :
    objectsOf (disk.openFile name truncated) =
      (objectsOf disk).insert name (if truncated then [] else (disk.read name).getD []) := by
  apply SortedMap.ext
  intro other
  rw [SortedMap.find?_insert, find?_objectsOf, find?_objectsOf, Disk.read_openFile]
  by_cases same : other = name
  · simp [same,plain]
  · simp [same]

/-- A file is opened, and the backend has the stream and the objects that follow. -/
theorem Shows.agrees_opened (shows : Shows fs b) (plain : isTmp name = false) {truncated : Bool} (outcomes : List CallOutcome)
    {effects : List Effect} (effect : objectsOf (fs.disk.openFile name truncated) = replay b.objects effects) : Agrees fs b
      ⟨fs.disk.openFile name truncated,some ⟨((fs.disk.openFile name truncated).names.find? name).getD 0,true⟩,outcomes,
        fs.calls ++ [.openFile name truncated]⟩
      ((b.performAll effects).withStream (some ⟨name,[]⟩)) where
  shows := by
    refine ⟨shows.type,effect.symm,by simp,fun stream member => ⟨name,rfl,plain,?_⟩⟩
    obtain ⟨file,bound⟩ := fs.disk.openFile_bound name truncated
    obtain rfl : stream = ⟨file,true⟩ := by simpa [bound,eq_comm] using member
    exact bound
  left := by
    refine ⟨_,effects,rfl,rfl,rfl,rfl,fun done cut => ?_⟩
    cases cut with
    | nil =>
      rw [show fs.disk.performAll [] = fs.disk from rfl, ← shows.objects]
      exact Left.untouched _ _
    | cons _ cut =>
      cases cut with
      | nil => exact .inl effect

theorem openStream_eq (opened : fs.stream = none) (name : Bytes) (mode : OpenStreamMode) :
    FileSystem.openStream name mode fs =
      (systemCall (.openFile name (mode = .create)) (fun _ => "cannot open underlying file for the stream") >>= fun _ => do
        modify fun fs => { fs with stream := some ⟨fs.fileOf name,true⟩ }
        let fs ← get
        pure ((fs.disk.read name).getD []).length) fs := by
  unfold FileSystem.openStream
  rw [Action.get_bind_run, Action.raiseIf_bind_run, if_neg (by simp [opened])]

-- the backend makes an object only where there is none, or where it is to be emptied
theorem Shows.open_done (shows : Shows fs b) {mode : OpenStreamMode} (plain : isTmp name = false) (closed : b.stream = none)
    (here : serve (.openStream name mode) fs =
      .ok (.offset (((fs.disk.openFile name (mode = .create)).read name).getD []).length)
        ⟨fs.disk.openFile name (mode = .create),
          some ⟨((fs.disk.openFile name (mode = .create)).names.find? name).getD 0,true⟩,fs.outcomes.tail,
          fs.calls ++ [.openFile name (mode = .create)]⟩) : Simulated (.openStream name mode) fs b := by
  have objects : b.objects.find? name = fs.disk.read name := by
    rw [shows.objects, find?_objectsOf]
    simp [plain]
  rw [Disk.read_openFile, if_pos rfl, Option.getD_some] at here
  have whole := objectsOf_openFile fs.disk plain (mode = .create)
  by_cases new : mode = .create ∨ b.objects.find? name = none
  · have empty : (if decide (mode = .create) = true then [] else (fs.disk.read name).getD []) = ([] : Bytes) := by
      rcases new with rfl | missing
      · rfl
      · rw [← objects, missing]
        simp
    rw [empty] at here whole
    have there : ∀ rest, Backend.serve (.openStream name mode) (b.withFaults ([.none] ++ rest)) =
        .ok (.offset 0) (((b.performAll [.create name]).withStream (some ⟨name,[]⟩)).withFaults rest) :=
      fun rest => Action.bind_of_ok (Backend.openStream_made shows.type closed new rest)
    refine simulated_ok here [.none] there (shows.agrees_opened plain _ (whole.trans ?_))
    rw [← shows.objects]
    rfl
  · rw [not_or] at new
    obtain ⟨content,found⟩ := Option.ne_none_iff_exists'.mp new.2
    have append : mode = .append := by
      cases mode with
      | create => exact absurd rfl new.1
      | append => rfl
    subst append
    have value : (if decide (OpenStreamMode.append = .create) = true then [] else (fs.disk.read name).getD []) = content := by
      rw [← objects, found]
      rfl
    rw [value] at here whole
    have there : ∀ rest, Backend.serve (.openStream name .append) (b.withFaults rest) =
        .ok (.offset content.length) (((b.performAll []).withStream (some ⟨name,[]⟩)).withFaults rest) := by
      intro rest
      refine (Action.bind_of_ok (Backend.openStream_append (b := b.withFaults rest) closed found)).trans ?_
      rw [Backend.performAll_nil, if_neg (by simp [shows.type])]
      rfl
    refine simulated_ok here [] there (shows.agrees_opened plain _ (whole.trans ?_))
    rw [← shows.objects]
    exact SortedMap.insert_same found

theorem Shows.openStream (shows : Shows fs b) {mode : OpenStreamMode} (careful : fs.Careful (.openStream name mode)) :
    Simulated (.openStream name mode) fs b := by
  obtain ⟨plain,opens⟩ := careful
  cases opened : fs.stream with
  | some stream =>
    obtain ⟨current,there,-⟩ := shows.opened stream opened
    have here : serve (.openStream name mode) fs =
        .error ⟨.logicError,"cannot open a new stream as the previous one has not been closed"⟩ fs := by
      refine Action.bind_eq_error.mpr (.inl ?_)
      unfold FileSystem.openStream
      rw [Action.get_bind_run, Action.raiseIf_bind_run, if_pos (by simp [opened])]
    refine simulated_error here rfl [] (fun rest => ⟨"cannot open a new stream as the previous one has not been closed",?_⟩)
      (shows.agrees_quiet rfl rfl rfl)
    refine Action.bind_eq_error.mpr (.inl ?_)
    unfold Backend.openStream
    rw [Action.get_bind_run, Action.raiseIf_bind_run, if_pos (by simp [Backend.isStreamOpen,there])]
    rfl
  | none =>
    have closed := shows.closed opened
    have start := openStream_eq opened name mode
    rcases systemCall_cases (.openFile name (mode = .create)) (fun _ => "cannot open underlying file for the stream") fs with
      ⟨-,done⟩ | ⟨reason,count,failed,raised⟩
    · refine shows.open_done plain closed ?_
      unfold serve
      exact (Action.bind_of_ok (start.trans (Action.bind_of_ok done))).trans rfl
    · have here : serve (.openStream name mode) fs = .error ⟨.runtimeError,"cannot open underlying file for the stream"⟩
          { fs with outcomes := fs.outcomes.tail } :=
        Action.bind_eq_error.mpr (.inl (start.trans (Action.bind_eq_error.mpr (.inl raised))))
      have new : mode = .create ∨ b.objects.find? name = none := by
        cases mode with
        | create => exact .inl rfl
        | append =>
          right
          rw [shows.objects, find?_objectsOf]
          by_cases present : fs.disk.names.find? name = none
          · simp [Disk.read_eq_none_iff.mpr present]
          · have fine := opens rfl present
            rw [List.headD_eq_head?_getD, failed] at fine
            cases fine
      refine simulated_error here rfl [.before] (fun rest => ⟨_,Action.bind_eq_error.mpr
        (.inl (Backend.openStream_unmade shows.type closed new rest))⟩) (shows.agrees_quiet ?_ ?_ ?_) <;> rfl

section
variable {stream : OutputStream} {data : Bytes}

theorem objectsOf_append (bound : disk.names.find? name = some stream.file) (plain : isTmp name = false) (data : Bytes) :
    objectsOf (disk.append stream.file data) = (Effect.append name data).apply (objectsOf disk) := by
  apply SortedMap.ext
  intro other
  rw [Effect.apply, SortedMap.find?_alter, find?_objectsOf, find?_objectsOf, find?_objectsOf, Disk.read_append disk bound]
  by_cases same : other = name
  · simp [same,plain]
  · simp [same]

/-- The data has been appended to the file of the stream. -/
theorem Shows.agrees_appended (shows : Shows fs b) (bound : fs.disk.names.find? name = some stream.file)
    (there : b.stream = some ⟨name,[]⟩) (plain : isTmp name = false) {tail : List (Disk.Call Bytes UInt8)}
    (idle : tail = [] ∨ tail = [.idle]) (appended : fs'.disk = fs.disk.append stream.file data)
    (calls : fs'.calls = fs.calls ++ .append stream.file data :: tail) (opened : fs'.stream.map OutputStream.file = some stream.file) :
    Agrees fs b fs' (b.performAll [.append name data]) where
  shows := by
    refine ⟨shows.type,?_,fun none => by simp [none] at opened,fun stream' member => ⟨name,there,plain,?_⟩⟩
    · rw [appended, objectsOf_append bound plain, ← shows.objects]
      rfl
    · rw [Option.mem_def.mp member, Option.map_some, Option.some.injEq] at opened
      rw [appended, opened]
      exact bound
  left := by
    have performed : fs'.disk = fs.disk.performAll (.append stream.file data :: tail) := by
      rcases idle with rfl | rfl
      · exact appended
      · exact appended
    refine ⟨_,[.append name data],calls,performed,rfl,rfl,fun done cut => ?_⟩
    have all : objectsOf (fs.disk.append stream.file data) = replay b.objects [.append name data] := by
      rw [objectsOf_append bound plain, ← shows.objects]
      rfl
    cases cut with
    | nil => exact shows.objects ▸ Left.untouched _ _
    | within _ _ count =>
      refine .inr ?_
      rw [show fs.disk.performAll [.append stream.file (data.take count)] = fs.disk.append stream.file (data.take count) from rfl,
        objectsOf_append bound plain, ← shows.objects]
      exact .within _ _ _ _ count
    | cons _ cut =>
      refine .inl ?_
      rcases idle with rfl | rfl
      · cases cut with
        | nil => exact all
      · cases cut with
        | nil => exact all
        | cons _ cut =>
          cases cut with
          | nil => exact all

/-- The write has failed before anything was appended. -/
theorem Shows.agrees_unwritten (shows : Shows fs b) (bound : fs.disk.names.find? name = some stream.file)
    (appended : fs'.disk = fs.disk.append stream.file []) (calls : fs'.calls = fs.calls ++ [.append stream.file []])
    (opened : fs'.stream.map OutputStream.file = fs.stream.map OutputStream.file) : Agrees fs b fs' b := by
  have same : Same fs.disk (fs.disk.append stream.file []) := by
    intro other _
    refine ⟨rfl,?_⟩
    rw [Disk.read_append fs.disk bound]
    by_cases target : other = name
    · have present : fs.disk.read name ≠ none := fun none => by simp [Disk.read_eq_none_iff.mp none] at bound
      obtain ⟨content,held⟩ := Option.ne_none_iff_exists'.mp present
      simp [target,held]
    · rw [if_neg target]
  refine ⟨shows.of_same (appended ▸ same) opened,_,[],calls,appended,(List.append_nil _).symm,rfl,fun done cut => .inl ?_⟩
  have unchanged : objectsOf (fs.disk.append stream.file []) = b.objects := by
    rw [same.objectsOf, shows.objects]
  cases cut with
  | nil => exact shows.objects.symm
  | within _ _ count => exact (congrArg (fun data => objectsOf (fs.disk.append stream.file data)) List.take_nil).trans unchanged
  | cons _ cut =>
    cases cut with
    | nil => exact unchanged

/-- What is raised leaves the stream bad. -/
theorem serve_write_error (opened : fs.stream = some stream) {failure : Failure}
    (raised : doWriteDataToStream stream data fs = .error failure fs') :
    serve (.writeDataToStream data) fs = .error failure { fs' with stream := some ⟨stream.file,false⟩ } := by
  refine Action.bind_eq_error.mpr (.inl ?_)
  unfold FileSystem.writeDataToStream
  simp only [opened, raised]

theorem serve_write_ok (opened : fs.stream = some stream) (returned : doWriteDataToStream stream data fs = .ok () fs') :
    serve (.writeDataToStream data) fs = .ok .nothing fs' := by
  refine Action.bind_of_ok (a := ()) ?_
  unfold FileSystem.writeDataToStream
  simp only [opened, returned]

theorem doWriteDataToStream_eq (stream : OutputStream) (data : Bytes) (fs : FileSystem) :
    doWriteDataToStream stream data fs =
      if (!stream.good) = true ∨ fs.sizeOf stream.file + data.length > Backend.maxStreamSize then
        .error ⟨.runtimeError,"cannot write data to the underlying stream file"⟩ fs
      else (systemCall (.append stream.file data) (fun _ => "cannot write data to the underlying stream file") >>= fun _ =>
        systemCall .idle fun _ => "cannot flush the underlying stream file") fs := by
  unfold doWriteDataToStream
  rw [Action.get_bind_run, Action.raiseIf_bind_run]

theorem Shows.sizeOf_stream (shows : Shows fs b) (plain : isTmp name = false)
    (bound : fs.disk.names.find? name = some stream.file) :
    fs.sizeOf stream.file = ((b.objects.find? name).getD []).length := by
  have known := (fs.disk.current_binds name stream.file bound).1
  rw [shows.objects, find?_objectsOf]
  simp [plain,Disk.read_bound bound,sizeOf,known]

/-- A write that is tried is made, or it fails before or after its data has reached the file. -/
theorem Shows.write_tried (shows : Shows fs b) (careful : fs.Careful (.writeDataToStream data)) (opened : fs.stream = some stream)
    (good : stream.good = true) (there : b.stream = some ⟨name,[]⟩) (plain : isTmp name = false)
    (bound : fs.disk.names.find? name = some stream.file)
    (fits : ¬ fs.sizeOf stream.file + data.length > Backend.maxStreamSize) : Simulated (.writeDataToStream data) fs b := by
  have runs := fun fault rest =>
    Backend.writeDataToStream_run shows.type there (shows.sizeOf_stream plain bound ▸ fits) fault rest
  have after : ∀ rest, ∃ message, Backend.serve (.writeDataToStream data) (b.withFaults ([.after] ++ rest)) =
      .error ⟨.runtimeError,message⟩ ((b.performAll [.append name data]).withFaults rest) := fun rest =>
    ⟨_,Action.bind_eq_error.mpr (.inl (runs .after rest))⟩
  have start := doWriteDataToStream_eq stream data fs
  rw [if_neg (by simp [good]; omega)] at start
  rcases systemCall_cases (.append stream.file data) (fun _ => "cannot write data to the underlying stream file") fs with
    ⟨-,done⟩ | ⟨reason,count,failed,raised⟩
  · rw [Action.bind_of_ok done] at start
    rcases systemCall_cases .idle (fun _ => "cannot flush the underlying stream file")
      ({ fs with outcomes := fs.outcomes.tail }.perform (.append stream.file data)) with ⟨-,flushed⟩ | ⟨_,_,_,unflushed⟩
    · have here := serve_write_ok opened (start.trans flushed)
      have written : ∀ rest, Backend.serve (.writeDataToStream data) (b.withFaults ([.none] ++ rest)) =
          .ok .nothing ((b.performAll [.append name data]).withFaults rest) := fun rest => Action.bind_of_ok (runs .none rest)
      refine simulated_ok here [.none] written (shows.agrees_appended bound there plain (.inr rfl) ?_ ?_ ?_)
      · rfl
      · simp
      · simp [opened]
    · refine simulated_error (serve_write_error opened (start.trans unflushed)) rfl [.after] after
        (shows.agrees_appended bound there plain (.inl rfl) ?_ ?_ ?_) <;> rfl
  · have here := serve_write_error opened (start.trans (Action.bind_eq_error.mpr (.inl raised)))
    -- nothing has reached the file, or all of it
    rcases careful reason count failed with rfl | enough
    · refine simulated_error here rfl [.before] (fun rest => ⟨_,Action.bind_eq_error.mpr (.inl (runs .before rest))⟩)
        (shows.agrees_unwritten bound ?_ ?_ ?_)
      · rfl
      · rfl
      · rw [opened]; rfl
    · have whole : data.take count = data := List.take_of_length_le enough
      refine simulated_error here rfl [.after] after (shows.agrees_appended bound there plain (.inl rfl) ?_ ?_ ?_)
      · simp [performPart,whole,Disk.perform]
      · simp [performPart,whole]
      · rfl

theorem Shows.writeDataToStream (shows : Shows fs b) (careful : fs.Careful (.writeDataToStream data)) :
    Simulated (.writeDataToStream data) fs b := by
  cases opened : fs.stream with
  | none =>
    have closed := shows.closed opened
    have here : serve (.writeDataToStream data) fs =
        .error ⟨.logicError,"cannot write to the stream as it has not been opened"⟩ fs := by
      refine Action.bind_eq_error.mpr (.inl ?_)
      unfold FileSystem.writeDataToStream
      rw [opened]
    refine simulated_error here rfl [] (fun rest => ⟨"cannot write to the stream as it has not been opened",?_⟩)
      (shows.agrees_quiet rfl rfl rfl)
    obtain ⟨type,objects,stream,faults,effects⟩ := b
    cases closed
    rfl
  | some stream =>
    obtain ⟨name,there,plain,bound⟩ := shows.opened stream opened
    have size := shows.sizeOf_stream plain bound
    have start := doWriteDataToStream_eq stream data fs
    by_cases long : fs.sizeOf stream.file + data.length > Backend.maxStreamSize
    · rw [if_pos (.inr long)] at start
      refine simulated_error (serve_write_error opened start) rfl [] (fun rest => ⟨_,Action.bind_eq_error.mpr
        (.inl (Backend.writeDataToStream_long shows.type there (size ▸ long) rest))⟩) (shows.agrees_quiet ?_ ?_ ?_)
      · rfl
      · rfl
      · rw [opened]; rfl
    by_cases good : stream.good = true
    · exact shows.write_tried careful opened good there plain bound long
    · rw [if_pos (.inl (by simpa using good))] at start
      refine simulated_error (serve_write_error opened start) rfl [.before] (fun rest => ⟨_,Action.bind_eq_error.mpr
        (.inl (Backend.writeDataToStream_run shows.type there (size ▸ long) .before rest))⟩) (shows.agrees_quiet ?_ ?_ ?_)
      · rfl
      · rfl
      · rw [opened]; rfl

end

theorem Shows.closeStream (shows : Shows fs b) : Simulated .closeStream fs b := by
  cases opened : fs.stream with
  | none =>
    have closed := shows.closed opened
    have here : serve .closeStream fs = .error ⟨.logicError,"cannot close the stream as it has not been opened"⟩ fs := by
      obtain ⟨disk,stream,outcomes,calls⟩ := fs
      cases opened
      rfl
    refine simulated_error here rfl [] (fun rest => ⟨"cannot close the stream as it has not been opened",?_⟩)
      (shows.agrees_quiet rfl rfl rfl)
    obtain ⟨type,objects,stream,faults,effects⟩ := b
    cases closed
    rfl
  | some stream =>
    obtain ⟨name,there,-,-⟩ := shows.opened stream opened
    have here : serve .closeStream fs = .ok .nothing { fs with stream := none } := by
      obtain ⟨disk,stream',outcomes,calls⟩ := fs
      cases opened
      rfl
    have runs : ∀ rest, Backend.serve .closeStream (b.withFaults rest) = .ok .nothing ((b.withStream none).withFaults rest) := by
      intro rest
      obtain ⟨type,objects,stream',faults,effects⟩ := b
      cases there
      rfl
    refine simulated_ok here [] runs ⟨⟨shows.type,shows.objects,fun _ => rfl,by simp⟩,[],[],(List.append_nil _).symm,rfl,
      (List.append_nil _).symm,rfl,fun done cut => ?_⟩
    cases cut with
    | nil => exact .inl shows.objects.symm

theorem Shows.getObject (shows : Shows fs b) (plain : isTmp name = false) : Simulated (.getObject name) fs b := by
  have same : ∀ rest, (b.withFaults rest).getObject name = fs.doGetObject name := by
    intro rest
    have found : (b.withFaults rest).objects.find? name = fs.disk.read name := by
      rw [Backend.withFaults_objects, shows.objects, find?_objectsOf]
      simp [plain]
    unfold Backend.getObject doGetObject
    rw [found, Backend.withFaults_type, shows.type]
    rfl
  have run : serve (.getObject name) fs = (do
      let content ← fs.doGetObject name
      pure (.content content) : Action FileSystem Reply) fs := rfl
  have runs : ∀ rest, Backend.serve (.getObject name) (b.withFaults rest) = (do
      let content ← fs.doGetObject name
      pure (.content content) : Action Backend Reply) (b.withFaults rest) := by
    intro rest
    rw [← same rest]
    rfl
  cases read : fs.doGetObject name with
  | ok content =>
    rw [read] at run
    refine simulated_ok run [] (fun rest => ?_) (shows.agrees_quiet rfl rfl rfl)
    refine (runs rest).trans ?_
    rw [read]
    rfl
  | error failure =>
    rw [read] at run
    refine simulated_error run rfl [] (fun rest => ⟨failure.message,?_⟩) (shows.agrees_quiet rfl rfl rfl)
    refine (runs rest).trans ?_
    rw [read]
    rfl

/-! ### Runs -/

theorem Shows.simulated (shows : Shows fs b) {request : Request} (careful : fs.Careful request) : Simulated request fs b := by
  cases request with
  | listObjects =>
    have here : serve .listObjects fs = .ok (.objects fs.doListObjects) fs := rfl
    refine simulated_ok here [] (fun rest => ?_) (shows.agrees_quiet rfl rfl rfl)
    rw [doListObjects_eq, ← shows.objects]
    rfl
  | getObject name => exact shows.getObject careful
  | putObject name content => exact shows.put careful
  | removeObjects names => exact shows.remove careful
  | openStream name mode => exact shows.openStream careful
  | writeDataToStream data => exact shows.writeDataToStream careful
  | closeStream => exact shows.closeStream

/-- What comes after what. -/
theorem Agrees.trans {fs'' : FileSystem} {b'' : Backend} (first : Agrees fs b fs' b') (second : Agrees fs' b' fs'' b'') :
    Agrees fs b fs'' b'' where
  shows := second.shows
  left := by
    obtain ⟨made,effects,calls,disk,took,objects,left⟩ := first.left
    obtain ⟨made',effects',calls',disk',took',objects',left'⟩ := second.left
    refine ⟨made ++ made',effects ++ effects',by rw [calls', calls, List.append_assoc],
      by rw [disk', disk, Disk.performAll_append],by rw [took', took, List.append_assoc],?_,fun done cut => ?_⟩
    · rw [objects', objects]
      simp [replay]
    · rcases cut.append_cases with cut | ⟨later,cut',rfl⟩
      · exact (left done cut).append_right effects'
      · rw [Disk.performAll_append, ← disk]
        exact .append_left effects (objects ▸ left' later cut')

end

/-- The answers to some requests, and the state after them. -/
def converse {σ : Type} (serve : Request → Action σ Reply) : List Request → σ → List (Except ExceptionType Reply) × σ
  | [], s => ([],s)
  | request :: rest, s =>
    (answer (serve request) s :: (converse serve rest ((serve request).after s)).1,
      (converse serve rest ((serve request).after s)).2)

/-- Each of the requests is careful where it is made. -/
def CarefulRun : FileSystem → List Request → Prop
  | _, [] => True
  | fs, request :: rest => fs.Careful request ∧ CarefulRun ((serve request).after fs) rest

section
variable {fs : FileSystem} {b : Backend} {requests : List Request}

-- by induction on the requests: the faults of a run are those of its requests, one after the other
theorem Shows.converse (shows : Shows fs b) (careful : CarefulRun fs requests) :
    ∃ faults b', Agrees fs b (converse serve requests fs).2 b' ∧ ∀ rest,
      (FileSystem.converse serve requests fs).1 = (FileSystem.converse Backend.serve requests (b.withFaults (faults ++ rest))).1 ∧
      (FileSystem.converse Backend.serve requests (b.withFaults (faults ++ rest))).2 = b'.withFaults rest := by
  induction requests generalizing fs b with
  | nil => exact ⟨[],b,shows.agrees_quiet rfl rfl rfl,fun rest => ⟨rfl,rfl⟩⟩
  | cons request requests ih =>
    obtain ⟨first,b₁,agrees,runs⟩ := shows.simulated careful.1
    obtain ⟨second,b₂,agrees',runs'⟩ := ih agrees.shows careful.2
    refine ⟨first ++ second,b₂,agrees.trans agrees',fun rest => ?_⟩
    obtain ⟨same,after⟩ := runs (second ++ rest)
    obtain ⟨same',after'⟩ := runs' rest
    rw [List.append_assoc]
    simp only [FileSystem.converse]
    rw [after, ← same, same']
    exact ⟨rfl,after'⟩

/-- There is one script of faults with which the backend gives the answers that the directory gives, up to the texts of the
    errors, and has its objects in the end; and wherever the process is killed, the directory holds what the effects of that
    run leave when they are cut. -/
theorem filesystem_refines_backend (shows : Shows fs b) (careful : CarefulRun fs requests) :
    ∃ faults effects, (converse Backend.serve requests (b.withFaults faults)).1 = (converse serve requests fs).1 ∧
      Shows (converse serve requests fs).2 (converse Backend.serve requests (b.withFaults faults)).2 ∧
      (converse Backend.serve requests (b.withFaults faults)).2.effects = b.effects ++ effects ∧
      ∀ made done, (converse serve requests fs).2.calls = fs.calls ++ made → Disk.Part made done →
        Left b.objects effects (objectsOf (fs.disk.performAll done)) := by
  obtain ⟨faults,b',agrees,runs⟩ := shows.converse careful
  obtain ⟨answers,final⟩ := runs []
  rw [List.append_nil] at answers final
  obtain ⟨made,effects,calls,-,took,-,left⟩ := agrees.left
  refine ⟨faults,effects,answers.symm,?_,?_,fun made' done calls' cut => ?_⟩
  · rw [final]
    exact ⟨agrees.shows.type,agrees.shows.objects,agrees.shows.closed,agrees.shows.opened⟩
  · rw [final]
    exact took
  · obtain rfl : made' = made := List.append_cancel_left (calls'.symm.trans calls)
    exact left done cut

end

namespace Sample

/-- The name of a binlog. -/
def binlog : Bytes := ascii "binlog.000001"

theorem binds_empty : ∀ directory ∈ [(SortedMap.empty : SortedMap Bytes Nat)], directory.Binds 0 := by
  simp [SortedMap.Binds]

/-- An empty directory, which cannot be synced once the first object has been put. -/
def directory : FileSystem where
  disk := ⟨[],.empty,[],binds_empty⟩
  outcomes := List.replicate 7 .done ++ [.failed "Input/output error" 0]

def backend : Backend where
  type := .filesystem
  objects := .empty

/-- An object is put, and a binlog is begun. -/
def requests : List Request :=
  [.putObject (ascii "metadata.json") [1],.openStream binlog .append,.writeDataToStream [2,3],.closeStream]

theorem shows_backend : Shows directory backend := ⟨rfl,rfl,fun _ => rfl,by simp [directory]⟩

theorem careful_requests : CarefulRun directory requests := by
  refine ⟨⟨by decide,by decide,by simp [directory,IsClosed]⟩,⟨by decide,fun _ there => absurd ?_ there⟩,
    fun reason count failed => ?_,trivial,trivial⟩
  · decide +kernel
  · have none : ((serve (.openStream binlog .append)).after
        ((serve (.putObject (ascii "metadata.json") [1])).after directory)).outcomes = [] := by decide +kernel
    simp [none] at failed

end Sample

theorem filesystem_refines_backend_unsynced :
    (converse serve Sample.requests Sample.directory).1 =
      [.error .runtimeError,.ok (.offset 0),.ok .nothing,.ok .nothing] ∧
    ∃ faults effects, (converse Backend.serve Sample.requests (Sample.backend.withFaults faults)).1 =
        (converse serve Sample.requests Sample.directory).1 ∧
      Shows (converse serve Sample.requests Sample.directory).2
        (converse Backend.serve Sample.requests (Sample.backend.withFaults faults)).2 ∧
      (converse Backend.serve Sample.requests (Sample.backend.withFaults faults)).2.effects = [] ++ effects ∧
      ∀ made done, (converse serve Sample.requests Sample.directory).2.calls = [] ++ made → Disk.Part made done →
        Left .empty effects (objectsOf (Sample.directory.disk.performAll done)) :=
  ⟨by decide +kernel,filesystem_refines_backend Sample.shows_backend Sample.careful_requests⟩

end FileSystem
end BinlogServer.Store
