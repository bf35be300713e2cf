import BinlogServer.Lib.Durability
import BinlogServer.Store.Storage

/-!
# The filesystem backend

`filesystem_storage_backend` as the system calls it makes: an object is put through a temporary file that is synced and
renamed, and the stream is a file that is appended to. Any of the calls may fail, as the script of `outcomes` says. Names are
those of files in one directory, and all of its entries are regular files.
-/

namespace BinlogServer.Store
open ByteString Util

/-- How a system call goes. -/
inductive CallOutcome where
  | done
  /-- It fails, with the text of its error; so many of the bytes it was given have been written. -/
  | failed (reason : String) (count : Nat)
deriving DecidableEq, Repr

/-- An `std::ofstream` that is open; it is not good any more when a write has failed. -/
structure OutputStream where
  file : Nat
  good : Bool
deriving DecidableEq, Repr

/-- `filesystem_storage_backend` and its directory, with the system calls it has made. -/
structure FileSystem where
  disk : Disk Bytes UInt8
  stream : Option OutputStream := none
  outcomes : List CallOutcome := []
  calls : List (Disk.Call Bytes UInt8) := []

/-- `tmp_object_suffix` -/
def tmpObjectSuffix : Bytes := ascii ".tmp"

def isTmp (name : Bytes) : Bool := Storage.extension name = tmpObjectSuffix

theorem isTmp_append {name : Bytes} (some : name ≠ []) : isTmp (name ++ tmpObjectSuffix) = true := by
  have longer : 0 < name.length := List.length_pos_iff.mpr some
  have suffix : tmpObjectSuffix = [0x2E,0x74,0x6D,0x70] := by decide
  have last : ((name ++ tmpObjectSuffix).reverse.takeWhile (· ≠ 0x2E)).reverse = [0x74,0x6D,0x70] := by
    rw [suffix, List.reverse_append]
    rfl
  simp only [isTmp, Storage.extension, last, decide_eq_true_eq]
  rw [if_pos]
  · exact suffix.symm
  · refine ⟨by simp [suffix,longer],fun same => ?_⟩
    have short := congrArg List.length same
    simp [suffix] at short

namespace FileSystem

@[simps] def perform (fs : FileSystem) (call : Disk.Call Bytes UInt8) : FileSystem :=
  { fs with disk := fs.disk.perform call, calls := fs.calls ++ [call] }

/-- What a call has done that failed. -/
def performPart (fs : FileSystem) (call : Disk.Call Bytes UInt8) (count : Nat) : FileSystem :=
  match call with
  | .append file data => fs.perform (.append file (data.take count))
  | _ => fs

/-- The outcome of the next call, taken off the script. -/
def nextOutcome : Action FileSystem CallOutcome := fun fs =>
  .ok (fs.outcomes.headD .done) { fs with outcomes := fs.outcomes.tail }

def systemCall (call : Disk.Call Bytes UInt8) (message : String → String) : Action FileSystem Unit := do
  match ← nextOutcome with
  | .done => modify (·.perform call)
  | .failed reason count =>
    modify (·.performPart call count)
    throw ⟨.runtimeError,message reason⟩

/-- `util::fsync` -/
def fsync (call : Disk.Call Bytes UInt8) : Action FileSystem Unit := do
  systemCall .idle ("cannot open path for fsync: " ++ ·)
  systemCall call ("cannot fsync path: " ++ ·)

/-- The file that has been opened under a name. -/
def fileOf (fs : FileSystem) (name : Bytes) : Nat := (fs.disk.names.find? name).getD 0

/-- `do_list_objects`: names and sizes. -/
def doListObjects (fs : FileSystem) : List (Bytes × Nat) :=
  (fs.disk.names.filterMap fun name file =>
    if isTmp name then none else fs.disk.files[file]?.map (·.content.length)).entries

/-- `do_get_object` -/
def doGetObject (fs : FileSystem) (name : Bytes) : Fallible Bytes :=
  match fs.disk.read name with
  | none => .error ⟨.runtimeError,"cannot open underlying object file"⟩
  | some content =>
    if content.length > Backend.maxMemoryObjectSize then
      .error ⟨.outOfRange,"underlying object file is too large to be loaded in memory"⟩
    else .ok content

/-- `do_put_object` -/
def doPutObject (name content : Bytes) : Action FileSystem Unit := do
  let tmp := name ++ tmpObjectSuffix
  systemCall (.openFile tmp true) fun _ => "cannot open underlying tmp object file for writing"
  let fs ← get
  systemCall (.append (fs.fileOf tmp) content) fun _ => "cannot write data to underlying tmp object file"
  systemCall .idle fun _ => "cannot close underlying tmp object file"
  fsync (.syncFile tmp)
  systemCall (.rename tmp name) ("cannot rename underlying tmp object file: " ++ ·)
  fsync .syncNames

/-- `do_remove_object` -/
def doRemoveObject (name : Bytes) : Action FileSystem Unit := do
  let fs ← get
  raiseIf (fs.disk.names.find? name = none) .runtimeError "cannot remove underlying object file: file does not exist"
  systemCall (.remove name) ("cannot remove underlying object file: " ++ ·)

/-- `do_fsync` -/
def doFsync : Action FileSystem Unit := fsync .syncNames

/-- `remove_objects` -/
def removeObjects (names : List Bytes) : Action FileSystem Unit :=
  BasicStorageBackend.removeObjects doRemoveObject doFsync names

/-- `open_stream`: the offset at which the stream starts. -/
def openStream (name : Bytes) (mode : OpenStreamMode) : Action FileSystem Nat := do
  let fs ← get
  raiseIf fs.stream.isSome .logicError "cannot open a new stream as the previous one has not been closed"
  systemCall (.openFile name (mode = .create)) fun _ => "cannot open underlying file for the stream"
  modify fun fs => { fs with stream := some ⟨fs.fileOf name,true⟩ }
  let fs ← get
  pure ((fs.disk.read name).getD []).length

def sizeOf (fs : FileSystem) (file : Nat) : Nat := (fs.disk.files[file]?.map (·.content.length)).getD 0

/-- `do_write_data_to_stream` on a stream that is open. -/
def doWriteDataToStream (stream : OutputStream) (data : Bytes) : Action FileSystem Unit := do
  let fs ← get
  raiseIf (!stream.good ∨ fs.sizeOf stream.file + data.length > Backend.maxStreamSize) .runtimeError
    "cannot write data to the underlying stream file"
  systemCall (.append stream.file data) fun _ => "cannot write data to the underlying stream file"
  systemCall .idle fun _ => "cannot flush the underlying stream file"

/-- `write_data_to_stream`; the stream stays bad when it has raised. -/
def writeDataToStream (data : Bytes) : Action FileSystem Unit := fun fs =>
  match fs.stream with
  | none => .error ⟨.logicError,"cannot write to the stream as it has not been opened"⟩ fs
  | some stream =>
    match doWriteDataToStream stream data fs with
    | .ok u fs => .ok u fs
    | .error failure fs => .error failure { fs with stream := some ⟨stream.file,false⟩ }

/-- `close_stream` -/
def closeStream : Action FileSystem Unit := do
  let fs ← get
  raiseIf fs.stream.isNone .logicError "cannot close the stream as it has not been opened"
  modify fun fs => { fs with stream := none }

end FileSystem

/-- The member functions of `basic_storage_backend` that the storage calls. -/
inductive Request where
  | listObjects
  | getObject (name : Bytes)
  | putObject (name content : Bytes)
  | removeObjects (names : List Bytes)
  | openStream (name : Bytes) (mode : OpenStreamMode)
  | writeDataToStream (data : Bytes)
  | closeStream
deriving DecidableEq, Repr

/-- What they return. -/
inductive Reply where
  | nothing
  | objects (entries : List (Bytes × Nat))
  | content (content : Bytes)
  | offset (offset : Nat)
deriving DecidableEq, Repr

namespace FileSystem
open BasicStorageBackend (tryRemoveObjects removeObjects_run)

def serve : Request → Action FileSystem Reply
  | .listObjects => do
    let fs ← get
    pure (.objects fs.doListObjects)
  | .getObject name => do
    let fs ← get
    let content ← fs.doGetObject name
    pure (.content content)
  | .putObject name content => do
    doPutObject name content
    pure .nothing
  | .removeObjects names => do
    removeObjects names
    pure .nothing
  | .openStream name mode => do
    let offset ← openStream name mode
    pure (.offset offset)
  | .writeDataToStream data => do
    writeDataToStream data
    pure .nothing
  | .closeStream => do
    closeStream
    pure .nothing

/-- Whether a function returns, or raises. -/
def returns {α : Type} (x : Action FileSystem α) (fs : FileSystem) : Bool :=
  match x fs with
  | .ok _ _ => true
  | .error _ _ => false

@[simp] theorem after_bind_pure {α β : Type} (x : Action FileSystem α) (f : α → β) (fs : FileSystem) :
    Action.after (x >>= fun a => pure (f a)) fs = x.after fs := by
  simp only [Action.after, bind, EStateM.bind]
  cases x fs <;> rfl

@[simp] theorem returns_bind_pure {α β : Type} (x : Action FileSystem α) (f : α → β) (fs : FileSystem) :
    returns (x >>= fun a => pure (f a)) fs = returns x fs := by
  simp only [returns, bind, EStateM.bind]
  cases x fs <;> rfl

/-! ### The calls that are made -/

/-- The calls have been made, on the same stream. -/
structure Did (fs fs' : FileSystem) (made : List (Disk.Call Bytes UInt8)) : Prop where
  disk : fs'.disk = fs.disk.performAll made
  calls : fs'.calls = fs.calls ++ made
  stream : fs'.stream = fs.stream

theorem Did.nil (fs : FileSystem) : fs.Did fs [] := ⟨rfl,(List.append_nil _).symm,rfl⟩

theorem Did.append {fs fs' fs'' : FileSystem} {first second : List (Disk.Call Bytes UInt8)} (before : fs.Did fs' first)
    (after : fs'.Did fs'' second) : fs.Did fs'' (first ++ second) where
  disk := by rw [after.disk, before.disk, Disk.performAll, Disk.performAll, Disk.performAll, List.foldl_append]
  calls := by rw [after.calls, before.calls, List.append_assoc]
  stream := after.stream.trans before.stream

/-- The calls of a script are made one after the other, up to one that fails. -/
inductive Tries {α : Type} (fs : FileSystem) (script : List (Disk.Call Bytes UInt8)) :
    EStateM.Result Failure FileSystem α → Prop where
  | ok {a : α} {fs' : FileSystem} (did : fs.Did fs' script) : Tries fs script (.ok a fs')
  | error {failure : Failure} {fs' : FileSystem} {made : List (Disk.Call Bytes UInt8)}
      (type : failure.type = .runtimeError) (part : Disk.Part script made) (did : fs.Did fs' made) :
      Tries fs script (.error failure fs')

namespace Tries
variable {α β : Type} {fs : FileSystem} {first second : List (Disk.Call Bytes UInt8)}

theorem bind {x : Action FileSystem α} {f : α → Action FileSystem β} (before : Tries fs first (x fs))
    (after : ∀ a fs', fs.Did fs' first → Tries fs' second (f a fs')) : Tries fs (first ++ second) ((x >>= f) fs) := by
  simp only [Bind.bind, EStateM.bind]
  generalize ended : x fs = result at before
  cases before with
  | @ok a fs' did =>
    dsimp only
    generalize result' : f a fs' = ending
    have later := after a fs' did
    rw [result'] at later
    cases later with
    | ok did' => exact .ok (did.append did')
    | error type part did' => exact .error type (part.of_right first) (did.append did')
  | error type part did => exact .error type (part.of_left second) did

theorem pure (a : α) (fs : FileSystem) : Tries fs [] ((Pure.pure a : Action FileSystem α) fs) := .ok (.nil fs)

/-- The calls that have been made when it is over. -/
theorem made {x : Action FileSystem α} (tries : Tries fs first (x fs)) :
    ∃ made, Disk.Part first made ∧ fs.Did (x.after fs) made ∧ (returns x fs = true → made = first) := by
  unfold Action.after returns
  generalize x fs = result at tries
  cases tries with
  | ok did => exact ⟨first,.refl first,did,fun _ => rfl⟩
  | error type part did => exact ⟨_,part,did,by simp⟩

end Tries

theorem systemCall_tries (call : Disk.Call Bytes UInt8) (message : String → String) (fs : FileSystem) :
    Tries fs [call] (systemCall call message fs) := by
  obtain ⟨disk,stream,outcomes,calls⟩ := fs
  cases outcomes with
  | nil => exact .ok ⟨rfl,rfl,rfl⟩
  | cons outcome rest =>
    cases outcome with
    | done => exact .ok ⟨rfl,rfl,rfl⟩
    | failed reason count =>
      cases call with
      | append file data => exact .error rfl (.within file data count []) ⟨rfl,rfl,rfl⟩
      | _ => exact .error rfl (.nil _) ⟨rfl,(List.append_nil _).symm,rfl⟩

/-- A call is made, or it fails and raises. -/
theorem systemCall_cases (call : Disk.Call Bytes UInt8) (message : String → String) (fs : FileSystem) :
    (fs.outcomes.headD .done = .done ∧
      systemCall call message fs = .ok () ({ fs with outcomes := fs.outcomes.tail }.perform call)) ∨
    ∃ reason count, fs.outcomes.head? = some (.failed reason count) ∧ systemCall call message fs =
      .error ⟨.runtimeError,message reason⟩ ({ fs with outcomes := fs.outcomes.tail }.performPart call count) := by
  obtain ⟨disk,stream,outcomes,calls⟩ := fs
  cases outcomes with
  | nil => exact .inl ⟨rfl,rfl⟩
  | cons outcome rest =>
    cases outcome with
    | done => exact .inl ⟨rfl,rfl⟩
    | failed reason count => exact .inr ⟨reason,count,rfl,rfl⟩

theorem fsync_tries (call : Disk.Call Bytes UInt8) (fs : FileSystem) : Tries fs [.idle,call] (fsync call fs) :=
  (systemCall_tries .idle _ fs).bind fun _ fs' _ => systemCall_tries call _ fs'

/-- The calls that put an object. -/
def putCalls (disk : Disk Bytes UInt8) (name content : Bytes) : List (Disk.Call Bytes UInt8) :=
  disk.stagingCalls (name ++ tmpObjectSuffix) content ++ ([.rename (name ++ tmpObjectSuffix) name] ++ [.idle,.syncNames])

theorem doPutObject_tries (name content : Bytes) (fs : FileSystem) :
    Tries fs (putCalls fs.disk name content) (doPutObject name content fs) := by
  unfold doPutObject
  refine (systemCall_tries (.openFile (name ++ tmpObjectSuffix) true) _ fs).bind fun _ opened did => ?_
  rw [Action.get_bind_run]
  have file : opened.fileOf (name ++ tmpObjectSuffix) =
      ((fs.disk.openFile (name ++ tmpObjectSuffix) true).names.find? (name ++ tmpObjectSuffix)).getD 0 := by
    rw [fileOf, did.disk]
    rfl
  rw [← file]
  refine (systemCall_tries _ _ opened).bind fun _ written _ => ?_
  refine (systemCall_tries .idle _ written).bind fun _ closed _ => ?_
  refine (fsync_tries _ closed).bind fun _ synced _ => ?_
  exact (systemCall_tries _ _ synced).bind fun _ renamed _ => fsync_tries _ renamed

theorem doRemoveObject_tries (name : Bytes) (fs : FileSystem) :
    (fs.disk.names.find? name = none ∧ ∃ failure, failure.type = .runtimeError ∧ doRemoveObject name fs = .error failure fs) ∨
    (fs.disk.names.find? name ≠ none ∧ Tries fs [.remove name] (doRemoveObject name fs)) := by
  unfold doRemoveObject
  rw [Action.get_bind_run, Action.raiseIf_bind_run]
  by_cases absent : fs.disk.names.find? name = none
  · rw [if_pos absent]
    exact .inl ⟨absent,_,rfl,rfl⟩
  · rw [if_neg absent]
    exact .inr ⟨absent,systemCall_tries _ _ fs⟩

theorem doRemoveObject_cases (name : Bytes) (fs : FileSystem) :
    (∃ fs', doRemoveObject name fs = .ok () fs' ∧ fs.Did fs' [.remove name]) ∨
    ∃ failure fs' made, doRemoveObject name fs = .error failure fs' ∧ Disk.Part [.remove name] made ∧ fs.Did fs' made := by
  rcases doRemoveObject_tries name fs with ⟨-,failure,-,raised⟩ | ⟨-,tries⟩
  · exact .inr ⟨failure,fs,[],raised,.nil _,.nil fs⟩
  · generalize doRemoveObject name fs = result at tries
    cases tries with
    | ok did => exact .inl ⟨_,rfl,did⟩
    | error type part did => exact .inr ⟨_,_,_,rfl,part,did⟩

/-- The directory is synced when the objects have been tried, and what was raised first is raised. -/
theorem removeObjects_cases (names : List Bytes) (fs : FileSystem) :
    (∃ fs', removeObjects names fs = .ok () fs' ∧ (tryRemoveObjects doRemoveObject names fs).1 = none ∧
      (tryRemoveObjects doRemoveObject names fs).2.Did fs' [.idle,.syncNames]) ∨
    ∃ failure fs' made, removeObjects names fs = .error failure fs' ∧ Disk.Part [.idle,.syncNames] made ∧
      (tryRemoveObjects doRemoveObject names fs).2.Did fs' made ∧
      (failure.type = .runtimeError ∨ (tryRemoveObjects doRemoveObject names fs).1 = some failure) := by
  have tries : Tries _ _ (doFsync _) := fsync_tries .syncNames (tryRemoveObjects doRemoveObject names fs).2
  rw [removeObjects, removeObjects_run]
  generalize synced : doFsync (tryRemoveObjects doRemoveObject names fs).2 = result at tries
  cases tries with
  | ok did =>
    rw [Action.bind_of_ok synced]
    cases (tryRemoveObjects doRemoveObject names fs).1 with
    | none => exact .inl ⟨_,rfl,rfl,did⟩
    | some failure => exact .inr ⟨_,_,_,rfl,.refl _,did,.inr rfl⟩
  | error type part did => exact .inr ⟨_,_,_,Action.bind_eq_error.mpr (.inl synced),part,did,.inl type⟩

/-- Only the first ones of some names have been removed. -/
theorem part_removed {gone : List Bytes} {done : List (Disk.Call Bytes UInt8)} (part : Disk.Part (gone.map .remove) done) :
    ∃ front : List Bytes, front <+: gone ∧ done = front.map .remove := by
  induction gone generalizing done with
  | nil =>
    cases part with
    | nil => exact ⟨[],List.nil_prefix,rfl⟩
  | cons first rest ih =>
    cases part with
    | nil => exact ⟨[],List.nil_prefix,rfl⟩
    | cons _ part =>
      obtain ⟨front,⟨back,rfl⟩,rfl⟩ := ih part
      exact ⟨first :: front,⟨back,rfl⟩,rfl⟩

theorem openStream_cases (name : Bytes) (mode : OpenStreamMode) (fs : FileSystem) :
    (∃ failure, openStream name mode fs = .error failure fs) ∨
    (∃ failure fs' made, openStream name mode fs = .error failure fs' ∧ Disk.Part [.openFile name (mode = .create)] made ∧
      fs.Did fs' made) ∨
    ∃ offset fs', openStream name mode fs = .ok offset { fs' with stream := some ⟨fs'.fileOf name,true⟩ } ∧
      fs.Did fs' [.openFile name (mode = .create)] := by
  unfold openStream
  rw [Action.get_bind_run, Action.raiseIf_bind_run]
  split
  · exact .inl ⟨_,rfl⟩
  · have tries := systemCall_tries (.openFile name (mode = .create)) (fun _ => "cannot open underlying file for the stream") fs
    refine .inr ?_
    simp only [bind, EStateM.bind]
    generalize systemCall (.openFile name (mode = .create)) (fun _ => "cannot open underlying file for the stream") fs =
      result at tries
    cases tries with
    | ok did => exact .inr ⟨_,_,rfl,did⟩
    | error type part did => exact .inl ⟨_,_,_,rfl,part,did⟩

theorem doWriteDataToStream_tries (stream : OutputStream) (data : Bytes) (fs : FileSystem) :
    Tries fs [.append stream.file data,.idle] (doWriteDataToStream stream data fs) := by
  unfold doWriteDataToStream
  rw [Action.get_bind_run, Action.raiseIf_bind_run]
  split
  · exact .error rfl (.nil _) (.nil fs)
  · exact (systemCall_tries (.append stream.file data) _ fs).bind fun _ fs' _ => systemCall_tries .idle _ fs'

/-- A write is refused, or it makes its calls on the file of the stream. -/
theorem writeDataToStream_cases (data : Bytes) (fs : FileSystem) :
    (∃ failure, writeDataToStream data fs = .error failure fs) ∨
    ∃ stream made, fs.stream = some stream ∧ Disk.Part [.append stream.file data,.idle] made ∧
      ((writeDataToStream data).after fs).disk = fs.disk.performAll made ∧
      ((writeDataToStream data).after fs).calls = fs.calls ++ made ∧
      (∀ other ∈ ((writeDataToStream data).after fs).stream, other.file = stream.file) ∧
      (returns (writeDataToStream data) fs = true → made = [.append stream.file data,.idle]) := by
  cases opened : fs.stream with
  | none => exact .inl ⟨_,by unfold writeDataToStream; rw [opened]⟩
  | some stream =>
    refine .inr ⟨stream,?_⟩
    obtain ⟨made,part,did,whole⟩ := (doWriteDataToStream_tries stream data fs).made
    refine ⟨made,rfl,part,?_⟩
    unfold writeDataToStream Action.after returns
    simp only [opened]
    unfold Action.after at did
    unfold returns at whole
    generalize doWriteDataToStream stream data fs = result at did whole
    cases result with
    | ok u fs' => exact ⟨did.disk,did.calls,fun other member => by rw [did.stream, opened] at member; simp_all,whole⟩
    | error failure fs' => exact ⟨did.disk,did.calls,fun other member => by simp at member; rw [← member],by simp⟩

end FileSystem
end BinlogServer.Store
