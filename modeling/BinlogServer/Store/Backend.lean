import BinlogServer.Lib.SortedMap
import BinlogServer.Lib.Bytes
import BinlogServer.Util.Action
import Mathlib.Tactic.Simps.Basic

/-!
# Storage backends

`basic_storage_backend` with its two implementations: a local directory and an S3 bucket. Both hold objects
under names; the current binlog file is written as a stream, which the first one appends to the file itself and
the second one to a temporary file that is uploaded as a whole after every write.

What a call does to the objects is an `Effect`, and the backend remembers the effects so far: they are what is
left when the process is killed. Calls that change something may fail, as the script of `faults` says.
-/

namespace BinlogServer.Store
open ByteString Util

/-- `storage_backend_type` -/
inductive BackendType where
  | filesystem
  | s3
deriving DecidableEq, Repr

/-- How a call to the backend goes. -/
inductive Fault where
  /-- It takes effect and returns. -/
  | none
  /-- It raises and has done nothing. -/
  | before
  /-- The write of a stream raises when the data is in the temporary file, but the object has not been uploaded. -/
  | staged
  /-- It raises, but it has taken effect. -/
  | after
deriving DecidableEq, Repr

abbrev Objects := SortedMap Bytes Bytes

/-- A change of the objects. -/
inductive Effect where
  | create (name : Bytes)
  | append (name data : Bytes)
  | put (name content : Bytes)
  | remove (name : Bytes)
deriving DecidableEq, Repr

def Effect.apply (objects : Objects) : Effect → Objects
  | .create name => objects.insert name []
  | .append name data => objects.alter name fun content => content.getD [] ++ data
  | .put name content => objects.insert name content
  | .remove name => objects.erase name

/-- The objects after a number of effects. -/
def replay (objects : Objects) (effects : List Effect) : Objects := effects.foldl Effect.apply objects

/-- `storage_backend_open_stream_mode` -/
inductive OpenStreamMode where
  | create
  | append
deriving DecidableEq, Repr

/-- An open stream; `staged` is the content of the temporary file of an S3 stream. -/
structure Stream where
  name : Bytes
  staged : Bytes
deriving DecidableEq, Repr

namespace BasicStorageBackend
variable {σ : Type} (doRemoveObject : Bytes → Action σ Unit)

/-- The loop of `remove_objects`: every object is tried. The answer is the first failure. -/
def tryRemoveObjects : List Bytes → σ → Option Failure × σ
  | [], backend => (none,backend)
  | name :: rest, backend =>
    match doRemoveObject name backend with
    | .ok _ backend => tryRemoveObjects rest backend
    | .error failure backend => (some failure,(tryRemoveObjects rest backend).2)

/-- `if (first_error) { std::rethrow_exception(first_error); }` -/
def rethrow : Option Failure → Action σ Unit
  | none => pure ()
  | some failure => throw failure

/-- `remove_objects` for any implementation: the barrier `do_fsync` is run whether all of the objects have been removed or
    not, and its own failure comes before theirs. -/
def removeObjects (doFsync : Action σ Unit) (names : List Bytes) : Action σ Unit := do
  let backend ← get
  set (tryRemoveObjects doRemoveObject names backend).2
  doFsync
  rethrow (tryRemoveObjects doRemoveObject names backend).1

variable {doRemoveObject} {name : Bytes} {backend next : σ} {failure : Failure}

theorem tryRemoveObjects_of_ok {u : Unit} (removed : doRemoveObject name backend = .ok u next) (rest : List Bytes) :
    tryRemoveObjects doRemoveObject (name :: rest) backend = tryRemoveObjects doRemoveObject rest next := by
  rw [tryRemoveObjects, removed]

theorem tryRemoveObjects_of_error (raised : doRemoveObject name backend = .error failure next) (rest : List Bytes) :
    tryRemoveObjects doRemoveObject (name :: rest) backend =
      (some failure,(tryRemoveObjects doRemoveObject rest next).2) := by
  rw [tryRemoveObjects, raised]

/-- The barrier is run in the state that the attempts have left. -/
theorem removeObjects_run (doFsync : Action σ Unit) (names : List Bytes) (backend : σ) :
    removeObjects doRemoveObject doFsync names backend =
      (doFsync >>= fun _ => rethrow (tryRemoveObjects doRemoveObject names backend).1)
        (tryRemoveObjects doRemoveObject names backend).2 := rfl

end BasicStorageBackend

structure Backend where
  type : BackendType
  objects : Objects
  stream : Option Stream := .none
  faults : List Fault := []
  effects : List Effect := []
deriving DecidableEq

namespace Backend

/-- Objects that are read into memory may not be larger. -/
def maxMemoryObjectSize : Nat := 1048576

/-- The largest offset a file may have (`off_t`). -/
def maxStreamSize : Nat := 2 ^ 63 - 1

@[simps] def perform (backend : Backend) (effect : Effect) : Backend :=
  { backend with objects := effect.apply backend.objects, effects := backend.effects ++ [effect] }

/-- The outcome of the next call, taken off the script. -/
def nextFault : Action Backend Fault := fun backend =>
  .ok (backend.faults.headD .none) { backend with faults := backend.faults.tail }

/-- A call that changes the objects, with the messages of the two implementations. -/
def request (effect : Effect) (fileMessage s3Message : String) : Action Backend Unit := do
  let fault ← nextFault
  if fault = .none ∨ fault = .after then modify (·.perform effect)
  let backend ← get
  raiseIf (fault ≠ .none) .runtimeError (if backend.type = .filesystem then fileMessage else s3Message)

/-- `list_objects`: names and sizes. -/
def listObjects (backend : Backend) : List (Bytes × Nat) := backend.objects.entries.map fun x => (x.1,x.2.length)

/-- `get_object`, with the messages of the two implementations. -/
def getObject (backend : Backend) (name : Bytes) : Fallible Bytes :=
  match backend.objects.find? name with
  | .none => .error ⟨.runtimeError,
      if backend.type = .filesystem then "cannot open underlying object file" else "cannot get object from S3 bucket"⟩
  | some content =>
    if content.length > maxMemoryObjectSize then
      .error ⟨.outOfRange,
        if backend.type = .filesystem then "underlying object file is too large to be loaded in memory"
        else "S3 object is too large to be loaded in memory"⟩
    else .ok content

/-- `put_object` -/
def putObject (name content : Bytes) : Action Backend Unit :=
  request (.put name content) "cannot write data to underlying tmp object file" "cannot put object into S3 bucket"

/-- `do_remove_object`; S3 does not mind if there is no such object. -/
def doRemoveObject (name : Bytes) : Action Backend Unit := do
  let backend ← get
  raiseIf (backend.type = .filesystem ∧ backend.objects.find? name = .none) .runtimeError
    "cannot remove underlying object file: file does not exist"
  request (.remove name) "cannot remove underlying object file" "cannot delete object from S3 bucket"

/-- `do_fsync`: the directory is synced. S3 has nothing to do. -/
def doFsync : Action Backend Unit := do
  let backend ← get
  if backend.type = .filesystem then
    let fault ← nextFault
    raiseIf (fault ≠ .none) .runtimeError "cannot fsync path"

/-- `remove_objects` -/
def removeObjects (names : List Bytes) : Action Backend Unit :=
  BasicStorageBackend.removeObjects doRemoveObject doFsync names

def isStreamOpen (backend : Backend) : Bool := backend.stream.isSome

/-- `open_stream`: the offset at which the stream starts. A file is created or emptied at once, an S3 object
    only by the first write. -/
def openStream (name : Bytes) (mode : OpenStreamMode) : Action Backend Nat := do
  let backend ← get
  raiseIf backend.isStreamOpen .logicError "cannot open a new stream as the previous one has not been closed"
  match mode with
  | .create =>
    if backend.type = .filesystem then
      request (.create name) "cannot open underlying file for the stream" ""
    modify fun backend => { backend with stream := some ⟨name,[]⟩ }
    pure 0
  | .append =>
    match backend.objects.find? name with
    | some content =>
      modify fun backend => { backend with stream := some ⟨name,if backend.type = .s3 then content else []⟩ }
      pure content.length
    | .none =>
      raiseIf (backend.type = .s3) .runtimeError "cannot get object from S3 bucket"
      request (.create name) "cannot open underlying file for the stream" ""
      modify fun backend => { backend with stream := some ⟨name,[]⟩ }
      pure 0

/-- `write_data_to_stream` -/
def writeDataToStream (data : Bytes) : Action Backend Unit := do
  let backend ← get
  match backend.stream with
  | .none => throw ⟨.logicError,"cannot write to the stream as it has not been opened"⟩
  | some stream =>
    match backend.type with
    | .filesystem =>
      raiseIf (((backend.objects.find? stream.name).getD []).length + data.length > maxStreamSize) .runtimeError
        "cannot write data to the underlying stream file"
      request (.append stream.name data) "cannot write data to the underlying stream file" ""
    | .s3 =>
      raiseIf (stream.staged.length + data.length > maxStreamSize) .runtimeError
        "cannot write data to the temporary file for S3 object"
      let staged := stream.staged ++ data
      if backend.faults.headD .none ≠ .before then
        modify fun backend => { backend with stream := some ⟨stream.name,staged⟩ }
      request (.put stream.name staged) "" "cannot put object into S3 bucket"

/-- `close_stream` -/
def closeStream : Action Backend Unit := do
  let backend ← get
  raiseIf (!backend.isStreamOpen) .logicError "cannot close the stream as it has not been opened"
  modify fun backend => { backend with stream := .none }

end Backend
end BinlogServer.Store
