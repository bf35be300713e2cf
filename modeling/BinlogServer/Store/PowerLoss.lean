import BinlogServer.Store.FileSystem

/-!
# When the power is lost

What is found under the names of objects when the power has been lost while the filesystem backend was serving requests.
The file of a stream is never synced, so nothing is promised for it; objects that are put are found as they were put.
-/

namespace BinlogServer.Store
open ByteString Util

/-- What may be found under each name. -/
abbrev Promise := Bytes → Option Bytes → Prop

/-- What is promised when a request has returned, or may have been cut short. -/
def Request.promised (request : Request) (returned : Bool) (promise : Promise) : Promise :=
  match request with
  | .putObject target content => fun name found =>
    (name = target ∧ found = some content) ∨ ((returned = false ∨ name ≠ target) ∧ promise name found)
  | .removeObjects names => fun name found =>
    (name ∈ names ∧ found = none) ∨ ((returned = false ∨ name ∉ names) ∧ promise name found)
  | _ => promise

/-- Some names are those of streams; objects that are put have other names. -/
def Request.Proper (streams : Bytes → Prop) : Request → Prop
  | .putObject name _ => name ≠ [] ∧ isTmp name = false ∧ ¬ streams name
  | .openStream name _ => streams name
  | _ => True

/-- What was promised still is when a request may have been cut short. -/
theorem Request.promised_false (request : Request) {promise : Promise} {name : Bytes} {found : Option Bytes}
    (held : promise name found) : request.promised false promise name found := by
  cases request with
  | putObject target content => exact .inr ⟨.inl rfl,held⟩
  | removeObjects names => exact .inr ⟨.inl rfl,held⟩
  | _ => exact held

namespace FileSystem
open BasicStorageBackend (tryRemoveObjects)

/-- A name of an object, which is neither that of a stream nor that of a temporary file. -/
def IsLoose (streams : Bytes → Prop) (name : Bytes) : Prop := streams name ∨ isTmp name = true

/-- The files that are written in place are not those of objects, and what is promised for objects is on the medium. -/
structure Kept (streams : Bytes → Prop) (promise : Promise) (fs : FileSystem) : Prop where
  apart : Disk.Guarded streams fs.disk
  guarded : Disk.Guarded (IsLoose streams) fs.disk
  opened : ∀ stream ∈ fs.stream, Disk.Free streams fs.disk stream.file
  settled : ∀ name, ¬ IsLoose streams name → fs.disk.Settled name (promise name)

/-- What a request does to the promises: they are kept when it is over, and wherever it is cut short. -/
structure Keeps (streams : Bytes → Prop) (promise : Promise) (request : Request) (fs fs' : FileSystem) (returned : Bool) :
    Prop where
  after : Kept streams (request.promised returned promise) fs'
  during : ∃ made, fs'.calls = fs.calls ++ made ∧ ∀ done, Disk.Part made done → ∀ name, ¬ IsLoose streams name →
    (fs.disk.performAll done).Settled name (request.promised false promise name)

section
variable {streams : Bytes → Prop} {promise : Promise} {fs fs' : FileSystem} {request : Request} {returned : Bool}

/-- What is to be shown for the calls that a request has made. -/
theorem Kept.keeps (kept : Kept streams promise fs) (made : List (Disk.Call Bytes UInt8))
    (disk : fs'.disk = fs.disk.performAll made) (calls : fs'.calls = fs.calls ++ made)
    (renames : ∀ source target, .rename source target ∈ made → ¬ IsLoose streams target)
    (opened : ∀ stream ∈ fs'.stream, Disk.Free streams fs'.disk stream.file)
    (during : ∀ done, Disk.Part made done → ∀ name, ¬ IsLoose streams name →
      (fs.disk.performAll done).Settled name (request.promised false promise name))
    (settled : returned = true → ∀ name, ¬ IsLoose streams name → fs'.disk.Settled name (request.promised true promise name)) :
    Keeps streams promise request fs fs' returned where
  after := by
    refine ⟨?_,?_,opened,fun name firm => ?_⟩
    · rw [disk]
      exact kept.apart.performAll fun source target member stream => renames source target member (.inl stream)
    · rw [disk]
      exact kept.guarded.performAll renames
    · cases returned with
      | true => exact settled rfl name firm
      | false => rw [disk]; exact during made (.refl made) name firm
  during := ⟨made,calls,during⟩

/-- A request that makes no calls keeps what was promised. -/
theorem Kept.keeps_unchanged (kept : Kept streams promise fs) (disk : fs'.disk = fs.disk) (calls : fs'.calls = fs.calls)
    (opened : ∀ stream ∈ fs'.stream, Disk.Free streams fs'.disk stream.file)
    (held : returned = true → ∀ name found, promise name found → request.promised true promise name found) :
    Keeps streams promise request fs fs' returned := by
  refine kept.keeps [] disk (by rw [calls, List.append_nil]) (by simp) opened (fun done part name firm => ?_)
    fun ended name firm => ?_
  · cases part with
    | nil => exact (kept.settled name firm).mono fun _ => request.promised_false
  · rw [disk]
    exact (kept.settled name firm).mono (held ended name)

/-! ### Putting an object -/

section
variable {name content : Bytes} {done : List (Disk.Call Bytes UInt8)}

/-- Wherever it is cut short, an object is found as it was or as it was to be. -/
theorem Kept.put_during (kept : Kept streams promise fs) (proper : (Request.putObject name content).Proper streams)
    (part : Disk.Part (putCalls fs.disk name content) done) (other : Bytes) (firm : ¬ IsLoose streams other) :
    (fs.disk.performAll done).Settled other ((Request.putObject name content).promised false promise other) := by
  have tmp : isTmp (name ++ tmpObjectSuffix) = true := isTmp_append proper.1
  have before : ∀ {made}, Disk.Part (fs.disk.stagingCalls (name ++ tmpObjectSuffix) content) made →
      (fs.disk.performAll made).Settled other ((Request.putObject name content).promised false promise other) := by
    intro made staging
    refine ((kept.settled other firm).staging kept.guarded (.inr tmp) firm staging).mono fun found held => ?_
    exact Request.promised_false _ held
  unfold putCalls at part
  rcases part.append_cases with staging | ⟨later,ending,rfl⟩
  · exact before staging
  · rw [Disk.performAll_append]
    have staged := before (.refl _)
    cases ending with
    | nil => exact staged
    | cons _ ending =>
      obtain ⟨file,bound,whole⟩ := fs.disk.staged (name ++ tmpObjectSuffix) content
      have renamed := staged.rename name bound whole (fun same => firm (.inr (same ▸ tmp)))
        (fun same => .inl ⟨same,rfl⟩)
      cases ending with
      | nil => exact renamed
      | cons _ ending =>
        cases ending with
        | nil => exact renamed
        | cons _ ending =>
          cases ending with
          | nil => exact renamed.syncNames.mono fun found same => same ▸ renamed.allowed_read

/-- When it has returned, the object is found as it was put. -/
theorem Kept.put_settled (kept : Kept streams promise fs) (proper : (Request.putObject name content).Proper streams)
    (other : Bytes) (firm : ¬ IsLoose streams other) : (fs.disk.performAll (putCalls fs.disk name content)).Settled other
      ((Request.putObject name content).promised true promise other) := by
  have tmp : isTmp (name ++ tmpObjectSuffix) = true := isTmp_append proper.1
  have differ : other ≠ name ++ tmpObjectSuffix := fun same => firm (.inr (same ▸ tmp))
  have staged := (kept.settled other firm).staging kept.guarded (.inr tmp) firm (.refl (fs.disk.stagingCalls _ content))
  obtain ⟨file,bound,whole⟩ := fs.disk.staged (name ++ tmpObjectSuffix) content
  have wider : (fs.disk.performAll (fs.disk.stagingCalls (name ++ tmpObjectSuffix) content)).Settled other
      fun found => promise other found ∨ (other = name ∧ found = some content) := staged.mono fun found => .inl
  have renamed := wider.rename name bound whole differ fun same => .inr ⟨same,rfl⟩
  rw [putCalls, Disk.performAll_append]
  refine renamed.syncNames.mono fun found same => ?_
  rw [same, Disk.read_rename bound]
  by_cases target : other = name
  · rw [if_pos target, Disk.read_bound bound, whole]
    exact .inl ⟨target,rfl⟩
  · rw [if_neg target, if_neg differ]
    exact .inr ⟨.inr target,staged.allowed_read⟩

end

theorem Kept.put (kept : Kept streams promise fs) (apart : ∀ name, streams name → isTmp name = false) {name content : Bytes}
    (proper : (Request.putObject name content).Proper streams) : Keeps streams promise (.putObject name content) fs
      ((serve (.putObject name content)).after fs) (returns (serve (.putObject name content)) fs) := by
  have tries : Tries fs (putCalls fs.disk name content) (serve (.putObject name content) fs) := by
    rw [← List.append_nil (putCalls _ _ _)]
    exact (doPutObject_tries name content fs).bind fun _ put _ => .pure _ put
  obtain ⟨made,part,did,whole⟩ := tries.made
  have renames : ∀ source target, .rename source target ∈ made → source = name ++ tmpObjectSuffix ∧ target = name := by
    intro source target member
    simpa [putCalls,Disk.stagingCalls] using part.mem_rename member
  refine kept.keeps made did.disk did.calls ?_ ?_ ?_ ?_
  · intro source target member
    rw [(renames source target member).2]
    rintro (stream | tmp)
    · exact proper.2.2 stream
    · simp [proper.2.1] at tmp
  · intro stream member
    rw [did.stream] at member
    rw [did.disk]
    refine (kept.opened stream member).performAll fun source target renamed isStream => ?_
    rw [(renames source target renamed).1] at isStream
    simpa [isTmp_append proper.1] using apart _ isStream
  · intro done cut other firm
    exact kept.put_during proper (part.trans cut) other firm
  · intro ended other firm
    rw [did.disk, whole ended]
    exact kept.put_settled proper other firm

/-! ### Removing objects -/

section
variable {names gone : List Bytes} {disk : Disk Bytes UInt8} {allowed : Option Bytes → Prop} {name : Bytes}

/-- Removing one of the names is trying to, and what is left is known. -/
theorem tryRemoveObjects_did (names : List Bytes) (fs : FileSystem) :
    ∃ gone, (∀ name ∈ gone, name ∈ names) ∧ fs.Did (tryRemoveObjects doRemoveObject names fs).2 (gone.map .remove) ∧
      ((tryRemoveObjects doRemoveObject names fs).1 = none → gone = names) := by
  induction names generalizing fs with
  | nil => exact ⟨[],by simp,.nil fs,fun _ => rfl⟩
  | cons name rest ih =>
    unfold tryRemoveObjects
    rcases doRemoveObject_cases name fs with ⟨fs',removed,did⟩ | ⟨failure,fs',made,raised,part,did⟩
    · obtain ⟨gone,among,later,all⟩ := ih fs'
      rw [removed]
      refine ⟨name :: gone,fun other member => ?_,did.append later,fun clean => by rw [all clean]⟩
      exact (List.mem_cons.mp member).elim (fun same => by simp [same]) fun member => List.mem_cons_of_mem _ (among other member)
    · obtain ⟨gone,among,later,-⟩ := ih fs'
      rw [raised]
      cases part with
      | nil => exact ⟨gone,fun other member => List.mem_cons_of_mem _ (among other member),did.append later,by simp⟩
      | cons _ part =>
        cases part with
        | nil =>
          refine ⟨name :: gone,fun other member => ?_,did.append later,by simp⟩
          exact (List.mem_cons.mp member).elim (fun same => by simp [same]) fun member =>
            List.mem_cons_of_mem _ (among other member)

theorem settled_removed (settled : disk.Settled name allowed) (absent : name ∈ gone → allowed none) :
    (disk.performAll (gone.map .remove)).Settled name allowed := by
  induction gone generalizing disk with
  | nil => exact settled
  | cons first rest ih =>
    refine ih (settled.remove fun same => absent (by simp [same])) fun member => absent (List.mem_cons_of_mem _ member)

theorem read_kept (disk : Disk Bytes UInt8) (kept : name ∉ gone) :
    (disk.performAll (gone.map .remove)).read name = disk.read name := by
  induction gone generalizing disk with
  | nil => rfl
  | cons first rest ih =>
    rw [List.mem_cons, not_or] at kept
    refine (ih (disk.remove first) kept.2).trans ?_
    rw [Disk.read_remove, if_neg kept.1]

theorem read_removed (disk : Disk Bytes UInt8) (member : name ∈ gone) :
    (disk.performAll (gone.map .remove)).read name = none := by
  induction gone generalizing disk with
  | nil => simp at member
  | cons first rest ih =>
    by_cases later : name ∈ rest
    · exact ih (disk.remove first) later
    · obtain rfl : name = first := (List.mem_cons.mp member).resolve_right later
      refine (read_kept (disk.remove name) later).trans ?_
      rw [Disk.read_remove, if_pos rfl]

end

/-- The calls of `remove_objects`: whatever could be removed is, and then the directory is synced. -/
theorem removeObjects_made (names : List Bytes) (fs : FileSystem) :
    ∃ gone made, (∀ name ∈ gone, name ∈ names) ∧ Disk.Part [.idle,.syncNames] made ∧
      fs.Did ((serve (.removeObjects names)).after fs) (gone.map .remove ++ made) ∧
      (returns (serve (.removeObjects names)) fs = true → gone = names ∧ made = [.idle,.syncNames]) := by
  obtain ⟨gone,among,removed,all⟩ := tryRemoveObjects_did names fs
  rcases removeObjects_cases names fs with ⟨fs',run,clean,did⟩ | ⟨failure,fs',made,run,part,did,-⟩
  · refine ⟨gone,_,among,.refl _,?_,fun _ => ⟨all clean,rfl⟩⟩
    rw [serve, after_bind_pure, Action.after_ok run]
    exact removed.append did
  · refine ⟨gone,made,among,part,?_,?_⟩
    · rw [serve, after_bind_pure, Action.after_error run]
      exact removed.append did
    · rw [serve, returns_bind_pure]
      simp [returns,run]

theorem Kept.remove (kept : Kept streams promise fs) (names : List Bytes) : Keeps streams promise (.removeObjects names) fs
    ((serve (.removeObjects names)).after fs) (returns (serve (.removeObjects names)) fs) := by
  obtain ⟨gone,made,among,part,did,whole⟩ := removeObjects_made names fs
  have removed : ∀ front : List Bytes, (∀ name ∈ front, name ∈ names) → ∀ name, ¬ IsLoose streams name →
      (fs.disk.performAll (front.map .remove)).Settled name ((Request.removeObjects names).promised false promise name) := by
    intro front some name firm
    refine settled_removed ((kept.settled name firm).mono fun _ => Request.promised_false _) fun member => ?_
    exact .inl ⟨some name member,rfl⟩
  have renames : ∀ source target, .rename source target ∉ gone.map Disk.Call.remove ++ made := by
    intro source target member
    rcases List.mem_append.mp member with member | member
    · simp at member
    · simpa using part.mem_rename member
  refine kept.keeps _ did.disk did.calls (fun source target member => absurd member (renames source target)) ?_ ?_ ?_
  · intro stream member
    rw [did.stream] at member
    rw [did.disk]
    exact (kept.opened stream member).performAll fun source target renamed => absurd renamed (renames source target)
  · intro done cut name firm
    rcases cut.append_cases with cut | ⟨later,last,rfl⟩
    · obtain ⟨front,some,rfl⟩ := part_removed cut
      exact removed front (fun name member => among name (some.subset member)) name firm
    · rw [Disk.performAll_append]
      have settled := removed gone among name firm
      cases part.trans last with
      | nil => exact settled
      | cons _ ending =>
        cases ending with
        | nil => exact settled
        | cons _ ending =>
          cases ending with
          | nil => exact settled.syncNames.mono fun found same => same ▸ settled.allowed_read
  · intro ended name firm
    obtain ⟨rfl,rfl⟩ := whole ended
    have settled := removed gone among name firm
    rw [did.disk, Disk.performAll_append]
    refine settled.syncNames.mono fun found same => ?_
    by_cases member : name ∈ gone
    · exact .inl ⟨member,same.trans (read_removed fs.disk member)⟩
    · refine .inr ⟨.inr member,?_⟩
      rw [same, read_kept fs.disk member]
      exact (kept.settled name firm).allowed_read

/-! ### Streams -/

theorem Kept.openStream (kept : Kept streams promise fs) {name : Bytes} (isStream : streams name) (mode : OpenStreamMode) :
    Keeps streams promise (.openStream name mode) fs ((serve (.openStream name mode)).after fs)
      (returns (serve (.openStream name mode)) fs) := by
  rw [serve, after_bind_pure, returns_bind_pure]
  have settled : ∀ done, Disk.Part [.openFile name (mode = .create)] done → ∀ other, ¬ IsLoose streams other →
      (fs.disk.performAll done).Settled other (promise other) := by
    intro done part other firm
    cases part with
    | nil => exact kept.settled other firm
    | cons _ part =>
      cases part with
      | nil => exact (kept.settled other firm).openFile kept.guarded (.inl isStream) firm _
  rcases openStream_cases name mode fs with ⟨failure,raised⟩ | ⟨failure,fs',made,raised,part,did⟩ | ⟨offset,fs',opened,did⟩
  · rw [Action.after_error raised]
    exact kept.keeps_unchanged rfl rfl kept.opened fun _ _ _ held => held
  · have renames : ∀ source target, .rename source target ∉ made := fun source target member => by
      simpa using part.mem_rename member
    rw [Action.after_error raised]
    refine kept.keeps made did.disk did.calls (fun source target member => absurd member (renames source target)) ?_
      (fun done cut => settled done (part.trans cut)) fun ended => by simp [returns,raised] at ended
    intro stream member
    rw [did.stream] at member
    rw [did.disk]
    exact (kept.opened stream member).performAll fun source target renamed => absurd renamed (renames source target)
  · rw [Action.after_ok opened]
    have disk : fs'.disk = fs.disk.openFile name (mode = .create) := did.disk
    refine kept.keeps [.openFile name (mode = .create)] did.disk did.calls (by simp) ?_ settled ?_
    · intro stream member
      obtain ⟨file,bound⟩ := fs.disk.openFile_bound name (mode = .create)
      obtain rfl : stream = ⟨file,true⟩ := by
        simpa [fileOf,disk,bound,eq_comm] using member
      show Disk.Free streams fs'.disk file
      rw [disk]
      exact kept.apart.openFile name _ name file isStream bound
    · intro _ other firm
      exact did.disk ▸ settled _ (.refl _) other firm

theorem Kept.writeDataToStream (kept : Kept streams promise fs) (data : Bytes) :
    Keeps streams promise (.writeDataToStream data) fs ((serve (.writeDataToStream data)).after fs)
      (returns (serve (.writeDataToStream data)) fs) := by
  rw [serve, after_bind_pure, returns_bind_pure]
  rcases writeDataToStream_cases data fs with ⟨failure,raised⟩ | ⟨stream,made,open',part,disk,calls,same,whole⟩
  · rw [Action.after_error raised]
    exact kept.keeps_unchanged rfl rfl kept.opened fun _ _ _ held => held
  · have free : Disk.Free streams fs.disk stream.file := kept.opened stream open'
    have renames : ∀ source target, .rename source target ∉ made := fun source target member => by
      simpa using part.mem_rename member
    have settled : ∀ done, Disk.Part [.append stream.file data,.idle] done → ∀ name, ¬ IsLoose streams name →
        (fs.disk.performAll done).Settled name (promise name) := by
      intro done cut name firm
      have apart : ¬ streams name := fun isStream => firm (.inl isStream)
      cases cut with
      | nil => exact kept.settled name firm
      | within _ _ count => exact (kept.settled name firm).setFile free apart _
      | cons _ cut =>
        cases cut with
        | nil => exact (kept.settled name firm).setFile free apart _
        | cons _ cut =>
          cases cut with
          | nil => exact (kept.settled name firm).setFile free apart _
    refine kept.keeps made disk calls (fun source target member => absurd member (renames source target)) ?_
      (fun done cut => settled done (part.trans cut)) fun ended name firm => ?_
    · intro other member
      rw [same other member, disk]
      exact free.performAll fun source target renamed => absurd renamed (renames source target)
    · rw [disk]
      exact settled made part name firm

/-! ### Runs -/

/-- Every request keeps what has been promised. -/
theorem Kept.serve (kept : Kept streams promise fs) (apart : ∀ name, streams name → isTmp name = false)
    (proper : request.Proper streams) : Keeps streams promise request fs ((serve request).after fs) (returns (serve request) fs) := by
  cases request with
  | listObjects => exact kept.keeps_unchanged rfl rfl kept.opened fun _ _ _ held => held
  | getObject name =>
    have same : (FileSystem.serve (.getObject name)).after fs = fs := by
      show Action.after (do
        let fs ← get
        let content ← fs.doGetObject name
        pure (Reply.content content)) fs = fs
      unfold Action.after
      rw [Action.get_bind_run]
      cases fs.doGetObject name <;> rfl
    rw [same]
    exact kept.keeps_unchanged rfl rfl kept.opened fun _ _ _ held => held
  | putObject name content => exact kept.put apart proper
  | removeObjects names => exact kept.remove names
  | openStream name mode => exact kept.openStream proper mode
  | writeDataToStream data => exact kept.writeDataToStream data
  | closeStream =>
    cases opened : fs.stream with
    | none =>
      have raised : FileSystem.serve .closeStream fs =
          .error ⟨.logicError,"cannot close the stream as it has not been opened"⟩ fs := by
        obtain ⟨disk,stream,outcomes,calls⟩ := fs
        subst opened
        rfl
      rw [Action.after_error raised]
      exact kept.keeps_unchanged rfl rfl kept.opened fun _ _ _ held => held
    | some stream =>
      have closed : FileSystem.serve .closeStream fs = .ok .nothing { fs with stream := none } := by
        obtain ⟨disk,stream',outcomes,calls⟩ := fs
        subst opened
        rfl
      rw [Action.after_ok closed]
      exact kept.keeps_unchanged rfl rfl (by simp) fun _ _ _ held => held

end

/-- A run of requests, with whether they have returned. -/
inductive Serves (streams : Bytes → Prop) (fs : FileSystem) : List (Request × Bool) → FileSystem → Prop where
  | nil : Serves streams fs [] fs
  | concat {served : List (Request × Bool)} {fs' : FileSystem} {request : Request} (before : Serves streams fs served fs')
      (proper : request.Proper streams) :
      Serves streams fs (served ++ [(request,returns (serve request) fs')]) ((serve request).after fs')

/-- What is promised by a run of requests. -/
def promisedBy (served : List (Request × Bool)) (promise : Promise) : Promise :=
  served.foldl (fun promise x => x.1.promised x.2 promise) promise

/-- When nothing has been done yet, what is there is what is found. -/
theorem kept_of_quiet (streams : Bytes → Prop) {fs : FileSystem} (quiet : fs.disk.Quiet) (closed : fs.stream = none) :
    Kept streams (fun name found => found = fs.disk.read name) fs where
  apart := Disk.guarded_of_past_nil quiet.past
  guarded := Disk.guarded_of_past_nil quiet.past
  opened := by simp [closed]
  settled := fun name _ => .of_quiet quiet name

theorem Serves.kept {streams : Bytes → Prop} (apart : ∀ name, streams name → isTmp name = false) {fs fs' : FileSystem}
    {served : List (Request × Bool)} (serves : Serves streams fs served fs') {promise : Promise}
    (kept : Kept streams promise fs) : Kept streams (promisedBy served promise) fs' := by
  induction serves with
  | nil => exact kept
  | concat before proper ih =>
    rw [promisedBy, List.foldl_concat]
    exact (ih.serve apart proper).after

/-- Whatever requests have been served, and wherever the last one is cut by a loss of power, every object that is not written as
    a stream is found with the content that the last put or removal that returned gave it, or with one that was tried since. -/
theorem found_as_promised {streams : Bytes → Prop} (apart : ∀ name, streams name → isTmp name = false) {fs fs' : FileSystem}
    (quiet : fs.disk.Quiet) (closed : fs.stream = none) {served : List (Request × Bool)} (serves : Serves streams fs served fs')
    {last : Request} (proper : last.Proper streams) {made done : List (Disk.Call Bytes UInt8)}
    (calls : ((serve last).after fs').calls = fs'.calls ++ made) (cut : Disk.Part made done) {found : Disk Bytes UInt8}
    (lost : (fs'.disk.performAll done).Survives found) :
    found.Quiet ∧ ∀ name, ¬ streams name → isTmp name = false →
      last.promised false (promisedBy served fun name found => found = fs.disk.read name) name (found.read name) := by
  refine ⟨lost.quiet,fun name object plain => ?_⟩
  have kept := serves.kept apart (kept_of_quiet streams quiet closed)
  obtain ⟨made',calls',during⟩ := (kept.serve apart proper).during
  obtain rfl : made' = made := List.append_cancel_left (calls'.symm.trans calls)
  have firm : ¬ IsLoose streams name := by
    rintro (stream | tmp)
    · exact object stream
    · simp [plain] at tmp
  exact (during done cut name firm).survives lost

namespace Sample

/-- The name of an object. -/
def name : Bytes := ascii "binlog.index"

/-- An empty directory. The second time an object is put, the directory cannot be synced. -/
def fresh : FileSystem where
  disk := ⟨[],.empty,[],by simp [SortedMap.Binds]⟩
  outcomes := List.replicate 15 .done ++ [.failed "Input/output error" 0]

def afterFirst : FileSystem := (serve (.putObject name [1])).after fresh

def afterSecond : FileSystem := (serve (.putObject name [2])).after afterFirst

/-- What has been done when the power is lost while a third content is written. -/
def torn : Disk Bytes UInt8 := afterSecond.disk.performAll [.openFile (name ++ tmpObjectSuffix) true,.append 2 [3]]

theorem first_survives : afterFirst.disk.names ∈ torn.names :: torn.past := by decide +kernel

/-- The directory on the medium is still the one that was synced last. -/
def found : Disk Bytes UInt8 := torn.remains afterFirst.disk.names first_survives

end Sample

theorem found_as_promised_torn : Sample.found.read Sample.name = some [1] ∧ Sample.found.Quiet ∧
    (Sample.found.read Sample.name = some [3] ∨ Sample.found.read Sample.name = some [2] ∨
      Sample.found.read Sample.name = some [1]) := by
  have proper : ∀ content, (Request.putObject Sample.name content).Proper fun _ => False :=
    fun _ => ⟨by decide,by decide,not_false⟩
  have first : returns (serve (.putObject Sample.name [1])) Sample.fresh = true := by decide +kernel
  have second : returns (serve (.putObject Sample.name [2])) Sample.afterFirst = false := by decide +kernel
  have calls : ((serve (.putObject Sample.name [3])).after Sample.afterSecond).calls = Sample.afterSecond.calls ++
      ([.openFile (Sample.name ++ tmpObjectSuffix) true,.append 2 [3]] ++ [.idle,.idle,
        .syncFile (Sample.name ++ tmpObjectSuffix),.rename (Sample.name ++ tmpObjectSuffix) Sample.name,.idle,.syncNames]) := by
    decide +kernel
  obtain ⟨quiet,promised⟩ := @found_as_promised (fun _ => False) (fun _ => False.elim) Sample.fresh Sample.afterSecond
    ⟨rfl,by simp [Sample.fresh]⟩ rfl _ ((Serves.nil.concat (proper [1])).concat (proper [2])) (.putObject Sample.name [3])
    (proper [3]) _ _ calls ((Disk.Part.refl _).of_left _) Sample.found (Disk.survives_remains _ _)
  refine ⟨by decide +kernel,quiet,?_⟩
  have object := promised Sample.name not_false (by decide)
  have raised : returns (serve (.putObject Sample.name [2]))
      ((serve (.putObject Sample.name [1])).after Sample.fresh) = false := second
  simpa [Request.promised,promisedBy,first,raised] using object

end FileSystem
end BinlogServer.Store
