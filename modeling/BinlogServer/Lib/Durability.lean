import BinlogServer.Lib.Disk

/-!
# What is on the medium

Some names are loose: files under them are written in place. All other names are given to files that are complete and have
been synced, so that what is found under them when the power has been lost is one of the contents they have had. A content is
replaced by writing another file under a loose name, which is then renamed.
-/

namespace Disk
variable {ν α : Type} [LinearOrder ν]

section
variable {disk : Disk ν α} {loose : ν → Prop} {name : ν} {file : Nat}

/-- The file is under no name that is not loose, whichever directory is on the medium. -/
def Free (loose : ν → Prop) (disk : Disk ν α) (file : Nat) : Prop :=
  file < disk.files.length ∧ ∀ directory ∈ disk.names :: disk.past, ∀ name, ¬ loose name → directory.find? name ≠ some file

/-- Files that can be reached through loose names are free. -/
def Guarded (loose : ν → Prop) (disk : Disk ν α) : Prop :=
  ∀ name file, loose name → disk.names.find? name = some file → Free loose disk file

theorem guarded_of_past_nil (fresh : disk.past = []) : Guarded loose disk := by
  intro name file isLoose found
  refine ⟨(disk.current_binds name file found).1,fun directory member other firm taken => ?_⟩
  rw [fresh, List.mem_singleton] at member
  subst member
  exact firm ((disk.current_binds name file found).2 other taken ▸ isLoose)

theorem Free.setFile (free : Free loose disk file) (number : Nat) (f : DiskFile α → DiskFile α) :
    Free loose (disk.setFile number f) file := ⟨by simpa [Disk.setFile] using free.1,free.2⟩

theorem Guarded.setFile (guarded : Guarded loose disk) (number : Nat) (f : DiskFile α → DiskFile α) :
    Guarded loose (disk.setFile number f) :=
  fun name file isLoose found => (guarded name file isLoose found).setFile number f

theorem Free.addFile (free : Free loose disk file) (name : ν) : Free loose (disk.addFile name) file := by
  refine ⟨?_,fun directory member other firm taken => ?_⟩
  · simpa [Disk.addFile] using free.1.trans (Nat.lt_succ_self _)
  · rcases List.mem_cons.mp member with rfl | member
    · simp only [Disk.addFile, SortedMap.find?_insert] at taken
      split at taken
      · exact absurd (Option.some.inj taken) free.1.ne'
      · exact free.2 _ List.mem_cons_self other firm taken
    · exact free.2 directory member other firm taken

/-- A new file under a loose name is free. -/
theorem free_addFile (disk : Disk ν α) (isLoose : loose name) : Free loose (disk.addFile name) disk.files.length := by
  refine ⟨by simp [addFile],fun directory member other firm taken => ?_⟩
  rcases List.mem_cons.mp member with rfl | member
  · simp only [addFile, SortedMap.find?_insert] at taken
    split at taken
    case isTrue same => exact firm (same ▸ isLoose)
    case isFalse => exact lt_irrefl _ (disk.current_binds other _ taken).1
  · exact lt_irrefl _ (disk.binds directory member other _ taken).1

theorem Guarded.addFile (guarded : Guarded loose disk) (name : ν) : Guarded loose (disk.addFile name) := by
  intro other file isLoose found
  simp only [Disk.addFile, SortedMap.find?_insert] at found
  split at found
  case isTrue same =>
    obtain rfl := Option.some.inj found
    exact free_addFile disk (same ▸ isLoose)
  case isFalse => exact (guarded other file isLoose found).addFile name

theorem Free.openFile (free : Free loose disk file) (name : ν) (truncated : Bool) :
    Free loose (disk.openFile name truncated) file := by
  unfold Disk.openFile
  split
  · exact free.addFile name
  · split
    · exact free.setFile _ _
    · exact free

theorem Guarded.openFile (guarded : Guarded loose disk) (name : ν) (truncated : Bool) :
    Guarded loose (disk.openFile name truncated) := by
  unfold Disk.openFile
  split
  · exact guarded.addFile name
  · split
    · exact guarded.setFile _ _
    · exact guarded

theorem Free.syncFile (free : Free loose disk file) (name : ν) : Free loose (disk.syncFile name) file := by
  unfold Disk.syncFile
  split
  · exact free
  · exact free.setFile _ _

theorem Guarded.syncFile (guarded : Guarded loose disk) (name : ν) : Guarded loose (disk.syncFile name) := by
  unfold Disk.syncFile
  split
  · exact guarded
  · exact guarded.setFile _ _

theorem Free.remove (free : Free loose disk file) (name : ν) : Free loose (disk.remove name) file := by
  refine ⟨free.1,fun directory member other firm taken => ?_⟩
  rcases List.mem_cons.mp member with rfl | member
  · simp only [Disk.remove, SortedMap.find?_erase] at taken
    split at taken
    · cases taken
    · exact free.2 _ List.mem_cons_self other firm taken
  · exact free.2 directory member other firm taken

theorem Guarded.remove (guarded : Guarded loose disk) (name : ν) : Guarded loose (disk.remove name) := by
  intro other file isLoose found
  simp only [Disk.remove, SortedMap.find?_erase] at found
  split at found
  · cases found
  · exact (guarded other file isLoose found).remove name

theorem Free.syncNames (free : Free loose disk file) : Free loose disk.syncNames file := by
  refine ⟨free.1,fun directory member => free.2 directory ?_⟩
  rw [show directory = disk.names by simpa [Disk.syncNames] using member]
  exact List.mem_cons_self

/-- A file stays free unless it is the one that is given a name that is not loose. -/
theorem Free.rename {source target : ν} {moved : Nat} (found : disk.names.find? source = some moved)
    (free : Free loose disk file) (apart : ¬ loose target → moved ≠ file) : Free loose (disk.rename source target) file := by
  obtain ⟨names,past,files⟩ := rename_names found target
  refine ⟨by rw [files]; exact free.1,?_⟩
  rw [names, past]
  intro directory member other firm taken
  rcases List.mem_cons.mp member with rfl | member
  · rw [SortedMap.find?_insert, SortedMap.find?_erase] at taken
    split at taken
    case isTrue same => exact apart (same ▸ firm) (Option.some.inj taken)
    case isFalse =>
      split at taken
      · cases taken
      · exact free.2 _ List.mem_cons_self other firm taken
  · exact free.2 directory member other firm taken

theorem Guarded.rename {source target : ν} {moved : Nat} (found : disk.names.find? source = some moved)
    (guarded : Guarded loose disk) (firm : ¬ loose target) : Guarded loose (disk.rename source target) := by
  obtain ⟨names,-,-⟩ := rename_names found target
  intro other file isLoose taken
  rw [names, SortedMap.find?_insert, SortedMap.find?_erase] at taken
  split at taken
  case isTrue same => exact absurd (same ▸ isLoose) firm
  case isFalse =>
    split at taken
    · cases taken
    · next differ =>
      refine (guarded other file isLoose taken).rename found fun _ same => ?_
      subst same
      exact differ ((disk.current_binds source moved found).2 other taken)

end

/-! ### When the power is lost -/

section
variable {disk found : Disk ν α} {loose : ν → Prop} {name : ν} {file : Nat} {allowed : Option (List α) → Prop}

/-- Everything is on the medium. -/
structure Quiet (disk : Disk ν α) : Prop where
  past : disk.past = []
  synced : ∀ file ∈ disk.files, file.synced = true

/-- What is found when the power has been lost. -/
structure Survives (disk found : Disk ν α) : Prop where
  names : found.names ∈ disk.names :: disk.past
  quiet : found.Quiet
  kept : ∀ (number : Nat) (file : DiskFile α), disk.files[number]? = some file → file.synced = true → found.files[number]? = some file

/-- One of the directories, with nothing in the files that have not been synced. -/
def remains (disk : Disk ν α) (names : SortedMap ν Nat) (member : names ∈ disk.names :: disk.past) : Disk ν α where
  files := disk.files.map fun file => if file.synced then file else ⟨[],true⟩
  names := names
  past := []
  binds := by
    intro directory same
    rw [List.mem_singleton.mp same, List.length_map]
    exact disk.binds names member

theorem survives_remains (disk : Disk ν α) {names : SortedMap ν Nat} (member : names ∈ disk.names :: disk.past) :
    disk.Survives (disk.remains names member) where
  names := member
  quiet := by
    refine ⟨rfl,fun file held => ?_⟩
    obtain ⟨old,-,rfl⟩ := List.mem_map.mp held
    by_cases synced : old.synced = true <;> simp [synced]
  kept := by
    intro number file held synced
    simp [remains,held,synced]

/-- Whichever directory is on the medium, the content under a name is there too, and it is one of those that are allowed. -/
def Settled (disk : Disk ν α) (name : ν) (allowed : Option (List α) → Prop) : Prop :=
  ∀ directory ∈ disk.names :: disk.past, (directory.find? name = none → allowed none) ∧
    ∀ file, directory.find? name = some file → ∃ content, disk.files[file]? = some ⟨content,true⟩ ∧ allowed (some content)

namespace Settled

theorem mono (settled : Settled disk name allowed) {more : Option (List α) → Prop} (wider : ∀ content, allowed content → more content) :
    Settled disk name more := by
  intro directory member
  refine ⟨fun unused => wider _ ((settled directory member).1 unused),fun file taken => ?_⟩
  obtain ⟨content,held,fine⟩ := (settled directory member).2 file taken
  exact ⟨content,held,wider _ fine⟩

theorem allowed_read (settled : Settled disk name allowed) : allowed (disk.read name) := by
  obtain ⟨unused,taken⟩ := settled _ List.mem_cons_self
  cases bound : disk.names.find? name with
  | none => rw [read_eq_none_iff.mpr bound]; exact unused bound
  | some file =>
    obtain ⟨content,held,fine⟩ := taken file bound
    simpa [read_bound bound,held] using fine

/-- What is found under a settled name is allowed. -/
theorem survives (settled : Settled disk name allowed) (survives : Survives disk found) : allowed (found.read name) := by
  obtain ⟨unused,taken⟩ := settled _ survives.names
  cases bound : found.names.find? name with
  | none => rw [read_eq_none_iff.mpr bound]; exact unused bound
  | some file =>
    obtain ⟨content,held,fine⟩ := taken file bound
    simpa [read_bound bound,survives.kept _ _ held rfl] using fine

theorem of_quiet (quiet : disk.Quiet) (name : ν) : Settled disk name (· = disk.read name) := by
  intro directory member
  rw [quiet.past, List.mem_singleton] at member
  subst member
  refine ⟨fun unused => (read_eq_none_iff.mpr unused).symm,fun file taken => ?_⟩
  obtain ⟨old,held⟩ : ∃ old, disk.files[file]? = some old :=
    ⟨_,List.getElem?_eq_getElem (disk.current_binds name file taken).1⟩
  refine ⟨old.content,?_,by simp [read_bound taken,held]⟩
  rw [held, ← quiet.synced old (List.mem_of_getElem? held)]

/-- A free file is written. -/
theorem setFile (settled : Settled disk name allowed) (free : Free loose disk file) (firm : ¬ loose name)
    (f : DiskFile α → DiskFile α) : Settled (disk.setFile file f) name allowed := by
  intro directory member
  refine ⟨(settled directory member).1,fun number taken => ?_⟩
  obtain ⟨content,held,fine⟩ := (settled directory member).2 number taken
  have differ : file ≠ number := by
    rintro rfl
    exact free.2 directory member name firm taken
  exact ⟨content,by rw [Disk.setFile, List.getElem?_modify_ne _ _ differ]; exact held,fine⟩

theorem addFile (settled : Settled disk name allowed) {other : ν} (differ : name ≠ other) :
    Settled (disk.addFile other) name allowed := by
  have former : ∀ directory ∈ disk.names :: disk.past, (directory.find? name = none → allowed none) ∧ ∀ file,
      directory.find? name = some file → ∃ content,
        (disk.addFile other).files[file]? = some ⟨content,true⟩ ∧ allowed (some content) := by
    intro directory member
    refine ⟨(settled directory member).1,fun file taken => ?_⟩
    obtain ⟨content,held,fine⟩ := (settled directory member).2 file taken
    refine ⟨content,?_,fine⟩
    rw [Disk.addFile, List.getElem?_append_left (disk.binds directory member name file taken).1]
    exact held
  intro directory member
  rcases List.mem_cons.mp member with rfl | member
  · simp only [Disk.addFile, SortedMap.find?_insert, differ, if_false]
    exact former _ List.mem_cons_self
  · exact former directory member

/-- A file is opened under a loose name. -/
theorem openFile (settled : Settled disk name allowed) (guarded : Guarded loose disk) {other : ν} (isLoose : loose other)
    (firm : ¬ loose name) (truncated : Bool) : Settled (disk.openFile other truncated) name allowed := by
  unfold Disk.openFile
  split
  · exact settled.addFile fun same => firm (same ▸ isLoose)
  next file taken =>
    split
    · exact settled.setFile (guarded other file isLoose taken) firm _
    · exact settled

theorem syncFile (settled : Settled disk name allowed) (other : ν) : Settled (disk.syncFile other) name allowed := by
  unfold Disk.syncFile
  split
  · exact settled
  next file _ =>
    intro directory member
    refine ⟨(settled directory member).1,fun number taken => ?_⟩
    obtain ⟨content,held,fine⟩ := (settled directory member).2 number taken
    refine ⟨content,?_,fine⟩
    by_cases same : file = number
    · subst same
      simp [Disk.setFile,held]
    · rw [Disk.setFile, List.getElem?_modify_ne _ _ same]
      exact held

/-- Where a name has gone, it may be unused. -/
theorem remove (settled : Settled disk name allowed) {other : ν} (gone : name = other → allowed none) :
    Settled (disk.remove other) name allowed := by
  intro directory member
  rcases List.mem_cons.mp member with rfl | member
  · simp only [Disk.remove, SortedMap.find?_erase]
    by_cases same : name = other
    · simp [same,gone same]
    · simp only [same, if_false]
      exact settled _ List.mem_cons_self
  · exact settled directory member

/-- A name is given to a file that is on the medium. -/
theorem rename (settled : Settled disk name allowed) {source : ν} (target : ν) {content : List α}
    (found : disk.names.find? source = some file) (whole : disk.files[file]? = some ⟨content,true⟩) (differ : name ≠ source)
    (fine : name = target → allowed (some content)) : Settled (disk.rename source target) name allowed := by
  obtain ⟨names,past,files⟩ := rename_names found target
  unfold Settled
  rw [names, past, files]
  intro directory member
  rcases List.mem_cons.mp member with rfl | member
  · rw [SortedMap.find?_insert, SortedMap.find?_erase, if_neg differ]
    by_cases same : name = target
    · rw [if_pos same]
      refine ⟨by simp,fun number taken => ?_⟩
      obtain rfl := Option.some.inj taken
      exact ⟨content,whole,fine same⟩
    · rw [if_neg same]
      exact settled _ List.mem_cons_self
  · exact settled directory member

/-- When the directory has been synced, what is read now is found. -/
theorem syncNames (settled : Settled disk name allowed) : Settled disk.syncNames name (· = disk.read name) := by
  intro directory member
  obtain rfl : directory = disk.names := by simpa [Disk.syncNames] using member
  refine ⟨fun unused => (read_eq_none_iff.mpr unused).symm,fun file taken => ?_⟩
  obtain ⟨content,held,-⟩ := (settled _ List.mem_cons_self).2 file taken
  exact ⟨content,held,by simp [read_bound taken,held]⟩

end Settled
end
/-! ### Replacing a content -/

section
variable {disk : Disk ν α} {loose : ν → Prop} {tmp name : ν} {file : Nat} {content : List α} {done : List (Call ν α)}
  {allowed : Option (List α) → Prop}

theorem Guarded.perform (guarded : Guarded loose disk) (call : Call ν α)
    (firm : ∀ source target, call = .rename source target → ¬ loose target) : Guarded loose (disk.perform call) := by
  cases call with
  | idle => exact guarded
  | openFile name truncated => exact guarded.openFile name truncated
  | append file data => exact guarded.setFile _ _
  | syncFile name => exact guarded.syncFile name
  | rename source target =>
    cases found : disk.names.find? source with
    | none => rw [Disk.perform, rename_unbound found target]; exact guarded
    | some moved => exact guarded.rename found (firm source target rfl)
  | remove name => exact guarded.remove name
  | syncNames => exact guarded_of_past_nil rfl

/-- A free file stays free, since the files that are renamed to names that are not loose are others. -/
theorem Free.perform (free : Free loose disk file) (call : Call ν α)
    (firm : ∀ source target, call = .rename source target → ¬ loose source) : Free loose (disk.perform call) file := by
  cases call with
  | idle => exact free
  | openFile name truncated => exact free.openFile name truncated
  | append number data => exact free.setFile _ _
  | syncFile name => exact free.syncFile name
  | rename source target =>
    cases found : disk.names.find? source with
    | none => rw [Disk.perform, rename_unbound found target]; exact free
    | some moved =>
      refine free.rename found fun _ same => ?_
      exact free.2 _ List.mem_cons_self source (firm source target rfl) (same ▸ found)
  | remove name => exact free.remove name
  | syncNames => exact free.syncNames

theorem Guarded.performAll (guarded : Guarded loose disk) {calls : List (Call ν α)}
    (firm : ∀ source target, .rename source target ∈ calls → ¬ loose target) : Guarded loose (disk.performAll calls) := by
  induction calls generalizing disk with
  | nil => exact guarded
  | cons call calls ih =>
    refine ih (guarded.perform call fun source target same => firm source target (by simp [same])) fun source target later => ?_
    exact firm source target (List.mem_cons_of_mem _ later)

theorem Free.performAll (free : Free loose disk file) {calls : List (Call ν α)}
    (firm : ∀ source target, .rename source target ∈ calls → ¬ loose source) : Free loose (disk.performAll calls) file := by
  induction calls generalizing disk with
  | nil => exact free
  | cons call calls ih =>
    refine ih (free.perform call fun source target same => firm source target (by simp [same])) fun source target later => ?_
    exact firm source target (List.mem_cons_of_mem _ later)

/-- The calls that write a content to a file of its own, which is closed and synced. -/
def stagingCalls (disk : Disk ν α) (tmp : ν) (content : List α) : List (Call ν α) :=
  [.openFile tmp true,.append (((disk.openFile tmp true).names.find? tmp).getD 0) content,.idle,.idle,.syncFile tmp]

/-- The disk where only a part of these calls has been made. -/
theorem staging_cases (bound : (disk.openFile tmp true).names.find? tmp = some file)
    (part : Part (stagingCalls disk tmp content) done) :
    disk.performAll done = disk ∨ disk.performAll done = disk.openFile tmp true ∨
      (∃ data, disk.performAll done = (disk.openFile tmp true).append file data) ∨
      disk.performAll done = ((disk.openFile tmp true).append file content).syncFile tmp := by
  simp only [stagingCalls, bound, Option.getD_some] at part
  cases part with
  | nil => exact .inl rfl
  | cons _ part =>
    refine .inr ?_
    cases part with
    | nil => exact .inl rfl
    | within _ _ count => exact .inr (.inl ⟨content.take count,rfl⟩)
    | cons _ part =>
      refine .inr ?_
      cases part with
      | nil => exact .inl ⟨content,rfl⟩
      | cons _ part =>
        cases part with
        | nil => exact .inl ⟨content,rfl⟩
        | cons _ part =>
          cases part with
          | nil => exact .inl ⟨content,rfl⟩
          | cons _ part =>
            cases part with
            | nil => exact .inr rfl

/-- The file is on the medium when all of them have been made. -/
theorem staged (disk : Disk ν α) (tmp : ν) (content : List α) :
    ∃ file, (disk.performAll (stagingCalls disk tmp content)).names.find? tmp = some file ∧
      (disk.performAll (stagingCalls disk tmp content)).files[file]? = some ⟨content,true⟩ := by
  obtain ⟨file,bound⟩ := openFile_bound disk tmp true
  have emptied := openFile_emptied bound
  have all : disk.performAll (stagingCalls disk tmp content) =
      ((disk.openFile tmp true).append file content).syncFile tmp := by
    simp [stagingCalls,bound,Disk.performAll,Disk.perform]
  have kept : ((disk.openFile tmp true).append file content).names.find? tmp = some file := bound
  refine ⟨file,?_,?_⟩ <;> rw [all] <;> unfold syncFile <;> rw [kept]
  · exact kept
  · simp [Disk.setFile,Disk.append,emptied]

/-- What is under a name that is not loose stays there while a file is staged. -/
theorem Settled.staging (settled : Settled disk name allowed) (guarded : Guarded loose disk) (isLoose : loose tmp)
    (firm : ¬ loose name) (part : Part (stagingCalls disk tmp content) done) : Settled (disk.performAll done) name allowed := by
  obtain ⟨file,bound⟩ := openFile_bound disk tmp true
  have opened : Settled (disk.openFile tmp true) name allowed := settled.openFile guarded isLoose firm true
  have free : Free loose (disk.openFile tmp true) file := guarded.openFile tmp true tmp file isLoose bound
  rcases staging_cases bound part with same | same | ⟨data,same⟩ | same <;> rw [same]
  · exact settled
  · exact opened
  · exact opened.setFile free firm _
  · exact (opened.setFile free firm _).syncFile tmp

end
end Disk
