import BinlogServer.Lib.SortedMap

/-!
# Directories on a disk

A directory gives names to files. A process that makes system calls sees what they have done at once, and so does whoever
comes after it when it is killed. When the power is lost, a file has kept its content only if it has been synced since it
was last written, and the directory is one of those there have been since it was last synced.
-/

namespace Disk
variable {ν α : Type}

/-- The system calls that change a disk. -/
inductive Call (ν α : Type) where
  /-- One that changes nothing. -/
  | idle
  | openFile (name : ν) (truncated : Bool)
  | append (file : Nat) (data : List α)
  | syncFile (name : ν)
  | rename (source target : ν)
  | remove (name : ν)
  | syncNames
deriving DecidableEq

/-- The calls that have been made of a script; the last one may have appended only a part of its data. -/
inductive Part : List (Call ν α) → List (Call ν α) → Prop where
  | nil (script : List (Call ν α)) : Part script []
  | within (file : Nat) (data : List α) (count : Nat) (rest : List (Call ν α)) :
      Part (.append file data :: rest) [.append file (data.take count)]
  | cons (call : Call ν α) {rest made : List (Call ν α)} (part : Part rest made) : Part (call :: rest) (call :: made)

namespace Part
variable {script made done first second : List (Call ν α)}

theorem refl (script : List (Call ν α)) : Part script script := by
  induction script with
  | nil => exact .nil []
  | cons call rest ih => exact .cons call ih

theorem trans (outer : Part script made) (inner : Part made done) : Part script done := by
  induction outer generalizing done with
  | nil script =>
    cases inner with
    | nil => exact .nil script
  | within file data count rest =>
    cases inner with
    | nil => exact .nil _
    | within _ _ fewer => rw [List.take_take]; exact .within file data _ rest
    | cons _ part =>
      cases part
      exact .within file data count rest
  | cons call part ih =>
    cases inner with
    | nil => exact .nil _
    | within file data count => exact .within file data count _
    | cons _ inner => exact .cons call (ih inner)

theorem of_left (part : Part first made) (second : List (Call ν α)) : Part (first ++ second) made := by
  induction part with
  | nil script => exact .nil _
  | within file data count rest => exact .within file data count _
  | cons call part ih => exact .cons call ih

theorem of_right (first : List (Call ν α)) (part : Part second made) : Part (first ++ second) (first ++ made) := by
  induction first with
  | nil => exact part
  | cons call first ih => exact .cons call ih

/-- Nothing has been renamed that was not to be. -/
theorem mem_rename {source target : ν} (part : Part script made) (member : .rename source target ∈ made) :
    .rename source target ∈ script := by
  induction part with
  | nil => simp at member
  | within => simp at member
  | cons call part ih =>
    rcases List.mem_cons.mp member with rfl | member
    · exact List.mem_cons_self
    · exact List.mem_cons_of_mem _ (ih member)

theorem append_cases (part : Part (first ++ second) made) :
    Part first made ∨ ∃ later, Part second later ∧ made = first ++ later := by
  induction first generalizing made with
  | nil => exact .inr ⟨made,part,rfl⟩
  | cons call first ih =>
    cases part with
    | nil => exact .inl (.nil _)
    | within file data count => exact .inl (.within file data count first)
    | cons _ part =>
      rcases ih part with part | ⟨later,part',rfl⟩
      · exact .inl (.cons call part)
      · exact .inr ⟨later,part',rfl⟩

end Part

end Disk

/-- A file; `synced` says that its content is on the medium. -/
structure DiskFile (α : Type) where
  content : List α
  synced : Bool
deriving DecidableEq

/-- Each name stands for one of the files, and no two names for the same one. -/
def SortedMap.Binds {ν : Type} [LinearOrder ν] (names : SortedMap ν Nat) (count : Nat) : Prop :=
  ∀ name file, names.find? name = some file → file < count ∧ ∀ other, names.find? other = some file → other = name

/-- A directory with all files there have been, which are known by their numbers. `past` are the directories since the last
    sync that the medium may have in place of the current one. -/
structure Disk (ν α : Type) [LinearOrder ν] where
  files : List (DiskFile α)
  names : SortedMap ν Nat
  past : List (SortedMap ν Nat)
  binds : ∀ directory ∈ names :: past, directory.Binds files.length

namespace SortedMap
variable {ν : Type} [LinearOrder ν] {names : SortedMap ν Nat} {count : Nat}

theorem Binds.mono (binds : names.Binds count) {more : Nat} (le : count ≤ more) : names.Binds more :=
  fun name file found => ⟨(binds name file found).1.trans_le le,(binds name file found).2⟩

theorem Binds.erase (binds : names.Binds count) (gone : ν) : (names.erase gone).Binds count := by
  intro name file found
  rw [find?_erase] at found
  split at found
  · cases found
  · refine ⟨(binds name file found).1,fun other same => ?_⟩
    rw [find?_erase] at same
    split at same
    · cases same
    · exact (binds name file found).2 other same

/-- A name is given to a file that has no other. -/
theorem Binds.insert (binds : names.Binds count) (name : ν) {file : Nat} (known : file < count)
    (only : ∀ other, names.find? other = some file → other = name) : (names.insert name file).Binds count := by
  intro a f found
  rw [find?_insert] at found
  split at found
  case isTrue same =>
    obtain rfl := Option.some.inj found
    refine ⟨known,fun other taken => ?_⟩
    rw [find?_insert] at taken
    split at taken
    case isTrue same' => rw [same, same']
    case isFalse => rw [same, only other taken]
  case isFalse differ =>
    refine ⟨(binds a f found).1,fun other taken => ?_⟩
    rw [find?_insert] at taken
    split at taken
    case isTrue =>
      obtain rfl := Option.some.inj taken
      exact absurd (only a found) differ
    case isFalse => exact (binds a f found).2 other taken

end SortedMap

namespace Disk
variable {ν α : Type} [LinearOrder ν]

/-- What is read under a name. -/
def read (disk : Disk ν α) (name : ν) : Option (List α) :=
  (disk.names.find? name).bind fun file => disk.files[file]?.map DiskFile.content

/-- What a file is changed to. -/
def setFile (disk : Disk ν α) (file : Nat) (f : DiskFile α → DiskFile α) : Disk ν α where
  files := disk.files.modify file f
  names := disk.names
  past := disk.past
  binds := by simpa using disk.binds

/-- A new empty file under a name. -/
def addFile (disk : Disk ν α) (name : ν) : Disk ν α where
  files := disk.files ++ [⟨[],false⟩]
  names := disk.names.insert name disk.files.length
  past := disk.names :: disk.past
  binds := by
    rw [List.length_append, List.length_singleton]
    intro directory member
    rcases List.mem_cons.mp member with rfl | member
    · refine ((disk.binds _ List.mem_cons_self).mono (Nat.le_succ _)).insert name (Nat.lt_succ_self _) fun other found => ?_
      exact absurd (disk.binds _ List.mem_cons_self other _ found).1 (lt_irrefl _)
    · exact (disk.binds directory member).mono (Nat.le_succ _)

def rename (disk : Disk ν α) (source target : ν) : Disk ν α :=
  match found : disk.names.find? source with
  | none => disk
  | some file =>
    { disk with
      names := (disk.names.erase source).insert target file
      past := disk.names :: disk.past
      binds := by
        have binds := disk.binds _ List.mem_cons_self
        intro directory member
        rcases List.mem_cons.mp member with rfl | member
        · refine (binds.erase source).insert target (binds source file found).1 fun other taken => ?_
          rw [SortedMap.find?_erase] at taken
          split at taken
          · cases taken
          · next differ => exact absurd ((binds source file found).2 other taken) differ
        · exact disk.binds directory member }

def remove (disk : Disk ν α) (name : ν) : Disk ν α where
  files := disk.files
  names := disk.names.erase name
  past := disk.names :: disk.past
  binds := by
    intro directory member
    rcases List.mem_cons.mp member with rfl | member
    · exact (disk.binds _ List.mem_cons_self).erase name
    · exact disk.binds directory member

def syncNames (disk : Disk ν α) : Disk ν α where
  files := disk.files
  names := disk.names
  past := []
  binds := fun directory member => disk.binds directory (by simp at member; simp [member])

/-- A file is opened to be written: it is created if there is none, and may be emptied. -/
def openFile (disk : Disk ν α) (name : ν) (truncated : Bool) : Disk ν α :=
  match disk.names.find? name with
  | none => disk.addFile name
  | some file => if truncated then disk.setFile file fun _ => ⟨[],false⟩ else disk

def append (disk : Disk ν α) (file : Nat) (data : List α) : Disk ν α :=
  disk.setFile file fun old => ⟨old.content ++ data,false⟩

def syncFile (disk : Disk ν α) (name : ν) : Disk ν α :=
  match disk.names.find? name with
  | none => disk
  | some file => disk.setFile file fun old => ⟨old.content,true⟩

def perform (disk : Disk ν α) : Call ν α → Disk ν α
  | .idle => disk
  | .openFile name truncated => disk.openFile name truncated
  | .append file data => disk.append file data
  | .syncFile name => disk.syncFile name
  | .rename source target => disk.rename source target
  | .remove name => disk.remove name
  | .syncNames => disk.syncNames

def performAll (disk : Disk ν α) (calls : List (Call ν α)) : Disk ν α := calls.foldl perform disk

theorem performAll_append (disk : Disk ν α) (first second : List (Call ν α)) :
    disk.performAll (first ++ second) = (disk.performAll first).performAll second := List.foldl_append

/-! ### What is read -/

section
variable {disk : Disk ν α} {name : ν} {file : Nat}

theorem current_binds (disk : Disk ν α) : disk.names.Binds disk.files.length := disk.binds _ List.mem_cons_self

theorem read_bound (found : disk.names.find? name = some file) : disk.read name = disk.files[file]?.map DiskFile.content := by
  simp [read,found]

theorem read_eq_none_iff : disk.read name = none ↔ disk.names.find? name = none := by
  cases found : disk.names.find? name with
  | none => simp [read,found]
  | some file =>
    have known := (disk.current_binds name file found).1
    simp [read_bound found,known]

theorem read_setFile (disk : Disk ν α) {f : DiskFile α → DiskFile α} (found : disk.names.find? name = some file) (other : ν) :
    (disk.setFile file f).read other =
      if other = name then disk.files[file]?.map fun old => (f old).content else disk.read other := by
  by_cases same : other = name
  · subst same
    simp [read,setFile,found,Option.map_map,Function.comp_def]
  · rw [if_neg same]
    cases bound : disk.names.find? other with
    | none => simp [read,setFile,bound]
    | some number =>
      have differ : file ≠ number := by
        rintro rfl
        exact same ((disk.current_binds name file found).2 other bound)
      simp [read,setFile,bound,List.getElem?_modify_ne _ _ differ]

theorem read_addFile (disk : Disk ν α) (name other : ν) :
    (disk.addFile name).read other = if other = name then some [] else disk.read other := by
  by_cases same : other = name
  · simp [read,addFile,SortedMap.find?_insert,same]
  · cases bound : disk.names.find? other with
    | none => simp [read,addFile,SortedMap.find?_insert,same,bound]
    | some number =>
      have known := (disk.current_binds other number bound).1
      simp [read,addFile,SortedMap.find?_insert,same,bound,List.getElem?_append_left known]

theorem read_openFile (disk : Disk ν α) (name other : ν) (truncated : Bool) :
    (disk.openFile name truncated).read other =
      if other = name then some (if truncated then [] else (disk.read name).getD []) else disk.read other := by
  unfold openFile
  cases found : disk.names.find? name with
  | none => simp [read_addFile,read_eq_none_iff.mpr found]
  | some file =>
    have known := (disk.current_binds name file found).1
    cases truncated with
    | true => simp [read_setFile disk found,known]
    | false =>
      by_cases same : other = name
      · simp [same,read_bound found,known]
      · simp [same]

theorem openFile_bound (disk : Disk ν α) (name : ν) (truncated : Bool) :
    ∃ file, (disk.openFile name truncated).names.find? name = some file := by
  unfold openFile
  cases found : disk.names.find? name with
  | none => exact ⟨disk.files.length,by simp [addFile,SortedMap.find?_insert]⟩
  | some file => cases truncated <;> exact ⟨file,found⟩

theorem find?_openFile (disk : Disk ν α) (name : ν) (truncated : Bool) {other : ν} (differ : other ≠ name) :
    (disk.openFile name truncated).names.find? other = disk.names.find? other := by
  unfold openFile
  cases disk.names.find? name with
  | none => simp [addFile,SortedMap.find?_insert,differ]
  | some file => cases truncated <;> rfl

theorem openFile_emptied (bound : (disk.openFile name true).names.find? name = some file) :
    (disk.openFile name true).files[file]? = some ⟨[],false⟩ := by
  unfold openFile at bound ⊢
  cases found : disk.names.find? name with
  | none =>
    simp only [found, addFile, SortedMap.find?_insert, if_true, Option.some.injEq] at bound
    simp [addFile,← bound]
  | some number =>
    simp only [found, if_true, setFile, Option.some.injEq] at bound
    have known := (disk.current_binds name number found).1
    simp [setFile,← bound,known]

theorem read_append (disk : Disk ν α) (found : disk.names.find? name = some file) (data : List α) (other : ν) :
    (disk.append file data).read other = if other = name then some ((disk.read name).getD [] ++ data) else disk.read other := by
  have known := (disk.current_binds name file found).1
  simp [append,read_setFile disk found,read_bound found,known]

@[simp] theorem names_syncFile (disk : Disk ν α) (name : ν) : (disk.syncFile name).names = disk.names := by
  unfold syncFile
  cases disk.names.find? name <;> rfl

@[simp] theorem read_syncFile (disk : Disk ν α) (name other : ν) : (disk.syncFile name).read other = disk.read other := by
  unfold syncFile
  cases found : disk.names.find? name with
  | none => rfl
  | some file =>
    by_cases same : other = name
    · simp [read_setFile disk found,same,read_bound found]
    · simp [read_setFile disk found,same]

@[simp] theorem read_syncNames (disk : Disk ν α) (name : ν) : disk.syncNames.read name = disk.read name := rfl

theorem read_remove (disk : Disk ν α) (name other : ν) :
    (disk.remove name).read other = if other = name then none else disk.read other := by
  by_cases same : other = name <;> simp [read,remove,SortedMap.find?_erase,same]

theorem rename_names {source : ν} (found : disk.names.find? source = some file) (target : ν) :
    (disk.rename source target).names = (disk.names.erase source).insert target file ∧
      (disk.rename source target).past = disk.names :: disk.past ∧ (disk.rename source target).files = disk.files := by
  unfold rename
  split
  case h_1 missing => simp [found] at missing
  case h_2 number bound =>
    obtain rfl := Option.some.inj (found.symm.trans bound)
    exact ⟨rfl,rfl,rfl⟩

theorem rename_unbound {source : ν} (unbound : disk.names.find? source = none) (target : ν) :
    disk.rename source target = disk := by
  unfold rename
  split
  · rfl
  case h_2 number bound => simp [unbound] at bound

theorem read_rename {source target : ν} (found : disk.names.find? source = some file) (other : ν) :
    (disk.rename source target).read other =
      if other = target then disk.read source else if other = source then none else disk.read other := by
  obtain ⟨names,-,files⟩ := rename_names found target
  rw [read, names, files, SortedMap.find?_insert, SortedMap.find?_erase]
  by_cases same : other = target
  · simp [same,read,found]
  · rw [if_neg same, if_neg same]
    by_cases gone : other = source
    · rw [if_pos gone, if_pos gone, Option.bind_none]
    · rw [if_neg gone, if_neg gone, read]

end

end Disk
