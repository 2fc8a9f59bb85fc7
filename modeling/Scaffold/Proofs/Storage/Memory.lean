import Mathlib.Tactic.SplitIfs
import Scaffold.Proofs.Action
import Scaffold.Storage.Memory

/-!
# Operations on a project in memory

`exec` is what an operation comes to on a project in memory, together with the project after it; it
follows the operation step by step (`exec_bind_ok`). A project only ever grows: its places and
tables stay, and so does the path under which a file was first written (`Extends`). Writing to a
path adds that path unless the file is there (`keys_put`).
-/

namespace Scaffold

namespace Memory

/-! ## Running an operation -/

section exec

variable {α β : Type} {memory after : Memory}

/-- What an operation comes to on a project, and the project after it. -/
def exec (memory : Memory) (action : ExceptT Error (StateM Memory) α) : Except Error α × Memory :=
  action.run.run memory

/-- A result that is there already changes nothing. -/
theorem exec_pure (memory : Memory) (a : α) :
    memory.exec (pure a : ExceptT Error (StateM Memory) α) = (.ok a, memory) :=
  perform_pure a memory

/-- After a success the next action runs in the memory that was left. -/
theorem exec_bind_ok {action : ExceptT Error (StateM Memory) α}
    {next : α → ExceptT Error (StateM Memory) β} {a : α} (h : memory.exec action = (.ok a, after)) :
    memory.exec (action >>= next) = after.exec (next a) :=
  perform_bind_ok h

/-- After a failure nothing more runs. -/
theorem exec_bind_error {action : ExceptT Error (StateM Memory) α}
    {next : α → ExceptT Error (StateM Memory) β} {e : Error}
    (h : memory.exec action = (.error e, after)) :
    memory.exec (action >>= next) = (.error e, after) :=
  perform_bind_error h

/-- An action whose failure is caught has its result as a value. -/
theorem exec_lift_run {action : ExceptT Error (StateM Memory) α} {result : Except Error α}
    (h : memory.exec action = (result, after)) :
    memory.exec (ExceptT.lift action.run : ExceptT Error (StateM Memory) (Except Error α)) =
      (.ok result, after) :=
  perform_lift_run h

/-- Reading gives the file and changes nothing. -/
theorem exec_read (memory : Memory) (path : Path) :
    memory.exec (storage.read path) = (.ok (memory.file? path), memory) := rfl

/-- Writing puts the content at the path. -/
theorem exec_write (memory : Memory) (path : Path) (content : String) :
    memory.exec (storage.write path content) = (.ok (), memory.put path content) := rfl

/-- Appending adds the lines to the file. -/
theorem exec_append (memory : Memory) (path : Path) (lines : List String) :
    memory.exec (storage.append path lines) = (.ok (), memory.appendTo path lines) := rfl

/-- The project after the directory of a file was asked for. -/
def makeParent (memory : Memory) (path : Path) : Memory :=
  (path.directory?.map memory.makeDirectory).getD memory

/-- Making the directory above a path never fails. -/
theorem exec_ensureParent (memory : Memory) (path : Path) :
    memory.exec (storage.ensureParent path) = (.ok (), memory.makeParent path) := by
  unfold Storage.ensureParent makeParent
  cases path.directory? <;> rfl

end exec

/-! ## Files -/

/-- The paths under which the files were first written, in that order. -/
def keys (memory : Memory) : List Path :=
  memory.files.map Prod.fst

/-- The paths are listed in order. -/
theorem filePaths_eq_mergeSort_keys (memory : Memory) :
    memory.filePaths = memory.keys.mergeSort Path.notAfter := rfl

/-- A file is found exactly if some key spells its path. -/
theorem lookup_isSome_iff {path : Path} {files : List (Path × String)} :
    (lookup path files).isSome = true ↔ ∃ key ∈ files.map Prod.fst, key.same path = true := by
  induction files with
  | nil => simp [lookup]
  | cons entry rest ih =>
    obtain ⟨key, content⟩ := entry
    rw [lookup]
    by_cases hkey : key.same path = true
    · simp [hkey]
    · rw [if_neg hkey, ih]
      simp [hkey]

/-- A file is there if its path is among the keys, in some spelling. -/
theorem file?_isSome_iff {memory : Memory} {path : Path} :
    (memory.file? path).isSome = true ↔ ∃ key ∈ memory.keys, key.same path = true :=
  lookup_isSome_iff

/-- Two spellings of a path find the same file. -/
theorem lookup_congr {path other : Path} (h : path.same other = true)
    (files : List (Path × String)) : lookup path files = lookup other files := by
  induction files with
  | nil => rfl
  | cons entry rest ih =>
    obtain ⟨key, content⟩ := entry
    have hsame : key.same path = key.same other := by
      unfold Path.same
      rw [Path.same_iff.mp h]
    rw [lookup, lookup, hsame, ih]

/-- A file is found under any spelling of its path. -/
theorem file?_congr {path other : Path} (h : path.same other = true) (memory : Memory) :
    memory.file? path = memory.file? other :=
  lookup_congr h memory.files

/-- A new file adds its path at the end, and an old one keeps the path it has. -/
theorem keys_insert (path : Path) (content : String) (files : List (Path × String)) :
    (insert path content files).map Prod.fst =
      if (lookup path files).isSome then files.map Prod.fst
      else files.map Prod.fst ++ [path] := by
  induction files with
  | nil => rfl
  | cons entry rest ih =>
    obtain ⟨key, old⟩ := entry
    rw [insert, lookup]
    by_cases hkey : key.same path = true
    · simp [hkey]
    · rw [if_neg hkey, if_neg hkey, List.map_cons, ih]
      split_ifs <;> rfl

/-- Writing to a path adds it unless the file is there. -/
theorem keys_put (memory : Memory) (path : Path) (content : String) :
    (memory.put path content).keys =
      if (memory.file? path).isSome then memory.keys else memory.keys ++ [path] :=
  keys_insert path content memory.files

/-! ## Directories -/

section makeParent

variable (memory : Memory) (path other : Path)

/-- Making a directory changes the directories alone. -/
theorem makeDirectory_eq :
    ∃ directories, memory.makeDirectory path = { memory with directories } := by
  unfold makeDirectory
  split_ifs
  · exact ⟨memory.directories, rfl⟩
  · exact ⟨_, rfl⟩

/-- Only the directories change when one is asked for. -/
theorem makeParent_eq : ∃ directories, memory.makeParent path = { memory with directories } := by
  unfold makeParent
  cases path.directory? with
  | none => exact ⟨memory.directories, rfl⟩
  | some directory => exact memory.makeDirectory_eq directory

/-- The configured paths stay when the directory above a file is made. -/
@[simp] theorem paths_makeParent : (memory.makeParent path).paths = memory.paths := by
  obtain ⟨directories, h⟩ := memory.makeParent_eq path
  rw [h]

/-- So do the tables. -/
@[simp] theorem tables_makeParent : (memory.makeParent path).tables = memory.tables := by
  obtain ⟨directories, h⟩ := memory.makeParent_eq path
  rw [h]

/-- So do the paths of the files. -/
@[simp] theorem keys_makeParent : (memory.makeParent path).keys = memory.keys := by
  obtain ⟨directories, h⟩ := memory.makeParent_eq path
  rw [h]
  rfl

/-- So do their texts. -/
@[simp] theorem file?_makeParent : (memory.makeParent path).file? other = memory.file? other := by
  obtain ⟨directories, h⟩ := memory.makeParent_eq path
  rw [h]
  rfl

end makeParent

/-! ## Growth -/

/-- The project `after` has the places, the tables and the files of `before`, and maybe more files;
what is in the files is left open. -/
structure Extends (before after : Memory) : Prop where
  /-- The places are the same. -/
  paths : after.paths = before.paths
  /-- The tables are the same. -/
  tables : after.tables = before.tables
  /-- The files that were there are there, under the same paths. -/
  keys : before.keys <+: after.keys

namespace Extends

/-- A memory extends itself. -/
theorem refl (memory : Memory) : Extends memory memory :=
  ⟨rfl, rfl, List.prefix_rfl⟩

/-- An extension of an extension is one. -/
theorem trans {a b c : Memory} (hab : Extends a b) (hbc : Extends b c) : Extends a c :=
  ⟨hbc.paths.trans hab.paths, hbc.tables.trans hab.tables, hab.keys.trans hbc.keys⟩

/-- No file is missing from what a project grows into. -/
theorem isSome_file? {before after : Memory} (h : Extends before after) {path : Path}
    (hthere : (before.file? path).isSome = true) : (after.file? path).isSome = true := by
  rw [file?_isSome_iff] at hthere ⊢
  obtain ⟨key, hkey, hsame⟩ := hthere
  exact ⟨key, h.keys.subset hkey, hsame⟩

end Extends

/-! ## Artifacts -/

/-- The listed paths are the keys of the memory. -/
theorem mem_filePaths {memory : Memory} {path : Path} :
    path ∈ memory.filePaths ↔ path ∈ memory.keys := by
  rw [filePaths_eq_mergeSort_keys]
  exact (List.mergeSort_perm _ _).mem_iff

/-- An artifact is listed if it lies in the directory of its kind and its name contains the pattern.
-/
theorem mem_artifacts {memory : Memory} {kind : ArtifactKind} {pattern name : String} :
    name ∈ memory.artifacts kind pattern ↔
      ∃ directory, memory.paths.directoryOf kind = some directory ∧
        ∃ key ∈ memory.keys, liesIn directory key = true ∧ key.fileName? = some name ∧
          Text.contains name pattern = true := by
  unfold artifacts
  cases memory.paths.directoryOf kind with
  | none => simp
  | some directory =>
    simp only [List.mem_filter, List.mem_filterMap, mem_filePaths,
      Option.some.injEq, exists_eq_left']
    constructor
    · rintro ⟨⟨key, ⟨hkey, hlies⟩, hname⟩, hcontains⟩
      exact ⟨key, hkey, hlies, hname, hcontains⟩
    · rintro ⟨key, hkey, hlies, hname, hcontains⟩
      exact ⟨⟨key, ⟨hkey, hlies⟩, hname⟩, hcontains⟩

/-- What is found in a project is found in every project that it grows into. -/
theorem Extends.mem_artifacts {before after : Memory} (h : Extends before after)
    {kind : ArtifactKind} {pattern name : String} (hname : name ∈ before.artifacts kind pattern) :
    name ∈ after.artifacts kind pattern := by
  rw [Memory.mem_artifacts] at hname ⊢
  obtain ⟨directory, hdirectory, key, hkey, hrest⟩ := hname
  exact ⟨directory, by rw [h.paths, hdirectory], key, h.keys.subset hkey, hrest⟩

end Memory

end Scaffold
