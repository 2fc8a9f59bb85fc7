import Scaffold.Config.Basic
import Scaffold.Storage.Basic
import Scaffold.Text.Split

/-!
# Storage in memory

A project held as a map from paths to contents. Paths are keys by their components, so that another
spelling of a path finds the same file; the spelling under which a file was first written stays.
Directories are remembered but not needed: a file may be written where no directory is.

Main statement: a file reads as it was last written, and writing leaves all others alone
(`file?_put`).
-/

namespace Scaffold

/-- A project in memory. -/
structure Memory where
  /-- The places of the generated files. -/
  paths : Paths := {}
  /-- The tables that the database has. -/
  tables : List String := []
  /-- The files with their contents, in the order in which they were first written. -/
  files : List (Path × String) := []
  /-- The directories that were asked for. -/
  directories : List Path := []
  deriving DecidableEq, Repr, Inhabited

namespace Memory

/-! ## Files -/

/-- The content of the file at a path among `files`. -/
def lookup (path : Path) : List (Path × String) → Option String
  | [] => none
  | (key, content) :: rest => if key.same path then some content else lookup path rest

/-- The files with the content of one of them replaced, or with one more at the end. -/
def insert (path : Path) (content : String) : List (Path × String) → List (Path × String)
  | [] => [(path, content)]
  | (key, old) :: rest =>
    if key.same path then (key, content) :: rest else (key, old) :: insert path content rest

/-- The content of a file. -/
def file? (memory : Memory) (path : Path) : Option String :=
  lookup path memory.files

/-- The project after a file was written. -/
def put (memory : Memory) (path : Path) (content : String) : Memory :=
  { memory with files := insert path content memory.files }

/-- The paths of the files, in the order of paths. -/
def filePaths (memory : Memory) : List Path :=
  (memory.files.map Prod.fst).mergeSort Path.notAfter

/-- The directory was asked for. -/
def hasDirectory (memory : Memory) (path : Path) : Bool :=
  memory.directories.any (·.same path)

/-- The file lies directly in the directory. -/
def liesIn (directory path : Path) : Bool :=
  (path.parent?.map (·.same directory)).getD false

/-- The names of the files of a kind that contain `pattern`, in the order of their paths. -/
def artifacts (memory : Memory) (kind : ArtifactKind) (pattern : String) : List String :=
  match memory.paths.directoryOf kind with
  | none => []
  | some directory =>
    ((memory.filePaths.filter (liesIn directory)).filterMap Path.fileName?).filter
      fun name => Text.contains name pattern

/-- The project after the directory was asked for. -/
def makeDirectory (memory : Memory) (path : Path) : Memory :=
  if memory.hasDirectory path then memory
  else { memory with directories := memory.directories ++ [path] }

/-- The project after lines were written to the end of a file. -/
def appendTo (memory : Memory) (path : Path) (lines : List String) : Memory :=
  memory.put path ((memory.file? path).getD "" ++ appendBlock lines)

/-! ## The storage -/

/-- The operations of a storage on a project in memory; none of them fails. -/
def storage : Storage (StateM Memory) where
  tableExists table := ExceptT.mk do return .ok ((← get).tables.contains table)
  listArtifacts kind pattern := ExceptT.mk do return .ok ((← get).artifacts kind pattern)
  read path := ExceptT.mk do return .ok ((← get).file? path)
  write path content := ExceptT.mk do modify (·.put path content); return .ok ()
  append path lines := ExceptT.mk do modify (·.appendTo path lines); return .ok ()
  ensureDirectory path := ExceptT.mk do modify (·.makeDirectory path); return .ok ()

/-! ## Laws -/

/-- A file is found where it was inserted, and the others where they were. -/
theorem lookup_insert (path other : Path) (content : String) (files : List (Path × String)) :
    lookup other (insert path content files) =
      if path.same other then some content else lookup other files := by
  induction files with
  | nil => simp [insert, lookup]
  | cons entry rest ih =>
    obtain ⟨key, old⟩ := entry
    rw [insert]
    by_cases hkey : key.same path = true
    · have hsame : path.same other = key.same other := by
        rw [Path.same_iff] at hkey
        rw [Path.same, Path.same, hkey]
      rw [if_pos hkey, lookup, lookup, hsame]
      split <;> rfl
    · rw [if_neg hkey, lookup, lookup, ih]
      by_cases hother : key.same other = true
      · have hne : ¬path.same other = true := by
          rw [Path.same_iff] at hkey hother ⊢
          exact fun h => hkey (hother.trans h.symm)
        rw [if_pos hother, if_neg hne, if_pos hother]
      · rw [if_neg hother, if_neg hother]

/-- A file reads as it was last written, and all other files read as before. -/
theorem file?_put (memory : Memory) (path other : Path) (content : String) :
    (memory.put path content).file? other =
      if path.same other then some content else memory.file? other :=
  lookup_insert path other content memory.files

end Memory

end Scaffold
