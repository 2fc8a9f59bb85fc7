import Scaffold.Error

/-!
# Storage

What a generation needs of the place it writes to: six operations, each of which may fail. The
operations run in any monad, so that one and the same generation works on real files, on a map in
memory, on a model of a directory tree, and on a storage that fails on purpose.
-/

namespace Scaffold

/-- A place for generated files, with the operations on it. -/
structure Storage (m : Type → Type) where
  /-- The database has the table. -/
  tableExists (table : String) : ExceptT Error m Bool
  /-- The names of the files of a kind that contain `pattern`, in order. -/
  listArtifacts (kind : ArtifactKind) (pattern : String) : ExceptT Error m (List String)
  /-- The content of a file; `none` if there is none. -/
  read (path : Path) : ExceptT Error m (Option String)
  /-- Writes a file in place of what was there. -/
  write (path : Path) (content : String) : ExceptT Error m Unit
  /-- Writes lines to the end of a file. -/
  append (path : Path) (lines : List String) : ExceptT Error m Unit
  /-- Makes a directory and those above it. -/
  ensureDirectory (path : Path) : ExceptT Error m Unit

/-- What appending lines adds to a file: a blank line's worth of distance, then the lines. -/
def appendBlock (lines : List String) : String :=
  "\n" ++ "\n".intercalate lines ++ "\n"

/-- Makes the directory that the file needs, unless that is the current one. -/
def Storage.ensureParent {m : Type → Type} [Monad m] (storage : Storage m) (path : Path) :
    ExceptT Error m Unit :=
  match path.directory? with
  | some directory => storage.ensureDirectory directory
  | none => pure ()

end Scaffold
