import Scaffold.Error

/-!
# File systems

What the program needs of a file system. The operations run in any monad: on the files of a computer
or on a model of a directory tree.
-/

namespace Scaffold

/-- A file system, with the operations on it. -/
structure FileSystem (m : Type → Type) where
  /-- Something is at the path. -/
  isThere (path : Path) : m Bool
  /-- A directory is at the path. -/
  isDirectory (path : Path) : m Bool
  /-- The content of a file. -/
  readText (path : Path) : ExceptT Fault m String
  /-- Writes a file in place of what was there; its directory has to be there. -/
  writeText (path : Path) (content : String) : ExceptT Fault m Unit
  /-- Writes to the end of a file, which need not be there; its directory has to be. -/
  appendText (path : Path) (content : String) : ExceptT Fault m Unit
  /-- Makes a directory and those above it. -/
  makeDirectories (path : Path) : ExceptT Fault m Unit
  /-- The names of what is in a directory, in any order. -/
  listDirectory (path : Path) : ExceptT Fault m (List String)

end Scaffold
