import Scaffold.Config.Basic
import Scaffold.FileSystem.Basic
import Scaffold.Storage.Basic
import Scaffold.Text.Split

/-!
# Storage in files

A project in a directory of a file system. The paths of a storage are seen from the root of the
project; errors name the path as seen from where the program runs. Which tables the database has is
for the configuration to say.
-/

namespace Scaffold.Storage

variable {m : Type → Type} [Monad m]

/-- The result of an operation on the file at `path`, whose fault names the path. -/
def atPath {α : Type} (path : Path) (operation : ExceptT Fault m α) : ExceptT Error m α :=
  ExceptT.mk do return (← operation.run).mapError (Error.io path)

/-- The content of the file at `path`; that nothing is there is no fault. -/
def readIfThere (files : FileSystem m) (path : Path) : ExceptT Error m (Option String) :=
  ExceptT.mk do
    match ← (files.readText path).run with
    | .ok content => return .ok (some content)
    | .error .notFound => return .ok none
    | .error fault => return .error (.io path fault)

/-- The storage in the directory `root` of a file system. -/
def inFiles (files : FileSystem m) (root : Path) (config : Config) : Storage m where
  tableExists table := pure (config.existingTables.contains table)
  listArtifacts kind pattern :=
    match config.paths.directoryOf kind with
    | none => pure []
    | some directory => do
      let path := root.join directory
      if ← ExceptT.lift (files.isDirectory path) then
        let names ← atPath path (files.listDirectory path)
        return (names.filter fun name => Text.contains name pattern).mergeSort
      else return []
  read path := readIfThere files (root.join path)
  write path content := atPath (root.join path) (files.writeText (root.join path) content)
  append path lines :=
    atPath (root.join path) (files.appendText (root.join path) (appendBlock lines))
  ensureDirectory path := atPath (root.join path) (files.makeDirectories (root.join path))

end Scaffold.Storage
