import Scaffold.Storage.Basic

/-!
# A storage that refuses

Another storage, of which some calls are refused. A refused call fails without any effect; all
others go through.
-/

namespace Scaffold

/-- An operation of a storage. -/
inductive StorageOperation where
  /-- The question for a table. -/
  | tableExists
  /-- The question for the files of a kind. -/
  | listArtifacts
  /-- Reading a file. -/
  | read
  /-- Writing a file. -/
  | write
  /-- Appending to a file. -/
  | append
  /-- Making a directory. -/
  | ensureDirectory
  deriving DecidableEq, Repr, Inhabited

namespace Storage

variable {m : Type → Type} [Monad m]

/-- `call`, unless it is refused; the error names what the call was about. -/
def unlessRefused {α : Type} (refused : Bool) (subject reason : String) (call : ExceptT Error m α) :
    ExceptT Error m α :=
  if refused then throw (.io ⟨subject⟩ (.other reason)) else call

/-- The storage without the calls that `refuses` picks by their operation and by what they are
about: a table, a pattern or a path. -/
def denying (refuses : StorageOperation → String → Bool) (reason : String)
    (storage : Storage m) : Storage m where
  tableExists table :=
    unlessRefused (refuses .tableExists table) table reason (storage.tableExists table)
  listArtifacts kind pattern :=
    unlessRefused (refuses .listArtifacts pattern) pattern reason
      (storage.listArtifacts kind pattern)
  read path := unlessRefused (refuses .read path.text) path.text reason (storage.read path)
  write path content :=
    unlessRefused (refuses .write path.text) path.text reason (storage.write path content)
  append path lines :=
    unlessRefused (refuses .append path.text) path.text reason (storage.append path lines)
  ensureDirectory path :=
    unlessRefused (refuses .ensureDirectory path.text) path.text reason
      (storage.ensureDirectory path)

end Storage

end Scaffold
