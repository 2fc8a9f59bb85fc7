import Scaffold.Output
import Scaffold.Report
import Scaffold.Route.Merge

/-!
# Writing outputs

Each output is written to the storage, or, in a dry run, only looked at. Either way it comes to an
outcome, which becomes a line of the report. A dry run has to know what earlier outputs would have
added to a file; it keeps the expected contents of the files that are merged into.

The first output that fails ends the writing, and the report keeps the lines of those before it.
-/

namespace Scaffold

/-- What became of an output. -/
structure Outcome where
  /-- What became of it. -/
  status : Status
  /-- More about it. -/
  detail : Option String := none
  deriving DecidableEq, Repr, Inhabited

namespace Outcome

/-- The file has an owner already. -/
def kept : Outcome where
  status := .skipped
  detail := some "already exists"

/-- Lines were added to a file, or would be; `status` tells which. -/
def ofLines (status : Status) (added : List String) : Outcome :=
  if added.isEmpty then ⟨.skipped, some "all lines already present"⟩
  else ⟨status, some s!"{added.length} line(s)"⟩

/-- The line of the report. -/
def line (outcome : Outcome) (kind : ArtifactKind) (path : Path) : ReportLine where
  status := outcome.status
  kind := some kind
  subject := path.text
  detail := outcome.detail

end Outcome

namespace Emission

variable {m : Type → Type} [Monad m]

/-! ## One output -/

/-- Writes an output. -/
def deliver (storage : Storage m) : Output → ExceptT Error m Outcome
  | .file path content => do
    storage.ensureParent path
    storage.write path content
    return ⟨.created, none⟩
  | .starter path content => do
    if (← storage.read path).isSome then return .kept
    storage.ensureParent path
    storage.write path content
    return ⟨.created, none⟩
  | .lines path lines => do
    let merged ← Route.merge storage path lines
    return .ofLines .updated merged.appended

/-- The contents that files are expected to have after the outputs before. -/
abbrev Expected := List (Path × String)

namespace Expected

/-- The expected content of a file. -/
def content? (path : Path) : Expected → Option String
  | [] => none
  | (key, content) :: rest => if key.same path then some content else content? path rest

/-- The expectations with the content of one file changed, or with one more file. -/
def set (path : Path) (content : String) : Expected → Expected
  | [] => [(path, content)]
  | (key, old) :: rest =>
    if key.same path then (key, content) :: rest else (key, old) :: set path content rest

end Expected

/-- The content with the lines at its end, each after a line feed. -/
def withLines (content : String) (lines : List String) : String :=
  content ++ String.join (lines.map fun line => "\n" ++ line)

/-- The content that a file is expected to have; the storage knows it if no output has met it. -/
def expectedContent (storage : Storage m) (expected : Expected) (path : Path) :
    ExceptT Error m String :=
  match expected.content? path with
  | some content => pure content
  | none => return (← storage.read path).getD ""

/-- What would become of an output, and the contents expected after it. -/
def preview (storage : Storage m) (expected : Expected) :
    Output → ExceptT Error m (Outcome × Expected)
  | .file _ _ => return (⟨.planned, none⟩, expected)
  | .starter path _ => do
    if (← storage.read path).isSome then return (.kept, expected)
    return (⟨.planned, none⟩, expected)
  | .lines path lines => do
    let content ← expectedContent storage expected path
    let added := Route.missing content lines
    return (.ofLines .planned added, expected.set path (withLines content added))

/-- Writes an output, or looks at it in a dry run. -/
def emit (storage : Storage m) (dryRun : Bool) (expected : Expected) (output : Output) :
    ExceptT Error m (Outcome × Expected) :=
  if dryRun then preview storage expected output
  else return (← deliver storage output, expected)

/-! ## All outputs -/

/-- Writes the outputs, or looks at them in a dry run: the lines of the report, and how it ended. -/
def emitAll (storage : Storage m) (dryRun : Bool) (expected : Expected) :
    List (ArtifactKind × Output) → m (List ReportLine × Except Error Unit)
  | [] => return ([], .ok ())
  | (kind, output) :: rest => do
    match ← (emit storage dryRun expected output).run with
    | .error e => return ([], .error e)
    | .ok (outcome, expected) =>
      let (lines, result) ← emitAll storage dryRun expected rest
      return (outcome.line kind output.path :: lines, result)

end Emission

end Scaffold
