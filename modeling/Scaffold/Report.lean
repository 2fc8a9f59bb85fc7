import Scaffold.Artifact.Kind

/-!
# Reports

A report has a line for each decision of a generation, in the order in which they were made: what
was written, what was left out, what went wrong.
-/

namespace Scaffold

/-- What became of something. -/
inductive Status where
  /-- It was written. -/
  | created
  /-- It was added to. -/
  | updated
  /-- It was left out. -/
  | skipped
  /-- It would be written. -/
  | planned
  /-- It was passed over, and needs attention. -/
  | warning
  /-- It failed. -/
  | failed
  deriving DecidableEq, Repr, Inhabited

namespace Status

/-- The statuses in the order in which they are counted. -/
def all : List Status :=
  [.created, .updated, .skipped, .planned, .warning, .failed]

/-- The sign in front of a line. -/
def icon : Status → String
  | .created | .updated => "✅"
  | .planned => "📝"
  | .skipped | .warning => "⚠️ "
  | .failed => "❌"

/-- The status in words. -/
def verb : Status → String
  | .created => "Created"
  | .updated => "Updated"
  | .skipped => "Skipped"
  | .planned => "Would write"
  | .warning => "Warning"
  | .failed => "Failed"

end Status

/-- A line of a report. -/
structure ReportLine where
  /-- What became of the subject. -/
  status : Status
  /-- The kind of artifact that the line is about, if it is about one. -/
  kind : Option ArtifactKind
  /-- A file, or the name of an entity. -/
  subject : String
  /-- More about it. -/
  detail : Option String
  deriving DecidableEq, Repr, Inhabited

/-- The line as it is shown. -/
def ReportLine.display (line : ReportLine) : String :=
  let kind := match line.kind with
    | some kind => " " ++ kind.label
    | none => ""
  let detail := match line.detail with
    | some detail => ": " ++ detail
    | none => ""
  line.status.icon ++ " " ++ line.status.verb ++ kind ++ " " ++ line.subject ++ detail

/-- The lines of a report, in their order. -/
structure Report where
  /-- The lines. -/
  lines : List ReportLine := []
  deriving DecidableEq, Repr, Inhabited

namespace Report

/-- The number of lines with a status. -/
def count (report : Report) (status : Status) : Nat :=
  report.lines.countP fun line => line.status == status

/-- Something failed. -/
def hasFailures (report : Report) : Bool :=
  0 < report.count .failed

/-- The line below the report, which counts what happened. -/
def summary (report : Report) : String :=
  s!"📋 {report.count .created} created, {report.count .updated} updated, " ++
    s!"{report.count .skipped} skipped, {report.count .warning} warning(s)"

/-- The report as it is printed. -/
def printed (report : Report) : String :=
  String.join (report.lines.map fun line => line.display ++ "\n") ++ "\n" ++ report.summary ++ "\n"

end Report

end Scaffold
