import Scaffold.Proofs.Generation.Interruption
import Scaffold.Proofs.Generation.Reading

/-!
# What a report accounts for

A report has a line for every decision of its run, in the order in which the stages made them, and
no other: for relations that were rejected (`Warns`), for artifacts that were left out (`Omits`),
for outputs (`Reports`). If the run fails, the report breaks off where the run did, and one more
line says why (`Fails`). Main statement: `accounts_run`, with any storage, planner and renderer, in
a dry run and in a real one.

An output that goes through is written, planned or skipped, and never reported as a failure
(`yields_emit`). The outputs have their lines from the first one on (`exists_reports_emitAll`); what
the stages before them have reported is known from `Stops` and `Reaches`.
-/

namespace Scaffold

variable {σ : Type}

/-! ## What can become of an output -/

/-- What can become of an output that goes through, in a dry run and in a real one. -/
def Status.ofOutputs (dryRun : Bool) : List Status :=
  if dryRun then [.planned, .skipped] else [.created, .updated, .skipped]

/-- The status of an output is never that of a failure. -/
theorem Status.ne_failed_of_mem_ofOutputs {dryRun : Bool} {status : Status}
    (h : status ∈ ofOutputs dryRun) : status ≠ .failed := by
  rintro rfl
  cases dryRun <;> exact absurd h (by decide)

/-- A route file gets the status for changes or, if no line is added, that of a skip. -/
theorem Outcome.status_ofLines_mem {statuses : List Status} {status : Status}
    (hstatus : status ∈ statuses) (hskipped : .skipped ∈ statuses) (added : List String) :
    (ofLines status added).status ∈ statuses := by
  unfold ofLines
  split_ifs
  · exact hskipped
  · exact hstatus

/-! ## One line -/

namespace ReportLine

/-- The line is the warning that the kind of a relation is unknown. -/
structure Warns (description : Description) (relation : UnknownRelation) (line : ReportLine) :
    Prop where
  /-- The line is a warning. -/
  status : line.status = .warning
  /-- The line is about no artifact. -/
  kind : line.kind = none
  /-- The line is about the entity that was described. -/
  subject : line.subject = description.name
  /-- The line says which kind of which relation is unknown. -/
  detail : line.detail = some (Error.unknownRelation relation).message

/-- The line is the one on an artifact that was left out. -/
structure Omits (skipped : Skipped) (line : ReportLine) : Prop where
  /-- The line says that the artifact was left out. -/
  status : line.status = .skipped
  /-- The line has the kind of the artifact. -/
  kind : line.kind = some skipped.kind
  /-- The line is about the entity of the artifact. -/
  subject : line.subject = skipped.entity
  /-- The line says why. -/
  detail : line.detail = some skipped.reason

/-- The line is the one on an output: it has its kind and its path, and says what became of it. -/
structure Reports (dryRun : Bool) (entry : ArtifactKind × Output) (line : ReportLine) : Prop where
  /-- The line has the kind of the artifact. -/
  kind : line.kind = some entry.1
  /-- The line is about the file that the output is for. -/
  subject : line.subject = entry.2.path.text
  /-- The line says what can become of an output. -/
  status : line.status ∈ Status.ofOutputs dryRun

/-- The line is the one on the failure of a request. -/
structure Fails (request : Request) (e : Error) (line : ReportLine) : Prop where
  /-- The line says that the request failed. -/
  status : line.status = .failed
  /-- The line is about no artifact. -/
  kind : line.kind = none
  /-- The line is about the entity that was asked for, without the blanks around its name. -/
  subject : line.subject = Text.trim request.entity
  /-- The line has the text of the error. -/
  detail : line.detail = some e.message

/-- Lines on things that did not fail do not say that they did. -/
theorem status_ne_failed_of_forall₂ {α : Type} {IsOn : α → ReportLine → Prop}
    (hstatus : ∀ entry line, IsOn entry line → line.status ≠ .failed) {entries : List α}
    {lines : List ReportLine} (h : List.Forall₂ IsOn entries lines) :
    ∀ line ∈ lines, line.status ≠ .failed := by
  induction h with
  | nil => exact fun _ hline => absurd hline List.not_mem_nil
  | cons hfirst _ ih => exact List.forall_mem_cons.mpr ⟨hstatus _ _ hfirst, ih⟩

/-- A warning is no failure. -/
theorem Warns.status_ne_failed {description : Description} {relation : UnknownRelation}
    {line : ReportLine} (h : line.Warns description relation) : line.status ≠ .failed := by
  rw [h.status]
  exact Status.noConfusion

/-- What is left out is no failure. -/
theorem Omits.status_ne_failed {skipped : Skipped} {line : ReportLine} (h : line.Omits skipped) :
    line.status ≠ .failed := by
  rw [h.status]
  exact Status.noConfusion

/-- The line for an output is no failure. -/
theorem Reports.status_ne_failed {dryRun : Bool} {entry : ArtifactKind × Output}
    {line : ReportLine} (h : line.Reports dryRun entry) : line.status ≠ .failed :=
  Status.ne_failed_of_mem_ofOutputs h.status

end ReportLine

namespace Generator

/-- The warnings are on the relations that were rejected, one on each. -/
theorem forall₂_warningLines (description : Description) :
    List.Forall₂ (ReportLine.Warns description) description.rejected
      (warningLines description) :=
  List.forall₂_map_right_iff.mpr (List.forall₂_same.mpr fun _ _ => ⟨rfl, rfl, rfl, rfl⟩)

/-- The lines after the warnings are on the artifacts that were left out, one on each. -/
theorem forall₂_skippedLines (plan : Plan) :
    List.Forall₂ ReportLine.Omits plan.skipped (skippedLines plan) :=
  List.forall₂_map_right_iff.mpr (List.forall₂_same.mpr fun _ _ => ⟨rfl, rfl, rfl, rfl⟩)

/-- The last line of a run that fails says why. -/
theorem fails_failedLine (request : Request) (e : Error) :
    (failedLine request e).Fails request e :=
  ⟨rfl, rfl, rfl, rfl⟩

end Generator

/-! ## One output -/

namespace Emission

/-- A delivered output has one of the statuses of outputs. -/
theorem yields_deliver (storage : Storage (StateM σ)) (output : Output) :
    Yields (deliver storage output) fun outcome => outcome.status ∈ Status.ofOutputs false := by
  cases output with
  | file path content =>
    refine .bind (.trivial _) fun _ _ => .bind (.trivial _) fun _ _ => .pure ?_
    exact List.mem_cons_self
  | starter path content =>
    refine .bind (.trivial _) fun current _ => ?_
    split_ifs with hthere
    · refine .pure ?_
      decide
    · refine .bind (.trivial _) fun _ _ => .bind (.trivial _) fun _ _ => .pure ?_
      exact List.mem_cons_self
  | lines path wanted =>
    refine .bind (.trivial _) fun merged _ => .pure ?_
    exact Outcome.status_ofLines_mem (by decide) (by decide) merged.appended

/-- A previewed output has one of the statuses of outputs in a dry run. -/
theorem yields_preview (storage : Storage (StateM σ)) (expected : Expected) (output : Output) :
    Yields (preview storage expected output) fun found =>
      found.1.status ∈ Status.ofOutputs true := by
  cases output with
  | file path content => exact .pure List.mem_cons_self
  | starter path content =>
    refine .bind (.trivial _) fun current _ => ?_
    split_ifs with hthere
    · exact .pure (List.mem_cons_of_mem _ List.mem_cons_self)
    · exact .pure List.mem_cons_self
  | lines path wanted =>
    refine .bind (.trivial _) fun content _ => .pure ?_
    exact Outcome.status_ofLines_mem (by decide) (by decide) (Route.missing content wanted)

/-- So has every output that is emitted, in a dry run or in a real one. -/
theorem yields_emit (storage : Storage (StateM σ)) (dryRun : Bool) (expected : Expected)
    (output : Output) :
    Yields (emit storage dryRun expected output) fun found =>
      found.1.status ∈ Status.ofOutputs dryRun := by
  cases dryRun with
  | true => exact yields_preview storage expected output
  | false => exact .bind (yields_deliver storage output) fun outcome h => .pure h

/-! ## All outputs -/

/-- Outputs have lines from the first one on, up to the one that failed, if one did. -/
theorem exists_reports_emitAll {storage : Storage (StateM σ)} {dryRun : Bool} {expected : Expected}
    {outputs : List (ArtifactKind × Output)} {start after : σ} {lines : List ReportLine}
    {result : Except Error Unit}
    (h : (emitAll storage dryRun expected outputs).run start = ((lines, result), after)) :
    ∃ done rest, done ++ rest = outputs ∧ List.Forall₂ (ReportLine.Reports dryRun) done lines ∧
      (rest = [] ↔ result = .ok ()) := by
  induction outputs generalizing expected start lines with
  | nil =>
    cases h
    exact ⟨[], [], rfl, .nil, iff_of_true rfl rfl⟩
  | cons entry others ih =>
    obtain ⟨kind, output⟩ := entry
    rcases hemit : perform (emit storage dryRun expected output) start with ⟨found, middle⟩
    rw [emitAll, run_bind hemit] at h
    cases found with
    | error e =>
      cases h
      exact ⟨[], (kind, output) :: others, rfl, .nil, by simp⟩
    | ok found =>
      obtain ⟨outcome, expected⟩ := found
      rcases hothers : (emitAll storage dryRun expected others).run middle with
        ⟨⟨more, ended⟩, final⟩
      dsimp only at h
      rw [run_bind hothers] at h
      cases h
      obtain ⟨done, rest, rfl, hdone, hrest⟩ := ih hothers
      refine ⟨(kind, output) :: done, rest, rfl, .cons ⟨rfl, rfl, ?_⟩ hdone, hrest⟩
      exact yields_emit storage dryRun _ output start _ middle hemit

end Emission

/-- A report has failures exactly if one of its lines is one. -/
theorem Report.hasFailures_iff {report : Report} :
    report.hasFailures = true ↔ ∃ line ∈ report.lines, line.status = .failed := by
  unfold hasFailures count
  rw [decide_eq_true_iff, List.countP_pos_iff]
  simp only [beq_iff_eq]

/-! ## The whole report -/

namespace Generator

variable (generator : Generator (StateM σ)) (dryRun : Bool) (request : Request) (start : σ)

/-- The lines of a run that fails with `e`, before the line that says so: those that it would have
had without the failure, up to where it happened. -/
inductive BreaksOff : List ReportLine → Error → Prop where
  /-- The request cannot be read, and nothing has been decided. -/
  | parse {cause : ParseError} (hdescribe : request.describe = .error cause) :
      BreaksOff [] (.parse cause)
  /-- The planning fails: relations may have been rejected. -/
  | plan {description : Description} {warnings : List ReportLine} {e : Error} {after : σ}
      (hdescribe : request.describe = .ok description)
      (hplan : perform (generator.planner.plan generator.storage generator.timestamp
        description.root.expand) start = (.error e, after))
      (hwarnings : List.Forall₂ (ReportLine.Warns description) description.rejected warnings) :
      BreaksOff warnings e
  /-- An artifact of the plan cannot be rendered: some may have been left out. -/
  | render {description : Description} {plan : Plan} {warnings omissions : List ReportLine}
      {e : Error} {after : σ} (hdescribe : request.describe = .ok description)
      (hplan : perform (generator.planner.plan generator.storage generator.timestamp
        description.root.expand) start = (.ok plan, after))
      (hrender : renderAll generator.renderer plan.artifacts = .error e)
      (hwarnings : List.Forall₂ (ReportLine.Warns description) description.rejected warnings)
      (homissions : List.Forall₂ ReportLine.Omits plan.skipped omissions) :
      BreaksOff (warnings ++ omissions) e
  /-- The run fails at one of its outputs: those before it have gone through. -/
  | emit {description : Description} {plan : Plan} {done rest : List (ArtifactKind × Output)}
      {planned : σ} {warnings omissions lines : List ReportLine} {e : Error}
      (hreaches : generator.Reaches request start description plan (done ++ rest) planned)
      (hrest : rest ≠ [])
      (hwarnings : List.Forall₂ (ReportLine.Warns description) description.rejected warnings)
      (homissions : List.Forall₂ ReportLine.Omits plan.skipped omissions)
      (hlines : List.Forall₂ (ReportLine.Reports dryRun) done lines) :
      BreaksOff (warnings ++ omissions ++ lines) e

/-- The report accounts for the run that came to it. -/
structure Accounts (outcome : Report × Except Error Generated) : Prop where
  /-- If the run ends well, the report has its warnings, what was left out, and all outputs. -/
  ends : ∀ generated, outcome.2 = .ok generated →
    ∃ description outputs planned warnings omissions lines,
      generator.Reaches request start description generated.plan outputs planned ∧
        List.Forall₂ (ReportLine.Warns description) description.rejected warnings ∧
        List.Forall₂ ReportLine.Omits generated.plan.skipped omissions ∧
        List.Forall₂ (ReportLine.Reports dryRun) outputs lines ∧
        outcome.1.lines = warnings ++ omissions ++ lines
  /-- If the run fails, the report breaks off, and its last line says why. -/
  fails : ∀ e, outcome.2 = .error e → ∃ lines last,
    generator.BreaksOff dryRun request start lines e ∧
      (∀ line ∈ lines, line.status ≠ .failed) ∧ last.Fails request e ∧
      outcome.1.lines = lines ++ [last]
  /-- The relations that it warns of are those of unknown kind, in the order of their tokens. -/
  warns : ∀ description, request.describe = .ok description →
    ∃ tokens, Description.splitTopLevel (request.relations.getD "") = .ok tokens ∧
      description.rejected = tokens.filterMap rejected?
  /-- The report speaks of a failure exactly if the run fails. -/
  hasFailures_iff : outcome.1.hasFailures = true ↔ ∃ e, outcome.2 = .error e

variable {generator dryRun request start} {lines : List ReportLine} {e : Error}

/-- A run that stops before the emission breaks off there. -/
theorem Stops.breaksOff {after : σ} (h : generator.Stops request start lines e after) :
    generator.BreaksOff dryRun request start lines e := by
  cases h with
  | parse hdescribe => exact .parse hdescribe
  | plan hdescribe hplan => exact .plan hdescribe hplan (forall₂_warningLines _)
  | render hdescribe hplan hrender =>
    exact .render hdescribe hplan hrender (forall₂_warningLines _) (forall₂_skippedLines _)

/-- No line before the emission says that something failed. -/
theorem status_ne_failed_of_omits {description : Description} {plan : Plan}
    {warnings omissions : List ReportLine}
    (hwarnings : List.Forall₂ (ReportLine.Warns description) description.rejected warnings)
    (homissions : List.Forall₂ ReportLine.Omits plan.skipped omissions) :
    ∀ line ∈ warnings ++ omissions, line.status ≠ .failed :=
  List.forall_mem_append.mpr
    ⟨ReportLine.status_ne_failed_of_forall₂ (fun _ _ h => h.status_ne_failed) hwarnings,
      ReportLine.status_ne_failed_of_forall₂ (fun _ _ h => h.status_ne_failed) homissions⟩

/-- No line on an output says so either. -/
theorem status_ne_failed_of_reports {description : Description} {plan : Plan}
    {outputs : List (ArtifactKind × Output)} {warnings omissions : List ReportLine}
    (hwarnings : List.Forall₂ (ReportLine.Warns description) description.rejected warnings)
    (homissions : List.Forall₂ ReportLine.Omits plan.skipped omissions)
    (hlines : List.Forall₂ (ReportLine.Reports dryRun) outputs lines) :
    ∀ line ∈ warnings ++ omissions ++ lines, line.status ≠ .failed :=
  List.forall_mem_append.mpr ⟨status_ne_failed_of_omits hwarnings homissions,
    ReportLine.status_ne_failed_of_forall₂ (fun _ _ h => h.status_ne_failed) hlines⟩

/-- No line before the break is a failure. -/
theorem BreaksOff.status_ne_failed (h : generator.BreaksOff dryRun request start lines e) :
    ∀ line ∈ lines, line.status ≠ .failed := by
  cases h with
  | parse hdescribe => exact fun _ hline => absurd hline List.not_mem_nil
  | plan hdescribe hplan hwarnings =>
    exact ReportLine.status_ne_failed_of_forall₂ (fun _ _ h => h.status_ne_failed) hwarnings
  | render hdescribe hplan hrender hwarnings homissions =>
    exact status_ne_failed_of_omits hwarnings homissions
  | emit hreaches hrest hwarnings homissions hlines =>
    exact status_ne_failed_of_reports hwarnings homissions hlines

/-- A run that fails is accounted for by lines that break off, and the line on its failure. -/
theorem BreaksOff.accounts (h : generator.BreaksOff dryRun request start lines e) :
    generator.Accounts dryRun request start
      ({ lines := lines ++ [failedLine request e] }, .error e) where
  ends _ hok := nomatch hok
  fails e' herror := by
    obtain rfl : e = e' := Except.error.inj herror
    exact ⟨lines, _, h, h.status_ne_failed, fails_failedLine request e, rfl⟩
  warns _ hdescribe := Request.rejected_of_describe hdescribe
  hasFailures_iff := by
    have hlast : failedLine request e ∈ lines ++ [failedLine request e] :=
      List.mem_append_right lines (List.mem_singleton_self _)
    have hfailed := (fails_failedLine request e).status
    exact iff_of_true (Report.hasFailures_iff.mpr ⟨_, hlast, hfailed⟩) ⟨e, rfl⟩

/-- A run that ends well is accounted for by the lines of its stages. -/
theorem Reaches.accounts {description : Description} {plan : Plan}
    {outputs : List (ArtifactKind × Output)} {planned : σ}
    (h : generator.Reaches request start description plan outputs planned)
    (hlines : List.Forall₂ (ReportLine.Reports dryRun) outputs lines) (registry : Registry) :
    generator.Accounts dryRun request start
      ({ lines := warningLines description ++ skippedLines plan ++ lines },
        .ok { plan, registry }) where
  ends generated hok := by
    rw [← Except.ok.inj hok]
    exact ⟨description, outputs, planned, _, _, lines, h, forall₂_warningLines description,
      forall₂_skippedLines plan, hlines, rfl⟩
  fails _ herror := nomatch herror
  warns _ hdescribe := Request.rejected_of_describe hdescribe
  hasFailures_iff := by
    refine iff_of_false ?_ fun ⟨e, herror⟩ => nomatch herror
    rw [Report.hasFailures_iff]
    rintro ⟨line, hline, hfailed⟩
    exact status_ne_failed_of_reports (forall₂_warningLines description)
      (forall₂_skippedLines plan) hlines line hline hfailed

variable (generator dryRun request start) in
/-- Every run is accounted for by its report. -/
theorem accounts_run (registry : Registry) :
    generator.Accounts dryRun request start
      ((generator.run dryRun request registry).run start).1 := by
  rcases generator.stops_or_reaches request start with
    ⟨lines, e, after, hstops⟩ | ⟨description, plan, outputs, planned, hreaches⟩
  · rw [run_of_stops hstops]
    exact hstops.breaksOff.accounts
  · rcases hemit : (Emission.emitAll generator.storage dryRun [] outputs).run planned with
      ⟨⟨lines, result⟩, after⟩
    obtain ⟨done, rest, rfl, hlines, hrest⟩ := Emission.exists_reports_emitAll hemit
    cases result with
    | error e =>
      rw [run_of_reaches_error hreaches hemit]
      have hleft : rest ≠ [] := fun hnil => nomatch hrest.mp hnil
      have hbreaks : generator.BreaksOff dryRun request start
          (warningLines description ++ skippedLines plan ++ lines) e :=
        .emit hreaches hleft (forall₂_warningLines description) (forall₂_skippedLines plan) hlines
      exact hbreaks.accounts
    | ok ended =>
      rw [run_of_reaches_ok hreaches hemit]
      -- nothing is left, so that the lines are on all outputs
      obtain rfl : rest = [] := hrest.mpr rfl
      rw [List.append_nil] at hreaches
      exact hreaches.accounts hlines _

/-- A project with a migration for posts. -/
def withPostsMigration : Memory where
  files := [(⟨"database/migrations/2024_05_01_120000_create_posts_table.php"⟩, "")]

/-- A generator for migrations and models in a project to whose files nothing can be appended. Each
artifact becomes two files and a route line between them. -/
def withoutAppends : Generator (StateM Memory) where
  storage := refusingAppends
  planner := (Planner.empty.register (.standard .migration)).register (.standard .model)
  renderer _ := .ok [.file ⟨"a"⟩ "x", .lines ⟨"b/c"⟩ ["y"], .file ⟨"d"⟩ "z"]
  timestamp := default

/-- The report on a post whose tags have no known kind, and which has a migration already. -/
def reportOnPost : Report where
  lines := [
    ⟨.warning, none, "Post", some "invalid relation type 'manyToMany' for tags"⟩,
    ⟨.skipped, some .migration, "Post", some ("migration for 'posts' already exists: " ++
      "migration already present: 2024_05_01_120000_create_posts_table.php")⟩,
    ⟨.created, some .model, "a", none⟩,
    ⟨.failed, none, "post", some "I/O error on b/c: denied"⟩]

/-- A run that warns of a relation, leaves the migration out, writes a file of the model and fails
at its route accounts for each of these. -/
theorem accounts_run_post :
    ((withoutAppends.run false ⟨"post", "title:string", some "tags:manyToMany"⟩ {}).run
        withPostsMigration).1 =
        (reportOnPost, .error (.io ⟨"b/c"⟩ (.other "denied"))) ∧
      withoutAppends.Accounts false ⟨"post", "title:string", some "tags:manyToMany"⟩
        withPostsMigration
        (reportOnPost, .error (.io ⟨"b/c"⟩ (.other "denied"))) ∧
      reportOnPost.hasFailures = true := by
  have hrun : ((withoutAppends.run false ⟨"post", "title:string", some "tags:manyToMany"⟩ {}).run
      withPostsMigration).1 =
      (reportOnPost, .error (.io ⟨"b/c"⟩ (.other "denied"))) := by
    decide +kernel
  have haccounts := accounts_run withoutAppends false
    ⟨"post", "title:string", some "tags:manyToMany"⟩ withPostsMigration {}
  rw [hrun] at haccounts
  exact ⟨hrun, haccounts, haccounts.hasFailures_iff.mpr ⟨_, rfl⟩⟩

end Generator

end Scaffold
