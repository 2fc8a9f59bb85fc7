import Scaffold.Proofs.Generation.DryRun
import Scaffold.Proofs.Generation.History

/-!
# What survives the runs

Any number of runs, in earnest or dry, follow one another on a project in memory. Main statement:
what people have put into the project survives all of them (`content_survives`). No file is removed,
and only the files that a run renders as a whole get another content:

* a file that no run renders an output for is never written to;
* the layout is written only if there is none;
* a route file may get the opening in front, once, and lines behind (`Route.GrowsTo`).

All that a history does to its project is that it writes outputs that its runs have rendered
(`exists_afterOutputs_of_runTrials`), and which of these can meet a file is known from its path.
-/

namespace Scaffold

/-! ## Route files -/

namespace Route

/-- A text that has grown starts as before. -/
theorem exists_grown_eq (content : String) (added : List String) :
    ∃ back, grown content added = content ++ back := by
  unfold grown
  split_ifs
  · exact ⟨"", String.append_empty.symm⟩
  · exact ⟨appendBlock added, rfl⟩

/-- The file stays as it is, or gets the opening that it lacks and some text behind. -/
def GrowsTo (before after : Option String) : Prop :=
  after = before ∨ ∃ back, after = some (opened before ++ back)

namespace GrowsTo

variable {before middle after : Option String}

/-- What is left alone has grown by nothing. -/
theorem refl (current : Option String) : GrowsTo current current := Or.inl rfl

/-- Merging lines lets a route file grow. -/
theorem merged (current : Option String) (lines : List String) :
    GrowsTo current (some (merged current lines)) := by
  obtain ⟨back, heq⟩ := exists_grown_eq (opened current) (missing (opened current) lines)
  exact Or.inr ⟨back, congrArg some heq⟩

/-- Growing twice is growing. -/
theorem trans (hfirst : GrowsTo before middle) (hsecond : GrowsTo middle after) :
    GrowsTo before after := by
  rcases hsecond with rfl | ⟨back, rfl⟩
  · exact hfirst
  · rcases hfirst with rfl | ⟨first, rfl⟩
    · exact Or.inr ⟨back, rfl⟩
    · -- the opening is there, and is not put in front again
      have hopened : opened (some (opened before ++ first)) = opened before ++ first :=
        opened_of_startsAsScript (startsAsScript_append (startsAsScript_opened before) first)
      exact Or.inr ⟨first ++ back, by rw [hopened, String.append_assoc]⟩

/-- What has grown has the old text in it, behind an opening at most. -/
theorem exists_eq (h : GrowsTo before after) :
    ∃ front back, (front = "" ∨ front = opening) ∧
      after.getD "" = front ++ before.getD "" ++ back := by
  rcases h with rfl | ⟨back, rfl⟩
  · exact ⟨"", "", Or.inl rfl, by simp⟩
  · refine ⟨if (withPreamble before).isSome then opening else "", back, ?_, ?_⟩
    · split_ifs
      · exact Or.inr rfl
      · exact Or.inl rfl
    · rw [Option.getD_some, opened_eq]

end GrowsTo

end Route

/-- Outputs that are lines let a file grow. -/
theorem growsTo_contentAfterAll {outputs : List Output}
    (h : ∀ output ∈ outputs, output.isLines = true) (current : Option String) :
    Route.GrowsTo current (contentAfterAll current outputs) := by
  induction outputs generalizing current with
  | nil => exact .refl current
  | cons output rest ih =>
    rw [List.forall_mem_cons] at h
    obtain ⟨path, wanted, rfl⟩ := Output.exists_eq_lines h.1
    exact (Route.GrowsTo.merged current wanted).trans (ih h.2 _)

/-! ## What outputs leave of a file -/

namespace Template

variable {artifacts : List Artifact} {output : Output}

/-- Under the default configuration only shared files have the path of a shared file. -/
theorem isFile_eq_false_of_same (h : output ∈ allOutputs {} artifacts) {path : Path}
    (hpath : path ∈ [({} : Paths).layout, ({} : Paths).webRoutes, ({} : Paths).apiRoutes])
    (hsame : output.path.same path = true) : output.isFile = false := by
  rw [Bool.eq_false_iff]
  intro hfile
  obtain ⟨artifact, hartifact, hout⟩ := List.mem_flatMap.mp h
  obtain ⟨other, content, rfl⟩ := Output.exists_eq_file hfile
  obtain ⟨hlayout, hweb, hapi⟩ := keepsApart_default artifacts artifact hartifact other content hout
  rw [Output.path_file] at hsame
  simp only [List.mem_cons, List.not_mem_nil, or_false] at hpath
  rcases hpath with rfl | rfl | rfl
  · exact Bool.noConfusion (hsame.symm.trans hlayout)
  · exact Bool.noConfusion (hsame.symm.trans hweb)
  · exact Bool.noConfusion (hsame.symm.trans hapi)

/-- What is rendered for the layout is a starter. -/
theorem isStarter_of_same_layout (h : output ∈ allOutputs {} artifacts)
    (hsame : output.path.same ({} : Paths).layout = true) : output.isStarter = true := by
  have hfile := isFile_eq_false_of_same h List.mem_cons_self hsame
  rcases path_of_isFile_eq_false h hfile with ⟨-, hpath | hpath⟩ | ⟨hstarter, -⟩
  · rw [hpath] at hsame
    exact absurd hsame (by decide)
  · rw [hpath] at hsame
    exact absurd hsame (by decide)
  · exact hstarter

/-- What is rendered for a route file is lines. -/
theorem isLines_of_same_routes (h : output ∈ allOutputs {} artifacts) {path : Path}
    (hpath : path ∈ [({} : Paths).webRoutes, ({} : Paths).apiRoutes])
    (hsame : output.path.same path = true) : output.isLines = true := by
  have hfile := isFile_eq_false_of_same h (List.mem_cons_of_mem _ hpath) hsame
  rcases path_of_isFile_eq_false h hfile with ⟨hlines, -⟩ | ⟨-, hlayout⟩
  · exact hlines
  · have hroutes : ∀ path ∈ [({} : Paths).webRoutes, ({} : Paths).apiRoutes],
        ({} : Paths).layout.same path = false := by decide
    rw [hlayout] at hsame
    exact Bool.noConfusion (hsame.symm.trans (hroutes path hpath))

end Template

namespace Memory

variable (memory : Memory)

/-- A file at which no output goes stays as it is. -/
theorem file?_afterOutputs_of_forall_same {outputs : List Output} {path : Path}
    (h : ∀ output ∈ outputs, output.path.same path = false) :
    (memory.afterOutputs outputs).file? path = memory.file? path := by
  have hnone : outputs.filter (·.path.same path) = [] := by
    rw [List.filter_eq_nil_iff]
    intro output houtput hsame
    exact Bool.noConfusion (hsame.symm.trans (h output houtput))
  rw [file?_afterOutputs, hnone]
  rfl

/-- Outputs can be written one part after the other. -/
theorem afterOutputs_append (first second : List Output) :
    memory.afterOutputs (first ++ second) = (memory.afterOutputs first).afterOutputs second :=
  List.foldl_append

variable (artifacts : List Artifact)

/-- A layout that is there stays as it is. -/
theorem file?_layout_afterOutputs {content : String}
    (h : memory.file? ({} : Paths).layout = some content) :
    (memory.afterOutputs (Template.allOutputs {} artifacts)).file? ({} : Paths).layout =
      some content := by
  have hstarter : ∀ output ∈ (Template.allOutputs {} artifacts).filter
      (·.path.same ({} : Paths).layout), output.isStarter = true := by
    intro output houtput
    rw [List.mem_filter] at houtput
    exact Template.isStarter_of_same_layout houtput.1 houtput.2
  rw [file?_afterOutputs, h]
  apply contentAfterAll_eq_self
  · intro output houtput
    obtain ⟨path, text, rfl⟩ := Output.exists_eq_starter (hstarter output houtput)
    rfl
  · intro output houtput
    obtain ⟨path, text, rfl⟩ := Output.exists_eq_starter (hstarter output houtput)
    rfl

/-- Whatever is generated, the route files grow. -/
theorem growsTo_afterOutputs {path : Path}
    (hpath : path ∈ [({} : Paths).webRoutes, ({} : Paths).apiRoutes]) :
    Route.GrowsTo (memory.file? path)
      ((memory.afterOutputs (Template.allOutputs {} artifacts)).file? path) := by
  rw [file?_afterOutputs]
  apply growsTo_contentAfterAll
  intro output houtput
  rw [List.mem_filter] at houtput
  exact Template.isLines_of_same_routes houtput.1 hpath houtput.2

end Memory

/-! ## A history -/

namespace Generator

/-- A run to be made, in earnest or dry. -/
structure Trial extends Job where
  /-- It is a dry run. -/
  dryRun : Bool

/-- Makes the runs one after another, and answers with what each came to. -/
def runTrials (config : Config) :
    List Trial → StateM Memory (List (Report × Except Error Generated))
  | [] => return []
  | trial :: rest => do
    let outcome ← (inMemory config .standard trial.timestamp).run trial.dryRun trial.request
      trial.registry
    let outcomes ← runTrials config rest
    return outcome :: outcomes

/-- The output is one that the run has rendered. -/
def Rendered (config : Config) (outcome : Report × Except Error Generated) (output : Output) :
    Prop :=
  ∃ generated, outcome.2 = .ok generated ∧
    output ∈ Template.allOutputs config generated.plan.artifacts

section runTrials

variable {config : Config} {memory middle after : Memory} {trials earlier later : List Trial}
  {outcomes first second : List (Report × Except Error Generated)}

/-- Trials can be run one part after the other. -/
theorem run_runTrials_append (hearlier : (runTrials config earlier).run memory = (first, middle))
    (hlater : (runTrials config later).run middle = (second, after)) :
    (runTrials config (earlier ++ later)).run memory = (first ++ second, after) := by
  induction earlier generalizing memory first with
  | nil =>
    cases hearlier
    exact hlater
  | cons trial rest ih =>
    rcases hrun : ((inMemory config .standard trial.timestamp).run trial.dryRun trial.request
      trial.registry).run memory with ⟨outcome, next⟩
    rcases hrest : (runTrials config rest).run next with ⟨others, last⟩
    rw [runTrials, run_bind hrun, run_bind hrest] at hearlier
    cases hearlier
    rw [List.cons_append, runTrials, run_bind hrun, run_bind (ih hrest)]
    rfl

/-- A run writes outputs that it has rendered, if it writes anything. -/
theorem exists_afterOutputs_of_run (trial : Trial) {outcome : Report × Except Error Generated}
    (h : ((inMemory config .standard trial.timestamp).run trial.dryRun trial.request
      trial.registry).run memory = (outcome, after)) :
    ∃ artifacts, after = memory.afterOutputs (Template.allOutputs config artifacts) ∧
      ∀ output ∈ Template.allOutputs config artifacts, Rendered config outcome output := by
  cases hdescribe : trial.request.describe with
  | error cause =>
    rw [run_of_describe_error hdescribe, Prod.mk.injEq] at h
    exact ⟨[], h.2.symm, fun output houtput => absurd houtput List.not_mem_nil⟩
  | ok description =>
    cases hdry : trial.dryRun with
    | true =>
      obtain ⟨plan, hplan, -⟩ := memory.exec_plan Planner.hasStandardSteps_standard trial.timestamp
        description.root.expand
      rw [hdry, run_of_emitAll hdescribe hplan (Emission.run_emitAll_dry memory [] _),
        Prod.mk.injEq] at h
      exact ⟨[], h.2.symm, fun output houtput => absurd houtput List.not_mem_nil⟩
    | false =>
      obtain ⟨plan, -, hrun⟩ := run_of_describe_ok config memory trial.timestamp trial.registry
        Planner.hasStandardSteps_standard hdescribe
      rw [hdry, hrun, Prod.mk.injEq] at h
      refine ⟨plan.artifacts, h.2.symm, fun output houtput => ?_⟩
      rw [← h.1]
      exact ⟨_, rfl, houtput⟩

/-- All that a history does is that it writes outputs that its runs have rendered. -/
theorem exists_afterOutputs_of_runTrials
    (h : (runTrials config trials).run memory = (outcomes, after)) :
    ∃ artifacts, after = memory.afterOutputs (Template.allOutputs config artifacts) ∧
      ∀ output ∈ Template.allOutputs config artifacts,
        ∃ outcome ∈ outcomes, Rendered config outcome output := by
  induction trials generalizing memory outcomes with
  | nil =>
    cases h
    exact ⟨[], rfl, fun output houtput => absurd houtput List.not_mem_nil⟩
  | cons trial rest ih =>
    rcases hrun : ((inMemory config .standard trial.timestamp).run trial.dryRun trial.request
      trial.registry).run memory with ⟨outcome, next⟩
    rcases hrest : (runTrials config rest).run next with ⟨others, last⟩
    rw [runTrials, run_bind hrun, run_bind hrest] at h
    cases h
    obtain ⟨artifacts, rfl, hfirst⟩ := exists_afterOutputs_of_run trial hrun
    obtain ⟨more, rfl, hothers⟩ := ih hrest
    refine ⟨artifacts ++ more, ?_, ?_⟩
    · unfold Template.allOutputs
      rw [List.flatMap_append, Memory.afterOutputs_append]
    · intro output houtput
      unfold Template.allOutputs at houtput
      rw [List.flatMap_append, List.mem_append] at houtput
      rcases houtput with hmem | hmem
      · exact ⟨outcome, List.mem_cons_self, hfirst output hmem⟩
      · obtain ⟨later, hlater, hrendered⟩ := hothers output hmem
        exact ⟨later, List.mem_cons_of_mem _ hlater, hrendered⟩

end runTrials

/-- What was in the project `before` is in the project `after` the runs that came to `outcomes`. -/
structure Survives (before : Memory) (outcomes : List (Report × Except Error Generated))
    (after : Memory) : Prop where
  /-- No file is removed. -/
  files : ∀ path, (before.file? path).isSome = true → (after.file? path).isSome = true
  /-- A file is as it was, unless a run has rendered an output for it. -/
  others : ∀ path, (∀ outcome ∈ outcomes, ∀ output, Rendered {} outcome output →
    output.path.same path = false) → after.file? path = before.file? path
  /-- The layout is as it was, if there was one. -/
  layout : ∀ content, before.file? ({} : Paths).layout = some content →
    after.file? ({} : Paths).layout = some content
  /-- A route file has what it had, with nothing or the opening in front. -/
  routes : ∀ path ∈ [({} : Paths).webRoutes, ({} : Paths).apiRoutes],
    ∃ front back, (front = "" ∨ front = Route.opening) ∧
      (after.file? path).getD "" = front ++ (before.file? path).getD "" ++ back

/-- What people have put into a project survives all trials. -/
theorem survives_of_runTrials {memory after : Memory} {trials : List Trial}
    {outcomes : List (Report × Except Error Generated)}
    (h : (runTrials {} trials).run memory = (outcomes, after)) :
    Survives memory outcomes after := by
  obtain ⟨artifacts, rfl, hrendered⟩ := exists_afterOutputs_of_runTrials h
  refine ⟨?_, ?_, ?_, ?_⟩
  · intro path hthere
    exact (memory.extends_afterOutputs _).isSome_file? hthere
  · intro path hother
    apply memory.file?_afterOutputs_of_forall_same
    intro output houtput
    obtain ⟨outcome, houtcome, hout⟩ := hrendered output houtput
    exact hother outcome houtcome output hout
  · intro content hlayout
    exact memory.file?_layout_afterOutputs artifacts hlayout
  · intro path hpath
    exact (memory.growsTo_afterOutputs artifacts hpath).exists_eq

/-- In every history of runs, what is in the project at the start, and what is in it after some of
the runs, survives the rest of them. -/
theorem content_survives (memory : Memory) (earlier later : List Trial) :
    ∃ first middle second after,
      (runTrials {} earlier).run memory = (first, middle) ∧
      (runTrials {} later).run middle = (second, after) ∧
      (runTrials {} (earlier ++ later)).run memory = (first ++ second, after) ∧
      Survives memory (first ++ second) after ∧ Survives middle second after := by
  rcases hearlier : (runTrials {} earlier).run memory with ⟨first, middle⟩
  rcases hlater : (runTrials {} later).run middle with ⟨second, after⟩
  have hwhole := run_runTrials_append hearlier hlater
  exact ⟨first, middle, second, after, rfl, hlater, hwhole, survives_of_runTrials hwhole,
    survives_of_runTrials hlater⟩

end Generator

end Scaffold
