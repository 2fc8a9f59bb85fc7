import Scaffold.Proofs.Generation.Places
import Scaffold.Proofs.Generation.PlainNames

/-!
# Running a request again

Main statement: after a run, the same request run again leaves every file as it is (`rerun`).

* Every table of an entity has something in its way after the run, so the second plan has no
  migrations and is otherwise the plan of the first run (`artifacts_of_rerun`).
* The outputs of the second run are therefore those of the first without the files of migrations,
  and these meet no other output (`filter_allOutputs_of_rerun`).
* What the outputs ask for is fulfilled after the first run, so that writing them again changes no
  file (`file?_afterOutputs_again`) and adds to none.
-/

namespace Scaffold

/-! ## The second plan -/

section rerun

variable {memory : Memory} {config : Config} {timestamp timestamp' : Timestamp}
  {entities : List Entity} {kinds : List ArtifactKind} {plan plan' : Plan}

/-- After a run something is in the way of every table of its entities. -/
theorem obstacle?_ne_none_of_run (hpaths : memory.paths = config.paths)
    (hplans : memory.Plans timestamp entities kinds plan) (hkind : .migration ∈ kinds)
    {entity : Entity} (hentity : entity ∈ entities) (hslash : '/' ∉ entity.table.toList) :
    (memory.afterOutputs (Template.allOutputs config plan.artifacts)).obstacle? entity.table ≠
      none := by
  by_cases hfree : memory.obstacle? entity.table = none
  · have htable := hplans.plansTable_of_mem hkind hentity hfree
    exact Memory.obstacle?_ne_none_of_plansTable hpaths hplans htable hslash
  · intro hnone
    exact hfree ((memory.extends_afterOutputs _).obstacle?_eq_none hnone)

/-- The second plan is the first without its migrations. -/
theorem artifacts_of_rerun (hpaths : memory.paths = config.paths)
    (hslash : ∀ entity ∈ entities, '/' ∉ entity.table.toList) (hkind : .migration ∈ kinds)
    (hplans : memory.Plans timestamp entities kinds plan)
    (hplans' : (memory.afterOutputs (Template.allOutputs config plan.artifacts)).Plans timestamp'
      entities kinds plan') :
    plan'.artifacts = plan.artifacts.filter fun artifact =>
      (Plan.tableOf? artifact.data).isNone := by
  rw [← hplans.artifacts_filter hplans', eq_comm, List.filter_eq_self]
  intro artifact hartifact
  cases htable : Plan.tableOf? artifact.data with
  | none => rfl
  | some table =>
    have hplanned := Plan.plansTable_iff.mpr ⟨artifact, hartifact, htable⟩
    obtain ⟨hfree, entity, hentity, rfl, -⟩ := hplans'.exists_of_plansTable hplanned
    exact absurd hfree (obstacle?_ne_none_of_run hpaths hplans hkind hentity
      (hslash entity hentity))

/-- Whatever is a migration creates a table, so the second plan has none. -/
theorem artifactsOf_migration_of_rerun (hartifacts : plan'.artifacts =
      plan.artifacts.filter fun artifact => (Plan.tableOf? artifact.data).isNone) :
    plan'.artifactsOf .migration = [] := by
  unfold Plan.artifactsOf
  rw [hartifacts, List.filter_filter, List.filter_eq_nil_iff]
  rintro ⟨entity, data⟩ - hboth
  cases data <;> simp [Artifact.kind, ArtifactData.kind, Plan.tableOf?] at hboth

/-! ## The second outputs -/

/-- Artifacts can be left out if none of their outputs is asked for. -/
theorem filter_allOutputs {keep : Artifact → Bool} {test : Output → Bool}
    {artifacts : List Artifact}
    (h : ∀ artifact ∈ artifacts, keep artifact = false →
      ∀ output ∈ Template.outputs config artifact.data, test output = false) :
    (Template.allOutputs config (artifacts.filter keep)).filter test =
      (Template.allOutputs config artifacts).filter test := by
  unfold Template.allOutputs
  induction artifacts with
  | nil => rfl
  | cons artifact rest ih =>
    rw [List.forall_mem_cons] at h
    rw [List.flatMap_cons, List.filter_append, ← ih h.2, List.filter_cons]
    split_ifs with hkeep
    · rw [List.flatMap_cons, List.filter_append]
    · have hnone : (Template.outputs config artifact.data).filter test = [] := by
        rw [List.filter_eq_nil_iff]
        intro output houtput
        rw [h.1 (Bool.eq_false_iff.mpr hkeep) output houtput]
        exact Bool.false_ne_true
      rw [hnone, List.nil_append]

/-- A file that the second run writes has the same outputs in both runs. -/
theorem filter_allOutputs_of_rerun (hslash : ∀ entity ∈ entities, '/' ∉ entity.table.toList)
    (hplans : memory.Plans timestamp entities kinds plan)
    (hartifacts : plan'.artifacts =
      plan.artifacts.filter fun artifact => (Plan.tableOf? artifact.data).isNone) (path : Path) :
    (Template.allOutputs {} plan'.artifacts).filter (·.path.same path) = [] ∨
      (Template.allOutputs {} plan'.artifacts).filter (·.path.same path) =
        (Template.allOutputs {} plan.artifacts).filter (·.path.same path) := by
  by_cases hmeets : ∃ artifact ∈ plan.artifacts, (Plan.tableOf? artifact.data).isNone = false ∧
      ∃ output ∈ Template.outputs {} artifact.data, output.path.same path = true
  · -- the path is that of a migration, which no other output meets
    obtain ⟨artifact, hartifact, hsome, output, houtput, hsame⟩ := hmeets
    obtain ⟨table, htable⟩ := Option.isSome_iff_exists.mp (Option.isNone_eq_false_iff.mp hsome)
    obtain ⟨-, hentity, hdata⟩ := hplans.eq_migration_of_mem hartifact htable
    rw [hdata] at houtput
    rw [List.mem_singleton.mp houtput, Output.path_file] at hsame
    left
    rw [List.filter_eq_nil_iff]
    intro other hother hmeets
    obtain ⟨source, hsource, hother⟩ := List.mem_flatMap.mp hother
    rw [hartifacts, List.mem_filter, Option.isNone_iff_eq_none] at hsource
    have hapart := Template.same_migration_eq_false timestamp
      (hslash artifact.entity hentity) hother hsource.2
    have hmet : other.path.same (({} : Paths).migrations.child
        (artifact.entity.migrationFile timestamp)) = true :=
      Path.same_iff.mpr ((Path.same_iff.mp hmeets).trans (Path.same_iff.mp hsame).symm)
    exact Bool.noConfusion (hmet.symm.trans hapart)
  · right
    rw [hartifacts]
    apply filter_allOutputs
    intro artifact hartifact hkeep output houtput
    rw [Bool.eq_false_iff]
    intro hsame
    exact hmeets ⟨artifact, hartifact, hkeep, output, houtput, hsame⟩

/-- The route lines of plain names are single lines. -/
theorem hasSingleLines_of_mem_allOutputs (hplain : ∀ entity ∈ entities, entity.HasPlainNames)
    (hplans : memory.Plans timestamp entities kinds plan) :
    ∀ output ∈ Template.allOutputs {} plan.artifacts, output.HasSingleLines := by
  intro output houtput
  obtain ⟨artifact, hartifact, hmem⟩ := List.mem_flatMap.mp houtput
  obtain ⟨hentity, kind, -, -, hplanned⟩ := hplans.mem_artifacts hartifact
  cases hfile : output.isFile with
  | true =>
    obtain ⟨path, content, rfl⟩ := Output.exists_eq_file hfile
    trivial
  | false =>
    have hgroups : ∀ routes, artifact.data = .routes routes →
        Template.HasSingleLineGroups routes := by
      intro routes hdata
      rw [hdata] at hplanned
      obtain rfl : .routes = kind := Entity.kind_of_planned? hplanned
      rw [← ArtifactData.routes.inj (Option.some.inj hplanned)]
      exact (hplain artifact.entity hentity).routeSet
    rcases Template.mem_outputs_of_isFile_eq_false hmem hfile with ⟨routes, hdata, rfl | rfl⟩ |
      ⟨layout, -, rfl⟩
    · intro line hline
      exact Template.feed_not_mem_webRouteLines (hgroups routes hdata) hline
    · intro line hline
      exact Template.feed_not_mem_apiRouteLines (hgroups routes hdata) (by decide) hline
    · trivial

end rerun

/-! ## Writing again -/

/-- Writing outputs again changes no file, if each file has the same outputs again or none. -/
theorem Memory.file?_afterOutputs_again {outputs outputs' : List Output}
    (hapart : SortsApart outputs) (hsingle : ∀ output ∈ outputs, output.HasSingleLines)
    (hsame : ∀ path : Path, outputs'.filter (·.path.same path) = [] ∨
      outputs'.filter (·.path.same path) = outputs.filter (·.path.same path))
    (memory : Memory) (path : Path) :
    ((memory.afterOutputs outputs).afterOutputs outputs').file? path =
      (memory.afterOutputs outputs).file? path := by
  rw [file?_afterOutputs _ outputs' path]
  rcases hsame path with hnone | hall
  · rw [hnone]
    rfl
  · rw [hall, file?_afterOutputs]
    exact contentAfterAll_idem
      (fun output houtput => hsingle output (List.mem_of_mem_filter houtput))
      (isFile_of_mem_filter hapart path) _

namespace Generator

/-- Where the outputs of a plan are fulfilled already, the report on it says of nothing that it was
added to. -/
theorem status_ne_updated_of_fulfills {memory : Memory} {outputs : List Output}
    (hfulfills : memory.Fulfills outputs) (hapart : SortsApart outputs)
    {config : Config} {plan : Plan}
    (hsubset : Template.allOutputs config plan.artifacts ⊆ outputs) (description : Description) :
    ∀ line ∈ warningLines description ++ skippedLines plan ++
        Emission.emittedLines memory (Template.entries config plan.artifacts),
      line.status ≠ .updated := by
  intro line hline
  rcases List.mem_append.mp hline with hline | hline
  · rcases List.mem_append.mp hline with hwarning | hskipped
    · obtain ⟨relation, -, rfl⟩ := List.mem_map.mp hwarning
      exact Status.noConfusion
    · obtain ⟨skipped, -, rfl⟩ := List.mem_map.mp hskipped
      exact Status.noConfusion
  · refine hfulfills.status_ne_updated hapart (fun entry hentry => hsubset ?_) line hline
    rw [← Template.map_snd_entries]
    exact List.mem_map_of_mem hentry

/-- A request whose names are plain, run again after it succeeded, succeeds, plans no migration,
adds to no file, and leaves all files as they are. -/
theorem rerun {request : Request} (hplain : request.HasPlainNames) {memory first : Memory}
    (hpaths : memory.paths = {}) {timestamp timestamp' : Timestamp} {registry registry' : Registry}
    {report : Report} {generated : Generated}
    (hfirst : ((inMemory {} .standard timestamp).run false request registry).run memory =
      ((report, .ok generated), first)) :
    ∃ report' generated' second,
      ((inMemory {} .standard timestamp').run false request registry').run first =
        ((report', .ok generated'), second) ∧
      generated'.plan.artifactsOf .migration = [] ∧
      (∀ line ∈ report'.lines, line.status ≠ .updated) ∧
      second.filePaths = first.filePaths ∧ ∀ path, second.file? path = first.file? path := by
  cases hdescribe : request.describe with
  | error cause =>
    rw [run_of_describe_error hdescribe] at hfirst
    cases hfirst
  | ok description =>
    have hnames : ∀ entity ∈ description.root.expand, entity.HasPlainNames :=
      fun entity => (hplain description hdescribe).of_mem_expand
    have hslash : ∀ entity ∈ description.root.expand, '/' ∉ entity.table.toList :=
      fun entity hentity => (hnames entity hentity).table.noSlash
    obtain ⟨plan, hplans, hrun⟩ := run_of_describe_ok {} memory timestamp registry
      Planner.hasStandardSteps_standard hdescribe
    rw [hrun, Prod.mk.injEq] at hfirst
    obtain ⟨-, rfl⟩ := hfirst
    obtain ⟨plan', hplans', hrun'⟩ := run_of_describe_ok {}
      (memory.afterOutputs (Template.allOutputs {} plan.artifacts)) timestamp' registry'
      Planner.hasStandardSteps_standard hdescribe
    have hartifacts := artifacts_of_rerun hpaths hslash (by decide) hplans hplans'
    have hapart := (Template.keepsApart_default plan.artifacts).sortsApart
    have hsingle := hasSingleLines_of_mem_allOutputs hnames hplans
    have hsubset :
        Template.allOutputs {} plan'.artifacts ⊆ Template.allOutputs {} plan.artifacts := by
      intro output houtput
      obtain ⟨artifact, hartifact, hmem⟩ := List.mem_flatMap.mp houtput
      rw [hartifacts] at hartifact
      exact List.mem_flatMap.mpr ⟨artifact, List.mem_of_mem_filter hartifact, hmem⟩
    have hfulfills := Memory.fulfills_afterOutputs hapart hsingle memory
    refine ⟨_, _, _, hrun', artifactsOf_migration_of_rerun hartifacts,
      status_ne_updated_of_fulfills hfulfills hapart hsubset description, ?_, ?_⟩
    · rw [Memory.filePaths_eq_mergeSort_keys, Memory.filePaths_eq_mergeSort_keys,
        Memory.keys_afterOutputs]
      intro output houtput
      exact memory.file?_isSome_afterOutputs (hsubset houtput)
    · exact Memory.file?_afterOutputs_again hapart hsingle
        (filter_allOutputs_of_rerun hslash hplans hartifacts) memory

/-- A project that has a route file without an opening is left as it is by a second run. -/
theorem rerun_blog :
    ∃ report generated first,
      ((inMemory {} .standard default).run false
          ⟨"blog", "name:string", some "post:hasMany,user:belongsTo"⟩ {}).run
        { files := [(⟨"routes/web.php"⟩, "// mine\n")] } = ((report, .ok generated), first) ∧
      ∃ report' generated' second,
        ((inMemory {} .standard ⟨2025, 1, 2, 3, 4, 5⟩).run false
            ⟨"blog", "name:string", some "post:hasMany,user:belongsTo"⟩ generated.registry).run
              first =
          ((report', .ok generated'), second) ∧
        generated'.plan.artifactsOf .migration = [] ∧
        (∀ line ∈ report'.lines, line.status ≠ .updated) ∧
        second.filePaths = first.filePaths ∧ ∀ path, second.file? path = first.file? path := by
  have hdescribe :
      (⟨"blog", "name:string", some "post:hasMany,user:belongsTo"⟩ : Request).describe =
      .ok ⟨"Blog", [⟨"name", .string⟩], [⟨"Post", .hasMany⟩, ⟨"User", .belongsTo⟩], []⟩ := by
    decide +kernel
  have hplain : (⟨"blog", "name:string", some "post:hasMany,user:belongsTo"⟩ :
      Request).HasPlainNames :=
    Request.hasPlainNames ⟨by decide, by decide⟩ ⟨by decide, by decide⟩
  obtain ⟨plan, -, hrun⟩ := run_of_describe_ok {}
    { files := [(⟨"routes/web.php"⟩, "// mine\n")] } default {}
    Planner.hasStandardSteps_standard hdescribe
  exact ⟨_, _, _, hrun, rerun hplain rfl hrun⟩

end Generator

end Scaffold
