import Scaffold.Proofs.Entity.Expansion
import Scaffold.Proofs.Generation.Places
import Scaffold.Proofs.Generation.Preview

/-!
# Dry runs

A dry run says what a real run would do, and does nothing. Main statement: on any project and with
any choice of standard steps, the dry run calls nothing that writes, leaves project and registry as
they are, and ends as the real run does, with the same plan and the same report apart from the
status of what is written (`dryRun_foretells`).

The outputs of a plan are independent of each other (`pairwise_independent`): route files are merged
into only, and the layout, which is the only starter, is planned once (`pairwise_layout`). So the
report is foreseen.
-/

namespace Scaffold

/-! ## One layout -/

namespace Memory.Plans

variable {memory : Memory} {timestamp : Timestamp} {entities : List Entity}
  {kinds : List ArtifactKind} {plan : Plan}

/-- A layout is planned for a root only. -/
theorem isRoot_of_layout {task : Entity × ArtifactKind} {artifact : Artifact}
    (h : Plan.withoutTable? (memory.stepResult timestamp entities) task = some artifact)
    (hkind : artifact.kind = .layout) : task.2 = .layout ∧ task.1.isRoot = true := by
  obtain ⟨entity, kind⟩ := task
  unfold Plan.withoutTable? at h
  split at h
  · next data hdata =>
    rw [stepResult_eq_ok_iff] at hdata
    split_ifs at h
    rw [← Option.some.inj h] at hkind
    obtain rfl : .layout = kind := hkind.symm.trans (Entity.kind_of_planned? hdata.2)
    refine ⟨rfl, ?_⟩
    by_contra hroot
    have hnone := hdata.2
    unfold Entity.planned? at hnone
    rw [if_neg hroot] at hnone
    cases hnone
  · cases h

/-- No two artifacts of a plan are both layouts. -/
theorem pairwise_layout (h : memory.Plans timestamp entities kinds plan) (hkinds : kinds.Nodup)
    (hroot : entities.Pairwise fun _ later => later.isRoot = false) :
    plan.artifacts.Pairwise fun a b => ¬(a.kind = .layout ∧ b.kind = .layout) := by
  have htasks : (entities ×ˢ kinds).Pairwise fun a b =>
      ¬(a.2 = .layout ∧ b.2 = .layout ∧ b.1.isRoot = true) := by
    change (entities.flatMap fun entity => kinds.map (entity, ·)).Pairwise _
    rw [List.pairwise_flatMap]
    constructor
    · -- an entity has each kind once
      intro entity _
      rw [List.pairwise_map]
      exact hkinds.imp fun hne hboth => hne (hboth.1.trans hboth.2.1.symm)
    · apply hroot.imp
      intro a b hlater x _ y hy hboth
      obtain ⟨kind, -, rfl⟩ := List.mem_map.mp hy
      exact Bool.noConfusion (hboth.2.2.symm.trans hlater)
  have hfiltered :
      (plan.artifacts.filter fun artifact => (Plan.tableOf? artifact.data).isNone).Pairwise
      fun a b => ¬(a.kind = .layout ∧ b.kind = .layout) := by
    rw [Plan.artifacts_filter_recordAll h]
    change (List.filterMap _ _).Pairwise _
    rw [List.pairwise_filterMap]
    apply htasks.imp
    intro a b hnot x hx y hy hboth
    obtain ⟨ha, -⟩ := isRoot_of_layout hx hboth.1
    obtain ⟨hb, hbroot⟩ := isRoot_of_layout hy hboth.2
    exact hnot ⟨ha, hb, hbroot⟩
  rw [List.pairwise_filter] at hfiltered
  have hnone : ∀ artifact : Artifact, artifact.kind = .layout →
      (Plan.tableOf? artifact.data).isNone = true := by
    rintro ⟨entity, data⟩ hkind
    cases data <;> first | rfl | cases hkind
  exact hfiltered.imp fun {a b} hab hboth => hab (hnone a hboth.1) (hnone b hboth.2) hboth

end Memory.Plans

/-! ## Independent outputs -/

namespace Template

variable {config : Config} {artifacts : List Artifact}

/-- A shared file is a route file, into which lines are merged, or the layout. -/
theorem path_of_isFile_eq_false {output : Output} (h : output ∈ allOutputs config artifacts)
    (hfile : output.isFile = false) :
    (output.isLines = true ∧
        (output.path = config.paths.webRoutes ∨ output.path = config.paths.apiRoutes)) ∨
      (output.isStarter = true ∧ output.path = config.paths.layout) := by
  obtain ⟨artifact, -, hmem⟩ := List.mem_flatMap.mp h
  rcases mem_outputs_of_isFile_eq_false hmem hfile with ⟨routes, -, rfl | rfl⟩ | ⟨layout, -, rfl⟩
  · exact Or.inl ⟨rfl, Or.inl rfl⟩
  · exact Or.inl ⟨rfl, Or.inr rfl⟩
  · exact Or.inr ⟨rfl, rfl⟩

/-- Two outputs of which at most one is a starter are independent. -/
theorem independent_of_mem (hapart : KeepsApart config artifacts)
    (hweb : config.paths.layout.same config.paths.webRoutes = false)
    (hapi : config.paths.layout.same config.paths.apiRoutes = false) {earlier later : Output}
    (hearlier : earlier ∈ allOutputs config artifacts)
    (hlater : later ∈ allOutputs config artifacts)
    (hstarter : ¬(earlier.isStarter = true ∧ later.isStarter = true)) :
    Independent earlier later := by
  intro hsame
  cases hshared : later.isFile with
  | true => exact Or.inl rfl
  | false =>
    have hfile : earlier.isFile = false := by
      rw [Bool.eq_false_iff]
      intro hfile
      have hdifferent := hapart.same_eq_false hearlier hlater hfile hshared
      exact Bool.noConfusion (hsame.symm.trans hdifferent)
    rcases path_of_isFile_eq_false hearlier hfile with ⟨hlines, hpath⟩ | ⟨hstart, hpath⟩ <;>
      rcases path_of_isFile_eq_false hlater hshared with ⟨hlines', hpath'⟩ | ⟨hstart', hpath'⟩
    · exact Or.inr ⟨hlines, hlines'⟩
    · -- a route file is not the layout
      rw [Path.same_comm, hpath'] at hsame
      rcases hpath with hpath | hpath
      · rw [hpath, hweb] at hsame
        exact Bool.noConfusion hsame
      · rw [hpath, hapi] at hsame
        exact Bool.noConfusion hsame
    · rw [hpath] at hsame
      rcases hpath' with hpath' | hpath'
      · rw [hpath', hweb] at hsame
        exact Bool.noConfusion hsame
      · rw [hpath', hapi] at hsame
        exact Bool.noConfusion hsame
    · exact absurd ⟨hstart, hstart'⟩ hstarter

/-- Only the layout is a starter. -/
theorem kind_of_isStarter {data : ArtifactData} {output : Output}
    (h : output ∈ outputs config data) (hstarter : output.isStarter = true) :
    data.kind = .layout := by
  have hfile : output.isFile = false := by
    cases output with
    | starter => rfl
    | _ => exact Bool.noConfusion hstarter
  rcases mem_outputs_of_isFile_eq_false h hfile with ⟨routes, -, rfl | rfl⟩ | ⟨layout, rfl, -⟩
  · exact Bool.noConfusion hstarter
  · exact Bool.noConfusion hstarter
  · rfl

/-- The outputs of artifacts of which at most one is a layout are independent of each other. -/
theorem pairwise_independent (hapart : KeepsApart config artifacts)
    (hweb : config.paths.layout.same config.paths.webRoutes = false)
    (hapi : config.paths.layout.same config.paths.apiRoutes = false)
    (hlayout : artifacts.Pairwise fun a b => ¬(a.kind = .layout ∧ b.kind = .layout)) :
    (allOutputs config artifacts).Pairwise Independent := by
  have hstarters : (allOutputs config artifacts).Pairwise fun earlier later =>
      ¬(earlier.isStarter = true ∧ later.isStarter = true) := by
    unfold allOutputs
    rw [List.pairwise_flatMap]
    constructor
    · -- the starter of a layout is its only output
      rintro ⟨entity, data⟩ -
      cases data with
      | layout layout => exact List.pairwise_singleton _ _
      | _ =>
        apply List.pairwise_of_forall_mem_list
        intro earlier hearlier later _ hboth
        cases kind_of_isStarter hearlier hboth.1
    · apply hlayout.imp
      intro a b hnot earlier hearlier later hlater hboth
      exact hnot ⟨kind_of_isStarter hearlier hboth.1, kind_of_isStarter hlater hboth.2⟩
  apply hstarters.imp_of_mem
  intro earlier later hearlier hlater hnot
  exact independent_of_mem hapart hweb hapi hearlier hlater hnot

/-- No line that is rendered is taken for the opening of a script. -/
theorem sparesPreamble_of_mem {output : Output} (h : output ∈ allOutputs config artifacts) :
    output.SparesPreamble := by
  obtain ⟨artifact, -, hmem⟩ := List.mem_flatMap.mp h
  cases hfile : output.isFile with
  | true =>
    obtain ⟨path, content, rfl⟩ := Output.exists_eq_file hfile
    trivial
  | false =>
    rcases mem_outputs_of_isFile_eq_false hmem hfile with ⟨routes, -, rfl | rfl⟩ | ⟨layout, -, rfl⟩
    · intro line hline
      exact trim_ne_preamble_of_mem_webRouteLines hline
    · intro line hline
      exact trim_ne_preamble_of_mem_apiRouteLines hline
    · trivial

end Template

/-! ## No call that writes -/

section withWriters

variable {m : Type → Type} (storage : Storage m) (write : Path → String → ExceptT Error m Unit)
  (append : Path → List String → ExceptT Error m Unit)
  (ensureDirectory : Path → ExceptT Error m Unit)

/-- The storage with any operations in the place of those that write. -/
def Storage.withWriters : Storage m :=
  { storage with write, append, ensureDirectory }

variable [Monad m] {timestamp : Timestamp} {entities : List Entity}

/-- Planning an entity does not use the operations that write. -/
theorem Planner.planEntity_withWriters (entity : Entity) (kinds : List ArtifactKind) (plan : Plan) :
    planEntity ⟨storage.withWriters write append ensureDirectory, timestamp, entities⟩ entity
        (kinds.map fun kind => (kind, Step.standard kind)) plan =
      planEntity ⟨storage, timestamp, entities⟩ entity
        (kinds.map fun kind => (kind, Step.standard kind)) plan := by
  have hstep : ∀ kind, (Step.standard kind).plan entity
      ⟨storage.withWriters write append ensureDirectory, timestamp, entities⟩ =
        (Step.standard kind).plan entity ⟨storage, timestamp, entities⟩ := by
    intro kind
    cases kind <;> rfl
  induction kinds generalizing plan with
  | nil => rfl
  | cons kind rest ih =>
    rw [List.map_cons, planEntity, planEntity, hstep]
    simp only [ih]

/-- Neither does planning all of them. -/
theorem Planner.planEntities_withWriters {planner : Planner m}
    (hstandard : planner.HasStandardSteps) (queue : List Entity) (plan : Plan) :
    planner.planEntities ⟨storage.withWriters write append ensureDirectory, timestamp, entities⟩
        queue plan =
      planner.planEntities ⟨storage, timestamp, entities⟩ queue plan := by
  induction queue generalizing plan with
  | nil => rfl
  | cons entity rest ih =>
    rw [planEntities, planEntities, steps_eq hstandard, planEntity_withWriters]
    simp only [ih]

/-- Nor does looking at outputs in a dry run. -/
theorem Emission.emitAll_withWriters (expected : Expected)
    (outputs : List (ArtifactKind × Output)) :
    emitAll (storage.withWriters write append ensureDirectory) true expected outputs =
      emitAll storage true expected outputs := by
  have hemit : ∀ (expected : Expected) (output : Output),
      emit (storage.withWriters write append ensureDirectory) true expected output =
        emit storage true expected output := by
    intro expected output
    cases output <;> rfl
  induction outputs generalizing expected with
  | nil => rfl
  | cons entry rest ih =>
    obtain ⟨kind, output⟩ := entry
    rw [emitAll, emitAll, hemit]
    simp only [ih]

/-- A dry run is the same computation whatever the operations that write do. -/
theorem Generator.run_withWriters {planner : Planner m} (hstandard : planner.HasStandardSteps)
    (renderer : Renderer) (request : Request) (registry : Registry) :
    Generator.run ⟨storage.withWriters write append ensureDirectory, planner, renderer, timestamp⟩
        true request registry =
      Generator.run ⟨storage, planner, renderer, timestamp⟩ true request registry := by
  have hcarry : ∀ plan,
      carryOut ⟨storage.withWriters write append ensureDirectory, planner, renderer, timestamp⟩
          true plan =
        carryOut ⟨storage, planner, renderer, timestamp⟩ true plan := by
    intro plan
    unfold carryOut
    simp only [Emission.emitAll_withWriters]
  unfold Generator.run generate Planner.plan
  simp only [hcarry, Planner.planEntities_withWriters _ _ _ _ hstandard]

end withWriters

/-! ## What a dry run foretells -/

namespace Generator

section foretells

variable {config : Config} {planner : Planner (StateM Memory)} {timestamp : Timestamp}
  {request : Request} {registry : Registry} {memory real : Memory} {report : Report}
  {result : Except Error Generated}

/-- Before the outputs a report has only lines that a dry run has too. -/
theorem map_asPlanned_lines (description : Description) (plan : Plan) (lines : List ReportLine) :
    (warningLines description ++ skippedLines plan ++ lines).map ReportLine.asPlanned =
      warningLines description ++ skippedLines plan ++ lines.map ReportLine.asPlanned := by
  have hwarning :
      (warningLines description).map ReportLine.asPlanned = warningLines description := by
    unfold warningLines
    rw [List.map_map]
    rfl
  have hskipped : (skippedLines plan).map ReportLine.asPlanned = skippedLines plan := by
    unfold skippedLines
    rw [List.map_map]
    rfl
  rw [List.map_append, List.map_append, hwarning, hskipped]

/-- A dry run calls nothing that writes, leaves the project as it is, and comes to the result and
the report of the real run, but for the registry and for the status of what is written. -/
theorem dryRun_foretells (hstandard : planner.HasStandardSteps)
    (hweb : config.paths.layout.same config.paths.webRoutes = false)
    (hapi : config.paths.layout.same config.paths.apiRoutes = false)
    (hreal : ((inMemory config planner timestamp).run false request registry).run memory =
      ((report, result), real))
    (hapart : ∀ generated, result = .ok generated →
      Template.KeepsApart config generated.plan.artifacts) :
    (∀ write append ensureDirectory,
      Generator.run { inMemory config planner timestamp with
          storage := Memory.storage.withWriters write append ensureDirectory }
            true request registry =
        (inMemory config planner timestamp).run true request registry) ∧
    ∃ report', ((inMemory config planner timestamp).run true request registry).run memory =
        ((report', result.map fun generated => { generated with registry }), memory) ∧
      report'.lines = report.lines.map ReportLine.asPlanned := by
  refine ⟨fun write append ensureDirectory =>
    run_withWriters Memory.storage write append ensureDirectory hstandard _ request registry, ?_⟩
  cases hdescribe : request.describe with
  | error cause =>
    rw [run_of_describe_error hdescribe, Prod.mk.injEq, Prod.mk.injEq] at hreal
    obtain ⟨⟨rfl, rfl⟩, -⟩ := hreal
    exact ⟨_, run_of_describe_error hdescribe, rfl⟩
  | ok description =>
    obtain ⟨plan, hplan, hplans⟩ := memory.exec_plan hstandard timestamp description.root.expand
    have hlayout := hplans.pairwise_layout (ArtifactKind.nodup_all.filter _)
      (Entity.pairwise_isRoot_expand description.root)
    have hemit := Emission.run_emitAll memory [] (Template.entries config plan.artifacts)
    rw [run_of_emitAll hdescribe hplan hemit, Prod.mk.injEq, Prod.mk.injEq] at hreal
    obtain ⟨⟨rfl, rfl⟩, -⟩ := hreal
    have hindependent := Template.pairwise_independent (hapart _ rfl) hweb hapi hlayout
    rw [← Template.map_snd_entries] at hindependent
    have hspare : ∀ entry ∈ Template.entries config plan.artifacts, entry.2.SparesPreamble := by
      intro entry hentry
      have hmem := List.mem_map_of_mem (f := Prod.snd) hentry
      rw [Template.map_snd_entries] at hmem
      exact Template.sparesPreamble_of_mem hmem
    have hforeseen := previewedLines_eq hindependent hspare
      fun entry _ => foresees_nil memory entry.2
    refine ⟨_, run_of_emitAll hdescribe hplan (Emission.run_emitAll_dry memory [] _), ?_⟩
    rw [map_asPlanned_lines, hforeseen]

/-- The planner of routes and layouts alone foretells its run on a project with a route file. -/
theorem dryRun_foretells_blog :
    ∃ report result real report',
      ((inMemory {} ((Planner.empty.register (.standard .layout)).register (.standard .routes))
            default).run false ⟨"blog", "name:string", some "post:hasMany"⟩ {}).run
          { files := [(⟨"routes/web.php"⟩, "// mine\n")] } = ((report, result), real) ∧
      ((inMemory {} ((Planner.empty.register (.standard .layout)).register (.standard .routes))
            default).run true ⟨"blog", "name:string", some "post:hasMany"⟩ {}).run
          { files := [(⟨"routes/web.php"⟩, "// mine\n")] } =
        ((report', result.map fun generated => { generated with registry := {} }),
          { files := [(⟨"routes/web.php"⟩, "// mine\n")] }) ∧
      report'.lines = report.lines.map ReportLine.asPlanned := by
  have hdescribe : (⟨"blog", "name:string", some "post:hasMany"⟩ : Request).describe =
      .ok ⟨"Blog", [⟨"name", .string⟩], [⟨"Post", .hasMany⟩], []⟩ := by decide +kernel
  have hstandard : ((Planner.empty.register (.standard .layout)).register
      (.standard .routes) : Planner (StateM Memory)).HasStandardSteps := by
    intro kind step hstep
    cases kind <;> first | exact (Option.some.inj hstep).symm | cases hstep
  obtain ⟨plan, -, hrun⟩ := run_of_describe_ok {}
    { files := [(⟨"routes/web.php"⟩, "// mine\n")] } default {} hstandard hdescribe
  obtain ⟨-, report', hdry, hlines⟩ := dryRun_foretells hstandard (by decide) (by decide) hrun
    fun generated _ => Template.keepsApart_default generated.plan.artifacts
  exact ⟨_, _, _, report', hrun, hdry, hlines⟩

end foretells

end Generator

end Scaffold
