import Scaffold.Proofs.Generation.History
import Scaffold.Proofs.Generation.Moves
import Scaffold.Proofs.Generation.PlainNames
import Scaffold.Proofs.Plan.Restamping
import Scaffold.Proofs.Plan.Tables

/-!
# The clock

The same requests are worked off on the same project twice, each at two times. Main statement: the
clock only names migrations (`runErrands_agree`). The runs end in the same way, with the same
registry and with reports that say the same of each kind of artifact, and the two projects that are
left differ in nothing but the names of the migration files that the runs have created.

The two executions are followed side by side. Between two runs the second project is the first one
after the moves of all files created so far (`Shifted`); a run adds the moves of the files that it
creates (`shifted_run`), for which there was room on both projects, since the guard would have found
any file in their place (`Shifted.extend`).
-/

namespace Scaffold

/-! ## Outputs at another time -/

namespace Template

variable {moves : List Move} {first second : Timestamp}

/-- The time of a migration is not in its text. -/
theorem migrationText_congr (entity : Entity) (first second : Timestamp) :
    migrationText (entity.migration first) = migrationText (entity.migration second) := by
  unfold migrationText
  rfl

/-- The outputs of an artifact at another time are the same, after the moves of its files. -/
theorem outputs_restamped (hcoherent : Move.Coherent moves) (entity : Entity) {data : ArtifactData}
    (hdata : ∀ table, Plan.tableOf? data = some table →
      data = .migration (entity.migration first) ∧ ⟨table, first, second⟩ ∈ moves) :
    outputs {} (data.restamped second) =
        (outputs {} data).map (Output.renamed (Move.rename moves)) ∧
      ∀ output ∈ outputs {} data, Move.IsKnown moves output.path := by
  cases htable : Plan.tableOf? data with
  | none =>
    have hclear : ∀ output ∈ outputs {} data, Move.IsClear moves output.path := by
      intro output houtput move hmove
      have hapart : ∀ timestamp : Timestamp, output.path.same
          (({} : Paths).migrations.child (timestamp.migrationName move.table)) = false :=
        fun timestamp => same_child_migrations_eq_false
          (isFileName_migrationName timestamp (hcoherent.noSlash move hmove))
          (underscore_mem_migrationName timestamp) houtput htable
      exact ⟨hapart move.first, hapart move.second⟩
    have hsame : ∀ output ∈ outputs {} data, output.renamed (Move.rename moves) = output :=
      fun output houtput => output.renamed_eq_self _ (hclear output houtput).rename_eq
    refine ⟨?_, fun output houtput => Or.inr (hclear output houtput)⟩
    rw [data.restamped_of_tableOf? second htable, List.map_congr_left hsame, List.map_id']
  | some table =>
    obtain ⟨rfl, hmove⟩ := hdata table htable
    obtain rfl : entity.table = table := Option.some.inj htable
    have hpath := hcoherent.rename_source hmove
    unfold Move.source Move.target at hpath
    dsimp only at hpath
    rw [restamped_migration, outputs_migration, outputs_migration, List.map_singleton,
      List.forall_mem_singleton, Output.path_file]
    refine ⟨?_, Or.inl ⟨_, hmove, rfl⟩⟩
    unfold Output.renamed
    dsimp only
    rw [hpath, migrationText_congr]

/-- The outputs of a plan at another time are the same, after the moves of its files. -/
theorem entries_restamped {memory : Memory} {entities : List Entity} {kinds : List ArtifactKind}
    {plan plan' : Plan} (hcoherent : Move.Coherent moves)
    (hplans : memory.Plans first entities kinds plan) (hrestamps : plan.Restamps second plan')
    (hmoves : ∀ table ∈ plan.tables, ⟨table, first, second⟩ ∈ moves) :
    entries {} plan'.artifacts =
        Emission.renamed (Move.rename moves) (entries {} plan.artifacts) ∧
      ∀ entry ∈ entries {} plan.artifacts, Move.IsKnown moves entry.2.path := by
  have houtputs : ∀ artifact ∈ plan.artifacts,
      outputs {} (artifact.data.restamped second) =
          (outputs {} artifact.data).map (Output.renamed (Move.rename moves)) ∧
        ∀ output ∈ outputs {} artifact.data, Move.IsKnown moves output.path := by
    intro artifact hartifact
    have hdata : ∀ table, Plan.tableOf? artifact.data = some table →
        artifact.data = .migration (artifact.entity.migration first) ∧
          ⟨table, first, second⟩ ∈ moves := by
      intro table htable
      refine ⟨(hplans.eq_migration_of_mem hartifact htable).2.2, hmoves table ?_⟩
      exact List.mem_filterMap.mpr ⟨artifact, hartifact, htable⟩
    exact outputs_restamped hcoherent artifact.entity hdata
  constructor
  · unfold entries Emission.renamed
    rw [hrestamps.artifacts, List.flatMap_map, List.map_flatMap]
    apply List.flatMap_congr
    intro artifact hartifact
    have hkind : (artifact.restamped second).kind = artifact.kind :=
      ArtifactData.kind_restamped second
    have hdata : (artifact.restamped second).data = artifact.data.restamped second := rfl
    rw [hkind, hdata, (houtputs artifact hartifact).1, List.map_map, List.map_map]
    rfl
  · intro entry hentry
    obtain ⟨artifact, hartifact, hmem⟩ := List.mem_flatMap.mp hentry
    obtain ⟨output, houtput, rfl⟩ := List.mem_map.mp hmem
    exact (houtputs artifact hartifact).2 output houtput

end Template

namespace Generator

/-! ## Two projects side by side -/

/-- The second project is the first one after the moves. -/
structure Shifted (moves : List Move) (memory memory' : Memory) : Prop where
  /-- The files that are moved have other names, and nothing else is different. -/
  eq_renamed : memory' = memory.renamed (Move.rename moves)
  /-- All other files have nothing to do with the moves. -/
  known : ∀ key ∈ memory.keys, Move.IsKnown moves key
  /-- Each table has one file. -/
  coherent : Move.Coherent moves
  /-- The guard looks where migrations are written to. -/
  migrations : memory.paths.migrations = ({} : Paths).migrations

/-- The files that are moved are there. -/
def AreThere (moves : List Move) (memory : Memory) : Prop :=
  ∀ move ∈ moves, (memory.file? move.source).isSome = true

section shifted

variable {moves : List Move} {memory memory' : Memory}

/-- At the start nothing was moved. -/
theorem Shifted.start (h : memory.paths.migrations = ({} : Paths).migrations) :
    Shifted [] memory memory where
  eq_renamed := memory.renamed_id.symm
  known _ _ := Or.inr fun _ hmove => absurd hmove List.not_mem_nil
  coherent := ⟨fun _ hmove => absurd hmove List.not_mem_nil, List.nodup_nil⟩
  migrations := h

/-- A table that the guard lets pass has no file, whatever time is in the name. -/
theorem same_migrationName_eq_false
    (hmigrations : memory.paths.migrations = ({} : Paths).migrations) {table : String}
    (hslash : '/' ∉ table.toList) (hfree : memory.obstacle? table = none)
    (timestamp : Timestamp) {key : Path} (hkey : key ∈ memory.keys) :
    key.same (({} : Paths).migrations.child (timestamp.migrationName table)) = false := by
  rw [Bool.eq_false_iff]
  intro hsame
  refine Memory.obstacle?_ne_none_of_file timestamp hslash ?_ hfree
  rw [hmigrations]
  exact Memory.file?_isSome_iff.mpr ⟨key, hkey, hsame⟩

/-- There is room on both projects for the files of more tables, if the guard lets these pass. -/
theorem Shifted.extend (h : Shifted moves memory memory') (hthere : AreThere moves memory)
    (first second : Timestamp) {tables : List String} (hnodup : tables.Nodup)
    (hslash : ∀ table ∈ tables, '/' ∉ table.toList)
    (hfree : ∀ table ∈ tables, memory.obstacle? table = none) :
    Shifted (moves ++ Move.ofTables first second tables) memory memory' := by
  have hclear : ∀ key ∈ memory.keys, Move.IsClear (Move.ofTables first second tables) key := by
    intro key hkey move hmove
    obtain ⟨table, htable, rfl⟩ := List.mem_map.mp hmove
    exact ⟨same_migrationName_eq_false h.migrations (hslash table htable) (hfree table htable) first
        hkey,
      same_migrationName_eq_false h.migrations (hslash table htable) (hfree table htable) second
        hkey⟩
  have htables : (Move.ofTables first second tables).map Move.table = tables := by
    unfold Move.ofTables
    rw [List.map_map]
    exact List.map_id _
  refine ⟨?_, ?_, ⟨?_, ?_⟩, h.migrations⟩
  · rw [h.eq_renamed]
    exact Memory.renamed_congr fun key hkey => ((hclear key hkey).rename_append moves).symm
  · intro key hkey
    exact (h.known key hkey).append (hclear key hkey)
  · refine List.forall_mem_append.mpr ⟨h.coherent.noSlash, fun move hmove => ?_⟩
    obtain ⟨table, htable, rfl⟩ := List.mem_map.mp hmove
    exact hslash table htable
  · rw [List.map_append, htables, List.nodup_append]
    refine ⟨h.coherent.nodup, hnodup, ?_⟩
    -- the guard stops a table whose file is there
    rintro _ hmoved table htable rfl
    obtain ⟨move, hmove, rfl⟩ := List.mem_map.mp hmoved
    refine Memory.obstacle?_ne_none_of_file move.first (hslash _ htable) ?_ (hfree _ htable)
    rw [h.migrations]
    exact hthere move hmove

/-- Outputs that are the same but for the moves lead to projects that are. -/
theorem Shifted.afterOutputs (h : Shifted moves memory memory')
    {entries : List (ArtifactKind × Output)}
    (hpaths : ∀ entry ∈ entries, Move.IsKnown moves entry.2.path) :
    Shifted moves (memory.afterOutputs (entries.map Prod.snd))
      (memory'.afterOutputs ((Emission.renamed (Move.rename moves) entries).map Prod.snd)) := by
  have hknown : ∀ output ∈ entries.map Prod.snd, Move.IsKnown moves output.path := by
    intro output houtput
    obtain ⟨entry, hentry, rfl⟩ := List.mem_map.mp houtput
    exact hpaths entry hentry
  obtain ⟨heq, hkeys⟩ := Memory.afterOutputs_renamed h.coherent.renames h.known hknown
  refine ⟨?_, hkeys, h.coherent, ?_⟩
  · rw [h.eq_renamed, Emission.map_snd_renamed, heq]
  · rw [(memory.extends_afterOutputs _).paths, h.migrations]

end shifted

/-! ## Two plans -/

section plans

variable {moves : List Move} {memory memory' : Memory} {entities : List Entity}

/-- On the two projects there are two plans that differ in nothing but their time, and there is room
for the files of their migrations. -/
theorem Shifted.exists_plans (h : Shifted moves memory memory') (hthere : AreThere moves memory)
    (hplain : ∀ entity ∈ entities, '/' ∉ entity.table.toList) (first second : Timestamp) :
    ∃ plan plan',
      memory.exec (Planner.standard.plan Memory.storage first entities) = (.ok plan, memory) ∧
      memory'.exec (Planner.standard.plan Memory.storage second entities) = (.ok plan', memory') ∧
      memory.Plans first entities ArtifactKind.all plan ∧ plan.Restamps second plan' ∧
      Shifted (moves ++ Move.ofTables first second plan.tables) memory memory' := by
  obtain ⟨plan, hplan, hplans⟩ := memory.exec_plan Planner.hasStandardSteps_standard first entities
  obtain ⟨plan', hplan', hplans'⟩ :=
    memory'.exec_plan Planner.hasStandardSteps_standard second entities
  refine ⟨plan, plan', hplan, hplan', hplans, ?_, ?_⟩
  · refine hplans.restamps hplans' fun entity _ => ?_
    rw [h.eq_renamed]
    exact (Memory.obstacle?_renamed h.coherent h.migrations h.known entity.table).symm
  · have hempty : (Plan.empty entities).tables.Nodup := List.nodup_nil
    have hnodup : plan.tables.Nodup :=
      Planner.standard.nodup_tables_planEntities _ entities hempty memory plan memory hplan
    have hfree : ∀ table ∈ plan.tables, memory.obstacle? table = none ∧
        ∃ entity ∈ entities, entity.table = table := by
      intro table htable
      obtain ⟨hnone, entity, hentity, heq, -⟩ :=
        hplans.exists_of_plansTable (Plan.mem_tables.mp htable)
      exact ⟨hnone, entity, hentity, heq⟩
    refine h.extend hthere first second hnodup ?_ fun table htable => (hfree table htable).1
    intro table htable
    obtain ⟨entity, hentity, rfl⟩ := (hfree table htable).2
    exact hplain entity hentity

end plans

/-! ## One run -/

/-- A run to be made at one of two times. -/
structure Errand where
  /-- What is asked for. -/
  request : Request
  /-- It is a dry run. -/
  dryRun : Bool
  /-- The time of the run. -/
  first : Timestamp
  /-- The other time of the run. -/
  second : Timestamp

/-- The tables of all entities of the request have names without slashes. -/
def Errand.HasPlainTables (errand : Errand) : Prop :=
  ∀ description, errand.request.describe = .ok description →
    ∀ entity ∈ description.root.expand, '/' ∉ entity.table.toList

/-- A request with plain names has tables with plain names. -/
theorem Errand.hasPlainTables {errand : Errand} (h : errand.request.HasPlainNames) :
    errand.HasPlainTables :=
  fun description hdescribe _ hentity =>
    ((h description hdescribe).of_mem_expand hentity).table.noSlash

/-- The migration files that the run creates at the first time. -/
def Errand.created (errand : Errand) (outcome : Report × Except Error Generated) : List Move :=
  match outcome.2 with
  | .ok generated =>
    if errand.dryRun then []
    else Move.ofTables errand.first errand.second generated.plan.tables
  | .error _ => []

section created

variable {errand : Errand}

/-- A run that fails creates no table. -/
theorem Errand.created_of_error (errand : Errand) (report : Report) (e : Error) :
    errand.created (report, .error e) = [] := rfl

/-- A dry run creates no table. -/
theorem Errand.created_of_dryRun (h : errand.dryRun = true)
    (outcome : Report × Except Error Generated) : errand.created outcome = [] := by
  unfold created
  cases outcome.2 <;> simp [h]

/-- A real run that goes through creates the tables of its plan. -/
theorem Errand.created_of_ok (h : errand.dryRun = false) (report : Report)
    (generated : Generated) :
    errand.created (report, .ok generated) =
      Move.ofTables errand.first errand.second generated.plan.tables := by
  unfold created
  rw [h]
  rfl

end created

/-- Two runs end in the same way, with the same registry or the same error, and their reports agree
line by line. -/
structure Agrees (outcome outcome' : Report × Except Error Generated) : Prop where
  /-- Both have the same registry, or the same error. -/
  ended : outcome'.2.map Generated.registry = outcome.2.map Generated.registry
  /-- Each line has the same status and is of the same kind of artifact. -/
  lines : outcome'.1.lines.map ReportLine.verdict = outcome.1.lines.map ReportLine.verdict

/-- The same is left out of both plans for the same reasons. -/
theorem verdicts_skippedLines {timestamp : Timestamp} {plan plan' : Plan}
    (h : plan.Restamps timestamp plan') :
    (skippedLines plan').map ReportLine.verdict = (skippedLines plan).map ReportLine.verdict := by
  have hverdicts : ∀ plan : Plan, (skippedLines plan).map ReportLine.verdict =
      (plan.skipped.map fun skipped => (skipped.entity, skipped.kind)).map
        fun skipped => (.skipped, some skipped.2) := by
    intro plan
    unfold skippedLines
    rw [List.map_map, List.map_map]
    rfl
  rw [hverdicts, hverdicts, h.skipped]

/-- Outcomes agree if their plans do and their lines say the same. -/
theorem Agrees.of_lines {timestamp : Timestamp} {plan plan' : Plan} {registry : Registry}
    {warnings lines lines' : List ReportLine} (h : plan.Restamps timestamp plan')
    (hlines : lines'.map ReportLine.verdict = lines.map ReportLine.verdict) :
    Agrees ({ lines := warnings ++ skippedLines plan ++ lines }, .ok { plan, registry })
      ({ lines := warnings ++ skippedLines plan' ++ lines' },
        .ok { plan := plan', registry }) where
  ended := rfl
  lines := by
    simp only [List.map_append, verdicts_skippedLines h, hlines]

section run

open Template

variable {moves : List Move} {memory memory' after after' : Memory} {errand : Errand}
  {registry : Registry} {outcome outcome' : Report × Except Error Generated}

/-- A run on the two projects, at the two times, leads to two projects that differ by the moves of
the files that it creates as well. -/
theorem shifted_run (hshifted : Shifted moves memory memory') (hthere : AreThere moves memory)
    (hplain : errand.HasPlainTables)
    (h : ((inMemory {} .standard errand.first).run errand.dryRun errand.request registry).run
      memory = (outcome, after))
    (h' : ((inMemory {} .standard errand.second).run errand.dryRun errand.request registry).run
      memory' = (outcome', after')) :
    Agrees outcome outcome' ∧ Shifted (moves ++ errand.created outcome) after after' ∧
      AreThere (moves ++ errand.created outcome) after := by
  cases hdescribe : errand.request.describe with
  | error cause =>
    rw [run_of_describe_error hdescribe, Prod.mk.injEq] at h h'
    obtain ⟨rfl, rfl⟩ := h
    obtain ⟨rfl, rfl⟩ := h'
    rw [errand.created_of_error, List.append_nil]
    exact ⟨⟨rfl, rfl⟩, hshifted, hthere⟩
  | ok description =>
    obtain ⟨plan, plan', hplan, hplan', hplans, hrestamps, hextended⟩ :=
      hshifted.exists_plans hthere (hplain description hdescribe) errand.first errand.second
    obtain ⟨hentries, hpaths⟩ := entries_restamped hextended.coherent hplans hrestamps
      fun table htable => List.mem_append_right _ (List.mem_map_of_mem htable)
    cases hdry : errand.dryRun with
    | true =>
      rw [hdry, run_of_emitAll hdescribe hplan (Emission.run_emitAll_dry memory [] _),
        Prod.mk.injEq] at h
      rw [hdry, run_of_emitAll hdescribe hplan' (Emission.run_emitAll_dry memory' [] _),
        Prod.mk.injEq] at h'
      obtain ⟨rfl, rfl⟩ := h
      obtain ⟨rfl, rfl⟩ := h'
      have hnone : ∀ key ∈ ([] : Emission.Expected).map Prod.fst, Move.IsKnown
          (moves ++ Move.ofTables errand.first errand.second plan.tables) key :=
        fun _ hkey => absurd hkey List.not_mem_nil
      have hlines := Emission.verdicts_previewedLines_renamed hextended.coherent.renames
        hextended.known hnone hpaths
      rw [← hextended.eq_renamed, ← hentries] at hlines
      rw [errand.created_of_dryRun hdry, List.append_nil]
      exact ⟨.of_lines hrestamps hlines, hshifted, hthere⟩
    | false =>
      rw [hdry, run_of_emitAll hdescribe hplan (Emission.run_emitAll memory [] _),
        Prod.mk.injEq] at h
      rw [hdry, run_of_emitAll hdescribe hplan' (Emission.run_emitAll memory' [] _),
        Prod.mk.injEq] at h'
      obtain ⟨rfl, rfl⟩ := h
      obtain ⟨rfl, rfl⟩ := h'
      have hlines := Emission.verdicts_emittedLines_renamed hextended.coherent.renames
        hextended.known hpaths
      have hafter := hextended.afterOutputs hpaths
      rw [← hextended.eq_renamed, ← hentries] at hlines
      rw [← hentries] at hafter
      rw [errand.created_of_ok hdry]
      refine ⟨.of_lines hrestamps hlines, hafter, List.forall_mem_append.mpr ⟨?_, ?_⟩⟩
      · intro move hmove
        exact (memory.extends_afterOutputs _).isSome_file? (hthere move hmove)
      · intro move hmove
        obtain ⟨table, htable, rfl⟩ := List.mem_map.mp hmove
        rw [map_snd_entries]
        exact Memory.file?_isSome_of_plansTable hplans (Plan.mem_tables.mp htable)

end run

/-! ## A history -/

/-- The registry after a run: that of the run, or the one from before if the run has failed. -/
def nextRegistry (registry : Registry) (outcome : Report × Except Error Generated) : Registry :=
  match outcome.2 with
  | .ok generated => generated.registry
  | .error _ => registry

/-- Makes the runs one after another at the times that the clock tells, each with the registry that
the run before it has left, and answers with what each came to. -/
def runErrands (clock : Errand → Timestamp) :
    List Errand → Registry → StateM Memory (List (Report × Except Error Generated))
  | [], _ => return []
  | errand :: rest, registry => do
    let outcome ← (inMemory {} .standard (clock errand)).run errand.dryRun errand.request registry
    let outcomes ← runErrands clock rest (nextRegistry registry outcome)
    return outcome :: outcomes

/-- The migration files that a history of runs creates at the first times. -/
def createdBy (errands : List Errand) (outcomes : List (Report × Except Error Generated)) :
    List Move :=
  (List.zipWith Errand.created errands outcomes).flatten

section history

variable {moves : List Move} {memory memory' after after' : Memory} {errands : List Errand}
  {registry : Registry} {outcomes outcomes' : List (Report × Except Error Generated)}

/-- Runs that agree hand on the same registry. -/
theorem Agrees.nextRegistry_eq {outcome outcome' : Report × Except Error Generated}
    (h : Agrees outcome outcome') (registry : Registry) :
    nextRegistry registry outcome' = nextRegistry registry outcome := by
  have hended : ∀ outcome : Report × Except Error Generated, nextRegistry registry outcome =
      (outcome.2.map Generated.registry).toOption.getD registry := by
    intro outcome
    unfold nextRegistry
    cases outcome.2 <;> rfl
  rw [hended, hended, h.ended]

/-- What holds of one run holds of a history. -/
theorem shifted_runErrands (hshifted : Shifted moves memory memory')
    (hthere : AreThere moves memory) (hplain : ∀ errand ∈ errands, errand.HasPlainTables)
    (h : (runErrands Errand.first errands registry).run memory = (outcomes, after))
    (h' : (runErrands Errand.second errands registry).run memory' = (outcomes', after')) :
    List.Forall₂ Agrees outcomes outcomes' ∧
      Shifted (moves ++ createdBy errands outcomes) after after' ∧
      AreThere (moves ++ createdBy errands outcomes) after := by
  induction errands generalizing moves memory memory' registry outcomes outcomes' with
  | nil =>
    cases h
    cases h'
    have hnone : createdBy [] [] = [] := rfl
    rw [hnone, List.append_nil]
    exact ⟨.nil, hshifted, hthere⟩
  | cons errand rest ih =>
    rw [List.forall_mem_cons] at hplain
    rcases hrun : ((inMemory {} .standard errand.first).run errand.dryRun errand.request
      registry).run memory with ⟨outcome, middle⟩
    rcases hrun' : ((inMemory {} .standard errand.second).run errand.dryRun errand.request
      registry).run memory' with ⟨outcome', middle'⟩
    obtain ⟨hagrees, hmiddle, hthere⟩ := shifted_run hshifted hthere hplain.1 hrun hrun'
    rcases hrest : (runErrands Errand.first rest (nextRegistry registry outcome)).run middle with
      ⟨others, last⟩
    rcases hrest' : (runErrands Errand.second rest (nextRegistry registry outcome')).run middle'
      with ⟨others', last'⟩
    rw [runErrands, run_bind hrun, run_bind hrest] at h
    rw [runErrands, run_bind hrun', run_bind hrest'] at h'
    cases h
    cases h'
    rw [hagrees.nextRegistry_eq] at hrest'
    obtain ⟨hothers, hlast, hthere⟩ := ih hmiddle hthere hplain.2 hrest hrest'
    rw [List.append_assoc] at hlast hthere
    exact ⟨.cons hagrees hothers, hlast, hthere⟩

/-- The clock only names migrations: runs at other times end in the same way, with the same registry
or the same error, and with reports that agree line by line; and the projects that they leave are
the same but for the names of the migration files that the runs have created, which all stay apart.

The guard has to look where migrations are written to. Elsewhere nothing would keep a run from
writing a migration again, and whether that is the same file would depend on the times. -/
theorem runErrands_agree (hmigrations : memory.paths.migrations = ({} : Paths).migrations)
    (hplain : ∀ errand ∈ errands, errand.HasPlainTables) (registry : Registry) :
    ∃ outcomes after outcomes' after',
      (runErrands Errand.first errands registry).run memory = (outcomes, after) ∧
      (runErrands Errand.second errands registry).run memory = (outcomes', after') ∧
      List.Forall₂ Agrees outcomes outcomes' ∧
      after' = after.renamed (Move.rename (createdBy errands outcomes)) ∧
      Path.Renames (· ∈ after.keys) (Move.rename (createdBy errands outcomes)) ∧
      ∀ move ∈ createdBy errands outcomes, (after.file? move.source).isSome = true ∧
        Move.rename (createdBy errands outcomes) move.source = move.target := by
  rcases h : (runErrands Errand.first errands registry).run memory with ⟨outcomes, after⟩
  rcases h' : (runErrands Errand.second errands registry).run memory with ⟨outcomes', after'⟩
  have hstart : AreThere [] memory := fun _ hmove => absurd hmove List.not_mem_nil
  obtain ⟨hagrees, hshifted, hthere⟩ :=
    shifted_runErrands (Shifted.start hmigrations) hstart hplain h h'
  rw [List.nil_append] at hshifted hthere
  refine ⟨outcomes, after, outcomes', after', rfl, rfl, hagrees, hshifted.eq_renamed,
    hshifted.coherent.renames.mono hshifted.known, ?_⟩
  intro move hmove
  exact ⟨hthere move hmove, hshifted.coherent.rename_source hmove⟩

/-- A blog is generated, and then what it owns, both times on another day. -/
def blogErrands : List Errand :=
  [⟨⟨"blog", "name:string", some "post:hasMany"⟩, false, ⟨2024, 1, 2, 3, 4, 5⟩,
      ⟨2026, 1, 2, 3, 4, 5⟩⟩,
    ⟨⟨"post", "title:string", none⟩, false, ⟨2024, 1, 2, 3, 4, 5⟩, ⟨2025, 1, 2, 3, 4, 5⟩⟩]

/-- The blog's migration has another name, and all the rest is as it was. -/
theorem runErrands_agree_blog :
    ∃ outcomes after outcomes' after' rename,
      (runErrands Errand.first blogErrands {}).run {} = (outcomes, after) ∧
      (runErrands Errand.second blogErrands {}).run {} = (outcomes', after') ∧
      List.Forall₂ Agrees outcomes outcomes' ∧ after' = after.renamed rename ∧
      (after.file? ⟨"database/migrations/2024_01_02_030405_create_blogs_table.php"⟩).isSome = true ∧
      rename ⟨"database/migrations/2024_01_02_030405_create_blogs_table.php"⟩ =
        ⟨"database/migrations/2026_01_02_030405_create_blogs_table.php"⟩ := by
  have hmigrations : ({} : Memory).paths.migrations = ({} : Paths).migrations := rfl
  have hplain : ∀ errand ∈ blogErrands, errand.HasPlainTables := by
    intro errand herrand
    apply Errand.hasPlainTables
    rcases List.mem_pair.mp herrand with rfl | rfl
    · exact Request.hasPlainNames ⟨by decide, by decide⟩ ⟨by decide, by decide⟩
    · exact Request.hasPlainNames ⟨by decide, by decide⟩ ⟨by decide, by decide⟩
  obtain ⟨outcomes, after, outcomes', after', hrun, hrun', hagrees, heq, -, hmoves⟩ :=
    runErrands_agree hmigrations hplain {}
  have hblog : (⟨"blog", "name:string", some "post:hasMany"⟩ : Request).describe =
      .ok ⟨"Blog", [⟨"name", .string⟩], [⟨"Post", .hasMany⟩], []⟩ := by decide +kernel
  rcases hfirst : ((inMemory {} .standard ⟨2024, 1, 2, 3, 4, 5⟩).run false
    ⟨"blog", "name:string", some "post:hasMany"⟩ {}).run {} with ⟨outcome, middle⟩
  have hcreates : CreatesTable outcome
      (Entity.root "Blog" [⟨"name", .string⟩] [⟨"Post", .hasMany⟩]).table := by
    refine createsTable_of_free hblog ?_ (Memory.obstacle?_empty _) hfirst
    rw [Entity.expand_eq]
    exact List.mem_cons_self
  have htable : (Entity.root "Blog" [⟨"name", .string⟩] [⟨"Post", .hasMany⟩]).table = "blogs" := by
    decide +kernel
  rw [htable] at hcreates
  obtain ⟨generated, hgenerated, hplanned⟩ := hcreates
  rcases hrest : (runErrands Errand.first [⟨⟨"post", "title:string", none⟩, false,
    ⟨2024, 1, 2, 3, 4, 5⟩, ⟨2025, 1, 2, 3, 4, 5⟩⟩] (nextRegistry {} outcome)).run middle with
    ⟨others, last⟩
  have hmove : ⟨"blogs", ⟨2024, 1, 2, 3, 4, 5⟩, ⟨2026, 1, 2, 3, 4, 5⟩⟩ ∈
      createdBy blogErrands outcomes := by
    obtain ⟨report, result⟩ := outcome
    obtain rfl : result = .ok generated := hgenerated
    rw [blogErrands, runErrands, run_bind hfirst, run_bind hrest] at hrun
    cases hrun
    unfold createdBy blogErrands
    rw [List.zipWith_cons_cons, List.flatten_cons, Errand.created_of_ok rfl]
    exact List.mem_append_left _ (List.mem_map_of_mem (Plan.mem_tables.mpr hplanned))
  have hsource : Move.source ⟨"blogs", ⟨2024, 1, 2, 3, 4, 5⟩, ⟨2026, 1, 2, 3, 4, 5⟩⟩ =
      ⟨"database/migrations/2024_01_02_030405_create_blogs_table.php"⟩ := by decide +kernel
  have htarget : Move.target ⟨"blogs", ⟨2024, 1, 2, 3, 4, 5⟩, ⟨2026, 1, 2, 3, 4, 5⟩⟩ =
      ⟨"database/migrations/2026_01_02_030405_create_blogs_table.php"⟩ := by decide +kernel
  obtain ⟨hthere, hrenamed⟩ := hmoves _ hmove
  rw [hsource] at hthere hrenamed
  rw [htarget] at hrenamed
  exact ⟨outcomes, after, outcomes', after', _, hrun, hrun', hagrees, heq, hthere, hrenamed⟩

end history

end Generator

end Scaffold
