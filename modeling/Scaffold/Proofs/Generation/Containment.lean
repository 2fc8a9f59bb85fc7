import Scaffold.Proofs.Generation.Interruption
import Scaffold.Proofs.Generation.MigrationFile
import Scaffold.Proofs.Generation.Registration
import Scaffold.Proofs.Path.Inside
import Scaffold.Proofs.Plan.References
import Scaffold.Proofs.Plan.Tasks
import Scaffold.Proofs.Storage.Logging

/-!
# Generation and the directory of the project

Under the default configuration all places are below the directory of the project, but the names of
entities go into paths as they are, and a name may be absolute or lead to a directory above. Main
statement: whatever the storage does, a request hands only relative paths without `..` to it exactly
if every entity that is planned for it has a name and a table that stay inside
(`calls_keepTo_isInside_iff`). Nothing demands this of a request (`item_written_outside`).

* The name of an entity goes into the paths of its classes, its table into those of its migration
  and its pages (`isInside_of_mem_outputs`).
* The run on a storage with a log comes to what the run on the storage comes to, and its calls keep
  to the paths of the outputs and their directories (`logged_run`).
* A run that ends well has written every whole file under its path (`exists_write_of_emitAll`).
-/

namespace Scaffold

/-! ## The paths of an entity -/

/-- The name and the table of an entity lead out of no directory. -/
structure Entity.StaysInside (entity : Entity) : Prop where
  /-- The names of its classes. -/
  classes : (⟨entity.name ++ ".php"⟩ : Path).IsInside
  /-- The directory of its pages. -/
  pages : (⟨entity.table⟩ : Path).IsInside

namespace Template

variable {timestamp : Timestamp} {entities : List Entity} {entity : Entity} {kind : ArtifactKind}
  {data : ArtifactData} {output : Output}

/-- The start of the name of a migration does not lead to another directory. -/
theorem isOrdinary_stamp_append (timestamp : Timestamp) :
    Path.IsOrdinary (timestamp.stamp ++ "_create_").toList where
  noSlash := by simp [timestamp.slash_not_mem_stamp]
  exists_ne_dot := ⟨'_', by simp, by decide⟩

/-- Neither does the ending of a script. -/
theorem isOrdinary_php : Path.IsOrdinary ".php".toList :=
  ⟨by decide, 'p', by decide, by decide⟩

/-- Under the default configuration, what is rendered for an entity stays inside where the entity
does. -/
theorem isInside_of_mem_outputs (h : entity.StaysInside)
    (hplanned : entity.planned? timestamp entities kind = some data)
    (hmem : output ∈ outputs {} data) : output.path.IsInside := by
  have hclass : ∀ (directory : Path) (ending content : String), directory.IsInside →
      Path.IsOrdinary (ending ++ ".php").toList →
      (classFile directory (entity.name ++ ending) content).path.IsInside := by
    intro directory ending content hdirectory hending
    unfold classFile
    rw [Output.path_file, Path.isInside_child_iff, String.append_assoc]
    exact ⟨hdirectory, h.classes.change_ending isOrdinary_php hending⟩
  cases kind with
  | model =>
    obtain rfl := Option.some.inj hplanned
    rw [List.mem_singleton.mp hmem]
    unfold classFile
    rw [Output.path_file, Path.isInside_child_iff]
    exact ⟨by decide, h.classes⟩
  | migration =>
    obtain rfl := Option.some.inj hplanned
    have hname : (entity.migration timestamp).fileStem ++ ".php" =
        timestamp.stamp ++ "_create_" ++ entity.table ++ "_table.php" := by
      rw [← String.toList_inj]
      simp [Entity.migration, Schema.logicalName]
    rw [List.mem_singleton.mp hmem, Output.path_file, Path.isInside_child_iff, hname]
    refine ⟨by decide, ?_⟩
    exact h.pages.surround (isOrdinary_stamp_append timestamp)
      ⟨by decide, '_', by decide, by decide⟩
  | formRequest =>
    obtain rfl := Option.some.inj hplanned
    rw [List.mem_singleton.mp hmem]
    exact hclass _ "Request" _ (by decide) ⟨by decide, 'R', by decide, by decide⟩
  | apiController =>
    obtain rfl := Option.some.inj hplanned
    rw [List.mem_singleton.mp hmem]
    exact hclass _ "Controller" _ (by decide) ⟨by decide, 'C', by decide, by decide⟩
  | webController =>
    obtain rfl := Option.some.inj hplanned
    rw [List.mem_singleton.mp hmem]
    exact hclass _ "Controller" _ (by decide) ⟨by decide, 'C', by decide, by decide⟩
  | routes =>
    obtain rfl := Option.some.inj hplanned
    have hweb : ({} : Paths).webRoutes.IsInside := by decide
    have hapi : ({} : Paths).apiRoutes.IsInside := by decide
    rcases List.mem_pair.mp hmem with rfl | rfl
    · exact hweb
    · exact hapi
  | views =>
    obtain rfl := Option.some.inj hplanned
    obtain ⟨page, -, rfl⟩ := List.mem_map.mp hmem
    have hpage : (⟨page.fileName ++ ".blade.php"⟩ : Path).IsInside := by cases page <;> decide
    unfold pageFile
    rw [Output.path_file, Path.isInside_child_iff, Path.isInside_child_iff]
    exact ⟨⟨by decide, h.pages⟩, hpage⟩
  | layout =>
    have hlayout : ({} : Paths).layout.IsInside := by decide
    unfold Entity.planned? at hplanned
    split_ifs at hplanned
    obtain rfl := Option.some.inj hplanned
    rw [List.mem_singleton.mp hmem]
    exact hlayout

end Template

/-! ## What is planned on any storage -/

namespace Planner

variable {σ : Type} (storage : Storage (StateM σ)) (timestamp : Timestamp) (entities : List Entity)

/-- The artifacts of the plan are what the standard steps plan for the entities. -/
def HoldsPlanned (timestamp : Timestamp) (entities : List Entity) (plan : Plan) : Prop :=
  ∀ artifact ∈ plan.artifacts, artifact.entity ∈ entities ∧
    ∃ kind, artifact.entity.planned? timestamp entities kind = some artifact.data

/-- On any storage, the standard planner plans what is planned for the entities, or less. -/
theorem yields_plan :
    Yields (standard.plan storage timestamp entities) (HoldsPlanned timestamp entities) := by
  refine (yields_account hasStandardSteps_standard).imp ?_
  rintro plan ⟨account, haccount⟩ artifact hartifact
  rw [haccount.artifacts] at hartifact
  obtain ⟨⟨entity, kind⟩, htask, rfl, hplanned⟩ := haccount.planned?_of_mem hartifact
  exact ⟨(List.mem_product.mp htask).1, kind, hplanned⟩

end Planner

/-! ## Calls that write -/

namespace Emission

variable {σ : Type} {storage : Storage (StateM σ)} {state after : σ × List Call}
  {expected : Expected} {outputs : List (ArtifactKind × Output)} {lines : List ReportLine}
  {kind : ArtifactKind} {path : Path} {content : String}

/-- A whole file that was delivered was written under its path. -/
theorem exists_write_of_deliver {outcome : Outcome}
    (h : perform (deliver storage.recording (.file path content)) state = (.ok outcome, after)) :
    ∃ call ∈ after.2, call.operation = .write ∧ call.subject = path.text := by
  unfold deliver at h
  rcases hparent : perform (storage.recording.ensureParent path) state with ⟨made, middle⟩
  cases made with
  | error e =>
    rw [perform_bind_error hparent] at h
    cases h
  | ok _ =>
    rw [perform_bind_ok hparent] at h
    have hcall := perform_logged .write path.text (storage.write path content) middle
    change perform (storage.recording.write path content) middle = _ at hcall
    rcases hwrite : (perform (storage.write path content) middle.1).1 with e | _
    · rw [hwrite] at hcall
      rw [perform_bind_error hcall] at h
      cases h
    · rw [hwrite] at hcall
      rw [perform_bind_ok hcall] at h
      cases h
      exact ⟨_, List.mem_append_right _ (List.mem_singleton_self _), rfl, rfl⟩

/-- If nothing failed, every whole file was written under its path. -/
theorem exists_write_of_emitAll
    (h : (emitAll storage.recording false expected outputs).run state = ((lines, .ok ()), after))
    (hmem : (kind, .file path content) ∈ outputs) :
    ∃ call ∈ after.2, call.operation = .write ∧ call.subject = path.text := by
  induction outputs generalizing state lines with
  | nil => exact absurd hmem List.not_mem_nil
  | cons entry rest ih =>
    obtain ⟨outcome, middle, others, hdeliver, hrest, -⟩ := exists_of_emitAll_cons h
    rcases List.mem_cons.mp hmem with rfl | hmem
    · -- the log only grows while the other outputs are written
      obtain ⟨call, hcall, hwrites⟩ := exists_write_of_deliver hdeliver
      obtain ⟨calls, hlog, -⟩ := explained_emitAll storage false expected rest middle
      rw [hrest] at hlog
      exact ⟨call, hlog ▸ List.mem_append_left _ hcall, hwrites⟩
    · exact ih hrest hmem

end Emission

/-! ## Runs with a log -/

namespace Generator

open Template

section logged

variable {σ : Type} {storage : Storage (StateM σ)} {timestamp : Timestamp} {dryRun : Bool}
  {request : Request} {good : Path → Prop}

/-- The generator on a storage under the default configuration. -/
def standard (storage : Storage (StateM σ)) (timestamp : Timestamp) : Generator (StateM σ) where
  storage := storage
  planner := .standard
  renderer := Template.renderer {}
  timestamp := timestamp

variable (storage timestamp dryRun) in
/-- With a log the run comes to the same, and its calls keep to paths that satisfy `good` if the
paths of all outputs satisfy it, and the directories of all such paths. -/
theorem logged_run (registry : Registry)
    (hdirectory : ∀ path directory, good path → path.directory? = some directory → good directory)
    (hgood : ∀ description, request.describe = .ok description →
      ∀ entity ∈ description.root.expand, ∀ kind data,
        entity.planned? timestamp description.root.expand kind = some data →
        ∀ output ∈ outputs {} data, good output.path) (start : σ × List Call) :
    ∃ calls, ((logging storage .standard (Template.renderer {}) timestamp).run dryRun
      request registry).run
        start = ((((standard storage timestamp).run dryRun request registry).run start.1).1,
          (((standard storage timestamp).run dryRun request registry).run start.1).2,
          start.2 ++ calls) ∧
      ∀ call ∈ calls, call.KeepsTo good := by
  rcases (standard storage timestamp).stops_or_reaches request start.1 with
    ⟨lines, e, after, hstops⟩ | ⟨description, plan, outputs, planned, hreaches⟩
  · rw [run_of_stops hstops]
    cases hstops with
    | parse hdescribe =>
      refine ⟨[], ?_, by simp⟩
      rw [List.append_nil]
      exact run_of_stops (.parse hdescribe) dryRun registry
    | @plan description _ _ hdescribe hplan =>
      obtain ⟨calls, hlogged, hcalls⟩ :=
        logged_plan good storage timestamp description.root.expand start
      change perform (Planner.standard.plan storage timestamp _) start.1 = _ at hplan
      rw [hplan] at hlogged
      exact ⟨calls, run_of_stops (.plan hdescribe hlogged) dryRun registry, hcalls⟩
    | render hdescribe hplan hrender =>
      rw [show (standard storage timestamp).renderer = Template.renderer {} from rfl,
        renderAll_renderer] at hrender
      cases hrender
  · have hplan : perform (Planner.standard.plan storage timestamp description.root.expand) start.1 =
        (.ok plan, planned) := hreaches.plans
    have houtputs : entries {} plan.artifacts = outputs :=
      Except.ok.inj ((renderAll_renderer {} plan.artifacts).symm.trans hreaches.renders)
    have hpaths : ∀ entry ∈ outputs, good entry.2.path := by
      rw [← houtputs]
      intro entry hentry
      obtain ⟨artifact, hartifact, hmem⟩ := List.mem_flatMap.mp hentry
      obtain ⟨output, houtput, rfl⟩ := List.mem_map.mp hmem
      obtain ⟨hentity, kind, hplanned⟩ :=
        Planner.yields_plan storage timestamp _ _ _ _ hplan artifact hartifact
      exact hgood description hreaches.describes _ hentity kind _ hplanned output houtput
    obtain ⟨calls, hlogged, hcalls⟩ :=
      logged_plan good storage timestamp description.root.expand start
    rw [hplan] at hlogged
    obtain ⟨more, hemit, hmore⟩ :=
      logged_emitAll storage hdirectory dryRun [] hpaths (planned, start.2 ++ calls)
    have hreaches' :
        (logging storage .standard (Template.renderer {}) timestamp).Reaches request start
        description plan outputs (planned, start.2 ++ calls) :=
      ⟨hreaches.describes, hlogged, hreaches.renders⟩
    refine ⟨calls ++ more, ?_, List.forall_mem_append.mpr ⟨hcalls, hmore⟩⟩
    rw [← List.append_assoc]
    rcases hplain : (Emission.emitAll storage dryRun [] outputs).run planned with
      ⟨⟨lines, result⟩, after⟩
    rw [hplain] at hemit
    cases result with
    | error e =>
      rw [run_of_reaches_error hreaches hplain, run_of_reaches_error hreaches' hemit]
    | ok done =>
      rw [run_of_reaches_ok hreaches hplain, run_of_reaches_ok hreaches' hemit]

/-- On a project in memory a run writes the model of every entity and its pages. -/
theorem exists_write_of_mem_expand {description : Description} {entity : Entity}
    (hdescribe : request.describe = .ok description) (hentity : entity ∈ description.root.expand)
    (memory : Memory) (timestamp : Timestamp) (registry : Registry) {data : ArtifactData}
    (kind : ArtifactKind)
    (hplanned : entity.planned? timestamp description.root.expand kind = some data)
    (htable : Plan.tableOf? data = none) {path : Path} {content : String}
    (hfile : .file path content ∈ outputs {} data) :
    ∃ call ∈ (((logging Memory.storage .standard (Template.renderer {}) timestamp).run false request
        registry).run (memory, [])).2.2,
      call.operation = .write ∧ call.subject = path.text := by
  obtain ⟨plan, hplan, hplans⟩ :=
    memory.exec_plan Planner.hasStandardSteps_standard timestamp description.root.expand
  obtain ⟨calls, hlogged, -⟩ := logged_plan (fun _ => True) Memory.storage timestamp
    description.root.expand (memory, [])
  change perform (Planner.standard.plan Memory.storage timestamp _) memory = _ at hplan
  rw [hplan] at hlogged
  have hreaches :
      (logging Memory.storage .standard (Template.renderer {}) timestamp).Reaches request
      (memory, []) description plan (entries {} plan.artifacts) (memory, [] ++ calls) :=
    ⟨hdescribe, hlogged, renderAll_renderer {} plan.artifacts⟩
  have hanyDirectory : ∀ path directory, (fun _ : Path => True) path →
      path.directory? = some directory → (fun _ : Path => True) directory := fun _ _ _ _ => trivial
  have hanyPath : ∀ entry ∈ entries {} plan.artifacts, (fun _ : Path => True) entry.2.path :=
    fun _ _ => trivial
  obtain ⟨more, hemit, -⟩ :=
    logged_emitAll Memory.storage hanyDirectory false [] hanyPath (memory, [] ++ calls)
  rw [Emission.run_emitAll] at hemit
  rw [run_of_reaches_ok hreaches hemit]
  have hartifact : ⟨entity, data⟩ ∈ plan.artifacts :=
    hplans.mem_artifacts_of_planned? hentity (ArtifactKind.mem_all kind) hplanned htable
  have hentry : (kind, .file path content) ∈ entries {} plan.artifacts := by
    refine List.mem_flatMap.mpr ⟨_, hartifact, List.mem_map.mpr ⟨_, hfile, ?_⟩⟩
    exact congrArg (·, _) (Entity.kind_of_planned? hplanned)
  exact Emission.exists_write_of_emitAll hemit hentry

/-- Whatever the storage does, a request hands no path to it that is absolute or leads to a
directory above, exactly if all entities that it describes or adds have names and tables that stay
inside. -/
theorem calls_keepTo_isInside_iff (request : Request) :
    (∀ {σ : Type} (storage : Storage (StateM σ)) (timestamp : Timestamp) (dryRun : Bool)
      (registry : Registry) (start : σ),
      ∀ call ∈ (((logging storage .standard (Template.renderer {}) timestamp).run dryRun request
        registry).run (start, [])).2.2, call.KeepsTo Path.IsInside) ↔
    ∀ description, request.describe = .ok description →
      ∀ entity ∈ description.root.expand, entity.StaysInside := by
  constructor
  · intro h description hdescribe entity hentity
    have hfile : ∀ kind data, entity.planned? default description.root.expand kind = some data →
        Plan.tableOf? data = none → ∀ path content, .file path content ∈ outputs {} data →
        path.IsInside := by
      intro kind data hplanned htable path content hfile
      obtain ⟨call, hcall, hoperation, hsubject⟩ :=
        exists_write_of_mem_expand hdescribe hentity {} default {} kind hplanned htable hfile
      have hinside := h Memory.storage default false {} {} call hcall (by rw [hoperation]; rfl)
      rwa [hsubject] at hinside
    have hmodel := hfile .model _ rfl rfl _ _ (List.mem_singleton_self _)
    have hpage := hfile .views _ rfl rfl _ _ List.mem_cons_self
    rw [Path.isInside_child_iff] at hmodel
    rw [Path.isInside_child_iff, Path.isInside_child_iff] at hpage
    exact ⟨hmodel.2, hpage.1.2⟩
  · intro h σ storage timestamp dryRun registry start
    have hgood : ∀ description, request.describe = .ok description →
        ∀ entity ∈ description.root.expand, ∀ kind data,
          entity.planned? timestamp description.root.expand kind = some data →
          ∀ output ∈ outputs {} data, output.path.IsInside := by
      intro description hdescribe entity hentity kind data hplanned output houtput
      exact isInside_of_mem_outputs (h description hdescribe entity hentity) hplanned houtput
    obtain ⟨calls, hrun, hcalls⟩ := logged_run storage timestamp dryRun registry
      (fun _ _ hpath hdirectory => Path.IsInside.directory? hpath hdirectory) hgood (start, [])
    rw [hrun]
    exact hcalls

/-- A request for `/srv/item` writes its model where the name says, wherever the project is. -/
theorem item_written_outside :
    ∃ call ∈ (((logging Memory.storage .standard (Template.renderer {}) default).run false
        ⟨"/srv/item", "name:string", none⟩ {}).run ({}, [])).2.2,
      call.operation = .write ∧ call.subject = "/srv/item.php" ∧
        ¬call.KeepsTo Path.IsInside := by
  have hdescribe : (⟨"/srv/item", "name:string", none⟩ : Request).describe =
      .ok ⟨"/srv/item", [⟨"name", .string⟩], [], []⟩ := by decide +kernel
  have hpath : ({} : Paths).models.child ((Description.root ⟨"/srv/item", [⟨"name", .string⟩], [],
      []⟩).name ++ ".php") = ⟨"/srv/item.php"⟩ := by decide +kernel
  have hout : ¬(⟨"/srv/item.php"⟩ : Path).IsInside := by decide
  have hroot : (Description.root ⟨"/srv/item", [⟨"name", .string⟩], [], []⟩) ∈
      (Description.root ⟨"/srv/item", [⟨"name", .string⟩], [], []⟩).expand := by
    rw [Entity.expand_eq]
    exact List.mem_cons_self
  obtain ⟨call, hcall, hoperation, hsubject⟩ :=
    exists_write_of_mem_expand hdescribe hroot {} default
    {} .model rfl rfl (List.mem_singleton_self _)
  change call.subject = (({} : Paths).models.child (Entity.name _ ++ ".php")).text at hsubject
  rw [hpath] at hsubject
  refine ⟨call, hcall, hoperation, hsubject, ?_⟩
  intro hkeeps
  have hinside := hkeeps (by rw [hoperation]; rfl)
  rw [hsubject] at hinside
  exact hout hinside

end logged

end Generator

end Scaffold
