import Mathlib.Data.List.Nodup
import Scaffold.Proofs.Generation.Places
import Scaffold.Proofs.Plan.References

/-!
# Whole files that a run writes twice

A run writes its whole files one after another, so of two outputs with the same path the later one
remains. Main statement: under the default configuration no two whole files of a run have the same
path exactly where no two entities of its plan have the same table, and then each of the files holds
what was rendered for it (`filesApart_run_iff`). The planner keeps entities with the same table from
having two migrations, but nothing keeps them from having the same pages, and where the names are
the same too, the same classes (`man_written_twice`).

* The kinds of artifacts are kept apart by their directories, the entities by their names
  (`disjoint_wholePlaces`), where the names are one component of a path (`Entity.NamesFiles`).
* A plan has at most one artifact for each task (`sublist_tasks`).
* A file for which there is one output holds the content of this output
  (`file?_afterOutputs_of_filesApart`).
-/

namespace Scaffold

/-! ## Outputs that write whole files -/

/-- The components of the paths of the outputs that write a whole file. -/
def wholePlaces (outputs : List Output) : List (List Path.Component) :=
  (outputs.filter Output.isFile).map fun output => output.path.components

/-- No two of the outputs write the same whole file. -/
def FilesApart (outputs : List Output) : Prop :=
  (wholePlaces outputs).Nodup

section outputs

variable {outputs : List Output} {output other : Output} {path : Path} {content : String}

/-- Of outputs for a file that all write the same content, the content remains. -/
theorem contentAfterAll_of_forall_eq (current : Option String) (hne : outputs ≠ [])
    (h : ∀ output ∈ outputs, output = .file path content) :
    contentAfterAll current outputs = some content := by
  obtain ⟨front, last, rfl⟩ := (List.eq_nil_or_concat outputs).resolve_left hne
  rw [List.concat_eq_append] at h ⊢
  obtain rfl := h last (List.mem_append_right _ (List.mem_singleton_self _))
  unfold contentAfterAll
  rw [List.foldl_append]
  rfl

/-- Two whole files at the same place are one output. -/
theorem FilesApart.eq_of_same (h : FilesApart outputs) (houtput : output ∈ outputs)
    (hother : other ∈ outputs) (hfile : output.isFile = true) (hfile' : other.isFile = true)
    (hsame : output.path.same other.path = true) : output = other :=
  List.inj_on_of_nodup_map h (List.mem_filter.mpr ⟨houtput, hfile⟩)
    (List.mem_filter.mpr ⟨hother, hfile'⟩) (Path.same_iff.mp hsame)

/-- Where whole files are apart, there is one content for each of them. -/
theorem FilesApart.content_eq (h : FilesApart outputs) {content' : String}
    (hmem : .file path content ∈ outputs) (hmem' : .file path content' ∈ outputs) :
    content = content' :=
  (Output.file.inj (h.eq_of_same hmem hmem' rfl rfl (Path.same_refl path))).2

/-- Whole files that are written once hold what was written to them. -/
theorem Memory.file?_afterOutputs_of_filesApart (memory : Memory) (h : FilesApart outputs)
    (hsorts : SortsApart outputs) (hmem : .file path content ∈ outputs) :
    (memory.afterOutputs outputs).file? path = some content := by
  have hthere : .file path content ∈ outputs.filter (·.path.same path) :=
    List.mem_filter.mpr ⟨hmem, Path.same_refl path⟩
  have hall : ∀ output ∈ outputs.filter (·.path.same path), output = .file path content := by
    intro output houtput
    obtain ⟨hother, hsame⟩ := List.mem_filter.mp houtput
    exact h.eq_of_same hother hmem (hsorts output hother _ hmem hsame) rfl hsame
  rw [memory.file?_afterOutputs]
  exact contentAfterAll_of_forall_eq _ (List.ne_nil_of_mem hthere) hall

end outputs

/-! ## The places of an entity -/

namespace Path

/-- What has no slash is, with the ending of a script, the name of a file. -/
theorem isFileName_append_php {stem : String} (h : '/' ∉ stem.toList) :
    IsFileName (stem ++ ".php") :=
  isFileName_of_mem (c := 'p') (by simp [h]) (by simp) (by decide)

end Path

namespace Entity

/-- The names that an entity gives to files and directories are one component of a path each. -/
structure NamesFiles (entity : Entity) : Prop where
  /-- The names of its classes have no slash. -/
  name : '/' ∉ entity.name.toList
  /-- The directory of its pages is called by its table. -/
  table : Path.IsFileName entity.table

/-- Under the default configuration, the components of the paths of the whole files of a kind. -/
def wholePlaces (timestamp : Timestamp) (entity : Entity) :
    ArtifactKind → List (List Path.Component)
  | .model => [[.name "app", .name "Models", .name (entity.name ++ ".php")]]
  | .migration => [[.name "database", .name "migrations", .name (entity.migrationFile timestamp)]]
  | .formRequest =>
    [[.name "app", .name "Http", .name "Requests", .name (requestClass entity.names ++ ".php")]]
  | .apiController =>
    [[.name "app", .name "Http", .name "Controllers", .name "Api",
      .name (controllerClass entity.names ++ ".php")]]
  | .webController =>
    [[.name "app", .name "Http", .name "Controllers",
      .name (controllerClass entity.names ++ ".php")]]
  | .views =>
    ViewPage.all.map fun page =>
      [.name "resources", .name "views", .name entity.table, .name (page.fileName ++ ".blade.php")]
  | .routes | .layout => []

variable {timestamp : Timestamp} {entities : List Entity} {entity other : Entity}
  {kind : ArtifactKind} {data : ArtifactData}

/-- The whole files of an artifact are at the places of its kind. -/
theorem wholePlaces_of_planned? (hfits : entity.NamesFiles)
    (h : entity.planned? timestamp entities kind = some data) :
    Scaffold.wholePlaces (Template.outputs {} data) = entity.wholePlaces timestamp kind := by
  have hclass : ∀ ending : String, '/' ∉ ending.toList →
      Path.IsFileName (entity.name ++ ending ++ ".php") := by
    intro ending hending
    exact Path.isFileName_append_php (by simp [hfits.name, hending])
  have hchild : ∀ (directory : Path) (name content : String), Path.IsFileName name →
      Scaffold.wholePlaces [.file (directory.child name) content] =
        [directory.components ++ [.name name]] := by
    intro directory name content hname
    rw [← Path.components_child directory hname]
    rfl
  cases kind with
  | model =>
    obtain rfl := Option.some.inj h
    exact hchild _ _ _ (Path.isFileName_append_php hfits.name)
  | migration =>
    obtain rfl := Option.some.inj h
    exact hchild _ _ _ (isFileName_migrationFile timestamp hfits.table.noSlash)
  | formRequest =>
    obtain rfl := Option.some.inj h
    exact hchild _ _ _ (hclass "Request" (by decide))
  | apiController =>
    obtain rfl := Option.some.inj h
    exact hchild _ _ _ (hclass "Controller" (by decide))
  | webController =>
    obtain rfl := Option.some.inj h
    exact hchild _ _ _ (hclass "Controller" (by decide))
  | views =>
    obtain rfl := Option.some.inj h
    have hpage : ∀ page : ViewPage,
        (((({} : Paths).views.child entity.table).child
          (page.fileName ++ ".blade.php"))).components =
          [.name "resources", .name "views", .name entity.table,
            .name (page.fileName ++ ".blade.php")] := by
      intro page
      rw [Path.components_child _ (Template.isFileName_page page),
        Path.components_child _ hfits.table]
      rfl
    unfold Scaffold.wholePlaces wholePlaces
    rw [List.filter_eq_self.mpr (by simp [Template.outputs, Template.pageFile, Output.isFile])]
    unfold Template.outputs
    rw [List.map_map]
    apply List.map_congr_left
    intro page _
    exact hpage page
  | routes =>
    obtain rfl := Option.some.inj h
    rfl
  | layout =>
    unfold planned? at h
    split_ifs at h
    obtain rfl := Option.some.inj h
    rfl

/-- The pages of an entity, or any other files of one kind, are different files. -/
theorem nodup_wholePlaces (timestamp : Timestamp) (entity : Entity) (kind : ArtifactKind) :
    (entity.wholePlaces timestamp kind).Nodup := by
  cases kind with
  | views =>
    refine List.Nodup.map ?_ (by decide)
    intro page page' heq
    have hname : page.fileName = page'.fileName := by simpa using heq
    cases page <;> cases page' <;> first | rfl | exact absurd hname (by decide)
  | routes => exact List.nodup_nil
  | layout => exact List.nodup_nil
  | _ => exact List.nodup_singleton _

/-- No kind has a place of another one. -/
theorem disjoint_wholePlaces_of_kind_ne {kind' : ArtifactKind} (h : kind ≠ kind') :
    (entity.wholePlaces timestamp kind).Disjoint (other.wholePlaces timestamp kind') := by
  cases kind <;> cases kind' <;> first | exact absurd rfl h | simp [wholePlaces]

/-- Entities with different tables have different places of the same kind. -/
theorem disjoint_wholePlaces_of_table_ne (hnames : entity.names = .ofCanonical entity.name)
    (hnames' : other.names = .ofCanonical other.name) (h : entity.table ≠ other.table) :
    (entity.wholePlaces timestamp kind).Disjoint (other.wholePlaces timestamp kind) := by
  have hname : other.name ≠ entity.name := by
    intro heq
    apply h
    unfold table
    rw [hnames, hnames', heq]
  have hstudly : other.names.studly ≠ entity.names.studly := hname
  cases kind with
  | migration =>
    simp [wholePlaces, migrationFile, migration, Schema.logicalName, h.symm]
  | views =>
    unfold wholePlaces
    intro place hplace hplace'
    obtain ⟨page, -, rfl⟩ := List.mem_map.mp hplace
    obtain ⟨page', -, heq⟩ := List.mem_map.mp hplace'
    simp only [List.cons.injEq, Path.Component.name.injEq] at heq
    exact h heq.2.2.1.symm
  | _ => simp [wholePlaces, requestClass, controllerClass, hname, hstudly]

/-- The spellings of an entity of an expansion are those of its name. -/
theorem names_of_mem_expand {description : Description} (h : entity ∈ description.root.expand) :
    entity.names = .ofCanonical entity.name := by
  rcases mem_expand h with rfl | ⟨name, -, rfl⟩
  · rfl
  · rfl

end Entity

/-! ## The places of a plan -/

namespace Plan

variable {plan after : Plan} {tasks : List (Entity × ArtifactKind)}
  {result : Entity × ArtifactKind → Except Error (Option ArtifactData)}

/-- What is added to a plan is for some of the tasks, in their order. -/
theorem exists_sublist_recordAll
    (hkind : ∀ task data, result task = .ok (some data) → data.kind = task.2)
    (h : recordAll result tasks plan = .ok after) :
    ∃ added, after.artifacts = plan.artifacts ++ added ∧
      (added.map fun artifact => (artifact.entity, artifact.kind)).Sublist tasks := by
  induction tasks generalizing plan with
  | nil =>
    rw [← Except.ok.inj h]
    exact ⟨[], (List.append_nil _).symm, List.Sublist.refl _⟩
  | cons task rest ih =>
    obtain ⟨middle, hrecord, hrest⟩ := recordAll_cons h
    obtain ⟨added, hadded, hsub⟩ := ih hrest
    rcases record_cases hrecord with ⟨data, hdata, -, rfl⟩ | ⟨-, hsame⟩
    · refine ⟨⟨task.1, data⟩ :: added, ?_, ?_⟩
      · rw [hadded]
        exact List.append_assoc _ _ _
      · have htask : (task.1, data.kind) = task := Prod.ext rfl (hkind task data hdata)
        rw [List.map_cons]
        exact htask ▸ hsub.cons_cons _
    · exact ⟨added, hadded.trans (by rw [hsame]), hsub.cons _⟩

end Plan

namespace Memory.Plans

open Template

variable {memory : Memory} {timestamp : Timestamp} {entities : List Entity}
  {kinds : List ArtifactKind} {plan : Plan} {description : Description}

/-- A plan has at most one artifact for each entity and kind, in the order of these. -/
theorem sublist_tasks (h : memory.Plans timestamp entities kinds plan) :
    (plan.artifacts.map fun artifact => (artifact.entity, artifact.kind)).Sublist
      (entities ×ˢ kinds) := by
  obtain ⟨added, hadded, hsub⟩ := Plan.exists_sublist_recordAll (fun task data hdata =>
    Entity.kind_of_planned? (stepResult_eq_ok_iff.mp hdata).2) h
  rw [hadded]
  exact hsub

/-- The tasks of one kind are among all tasks. -/
theorem sublist_product_map {kind : ArtifactKind} (hkind : kind ∈ kinds) (entities : List Entity) :
    (entities.map (·, kind)).Sublist (entities ×ˢ kinds) := by
  induction entities with
  | nil => exact List.Sublist.refl _
  | cons entity rest ih =>
    rw [List.map_cons, List.product_cons]
    have htask : [(entity, kind)].Sublist (kinds.map (entity, ·)) :=
      List.singleton_sublist.mpr (List.mem_map_of_mem hkind)
    exact htask.append ih

/-- Every artifact is what is planned for its entity and its kind. -/
theorem planned?_of_mem (h : memory.Plans timestamp entities kinds plan) {artifact : Artifact}
    (hmem : artifact ∈ plan.artifacts) : artifact.entity ∈ entities ∧
      artifact.entity.planned? timestamp entities artifact.kind = some artifact.data := by
  obtain ⟨hentity, kind, -, -, hplanned⟩ := h.mem_artifacts hmem
  refine ⟨hentity, ?_⟩
  rw [← hplanned]
  exact congrArg _ (Entity.kind_of_planned? hplanned)

/-- The whole files of a plan are apart if the tables of its entities are. -/
theorem filesApart_of_nodup
    (h : memory.Plans timestamp description.root.expand ArtifactKind.all plan)
    (hfits : ∀ entity ∈ description.root.expand, entity.NamesFiles)
    (htables : (description.root.expand.map Entity.table).Nodup) :
    FilesApart (allOutputs {} plan.artifacts) := by
  have hplaces : ∀ artifact ∈ plan.artifacts, wholePlaces (outputs {} artifact.data) =
      artifact.entity.wholePlaces timestamp artifact.kind := by
    intro artifact hartifact
    obtain ⟨hentity, hplanned⟩ := h.planned?_of_mem hartifact
    exact Entity.wholePlaces_of_planned? (hfits _ hentity) hplanned
  have htasks : (description.root.expand ×ˢ ArtifactKind.all).Pairwise fun task task' =>
      task.1.table ≠ task'.1.table ∨ (task.1 = task'.1 ∧ task.2 ≠ task'.2) := by
    refine List.pairwise_flatMap.mpr ⟨?_, ?_⟩
    · intro entity _
      refine List.pairwise_map.mpr (ArtifactKind.nodup_all.imp ?_)
      exact fun hkind => Or.inr ⟨rfl, hkind⟩
    · refine (List.pairwise_map.mp htables).imp ?_
      intro entity entity' hne task htask task' htask'
      obtain ⟨kind, -, rfl⟩ := List.mem_map.mp htask
      obtain ⟨kind', -, rfl⟩ := List.mem_map.mp htask'
      exact Or.inl hne
  have hartifacts := List.pairwise_map.mp (htasks.sublist h.sublist_tasks)
  unfold FilesApart wholePlaces allOutputs
  rw [List.filter_flatMap, List.map_flatMap]
  refine List.nodup_flatMap.mpr ⟨?_, hartifacts.imp_of_mem ?_⟩
  · intro artifact hartifact
    change (wholePlaces _).Nodup
    rw [hplaces artifact hartifact]
    exact Entity.nodup_wholePlaces timestamp _ _
  · intro artifact artifact' hartifact hartifact' hdiffer
    change (wholePlaces _).Disjoint (wholePlaces _)
    rw [hplaces artifact hartifact, hplaces artifact' hartifact']
    obtain ⟨hentity, -⟩ := h.planned?_of_mem hartifact
    obtain ⟨hentity', -⟩ := h.planned?_of_mem hartifact'
    by_cases hkind : artifact.kind = artifact'.kind
    · rw [← hkind]
      have htable := hdiffer.resolve_right fun hsame => hsame.2 hkind
      exact Entity.disjoint_wholePlaces_of_table_ne (Entity.names_of_mem_expand hentity)
        (Entity.names_of_mem_expand hentity') htable
    · exact Entity.disjoint_wholePlaces_of_kind_ne hkind

/-- The pages of entities with the same table are the same files. -/
theorem nodup_of_filesApart
    (h : memory.Plans timestamp description.root.expand ArtifactKind.all plan)
    (hfits : ∀ entity ∈ description.root.expand, entity.NamesFiles)
    (hapart : FilesApart (allOutputs {} plan.artifacts)) :
    (description.root.expand.map Entity.table).Nodup := by
  have hpages : ((description.root.expand.map fun entity =>
      (⟨entity, .views entity.viewSet⟩ : Artifact))).Sublist plan.artifacts := by
    have hsub := h.sublist_artifacts (sublist_product_map (ArtifactKind.mem_all .views) _)
    rw [List.filterMap_map] at hsub
    rw [← List.filterMap_eq_map]
    refine List.filterMap_congr ?_ ▸ hsub
    intro entity _
    exact withoutTable?_of_planned? memory rfl rfl
  have hplaces : ∀ entity ∈ description.root.expand,
      wholePlaces (outputs {} (.views entity.viewSet)) = entity.wholePlaces timestamp .views :=
    fun entity hentity => Entity.wholePlaces_of_planned? (hfits entity hentity)
      (show entity.planned? timestamp [] .views = _ from rfl)
  unfold FilesApart wholePlaces allOutputs at hapart
  rw [List.filter_flatMap, List.map_flatMap] at hapart
  have hdisjoint := List.pairwise_map.mp ((List.nodup_flatMap.mp hapart).2.sublist hpages)
  refine List.pairwise_map.mpr (hdisjoint.imp_of_mem ?_)
  intro entity entity' hentity hentity' hdisjoint htable
  change (wholePlaces _).Disjoint (wholePlaces _) at hdisjoint
  rw [hplaces entity hentity, hplaces entity' hentity'] at hdisjoint
  have hsame : entity.wholePlaces timestamp .views = entity'.wholePlaces timestamp .views := by
    unfold Entity.wholePlaces
    rw [htable]
  rw [hsame] at hdisjoint
  exact hdisjoint List.mem_cons_self List.mem_cons_self

/-- The model of every entity is written. -/
theorem model_mem_allOutputs (h : memory.Plans timestamp entities ArtifactKind.all plan)
    {entity : Entity} (hentity : entity ∈ entities) :
    .file (({} : Paths).models.child (entity.name ++ ".php")) (modelText entity.model) ∈
      allOutputs {} plan.artifacts := by
  have hartifact : ⟨entity, .model entity.model⟩ ∈ plan.artifacts :=
    h.mem_artifacts_of_planned? hentity (ArtifactKind.mem_all .model) rfl rfl
  exact List.mem_flatMap.mpr ⟨_, hartifact, List.mem_singleton_self _⟩

end Memory.Plans

/-! ## Runs -/

namespace Generator

open Template

section filesApart

variable {request : Request} {registry : Registry} {memory after : Memory} {timestamp : Timestamp}
  {report : Report} {generated : Generated}

/-- A run that ends well has carried out a plan for its description. -/
theorem exists_plans_of_run
    (h : ((inMemory {} .standard timestamp).run false request registry).run memory =
      ((report, .ok generated), after)) :
    ∃ description : Description,
      memory.Plans timestamp description.root.expand ArtifactKind.all generated.plan ∧
      after = memory.afterOutputs (allOutputs {} generated.plan.artifacts) := by
  cases hdescribe : request.describe with
  | error cause =>
    rw [run_of_describe_error hdescribe] at h
    cases h
  | ok description =>
    obtain ⟨plan, hplans, hrun⟩ := run_of_describe_ok {} memory timestamp registry
      Planner.hasStandardSteps_standard hdescribe
    rw [hrun] at h
    cases h
    exact ⟨description, hplans, rfl⟩

/-- Where no name leads to another directory, the whole files of a run are different files if and
only if the entities have different tables, and then every one of them holds what was rendered for
it. -/
theorem filesApart_run_iff
    (h : ((inMemory {} .standard timestamp).run false request registry).run memory =
      ((report, .ok generated), after))
    (hfits : ∀ entity ∈ generated.plan.entities, entity.NamesFiles) :
    (FilesApart (allOutputs {} generated.plan.artifacts) ↔
      (generated.plan.entities.map Entity.table).Nodup) ∧
    (FilesApart (allOutputs {} generated.plan.artifacts) →
      ∀ path content, .file path content ∈ allOutputs {} generated.plan.artifacts →
        after.file? path = some content) := by
  obtain ⟨description, hplans, rfl⟩ := exists_plans_of_run h
  rw [hplans.entities_eq] at hfits ⊢
  refine ⟨⟨hplans.nodup_of_filesApart hfits, hplans.filesApart_of_nodup hfits⟩, ?_⟩
  intro hapart path content hmem
  exact memory.file?_afterOutputs_of_filesApart hapart (keepsApart_default _).sortsApart hmem

/-- A blog and its posts are different files. -/
theorem filesApart_run_blog :
    ∃ report generated after,
      ((inMemory {} .standard default).run false ⟨"blog", "title:string", some "posts:hasMany"⟩
        {}).run {} = ((report, .ok generated), after) ∧
      generated.plan.entities.map Entity.table = ["blogs", "posts"] ∧
      ∀ path content, .file path content ∈ allOutputs {} generated.plan.artifacts →
        after.file? path = some content := by
  have hdescribe : (⟨"blog", "title:string", some "posts:hasMany"⟩ : Request).describe =
      .ok ⟨"Blog", [⟨"title", .string⟩], [⟨"Post", .hasMany⟩], []⟩ := by decide +kernel
  have hexpand :
      (Description.root ⟨"Blog", [⟨"title", .string⟩], [⟨"Post", .hasMany⟩], []⟩).expand =
      [.root "Blog" [⟨"title", .string⟩] [⟨"Post", .hasMany⟩], .synthesized "Post" "Blog"] := by
    rw [Entity.expand_eq]
    decide +kernel
  obtain ⟨plan, hplans, hrun⟩ := run_of_describe_ok {} {} default {}
    Planner.hasStandardSteps_standard hdescribe
  have hspelled : plan.entities.map (fun entity => (entity.name, entity.table)) =
      [("Blog", "blogs"), ("Post", "posts")] := by
    rw [hplans.entities_eq, hexpand]
    decide +kernel
  have htables : plan.entities.map Entity.table = ["blogs", "posts"] := by
    have hsnd := congrArg (List.map Prod.snd) hspelled
    rw [List.map_map] at hsnd
    exact hsnd
  have hfits : ∀ entity ∈ plan.entities, entity.NamesFiles := by
    intro entity hentity
    have hmem : (entity.name, entity.table) ∈ [("Blog", "blogs"), ("Post", "posts")] :=
      hspelled ▸ List.mem_map_of_mem hentity
    simp only [List.mem_pair, Prod.mk.injEq] at hmem
    rcases hmem with ⟨hname, htable⟩ | ⟨hname, htable⟩
    · exact ⟨by rw [hname]; decide, by rw [htable]; exact ⟨by decide, by decide, by decide⟩⟩
    · exact ⟨by rw [hname]; decide, by rw [htable]; exact ⟨by decide, by decide, by decide⟩⟩
  obtain ⟨hiff, hcontent⟩ := filesApart_run_iff hrun hfits
  refine ⟨_, _, _, hrun, htables, hcontent (hiff.mpr ?_)⟩
  rw [htables]
  decide

/-- A man that owns `mens`: the name is read as `Men`, which is not the name of the root, but the
entity that is added for it is called `Man` again. Its classes and pages take the place of the
root's. -/
theorem man_written_twice :
    ∃ report generated after first second,
      ((inMemory {} .standard default).run false ⟨"man", "age:integer", some "mens:hasMany"⟩ {}).run
        {} = ((report, .ok generated), after) ∧
      .file ⟨"app/Models/Man.php"⟩ first ∈ allOutputs {} generated.plan.artifacts ∧
      .file ⟨"app/Models/Man.php"⟩ second ∈ allOutputs {} generated.plan.artifacts ∧
      first ≠ second ∧ ¬FilesApart (allOutputs {} generated.plan.artifacts) := by
  have hdescribe : (⟨"man", "age:integer", some "mens:hasMany"⟩ : Request).describe =
      .ok ⟨"Man", [⟨"age", .integer⟩], [⟨"Men", .hasMany⟩], []⟩ := by decide +kernel
  have hexpand : (Description.root ⟨"Man", [⟨"age", .integer⟩], [⟨"Men", .hasMany⟩], []⟩).expand =
      [.root "Man" [⟨"age", .integer⟩] [⟨"Men", .hasMany⟩], .synthesized "Men" "Man"] := by
    rw [Entity.expand_eq]
    decide +kernel
  obtain ⟨plan, hplans, hrun⟩ := run_of_describe_ok {} {} default {}
    Planner.hasStandardSteps_standard hdescribe
  rw [hexpand] at hplans
  have hfile : ∀ entity ∈ [Entity.root "Man" [⟨"age", .integer⟩] [⟨"Men", .hasMany⟩],
      .synthesized "Men" "Man"],
      ({} : Paths).models.child (entity.name ++ ".php") = ⟨"app/Models/Man.php"⟩ := by
    decide +kernel
  have hne : modelText (Entity.root "Man" [⟨"age", .integer⟩] [⟨"Men", .hasMany⟩]).model ≠
      modelText (Entity.synthesized "Men" "Man").model := by decide +kernel
  have hroot := hplans.model_mem_allOutputs List.mem_cons_self
  rw [hfile _ List.mem_cons_self] at hroot
  have hadded := hplans.model_mem_allOutputs (List.mem_cons_of_mem _ List.mem_cons_self)
  rw [hfile _ (List.mem_cons_of_mem _ List.mem_cons_self)] at hadded
  refine ⟨_, _, _, _, _, hrun, hroot, hadded, hne, ?_⟩
  intro hapart
  exact hne (hapart.content_eq hroot hadded)

end filesApart

end Generator

end Scaffold
