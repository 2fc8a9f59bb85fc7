import Scaffold.Proofs.Entity.Expansion
import Scaffold.Proofs.Plan.Planning

/-!
# The classes that generated files refer to

Models, routes and controllers refer to each other by names of classes, and each step of planning
derives these names anew. Main statement: where all names are canonical, every class that a plan for
an expansion refers to is a class of the same plan (`exists_provides_of_references`).

* Every entity of a plan has its model, its form request and both of its controllers, under names
  that agree (`Plans.provides`).
* Whatever an entity of an expansion owns, and whatever an added entity belongs to, is the name of
  an entity of the expansion (`exists_mem_expand_of_accessor`).
-/

namespace Scaffold

/-! ## Classes of a plan -/

/-- An entity of the plan has a model called `className` and two controllers for it, both called
`controller`; the form request that these use is in the plan too. -/
structure Plan.Provides (plan : Plan) (entity : Entity) (className controller : String) : Prop where
  /-- The model. -/
  model : ∃ model, ⟨entity, .model model⟩ ∈ plan.artifacts ∧ model.className = className
  /-- The controller behind the pages, and its form request. -/
  webController : ∃ web request, ⟨entity, .webController web⟩ ∈ plan.artifacts ∧
    web.className = controller ∧ web.model = className ∧
    ⟨entity, .formRequest request⟩ ∈ plan.artifacts ∧ web.requestClass = request.className
  /-- The controller behind the programming interface, and its form request. -/
  apiController : ∃ api request, ⟨entity, .apiController api⟩ ∈ plan.artifacts ∧
    api.className = controller ∧ api.model = className ∧
    ⟨entity, .formRequest request⟩ ∈ plan.artifacts ∧ api.requestClass = request.className

namespace Memory.Plans

variable {memory : Memory} {timestamp : Timestamp} {entities : List Entity}
  {kinds : List ArtifactKind} {plan : Plan} {entity : Entity}

/-- The entities of a plan are those that were planned for. -/
theorem entities_eq (h : memory.Plans timestamp entities kinds plan) : plan.entities = entities :=
  Plan.entities_recordAll h

/-- What is planned for a task and creates no table is added for the task. -/
theorem withoutTable?_of_planned? (memory : Memory) {kind : ArtifactKind} {data : ArtifactData}
    (hplanned : entity.planned? timestamp entities kind = some data)
    (htable : Plan.tableOf? data = none) :
    Plan.withoutTable? (memory.stepResult timestamp entities) (entity, kind) =
      some ⟨entity, data⟩ := by
  have hne : kind ≠ .migration := by
    rintro rfl
    rw [← Option.some.inj hplanned] at htable
    cases htable
  have hfree : memory.obstacleTo? entity kind = none := by
    unfold obstacleTo?
    rw [if_neg hne]
  have hresult : memory.stepResult timestamp entities (entity, kind) = .ok (some data) :=
    stepResult_eq_ok_iff.mpr ⟨hfree, hplanned⟩
  unfold Plan.withoutTable?
  rw [hresult]
  dsimp only
  rw [htable]
  rfl

/-- What is planned for some of the tasks and creates no table is in the plan, in their order. -/
theorem sublist_artifacts (h : memory.Plans timestamp entities kinds plan)
    {tasks : List (Entity × ArtifactKind)} (hsub : tasks.Sublist (entities ×ˢ kinds)) :
    (tasks.filterMap (Plan.withoutTable? (memory.stepResult timestamp entities))).Sublist
      plan.artifacts := by
  refine (hsub.filterMap _).trans ?_
  have hfilter := Plan.artifacts_filter_recordAll h
  rw [← List.nil_append (List.filterMap _ (entities ×ˢ kinds))]
  exact hfilter ▸ List.filter_sublist

/-- What creates no table is planned for every entity. -/
theorem mem_artifacts_of_planned? (h : memory.Plans timestamp entities kinds plan)
    (hentity : entity ∈ entities) {kind : ArtifactKind} (hkind : kind ∈ kinds) {data : ArtifactData}
    (hplanned : entity.planned? timestamp entities kind = some data)
    (htable : Plan.tableOf? data = none) : ⟨entity, data⟩ ∈ plan.artifacts := by
  have htask : [(entity, kind)].Sublist (entities ×ˢ kinds) :=
    List.singleton_sublist.mpr (List.mem_product.mpr ⟨hentity, hkind⟩)
  apply (h.sublist_artifacts htask).subset
  rw [List.filterMap_cons_some (withoutTable?_of_planned? memory hplanned htable)]
  exact List.mem_cons_self

/-- Every entity of a plan is provided, if its kinds are planned. -/
theorem provides (h : memory.Plans timestamp entities ArtifactKind.all plan)
    (hentity : entity ∈ entities) :
    plan.Provides entity entity.name (controllerClass entity.names) := by
  have hrequest : ⟨entity, .formRequest entity.formRequest⟩ ∈ plan.artifacts :=
    h.mem_artifacts_of_planned? hentity (ArtifactKind.mem_all .formRequest) rfl rfl
  refine ⟨⟨entity.model, ?_, rfl⟩,
    ⟨entity.controller, entity.formRequest, ?_, rfl, rfl, hrequest, rfl⟩,
    ⟨entity.controller, entity.formRequest, ?_, rfl, rfl, hrequest, rfl⟩⟩
  · exact h.mem_artifacts_of_planned? hentity (ArtifactKind.mem_all .model) rfl rfl
  · exact h.mem_artifacts_of_planned? hentity (ArtifactKind.mem_all .webController) rfl rfl
  · exact h.mem_artifacts_of_planned? hentity (ArtifactKind.mem_all .apiController) rfl rfl

/-- A model of a plan is that of its entity. -/
theorem eq_model (h : memory.Plans timestamp entities kinds plan) {model : Model}
    (hmem : ⟨entity, .model model⟩ ∈ plan.artifacts) :
    entity ∈ entities ∧ model = entity.model := by
  obtain ⟨hentity, kind, -, -, hplanned⟩ := h.mem_artifacts hmem
  obtain rfl : .model = kind := Entity.kind_of_planned? hplanned
  exact ⟨hentity, (ArtifactData.model.inj (Option.some.inj hplanned)).symm⟩

/-- The routes of a plan are those of their entity. -/
theorem eq_routeSet (h : memory.Plans timestamp entities kinds plan) {routes : RouteSet}
    (hmem : ⟨entity, .routes routes⟩ ∈ plan.artifacts) :
    entity ∈ entities ∧ routes = entity.routeSet := by
  obtain ⟨hentity, kind, -, -, hplanned⟩ := h.mem_artifacts hmem
  obtain rfl : .routes = kind := Entity.kind_of_planned? hplanned
  exact ⟨hentity, (ArtifactData.routes.inj (Option.some.inj hplanned)).symm⟩

end Memory.Plans

/-! ## Names of an expansion -/

namespace Entity

variable {root entity : Entity}

/-- What an entity of an expansion owns, and what an added entity belongs to, is the name of an
entity of the expansion. -/
theorem exists_mem_expand_of_accessor (hroot : Name.canonical root.name = root.name)
    (hcanonical : ∀ name ∈ root.owned, Name.canonical name = name) (hisRoot : root.isRoot = true)
    (hentity : entity ∈ root.expand) {relation : Relation} (hrelation : relation ∈ entity.relations)
    (hkind : relation.kind = .hasMany ∨ entity.isRoot = false) :
    ∃ other ∈ root.expand, other.name = (accessor relation).related := by
  rcases mem_expand hentity with rfl | ⟨added, -, rfl⟩
  · have howned : relation.related ∈ entity.owned := by
      rw [mem_owned]
      rcases hkind with hkind | hkind
      · exact ⟨relation, hrelation, hkind, rfl⟩
      · rw [hisRoot] at hkind
        cases hkind
    obtain ⟨other, hother, hname⟩ := exists_mem_expand howned (hcanonical _ howned)
    exact ⟨other, hother, hname.trans (hcanonical _ howned).symm⟩
  · -- the only relation of an added entity leads back to the root
    obtain rfl := List.mem_singleton.mp hrelation
    rw [expand_eq]
    exact ⟨root, List.mem_cons_self, hroot.symm⟩

/-- Each group of routes of an entity is for the entity itself, or for one that it owns. -/
theorem mem_groups_routeSet {group : RouteGroup} (h : group ∈ entity.routeSet.groups) :
    (group.controller = controllerClass entity.names ∧ group.parent = none) ∨
      ∃ name ∈ entity.owned, group.controller = controllerClass (.of name) ∧
        group.parent = some entity.name := by
  rcases List.mem_cons.mp h with rfl | h
  · exact Or.inl ⟨rfl, rfl⟩
  · obtain ⟨name, hname, rfl⟩ := List.mem_map.mp h
    exact Or.inr ⟨name, hname, rfl, rfl⟩

end Entity

/-! ## References -/

namespace Planner

open Memory

variable {name : String} {relations : List Relation}

/-- Where all names are canonical, the entities of a plan for an expansion have different names, and
the classes that its models and routes refer to are provided by the plan: what any entity owns, what
an added entity belongs to, the controllers of all routes and the owners of nested ones. -/
theorem exists_provides_of_references (hname : Name.canonical name = name)
    (hrelations : ∀ relation ∈ relations, Name.canonical relation.related = relation.related)
    (fields : List Field) (memory : Memory) (timestamp : Timestamp) :
    ∃ plan, memory.exec
      (standard.plan storage timestamp (Entity.root name fields relations).expand) =
        (.ok plan, memory) ∧
      plan.entities = (Entity.root name fields relations).expand ∧
      (plan.entities.map Entity.name).Nodup ∧
      (∀ entity model, ⟨entity, .model model⟩ ∈ plan.artifacts → ∀ accessor ∈ model.accessors,
        accessor.kind = .hasMany ∨ entity.isRoot = false →
        ∃ other controller, plan.Provides other accessor.related controller) ∧
      ∀ entity routes, ⟨entity, .routes routes⟩ ∈ plan.artifacts → ∀ group ∈ routes.groups,
        (∃ other className, plan.Provides other className group.controller) ∧
        ∀ parent, group.parent = some parent →
          ∃ other controller, plan.Provides other parent controller := by
  obtain ⟨plan, hplan, hplans⟩ := memory.exec_plan hasStandardSteps_standard timestamp
    (Entity.root name fields relations).expand
  have hentities := hplans.entities_eq
  have hroot : (Entity.root name fields relations).name = name := hname
  have hcanonical : ∀ owned ∈ (Entity.root name fields relations).owned,
      Name.canonical owned = owned := by
    intro owned howned
    obtain ⟨relation, hrelation, -, rfl⟩ := Entity.mem_owned.mp howned
    exact hrelations relation hrelation
  refine ⟨plan, hplan, hentities, ?_, ?_, ?_⟩
  · rw [hentities]
    exact Entity.nodup_map_name_expand hcanonical
  · intro entity model hmodel accessor haccessor hkind
    obtain ⟨hentity, rfl⟩ := hplans.eq_model hmodel
    obtain ⟨relation, hrelation, rfl⟩ := List.mem_map.mp haccessor
    obtain ⟨other, hother, heq⟩ := Entity.exists_mem_expand_of_accessor (by rw [hroot, hname])
      hcanonical rfl hentity hrelation hkind
    rw [← heq]
    exact ⟨other, _, hplans.provides hother⟩
  · intro entity routes hroutes group hgroup
    obtain ⟨hentity, rfl⟩ := hplans.eq_routeSet hroutes
    have hself := hplans.provides hentity
    rcases Entity.mem_groups_routeSet hgroup with ⟨hcontroller, hparent⟩ |
      ⟨owned, howned, hcontroller, hparent⟩
    · rw [hcontroller, hparent]
      refine ⟨⟨entity, _, hself⟩, ?_⟩
      intro parent heq
      cases heq
    · rw [hcontroller, hparent]
      obtain ⟨relation, hrelation, hkind, rfl⟩ := Entity.mem_owned.mp howned
      obtain ⟨other, hother, heq⟩ := Entity.exists_mem_expand_of_accessor (by rw [hroot, hname])
        hcanonical rfl hentity hrelation (Or.inl hkind)
      have hclass : controllerClass (.of relation.related) = controllerClass other.names :=
        congrArg (· ++ "Controller") heq.symm
      rw [hclass]
      refine ⟨⟨other, _, hplans.provides hother⟩, ?_⟩
      intro parent heq
      rw [← Option.some.inj heq]
      exact ⟨entity, _, hself⟩

/-- A blog owns blogs, owns posts twice and belongs to a user; its plan has a class for each of them
but the user, also where the posts have a table already. -/
theorem exists_provides_of_references_blog :
    ∃ plan, exec { tables := ["posts"] } (standard.plan storage default (Entity.root "Blog" []
        [⟨"Blog", .hasMany⟩, ⟨"Post", .hasMany⟩, ⟨"Post", .hasMany⟩,
          ⟨"User", .belongsTo⟩]).expand) = (.ok plan, { tables := ["posts"] }) ∧
      plan.entities.map Entity.name = ["Blog", "Post"] ∧
      (∀ entity model, ⟨entity, .model model⟩ ∈ plan.artifacts → ∀ accessor ∈ model.accessors,
        accessor.kind = .hasMany ∨ entity.isRoot = false →
        ∃ other controller, plan.Provides other accessor.related controller) := by
  have hname : Name.canonical "Blog" = "Blog" := by decide +kernel
  have hrelations : ∀ relation ∈ [⟨"Blog", .hasMany⟩, ⟨"Post", .hasMany⟩, ⟨"Post", .hasMany⟩,
      (⟨"User", .belongsTo⟩ : Relation)], Name.canonical relation.related = relation.related := by
    decide +kernel
  have hpost : Name.canonical "Post" = "Post" := hrelations ⟨"Post", .hasMany⟩ (by simp)
  obtain ⟨plan, hplan, hentities, -, haccessors, -⟩ :=
    exists_provides_of_references hname hrelations [] { tables := ["posts"] } default
  refine ⟨plan, hplan, ?_, haccessors⟩
  rw [hentities, Entity.expand_eq, Entity.name_root, hname]
  simp [Entity.owned, Entity.relationsOf, Entity.root, Entity.discover, Entity.synthesized,
    Entity.name, hname, hpost]

end Planner

end Scaffold
