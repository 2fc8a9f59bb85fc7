import Scaffold.Proofs.Entity.Expansion
import Scaffold.Proofs.Generation.Reading
import Scaffold.Proofs.Generation.Running

/-!
# The name that a run records

A run that ends well puts a name into the registry and has a plan with a root entity. The name that
is recorded is the canonical form of the requested one, and the root is called by the canonical form
of that. Main statement: the registry names the root, and nothing else that is new, exactly where
the canonical form stays what it is when it is taken again, or where both names were recorded before
(`recorded_run`). It does not always stay: `mens` is recorded as `Men`, and what is generated is
`Man` (`recorded_men_generated_man`).

* Planning leaves the entities of a plan as they are, whatever the steps and the storage do
  (`entities_plan`), so the root of the plan is that of the description.
* Recording a name adds this name and no other (`contains_record`).
-/

namespace Scaffold

/-! ## The entities of a plan -/

namespace Planner

/-- A plan is for the entities that it was asked for. -/
theorem entities_plan {σ : Type} (planner : Planner (StateM σ)) (storage : Storage (StateM σ))
    (timestamp : Timestamp) (entities : List Entity) :
    Yields (planner.plan storage timestamp entities) fun plan => plan.entities = entities :=
  yields_planEntities_of_record (fun h hrecord => (Plan.entities_record hrecord).trans h)
    planner _ entities rfl

end Planner

/-! ## Recording a name -/

namespace Registry

variable {registry : Registry} {name other : String}

/-- After a name was recorded, it is there, and so is what was there before. -/
theorem contains_record :
    (registry.record name).contains other = true ↔
      registry.contains other = true ∨ other = name := by
  unfold record
  split_ifs with hthere
  · constructor
    · exact Or.inl
    · rintro (hother | rfl)
      · exact hother
      · exact hthere
  · simp [contains]

/-- The registry `after` names `name`, and nothing else that the registry `before` does not name. -/
structure GrowsBy (before after : Registry) (name : String) : Prop where
  /-- The name is there. -/
  named : after.contains name = true
  /-- No other name is new. -/
  others : ∀ other, after.contains other = true → before.contains other = true ∨ other = name

/-- Recording a name adds that name, or nothing where it is there already. -/
theorem growsBy_record_iff :
    registry.GrowsBy (registry.record name) other ↔
      other = name ∨ (registry.contains name = true ∧ registry.contains other = true) := by
  constructor
  · rintro ⟨hnamed, hothers⟩
    rcases contains_record.mp hnamed with hother | heq
    · rcases hothers name (contains_record.mpr (Or.inr rfl)) with hname | heq
      · exact Or.inr ⟨hname, hother⟩
      · exact Or.inl heq.symm
    · exact Or.inl heq
  · rintro (rfl | ⟨hname, hother⟩)
    · exact ⟨contains_record.mpr (Or.inr rfl), fun other => contains_record.mp⟩
    · refine ⟨contains_record.mpr (Or.inl hother), ?_⟩
      intro found hfound
      rcases contains_record.mp hfound with hthere | rfl
      · exact Or.inl hthere
      · exact Or.inl hname

end Registry

/-! ## The name and the root -/

namespace Generator

section recorded

variable {σ : Type} {generator : Generator (StateM σ)} {request : Request} {registry : Registry}
  {start after : σ} {report : Report} {generated : Generated}

/-- A run that ends well was for a description, whose name it has recorded and whose root it has
planned for. -/
theorem exists_description_of_run
    (h : (generator.run false request registry).run start = ((report, .ok generated), after)) :
    ∃ description, request.describe = .ok description ∧
      generated.registry = registry.record description.name ∧
      generated.plan.root? = some description.root := by
  rcases generator.stops_or_reaches request start with
    ⟨lines, e, stopped, hstops⟩ | ⟨description, plan, outputs, planned, hreaches⟩
  · rw [run_of_stops hstops false registry] at h
    cases h
  · rcases hemit : (Emission.emitAll generator.storage false [] outputs).run planned with
      ⟨⟨lines, result⟩, final⟩
    cases result with
    | error e =>
      rw [run_of_reaches_error hreaches hemit registry] at h
      cases h
    | ok done =>
      rw [run_of_reaches_ok hreaches hemit registry] at h
      have hentities : plan.entities = description.root.expand :=
        Planner.entities_plan _ _ _ _ _ _ _ hreaches.plans
      cases h
      refine ⟨description, hreaches.describes, rfl, ?_⟩
      unfold Plan.root?
      rw [hentities, Entity.expand_eq]
      rfl

/-- With any storage, planner and renderer, a run that ends well records the canonical name, and its
root is called by the canonical form of that name. The registry is what it was and the name of the
root exactly if the two are the same, or if both were in it before. -/
theorem recorded_run
    (h : (generator.run false request registry).run start = ((report, .ok generated), after)) :
    ∃ root, generated.plan.root? = some root ∧
      generated.registry = registry.record (Name.canonical request.entity) ∧
      root.name = Name.canonical (Name.canonical request.entity) ∧
      (registry.GrowsBy generated.registry root.name ↔
        root.name = Name.canonical request.entity ∨
          (registry.contains (Name.canonical request.entity) = true ∧
            registry.contains root.name = true)) := by
  obtain ⟨description, hdescribe, hregistry, hroot⟩ := exists_description_of_run h
  obtain ⟨fields, found, -, -, rfl⟩ := Request.exists_of_describe hdescribe
  refine ⟨_, hroot, hregistry, rfl, ?_⟩
  rw [hregistry]
  exact Registry.growsBy_record_iff

/-- A post is recorded as it is generated. -/
theorem recorded_run_posts :
    ∃ report generated after,
      ((inMemory {} .standard default).run false ⟨"posts", "title:string", none⟩ ⟨["Blog"]⟩).run
        {} = ((report, .ok generated), after) ∧
      generated.registry.names = ["Blog", "Post"] ∧
      ∃ root, generated.plan.root? = some root ∧
        (⟨["Blog"]⟩ : Registry).GrowsBy generated.registry root.name := by
  have hdescribe : (⟨"posts", "title:string", none⟩ : Request).describe =
      .ok ⟨"Post", [⟨"title", .string⟩], [], []⟩ := by decide +kernel
  have hname : Name.canonical "posts" = "Post" := by decide +kernel
  have hstable : Name.canonical "Post" = "Post" := by decide +kernel
  obtain ⟨plan, -, hrun⟩ := run_of_describe_ok {} {} default ⟨["Blog"]⟩
    Planner.hasStandardSteps_standard hdescribe
  obtain ⟨root, hroot, hregistry, hrootname, hgrows⟩ := recorded_run hrun
  rw [hname] at hregistry hgrows hrootname
  refine ⟨_, _, _, hrun, ?_, root, hroot, hgrows.mpr (Or.inl ?_)⟩
  · rw [hregistry]
    decide
  · rw [hrootname, hstable]

/-- The canonical form of `mens` is itself the plural of another word: the registry is given the
name `Men`, under which nothing is generated, and misses the name `Man` of the root. -/
theorem recorded_men_generated_man :
    ∃ report generated after root,
      ((inMemory {} .standard default).run false ⟨"mens", "age:integer", none⟩ {}).run {} =
        ((report, .ok generated), after) ∧
      generated.registry.names = ["Men"] ∧ generated.plan.root? = some root ∧ root.name = "Man" ∧
      ¬({} : Registry).GrowsBy generated.registry root.name := by
  have hdescribe : (⟨"mens", "age:integer", none⟩ : Request).describe =
      .ok ⟨"Men", [⟨"age", .integer⟩], [], []⟩ := by decide +kernel
  have hname : (Description.root ⟨"Men", [⟨"age", .integer⟩], [], []⟩).name = "Man" := by
    decide +kernel
  obtain ⟨plan, -, hrun⟩ := run_of_describe_ok {} {} default {}
    Planner.hasStandardSteps_standard hdescribe
  obtain ⟨description, hdescribe', hregistry, hroot⟩ := exists_description_of_run hrun
  obtain rfl := Except.ok.inj (hdescribe.symm.trans hdescribe')
  refine ⟨_, _, _, _, hrun, ?_, hroot, hname, ?_⟩
  · rw [hregistry]
    rfl
  · rw [hregistry, Registry.growsBy_record_iff, hname]
    decide

end recorded

end Generator

end Scaffold
