import Mathlib.Data.List.ProdSigma
import Scaffold.Plan.Planner
import Scaffold.Proofs.Plan.Recording
import Scaffold.Proofs.Storage.Memory

/-!
# Plans for a project in memory

On a project in memory the standard step for a task only asks whether a migration is in the way
(`exec_step`), so planning leaves the project as it is, and what comes out is the record of the
tasks (`exec_plan`).

On any storage and with any steps, what recording one result keeps is kept by the whole planning
(`Planner.yields_planEntities_of_record`).

A planned table is free (`Plans.exists_of_plansTable`), the free table of an entity is planned
(`Plans.plansTable_of_mem`), and everything that is not a migration is planned again in the same way
on any other project (`Plans.artifacts_filter`).
-/

namespace Scaffold

/-! ## The guard -/

namespace Memory

variable {memory before after : Memory} {table : String} {e : Error}

/-- Why a migration for a table may not be planned; `none` if nothing is in the way. -/
def obstacle? (memory : Memory) (table : String) : Option Error :=
  if memory.tables.contains table then
    some (.alreadyExists .migration table s!"table '{table}' already exists in the database")
  else
    match memory.artifacts .migration (Schema.logicalName table) with
    | [] => none
    | first :: _ => some (.alreadyExists .migration table s!"migration already present: {first}")

/-- The guard fails for what is in the way of a table, and changes nothing. -/
theorem exec_check (memory : Memory) (table : String) :
    memory.exec (Schema.check storage table) =
      ((memory.obstacle? table).elim (.ok ()) .error, memory) := by
  have htable : memory.exec (storage.tableExists table) =
      (.ok (memory.tables.contains table), memory) := rfl
  have hlist : memory.exec (storage.listArtifacts .migration (Schema.logicalName table)) =
      (.ok (memory.artifacts .migration (Schema.logicalName table)), memory) := rfl
  unfold Schema.check obstacle?
  rw [exec_bind_ok htable]
  split_ifs with hthere
  · rfl
  · rw [exec_bind_ok hlist]
    cases memory.artifacts .migration (Schema.logicalName table) <;> rfl

/-- Nothing is in the way of a table that neither the database nor a migration has. -/
theorem obstacle?_eq_none_iff :
    memory.obstacle? table = none ↔
      table ∉ memory.tables ∧
        ∀ name, name ∉ memory.artifacts .migration (Schema.logicalName table) := by
  rw [← List.eq_nil_iff_forall_not_mem]
  unfold obstacle?
  by_cases hthere : table ∈ memory.tables
  · simp [hthere]
  · cases memory.artifacts .migration (Schema.logicalName table) <;> simp [hthere]

/-- What is in the way of a table ends no planning. -/
theorem isFatal_of_obstacle? (h : memory.obstacle? table = some e) : e.isFatal = false := by
  unfold obstacle? at h
  split_ifs at h
  · rw [← Option.some.inj h]
    rfl
  · split at h
    · cases h
    · rw [← Option.some.inj h]
      rfl

/-- What is in the way once stays in the way. -/
theorem Extends.obstacle?_eq_none (h : Extends before after)
    (hnone : after.obstacle? table = none) : before.obstacle? table = none := by
  rw [obstacle?_eq_none_iff, h.tables] at hnone
  rw [obstacle?_eq_none_iff]
  exact ⟨hnone.1, fun name hname => hnone.2 name (h.mem_artifacts hname)⟩

/-- Nothing is in the way where nothing is. -/
theorem obstacle?_empty (table : String) : ({} : Memory).obstacle? table = none := by
  rw [obstacle?_eq_none_iff]
  refine ⟨List.not_mem_nil, fun name hname => ?_⟩
  obtain ⟨directory, -, key, hkey, -⟩ := mem_artifacts.mp hname
  exact absurd hkey List.not_mem_nil

end Memory

/-! ## Steps -/

namespace Entity

/-- What the standard step for a kind plans for an entity if nothing is in the way. -/
def planned? (timestamp : Timestamp) (entities : List Entity) (entity : Entity) :
    ArtifactKind → Option ArtifactData
  | .model => some (.model entity.model)
  | .migration => some (.migration (entity.migration timestamp))
  | .formRequest => some (.formRequest entity.formRequest)
  | .apiController => some (.apiController entity.controller)
  | .webController => some (.webController entity.controller)
  | .routes => some (.routes entity.routeSet)
  | .views => some (.views entity.viewSet)
  | .layout => if entity.isRoot then some (.layout (layoutOf entities)) else none

/-- A step plans artifacts of its kind only. -/
theorem kind_of_planned? {timestamp : Timestamp} {entities : List Entity} {entity : Entity}
    {kind : ArtifactKind} {data : ArtifactData}
    (h : entity.planned? timestamp entities kind = some data) : data.kind = kind := by
  cases kind with
  | layout =>
    unfold planned? at h
    split_ifs at h
    rw [← Option.some.inj h]
    rfl
  | _ =>
    rw [← Option.some.inj h]
    rfl

/-- Of what the steps plan for an entity, only its migration creates a table. -/
theorem eq_migration_of_planned? {timestamp : Timestamp} {entities : List Entity} {entity : Entity}
    {kind : ArtifactKind} {data : ArtifactData} {table : String}
    (h : entity.planned? timestamp entities kind = some data)
    (hof : Plan.tableOf? data = some table) :
    kind = .migration ∧ table = entity.table ∧ data = .migration (entity.migration timestamp) := by
  have hkind := kind_of_planned? h
  cases data with
  | migration migration =>
    obtain rfl : .migration = kind := hkind
    have hdata := (Option.some.inj h).symm
    rw [hdata] at hof
    exact ⟨rfl, (Option.some.inj hof).symm, hdata⟩
  | _ => cases hof

end Entity

namespace Memory

/-- What is in the way of an artifact; only migrations have something in their way. -/
def obstacleTo? (memory : Memory) (entity : Entity) (kind : ArtifactKind) : Option Error :=
  if kind = .migration then memory.obstacle? entity.table else none

/-- What the standard step for a kind comes to for an entity. -/
def stepResult (memory : Memory) (timestamp : Timestamp) (entities : List Entity)
    (task : Entity × ArtifactKind) : Except Error (Option ArtifactData) :=
  (memory.obstacleTo? task.1 task.2).elim (.ok (task.1.planned? timestamp entities task.2)) .error

/-- A standard step comes to its result and changes nothing. -/
theorem exec_step (memory : Memory) (timestamp : Timestamp) (entities : List Entity)
    (entity : Entity) (kind : ArtifactKind) :
    memory.exec ((Step.standard kind).plan entity { storage, timestamp, entities }) =
      (memory.stepResult timestamp entities (entity, kind), memory) := by
  cases kind with
  | migration =>
    have hcheck := memory.exec_check entity.table
    unfold stepResult obstacleTo?
    rw [if_pos rfl]
    change memory.exec (Schema.check storage entity.table >>= _) = _
    cases hobstacle : memory.obstacle? entity.table with
    | none =>
      rw [hobstacle] at hcheck
      exact exec_bind_ok hcheck
    | some e =>
      rw [hobstacle] at hcheck
      exact exec_bind_error hcheck
  | layout =>
    change memory.exec (pure _) = _
    rfl
  | _ => rfl

/-- It goes well if nothing is in the way, and comes to what is planned then. -/
theorem stepResult_eq_ok_iff {memory : Memory} {timestamp : Timestamp} {entities : List Entity}
    {task : Entity × ArtifactKind} {data : Option ArtifactData} :
    memory.stepResult timestamp entities task = .ok data ↔
      memory.obstacleTo? task.1 task.2 = none ∧
        task.1.planned? timestamp entities task.2 = data := by
  unfold stepResult
  cases memory.obstacleTo? task.1 task.2 <;> simp

/-- Its errors end no planning. -/
theorem isFatal_of_stepResult {memory : Memory} {timestamp : Timestamp} {entities : List Entity}
    {task : Entity × ArtifactKind} {e : Error}
    (h : memory.stepResult timestamp entities task = .error e) : e.isFatal = false := by
  unfold stepResult obstacleTo? at h
  split_ifs at h with hkind
  · cases hobstacle : memory.obstacle? task.1.table with
    | none =>
      rw [hobstacle] at h
      cases h
    | some found =>
      rw [hobstacle] at h
      rw [← Except.error.inj h]
      exact isFatal_of_obstacle? hobstacle
  · cases h

end Memory

/-! ## Planning -/

namespace Planner

/-- All steps of the planner are standard ones; some may be missing. -/
def HasStandardSteps {m : Type → Type} [Monad m] (planner : Planner m) : Prop :=
  ∀ kind step, planner.step? kind = some step → step = Step.standard kind

/-- The standard planner has standard steps. -/
theorem hasStandardSteps_standard {m : Type → Type} [Monad m] :
    (standard : Planner m).HasStandardSteps := by
  intro kind step h
  cases kind <;> exact (Option.some.inj h).symm

/-- The steps of such a planner are the standard ones for its kinds. -/
theorem steps_eq {m : Type → Type} [Monad m] {planner : Planner m}
    (h : planner.HasStandardSteps) :
    planner.steps = planner.kinds.map fun kind => (kind, Step.standard kind) := by
  unfold steps kinds
  induction ArtifactKind.all with
  | nil => rfl
  | cons kind rest ih =>
    rw [List.filterMap_cons, List.filter_cons]
    cases hstep : planner.step? kind with
    | none => exact ih
    | some step =>
      obtain rfl := h kind step hstep
      exact congrArg ((kind, Step.standard kind) :: ·) ih

section keeps

variable {σ : Type} {plan : Plan} {keeps : Plan → Prop}
  (hrecord : ∀ {plan after : Plan} {entity : Entity} {kind : ArtifactKind}
    {outcome : Except Error (Option ArtifactData)},
    keeps plan → plan.record entity kind outcome = .ok after → keeps after)

include hrecord

/-- What is kept when one result is recorded is kept for an entity. -/
theorem yields_planEntity_of_record (context : PlanContext (StateM σ)) (entity : Entity)
    (steps : List (ArtifactKind × Step (StateM σ))) (h : keeps plan) :
    Yields (planEntity context entity steps plan) keeps := by
  induction steps generalizing plan with
  | nil => exact .pure h
  | cons entry rest ih =>
    refine .bind (.trivial _) fun outcome _ => ?_
    exact .bind (.result fun middle hmiddle => hrecord h hmiddle) fun middle hmiddle => ih hmiddle

/-- What is kept when one result is recorded, whatever the result, is kept by the whole planning,
whatever the steps and the storage do. -/
theorem yields_planEntities_of_record (planner : Planner (StateM σ))
    (context : PlanContext (StateM σ)) (queue : List Entity) (h : keeps plan) :
    Yields (planner.planEntities context queue plan) keeps := by
  induction queue generalizing plan with
  | nil => exact .pure h
  | cons entity rest ih =>
    exact .bind (yields_planEntity_of_record hrecord context entity planner.steps h)
      fun middle hmiddle => ih hmiddle

end keeps

end Planner

namespace Memory

open Plan

variable {timestamp : Timestamp} {entities : List Entity}

/-- Planning an entity records its tasks and changes nothing. -/
theorem exec_planEntity (memory : Memory) (timestamp : Timestamp) (entities : List Entity)
    (entity : Entity) (kinds : List ArtifactKind) (plan : Plan) :
    memory.exec (Planner.planEntity { storage, timestamp, entities } entity
        (kinds.map fun kind => (kind, Step.standard kind)) plan) =
      (recordAll (memory.stepResult timestamp entities) (kinds.map (entity, ·)) plan, memory) := by
  induction kinds generalizing plan with
  | nil => rfl
  | cons kind rest ih =>
    have hstep := exec_lift_run (memory.exec_step timestamp entities entity kind)
    have hrecord : memory.exec (Planner.planEntity.liftExcept
          (plan.record entity kind (memory.stepResult timestamp entities (entity, kind)))) =
        (plan.record entity kind (memory.stepResult timestamp entities (entity, kind)), memory) :=
      rfl
    rw [List.map_cons, List.map_cons, Planner.planEntity, exec_bind_ok hstep]
    unfold recordAll at ih ⊢
    rw [List.foldlM_cons]
    cases hmiddle : plan.record entity kind
      (memory.stepResult timestamp entities (entity, kind)) with
    | error e =>
      rw [hmiddle] at hrecord
      exact exec_bind_error hrecord
    | ok middle =>
      rw [hmiddle] at hrecord
      rw [exec_bind_ok hrecord]
      exact ih middle

/-- The plan is what the tasks of the entities come to on a project. -/
def Plans (memory : Memory) (timestamp : Timestamp) (entities : List Entity)
    (kinds : List ArtifactKind) (plan : Plan) : Prop :=
  recordAll (memory.stepResult timestamp entities) (entities ×ˢ kinds) (.empty entities) = .ok plan

variable {planner : Planner (StateM Memory)}

/-- Planning a queue records the tasks of all its entities and changes nothing. -/
theorem exec_planEntities (hstandard : planner.HasStandardSteps) (memory : Memory)
    (queue : List Entity) (plan : Plan) :
    memory.exec (planner.planEntities { storage, timestamp, entities } queue plan) =
      (recordAll (memory.stepResult timestamp entities) (queue ×ˢ planner.kinds) plan, memory) := by
  induction queue generalizing plan with
  | nil => rfl
  | cons entity rest ih =>
    have hentity := memory.exec_planEntity timestamp entities entity planner.kinds plan
    rw [Planner.planEntities, Planner.steps_eq hstandard, List.product_cons, recordAll_append]
    cases hmiddle : recordAll (memory.stepResult timestamp entities)
        (planner.kinds.map (entity, ·)) plan with
    | error e =>
      rw [hmiddle] at hentity
      exact exec_bind_error hentity
    | ok middle =>
      rw [hmiddle] at hentity
      rw [exec_bind_ok hentity]
      exact ih middle

/-- A plan can always be made, and making it leaves the project as it is. -/
theorem exec_plan (hstandard : planner.HasStandardSteps) (memory : Memory) (timestamp : Timestamp)
    (entities : List Entity) :
    ∃ plan, memory.exec (planner.plan storage timestamp entities) = (.ok plan, memory) ∧
      memory.Plans timestamp entities planner.kinds plan := by
  obtain ⟨plan, hplan⟩ : ∃ plan, memory.Plans timestamp entities planner.kinds plan :=
    exists_recordAll_eq_ok (fun _ _ h => isFatal_of_stepResult h) _ _
  refine ⟨plan, ?_, hplan⟩
  rw [← hplan]
  exact memory.exec_planEntities hstandard entities (.empty entities)

/-! ## What a plan holds -/

namespace Plans

variable {memory : Memory} {kinds : List ArtifactKind} {plan : Plan} {artifact : Artifact}
  {table : String}

/-- Every artifact is planned for one of the entities, and nothing is in its way. -/
theorem mem_artifacts (h : memory.Plans timestamp entities kinds plan)
    (hmem : artifact ∈ plan.artifacts) :
    artifact.entity ∈ entities ∧ ∃ kind ∈ kinds, memory.obstacleTo? artifact.entity kind = none ∧
      artifact.entity.planned? timestamp entities kind = some artifact.data := by
  rcases mem_artifacts_recordAll h hmem with hnone | ⟨⟨entity, kind⟩, htask, hentity, hresult⟩
  · exact absurd hnone List.not_mem_nil
  · obtain rfl : entity = artifact.entity := hentity
    rw [List.mem_product] at htask
    exact ⟨htask.1, kind, htask.2, stepResult_eq_ok_iff.mp hresult⟩

/-- An artifact that creates a table is the migration of its entity, and nothing is in its way. -/
theorem eq_migration_of_mem (h : memory.Plans timestamp entities kinds plan)
    (hmem : artifact ∈ plan.artifacts) (hof : tableOf? artifact.data = some table) :
    memory.obstacle? artifact.entity.table = none ∧ artifact.entity ∈ entities ∧
      artifact.data = .migration (artifact.entity.migration timestamp) := by
  obtain ⟨hentity, kind, -, hfree, hplanned⟩ := h.mem_artifacts hmem
  obtain ⟨rfl, -, hdata⟩ := Entity.eq_migration_of_planned? hplanned hof
  exact ⟨hfree, hentity, hdata⟩

/-- A planned table is the table of one of the entities, and nothing is in its way. -/
theorem exists_of_plansTable (h : memory.Plans timestamp entities kinds plan)
    (htable : plan.plansTable table = true) :
    memory.obstacle? table = none ∧ ∃ entity ∈ entities, entity.table = table ∧
      ⟨entity, .migration (entity.migration timestamp)⟩ ∈ plan.artifacts := by
  obtain ⟨⟨entity, data⟩, hmem, hof⟩ := plansTable_iff.mp htable
  obtain ⟨hfree, hentity, hdata⟩ := h.eq_migration_of_mem hmem hof
  dsimp only at hof hfree hentity hdata
  rw [hdata] at hof hmem
  obtain rfl : entity.table = table := Option.some.inj hof
  exact ⟨hfree, entity, hentity, rfl, hmem⟩

/-- A table is planned if an entity has it and nothing is in its way. -/
theorem plansTable_of_mem (h : memory.Plans timestamp entities kinds plan)
    (hkind : .migration ∈ kinds) {entity : Entity} (hentity : entity ∈ entities)
    (hfree : memory.obstacle? entity.table = none) : plan.plansTable entity.table = true := by
  refine plansTable_recordAll h (Or.inr ⟨(entity, .migration), ?_, ?_⟩)
  · exact List.mem_product.mpr ⟨hentity, hkind⟩
  · exact ⟨_, stepResult_eq_ok_iff.mpr ⟨hfree, rfl⟩, rfl⟩

/-- The artifacts that create no table depend neither on the project nor on the time. -/
theorem artifacts_filter (h : memory.Plans timestamp entities kinds plan) {memory' : Memory}
    {timestamp' : Timestamp} {plan' : Plan}
    (h' : memory'.Plans timestamp' entities kinds plan') :
    plan'.artifacts.filter (fun artifact => (tableOf? artifact.data).isNone) =
      plan.artifacts.filter (fun artifact => (tableOf? artifact.data).isNone) := by
  rw [artifacts_filter_recordAll h, artifacts_filter_recordAll h']
  congr 1
  apply List.filterMap_congr
  rintro ⟨entity, kind⟩ -
  cases kind with
  | migration =>
    have hnone : ∀ (memory : Memory) (timestamp : Timestamp),
        withoutTable? (memory.stepResult timestamp entities) (entity, .migration) = none := by
      intro memory timestamp
      unfold withoutTable?
      split
      · next data hdata =>
        rw [stepResult_eq_ok_iff] at hdata
        rw [← Option.some.inj hdata.2]
        rfl
      · rfl
    rw [hnone, hnone]
  | _ => rfl

end Plans

end Memory

end Scaffold
