import Scaffold.Proofs.Plan.Planning
import Scaffold.Proofs.Storage.Recording

/-!
# Planning reads and does not write

What a planner does to a storage is what its steps do, and these are free. If every step only reads,
so does the planner (`sparing_plan`). The standard steps only read, as long as reading does not
change what is seen of the storage (`onlyReads_of_hasStandardSteps`).
-/

namespace Scaffold

variable {σ φ : Type} {view : σ → φ} {storage : Storage (StateM σ)}
  {planner : Planner (StateM (σ × List Call))}

/-- Every step of the planner only reads, whether it fails or not. -/
def Planner.OnlyReads (view : σ → φ) (storage : Storage (StateM σ))
    (planner : Planner (StateM (σ × List Call))) : Prop :=
  ∀ kind step, planner.step? kind = some step → ∀ entity timestamp entities,
    IsSparing view (step.plan entity { storage := storage.recording, timestamp, entities })

/-! ## Steps one after another -/

namespace Planner

/-- Each entry of the step table is the step that its kind is looked up as. -/
theorem mem_steps {m : Type → Type} {planner : Planner m} {entry : ArtifactKind × Step m}
    (h : entry ∈ planner.steps) : planner.step? entry.1 = some entry.2 := by
  obtain ⟨kind, -, hentry⟩ := List.mem_filterMap.mp h
  obtain ⟨step, hstep, rfl⟩ := Option.map_eq_some_iff.mp hentry
  exact hstep

/-- Planning one entity only reads if each of the steps does. -/
theorem sparing_planEntity {context : PlanContext (StateM (σ × List Call))} {entity : Entity}
    {steps : List (ArtifactKind × Step (StateM (σ × List Call)))}
    (h : ∀ entry ∈ steps, IsSparing view (entry.2.plan entity context)) (plan : Plan) :
    IsSparing view (planEntity context entity steps plan) := by
  induction steps generalizing plan with
  | nil => exact .result (.ok plan)
  | cons entry rest ih =>
    rw [List.forall_mem_cons] at h
    exact .bind h.1.lift_run fun outcome => .bind (.result _) fun plan => ih h.2 plan

/-- So does planning all entities with a planner that only reads. -/
theorem sparing_planEntities (h : planner.OnlyReads view storage) (timestamp : Timestamp)
    (all entities : List Entity) (plan : Plan) :
    IsSparing view (planner.planEntities
      { storage := storage.recording, timestamp, entities := all } entities plan) := by
  induction entities generalizing plan with
  | nil => exact .result (.ok plan)
  | cons entity rest ih =>
    refine .bind (sparing_planEntity (fun entry hentry => ?_) plan) fun plan => ih plan
    exact h entry.1 entry.2 (mem_steps hentry) entity timestamp all

/-- A planner whose steps only read only reads. -/
theorem sparing_plan (h : planner.OnlyReads view storage) (timestamp : Timestamp)
    (entities : List Entity) :
    IsSparing view (planner.plan storage.recording timestamp entities) :=
  sparing_planEntities h timestamp entities entities (.empty entities)

end Planner

/-! ## The standard steps -/

/-- The guard only reads. -/
theorem sparing_check (h : storage.KeepsView view) (table : String) :
    IsSparing view (Schema.check storage.recording table) := by
  unfold Schema.check
  refine .bind (.logged rfl _ (h.tableExists table)) fun exists_ => ?_
  cases exists_ with
  | true => exact .result (.error _)
  | false =>
    refine .bind (.logged rfl _ (h.listArtifacts _ _)) fun found => ?_
    cases found with
    | nil => exact .result (.ok ())
    | cons first rest => exact .result (.error _)

/-- Every standard step only reads: at most it asks the guard. -/
theorem sparing_standard (h : storage.KeepsView view) (kind : ArtifactKind) (entity : Entity)
    (timestamp : Timestamp) (entities : List Entity) :
    IsSparing view ((Step.standard kind).plan entity
      { storage := storage.recording, timestamp, entities }) := by
  cases kind with
  | migration => exact .bind (sparing_check h entity.table) fun _ => .result (.ok _)
  | _ => exact .result (.ok _)

/-- A planner with the standard steps only reads. -/
theorem Planner.onlyReads_of_hasStandardSteps (hstandard : planner.HasStandardSteps)
    (h : storage.KeepsView view) : planner.OnlyReads view storage := by
  intro kind step hstep entity timestamp entities
  rw [hstandard kind step hstep]
  exact sparing_standard h kind entity timestamp entities

end Scaffold
