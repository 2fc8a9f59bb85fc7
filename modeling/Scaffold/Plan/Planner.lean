import Scaffold.Plan.Step

/-!
# Planning

A planner holds at most one step for each kind and runs them for every entity, in the order of the
kinds. Which steps there are is free: a step can be put in place of the standard one.
-/

namespace Scaffold

/-- A planner: the step for each kind, if there is one. -/
structure Planner (m : Type → Type) where
  /-- The step for a kind. -/
  step? : ArtifactKind → Option (Step m)

namespace Planner

variable {m : Type → Type}

/-- The planner without steps. -/
def empty : Planner m where
  step? _ := none

/-- The planner with the step in place of the one for the same kind. -/
def register (planner : Planner m) (step : Step m) : Planner m where
  step? kind := if kind = step.kind then some step else planner.step? kind

/-- The planner with all standard steps. -/
def standard [Monad m] : Planner m :=
  (ArtifactKind.all.map Step.standard).foldl register empty

/-- The steps with their kinds, in the order in which they run. -/
def steps (planner : Planner m) : List (ArtifactKind × Step m) :=
  ArtifactKind.all.filterMap fun kind => (planner.step? kind).map fun step => (kind, step)

/-- The kinds for which there is a step, in their order. -/
def kinds (planner : Planner m) : List ArtifactKind :=
  ArtifactKind.all.filter fun kind => (planner.step? kind).isSome

/-! ## Running the steps -/

variable [Monad m]

/-- The plan after the steps have run for one entity. -/
def planEntity (context : PlanContext m) (entity : Entity) :
    List (ArtifactKind × Step m) → Plan → ExceptT Error m Plan
  | [], plan => pure plan
  | (kind, step) :: rest, plan => do
    let outcome ← ExceptT.lift (step.plan entity context).run
    let plan ← liftExcept (plan.record entity kind outcome)
    planEntity context entity rest plan
where
  /-- A result without effects. -/
  liftExcept (result : Except Error Plan) : ExceptT Error m Plan :=
    ExceptT.mk (pure result)

/-- The plan after the steps have run for each of the entities. -/
def planEntities (planner : Planner m) (context : PlanContext m) :
    List Entity → Plan → ExceptT Error m Plan
  | [], plan => pure plan
  | entity :: rest, plan => do
    let plan ← planEntity context entity planner.steps plan
    planner.planEntities context rest plan

/-- The plan for the entities, of which the first is the root. -/
def plan (planner : Planner m) (storage : Storage m) (timestamp : Timestamp)
    (entities : List Entity) : ExceptT Error m Plan :=
  planner.planEntities { storage, timestamp, entities } entities (.empty entities)

end Planner

end Scaffold
