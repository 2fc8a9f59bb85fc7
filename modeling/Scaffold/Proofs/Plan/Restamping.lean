import Scaffold.Proofs.Plan.Planning

/-!
# The same plan at another time

The time of a run stands in the names of the migration files and nowhere else in its plan. Main
statement: two plans for the same entities, made at different times and on different projects, are
the same but for these names, if the guard lets the same tables pass (`Plans.restamps`). The plans
are compared task by task: what two steps came to is the same but for the time (`SameStep`), and
recording it keeps the plans the same (`Restamps.record`).
-/

namespace Scaffold

/-! ## What an artifact says at another time -/

/-- The content of the artifact at another time. -/
def ArtifactData.restamped (timestamp : Timestamp) : ArtifactData → ArtifactData
  | .migration created =>
    .migration { created with fileStem := timestamp.stamp ++ "_" ++ created.logicalName }
  | data => data

/-- The artifact at another time. -/
def Artifact.restamped (timestamp : Timestamp) (artifact : Artifact) : Artifact :=
  { artifact with data := artifact.data.restamped timestamp }

section restamped

variable (timestamp : Timestamp) {data : ArtifactData}

/-- Another time does not change the kind of an artifact. -/
@[simp] theorem ArtifactData.kind_restamped : (data.restamped timestamp).kind = data.kind := by
  cases data <;> rfl

/-- Nor does it change the table that an artifact creates. -/
@[simp] theorem Plan.tableOf?_restamped : tableOf? (data.restamped timestamp) = tableOf? data := by
  cases data <;> rfl

/-- An artifact that creates no table says the same at any time. -/
theorem ArtifactData.restamped_of_tableOf? (h : Plan.tableOf? data = none) :
    data.restamped timestamp = data := by
  cases data with
  | migration migration => cases h
  | _ => rfl

/-- The migration of an entity at another time is its migration of that time. -/
theorem restamped_migration (before : Timestamp) (entity : Entity) :
    (ArtifactData.migration (entity.migration before)).restamped timestamp =
      .migration (entity.migration timestamp) := rfl

/-- What a step plans at another time. -/
theorem Entity.planned?_restamped (before : Timestamp) (entities : List Entity) (entity : Entity)
    (kind : ArtifactKind) :
    entity.planned? timestamp entities kind =
      (entity.planned? before entities kind).map (ArtifactData.restamped timestamp) := by
  cases kind with
  | layout =>
    unfold planned?
    split_ifs <;> rfl
  | _ => rfl

end restamped

/-! ## Recording at another time -/

namespace Plan

variable {timestamp : Timestamp} {plan plan' after after' : Plan} {entity : Entity}
  {kind : ArtifactKind} {result result' : Except Error (Option ArtifactData)}

/-- The second plan is the first one at another time. The reasons for which artifacts are left out
may differ. -/
structure Restamps (timestamp : Timestamp) (plan plan' : Plan) : Prop where
  /-- The same artifacts are planned. -/
  artifacts : plan'.artifacts = plan.artifacts.map (Artifact.restamped timestamp)
  /-- The same artifacts are left out. -/
  skipped : plan'.skipped.map (fun skipped => (skipped.entity, skipped.kind)) =
    plan.skipped.map fun skipped => (skipped.entity, skipped.kind)

/-- Two steps came to the same but for the time, or to errors that are not fatal. -/
inductive SameStep (timestamp : Timestamp) :
    Except Error (Option ArtifactData) → Except Error (Option ArtifactData) → Prop where
  /-- Both came to an artifact, or to none. -/
  | ok (data : Option ArtifactData) :
      SameStep timestamp (.ok data) (.ok (data.map (ArtifactData.restamped timestamp)))
  /-- Both failed. -/
  | error {e e' : Error} (h : e.isFatal = false) (h' : e'.isFatal = false) :
      SameStep timestamp (.error e) (.error e')

namespace Restamps

/-- Two empty plans for the same entities agree at any time. -/
theorem refl_empty (timestamp : Timestamp) (entities : List Entity) :
    Restamps timestamp (.empty entities) (.empty entities) :=
  ⟨rfl, rfl⟩

/-- Plans keep agreeing if an artifact and its restamped twin are added. -/
theorem add (h : Restamps timestamp plan plan') (entity : Entity) (data : ArtifactData) :
    Restamps timestamp (plan.add entity data) (plan'.add entity (data.restamped timestamp)) where
  artifacts := by
    unfold Plan.add
    rw [List.map_append, h.artifacts]
    rfl
  skipped := h.skipped

/-- They keep agreeing if one and the same task is left out of both, whatever the reasons. -/
theorem skip (h : Restamps timestamp plan plan') (entity : Entity) (kind : ArtifactKind)
    (reason reason' : String) :
    Restamps timestamp (plan.skip entity kind reason) (plan'.skip entity kind reason') where
  artifacts := h.artifacts
  skipped := by
    unfold Plan.skip
    rw [List.map_append, List.map_append, h.skipped]
    rfl

/-- Plans that agree have the same tables. -/
theorem plansTable_eq (h : Restamps timestamp plan plan') (table : String) :
    plan'.plansTable table = plan.plansTable table := by
  unfold plansTable
  rw [h.artifacts, List.any_map]
  congr 1
  funext artifact
  exact congrArg (· == some table) (tableOf?_restamped timestamp)

/-- They refuse the same artifacts. -/
theorem takenTable?_eq (h : Restamps timestamp plan plan') (data : ArtifactData) :
    plan'.takenTable? (data.restamped timestamp) = plan.takenTable? data := by
  have hplans : plan'.plansTable = plan.plansTable := funext h.plansTable_eq
  unfold takenTable?
  rw [tableOf?_restamped, hplans]

/-- Recording steps that came to the same keeps the plans the same. -/
theorem record (h : Restamps timestamp plan plan') (hsame : SameStep timestamp result result')
    (hrecord : plan.record entity kind result = .ok after)
    (hrecord' : plan'.record entity kind result' = .ok after') :
    Restamps timestamp after after' := by
  cases hsame with
  | ok data =>
    cases data with
    | none =>
      rw [← Except.ok.inj hrecord, ← Except.ok.inj hrecord']
      exact h
    | some data =>
      have htaken := h.takenTable?_eq data
      cases hfree : plan.takenTable? data with
      | none =>
        rw [hfree] at htaken
        rw [record_of_free entity kind hfree] at hrecord
        rw [Option.map_some, record_of_free entity kind htaken] at hrecord'
        rw [← Except.ok.inj hrecord, ← Except.ok.inj hrecord']
        exact h.add entity data
      | some table =>
        rw [hfree] at htaken
        rw [record_of_taken entity kind hfree] at hrecord
        rw [Option.map_some, record_of_taken entity kind htaken] at hrecord'
        rw [← Except.ok.inj hrecord, ← Except.ok.inj hrecord']
        exact h.skip entity kind _ _
  | error hfatal hfatal' =>
    rw [record_of_not_fatal entity kind hfatal] at hrecord
    rw [record_of_not_fatal entity kind hfatal'] at hrecord'
    rw [← Except.ok.inj hrecord, ← Except.ok.inj hrecord']
    exact h.skip entity kind _ _

/-- Plans keep agreeing while tasks are recorded whose results agree, by induction on the tasks. -/
theorem recordAll {results results' : Entity × ArtifactKind → Except Error (Option ArtifactData)}
    {tasks : List (Entity × ArtifactKind)} (h : Restamps timestamp plan plan')
    (hsame : ∀ task ∈ tasks, SameStep timestamp (results task) (results' task))
    (hrecord : Plan.recordAll results tasks plan = .ok after)
    (hrecord' : Plan.recordAll results' tasks plan' = .ok after') :
    Restamps timestamp after after' := by
  induction tasks generalizing plan plan' with
  | nil =>
    rw [← Except.ok.inj hrecord, ← Except.ok.inj hrecord']
    exact h
  | cons task rest ih =>
    rw [List.forall_mem_cons] at hsame
    obtain ⟨middle, hfirst, hrest⟩ := recordAll_cons hrecord
    obtain ⟨middle', hfirst', hrest'⟩ := recordAll_cons hrecord'
    exact ih (h.record hsame.1 hfirst hfirst') hsame.2 hrest hrest'

end Restamps

end Plan

/-! ## Planning at another time -/

namespace Memory

open Plan

variable {memory memory' : Memory} {timestamp timestamp' : Timestamp} {entities : List Entity}

/-- A step comes to the same on two projects if the guard lets its table pass on both or on
neither. -/
theorem sameStep_stepResult {task : Entity × ArtifactKind}
    (h : memory.obstacle? task.1.table = none ↔ memory'.obstacle? task.1.table = none) :
    SameStep timestamp' (memory.stepResult timestamp entities task)
      (memory'.stepResult timestamp' entities task) := by
  obtain ⟨entity, kind⟩ := task
  have hfree : memory.obstacleTo? entity kind = none ↔ memory'.obstacleTo? entity kind = none := by
    unfold obstacleTo?
    split_ifs
    · exact h
    · exact Iff.rfl
  cases hobstacle : memory.obstacleTo? entity kind with
  | none =>
    have hstep : memory.stepResult timestamp entities (entity, kind) = .ok _ :=
      stepResult_eq_ok_iff.mpr ⟨hobstacle, rfl⟩
    have hstep' : memory'.stepResult timestamp' entities (entity, kind) = .ok _ :=
      stepResult_eq_ok_iff.mpr ⟨hfree.mp hobstacle, rfl⟩
    rw [hstep, hstep', Entity.planned?_restamped timestamp' timestamp]
    exact .ok _
  | some e =>
    cases hobstacle' : memory'.obstacleTo? entity kind with
    | none =>
      rw [hfree.mpr hobstacle'] at hobstacle
      cases hobstacle
    | some e' =>
      have hstep : memory.stepResult timestamp entities (entity, kind) = .error e := by
        unfold stepResult
        rw [hobstacle]
        rfl
      have hstep' : memory'.stepResult timestamp' entities (entity, kind) = .error e' := by
        unfold stepResult
        rw [hobstacle']
        rfl
      rw [hstep, hstep']
      exact .error (isFatal_of_stepResult hstep) (isFatal_of_stepResult hstep')

/-- Two plans for the same entities differ in nothing but their time, if the guard lets the same
tables pass. -/
theorem Plans.restamps {kinds : List ArtifactKind} {plan plan' : Plan}
    (h : memory.Plans timestamp entities kinds plan)
    (h' : memory'.Plans timestamp' entities kinds plan')
    (hguard : ∀ entity ∈ entities,
      (memory.obstacle? entity.table = none ↔ memory'.obstacle? entity.table = none)) :
    Restamps timestamp' plan plan' := by
  refine (Restamps.refl_empty timestamp' entities).recordAll ?_ h h'
  intro task htask
  exact sameStep_stepResult (hguard task.1 (List.mem_product.mp htask).1)

end Memory

end Scaffold
