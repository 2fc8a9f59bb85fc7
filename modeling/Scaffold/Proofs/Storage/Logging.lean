import Scaffold.Generation.Emission
import Scaffold.Proofs.Plan.Planning
import Scaffold.Proofs.Storage.Recording

/-!
# What a log shows

A storage with a log does what the storage does, and the log shows which paths it was given. The two
are said at once, step by step: an operation on the storage with the log comes to what the operation
on the storage itself comes to, and the calls that it adds to the log keep to paths of a sort
(`IsLogged`).

* Planning by the standard steps is given no paths at all (`logged_plan`).
* Emitting outputs is given their paths and the directories of these (`logged_emitAll`).
-/

namespace Scaffold

variable {σ α β : Type} {good : Path → Prop}

/-! ## Calls about paths -/

/-- The operation is given a path. -/
def StorageOperation.takesPath : StorageOperation → Bool
  | .read | .write | .append | .ensureDirectory => true
  | .tableExists | .listArtifacts => false

/-- If the call is given a path, it is one that satisfies `good`. -/
def Call.KeepsTo (good : Path → Prop) (call : Call) : Prop :=
  call.operation.takesPath = true → good ⟨call.subject⟩

/-- The operation with a log comes to what the plain one comes to, and it adds calls to the log that
keep to paths which satisfy `good`. -/
def IsLogged (good : Path → Prop) (action : ExceptT Error (StateM (σ × List Call)) α)
    (plain : ExceptT Error (StateM σ) α) : Prop :=
  ∀ state, ∃ calls, perform action state =
      ((perform plain state.1).1, (perform plain state.1).2, state.2 ++ calls) ∧
    ∀ call ∈ calls, call.KeepsTo good

namespace IsLogged

variable {action : ExceptT Error (StateM (σ × List Call)) α} {plain : ExceptT Error (StateM σ) α}

/-- A result without effects adds no calls. -/
theorem result (result : Except Error α) :
    IsLogged good (ExceptT.mk (pure result) : ExceptT Error (StateM (σ × List Call)) α)
      (ExceptT.mk (pure result)) := by
  intro state
  refine ⟨[], ?_, by simp⟩
  rw [List.append_nil]
  rfl

/-- Two logged actions make one, if the second is logged for each result of the first. -/
theorem bind {next : α → ExceptT Error (StateM (σ × List Call)) β}
    {plainNext : α → ExceptT Error (StateM σ) β} (h : IsLogged good action plain)
    (hnext : ∀ a, IsLogged good (next a) (plainNext a)) :
    IsLogged good (action >>= next) (plain >>= plainNext) := by
  intro state
  obtain ⟨calls, haction, hcalls⟩ := h state
  rcases hplain : perform plain state.1 with ⟨result, middle⟩
  rw [hplain] at haction
  cases result with
  | error e =>
    rw [perform_bind_error haction, perform_bind_error hplain]
    exact ⟨calls, rfl, hcalls⟩
  | ok a =>
    obtain ⟨more, hmore, hmorecalls⟩ := hnext a (middle, state.2 ++ calls)
    rw [perform_bind_ok haction, perform_bind_ok hplain, hmore]
    refine ⟨calls ++ more, ?_, List.forall_mem_append.mpr ⟨hcalls, hmorecalls⟩⟩
    rw [← List.append_assoc]

/-- An action whose failure is caught is logged like the action itself. -/
theorem lift_run (h : IsLogged good action plain) : IsLogged good
    (ExceptT.lift action.run : ExceptT Error (StateM (σ × List Call)) (Except Error α))
    (ExceptT.lift plain.run) := by
  intro state
  obtain ⟨calls, haction, hcalls⟩ := h state
  have hplain : perform plain state.1 = ((perform plain state.1).1, (perform plain state.1).2) :=
    rfl
  rw [perform_lift_run haction, perform_lift_run hplain]
  exact ⟨calls, rfl, hcalls⟩

/-- A call that is given no path, or a path that satisfies `good`. -/
theorem logged {operation : StorageOperation} {subject : String}
    (h : operation.takesPath = true → good ⟨subject⟩) (call : ExceptT Error (StateM σ) α) :
    IsLogged good (Storage.logged operation subject call) call := by
  intro state
  rw [perform_logged]
  exact ⟨_, rfl, by simpa [Call.KeepsTo] using h⟩

end IsLogged

/-! ## Planning -/

section planning

variable (storage : Storage (StateM σ)) (timestamp : Timestamp)

/-- The guard is logged. -/
theorem logged_check (table : String) :
    IsLogged good (Schema.check storage.recording table) (Schema.check storage table) := by
  unfold Schema.check
  refine .bind (.logged (fun h => nomatch h) _) fun exists_ => ?_
  cases exists_ with
  | true => exact .result (.error _)
  | false =>
    refine .bind (.logged (fun h => nomatch h) _) fun found => ?_
    cases found with
    | nil => exact .result (.ok ())
    | cons first rest => exact .result (.error _)

/-- Each standard step is logged. -/
theorem logged_standard (kind : ArtifactKind) (entity : Entity) (entities : List Entity) :
    IsLogged good
      ((Step.standard kind).plan entity { storage := storage.recording, timestamp, entities })
      ((Step.standard kind).plan entity { storage, timestamp, entities }) := by
  cases kind with
  | migration => exact .bind (logged_check storage entity.table) fun _ => .result (.ok _)
  | _ => exact .result (.ok _)

/-- Planning an entity is logged. -/
theorem logged_planEntity (entity : Entity) (entities : List Entity) (kinds : List ArtifactKind)
    (plan : Plan) :
    IsLogged good
      (Planner.planEntity { storage := storage.recording, timestamp, entities } entity
        (kinds.map fun kind => (kind, Step.standard kind)) plan)
      (Planner.planEntity { storage, timestamp, entities } entity
        (kinds.map fun kind => (kind, Step.standard kind)) plan) := by
  induction kinds generalizing plan with
  | nil => exact .result (.ok plan)
  | cons kind rest ih =>
    refine .bind (logged_standard storage timestamp kind entity entities).lift_run fun outcome => ?_
    exact .bind (.result _) fun plan => ih plan

variable (good) in
/-- Planning by the standard steps is given no paths. -/
theorem logged_plan (entities : List Entity) :
    IsLogged good (Planner.standard.plan storage.recording timestamp entities)
      (Planner.standard.plan storage timestamp entities) := by
  have hqueue : ∀ (queue : List Entity) (plan : Plan), IsLogged good
      (Planner.standard.planEntities { storage := storage.recording, timestamp, entities } queue
        plan)
      (Planner.standard.planEntities { storage, timestamp, entities } queue plan) := by
    intro queue
    induction queue with
    | nil => exact fun plan => .result (.ok plan)
    | cons entity rest ih =>
      intro plan
      exact .bind (logged_planEntity storage timestamp entity entities ArtifactKind.all plan) ih
  exact hqueue entities (.empty entities)

end planning

/-! ## Emission -/

section emission

variable (storage : Storage (StateM σ))
  (hdirectory : ∀ path directory, good path → path.directory? = some directory → good directory)

include hdirectory

/-- So is making the directory above a path. -/
theorem logged_ensureParent {path : Path} (hpath : good path) :
    IsLogged good (storage.recording.ensureParent path) (storage.ensureParent path) := by
  unfold Storage.ensureParent
  cases hparent : path.directory? with
  | none => exact .result (.ok ())
  | some directory => exact .logged (fun _ => hdirectory path directory hpath hparent) _

/-- Merging lines into a file is logged. -/
theorem logged_merge {path : Path} (hpath : good path) (lines : List String) :
    IsLogged good (Route.merge storage.recording path lines) (Route.merge storage path lines) := by
  have happend : ∀ content inserted, IsLogged good
      (Route.merge.append storage.recording path lines content inserted)
      (Route.merge.append storage path lines content inserted) := by
    intro content inserted
    unfold Route.merge.append
    by_cases hnone : (Route.missing content lines).isEmpty = true
    · simp only [hnone]
      exact .bind (.result (.ok ())) fun _ => .result (.ok _)
    · simp only [hnone]
      exact .bind (.logged (fun _ => hpath) _) fun _ => .result (.ok _)
  unfold Route.merge
  refine .bind (.logged (fun _ => hpath) _) fun current => ?_
  cases Route.withPreamble current with
  | none => exact happend _ _
  | some content =>
    exact .bind (logged_ensureParent storage hdirectory hpath) fun _ =>
      .bind (.logged (fun _ => hpath) _) fun _ => happend content true

/-- Writing an output is logged. -/
theorem logged_deliver {output : Output} (hpath : good output.path) :
    IsLogged good (Emission.deliver storage.recording output)
      (Emission.deliver storage output) := by
  have hwrite : ∀ path content, good path → IsLogged good
      (do
        storage.recording.ensureParent path
        storage.recording.write path content
        return (⟨.created, none⟩ : Outcome))
      (do
        storage.ensureParent path
        storage.write path content
        return (⟨.created, none⟩ : Outcome)) := by
    intro path content hgood
    exact .bind (logged_ensureParent storage hdirectory hgood) fun _ =>
      .bind (.logged (fun _ => hgood) _) fun _ => .result (.ok _)
  cases output with
  | file path content => exact hwrite path content hpath
  | starter path content =>
    unfold Emission.deliver
    refine .bind (.logged (fun _ => hpath) _) fun current => ?_
    cases current with
    | none => exact hwrite path content hpath
    | some content => exact .result (.ok _)
  | lines path lines =>
    exact .bind (logged_merge storage hdirectory hpath lines) fun _ => .result (.ok _)

omit hdirectory in
/-- Previewing it is logged as well. -/
theorem logged_preview (expected : Emission.Expected) {output : Output} (hpath : good output.path) :
    IsLogged good (Emission.preview storage.recording expected output)
      (Emission.preview storage expected output) := by
  cases output with
  | file path content => exact .result (.ok _)
  | starter path content =>
    unfold Emission.preview
    refine .bind (.logged (fun _ => hpath) _) fun current => ?_
    cases current with
    | none => exact .result (.ok _)
    | some content => exact .result (.ok _)
  | lines path lines =>
    unfold Emission.preview
    refine .bind ?_ fun content => .result (.ok _)
    unfold Emission.expectedContent
    cases expected.content? path with
    | some content => exact .result (.ok content)
    | none => exact .bind (.logged (fun _ => hpath) _) fun _ => .result (.ok _)

/-- Hence an output is logged whether it is written or previewed. -/
theorem logged_emit (dryRun : Bool) (expected : Emission.Expected) {output : Output}
    (hpath : good output.path) :
    IsLogged good (Emission.emit storage.recording dryRun expected output)
      (Emission.emit storage dryRun expected output) := by
  unfold Emission.emit
  cases dryRun with
  | true => exact logged_preview storage expected hpath
  | false => exact .bind (logged_deliver storage hdirectory hpath) fun _ => .result (.ok _)

/-- The emission is given the paths of the outputs and their directories, in a dry run too. -/
theorem logged_emitAll (dryRun : Bool) (expected : Emission.Expected)
    {outputs : List (ArtifactKind × Output)} (hpaths : ∀ entry ∈ outputs, good entry.2.path)
    (state : σ × List Call) :
    ∃ calls, (Emission.emitAll storage.recording dryRun expected outputs).run state =
        (((Emission.emitAll storage dryRun expected outputs).run state.1).1,
          ((Emission.emitAll storage dryRun expected outputs).run state.1).2, state.2 ++ calls) ∧
      ∀ call ∈ calls, call.KeepsTo good := by
  induction outputs generalizing expected state with
  | nil =>
    refine ⟨[], ?_, by simp⟩
    rw [List.append_nil]
    rfl
  | cons entry rest ih =>
    obtain ⟨kind, output⟩ := entry
    rw [List.forall_mem_cons] at hpaths
    obtain ⟨calls, haction, hcalls⟩ := logged_emit storage hdirectory dryRun expected hpaths.1 state
    rcases hplain : perform (Emission.emit storage dryRun expected output) state.1 with
      ⟨result, middle⟩
    rw [hplain] at haction
    rw [Emission.emitAll, Emission.emitAll, run_bind haction, run_bind hplain]
    cases result with
    | error e => exact ⟨calls, rfl, hcalls⟩
    | ok found =>
      obtain ⟨outcome, expected'⟩ := found
      obtain ⟨more, hmore, hmorecalls⟩ := ih expected' hpaths.2 (middle, state.2 ++ calls)
      refine ⟨calls ++ more, ?_, List.forall_mem_append.mpr ⟨hcalls, hmorecalls⟩⟩
      dsimp only
      rw [run_bind hmore, ← List.append_assoc]
      rfl

end emission

end Scaffold
