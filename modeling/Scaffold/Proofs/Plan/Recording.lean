import Mathlib.Data.List.Basic
import Mathlib.Tactic.SplitIfs
import Scaffold.Plan.Basic
import Scaffold.Proofs.Except

/-!
# Recording tasks in a plan

A planner works off tasks, pairs of an entity and a kind, and records what the step for each of them
came to. What the recording adds is said task by task: every artifact was planned for a task
(`mem_artifacts_recordAll`), a table that a task came to is planned (`plansTable_recordAll`), and
all that creates no table is added whatever else is planned (`artifacts_filter_recordAll`).
-/

namespace Scaffold

namespace Plan

/-! ## One task -/

variable {plan after : Plan} {entity : Entity} {kind : ArtifactKind} {table : String}

/-- What recording the result of a step can do to a plan. -/
theorem record_cases {result : Except Error (Option ArtifactData)}
    (h : plan.record entity kind result = .ok after) :
    (∃ data, result = .ok (some data) ∧ plan.takenTable? data = none ∧
        after = plan.add entity data) ∨
      ((∀ data, result = .ok (some data) → ∃ table, plan.takenTable? data = some table) ∧
        after.artifacts = plan.artifacts) := by
  unfold record at h
  split at h
  · rw [← Except.ok.inj h]
    exact Or.inr ⟨fun data hdata => (by cases hdata), rfl⟩
  · next data =>
    split at h
    · next table htaken =>
      rw [← Except.ok.inj h]
      right
      refine ⟨?_, rfl⟩
      intro other hother
      obtain rfl : data = other := by simpa using hother
      exact ⟨table, htaken⟩
    · next hfree =>
      exact Or.inl ⟨data, rfl, hfree, (Except.ok.inj h).symm⟩
  · split_ifs at h
    rw [← Except.ok.inj h]
    exact Or.inr ⟨fun data hdata => (by cases hdata), rfl⟩

/-- Recording changes nothing about the entities. -/
theorem entities_record {result : Except Error (Option ArtifactData)}
    (h : plan.record entity kind result = .ok after) : after.entities = plan.entities := by
  unfold record at h
  split at h
  · rw [← Except.ok.inj h]
  · split at h <;>
      · rw [← Except.ok.inj h]
        rfl
  · split_ifs at h
    rw [← Except.ok.inj h]
    rfl

section equations

variable (entity : Entity) (kind : ArtifactKind) {data : ArtifactData}

/-- An artifact whose table is free joins the plan. -/
theorem record_of_free (h : plan.takenTable? data = none) :
    plan.record entity kind (.ok (some data)) = .ok (plan.add entity data) := by
  simp only [record, h]

/-- An artifact whose table is already planned is left out, and the reason names the table. -/
theorem record_of_taken (h : plan.takenTable? data = some table) :
    plan.record entity kind (.ok (some data)) =
      .ok (plan.skip entity kind s!"table '{table}' is already planned") := by
  simp only [record, h]

/-- A failure that is not fatal becomes an entry for what is left out. -/
theorem record_of_not_fatal {e : Error} (h : e.isFatal = false) :
    plan.record entity kind (.error e) = .ok (plan.skip entity kind e.message) := by
  simp [record, h]

end equations

/-- A plan has a table exactly if one of its artifacts creates it. -/
theorem plansTable_iff :
    plan.plansTable table = true ↔
      ∃ artifact ∈ plan.artifacts, tableOf? artifact.data = some table := by
  simp [plansTable]

/-- What takes a table is an artifact for a table that the plan has. -/
theorem takenTable?_eq_some {data : ArtifactData} (h : plan.takenTable? data = some table) :
    tableOf? data = some table ∧ plan.plansTable table = true := by
  unfold takenTable? at h
  rwa [Option.filter_eq_some_iff] at h

/-! ## All tasks -/

/-- The plan after the results of the tasks were recorded. -/
def recordAll (result : Entity × ArtifactKind → Except Error (Option ArtifactData))
    (tasks : List (Entity × ArtifactKind)) (plan : Plan) : Except Error Plan :=
  tasks.foldlM (fun plan task => plan.record task.1 task.2 (result task)) plan

section recordAll

variable {result : Entity × ArtifactKind → Except Error (Option ArtifactData)}
  {tasks : List (Entity × ArtifactKind)} {task : Entity × ArtifactKind}

/-- Recording a list of tasks records the first one and then the others. -/
theorem recordAll_cons (h : recordAll result (task :: tasks) plan = .ok after) :
    ∃ middle, plan.record task.1 task.2 (result task) = .ok middle ∧
      recordAll result tasks middle = .ok after := by
  unfold recordAll at h
  rw [List.foldlM_cons] at h
  exact bind_eq_ok_iff.mp h

/-- Recording goes through to the end if no error is fatal. -/
theorem exists_recordAll_eq_ok (h : ∀ task e, result task = .error e → e.isFatal = false)
    (tasks : List (Entity × ArtifactKind)) (plan : Plan) :
    ∃ after, recordAll result tasks plan = .ok after := by
  induction tasks generalizing plan with
  | nil => exact ⟨plan, rfl⟩
  | cons task rest ih =>
    have hstep : ∃ middle, plan.record task.1 task.2 (result task) = .ok middle := by
      unfold record
      split
      · exact ⟨_, rfl⟩
      · split <;> exact ⟨_, rfl⟩
      · next e he =>
        rw [h task e he]
        exact ⟨_, rfl⟩
    obtain ⟨middle, hmiddle⟩ := hstep
    obtain ⟨after, hafter⟩ := ih middle
    refine ⟨after, ?_⟩
    unfold recordAll at hafter ⊢
    rw [List.foldlM_cons, hmiddle]
    exact hafter

/-- Recording tasks leaves the entities of a plan as they are. -/
theorem entities_recordAll (h : recordAll result tasks plan = .ok after) :
    after.entities = plan.entities := by
  induction tasks generalizing plan with
  | nil => rw [← Except.ok.inj h]
  | cons task rest ih =>
    obtain ⟨middle, hrecord, hrest⟩ := recordAll_cons h
    exact (ih hrest).trans (entities_record hrecord)

/-- Every artifact was there or was planned for a task. -/
theorem mem_artifacts_recordAll (h : recordAll result tasks plan = .ok after) {artifact : Artifact}
    (hmem : artifact ∈ after.artifacts) :
    artifact ∈ plan.artifacts ∨
      ∃ task ∈ tasks, task.1 = artifact.entity ∧ result task = .ok (some artifact.data) := by
  induction tasks generalizing plan with
  | nil =>
    rw [← Except.ok.inj h] at hmem
    exact Or.inl hmem
  | cons task rest ih =>
    obtain ⟨middle, hrecord, hrest⟩ := recordAll_cons h
    rcases ih hrest with hmiddle | ⟨other, hother, hplanned⟩
    · rcases record_cases hrecord with ⟨data, hdata, -, rfl⟩ | ⟨-, hsame⟩
      · rcases List.mem_append.mp hmiddle with hold | hnew
        · exact Or.inl hold
        · rw [List.mem_singleton.mp hnew]
          exact Or.inr ⟨task, List.mem_cons_self, rfl, hdata⟩
      · rw [hsame] at hmiddle
        exact Or.inl hmiddle
    · exact Or.inr ⟨other, List.mem_cons_of_mem _ hother, hplanned⟩

/-- A table that is planned stays planned. -/
theorem plansTable_record (h : plan.record entity kind (result task) = .ok after)
    (htable : plan.plansTable table = true) : after.plansTable table = true := by
  rw [plansTable_iff] at htable ⊢
  obtain ⟨artifact, hartifact, heq⟩ := htable
  refine ⟨artifact, ?_, heq⟩
  rcases record_cases h with ⟨data, -, -, rfl⟩ | ⟨-, hsame⟩
  · exact List.mem_append_left _ hartifact
  · rwa [hsame]

/-- A table whose migration a task comes to is planned, by that task or by an earlier one. -/
theorem plansTable_recordAll (h : recordAll result tasks plan = .ok after)
    (htable : plan.plansTable table = true ∨ ∃ task ∈ tasks, ∃ data,
      result task = .ok (some data) ∧ tableOf? data = some table) :
    after.plansTable table = true := by
  induction tasks generalizing plan with
  | nil =>
    rw [← Except.ok.inj h]
    exact htable.resolve_right fun ⟨task, htask, _⟩ => absurd htask List.not_mem_nil
  | cons task rest ih =>
    obtain ⟨middle, hrecord, hrest⟩ := recordAll_cons h
    apply ih hrest
    rcases htable with hthere | ⟨other, hother, data, hdata, htableOf⟩
    · exact Or.inl (plansTable_record hrecord hthere)
    · rcases List.mem_cons.mp hother with rfl | hother
      · refine Or.inl ?_
        rcases record_cases hrecord with ⟨found, hfound, -, rfl⟩ | ⟨htaken, hsame⟩
        · obtain rfl : data = found := by simpa [hdata] using hfound
          exact plansTable_iff.mpr ⟨⟨other.1, data⟩, List.mem_append_right _ (by simp), htableOf⟩
        · obtain ⟨taken, htaken⟩ := htaken data hdata
          obtain ⟨hof, hplans⟩ := takenTable?_eq_some htaken
          obtain rfl : table = taken := by simpa [htableOf] using hof
          rw [plansTable_iff] at hplans ⊢
          rwa [hsame]
      · exact Or.inr ⟨other, hother, data, hdata, htableOf⟩

/-- What a task adds to the artifacts that create no table. -/
def withoutTable? (result : Entity × ArtifactKind → Except Error (Option ArtifactData))
    (task : Entity × ArtifactKind) : Option Artifact :=
  match result task with
  | .ok (some data) => if (tableOf? data).isNone then some ⟨task.1, data⟩ else none
  | _ => none

/-- Artifacts that create no table are added task by task, whatever else is planned. -/
theorem artifacts_filter_recordAll (h : recordAll result tasks plan = .ok after) :
    after.artifacts.filter (fun artifact => (tableOf? artifact.data).isNone) =
      plan.artifacts.filter (fun artifact => (tableOf? artifact.data).isNone) ++
        tasks.filterMap (withoutTable? result) := by
  induction tasks generalizing plan with
  | nil =>
    rw [← Except.ok.inj h, List.filterMap_nil, List.append_nil]
  | cons task rest ih =>
    obtain ⟨middle, hrecord, hrest⟩ := recordAll_cons h
    rw [ih hrest, List.filterMap_cons]
    rcases record_cases hrecord with ⟨data, hdata, -, rfl⟩ | ⟨htaken, hsame⟩
    · unfold withoutTable? Plan.add
      rw [hdata, List.filter_append]
      by_cases hnone : (tableOf? data).isNone = true <;> simp [hnone]
    · have hskip : withoutTable? result task = none := by
        unfold withoutTable?
        split
        · next data hdata =>
          obtain ⟨table, htable⟩ := htaken data hdata
          rw [(takenTable?_eq_some htable).1]
          rfl
        · rfl
      rw [hsame, hskip]

/-- Tasks are recorded in two halves as well as in one go. -/
theorem recordAll_append (more : List (Entity × ArtifactKind)) :
    recordAll result (tasks ++ more) plan =
      recordAll result tasks plan >>= recordAll result more :=
  List.foldlM_append

end recordAll

end Plan

end Scaffold
