import Mathlib.Data.List.Induction
import Scaffold.Proofs.Plan.Planning

/-!
# What becomes of every task

A planner may be put together by registering standard steps, in any order and more than once. Main
statement: only the set of the registered kinds counts, and every pair of an entity and a registered
kind comes to one artifact or one skipped entry, in the order of the entities and then of the kinds;
only the layout of an entity that is not the root comes to nothing (`plan_ofKinds`). The storage may
answer whatever it likes, and it may answer otherwise when it is asked again.

* A planner of standard steps is determined by the kinds that were registered (`step?_ofKinds`).
* The account of a plan has one entry for each task (`IsAccount`). Recording what one step came to
  adds one entry (`exists_entry_of_record`), and the accounts of the tasks one after another make up
  that of the plan (`yields_account`).
-/

namespace Scaffold

/-! ## Accounts -/

namespace Plan

/-- What became of a task. -/
inductive Fate where
  /-- An artifact is planned. -/
  | planned (data : ArtifactData)
  /-- The artifact is left out, for a reason. -/
  | skipped (reason : String)
  /-- No artifact is needed. -/
  | idle
  deriving DecidableEq, Repr

/-- An entry of an account: a task, and what became of it. -/
structure Entry where
  /-- An entity and a kind. -/
  task : Entity × ArtifactKind
  /-- What became of them. -/
  fate : Fate
  deriving DecidableEq, Repr

namespace Entry

/-- The artifact of an entry, if it has one. -/
def artifact? (entry : Entry) : Option Artifact :=
  match entry.fate with
  | .planned data => some ⟨entry.task.1, data⟩
  | _ => none

/-- The skipped artifact of an entry, if it has one. -/
def skipped? (entry : Entry) : Option Skipped :=
  match entry.fate with
  | .skipped reason => some ⟨entry.task.1.name, entry.task.2, reason⟩
  | _ => none

/-- What may become of a task under the standard steps. Only migrations are skipped, and the layout
of an entity that is not the root is the one artifact that is not needed. -/
inductive IsDue (timestamp : Timestamp) (entities : List Entity) : Entry → Prop where
  /-- What the step for the kind plans for the entity is planned. -/
  | planned {entity : Entity} {kind : ArtifactKind} {data : ArtifactData}
      (h : entity.planned? timestamp entities kind = some data) :
      IsDue timestamp entities ⟨(entity, kind), .planned data⟩
  /-- The table is planned already. -/
  | taken (entity : Entity) :
      IsDue timestamp entities
        ⟨(entity, .migration), .skipped s!"table '{entity.table}' is already planned"⟩
  /-- The guard fails, because it refuses the table or because the storage fails, and the error is
  not fatal. -/
  | refused (entity : Entity) {e : Error} (h : e.isFatal = false) :
      IsDue timestamp entities ⟨(entity, .migration), .skipped e.message⟩
  /-- The layout belongs to the root. -/
  | idle {entity : Entity} (h : entity.isRoot = false) :
      IsDue timestamp entities ⟨(entity, .layout), .idle⟩

end Entry

variable {timestamp : Timestamp} {entities : List Entity}
  {tasks more : List (Entity × ArtifactKind)}
  {plan middle after : Plan} {account account' : List Entry} {entity : Entity} {kind : ArtifactKind}

/-- The account tells of every task, in order, what it added to the plan. -/
structure IsAccount (timestamp : Timestamp) (entities : List Entity)
    (tasks : List (Entity × ArtifactKind)) (plan after : Plan) (account : List Entry) : Prop where
  /-- Every task has its entry. -/
  tasks : account.map Entry.task = tasks
  /-- What became of a task may become of it. -/
  due : ∀ entry ∈ account, entry.IsDue timestamp entities
  /-- The artifacts that were added are those of the entries. -/
  artifacts : after.artifacts = plan.artifacts ++ account.filterMap Entry.artifact?
  /-- The skipped artifacts that were added are those of the entries. -/
  skipped : after.skipped = plan.skipped ++ account.filterMap Entry.skipped?

namespace IsAccount

/-- No task needs an entry. -/
theorem nil (plan : Plan) : IsAccount timestamp entities [] plan plan [] where
  tasks := rfl
  due _ h := absurd h List.not_mem_nil
  artifacts := (List.append_nil _).symm
  skipped := (List.append_nil _).symm

/-- Accounts of one list of tasks after another are an account of both. -/
theorem append (h : IsAccount timestamp entities tasks plan middle account)
    (h' : IsAccount timestamp entities more middle after account') :
    IsAccount timestamp entities (tasks ++ more) plan after (account ++ account') where
  tasks := by rw [List.map_append, h.tasks, h'.tasks]
  due := List.forall_mem_append.mpr ⟨h.due, h'.due⟩
  artifacts := by rw [h'.artifacts, h.artifacts, List.filterMap_append, List.append_assoc]
  skipped := by rw [h'.skipped, h.skipped, List.filterMap_append, List.append_assoc]

/-- What is planned for a task is of its kind, so the artifacts of an account are for some of the
tasks, in their order. -/
theorem sublist_tasks (h : IsAccount timestamp entities tasks plan after account) :
    ((account.filterMap Entry.artifact?).map fun artifact =>
      (artifact.entity, artifact.kind)).Sublist tasks := by
  have hdue := h.due
  rw [← h.tasks]
  clear h
  induction account with
  | nil => exact List.Sublist.refl _
  | cons entry rest ih =>
    rw [List.forall_mem_cons] at hdue
    obtain ⟨hentry, hrest⟩ := hdue
    cases hentry with
    | @planned entity kind data hplanned =>
      obtain rfl : Artifact.kind ⟨entity, data⟩ = kind := Entity.kind_of_planned? hplanned
      exact (ih hrest).cons_cons _
    | taken entity => exact (ih hrest).cons _
    | refused entity => exact (ih hrest).cons _
    | idle => exact (ih hrest).cons _

/-- An artifact of an account is what the step for some kind plans for one of the entities. -/
theorem planned?_of_mem (h : IsAccount timestamp entities tasks plan after account)
    {artifact : Artifact} (hmem : artifact ∈ account.filterMap Entry.artifact?) :
    ∃ task ∈ tasks, task.1 = artifact.entity ∧
      artifact.entity.planned? timestamp entities task.2 = some artifact.data := by
  obtain ⟨entry, hentry, hartifact⟩ := List.mem_filterMap.mp hmem
  refine ⟨entry.task, h.tasks ▸ List.mem_map_of_mem hentry, ?_⟩
  cases h.due entry hentry with
  | planned hplanned =>
    obtain rfl := Option.some.inj hartifact
    exact ⟨rfl, hplanned⟩
  | taken => cases hartifact
  | refused => cases hartifact
  | idle => cases hartifact

end IsAccount

/-! ## One task -/

/-- What the standard step for a kind may come to for an entity: what is planned if nothing is in
the way, or, for a migration, any error. -/
def IsOutcome (timestamp : Timestamp) (entities : List Entity) (entity : Entity)
    (kind : ArtifactKind) : Except Error (Option ArtifactData) → Prop
  | .ok found => found = entity.planned? timestamp entities kind
  | .error _ => kind = .migration

/-- One task that is dealt with as it is due has an account of one entry. -/
theorem IsAccount.singleton {entry : Entry} (hdue : entry.IsDue timestamp entities)
    (hartifacts : after.artifacts = plan.artifacts ++ entry.artifact?.toList)
    (hskipped : after.skipped = plan.skipped ++ entry.skipped?.toList) :
    IsAccount timestamp entities [entry.task] plan after [entry] where
  tasks := rfl
  due := List.forall_mem_singleton.mpr hdue
  artifacts := by
    rw [hartifacts]
    cases hartifact : entry.artifact? <;> simp [hartifact]
  skipped := by
    rw [hskipped]
    cases hskip : entry.skipped? <;> simp [hskip]

/-- The one artifact that is not needed is the layout of an entity that is not the root. -/
theorem eq_layout_of_planned?_eq_none (h : entity.planned? timestamp entities kind = none) :
    kind = .layout ∧ entity.isRoot = false := by
  cases kind with
  | layout =>
    unfold Entity.planned? at h
    split_ifs at h with hroot
    exact ⟨rfl, Bool.eq_false_iff.mpr hroot⟩
  | _ => cases h

/-- Recording what a standard step came to adds one entry. -/
theorem exists_entry_of_record {outcome : Except Error (Option ArtifactData)}
    (houtcome : IsOutcome timestamp entities entity kind outcome)
    (h : plan.record entity kind outcome = .ok after) :
    ∃ entry, IsAccount timestamp entities [(entity, kind)] plan after [entry] := by
  cases outcome with
  | error e =>
    obtain rfl : kind = .migration := houtcome
    cases hfatal : e.isFatal with
    | true => simp [record, hfatal] at h
    | false =>
      rw [record_of_not_fatal entity .migration hfatal] at h
      cases h
      exact ⟨_, .singleton (.refused entity hfatal) (List.append_nil _).symm rfl⟩
  | ok found =>
    obtain rfl : found = entity.planned? timestamp entities kind := houtcome
    cases hplanned : entity.planned? timestamp entities kind with
    | none =>
      obtain ⟨rfl, hroot⟩ := eq_layout_of_planned?_eq_none hplanned
      rw [hplanned] at h
      cases h
      exact ⟨_, .singleton (.idle hroot) (List.append_nil _).symm (List.append_nil _).symm⟩
    | some data =>
      rw [hplanned] at h
      cases htaken : plan.takenTable? data with
      | none =>
        rw [record_of_free entity kind htaken] at h
        cases h
        exact ⟨_, .singleton (.planned hplanned) rfl (List.append_nil _).symm⟩
      | some table =>
        obtain ⟨rfl, rfl, -⟩ :=
          Entity.eq_migration_of_planned? hplanned (takenTable?_eq_some htaken).1
        rw [record_of_taken entity .migration htaken] at h
        cases h
        exact ⟨_, .singleton (.taken entity) (List.append_nil _).symm rfl⟩

end Plan

/-! ## All tasks -/

namespace Planner

variable {σ : Type} {storage : Storage (StateM σ)} {timestamp : Timestamp} {entities : List Entity}
  {plan : Plan}

open Plan

/-- On any storage, a standard step plans what is planned for the entity if it comes to anything,
and only the step for migrations can fail. -/
theorem yields_isOutcome (kind : ArtifactKind) (entity : Entity) :
    Yields (ExceptT.lift ((Step.standard kind).plan entity { storage, timestamp, entities }).run)
      (IsOutcome timestamp entities entity kind) := by
  cases kind with
  | migration =>
    have hplan : Yields ((Step.standard .migration).plan entity { storage, timestamp, entities })
        fun found => found = entity.planned? timestamp entities .migration :=
      .bind (.trivial _) fun _ _ => .pure rfl
    intro before outcome after h
    cases outcome with
    | error e => rfl
    | ok found => exact hplan.lift_run before _ after h found rfl
  | _ =>
    intro before outcome after h
    cases h
    rfl

/-- What becomes of the kinds of one entity has an account. -/
theorem yields_account_planEntity (entity : Entity) (kinds : List ArtifactKind) :
    Yields (planEntity { storage, timestamp, entities } entity
        (kinds.map fun kind => (kind, Step.standard kind)) plan) fun after =>
      ∃ account, IsAccount timestamp entities (kinds.map (entity, ·)) plan after account := by
  induction kinds generalizing plan with
  | nil => exact .pure ⟨[], .nil plan⟩
  | cons kind rest ih =>
    refine .bind (yields_isOutcome kind entity) fun outcome houtcome => ?_
    refine .bind (.result fun middle hrecord => exists_entry_of_record houtcome hrecord)
      fun middle hentry => ?_
    obtain ⟨entry, hentry⟩ := hentry
    refine ih.imp ?_
    rintro after ⟨account, hrest⟩
    exact ⟨_, hentry.append hrest⟩

variable {planner : Planner (StateM σ)}

/-- What becomes of a queue of entities has an account, entity by entity. -/
theorem yields_account_planEntities (hstandard : planner.HasStandardSteps) (queue : List Entity) :
    Yields (planner.planEntities { storage, timestamp, entities } queue plan) fun after =>
      ∃ account, IsAccount timestamp entities (queue ×ˢ planner.kinds) plan after account := by
  induction queue generalizing plan with
  | nil => exact .pure ⟨[], .nil plan⟩
  | cons entity rest ih =>
    rw [planEntities, steps_eq hstandard, List.product_cons]
    refine .bind (yields_account_planEntity entity planner.kinds) fun middle hentity => ?_
    obtain ⟨account, hentity⟩ := hentity
    refine ih.imp ?_
    rintro after ⟨more, hrest⟩
    exact ⟨_, hentity.append hrest⟩

/-- On any storage, the plan of standard steps has an account. -/
theorem yields_account (hstandard : planner.HasStandardSteps) :
    Yields (planner.plan storage timestamp entities) fun plan =>
      ∃ account, IsAccount timestamp entities (entities ×ˢ planner.kinds) (.empty entities) plan
        account :=
  yields_account_planEntities hstandard entities

end Planner

/-! ## Registering standard steps -/

namespace Planner

section register

variable {m : Type → Type} [Monad m] {history history' : List ArtifactKind}

/-- The planner on which the standard steps for the kinds were registered, one after another. -/
def ofKinds (history : List ArtifactKind) : Planner m :=
  (history.map Step.standard).foldl register empty

/-- The planner has a standard step for every registered kind, whenever that was registered. -/
theorem step?_ofKinds (history : List ArtifactKind) (kind : ArtifactKind) :
    (ofKinds history : Planner m).step? kind =
      if kind ∈ history then some (Step.standard kind) else none := by
  induction history using List.reverseRecOn with
  | nil => rfl
  | append_singleton earlier last ih =>
    have hlast : (ofKinds (earlier ++ [last]) : Planner m) =
        (ofKinds earlier).register (Step.standard last) := by
      simp [ofKinds]
    have hstep : ((ofKinds earlier : Planner m).register (Step.standard last)).step? kind =
        if kind = (Step.standard last : Step m).kind then some (Step.standard last)
        else (ofKinds earlier).step? kind := rfl
    rw [hlast, hstep, Step.kind_standard, ih]
    by_cases heq : kind = last
    · simp [heq]
    · simp [heq]

/-- A planner that is built from a history of kinds has the standard steps. -/
theorem hasStandardSteps_ofKinds : (ofKinds history : Planner m).HasStandardSteps := by
  intro kind step h
  rw [step?_ofKinds] at h
  split_ifs at h
  exact (Option.some.inj h).symm

/-- The kinds of the planner are the registered ones, each once, in their own order. -/
theorem kinds_ofKinds (history : List ArtifactKind) :
    (ofKinds history : Planner m).kinds = ArtifactKind.all.filter (· ∈ history) := by
  unfold kinds
  refine List.filter_congr fun kind _ => ?_
  rw [step?_ofKinds]
  by_cases hmem : kind ∈ history <;> simp [hmem]

/-- Neither the order of the registrations nor their number counts. -/
theorem ofKinds_congr (h : ∀ kind, kind ∈ history ↔ kind ∈ history') :
    (ofKinds history : Planner m) = ofKinds history' := by
  have hstep : (ofKinds history : Planner m).step? = (ofKinds history').step? := by
    funext kind
    simp only [step?_ofKinds, h kind]
  exact congrArg Planner.mk hstep

end register

/-- However standard steps are registered, the kinds are those registered, each once and in their
own order, and the planner plans what the one does on which they were registered once each in that
order. A plan that it comes to has at most one artifact for each pair of an entity and a kind, in
the order of the entities and then of the kinds; and every pair comes to an artifact or a skipped
one, the layout of an entity that is not the root apart. -/
theorem plan_ofKinds {σ : Type} (history : List ArtifactKind) (storage : Storage (StateM σ))
    (timestamp : Timestamp) (entities : List Entity) :
    let planner : Planner (StateM σ) := ofKinds history
    planner.kinds = ArtifactKind.all.filter (· ∈ history) ∧
    planner.plan storage timestamp entities =
      (ofKinds planner.kinds).plan storage timestamp entities ∧
    ∀ start plan after,
      perform (planner.plan storage timestamp entities) start = (.ok plan, after) →
        (plan.artifacts.map fun artifact => (artifact.entity, artifact.kind)).Sublist
          (entities ×ˢ planner.kinds) ∧
        ∃ account : List Plan.Entry, account.map Plan.Entry.task = entities ×ˢ planner.kinds ∧
          (∀ entry ∈ account, entry.IsDue timestamp entities) ∧
          plan.artifacts = account.filterMap Plan.Entry.artifact? ∧
          plan.skipped = account.filterMap Plan.Entry.skipped? := by
  intro planner
  have hkinds : planner.kinds = ArtifactKind.all.filter (· ∈ history) := kinds_ofKinds history
  refine ⟨hkinds, ?_, ?_⟩
  · have hsame : planner = ofKinds planner.kinds := ofKinds_congr fun kind => by
      simp [hkinds, ArtifactKind.mem_all]
    exact congrArg (fun found : Planner (StateM σ) => found.plan storage timestamp entities) hsame
  · intro start plan after h
    obtain ⟨account, haccount⟩ := yields_account hasStandardSteps_ofKinds start plan after h
    refine ⟨?_, account, haccount.tasks, haccount.due, haccount.artifacts, haccount.skipped⟩
    rw [haccount.artifacts]
    exact haccount.sublist_tasks

/-- Of two boxes and a post, whose table is there, one migration is planned and two are skipped, and
the one layout is that of the root: an account with six entries has four that tell of something. -/
theorem plan_ofKinds_boxes :
    let entities : List Entity :=
      [.root "Box" [] [], .synthesized "Boxe" "Box", .synthesized "Post" "Box"]
    let memory : Memory := { tables := ["posts"] }
    let planner : Planner (StateM Memory) := ofKinds [.layout, .migration, .layout]
    planner.kinds = [.migration, .layout] ∧
    ∃ plan, perform (planner.plan Memory.storage default entities) memory = (.ok plan, memory) ∧
      plan.artifacts.map (fun artifact => (artifact.entity.name, artifact.kind)) =
        [("Box", .migration), ("Box", .layout)] ∧
      plan.skipped.map (fun skipped => (skipped.entity, skipped.kind)) =
        [("Boxe", .migration), ("Post", .migration)] ∧
      ∃ account : List Plan.Entry, account.length = 6 ∧
        (∀ entry ∈ account, entry.IsDue default entities) ∧
        plan.artifacts = account.filterMap Plan.Entry.artifact? ∧
        plan.skipped = account.filterMap Plan.Entry.skipped? := by
  intro entities memory planner
  obtain ⟨hkinds, -, haccount⟩ := plan_ofKinds (σ := Memory) [.layout, .migration, .layout]
    Memory.storage default entities
  have hregistered : planner.kinds = [.migration, .layout] := hkinds.trans (by decide)
  obtain ⟨plan, hplan, -⟩ := Memory.exec_plan hasStandardSteps_ofKinds memory default entities
  obtain ⟨-, account, htasks, hdue, hartifacts, hskipped⟩ := haccount memory plan memory hplan
  have hplanned : (perform (planner.plan Memory.storage default entities) memory).1.toOption.map
      (fun plan => (plan.artifacts.map fun artifact => (artifact.entity.name, artifact.kind),
        plan.skipped.map fun skipped => (skipped.entity, skipped.kind))) =
      some ([("Box", .migration), ("Box", .layout)],
        [("Boxe", .migration), ("Post", .migration)]) := by decide +kernel
  change (memory.exec (planner.plan Memory.storage default entities)).1.toOption.map _ =
    _ at hplanned
  rw [hplan] at hplanned
  obtain ⟨hthere, hmissing⟩ := Prod.ext_iff.mp (Option.some.inj hplanned)
  refine ⟨hregistered, plan, hplan, hthere, hmissing, account, ?_, hdue, hartifacts, hskipped⟩
  have hlength := congrArg List.length htasks
  change _ = (entities ×ˢ planner.kinds).length at hlength
  rw [hregistered, List.length_map] at hlength
  exact hlength

end Planner

end Scaffold
