import Mathlib.Data.List.Nodup
import Scaffold.Proofs.Plan.Planning

/-!
# One migration for each table

A planner works off the entities one after another, and its steps may come to any artifact they
like. Two statements about the tables that a plan creates, joined in `creates_tables_once`.

* Whatever the steps are and whatever the storage does, no table is created twice: recording one
  result keeps the tables apart (`nodup_tables_record`), and so does the whole run over entities and
  steps (`nodup_tables_planEntities`).
* With the standard steps and a project in memory, the plan creates the table of exactly those
  entities that the guard lets pass and that are the first to have it; every other entity is left
  out once (`Accounts`, kept from entity to entity by `Accounts.concat`).
-/

namespace Scaffold

/-! ## The tables of a plan -/

namespace Plan

/-- The tables that the plan creates, in the order of its artifacts. -/
def tables (plan : Plan) : List String :=
  plan.artifacts.filterMap fun artifact => tableOf? artifact.data

variable {plan after : Plan} {entity : Entity} {kind : ArtifactKind} {table : String}
  {data : ArtifactData}

/-- The tables of a plan are those that it has planned. -/
theorem mem_tables : table ∈ plan.tables ↔ plan.plansTable table = true := by
  unfold tables
  rw [List.mem_filterMap, plansTable_iff]

/-- An artifact adds the table it creates, if it creates one. -/
theorem tables_add (plan : Plan) (entity : Entity) (data : ArtifactData) :
    (plan.add entity data).tables = plan.tables ++ (tableOf? data).toList := by
  unfold tables add
  rw [List.filterMap_append]
  cases htable : tableOf? data <;> simp [htable]

/-- An artifact whose table is not taken creates a table that the plan does not create yet. -/
theorem not_mem_tables_of_takenTable? (h : plan.takenTable? data = none)
    (htable : tableOf? data = some table) : table ∉ plan.tables := by
  rw [mem_tables]
  intro hplans
  have htaken : plan.takenTable? data = some table := by
    unfold takenTable?
    rw [htable]
    exact Option.filter_eq_some_iff.mpr ⟨rfl, hplans⟩
  rw [h] at htaken
  cases htaken

/-- Whatever a step came to, recording it creates no table a second time. -/
theorem nodup_tables_record {result : Except Error (Option ArtifactData)} (h : plan.tables.Nodup)
    (hrecord : plan.record entity kind result = .ok after) : after.tables.Nodup := by
  rcases record_cases hrecord with ⟨data, -, hfree, rfl⟩ | ⟨-, hsame⟩
  · rw [tables_add]
    cases htable : tableOf? data with
    | none => rwa [Option.toList_none, List.append_nil]
    | some table =>
      have hnew := not_mem_tables_of_takenTable? hfree htable
      rw [Option.toList_some, (List.perm_append_singleton table plan.tables).nodup_iff]
      exact List.nodup_cons.mpr ⟨hnew, h⟩
  · unfold tables
    rwa [hsame]

end Plan

/-! ## Any steps, any storage -/

namespace Planner

variable {σ : Type} {plan : Plan}

/-- Planning more entities, with any steps, never plans a table twice. -/
theorem nodup_tables_planEntities (planner : Planner (StateM σ)) (context : PlanContext (StateM σ))
    (queue : List Entity) (h : plan.tables.Nodup) :
    Yields (planner.planEntities context queue plan) fun after => after.tables.Nodup :=
  yields_planEntities_of_record Plan.nodup_tables_record planner context queue h

end Planner

/-! ## Selecting places of a list -/

section selectPlaces

variable {α : Type}

/-- The members of a list that pass a test which may look at the members before them. -/
def selectPlaces (test : List α → α → Bool) (members : List α) : List α :=
  (members.zipIdx.filter fun place => test (members.take place.2) place.1).map Prod.fst

/-- The last place is chosen by what stands before it; the others do not depend on it. -/
theorem selectPlaces_concat (test : List α → α → Bool) (members : List α) (last : α) :
    selectPlaces test (members ++ [last]) =
      selectPlaces test members ++ if test members last then [last] else [] := by
  unfold selectPlaces
  have hbefore : members.zipIdx.filter
        (fun place => test ((members ++ [last]).take place.2) place.1) =
      members.zipIdx.filter fun place => test (members.take place.2) place.1 := by
    apply List.filter_congr
    rintro ⟨member, index⟩ hplace
    have hindex : index ≤ members.length := by
      have := (List.mem_zipIdx hplace).2.1
      omega
    rw [List.take_append_of_le_length hindex]
  rw [List.zipIdx_append, List.filter_append, List.map_append, hbefore]
  cases htest : test members last <;> simp [htest]

end selectPlaces

/-! ## The standard steps on a project in memory -/

namespace Memory

open Plan

variable {memory : Memory} {timestamp : Timestamp} {entities : List Entity} {table : String}
  {plan after : Plan}

/-- The guard lets a migration for the table pass. -/
def admits (memory : Memory) (table : String) : Bool :=
  (memory.exec (Schema.check storage table)).1.isOk

/-- A memory admits a table exactly if nothing is in its way. -/
theorem admits_iff : memory.admits table = true ↔ memory.obstacle? table = none := by
  unfold admits
  rw [exec_check]
  cases memory.obstacle? table <;> simp [Except.isOk, Except.toBool]

/-- The guard lets the migration of an entity pass, and none of the entities before it has its
table. -/
def creates (memory : Memory) (earlier : List Entity) (entity : Entity) : Bool :=
  memory.admits entity.table && earlier.all fun other => other.table != entity.table

/-- A migration is created if the memory admits its table and no earlier entity has the same one. -/
theorem creates_iff {earlier : List Entity} {entity : Entity} :
    memory.creates earlier entity = true ↔
      memory.admits entity.table = true ∧ ¬∃ other ∈ earlier, other.table = entity.table := by
  simp [creates]

/-- What a plan for the entities `done` creates and leaves out. -/
structure Accounts (memory : Memory) (timestamp : Timestamp) (done : List Entity) (plan : Plan) :
    Prop where
  /-- The migrations are those of the entities that create their table. -/
  created : plan.artifactsOf .migration = (selectPlaces memory.creates done).map fun entity =>
    ⟨entity, .migration (entity.migration timestamp)⟩
  /-- What is left out is the migration of every other entity, once. -/
  skipped : plan.skipped.map (fun skipped => (skipped.entity, skipped.kind)) =
    (selectPlaces (fun earlier entity => !memory.creates earlier entity) done).map fun entity =>
      (entity.name, .migration)
  /-- The plan creates every table of an entity that the guard lets pass. -/
  taken : ∀ table, plan.plansTable table = true ↔
    memory.admits table = true ∧ ∃ entity ∈ done, entity.table = table

namespace Accounts

/-- At first nothing is planned and nothing is left out. -/
theorem empty (memory : Memory) (timestamp : Timestamp) (entities : List Entity) :
    Accounts memory timestamp [] (.empty entities) :=
  ⟨rfl, rfl, fun _ => by simp [plansTable, Plan.empty]⟩

/-- What a plan creates is seen from its migrations. -/
theorem plansTable_eq_any (plan : Plan) (table : String) : plan.plansTable table =
    (plan.artifactsOf .migration).any fun artifact => tableOf? artifact.data == some table := by
  unfold plansTable artifactsOf
  rw [List.any_filter]
  congr 1
  funext artifact
  obtain ⟨entity, data⟩ := artifact
  cases data <;> simp [tableOf?, Artifact.kind, ArtifactData.kind]

/-- Steps for other kinds leave migrations, and what is left out, as they are. -/
theorem record_of_ne {entity : Entity} {kind : ArtifactKind} (hkind : kind ≠ .migration)
    (h : plan.record entity kind (memory.stepResult timestamp entities (entity, kind)) =
      .ok after) :
    after.artifactsOf .migration = plan.artifactsOf .migration ∧ after.skipped = plan.skipped := by
  have hresult : memory.stepResult timestamp entities (entity, kind) =
      .ok (entity.planned? timestamp entities kind) := by
    unfold stepResult obstacleTo?
    rw [if_neg hkind]
    rfl
  rw [hresult] at h
  cases hplanned : entity.planned? timestamp entities kind with
  | none =>
    rw [hplanned] at h
    rw [← Except.ok.inj h]
    exact ⟨rfl, rfl⟩
  | some data =>
    have hdata : data.kind ≠ .migration := Entity.kind_of_planned? hplanned ▸ hkind
    have htable : tableOf? data = none := by
      cases data <;> first | rfl | exact absurd rfl hdata
    have hfree : plan.takenTable? data = none := by
      unfold takenTable?
      rw [htable]
      rfl
    rw [hplanned, record_of_free entity kind hfree] at h
    rw [← Except.ok.inj h]
    refine ⟨?_, rfl⟩
    simp [artifactsOf, add, Artifact.kind, hdata]

/-- Tasks of other kinds change neither the migrations nor what is left out. -/
theorem recordAll_of_ne {tasks : List (Entity × ArtifactKind)}
    (hkinds : ∀ task ∈ tasks, task.2 ≠ .migration)
    (h : recordAll (memory.stepResult timestamp entities) tasks plan = .ok after) :
    after.artifactsOf .migration = plan.artifactsOf .migration ∧ after.skipped = plan.skipped := by
  induction tasks generalizing plan with
  | nil =>
    rw [← Except.ok.inj h]
    exact ⟨rfl, rfl⟩
  | cons task rest ih =>
    rw [List.forall_mem_cons] at hkinds
    obtain ⟨middle, hrecord, hrest⟩ := recordAll_cons h
    obtain ⟨hcreated, hskipped⟩ := record_of_ne hkinds.1 hrecord
    obtain ⟨hcreated', hskipped'⟩ := ih hkinds.2 hrest
    exact ⟨hcreated'.trans hcreated, hskipped'.trans hskipped⟩

/-- The steps of other kinds keep an account. -/
theorem of_ne {done : List Entity} {tasks : List (Entity × ArtifactKind)}
    (haccounts : Accounts memory timestamp done plan)
    (hkinds : ∀ task ∈ tasks, task.2 ≠ .migration)
    (h : recordAll (memory.stepResult timestamp entities) tasks plan = .ok after) :
    Accounts memory timestamp done after := by
  obtain ⟨hcreated, hskipped⟩ := recordAll_of_ne hkinds h
  refine ⟨hcreated.trans haccounts.created, ?_, fun table => ?_⟩
  · rw [hskipped, haccounts.skipped]
  · rw [plansTable_eq_any, hcreated, ← plansTable_eq_any, haccounts.taken]

/-- The step for migrations creates the table of the next entity, or leaves its migration out. -/
theorem record_migration {done : List Entity} (haccounts : Accounts memory timestamp done plan)
    {entity : Entity} (h : plan.record entity .migration
      (memory.stepResult timestamp entities (entity, .migration)) = .ok after) :
    (memory.creates done entity = true ∧
        after = plan.add entity (.migration (entity.migration timestamp))) ∨
      (memory.creates done entity = false ∧
        ∃ reason, after = plan.skip entity .migration reason) := by
  have htaken := haccounts.taken entity.table
  cases hobstacle : memory.obstacle? entity.table with
  | some e =>
    have hresult : memory.stepResult timestamp entities (entity, .migration) = .error e := by
      unfold stepResult obstacleTo?
      rw [if_pos rfl, hobstacle]
      rfl
    rw [hresult, record_of_not_fatal entity .migration (isFatal_of_obstacle? hobstacle)] at h
    refine Or.inr ⟨?_, _, (Except.ok.inj h).symm⟩
    rw [Bool.eq_false_iff]
    intro hcreates
    rw [creates_iff, admits_iff, hobstacle] at hcreates
    cases hcreates.1
  | none =>
    have hadmits := admits_iff.mpr hobstacle
    have hresult : memory.stepResult timestamp entities (entity, .migration) =
        .ok (some (.migration (entity.migration timestamp))) :=
      stepResult_eq_ok_iff.mpr ⟨hobstacle, rfl⟩
    rw [hresult] at h
    by_cases hplans : plan.plansTable entity.table = true
    · have hthere : plan.takenTable? (.migration (entity.migration timestamp)) =
          some entity.table := Option.filter_eq_some_iff.mpr ⟨rfl, hplans⟩
      rw [record_of_taken entity .migration hthere] at h
      refine Or.inr ⟨?_, _, (Except.ok.inj h).symm⟩
      rw [Bool.eq_false_iff]
      intro hcreates
      exact (creates_iff.mp hcreates).2 (htaken.mp hplans).2
    · have hfree : plan.takenTable? (.migration (entity.migration timestamp)) = none :=
        Option.filter_eq_none_iff.mpr fun table htable => by
          obtain rfl : entity.table = table := Option.some.inj htable
          exact hplans
      rw [record_of_free entity .migration hfree] at h
      refine Or.inl ⟨creates_iff.mpr ⟨hadmits, fun hearlier => ?_⟩, (Except.ok.inj h).symm⟩
      exact hplans (htaken.mpr ⟨hadmits, hearlier⟩)

/-- With the migration that an entity creates, the account is one for this entity too. -/
theorem add {done : List Entity} (haccounts : Accounts memory timestamp done plan) {entity : Entity}
    (hcreates : memory.creates done entity = true) :
    Accounts memory timestamp (done ++ [entity])
      (plan.add entity (.migration (entity.migration timestamp))) where
  created := by
    rw [selectPlaces_concat, if_pos hcreates, List.map_append, ← haccounts.created]
    simp [artifactsOf, Plan.add, Artifact.kind, ArtifactData.kind]
  skipped := by
    rw [selectPlaces_concat, hcreates, List.map_append, ← haccounts.skipped]
    simp [Plan.add]
  taken table := by
    have hadd : (plan.add entity (.migration (entity.migration timestamp))).plansTable table =
        (plan.plansTable table || entity.table == table) := by
      simp [plansTable, Plan.add, tableOf?, Entity.migration]
    have hadmits := (creates_iff.mp hcreates).1
    rw [hadd, Bool.or_eq_true, haccounts.taken, beq_iff_eq]
    constructor
    · rintro (⟨hfree, other, hother, rfl⟩ | rfl)
      · exact ⟨hfree, other, List.mem_append_left _ hother, rfl⟩
      · exact ⟨hadmits, entity, List.mem_append_right _ (List.mem_singleton_self _), rfl⟩
    · rintro ⟨hfree, other, hother, rfl⟩
      rcases List.mem_append.mp hother with hother | hother
      · exact Or.inl ⟨hfree, other, hother, rfl⟩
      · exact Or.inr (congrArg Entity.table (List.mem_singleton.mp hother).symm)

/-- With the migration of an entity left out that does not create it, the account is one for this
entity too. -/
theorem skip {done : List Entity} (haccounts : Accounts memory timestamp done plan)
    {entity : Entity} (hcreates : memory.creates done entity = false) (reason : String) :
    Accounts memory timestamp (done ++ [entity]) (plan.skip entity .migration reason) where
  created := by
    rw [selectPlaces_concat, hcreates, if_neg Bool.false_ne_true, List.append_nil]
    exact haccounts.created
  skipped := by
    rw [selectPlaces_concat, hcreates, Bool.not_false, if_pos rfl, List.map_append,
      ← haccounts.skipped]
    simp [Plan.skip]
  taken table := by
    change plan.plansTable table = true ↔ _
    rw [haccounts.taken]
    constructor
    · rintro ⟨hfree, other, hother, htable⟩
      exact ⟨hfree, other, List.mem_append_left _ hother, htable⟩
    · rintro ⟨hfree, other, hother, rfl⟩
      rcases List.mem_append.mp hother with hother | hother
      · exact ⟨hfree, other, hother, rfl⟩
      · -- the guard lets the table pass, so an entity before has it
        obtain rfl := List.mem_singleton.mp hother
        by_contra hnone
        have hfirst : ¬∃ earlier ∈ done, earlier.table = other.table :=
          fun hearlier => hnone ⟨hfree, hearlier⟩
        rw [creates_iff.mpr ⟨hfree, hfirst⟩] at hcreates
        cases hcreates

variable {kinds : List ArtifactKind}

/-- The steps for an entity, that for migrations among them, carry the account on to it. -/
theorem concat {done : List Entity} (haccounts : Accounts memory timestamp done plan)
    (hkinds : kinds.Nodup) (hkind : .migration ∈ kinds) {entity : Entity}
    (h : recordAll (memory.stepResult timestamp entities) (kinds.map (entity, ·)) plan =
      .ok after) :
    Accounts memory timestamp (done ++ [entity]) after := by
  obtain ⟨front, back, rfl⟩ := List.append_of_mem hkind
  have hothers : .migration ∉ front ∧ .migration ∉ back := by
    rw [List.nodup_middle, List.nodup_cons, List.mem_append, not_or] at hkinds
    exact hkinds.1
  have hne : ∀ others : List ArtifactKind, .migration ∉ others →
      ∀ task ∈ others.map (entity, ·), task.2 ≠ .migration := by
    intro others hmem task htask heq
    obtain ⟨kind, hkind, rfl⟩ := List.mem_map.mp htask
    exact hmem (heq ▸ hkind)
  rw [List.map_append, List.map_cons, recordAll_append] at h
  obtain ⟨before, hfront, hrest⟩ := bind_eq_ok_iff.mp h
  obtain ⟨middle, hmigration, hback⟩ := recordAll_cons hrest
  have hbefore := haccounts.of_ne (hne front hothers.1) hfront
  apply of_ne _ (hne back hothers.2) hback
  rcases hbefore.record_migration hmigration with ⟨hcreates, rfl⟩ | ⟨hcreates, reason, rfl⟩
  · exact hbefore.add hcreates
  · exact hbefore.skip hcreates reason

/-- The account stays right while whole entities are recorded, by induction on the queue. -/
theorem recordAll {done queue : List Entity} (haccounts : Accounts memory timestamp done plan)
    (hkinds : kinds.Nodup) (hkind : .migration ∈ kinds)
    (h : Plan.recordAll (memory.stepResult timestamp entities) (queue ×ˢ kinds) plan = .ok after) :
    Accounts memory timestamp (done ++ queue) after := by
  induction queue generalizing done plan with
  | nil =>
    rw [← Except.ok.inj h, List.append_nil]
    exact haccounts
  | cons entity rest ih =>
    rw [List.product_cons, recordAll_append] at h
    obtain ⟨middle, hentity, hrest⟩ := bind_eq_ok_iff.mp h
    have hmiddle := ih (haccounts.concat hkinds hkind hentity) hrest
    rwa [List.append_assoc, List.singleton_append] at hmiddle

end Accounts

end Memory

/-! ## Both together -/

namespace Planner

open Memory

/-- No plan creates a table twice, whatever the steps come to. With the standard steps on a project
in memory, the migrations of a plan are those of the entities that the guard lets pass and that are
the first with their table, and of all other entities the migration is left out, once. -/
theorem creates_tables_once :
    (∀ {σ : Type} (planner : Planner (StateM σ)) (storage : Storage (StateM σ))
      (timestamp : Timestamp) (entities : List Entity) (start : σ) (plan : Plan) (after : σ),
      perform (planner.plan storage timestamp entities) start = (.ok plan, after) →
        plan.tables.Nodup) ∧
    ∀ (planner : Planner (StateM Memory)), planner.HasStandardSteps → .migration ∈ planner.kinds →
      ∀ (memory : Memory) (timestamp : Timestamp) (entities : List Entity),
        ∃ plan, memory.exec (planner.plan storage timestamp entities) = (.ok plan, memory) ∧
          plan.artifactsOf .migration =
            (selectPlaces memory.creates entities).map (fun entity =>
              ⟨entity, .migration (entity.migration timestamp)⟩) ∧
          plan.skipped.map (fun skipped => (skipped.entity, skipped.kind)) =
            (selectPlaces (fun earlier entity => !memory.creates earlier entity) entities).map
              fun entity => (entity.name, .migration) := by
  refine ⟨?_, ?_⟩
  · intro σ planner storage timestamp entities start plan after h
    have hempty : (Plan.empty entities).tables.Nodup := List.nodup_nil
    exact planner.nodup_tables_planEntities _ entities hempty start plan after h
  · intro planner hstandard hkind memory timestamp entities
    obtain ⟨plan, hplan, hplans⟩ := memory.exec_plan hstandard timestamp entities
    have haccounts := (Accounts.empty memory timestamp entities).recordAll
      (ArtifactKind.nodup_all.filter _) hkind hplans
    exact ⟨plan, hplan, haccounts.created, haccounts.skipped⟩

/-- A step of another kind may come to a migration for `boxes`. -/
def boxStep : Step (StateM Memory) where
  kind := .layout
  plan _ _ := pure (some (.migration ⟨"boxes", "create_boxes_table", "boxes", []⟩))

/-- Three entities of which the first two have the same table. -/
def boxEntities : List Entity :=
  [.root "Box" [] [], .synthesized "Boxe" "Box", .synthesized "Post" "Box"]

/-- The table `boxes` is created for the first of two entities, and the table `posts`, which the
database has, for none; a step that comes to `boxes` again does not create it again. -/
theorem creates_tables_once_boxes :
    (∃ plan after, perform ((standard.register boxStep).plan storage default boxEntities) {} =
        (.ok plan, after) ∧ "boxes" ∈ plan.tables ∧ plan.tables.Nodup) ∧
    ∃ plan, exec { tables := ["posts"] } (standard.plan storage default boxEntities) =
        (.ok plan, { tables := ["posts"] }) ∧
      plan.artifactsOf .migration = [⟨.root "Box" [] [],
        .migration ((Entity.root "Box" [] []).migration default)⟩] ∧
      plan.skipped.map (fun skipped => (skipped.entity, skipped.kind)) =
        [("Boxe", .migration), ("Post", .migration)] := by
  obtain ⟨hany, hstandard⟩ := creates_tables_once
  refine ⟨?_, ?_⟩
  · have hboxes : (perform ((standard.register boxStep).plan storage default boxEntities)
        {}).1.toOption.map (·.plansTable "boxes") = some true := by decide +kernel
    rcases hperform : perform ((standard.register boxStep).plan storage default boxEntities) {}
      with ⟨result, after⟩
    cases result with
    | error e =>
      rw [hperform] at hboxes
      cases hboxes
    | ok plan =>
      rw [hperform] at hboxes
      refine ⟨plan, after, rfl, ?_, hany _ _ _ _ _ _ _ hperform⟩
      exact Plan.mem_tables.mpr (Option.some.inj hboxes)
  · obtain ⟨plan, hplan, hcreated, hskipped⟩ :=
      hstandard standard hasStandardSteps_standard (by decide) { tables := ["posts"] } default
        boxEntities
    have hfirst : selectPlaces (creates { tables := ["posts"] }) boxEntities =
        [.root "Box" [] []] := by decide +kernel
    have hothers : selectPlaces (fun earlier entity =>
        !creates { tables := ["posts"] } earlier entity) boxEntities =
          [.synthesized "Boxe" "Box", .synthesized "Post" "Box"] := by decide +kernel
    rw [hfirst] at hcreated
    rw [hothers] at hskipped
    have hboxe : (Entity.synthesized "Boxe" "Box").name = "Boxe" := by decide +kernel
    have hpost : (Entity.synthesized "Post" "Box").name = "Post" := by decide +kernel
    refine ⟨plan, hplan, hcreated, ?_⟩
    rw [hskipped, List.map_cons, List.map_cons, List.map_nil, hboxe, hpost]

end Planner

end Scaffold
