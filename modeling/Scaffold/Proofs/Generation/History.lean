import Scaffold.Proofs.Entity.Expansion
import Scaffold.Proofs.Generation.MigrationFile

/-!
# Many runs on one project

Runs with any requests follow one another on a project in memory, each on what the runs before it
left. Main statement: of all these runs at most one creates a given table
(`pairwise_createsTable_runAll`).

One run extends its project, creates only tables that nothing is in the way of, and leaves something
in the way of those that it creates (`runs_onward`). The first two carry over from one run to a
whole history (`free_of_mem_runAll`), and the third then separates an earlier run from a later one.
-/

namespace Scaffold

namespace Generator

/-! ## One run -/

/-- The run came to a plan that creates the table. -/
def CreatesTable (outcome : Report × Except Error Generated) (table : String) : Prop :=
  ∃ generated, outcome.2 = .ok generated ∧ generated.plan.plansTable table = true

/-- What a run on the project `before` comes to, and the project `after` it. -/
structure RunsOnward (before : Memory) (outcome : Report × Except Error Generated)
    (after : Memory) : Prop where
  /-- The project has grown. -/
  grows : before.Extends after
  /-- Nothing was in the way of a table that the run creates. -/
  free : ∀ table, CreatesTable outcome table → before.obstacle? table = none
  /-- Something is in the way of it from then on. -/
  taken : ∀ table, CreatesTable outcome table → '/' ∉ table.toList →
    after.obstacle? table ≠ none

section run

variable {config : Config} {timestamp : Timestamp} {request : Request} {registry : Registry}
  {memory after : Memory} {outcome : Report × Except Error Generated}

/-- A real run goes onward from any project. -/
theorem runs_onward (hpaths : memory.paths = config.paths)
    (h : ((inMemory config .standard timestamp).run false request registry).run memory =
      (outcome, after)) : RunsOnward memory outcome after := by
  cases hdescribe : request.describe with
  | error cause =>
    -- nothing is created, and the project stays as it is
    have hfailed : ∀ table, ¬CreatesTable outcome table := by
      rintro table ⟨generated, hgenerated, -⟩
      rw [run_of_describe_error hdescribe, Prod.mk.injEq] at h
      rw [← h.1] at hgenerated
      cases hgenerated
    rw [run_of_describe_error hdescribe, Prod.mk.injEq] at h
    rw [← h.2]
    exact ⟨.refl memory, fun table h => absurd h (hfailed table),
      fun table h => absurd h (hfailed table)⟩
  | ok description =>
    obtain ⟨plan, hplans, hrun⟩ := run_of_describe_ok config memory timestamp registry
      Planner.hasStandardSteps_standard hdescribe
    rw [hrun, Prod.mk.injEq] at h
    have hcreates : ∀ table, CreatesTable outcome table → plan.plansTable table = true := by
      rintro table ⟨generated, hgenerated, htable⟩
      rw [← h.1] at hgenerated
      rwa [← Except.ok.inj hgenerated] at htable
    rw [← h.2]
    refine ⟨memory.extends_afterOutputs _, ?_, ?_⟩
    · intro table htable
      exact (hplans.exists_of_plansTable (hcreates table htable)).1
    · intro table htable hslash
      exact Memory.obstacle?_ne_none_of_plansTable hpaths hplans (hcreates table htable) hslash

/-- A run creates the tables of its entities that nothing is in the way of. -/
theorem createsTable_of_free {description : Description} {entity : Entity}
    (hdescribe : request.describe = .ok description) (hentity : entity ∈ description.root.expand)
    (hfree : memory.obstacle? entity.table = none)
    (h : ((inMemory config .standard timestamp).run false request registry).run memory =
      (outcome, after)) : CreatesTable outcome entity.table := by
  obtain ⟨plan, hplans, hrun⟩ := run_of_describe_ok config memory timestamp registry
    Planner.hasStandardSteps_standard hdescribe
  rw [hrun, Prod.mk.injEq] at h
  rw [← h.1]
  exact ⟨_, rfl, hplans.plansTable_of_mem (by decide) hentity hfree⟩

end run

/-! ## A history -/

/-- A run to be made: when, for what request, and with which registry. -/
structure Job where
  /-- The time of the run. -/
  timestamp : Timestamp
  /-- What is asked for. -/
  request : Request
  /-- The names generated before. -/
  registry : Registry

/-- Makes the runs one after another, and answers with what each came to. -/
def runAll (config : Config) : List Job → StateM Memory (List (Report × Except Error Generated))
  | [] => return []
  | job :: rest => do
    let outcome ← (inMemory config .standard job.timestamp).run false job.request job.registry
    let outcomes ← runAll config rest
    return outcome :: outcomes

section runAll

variable {config : Config} {memory : Memory}

/-- The outcomes of a history are that of its first run and those of the rest. -/
theorem exists_runAll_cons (hpaths : memory.paths = config.paths) (job : Job) (rest : List Job) :
    ∃ outcome middle, RunsOnward memory outcome middle ∧
      ((runAll config (job :: rest)).run memory).1 =
        outcome :: ((runAll config rest).run middle).1 := by
  rcases hrun : ((inMemory config .standard job.timestamp).run false job.request
    job.registry).run memory with ⟨outcome, middle⟩
  refine ⟨outcome, middle, runs_onward hpaths hrun, ?_⟩
  rw [runAll, run_bind hrun]
  rfl

/-- Nothing is in the way of a table at the start of a history in which it is created. -/
theorem free_of_mem_runAll (hpaths : memory.paths = config.paths) {jobs : List Job}
    {outcome : Report × Except Error Generated} {table : String}
    (hmem : outcome ∈ ((runAll config jobs).run memory).1) (hcreates : CreatesTable outcome table) :
    memory.obstacle? table = none := by
  induction jobs generalizing memory with
  | nil => exact absurd hmem List.not_mem_nil
  | cons job rest ih =>
    obtain ⟨first, middle, honward, heq⟩ := exists_runAll_cons hpaths job rest
    rw [heq] at hmem
    rcases List.mem_cons.mp hmem with rfl | hrest
    · exact honward.free table hcreates
    · have hmiddle := ih (honward.grows.paths.trans hpaths) hrest
      exact honward.grows.obstacle?_eq_none hmiddle

/-- No two runs of a history create the same table, unless its name has a slash in it. -/
theorem pairwise_createsTable_runAll (hpaths : memory.paths = config.paths) (jobs : List Job) :
    ((runAll config jobs).run memory).1.Pairwise fun earlier later =>
      ∀ table, '/' ∉ table.toList → CreatesTable earlier table → ¬CreatesTable later table := by
  induction jobs generalizing memory with
  | nil => exact List.Pairwise.nil
  | cons job rest ih =>
    obtain ⟨first, middle, honward, heq⟩ := exists_runAll_cons hpaths job rest
    have hmiddle : middle.paths = config.paths := honward.grows.paths.trans hpaths
    rw [heq, List.pairwise_cons]
    refine ⟨?_, ih hmiddle⟩
    intro later hlater table hslash hfirst hcreates
    exact honward.taken table hfirst hslash (free_of_mem_runAll hmiddle hlater hcreates)

/-- A table that one run creates for its root is not created again for what a later run owns. -/
theorem posts_created_once :
    ∃ first second, ((runAll {} [⟨default, ⟨"post", "title:string", none⟩, {}⟩,
        ⟨default, ⟨"blog", "name:string", some "post:hasMany"⟩, {}⟩]).run {}).1 = [first, second] ∧
      CreatesTable first "posts" ∧ (∃ generated, second.2 = .ok generated) ∧
        ¬CreatesTable second "posts" := by
  have hpost : (⟨"post", "title:string", none⟩ : Request).describe =
      .ok ⟨"Post", [⟨"title", .string⟩], [], []⟩ := by decide +kernel
  have hblog : (⟨"blog", "name:string", some "post:hasMany"⟩ : Request).describe =
      .ok ⟨"Blog", [⟨"name", .string⟩], [⟨"Post", .hasMany⟩], []⟩ := by decide +kernel
  have hpaths : ({} : Memory).paths = ({} : Config).paths := rfl
  have hpairwise := pairwise_createsTable_runAll hpaths
    [⟨default, ⟨"post", "title:string", none⟩, {}⟩,
      ⟨default, ⟨"blog", "name:string", some "post:hasMany"⟩, {}⟩]
  rcases hfirst : ((inMemory {} .standard default).run false ⟨"post", "title:string", none⟩ {}).run
    {} with ⟨first, middle⟩
  rcases hsecond : ((inMemory {} .standard default).run false
    ⟨"blog", "name:string", some "post:hasMany"⟩ {}).run middle with ⟨second, final⟩
  have hrun : ((runAll {} [⟨default, ⟨"post", "title:string", none⟩, {}⟩,
      ⟨default, ⟨"blog", "name:string", some "post:hasMany"⟩, {}⟩]).run {}).1 =
        [first, second] := by
    rw [runAll, run_bind hfirst, runAll]
    rw [StateT.run_bind, run_bind hsecond]
    rfl
  have htable : (Entity.root "Post" [⟨"title", .string⟩] []).table = "posts" := by decide +kernel
  have hposts : CreatesTable first "posts" := by
    rw [← htable]
    refine createsTable_of_free hpost ?_ ?_ hfirst
    · rw [Entity.expand_eq]
      exact List.mem_cons_self
    · rw [Memory.obstacle?_eq_none_iff]
      refine ⟨List.not_mem_nil, fun name hname => ?_⟩
      obtain ⟨directory, -, key, hkey, -⟩ := Memory.mem_artifacts.mp hname
      exact absurd hkey List.not_mem_nil
  have hended : ∃ generated, second.2 = .ok generated := by
    obtain ⟨plan, -, hblogs⟩ := run_of_describe_ok {} middle default {}
      Planner.hasStandardSteps_standard hblog
    rw [hsecond, Prod.mk.injEq] at hblogs
    rw [hblogs.1]
    exact ⟨_, rfl⟩
  rw [hrun, List.pairwise_cons] at hpairwise
  exact ⟨first, second, hrun, hposts, hended,
    hpairwise.1 second (List.mem_singleton_self _) "posts" (by decide) hposts⟩

end runAll

end Generator

end Scaffold
