import Scaffold.CommandLine.Execution
import Scaffold.Proofs.Generation.Registration
import Scaffold.Proofs.Generation.Survival
import Scaffold.Proofs.Registry.Saving

/-!
# The registry between runs

In a cycle the registry is loaded, a request is worked off, and the registry is saved if the run was
no dry one and ended well. Main statement: after any number of cycles, on a project that had no
registry, its file holds the names of the requests that went through, once each, in the order in
which they first did (`registry_of_runCycles`). Every cycle can load it, and a cycle that is dry or
fails leaves the whole project as it is.

The invariant is `Holds`: the file is missing if no name was recorded, else it is what is written
for the names. A cycle that goes through writes the file anew, from the names that it has loaded and
the one that it adds (`contentOf`); every other cycle leaves the project, and with it the file.
-/

namespace Scaffold

namespace Registry

/-! ## The content for names -/

variable {names : List String}

/-- The content of the file for names: there is none if there are no names. -/
def contentOf (names : List String) : Option String :=
  if names = [] then none else some (toContent ⟨names⟩)

/-- With names the file holds what is written for them. -/
theorem contentOf_of_ne_nil (h : names ≠ []) : contentOf names = some (toContent ⟨names⟩) :=
  if_neg h

/-- What the file holds is read as the names. -/
theorem ofContent_contentOf (names : List String) : ofContent (contentOf names) = .ok ⟨names⟩ := by
  unfold contentOf
  split_ifs with hnone
  · rw [hnone]
    rfl
  · exact ofContent_toContent ⟨names⟩

end Registry

namespace Generator

open CommandLine

/-! ## Cycles -/

/-- A request to be worked off: when, and whether it is a dry run. -/
structure Cycle where
  /-- The time of the run. -/
  timestamp : Timestamp
  /-- What is asked for. -/
  request : Request
  /-- It is a dry run. -/
  dryRun : Bool := false

/-- Loads the registry, works off the request, and saves the registry if there is something to
save. -/
def runCycle (config : Config) (cycle : Cycle) : ExceptT Error (StateM Memory) Ending := do
  let registry ← Registry.load Memory.storage config.paths.registry
  ExceptT.lift (generateIn (pure cycle.timestamp) cycle.dryRun cycle.request
    (config, Memory.storage, registry))

/-- Works off the requests one after another, and answers with what each came to. -/
def runCycles (config : Config) : List Cycle → StateM Memory (List (Except Error Ending))
  | [] => return []
  | cycle :: rest => do
    let outcome ← (runCycle config cycle).run
    let outcomes ← runCycles config rest
    return outcome :: outcomes

/-- The name that a cycle adds: that of its request, if the run was no dry one and ended well. -/
def earned? (cycle : Cycle) : Except Error Ending → Option String
  | .error _ => none
  | .ok ending =>
    if cycle.dryRun || ending.failure.isSome then none
    else some (Name.canonical cycle.request.entity)

/-- The name that a cycle is going to add: that of its request, if this can be read and the run is
no dry one. -/
def Cycle.name? (cycle : Cycle) : Option String :=
  match cycle.dryRun, cycle.request.describe with
  | false, .ok _ => some (Name.canonical cycle.request.entity)
  | _, _ => none

/-- The names that the cycles add, in order, without repetition. -/
def earnedNames (cycles : List Cycle) (outcomes : List (Except Error Ending)) : List String :=
  ((cycles.zip outcomes).filterMap fun entry => earned? entry.1 entry.2).eraseDups

/-! ## One cycle -/

section generateIn

variable {config : Config} {timestamp : Timestamp} {dryRun : Bool} {request : Request}
  {registry : Registry} {memory after : Memory} {report : Report}

/-- A run that fails prints its report and ends with its error. -/
theorem run_generateIn_of_error {e : Error}
    (h : ((inMemory config .standard timestamp).run dryRun request registry).run memory =
      ((report, .error e), after)) :
    (generateIn (pure timestamp) dryRun request (config, Memory.storage, registry)).run memory =
      ({ printed := report.printed, failure := some (.ofError e) }, after) := by
  have hclock : (pure timestamp : StateM Memory Timestamp).run memory = (timestamp, memory) := rfl
  unfold generateIn
  rw [run_bind hclock]
  exact run_bind h

/-- A dry run prints its report and a note on what it would do. -/
theorem run_generateIn_of_dry {generated : Generated}
    (h : ((inMemory config .standard timestamp).run true request registry).run memory =
      ((report, .ok generated), after)) :
    (generateIn (pure timestamp) true request (config, Memory.storage, registry)).run memory =
      ({ printed := report.printed ++ dryRunNote generated.plan }, after) := by
  have hclock : (pure timestamp : StateM Memory Timestamp).run memory = (timestamp, memory) := rfl
  unfold generateIn
  rw [run_bind hclock]
  exact run_bind h

/-- A real run prints its report and saves the registry. -/
theorem run_generateIn_of_ok {generated : Generated}
    (h : ((inMemory config .standard timestamp).run false request registry).run memory =
      ((report, .ok generated), after)) :
    (generateIn (pure timestamp) false request (config, Memory.storage, registry)).run memory =
      ({ printed := report.printed },
        after.place config.paths.registry generated.registry.toContent) := by
  have hclock : (pure timestamp : StateM Memory Timestamp).run memory = (timestamp, memory) := rfl
  have hsave : (generated.registry.save Memory.storage config.paths.registry).run.run after =
      (.ok (), after.place config.paths.registry generated.registry.toContent) :=
    generated.registry.exec_save after config.paths.registry
  unfold generateIn
  rw [run_bind hclock]
  refine (run_bind h).trans ?_
  exact run_bind hsave

end generateIn

/-- The file of the registry is missing if no name was recorded, else it is what is written for the
names. -/
def Holds (memory : Memory) (names : List String) : Prop :=
  memory.file? ({} : Paths).registry = Registry.contentOf names

section cycles

variable {memory after : Memory} {names : List String} {cycles : List Cycle}
  {outcomes : List (Except Error Ending)}

/-- The registry that is held can be loaded. -/
theorem Holds.exec_load (h : Holds memory names) :
    memory.exec (Registry.load Memory.storage ({} : Paths).registry) = (.ok ⟨names⟩, memory) := by
  rw [Registry.exec_load, h, Registry.ofContent_contentOf]

/-- A run that is no dry one and ends well leaves outputs that it has rendered and the registry with
the name of its request. Any other run leaves the project as it is. -/
theorem run_generateIn (cycle : Cycle) (registry : Registry) (memory : Memory) :
    ∃ ending after,
      (generateIn (pure cycle.timestamp) cycle.dryRun cycle.request
        ({}, Memory.storage, registry)).run memory = (ending, after) ∧
      earned? cycle (.ok ending) = cycle.name? ∧
      match cycle.name? with
      | none => after = memory
      | some name => ∃ artifacts,
          after = (memory.afterOutputs (Template.allOutputs {} artifacts)).place
            ({} : Paths).registry (registry.record name).toContent := by
  obtain ⟨timestamp, request, dryRun⟩ := cycle
  cases hdescribe : request.describe with
  | error cause =>
    refine ⟨_, _, run_generateIn_of_error (run_of_describe_error hdescribe), ?_, ?_⟩
    · simp [earned?, Cycle.name?, hdescribe]
    · simp [Cycle.name?, hdescribe]
  | ok description =>
    cases dryRun with
    | true =>
      obtain ⟨plan, hplan, -⟩ := memory.exec_plan Planner.hasStandardSteps_standard timestamp
        description.root.expand
      have hemit := Emission.run_emitAll_dry memory [] (Template.entries {} plan.artifacts)
      exact ⟨_, _, run_generateIn_of_dry (run_of_emitAll hdescribe hplan hemit), rfl, rfl⟩
    | false =>
      obtain ⟨plan, -, hrun⟩ := run_of_describe_ok {} memory timestamp registry
        Planner.hasStandardSteps_standard hdescribe
      obtain ⟨fields, found, -, -, rfl⟩ := Request.exists_of_describe hdescribe
      refine ⟨_, _, run_generateIn_of_ok hrun, ?_, ?_⟩
      · simp [earned?, Cycle.name?, hdescribe]
      · simp only [Cycle.name?, hdescribe]
        exact ⟨plan.artifacts, rfl⟩

/-- A cycle loads the registry, and adds the name that it earns. -/
theorem exec_runCycle (h : Holds memory names.eraseDups) (cycle : Cycle) :
    ∃ ending after, memory.exec (runCycle {} cycle) = (.ok ending, after) ∧
      earned? cycle (.ok ending) = cycle.name? ∧
      Holds after (names ++ cycle.name?.toList).eraseDups ∧
      (cycle.name? = none → after = memory) := by
  obtain ⟨ending, after, hrun, hearned, hafter⟩ :=
    run_generateIn cycle ⟨names.eraseDups⟩ memory
  refine ⟨ending, after, ?_, hearned, ?_⟩
  · unfold runCycle
    rw [Memory.exec_bind_ok h.exec_load]
    unfold Memory.exec
    rw [ExceptT.run_lift, StateT.run_map, hrun]
    rfl
  · cases hname : cycle.name? with
    | none =>
      rw [hname] at hafter
      obtain rfl : after = memory := hafter
      simpa using h
    | some name =>
      rw [hname] at hafter
      obtain ⟨artifacts, rfl⟩ := hafter
      refine ⟨?_, nofun⟩
      have hne : (names ++ [name]).eraseDups ≠ [] := by
        have hmem : name ∈ (names ++ [name]).eraseDups := by simp
        exact List.ne_nil_of_mem hmem
      unfold Holds
      rw [(Memory.Wrote.place _ _ _).file?, if_pos (Path.same_refl _), Registry.record_eraseDups,
        Option.toList_some, Registry.contentOf_of_ne_nil hne]

/-- Cycles add the names that they earn to those that are held; which these are is known from the
requests. -/
theorem holds_of_runCycles (h : Holds memory names.eraseDups)
    (hrun : (runCycles {} cycles).run memory = (outcomes, after)) :
    (∀ outcome ∈ outcomes, ∃ ending, outcome = .ok ending) ∧
      ((cycles.zip outcomes).filterMap fun entry => earned? entry.1 entry.2) =
        cycles.filterMap Cycle.name? ∧
      Holds after (names ++ cycles.filterMap Cycle.name?).eraseDups := by
  induction cycles generalizing memory names outcomes with
  | nil =>
    cases hrun
    simpa using h
  | cons cycle rest ih =>
    obtain ⟨ending, middle, hcycle, hearned, hmiddle, -⟩ := exec_runCycle h cycle
    rcases hrest : (runCycles {} rest).run middle with ⟨others, last⟩
    have hfirst : ((runCycle {} cycle).run).run memory = (.ok ending, middle) := hcycle
    rw [runCycles, run_bind hfirst, run_bind hrest] at hrun
    cases hrun
    obtain ⟨hloads, hnames, hafter⟩ := ih hmiddle hrest
    rw [List.append_assoc] at hafter
    refine ⟨?_, ?_, ?_⟩
    · rw [List.forall_mem_cons]
      exact ⟨⟨ending, rfl⟩, hloads⟩
    · rw [List.zip_cons_cons, List.filterMap_cons, List.filterMap_cons, hearned, hnames]
    · cases hname : cycle.name? <;> simpa [hname] using hafter

/-- What a history records is known from its requests. -/
theorem earnedNames_eq (habsent : memory.file? ({} : Paths).registry = none)
    (hrun : (runCycles {} cycles).run memory = (outcomes, after)) :
    earnedNames cycles outcomes = (cycles.filterMap Cycle.name?).eraseDups := by
  have hstart : Holds memory ([] : List String).eraseDups := habsent
  exact congrArg List.eraseDups (holds_of_runCycles hstart hrun).2.1

/-- On a project without a registry, every cycle of a history can load the registry. After the
history it loads as the names of the requests that went through, in the order of their first success
and without repetition; there is no file as long as there is no name. One more cycle that is dry or
fails leaves the project as it is. -/
theorem registry_of_runCycles (habsent : memory.file? ({} : Paths).registry = none)
    (hrun : (runCycles {} cycles).run memory = (outcomes, after)) :
    (∀ outcome ∈ outcomes, ∃ ending, outcome = .ok ending) ∧
      after.exec (Registry.load Memory.storage ({} : Paths).registry) =
        (.ok ⟨earnedNames cycles outcomes⟩, after) ∧
      after.file? ({} : Paths).registry = Registry.contentOf (earnedNames cycles outcomes) ∧
      ∀ cycle, ∃ ending later, after.exec (runCycle {} cycle) = (.ok ending, later) ∧
        (cycle.dryRun = true ∨ ending.failure ≠ none → later = after) := by
  have hstart : Holds memory ([] : List String).eraseDups := habsent
  obtain ⟨hloads, -, hafter⟩ := holds_of_runCycles hstart hrun
  have hnames : Holds after (earnedNames cycles outcomes) := by
    rw [earnedNames_eq habsent hrun]
    exact hafter
  refine ⟨hloads, hnames.exec_load, hnames, ?_⟩
  intro cycle
  obtain ⟨ending, later, hcycle, hearned, -, hsame⟩ := exec_runCycle hafter cycle
  refine ⟨ending, later, hcycle, fun hidle => hsame ?_⟩
  rw [← hearned]
  unfold earned?
  dsimp only
  rw [if_pos]
  rcases hidle with hdry | hfailed
  · rw [hdry, Bool.true_or]
  · rw [Option.isSome_iff_ne_none.mpr hfailed, Bool.or_true]

/-- A dry run and a field without a type leave no name, and a second success no second one. -/
theorem registry_of_runCycles_posts :
    ∃ outcomes after,
      (runCycles {}
        [⟨default, ⟨"post", "title:string", none⟩, false⟩, ⟨default, ⟨"tag", "a:text", none⟩, true⟩,
          ⟨default, ⟨"tag", "a", none⟩, false⟩, ⟨default, ⟨"blog", "name:string", none⟩, false⟩,
          ⟨default, ⟨"Posts", "body:text", none⟩, false⟩]).run {} = (outcomes, after) ∧
      after.exec (Registry.load Memory.storage ({} : Paths).registry) =
        (.ok ⟨["Post", "Blog"]⟩, after) := by
  refine ⟨_, _, (Prod.eta _).symm,
    (registry_of_runCycles rfl (Prod.eta _).symm).2.1.trans ?_⟩
  rw [earnedNames_eq rfl (Prod.eta _).symm]
  apply congrArg fun names => ((.ok ⟨names⟩ : Except Error Registry), _)
  decide +kernel

end cycles

end Generator

end Scaffold
