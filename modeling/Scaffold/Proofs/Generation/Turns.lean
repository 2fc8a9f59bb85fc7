import Scaffold.Proofs.Generation.Clock
import Scaffold.Proofs.Generation.Preview
import Scaffold.Proofs.Storage.Simulation

/-!
# Runs on any storage

Runs follow one another on one storage, each with the registry that the run before it has left. On a
storage that is simulated in memory they come to what they come to in memory, as long as they render
only paths for which the two answer alike (`exists_runTurns_of_simulates`); and what they render is
known from their requests (`renderedByAll_subset`).
-/

namespace Scaffold

namespace Generator

/-! ## Sequences of runs -/

/-- A run to be made. -/
structure Turn where
  /-- What is asked for. -/
  request : Request
  /-- It is a dry run. -/
  dryRun : Bool := false
  /-- The time of the run. -/
  timestamp : Timestamp := default

section turns

variable {σ : Type} (config : Config) (storage : Storage (StateM σ))

/-- The generator on a storage, with the standard planner and renderer. -/
def onStorage (timestamp : Timestamp) : Generator (StateM σ) where
  storage := storage
  planner := .standard
  renderer := Template.renderer config
  timestamp := timestamp

/-- Makes the runs one after another, each with the registry that the run before it has left, and
answers with what each came to. -/
def runTurns : List Turn → Registry → StateM σ (List (Report × Except Error Generated))
  | [], _ => return []
  | turn :: rest, registry => do
    let outcome ← (onStorage config storage turn.timestamp).run turn.dryRun turn.request registry
    let outcomes ← runTurns rest (nextRegistry registry outcome)
    return outcome :: outcomes

/-- The paths that a run has rendered. -/
def renderedBy (outcome : Report × Except Error Generated) : List Path :=
  match outcome.2 with
  | .ok generated => (Template.allOutputs config generated.plan.artifacts).map Output.path
  | .error _ => []

/-- The paths that the runs have rendered. -/
def renderedByAll (outcomes : List (Report × Except Error Generated)) : List Path :=
  outcomes.flatMap (renderedBy config)

end turns

section run

variable {σ : Type} {config : Config} {storage : Storage (StateM σ)}
  {related : σ → Memory → Prop} {good : Path → Prop} {state : σ} {memory memory' : Memory}
  {outcome : Report × Except Error Generated}

/-- Runs are made one after the other, each with the registry of the one before. -/
theorem run_runTurns_cons {middle after : σ} {turn : Turn} {rest : List Turn} {registry : Registry}
    {outcomes : List (Report × Except Error Generated)}
    (hfirst : ((onStorage config storage turn.timestamp).run turn.dryRun turn.request
      registry).run state = (outcome, middle))
    (hrest : (runTurns config storage rest (nextRegistry registry outcome)).run middle =
      (outcomes, after)) :
    (runTurns config storage (turn :: rest) registry).run state = (outcome :: outcomes, after) := by
  rw [runTurns, run_bind hfirst, run_bind hrest]
  rfl

/-- A single run is a sequence of one. -/
theorem run_runTurns_singleton {after : σ} {turn : Turn} {registry : Registry}
    (h : ((onStorage config storage turn.timestamp).run turn.dryRun turn.request
      registry).run state = (outcome, after)) :
    (runTurns config storage [turn] registry).run state = ([outcome], after) :=
  run_runTurns_cons h rfl

/-- Outputs can be written in memory, or looked at, to the end. -/
theorem exists_run_emitAll (memory : Memory) (dryRun : Bool)
    (outputs : List (ArtifactKind × Output)) :
    ∃ lines after, (Emission.emitAll Memory.storage dryRun [] outputs).run memory =
      ((lines, .ok ()), after) := by
  cases dryRun with
  | true => exact ⟨_, _, Emission.run_emitAll_dry memory [] outputs⟩
  | false => exact ⟨_, _, Emission.run_emitAll memory [] outputs⟩

/-- In memory a run that reads its request has a plan and emits all of it. -/
theorem exists_reaches (config : Config) (memory : Memory) (turn : Turn) {description : Description}
    (hdescribe : turn.request.describe = .ok description) :
    ∃ plan lines after,
      memory.Plans turn.timestamp description.root.expand ArtifactKind.all plan ∧
      (onStorage config Memory.storage turn.timestamp).Reaches turn.request memory description plan
        (Template.entries config plan.artifacts) memory ∧
      (Emission.emitAll Memory.storage turn.dryRun []
        (Template.entries config plan.artifacts)).run memory = ((lines, .ok ()), after) := by
  obtain ⟨plan, hplan, hplans⟩ := memory.exec_plan Planner.hasStandardSteps_standard
    turn.timestamp description.root.expand
  obtain ⟨lines, after, hemit⟩ := exists_run_emitAll memory turn.dryRun
    (Template.entries config plan.artifacts)
  exact ⟨plan, lines, after, hplans,
    ⟨hdescribe, hplan, Template.renderAll_renderer config plan.artifacts⟩, hemit⟩

/-- Where the guard is told the same on two storages, a run reaches the same outputs on both. -/
theorem exists_reaches_of_alike {τ : Type} {second : Storage (StateM τ)} {planning : σ → τ → Prop}
    (hguards : GuardsAlike planning storage second) {start planned : τ}
    (hstates : planning state start) {turn : Turn} {description : Description} {plan : Plan}
    {outputs : List (ArtifactKind × Output)}
    (hreaches : (onStorage config second turn.timestamp).Reaches turn.request start description plan
      outputs planned) :
    ∃ state', (onStorage config storage turn.timestamp).Reaches turn.request state description plan
        outputs state' ∧ planning state' planned := by
  obtain ⟨result, state', after, hfirst, hsecond, hplanned⟩ :=
    (hguards.plan turn.timestamp description.root.expand).exists_perform hstates
  obtain ⟨rfl, rfl⟩ := Prod.mk.inj (hsecond.symm.trans hreaches.plans)
  exact ⟨state', ⟨hreaches.describes, hfirst, hreaches.renders⟩, hplanned⟩

/-- A run comes to what it comes to in memory if the guard is told the same and if the same becomes
of all outputs that are rendered. The two storages may be related more closely before the outputs
are written. -/
theorem exists_run_of_alike {planning : σ → Memory → Prop}
    (hguards : GuardsAlike planning storage Memory.storage)
    (hdelivers : DeliversAlike related good storage Memory.storage)
    (hplanning : ∀ state memory, planning state memory → related state memory)
    (hstates : planning state memory) (turn : Turn) (registry : Registry)
    (h : ((onStorage config Memory.storage turn.timestamp).run turn.dryRun turn.request
      registry).run memory = (outcome, memory'))
    (hgood : ∀ path ∈ renderedBy config outcome, good path) :
    ∃ state', ((onStorage config storage turn.timestamp).run turn.dryRun turn.request
        registry).run state = (outcome, state') ∧ related state' memory' := by
  cases hdescribe : turn.request.describe with
  | error cause =>
    rw [run_of_stops (.parse hdescribe)] at h
    cases h
    exact ⟨state, run_of_stops (.parse hdescribe) turn.dryRun registry, hplanning _ _ hstates⟩
  | ok description =>
    obtain ⟨plan, lines, after, -, hreaches, hemit⟩ := exists_reaches config memory turn hdescribe
    rw [run_of_reaches_ok hreaches hemit registry] at h
    cases h
    obtain ⟨planned, hreaches', hplanned⟩ :=
      exists_reaches_of_alike hguards hstates hreaches
    have hentries : ∀ entry ∈ Template.entries config plan.artifacts, good entry.2.path := by
      intro entry hentry
      apply hgood
      refine List.mem_map_of_mem ?_
      rw [← Template.map_snd_entries]
      exact List.mem_map_of_mem hentry
    obtain ⟨lines', result, state', memory', hemit', hmemory, hstates'⟩ :=
      hdelivers.emitAll turn.dryRun [] hentries (hplanning _ _ hplanned)
    rw [hemit] at hmemory
    cases hmemory
    exact ⟨state', run_of_reaches_ok hreaches' hemit' registry, hstates'⟩

/-- On a storage that is simulated in memory a sequence of runs comes to what it comes to in memory,
if it renders only paths for which the two answer alike. -/
theorem exists_runTurns_of_simulates (hsim : Simulates related good storage Memory.storage)
    {outcomes : List (Report × Except Error Generated)} (hstates : related state memory)
    (turns : List Turn) (registry : Registry)
    (h : (runTurns config Memory.storage turns registry).run memory = (outcomes, memory'))
    (hgood : ∀ path ∈ renderedByAll config outcomes, good path) :
    ∃ state', (runTurns config storage turns registry).run state = (outcomes, state') ∧
      related state' memory' := by
  induction turns generalizing state memory registry outcomes with
  | nil =>
    cases h
    exact ⟨state, rfl, hstates⟩
  | cons turn rest ih =>
    rcases hfirst : ((onStorage config Memory.storage turn.timestamp).run turn.dryRun turn.request
      registry).run memory with ⟨outcome, middle⟩
    rcases hrest : (runTurns config Memory.storage rest (nextRegistry registry outcome)).run middle
      with ⟨others, last⟩
    rw [run_runTurns_cons hfirst hrest] at h
    cases h
    unfold renderedByAll at hgood
    rw [List.flatMap_cons, List.forall_mem_append] at hgood
    obtain ⟨middle', hmiddle', hrelated⟩ :=
      exists_run_of_alike hsim.toGuardsAlike hsim.toDeliversAlike (fun _ _ h => h) hstates turn
        registry hfirst hgood.1
    obtain ⟨last', hlast', hend⟩ := ih hrelated _ hrest hgood.2
    exact ⟨last', run_runTurns_cons hmiddle' hlast', hend⟩

end run

/-! ## What a run may render -/

section paths

variable {config : Config} {outcomes : List (Report × Except Error Generated)} {memory' : Memory}

/-- The paths of all that may be rendered for a run, whatever is there already. -/
def Turn.paths (config : Config) (turn : Turn) : List Path :=
  match turn.request.describe with
  | .error _ => []
  | .ok description =>
    (description.root.expand ×ˢ ArtifactKind.all).flatMap fun task =>
      ((task.1.planned? turn.timestamp description.root.expand task.2).toList.flatMap
        (Template.outputs config)).map Output.path

/-- A run renders nothing but what its request names. -/
theorem renderedBy_subset {turn : Turn} {registry : Registry} {memory : Memory}
    {outcome : Report × Except Error Generated}
    (h : ((onStorage config Memory.storage turn.timestamp).run turn.dryRun turn.request
      registry).run memory = (outcome, memory')) :
    renderedBy config outcome ⊆ turn.paths config := by
  unfold Turn.paths
  cases hdescribe : turn.request.describe with
  | error cause =>
    rw [run_of_stops (.parse hdescribe)] at h
    cases h
    exact List.nil_subset _
  | ok description =>
    obtain ⟨plan, lines, after, hplans, hreaches, hemit⟩ :=
      exists_reaches config memory turn hdescribe
    rw [run_of_reaches_ok hreaches hemit registry] at h
    cases h
    intro path hpath
    obtain ⟨output, houtput, rfl⟩ := List.mem_map.mp hpath
    obtain ⟨artifact, hartifact, hmem⟩ := List.mem_flatMap.mp houtput
    obtain ⟨hentity, kind, hkind, -, hplanned⟩ := hplans.mem_artifacts hartifact
    refine List.mem_flatMap.mpr ⟨(artifact.entity, kind), ?_, List.mem_map_of_mem ?_⟩
    · exact List.mem_product.mpr ⟨hentity, hkind⟩
    · refine List.mem_flatMap.mpr ⟨artifact.data, ?_, hmem⟩
      rw [hplanned]
      exact List.mem_singleton_self _

/-- Runs render nothing but what their requests name. -/
theorem renderedByAll_subset {turns : List Turn} {registry : Registry} {memory : Memory}
    (h : (runTurns config Memory.storage turns registry).run memory = (outcomes, memory')) :
    renderedByAll config outcomes ⊆ turns.flatMap (Turn.paths config) := by
  induction turns generalizing memory registry outcomes with
  | nil =>
    cases h
    exact List.nil_subset _
  | cons turn rest ih =>
    rcases hfirst : ((onStorage config Memory.storage turn.timestamp).run turn.dryRun turn.request
      registry).run memory with ⟨outcome, middle⟩
    rcases hrest : (runTurns config Memory.storage rest (nextRegistry registry outcome)).run middle
      with ⟨others, last⟩
    rw [run_runTurns_cons hfirst hrest] at h
    cases h
    unfold renderedByAll
    rw [List.flatMap_cons, List.flatMap_cons]
    intro path hpath
    rcases List.mem_append.mp hpath with hone | hmany
    · exact List.mem_append_left _ (renderedBy_subset hfirst hone)
    · exact List.mem_append_right _ (ih hrest hmany)

end paths

end Generator

end Scaffold
