import Scaffold.Proofs.Generation.Stages
import Scaffold.Proofs.Plan.Reading
import Scaffold.Storage.Memory

/-!
# Runs that fail

A run that fails has either written nothing, or it fails because a call of the storage failed while
outputs were emitted (`run_error_cases`). The storage may fail at any call and the renderer at any
artifact.

Before the emission only the planner has a storage at hand. Steps of a planner are free, so what the
planner leaves alone is said of its steps (`Planner.OnlyReads`); the standard ones leave everything
alone (`Planner.onlyReads_of_hasStandardSteps`).
-/

namespace Scaffold

namespace Generator

variable {σ φ : Type}

/-- The generator on a storage that keeps a log of its calls. -/
def logging (storage : Storage (StateM σ)) (planner : Planner (StateM (σ × List Call)))
    (renderer : Renderer) (timestamp : Timestamp) : Generator (StateM (σ × List Call)) where
  storage := storage.recording
  planner := planner
  renderer := renderer
  timestamp := timestamp

section failure

variable {storage : Storage (StateM σ)} {planner : Planner (StateM (σ × List Call))}
  {renderer : Renderer} {timestamp : Timestamp} {request : Request} {start after : σ × List Call}
  {lines : List ReportLine} {e : Error} {view : σ → φ}

/-- A plan is made without writing. -/
theorem spares_of_reaches {description : Description} {plan : Plan}
    {outputs : List (ArtifactKind × Output)} (hplanner : planner.OnlyReads view storage)
    (h : (logging storage planner renderer timestamp).Reaches request start description plan outputs
      after) : Spares view start after := by
  have hspares := Planner.sparing_plan hplanner timestamp description.root.expand start
  have hplan : perform (planner.plan storage.recording timestamp description.root.expand) start =
      (.ok plan, after) := h.plans
  rwa [hplan] at hspares

/-- A run that stops before the emission has written nothing. -/
theorem spares_of_stops (hplanner : planner.OnlyReads view storage)
    (h : (logging storage planner renderer timestamp).Stops request start lines e after) :
    Spares view start after := by
  have hspares := fun description : Description =>
    Planner.sparing_plan hplanner timestamp description.root.expand start
  cases h with
  | parse hdescribe => exact Spares.refl view start
  | @plan description e after hdescribe hplan =>
    change perform (planner.plan storage.recording timestamp description.root.expand) start =
      (_, after) at hplan
    have hdone := hspares description
    rwa [hplan] at hdone
  | @render description plan e after hdescribe hplan hrender =>
    change perform (planner.plan storage.recording timestamp description.root.expand) start =
      (_, after) at hplan
    have hdone := hspares description
    rwa [hplan] at hdone

/-- Whatever fails before the emission, be it the last token, the last entity or the last artifact,
ends the run with nothing written; every other error is that of the last call of the emission.

Steps are free code and a registered one could write, so the first part is for planners all steps of
which only read (`Planner.OnlyReads`). This is what a step is to do, and the standard ones do it on
every storage (`Planner.onlyReads_of_hasStandardSteps`). -/
theorem run_error_cases (storage : Storage (StateM σ)) (planner : Planner (StateM (σ × List Call)))
    (renderer : Renderer) (timestamp : Timestamp) (dryRun : Bool) (request : Request)
    (registry : Registry) (start : σ × List Call) :
    (∀ lines e after,
      (logging storage planner renderer timestamp).Stops request start lines e after →
      ((logging storage planner renderer timestamp).run dryRun request registry).run start =
        (({ lines := lines ++ [failedLine request e] }, .error e), after) ∧
      ∀ {φ : Type} (view : σ → φ), planner.OnlyReads view storage → Spares view start after) ∧
    ∀ report e after,
      ((logging storage planner renderer timestamp).run dryRun request registry).run start =
        ((report, .error e), after) →
      (∃ lines, (logging storage planner renderer timestamp).Stops request start lines e after) ∨
        ∃ description plan outputs planned calls last,
          (logging storage planner renderer timestamp).Reaches request start description plan
            outputs planned ∧
          after.2 = planned.2 ++ (calls ++ [last]) ∧ (∀ call ∈ calls, call.fault? = none) ∧
          last.fault? = some e := by
  refine ⟨?_, ?_⟩
  · intro lines e after hstops
    refine ⟨run_of_stops hstops dryRun registry, ?_⟩
    intro φ view hplanner
    exact spares_of_stops hplanner hstops
  · intro report e after hrun
    rcases (logging storage planner renderer timestamp).stops_or_reaches request start with
      ⟨lines, e', after', hstops⟩ | ⟨description, plan, outputs, planned, hreaches⟩
    · rw [run_of_stops hstops dryRun registry] at hrun
      obtain ⟨hfirst, rfl⟩ := Prod.mk.inj hrun
      obtain rfl : e' = e := by simpa using congrArg Prod.snd hfirst
      exact Or.inl ⟨lines, hstops⟩
    · right
      obtain ⟨calls, hlog, hcalls⟩ := explained_emitAll storage dryRun [] outputs planned
      rcases hemit : (Emission.emitAll storage.recording dryRun [] outputs).run planned with
        ⟨⟨lines, result⟩, final⟩
      rw [hemit] at hlog hcalls
      cases result with
      | ok done =>
        rw [run_of_reaches_ok hreaches hemit registry] at hrun
        cases hrun
      | error e' =>
        rw [run_of_reaches_error hreaches hemit registry] at hrun
        obtain ⟨hfirst, rfl⟩ := Prod.mk.inj hrun
        obtain rfl : e' = e := by simpa using congrArg Prod.snd hfirst
        obtain ⟨before, last, rfl, hbefore, hlast⟩ := hcalls.exists_last
        exact ⟨description, plan, outputs, planned, before, last, hreaches, hlog, hbefore, hlast⟩

/-- A renderer that fails at the last artifact of the plan leaves an empty project empty. -/
theorem run_error_at_layout :
    ∃ lines calls,
      ((logging Memory.storage .standard (fun artifact =>
        if artifact.kind = .layout then .error (.render "layout")
        else Template.renderer {} artifact) default).run false
          ⟨"post", "title:string", none⟩ {}).run ({}, []) =
        (({ lines }, .error (.render "layout")), ({}, calls)) ∧
      ∀ call ∈ calls, call.operation.writes = false := by
  have hdescribe : (⟨"post", "title:string", none⟩ : Request).describe =
      .ok ⟨"Post", [⟨"title", .string⟩], [], []⟩ := by decide +kernel
  have hlate : ((perform (Planner.plan .standard Memory.storage.recording default
      (Description.root ⟨"Post", [⟨"title", .string⟩], [], []⟩).expand) ({}, [])).1.toOption.map
      fun plan => renderAll (fun artifact =>
        if artifact.kind = .layout then .error (.render "layout")
        else Template.renderer {} artifact) plan.artifacts) =
      some (.error (.render "layout")) := by decide +kernel
  have hplanner : Planner.OnlyReads id Memory.storage .standard :=
    Planner.onlyReads_of_hasStandardSteps Planner.hasStandardSteps_standard
      ⟨fun _ _ => rfl, fun _ _ _ => rfl, fun _ _ => rfl⟩
  obtain ⟨plan, hplan, hrender⟩ := Option.map_eq_some_iff.mp hlate
  rcases hperform : perform (Planner.plan .standard Memory.storage.recording default
    (Description.root ⟨"Post", [⟨"title", .string⟩], [], []⟩).expand) ({}, []) with ⟨result, after⟩
  rw [hperform] at hplan
  cases result with
  | error e => cases hplan
  | ok found =>
    obtain rfl : found = plan := Option.some.inj hplan
    obtain ⟨hrun, hspares⟩ := (run_error_cases Memory.storage .standard _ default false
      ⟨"post", "title:string", none⟩ {} ({}, [])).1 _ _ _ (.render hdescribe hperform hrender)
    obtain ⟨⟨calls, hcalls, hreads⟩, hview⟩ := hspares id hplanner
    obtain ⟨project, log⟩ := after
    obtain rfl : project = {} := hview
    obtain rfl : log = calls := hcalls
    exact ⟨_, _, hrun, hreads⟩

end failure

end Generator

end Scaffold
