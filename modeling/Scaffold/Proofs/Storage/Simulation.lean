import Scaffold.Generation.Emission
import Scaffold.Proofs.Plan.Planning

/-!
# Two storages side by side

Two storages with different states are used in the same way. If the states are related, and if
looking for migrations, reading and writing an output come to the same on both and leave related
states (`Simulates`), then so does everything that is made of these: planning by the standard steps,
for which the guard alone is asked (`GuardsAlike.plan`), and writing outputs or looking at them
(`DeliversAlike.emitAll`).

Storages may answer alike for some paths only; the outputs have to be for these.
-/

namespace Scaffold

variable {σ τ α β : Type} {related : σ → τ → Prop}

/-! ## Operations -/

/-- On related states the two operations come to the same, and they leave related states. -/
def Alike (related : σ → τ → Prop) (first : ExceptT Error (StateM σ) α)
    (second : ExceptT Error (StateM τ) α) : Prop :=
  ∀ s t, related s t → (perform first s).1 = (perform second t).1 ∧
    related (perform first s).2 (perform second t).2

namespace Alike

variable {first : ExceptT Error (StateM σ) α} {second : ExceptT Error (StateM τ) α}

/-- Two actions are alike on a pair of states if their results are the same and the states left are
related. -/
theorem of_perform {result : Except Error α} {s s' : σ} {t t' : τ}
    (hfirst : perform first s = (result, s')) (hsecond : perform second t = (result, t'))
    (h : related s' t') : (perform first s).1 = (perform second t).1 ∧
      related (perform first s).2 (perform second t).2 := by
  rw [hfirst, hsecond]
  exact ⟨rfl, h⟩

/-- What the two operations come to, with the states after them. -/
theorem exists_perform (h : Alike related first second) {s : σ} {t : τ} (hstates : related s t) :
    ∃ result s' t', perform first s = (result, s') ∧ perform second t = (result, t') ∧
      related s' t' := by
  obtain ⟨hresult, hafter⟩ := h s t hstates
  exact ⟨_, _, _, Prod.ext hresult rfl, rfl, hafter⟩

/-- In a fixed pair of states, which the two operations leave as they are. -/
theorem of_unchanged {result : Except Error α} {s : σ} {t : τ}
    (hfirst : perform first s = (result, s)) (hsecond : perform second t = (result, t)) :
    Alike (fun s' t' => s = s' ∧ t = t') first second := by
  rintro _ _ ⟨rfl, rfl⟩
  rw [hfirst, hsecond]
  exact ⟨rfl, rfl, rfl⟩

/-- A result without effects. -/
theorem result (result : Except Error α) :
    Alike related (ExceptT.mk (pure result) : ExceptT Error (StateM σ) α)
      (ExceptT.mk (pure result) : ExceptT Error (StateM τ) α) :=
  fun _ _ h => ⟨rfl, h⟩

/-- Actions of two halves are alike if the halves are. -/
theorem bind {next : α → ExceptT Error (StateM σ) β} {next' : α → ExceptT Error (StateM τ) β}
    (h : Alike related first second) (hnext : ∀ a, Alike related (next a) (next' a)) :
    Alike related (first >>= next) (second >>= next') := by
  intro s t hstates
  obtain ⟨result, s', t', hfirst, hsecond, hafter⟩ := h.exists_perform hstates
  cases result with
  | error e =>
    exact of_perform (perform_bind_error hfirst) (perform_bind_error hsecond) hafter
  | ok a =>
    rw [perform_bind_ok hfirst, perform_bind_ok hsecond]
    exact hnext a s' t' hafter

/-- Actions whose failure is caught are alike if the actions are. -/
theorem lift_run (h : Alike related first second) :
    Alike related (ExceptT.lift first.run : ExceptT Error (StateM σ) (Except Error α))
      (ExceptT.lift second.run : ExceptT Error (StateM τ) (Except Error α)) := by
  intro s t hstates
  obtain ⟨result, s', t', hfirst, hsecond, hafter⟩ := h.exists_perform hstates
  exact of_perform (perform_lift_run hfirst) (perform_lift_run hsecond) hafter

end Alike

/-! ## Storages -/

/-- On related states the two storages tell the guard against second migrations the same. -/
structure GuardsAlike (related : σ → τ → Prop) (first : Storage (StateM σ))
    (second : Storage (StateM τ)) : Prop where
  /-- The same tables are there. -/
  tableExists : ∀ table, Alike related (first.tableExists table) (second.tableExists table)
  /-- The same migrations are found. -/
  listMigrations : ∀ pattern, Alike related (first.listArtifacts .migration pattern)
    (second.listArtifacts .migration pattern)

/-- On related states the same becomes of outputs on the two storages, for the paths that satisfy
`good`. -/
structure DeliversAlike (related : σ → τ → Prop) (good : Path → Prop)
    (first : Storage (StateM σ)) (second : Storage (StateM τ)) : Prop where
  /-- The same is read. -/
  read : ∀ path, good path → Alike related (first.read path) (second.read path)
  /-- The same becomes of an output. -/
  deliver : ∀ output : Output, good output.path →
    Alike related (Emission.deliver first output) (Emission.deliver second output)

/-- On related states the two storages answer alike and stay related, as far as a generation uses
them for the paths that satisfy `good`. -/
structure Simulates (related : σ → τ → Prop) (good : Path → Prop) (first : Storage (StateM σ))
    (second : Storage (StateM τ)) : Prop extends GuardsAlike related first second,
    DeliversAlike related good first second

namespace GuardsAlike

variable {first : Storage (StateM σ)} {second : Storage (StateM τ)}
  (h : GuardsAlike related first second)

include h

/-! ## Planning -/

/-- Guards that are alike answer alike. -/
theorem check (table : String) :
    Alike related (Schema.check first table) (Schema.check second table) := by
  unfold Schema.check
  refine (h.tableExists table).bind fun exists_ => ?_
  cases exists_ with
  | true => exact .result (.error _)
  | false =>
    refine (h.listMigrations _).bind fun found => ?_
    cases found with
    | nil => exact .result (.ok ())
    | cons name rest => exact .result (.error _)

/-- The standard steps are alike. -/
theorem standard (kind : ArtifactKind) (entity : Entity) (timestamp : Timestamp)
    (entities : List Entity) :
    Alike related ((Step.standard kind).plan entity { storage := first, timestamp, entities })
      ((Step.standard kind).plan entity { storage := second, timestamp, entities }) := by
  cases kind with
  | migration => exact (h.check entity.table).bind fun _ => .result (.ok _)
  | _ => exact .result (.ok _)

/-- Planning an entity is alike. -/
theorem planEntity (entity : Entity) (timestamp : Timestamp) (entities : List Entity)
    (kinds : List ArtifactKind) (plan : Plan) :
    Alike related
      (Planner.planEntity { storage := first, timestamp, entities } entity
        (kinds.map fun kind => (kind, Step.standard kind)) plan)
      (Planner.planEntity { storage := second, timestamp, entities } entity
        (kinds.map fun kind => (kind, Step.standard kind)) plan) := by
  induction kinds generalizing plan with
  | nil => exact .result (.ok plan)
  | cons kind rest ih =>
    refine (h.standard kind entity timestamp entities).lift_run.bind fun outcome => ?_
    exact .bind (.result _) fun plan => ih plan

/-- Planning by the standard steps comes to the same plan. -/
theorem plan (timestamp : Timestamp) (entities : List Entity) :
    Alike related (Planner.standard.plan first timestamp entities)
      (Planner.standard.plan second timestamp entities) := by
  have hqueue : ∀ (queue : List Entity) (plan : Plan), Alike related
      (Planner.standard.planEntities { storage := first, timestamp, entities } queue plan)
      (Planner.standard.planEntities { storage := second, timestamp, entities } queue plan) := by
    intro queue
    induction queue with
    | nil => exact fun plan => .result (.ok plan)
    | cons entity rest ih =>
      intro plan
      exact (h.planEntity entity timestamp entities ArtifactKind.all plan).bind ih
  exact hqueue entities (.empty entities)

end GuardsAlike

namespace DeliversAlike

variable {good : Path → Prop} {first : Storage (StateM σ)} {second : Storage (StateM τ)}
  (h : DeliversAlike related good first second)

include h

/-! ## Emission -/

/-- Previews of an output at a good path are alike. -/
theorem preview (expected : Emission.Expected) {output : Output} (hgood : good output.path) :
    Alike related (Emission.preview first expected output)
      (Emission.preview second expected output) := by
  cases output with
  | file path content => exact .result (.ok _)
  | starter path content =>
    unfold Emission.preview
    refine (h.read path hgood).bind fun current => ?_
    cases current with
    | none => exact .result (.ok _)
    | some content => exact .result (.ok _)
  | lines path lines =>
    unfold Emission.preview
    refine .bind ?_ fun content => .result (.ok _)
    unfold Emission.expectedContent
    cases expected.content? path with
    | some content => exact .result (.ok content)
    | none => exact (h.read path hgood).bind fun _ => .result (.ok _)

/-- Hence the output is alike whether it is written or previewed. -/
theorem emit (dryRun : Bool) (expected : Emission.Expected) {output : Output}
    (hgood : good output.path) :
    Alike related (Emission.emit first dryRun expected output)
      (Emission.emit second dryRun expected output) := by
  unfold Emission.emit
  cases dryRun with
  | true => exact h.preview expected hgood
  | false => exact (h.deliver output hgood).bind fun _ => .result (.ok _)

/-- Writing outputs, or looking at them, comes to the same lines and the same end. -/
theorem emitAll (dryRun : Bool) (expected : Emission.Expected)
    {outputs : List (ArtifactKind × Output)} (hgood : ∀ entry ∈ outputs, good entry.2.path)
    {s : σ} {t : τ} (hstates : related s t) :
    ∃ lines result s' t',
      (Emission.emitAll first dryRun expected outputs).run s = ((lines, result), s') ∧
      (Emission.emitAll second dryRun expected outputs).run t = ((lines, result), t') ∧
      related s' t' := by
  induction outputs generalizing expected s t with
  | nil => exact ⟨_, _, s, t, rfl, rfl, hstates⟩
  | cons entry rest ih =>
    obtain ⟨kind, output⟩ := entry
    rw [List.forall_mem_cons] at hgood
    obtain ⟨result, s', t', hfirst, hsecond, hafter⟩ :=
      (h.emit dryRun expected hgood.1).exists_perform hstates
    rw [Emission.emitAll, Emission.emitAll, run_bind hfirst, run_bind hsecond]
    cases result with
    | error e => exact ⟨_, _, s', t', rfl, rfl, hafter⟩
    | ok found =>
      obtain ⟨outcome, expected'⟩ := found
      obtain ⟨lines, result, s'', t'', hlines, hlines', hend⟩ := ih expected' hgood.2 hafter
      dsimp only
      rw [run_bind hlines, run_bind hlines']
      exact ⟨_, _, s'', t'', rfl, rfl, hend⟩

end DeliversAlike

end Scaffold
