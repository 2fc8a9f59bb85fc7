import Scaffold.Generation.Emission
import Scaffold.Proofs.Action
import Scaffold.Storage.Denying

/-!
# Calls of a storage

Any storage can be made to keep a log of its calls, with the error of each call that failed. The log
says two things about an operation that the result alone does not.

* Where its error comes from: the calls explain a result if all of them went well, or if the last
  one failed with the very error of the result (`Explains`). Writing an output, or looking at it, is
  explained by its calls (`explained_emit`), and so is the whole emission (`explained_emitAll`).
* Whether it wrote: an operation spares the storage if none of its calls is a writing one and what
  can be seen of the storage is as before (`Spares`).
-/

namespace Scaffold

variable {σ φ α β : Type}

/-! ## The log -/

/-- The operation can change a file or a directory. -/
def StorageOperation.writes : StorageOperation → Bool
  | .write | .append | .ensureDirectory => true
  | .tableExists | .listArtifacts | .read => false

/-- A call of a storage. -/
structure Call where
  /-- What was called. -/
  operation : StorageOperation
  /-- What the call was about: a table, a pattern or a path. -/
  subject : String
  /-- The error, if the call failed. -/
  fault? : Option Error
  deriving DecidableEq, Repr, Inhabited

/-- The error that a result is, if it is one. -/
def faultOf? : Except Error α → Option Error
  | .ok _ => none
  | .error e => some e

namespace Storage

/-- The call with an entry in the log. -/
def logged (operation : StorageOperation) (subject : String) (call : ExceptT Error (StateM σ) α) :
    ExceptT Error (StateM (σ × List Call)) α :=
  fun state =>
    let (result, after) := perform call state.1
    (result, (after, state.2 ++ [⟨operation, subject, faultOf? result⟩]))

/-- The storage with a log of its calls. -/
def recording (storage : Storage (StateM σ)) : Storage (StateM (σ × List Call)) where
  tableExists table := logged .tableExists table (storage.tableExists table)
  listArtifacts kind pattern := logged .listArtifacts pattern (storage.listArtifacts kind pattern)
  read path := logged .read path.text (storage.read path)
  write path content := logged .write path.text (storage.write path content)
  append path lines := logged .append path.text (storage.append path lines)
  ensureDirectory path := logged .ensureDirectory path.text (storage.ensureDirectory path)

end Storage

/-- A logged call does what the call does, and leaves one entry with its fault. -/
theorem perform_logged (operation : StorageOperation) (subject : String)
    (call : ExceptT Error (StateM σ) α) (state : σ × List Call) :
    perform (Storage.logged operation subject call) state =
      ((perform call state.1).1, (perform call state.1).2,
        state.2 ++ [⟨operation, subject, faultOf? (perform call state.1).1⟩]) := rfl

/-! ## Where an error comes from -/

/-- The calls explain a result: none of them failed, or only the last one, with this error. -/
inductive Explains : List Call → Except Error α → Prop where
  /-- All calls went well. -/
  | ok {calls : List Call} (a : α) (hcalls : ∀ call ∈ calls, call.fault? = none) :
      Explains calls (.ok a)
  /-- The last call failed with the error. -/
  | error {calls : List Call} {last : Call} {e : Error}
      (hcalls : ∀ call ∈ calls, call.fault? = none) (hlast : last.fault? = some e) :
      Explains (calls ++ [last]) (.error e)

namespace Explains

variable {calls more : List Call} {result : Except Error β}

/-- Calls that went well explain nothing that happens later. -/
theorem prepend (hcalls : ∀ call ∈ calls, call.fault? = none) (h : Explains more result) :
    Explains (calls ++ more) result := by
  cases h with
  | ok a hmore => exact .ok a (List.forall_mem_append.mpr ⟨hcalls, hmore⟩)
  | error hmore hlast =>
    rw [← List.append_assoc]
    exact .error (List.forall_mem_append.mpr ⟨hcalls, hmore⟩) hlast

/-- A run that succeeds has made no call that failed. -/
theorem fault?_eq_none {a : α} (h : Explains calls (.ok a)) :
    ∀ call ∈ calls, call.fault? = none := by
  cases h with
  | ok _ hcalls => exact hcalls

/-- Calls that explain an error explain it whatever it is the error of. -/
theorem fails {e : Error} (h : Explains calls (.error e : Except Error α)) :
    Explains calls (.error e : Except Error β) := by
  cases h with
  | error hcalls hlast => exact .error hcalls hlast

/-- A run that fails ends with the one call that failed. -/
theorem exists_last {e : Error} (h : Explains calls (.error e : Except Error α)) :
    ∃ before last, calls = before ++ [last] ∧ (∀ call ∈ before, call.fault? = none) ∧
      last.fault? = some e := by
  cases h with
  | error hcalls hlast => exact ⟨_, _, rfl, hcalls, hlast⟩

end Explains

/-- The calls that the operation adds to the log explain what it comes to. -/
def IsExplained (action : ExceptT Error (StateM (σ × List Call)) α) : Prop :=
  ∀ state, ∃ calls, (perform action state).2.2 = state.2 ++ calls ∧
    Explains calls (perform action state).1

namespace IsExplained

/-- A run without calls explains itself. -/
theorem pure (a : α) : IsExplained (pure a : ExceptT Error (StateM (σ × List Call)) α) := by
  intro state
  exact ⟨[], (List.append_nil _).symm, .ok a (by simp)⟩

/-- Runs explain themselves if both of their halves do. -/
theorem bind {action : ExceptT Error (StateM (σ × List Call)) α}
    {next : α → ExceptT Error (StateM (σ × List Call)) β} (h : IsExplained action)
    (hnext : ∀ a, IsExplained (next a)) : IsExplained (action >>= next) := by
  intro state
  obtain ⟨calls, hlog, hcalls⟩ := h state
  rcases hperform : perform action state with ⟨result, middle⟩
  rw [hperform] at hlog hcalls
  cases result with
  | error e =>
    rw [perform_bind_error hperform]
    exact ⟨calls, hlog, hcalls.fails⟩
  | ok a =>
    obtain ⟨more, hmore, hresult⟩ := hnext a middle
    rw [perform_bind_ok hperform]
    refine ⟨calls ++ more, ?_, hresult.prepend hcalls.fault?_eq_none⟩
    rw [hmore, hlog, List.append_assoc]

/-- A logged call is explained by its own entry. -/
theorem logged (operation : StorageOperation) (subject : String)
    (call : ExceptT Error (StateM σ) α) : IsExplained (Storage.logged operation subject call) := by
  intro state
  rw [perform_logged]
  refine ⟨_, rfl, ?_⟩
  rw [← List.nil_append [_]]
  cases (perform call state.1).1 with
  | ok a => exact .ok a (by simp [faultOf?])
  | error e => exact .error (by simp) rfl

end IsExplained

section emission

variable (storage : Storage (StateM σ))

/-- A failure to make a directory is that of the call. -/
theorem explained_ensureParent (path : Path) :
    IsExplained (storage.recording.ensureParent path) := by
  unfold Storage.ensureParent
  cases path.directory? with
  | none => exact .pure ()
  | some directory => exact .logged _ _ _

/-- A merge fails only if one of its calls does. -/
theorem explained_merge (path : Path) (lines : List String) :
    IsExplained (Route.merge storage.recording path lines) := by
  have happend : ∀ content inserted,
      IsExplained (Route.merge.append storage.recording path lines content inserted) := by
    intro content inserted
    unfold Route.merge.append
    by_cases hnone : (Route.missing content lines).isEmpty = true
    · simp only [hnone]
      exact .bind (.pure ()) fun _ => .pure _
    · simp only [hnone]
      exact .bind (.logged _ _ _) fun _ => .pure _
  unfold Route.merge
  refine .bind (.logged _ _ _) fun current => ?_
  cases Route.withPreamble current with
  | none => exact happend _ _
  | some content =>
    exact .bind (explained_ensureParent storage path) fun _ =>
      .bind (.logged _ _ _) fun _ => happend content true

/-- Writing an output fails only if one of its calls does. -/
theorem explained_deliver (output : Output) :
    IsExplained (Emission.deliver storage.recording output) := by
  have hwrite : ∀ path content, IsExplained (do
      storage.recording.ensureParent path
      storage.recording.write path content
      return (⟨.created, none⟩ : Outcome)) := by
    intro path content
    exact .bind (explained_ensureParent storage path) fun _ =>
      .bind (.logged _ _ _) fun _ => .pure _
  cases output with
  | file path content => exact hwrite path content
  | starter path content =>
    unfold Emission.deliver
    refine .bind (.logged _ _ _) fun current => ?_
    cases current with
    | none => exact hwrite path content
    | some content => exact .pure _
  | lines path lines => exact .bind (explained_merge storage path lines) fun _ => .pure _

/-- So does previewing it. -/
theorem explained_preview (expected : Emission.Expected) (output : Output) :
    IsExplained (Emission.preview storage.recording expected output) := by
  cases output with
  | file path content => exact .pure _
  | starter path content =>
    unfold Emission.preview
    refine .bind (.logged _ _ _) fun current => ?_
    cases current with
    | none => exact .pure _
    | some content => exact .pure _
  | lines path lines =>
    unfold Emission.preview
    refine .bind ?_ fun content => .pure _
    unfold Emission.expectedContent
    cases expected.content? path with
    | some content => exact .pure content
    | none => exact .bind (.logged _ _ _) fun _ => .pure _

/-- Hence an output fails for a call, whether it is written or previewed. -/
theorem explained_emit (dryRun : Bool) (expected : Emission.Expected) (output : Output) :
    IsExplained (Emission.emit storage.recording dryRun expected output) := by
  unfold Emission.emit
  cases dryRun with
  | true => exact explained_preview storage expected output
  | false => exact .bind (explained_deliver storage output) fun _ => .pure _

/-- What the emission comes to is explained by its calls, in a dry run too. -/
theorem explained_emitAll (dryRun : Bool) (expected : Emission.Expected)
    (outputs : List (ArtifactKind × Output)) (state : σ × List Call) :
    ∃ calls,
      ((Emission.emitAll storage.recording dryRun expected outputs).run state).2.2 =
        state.2 ++ calls ∧
      Explains calls
        ((Emission.emitAll storage.recording dryRun expected outputs).run state).1.2 := by
  induction outputs generalizing expected state with
  | nil => exact ⟨[], (List.append_nil _).symm, .ok () (by simp)⟩
  | cons entry rest ih =>
    obtain ⟨kind, output⟩ := entry
    obtain ⟨calls, hlog, hcalls⟩ := explained_emit storage dryRun expected output state
    rcases hemit : (Emission.emit storage.recording dryRun expected output).run.run state with
      ⟨result, middle⟩
    rw [perform, hemit] at hlog hcalls
    rw [Emission.emitAll, run_bind hemit]
    cases result with
    | error e =>
      exact ⟨calls, hlog, hcalls.fails⟩
    | ok found =>
      obtain ⟨outcome, expected'⟩ := found
      obtain ⟨more, hmore, hresult⟩ := ih expected' middle
      refine ⟨calls ++ more, ?_, hresult.prepend hcalls.fault?_eq_none⟩
      rw [← List.append_assoc, ← hlog]
      exact hmore

end emission

/-! ## Operations that write nothing -/

/-- Between the two states nothing was written: no writing operation was called, and the storage
looks as before. -/
structure Spares (view : σ → φ) (before after : σ × List Call) : Prop where
  /-- None of the calls is a writing one. -/
  calls : ∃ calls, after.2 = before.2 ++ calls ∧ ∀ call ∈ calls, call.operation.writes = false
  /-- What is seen is the same. -/
  view : view after.1 = view before.1

namespace Spares

variable {view : σ → φ} {before middle after : σ × List Call}

/-- A state spares itself. -/
theorem refl (view : σ → φ) (state : σ × List Call) : Spares view state state :=
  ⟨⟨[], (List.append_nil _).symm, by simp⟩, rfl⟩

/-- What is spared twice is spared. -/
theorem trans (hfirst : Spares view before middle) (hsecond : Spares view middle after) :
    Spares view before after := by
  obtain ⟨⟨calls, hcalls, hreads⟩, hview⟩ := hfirst
  obtain ⟨⟨more, hmore, hreads'⟩, hview'⟩ := hsecond
  refine ⟨⟨calls ++ more, ?_, List.forall_mem_append.mpr ⟨hreads, hreads'⟩⟩, hview'.trans hview⟩
  rw [hmore, hcalls, List.append_assoc]

end Spares

/-- Reading calls do not change what is seen of the storage, whether they fail or not. -/
structure Storage.KeepsView (view : σ → φ) (storage : Storage (StateM σ)) : Prop where
  /-- Asking for a table. -/
  tableExists : ∀ table state, view (perform (storage.tableExists table) state).2 = view state
  /-- Asking for the files of a kind. -/
  listArtifacts : ∀ kind pattern state,
    view (perform (storage.listArtifacts kind pattern) state).2 = view state
  /-- Reading a file. -/
  read : ∀ path state, view (perform (storage.read path) state).2 = view state

/-- The operation writes nothing, whatever it comes to. -/
def IsSparing (view : σ → φ) (action : ExceptT Error (StateM (σ × List Call)) α) : Prop :=
  ∀ state, Spares view state (perform action state).2

namespace IsSparing

variable {view : σ → φ} {action : ExceptT Error (StateM (σ × List Call)) α}

/-- A result without effects writes nothing. -/
theorem result (result : Except Error α) :
    IsSparing view (ExceptT.mk (pure result) : ExceptT Error (StateM (σ × List Call)) α) :=
  fun state => Spares.refl view state

/-- An action of two halves spares what both of them spare. -/
theorem bind {next : α → ExceptT Error (StateM (σ × List Call)) β} (h : IsSparing view action)
    (hnext : ∀ a, IsSparing view (next a)) : IsSparing view (action >>= next) := by
  intro state
  have hfirst := h state
  rcases hperform : perform action state with ⟨result, middle⟩
  rw [hperform] at hfirst
  cases result with
  | error e =>
    rw [perform_bind_error hperform]
    exact hfirst
  | ok a =>
    rw [perform_bind_ok hperform]
    exact hfirst.trans (hnext a middle)

/-- An action whose failure is caught spares what the action spares. -/
theorem lift_run (h : IsSparing view action) : IsSparing view
    (ExceptT.lift action.run : ExceptT Error (StateM (σ × List Call)) (Except Error α)) := by
  intro state
  have hstate := h state
  rcases hperform : perform action state with ⟨result, after⟩
  rw [hperform] at hstate
  rw [perform_lift_run hperform]
  exact hstate

/-- A logged call that only reads spares what it does not change. -/
theorem logged {operation : StorageOperation} (hreads : operation.writes = false) (subject : String)
    {call : ExceptT Error (StateM σ) α} (h : ∀ state, view (perform call state).2 = view state) :
    IsSparing view (Storage.logged operation subject call) := by
  intro state
  rw [perform_logged]
  exact ⟨⟨_, rfl, by simpa using hreads⟩, h state.1⟩

end IsSparing

end Scaffold
