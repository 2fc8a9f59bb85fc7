import Scaffold.Proofs.Generation.Delivery
import Scaffold.Proofs.Storage.Recording

/-!
# Storages that may refuse

A storage acts like a project in memory if each of its calls does what it does there, or fails
without effect (`Storage.ActsLikeMemory`). The storage may decide anew at every call, so an output
that takes several calls can be left half written. What is there then is bounded
(`Memory.PartlyWritten`): a directory at most, and for a route file the opening at most.

An operation is followed by its attempt (`Attempts`): it has done all that it does in memory, or it
has failed and left one of the states that it passes through.
-/

namespace Scaffold

variable {σ α β : Type} {view : σ → Memory}

/-- The operation fails and changes nothing that is seen, or does what `model` does. -/
def MayRefuse (view : σ → Memory) (action : ExceptT Error (StateM σ) α)
    (model : ExceptT Error (StateM Memory) α) : Prop :=
  ∀ state,
    (∃ e after, perform action state = (.error e, after) ∧ view after = view state) ∨
      ∃ after, perform action state = (((view state).exec model).1, after) ∧
        view after = ((view state).exec model).2

/-- Every call of the storage does what it does on the project that is seen, or fails without
effect. -/
structure Storage.ActsLikeMemory (view : σ → Memory) (storage : Storage (StateM σ)) : Prop where
  /-- Asking for a table. -/
  tableExists : ∀ table,
    MayRefuse view (storage.tableExists table) (Memory.storage.tableExists table)
  /-- Asking for the files of a kind. -/
  listArtifacts : ∀ kind pattern,
    MayRefuse view (storage.listArtifacts kind pattern) (Memory.storage.listArtifacts kind pattern)
  /-- Reading a file. -/
  read : ∀ path, MayRefuse view (storage.read path) (Memory.storage.read path)
  /-- Writing a file. -/
  write : ∀ path content,
    MayRefuse view (storage.write path content) (Memory.storage.write path content)
  /-- Appending to a file. -/
  append : ∀ path lines,
    MayRefuse view (storage.append path lines) (Memory.storage.append path lines)
  /-- Making a directory. -/
  ensureDirectory : ∀ path,
    MayRefuse view (storage.ensureDirectory path) (Memory.storage.ensureDirectory path)

namespace MayRefuse

/-- An action behind a refusal may refuse, and otherwise does what the action does. -/
theorem unlessRefused (refused : Bool) (subject reason : String)
    (model : ExceptT Error (StateM Memory) α) :
    MayRefuse id (Storage.unlessRefused refused subject reason model) model := by
  intro memory
  cases refused with
  | true => exact Or.inl ⟨_, memory, rfl, rfl⟩
  | false => exact Or.inr ⟨_, rfl, rfl⟩

/-- Logging a call does not change what it may refuse. -/
theorem logged {action : ExceptT Error (StateM σ) α} {model : ExceptT Error (StateM Memory) α}
    (h : MayRefuse view action model) (operation : StorageOperation) (subject : String) :
    MayRefuse (fun state : σ × List Call => view state.1)
      (Storage.logged operation subject action) model := by
  intro state
  rw [perform_logged]
  rcases h state.1 with ⟨e, after, hperform, hview⟩ | ⟨after, hperform, hview⟩
  · rw [hperform]
    exact Or.inl ⟨e, _, rfl, hview⟩
  · rw [hperform]
    exact Or.inr ⟨_, rfl, hview⟩

end MayRefuse

namespace Storage

/-- A project in memory of which some calls are refused. -/
theorem actsLikeMemory_denying (refuses : StorageOperation → String → Bool) (reason : String) :
    (Memory.storage.denying refuses reason).ActsLikeMemory id where
  tableExists _ := .unlessRefused _ _ _ _
  listArtifacts _ _ := .unlessRefused _ _ _ _
  read _ := .unlessRefused _ _ _ _
  write _ _ := .unlessRefused _ _ _ _
  append _ _ := .unlessRefused _ _ _ _
  ensureDirectory _ := .unlessRefused _ _ _ _

/-- A log changes nothing about what the calls do. -/
theorem ActsLikeMemory.recording {storage : Storage (StateM σ)} (h : storage.ActsLikeMemory view) :
    storage.recording.ActsLikeMemory fun state => view state.1 where
  tableExists table := (h.tableExists table).logged _ _
  listArtifacts kind pattern := (h.listArtifacts kind pattern).logged _ _
  read path := (h.read path).logged _ _
  write path content := (h.write path content).logged _ _
  append path lines := (h.append path lines).logged _ _
  ensureDirectory path := (h.ensureDirectory path).logged _ _

end Storage

/-! ## Attempts -/

/-- The operation comes to `a` and is seen to leave `done`, or it fails and leaves what satisfies
`partly`. -/
def Attempts (view : σ → Memory) (action : ExceptT Error (StateM σ) α) (state : σ)
    (partly : Memory → Prop) (a : α) (done : Memory) : Prop :=
  (∃ e after, perform action state = (.error e, after) ∧ partly (view after)) ∨
    ∃ after, perform action state = (.ok a, after) ∧ view after = done

namespace Attempts

variable {action : ExceptT Error (StateM σ) α} {state : σ} {partly : Memory → Prop} {a : α} {b : β}
  {middle done : Memory}

/-- A result that is there already is reached. -/
theorem pure (h : view state = done) : Attempts view (Pure.pure a) state partly a done :=
  Or.inr ⟨state, rfl, h⟩

/-- A call that may be refused leaves everything as it was, if it is. -/
theorem of_mayRefuse {model : ExceptT Error (StateM Memory) α} (h : MayRefuse view action model)
    (hmodel : (view state).exec model = (.ok a, done)) (hpartly : partly (view state)) :
    Attempts view action state partly a done := by
  rcases h state with ⟨e, after, hperform, hview⟩ | ⟨after, hperform, hview⟩
  · exact Or.inl ⟨e, after, hperform, hview ▸ hpartly⟩
  · rw [hmodel] at hperform hview
    exact Or.inr ⟨after, hperform, hview⟩

/-- An attempt goes on with the next action if the first half is done. -/
theorem bind {next : α → ExceptT Error (StateM σ) β}
    (h : Attempts view action state partly a middle)
    (hnext : ∀ state, view state = middle → Attempts view (next a) state partly b done) :
    Attempts view (action >>= next) state partly b done := by
  rcases h with ⟨e, after, hperform, hleft⟩ | ⟨after, hperform, hview⟩
  · exact Or.inl ⟨e, after, perform_bind_error hperform, hleft⟩
  · unfold Attempts
    rw [perform_bind_ok hperform]
    exact hnext after hview

end Attempts

/-! ## Outputs -/

namespace Memory

/-- What can be left of an output that was not written to the end, where `memory` was there
before. -/
inductive PartlyWritten (memory : Memory) : Output → Memory → Prop where
  /-- Nothing. -/
  | nothing (output : Output) : PartlyWritten memory output memory
  /-- Its directory. -/
  | directory (output : Output) : PartlyWritten memory output (memory.makeParent output.path)
  /-- The opening of a route file, and its directory. -/
  | opening (path : Path) (lines : List String) :
      PartlyWritten memory (.lines path lines) (memory.afterOpening path)

end Memory

section outputs

variable {storage : Storage (StateM σ)} (h : storage.ActsLikeMemory view) (state : σ)
  {partly : Memory → Prop}

include h

/-- Making a directory is done, or the attempt leaves what may be left partly. -/
theorem attempts_ensureParent {path : Path} (hpartly : partly (view state)) :
    Attempts view (storage.ensureParent path) state partly () ((view state).makeParent path) := by
  unfold Storage.ensureParent Memory.makeParent
  cases path.directory? with
  | none => exact .pure rfl
  | some directory => exact .of_mayRefuse (h.ensureDirectory directory) rfl hpartly

/-- A file is written with its directory. -/
theorem attempts_place {path : Path} {content : String} (hnothing : partly (view state))
    (hdirectory : partly ((view state).makeParent path)) {next : ExceptT Error (StateM σ) α}
    {a : α} {done : Memory}
    (hnext : ∀ state', view state' = (view state).place path content →
      Attempts view next state' partly a done) :
    Attempts view (do storage.ensureParent path; storage.write path content; next) state partly a
      done := by
  refine .bind (attempts_ensureParent h state hnothing) fun middle hmiddle => ?_
  rw [← hmiddle] at hdirectory
  refine .bind (.of_mayRefuse (h.write path content) (Memory.exec_write _ path content) hdirectory)
    fun state' hstate' => hnext state' ?_
  rw [hstate', hmiddle]
  rfl

/-- A merge is done, or it stops with the lines partly written. -/
theorem attempts_merge (path : Path) (lines : List String) :
    Attempts view (Route.merge storage path lines) state
      ((view state).PartlyWritten (.lines path lines))
      ⟨(Route.withPreamble ((view state).file? path)).isSome,
        Route.missing (Route.opened ((view state).file? path)) lines⟩
      ((view state).afterMerge path lines) := by
  have happend : ∀ state' inserted, view state' = (view state).afterOpening path →
      Attempts view (Route.merge.append storage path lines
        (Route.opened ((view state).file? path)) inserted) state'
        ((view state).PartlyWritten (.lines path lines))
        ⟨inserted, Route.missing (Route.opened ((view state).file? path)) lines⟩
        ((view state).afterMerge path lines) := by
    intro state' inserted hstate'
    have hpartly : (view state).PartlyWritten (.lines path lines) (view state') := by
      rw [hstate']
      exact .opening path lines
    unfold Route.merge.append Memory.afterMerge
    by_cases hnone :
        (Route.missing (Route.opened ((view state).file? path)) lines).isEmpty = true
    · simp only [hnone, if_true]
      exact .pure hstate'
    · simp only [hnone]
      rw [← hstate']
      exact .bind (.of_mayRefuse (h.append path _) (Memory.exec_append _ path _) hpartly)
        fun last hlast => .pure hlast
  unfold Route.merge
  refine .bind (.of_mayRefuse (h.read path) (Memory.exec_read _ path) (.nothing _))
    fun middle hmiddle => ?_
  rw [← hmiddle] at happend ⊢
  cases hopening : Route.withPreamble ((view middle).file? path) with
  | none =>
    rw [Route.opened_of_withPreamble_eq_none hopening] at happend ⊢
    exact happend middle false (Memory.afterOpening_of_withPreamble_eq_none hopening).symm
  | some content =>
    rw [Route.opened_of_withPreamble_eq_some hopening] at happend ⊢
    refine attempts_place h middle (.nothing _) (.directory (.lines path lines))
      fun last hlast => happend last true ?_
    rw [hlast, Memory.afterOpening_of_withPreamble_eq_some hopening]

/-- An output is written as in memory, or left as it was but for its directory and an opening. -/
theorem attempts_deliver (output : Output) :
    Attempts view (Emission.deliver storage output) state ((view state).PartlyWritten output)
      (output.outcome ((view state).file? output.path)) ((view state).afterOutput output) := by
  cases output with
  | file path content =>
    exact attempts_place h state (.nothing _) (.directory (.file path content))
      fun last hlast => .pure hlast
  | starter path content =>
    unfold Emission.deliver
    refine .bind (.of_mayRefuse (h.read path) (Memory.exec_read _ path) (.nothing _))
      fun middle hmiddle => ?_
    rw [← hmiddle]
    change Attempts view _ middle _
      (if ((view middle).file? path).isSome then Outcome.kept else ⟨.created, none⟩)
      (if ((view middle).file? path).isSome then view middle else (view middle).place path content)
    cases ((view middle).file? path).isSome with
    | true => exact .pure rfl
    | false =>
      exact attempts_place h middle (.nothing _) (.directory (.starter path content))
        fun last hlast => .pure hlast
  | lines path lines =>
    exact .bind (attempts_merge h state path lines) fun last hlast => .pure hlast

end outputs

end Scaffold
