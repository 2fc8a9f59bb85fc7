import Scaffold.Proofs.Generation.Delivery

/-!
# Looking at outputs

A dry run looks at outputs and keeps expected contents where a real run writes files. The two differ
in the text of route files: the dry run knows no opening and separates lines in another way. What
they have in common is which lines are there, the opening apart, and nothing else decides what is
missing (`Foresees`).

One output keeps them in step (`Foresees.step`), as long as the outputs for one file do not get in
each other's way (`Independent`); so the report on a whole list of outputs is foreseen
(`previewedLines_eq`).
-/

namespace Scaffold

open Text

/-! ## Expected contents -/

namespace Emission

/-- What is expected at a path is looked up as in a project. -/
theorem Expected.content?_eq_lookup (path : Path) (expected : Expected) :
    expected.content? path = Memory.lookup path expected := by
  induction expected with
  | nil => rfl
  | cons entry rest ih =>
    obtain ⟨key, content⟩ := entry
    rw [Expected.content?, Memory.lookup, ih]

/-- It is set as in a project. -/
theorem Expected.set_eq_insert (path : Path) (content : String) (expected : Expected) :
    expected.set path content = Memory.insert path content expected := by
  induction expected with
  | nil => rfl
  | cons entry rest ih =>
    obtain ⟨key, old⟩ := entry
    rw [Expected.set, Memory.insert, ih]

/-- After it was set, that is expected there, and elsewhere what was expected before. -/
theorem Expected.content?_set (path other : Path) (content : String) (expected : Expected) :
    (expected.set path content).content? other =
      if path.same other then some content else expected.content? other := by
  rw [content?_eq_lookup, set_eq_insert, Memory.lookup_insert, ← content?_eq_lookup]

/-! ## Looking at one output -/

/-- The content that a file is expected to have, where `memory` is the project before the run. -/
def foreseenText (memory : Memory) (expected : Expected) (path : Path) : String :=
  (expected.content? path).getD ((memory.file? path).getD "")

/-- What would become of an output, and the contents expected after it. -/
def previewed (memory : Memory) (expected : Expected) : Output → Outcome × Expected
  | .file _ _ => (⟨.planned, none⟩, expected)
  | .starter path _ =>
    (if (memory.file? path).isSome then .kept else ⟨.planned, none⟩, expected)
  | .lines path lines =>
    let content := foreseenText memory expected path
    let added := Route.missing content lines
    (.ofLines .planned added, expected.set path (withLines content added))

/-- Looking at an output leaves the project as it is. -/
theorem exec_preview (memory : Memory) (expected : Expected) (output : Output) :
    memory.exec (preview Memory.storage expected output) =
      (.ok (previewed memory expected output), memory) := by
  cases output with
  | file path content => rfl
  | starter path content =>
    unfold preview previewed
    rw [Memory.exec_bind_ok (Memory.exec_read memory path)]
    dsimp only
    split_ifs <;> rfl
  | lines path wanted =>
    have hcontent : memory.exec (expectedContent Memory.storage expected path) =
        (.ok (foreseenText memory expected path), memory) := by
      unfold expectedContent foreseenText
      cases expected.content? path with
      | some content => rfl
      | none => exact Memory.exec_bind_ok (Memory.exec_read memory path)
    unfold preview
    rw [Memory.exec_bind_ok hcontent]
    rfl

/-- The lines of the report on the outputs, looked at one after another. -/
def previewedLines (memory : Memory) (expected : Expected) :
    List (ArtifactKind × Output) → List ReportLine
  | [] => []
  | (kind, output) :: rest =>
    (previewed memory expected output).1.line kind output.path ::
      previewedLines memory (previewed memory expected output).2 rest

/-- Looking at outputs goes through to the end and leaves the project as it is. -/
theorem run_emitAll_dry (memory : Memory) (expected : Expected)
    (outputs : List (ArtifactKind × Output)) :
    (emitAll Memory.storage true expected outputs).run memory =
      ((previewedLines memory expected outputs, .ok ()), memory) := by
  induction outputs generalizing expected with
  | nil => rfl
  | cons entry rest ih =>
    obtain ⟨kind, output⟩ := entry
    have hemit : (emit Memory.storage true expected output).run.run memory =
        (.ok (previewed memory expected output), memory) :=
      exec_preview memory expected output
    rw [emitAll, run_bind hemit]
    dsimp only
    rw [run_bind (ih (previewed memory expected output).2)]
    rfl

end Emission

/-! ## What a dry run says of a real one -/

/-- What a dry run says in the place of a status. -/
def Status.asPlanned : Status → Status
  | .created | .updated => .planned
  | status => status

/-- The outcome as a dry run says it. -/
def Outcome.asPlanned (outcome : Outcome) : Outcome :=
  { outcome with status := outcome.status.asPlanned }

/-- The line as a dry run says it. -/
def ReportLine.asPlanned (line : ReportLine) : ReportLine :=
  { line with status := line.status.asPlanned }

namespace Output

/-- The output is lines for a shared file. -/
def isLines : Output → Bool
  | .lines .. => true
  | .file .. | .starter .. => false

/-- The output is a starter. -/
def isStarter : Output → Bool
  | .starter .. => true
  | .file .. | .lines .. => false

/-- What is lines has a path and the lines. -/
theorem exists_eq_lines {output : Output} (h : output.isLines = true) :
    ∃ path wanted, output = lines path wanted := by
  cases output with
  | lines path wanted => exact ⟨path, wanted, rfl⟩
  | file => exact Bool.noConfusion h
  | starter => exact Bool.noConfusion h

/-- What is a starter has a path and a content. -/
theorem exists_eq_starter {output : Output} (h : output.isStarter = true) :
    ∃ path content, output = starter path content := by
  cases output with
  | starter path content => exact ⟨path, content, rfl⟩
  | file => exact Bool.noConfusion h
  | lines => exact Bool.noConfusion h

/-- No line of the output would be taken for the opening of a script. -/
def SparesPreamble : Output → Prop
  | .lines _ wanted => ∀ raw ∈ wanted, trim raw ≠ Route.preamble
  | .file .. | .starter .. => True

end Output

/-- What becomes of the output `later` does not depend on whether `earlier` was written or only
looked at: they are for different files, or the later one is a whole file, or both are lines. -/
def Independent (earlier later : Output) : Prop :=
  earlier.path.same later.path = true →
    later.isFile = true ∨ (earlier.isLines = true ∧ later.isLines = true)

/-- The two texts have the same lines, the opening of a script apart. -/
def SameLines (a b : String) : Prop :=
  ∀ line, line ≠ Route.preamble → (line ∈ contentLines a ↔ line ∈ contentLines b)

/-- What a dry run from `memory` expects agrees with the project `real` as far as the output asks.
-/
def Foresees (memory : Memory) (expected : Emission.Expected) (real : Memory) : Output → Prop
  | .file .. => True
  | .starter path _ => (real.file? path).isSome = (memory.file? path).isSome
  | .lines path _ =>
    SameLines ((real.file? path).getD "") (Emission.foreseenText memory expected path)

section foresees

variable {memory real : Memory} {expected : Emission.Expected} {output later : Output}

/-- A starter is foreseen if its file is there in both projects or in none. -/
theorem foresees_starter {path : Path} {content : String} :
    Foresees memory expected real (.starter path content) ↔
      (real.file? path).isSome = (memory.file? path).isSome := Iff.rfl

/-- Lines are foreseen if the texts have the same lines. -/
theorem foresees_lines {path : Path} {wanted : List String} :
    Foresees memory expected real (.lines path wanted) ↔
      SameLines ((real.file? path).getD "") (Emission.foreseenText memory expected path) := Iff.rfl

/-- At the start nothing has been written, so that everything is foreseen. -/
theorem foresees_nil (memory : Memory) (output : Output) : Foresees memory [] memory output := by
  cases output with
  | file => trivial
  | starter => rfl
  | lines path wanted => exact fun line _ => Iff.rfl

/-- The same lines are missing from both texts. -/
theorem missing_eq_of_sameLines {current : Option String} {content : String} {wanted : List String}
    (h : SameLines (current.getD "") content) (hspare : ∀ raw ∈ wanted, trim raw ≠ Route.preamble) :
    Route.missing content wanted = Route.missing (Route.opened current) wanted := by
  apply Route.unseen_congr
  intro raw hraw
  rw [Route.mem_contentLines_opened_of_ne (hspare raw hraw), h _ (hspare raw hraw)]

/-- What becomes of an output is foreseen. -/
theorem Foresees.outcome_eq (h : Foresees memory expected real output)
    (hspare : output.SparesPreamble) :
    (Emission.previewed memory expected output).1 =
      (output.outcome (real.file? output.path)).asPlanned := by
  cases output with
  | file path content => rfl
  | starter path content =>
    rw [foresees_starter] at h
    change (if (memory.file? path).isSome then Outcome.kept else ⟨.planned, none⟩) =
      (if (real.file? path).isSome then Outcome.kept else ⟨.created, none⟩).asPlanned
    rw [h]
    split_ifs <;> rfl
  | lines path wanted =>
    rw [foresees_lines] at h
    change Outcome.ofLines .planned
      (Route.missing (Emission.foreseenText memory expected path) wanted) =
      (Outcome.ofLines .updated
        (Route.missing (Route.opened (real.file? path)) wanted)).asPlanned
    rw [missing_eq_of_sameLines h hspare]
    unfold Outcome.ofLines
    split_ifs <;> rfl

/-- Both texts have the same lines after the missing ones were added, each in its way. -/
theorem SameLines.added {current : Option String} {content : String} {wanted : List String}
    (h : SameLines (current.getD "") content) (hspare : ∀ raw ∈ wanted, trim raw ≠ Route.preamble) :
    SameLines (Route.merged current wanted)
      (Emission.withLines content (Route.missing content wanted)) := by
  intro line hline
  unfold Route.merged
  rw [Route.contentLines_grown, Route.contentLines_withLines, List.mem_append, List.mem_append,
    Route.mem_contentLines_opened_of_ne hline, h line hline, missing_eq_of_sameLines h hspare]

/-- Looking at an output changes what is expected of its file only. -/
theorem foreseenText_previewed {path : Path} (h : output.path.same path = false) :
    Emission.foreseenText memory (Emission.previewed memory expected output).2 path =
      Emission.foreseenText memory expected path := by
  cases output with
  | file => rfl
  | starter => rfl
  | lines other wanted =>
    rw [Output.path_lines] at h
    unfold Emission.foreseenText Emission.previewed
    dsimp only
    rw [Emission.Expected.content?_set, h]
    rfl

/-- Merging lines on one side and looking at them on the other keeps the file foreseen. -/
theorem Foresees.step_lines {path other : Path} {wanted more : List String}
    (h : Foresees memory expected real (.lines path wanted))
    (hspare : ∀ raw ∈ wanted, trim raw ≠ Route.preamble) (hsame : path.same other = true) :
    Foresees memory (Emission.previewed memory expected (.lines path wanted)).2
      (real.afterOutput (.lines path wanted)) (.lines other more) := by
  have hreal : (real.afterOutput (.lines path wanted)).file? other =
      some (Route.merged (real.file? path) wanted) := by
    rw [Memory.file?_afterOutput, Output.path_lines, if_pos hsame, ← Memory.file?_congr hsame]
    rfl
  have hexpected : Emission.foreseenText memory
      (Emission.previewed memory expected (.lines path wanted)).2 other =
        Emission.withLines (Emission.foreseenText memory expected path)
          (Route.missing (Emission.foreseenText memory expected path) wanted) := by
    unfold Emission.previewed
    dsimp only
    rw [Emission.foreseenText, Emission.Expected.content?_set, if_pos hsame]
    rfl
  rw [foresees_lines, hreal, hexpected]
  exact SameLines.added h hspare

/-- Writing an output on one side and looking at it on the other keeps the two in step. -/
theorem Foresees.step (hlater : Foresees memory expected real later)
    (h : Foresees memory expected real output) (hspare : output.SparesPreamble)
    (hindependent : Independent output later) :
    Foresees memory (Emission.previewed memory expected output).2 (real.afterOutput output)
      later := by
  by_cases hsame : output.path.same later.path = true
  · rcases hindependent hsame with hfile | ⟨houtput, hlines⟩
    · obtain ⟨path, content, rfl⟩ := Output.exists_eq_file hfile
      trivial
    · -- both merge into the same file
      obtain ⟨path, wanted, rfl⟩ := Output.exists_eq_lines houtput
      obtain ⟨other, more, rfl⟩ := Output.exists_eq_lines hlines
      rw [Output.path_lines, Output.path_lines] at hsame
      exact h.step_lines hspare hsame
  · -- the files are different, and nothing that the later output asks for has changed
    rw [Bool.not_eq_true] at hsame
    have hreal : (real.afterOutput output).file? later.path = real.file? later.path := by
      rw [Memory.file?_afterOutput, hsame]
      rfl
    cases later with
    | file => trivial
    | starter path content =>
      rw [Output.path_starter] at hreal
      rw [foresees_starter] at hlater ⊢
      rw [hreal, hlater]
    | lines path wanted =>
      rw [Output.path_lines] at hreal hsame
      rw [foresees_lines] at hlater ⊢
      rw [hreal, foreseenText_previewed hsame]
      exact hlater

/-- The report on a list of outputs is foreseen. -/
theorem previewedLines_eq {entries : List (ArtifactKind × Output)}
    (hindependent : (entries.map Prod.snd).Pairwise Independent)
    (hspare : ∀ entry ∈ entries, entry.2.SparesPreamble)
    (hforesees : ∀ entry ∈ entries, Foresees memory expected real entry.2) :
    Emission.previewedLines memory expected entries =
      (Emission.emittedLines real entries).map ReportLine.asPlanned := by
  induction entries generalizing expected real with
  | nil => rfl
  | cons entry rest ih =>
    obtain ⟨kind, output⟩ := entry
    rw [List.map_cons, List.pairwise_cons] at hindependent
    rw [List.forall_mem_cons] at hspare hforesees
    have hrest : ∀ entry ∈ rest, Foresees memory (Emission.previewed memory expected output).2
        (real.afterOutput output) entry.2 := fun entry hentry =>
      (hforesees.2 entry hentry).step hforesees.1 hspare.1
        (hindependent.1 entry.2 (List.mem_map_of_mem hentry))
    rw [Emission.previewedLines, Emission.emittedLines, List.map_cons,
      ih hindependent.2 hspare.2 hrest, hforesees.1.outcome_eq hspare.1]
    rfl

end foresees

end Scaffold
