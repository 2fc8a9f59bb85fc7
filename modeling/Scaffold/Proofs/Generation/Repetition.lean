import Scaffold.Proofs.Generation.Delivery

/-!
# Writing the same outputs again

Lines that were merged are there, and so is a starter: what an output asks for is fulfilled after it
was written, and stays so under outputs of the same sort (`Fulfills.afterOutput`). Outputs for one
file that are all whole files, or none of them, have the same effect once as twice
(`contentAfterAll_idem`).
-/

namespace Scaffold

/-! ## One file -/

namespace Output

/-- The file has what the output asks for; a whole file is written in any case. -/
def IsFulfilled (current : Option String) : Output → Prop
  | .file .. => True
  | .starter .. => current.isSome = true
  | .lines _ wanted => ∃ content, current = some content ∧ Route.Holds content wanted

/-- No line of the output has a line feed in it. -/
def HasSingleLines : Output → Prop
  | .file .. | .starter .. => True
  | .lines _ wanted => ∀ line ∈ wanted, '\n' ∉ line.toList

variable {current : Option String} {output other : Output}

/-- Nothing is demanded of whole files. -/
theorem isFulfilled_of_isFile (h : output.isFile = true) : output.IsFulfilled current := by
  obtain ⟨path, content, rfl⟩ := exists_eq_file h
  trivial

/-- What an output leaves fulfills it. -/
theorem isFulfilled_contentAfter (h : output.HasSingleLines) (current : Option String) :
    output.IsFulfilled (some (output.contentAfter current)) := by
  cases output with
  | file path content => trivial
  | starter path content => rfl
  | lines path wanted => exact ⟨_, rfl, Route.holds_merged h current⟩

/-- Outputs of the other two sorts keep what was asked for. -/
theorem IsFulfilled.contentAfter (h : output.IsFulfilled current) (hother : other.isFile = false) :
    output.IsFulfilled (some (other.contentAfter current)) := by
  cases output with
  | file path content => trivial
  | starter path content => rfl
  | lines path wanted =>
    obtain ⟨content, rfl, hholds⟩ := h
    cases other with
    | file => exact Bool.noConfusion hother
    | starter => exact ⟨content, rfl, hholds⟩
    | lines _ more => exact ⟨_, rfl, hholds.merged more⟩

/-- What is fulfilled changes nothing, unless it is a whole file. -/
theorem IsFulfilled.contentAfter_eq (h : output.IsFulfilled current)
    (hfile : output.isFile = false) : some (output.contentAfter current) = current := by
  cases output with
  | file path content => exact Bool.noConfusion hfile
  | starter path content =>
    obtain ⟨there, rfl⟩ := Option.isSome_iff_exists.mp h
    rfl
  | lines path wanted =>
    obtain ⟨content, rfl, hholds⟩ := h
    exact congrArg some hholds.merged_eq

/-- What is fulfilled is reported as written or as left out, never as added to. -/
theorem IsFulfilled.outcome_status_ne (h : output.IsFulfilled current) :
    (output.outcome current).status ≠ .updated := by
  cases output with
  | file path content => exact Status.noConfusion
  | starter path content =>
    obtain ⟨there, rfl⟩ := Option.isSome_iff_exists.mp h
    exact Status.noConfusion
  | lines path wanted =>
    obtain ⟨content, rfl, hholds⟩ := h
    have hnone : Route.missing (Route.opened (some content)) wanted = [] := by
      rw [Route.opened_of_startsAsScript hholds.script, hholds.missing_eq]
    change (Outcome.ofLines .updated
      (Route.missing (Route.opened (some content)) wanted)).status ≠ _
    rw [hnone]
    exact Status.noConfusion

end Output

section contentAfterAll

variable {current : Option String} {output : Output} {outputs : List Output}

/-- An output stays fulfilled whatever lines and starters follow. -/
theorem Output.IsFulfilled.contentAfterAll (h : output.IsFulfilled current)
    (houtputs : ∀ other ∈ outputs, other.isFile = false) :
    output.IsFulfilled (contentAfterAll current outputs) := by
  induction outputs generalizing current with
  | nil => exact h
  | cons other rest ih =>
    rw [List.forall_mem_cons] at houtputs
    exact ih (h.contentAfter houtputs.1) houtputs.2

/-- After outputs without whole files each of them is fulfilled. -/
theorem isFulfilled_contentAfterAll (hsingle : ∀ other ∈ outputs, other.HasSingleLines)
    (houtputs : ∀ other ∈ outputs, other.isFile = false) (h : output ∈ outputs) :
    output.IsFulfilled (contentAfterAll current outputs) := by
  induction outputs generalizing current with
  | nil => exact absurd h List.not_mem_nil
  | cons other rest ih =>
    rw [List.forall_mem_cons] at hsingle houtputs
    rcases List.mem_cons.mp h with rfl | hrest
    · exact (output.isFulfilled_contentAfter hsingle.1 current).contentAfterAll houtputs.2
    · exact ih hsingle.2 houtputs.2 hrest

/-- Outputs that are fulfilled change nothing. -/
theorem contentAfterAll_eq_self (houtputs : ∀ other ∈ outputs, other.isFile = false)
    (h : ∀ other ∈ outputs, other.IsFulfilled current) :
    contentAfterAll current outputs = current := by
  induction outputs with
  | nil => rfl
  | cons other rest ih =>
    rw [List.forall_mem_cons] at h houtputs
    unfold contentAfterAll at ih ⊢
    rw [List.foldl_cons, h.1.contentAfter_eq houtputs.1]
    exact ih houtputs.2 h.2

/-- Of whole files the last one remains, whatever was there. -/
theorem contentAfterAll_congr (houtputs : ∀ other ∈ outputs, other.isFile = true)
    (hne : outputs ≠ []) (current current' : Option String) :
    contentAfterAll current outputs = contentAfterAll current' outputs := by
  cases outputs with
  | nil => exact absurd rfl hne
  | cons other rest =>
    obtain ⟨path, content, rfl⟩ := Output.exists_eq_file (houtputs other List.mem_cons_self)
    rfl

/-- The same outputs for one file have the same effect once as twice. -/
theorem contentAfterAll_idem (hsingle : ∀ other ∈ outputs, other.HasSingleLines)
    (hsort : (∀ other ∈ outputs, other.isFile = true) ∨ ∀ other ∈ outputs, other.isFile = false)
    (current : Option String) :
    contentAfterAll (contentAfterAll current outputs) outputs =
      contentAfterAll current outputs := by
  rcases hsort with hfiles | hothers
  · by_cases hnil : outputs = []
    · rw [hnil]
      rfl
    · exact contentAfterAll_congr hfiles hnil _ _
  · exact contentAfterAll_eq_self hothers fun other hother =>
      isFulfilled_contentAfterAll hsingle hothers hother

end contentAfterAll

/-! ## A whole project -/

/-- Outputs for the same file are all whole files, or none of them is. -/
def SortsApart (outputs : List Output) : Prop :=
  ∀ output ∈ outputs, ∀ other ∈ outputs,
    output.path.same other.path = true → output.isFile = other.isFile

namespace Memory

variable {memory : Memory} {outputs : List Output} {output : Output}

/-- The project has what the outputs ask for. -/
def Fulfills (memory : Memory) (outputs : List Output) : Prop :=
  ∀ output ∈ outputs, output.IsFulfilled (memory.file? output.path)

/-- Among the outputs for one file all are whole files, or none is. -/
theorem isFile_of_mem_filter (hapart : SortsApart outputs) (path : Path) :
    (∀ output ∈ outputs.filter (·.path.same path), output.isFile = true) ∨
      ∀ output ∈ outputs.filter (·.path.same path), output.isFile = false := by
  by_cases hfile : ∃ output ∈ outputs.filter (·.path.same path), output.isFile = true
  · obtain ⟨output, houtput, htrue⟩ := hfile
    left
    intro other hother
    rw [List.mem_filter] at houtput hother
    have hsame : output.path.same other.path = true := by
      rw [Path.same_iff, Path.same_iff.mp houtput.2, Path.same_iff.mp hother.2]
    rw [← hapart output houtput.1 other hother.1 hsame, htrue]
  · right
    intro other hother
    rw [Bool.eq_false_iff]
    intro htrue
    exact hfile ⟨other, hother, htrue⟩

/-- After the outputs were written the project has what they ask for. -/
theorem fulfills_afterOutputs (hapart : SortsApart outputs)
    (hsingle : ∀ output ∈ outputs, output.HasSingleLines) (memory : Memory) :
    (memory.afterOutputs outputs).Fulfills outputs := by
  intro output houtput
  have hmem : output ∈ outputs.filter (·.path.same output.path) :=
    List.mem_filter.mpr ⟨houtput, Path.same_refl _⟩
  rw [file?_afterOutputs]
  rcases isFile_of_mem_filter hapart output.path with hfiles | hothers
  · exact Output.isFulfilled_of_isFile (hfiles output hmem)
  · exact isFulfilled_contentAfterAll
      (fun other hother => hsingle other (List.mem_of_mem_filter hother)) hothers hmem

/-- Writing one of the outputs keeps what the others ask for. -/
theorem Fulfills.afterOutput (h : memory.Fulfills outputs) (hapart : SortsApart outputs)
    (houtput : output ∈ outputs) : (memory.afterOutput output).Fulfills outputs := by
  intro other hother
  rw [file?_afterOutput]
  split_ifs with hsame
  · by_cases hfile : output.isFile = true
    · rw [hapart output houtput other hother hsame] at hfile
      exact Output.isFulfilled_of_isFile hfile
    · exact (h other hother).contentAfter (Bool.eq_false_iff.mpr hfile)
  · exact h other hother

/-- Where everything is fulfilled, no line of the report says that something was added to. -/
theorem Fulfills.status_ne_updated (h : memory.Fulfills outputs) (hapart : SortsApart outputs)
    {entries : List (ArtifactKind × Output)} (hentries : ∀ entry ∈ entries, entry.2 ∈ outputs) :
    ∀ line ∈ Emission.emittedLines memory entries, line.status ≠ .updated := by
  induction entries generalizing memory with
  | nil => exact fun line hline => absurd hline List.not_mem_nil
  | cons entry rest ih =>
    obtain ⟨kind, output⟩ := entry
    rw [List.forall_mem_cons] at hentries
    intro line hline
    rcases List.mem_cons.mp hline with rfl | hrest
    · exact (h output hentries.1).outcome_status_ne
    · exact ih (h.afterOutput hapart hentries.1) hentries.2 line hrest

end Memory

end Scaffold
