import Scaffold.Proofs.Generation.Preview

/-!
# A project under other paths

Files can be given other paths without anything else being changed, as long as different files stay
different and every file stays in its directory (`Path.Renames`). What is done to a project can then
be done to the project under the other paths as well, and comes to the same. Main statement: writing
outputs under the other paths leads to the project that was written, under the other paths
(`afterOutputs_renamed`). The reports say the same of each kind of artifact, of outputs that were
written (`verdicts_emittedLines_renamed`) and of outputs that were looked at
(`verdicts_previewedLines_renamed`).
-/

namespace Scaffold

/-! ## Other paths -/

/-- Among the paths that satisfy `known`, different ones are renamed to different ones and others to
the same, and each stays in its directory. -/
structure Path.Renames (known : Path → Prop) (rename : Path → Path) : Prop where
  /-- Sameness is kept. -/
  same : ∀ p q, known p → known q → (rename p).same (rename q) = p.same q
  /-- The directory is kept. -/
  directory? : ∀ p, known p → (rename p).directory? = p.directory?

/-- A renaming of more paths is one of fewer. -/
theorem Path.Renames.mono {known known' : Path → Prop} {rename : Path → Path}
    (h : Path.Renames known rename) (hknown : ∀ p, known' p → known p) :
    Path.Renames known' rename where
  same p q hp hq := h.same p q (hknown p hp) (hknown q hq)
  directory? p hp := h.directory? p (hknown p hp)

/-- The files with other paths. -/
def relabel (rename : Path → Path) (files : List (Path × String)) : List (Path × String) :=
  files.map fun file => (rename file.1, file.2)

/-- The project with other paths of its files. -/
def Memory.renamed (rename : Path → Path) (memory : Memory) : Memory :=
  { memory with files := relabel rename memory.files }

/-- The output with another path. -/
def Output.renamed (rename : Path → Path) : Output → Output
  | .file path content => .file (rename path) content
  | .starter path content => .starter (rename path) content
  | .lines path wanted => .lines (rename path) wanted

namespace Output

variable (rename : Path → Path) (output : Output)

/-- A renamed output has the renamed path. -/
@[simp] theorem path_renamed : (output.renamed rename).path = rename output.path := by
  cases output <;> rfl

/-- Its outcome over a text is the same. -/
@[simp] theorem outcome_renamed (current : Option String) :
    (output.renamed rename).outcome current = output.outcome current := by
  cases output <;> rfl

/-- Only the path of an output is renamed. -/
theorem renamed_eq_self (h : rename output.path = output.path) :
    output.renamed rename = output := by
  cases output with
  | file path content => exact congrArg (Output.file · content) h
  | starter path content => exact congrArg (Output.starter · content) h
  | lines path wanted => exact congrArg (Output.lines · wanted) h

end Output

variable {known : Path → Prop} {rename : Path → Path} {path : Path}

/-! ## Files -/

section files

variable {files : List (Path × String)}

/-- A renamed path finds among renamed files what the path finds. -/
theorem lookup_relabel (h : Path.Renames known rename)
    (hfiles : ∀ key ∈ files.map Prod.fst, known key) (hpath : known path) :
    Memory.lookup (rename path) (relabel rename files) = Memory.lookup path files := by
  induction files with
  | nil => rfl
  | cons file rest ih =>
    obtain ⟨key, content⟩ := file
    rw [List.map_cons, List.forall_mem_cons] at hfiles
    have hrest : Memory.lookup (rename path) (relabel rename rest) = Memory.lookup path rest :=
      ih hfiles.2
    unfold relabel at hrest ⊢
    rw [List.map_cons, Memory.lookup, Memory.lookup, h.same key path hfiles.1 hpath, hrest]

/-- Inserting under the new name is inserting and then renaming. -/
theorem insert_relabel (h : Path.Renames known rename)
    (hfiles : ∀ key ∈ files.map Prod.fst, known key) (hpath : known path) (content : String) :
    Memory.insert (rename path) content (relabel rename files) =
      relabel rename (Memory.insert path content files) := by
  induction files with
  | nil => rfl
  | cons file rest ih =>
    obtain ⟨key, old⟩ := file
    rw [List.map_cons, List.forall_mem_cons] at hfiles
    have hrest : Memory.insert (rename path) content (relabel rename rest) =
        relabel rename (Memory.insert path content rest) := ih hfiles.2
    unfold relabel at hrest ⊢
    rw [List.map_cons, Memory.insert, Memory.insert, h.same key path hfiles.1 hpath, hrest]
    split_ifs <;> rfl

end files

/-! ## Projects -/

namespace Memory

variable {memory : Memory} {output : Output}

/-- A renaming keeps the configured paths. -/
@[simp] theorem paths_renamed : (memory.renamed rename).paths = memory.paths := rfl

/-- It keeps the tables. -/
@[simp] theorem tables_renamed : (memory.renamed rename).tables = memory.tables := rfl

/-- The paths of renamed files are the renamed paths. -/
theorem keys_renamed (rename : Path → Path) (memory : Memory) :
    (memory.renamed rename).keys = memory.keys.map rename := by
  unfold keys renamed relabel
  rw [List.map_map, List.map_map]
  rfl

/-- Only the paths of the files that are there matter. -/
theorem renamed_congr {rename' : Path → Path} (h : ∀ key ∈ memory.keys, rename key = rename' key) :
    memory.renamed rename = memory.renamed rename' := by
  have hfiles : relabel rename memory.files = relabel rename' memory.files := by
    apply List.map_congr_left
    intro file hfile
    rw [h file.1 (List.mem_map_of_mem hfile)]
  unfold renamed
  rw [hfiles]

/-- A renaming that moves nothing changes nothing. -/
theorem renamed_id (memory : Memory) : memory.renamed (fun path => path) = memory := by
  have hfiles : relabel (fun path => path) memory.files = memory.files := List.map_id' _
  unfold renamed
  rw [hfiles]

/-- Directories are made in a renamed memory as before. -/
theorem makeDirectory_renamed (memory : Memory) (directory : Path) :
    (memory.renamed rename).makeDirectory directory =
      (memory.makeDirectory directory).renamed rename := by
  have hthere : (memory.renamed rename).hasDirectory directory = memory.hasDirectory directory :=
    rfl
  unfold makeDirectory
  rw [hthere]
  split_ifs <;> rfl

section known

variable (h : Path.Renames known rename)

include h

/-- A renamed path has the text that the path has. -/
theorem file?_renamed (hkeys : ∀ key ∈ memory.keys, known key) (hpath : known path) :
    (memory.renamed rename).file? (rename path) = memory.file? path :=
  lookup_relabel h hkeys hpath

/-- Putting a file is compatible with the renaming. -/
theorem put_renamed (hkeys : ∀ key ∈ memory.keys, known key) (hpath : known path)
    (content : String) :
    (memory.renamed rename).put (rename path) content =
      (memory.put path content).renamed rename := by
  unfold put renamed
  dsimp only
  rw [insert_relabel h hkeys hpath]

/-- Making the directory above it is compatible. -/
theorem makeParent_renamed (hpath : known path) :
    (memory.renamed rename).makeParent (rename path) = (memory.makeParent path).renamed rename := by
  unfold makeParent
  rw [h.directory? path hpath]
  cases path.directory? with
  | none => rfl
  | some directory => exact makeDirectory_renamed memory directory

/-- So is placing a file, which does both. -/
theorem place_renamed (hkeys : ∀ key ∈ memory.keys, known key) (hpath : known path)
    (content : String) :
    (memory.renamed rename).place (rename path) content =
      (memory.place path content).renamed rename := by
  unfold place
  rw [makeParent_renamed h hpath]
  exact put_renamed h (by rwa [keys_makeParent]) hpath content

/-- So is appending to it. -/
theorem appendTo_renamed (hkeys : ∀ key ∈ memory.keys, known key) (hpath : known path)
    (lines : List String) :
    (memory.renamed rename).appendTo (rename path) lines =
      (memory.appendTo path lines).renamed rename := by
  unfold appendTo
  rw [file?_renamed h hkeys hpath]
  exact put_renamed h hkeys hpath _

omit h in
/-- Writing a file that is known adds only its path. -/
theorem Wrote.known_keys {after : Memory} {content : String} (h : Wrote memory path content after)
    (hkeys : ∀ key ∈ memory.keys, known key) (hpath : known path) :
    ∀ key ∈ after.keys, known key := by
  intro key hkey
  rw [h.keys] at hkey
  split_ifs at hkey
  · exact hkeys key hkey
  · rcases List.mem_append.mp hkey with hold | hnew
    · exact hkeys key hold
    · rwa [List.mem_singleton.mp hnew]

/-- Hence merging lines is compatible as well. -/
theorem afterMerge_renamed (hkeys : ∀ key ∈ memory.keys, known key) (hpath : known path)
    (lines : List String) :
    (memory.renamed rename).afterMerge (rename path) lines =
      (memory.afterMerge path lines).renamed rename := by
  have hopening : (memory.renamed rename).afterOpening (rename path) =
      (memory.afterOpening path).renamed rename := by
    unfold afterOpening
    rw [file?_renamed h hkeys hpath]
    cases Route.withPreamble (memory.file? path) with
    | none => rfl
    | some content => exact place_renamed h hkeys hpath content
  have hopened : ∀ key ∈ (memory.afterOpening path).keys, known key :=
    (Wrote.afterOpening memory path).known_keys hkeys hpath
  unfold afterMerge
  rw [file?_renamed h hkeys hpath, hopening]
  dsimp only
  split_ifs
  · rfl
  · exact appendTo_renamed h hopened hpath _

/-- Writing an output under its other path leads to the project that was written, under the other
paths. -/
theorem afterOutput_renamed (hkeys : ∀ key ∈ memory.keys, known key) (hpath : known output.path) :
    (memory.renamed rename).afterOutput (output.renamed rename) =
      (memory.afterOutput output).renamed rename := by
  cases output with
  | file path content => exact place_renamed h hkeys hpath content
  | starter path content =>
    rw [Output.path_starter] at hpath
    unfold afterOutput Output.renamed
    dsimp only
    rw [file?_renamed h hkeys hpath]
    split_ifs
    · rfl
    · exact place_renamed h hkeys hpath content
  | lines path wanted => exact afterMerge_renamed h hkeys hpath wanted

/-- The project that outputs lead to has known paths, and under the other paths it is what the
outputs lead to under theirs. -/
theorem afterOutputs_renamed {outputs : List Output} (hkeys : ∀ key ∈ memory.keys, known key)
    (hpaths : ∀ output ∈ outputs, known output.path) :
    (memory.renamed rename).afterOutputs (outputs.map (Output.renamed rename)) =
        (memory.afterOutputs outputs).renamed rename ∧
      ∀ key ∈ (memory.afterOutputs outputs).keys, known key := by
  induction outputs generalizing memory with
  | nil => exact ⟨rfl, hkeys⟩
  | cons output rest ih =>
    rw [List.forall_mem_cons] at hpaths
    have hafter : ∀ key ∈ (memory.afterOutput output).keys, known key :=
      (memory.wrote_afterOutput output).known_keys hkeys hpaths.1
    unfold afterOutputs at ih ⊢
    rw [List.map_cons, List.foldl_cons, List.foldl_cons, afterOutput_renamed h hkeys hpaths.1]
    exact ih hafter hpaths.2

end known

end Memory

/-! ## Reports -/

/-- What a line says of a kind of artifact. -/
def ReportLine.verdict (line : ReportLine) : Status × Option ArtifactKind :=
  (line.status, line.kind)

namespace Emission

variable {memory : Memory} {entries : List (ArtifactKind × Output)}

/-- The verdict of a line is its status and kind; the path is no part of it. -/
theorem verdict_line (outcome : Outcome) (kind : ArtifactKind) (path : Path) :
    (outcome.line kind path).verdict = (outcome.status, some kind) := rfl

/-- The outputs of an emission with other paths. -/
def renamed (rename : Path → Path) (entries : List (ArtifactKind × Output)) :
    List (ArtifactKind × Output) :=
  entries.map fun entry => (entry.1, entry.2.renamed rename)

/-- The outputs of renamed entries are the renamed outputs. -/
theorem map_snd_renamed (rename : Path → Path) (entries : List (ArtifactKind × Output)) :
    (renamed rename entries).map Prod.snd =
      (entries.map Prod.snd).map (Output.renamed rename) := by
  unfold renamed
  rw [List.map_map, List.map_map]
  rfl

/-- Renamed outputs are reported with the same verdicts. -/
theorem verdicts_emittedLines_renamed (h : Path.Renames known rename)
    (hkeys : ∀ key ∈ memory.keys, known key) (hpaths : ∀ entry ∈ entries, known entry.2.path) :
    (emittedLines (memory.renamed rename) (renamed rename entries)).map ReportLine.verdict =
      (emittedLines memory entries).map ReportLine.verdict := by
  induction entries generalizing memory with
  | nil => rfl
  | cons entry rest ih =>
    obtain ⟨kind, output⟩ := entry
    rw [List.forall_mem_cons] at hpaths
    have hrest := ih ((memory.wrote_afterOutput output).known_keys hkeys hpaths.1) hpaths.2
    rw [← Memory.afterOutput_renamed h hkeys hpaths.1] at hrest
    unfold renamed at hrest ⊢
    rw [List.map_cons, emittedLines, emittedLines, List.map_cons, List.map_cons, hrest,
      verdict_line, verdict_line, Output.outcome_renamed, Output.path_renamed,
      Memory.file?_renamed h hkeys hpaths.1]

/-- A preview foresees the same text under the new name. -/
theorem foreseenText_renamed (h : Path.Renames known rename) {expected : Expected}
    (hkeys : ∀ key ∈ memory.keys, known key) (hexpected : ∀ key ∈ expected.map Prod.fst, known key)
    (hpath : known path) :
    foreseenText (memory.renamed rename) (relabel rename expected) (rename path) =
      foreseenText memory expected path := by
  unfold foreseenText
  rw [Expected.content?_eq_lookup, Expected.content?_eq_lookup, lookup_relabel h hexpected hpath,
    Memory.file?_renamed h hkeys hpath]

/-- It foresees the same outcome, and the same files renamed. -/
theorem previewed_renamed (h : Path.Renames known rename) {expected : Expected}
    (hkeys : ∀ key ∈ memory.keys, known key) (hexpected : ∀ key ∈ expected.map Prod.fst, known key)
    {output : Output} (hpath : known output.path) :
    previewed (memory.renamed rename) (relabel rename expected) (output.renamed rename) =
      ((previewed memory expected output).1,
        relabel rename (previewed memory expected output).2) := by
  cases output with
  | file path content => rfl
  | starter path content =>
    rw [Output.path_starter] at hpath
    unfold previewed Output.renamed
    dsimp only
    rw [Memory.file?_renamed h hkeys hpath]
  | lines path wanted =>
    rw [Output.path_lines] at hpath
    unfold previewed Output.renamed
    dsimp only
    rw [foreseenText_renamed h hkeys hexpected hpath, Expected.set_eq_insert,
      Expected.set_eq_insert, insert_relabel h hexpected hpath]

/-- What a preview expects stays within the known paths. -/
theorem known_previewed {expected : Expected} (hexpected : ∀ key ∈ expected.map Prod.fst, known key)
    {output : Output} (hpath : known output.path) :
    ∀ key ∈ (previewed memory expected output).2.map Prod.fst, known key := by
  cases output with
  | file path content => exact hexpected
  | starter path content => exact hexpected
  | lines path wanted =>
    unfold previewed
    dsimp only
    rw [Expected.set_eq_insert, Memory.keys_insert]
    split_ifs
    · exact hexpected
    · intro key hkey
      rcases List.mem_append.mp hkey with hold | hnew
      · exact hexpected key hold
      · rwa [List.mem_singleton.mp hnew]

/-- Renamed outputs are previewed with the same verdicts, by induction on them. -/
theorem verdicts_previewedLines_renamed (h : Path.Renames known rename) {expected : Expected}
    (hkeys : ∀ key ∈ memory.keys, known key) (hexpected : ∀ key ∈ expected.map Prod.fst, known key)
    (hpaths : ∀ entry ∈ entries, known entry.2.path) :
    (previewedLines (memory.renamed rename) (relabel rename expected) (renamed rename entries)).map
        ReportLine.verdict =
      (previewedLines memory expected entries).map ReportLine.verdict := by
  induction entries generalizing expected with
  | nil => rfl
  | cons entry rest ih =>
    obtain ⟨kind, output⟩ := entry
    rw [List.forall_mem_cons] at hpaths
    have hforeseen : ∀ key ∈ (previewed memory expected output).2.map Prod.fst, known key :=
      known_previewed hexpected hpaths.1
    have hrest := ih hforeseen hpaths.2
    unfold renamed at hrest ⊢
    rw [List.map_cons, previewedLines, previewedLines, List.map_cons, List.map_cons,
      previewed_renamed h hkeys hexpected hpaths.1, hrest, verdict_line, verdict_line]

end Emission

end Scaffold
