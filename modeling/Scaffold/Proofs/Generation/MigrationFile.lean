import Scaffold.Proofs.Generation.Running
import Scaffold.Proofs.Path

/-!
# The file of a migration

A migration is written to a file whose name holds the name that the guard looks for, in the
directory where the guard looks. So once a plan that creates a table was carried out, something is
in the way of every later migration for the table (`obstacle?_ne_none_of_plansTable`). A slash in
the name of the table would put the file elsewhere.
-/

namespace Scaffold

/-! ## The name of the file -/

namespace Timestamp

variable {c : Char}

/-- A number that is filled up with zeros is made of digits. -/
theorem mem_padded {width n : Nat} (h : c ∈ (padded width n).toList) : c.isDigit = true := by
  unfold padded at h
  rw [String.toList_ofList] at h
  rcases List.mem_append.mp h with hzero | hdigit
  · rw [List.eq_of_mem_replicate hzero]
    rfl
  · exact Nat.isDigit_of_mem_toDigits (by decide) (by decide) hdigit

/-- A padded number holds digits only. -/
theorem not_mem_padded (h : c.isDigit = false) (width n : Nat) : c ∉ (padded width n).toList := by
  intro hmem
  rw [mem_padded hmem] at h
  cases h

/-- A time holds digits, underscores and the sign of a year. -/
theorem not_mem_stamp (hdigit : c.isDigit = false) (hsign : c ∉ ['_', '-', '+'])
    (timestamp : Timestamp) : c ∉ timestamp.stamp.toList := by
  simp only [List.mem_cons, List.not_mem_nil, or_false, not_or] at hsign
  have hyear : c ∉ (yearText timestamp.year).toList := by
    unfold yearText
    split_ifs <;> simp [not_mem_padded hdigit, hsign]
  simp [stamp, hyear, not_mem_padded hdigit, hsign]

/-- A time is written without slashes. -/
theorem slash_not_mem_stamp (timestamp : Timestamp) : '/' ∉ timestamp.stamp.toList :=
  not_mem_stamp (by decide) (by decide) timestamp

end Timestamp

/-- The name of the file of a migration that creates a table. -/
def Timestamp.migrationName (timestamp : Timestamp) (table : String) : String :=
  timestamp.stamp ++ "_create_" ++ table ++ "_table.php"

section migrationName

variable (timestamp : Timestamp) {table : String}

/-- The name of a migration has an underscore. -/
theorem underscore_mem_migrationName : '_' ∈ (timestamp.migrationName table).toList := by
  simp [Timestamp.migrationName]

/-- The name of a migration is that of a file if the table has no slash. -/
theorem isFileName_migrationName (h : '/' ∉ table.toList) :
    Path.IsFileName (timestamp.migrationName table) := by
  refine Path.isFileName_of_mem ?_ (underscore_mem_migrationName timestamp) (by decide)
  simp [Timestamp.migrationName, timestamp.slash_not_mem_stamp, h]

/-- The guard recognizes the file by its name. -/
theorem contains_migrationName :
    Text.contains (timestamp.migrationName table) (Schema.logicalName table) = true := by
  unfold Text.contains
  rw [Text.occursIn_iff_infix]
  refine ⟨(timestamp.stamp ++ "_").toList, ".php".toList, ?_⟩
  simp [Timestamp.migrationName, Schema.logicalName]

end migrationName

/-- The name of the file of the migration that an entity plans. -/
def Entity.migrationFile (entity : Entity) (timestamp : Timestamp) : String :=
  (entity.migration timestamp).fileStem ++ ".php"

/-- The migration for an entity is named after its table. -/
theorem Entity.migrationFile_eq (entity : Entity) (timestamp : Timestamp) :
    entity.migrationFile timestamp = timestamp.migrationName entity.table := by
  rw [← String.toList_inj]
  simp [migrationFile, migration, Schema.logicalName, Timestamp.migrationName]

/-- Its file has a name if the table of the entity has no slash. -/
theorem isFileName_migrationFile {entity : Entity} (timestamp : Timestamp)
    (h : '/' ∉ entity.table.toList) : Path.IsFileName (entity.migrationFile timestamp) := by
  rw [entity.migrationFile_eq]
  exact isFileName_migrationName timestamp h

/-! ## The file in its directory -/

/-- Where the file of a migration is, the guard finds it. -/
theorem Memory.obstacle?_ne_none_of_file {memory : Memory} {table : String} (timestamp : Timestamp)
    (hslash : '/' ∉ table.toList)
    (h : (memory.file? (memory.paths.migrations.child
      (timestamp.migrationName table))).isSome = true) :
    memory.obstacle? table ≠ none := by
  intro hnone
  rw [file?_isSome_iff] at h
  obtain ⟨key, hkey, hsame⟩ := h
  rw [Path.same_iff, Path.components_child _ (isFileName_migrationName timestamp hslash)] at hsame
  obtain ⟨directory, hparent, hdirectory⟩ := Path.exists_parent?_eq_some hsame
  refine (obstacle?_eq_none_iff.mp hnone).2 (timestamp.migrationName table) ?_
  rw [mem_artifacts]
  refine ⟨memory.paths.migrations, rfl, key, hkey, ?_, ?_, contains_migrationName timestamp⟩
  · unfold liesIn
    rw [hparent]
    exact Path.same_iff.mpr hdirectory
  · exact Path.fileName?_of_components hsame

section plansTable

variable {memory : Memory} {config : Config} {timestamp : Timestamp} {entities : List Entity}
  {kinds : List ArtifactKind} {plan : Plan} {table : String}

/-- A migration is written to the file that has its time and its table in the name. -/
theorem Template.outputs_migration (config : Config) (entity : Entity) (timestamp : Timestamp) :
    outputs config (.migration (entity.migration timestamp)) =
      [.file (config.paths.migrations.child (timestamp.migrationName entity.table))
        (migrationText (entity.migration timestamp))] := by
  rw [← entity.migrationFile_eq]
  rfl

/-- A plan that was carried out leaves the files of its migrations. -/
theorem Memory.file?_isSome_of_plansTable (hplans : memory.Plans timestamp entities kinds plan)
    (htable : plan.plansTable table = true) :
    ((memory.afterOutputs (Template.allOutputs config plan.artifacts)).file?
      (config.paths.migrations.child (timestamp.migrationName table))).isSome = true := by
  obtain ⟨-, entity, -, rfl, hartifact⟩ := hplans.exists_of_plansTable htable
  have houtput : Output.file (config.paths.migrations.child
      (timestamp.migrationName entity.table))
      (Template.migrationText (entity.migration timestamp)) ∈
        Template.allOutputs config plan.artifacts := by
    refine List.mem_flatMap.mpr ⟨_, hartifact, ?_⟩
    rw [Template.outputs_migration]
    exact List.mem_singleton_self _
  have hthere := memory.file?_isSome_afterOutputs houtput
  rwa [Output.path_file] at hthere

/-- A plan that was carried out is in the way of every other migration for its tables. -/
theorem Memory.obstacle?_ne_none_of_plansTable (hpaths : memory.paths = config.paths)
    (hplans : memory.Plans timestamp entities kinds plan) (htable : plan.plansTable table = true)
    (hslash : '/' ∉ table.toList) :
    (memory.afterOutputs (Template.allOutputs config plan.artifacts)).obstacle? table ≠ none := by
  have hextends := memory.extends_afterOutputs (Template.allOutputs config plan.artifacts)
  apply obstacle?_ne_none_of_file timestamp hslash
  rw [hextends.paths, hpaths]
  exact file?_isSome_of_plansTable hplans htable

end plansTable

end Scaffold
