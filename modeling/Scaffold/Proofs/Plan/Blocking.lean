import Scaffold.Proofs.Plan.Planning

/-!
# What the guard takes for a migration

A migration creates a table if its file is called by the logical name, with a time in front of it or
without (`IsMigrationFor`). The guard looks for the logical name anywhere in the names of files.
Main statement: it refuses a table for every real reason, and for the files that only mention the
logical name (`exec_check_iff`). The migrations of certain other tables do, namely of all whose
names start with that of the table and `_table` (`isMistaken_of_isMigrationFor`).
-/

namespace Scaffold

namespace Memory

variable {memory : Memory} {table name : String}

/-! ## Migrations and their names -/

/-- A time in front of the name of a migration: digits in the places of `0000_00_00_000000_`. -/
def isTime (cs : List Char) : Bool :=
  cs.map (fun c => if c.isDigit then '0' else c) == "0000_00_00_000000_".toList

/-- The file called `name` holds the migration that creates `table`. -/
structure IsMigrationFor (table name : String) : Prop where
  /-- The logical name stands behind a time or nothing, and in front of the extension. -/
  eq_append : ∃ time, (time = [] ∨ isTime time = true) ∧
    name.toList = time ++ (Schema.logicalName table).toList ++ ".php".toList

/-- A file called `name` lies in the directory of the migrations. -/
def HasMigration (memory : Memory) (name : String) : Prop :=
  ∃ key ∈ memory.keys, liesIn memory.paths.migrations key = true ∧ key.fileName? = some name

/-- A real reason not to plan a migration for a table. -/
inductive HasReason (memory : Memory) (table : String) : Prop where
  /-- The database has the table. -/
  | table (h : table ∈ memory.tables)
  /-- A migration creates it. -/
  | migration {name : String} (hname : memory.HasMigration name) (h : IsMigrationFor table name)

/-- A file among the migrations has the logical name of a table's migration in its name and does not
create the table. -/
def IsMistaken (memory : Memory) (table : String) : Prop :=
  ∃ name, memory.HasMigration name ∧
    (Schema.logicalName table).toList <:+: name.toList ∧ ¬IsMigrationFor table name

/-- A migration for a table has the logical name in its name. -/
theorem IsMigrationFor.isInfix (h : IsMigrationFor table name) :
    (Schema.logicalName table).toList <:+: name.toList := by
  obtain ⟨time, -, heq⟩ := h.eq_append
  exact ⟨time, ".php".toList, heq.symm⟩

/-- What the guard finds are the migrations with the logical name in their names. -/
theorem mem_artifacts_migration :
    name ∈ memory.artifacts .migration (Schema.logicalName table) ↔
      memory.HasMigration name ∧ (Schema.logicalName table).toList <:+: name.toList := by
  have hcontains : Text.contains name (Schema.logicalName table) = true ↔
      (Schema.logicalName table).toList <:+: name.toList := Text.occursIn_iff_infix
  rw [mem_artifacts, ← hcontains]
  constructor
  · rintro ⟨directory, hdirectory, key, hkey, hlies, hname, hmentions⟩
    obtain rfl : memory.paths.migrations = directory := Option.some.inj hdirectory
    exact ⟨⟨key, hkey, hlies, hname⟩, hmentions⟩
  · rintro ⟨⟨key, hkey, hlies, hname⟩, hmentions⟩
    exact ⟨memory.paths.migrations, rfl, key, hkey, hlies, hname, hmentions⟩

/-! ## The guard -/

/-- Something is in the way of a table for a real reason, or because of a file that mentions it. -/
theorem obstacle?_ne_none_iff :
    memory.obstacle? table ≠ none ↔ memory.HasReason table ∨ memory.IsMistaken table := by
  rw [Ne, obstacle?_eq_none_iff, not_and_or, not_not]
  push Not
  constructor
  · rintro (htable | ⟨name, hname⟩)
    · exact Or.inl (.table htable)
    · obtain ⟨hthere, hmentions⟩ := mem_artifacts_migration.mp hname
      by_cases hmigration : IsMigrationFor table name
      · exact Or.inl (.migration hthere hmigration)
      · exact Or.inr ⟨name, hthere, hmentions, hmigration⟩
  · rintro (hreason | ⟨name, hthere, hmentions, -⟩)
    · cases hreason with
      | table htable => exact Or.inl htable
      | @migration name hthere hmigration =>
        exact Or.inr ⟨name, mem_artifacts_migration.mpr ⟨hthere, hmigration.isInfix⟩⟩
    · exact Or.inr ⟨name, mem_artifacts_migration.mpr ⟨hthere, hmentions⟩⟩

/-- What is in the way is told as an artifact that exists already. -/
theorem exists_of_obstacle? {e : Error} (h : memory.obstacle? table = some e) :
    ∃ detail, e = .alreadyExists .migration table detail := by
  unfold obstacle? at h
  split_ifs at h
  · exact ⟨_, (Option.some.inj h).symm⟩
  · split at h
    · cases h
    · exact ⟨_, (Option.some.inj h).symm⟩

/-- The guard leaves the project as it is. It refuses a table that the database has or a migration
creates, and also one that only the name of some migration mentions; all others pass. -/
theorem exec_check_iff (memory : Memory) (table : String) :
    ((∃ detail, memory.exec (Schema.check storage table) =
        (.error (.alreadyExists .migration table detail), memory)) ↔
      memory.HasReason table ∨ memory.IsMistaken table) ∧
    (memory.exec (Schema.check storage table) = (.ok (), memory) ↔
      ¬(memory.HasReason table ∨ memory.IsMistaken table)) := by
  rw [← obstacle?_ne_none_iff, exec_check]
  cases hobstacle : memory.obstacle? table with
  | none => simp
  | some e =>
    obtain ⟨detail, rfl⟩ := exists_of_obstacle? hobstacle
    simp

/-! ## Tables that are taken for others -/

/-- A time has eighteen characters. -/
theorem length_of_isTime {time : List Char} (h : isTime time = true) : time.length = 18 := by
  have hlength := congrArg List.length (eq_of_beq h)
  rwa [List.length_map] at hlength

/-- A time starts with a digit. -/
theorem head?_of_isTime {time : List Char} (h : isTime time = true) :
    time.head? ≠ some 'c' := by
  intro hhead
  have hzero := congrArg List.head? (eq_of_beq h)
  rw [List.head?_map, hhead] at hzero
  exact absurd hzero (by decide)

/-- What is behind a time or nothing, and starts with a letter that is in no time, is found again.
-/
theorem append_inj_of_isTime {time time' xs ys : List Char} (h : time = [] ∨ isTime time = true)
    (h' : time' = [] ∨ isTime time' = true) (heq : time ++ 'c' :: xs = time' ++ 'c' :: ys) :
    xs = ys := by
  have hhead : ∀ front back : List Char, isTime front = true →
      (front ++ back).head? ≠ some 'c' := by
    intro front back hfront
    have hne : front ≠ [] := by
      rintro rfl
      cases hfront
    rw [List.head?_append_of_ne_nil _ hne]
    exact head?_of_isTime hfront
  rcases h with rfl | h
  · rcases h' with rfl | h'
    · exact (List.cons.inj heq).2
    · exact absurd (congrArg List.head? heq).symm (hhead time' _ h')
  · rcases h' with rfl | h'
    · exact absurd (congrArg List.head? heq) (hhead time _ h)
    · have hlength : time.length = time'.length :=
        (length_of_isTime h).trans (length_of_isTime h').symm
      exact (List.cons.inj (List.append_inj heq hlength).2).2

/-- A file holds the migration of one table at most. -/
theorem IsMigrationFor.eq {other : String} (h : IsMigrationFor table name)
    (hother : IsMigrationFor other name) : table = other := by
  obtain ⟨time, htime, heq⟩ := h.eq_append
  obtain ⟨time', htime', heq'⟩ := hother.eq_append
  have hsplit : ∀ (front : List Char) (text : String),
      front ++ (Schema.logicalName text).toList ++ ".php".toList =
        front ++ 'c' :: ("reate_".toList ++ (text.toList ++ "_table.php".toList)) := by
    intro front text
    simp [Schema.logicalName]
  rw [hsplit] at heq heq'
  have hsame := append_inj_of_isTime htime htime' (heq.symm.trans heq')
  rw [List.append_cancel_left_eq, List.append_cancel_right_eq, String.toList_inj] at hsame
  exact hsame

/-- The migration of a table whose name goes on with `_table` behind the name of another is taken
for the migration of that. -/
theorem isMistaken_of_isMigrationFor (rest : String) (hname : memory.HasMigration name)
    (h : IsMigrationFor (table ++ "_table" ++ rest) name) : memory.IsMistaken table := by
  refine ⟨name, hname, ?_, fun hmigration => ?_⟩
  · obtain ⟨time, -, heq⟩ := h.eq_append
    refine ⟨time, rest.toList ++ "_table.php".toList, ?_⟩
    rw [heq]
    simp [Schema.logicalName]
  · have hlength := congrArg (fun text : String => text.toList.length) (hmigration.eq h)
    simp at hlength

/-- The guard refuses the table `posts` because of the migration that creates `posts_tables`. -/
theorem exec_check_posts_tables :
    let memory : Memory :=
      { files := [(⟨"database/migrations/2024_05_01_120000_create_posts_tables_table.php"⟩, "")] }
    (∃ detail, memory.exec (Schema.check storage "posts") =
        (.error (.alreadyExists .migration "posts" detail), memory)) ∧
      ¬memory.HasReason "posts" := by
  intro memory
  have hmigration :
      IsMigrationFor "posts_tables" "2024_05_01_120000_create_posts_tables_table.php" :=
    ⟨"2024_05_01_120000_".toList, Or.inr (by decide), by decide⟩
  have hfile :
      Path.fileName? ⟨"database/migrations/2024_05_01_120000_create_posts_tables_table.php"⟩ =
      some "2024_05_01_120000_create_posts_tables_table.php" := by decide
  have hthere : memory.HasMigration "2024_05_01_120000_create_posts_tables_table.php" :=
    ⟨_, List.mem_singleton_self _, by decide, hfile⟩
  constructor
  · have hmistaken : memory.IsMistaken "posts" :=
      isMistaken_of_isMigrationFor "s" hthere hmigration
    obtain ⟨e, he⟩ := Option.ne_none_iff_exists'.mp (obstacle?_ne_none_iff.mpr (Or.inr hmistaken))
    obtain ⟨detail, rfl⟩ := exists_of_obstacle? he
    refine ⟨detail, ?_⟩
    rw [exec_check, he]
    rfl
  · rintro (htable | ⟨⟨key, hkey, -, hname⟩, hposts⟩)
    · exact absurd htable List.not_mem_nil
    · obtain rfl := List.mem_singleton.mp hkey
      obtain rfl := Option.some.inj (hfile.symm.trans hname)
      exact absurd (hposts.eq hmigration) (by decide)

end Memory

end Scaffold
