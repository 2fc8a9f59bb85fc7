import Mathlib.Data.List.Nodup
import Scaffold.Proofs.Generation.Places
import Scaffold.Proofs.Storage.Renaming

/-!
# Migration files at another time

A migration file has the time at which it was created in its name. If its time had been another, the
file would have another name in the same directory: a `Move`. Two statements about a project under
the names that some of its migration files have at other times.

* The names are as good as the old ones: the table of a migration can be read off its name
  (`eq_of_migrationName_eq`), so that files stay apart (`Coherent.renames`).
* The guard does not notice: it looks for a word in the names, and no word that starts with a letter
  can reach into the time (`obstacle?_renamed`).
-/

namespace Scaffold

/-! ## The table in a name -/

section names

variable {timestamp timestamp' : Timestamp} {table table' : String}

/-- A name is its time, and then a `c` and more. -/
theorem exists_migrationName_eq (timestamp : Timestamp) (table : String) :
    ∃ front, (timestamp.migrationName table).toList =
      front ++ 'c' :: ("reate_" ++ table ++ "_table.php").toList ∧ 'c' ∉ front := by
  refine ⟨(timestamp.stamp ++ "_").toList, ?_, ?_⟩
  · simp [Timestamp.migrationName]
  · have hstamp : 'c' ∉ timestamp.stamp.toList :=
      Timestamp.not_mem_stamp (by decide) (by decide) timestamp
    simp [hstamp]

/-- The table of a migration can be read off its name. -/
theorem eq_of_migrationName_eq
    (h : timestamp.migrationName table = timestamp'.migrationName table') : table = table' := by
  obtain ⟨front, hname, hfront⟩ := exists_migrationName_eq timestamp table
  obtain ⟨front', hname', hfront'⟩ := exists_migrationName_eq timestamp' table'
  have hsplit := congrArg (fun name : String => Text.splitFirst 'c' name.toList) h
  rw [hname, hname', Text.splitFirst_append hfront, Text.splitFirst_append hfront',
    Option.some.injEq, Prod.mk.injEq, String.toList_inj] at hsplit
  simpa using hsplit.2

/-- A word does not reach into a text that lacks its first letter. -/
theorem infix_append_iff_of_notMem {c : Char} {word front back : List Char} (h : c ∉ front) :
    c :: word <:+: front ++ back ↔ c :: word <:+: back := by
  induction front with
  | nil => rfl
  | cons first rest ih =>
    rw [List.mem_cons, not_or] at h
    rw [List.cons_append, List.infix_cons_iff, ih h.2, List.cons_prefix_cons]
    simp [h.1]

/-- Whether a name holds the name that the guard looks for does not depend on its time. -/
theorem contains_migrationName_congr (timestamp timestamp' : Timestamp) (table searched : String) :
    Text.contains (timestamp.migrationName table) (Schema.logicalName searched) =
      Text.contains (timestamp'.migrationName table) (Schema.logicalName searched) := by
  obtain ⟨front, hname, hfront⟩ := exists_migrationName_eq timestamp table
  obtain ⟨front', hname', hfront'⟩ := exists_migrationName_eq timestamp' table
  have hword : (Schema.logicalName searched).toList =
      'c' :: ("reate_" ++ searched ++ "_table").toList := by
    simp [Schema.logicalName]
  rw [Bool.eq_iff_iff]
  unfold Text.contains
  rw [Text.occursIn_iff_infix, Text.occursIn_iff_infix, hname, hname', hword,
    infix_append_iff_of_notMem hfront, infix_append_iff_of_notMem hfront']

end names

/-! ## The directory of the migrations -/

section directory

variable {name : String} {timestamp timestamp' : Timestamp} {table table' : String}

/-- A file among the migrations lies in their directory. -/
theorem directory?_child_migrations (h : Path.IsFileName name) :
    (({} : Paths).migrations.child name).directory? = some ({} : Paths).migrations := by
  have hrelative : (⟨name⟩ : Path).isAbsolute = false := by
    unfold Path.isAbsolute
    rw [beq_eq_false_iff_ne]
    intro hhead
    exact h.noSlash (List.mem_of_mem_head? hhead)
  have htext : (({} : Paths).migrations.child name).text.toList =
      "database/migrations".toList ++ '/' :: name.toList := by
    unfold Path.child
    rw [Path.text_join hrelative (by decide) (by decide)]
    simp
  have hsegments : (({} : Paths).migrations.child name).segments =
      ["database".toList, "migrations".toList, name.toList] := by
    rw [Path.segments_of_text htext, List.splitOn_eq_singleton h.noSlash]
    rfl
  have hkept : Text.dropEndWhile Path.isRedundant ["migrations".toList, name.toList] =
      ["migrations".toList, name.toList] := by
    rw [Text.dropEndWhile_eq_rdropWhile]
    exact List.rdropWhile_eq_self_iff.mpr fun _ => by simpa using h.kept
  unfold Path.directory? Path.parent?
  rw [hsegments]
  dsimp only
  rw [hkept]
  rfl

/-- It is found in their directory. -/
theorem liesIn_child_migrations (h : Path.IsFileName name) :
    Memory.liesIn ({} : Paths).migrations (({} : Paths).migrations.child name) = true := by
  have hdirectory := directory?_child_migrations h
  unfold Path.directory? at hdirectory
  unfold Memory.liesIn
  rw [(Option.filter_eq_some_iff.mp hdirectory).1]
  exact Path.same_refl _

/-- It is called by its name. -/
theorem fileName?_child_migrations (h : Path.IsFileName name) :
    (({} : Paths).migrations.child name).fileName? = some name :=
  Path.fileName?_of_components (Path.components_child ({} : Paths).migrations h)

/-- Two migrations in one file are for the same table. -/
theorem eq_of_same_migrations (h : '/' ∉ table.toList) (h' : '/' ∉ table'.toList)
    (hsame : (({} : Paths).migrations.child (timestamp.migrationName table)).same
      (({} : Paths).migrations.child (timestamp'.migrationName table')) = true) :
    table = table' := by
  rw [Path.same_iff, Path.components_child _ (isFileName_migrationName timestamp h),
    Path.components_child _ (isFileName_migrationName timestamp' h')] at hsame
  have hlast := List.append_cancel_left hsame
  exact eq_of_migrationName_eq (by simpa using hlast)

end directory

/-! ## Moves -/

/-- The file of a migration that was created at one time, and at another. -/
structure Move where
  /-- The table that the migration creates. -/
  table : String
  /-- The time at which it was created. -/
  first : Timestamp
  /-- The other time. -/
  second : Timestamp
  deriving DecidableEq, Repr

namespace Move

/-- The path of the file. -/
def source (move : Move) : Path :=
  ({} : Paths).migrations.child (move.first.migrationName move.table)

/-- The path that the file has at the other time. -/
def target (move : Move) : Path :=
  ({} : Paths).migrations.child (move.second.migrationName move.table)

/-- The moves of the files for the tables, all from one time to another. -/
def ofTables (first second : Timestamp) (tables : List String) : List Move :=
  tables.map fun table => ⟨table, first, second⟩

/-- The path of a file after the moves. -/
def rename (moves : List Move) (path : Path) : Path :=
  ((moves.find? fun move => move.source = path).map target).getD path

/-- The path is that of no moved file, neither before nor after. -/
def IsClear (moves : List Move) (path : Path) : Prop :=
  ∀ move ∈ moves, path.same move.source = false ∧ path.same move.target = false

/-- The path is that of a file that is moved, or has nothing to do with the moves. -/
def IsKnown (moves : List Move) (path : Path) : Prop :=
  (∃ move ∈ moves, path = move.source) ∨ IsClear moves path

/-- The moves are of one file for each table. -/
structure Coherent (moves : List Move) : Prop where
  /-- Each file is in the directory of the migrations. -/
  noSlash : ∀ move ∈ moves, '/' ∉ move.table.toList
  /-- No table has two files. -/
  nodup : (moves.map table).Nodup

variable {moves more : List Move} {move other : Move} {path : Path}

/-- No move starts at a clear path. -/
theorem IsClear.find?_eq_none (h : IsClear moves path) :
    moves.find? (fun move => move.source = path) = none := by
  rw [List.find?_eq_none]
  intro move hmove hsource
  have hdifferent := (h move hmove).1
  rw [of_decide_eq_true hsource, Path.same_refl] at hdifferent
  cases hdifferent

/-- More moves change nothing about a path that has nothing to do with them. -/
theorem IsClear.rename_append (h : IsClear more path) (moves : List Move) :
    rename (moves ++ more) path = rename moves path := by
  unfold rename
  rw [List.find?_append, h.find?_eq_none, Option.or_none]

/-- A clear path keeps its name. -/
theorem IsClear.rename_eq (h : IsClear moves path) : rename moves path = path :=
  h.rename_append []

/-- A known path stays known when moves are added that it is clear of. -/
theorem IsKnown.append (h : IsKnown moves path) (hmore : IsClear more path) :
    IsKnown (moves ++ more) path := by
  rcases h with ⟨move, hmove, hsource⟩ | hclear
  · exact Or.inl ⟨move, List.mem_append_left _ hmove, hsource⟩
  · exact Or.inr (List.forall_mem_append.mpr ⟨hclear, hmore⟩)

namespace Coherent

variable (h : Coherent moves)

include h

/-- There is one move at most for a table. -/
theorem eq_of_table (hmove : move ∈ moves) (hother : other ∈ moves)
    (htable : move.table = other.table) : move = other :=
  List.inj_on_of_nodup_map h.nodup hmove hother htable

/-- The source of a move is renamed to its target. -/
theorem rename_source (hmove : move ∈ moves) : rename moves move.source = move.target := by
  unfold rename
  cases hfind : moves.find? (fun other => other.source = move.source) with
  | none =>
    rw [List.find?_eq_none] at hfind
    exact absurd (decide_eq_true (Eq.refl move.source)) (hfind move hmove)
  | some other =>
    have hother := List.mem_of_find?_eq_some hfind
    have hsource : other.source = move.source := by simpa using List.find?_some hfind
    have hsame : other.source.same move.source = true :=
      Path.same_iff.mpr (congrArg Path.components hsource)
    have htable := eq_of_same_migrations (h.noSlash other hother) (h.noSlash move hmove) hsame
    rw [h.eq_of_table hother hmove htable, Option.map_some, Option.getD_some]

/-- Moved files stay apart from each other and from all others, and in their directory. -/
theorem renames : Path.Renames (IsKnown moves) (rename moves) where
  same p q hp hq := by
    rcases hp with ⟨move, hmove, hsource⟩ | hp
    · rw [hsource, h.rename_source hmove]
      rcases hq with ⟨other, hother, hsource'⟩ | hq
      · -- the two files are the same before and after exactly if they are for one table
        rw [hsource', h.rename_source hother, Bool.eq_iff_iff]
        have hslash := h.noSlash move hmove
        have hslash' := h.noSlash other hother
        constructor
        · intro hsame
          rw [h.eq_of_table hmove hother (eq_of_same_migrations hslash hslash' hsame)]
          exact Path.same_refl _
        · intro hsame
          rw [h.eq_of_table hmove hother (eq_of_same_migrations hslash hslash' hsame)]
          exact Path.same_refl _
      · rw [hq.rename_eq, Path.same_comm, (hq move hmove).2, Path.same_comm, (hq move hmove).1]
    · rw [hp.rename_eq]
      rcases hq with ⟨other, hother, hsource⟩ | hq
      · rw [hsource, h.rename_source hother, (hp other hother).2, (hp other hother).1]
      · rw [hq.rename_eq]
  directory? p hp := by
    rcases hp with ⟨move, hmove, hsource⟩ | hp
    · have hslash := h.noSlash move hmove
      rw [hsource, h.rename_source hmove]
      unfold source target
      rw [directory?_child_migrations (isFileName_migrationName move.first hslash),
        directory?_child_migrations (isFileName_migrationName move.second hslash)]
    · rw [hp.rename_eq]

end Coherent

end Move

/-! ## The guard -/

namespace Memory

variable {memory : Memory} {moves : List Move}

/-- The file is one for which the guard looks. -/
def IsFound (directory : Path) (table : String) (path : Path) : Prop :=
  liesIn directory path = true ∧
    ∃ name, path.fileName? = some name ∧ Text.contains name (Schema.logicalName table) = true

/-- Nothing is in the way of a table exactly if the database does not have it and no file is found
for it. -/
theorem obstacle?_eq_none_iff_isFound {table : String} :
    memory.obstacle? table = none ↔
      table ∉ memory.tables ∧ ∀ key ∈ memory.keys, ¬IsFound memory.paths.migrations table key := by
  rw [obstacle?_eq_none_iff]
  refine and_congr_right fun _ => ?_
  constructor
  · rintro hnone key hkey ⟨hlies, name, hname, hcontains⟩
    exact hnone name (mem_artifacts.mpr ⟨_, rfl, key, hkey, hlies, hname, hcontains⟩)
  · intro hnone name hname
    obtain ⟨directory, hdirectory, key, hkey, hlies, hfile, hcontains⟩ := mem_artifacts.mp hname
    rw [← Option.some.inj hdirectory] at hlies
    exact hnone key hkey ⟨hlies, name, hfile, hcontains⟩

/-- A file among the migrations is found for a table exactly if its name contains the logical name.
-/
theorem isFound_child_migrations {name table : String} (h : Path.IsFileName name) :
    IsFound ({} : Paths).migrations table (({} : Paths).migrations.child name) ↔
      Text.contains name (Schema.logicalName table) = true := by
  unfold IsFound
  rw [liesIn_child_migrations h, fileName?_child_migrations h]
  simp

/-- Renaming changes nothing about what is found for a table. -/
theorem isFound_rename (h : Move.Coherent moves) (table : String) {path : Path}
    (hpath : Move.IsKnown moves path) :
    IsFound ({} : Paths).migrations table (Move.rename moves path) ↔
      IsFound ({} : Paths).migrations table path := by
  rcases hpath with ⟨move, hmove, hsource⟩ | hclear
  · have hslash := h.noSlash move hmove
    rw [hsource, h.rename_source hmove]
    unfold Move.source Move.target
    rw [isFound_child_migrations (isFileName_migrationName move.first hslash),
      isFound_child_migrations (isFileName_migrationName move.second hslash),
      contains_migrationName_congr move.first move.second]
  · rw [hclear.rename_eq]

/-- The guard lets the same tables pass after the moves. -/
theorem obstacle?_renamed (h : Move.Coherent moves)
    (hmigrations : memory.paths.migrations = ({} : Paths).migrations)
    (hkeys : ∀ key ∈ memory.keys, Move.IsKnown moves key) (table : String) :
    (memory.renamed (Move.rename moves)).obstacle? table = none ↔
      memory.obstacle? table = none := by
  rw [obstacle?_eq_none_iff_isFound, obstacle?_eq_none_iff_isFound, paths_renamed, tables_renamed,
    keys_renamed, hmigrations, List.forall_mem_map]
  refine and_congr_right fun _ => ?_
  exact forall₂_congr fun key hkey => not_congr (isFound_rename h table (hkeys key hkey))

end Memory

end Scaffold
