import Mathlib.Data.List.Nodup
import Scaffold.Plan.Step
import Scaffold.Proofs.Field.Grammar

/-!
# The columns of a table

Fields that are read have different names (`nodup_map_name_of_readFields`), and a table has columns
of its own around those of the fields (`Column.standing`). Main statement: the columns of a
migration have different names exactly if no field is called like one of these
(`nodup_names_migration_iff`). Neither the reader nor the step for migrations looks for such a name
(`names_migration_id`).
-/

namespace Scaffold

/-! ## Names of columns -/

namespace Column

/-- The names of the columns that are declared together. -/
def names : Column → List String
  | .id => ["id"]
  | .string name | .text name | .integer name | .boolean name | .choice name _ | .custom name _ =>
    [name]
  | .softDeletes => ["deleted_at"]
  | .timestamps => ["created_at", "updated_at"]

/-- The names of the columns that every table has. -/
def standing : List String :=
  ["id", "deleted_at", "created_at", "updated_at"]

end Column

/-- A field has one column, which is called like it. -/
theorem Field.names_column (field : Field) : field.column.names = [field.name] := by
  unfold Field.column
  cases field.kind <;> rfl

/-- The columns of the fields stand behind the key and in front of the times. -/
theorem Entity.names_columns (entity : Entity) :
    entity.columns.flatMap Column.names =
      "id" :: entity.fields.map Field.name ++ ["deleted_at", "created_at", "updated_at"] := by
  have hfields : (entity.fields.map Field.column).flatMap Column.names =
      entity.fields.map Field.name := by
    rw [List.flatMap_map]
    simp only [Field.names_column]
    exact List.map_eq_flatMap.symm
  unfold Entity.columns
  rw [List.flatMap_append, List.flatMap_cons, hfields]
  rfl

/-! ## Names of fields -/

section fields

variable {raw : String} {tokens : List String} {fields : List Field}

/-- Fields are called by the names in their tokens. -/
theorem map_name_of_forall₂_isField (h : List.Forall₂ IsField tokens fields) :
    fields.map Field.name = tokens.map nameOf := by
  induction h with
  | nil => rfl
  | cons hfield _ ih => rw [List.map_cons, List.map_cons, hfield.name, ih]

/-- Fields that are read have different names. -/
theorem nodup_map_name_of_readFields (h : readFields raw = .ok fields) :
    (fields.map Field.name).Nodup := by
  unfold readFields at h
  obtain ⟨tokens, -, htokens⟩ := bind_eq_ok_iff.mp h
  obtain ⟨hdistinct, hfields⟩ := (describedBy_readTokens tokens).eq_ok_iff.mp htokens
  rw [map_name_of_forall₂_isField hfields]
  exact hdistinct.distinct

end fields

/-! ## Migrations -/

section migration

variable {raw : String} {entity : Entity}

/-- Different names stay different among those that every table has, if none of them is one of
these. -/
theorem nodup_append_standing_iff {names : List String} (h : names.Nodup) :
    ("id" :: names ++ ["deleted_at", "created_at", "updated_at"]).Nodup ↔
      ∀ name ∈ names, name ∉ Column.standing := by
  have hmoved : ("id" :: names ++ ["deleted_at", "created_at", "updated_at"]).Perm
      (names ++ Column.standing) := List.perm_middle.symm
  have hstanding : Column.standing.Nodup := by decide
  rw [hmoved.nodup_iff, List.nodup_append']
  constructor
  · rintro ⟨-, -, hdisjoint⟩ name hname hstands
    exact hdisjoint hname hstands
  · intro hnames
    exact ⟨h, hstanding, fun name hname => hnames name hname⟩

/-- The columns of the migration for an entity whose fields were read have different names exactly
if no field has the name of a column that every table has. -/
theorem nodup_names_migration_iff (hread : readFields raw = .ok entity.fields)
    (timestamp : Timestamp) : ((entity.migration timestamp).columns.flatMap Column.names).Nodup ↔
      ∀ field ∈ entity.fields, field.name ∉ Column.standing := by
  have hcolumns : (entity.migration timestamp).columns.flatMap Column.names =
      "id" :: entity.fields.map Field.name ++ ["deleted_at", "created_at", "updated_at"] :=
    entity.names_columns
  rw [hcolumns, nodup_append_standing_iff (nodup_map_name_of_readFields hread), List.forall_mem_map]

/-- A title and a state can stand in a table, and a second time of creation cannot. -/
theorem nodup_names_migration_title_created_at :
    (readFields "title:string,state:enum(open,done)" =
        .ok [⟨"title", .string⟩, ⟨"state", .choice ["open", "done"]⟩] ∧
      (((Entity.root "post" [⟨"title", .string⟩, ⟨"state", .choice ["open", "done"]⟩] []).migration
        default).columns.flatMap Column.names).Nodup) ∧
      readFields "created_at:date" = .ok [⟨"created_at", .custom "date"⟩] ∧
        ¬(((Entity.root "post" [⟨"created_at", .custom "date"⟩] []).migration
          default).columns.flatMap Column.names).Nodup := by
  have hpost : readFields "title:string,state:enum(open,done)" =
      .ok [⟨"title", .string⟩, ⟨"state", .choice ["open", "done"]⟩] := by decide +kernel
  have htime : readFields "created_at:date" = .ok [⟨"created_at", .custom "date"⟩] := by
    decide +kernel
  have hgood := @nodup_names_migration_iff _ (.root "post" _ []) hpost default
  have hbad := @nodup_names_migration_iff _ (.root "post" _ []) htime default
  refine ⟨⟨hpost, hgood.mpr ?_⟩, htime, mt hbad.mp ?_⟩
  · decide
  · decide

/-- A field called `id` is read, and its column is declared beside the key. -/
theorem names_migration_id :
    readFields "id:integer" = .ok [⟨"id", .integer⟩] ∧
      ((Entity.root "item" [⟨"id", .integer⟩] []).migration default).columns.flatMap Column.names =
        ["id", "id", "deleted_at", "created_at", "updated_at"] ∧
      ¬∀ (raw : String) (entity : Entity) (timestamp : Timestamp),
        readFields raw = .ok entity.fields →
        ((entity.migration timestamp).columns.flatMap Column.names).Nodup := by
  have hread : readFields "id:integer" = .ok [⟨"id", .integer⟩] := by decide +kernel
  have hnames : ((Entity.root "item" [⟨"id", .integer⟩] []).migration default).columns.flatMap
      Column.names = ["id", "id", "deleted_at", "created_at", "updated_at"] := rfl
  refine ⟨hread, hnames, fun hall => ?_⟩
  have hnodup := hall "id:integer" (Entity.root "item" [⟨"id", .integer⟩] []) default hread
  rw [hnames] at hnodup
  exact absurd hnodup (by decide)

end migration

end Scaffold
