import Scaffold.Storage.Basic

/-!
# The guard against second migrations

A table may be created by one migration only. Before a migration is planned, the database and the
migrations that are there are asked for the table.
-/

namespace Scaffold.Schema

/-- The name of the migration that creates `table`, without its time. -/
def logicalName (table : String) : String :=
  "create_" ++ table ++ "_table"

/-- Fails if the database has the table or a migration for it is there. -/
def check {m : Type → Type} [Monad m] (storage : Storage m) (table : String) :
    ExceptT Error m Unit := do
  if ← storage.tableExists table then
    throw (.alreadyExists .migration table s!"table '{table}' already exists in the database")
  match ← storage.listArtifacts .migration (logicalName table) with
  | [] => pure ()
  | first :: _ =>
    throw (.alreadyExists .migration table s!"migration already present: {first}")

end Scaffold.Schema
