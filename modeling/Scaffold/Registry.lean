import Scaffold.Json.StringList
import Scaffold.Storage.Basic
import Scaffold.Text.Blank

/-!
# The registry of generated entities

The names of the entities generated so far, in the order of their first generation. They are kept in
a file between runs; a file that is missing or blank holds none.
-/

namespace Scaffold

/-- The names of the entities generated so far. -/
structure Registry where
  /-- The names. -/
  names : List String := []
  deriving DecidableEq, Repr, Inhabited

namespace Registry

/-- The name was generated. -/
def contains (registry : Registry) (name : String) : Bool :=
  registry.names.contains name

/-- The registry with the name at its end, unless it is there. -/
def record (registry : Registry) (name : String) : Registry :=
  if registry.contains name then registry else { names := registry.names ++ [name] }

/-- Records the name, and answers whether it was new. -/
def add (registry : Registry) (name : String) : Bool × Registry :=
  if registry.contains name then (false, registry)
  else (true, { names := registry.names ++ [name] })

/-- The registry that the content of a file holds. -/
def ofContent : Option String → Except Error Registry
  | none => .ok {}
  | some content =>
    if Text.isBlankText content then .ok {}
    else
      match Json.decode content with
      | some names => .ok { names }
      | none => .error .registry

/-- The content of the file that holds the registry. -/
def toContent (registry : Registry) : String :=
  Json.encode registry.names ++ "\n"

variable {m : Type → Type} [Monad m]

/-- The registry in the file at `path`. -/
def load (storage : Storage m) (path : Path) : ExceptT Error m Registry := do
  let content ← storage.read path
  ExceptT.mk (pure (ofContent content))

/-- Writes the registry to the file at `path`. -/
def save (registry : Registry) (storage : Storage m) (path : Path) : ExceptT Error m Unit := do
  storage.ensureParent path
  storage.write path registry.toContent

/-! ## Laws -/

/-- Adding a name tells whether it was new, and records it. -/
theorem add_eq (registry : Registry) (name : String) :
    registry.add name = (!registry.contains name, registry.record name) := by
  unfold add record
  cases registry.contains name <;> rfl

end Registry

end Scaffold
