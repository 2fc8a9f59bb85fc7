import Scaffold.Text.Case

/-!
# Settings of the log

How much is logged and in which form. The settings come from the environment, and what is not
understood there is passed over.
-/

namespace Scaffold

/-- The form of the log. -/
inductive LogFormat where
  /-- One JSON object for each event. -/
  | json
  /-- Lines for people to read. -/
  | pretty
  deriving DecidableEq, Repr, Inhabited

/-- The form of that name, in any case; it is for people unless the name is known. -/
def LogFormat.ofName (name : String) : LogFormat :=
  if Text.toLower name = "json" then .json else .pretty

/-- How much is logged; each level includes those below it in this list. -/
inductive LogLevel where
  /-- Everything. -/
  | trace
  /-- What helps to find faults. -/
  | debug
  /-- What is done. -/
  | info
  /-- What needs attention. -/
  | warn
  /-- What fails. -/
  | error
  deriving DecidableEq, Repr, Inhabited

/-- The level of that name, in any case; `warn` unless the name is known. -/
def LogLevel.ofName (name : String) : LogLevel :=
  match Text.toLower name with
  | "trace" => .trace
  | "debug" => .debug
  | "info" => .info
  | "error" => .error
  | _ => .warn

/-- The settings of the log. -/
structure LogSettings where
  /-- The name of the level, as it was given. -/
  levelName : String := "warn"
  /-- The form. -/
  format : LogFormat := .pretty
  /-- The place in the program is logged as well. -/
  includeLocation : Bool := false
  deriving DecidableEq, Repr, Inhabited

namespace LogSettings

/-- The level. -/
def level (settings : LogSettings) : LogLevel :=
  .ofName settings.levelName

/-- The text says yes: it is `1`, or `true` in any case of its letters. -/
def isYes (text : String) : Bool :=
  text == "1" || text.toList.map Char.toLower == "true".toList

/-- The settings that the variables of the environment give. -/
def ofEnvironment (valueOf : String → Option String) : LogSettings :=
  let standard : LogSettings := {}
  { levelName := (valueOf "CRUDFORGE_LOG_LEVEL").getD standard.levelName
    format := ((valueOf "CRUDFORGE_LOG_FORMAT").map LogFormat.ofName).getD standard.format
    includeLocation :=
      ((valueOf "CRUDFORGE_LOG_INCLUDE_LOCATION").map isYes).getD standard.includeLocation }

end LogSettings

end Scaffold
