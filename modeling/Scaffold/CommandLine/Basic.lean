import Scaffold.Path

/-!
# Commands

What the program can be told to do, and why arguments do not tell it anything.
-/

namespace Scaffold

/-- What the program is told to do. -/
inductive Command where
  /-- Generates the files of an entity; in a dry run it only says which. -/
  | generate (entity fields : String) (relations : Option String) (root : Path)
    (config : Option Path) (dryRun : Bool)
  /-- Lists the entities generated so far. -/
  | list (root : Path) (config : Option Path)
  deriving DecidableEq, Repr, Inhabited

/-- Why arguments are no command. -/
inductive UsageError where
  /-- They ask for help. -/
  | helpAsked
  /-- They ask for the version of the program. -/
  | versionAsked
  /-- They ask for nothing. -/
  | nothingAsked
  /-- There is no command of that name. -/
  | unknownCommand
  /-- An option is unknown, or an argument is one too many. -/
  | unknownArgument
  /-- An argument is missing that has to be there. -/
  | missingArgument
  /-- An option has no value, or an empty one that has to name a file or directory. -/
  | missingValue
  /-- An argument is given a second time. -/
  | repeatedArgument
  /-- A value is given to an option that takes none. -/
  | valueForFlag
  deriving DecidableEq, Repr, Inhabited

/-- The arguments ask for a text about the program, which is no mistake. -/
def UsageError.isAsked : UsageError → Bool
  | .helpAsked | .versionAsked => true
  | _ => false

/-- The error in words. -/
def UsageError.message : UsageError → String
  | .helpAsked | .nothingAsked =>
    "Usage: crudforge generate ENTITY --fields TEXT [--relations TEXT] [--root DIRECTORY]\n" ++
      "         [--config FILE] [--dry-run]\n" ++
      "       crudforge list [--root DIRECTORY] [--config FILE]"
  | .versionAsked => "crudforge 0.1.0"
  | .unknownCommand => "error: unknown command"
  | .unknownArgument => "error: unexpected argument"
  | .missingArgument => "error: the entity and --fields are needed"
  | .missingValue => "error: an option needs a value"
  | .repeatedArgument => "error: an argument is given twice"
  | .valueForFlag => "error: an option takes no value"

end Scaffold
