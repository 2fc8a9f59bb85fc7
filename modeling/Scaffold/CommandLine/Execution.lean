import Scaffold.CommandLine.Basic
import Scaffold.Config.Load
import Scaffold.Generation.Basic
import Scaffold.Storage.Files

/-!
# Executing commands

A command is executed on a file system. It prints text, and it may fail at any stage: the root has
to be a directory, the configuration and the registry have to be readable, and for a command to
generate the generation has to succeed and the registry to be saved. The report of a generation is
printed before anything else is said about it, also if it failed.
-/

namespace Scaffold

namespace CommandLine

/-- Why a command failed. -/
structure Failure where
  /-- What failed. -/
  message : String
  /-- Why, unless the message says it all. -/
  cause : Option Error := none
  deriving DecidableEq, Repr, Inhabited

namespace Failure

/-- The failure of the root of a project. -/
def noDirectory (root : Path) : Failure where
  message := s!"project root {root.text} is not a directory"

/-- The failure of something that the message names. -/
def during (message : String) (e : Error) : Failure where
  message := message
  cause := some e

/-- The failure that is nothing but an error. -/
def ofError (e : Error) : Failure where
  message := e.message
  cause := some e

/-- The failure as it is shown. -/
def display (failure : Failure) : String :=
  let cause := match failure.cause with
    | some e =>
      if e.message = failure.message then "" else s!"\n\nCaused by:\n    {e.message}"
    | none => ""
  s!"Error: {failure.message}{cause}"

end Failure

/-- What a command printed, and how it ended. -/
structure Ending where
  /-- What was printed. -/
  printed : String
  /-- Why it failed, if it did. -/
  failure : Option Failure := none
  deriving DecidableEq, Repr, Inhabited

/-- The end of a command that failed before it printed anything. -/
def Ending.failed (failure : Failure) : Ending where
  printed := ""
  failure := some failure

/-! ## Texts -/

/-- The names of the entities, as they are listed. -/
def listing (registry : Registry) : String :=
  if registry.names.isEmpty then "No entities generated yet\n"
  else "📋 Generated entities:\n" ++ String.join (registry.names.map fun name => s!"   {name}\n")

/-- What is said after the report of a dry run. -/
def dryRunNote (plan : Plan) : String :=
  s!"\n📝 Dry run: {plan.artifacts.length} artifact(s) planned, nothing written\n"

/-! ## Stages -/

variable {m : Type → Type} [Monad m]

/-- The result of a stage whose errors are failures of the whole command. -/
def stage {α : Type} (message : String) (action : ExceptT Error m α) : ExceptT Failure m α :=
  ExceptT.mk do return (← action.run).mapError (Failure.during message)

/-- The project in the directory `root`: its configuration, its storage and its registry. -/
def openProject (files : FileSystem m) (root : Path) (asked : Option Path) :
    ExceptT Failure m (Config × Storage m × Registry) := do
  unless ← ExceptT.lift (files.isDirectory root) do throw (.noDirectory root)
  let config ← stage "Failed to load configuration" (Config.resolve files root asked)
  let storage := Storage.inFiles files root config
  let registry ←
    stage "Failed to load entity registry" (Registry.load storage config.paths.registry)
  return (config, storage, registry)

/-- Generates what a request asks for in a project. -/
def generateIn (clock : m Timestamp) (dryRun : Bool) (request : Request) :
    Config × Storage m × Registry → m Ending
  | (config, storage, registry) => do
    let generator : Generator m :=
      { storage, planner := .standard, renderer := Template.renderer config
        timestamp := ← clock }
    let (report, result) ← generator.run dryRun request registry
    match result with
    | .error e => return { printed := report.printed, failure := some (.ofError e) }
    | .ok generated =>
      if dryRun then return { printed := report.printed ++ dryRunNote generated.plan }
      else
        match ← (generated.registry.save storage config.paths.registry).run with
        | .ok () => return { printed := report.printed }
        | .error e =>
          return { printed := report.printed
                   failure := some (.during "Failed to save entity registry" e) }

end CommandLine

open CommandLine in
/-- Executes a command on a file system; `clock` tells the time of the migrations. -/
def Command.execute {m : Type → Type} [Monad m] (files : FileSystem m) (clock : m Timestamp) :
    Command → m Ending
  | .generate entity fields relations root config dryRun => do
    match ← (openProject files root config).run with
    | .error failure => return .failed failure
    | .ok project => generateIn clock dryRun { entity, fields, relations } project
  | .list root config => do
    match ← (openProject files root config).run with
    | .error failure => return .failed failure
    | .ok (_, _, registry) => return { printed := listing registry }

end Scaffold
