import Scaffold.CommandLine.Basic
import Scaffold.Text.Split

/-!
# Reading arguments

The first argument names the command; the others are options and, for some commands, one plain
argument. `--name value`, `--name=value`, `-n value`, `-nvalue` and `-n=value` give an option its
value, a value of its own does not start with a dash unless it is nothing else, and after `--` all
arguments are plain.

An argument is counted only when the next one is met, so an unknown argument is reported first, even
if the one before it is wrong as well.
-/

namespace Scaffold.CommandLine

/-! ## The form of an argument -/

/-- The form of an argument. -/
inductive Argument where
  /-- Two dashes: all that follow are plain. -/
  | separator
  /-- Two dashes and a name, perhaps with a value after an equals sign. -/
  | long (name : List Char) (value : Option String)
  /-- One dash, a letter and what follows it. -/
  | short (letter : Char) (rest : List Char)
  /-- A plain argument. -/
  | word (text : String)
  deriving DecidableEq, Repr, Inhabited

/-- The form of an argument. -/
def Argument.ofString (argument : String) : Argument :=
  match argument.toList with
  | ['-', '-'] => .separator
  | '-' :: '-' :: rest =>
    match Text.splitFirst '=' rest with
    | some (name, value) => .long name (some (String.ofList value))
    | none => .long rest none
  | '-' :: letter :: rest => .short letter rest
  | _ => .word argument

/-- The value that stands in one argument with its letter. -/
def attachedValue : List Char → Option String
  | [] => none
  | '=' :: value => some (String.ofList value)
  | value => some (String.ofList value)

/-! ## What a command takes -/

/-- An argument with a value. -/
inductive Slot where
  /-- The entity, which is a plain argument. -/
  | entity
  /-- The fields of the entity. -/
  | fields
  /-- The relations of the entity. -/
  | relations
  /-- The root of the project. -/
  | root
  /-- The file of the configuration. -/
  | config
  deriving DecidableEq, Repr, Inhabited

namespace Slot

/-- The slot is filled by a path. -/
def isPath : Slot → Bool
  | .root | .config => true
  | .entity | .fields | .relations => false

/-- The name of the option; a plain argument has none. -/
def longName? : Slot → Option String
  | .entity => none
  | .fields => some "fields"
  | .relations => some "relations"
  | .root => some "root"
  | .config => some "config"

/-- The letter of the option, if it has one. -/
def letter? : Slot → Option Char
  | .fields => some 'f'
  | .relations => some 'r'
  | .config => some 'c'
  | .entity | .root => none

end Slot

/-- What a command takes. -/
structure Form where
  /-- The arguments with a value. -/
  slots : List Slot
  /-- A dry run can be asked for. -/
  takesDryRun : Bool

/-- What the command to generate takes. -/
def generateForm : Form := ⟨[.entity, .fields, .relations, .root, .config], true⟩

/-- What the command to list takes. -/
def listForm : Form := ⟨[.root, .config], false⟩

/-- What an option means to a command. -/
inductive Use where
  /-- It fills a slot, with the value or with the next argument. -/
  | fill (slot : Slot) (value : Option String)
  /-- It asks for a dry run. -/
  | dryRun
  /-- It asks for help. -/
  | help
  deriving DecidableEq, Repr, Inhabited

namespace Form

/-- What an option means that takes no value. -/
def flag (use : Use) (value : Option String) : Except UsageError Use :=
  if value.isSome then .error .valueForFlag else .ok use

/-- What a long option means. -/
def useOfLong (form : Form) (name : String) (value : Option String) : Except UsageError Use :=
  match form.slots.find? fun slot => slot.longName? == some name with
  | some slot => .ok (.fill slot value)
  | none =>
    if name = "dry-run" ∧ form.takesDryRun then flag .dryRun value
    else if name = "help" then flag .help value
    else .error .unknownArgument

/-- What a short option means. -/
def useOfShort (form : Form) (letter : Char) (rest : List Char) : Except UsageError Use :=
  match form.slots.find? fun slot => slot.letter? == some letter with
  | some slot => .ok (.fill slot (attachedValue rest))
  | none => if letter = 'h' then .ok .help else .error .unknownArgument

end Form

/-! ## Reading -/

/-- What was read so far. -/
structure Reading where
  /-- The slots that are filled. -/
  filled : List (Slot × String) := []
  /-- A dry run was asked for. -/
  dryRun : Bool := false
  /-- A slot that was named last and is not yet filled, with its value if that was met. -/
  pending : Option (Slot × Option String) := none
  deriving DecidableEq, Repr, Inhabited

namespace Reading

/-- The value of a slot. -/
def value? (reading : Reading) (slot : Slot) : Option String :=
  reading.filled.lookup slot

/-- Fills a slot. -/
def fill (reading : Reading) (slot : Slot) (value : Option String) : Except UsageError Reading :=
  match value with
  | none => .error .missingValue
  | some value =>
    if (reading.value? slot).isSome then .error .repeatedArgument
    else if slot.isPath ∧ value.isEmpty then .error .missingValue
    else .ok { reading with filled := reading.filled ++ [(slot, value)] }

/-- Fills the slot that is pending. -/
def settle (reading : Reading) : Except UsageError Reading :=
  match reading.pending with
  | none => .ok reading
  | some (slot, value) => { reading with pending := none }.fill slot value

/-- Reads an option. -/
def use (reading : Reading) (use : Use) : Except UsageError Reading := do
  let reading ← reading.settle
  match use with
  | .help => throw .helpAsked
  | .dryRun =>
    if reading.dryRun then throw .repeatedArgument else return { reading with dryRun := true }
  | .fill slot none => return { reading with pending := some (slot, none) }
  | .fill slot value => reading.fill slot value

/-- The entity was met. -/
def hasEntity (reading : Reading) : Bool :=
  (reading.value? .entity).isSome || reading.pending.any fun (slot, _) => slot == .entity

/-- Reads a plain argument that is no value. -/
def plain (form : Form) (reading : Reading) (text : String) : Except UsageError Reading := do
  if form.slots.contains .entity ∧ ¬reading.hasEntity then
    return { (← reading.settle) with pending := some (.entity, some text) }
  else throw .unknownArgument

/-- Reads an argument without dashes. -/
def word (form : Form) (reading : Reading) (text : String) : Except UsageError Reading :=
  match reading.pending with
  | some (slot, none) => .ok { reading with pending := some (slot, some text) }
  | _ => reading.plain form text

/-- Reads all arguments of a command. -/
def readAll (form : Form) (reading : Reading) : List String → Except UsageError Reading
  | [] => reading.settle
  | argument :: rest =>
    match Argument.ofString argument with
    | .separator => do (← rest.foldlM (plain form) reading).settle
    | .long name value => do
      (← reading.use (← form.useOfLong (String.ofList name) value)).readAll form rest
    | .short letter more => do
      (← reading.use (← form.useOfShort letter more)).readAll form rest
    | .word text => do (← reading.word form text).readAll form rest

/-- The root of the project; the current directory if none is given. -/
def root (reading : Reading) : Path :=
  ⟨(reading.value? .root).getD "."⟩

/-- The file of the configuration, if one is given. -/
def config (reading : Reading) : Option Path :=
  (reading.value? .config).map Path.mk

/-- The command to generate. -/
def toGenerate (reading : Reading) : Except UsageError Command :=
  match reading.value? .entity, reading.value? .fields with
  | some entity, some fields =>
    .ok (.generate entity fields (reading.value? .relations) reading.root reading.config
      reading.dryRun)
  | _, _ => .error .missingArgument

/-- The command to list. -/
def toList (reading : Reading) : Command :=
  .list reading.root reading.config

end Reading

/-! ## Commands -/

/-- The names that the first argument may be. -/
def commandNames : List String := ["generate", "list", "help"]

/-- Help on what the arguments name; nothing is below the commands. -/
def help : List String → UsageError
  | [] => .helpAsked
  | [name] => if commandNames.contains name then .helpAsked else .unknownCommand
  | _ :: _ :: _ => .unknownCommand

/-- Why the arguments are no command if the first one, of the given form, names none. -/
def refusal (rest : List String) : Argument → UsageError
  | .separator =>
    match rest with
    | [] => .nothingAsked
    | word :: _ => if commandNames.contains word then .unknownArgument else .unknownCommand
  | .long name value =>
    if name = "help".toList then if value.isSome then .valueForFlag else .helpAsked
    else if name = "version".toList then if value.isSome then .valueForFlag else .versionAsked
    else .unknownArgument
  | .short letter _ =>
    if letter = 'h' then .helpAsked else if letter = 'V' then .versionAsked else .unknownArgument
  | .word _ => .unknownCommand

end CommandLine

/-- The command that arguments tell. -/
def Command.ofArguments : List String → Except UsageError Command
  | [] => .error .nothingAsked
  | first :: rest =>
    if first = "generate" then do
      (← CommandLine.Reading.readAll CommandLine.generateForm {} rest).toGenerate
    else if first = "list" then do
      return (← CommandLine.Reading.readAll CommandLine.listForm {} rest).toList
    else if first = "help" then .error (CommandLine.help rest)
    else .error (CommandLine.refusal rest (CommandLine.Argument.ofString first))

end Scaffold
