import Scaffold.CommandLine.Arguments
import Scaffold.CommandLine.Execution
import Std.Time.Zoned

/-!
# The program

The files and the clock of the computer, and the program that executes the command which its
arguments tell. It ends with 0 if all is well, with 1 if the command failed and with 2 if there was
no command.
-/

namespace Scaffold.Program

/-- The fault behind an error of the operating system. -/
def faultOf : IO.Error → Fault
  | .noFileOrDirectory .. => .notFound
  | .alreadyExists .. => .alreadyThere
  | .inappropriateType _ code _ => if code = 20 then .notDirectory else .isDirectory
  | e => .other e.toString

/-- An operation on files, whose errors are faults. -/
def faulting {α : Type} (action : IO α) : ExceptT Fault IO α :=
  ExceptT.mk do return (← action.toBaseIO).mapError faultOf

/-- The answer of a test, which is no if the test fails. -/
def answer (test : IO Bool) : IO Bool := do
  return (← test.toBaseIO).toOption.getD false

/-- The content of a file. -/
def contentOf (path : Path) : ExceptT Fault IO String := do
  match String.fromUTF8? (← faulting (IO.FS.readBinFile path.text)) with
  | some content => return content
  | none => throw .notText

/-- The files of the computer. -/
def files : FileSystem IO where
  isThere path := answer do (← IO.FS.realPath path.text).pathExists
  isDirectory path := answer do (← IO.FS.realPath path.text).isDir
  readText := contentOf
  writeText path content := faulting (IO.FS.writeFile path.text content)
  appendText path content := faulting do
    (← IO.FS.Handle.mk path.text .append).putStr content
  makeDirectories path := faulting (IO.FS.createDirAll path.text)
  listDirectory path := faulting do
    return (← (← IO.FS.realPath path.text).readDir).toList.map fun entry => entry.fileName

/-- The time on the clock of the computer. -/
def clock : IO Timestamp := do
  let now ← Std.Time.PlainDateTime.now
  return { year := now.date.year.toInt, month := now.date.month.toNat, day := now.date.day.toNat
           hour := now.time.hour.toNat, minute := now.time.minute.toNat
           second := now.time.second.toNat }

/-- Executes a command and tells the number with which the program ends. -/
def perform (command : Command) : IO UInt32 := do
  let ending ← command.execute files clock
  IO.print ending.printed
  match ending.failure with
  | none => return 0
  | some failure =>
    IO.eprintln failure.display
    return 1

end Scaffold.Program

/-- Executes the command that the arguments tell. -/
def main (args : List String) : IO UInt32 := do
  match Scaffold.Command.ofArguments args with
  | .ok command => Scaffold.Program.perform command
  | .error e =>
    if e.isAsked then
      IO.println e.message
      return 0
    else
      IO.eprintln e.message
      return 2
