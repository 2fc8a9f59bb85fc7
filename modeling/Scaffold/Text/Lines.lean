import Scaffold.Text.Blank

/-!
# Lines of a text

A line feed ends a line, and a carriage return before it belongs to the line's end. What follows the
last line feed is a line if it is not empty.
-/

namespace Scaffold.Text

/-- The line without the carriage return at its end. -/
def dropReturn (line : List Char) : List Char :=
  if line.getLast? = some '\r' then line.dropLast else line

/-- The lines of the pieces between the line feeds. -/
def linesOfPieces : List (List Char) → List (List Char)
  | [] => []
  | [last] => if last.isEmpty then [] else [last]
  | piece :: rest => dropReturn piece :: linesOfPieces rest

/-- The lines of a text. -/
def lines (text : String) : List String :=
  (linesOfPieces (text.toList.splitOn '\n')).map String.ofList

/-- The lines of a text that hold more than blanks, without the blanks at their ends. -/
def contentLines (text : String) : List String :=
  ((lines text).map trim).filter fun line => !line.isEmpty

end Scaffold.Text
