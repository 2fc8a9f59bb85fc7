/-!
# Pieces of generated text

The generated files are written line by line, and each line ends in a line feed. Values are put into
them as they are: in single quotes, in lists of such literals, and in the double braces that the
pages use for expressions.
-/

namespace Scaffold.Template

/-- The text of the lines, each with its end. -/
def unlines (lines : List String) : String :=
  String.join (lines.map fun line => line ++ "\n")

/-- The value in single quotes. -/
def quoted (value : String) : String :=
  "'" ++ value ++ "'"

/-- The values in single quotes, separated by commas. -/
def quotedList (values : List String) : String :=
  ", ".intercalate (values.map quoted)

/-- An expression whose value a page shows. -/
def echo (expression : String) : String :=
  "\x7b\x7b " ++ expression ++ " \x7d\x7d"

/-- The address of a route without arguments. -/
def routeUrl (resource action : String) : String :=
  echo ("route(\"" ++ resource ++ "." ++ action ++ "\")")

/-- The address of a route for the record in a variable. -/
def recordUrl (resource action variableName : String) : String :=
  echo ("route(\"" ++ resource ++ "." ++ action ++ "\", $" ++ variableName ++ ")")

end Scaffold.Template
