import Scaffold.Proofs.Text.Strip
import Scaffold.Text.Lines

/-!
# The lines that hold something

`contentLines` reads a text line by line and drops what does not count: blanks at the ends of a
line, carriage returns, blank lines. Once that is dropped, nothing is left of how the lines are
ended, so a line feed between two texts only puts their lines together
(`contentLines_append_newline`). That is what makes a file that grows line by line predictable.
-/

namespace Scaffold.Text

/-! ## Pieces between line feeds -/

/-- A carriage return at the end is a blank. -/
theorem strip_dropReturn (line : List Char) : strip (dropReturn line) = strip line := by
  unfold dropReturn
  split_ifs with hlast
  · obtain ⟨front, rfl⟩ := List.getLast?_eq_some_iff.mp hlast
    rw [List.dropLast_concat, strip_append_right]
    intro c hc
    rw [List.mem_singleton.mp hc]
    decide
  · rfl

/-- A piece with its blanks removed, if anything is left of it. -/
def contentOf (piece : List Char) : Option String :=
  if (strip piece).isEmpty then none else some (String.ofList (strip piece))

/-- Hence it does not belong to the content of a line. -/
theorem contentOf_dropReturn (piece : List Char) :
    contentOf (dropReturn piece) = contentOf piece := by
  unfold contentOf
  rw [strip_dropReturn]

/-- The lines have the contents of the pieces they are made from. -/
theorem filterMap_contentOf_linesOfPieces (pieces : List (List Char)) :
    (linesOfPieces pieces).filterMap contentOf = pieces.filterMap contentOf := by
  induction pieces using linesOfPieces.induct with
  | case1 => rfl
  | case2 last hempty =>
    rw [linesOfPieces, if_pos hempty, List.isEmpty_iff.mp hempty]
    rfl
  | case3 last hempty => rw [linesOfPieces, if_neg hempty]
  | case4 piece rest hrest ih =>
    rw [linesOfPieces, List.filterMap_cons, List.filterMap_cons, contentOf_dropReturn, ih]
    exact hrest

/-! ## Lines of a text -/

/-- The lines that hold something are the pieces between the line feeds that hold something. -/
theorem contentLines_eq_filterMap (text : String) :
    contentLines text = (text.toList.splitOn '\n').filterMap contentOf := by
  rw [← filterMap_contentOf_linesOfPieces]
  unfold contentLines lines
  rw [List.map_map, List.filter_map, ← List.filterMap_eq_map, List.filterMap_filter]
  apply List.filterMap_congr
  intro piece _
  by_cases hempty : strip piece = [] <;> simp [contentOf, trim, hempty]

/-- A line feed between two texts ends the last line of the first. -/
theorem contentLines_append_newline (a b : String) :
    contentLines (a ++ "\n" ++ b) = contentLines a ++ contentLines b := by
  have hsplit : (a ++ "\n" ++ b).toList.splitOn '\n' =
      a.toList.splitOn '\n' ++ b.toList.splitOn '\n' := by
    simp [List.splitOn_append_cons_self]
  rw [contentLines_eq_filterMap, hsplit, List.filterMap_append, ← contentLines_eq_filterMap,
    ← contentLines_eq_filterMap]

/-- The empty text has no lines. -/
@[simp] theorem contentLines_empty : contentLines "" = [] := rfl

/-- A text without line feeds is one line. -/
theorem contentLines_of_not_mem {line : String} (h : '\n' ∉ line.toList) :
    contentLines line = if (trim line).isEmpty then [] else [trim line] := by
  rw [contentLines_eq_filterMap, List.splitOn_eq_singleton h]
  by_cases hempty : strip line.toList = [] <;> simp [contentOf, trim, hempty]

end Scaffold.Text
