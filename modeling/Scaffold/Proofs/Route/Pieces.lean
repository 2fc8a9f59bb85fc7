import Scaffold.Proofs.Route.Merge

/-!
# Merging lines in pieces

Lines may be handed over all at once, or some of them first and the others when the file is read
again. Main statement: the same lines are found missing, in the same order, whether the first ones
were written to the file as a block or only put behind the content that a dry run expects
(`missing_append`).

In one call the lines that were met are kept in a list; between two calls they are only in the text.
So two things are said: what the list does (`unseen_append`), and that the grown text reads as the
old lines with the added ones behind them (`contentLines_append_block` and `contentLines_withLines`,
with `flatMap_contentLines_missing`).
-/

namespace Scaffold.Route

open Text

/-- The lines of a second list are missing if they are neither present nor among what the first list
lacks. -/
theorem unseen_append (present first second : List String) :
    unseen present (first ++ second) =
      unseen present first ++ unseen (present ++ unseen present first) second := by
  induction first generalizing present with
  | nil => simp [unseen]
  | cons raw rest ih =>
    rw [List.cons_append, unseen, unseen]
    split_ifs with hskip
    · exact ih present
    · rw [ih, List.cons_append]
      congr 2
      exact unseen_congr fun other _ => by simp [or_left_comm]

/-- A text that reads as the old one with the missing lines behind it lacks what is missing further
on. -/
theorem missing_append_of_contentLines {existing extended : String} {first : List String}
    (h : contentLines extended = contentLines existing ++ missing existing first)
    (second : List String) :
    missing existing (first ++ second) = missing existing first ++ missing extended second := by
  unfold missing at h ⊢
  rw [h]
  exact unseen_append (contentLines existing) first second

/-- What is missing of two lists of lines is what is missing of the first and then, in the text to
which that was appended, of the second. It does not matter whether the text was extended by a block,
as a merge does, or line by line, as a dry run does. A line of the first list that has a line feed
in it would be read back as two lines, so there must be none. -/
theorem missing_append (existing : String) {first : List String}
    (hfirst : ∀ raw ∈ first, '\n' ∉ raw.toList) (second : List String) :
    missing existing (first ++ second) =
        missing existing first ++
          missing (existing ++ appendBlock (missing existing first)) second ∧
      missing existing (first ++ second) =
        missing existing first ++
          missing (Emission.withLines existing (missing existing first)) second := by
  have hadded := flatMap_contentLines_missing hfirst existing
  constructor
  · apply missing_append_of_contentLines
    rw [contentLines_append_block, hadded]
  · apply missing_append_of_contentLines
    rw [contentLines_withLines, hadded]

/-- A line of the first list is not missing again, although the text did not end in a line feed and
the line comes back with other blanks. -/
theorem missing_append_use :
    (∀ raw ∈ [" use B;", "use A;"], '\n' ∉ raw.toList) ∧
      missing "use A;\r" [" use B;", "use A;"] = ["use B;"] ∧
      missing ("use A;\r" ++ appendBlock ["use B;"]) ["use B;\t", "Route::c();"] =
        ["Route::c();"] ∧
      missing (Emission.withLines "use A;\r" ["use B;"]) ["use B;\t", "Route::c();"] =
        ["Route::c();"] := by
  have hfirst : ∀ raw ∈ [" use B;", "use A;"], '\n' ∉ raw.toList := by decide +kernel
  have hmissing : missing "use A;\r" [" use B;", "use A;"] = ["use B;"] := by decide +kernel
  have hboth : missing "use A;\r" ([" use B;", "use A;"] ++ ["use B;\t", "Route::c();"]) =
      ["use B;", "Route::c();"] := by decide +kernel
  obtain ⟨hblock, hlines⟩ := missing_append "use A;\r" hfirst ["use B;\t", "Route::c();"]
  rw [hboth, hmissing] at hblock hlines
  exact ⟨hfirst, hmissing, (List.cons.inj hblock).2.symm, (List.cons.inj hlines).2.symm⟩

end Scaffold.Route
