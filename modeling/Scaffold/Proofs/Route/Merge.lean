import Scaffold.Generation.Emission
import Scaffold.Proofs.Repetitions
import Scaffold.Proofs.Text.Lines

/-!
# The content of a route file after a merge

A merge reads a file, puts the opening in front if it has to, and appends what is missing. Here is
what that does to the text (`merged`), apart from any storage.

* `missing` depends on the lines that are present and on nothing else (`unseen_congr`), also not on
  what the lines do (`missing_eq_unseenByClass`), and it is empty once all candidates are present
  (`unseen_eq_nil_iff`).
* Both ways to add lines, the block of a merge and the lines that a dry run adds to the content it
  expects, add the same lines (`contentLines_grown`, `contentLines_withLines`).
* After a merge the file holds its candidates (`holds_merged`), later merges keep them
  (`Holds.merged`), and merging candidates that are held changes nothing (`Holds.merged_eq`).
-/

namespace Scaffold.Route

open Text

/-! ## Missing lines -/

section missing

variable {present present' lines : List String}

/-- The unseen lines are the trimmed, non-blank ones that are not present. -/
theorem mem_unseen {line : String} :
    line ∈ unseen present lines ↔
      line ≠ "" ∧ line ∉ present ∧ ∃ raw ∈ lines, trim raw = line := by
  induction lines generalizing present with
  | nil => simp [unseen]
  | cons raw rest ih =>
    rw [unseen]
    split_ifs with hskip
    · rw [ih]
      constructor
      · rintro ⟨hne, hnew, other, hother, htrim⟩
        exact ⟨hne, hnew, other, List.mem_cons_of_mem _ hother, htrim⟩
      · rintro ⟨hne, hnew, other, hother, rfl⟩
        rcases List.mem_cons.mp hother with rfl | hother
        · rcases hskip with hempty | hmem
          · exact absurd (by simpa using hempty) hne
          · exact absurd hmem hnew
        · exact ⟨hne, hnew, other, hother, rfl⟩
    · rw [not_or] at hskip
      rw [List.mem_cons, ih, List.mem_cons]
      constructor
      · rintro (rfl | ⟨hne, hnew, other, hother, htrim⟩)
        · exact ⟨by simpa using hskip.1, hskip.2, raw, List.mem_cons_self, rfl⟩
        · exact ⟨hne, fun h => hnew (Or.inr h), other, List.mem_cons_of_mem _ hother, htrim⟩
      · rintro ⟨hne, hnew, other, hother, rfl⟩
        by_cases heq : trim other = trim raw
        · exact Or.inl heq
        · refine Or.inr ⟨hne, fun h => h.elim heq hnew, other, ?_, rfl⟩
          rcases List.mem_cons.mp hother with rfl | hother
          · exact absurd rfl heq
          · exact hother

/-- Nothing is unseen exactly if each line is blank or present. -/
theorem unseen_eq_nil_iff :
    unseen present lines = [] ↔ ∀ raw ∈ lines, trim raw = "" ∨ trim raw ∈ present := by
  rw [List.eq_nil_iff_forall_not_mem]
  constructor
  · intro h raw hraw
    by_contra hnot
    rw [not_or] at hnot
    exact h (trim raw) (mem_unseen.mpr ⟨hnot.1, hnot.2, raw, hraw, rfl⟩)
  · intro h line hline
    obtain ⟨hne, hnew, raw, hraw, rfl⟩ := mem_unseen.mp hline
    exact (h raw hraw).elim hne hnew

/-- What is missing depends on the candidates among the present lines only. -/
theorem unseen_congr (h : ∀ raw ∈ lines, trim raw ∈ present ↔ trim raw ∈ present') :
    unseen present lines = unseen present' lines := by
  induction lines generalizing present present' with
  | nil => rfl
  | cons raw rest ih =>
    have hrest : ∀ other ∈ rest, trim other ∈ present ↔ trim other ∈ present' :=
      fun other hother => h other (List.mem_cons_of_mem _ hother)
    simp only [unseen, h raw List.mem_cons_self]
    split_ifs with hskip
    · exact ih hrest
    · have htail : unseen (trim raw :: present) rest = unseen (trim raw :: present') rest :=
        ih fun other hother => by simp only [List.mem_cons, hrest other hother]
      rw [htail]

/-- The lines that are not present yet, each where it comes first. -/
theorem unseen_eq_eraseDups (present lines : List String) :
    unseen present lines =
      ((lines.map trim).filter fun line => line ≠ "" ∧ line ∉ present).eraseDups := by
  suffices h : unseen present lines =
      (((lines.map trim).filter (· ≠ "")).filter (· ∉ present)).eraseDups by
    rw [h, List.filter_filter]
    simp [Bool.and_comm]
  induction lines generalizing present with
  | nil => rfl
  | cons raw rest ih =>
    have hempty : (trim raw).isEmpty = true ↔ trim raw = "" := by simp
    rw [unseen, List.map_cons, List.filter_cons]
    simp only [hempty]
    by_cases hblank : trim raw = ""
    · simp only [hblank, true_or, ↓reduceIte, ne_eq, not_true_eq_false, decide_false,
        Bool.false_eq_true]
      exact ih present
    · simp only [hblank, false_or, ne_eq, not_false_eq_true, decide_true, ↓reduceIte]
      rw [eraseDups_filter_notMem_cons]
      split_ifs
      · exact ih present
      · rw [ih]

/-- A line together with what it does. -/
def classified (line : String) : LineClass × String :=
  (classify line, line)

/-- The lines that are not present yet, where lines are told apart by what they do as well. -/
def unseenByClass (present : List (LineClass × String)) : List String → List String
  | [] => []
  | line :: rest =>
    let line := trim line
    if line.isEmpty ∨ classified line ∈ present then unseenByClass present rest
    else line :: unseenByClass (classified line :: present) rest

/-- The class of a line never decides whether it has been seen. -/
theorem unseenByClass_map_classified (present lines : List String) :
    unseenByClass (present.map classified) lines = unseen present lines := by
  have hmem : ∀ (line : String) (present : List String),
      classified line ∈ present.map classified ↔ line ∈ present := fun line present =>
    List.mem_map_of_injective fun first second heq => congrArg Prod.snd heq
  induction lines generalizing present with
  | nil => rfl
  | cons raw rest ih =>
    simp only [unseen, unseenByClass, hmem]
    split_ifs with hskip
    · exact ih present
    · exact congrArg (trim raw :: ·) (ih (trim raw :: present))

/-- What a line does never decides whether it is missing, since it is seen from the line itself. -/
theorem missing_eq_unseenByClass (existing : String) (lines : List String) :
    missing existing lines = unseenByClass ((contentLines existing).map classified) lines :=
  (unseenByClass_map_classified (contentLines existing) lines).symm

end missing

/-! ## Adding lines to a text -/

/-- The lines of joined texts are the lines of each of them. -/
theorem contentLines_intercalate (lines : List String) :
    contentLines ("\n".intercalate lines) = lines.flatMap contentLines := by
  induction lines with
  | nil => rfl
  | cons line rest ih =>
    cases rest with
    | nil => simp
    | cons next rest =>
      rw [String.intercalate_cons_cons, contentLines_append_newline, ih]
      exact List.flatMap_cons.symm

/-- A text after lines were added to it as a block; adding no lines adds no block. -/
def grown (content : String) (added : List String) : String :=
  if added.isEmpty then content else content ++ appendBlock added

/-- An appended block adds the lines it was given. -/
theorem contentLines_append_block (content : String) (added : List String) :
    contentLines (content ++ appendBlock added) =
      contentLines content ++ added.flatMap contentLines := by
  have hblock : content ++ appendBlock added =
      content ++ "\n" ++ "\n".intercalate added ++ "\n" ++ "" := by
    simp [appendBlock, String.append_assoc]
  rw [hblock, contentLines_append_newline, contentLines_append_newline, contentLines_intercalate,
    contentLines_empty, List.append_nil]

/-- A route file that grows keeps its lines and adds the new ones. -/
theorem contentLines_grown (content : String) (added : List String) :
    contentLines (grown content added) = contentLines content ++ added.flatMap contentLines := by
  unfold grown
  split_ifs with hempty
  · rw [List.isEmpty_iff.mp hempty, List.flatMap_nil, List.append_nil]
  · exact contentLines_append_block content added

/-- So does a file with lines at its end, whether it had any or not. -/
theorem contentLines_withLines (content : String) (added : List String) :
    contentLines (Emission.withLines content added) =
      contentLines content ++ added.flatMap contentLines := by
  induction added generalizing content with
  | nil => simp [Emission.withLines]
  | cons line rest ih =>
    have hstep : Emission.withLines content (line :: rest) =
        Emission.withLines (content ++ "\n" ++ line) rest := by
      simp [Emission.withLines, String.append_assoc]
    rw [hstep, ih, contentLines_append_newline, List.flatMap_cons, List.append_assoc]

/-! ## The opening -/

/-- The content of a file once it starts as a script, where `current` is what was there. -/
def opened (current : Option String) : String :=
  (withPreamble current).getD (current.getD "")

section opened

variable {current : Option String} {content : String}

/-- A file that needs no preamble is opened as it is. -/
theorem opened_of_withPreamble_eq_none (h : withPreamble current = none) :
    opened current = current.getD "" := by
  rw [opened, h, Option.getD_none]

/-- A file that needs one is opened with it. -/
theorem opened_of_withPreamble_eq_some (h : withPreamble current = some content) :
    opened current = content := by
  rw [opened, h, Option.getD_some]

end opened

/-- The preamble is a line of its own, before all others. -/
theorem contentLines_opening_append (content : String) :
    contentLines (opening ++ content) = preamble :: contentLines content := by
  have hopening : opening ++ content = preamble ++ "\n" ++ "" ++ "\n" ++ content := by
    simp [opening, String.append_assoc]
  have hpreamble : contentLines preamble = [preamble] := by decide +kernel
  rw [hopening, contentLines_append_newline, contentLines_append_newline, hpreamble,
    contentLines_empty]
  rfl

/-- A file gets the opening in front, or stays as it is. -/
theorem opened_eq (current : Option String) :
    opened current =
      (if (withPreamble current).isSome then opening else "") ++ current.getD "" := by
  unfold opened
  cases current with
  | none => simp [withPreamble]
  | some content => by_cases hstart : startsAsScript content = true <;> simp [withPreamble, hstart]

/-- The opening adds itself to the lines of a file and nothing else. -/
theorem mem_contentLines_opened {line : String} {current : Option String} :
    line ∈ contentLines (opened current) ↔
      line ∈ contentLines (current.getD "") ∨
        (withPreamble current).isSome = true ∧ line = preamble := by
  rw [opened_eq]
  cases (withPreamble current).isSome with
  | true => simp [contentLines_opening_append, or_comm]
  | false => simp

/-- Opening a file adds no line but the preamble. -/
theorem mem_contentLines_opened_of_ne {line : String} (hline : line ≠ preamble)
    (current : Option String) :
    line ∈ contentLines (opened current) ↔ line ∈ contentLines (current.getD "") := by
  simp [mem_contentLines_opened, hline]

/-- What is appended does not change how a file starts. -/
theorem startsAsScript_append {content : String} (h : startsAsScript content = true)
    (more : String) : startsAsScript (content ++ more) = true := by
  unfold startsAsScript at h ⊢
  rw [List.isPrefixOf_iff_prefix] at h ⊢
  rw [String.toList_append, List.dropWhile_append, if_neg]
  · exact h.trans (List.prefix_append _ _)
  · intro hempty
    rw [List.isEmpty_iff.mp hempty, List.prefix_nil] at h
    exact absurd h (by decide)

/-- The preamble starts a script. -/
theorem startsAsScript_opening : startsAsScript opening = true := by decide +kernel

/-- An opened file starts as a script. -/
theorem startsAsScript_opened (current : Option String) :
    startsAsScript (opened current) = true := by
  unfold opened
  cases current with
  | none => exact startsAsScript_opening
  | some content =>
    by_cases hstart : startsAsScript content = true
    · simp [withPreamble, hstart]
    · simp [withPreamble, hstart, startsAsScript_append startsAsScript_opening]

/-- A file that starts as a script is opened as it is. -/
theorem opened_of_startsAsScript {content : String} (h : startsAsScript content = true) :
    opened (some content) = content := by
  simp [opened, withPreamble, h]

/-! ## Merging -/

/-- The content of a file after `lines` were merged into it, where `current` is what was there. -/
def merged (current : Option String) (lines : List String) : String :=
  grown (opened current) (missing (opened current) lines)

/-- A script that grows is still a script. -/
theorem startsAsScript_grown {content : String} (h : startsAsScript content = true)
    (added : List String) : startsAsScript (grown content added) = true := by
  unfold grown
  split_ifs
  · exact h
  · exact startsAsScript_append h _

/-- The content starts as a script and has all of the lines. -/
structure Holds (content : String) (lines : List String) : Prop where
  /-- It starts as a script. -/
  script : startsAsScript content = true
  /-- Every line that counts is there. -/
  present : ∀ raw ∈ lines, trim raw = "" ∨ trim raw ∈ contentLines content

/-- A candidate without line feeds is read back as it was written. -/
theorem contentLines_of_mem_missing {existing line : String} {lines : List String}
    (hlines : ∀ raw ∈ lines, '\n' ∉ raw.toList) (h : line ∈ missing existing lines) :
    contentLines line = [line] := by
  obtain ⟨hne, -, raw, hraw, rfl⟩ := mem_unseen.mp h
  have hfeed : '\n' ∉ (trim raw).toList := by
    rw [toList_trim]
    intro hmem
    exact hlines raw hraw (mem_of_mem_strip hmem)
  rw [contentLines_of_not_mem hfeed, trim_trim, if_neg (by simpa using hne)]

/-- The missing lines are read back as they were written. -/
theorem flatMap_contentLines_missing {lines : List String}
    (hlines : ∀ raw ∈ lines, '\n' ∉ raw.toList) (existing : String) :
    (missing existing lines).flatMap contentLines = missing existing lines := by
  rw [List.flatMap_congr (g := fun line => [line]) fun line hline =>
    contentLines_of_mem_missing hlines hline, List.flatMap_singleton']

/-- After a merge the file has the candidates and what was there, and no other lines. -/
theorem mem_contentLines_merged {line : String} {lines : List String}
    (hlines : ∀ raw ∈ lines, '\n' ∉ raw.toList) (current : Option String) :
    line ∈ contentLines (merged current lines) ↔
      line ∈ contentLines (opened current) ∨ line ≠ "" ∧ ∃ raw ∈ lines, trim raw = line := by
  have hmissing : line ∈ missing (opened current) lines ↔
      line ≠ "" ∧ line ∉ contentLines (opened current) ∧ ∃ raw ∈ lines, trim raw = line :=
    mem_unseen
  unfold merged
  rw [contentLines_grown, List.mem_append, flatMap_contentLines_missing hlines, hmissing]
  by_cases hthere : line ∈ contentLines (opened current) <;> simp [hthere]

/-- After a merge the file holds what was merged. A candidate that has a line feed in it would be
read back as two lines, so there must be none. -/
theorem holds_merged {lines : List String} (hlines : ∀ raw ∈ lines, '\n' ∉ raw.toList)
    (current : Option String) : Holds (merged current lines) lines where
  script := startsAsScript_grown (startsAsScript_opened current) _
  present raw hraw := by
    by_cases hempty : trim raw = ""
    · exact Or.inl hempty
    · exact Or.inr ((mem_contentLines_merged hlines current).mpr (Or.inr ⟨hempty, raw, hraw, rfl⟩))

namespace Holds

variable {content : String} {lines : List String}

/-- Nothing of what a file holds is missing. -/
theorem missing_eq (h : Holds content lines) : missing content lines = [] :=
  unseen_eq_nil_iff.mpr h.present

/-- Merging what a file holds leaves it as it is. -/
theorem merged_eq (h : Holds content lines) : merged (some content) lines = content := by
  unfold merged
  rw [opened_of_startsAsScript h.script, h.missing_eq]
  rfl

/-- Merging anything else keeps what a file holds. -/
theorem merged (h : Holds content lines) (more : List String) :
    Holds (merged (some content) more) lines := by
  unfold Route.merged
  rw [opened_of_startsAsScript h.script]
  refine ⟨startsAsScript_grown h.script _, ?_⟩
  intro raw hraw
  rw [contentLines_grown, List.mem_append]
  exact (h.present raw hraw).imp_right Or.inl

end Holds

end Scaffold.Route
