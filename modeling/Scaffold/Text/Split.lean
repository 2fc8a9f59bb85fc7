/-!
# Searching and cutting text

A text cut at the first occurrence of a character, and the search for one text inside another.
Cutting at every occurrence is `List.splitOn` of the core library.
-/

namespace Scaffold.Text

/-- What precedes and what follows the first `sep` of a text; `none` if it has no `sep`. -/
def splitFirst (sep : Char) : List Char → Option (List Char × List Char)
  | [] => none
  | c :: rest =>
    if c == sep then some ([], rest)
    else (splitFirst sep rest).map fun parts => (c :: parts.1, parts.2)

/-- `needle` occurs in a text, as a whole and in one piece. -/
def occursIn (needle : List Char) : List Char → Bool
  | [] => needle.isEmpty
  | c :: rest => needle.isPrefixOf (c :: rest) || occursIn needle rest

/-- `needle` occurs in `text`. -/
def contains (text needle : String) : Bool :=
  occursIn needle.toList text.toList

/-! ## Laws -/

/-- A split is at the first separator. -/
theorem splitFirst_eq_some {sep : Char} {cs front back : List Char}
    (h : splitFirst sep cs = some (front, back)) : cs = front ++ sep :: back ∧ sep ∉ front := by
  induction cs generalizing front with
  | nil => simp [splitFirst] at h
  | cons c rest ih =>
    rw [splitFirst] at h
    split at h
    · next hc => simp_all
    · next hc =>
      obtain ⟨parts, hparts, heq⟩ := Option.map_eq_some_iff.1 h
      obtain ⟨rfl, rfl⟩ : c :: parts.1 = front ∧ parts.2 = back := by simpa using heq
      obtain ⟨hrest, hfront⟩ := @ih parts.1 (by simp [hparts])
      refine ⟨by simp [← hrest], ?_⟩
      simp only [List.mem_cons, not_or]
      exact ⟨fun hsep => by simp [hsep] at hc, hfront⟩

/-- There is no split exactly if there is no separator. -/
theorem splitFirst_eq_none_iff {sep : Char} {cs : List Char} :
    splitFirst sep cs = none ↔ sep ∉ cs := by
  induction cs with
  | nil => simp [splitFirst]
  | cons c rest ih =>
    rw [splitFirst]
    split
    · next hc => simp_all
    · next hc =>
      have hne : sep ≠ c := fun h => by simp [h] at hc
      simp [ih, hne]

/-- The first separator splits what stands before it from the rest. -/
theorem splitFirst_append {sep : Char} {front : List Char} (h : sep ∉ front) (back : List Char) :
    splitFirst sep (front ++ sep :: back) = some (front, back) := by
  induction front with
  | nil => simp [splitFirst]
  | cons c rest ih =>
    simp only [List.mem_cons, not_or] at h
    have hc : (c == sep) = false := by simpa using fun hcs => h.1 hcs.symm
    simp [splitFirst, hc, ih h.2]

/-- What occurs in a text is an infix of it. -/
theorem occursIn_iff_infix {needle cs : List Char} :
    occursIn needle cs = true ↔ needle <:+: cs := by
  induction cs with
  | nil => simp [occursIn, List.isEmpty_iff]
  | cons c rest ih =>
    rw [occursIn, Bool.or_eq_true, List.isPrefixOf_iff_prefix, ih, List.infix_cons_iff]

end Scaffold.Text
