import Mathlib.Data.List.DropRight
import Scaffold.Text.Blank

/-!
# What trimming keeps

`stripWhile p` removes the characters in `p` from the two ends of a text. What is said here is all
that later proofs use of it: the removed characters are in `p` (`exists_eq_append_stripWhile`), the
ends of what remains are not (`head?_stripWhile`, `getLast?_stripWhile`), a text with such ends is
not changed (`stripWhile_eq_self`), and more characters in `p` at one of its ends change nothing
(`stripWhile_append_left`, `stripWhile_append_right`). Which characters are blanks is said in
`isBlank_iff`.
-/

namespace Scaffold.Text

variable {p : Char → Bool} {cs back : List Char}

/-! ## Blanks -/

/-- The characters of the Unicode property White_Space. -/
def whiteSpace : List Char :=
  ['\t', '\n', '\x0B', '\x0C', '\r', ' ', '\u0085', '\u00A0', '\u1680', '\u2000',
    '\u2001', '\u2002', '\u2003', '\u2004', '\u2005', '\u2006', '\u2007', '\u2008', '\u2009',
    '\u200A', '\u2028', '\u2029', '\u202F', '\u205F', '\u3000']

/-- The blanks are the characters of the property White_Space. -/
theorem isBlank_iff {c : Char} : isBlank c = true ↔ c ∈ whiteSpace := by
  have hcodes : whiteSpace.map Char.toNat =
      [0x9, 0xA, 0xB, 0xC, 0xD, 0x20, 0x85, 0xA0, 0x1680, 0x2000, 0x2001, 0x2002, 0x2003, 0x2004,
        0x2005, 0x2006, 0x2007, 0x2008, 0x2009, 0x200A, 0x2028, 0x2029, 0x202F, 0x205F,
        0x3000] := by
    decide
  have hinj : Function.Injective Char.toNat := fun _ _ h => Char.toNat_inj.mp h
  rw [← List.mem_map_of_injective hinj, hcodes]
  simp only [isBlank, Bool.or_eq_true, Bool.and_eq_true, decide_eq_true_eq, beq_iff_eq,
    List.mem_cons, List.not_mem_nil, or_false]
  omega

/-! ## Both ends -/

/-- Dropping at the end is the function of the library. -/
theorem dropEndWhile_eq_rdropWhile {α : Type} (p : α → Bool) (xs : List α) :
    dropEndWhile p xs = xs.rdropWhile p := rfl

/-- What is dropped at the end may be longer. -/
theorem dropEndWhile_append_right {α : Type} {p : α → Bool} {ys : List α}
    (h : ∀ y ∈ ys, p y = true) (xs : List α) : dropEndWhile p (xs ++ ys) = dropEndWhile p xs := by
  unfold dropEndWhile
  rw [List.reverse_append, List.dropWhile_append_of_pos]
  intro y hy
  exact h y (List.mem_reverse.mp hy)

/-- The blanks at the end are found after those at the start are gone; a text of blanks only is
used up by the first search, which is why that case stands apart. -/
theorem stripWhile_append_right (h : ∀ c ∈ back, p c = true) (cs : List Char) :
    stripWhile p (cs ++ back) = stripWhile p cs := by
  unfold stripWhile
  rw [List.dropWhile_append]
  split_ifs with hempty
  · have hback : back.dropWhile p = [] := List.dropWhile_eq_nil_iff.mpr h
    rw [List.isEmpty_iff.mp hempty, hback]
  · exact dropEndWhile_append_right h _

/-- So may what is dropped in front. -/
theorem stripWhile_append_left {front : List Char} (h : ∀ c ∈ front, p c = true) (cs : List Char) :
    stripWhile p (front ++ cs) = stripWhile p cs := by
  unfold stripWhile
  rw [List.dropWhile_append_of_pos h]

/-- Stripping takes off text at both ends and nothing else. -/
theorem exists_eq_append_stripWhile (p : Char → Bool) (cs : List Char) :
    ∃ front back, (∀ c ∈ front, p c = true) ∧ (∀ c ∈ back, p c = true) ∧
      cs = front ++ stripWhile p cs ++ back := by
  refine ⟨cs.takeWhile p, (cs.dropWhile p).rtakeWhile p, ?_, ?_, ?_⟩
  · intro c hc
    exact List.mem_takeWhile_imp hc
  · intro c hc
    exact List.mem_rtakeWhile_imp hc
  · have hend : stripWhile p cs ++ (cs.dropWhile p).rtakeWhile p = cs.dropWhile p :=
      List.rdropWhile_append_rtakeWhile
    rw [List.append_assoc, hend, List.takeWhile_append_dropWhile]

/-- What is left was there before. -/
theorem mem_of_mem_stripWhile {c : Char} (h : c ∈ stripWhile p cs) : c ∈ cs := by
  obtain ⟨front, back, -, -, heq⟩ := exists_eq_append_stripWhile p cs
  rw [heq]
  exact List.mem_append_left _ (List.mem_append_right _ h)

/-- A character outside `p` is not removed. -/
theorem mem_stripWhile_iff {c : Char} (hc : p c = false) : c ∈ stripWhile p cs ↔ c ∈ cs := by
  constructor
  · exact mem_of_mem_stripWhile
  · intro h
    obtain ⟨front, back, hfront, hback, heq⟩ := exists_eq_append_stripWhile p cs
    rw [heq, List.mem_append, List.mem_append] at h
    rcases h with (h | h) | h
    · exact absurd (hfront c h) (by simp [hc])
    · exact h
    · exact absurd (hback c h) (by simp [hc])

/-! ## The ends of what remains -/

/-- The last character that is left is not to be dropped. -/
theorem getLast?_stripWhile {c : Char} (h : (stripWhile p cs).getLast? = some c) : p c = false := by
  have hne : stripWhile p cs ≠ [] := by
    intro hnil
    simp [hnil] at h
  rw [List.getLast?_eq_some_getLast hne, Option.some.injEq] at h
  rw [← h]
  exact Bool.eq_false_iff.mpr (List.rdropWhile_last_not p (cs.dropWhile p) hne)

/-- Nor is the first. -/
theorem head?_stripWhile {c : Char} (h : (stripWhile p cs).head? = some c) : p c = false := by
  obtain ⟨rest, hrest⟩ : stripWhile p cs <+: cs.dropWhile p := List.rdropWhile_prefix p _
  have hhead : (cs.dropWhile p).head? = some c := by
    rw [← hrest, List.head?_append, h]
    rfl
  have hnot := List.head?_dropWhile_not p cs
  rw [hhead] at hnot
  exact hnot

/-- A text that starts outside `p` keeps its first character. -/
theorem head?_stripWhile_cons {c : Char} (h : p c = false) (rest : List Char) :
    (stripWhile p (c :: rest)).head? = some c := by
  obtain ⟨front, back, hfront, hback, heq⟩ := exists_eq_append_stripWhile p (c :: rest)
  cases front with
  | cons first more =>
    obtain rfl : c = first := by simpa using congrArg List.head? heq
    exact absurd (hfront c List.mem_cons_self) (by simp [h])
  | nil =>
    cases hstrip : stripWhile p (c :: rest) with
    | cons first more =>
      rw [hstrip] at heq
      simpa using (congrArg List.head? heq).symm
    | nil =>
      rw [hstrip, List.append_nil, List.nil_append] at heq
      exact absurd (hback c (heq ▸ List.mem_cons_self)) (by simp [h])

/-- A text that neither starts nor ends in `p` stays as it is. -/
theorem stripWhile_eq_self (hhead : ∀ c, cs.head? = some c → p c = false)
    (hlast : ∀ c, cs.getLast? = some c → p c = false) : stripWhile p cs = cs := by
  have hdrop : cs.dropWhile p = cs := by
    cases cs with
    | nil => rfl
    | cons c rest => exact List.dropWhile_cons_of_neg (by simp [hhead c rfl])
  unfold stripWhile
  rw [hdrop, dropEndWhile_eq_rdropWhile, List.rdropWhile_eq_self_iff]
  intro hne
  simp [hlast _ (List.getLast?_eq_some_getLast hne)]

/-- A second stripping finds nothing. -/
theorem stripWhile_idem (p : Char → Bool) (cs : List Char) :
    stripWhile p (stripWhile p cs) = stripWhile p cs :=
  stripWhile_eq_self (fun _ => head?_stripWhile) fun _ => getLast?_stripWhile

/-! ## Blanks and strings -/

/-- Blanks at the end do not matter. -/
theorem strip_append_right (h : ∀ c ∈ back, isBlank c = true) (cs : List Char) :
    strip (cs ++ back) = strip cs :=
  stripWhile_append_right h cs

/-- Blanks on both sides are no part of what is stripped. -/
theorem strip_append_append {front : List Char} (hfront : ∀ c ∈ front, isBlank c = true)
    (hback : ∀ c ∈ back, isBlank c = true) (cs : List Char) :
    strip (front ++ cs ++ back) = strip cs := by
  rw [strip_append_right hback]
  exact stripWhile_append_left hfront cs

/-- A text is stripped at once. -/
@[simp] theorem strip_strip (cs : List Char) : strip (strip cs) = strip cs :=
  stripWhile_idem isBlank cs

/-- A text is trimmed at once. -/
@[simp] theorem trim_trim (text : String) : trim (trim text) = trim text := by
  simp [trim]

/-- The characters left by stripping are those of the text. -/
theorem mem_of_mem_strip {c : Char} (h : c ∈ strip cs) : c ∈ cs :=
  mem_of_mem_stripWhile h

end Scaffold.Text
