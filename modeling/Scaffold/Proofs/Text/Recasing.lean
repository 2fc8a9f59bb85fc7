import Mathlib.Data.List.Chain
import Scaffold.Proofs.Text.Words

/-!
# Plain text in another convention, character by character

A convention is defined by the words of a text. For plain text it can be followed along the
characters instead: what happens to a character depends on whether a word starts at it, and that on
the character before it and the two behind. `pascalFrom` writes the words in capitals (`pascal_eq`),
`underscored` in small letters with underscores between them (`snake_eq`).

A word starts at a small letter only behind a digit, and at a capital behind a small letter, a digit
or another capital that a small letter follows (`endsWord_of_isLower`, `endsWord_of_capital`).
-/

namespace Scaffold.Text

variable {c d : Char} {cs word rest after : List Char} {start : Bool}

/-! ## Letters of either case -/

/-- Plain characters are in ASCII. -/
theorem isAscii_of_isPlain (hc : isPlain c = true) : isAscii c = true := by
  rw [isPlain_iff] at hc
  simp only [isAscii, decide_eq_true_eq]
  omega

/-- The upper case of a plain character is the one of ASCII. -/
theorem upperChar_of_isPlain (hc : isPlain c = true) : upperChar c = [c.toUpper] := by
  rw [upperChar, if_pos (isAscii_of_isPlain hc)]

/-- So is its lower case. -/
theorem lowerChar_of_isPlain (hc : isPlain c = true) : lowerChar c = [c.toLower] := by
  rw [lowerChar, if_pos (isAscii_of_isPlain hc)]

/-- On plain text the capitals of Unicode are those of ASCII. -/
theorem isUpper_of_isPlain (hc : isPlain c = true) : isUpper c = c.isUpper := by
  rw [isUpper, if_pos (isAscii_of_isPlain hc)]

/-- No plain character is the sigma, which has two lower cases. -/
theorem ne_sigma_of_isPlain (hc : isPlain c = true) : c ≠ 'Σ' := by
  rintro rfl
  simp [isPlain] at hc

/-- A plain text is lowered character by character. -/
theorem lower_of_isPlain (h : ∀ c ∈ cs, isPlain c = true) : lower cs = cs.map Char.toLower := by
  rw [lower_of_forall_ne fun c hc => ne_sigma_of_isPlain (h c hc)]
  induction cs with
  | nil => rfl
  | cons c rest ih =>
    rw [List.forall_mem_cons] at h
    rw [List.flatMap_cons, lowerChar_of_isPlain h.1, ih h.2]
    rfl

/-- `c` as it is written in capitals: large at the start of a word, and small elsewhere. -/
def recase (start : Bool) (c : Char) : Char :=
  if start then c.toUpper else c.toLower

/-- A plain word gets a capital, and the rest of it lower case. -/
theorem capitalWord_cons (hc : isPlain c = true) (h : ∀ d ∈ rest, isPlain d = true) :
    capitalWord (c :: rest) = c.toUpper :: rest.map Char.toLower := by
  rw [capitalWord, upperChar_of_isPlain hc, lower_of_isPlain h]
  rfl

/-- One more character at the end of a word is recased by whether it is the first. -/
theorem capitalWord_concat (h : ∀ d ∈ word, isPlain d = true) (hc : isPlain c = true) :
    capitalWord (word ++ [c]) =
      capitalWord word ++ [recase word.isEmpty c] := by
  cases word with
  | nil => simp [capitalWord, recase, upperChar_of_isPlain hc]
  | cons first run =>
    rw [List.forall_mem_cons] at h
    have hrun : ∀ d ∈ run ++ [c], isPlain d = true := by
      simpa [or_imp, forall_and] using ⟨h.2, hc⟩
    rw [List.cons_append, capitalWord_cons h.1 hrun, capitalWord_cons h.1 h.2]
    simp [recase]

/-! ## Characters of words -/

/-- `c` is plain and separates no words. -/
def isWordChar (c : Char) : Bool :=
  isPlain c && !isSeparator [c]

/-- The characters of words are the plain ones that separate nothing. -/
theorem isWordChar_iff : isWordChar c = true ↔ isPlain c = true ∧ isSeparator [c] = false := by
  simp [isWordChar]

/-- They are plain. -/
theorem isPlain_of_isWordChar (hc : isWordChar c = true) : isPlain c = true :=
  (isWordChar_iff.mp hc).1

/-- What holds of all characters of words is checked one by one. -/
theorem forall_isWordChar {p : Char → Prop}
    (h : ∀ n < 0x7F, isWordChar (Char.ofNat n) = true → p (Char.ofNat n))
    (hc : isWordChar c = true) : p c :=
  forall_isPlain (p := fun c => isWordChar c = true → p c) (fun n hn _ => h n hn)
    (isPlain_of_isWordChar hc) hc

/-- Small letters are characters of words. -/
theorem isWordChar_of_isLower (hc : c.isLower = true) : isWordChar c = true := by
  have hletter := isLetter_of_isLower hc
  rw [isWordChar_iff]
  exact ⟨isPlain_of_isLower hc, isSeparator_of_isLetter hletter⟩

/-- A character keeps its sort, whether it starts a word or not. -/
theorem isWordChar_recase (start : Bool) (hc : isWordChar c = true) :
    isWordChar (recase start c) = true ∧ (recase start c).isDigit = c.isDigit ∧
      isLetter (recase start c) = isLetter c :=
  forall_isWordChar (p := fun c => ∀ start,
    isWordChar (recase start c) = true ∧ (recase start c).isDigit = c.isDigit ∧
      isLetter (recase start c) = isLetter c) (by decide) hc start

/-- So is the lower case of one. -/
theorem isWordChar_toLower (hc : isWordChar c = true) : isWordChar c.toLower = true :=
  (isWordChar_recase false hc).1

/-- Lower case makes no digits. -/
theorem isDigit_toLower (hc : isWordChar c = true) : c.toLower.isDigit = c.isDigit :=
  (isWordChar_recase false hc).2.1

/-- In lower case the letters are small. -/
theorem isLower_toLower (hc : isWordChar c = true) : c.toLower.isLower = isLetter c :=
  forall_isWordChar (p := fun c => c.toLower.isLower = isLetter c) (by decide) hc

/-- Lower case is reached at once. -/
theorem toLower_toLower (hc : isWordChar c = true) : c.toLower.toLower = c.toLower :=
  forall_isWordChar (p := fun c => c.toLower.toLower = c.toLower) (by decide) hc

/-- In upper case no letter is small. -/
theorem isLower_toUpper (hc : isWordChar c = true) : c.toUpper.isLower = false :=
  forall_isWordChar (p := fun c => c.toUpper.isLower = false) (by decide) hc

/-- In lower case no letter is a capital. -/
theorem isUpper_toLower (hc : isWordChar c = true) : c.toLower.isUpper = false :=
  forall_isWordChar (p := fun c => c.toLower.isUpper = false) (by decide) hc

/-- Upper case changes the small letters only. -/
theorem toUpper_eq_self_iff (hc : isWordChar c = true) : c.toUpper = c ↔ c.isLower = false :=
  forall_isWordChar (p := fun c => c.toUpper = c ↔ c.isLower = false) (by decide) hc

/-- Lower case changes the capital letters only. -/
theorem toLower_eq_self_iff (hc : isWordChar c = true) : c.toLower = c ↔ c.isUpper = false :=
  forall_isWordChar (p := fun c => c.toLower = c ↔ c.isUpper = false) (by decide) hc

/-! ## Where words start -/

/-- A character is a small letter, a capital, a digit or a sign, and only one of these. -/
theorem sort_cases (hc : isPlain c = true) :
    (c.isLower = true ∧ c.isUpper = false ∧ c.isDigit = false) ∨
      (c.isLower = false ∧ c.isUpper = true ∧ c.isDigit = false) ∨
        (c.isLower = false ∧ c.isUpper = false ∧ c.isDigit = true) ∨
          (c.isLower = false ∧ c.isUpper = false ∧ c.isDigit = false) :=
  forall_isPlain (p := fun c =>
    (c.isLower = true ∧ c.isUpper = false ∧ c.isDigit = false) ∨
      (c.isLower = false ∧ c.isUpper = true ∧ c.isDigit = false) ∨
        (c.isLower = false ∧ c.isUpper = false ∧ c.isDigit = true) ∨
          (c.isLower = false ∧ c.isUpper = false ∧ c.isDigit = false)) (by decide) hc

/-- A small letter comes first. -/
def startsSmall (cs : List Char) : Bool :=
  (cs.head?.map Char.isLower).getD false

section endsWord

variable (hc : isPlain c = true) (hafter : ∀ e ∈ d :: after, isPlain e = true)
include hc hafter

/-- Where a word ends before another character: at a change of case or between letter and digit. -/
theorem endsWord_cons :
    endsWord c (d :: after) =
      ((c.isLower && d.isUpper) || (c.isLower && d.isDigit) || (c.isUpper && d.isDigit) ||
        (c.isDigit && d.isLower) || (c.isDigit && d.isUpper) ||
        (c.isUpper && d.isUpper && startsSmall after)) := by
  rw [List.forall_mem_cons] at hafter
  have hnext : ((after.head?.map ([·])).map isLowerCluster).getD false = startsSmall after := by
    cases after with
    | nil => rfl
    | cons e more => exact isLowerCluster_singleton (hafter.2 e List.mem_cons_self)
  rw [endsWord, isBoundary_singleton hc hafter.1, hnext]

/-- At a small letter a word starts behind a digit only. -/
theorem endsWord_of_isLower (hd : d.isLower = true) : endsWord c (d :: after) = c.isDigit := by
  rw [endsWord_cons hc hafter, hd]
  rcases sort_cases (hafter d List.mem_cons_self) with h | h | h | h <;> simp_all

/-- At a capital a word starts behind a small letter or a digit, and behind a capital if a small
letter follows. -/
theorem endsWord_of_capital (hd : d.isUpper = true) :
    endsWord c (d :: after) = (c.isLower || c.isDigit || (c.isUpper && startsSmall after)) := by
  rw [endsWord_cons hc hafter, hd]
  rcases sort_cases (hafter d List.mem_cons_self) with h | h | h | h <;> simp_all

end endsWord

/-- Where a word ends is seen two characters ahead. -/
theorem endsWord_append_cons {front : List Char} (hne : front ≠ []) (c d : Char)
    (rest : List Char) : endsWord c (front ++ d :: rest) = endsWord c (front ++ [d]) := by
  match front with
  | [_] => rfl
  | _ :: _ :: _ => rfl

/-- No word starts inside of small letters. -/
theorem endsWord_of_forall_isLower (hc : isLetter c = true) (h : ∀ d ∈ rest, d.isLower = true) :
    endsWord c rest = false := by
  cases rest with
  | nil => rfl
  | cons d after =>
    exact endsWord_of_startsNoWord hc (startsNoWord_of_isLower (h d List.mem_cons_self) after)

/-! ## Words in capitals -/

/-- The words of a text in capitals, followed along its characters; `start` tells whether a word
starts with the first. -/
def pascalFrom (start : Bool) : List Char → List Char
  | [] => []
  | c :: rest =>
    if isSeparator [c] then pascalFrom true rest
    else recase start c :: pascalFrom (endsWord c rest) rest

/-- Inside of a word small letters stay as they are. -/
theorem pascalFrom_of_isLower (h : ∀ c ∈ cs, c.isLower = true) : pascalFrom false cs = cs := by
  induction cs with
  | nil => rfl
  | cons c rest ih =>
    rw [List.forall_mem_cons] at h
    have hletter := isLetter_of_isLower h.1
    have hsame : c.toLower = c := forall_isLower (p := fun c => c.toLower = c) (by decide) h.1
    rw [pascalFrom, if_neg (Bool.eq_false_iff.mp (isSeparator_of_isLetter hletter)),
      endsWord_of_forall_isLower hletter h.2, ih h.2, recase, if_neg Bool.false_ne_true, hsame]

/-- The words of a plain text with their capitals, read in one pass. -/
theorem flatMap_capitalWord_wordsFrom (hword : ∀ c ∈ word, isPlain c = true)
    (h : ∀ c ∈ cs, isPlain c = true) :
    (wordsFrom word (cs.map ([·]))).flatMap capitalWord =
      capitalWord word.reverse ++ pascalFrom word.isEmpty cs := by
  induction cs generalizing word with
  | nil => simp [wordsFrom, pascalFrom]
  | cons c rest ih =>
    rw [List.forall_mem_cons] at h
    have hempty : ∀ c ∈ ([] : List Char), isPlain c = true := by simp
    have hreverse : ∀ d ∈ word.reverse, isPlain d = true := by simpa using hword
    rw [pascalFrom]
    by_cases hc : isSeparator [c] = true
    · rw [wordsFrom_separator hc, List.flatMap_cons, ih hempty h.2, if_pos hc]
      rfl
    · have hgrown : ∀ d ∈ c :: word, isPlain d = true := List.forall_mem_cons.mpr ⟨h.1, hword⟩
      have hconcat := capitalWord_concat hreverse h.1
      rw [List.isEmpty_reverse] at hconcat
      rw [wordsFrom_cons (Bool.eq_false_iff.mpr hc), if_neg hc]
      cases hends : endsWord c rest with
      | true =>
        rw [if_pos rfl, List.flatMap_cons, ih hempty h.2, List.reverse_cons, hconcat]
        simp [capitalWord]
      | false =>
        rw [if_neg Bool.false_ne_true, ih hgrown h.2, List.reverse_cons, hconcat]
        simp

/-- Plain text in capitals, character by character. -/
theorem pascal_eq (h : ∀ c ∈ cs, isPlain c = true) : pascal cs = pascalFrom true cs := by
  by_cases hne : cs = []
  · rw [hne]
    rfl
  · have hempty : ∀ c ∈ ([] : List Char), isPlain c = true := by simp
    rw [pascal, words_of_isPlain hne h, flatMap_capitalWord_wordsFrom hempty h]
    rfl

/-! ## Words with underscores -/

/-- The words of a text without separators in small letters, followed along its characters, with an
underscore behind each but the last. -/
def underscored : List Char → List Char
  | [] => []
  | c :: rest => c.toLower :: ((if endsWord c rest then ['_'] else []) ++ underscored rest)

/-- There is always a last word. -/
theorem wordsFrom_ne_nil (word cs : List Char) : wordsFrom word (cs.map ([·])) ≠ [] := by
  induction cs generalizing word with
  | nil => simp [wordsFrom]
  | cons c rest ih =>
    by_cases hc : isSeparator [c] = true
    · rw [wordsFrom_separator hc]
      exact List.cons_ne_nil _ _
    · rw [wordsFrom_cons (Bool.eq_false_iff.mpr hc)]
      split_ifs
      · exact List.cons_ne_nil _ _
      · exact ih (c :: word)

/-- The words of a plain text in lower case and with underscores, read in one pass. -/
theorem intercalate_lower_wordsFrom (hword : ∀ c ∈ word, isPlain c = true)
    (h : ∀ c ∈ cs, isWordChar c = true) :
    ['_'].intercalate ((wordsFrom word (cs.map ([·]))).map lower) =
      lower word.reverse ++ underscored cs := by
  induction cs generalizing word with
  | nil => simp [wordsFrom, underscored]
  | cons c rest ih =>
    rw [List.forall_mem_cons, isWordChar_iff] at h
    have hempty : ∀ c ∈ ([] : List Char), isPlain c = true := by simp
    have hgrown : ∀ d ∈ c :: word, isPlain d = true := List.forall_mem_cons.mpr ⟨h.1.1, hword⟩
    have hlower : lower (c :: word).reverse = lower word.reverse ++ [c.toLower] := by
      rw [lower_of_isPlain fun d hd => hgrown d (List.mem_reverse.mp hd),
        lower_of_isPlain fun d hd => hword d (List.mem_reverse.mp hd)]
      simp
    rw [wordsFrom_cons h.1.2, underscored]
    cases hends : endsWord c rest with
    | true =>
      obtain ⟨next, more, hnext⟩ : ∃ next more,
          (wordsFrom [] (rest.map ([·]))).map lower = next :: more :=
        List.exists_cons_of_ne_nil (by simpa using wordsFrom_ne_nil [] rest)
      rw [if_pos rfl, List.map_cons, hnext, List.intercalate_cons_cons, ← hnext,
        ih hempty h.2, hlower]
      simp
    | false =>
      rw [if_neg Bool.false_ne_true, ih hgrown h.2, hlower]
      simp

/-- Plain text without separators in small letters with underscores, character by character. -/
theorem snake_eq (h : ∀ c ∈ cs, isWordChar c = true) : snake cs = underscored cs := by
  by_cases hne : cs = []
  · rw [hne]
    rfl
  · have hempty : ∀ c ∈ ([] : List Char), isPlain c = true := by simp
    rw [snake, words_of_isPlain hne fun c hc => isPlain_of_isWordChar (h c hc),
      intercalate_lower_wordsFrom hempty h]
    rfl

end Scaffold.Text
