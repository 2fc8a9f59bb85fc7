import Scaffold.Proofs.Text.Plain
import Scaffold.Proofs.Text.Split
import Scaffold.Text.Blank

/-!
# The words of plain text

Where the words of a plain text end depends on its single characters only (`endsWord`,
`wordsFrom_cons`). Two ways of writing words can therefore be read back: words of one case each with
a separator between them (`words_intercalate`), and words joined without one where each starts with
a capital and goes on in small letters (`words_flatten`).
-/

namespace Scaffold.Text

variable {c d : Char} {run rest word : List Char} {parts : List (List Char)}

/-! ## Where words end -/

/-- A word ends behind `c`, where `rest` follows and no separator stands between them. -/
def endsWord (c : Char) : List Char → Bool
  | [] => false
  | d :: after => isBoundary [c] [d] (after.head?.map ([·]))

/-- A character that separates nothing joins the open word, which it may end. -/
theorem wordsFrom_cons (hc : isSeparator [c] = false) (word rest : List Char) :
    wordsFrom word ((c :: rest).map ([·])) =
      if endsWord c rest then (c :: word).reverse :: wordsFrom [] (rest.map ([·]))
      else wordsFrom (c :: word) (rest.map ([·])) := by
  rw [List.map_cons, wordsFrom.eq_def]
  dsimp only
  rw [if_neg (Bool.eq_false_iff.mp hc)]
  cases rest with
  | nil => rfl
  | cons d after =>
    rw [List.map_cons]
    dsimp only
    rw [List.head?_map]
    rfl

/-- A separator ends the open word. -/
theorem wordsFrom_separator (hc : isSeparator [c] = true) (word rest : List Char) :
    wordsFrom word ((c :: rest).map ([·])) = word.reverse :: wordsFrom [] (rest.map ([·])) := by
  rw [List.map_cons, wordsFrom.eq_def]
  dsimp only
  rw [if_pos hc]

/-- No word ends inside `run`, nor behind it, where `rest` follows. -/
def Unbroken (rest : List Char) : List Char → Prop
  | [] => True
  | c :: run => isSeparator [c] = false ∧ endsWord c (run ++ rest) = false ∧ Unbroken rest run

/-- A run in which no word ends joins the open word. -/
theorem wordsFrom_append (h : Unbroken rest run) (word : List Char) :
    wordsFrom word ((run ++ rest).map ([·])) =
      wordsFrom (run.reverse ++ word) (rest.map ([·])) := by
  induction run generalizing word with
  | nil => rfl
  | cons c run ih =>
    obtain ⟨hc, hends, hrun⟩ := h
    rw [List.cons_append, wordsFrom_cons hc, if_neg (Bool.eq_false_iff.mp hends), ih hrun]
    simp

/-- The words of a plain text are read with no open word at first. -/
theorem words_of_isPlain {cs : List Char} (hne : cs ≠ []) (h : ∀ c ∈ cs, isPlain c = true) :
    words cs = wordsFrom [] (cs.map ([·])) := by
  unfold words
  rw [clusters_of_isPlain h]
  cases cs with
  | nil => exact absurd rfl hne
  | cons c rest => rfl

/-! ## Letters -/

/-- `c` is a letter of ASCII. -/
def isLetter (c : Char) : Bool :=
  c.isLower || c.isUpper

/-- Small letters are letters. -/
theorem isLetter_of_isLower (h : c.isLower = true) : isLetter c = true := by
  simp [isLetter, h]

/-- Capital letters are letters. -/
theorem isLetter_of_isUpper (h : c.isUpper = true) : isLetter c = true := by
  simp [isLetter, h]

/-- Letters are plain. -/
theorem isPlain_of_isLetter (h : isLetter c = true) : isPlain c = true := by
  rcases (Bool.or_eq_true _ _).mp h with hlower | hupper
  · exact isPlain_of_isLower hlower
  · exact isPlain_of_isUpper hupper

/-- What holds of all letters is checked one by one. -/
theorem forall_isLetter {p : Char → Prop}
    (h : ∀ n < 0x7F, isLetter (Char.ofNat n) = true → p (Char.ofNat n)) (hc : isLetter c = true) :
    p c :=
  forall_isPlain (p := fun c => isLetter c = true → p c) (fun n hn _ => h n hn)
    (isPlain_of_isLetter hc) hc

/-- Letters separate nothing. -/
theorem isSeparator_of_isLetter (h : isLetter c = true) : isSeparator [c] = false :=
  forall_isLetter (p := fun c => isSeparator [c] = false) (by decide) h

/-- Letters are no digits. -/
theorem isDigit_of_isLetter (h : isLetter c = true) : c.isDigit = false :=
  forall_isLetter (p := fun c => c.isDigit = false) (by decide) h

/-- Letters are no blanks. -/
theorem isBlank_of_isLetter (h : isLetter c = true) : isBlank c = false :=
  forall_isLetter (p := fun c => isBlank c = false) (by decide) h

/-- No capital letter is small. -/
theorem isLower_of_isUpper (h : c.isUpper = true) : c.isLower = false :=
  forall_isPlain (p := fun c => c.isUpper = true → c.isLower = false) (by decide)
    (isPlain_of_isUpper h) h

/-- Where a word ends between two plain characters. -/
theorem isBoundary_singleton (hc : isPlain c = true) (hd : isPlain d = true)
    (next : Option (List Char)) :
    isBoundary [c] [d] next =
      ((c.isLower && d.isUpper) || (c.isLower && d.isDigit) || (c.isUpper && d.isDigit) ||
        (c.isDigit && d.isLower) || (c.isDigit && d.isUpper) ||
        (c.isUpper && d.isUpper && (next.map isLowerCluster).getD false)) := by
  unfold isBoundary
  rw [isLowerCluster_singleton hc, isLowerCluster_singleton hd, isUpperCluster_singleton hc,
    isUpperCluster_singleton hd]
  rfl

/-- What follows is the end of the text or a separator. -/
def IsApart (rest : List Char) : Prop :=
  ∀ d, rest.head? = some d → isSeparator [d] = true

/-- The end of the text is apart. -/
theorem isApart_nil : IsApart [] := by
  intro d hd
  cases hd

/-- So is a text with a separator in front. -/
theorem isApart_cons (hc : isSeparator [c] = true) (rest : List Char) : IsApart (c :: rest) := by
  intro d hd
  rwa [← Option.some.inj hd]

/-- What follows starts no word: there is nothing, or a character that is neither a capital nor a
digit. -/
def StartsNoWord (rest : List Char) : Prop :=
  ∀ d, rest.head? = some d → isPlain d = true ∧ d.isUpper = false ∧ d.isDigit = false

/-- The separators are the underscore, the hyphen and the space. -/
theorem eq_of_isSeparator (h : isSeparator [c] = true) : c = '_' ∨ c = '-' ∨ c = ' ' := by
  simpa [isSeparator, or_assoc] using h

/-- Neither the end of the text nor a separator starts a word. -/
theorem IsApart.startsNoWord (h : IsApart rest) : StartsNoWord rest := by
  intro d hd
  rcases eq_of_isSeparator (h d hd) with rfl | rfl | rfl <;> decide

/-- Nor does a small letter. -/
theorem startsNoWord_of_isLower (hc : c.isLower = true) (rest : List Char) :
    StartsNoWord (c :: rest) := by
  intro d hd
  obtain rfl : c = d := Option.some.inj hd
  have hclass : c.isUpper = false ∧ c.isDigit = false :=
    forall_isLower (p := fun c => c.isUpper = false ∧ c.isDigit = false) (by decide) hc
  exact ⟨isPlain_of_isLower hc, hclass⟩

/-- A letter ends no word where none starts behind it. -/
theorem endsWord_of_startsNoWord (hc : isLetter c = true) (h : StartsNoWord rest) :
    endsWord c rest = false := by
  cases rest with
  | nil => rfl
  | cons d after =>
    obtain ⟨hd, hupper, hdigit⟩ := h d rfl
    rw [endsWord, isBoundary_singleton (isPlain_of_isLetter hc) hd, hupper, hdigit,
      isDigit_of_isLetter hc]
    simp

/-- A word ends between a small letter and a capital. -/
theorem endsWord_of_isUpper (hc : c.isLower = true) (hd : d.isUpper = true) (after : List Char) :
    endsWord c (d :: after) = true := by
  rw [endsWord, isBoundary_singleton (isPlain_of_isLower hc) (isPlain_of_isUpper hd), hc, hd]
  rfl

/-! ## Runs of letters -/

/-- Where no word starts, none starts with small letters put in front. -/
theorem startsNoWord_append (hrun : ∀ c ∈ run, c.isLower = true) (hrest : StartsNoWord rest) :
    StartsNoWord (run ++ rest) := by
  cases run with
  | nil => exact hrest
  | cons c run => exact startsNoWord_of_isLower (hrun c List.mem_cons_self) (run ++ rest)

/-- A letter and small letters behind it are no two words. -/
theorem unbroken_cons (hc : isLetter c = true) (hrun : ∀ d ∈ run, d.isLower = true)
    (hrest : StartsNoWord rest) : Unbroken rest (c :: run) := by
  induction run generalizing c with
  | nil => exact ⟨isSeparator_of_isLetter hc, endsWord_of_startsNoWord hc hrest, trivial⟩
  | cons d run ih =>
    have hd : isLetter d = true := isLetter_of_isLower (hrun d List.mem_cons_self)
    refine ⟨isSeparator_of_isLetter hc, ?_, ih hd fun e he => hrun e (List.mem_cons_of_mem _ he)⟩
    exact endsWord_of_startsNoWord hc (startsNoWord_append hrun hrest)

/-- No word ends among small letters, nor behind them where none starts. -/
theorem unbroken_of_isLower (hrun : ∀ c ∈ run, c.isLower = true) (hrest : StartsNoWord rest) :
    Unbroken rest run := by
  cases run with
  | nil => trivial
  | cons c run =>
    rw [List.forall_mem_cons] at hrun
    exact unbroken_cons (isLetter_of_isLower hrun.1) hrun.2 hrest

/-- Capitals are no two words, unless a small letter follows them. -/
theorem unbroken_of_isUpper (hrun : ∀ c ∈ run, c.isUpper = true) (hrest : IsApart rest) :
    Unbroken rest run := by
  induction run with
  | nil => trivial
  | cons c run ih =>
    rw [List.forall_mem_cons] at hrun
    have hc : isLetter c = true := isLetter_of_isUpper hrun.1
    refine ⟨isSeparator_of_isLetter hc, ?_, ih hrun.2⟩
    cases run with
    | nil => exact endsWord_of_startsNoWord hc hrest.startsNoWord
    | cons d more =>
      have hd := isPlain_of_isUpper (hrun.2 d List.mem_cons_self)
      -- between capitals the character after them decides, and it is no small letter
      have hnext : (((more ++ rest).head?.map ([·])).map isLowerCluster).getD false = false := by
        rw [Option.map_map]
        cases hhead : (more ++ rest).head? with
        | none => rfl
        | some e =>
          obtain ⟨hplain, hlower⟩ : isPlain e = true ∧ e.isLower = false := by
            cases more with
            | nil => rcases eq_of_isSeparator (hrest e hhead) with rfl | rfl | rfl <;> decide
            | cons e' more =>
              obtain rfl : e' = e := Option.some.inj hhead
              have he : e'.isUpper = true := hrun.2 e' (by simp)
              exact ⟨isPlain_of_isUpper he, isLower_of_isUpper he⟩
          exact (isLowerCluster_singleton hplain).trans hlower
      have hd' : isLetter d = true := isLetter_of_isUpper (hrun.2 d List.mem_cons_self)
      rw [List.cons_append, endsWord, isBoundary_singleton (isPlain_of_isLetter hc) hd, hnext,
        isLower_of_isUpper hrun.1, isDigit_of_isLetter hc, isDigit_of_isLetter hd']
      simp

/-! ## Reading words back -/

/-- Words with separators between them are read back, if each is read as one word. -/
theorem wordsFrom_intercalate (hc : isSeparator [c] = true)
    (h : ∀ part ∈ parts, ∀ rest, IsApart rest → Unbroken rest part) (hne : parts ≠ []) :
    wordsFrom [] (([c].intercalate parts).map ([·])) = parts := by
  induction parts with
  | nil => exact absurd rfl hne
  | cons part rest ih =>
    rw [List.forall_mem_cons] at h
    cases rest with
    | nil =>
      have hread := wordsFrom_append (h.1 [] isApart_nil) []
      rw [List.append_nil] at hread
      rw [List.intercalate_singleton, hread]
      simp [wordsFrom]
    | cons next more =>
      rw [List.intercalate_cons_cons, List.append_assoc, List.singleton_append,
        wordsFrom_append (h.1 _ (isApart_cons hc _)), wordsFrom_separator hc,
        ih h.2 (List.cons_ne_nil _ _)]
      simp

/-- Words without separators that can be told apart: each but the first starts with a capital, and
each goes on in small letters; only the last may be a single letter. -/
inductive Humps : List (List Char) → Prop where
  | last {c : Char} {run : List Char} (hc : isLetter c = true)
      (hrun : ∀ d ∈ run, d.isLower = true) : Humps [c :: run]
  | cons {c final d : Char} {run more : List Char} {parts : List (List Char)}
      (hc : isLetter c = true) (hrun : ∀ d ∈ run, d.isLower = true) (hfinal : final.isLower = true)
      (hd : d.isUpper = true) (h : Humps ((d :: more) :: parts)) :
      Humps ((c :: run ++ [final]) :: (d :: more) :: parts)

/-- Humps are made of letters. -/
theorem Humps.isLetter (h : Humps parts) : ∀ part ∈ parts, ∀ c ∈ part, isLetter c = true := by
  induction h with
  | last hc hrun =>
    rw [List.forall_mem_singleton, List.forall_mem_cons]
    exact ⟨hc, fun d hd => isLetter_of_isLower (hrun d hd)⟩
  | cons hc hrun hfinal _ _ ih =>
    rw [List.forall_mem_cons]
    refine ⟨?_, ih⟩
    rw [List.forall_mem_append, List.forall_mem_cons, List.forall_mem_singleton]
    exact ⟨⟨hc, fun d hd => isLetter_of_isLower (hrun d hd)⟩, isLetter_of_isLower hfinal⟩

/-- Humps in a row are read as the words they are. -/
theorem wordsFrom_flatten (h : Humps parts) : wordsFrom [] (parts.flatten.map ([·])) = parts := by
  induction h with
  | @last c run hc hrun =>
    have hread := wordsFrom_append (unbroken_cons hc hrun isApart_nil.startsNoWord) []
    rw [List.append_nil] at hread
    rw [List.flatten_singleton, hread]
    simp [wordsFrom]
  | @cons c final d run more parts hc hrun hfinal hd h ih =>
    have hfinal' : isLetter final = true := isLetter_of_isLower hfinal
    rw [List.flatten_cons, List.append_assoc, List.singleton_append,
      wordsFrom_append (unbroken_cons hc hrun (startsNoWord_of_isLower hfinal _)),
      wordsFrom_cons (isSeparator_of_isLetter hfinal'), List.flatten_cons, List.cons_append,
      if_pos (endsWord_of_isUpper hfinal hd _)]
    rw [List.flatten_cons, List.cons_append] at ih
    rw [ih]
    simp

/-- The word is written in small letters or in capitals only. -/
def HasOneCase (word : List Char) : Prop :=
  (∀ c ∈ word, c.isLower = true) ∨ ∀ c ∈ word, c.isUpper = true

/-- A word of one case is plain. -/
theorem HasOneCase.isPlain (h : HasOneCase word) (hc : c ∈ word) : isPlain c = true := by
  rcases h with hlower | hupper
  · exact isPlain_of_isLower (hlower c hc)
  · exact isPlain_of_isUpper (hupper c hc)

/-- Words of one case each with separators between them. -/
theorem words_intercalate (hc : isSeparator [c] = true) (hparts : parts ≠ [])
    (h : ∀ part ∈ parts, part ≠ [] ∧ HasOneCase part) : words ([c].intercalate parts) = parts := by
  have hunbroken : ∀ part ∈ parts, ∀ rest, IsApart rest → Unbroken rest part := by
    intro part hpart rest hrest
    rcases (h part hpart).2 with hlower | hupper
    · exact unbroken_of_isLower hlower hrest.startsNoWord
    · exact unbroken_of_isUpper hupper hrest
  have hne : [c].intercalate parts ≠ [] :=
    intercalate_ne_nil hparts fun part hpart => (h part hpart).1
  have hplain : ∀ d ∈ [c].intercalate parts, isPlain d = true := by
    intro d hd
    rcases mem_intercalate hd with rfl | ⟨part, hpart, hmem⟩
    · rcases eq_of_isSeparator hc with rfl | rfl | rfl <;> decide
    · exact (h part hpart).2.isPlain hmem
  rw [words_of_isPlain hne hplain, wordsFrom_intercalate hc hunbroken hparts]

/-- Words without separators between them. -/
theorem words_flatten (h : Humps parts) : words parts.flatten = parts := by
  have hletters : ∀ part ∈ parts, ∀ c ∈ part, isLetter c = true := h.isLetter
  have hne : parts.flatten ≠ [] := by
    cases h <;> simp
  have hplain : ∀ c ∈ parts.flatten, isPlain c = true := by
    intro c hc
    obtain ⟨part, hpart, hmem⟩ := List.mem_flatten.mp hc
    exact isPlain_of_isLetter (hletters part hpart c hmem)
  rw [words_of_isPlain hne hplain, wordsFrom_flatten h]

end Scaffold.Text
