import Mathlib.Data.List.Forall2
import Scaffold.Proofs.Name.Signs
import Scaffold.Proofs.Text.Strip
import Scaffold.Proofs.Text.Words

/-!
# Names in every convention

The words of a compound name can be written with underscores, hyphens or spaces between them, in
capitals, or joined with a capital where each starts (`Convention`). Whichever is chosen, the words
are read back one by one (`words_write`), and inflecting the last of them is inflecting the name
(`inflect_write`). So all spellings of a name have the same canonical form (`canonical_write`), and
what is derived from it are the words themselves in three of the conventions
(`spellings_of_write_eq`).

Joined words of a single letter run together: `a`, `b` are written `AB`, which is one word. Hence
the words before the last have two letters or more (`IsName`). The last may be a single letter, and
has to: the singular of a longer word can be one (`as`, `a`). Inflection leads from names to names
(`IsName.singularizeWord`, `IsName.pluralizeWord`).
-/

namespace Scaffold.Name

open Text

variable {c : Char} {front words : List (List Char)} {last part word : List Char}

/-! ## One word -/

/-- Ways to write a word that is given in small letters. -/
inductive IsSpelling (word : List Char) : List Char → Prop where
  | small : IsSpelling word word
  | capitals : IsSpelling word (word.map Char.toUpper)
  | capitalized : IsSpelling word (capital word)

namespace IsSpelling

/-- In small letters a spelling is the word. -/
theorem lower_eq (h : IsSpelling word part) (hword : ∀ c ∈ word, c.isLower = true) :
    lower part = word := by
  cases h with
  | small => exact lower_of_isLower hword
  | capitals => exact lower_map_toUpper hword
  | capitalized => exact lower_capital hword

/-- With a capital a spelling is the word with a capital. -/
theorem capitalWord_eq (h : IsSpelling word part) (hword : ∀ c ∈ word, c.isLower = true) :
    capitalWord part = capital word := by
  cases h with
  | small => exact capitalWord_of_isLower hword
  | capitals => exact capitalWord_map_toUpper hword
  | capitalized => exact capitalWord_capital hword

/-- A spelling of something is something. -/
theorem ne_nil (h : IsSpelling word part) (hword : word ≠ []) : part ≠ [] := by
  obtain ⟨c, run, rfl⟩ := List.exists_cons_of_ne_nil hword
  cases h <;> exact List.cons_ne_nil _ _

/-- A spelling is made of letters. -/
theorem isLetter (h : IsSpelling word part) (hword : ∀ c ∈ word, c.isLower = true) :
    ∀ c ∈ part, isLetter c = true := by
  have hsmall : ∀ c ∈ word, Text.isLetter c = true := fun c hc => isLetter_of_isLower (hword c hc)
  have hcapital : ∀ c ∈ word, Text.isLetter c.toUpper = true :=
    fun c hc => isLetter_of_isUpper (isUpper_toUpper (hword c hc))
  cases h with
  | small => exact hsmall
  | capitals => exact List.forall_mem_map.mpr hcapital
  | capitalized =>
    cases word with
    | nil => exact hsmall
    | cons c run =>
      rw [List.forall_mem_cons] at hsmall
      exact List.forall_mem_cons.mpr ⟨hcapital c List.mem_cons_self, hsmall.2⟩

end IsSpelling

/-! ## Conventions -/

/-- A convention for writing a name of several words as one text. -/
inductive Convention where
  /-- `test_item` -/
  | snake
  /-- `TEST_ITEM` -/
  | screaming
  /-- `test-item` -/
  | kebab
  /-- `test item` -/
  | spaced
  /-- `TestItem` -/
  | pascal
  /-- `testItem` -/
  | camel
  deriving DecidableEq, Repr

namespace Convention

/-- What stands between two words. -/
def separator : Convention → List Char
  | snake => ['_']
  | screaming => ['_']
  | kebab => ['-']
  | spaced => [' ']
  | pascal => []
  | camel => []

/-- Each of the words as it is written. -/
def spell : Convention → List (List Char) → List (List Char)
  | snake, words => words
  | screaming, words => words.map fun word => word.map Char.toUpper
  | kebab, words => words
  | spaced, words => words
  | pascal, words => words.map capital
  | camel, [] => []
  | camel, first :: rest => first :: rest.map capital

/-- The words, given in small letters, as one text. -/
def write (convention : Convention) (words : List (List Char)) : List Char :=
  convention.separator.intercalate (convention.spell words)

/-- A convention spells every word. -/
theorem forall₂_spell (convention : Convention) (words : List (List Char)) :
    List.Forall₂ IsSpelling words (convention.spell words) := by
  have hsmall : List.Forall₂ IsSpelling words words := List.forall₂_same.mpr fun _ _ => .small
  have hcapital :
      ∀ words : List (List Char), List.Forall₂ IsSpelling words (words.map capital) := by
    intro words
    exact List.forall₂_map_right_iff.mpr (List.forall₂_same.mpr fun _ _ => .capitalized)
  cases convention with
  | snake => exact hsmall
  | screaming => exact List.forall₂_map_right_iff.mpr (List.forall₂_same.mpr fun _ _ => .capitals)
  | kebab => exact hsmall
  | spaced => exact hsmall
  | pascal => exact hcapital words
  | camel =>
    cases words with
    | nil => exact .nil
    | cons first rest => exact .cons .small (hcapital rest)

/-- What a convention writes spells one of the words. -/
theorem exists_of_mem_spell {convention : Convention} (h : part ∈ convention.spell words) :
    ∃ word ∈ words, IsSpelling word part := by
  have hall := convention.forall₂_spell words
  generalize convention.spell words = parts at h hall
  induction hall with
  | nil => exact absurd h List.not_mem_nil
  | @cons word other rest others hspelling hrest ih =>
    rcases List.mem_cons.mp h with rfl | hmem
    · exact ⟨word, List.mem_cons_self, hspelling⟩
    · obtain ⟨word, hword, hpart⟩ := ih hmem
      exact ⟨word, List.mem_cons_of_mem _ hword, hpart⟩

/-- A convention writes something if there is a word. -/
theorem spell_ne_nil (convention : Convention) (hne : words ≠ []) :
    convention.spell words ≠ [] := by
  intro hnil
  have hall := convention.forall₂_spell words
  rw [hnil, List.forall₂_nil_right_iff] at hall
  exact hne hall

/-- A function that forgets how a word is spelled forgets the convention. -/
theorem map_spell {f g : List Char → List Char} (convention : Convention)
    (h : ∀ word ∈ words, ∀ part, IsSpelling word part → f part = g word) :
    (convention.spell words).map f = words.map g := by
  have hall := convention.forall₂_spell words
  generalize convention.spell words = parts at hall ⊢
  induction hall with
  | nil => rfl
  | @cons word part rest parts hspelling hrest ih =>
    rw [List.forall_mem_cons] at h
    rw [List.map_cons, List.map_cons, h.1 part hspelling, ih h.2]

end Convention

/-! ## Reading words back -/

/-- The words `front` and `last` of a name can be told apart in every convention: they are in small
letters, and only the last may be a single letter. -/
structure IsName (front : List (List Char)) (last : List Char) : Prop where
  /-- The words before the last have two letters or more. -/
  long : ∀ word ∈ front, 2 ≤ word.length
  /-- The last word has a letter. -/
  last_ne_nil : last ≠ []
  /-- All letters are small. -/
  isLower : ∀ word ∈ front ++ [last], ∀ c ∈ word, c.isLower = true

namespace IsName

/-- The words of a name are not empty. -/
theorem ne_nil (h : IsName front last) (hword : word ∈ front ++ [last]) : word ≠ [] := by
  rcases List.mem_append.mp hword with hfront | hlast
  · exact List.ne_nil_of_length_pos (Nat.lt_of_lt_of_le Nat.zero_lt_two (h.long word hfront))
  · exact List.mem_singleton.mp hlast ▸ h.last_ne_nil

/-- The last word of a name is in small letters. -/
theorem isLower_last (h : IsName front last) : ∀ c ∈ last, c.isLower = true :=
  h.isLower last (List.mem_append_right _ List.mem_cons_self)

/-- Without its first word a name is a name. -/
theorem tail (h : IsName (word :: front) last) : IsName front last where
  long other hother := h.long other (List.mem_cons_of_mem _ hother)
  last_ne_nil := h.last_ne_nil
  isLower other hother := h.isLower other (List.mem_cons_of_mem _ hother)

/-- Another last word may take the place of the last. -/
theorem replaceLast (h : IsName front last) (hne : word ≠ [])
    (hword : ∀ c ∈ word, c.isLower = true) : IsName front word where
  long := h.long
  last_ne_nil := hne
  isLower other hother := by
    rcases List.mem_append.mp hother with hfront | hlast
    · exact h.isLower other (List.mem_append_left _ hfront)
    · exact List.mem_singleton.mp hlast ▸ hword

end IsName

/-- A word of two letters or more, taken apart at both ends. -/
theorem exists_eq_cons_concat (h : 2 ≤ word.length) :
    ∃ first run final, word = first :: run ++ [final] := by
  obtain ⟨first, rest, rfl⟩ := List.exists_cons_of_length_pos (Nat.lt_of_lt_of_le Nat.zero_lt_two h)
  have hrest : rest ≠ [] := by
    rintro rfl
    simp at h
  refine ⟨first, rest.dropLast, rest.getLast hrest, ?_⟩
  rw [List.cons_append, List.dropLast_concat_getLast]

/-- With capitals the words of a name are humps. -/
theorem humps_map_capital (h : IsName front last) : Humps ((front ++ [last]).map capital) := by
  induction front with
  | nil =>
    obtain ⟨first, run, rfl⟩ := List.exists_cons_of_ne_nil h.last_ne_nil
    have hletters := List.forall_mem_cons.mp h.isLower_last
    exact .last (isLetter_of_isUpper (isUpper_toUpper hletters.1)) hletters.2
  | cons word rest ih =>
    have hrest := ih h.tail
    obtain ⟨next, more, hnext⟩ : ∃ next more, rest ++ [last] = next :: more :=
      List.exists_cons_of_ne_nil (by simp)
    have hmem : next ∈ rest ++ [last] := hnext ▸ List.mem_cons_self
    obtain ⟨d, others, rfl⟩ := List.exists_cons_of_ne_nil (h.tail.ne_nil hmem)
    have hd : d.isLower = true := h.tail.isLower _ hmem d List.mem_cons_self
    obtain ⟨first, run, final, rfl⟩ := exists_eq_cons_concat (h.long word List.mem_cons_self)
    have hletters := h.isLower _ List.mem_cons_self
    rw [List.forall_mem_append, List.forall_mem_cons, List.forall_mem_singleton] at hletters
    rw [hnext, List.map_cons] at hrest
    rw [List.cons_append, hnext, List.map_cons, List.map_cons]
    exact .cons (isLetter_of_isUpper (isUpper_toUpper hletters.1.1)) hletters.1.2 hletters.2
      (isUpper_toUpper hd) hrest

/-- Whether the first letter is a capital makes no difference to where words end. -/
theorem humps_of_capital (hne : word ≠ []) (hword : ∀ c ∈ word, c.isLower = true)
    {parts : List (List Char)} (h : Humps (capital word :: parts)) : Humps (word :: parts) := by
  obtain ⟨first, rest, rfl⟩ := List.exists_cons_of_ne_nil hne
  have hfirst : isLetter first = true := isLetter_of_isLower (hword first List.mem_cons_self)
  have hcapital : capital (first :: rest) = first.toUpper :: rest := rfl
  rw [hcapital] at h
  -- the constructors know their first word as its letters, so the list is taken for a variable
  -- first
  generalize hparts : (first.toUpper :: rest) :: parts = all at h
  cases h with
  | last hc hrun =>
    simp only [List.cons.injEq] at hparts
    obtain ⟨⟨-, rfl⟩, rfl⟩ := hparts
    exact .last hfirst hrun
  | cons hc hrun hfinal hd h =>
    simp only [List.cons_append, List.cons.injEq] at hparts
    obtain ⟨⟨-, rfl⟩, rfl⟩ := hparts
    exact .cons hfirst hrun hfinal hd h

/-- So they are where only the later ones have capitals. -/
theorem humps_camel (h : IsName front last) : Humps (Convention.camel.spell (front ++ [last])) := by
  have hcapitals := humps_map_capital h
  have hletters := h.isLower
  have hne : ∀ word ∈ front ++ [last], word ≠ [] := fun word => h.ne_nil
  obtain ⟨first, rest, hfirst⟩ : ∃ first rest, front ++ [last] = first :: rest :=
    List.exists_cons_of_ne_nil (by simp)
  rw [hfirst] at hcapitals hletters hne ⊢
  exact humps_of_capital (hne first List.mem_cons_self) (hletters first List.mem_cons_self)
    hcapitals

/-- Joining with nothing puts the parts one behind the other. -/
theorem nil_intercalate (parts : List (List Char)) : [].intercalate parts = parts.flatten := by
  induction parts with
  | nil => rfl
  | cons part rest ih =>
    cases rest with
    | nil => simp
    | cons next more =>
      rw [List.intercalate_cons_cons, List.append_nil, ih, List.flatten_cons (l := part)]

/-- In every convention the words of a name are read back one by one. -/
theorem words_write (h : IsName front last) (convention : Convention) :
    Text.words (convention.write (front ++ [last])) = convention.spell (front ++ [last]) := by
  have hne : front ++ [last] ≠ [] := by simp
  have hsmall : ∀ c, isSeparator [c] = true →
      Text.words ([c].intercalate (front ++ [last])) = front ++ [last] := by
    intro c hc
    exact words_intercalate hc hne fun word hword => ⟨h.ne_nil hword, Or.inl (h.isLower word hword)⟩
  unfold Convention.write
  cases convention with
  | snake => exact hsmall '_' rfl
  | kebab => exact hsmall '-' rfl
  | spaced => exact hsmall ' ' rfl
  | screaming =>
    apply words_intercalate rfl (Convention.screaming.spell_ne_nil hne)
    rw [Convention.spell, List.forall_mem_map]
    intro word hword
    refine ⟨by simpa using h.ne_nil hword, Or.inr ?_⟩
    exact List.forall_mem_map.mpr fun c hc => isUpper_toUpper (h.isLower word hword c hc)
  | pascal =>
    rw [Convention.separator, nil_intercalate]
    exact words_flatten (humps_map_capital h)
  | camel =>
    rw [Convention.separator, nil_intercalate]
    exact words_flatten (humps_camel h)

/-! ## Writing words again -/

/-- From every convention a name is written in capitals alike. -/
theorem pascal_write (h : IsName front last) (convention : Convention) :
    Text.pascal (convention.write (front ++ [last])) =
      Convention.pascal.write (front ++ [last]) := by
  have hwords := convention.map_spell (f := capitalWord) fun word hword part hpart =>
    hpart.capitalWord_eq (h.isLower word hword)
  unfold Text.pascal
  rw [words_write h, List.flatMap_def, hwords]
  exact (nil_intercalate _).symm

/-- From every convention it is written with underscores alike. -/
theorem snake_write (h : IsName front last) (convention : Convention) :
    Text.snake (convention.write (front ++ [last])) = Convention.snake.write (front ++ [last]) := by
  have hwords := convention.map_spell (f := lower) (g := id) fun word hword part hpart =>
    hpart.lower_eq (h.isLower word hword)
  unfold Text.snake
  rw [words_write h, hwords, List.map_id]
  rfl

/-- From every convention it is written in humps alike. -/
theorem camel_write (h : IsName front last) (convention : Convention) :
    Text.camel (convention.write (front ++ [last])) = Convention.camel.write (front ++ [last]) := by
  have hsmall := convention.map_spell (f := lower) (g := id) fun word hword part hpart =>
    hpart.lower_eq (h.isLower word hword)
  have hcapital := convention.map_spell (f := capitalWord) fun word hword part hpart =>
    hpart.capitalWord_eq (h.isLower word hword)
  obtain ⟨first, rest, hfirst⟩ : ∃ first rest, front ++ [last] = first :: rest :=
    List.exists_cons_of_ne_nil (by simp)
  obtain ⟨part, parts, hparts⟩ :=
    List.exists_cons_of_ne_nil (convention.spell_ne_nil (hfirst ▸ List.cons_ne_nil first rest))
  unfold Text.camel
  rw [words_write h, hparts]
  rw [hparts, hfirst, List.map_cons, List.map_id, List.cons.injEq] at hsmall
  rw [hparts, hfirst, List.map_cons, List.map_cons, List.cons.injEq] at hcapital
  dsimp only
  rw [hfirst, List.flatMap_def, hsmall.1, hcapital.2]
  exact (nil_intercalate (first :: rest.map capital)).symm

/-- A name in any convention has no blanks at its ends. -/
theorem strip_write (h : IsName front last) (convention : Convention) :
    strip (convention.write (front ++ [last])) = convention.write (front ++ [last]) := by
  have hne : ∀ part ∈ convention.spell (front ++ [last]), part ≠ [] := by
    intro part hpart
    obtain ⟨word, hword, hspelling⟩ := Convention.exists_of_mem_spell hpart
    exact hspelling.ne_nil (h.ne_nil hword)
  have hletter : ∀ c, (∃ part ∈ convention.spell (front ++ [last]), c ∈ part) →
      isBlank c = false := by
    rintro c ⟨part, hpart, hc⟩
    obtain ⟨word, hword, hspelling⟩ := Convention.exists_of_mem_spell hpart
    exact isBlank_of_isLetter (hspelling.isLetter (h.isLower word hword) c hc)
  apply stripWhile_eq_self
  · exact fun c hc => hletter c (exists_mem_of_head?_intercalate hne hc)
  · exact fun c hc => hletter c (exists_mem_of_getLast?_intercalate hne hc)

/-! ## The last word of a joined name -/

/-- No word starts at a small letter behind a letter. -/
theorem startsWord_of_isLower {before : Char} (hbefore : isLetter before = true)
    (hc : c.isLower = true) : startsWord before c = false := by
  have hseparator : (before == '_' || before == ' ' || before == '-') = false :=
    forall_isLetter (p := fun c => (c == '_' || c == ' ' || c == '-') = false) (by decide) hbefore
  rw [startsWord, hseparator, isUpper_of_isLower hc]
  rfl

/-- A word starts at a capital behind a small letter. -/
theorem startsWord_of_isUpper {before : Char} (hbefore : before.isLower = true)
    (hc : c.isUpper = true) : startsWord before c = true := by
  rw [startsWord, isUpper_of_isLower hbefore, isUpper_of_isUpper hc]
  simp

/-- In small letters no further word starts. -/
theorem splitLastStart_of_isLower {before : Char} {run : List Char}
    (hbefore : isLetter before = true)
    (hrun : ∀ c ∈ run, c.isLower = true) : splitLastStart before run = none := by
  induction run generalizing before with
  | nil => rfl
  | cons c rest ih =>
    rw [List.forall_mem_cons] at hrun
    rw [splitLastStart, ih (isLetter_of_isLower hrun.1) hrun.2]
    dsimp only
    rw [startsWord_of_isLower hbefore hrun.1, if_neg Bool.false_ne_true]

/-- The last start is at the last capital behind a small letter. -/
theorem splitLastStart_append_capital {before : Char} {run : List Char}
    (hbefore : before.isLower = true) (hc : c.isUpper = true) (hrun : ∀ d ∈ run, d.isLower = true)
    (first : Char) (more : List Char) :
    splitLastStart first (more ++ before :: c :: run) = some (more ++ [before], c :: run) := by
  have hletter : isLetter c = true := isLetter_of_isUpper hc
  induction more generalizing first with
  | nil =>
    rw [List.nil_append, splitLastStart, splitLastStart, splitLastStart_of_isLower hletter hrun]
    dsimp only
    rw [startsWord_of_isUpper hbefore hc, if_pos rfl]
    rfl
  | cons d rest ih =>
    rw [List.cons_append, splitLastStart, ih d]
    rfl

/-- The last word of a joined name starts at its last capital. -/
theorem splitLastWord_append_capital {text run : List Char}
    (htext : ∀ d, text.getLast? = some d → d.isLower = true) (hc : c.isUpper = true)
    (hrun : ∀ d ∈ run, d.isLower = true) : splitLastWord (text ++ c :: run) = (text, c :: run) := by
  have hletter : isLetter c = true := isLetter_of_isUpper hc
  rcases List.eq_nil_or_concat text with rfl | ⟨more, before, rfl⟩
  · rw [List.nil_append, splitLastWord, splitLastStart_of_isLower hletter hrun]
  · have hbefore : before.isLower = true := htext before (by simp)
    cases more with
    | nil =>
      change splitLastWord (before :: c :: run) = ([before], c :: run)
      rw [splitLastWord, splitLastStart, splitLastStart_of_isLower hletter hrun]
      dsimp only
      rw [startsWord_of_isUpper hbefore hc, if_pos rfl]
    | cons first rest =>
      rw [List.concat_eq_append, List.append_assoc, List.singleton_append, List.cons_append,
        splitLastWord, splitLastStart_append_capital hbefore hc hrun]
      rfl

/-- In capitals a name ends in its last word with a capital. -/
theorem pascal_write_append (front : List (List Char)) (last : List Char) :
    Convention.pascal.write (front ++ [last]) = Convention.pascal.write front ++ capital last := by
  unfold Convention.write
  rw [Convention.separator, nil_intercalate, nil_intercalate]
  simp [Convention.spell]

/-- Joined words of two letters or more end in a small letter. -/
theorem isLower_of_getLast?_write (hlong : ∀ word ∈ front, 2 ≤ word.length)
    (hlower : ∀ word ∈ front, ∀ c ∈ word, c.isLower = true)
    (hc : (Convention.pascal.write front).getLast? = some c) : c.isLower = true := by
  rcases List.eq_nil_or_concat front with rfl | ⟨rest, word, rfl⟩
  · cases hc
  · have hmem : word ∈ rest.concat word := by simp
    obtain ⟨first, run, final, rfl⟩ := exists_eq_cons_concat (hlong word hmem)
    have hsplit : capital (first :: run ++ [final]) = (first.toUpper :: run) ++ [final] := rfl
    rw [List.concat_eq_append, pascal_write_append, hsplit, ← List.append_assoc,
      List.getLast?_concat, Option.some.injEq] at hc
    exact hlower _ hmem c (by simp [hc])

/-! ## Inflecting the last word -/

section inflect

variable {rule : List Char → List Char}

/-- Inflection keeps the capital at the start of a word. -/
theorem inflectWord_capital (hne : word ≠ []) (hword : ∀ c ∈ word, c.isLower = true)
    (hrule : ∀ c ∈ rule word, c.isLower = true) :
    inflectWord rule (capital word) = capital (rule word) := by
  obtain ⟨first, run, rfl⟩ := List.exists_cons_of_ne_nil hne
  have hfirst : first.toUpper.isUpper = true := isUpper_toUpper (hword first List.mem_cons_self)
  unfold inflectWord
  rw [lower_capital hword]
  dsimp only
  split_ifs with hkept hcapital
  -- the rule only adds to the word, which keeps its letters and with them the capital
  · obtain ⟨added, hadded⟩ := List.isPrefixOf_iff_prefix.mp (Bool.and_eq_true _ _ |>.mp hkept).2
    rw [← hadded, List.drop_left]
    rfl
  -- the rule changes the word, and its result gets the capital
  · cases hinflected : rule (first :: run) with
    | nil => rfl
    | cons d rest =>
      have hd : d.isLower = true := hrule d (hinflected ▸ List.mem_cons_self)
      rw [capitalizeFirst, upperChar_of_isLower hd]
      rfl
  · exact absurd (isUpper_of_isUpper hfirst) hcapital

/-- Inflecting a joined name inflects its last word. -/
theorem inflect_write (h : IsName front last) (hrule : ∀ c ∈ rule last, c.isLower = true) :
    inflect rule (Convention.pascal.write (front ++ [last])) =
      Convention.pascal.write (front ++ [rule last]) := by
  have hfront : ∀ c, (Convention.pascal.write front).getLast? = some c → c.isLower = true :=
    fun c hc => isLower_of_getLast?_write h.long
      (fun word hword => h.isLower word (List.mem_append_left _ hword)) hc
  obtain ⟨first, run, hlast⟩ := List.exists_cons_of_ne_nil h.last_ne_nil
  have hcapital : capital last = first.toUpper :: run := by rw [hlast]; rfl
  have hletters := h.isLower_last
  rw [hlast, List.forall_mem_cons] at hletters
  have hsplit := splitLastWord_append_capital hfront (isUpper_toUpper hletters.1) hletters.2
  rw [← hcapital] at hsplit
  rw [pascal_write_append, pascal_write_append, ← inflectWord_capital h.last_ne_nil
    h.isLower_last hrule]
  unfold inflect
  split
  · next hnil => simp [hcapital] at hnil
  · rw [hsplit]

end inflect

/-! ### The rules keep words -/

/-- The plural of small letters is in small letters. -/
theorem isLower_pluralizeWord (hword : ∀ c ∈ word, c.isLower = true) :
    ∀ c ∈ pluralizeWord word, c.isLower = true := by
  intro c hc
  by_contra hne
  exact hne (hword c (mem_pluralizeWord (Bool.eq_false_iff.mpr hne) hc))

/-- So is the singular. -/
theorem isLower_singularizeWord (hword : ∀ c ∈ word, c.isLower = true) :
    ∀ c ∈ singularizeWord word, c.isLower = true := by
  intro c hc
  by_contra hne
  exact hne (hword c (mem_singularizeWord (Bool.eq_false_iff.mpr hne) hc))

/-- No word in the table of irregular words is empty. -/
theorem ne_nil_of_mem_irregular : ∀ pair ∈ irregular, pair.1 ≠ [] ∧ pair.2 ≠ [] := by decide

/-- The plural of something is something. -/
theorem pluralizeWord_ne_nil (hne : word ≠ []) : pluralizeWord word ≠ [] := by
  unfold pluralizeWord
  split_ifs
  · exact hne
  · split
    · next plural hlookup =>
      obtain ⟨before, after, heq, -⟩ := List.lookup_eq_some_iff.mp hlookup
      have hpair : (word, plural) ∈ irregular := by simp [heq]
      exact (ne_nil_of_mem_irregular _ hpair).2
    · unfold pluralBySuffix
      split_ifs <;> exact List.append_ne_nil_of_right_ne_nil _ (by decide)

/-- A longer word is not dropped as a whole. -/
theorem dropEnd_ne_nil {n : Nat} (h : n < word.length) : dropEnd n word ≠ [] := by
  rw [← List.length_pos_iff, dropEnd, List.length_take]
  omega

/-- The rules for singulars leave something of a word. -/
theorem singularBySuffix_ne_nil (hne : word ≠ []) : singularBySuffix word ≠ [] := by
  unfold singularBySuffix
  split_ifs with hies hsibilant huses hss hs
  · exact List.append_ne_nil_of_right_ne_nil _ (by decide)
  · have hlong : ∀ ending ∈ ["sses", "xes", "zzes", "ches", "shes"], 2 < ending.toList.length := by
      decide
    obtain ⟨ending, hending, hends⟩ := List.any_eq_true.mp hsibilant
    have hlength := (List.isSuffixOf_iff_suffix.mp hends).length_le
    exact dropEnd_ne_nil (Nat.lt_of_lt_of_le (hlong ending hending) hlength)
  · exact List.append_ne_nil_of_right_ne_nil _ (by decide)
  · exact hne
  · simp only [Bool.and_eq_true, decide_eq_true_eq] at hs
    exact dropEnd_ne_nil hs.2
  · exact hne

/-- The singular of something is something. -/
theorem singularizeWord_ne_nil (hne : word ≠ []) : singularizeWord word ≠ [] := by
  unfold singularizeWord
  split
  · exact hne
  split
  · next pair hfind => exact (ne_nil_of_mem_irregular _ (List.mem_of_find?_eq_some hfind)).1
  split
  · exact hne
  · exact singularBySuffix_ne_nil hne

/-- A name with its last word in singular is a name. -/
theorem IsName.singularizeWord (h : IsName front last) : IsName front (singularizeWord last) :=
  h.replaceLast (singularizeWord_ne_nil h.last_ne_nil) (isLower_singularizeWord h.isLower_last)

/-- A name with its last word in plural is a name. -/
theorem IsName.pluralizeWord (h : IsName front last) : IsName front (pluralizeWord last) :=
  h.replaceLast (pluralizeWord_ne_nil h.last_ne_nil) (isLower_pluralizeWord h.isLower_last)

/-! ## The spellings of a name -/

variable {before after : List Char}

/-- All spellings of a name have one canonical form. -/
theorem canonical_write (h : IsName front last) (convention : Convention)
    (hbefore : ∀ c ∈ before, isBlank c = true) (hafter : ∀ c ∈ after, isBlank c = true) :
    canonical (String.ofList (before ++ convention.write (front ++ [last]) ++ after)) =
      String.ofList (Convention.pascal.write (front ++ [singularizeWord last])) := by
  unfold canonical singularize
  rw [String.toList_ofList, strip_append_append hbefore hafter, strip_write h, pascal_write h,
    inflect_write h (isLower_singularizeWord h.isLower_last)]

/-- Whatever convention a name is written in, and with whatever blanks around it, its spellings are
its words in three conventions, the last word in the singular or the plural. -/
theorem spellings_of_write_eq (convention : Convention)
    (hwords : ∀ word ∈ front ++ [last], 2 ≤ word.length ∧ ∀ c ∈ word, c.isLower = true)
    (hbefore : ∀ c ∈ before, isBlank c = true) (hafter : ∀ c ∈ after, isBlank c = true) :
    let singular := front ++ [singularizeWord last]
    let plural := front ++ [pluralizeWord (singularizeWord last)]
    Spellings.of (String.ofList (before ++ convention.write (front ++ [last]) ++ after)) =
      { studly := String.ofList (Convention.pascal.write singular)
        studlyPlural := String.ofList (Convention.pascal.write plural)
        snake := String.ofList (Convention.snake.write singular)
        snakePlural := String.ofList (Convention.snake.write plural)
        camel := String.ofList (Convention.camel.write singular)
        camelPlural := String.ofList (Convention.camel.write plural) } := by
  have hname : IsName front last := by
    have hlast := (hwords last (List.mem_append_right _ List.mem_cons_self)).1
    refine ⟨fun word hword => (hwords word (List.mem_append_left _ hword)).1, ?_,
      fun word hword => (hwords word hword).2⟩
    exact List.ne_nil_of_length_pos (Nat.lt_of_lt_of_le Nat.zero_lt_two hlast)
  have hsingular := hname.singularizeWord
  have hplural := hsingular.pluralizeWord
  intro singular plural
  have hpluralize : pluralize (Convention.pascal.write singular) = Convention.pascal.write plural :=
    inflect_write hsingular (isLower_pluralizeWord hsingular.isLower_last)
  unfold Spellings.of Spellings.ofCanonical
  dsimp only
  rw [canonical_write hname convention hbefore hafter, String.toList_ofList, hpluralize,
    snake_write hsingular, snake_write hplural, camel_write hsingular, camel_write hplural]

/-- A plural in capitals: the singular and the plural of its last word take the place of that word.
-/
theorem spellings_of_sales_people :
    (∀ word ∈ ["sales".toList] ++ ["people".toList],
        2 ≤ word.length ∧ ∀ c ∈ word, c.isLower = true) ∧
      (∀ c ∈ [' '], isBlank c = true) ∧ (∀ c ∈ ['\t'], isBlank c = true) ∧
      Spellings.of " SALES_PEOPLE\t" =
        { studly := "SalesPerson", studlyPlural := "SalesPeople", snake := "sales_person",
          snakePlural := "sales_people", camel := "salesPerson",
          camelPlural := "salesPeople" } := by
  have hletters : ∀ text : String, text.toList.all Char.isLower = true →
      ∀ c ∈ text.toList, c.isLower = true := fun _ h => List.all_eq_true.mp h
  have hwords : ∀ word ∈ ["sales".toList] ++ ["people".toList],
      2 ≤ word.length ∧ ∀ c ∈ word, c.isLower = true := by
    rw [List.singleton_append, List.forall_mem_cons, List.forall_mem_singleton]
    exact ⟨⟨by decide, hletters "sales" (by decide)⟩, by decide, hletters "people" (by decide)⟩
  have hbefore : ∀ c ∈ [' '], isBlank c = true := List.forall_mem_singleton.mpr rfl
  have hafter : ∀ c ∈ ['\t'], isBlank c = true := List.forall_mem_singleton.mpr rfl
  refine ⟨hwords, hbefore, hafter, ?_⟩
  exact (spellings_of_write_eq .screaming hwords hbefore hafter).trans (by decide)

end Scaffold.Name
