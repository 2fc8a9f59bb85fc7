import Scaffold.Text.Case

/-!
# Plural and singular

A small, total set of English rules. Uncountable words have one form; a table holds the irregular
pairs; suffix rules decide for all other words. The rules speak of words in small letters;
`inflect` applies one of them to the last word of a compound name in any spelling and keeps the
spelling of what the rule does not change.
-/

namespace Scaffold.Name

open Text

/-! ## Word tables -/

/-- The words whose plural is the word itself. -/
def uncountable : List (List Char) :=
  ["audio", "data", "deer", "equipment", "feedback", "fish", "information", "metadata", "money",
    "news", "rice", "series", "sheep", "software", "species", "staff"].map String.toList

/-- The words whose plural follows no rule: singular, then plural. -/
def irregular : List (List Char × List Char) :=
  [("analysis", "analyses"), ("child", "children"), ("criterion", "criteria"), ("foot", "feet"),
    ("goose", "geese"), ("half", "halves"), ("index", "indices"), ("knife", "knives"),
    ("leaf", "leaves"), ("life", "lives"), ("man", "men"), ("matrix", "matrices"),
    ("mouse", "mice"), ("ox", "oxen"), ("person", "people"), ("quiz", "quizzes"),
    ("tooth", "teeth"), ("vertex", "vertices"), ("wife", "wives"), ("woman", "women")].map
    fun pair => (pair.1.toList, pair.2.toList)

/-! ## Suffixes -/

/-- One of the five vowels; `y` is none. -/
def isVowel (c : Char) : Bool :=
  c == 'a' || c == 'e' || c == 'i' || c == 'o' || c == 'u'

/-- The word ends, and not in a vowel. -/
def endsInConsonant (word : List Char) : Bool :=
  (word.getLast?.map fun c => !isVowel c).getD false

/-- The word ends in `ending`. -/
def endsIn (ending : String) (word : List Char) : Bool :=
  ending.toList.isSuffixOf word

/-- The word ends in one of `endings`. -/
def endsInAny (endings : List String) (word : List Char) : Bool :=
  endings.any fun ending => endsIn ending word

/-- The word without its last `n` characters. -/
def dropEnd (n : Nat) (word : List Char) : List Char :=
  word.take (word.length - n)

/-! ## Rules for words in small letters -/

/-- The plural of a word that stands in no table. -/
def pluralBySuffix (word : List Char) : List Char :=
  if endsIn "y" word && endsInConsonant (dropEnd 1 word) then dropEnd 1 word ++ "ies".toList
  else if endsInAny ["s", "x", "z", "ch", "sh"] word then word ++ "es".toList
  else word ++ "s".toList

/-- The plural of a word. -/
def pluralizeWord (word : List Char) : List Char :=
  if uncountable.contains word then word
  else
    match irregular.lookup word with
    | some plural => plural
    | none => pluralBySuffix word

/-- The singular of a word that stands in no table: `ies` becomes `y`, the plural of a sibilant
loses `es`, `uses` after a consonant becomes `us`, a final `s` goes unless the word looks like a
singular in `ss`, `us` or `is`. -/
def singularBySuffix (word : List Char) : List Char :=
  if endsIn "ies" word && 3 < word.length then dropEnd 3 word ++ "y".toList
  else if endsInAny ["sses", "xes", "zzes", "ches", "shes"] word then dropEnd 2 word
  else if endsIn "uses" word && endsInConsonant (dropEnd 4 word) then
    dropEnd 4 word ++ "us".toList
  else if endsInAny ["ss", "us", "is"] word then word
  else if endsIn "s" word && 1 < word.length then dropEnd 1 word
  else word

/-- The singular of a word; a word that is a singular already keeps its form. -/
def singularizeWord (word : List Char) : List Char :=
  if uncountable.contains word then word
  else
    match irregular.find? fun pair => pair.2 == word with
    | some pair => pair.1
    | none =>
      if irregular.any fun pair => pair.1 == word then word
      else singularBySuffix word

/-! ## Compound names -/

/-- A new word starts at `c`, the character after `before`: after a separator, or where capitals
begin. -/
def startsWord (before c : Char) : Bool :=
  before == '_' || before == ' ' || before == '-' || (isUpper c && !isUpper before)

/-- The last place of a text at which a word starts, where `before` precedes the text. -/
def splitLastStart (before : Char) : List Char → Option (List Char × List Char)
  | [] => none
  | c :: rest =>
    match splitLastStart c rest with
    | some (front, last) => some (c :: front, last)
    | none => if startsWord before c then some ([], c :: rest) else none

/-- A name as what precedes its last word, and its last word. -/
def splitLastWord : List Char → List Char × List Char
  | [] => ([], [])
  | c :: rest =>
    match splitLastStart c rest with
    | some (front, last) => (c :: front, last)
    | none => ([], c :: rest)

/-- The number of bytes of a text in UTF-8. -/
def byteCount : List Char → Nat
  | [] => 0
  | c :: cs => c.utf8Size + byteCount cs

/-- The last word of a compound name after `rule`. A rule that only adds to the end keeps the
spelling of the word; otherwise the result is in small letters, with a capital at its start if
there was one. -/
def inflectWord (rule : List Char → List Char) (last : List Char) : List Char :=
  let small := lower last
  let inflected := rule small
  if byteCount small == byteCount last && small.isPrefixOf inflected then
    last ++ inflected.drop small.length
  else if (last.head?.map isUpper).getD false then capitalizeFirst inflected
  else inflected

/-- The name with `rule` applied to its last word. -/
def inflect (rule : List Char → List Char) (name : List Char) : List Char :=
  match name with
  | [] => []
  | _ => (splitLastWord name).1 ++ inflectWord rule (splitLastWord name).2

/-- The name with its last word in the plural. -/
def pluralize (name : List Char) : List Char :=
  inflect pluralizeWord name

/-- The name with its last word in the singular. -/
def singularize (name : List Char) : List Char :=
  inflect singularizeWord name

/-! ## Laws -/

/-- What is split at the last start is the text, cut in two. -/
theorem splitLastStart_append {before : Char} {cs front last : List Char}
    (h : splitLastStart before cs = some (front, last)) : front ++ last = cs := by
  induction cs generalizing before front with
  | nil => simp [splitLastStart] at h
  | cons c rest ih =>
    rw [splitLastStart] at h
    split at h
    · next found hfound =>
      simp only [Option.some.injEq, Prod.mk.injEq] at h
      obtain ⟨rfl, rfl⟩ := h
      simp [ih hfound]
    · split at h
      · simp only [Option.some.injEq, Prod.mk.injEq] at h
        obtain ⟨rfl, rfl⟩ := h
        rfl
      · simp at h

/-- Splitting off the last word loses nothing. -/
theorem splitLastWord_append (name : List Char) :
    (splitLastWord name).1 ++ (splitLastWord name).2 = name := by
  cases name with
  | nil => rfl
  | cons c rest =>
    rw [splitLastWord]
    split
    · next front last h => simp [splitLastStart_append h]
    · rfl

end Scaffold.Name
