import Scaffold.Text.CaseTable
import Scaffold.Text.Range

/-!
# Letter case

Upper and lower case of text in any script. A letter may become several characters (`ß` becomes
`SS`), so case mappings send a character to a list of characters.

Upper-casing looks at each character on its own. Lower-casing does too, with one exception: a
capital sigma that ends a word becomes the final sigma `ς` instead of `σ`. It ends a word when the
nearest characters around it, passing over marks and punctuation that belong to words, are a cased
letter before it and none after it.
-/

namespace Scaffold.Text

/-! ## One character -/

/-- The counterpart of the code point `n` along one of `runs`; `n` itself if it lies on none. -/
def shiftAlong (runs : List CaseRun) (n : Nat) : Nat :=
  match runs.find? fun run => onRun run.first run.last run.stride n with
  | some run => (n + run.shift).toNat
  | none => n

/-- The case mapping given by expansions to several characters and by runs of single letters. -/
def mapCase (expansions : List (Nat × List Nat)) (runs : List CaseRun) (c : Char) : List Char :=
  match expansions.lookup c.toNat with
  | some expansion => expansion.map Char.ofNat
  | none => [Char.ofNat (shiftAlong runs c.toNat)]

/-- `c` is an ASCII character. -/
def isAscii (c : Char) : Bool :=
  c.toNat < 0x80

/-- The upper-case form of a character. -/
def upperChar (c : Char) : List Char :=
  if isAscii c then [c.toUpper] else mapCase upperExpansions upperRuns c

/-- The lower-case form of a character, wherever it stands. -/
def lowerChar (c : Char) : List Char :=
  if isAscii c then [c.toLower] else mapCase lowerExpansions lowerRuns c

/-- `c` is an upper-case character. -/
def isUpper (c : Char) : Bool :=
  if isAscii c then c.isUpper
  else uppercaseRuns.any fun run => onRun run.1 run.2.1 run.2.2 c.toNat

/-- `c` is a character that has a case. -/
def isCased (c : Char) : Bool :=
  if isAscii c then c.isAlpha else inRanges casedRanges c

/-- `c` is passed over when the surroundings of a letter are inspected. -/
def isCaseIgnorable (c : Char) : Bool :=
  if isAscii c then
    c == '\x27' || c == '.' || c == ':' || c == '^' || c == '\x60'
  else inRanges caseIgnorableRanges c

/-! ## Text -/

/-- The first character that is not passed over has a case. -/
def startsCased (cs : List Char) : Bool :=
  ((cs.dropWhile isCaseIgnorable).head?.map isCased).getD false

/-- The lower-case form of `cs`, where `before` is what precedes it, nearest character first. -/
def lowerAfter (before : List Char) : List Char → List Char
  | [] => []
  | c :: rest =>
    let here :=
      if c == 'Σ' then
        if startsCased before && !startsCased rest then ['ς'] else ['σ']
      else lowerChar c
    here ++ lowerAfter (c :: before) rest

/-- The lower-case form of a text. -/
def lower (cs : List Char) : List Char :=
  lowerAfter [] cs

/-- The upper-case form of a text. -/
def upper (cs : List Char) : List Char :=
  cs.flatMap upperChar

/-- The text with its first character in upper case and the rest as it is. -/
def capitalizeFirst : List Char → List Char
  | [] => []
  | c :: rest => upperChar c ++ rest

/-- `text` in lower case. -/
def toLower (text : String) : String :=
  String.ofList (lower text.toList)

/-- `text` with its first character in upper case and the rest as it is. -/
def capitalize (text : String) : String :=
  String.ofList (capitalizeFirst text.toList)

/-! ## Laws -/

/-- The lower case of nothing. -/
@[simp] theorem lower_nil : lower [] = [] := rfl

/-- Without a sigma the text before does not matter. -/
theorem lowerAfter_of_forall_ne {before cs : List Char} (h : ∀ c ∈ cs, c ≠ 'Σ') :
    lowerAfter before cs = cs.flatMap lowerChar := by
  induction cs generalizing before with
  | nil => rfl
  | cons c rest ih =>
    have hc : c ≠ 'Σ' := h c (by simp)
    simp [lowerAfter, hc, ih fun d hd => h d (by simp [hd])]

/-- Away from the capital sigma, lower-casing looks at each character on its own. -/
theorem lower_of_forall_ne {cs : List Char} (h : ∀ c ∈ cs, c ≠ 'Σ') :
    lower cs = cs.flatMap lowerChar :=
  lowerAfter_of_forall_ne h

end Scaffold.Text
