/-!
# Blank space

Which characters count as blank, and text with the blanks at its ends removed. The class is the
Unicode property White_Space: twenty-five characters, of which core's `Char.isWhitespace` has four.

Every trimming exists twice, on lists of characters, where it is reasoned about, and on strings.
-/

namespace Scaffold.Text

/-- A blank character: a space, tab, line or paragraph end of any script. -/
def isBlank (c : Char) : Bool :=
  let n := c.toNat
  (9 ≤ n && n ≤ 13) || n == 0x20 || n == 0x85 || n == 0xA0 || n == 0x1680 ||
    (0x2000 ≤ n && n ≤ 0x200A) || n == 0x2028 || n == 0x2029 || n == 0x202F || n == 0x205F ||
    n == 0x3000

/-! ## Lists -/

/-- The list without the members in `p` at its end. -/
def dropEndWhile {α : Type} (p : α → Bool) (xs : List α) : List α :=
  (xs.reverse.dropWhile p).reverse

/-- The text without the characters in `p` at its two ends. -/
def stripWhile (p : Char → Bool) (cs : List Char) : List Char :=
  dropEndWhile p (cs.dropWhile p)

/-- The text without blanks at its two ends. -/
def strip (cs : List Char) : List Char :=
  stripWhile isBlank cs

/-! ## Strings -/

/-- `text` without blanks at its two ends. -/
def trim (text : String) : String :=
  String.ofList (strip text.toList)

/-- `text` holds nothing but blanks. -/
def isBlankText (text : String) : Bool :=
  text.toList.all isBlank

/-! ## Laws -/

/-- From nothing there is nothing to drop. -/
@[simp] theorem dropEndWhile_nil {α : Type} (p : α → Bool) : dropEndWhile p [] = [] := rfl

/-- Trimming a text strips its characters. -/
@[simp] theorem toList_trim (text : String) : (trim text).toList = strip text.toList := by
  simp [trim]

end Scaffold.Text
