import Scaffold.Toml.Scalar

/-!
# Quoted texts

The four forms of text in a TOML document: in double quotes, where a backslash starts an escape, or
in single quotes, where nothing is special; on one line, or in three quotes over several lines. Each
reader is given what follows the opening quotes and returns the text with the rest of the document,
which is shorter.
-/

namespace Scaffold.Toml

/-- What is left of `cs` after something was read from it. -/
abbrev Rest (cs : List Char) := { rest : List Char // rest.length < cs.length }

namespace Rest

/-- What is left of a longer text of which `small` is the end. -/
def within {small large : List Char} (rest : Rest small) (h : small.length ≤ large.length) :
    Rest large :=
  ⟨rest.val, Nat.lt_of_lt_of_le rest.property h⟩

/-- What is left of a text with one more character in front. -/
def cons {c : Char} {cs : List Char} (rest : Rest cs) : Rest (c :: cs) :=
  rest.within (Nat.le_succ _)

/-- What is left after the first character. -/
def tail (c : Char) (rest : List Char) : Rest (c :: rest) :=
  ⟨rest, Nat.lt_succ_self _⟩

end Rest

/-! ## Characters -/

/-- A character that may stand in a comment or a quoted text: no control character but a tab. -/
def isTextChar (c : Char) : Bool :=
  c == '\t' || (0x20 ≤ c.toNat && c.toNat != 0x7F)

/-- A space or a tab. -/
def isSpace (c : Char) : Bool :=
  c == ' ' || c == '\t'

/-! ## Escapes -/

/-- The character with the number that the digits stand for in base sixteen. -/
def charOfHex (digits : List Char) : Option Char :=
  let n := number 16 digits
  if digits.all isHexDigit ∧ n.isValidChar then some (Char.ofNat n) else none

/-- The character with the number that the first `count` characters stand for. -/
def hexEscape (count : Nat) (c : Char) (rest : List Char) : Option (Char × Rest (c :: rest)) :=
  if (rest.take count).length = count then
    (charOfHex (rest.take count)).map fun found =>
      (found, ⟨rest.drop count, by simp only [List.length_drop, List.length_cons]; omega⟩)
  else none

/-- The character that an escape stands for; the backslash was read. -/
def escape : (cs : List Char) → Option (Char × Rest cs)
  | [] => none
  | c :: rest =>
    let simple := fun (found : Char) => some (found, Rest.tail c rest)
    if c = 'b' then simple '\x08'
    else if c = 't' then simple '\t'
    else if c = 'n' then simple '\n'
    else if c = 'f' then simple '\x0c'
    else if c = 'r' then simple '\r'
    else if c = 'e' then simple '\x1b'
    else if c = '"' then simple '"'
    else if c = '\\' then simple '\\'
    else if c = 'x' then hexEscape 2 c rest
    else if c = 'u' then hexEscape 4 c rest
    else if c = 'U' then hexEscape 8 c rest
    else none

/-! ## Texts on one line -/

/-- A text in double quotes. -/
def basicText (cs : List Char) : Option (List Char × Rest cs) :=
  match cs with
  | [] => none
  | c :: rest =>
    if c = '"' then some ([], .tail c rest)
    else if c = '\\' then
      match escape rest with
      | none => none
      | some (found, more) =>
        have hmore : more.val.length ≤ (c :: rest).length := by
          have := more.property
          simp only [List.length_cons]
          omega
        (basicText more.val).map fun (text, left) => (found :: text, left.within hmore)
    else if isTextChar c then
      (basicText rest).map fun (text, left) => (c :: text, left.cons)
    else none
termination_by cs.length
decreasing_by
  · have := more.property
    simp only [List.length_cons]
    omega
  · simp

/-- A text in single quotes. -/
def literalText : (cs : List Char) → Option (List Char × Rest cs)
  | [] => none
  | c :: rest =>
    if c = '\x27' then some ([], .tail c rest)
    else if isTextChar c then
      (literalText rest).map fun (text, left) => (c :: text, left.cons)
    else none

/-! ## Texts over several lines -/

/-- What follows the closing quotes, if `cs` starts with them, and the quotes before them that
belong to the text: at most two. -/
def closing (quote : Char) (cs : List Char) : Option (List Char × Rest cs) :=
  let quotes := cs.takeWhile (· == quote)
  let kept := (quotes.drop 3).take 2
  if h : 3 ≤ quotes.length then
    some (kept, ⟨cs.drop (3 + kept.length), by
      have hle : quotes.length ≤ cs.length := (List.takeWhile_prefix _).length_le
      rw [List.length_drop]
      omega⟩)
  else none

/-- A carriage return or line feed at a line end, where `rest` follows it. -/
def isLineEndChar (c : Char) (rest : List Char) : Bool :=
  c == '\n' || (c == '\r' && rest.head? == some '\n')

/-- What follows a line end. -/
def afterLineEnd : (cs : List Char) → Option (Rest cs)
  | '\n' :: rest => some (.tail '\n' rest)
  | '\r' :: '\n' :: rest => some ⟨rest, by simp only [List.length_cons]; omega⟩
  | _ => none

/-- What follows the spaces and line ends at the start. -/
def dropBlank : List Char → List Char
  | [] => []
  | c :: rest =>
    if isSpace c ∨ isLineEndChar c rest then dropBlank rest
    else c :: rest

/-- Dropping blanks makes no text longer. -/
theorem length_dropBlank_le (cs : List Char) : (dropBlank cs).length ≤ cs.length := by
  induction cs with
  | nil => simp [dropBlank]
  | cons c rest ih =>
    rw [dropBlank]
    split
    · exact Nat.le_succ_of_le ih
    · exact Nat.le_refl _

/-- What follows a backslash that ends a line: the spaces and line ends after it do not count. -/
def continuation (cs : List Char) : Option { rest : List Char // rest.length ≤ cs.length } :=
  match afterLineEnd (cs.dropWhile isSpace) with
  | none => none
  | some rest =>
    some ⟨dropBlank rest.val, by
      have h₁ := length_dropBlank_le rest.val
      have h₂ := rest.property
      have h₃ := (List.dropWhile_suffix isSpace (l := cs)).length_le
      omega⟩

/-- A text in three quotes of either sort; escapes count in double quotes only, and line ends are
part of the text as they stand. -/
def multiLineText (quote : Char) (cs : List Char) : Option (List Char × Rest cs) :=
  match closing quote cs with
  | some (text, left) => some (text, left)
  | none =>
    match cs with
    | [] => none
    | c :: rest =>
      if c = '\\' ∧ quote = '"' then
        match continuation rest with
        | some left =>
          (multiLineText quote left.val).map fun (text, more) =>
            (text, more.within (by have := left.property; simp only [List.length_cons]; omega))
        | none =>
          match escape rest with
          | none => none
          | some (found, left) =>
            (multiLineText quote left.val).map fun (text, more) =>
              (found :: text,
                more.within (by have := left.property; simp only [List.length_cons]; omega))
      else if isTextChar c ∨ isLineEndChar c rest then
        (multiLineText quote rest).map fun (text, more) => (c :: text, more.cons)
      else none
termination_by cs.length
decreasing_by
  · have := left.property
    simp only [List.length_cons]
    omega
  · have := left.property
    simp only [List.length_cons]
    omega
  · exact Nat.lt_succ_self _

/-- A text in three quotes; a line end right after the opening quotes does not count. -/
def openedMultiLineText (quote : Char) (cs : List Char) : Option (List Char × Rest cs) :=
  match afterLineEnd cs with
  | some left =>
    (multiLineText quote left.val).map fun (text, more) =>
      (text, more.within (Nat.le_of_lt left.property))
  | none => multiLineText quote cs

/-- A quoted text in any of the four forms, with its opening quotes. -/
def quotedText : (cs : List Char) → Option (String × Rest cs)
  | a :: rest =>
    if a = '"' ∨ a = '\x27' then
      let three := rest.take 2 = [a, a]
      let body := if three then openedMultiLineText a (rest.drop 2) else none
      match body with
      | some (text, left) =>
        some (String.ofList text, left.within (by
          simp only [List.length_drop, List.length_cons]
          omega))
      | none =>
        if three then none
        else
          (if a = '"' then basicText rest else literalText rest).map fun (text, left) =>
            (String.ofList text, left.cons)
    else none
  | [] => none

end Scaffold.Toml
