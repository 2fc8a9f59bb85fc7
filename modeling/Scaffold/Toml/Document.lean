import Scaffold.Toml.Quoted

/-!
# Reading TOML documents

A document is a sequence of lines: a key with its value, the header of a table, or nothing; each may
end in a comment. Values may be nested up to a fixed depth. Only whether and what a document holds
is of interest, so a document that breaks a rule is refused without a word on which one.
-/

namespace Scaffold.Toml

/-! ## Blank space -/

/-- What follows the spaces at the start. -/
def dropSpace (cs : List Char) : List Char :=
  cs.dropWhile isSpace

/-- Dropping spaces makes no text longer. -/
theorem length_dropSpace_le (cs : List Char) : (dropSpace cs).length ≤ cs.length :=
  (List.dropWhile_suffix isSpace).length_le

/-- What follows the spaces, line ends and comments at the start; `inComment` tells that a comment
has begun. -/
def dropBlankLines (inComment : Bool) : List Char → List Char
  | [] => []
  | c :: rest =>
    if c = '\n' then dropBlankLines false rest
    else if c = '\r' ∧ rest.head? = some '\n' then dropBlankLines inComment rest
    else if inComment then if isTextChar c then dropBlankLines true rest else c :: rest
    else if isSpace c then dropBlankLines false rest
    else if c = '#' then dropBlankLines true rest
    else c :: rest

/-- Nor does dropping blank lines. -/
theorem length_dropBlankLines_le (inComment : Bool) (cs : List Char) :
    (dropBlankLines inComment cs).length ≤ cs.length := by
  induction cs generalizing inComment with
  | nil => simp [dropBlankLines]
  | cons c rest ih =>
    rw [dropBlankLines]
    split
    · exact Nat.le_succ_of_le (ih _)
    split
    · exact Nat.le_succ_of_le (ih _)
    split
    · split
      · exact Nat.le_succ_of_le (ih _)
      · exact Nat.le_refl _
    split
    · exact Nat.le_succ_of_le (ih _)
    split
    · exact Nat.le_succ_of_le (ih _)
    · exact Nat.le_refl _

/-- What follows the end of the line, if nothing but spaces and a comment precede it. -/
def lineEnd (inComment : Bool) : List Char → Option (List Char)
  | [] => some []
  | c :: rest =>
    if c = '\n' then some rest
    else if c = '\r' ∧ rest.head? = some '\n' then lineEnd inComment rest
    else if inComment then if isTextChar c then lineEnd true rest else none
    else if isSpace c then lineEnd false rest
    else if c = '#' then lineEnd true rest
    else none

/-- Nor does reading the end of a line. -/
theorem length_lineEnd_le {inComment : Bool} {cs left : List Char}
    (h : lineEnd inComment cs = some left) : left.length ≤ cs.length := by
  induction cs generalizing inComment with
  | nil => simp_all [lineEnd]
  | cons c rest ih =>
    rw [lineEnd] at h
    repeat' split at h
    all_goals first
      | exact Nat.le_succ_of_le (ih h)
      | (simp only [Option.some.injEq] at h; subst h; simp)
      | simp at h

/-- What follows the blank space at the start; in braces, line ends and comments belong to it. -/
def dropBlankIn (inBraces : Bool) (cs : List Char) : List Char :=
  if inBraces then dropBlankLines false cs else dropSpace cs

/-- Nor does dropping blanks within braces. -/
theorem length_dropBlankIn_le (inBraces : Bool) (cs : List Char) :
    (dropBlankIn inBraces cs).length ≤ cs.length := by
  rw [dropBlankIn]
  split
  · exact length_dropBlankLines_le false cs
  · exact length_dropSpace_le cs

/-! ## Keys -/

/-- How deep values may be nested, and how many parts a dotted key may have. -/
def maxDepth : Nat := 80

/-- A character of a key without quotes. -/
def isKeyChar (c : Char) : Bool :=
  c.isAlphanum || c == '_' || c == '-'

/-- A key, with or without quotes. -/
def simpleKey : (cs : List Char) → Option (String × Rest cs)
  | [] => none
  | c :: rest =>
    if c = '"' then
      (basicText rest).map fun (text, left) => (String.ofList text, left.cons)
    else if c = '\x27' then
      (literalText rest).map fun (text, left) => (String.ofList text, left.cons)
    else if isKeyChar c then
      some (String.ofList (c :: rest.takeWhile isKeyChar),
        ⟨rest.dropWhile isKeyChar, Nat.lt_succ_of_le (List.dropWhile_suffix isKeyChar).length_le⟩)
    else none

/-- A key with the keys that lead to it, however many. -/
def keysFrom (cs : List Char) : Option (List String × String × Rest cs) :=
  match simpleKey cs with
  | none => none
  | some (key, left) =>
    match h : dropSpace left.val with
    | '.' :: rest =>
      have hrest : (dropSpace rest).length < cs.length := by
        have h₁ := length_dropSpace_le rest
        have h₂ := length_dropSpace_le left.val
        have h₃ := left.property
        rw [h] at h₂
        simp only [List.length_cons] at h₂
        omega
      (keysFrom (dropSpace rest)).map fun (keys, last, more) =>
        (key :: keys, last, more.within (Nat.le_of_lt hrest))
    | _ => some ([], key, left)
termination_by cs.length

/-- A key with the keys that lead to it: `a.b.c`. -/
def dottedKey (cs : List Char) : Option (List String × String × Rest cs) :=
  (keysFrom cs).filter fun (keys, _) => keys.length < maxDepth

/-- What follows the equals sign after a key, and the blank space around it. -/
def equalsSign (inBraces : Bool) (cs : List Char) : Option (Rest cs) :=
  match h : dropBlankIn inBraces cs with
  | '=' :: rest =>
    some ⟨dropBlankIn inBraces rest, by
      have h₁ := length_dropBlankIn_le inBraces rest
      have h₂ := length_dropBlankIn_le inBraces cs
      rw [h] at h₂
      simp only [List.length_cons] at h₂
      omega⟩
  | _ => none

/-! ## Values -/

/-- A character of an unquoted value. -/
def isScalarChar (c : Char) : Bool :=
  c.isAlphanum || c == '_' || c == '-' || c == '+' || c == '.' || c == ':'

/-- The text of an unquoted value and what follows it. A date is followed by a time if one digit
stands after a single space. -/
def scalarText (cs : List Char) : List Char × List Char :=
  let text := cs.takeWhile isScalarChar
  match cs.dropWhile isScalarChar with
  | ' ' :: c :: rest =>
    if isDate text ∧ c.isDigit then
      (text ++ ' ' :: (c :: rest).takeWhile isScalarChar, (c :: rest).dropWhile isScalarChar)
    else (text, ' ' :: c :: rest)
  | left => (text, left)

/-- An unquoted value. -/
def unquoted (cs : List Char) : Option (Value × Rest cs) :=
  let (text, left) := scalarText cs
  if h : left.length < cs.length then (scalar text).map fun value => (value, ⟨left, h⟩) else none

mutual

/-- A value; `depth` is how deep further values may be nested in it. -/
def value (depth : Nat) (cs : List Char) : Option (Value × Rest cs) :=
  match cs with
  | [] => none
  | c :: rest =>
    if c = '"' ∨ c = '\x27' then
      (quotedText (c :: rest)).map fun (text, left) => (.string text, left)
    else if c = '[' then
      match depth with
      | 0 => none
      | depth + 1 =>
        (elements depth rest).map fun (values, left) => (.array values, left.cons)
    else if c = '{' then
      match depth with
      | 0 => none
      | depth + 1 =>
        (inlineMembers depth [] rest).map fun (members, left) =>
          (.table (membersToValues members), left.cons)
    else unquoted (c :: rest)
termination_by 2 * cs.length

/-- The elements of a list, up to its closing bracket. -/
def elements (depth : Nat) (cs : List Char) : Option (List Value × Rest cs) :=
  have hstart := length_dropBlankLines_le false cs
  match hcs : dropBlankLines false cs with
  | [] => none
  | c :: rest =>
    if c = ']' then
      some ([], ⟨rest, by rw [hcs] at hstart; simp only [List.length_cons] at hstart; omega⟩)
    else
      match value depth (c :: rest) with
      | none => none
      | some (first, left) =>
        have hleft := left.property
        have hnext := length_dropBlankLines_le false left.val
        match hmore : dropBlankLines false left.val with
        | ',' :: more =>
          have hlt : more.length < cs.length := by
            rw [hmore] at hnext
            rw [hcs] at hstart
            simp only [List.length_cons] at hnext hstart hleft
            omega
          (elements depth more).map fun (values, last) =>
            (first :: values, last.within (Nat.le_of_lt hlt))
        | ']' :: more =>
          some ([first], ⟨more, by
            rw [hmore] at hnext
            rw [hcs] at hstart
            simp only [List.length_cons] at hnext hstart hleft
            omega⟩)
        | _ => none
termination_by 2 * cs.length + 1
decreasing_by
  · rw [hcs] at hstart
    omega
  · omega

/-- The members of a table in braces, up to its closing brace, added to those read before. -/
def inlineMembers (depth : Nat) (members : Members) (cs : List Char) : Option (Members × Rest cs) :=
  have hstart := length_dropBlankLines_le false cs
  match hcs : dropBlankLines false cs with
  | [] => none
  | c :: rest =>
    if c = '}' then
      some (members, ⟨rest, by rw [hcs] at hstart; simp only [List.length_cons] at hstart; omega⟩)
    else
      match dottedKey (c :: rest) with
      | none => none
      | some (keys, key, afterKey) =>
        match equalsSign true afterKey.val with
        | none => none
        | some start =>
          match value depth start.val with
          | none => none
          | some (found, left) =>
            have hkey := afterKey.property
            have hequals := start.property
            have hleft := left.property
            have hnext := length_dropBlankLines_le false left.val
            match members.assign keys key found with
            | none => none
            | some members =>
              match hmore : dropBlankLines false left.val with
              | ',' :: more =>
                have hlt : more.length < cs.length := by
                  rw [hmore] at hnext
                  rw [hcs] at hstart
                  simp only [List.length_cons] at hnext hstart hkey
                  omega
                (inlineMembers depth members more).map fun (members, last) =>
                  (members, last.within (Nat.le_of_lt hlt))
              | '}' :: more =>
                some (members, ⟨more, by
                  rw [hmore] at hnext
                  rw [hcs] at hstart
                  simp only [List.length_cons] at hnext hstart hkey
                  omega⟩)
              | _ => none
termination_by 2 * cs.length + 1
decreasing_by
  · have hkey := afterKey.property
    have hequals := start.property
    rw [hcs] at hstart
    omega
  · omega

end

/-! ## Documents -/

/-- The header of a table: the keys that lead to it, its key, and whether it is an element of a
list. The first bracket was read. -/
def header (cs : List Char) : Option (List String × String × Bool × Rest cs) :=
  match cs with
  | '[' :: rest =>
    match dottedKey (dropSpace rest) with
    | none => none
    | some (keys, key, left) =>
      match h : dropSpace left.val with
      | ']' :: ']' :: more =>
        some (keys, key, true, ⟨more, by
          have h₁ := length_dropSpace_le rest
          have h₂ := length_dropSpace_le left.val
          have h₃ := left.property
          rw [h] at h₂
          simp only [List.length_cons] at h₂ ⊢
          omega⟩)
      | _ => none
  | cs =>
    match dottedKey (dropSpace cs) with
    | none => none
    | some (keys, key, left) =>
      match h : dropSpace left.val with
      | ']' :: more =>
        some (keys, key, false, ⟨more, by
          have h₁ := length_dropSpace_le cs
          have h₂ := length_dropSpace_le left.val
          have h₃ := left.property
          rw [h] at h₂
          simp only [List.length_cons] at h₂
          omega⟩)
      | _ => none

/-- A key with its value. -/
def assignment (cs : List Char) : Option (List String × String × Value × Rest cs) :=
  match dottedKey cs with
  | none => none
  | some (keys, key, afterKey) =>
    match equalsSign false afterKey.val with
    | none => none
    | some start =>
      match value maxDepth start.val with
      | none => none
      | some (found, left) =>
        some (keys, key, found, left.within (by
          have h₁ := afterKey.property
          have h₂ := start.property
          omega))

/-- The members of a document, added to those read before; `current` leads to the table that the
last header opened. -/
def membersFrom (current : List String) (members : Members) (cs : List Char) : Option Members :=
  have hstart := length_dropBlankLines_le false cs
  match hcs : dropBlankLines false cs with
  | [] => some members
  | c :: rest =>
    if c = '[' then
      match header rest with
      | none => none
      | some (keys, key, isElement, left) =>
        match if isElement then members.openElement keys key else members.openTable keys key with
        | none => none
        | some members =>
          match hend : lineEnd false left.val with
          | none => none
          | some more =>
            have hmore : more.length < cs.length := by
              have h₁ := length_lineEnd_le hend
              have h₂ := left.property
              rw [hcs] at hstart
              simp only [List.length_cons] at hstart
              omega
            membersFrom (keys ++ [key]) members more
    else
      match assignment (c :: rest) with
      | none => none
      | some (keys, key, found, left) =>
        match members.assignUnder current keys key found with
        | none => none
        | some members =>
          match hend : lineEnd false left.val with
          | none => none
          | some more =>
            have hmore : more.length < cs.length := by
              have h₁ := length_lineEnd_le hend
              have h₂ := left.property
              rw [hcs] at hstart
              omega
            membersFrom current members more
termination_by cs.length

/-- The members of the table that a document describes; `none` if it is no TOML document. A mark of
the byte order at the start does not count. -/
def read (text : String) : Option (List (String × Value)) :=
  let cs := match text.toList with
    | '\ufeff' :: rest => rest
    | cs => cs
  (membersFrom [] [] cs).map membersToValues

end Scaffold.Toml
