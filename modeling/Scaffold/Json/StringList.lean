/-!
# Lists of texts as JSON

A list of texts is written as a JSON array, one element to a line. Reading accepts every JSON array
of strings, in any layout, and nothing else. A string may hold any character; quotes, backslashes
and the characters below the space are written with a backslash.

Main statement: what was written reads as what it was written from (`decode_encode`).
-/

namespace Scaffold.Json

/-! ## Writing -/

/-- A digit of a number in base sixteen. -/
def hexDigit (n : Nat) : Char :=
  if n < 10 then Char.ofNat ('0'.toNat + n) else Char.ofNat ('a'.toNat + (n - 10))

/-- A character as it stands in a string. -/
def escapeChar (c : Char) : List Char :=
  if c = '"' then ['\\', '"']
  else if c = '\\' then ['\\', '\\']
  else if c = '\x08' then ['\\', 'b']
  else if c = '\x09' then ['\\', 't']
  else if c = '\x0a' then ['\\', 'n']
  else if c = '\x0c' then ['\\', 'f']
  else if c = '\x0d' then ['\\', 'r']
  else if c.toNat < 0x20 then
    ['\\', 'u', '0', '0', hexDigit (c.toNat / 16), hexDigit (c.toNat % 16)]
  else [c]

/-- A text as a string, with its quotes. -/
def encodeString (text : String) : List Char :=
  '"' :: text.toList.flatMap escapeChar ++ ['"']

/-- The elements of an array, each on a line of its own and with commas between them. -/
def encodeElements : List String → List Char
  | [] => []
  | [text] => ['\n', ' ', ' '] ++ encodeString text ++ ['\n']
  | text :: rest => ['\n', ' ', ' '] ++ encodeString text ++ [','] ++ encodeElements rest

/-- The texts as an array. -/
def encode (texts : List String) : String :=
  String.ofList ('[' :: encodeElements texts ++ [']'])

/-! ## Tokens -/

/-- A token of an array of strings. -/
inductive Token where
  /-- The opening bracket. -/
  | opening
  /-- The closing bracket. -/
  | closing
  /-- A comma. -/
  | comma
  /-- A string, by the text that it stands for. -/
  | text (content : List Char)
  deriving DecidableEq, Repr

/-- How far the reading of a string has come. -/
inductive StringState where
  /-- A character or an escape is expected. -/
  | plain
  /-- A backslash was read. -/
  | escape
  /-- Of an escape with four digits, `missing` digits are missing; the others make up `value`.
  Before it came the first half `high` of a pair, if it is not zero. -/
  | digits (missing value high : Nat)
  /-- The first half `high` of a pair was read, and the backslash of the second is expected. -/
  | half (high : Nat)
  /-- The first half `high` of a pair and a backslash were read. -/
  | halfEscape (high : Nat)
  deriving DecidableEq, Repr

/-- Where the reading of an array stands. -/
inductive LexState where
  /-- Between tokens. -/
  | between
  /-- In a string of which `content` was read, last character first. -/
  | inString (state : StringState) (content : List Char)
  deriving DecidableEq, Repr

/-- The value of a digit in base sixteen. -/
def hexValue? (c : Char) : Option Nat :=
  if '0' ≤ c ∧ c ≤ '9' then some (c.toNat - '0'.toNat)
  else if 'a' ≤ c ∧ c ≤ 'f' then some (c.toNat - 'a'.toNat + 10)
  else if 'A' ≤ c ∧ c ≤ 'F' then some (c.toNat - 'A'.toNat + 10)
  else none

/-- The character that a letter after a backslash stands for. -/
def unescape? (c : Char) : Option Char :=
  if c = '"' then some '"'
  else if c = '\\' then some '\\'
  else if c = '/' then some '/'
  else if c = 'b' then some '\x08'
  else if c = 'f' then some '\x0c'
  else if c = 'n' then some '\x0a'
  else if c = 'r' then some '\x0d'
  else if c = 't' then some '\x09'
  else none

/-- The state after the last digit of an escape. The halves of a pair make one character, and
neither half stands alone. -/
def finishDigits (value high : Nat) (content : List Char) : Option LexState :=
  let isHigh := 0xD800 ≤ value && value < 0xDC00
  let isLow := 0xDC00 ≤ value && value < 0xE000
  if high = 0 then
    if isHigh then some (.inString (.half value) content)
    else if isLow then none
    else some (.inString .plain (Char.ofNat value :: content))
  else if isLow then
    let code := 0x10000 + (high - 0xD800) * 0x400 + (value - 0xDC00)
    some (.inString .plain (Char.ofNat code :: content))
  else none

/-- The state after one more character inside a string; the closing quote apart. -/
def stringStep (content : List Char) : StringState → Char → Option LexState
  | .plain, c =>
    if c = '\\' then some (.inString .escape content)
    else if c.toNat < 0x20 then none
    else some (.inString .plain (c :: content))
  | .escape, c =>
    if c = 'u' then some (.inString (.digits 4 0 0) content)
    else (unescape? c).map fun found => .inString .plain (found :: content)
  | .digits missing value high, c =>
    match hexValue? c with
    | none => none
    | some digit =>
      if missing ≤ 1 then finishDigits (value * 16 + digit) high content
      else some (.inString (.digits (missing - 1) (value * 16 + digit) high) content)
  | .half high, c => if c = '\\' then some (.inString (.halfEscape high) content) else none
  | .halfEscape high, c => if c = 'u' then some (.inString (.digits 4 0 high) content) else none

/-- The tokens of a text, from a state on. -/
def tokensFrom : LexState → List Char → Option (List Token)
  | .between, [] => some []
  | .inString .., [] => none
  | .between, c :: rest =>
    if c = ' ' ∨ c = '\n' ∨ c = '\t' ∨ c = '\r' then tokensFrom .between rest
    else if c = '[' then (tokensFrom .between rest).map (.opening :: ·)
    else if c = ']' then (tokensFrom .between rest).map (.closing :: ·)
    else if c = ',' then (tokensFrom .between rest).map (.comma :: ·)
    else if c = '"' then tokensFrom (.inString .plain []) rest
    else none
  | .inString state content, c :: rest =>
    if state = .plain ∧ c = '"' then
      (tokensFrom .between rest).map (.text content.reverse :: ·)
    else
      match stringStep content state c with
      | some next => tokensFrom next rest
      | none => none

/-! ## Reading -/

/-- The elements after an opening bracket or a comma, up to the closing bracket. -/
def elements : List Token → Option (List String)
  | [.text content, .closing] => some [String.ofList content]
  | .text content :: .comma :: rest => (elements rest).map (String.ofList content :: ·)
  | _ => none

/-- The texts of an array. -/
def arrayOf : List Token → Option (List String)
  | [.opening, .closing] => some []
  | .opening :: rest => elements rest
  | _ => none

/-- The texts that a JSON array of strings holds; `none` if the text is no such array. -/
def decode (text : String) : Option (List String) :=
  (tokensFrom .between text.toList).bind arrayOf

/-! ## Reading what was written -/

/-- The digit that is written for a value is read as that value. -/
theorem hexValue?_hexDigit : ∀ n < 16, hexValue? (hexDigit n) = some n := by decide

/-- A written character reads as itself. -/
theorem tokensFrom_escapeChar (c : Char) (content rest : List Char) :
    tokensFrom (.inString .plain content) (escapeChar c ++ rest) =
      tokensFrom (.inString .plain (c :: content)) rest := by
  rw [escapeChar]
  split
  · subst c; rfl
  split
  · subst c; rfl
  split
  · subst c; rfl
  split
  · subst c; rfl
  split
  · subst c; rfl
  split
  · subst c; rfl
  split
  · subst c; rfl
  split
  · next hc =>
    have hhigh : hexValue? (hexDigit (c.toNat / 16)) = some (c.toNat / 16) :=
      hexValue?_hexDigit _ (by omega)
    have hlow : hexValue? (hexDigit (c.toNat % 16)) = some (c.toNat % 16) :=
      hexValue?_hexDigit _ (by omega)
    have hzero : hexValue? '0' = some 0 := by decide
    have hvalue : c.toNat / 16 * 16 + c.toNat % 16 = c.toNat := by omega
    have hplain : finishDigits c.toNat 0 content = some (.inString .plain (c :: content)) := by
      have h₁ : ¬0xD800 ≤ c.toNat := by omega
      have h₂ : ¬0xDC00 ≤ c.toNat := by omega
      simp [finishDigits, h₁, h₂]
    simp [tokensFrom, stringStep, hzero, hhigh, hlow, hvalue, hplain]
  · next hquote hslash _ _ _ _ _ hc =>
    simp [tokensFrom, stringStep, hquote, hslash, hc]

/-- A written text reads as itself, up to its closing quote. -/
theorem tokensFrom_flatMap_escapeChar (cs content rest : List Char) :
    tokensFrom (.inString .plain content) (cs.flatMap escapeChar ++ '"' :: rest) =
      (tokensFrom .between rest).map (.text (content.reverse ++ cs) :: ·) := by
  induction cs generalizing content with
  | nil => simp [tokensFrom]
  | cons c cs ih =>
    rw [List.flatMap_cons, List.append_assoc, tokensFrom_escapeChar, ih]
    simp

/-- A written string is one token. -/
theorem tokensFrom_encodeString (text : String) (rest : List Char) :
    tokensFrom .between (encodeString text ++ rest) =
      (tokensFrom .between rest).map (.text text.toList :: ·) := by
  have h := tokensFrom_flatMap_escapeChar text.toList [] rest
  simp only [List.reverse_nil, List.nil_append] at h
  rw [← h]
  simp [encodeString, tokensFrom]

/-- Spaces and line feeds between tokens do not count. -/
theorem tokensFrom_indent (cs : List Char) :
    tokensFrom .between ('\n' :: ' ' :: ' ' :: cs) = tokensFrom .between cs := by
  simp [tokensFrom]

/-- Written elements read as what they were written from. -/
theorem elements_encodeElements (text : String) (rest : List String) :
    ∃ tokens, tokensFrom .between (encodeElements (text :: rest) ++ [']']) = some tokens ∧
      elements tokens = some (text :: rest) := by
  induction rest generalizing text with
  | nil =>
    refine ⟨[.text text.toList, .closing], ?_, by simp [elements]⟩
    have h : encodeElements [text] ++ [']'] =
        '\n' :: ' ' :: ' ' :: (encodeString text ++ ['\n', ']']) := by
      simp [encodeElements]
    rw [h, tokensFrom_indent, tokensFrom_encodeString]
    rfl
  | cons next rest ih =>
    obtain ⟨tokens, htokens, helements⟩ := ih next
    refine ⟨.text text.toList :: .comma :: tokens, ?_, by simp [elements, helements]⟩
    have h : encodeElements (text :: next :: rest) ++ [']'] =
        '\n' :: ' ' :: ' ' ::
          (encodeString text ++ ',' :: (encodeElements (next :: rest) ++ [']'])) := by
      simp [encodeElements]
    rw [h, tokensFrom_indent, tokensFrom_encodeString, tokensFrom]
    simp [htokens]

/-- What was written reads as what it was written from. -/
theorem decode_encode (texts : List String) : decode (encode texts) = some texts := by
  match texts with
  | [] => rfl
  | text :: rest =>
    obtain ⟨tokens, htokens, helements⟩ := elements_encodeElements text rest
    have h : tokensFrom .between ('[' :: (encodeElements (text :: rest) ++ [']'])) =
        some (.opening :: tokens) := by
      simp [tokensFrom, htokens]
    rw [decode, encode, String.toList_ofList, List.cons_append, h, Option.bind_some]
    match tokens with
    | [] => simp [elements] at helements
    | [.closing] => simp [elements] at helements
    | .text _ :: _ | .opening :: _ | .comma :: _ | .closing :: _ :: _ =>
      simpa [arrayOf] using helements

end Scaffold.Json
