import Scaffold.Toml.Value

/-!
# Unquoted values

Numbers, truth values, dates and times: what stands in a TOML document without quotes or brackets.
Underscores may separate digits, and a number written in the common way has no needless zero in
front. Dates have to be days of the calendar, times to be times of the day.
-/

namespace Scaffold.Toml

/-! ## Digits -/

/-- A digit of a number in base sixteen. -/
def isHexDigit (c : Char) : Bool :=
  c.isDigit || ('a' ≤ c && c ≤ 'f') || ('A' ≤ c && c ≤ 'F')

/-- The value of a digit in any base up to sixteen. -/
def digitValue (c : Char) : Nat :=
  if c.isDigit then c.toNat - '0'.toNat
  else if 'a' ≤ c ∧ c ≤ 'f' then c.toNat - 'a'.toNat + 10
  else c.toNat - 'A'.toNat + 10

/-- The number that digits stand for in a base. -/
def number (base : Nat) (digits : List Char) : Nat :=
  digits.foldl (fun n c => n * base + digitValue c) 0

/-- The digits of a text in which single underscores may stand between digits. -/
def digitsOf (isDigit : Char → Bool) (cs : List Char) : Option (List Char) :=
  let groups := cs.splitOn '_'
  if groups.all fun group => !group.isEmpty && group.all isDigit then some groups.flatten else none

/-- A number in a base other than ten. -/
def basedNumber (base : Nat) (isDigit : Char → Bool) (cs : List Char) : Option Value :=
  (digitsOf isDigit cs).map fun digits => .integer (number base digits)

/-- The digits of a number in base ten without a needless zero in front. -/
def decimalDigits (cs : List Char) : Option (List Char) :=
  match digitsOf Char.isDigit cs with
  | some ('0' :: _ :: _) => none
  | digits => digits

/-- A sign and what follows it; without a sign the number is positive. -/
def splitSign : List Char → Bool × List Char
  | '+' :: rest => (false, rest)
  | '-' :: rest => (true, rest)
  | cs => (false, cs)

/-! ## Numbers -/

/-- A whole number in base ten. -/
def decimalInteger (cs : List Char) : Option Value :=
  let (negative, rest) := splitSign cs
  (decimalDigits rest).map fun digits =>
    .integer (if negative then -(number 10 digits : Int) else number 10 digits)

/-- The exponent of a number. -/
def exponentOf (cs : List Char) : Option Int :=
  let (negative, rest) := splitSign cs
  (digitsOf Char.isDigit rest).map fun digits =>
    if negative then -(number 10 digits : Int) else number 10 digits

/-- The number with the given whole part, fraction and exponent. -/
def floatOf (whole fraction : List Char) (exponent : Int) : Value :=
  .float (number 10 (whole ++ fraction)) (exponent - fraction.length)

/-- A character that starts an exponent. -/
def isExponentMark (c : Char) : Bool :=
  c == 'e' || c == 'E'

/-- A number with a fraction, an exponent or both. -/
def float (cs : List Char) : Option Value :=
  let rest := (splitSign cs).2
  let mantissa := rest.takeWhile fun c => !isExponentMark c
  let power := rest.dropWhile fun c => !isExponentMark c
  let exponent := match power with
    | [] => some 0
    | _ :: digits => exponentOf digits
  match mantissa.splitOn '.', exponent with
  | [whole], some exponent =>
    if power.isEmpty then none
    else (decimalDigits whole).map fun whole => floatOf whole [] exponent
  | [whole, fraction], some exponent => do
    let whole ← decimalDigits whole
    let fraction ← digitsOf Char.isDigit fraction
    return floatOf whole fraction exponent
  | _, _ => none

/-- An infinity, or a number that is none. -/
def specialFloat (cs : List Char) : Option Value :=
  let rest := (splitSign cs).2
  if rest = "inf".toList ∨ rest = "nan".toList then some .specialFloat else none

/-! ## Dates and times -/

/-- The number that exactly `count` digits stand for. -/
def fixedNumber (count : Nat) (cs : List Char) : Option Nat :=
  if cs.length = count ∧ cs.all Char.isDigit then some (number 10 cs) else none

/-- The number of days of a month. -/
def daysIn (year month : Nat) : Nat :=
  let leap := year % 4 == 0 && (year % 100 != 0 || year % 400 == 0)
  if month == 2 then if leap then 29 else 28
  else if month == 4 || month == 6 || month == 9 || month == 11 then 30
  else 31

/-- The text is a day of the calendar: `1979-05-27`. -/
def isDate (cs : List Char) : Bool :=
  match cs.splitOn '-' with
  | [year, month, day] =>
    match fixedNumber 4 year, fixedNumber 2 month, fixedNumber 2 day with
    | some year, some month, some day =>
      1 ≤ month && month ≤ 12 && 1 ≤ day && day ≤ daysIn year month
    | _, _, _ => false
  | _ => false

/-- The text is an hour and a minute: `07:32`. -/
def isHourMinute (hour minute : List Char) : Bool :=
  match fixedNumber 2 hour, fixedNumber 2 minute with
  | some hour, some minute => hour ≤ 23 && minute ≤ 59
  | _, _ => false

/-- The text is a second, with or without a fraction: `07.25`. A leap second counts. -/
def isSecond (cs : List Char) : Bool :=
  match cs.splitOn '.' with
  | [second] => (fixedNumber 2 second).any (· ≤ 60)
  | [second, fraction] =>
    (fixedNumber 2 second).any (· ≤ 60) && !fraction.isEmpty && fraction.all Char.isDigit
  | _ => false

/-- The text is a time of the day; the second may be missing. -/
def isTime (cs : List Char) : Bool :=
  match cs.splitOn ':' with
  | [hour, minute] => isHourMinute hour minute
  | [hour, minute, second] => isHourMinute hour minute && isSecond second
  | _ => false

/-- The text is a distance of less than a day from universal time: `+02:00`, without its sign. -/
def isOffset (cs : List Char) : Bool :=
  match cs.splitOn ':' with
  | [hour, minute] => isHourMinute hour minute
  | _ => false

/-- A character that starts a distance from universal time. -/
def isOffsetMark (c : Char) : Bool :=
  c == 'Z' || c == 'z' || c == '+' || c == '-'

/-- The text is a time of the day, perhaps with its distance from universal time. -/
def isZonedTime (cs : List Char) : Bool :=
  isTime (cs.takeWhile fun c => !isOffsetMark c) &&
    match cs.dropWhile fun c => !isOffsetMark c with
    | [] => true
    | mark :: offset => if mark == 'Z' || mark == 'z' then offset.isEmpty else isOffset offset

/-- The text is a date, a time or both; both are separated by a space or the letter T. -/
def isDateTime (cs : List Char) : Bool :=
  isDate cs || isTime cs ||
    (isDate (cs.take 10) &&
      match cs.drop 10 with
      | separator :: time =>
        (separator == ' ' || separator == 'T' || separator == 't') && isZonedTime time
      | [] => false)

/-! ## All unquoted values -/

/-- A truth value. -/
def boolean (cs : List Char) : Option Value :=
  if cs = "true".toList then some (.boolean true)
  else if cs = "false".toList then some (.boolean false)
  else none

/-- The value that an unquoted text stands for. -/
def scalar (cs : List Char) : Option Value :=
  match cs with
  | '0' :: 'x' :: digits => basedNumber 16 isHexDigit digits
  | '0' :: 'o' :: digits => basedNumber 8 (fun c => '0' ≤ c && c ≤ '7') digits
  | '0' :: 'b' :: digits => basedNumber 2 (fun c => c == '0' || c == '1') digits
  | _ =>
    if isDateTime cs then some .dateTime
    else
      (boolean cs).orElse fun _ => (decimalInteger cs).orElse fun _ =>
        (float cs).orElse fun _ => specialFloat cs

end Scaffold.Toml
