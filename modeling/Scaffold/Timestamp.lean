/-!
# Times

The time of a migration, as it stands at the start of the migration's file name.
-/

namespace Scaffold

/-- A time of day on a date. -/
structure Timestamp where
  /-- The year; it may be negative. -/
  year : Int
  /-- The month, from 1. -/
  month : Nat
  /-- The day of the month, from 1. -/
  day : Nat
  /-- The hour. -/
  hour : Nat
  /-- The minute. -/
  minute : Nat
  /-- The second. -/
  second : Nat
  deriving DecidableEq, Repr, Inhabited

namespace Timestamp

/-- A number with at least `width` digits. -/
def padded (width n : Nat) : String :=
  let digits := Nat.toDigits 10 n
  String.ofList (List.replicate (width - digits.length) '0' ++ digits)

/-- A year with at least four digits; a sign tells years before the year 0 and after 9999. -/
def yearText (year : Int) : String :=
  if year < 0 then "-" ++ padded 4 year.natAbs
  else if year ≤ 9999 then padded 4 year.natAbs
  else "+" ++ padded 4 year.natAbs

/-- The time at the start of a file name: `2024_01_02_030405`. -/
def stamp (t : Timestamp) : String :=
  yearText t.year ++ "_" ++ padded 2 t.month ++ "_" ++ padded 2 t.day ++ "_" ++
    padded 2 t.hour ++ padded 2 t.minute ++ padded 2 t.second

end Timestamp

end Scaffold
