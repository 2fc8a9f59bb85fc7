/-!
# Values of a TOML document

What a TOML document holds, and how its tables grow while it is read. A table may be opened by a
header, implied by the header of a table inside it, or made by a dotted key; each of these limits
what may be added to it later. Tables are complete once the document has been read, and then only
their members count.
-/

namespace Scaffold.Toml

/-! ## Complete values -/

/-- A value. Of a date or time only the fact counts that it is one. -/
inductive Value where
  /-- A text. -/
  | string (text : String)
  /-- A whole number. -/
  | integer (n : Int)
  /-- The number of this size, a power of ten times a whole number; its sign does not count. -/
  | float (digits : Nat) (exponent : Int)
  /-- An infinity or no number. -/
  | specialFloat
  /-- A truth value. -/
  | boolean (b : Bool)
  /-- A date, a time or both. -/
  | dateTime
  /-- A list of values. -/
  | array (elements : List Value)
  /-- A table, by its members. -/
  | table (members : List (String × Value))
  deriving Repr, Inhabited

/-! ## Sizes of numbers -/

/-- The least number that is too large for a floating-point number of 64 bits: it lies half-way
between the largest such number and the next power of two. -/
def floatBound : Nat := Nat.pow 2 1024 - Nat.pow 2 970

/-- The number `digits * 10 ^ exponent` is below the bound. Numbers with many fewer or many more
places are told apart by their places alone. -/
def isFiniteFloat (digits : Nat) (exponent : Int) : Bool :=
  let places := (Nat.toDigits 10 digits).length + exponent
  digits == 0 || places < 300 ||
    (places ≤ 310 && digits * Nat.pow 10 exponent.toNat < floatBound * Nat.pow 10 (-exponent).toNat)

/-- The number fits into 128 bits, with or without a sign. -/
def isReadableInteger (n : Int) : Bool :=
  if n < 0 then n.natAbs ≤ Nat.pow 2 127 else n.natAbs < Nat.pow 2 128

mutual

/-- All numbers in the value can be read, which is demanded even of values that nobody asks for. -/
def Value.isReadable : Value → Bool
  | .integer n => isReadableInteger n
  | .float digits exponent => isFiniteFloat digits exponent
  | .array elements => areReadable elements
  | .table members => areReadableMembers members
  | .string _ | .specialFloat | .boolean _ | .dateTime => true

/-- All numbers in the values can be read. -/
def areReadable : List Value → Bool
  | [] => true
  | value :: rest => value.isReadable && areReadable rest

/-- All numbers in the members can be read. -/
def areReadableMembers : List (String × Value) → Bool
  | [] => true
  | (_, value) :: rest => value.isReadable && areReadableMembers rest

end

/-! ## Growing tables -/

/-- How a table came to be. -/
inductive TableOrigin where
  /-- It was opened by a header of its own. -/
  | header
  /-- A header of a table inside it was met. -/
  | implied
  /-- A dotted key led to it. -/
  | dotted
  deriving DecidableEq, Repr, Inhabited

/-- What a key stands for while the document is read. -/
inductive Draft where
  /-- A value, to which nothing can be added. -/
  | value (value : Value)
  /-- A table. -/
  | table (origin : TableOrigin) (members : List (String × Draft))
  /-- A list of tables that were opened by headers, the last one first. -/
  | tables (elements : List (List (String × Draft)))
  deriving Repr, Inhabited

/-- The members of a table while the document is read. -/
abbrev Members := List (String × Draft)

mutual

/-- The value that a draft has become. -/
def Draft.toValue : Draft → Value
  | .value value => value
  | .table _ members => .table (membersToValues members)
  | .tables elements => .array (tablesToValues elements).reverse

/-- The members that a table has got. -/
def membersToValues : List (String × Draft) → List (String × Value)
  | [] => []
  | (key, draft) :: rest => (key, draft.toValue) :: membersToValues rest

/-- The tables of a list, in the same order. -/
def tablesToValues : List (List (String × Draft)) → List Value
  | [] => []
  | members :: rest => .table (membersToValues members) :: tablesToValues rest

end

namespace Members

/-- The members with `draft` for the key. -/
def set (key : String) (draft : Draft) : Members → Members
  | [] => [(key, draft)]
  | (other, old) :: rest =>
    if other = key then (key, draft) :: rest else (other, old) :: set key draft rest

/-- The members after `change` was made to the table to which the keys lead. Missing tables are
made on the way, of the origin `made`; a list of tables leads to its last one. A dotted key does not
lead into a table with a header of its own, and an implied table that it leads into counts as its
own from then on. Nothing leads into a value. -/
def alter (made : TableOrigin) (change : TableOrigin → Members → Option Members)
    (origin : TableOrigin) : List String → Members → Option Members
  | [], members => change origin members
  | key :: keys, members =>
    match members.lookup key with
    | none =>
      (alter made change made keys []).map fun inner => members.set key (.table made inner)
    | some (.table found inner) =>
      if made = .dotted ∧ found = .header then none
      else
        let origin := if made = .dotted then .dotted else found
        (alter made change origin keys inner).map fun inner => members.set key (.table origin inner)
    | some (.tables (last :: earlier)) =>
      (alter made change .header keys last).map fun last =>
        members.set key (.tables (last :: earlier))
    | some _ => none

/-- The members with a value under a dotted key, which has to be new. A dotted key does not add to
the last table of a list, since that has a header of its own. -/
def assign (keys : List String) (key : String) (value : Value) (members : Members) :
    Option Members :=
  members.alter .dotted (fun origin table =>
    if ¬keys.isEmpty ∧ origin ≠ .dotted then none
    else if (table.lookup key).isSome then none
    else some (table.set key (.value value))) .header keys

/-- The members after a header opened the table `key` in the table to which `keys` lead. -/
def openTable (keys : List String) (key : String) (members : Members) : Option Members :=
  members.alter .implied (fun _ table =>
    match table.lookup key with
    | none => some (table.set key (.table .header []))
    | some (.table .implied inner) => some (table.set key (.table .header inner))
    | some _ => none) .header keys

/-- The members after a header opened one more table in the list `key`. -/
def openElement (keys : List String) (key : String) (members : Members) : Option Members :=
  members.alter .implied (fun _ table =>
    match table.lookup key with
    | none => some (table.set key (.tables [[]]))
    | some (.tables elements) => some (table.set key (.tables ([] :: elements)))
    | some _ => none) .header keys

/-- The members with a value under a dotted key in the table that the last header opened. -/
def assignUnder (header keys : List String) (key : String) (value : Value) (members : Members) :
    Option Members :=
  members.alter .implied (fun _ table => assign keys key value table) .header header

end Members

end Scaffold.Toml
