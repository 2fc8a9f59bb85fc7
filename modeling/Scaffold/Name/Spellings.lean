import Scaffold.Name.Inflection
import Scaffold.Text.Blank
import Scaffold.Text.Words

/-!
# The spellings of an entity's name

Every generated file refers to an entity by some spelling of its name: the class (`TestItem`), the
table (`test_items`), the variable (`testItem`). All of them are derived from one canonical form,
singular and in capitals, so that all files agree. In each spelling only the last word of a
compound name is inflected.
-/

namespace Scaffold.Name

open Text

/-- The canonical form of a name: its words capitalized and joined, the last one in the singular. -/
def canonical (raw : String) : String :=
  String.ofList (singularize (pascal (strip raw.toList)))

/-- The spellings of one name. -/
structure Spellings where
  /-- The canonical form: `TestItem`. -/
  studly : String
  /-- The canonical form in the plural: `TestItems`. -/
  studlyPlural : String
  /-- Small letters with underscores: `test_item`. -/
  snake : String
  /-- Small letters with underscores, in the plural: `test_items`. -/
  snakePlural : String
  /-- Capitals except for the first word: `testItem`. -/
  camel : String
  /-- Capitals except for the first word, in the plural: `testItems`. -/
  camelPlural : String
  deriving DecidableEq, Repr, Inhabited

/-- The spellings of the name whose canonical form is `studly`. -/
def Spellings.ofCanonical (studly : String) : Spellings :=
  let plural := pluralize studly.toList
  { studly
    studlyPlural := String.ofList plural
    snake := String.ofList (Text.snake studly.toList)
    snakePlural := String.ofList (Text.snake plural)
    camel := String.ofList (Text.camel studly.toList)
    camelPlural := String.ofList (Text.camel plural) }

/-- The spellings of a name given in any spelling. -/
def Spellings.of (raw : String) : Spellings :=
  .ofCanonical (canonical raw)

/-- The spelling in capitals of a name is its canonical form. -/
@[simp] theorem Spellings.studly_of (raw : String) : (Spellings.of raw).studly = canonical raw :=
  rfl

end Scaffold.Name
