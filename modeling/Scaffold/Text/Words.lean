import Scaffold.Text.Case
import Scaffold.Text.Cluster

/-!
# Words of a name

A name such as `HTTPServer2_log` is cut into its words and written again in another convention. The
cuts lie between grapheme clusters. An underscore, a hyphen or a space separates two words and
belongs to neither; without a separator a word ends where the class of the clusters changes: between
a small letter and a capital, between a letter and a digit in either order, and before the last
capital of an acronym when a small letter follows it.

Words may be empty, between two separators or at an end of the text.
-/

namespace Scaffold.Text

/-! ## Classes of clusters -/

/-- The cluster is in upper case: it has a case, and upper-casing leaves it as it is. -/
def isUpperCluster (cluster : List Char) : Bool :=
  upper cluster != lower cluster && cluster == upper cluster

/-- The cluster is in lower case: it has a case, and lower-casing leaves it as it is. -/
def isLowerCluster (cluster : List Char) : Bool :=
  upper cluster != lower cluster && cluster == lower cluster

/-- The cluster is one of the ten ASCII digits. -/
def isDigitCluster (cluster : List Char) : Bool :=
  match cluster with
  | [c] => c.isDigit
  | _ => false

/-- The cluster separates words: an underscore, a hyphen or a space. -/
def isSeparator (cluster : List Char) : Bool :=
  cluster == ['_'] || cluster == ['-'] || cluster == [' ']

/-- A word ends between the clusters `a` and `b`, where `next` follows `b`. -/
def isBoundary (a b : List Char) (next : Option (List Char)) : Bool :=
  (isLowerCluster a && isUpperCluster b) ||
  (isLowerCluster a && isDigitCluster b) ||
  (isUpperCluster a && isDigitCluster b) ||
  (isDigitCluster a && isLowerCluster b) ||
  (isDigitCluster a && isUpperCluster b) ||
  (isUpperCluster a && isUpperCluster b && (next.map isLowerCluster).getD false)

/-! ## Cutting -/

/-- The words of the clusters, of which the first word has begun with `word`, last character
first. -/
def wordsFrom (word : List Char) : List (List Char) → List (List Char)
  | [] => [word.reverse]
  | a :: rest =>
    if isSeparator a then word.reverse :: wordsFrom [] rest
    else
      let word := a.reverse ++ word
      match rest with
      | b :: after =>
        if isBoundary a b after.head? then word.reverse :: wordsFrom [] rest
        else wordsFrom word rest
      | [] => wordsFrom word rest

/-- The words of a text; the empty text has none. -/
def words (cs : List Char) : List (List Char) :=
  match clusters cs with
  | [] => []
  | first :: rest => wordsFrom [] (first :: rest)

/-! ## Writing -/

/-- The word with its first character in upper case and the rest in lower case. -/
def capitalWord : List Char → List Char
  | [] => []
  | c :: rest => upperChar c ++ lower rest

/-- The text as one word in which each word starts with a capital: `TestItem`. -/
def pascal (cs : List Char) : List Char :=
  (words cs).flatMap capitalWord

/-- The text as one word in which each word but the first starts with a capital: `testItem`. -/
def camel (cs : List Char) : List Char :=
  match words cs with
  | [] => []
  | first :: rest => lower first ++ rest.flatMap capitalWord

/-- The text in small letters with its words joined by underscores: `test_item`. -/
def snake (cs : List Char) : List Char :=
  ['_'].intercalate ((words cs).map lower)

end Scaffold.Text
