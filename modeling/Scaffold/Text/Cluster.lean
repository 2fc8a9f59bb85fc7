import Scaffold.Text.ClusterTable
import Scaffold.Text.Range

/-!
# Grapheme clusters

A text cut into what a reader takes for single characters: a letter with its accents, a Hangul
syllable, a flag, an emoji joined from several. The rules are those of the extended grapheme
clusters. Each says that two neighbouring characters stay together, sometimes only after looking at
what came before them in the same cluster; where no rule speaks, the text is cut.

Main statement: nothing is lost or moved (`flatten_clusters`).
-/

namespace Scaffold.Text

/-- What the rules need to know about a character. -/
inductive ClusterClass where
  /-- A carriage return. -/
  | cr
  /-- A line feed. -/
  | lf
  /-- Any other control character: it always stands alone. -/
  | control
  /-- A mark that extends what precedes it. -/
  | extend
  /-- The zero-width joiner. -/
  | joiner
  /-- A mark with a width of its own that joins what precedes it. -/
  | spacingMark
  /-- A sign that joins what follows it. -/
  | prepend
  /-- One half of a flag. -/
  | regional
  /-- A leading Hangul consonant. -/
  | hangulL
  /-- A Hangul vowel. -/
  | hangulV
  /-- A trailing Hangul consonant. -/
  | hangulT
  /-- A Hangul syllable that ends in a vowel. -/
  | hangulLV
  /-- A Hangul syllable that ends in a consonant. -/
  | hangulLVT
  /-- Every other character. -/
  | other
  deriving DecidableEq

/-- The class of a character beyond ASCII. -/
def ClusterClass.ofWide (c : Char) : ClusterClass :=
  let n := c.toNat
  if 0xAC00 ≤ n && n ≤ 0xD7A3 then
    if (n - 0xAC00) % 28 == 0 then .hangulLV else .hangulLVT
  else if (0x1100 ≤ n && n ≤ 0x115F) || (0xA960 ≤ n && n ≤ 0xA97C) then .hangulL
  else if inRanges hangulVowelRanges c then .hangulV
  else if (0x11A8 ≤ n && n ≤ 0x11FF) || (0xD7CB ≤ n && n ≤ 0xD7FB) then .hangulT
  else if n == 0x200D then .joiner
  else if 0x1F1E6 ≤ n && n ≤ 0x1F1FF then .regional
  else if inRanges extendRanges c then .extend
  else if inRanges spacingMarkRanges c then .spacingMark
  else if inRanges prependRanges c then .prepend
  else if inRanges controlRanges c then .control
  else .other

/-- The class of a character. -/
def ClusterClass.of (c : Char) : ClusterClass :=
  let n := c.toNat
  if n == 0x0D then .cr
  else if n == 0x0A then .lf
  else if n < 0x20 || n == 0x7F then .control
  else if n < 0x7F then .other
  else .ofWide c

/-- `c` is a pictograph, which a joiner can link to another one. -/
def isPictograph (c : Char) : Bool :=
  0x80 ≤ c.toNat && inRanges pictographRanges c

/-- `c` is a consonant that forms conjuncts. -/
def isConjunctConsonant (c : Char) : Bool :=
  0x80 ≤ c.toNat && inRanges conjunctConsonantRanges c

/-- `c` links two consonants. -/
def isConjunctLinker (c : Char) : Bool :=
  0x80 ≤ c.toNat && inRanges conjunctLinkerRanges c

/-- How much of an emoji joined from pictographs a cluster ends with. -/
inductive EmojiTail where
  /-- Nothing of the kind. -/
  | none
  /-- A pictograph and marks on it. -/
  | pictograph
  /-- A pictograph, marks on it, and a joiner. -/
  | joined
  deriving DecidableEq

/-- How much of a conjunct a cluster ends with. -/
inductive ConjunctTail where
  /-- Nothing of the kind. -/
  | none
  /-- A consonant and marks on it. -/
  | consonant
  /-- A consonant and marks on it, a linker among them. -/
  | linked
  deriving DecidableEq

/-- What is remembered of a cluster while it is being read. -/
structure ClusterState where
  /-- The class of the last character. -/
  last : ClusterClass
  /-- The cluster ends with a pictograph that a joiner may continue. -/
  emoji : EmojiTail
  /-- The cluster ends with a consonant that a linker may continue. -/
  conjunct : ConjunctTail
  /-- The cluster ends with an odd number of flag halves. -/
  halfFlag : Bool

namespace ClusterState

/-- The state after a cluster's first character. -/
def start (c : Char) : ClusterState where
  last := .of c
  emoji := if isPictograph c then .pictograph else .none
  conjunct := if isConjunctConsonant c then .consonant else .none
  halfFlag := ClusterClass.of c == .regional

/-- The state after one more character of the same cluster. -/
def push (s : ClusterState) (c : Char) : ClusterState where
  last := .of c
  emoji :=
    if isPictograph c then .pictograph
    else if s.emoji == .pictograph && ClusterClass.of c == .extend then .pictograph
    else if s.emoji == .pictograph && ClusterClass.of c == .joiner then .joined
    else .none
  conjunct :=
    if isConjunctConsonant c then .consonant
    else if s.conjunct == .none then .none
    else if isConjunctLinker c then .linked
    else if (ClusterClass.of c == .extend && c.toNat != 0x200C) || ClusterClass.of c == .joiner then
      s.conjunct
    else .none
  halfFlag := ClusterClass.of c == .regional && !s.halfFlag

/-- `c` belongs to the cluster read so far. -/
def joins (s : ClusterState) (c : Char) : Bool :=
  match s.last, ClusterClass.of c with
  | .cr, .lf => true
  | .cr, _ | .lf, _ | .control, _ => false
  | _, .cr | _, .lf | _, .control => false
  | .hangulL, .hangulL | .hangulL, .hangulV | .hangulL, .hangulLV | .hangulL, .hangulLVT => true
  | .hangulLV, .hangulV | .hangulLV, .hangulT | .hangulV, .hangulV | .hangulV, .hangulT => true
  | .hangulLVT, .hangulT | .hangulT, .hangulT => true
  | _, .extend | _, .joiner | _, .spacingMark => true
  | .prepend, _ => true
  | .regional, .regional => s.halfFlag
  | _, _ =>
    (s.conjunct == .linked && isConjunctConsonant c) || (s.emoji == .joined && isPictograph c)

end ClusterState

/-- The clusters of `cs`, of which the first has begun with `cluster`, last character first. -/
def clustersFrom (s : ClusterState) (cluster : List Char) : List Char → List (List Char)
  | [] => [cluster.reverse]
  | c :: rest =>
    if s.joins c then clustersFrom (s.push c) (c :: cluster) rest
    else cluster.reverse :: clustersFrom (.start c) [c] rest

/-- The grapheme clusters of a text. -/
def clusters : List Char → List (List Char)
  | [] => []
  | c :: rest => clustersFrom (.start c) [c] rest

/-! ## Laws -/

/-- The clusters are the text in pieces. -/
theorem flatten_clustersFrom (s : ClusterState) (cluster cs : List Char) :
    (clustersFrom s cluster cs).flatten = cluster.reverse ++ cs := by
  induction cs generalizing s cluster with
  | nil => simp [clustersFrom]
  | cons c rest ih =>
    rw [clustersFrom]
    split <;> simp [ih]

/-- Cutting a text into clusters neither loses nor moves a character. -/
theorem flatten_clusters (cs : List Char) : (clusters cs).flatten = cs := by
  cases cs with
  | nil => rfl
  | cons c rest => simp [clusters, flatten_clustersFrom]

end Scaffold.Text
