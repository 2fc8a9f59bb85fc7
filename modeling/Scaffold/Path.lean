import Scaffold.Text.Blank

/-!
# Paths

A path is a text in which slashes separate components. It is shown as it was written, and two paths
are the same if their components are: `a//b`, `a/./b` and `a/b/` are spellings of `a/b`. A dot
counts at the start of a relative path only, and `..` is a component like any other, since what it
leads to is for a file system to say.

Main statements: sameness is reflexive and symmetric (`same_refl`, `same_comm`), and joining a
relative path appends its text after a slash (`text_join`).
-/

namespace Scaffold

/-- The path of a file or directory, as it was written. -/
structure Path where
  /-- The text of the path. -/
  text : String
  deriving DecidableEq, Repr, Inhabited

namespace Path

/-- A component of a path. -/
inductive Component where
  /-- The root directory, at the start of an absolute path. -/
  | root
  /-- The dot at the start of a relative path. -/
  | here
  /-- The parent directory. -/
  | up
  /-- A file or directory by its name. -/
  | name (name : String)
  deriving DecidableEq, Repr, Inhabited

/-! ## Components -/

/-- The texts between the slashes. -/
def segments (p : Path) : List (List Char) :=
  p.text.toList.splitOn '/'

/-- The segment stands for nothing after the first slash: it is empty or a dot. -/
def isRedundant (segment : List Char) : Bool :=
  segment.isEmpty || segment == ['.']

/-- The component that a segment stands for. -/
def Component.ofSegment (segment : List Char) : Component :=
  if segment == ['.', '.'] then .up else .name (String.ofList segment)

/-- The components that the segments after the first slash stand for. -/
def componentsOf (segments : List (List Char)) : List Component :=
  (segments.filter fun segment => !isRedundant segment).map .ofSegment

/-- The components of a path. -/
def components (p : Path) : List Component :=
  match p.segments with
  | [] => []
  | first :: rest =>
    if first.isEmpty then
      if rest.isEmpty then [] else .root :: componentsOf rest
    else if first == ['.'] then .here :: componentsOf rest
    else .ofSegment first :: componentsOf rest

/-- The path starts at the root directory. -/
def isAbsolute (p : Path) : Bool :=
  p.text.toList.head? == some '/'

/-- The two paths have the same components. -/
def same (p q : Path) : Bool :=
  p.components == q.components

/-! ## Order -/

/-- The place of a component among those of other sorts. -/
def Component.rank : Component → Nat
  | .root => 0
  | .here => 1
  | .up => 2
  | .name _ => 3

/-- `a` comes before `b` or is the same: first by sort, then by name. -/
def Component.notAfter : Component → Component → Bool
  | .name a, .name b => !decide (b < a)
  | a, b => a.rank ≤ b.rank

/-- `a` comes before `b` or is the same, component by component. -/
def notAfterComponents : List Component → List Component → Bool
  | [], _ => true
  | _ :: _, [] => false
  | a :: as, b :: bs => if a = b then notAfterComponents as bs else a.notAfter b

/-- `p` comes before `q` or is the same. -/
def notAfter (p q : Path) : Bool :=
  notAfterComponents p.components q.components

/-! ## Parts -/

/-- The name of the file or directory itself; `none` if the path ends in no name. -/
def fileName? (p : Path) : Option String :=
  match p.components.getLast? with
  | some (.name name) => some name
  | _ => none

/-- The path without its last component; `none` if it has none, or only the root. It is spelled as
in the whole path. -/
def parent? (p : Path) : Option Path :=
  match p.segments with
  | [] => none
  | first :: rest =>
    match Text.dropEndWhile isRedundant rest with
    | [] => if first.isEmpty then none else some ⟨""⟩
    | kept =>
      let above := Text.dropEndWhile isRedundant kept.dropLast
      if first.isEmpty && above.isEmpty then some ⟨"/"⟩
      else some ⟨String.ofList (['/'].intercalate (first :: above))⟩

/-- The directory that has to exist before the path can be written; `none` if that is the current
one. -/
def directory? (p : Path) : Option Path :=
  p.parent?.filter fun parent => !parent.text.isEmpty

/-! ## Joining -/

/-- `q` as seen from `p`: an absolute path stays as it is, any other is appended after a slash. -/
def join (p q : Path) : Path :=
  if q.isAbsolute || p.text.isEmpty then q
  else if p.text.toList.getLast? == some '/' then ⟨p.text ++ q.text⟩
  else ⟨p.text ++ "/" ++ q.text⟩

/-- The file or directory `name` as seen from `p`. -/
def child (p : Path) (name : String) : Path :=
  p.join ⟨name⟩

/-! ## Laws -/

/-- A path is the same as itself. -/
@[simp] theorem same_refl (p : Path) : p.same p = true := by simp [same]

/-- Two paths are the same if they have the same components. -/
theorem same_iff {p q : Path} : p.same q = true ↔ p.components = q.components := by simp [same]

/-- Sameness of paths goes both ways. -/
theorem same_comm (p q : Path) : p.same q = q.same p := by
  rw [Bool.eq_iff_iff, same_iff, same_iff]
  exact eq_comm

/-- A relative path is joined to a directory with a slash between the two texts. -/
theorem text_join {p q : Path} (hq : q.isAbsolute = false) (hp : p.text.isEmpty = false)
    (hs : (p.text.toList.getLast? == some '/') = false) :
    (p.join q).text = p.text ++ "/" ++ q.text := by
  simp [join, hq, hp, hs]

end Path

end Scaffold
