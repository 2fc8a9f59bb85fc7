import Scaffold.FileSystem.Basic

/-!
# A model of a directory tree

Directories and files under one root, which is also the current directory. A path is followed
segment by segment: an empty segment and a dot stay where they are, two dots go up, a name goes
down; each of them needs a directory to start from. Files need their directory to be there, and a
name has at most 255 bytes.

The model knows neither rights nor links, and nothing else changes the tree.
-/

namespace Scaffold

/-- The content of a file. -/
inductive FileContent where
  /-- A text. -/
  | text (content : String)
  /-- Bytes that are no text. -/
  | bytes (content : List UInt8)
  deriving DecidableEq, Repr, Inhabited

namespace FileContent

/-- The content with a text at its end. -/
def append : FileContent → String → FileContent
  | .text content, more => .text (content ++ more)
  | .bytes content, more => .bytes (content ++ more.toUTF8.toList)

end FileContent

/-- What is at a place of a tree. -/
inductive Node where
  /-- A directory. -/
  | directory
  /-- A file. -/
  | file (content : FileContent)
  deriving DecidableEq, Repr, Inhabited

/-- A directory tree: what is where, by the names that lead there from the root. -/
structure Tree where
  /-- The places under the root. -/
  nodes : List (List String × Node) := []
  deriving DecidableEq, Repr, Inhabited

namespace Tree

/-! ## Places -/

/-- What is at a place; the root is always a directory. -/
def node? (tree : Tree) (place : List String) : Option Node :=
  if place.isEmpty then some .directory else tree.nodes.lookup place

/-- `node` put in the place of what was there, or at the end. -/
def insert (place : List String) (node : Node) :
    List (List String × Node) → List (List String × Node)
  | [] => [(place, node)]
  | (key, old) :: rest =>
    if key = place then (key, node) :: rest else (key, old) :: insert place node rest

/-- The tree with `node` at a place. -/
def set (tree : Tree) (place : List String) (node : Node) : Tree :=
  { tree with nodes := insert place node tree.nodes }

/-- The names directly under a place. -/
def children (tree : Tree) (place : List String) : List String :=
  tree.nodes.filterMap fun entry =>
    if entry.1.dropLast = place then entry.1.getLast? else none

/-- The files of a tree, with the names that lead to them. -/
def files (tree : Tree) : List (List String × FileContent) :=
  tree.nodes.filterMap fun entry =>
    match entry.2 with
    | .file content => some (entry.1, content)
    | .directory => none

/-! ## Following paths -/

/-- The greatest number of bytes in a name. -/
def maxNameBytes : Nat := 255

/-- The number of bytes at which a path is too long. -/
def maxPathBytes : Nat := 4096

/-- What a segment of a path says. -/
inductive Move where
  /-- Stay. -/
  | stay
  /-- Go up. -/
  | up
  /-- Go to the name. -/
  | down (name : String)
  deriving DecidableEq, Repr, Inhabited

/-- What a segment of a path says. -/
def Move.ofSegment (segment : List Char) : Move :=
  if segment.isEmpty || segment == ['.'] then .stay
  else if segment == ['.', '.'] then .up
  else .down (String.ofList segment)

/-- The place to which one segment leads. -/
def step (tree : Tree) (place : List String) (segment : List Char) : Except Fault (List String) :=
  match tree.node? place with
  | some .directory =>
    match Move.ofSegment segment with
    | .stay => .ok place
    | .up => .ok place.dropLast
    | .down name =>
      if maxNameBytes < name.utf8ByteSize then .error .nameTooLong
      else if (tree.node? (place ++ [name])).isSome then .ok (place ++ [name])
      else .error .notFound
  | some (.file _) => .error .notDirectory
  | none => .error .notFound

/-- The place to which the segments lead. -/
def walk (tree : Tree) (place : List String) : List (List Char) → Except Fault (List String)
  | [] => .ok place
  | segment :: rest =>
    match tree.step place segment with
    | .ok next => tree.walk next rest
    | .error fault => .error fault

/-- What is wrong with the text of a path before it is followed. -/
def refused? (path : Path) : Option Fault :=
  if path.text.toList.contains '\x00' then some .nulInName
  else if path.text.isEmpty then some .notFound
  else if maxPathBytes ≤ path.text.utf8ByteSize then some .nameTooLong
  else none

/-- The place of what is at a path. -/
def find (tree : Tree) (path : Path) : Except Fault (List String) :=
  match refused? path with
  | some fault => .error fault
  | none => tree.walk [] path.segments

/-- What is at a path. -/
def nodeAt? (tree : Tree) (path : Path) : Option Node :=
  match tree.find path with
  | .ok place => tree.node? place
  | .error _ => none

/-- Where something new would be put. -/
inductive Target where
  /-- At a place that the path reaches by staying or going up, so that a directory is there. -/
  | existing
  /-- At the place `directory ++ [name]`; the path has a slash after the name if `slash`. -/
  | named (directory : List String) (name : String) (slash : Bool)
  deriving DecidableEq, Repr, Inhabited

/-- Where a path puts something new. The directory above it has to be there. -/
def target (tree : Tree) (path : Path) : Except Fault Target :=
  match refused? path with
  | some fault => .error fault
  | none =>
    let backwards := path.segments.reverse
    let slash := (backwards.head?.map List.isEmpty).getD false
    match backwards.dropWhile List.isEmpty with
    | [] => .ok .existing
    | last :: above =>
      match tree.walk [] above.reverse with
      | .error fault => .error fault
      | .ok directory =>
        match tree.node? directory with
        | some .directory =>
          match Move.ofSegment last with
          | .down name => .ok (.named directory name slash)
          | _ => .ok .existing
        | _ => .error .notDirectory

/-! ## Operations -/

/-- The content of the file at a path. -/
def read (tree : Tree) (path : Path) : Except Fault String :=
  match tree.find path with
  | .error fault => .error fault
  | .ok place =>
    match tree.node? place with
    | some (.file (.text content)) => .ok content
    | some (.file (.bytes _)) => .error .notText
    | some .directory => .error .isDirectory
    | none => .error .notFound

/-- The tree after the file at a path was given the content that `change` makes of the old one. -/
def writeWith (change : Option FileContent → FileContent) (tree : Tree) (path : Path) :
    Except Fault Tree :=
  match tree.target path with
  | .error fault => .error fault
  | .ok .existing => .error .isDirectory
  | .ok (.named directory name slash) =>
    if slash then .error .isDirectory
    else if maxNameBytes < name.utf8ByteSize then .error .nameTooLong
    else
      match tree.node? (directory ++ [name]) with
      | some .directory => .error .isDirectory
      | some (.file content) => .ok (tree.set (directory ++ [name]) (.file (change (some content))))
      | none => .ok (tree.set (directory ++ [name]) (.file (change none)))

/-- The tree after a file was written. -/
def write (tree : Tree) (path : Path) (content : FileContent) : Except Fault Tree :=
  tree.writeWith (fun _ => content) path

/-- The tree after a text was written to the end of a file. -/
def append (tree : Tree) (path : Path) (more : String) : Except Fault Tree :=
  tree.writeWith (fun old => (old.getD (.text "")).append more) path

/-- The tree after one directory was made. -/
def makeDirectory (tree : Tree) (path : Path) : Except Fault Tree :=
  match tree.target path with
  | .error fault => .error fault
  | .ok .existing => .error .alreadyThere
  | .ok (.named directory name _) =>
    if maxNameBytes < name.utf8ByteSize then .error .nameTooLong
    else if (tree.node? (directory ++ [name])).isSome then .error .alreadyThere
    else .ok (tree.set (directory ++ [name]) .directory)

/-- A directory is at the path. -/
def isDirectory (tree : Tree) (path : Path) : Bool :=
  tree.nodeAt? path == some .directory

/-- The path and those above it that may have to be made, deepest first; at most `fuel` of them. -/
def ancestors : Nat → Path → List Path
  | 0, _ => []
  | fuel + 1, path =>
    match path.parent? with
    | none => []
    | some parent => path :: ancestors fuel parent

/-- The tree after the first of the paths was made, and those of the others that it needed. What
was made stays, even if the first path cannot be made. -/
def makeDirectories (tree : Tree) : List Path → Tree × Except Fault Unit
  | [] => (tree, .ok ())
  | path :: above =>
    match tree.makeDirectory path with
    | .ok made => (made, .ok ())
    | .error .notFound =>
      let (tree, result) := tree.makeDirectories above
      match result with
      | .error fault => (tree, .error fault)
      | .ok () =>
        match tree.makeDirectory path with
        | .ok made => (made, .ok ())
        | .error fault => (tree, if tree.isDirectory path then .ok () else .error fault)
    | .error fault => (tree, if tree.isDirectory path then .ok () else .error fault)

/-- The tree after a path was made, with the directories above it. -/
def makePath (tree : Tree) (path : Path) : Tree × Except Fault Unit :=
  tree.makeDirectories (ancestors path.components.length path)

/-! ## The file system -/

/-- An operation that changes the tree if it succeeds. -/
def changing (operation : Tree → Except Fault Tree) : ExceptT Fault (StateM Tree) Unit :=
  ExceptT.mk fun tree =>
    match operation tree with
    | .ok changed => (.ok (), changed)
    | .error fault => (.error fault, tree)

/-- The operations of a file system on a directory tree. -/
def fileSystem : FileSystem (StateM Tree) where
  isThere path := return ((← get).nodeAt? path).isSome
  isDirectory path := return (← get).isDirectory path
  readText path := ExceptT.mk do return (← get).read path
  writeText path content := changing fun tree => tree.write path (.text content)
  appendText path more := changing fun tree => tree.append path more
  makeDirectories path := ExceptT.mk fun tree =>
    let (made, result) := tree.makePath path
    (result, made)
  listDirectory path := ExceptT.mk do
    let tree ← get
    return (tree.find path).map tree.children

end Tree

end Scaffold
