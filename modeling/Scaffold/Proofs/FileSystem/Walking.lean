import Mathlib.Data.String.Basic
import Scaffold.FileSystem.Tree
import Scaffold.Proofs.Path.Descent

/-!
# Following paths that go down

Where a path leads is decided by the names along which it goes down, as long as no file is on the
way: either there is something at the end, or nothing is found (`walk_eq`). So the place of what is
at the path, and the place where it would put something new, are known from the names
(`Approaches.find_eq`, `Approaches.target_eq`).

The places below a directory are closed if whatever is there lies in directories (`IsClosed`).
-/

namespace Scaffold

open Scaffold.Path

/-- A name that a file can have: it is one component that stands for itself, and it is neither too
long nor cut short by the end of a text. -/
structure IsPlainName (name : String) : Prop extends IsFileName name where
  /-- It has no end of a text in it. -/
  noNul : '\x00' ∉ name.toList
  /-- It is not too long. -/
  short : name.utf8ByteSize ≤ Tree.maxNameBytes

instance (name : String) : Decidable (IsPlainName name) :=
  decidable_of_iff
    (('/' ∉ name.toList ∧ isRedundant name.toList = false ∧ name.toList ≠ ['.', '.']) ∧
      '\x00' ∉ name.toList ∧ name.utf8ByteSize ≤ Tree.maxNameBytes)
    ⟨fun ⟨⟨hslash, hkept, hup⟩, hnul, hshort⟩ => ⟨⟨hslash, hkept, hup⟩, hnul, hshort⟩,
      fun h => ⟨⟨h.noSlash, h.kept, h.notUp⟩, h.noNul, h.short⟩⟩

/-- The component is a name that a file can have. -/
def Path.Component.IsPlain : Component → Prop
  | .name text => IsPlainName text
  | .root | .here | .up => False

instance : DecidablePred Component.IsPlain
  | .name text => inferInstanceAs (Decidable (IsPlainName text))
  | .root | .here | .up => inferInstanceAs (Decidable False)

/-! ## Plain segments -/

/-- A segment of a path that is a name which a file can have. -/
structure IsPlainSegment (segment : List Char) : Prop where
  /-- It counts and goes down. -/
  kept : segment ∉ [[], ['.'], ['.', '.']]
  /-- It has no end of a text in it. -/
  noNul : '\x00' ∉ segment
  /-- It is not too long. -/
  short : String.utf8Len segment ≤ Tree.maxNameBytes

instance : DecidablePred IsPlainSegment := fun segment =>
  decidable_of_iff
    (segment ∉ [[], ['.'], ['.', '.']] ∧ '\x00' ∉ segment ∧
      String.utf8Len segment ≤ Tree.maxNameBytes)
    ⟨fun ⟨hkept, hnul, hshort⟩ => ⟨hkept, hnul, hshort⟩, fun h => ⟨h.kept, h.noNul, h.short⟩⟩

/-- A plain segment without slashes is a name that a file can have. -/
theorem IsPlainSegment.isPlainName {segment : List Char} (h : IsPlainSegment segment)
    (hslash : '/' ∉ segment) : IsPlainName (String.ofList segment) := by
  have hkept := h.kept
  simp only [List.mem_cons, List.not_mem_nil, or_false, not_or] at hkept
  refine ⟨⟨?_, ?_, ?_⟩, ?_, ?_⟩
  · rwa [String.toList_ofList]
  · rw [String.toList_ofList]
    simp [isRedundant, hkept]
  · rw [String.toList_ofList]
    exact hkept.2.2
  · rw [String.toList_ofList]
    exact h.noNul
  · rw [String.utf8ByteSize_ofList]
    exact h.short

/-- The components of a path of plain segments are these. -/
theorem components_of_segments {p : Path}
    (h : ∀ segment ∈ p.segments, IsPlainSegment segment) :
    p.components = p.segments.map fun segment => .name (String.ofList segment) := by
  have hkept : ∀ segment ∈ p.segments, segment ≠ [] ∧ segment ≠ ['.'] ∧ segment ≠ ['.', '.'] := by
    intro segment hsegment
    simpa using (h segment hsegment).kept
  unfold components
  obtain ⟨first, rest, hsegments⟩ := exists_segments_eq_cons p
  rw [hsegments, List.forall_mem_cons] at hkept
  rw [hsegments]
  have hrest : rest.filter (fun segment => !isRedundant segment) = rest := by
    rw [List.filter_eq_self]
    intro segment hsegment
    simp [isRedundant, hkept.2 segment hsegment]
  have hmap :
      rest.map Component.ofSegment = rest.map fun segment => .name (String.ofList segment) := by
    refine List.map_congr_left fun segment hsegment => ?_
    simp [Component.ofSegment, hkept.2 segment hsegment]
  simp [hkept.1, componentsOf, hrest, hmap, Component.ofSegment]

/-- The components of such a path are names that files can have. -/
theorem isPlain_of_segments {p : Path} (h : ∀ segment ∈ p.segments, IsPlainSegment segment) :
    ∀ component ∈ p.components, component.IsPlain := by
  rw [components_of_segments h]
  intro component hcomponent
  obtain ⟨segment, hsegment, rfl⟩ := List.mem_map.mp hcomponent
  exact (h segment hsegment).isPlainName (not_mem_of_mem_segments hsegment)

namespace Tree

variable {tree : Tree} {place : List String} {names above : List String} {name : String}

/-! ## Places -/

/-- After something was put at a place, that is found there, and elsewhere what was there before. -/
theorem lookup_insert (place other : List String) (node : Node)
    (nodes : List (List String × Node)) :
    (insert place node nodes).lookup other =
      if place = other then some node else nodes.lookup other := by
  induction nodes with
  | nil =>
    rw [insert, List.lookup_cons]
    by_cases h : place = other
    · simp [h]
    · have hne : (other == place) = false := by simpa using Ne.symm h
      simp [h, hne]
  | cons entry rest ih =>
    obtain ⟨key, old⟩ := entry
    rw [insert]
    by_cases hkey : key = place
    · subst hkey
      by_cases h : key = other
      · simp [h]
      · have hne : (other == key) = false := by simpa using Ne.symm h
        simp [h, List.lookup_cons, hne]
    · rw [if_neg hkey, List.lookup_cons, List.lookup_cons, ih]
      by_cases h : other = key
      · subst h
        simp [Ne.symm hkey]
      · have hne : (other == key) = false := by simpa using h
        rw [hne]

/-- Below the root the list says what is at a place. -/
theorem node?_of_ne_nil (h : place ≠ []) : tree.node? place = tree.nodes.lookup place := by
  unfold node?
  rw [if_neg (by simpa using h)]

/-- After a place was set, that is found there, and elsewhere what was there before. -/
theorem node?_set (h : place ≠ []) (node : Node) (other : List String) :
    (tree.set place node).node? other = if place = other then some node else tree.node? other := by
  by_cases hother : other = []
  · subst hother
    rw [if_neg h]
    rfl
  · rw [node?_of_ne_nil hother, node?_of_ne_nil hother]
    exact lookup_insert place other node tree.nodes

/-! ## Steps -/

/-- The name of a file leads down. -/
theorem ofSegment_toList (h : IsFileName name) : Move.ofSegment name.toList = .down name := by
  have hkept : (name.toList.isEmpty || name.toList == ['.']) = false := h.kept
  have hup : (name.toList == ['.', '.']) = false := by simpa using h.notUp
  unfold Move.ofSegment
  rw [hkept, hup, String.ofList_toList]
  rfl

/-- A segment that does not count stays in its directory. -/
theorem step_of_isRedundant (hplace : tree.node? place = some .directory) {segment : List Char}
    (h : isRedundant segment = true) : tree.step place segment = .ok place := by
  have hstay : Move.ofSegment segment = .stay := if_pos h
  unfold step
  rw [hplace, hstay]

/-- A name leads to what is there under it. -/
theorem step_of_isPlainName (hplace : tree.node? place = some .directory) (h : IsPlainName name) :
    tree.step place name.toList =
      if (tree.node? (place ++ [name])).isSome then .ok (place ++ [name])
      else .error .notFound := by
  unfold step
  rw [hplace, ofSegment_toList h.toIsFileName]
  dsimp only
  rw [if_neg (Nat.not_lt.mpr h.short)]

/-- An empty segment leads nowhere else. -/
theorem eq_of_step_nil {next : List String} (h : tree.step place [] = .ok next) : place = next := by
  unfold step at h
  split at h
  · exact Except.ok.inj h
  · cases h
  · cases h

/-- Segments are followed one part after the other. -/
theorem walk_append (tree : Tree) (place : List String) (front back : List (List Char)) :
    tree.walk place (front ++ back) =
      match tree.walk place front with
      | .ok middle => tree.walk middle back
      | .error fault => .error fault := by
  induction front generalizing place with
  | nil => rfl
  | cons segment rest ih =>
    rw [List.cons_append, walk, walk]
    cases tree.step place segment with
    | ok next => exact ih next
    | error fault => rfl

/-- Where the front leads somewhere, the last segment is followed from there. -/
theorem walk_concat_of_ok {front : List (List Char)} {middle : List String}
    (h : tree.walk place front = .ok middle) (segment : List Char) :
    tree.walk place (front ++ [segment]) = tree.step middle segment := by
  rw [walk_append, h]
  dsimp only
  rw [walk]
  cases tree.step middle segment <;> rfl

/-- Where the front leads nowhere, the whole path does not. -/
theorem walk_concat_of_error {front : List (List Char)} {fault : Fault}
    (h : tree.walk place front = .error fault) (segment : List Char) :
    tree.walk place (front ++ [segment]) = .error fault := by
  rw [walk_append, h]

/-! ## Going down -/

/-- The place is a directory, and whatever is below it lies in directories. -/
structure IsClosed (tree : Tree) (place : List String) : Prop where
  /-- The place is a directory. -/
  directory : tree.node? place = some .directory
  /-- What is below it lies in directories. -/
  parents : ∀ names name, (tree.node? (place ++ names ++ [name])).isSome = true →
    tree.node? (place ++ names) = some .directory

/-- There is no file at the names or on the way to them. -/
def IsClear (tree : Tree) (place names : List String) : Prop :=
  ∀ front, front <+: names → ∀ content, tree.node? (place ++ front) ≠ some (.file content)

/-- A way that is clear is clear up to the directory above. -/
theorem IsClear.dropLast (h : IsClear tree place (above ++ [name])) : IsClear tree place above :=
  fun front hfront => h front (hfront.trans (List.prefix_append _ _))

/-- What is at the end of a clear way is a directory, if anything is there. -/
theorem IsClear.node?_eq (h : IsClear tree place names)
    (hthere : (tree.node? (place ++ names)).isSome = true) :
    tree.node? (place ++ names) = some .directory := by
  cases hnode : tree.node? (place ++ names) with
  | none =>
    rw [hnode] at hthere
    cases hthere
  | some node =>
    cases node with
    | directory => rfl
    | file content => exact absurd hnode (h names List.prefix_rfl content)

/-- One more name leads to what is there under it, or to nothing. -/
theorem walk_concat_eq (hclosed : IsClosed tree place) (hclear : IsClear tree place above)
    (hname : IsPlainName name) {segments : List (List Char)}
    (hwalk : tree.walk place segments =
      if (tree.node? (place ++ above)).isSome then .ok (place ++ above) else .error .notFound) :
    tree.walk place (segments ++ [name.toList]) =
      if (tree.node? (place ++ (above ++ [name]))).isSome then .ok (place ++ (above ++ [name]))
      else .error .notFound := by
  rw [← List.append_assoc]
  split_ifs at hwalk with hthere
  · rw [walk_concat_of_ok hwalk]
    exact step_of_isPlainName (hclear.node?_eq hthere) hname
  · -- nothing is below a place where nothing is
    have hnone : ¬(tree.node? (place ++ above ++ [name])).isSome = true := by
      intro hbelow
      rw [hclosed.parents above name hbelow] at hthere
      exact hthere rfl
    rw [if_neg hnone]
    exact walk_concat_of_error hwalk name.toList

/-- Where no file is on the way, a path that goes down leads to what is there, or finds nothing. -/
theorem walk_eq (hclosed : IsClosed tree place) {segments : List (List Char)}
    (hspells : Spells segments names) (hplain : ∀ other ∈ names, IsPlainName other)
    (hclear : IsClear tree place names) :
    tree.walk place segments =
      if (tree.node? (place ++ names)).isSome then .ok (place ++ names) else .error .notFound := by
  induction segments using List.reverseRecOn generalizing names with
  | nil =>
    have hnames : names = [] := by simpa [Spells, eq_comm] using hspells
    subst hnames
    rw [List.append_nil, hclosed.directory]
    rfl
  | append_singleton segments segment ih =>
    by_cases hsegment : isRedundant segment = true
    · have hwalk := ih ((spells_concat_of_isRedundant hsegment).mp hspells) hplain hclear
      split_ifs at hwalk ⊢ with hthere
      · rw [walk_concat_of_ok hwalk]
        exact step_of_isRedundant (hclear.node?_eq hthere) hsegment
      · exact walk_concat_of_error hwalk segment
    · rw [Bool.not_eq_true] at hsegment
      obtain ⟨above, rfl, habove⟩ := (spells_concat_of_kept hsegment).mp hspells
      rw [List.forall_mem_append, List.forall_mem_singleton] at hplain
      have hwalk := walk_concat_eq hclosed hclear.dropLast hplain.2
        (ih habove hplain.1 hclear.dropLast)
      rwa [String.toList_ofList] at hwalk

/-! ## Paths -/

/-- Nothing is wrong with a text that is not empty, not too long and has no end in it. -/
theorem refused?_eq_none_iff {path : Path} :
    refused? path = none ↔
      '\x00' ∉ path.text.toList ∧ path.text ≠ "" ∧ path.text.utf8ByteSize < maxPathBytes := by
  unfold refused?
  split_ifs with hnul hempty hlong
  · simp_all
  · simp_all
  · simp [Nat.not_lt.mpr hlong]
  · simp_all

/-- A text that is too long is refused for that if nothing else is wrong with it. -/
theorem refused?_eq_nameTooLong {path : Path} (hnul : '\x00' ∉ path.text.toList)
    (hne : path.text ≠ "") (hlong : maxPathBytes ≤ path.text.utf8ByteSize) :
    refused? path = some .nameTooLong := by
  unfold refused?
  simp [hnul, hne, hlong]

/-- A path whose text is part of one that is accepted is accepted. -/
theorem refused?_of_sublist {path part : Path} (h : refused? path = none)
    (hpart : part.text.toList.Sublist path.text.toList) (hne : part.text ≠ "") :
    refused? part = none := by
  obtain ⟨hnul, -, hlong⟩ := refused?_eq_none_iff.mp h
  have hsize : part.text.utf8ByteSize ≤ path.text.utf8ByteSize := by
    rw [← String.ofList_toList (s := part.text), ← String.ofList_toList (s := path.text),
      String.utf8ByteSize_ofList, String.utf8ByteSize_ofList]
    exact String.utf8Len_le_of_sublist hpart
  exact refused?_eq_none_iff.mpr
    ⟨fun hmem => hnul (hpart.subset hmem), hne, Nat.lt_of_le_of_lt hsize hlong⟩

/-- Nothing is wrong with the path of a directory. -/
theorem refused?_eq_none_of_isDirectory {path : Path} (h : tree.isDirectory path = true) :
    refused? path = none := by
  by_contra hrefused
  obtain ⟨fault, hfault⟩ := Option.ne_none_iff_exists'.mp hrefused
  unfold isDirectory nodeAt? find at h
  rw [hfault] at h
  cases h

/-- The path goes down from a directory of the tree, along names that files can have, and there is
no file on the way. -/
structure Approaches (tree : Tree) (place above : List String) (name : String) (path : Path) :
    Prop where
  /-- What is below the directory lies in directories. -/
  closed : IsClosed tree place
  /-- Behind segments that lead to the directory the path goes down. -/
  goesDown : ∃ stem, tree.walk [] stem = .ok place ∧ GoesDown stem above name path
  /-- Nothing is wrong with its text. -/
  accepted : refused? path = none
  /-- Files can have these names. -/
  plain : ∀ other ∈ above ++ [name], IsPlainName other
  /-- No file is on the way. -/
  clear : IsClear tree place above

namespace Approaches

variable {path : Path}

/-- The names above the last one are names that files can have. -/
theorem plain_above (h : tree.Approaches place above name path) :
    ∀ other ∈ above, IsPlainName other :=
  fun other hother => h.plain other (List.mem_append_left _ hother)

/-- So is the last name. -/
theorem plain_name (h : tree.Approaches place above name path) : IsPlainName name :=
  h.plain name (List.mem_append_right _ List.mem_cons_self)

/-- The path leads to what is there, or finds nothing. -/
theorem find_eq (h : tree.Approaches place above name path) :
    tree.find path =
      if (tree.node? (place ++ (above ++ [name]))).isSome then .ok (place ++ (above ++ [name]))
      else .error .notFound := by
  obtain ⟨stem, hstem, front, hsegments, hspells⟩ := h.goesDown
  unfold find
  rw [h.accepted, hsegments, List.append_assoc, walk_append, hstem]
  exact walk_concat_eq h.closed h.clear h.plain_name
    (walk_eq h.closed hspells h.plain_above h.clear)

/-- The path puts something new under its name, if its directory is there. -/
theorem target_eq (h : tree.Approaches place above name path) :
    tree.target path =
      if (tree.node? (place ++ above)).isSome then .ok (.named (place ++ above) name false)
      else .error .notFound := by
  obtain ⟨stem, hstem, front, hsegments, hspells⟩ := h.goesDown
  have hfirst : name.toList.isEmpty = false := (Bool.or_eq_false_iff.mp h.plain_name.kept).1
  have hwalk : tree.walk [] (stem ++ front) =
      if (tree.node? (place ++ above)).isSome then .ok (place ++ above) else .error .notFound := by
    rw [walk_append, hstem]
    exact walk_eq h.closed hspells h.plain_above h.clear
  unfold target
  rw [h.accepted, hsegments]
  dsimp only
  rw [List.reverse_append, List.reverse_singleton, List.singleton_append,
    List.dropWhile_cons_of_neg (by simp [hfirst])]
  dsimp only
  rw [List.reverse_reverse, hwalk, List.head?_cons, Option.map_some, Option.getD_some, hfirst]
  split_ifs with hthere
  · dsimp only
    rw [h.clear.node?_eq hthere, ofSegment_toList h.plain_name.toIsFileName]
  · rfl

end Approaches

end Tree

end Scaffold
