import Scaffold.Proofs.FileSystem.Walking

/-!
# Operations on a directory tree

What the operations do at a path that goes down, said by the node at its place: reading it
(`Approaches.read_eq`), writing a file where its directory is there (`Approaches.writeWith_eq`), and
making a directory with those above it, which leaves all else as it is (`Approaches.makePath_eq`).

A tree that has grown keeps its directories, so that a path which could be followed still can
(`Grows`).
-/

namespace Scaffold

open Scaffold.Path

namespace Tree

variable {tree after : Tree} {place : List String} {names above : List String} {name : String}

/-! ## Growth -/

/-- The directories of a tree are directories of the other, and what is there is there. -/
structure Grows (tree after : Tree) : Prop where
  /-- Directories stay directories. -/
  directories : ∀ place, tree.node? place = some .directory → after.node? place = some .directory
  /-- Nothing is removed. -/
  there : ∀ place, (tree.node? place).isSome = true → (after.node? place).isSome = true

/-- A step that could be taken can be taken in a tree that has grown. -/
theorem Grows.step (h : Grows tree after) {next : List String} {segment : List Char}
    (hnext : tree.step place segment = .ok next) : after.step place segment = .ok next := by
  unfold Tree.step at hnext ⊢
  cases hnode : tree.node? place with
  | none =>
    rw [hnode] at hnext
    cases hnext
  | some node =>
    rw [hnode] at hnext
    cases node with
    | file content => cases hnext
    | directory =>
      rw [h.directories place hnode]
      dsimp only at hnext ⊢
      cases hmove : Move.ofSegment segment with
      | stay =>
        rw [hmove] at hnext
        exact hnext
      | up =>
        rw [hmove] at hnext
        exact hnext
      | down name =>
        rw [hmove] at hnext
        dsimp only at hnext ⊢
        split_ifs at hnext with hlong hthere
        rw [if_neg hlong, if_pos (h.there _ hthere)]
        exact hnext

/-- What could be followed can be followed in a tree that has grown. -/
theorem Grows.walk (h : Grows tree after) {segments : List (List Char)} {last : List String}
    (hwalk : tree.walk place segments = .ok last) : after.walk place segments = .ok last := by
  induction segments generalizing place with
  | nil => exact hwalk
  | cons segment rest ih =>
    rw [Tree.walk] at hwalk ⊢
    cases hnext : tree.step place segment with
    | error fault =>
      rw [hnext] at hwalk
      cases hwalk
    | ok next =>
      rw [hnext] at hwalk
      rw [h.step hnext]
      exact ih hwalk

/-- Putting something in the place of what is no directory lets the tree grow. -/
theorem Grows.set (hne : place ≠ []) (h : tree.node? place ≠ some .directory) (node : Node) :
    Grows tree (tree.set place node) where
  directories other hother := by
    rw [node?_set hne, if_neg]
    · exact hother
    · rintro rfl
      exact h hother
  there other hother := by
    rw [node?_set hne]
    split_ifs
    · rfl
    · exact hother

/-- What is put into a directory lies in one. -/
theorem IsClosed.set (h : IsClosed tree place)
    (hparent : tree.node? (place ++ above) = some .directory)
    (hfree : tree.node? (place ++ (above ++ [name])) ≠ some .directory) (node : Node) :
    IsClosed (tree.set (place ++ (above ++ [name])) node) place := by
  have hne : place ++ (above ++ [name]) ≠ [] := by simp
  have hgrows := Grows.set hne hfree node
  refine ⟨hgrows.directories place h.directory, fun names other hthere => ?_⟩
  apply hgrows.directories
  rw [node?_set hne] at hthere
  split_ifs at hthere with heq
  · rw [← List.append_assoc] at heq
    rw [← (List.append_inj' heq rfl).1]
    exact hparent
  · exact h.parents names other hthere

/-! ## Files and directories at a path -/

namespace Approaches

variable {path : Path} (h : tree.Approaches place above name path)

include h

/-- What is at a path that is approached is what is at its place. -/
theorem nodeAt?_eq : tree.nodeAt? path = tree.node? (place ++ (above ++ [name])) := by
  unfold nodeAt?
  rw [h.find_eq]
  split_ifs with hthere
  · rfl
  · rw [Bool.not_eq_true, Option.isSome_eq_false_iff, Option.isNone_iff_eq_none] at hthere
    exact hthere.symm

/-- It is a directory if there is one at its place. -/
theorem isDirectory_eq :
    tree.isDirectory path = (tree.node? (place ++ (above ++ [name])) == some .directory) := by
  unfold isDirectory
  rw [h.nodeAt?_eq]

/-- Reading a path gives the text of the file that is there. -/
theorem read_eq :
    tree.read path =
      match tree.node? (place ++ (above ++ [name])) with
      | some (.file (.text content)) => .ok content
      | some (.file (.bytes _)) => .error .notText
      | some .directory => .error .isDirectory
      | none => .error .notFound := by
  unfold read
  rw [h.find_eq]
  cases hnode : tree.node? (place ++ (above ++ [name])) with
  | none => rfl
  | some node =>
    rw [Option.isSome_some, if_pos rfl]
    cases node with
    | directory => simp only [hnode]
    | file content => cases content <;> simp only [hnode]

/-- Writing to a path whose directory is there changes the file, or adds it. -/
theorem writeWith_eq (hparent : tree.node? (place ++ above) = some .directory)
    (hfree : tree.node? (place ++ (above ++ [name])) ≠ some .directory)
    (change : Option FileContent → FileContent) :
    tree.writeWith change path =
      .ok (tree.set (place ++ (above ++ [name])) (.file (change
        (match tree.node? (place ++ (above ++ [name])) with
        | some (.file content) => some content
        | _ => none)))) := by
  unfold writeWith
  rw [h.target_eq, hparent, Option.isSome_some, if_pos rfl]
  dsimp only
  rw [if_neg Bool.false_ne_true, if_neg (Nat.not_lt.mpr h.plain_name.short), List.append_assoc]
  cases hnode : tree.node? (place ++ (above ++ [name])) with
  | none => rfl
  | some node =>
    cases node with
    | file content => rfl
    | directory => exact absurd hnode hfree

/-- It can be made into a directory if the one above is there and nothing is at its place. -/
theorem makeDirectory_eq :
    tree.makeDirectory path =
      if (tree.node? (place ++ above)).isSome then
        if (tree.node? (place ++ (above ++ [name]))).isSome then .error .alreadyThere
        else .ok (tree.set (place ++ (above ++ [name])) .directory)
      else .error .notFound := by
  unfold makeDirectory
  rw [h.target_eq]
  split_ifs with hparent hthere
  · dsimp only
    rw [if_neg (Nat.not_lt.mpr h.plain_name.short), List.append_assoc, if_pos hthere]
  · dsimp only
    rw [if_neg (Nat.not_lt.mpr h.plain_name.short), List.append_assoc, if_neg hthere]
  · rfl

end Approaches

/-! ## Making directories -/

/-- The tree `after` is the tree with directories added, up to the names, where there was nothing.
-/
structure Makes (tree : Tree) (place names : List String) (after : Tree) : Prop where
  /-- The directories that were added, by the names that lead to them. -/
  exists_fresh : ∃ fresh : List (List String),
    after.nodes = tree.nodes ++ fresh.map (fun front => (place ++ front, Node.directory)) ∧
      ∀ front ∈ fresh, front ≠ [] ∧ front <+: names
  /-- There is a directory at the names. -/
  directory : after.node? (place ++ names) = some .directory
  /-- What is below the place lies in directories. -/
  closed : IsClosed after place

/-- What is new is put at the end. -/
theorem insert_of_lookup_eq_none {nodes : List (List String × Node)} (node : Node)
    (h : nodes.lookup place = none) : insert place node nodes = nodes ++ [(place, node)] := by
  induction nodes with
  | nil => rfl
  | cons entry rest ih =>
    obtain ⟨key, old⟩ := entry
    rw [List.lookup_cons] at h
    by_cases hkey : place = key
    · subst hkey
      simp at h
    · have hne : (place == key) = false := by simpa using hkey
      rw [hne] at h
      rw [insert, if_neg (Ne.symm hkey), ih h]
      rfl

/-- What is in the list after something was put there is that, or was there before. -/
theorem mem_insert {node : Node} {entry : List String × Node} {nodes : List (List String × Node)}
    (h : entry ∈ insert place node nodes) : entry = (place, node) ∨ entry ∈ nodes := by
  induction nodes with
  | nil => exact Or.inl (List.mem_singleton.mp h)
  | cons first rest ih =>
    obtain ⟨key, old⟩ := first
    rw [insert] at h
    split_ifs at h with hkey
    · rw [hkey] at h
      exact (List.mem_cons.mp h).imp_right (List.mem_cons_of_mem _)
    · rcases List.mem_cons.mp h with heq | hrest
      · exact Or.inr (heq ▸ List.mem_cons_self)
      · exact (ih hrest).imp_right (List.mem_cons_of_mem _)

/-- A place of a tree with directories added is as it was, or such a directory. -/
theorem Makes.node?_eq (h : Makes tree place names after) (other : List String) :
    after.node? other = tree.node? other ∨
      (tree.node? other = none ∧ after.node? other = some .directory ∧
        ∃ front, other = place ++ front ∧ front ≠ [] ∧ front <+: names) := by
  by_cases hother : other = []
  · subst hother
    exact Or.inl rfl
  · obtain ⟨fresh, hnodes, hfresh⟩ := h.exists_fresh
    rw [node?_of_ne_nil hother, node?_of_ne_nil hother, hnodes, List.lookup_append]
    cases hold : tree.nodes.lookup other with
    | some node => exact Or.inl rfl
    | none =>
      rw [Option.none_or]
      cases hnew : (fresh.map fun front => (place ++ front, Node.directory)).lookup other with
      | none => exact Or.inl rfl
      | some node =>
        obtain ⟨earlier, later, hsplit, -⟩ := List.lookup_eq_some_iff.mp hnew
        have hmem : (other, node) ∈ fresh.map fun front => (place ++ front, Node.directory) := by
          rw [hsplit]
          exact List.mem_append_right _ List.mem_cons_self
        obtain ⟨front, hfront, heq⟩ := List.mem_map.mp hmem
        obtain ⟨rfl, rfl⟩ := Prod.mk.inj heq
        exact Or.inr ⟨rfl, rfl, front, rfl, hfresh front hfront⟩

/-- Nothing is made but the directories up to the names. -/
theorem Makes.node?_eq_of_not_isPrefix (h : Makes tree place names after) {others : List String}
    (hnot : ¬others <+: names) : after.node? (place ++ others) = tree.node? (place ++ others) := by
  rcases h.node?_eq (place ++ others) with heq | ⟨-, -, front, heq, -, hfront⟩
  · exact heq
  · rw [List.append_cancel_left heq] at hnot
    exact absurd hfront hnot

/-- Making directories in two steps makes all of them. -/
theorem Makes.trans {middle : Tree} {others : List String} (h : Makes tree place names middle)
    (h' : Makes middle place others after) (hunder : names <+: others) :
    Makes tree place others after where
  exists_fresh := by
    obtain ⟨fresh, hnodes, hfresh⟩ := h.exists_fresh
    obtain ⟨more, hmore, hothers⟩ := h'.exists_fresh
    refine ⟨fresh ++ more, ?_, ?_⟩
    · rw [hmore, hnodes, List.map_append, List.append_assoc]
    · rw [List.forall_mem_append]
      exact ⟨fun front hfront => ⟨(hfresh front hfront).1, (hfresh front hfront).2.trans hunder⟩,
        hothers⟩
  directory := h'.directory
  closed := h'.closed

/-- Making directories only adds to the tree. -/
theorem Makes.grows (h : Makes tree place names after) : Grows tree after where
  directories other hother := by
    rcases h.node?_eq other with heq | ⟨-, hdirectory, -⟩
    · rw [heq, hother]
    · exact hdirectory
  there other hother := by
    rcases h.node?_eq other with heq | ⟨-, hdirectory, -⟩
    · rw [heq, hother]
    · rw [hdirectory]
      rfl

/-- Making directories puts no file in the way. -/
theorem Makes.clear (h : Makes tree place names after) {others : List String}
    (hclear : IsClear tree place others) : IsClear after place others := by
  intro front hfront content hnode
  rcases h.node?_eq (place ++ front) with heq | ⟨-, hdirectory, -⟩
  · rw [heq] at hnode
    exact hclear front hfront content hnode
  · rw [hdirectory] at hnode
    cases hnode

/-- What could not be made first is made after what is above it. -/
theorem makeDirectories_cons_of_notFound {middle : Tree} {path : Path} {parents : List Path}
    (hfirst : tree.makeDirectory path = .error .notFound)
    (hparents : tree.makeDirectories parents = (middle, .ok ()))
    (hsecond : middle.makeDirectory path = .ok after) :
    tree.makeDirectories (path :: parents) = (after, .ok ()) := by
  unfold makeDirectories
  rw [hfirst]
  dsimp only
  rw [hparents]
  dsimp only
  rw [hsecond]

/-- Where a directory can neither be made nor is there, making it with those above it fails in the
same way. -/
theorem makePath_of_error {stem : List (List Char)} {path : Path} {fault : Fault}
    (hgoes : GoesDown stem above name path) (hname : IsFileName name)
    (hmake : tree.makeDirectory path = .error fault) (hfault : fault ≠ .notFound)
    (hnot : tree.isDirectory path = false) : tree.makePath path = (tree, .error fault) := by
  obtain ⟨parent, hparent⟩ := hgoes.exists_parent?_eq_some hname
  obtain ⟨fuel, hfuel⟩ := Nat.exists_eq_succ_of_ne_zero (Nat.ne_zero_of_lt (hgoes.length_lt hname))
  unfold makePath
  rw [hfuel]
  unfold ancestors
  rw [hparent]
  dsimp only
  unfold makeDirectories
  rw [hmake]
  cases fault with
  | notFound => exact absurd rfl hfault
  | _ =>
    dsimp only
    rw [hnot]
    rfl

namespace Approaches

variable {path : Path}

/-- A path is still approached after directories were made. -/
theorem of_makes (h : tree.Approaches place above name path)
    (hmakes : Makes tree place names after) : after.Approaches place above name path where
  closed := hmakes.closed
  goesDown := by
    obtain ⟨stem, hstem, hgoes⟩ := h.goesDown
    exact ⟨stem, hmakes.grows.walk hstem, hgoes⟩
  accepted := h.accepted
  plain := h.plain
  clear := hmakes.clear h.clear

/-- The directory of the path is approached in the same way. -/
theorem exists_parent? {directory : String}
    (h : tree.Approaches place (above ++ [directory]) name path) :
    ∃ parent, path.parent? = some parent ∧ tree.Approaches place above directory parent := by
  obtain ⟨stem, hstem, hgoes⟩ := h.goesDown
  have hdirectory : IsPlainName directory := h.plain_above directory (by simp)
  obtain ⟨parent, hparent, hgoesParent, hunder⟩ :=
    hgoes.exists_parent? h.plain_name.toIsFileName hdirectory.toIsFileName
  refine ⟨parent, hparent, h.closed, ⟨stem, hstem, hgoesParent⟩, ?_,
    h.plain_above, h.clear.dropLast⟩
  exact refused?_of_sublist h.accepted hunder.sublist
    (hgoesParent.text_ne_empty hdirectory.toIsFileName)

/-- A path that is approached has a directory above it. -/
theorem exists_parent?_eq_some (h : tree.Approaches place above name path) :
    ∃ parent, path.parent? = some parent := by
  obtain ⟨stem, -, hgoes⟩ := h.goesDown
  exact hgoes.exists_parent?_eq_some h.plain_name.toIsFileName

/-- It has more components than there are names above its last one. -/
theorem length_lt (h : tree.Approaches place above name path) :
    above.length < path.components.length := by
  obtain ⟨stem, -, hgoes⟩ := h.goesDown
  exact hgoes.length_lt h.plain_name.toIsFileName

/-- A directory is made where nothing is, if the one above it is there. -/
theorem makes_set (h : tree.Approaches place above name path)
    (hparent : tree.node? (place ++ above) = some .directory)
    (hnone : tree.node? (place ++ (above ++ [name])) = none) :
    Makes tree place (above ++ [name]) (tree.set (place ++ (above ++ [name])) .directory) where
  exists_fresh := by
    have hne : place ++ (above ++ [name]) ≠ [] := by simp
    rw [node?_of_ne_nil hne] at hnone
    refine ⟨[above ++ [name]], insert_of_lookup_eq_none _ hnone, ?_⟩
    simp
  directory := by
    rw [node?_set (by simp), if_pos rfl]
  closed := h.closed.set hparent (by simp [hnone]) _

/-- A directory that is there need not be made. -/
theorem makes_refl (h : tree.Approaches place above name path)
    (hthere : tree.node? (place ++ (above ++ [name])) = some .directory) :
    Makes tree place (above ++ [name]) tree :=
  ⟨⟨[], by simp⟩, hthere, h.closed⟩

/-- In a directory that is there one directory has to be made at most. -/
theorem makeDirectories_of_parent (h : tree.Approaches place above name path)
    (hclear : IsClear tree place (above ++ [name]))
    (hparent : tree.node? (place ++ above) = some .directory) (rest : List Path) :
    ∃ after, tree.makeDirectories (path :: rest) = (after, .ok ()) ∧
      Makes tree place (above ++ [name]) after := by
  have hmake := h.makeDirectory_eq
  rw [hparent, Option.isSome_some, if_pos rfl] at hmake
  unfold makeDirectories
  cases hnode : tree.node? (place ++ (above ++ [name])) with
  | none =>
    rw [hnode] at hmake
    rw [hmake]
    exact ⟨_, rfl, h.makes_set hparent hnode⟩
  | some node =>
    have hdirectory := hclear.node?_eq (by rw [hnode]; rfl)
    have hthere : tree.isDirectory path = true := by
      rw [h.isDirectory_eq, hdirectory]
      rfl
    rw [hnode, Option.isSome_some, if_pos rfl] at hmake
    rw [hmake]
    dsimp only
    rw [if_pos hthere]
    exact ⟨tree, rfl, h.makes_refl hdirectory⟩

/-- Where the directory above has to be made first, the path is made after it. -/
theorem makeDirectories_of_makes {directory : String}
    (h : tree.Approaches place (above ++ [directory]) name path)
    (hnone : tree.node? (place ++ (above ++ [directory])) = none) {parents : List Path}
    {middle : Tree} (hparents : tree.makeDirectories parents = (middle, .ok ()))
    (hmakes : Makes tree place (above ++ [directory]) middle) :
    ∃ after, tree.makeDirectories (path :: parents) = (after, .ok ()) ∧
      Makes tree place (above ++ [directory] ++ [name]) after := by
  have hfirst := h.makeDirectory_eq
  rw [hnone] at hfirst
  have hfree : middle.node? (place ++ (above ++ [directory] ++ [name])) = none := by
    rw [hmakes.node?_eq_of_not_isPrefix (by simp)]
    by_contra hthere
    have hparent := h.closed.parents (above ++ [directory]) name (by
      rw [List.append_assoc]
      exact Option.isSome_iff_ne_none.mpr hthere)
    rw [hnone] at hparent
    cases hparent
  have hstill := h.of_makes hmakes
  have hsecond := hstill.makeDirectory_eq
  rw [hmakes.directory, hfree] at hsecond
  exact ⟨_, makeDirectories_cons_of_notFound hfirst hparents hsecond,
    hmakes.trans (hstill.makes_set hmakes.directory hfree) (List.prefix_append _ _)⟩

/-- All the directories up to the path are made, where no file is in the way. -/
theorem makeDirectories_eq (h : tree.Approaches place above name path)
    (hclear : IsClear tree place (above ++ [name])) {fuel : Nat} (hfuel : above.length < fuel) :
    ∃ after, tree.makeDirectories (ancestors fuel path) = (after, .ok ()) ∧
      Makes tree place (above ++ [name]) after := by
  induction above using List.reverseRecOn generalizing name path fuel with
  | nil =>
    obtain ⟨parent, hparent⟩ := h.exists_parent?_eq_some
    obtain ⟨fuel, rfl⟩ := Nat.exists_eq_succ_of_ne_zero hfuel.ne'
    unfold ancestors
    rw [hparent]
    refine h.makeDirectories_of_parent hclear ?_ _
    rw [List.append_nil]
    exact h.closed.directory
  | append_singleton above directory ih =>
    obtain ⟨parent, hparent, happroaches⟩ := h.exists_parent?
    obtain ⟨fuel, rfl⟩ := Nat.exists_eq_succ_of_ne_zero (Nat.ne_zero_of_lt hfuel)
    rw [List.length_append, List.length_singleton, Nat.add_lt_add_iff_right] at hfuel
    unfold ancestors
    rw [hparent]
    dsimp only
    cases hnode : tree.node? (place ++ (above ++ [directory])) with
    | some node =>
      exact h.makeDirectories_of_parent hclear (h.clear.node?_eq (by rw [hnode]; rfl)) _
    | none =>
      obtain ⟨middle, hmiddle, hmakes⟩ := ih happroaches h.clear hfuel
      exact h.makeDirectories_of_makes hnode hmiddle hmakes

/-- A path that goes down is made, with the directories above it, where no file is in the way. -/
theorem makePath_eq (h : tree.Approaches place above name path)
    (hclear : IsClear tree place (above ++ [name])) :
    ∃ after, tree.makePath path = (after, .ok ()) ∧ Makes tree place (above ++ [name]) after := by
  unfold makePath
  exact h.makeDirectories_eq hclear h.length_lt

end Approaches

end Tree

end Scaffold
