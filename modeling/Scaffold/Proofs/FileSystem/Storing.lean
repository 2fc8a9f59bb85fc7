import Scaffold.Proofs.FileSystem.Mirror

/-!
# The storage on a directory tree

What the storage on a directory tree does for the paths that are rendered, said by the project in
memory that the tree mirrors. Nothing fails: a file is read as in memory (`perform_read`), its
directory can be made (`exists_ensureParent`) and then it can be written (`perform_write`,
`perform_append`); so every output can (`exists_deliver`), and the migrations that are found are
those found in memory (`perform_listMigrations`).

Main statement: the storage on the tree and the storage in memory answer alike, and the tree mirrors
the project at any time (`simulates_inFiles`).
-/

namespace Scaffold

open Scaffold.Path Scaffold.Tree

variable {root : Path} {place above : List String} {name : String} {config : Config}
  {rendered : List Path} {p : Path} {tree after : Tree} {memory : Memory}

/-! ## Directories of rendered paths -/

namespace Names

/-- The components above the last one are the names above the last one. -/
theorem dropLast_components (h : Names p above name) :
    p.components.dropLast = above.map .name := by
  rw [h.components, List.map_append, List.map_singleton, List.dropLast_concat]

/-- A name alone needs no directory. -/
theorem directory?_eq_none (h : Names p [] name) : p.directory? = none := by
  have hone : p.components = [] ++ [.name name] := h.components
  obtain ⟨q, hparent, hcomponents⟩ := exists_parent?_eq_some hone
  have htext : q.text = "" := by
    by_contra hne
    obtain ⟨first, rest, hsegments⟩ := exists_segments_eq_cons q
    rw [components_eq hsegments hne] at hcomponents
    cases hcomponents
  unfold directory?
  rw [hparent, Option.filter_some, htext]
  rfl

/-- The directory of a path is written by the names before the last one. -/
theorem exists_directory? {directory : String} (h : Names p (above ++ [directory]) name) :
    ∃ q, p.directory? = some q ∧ Names q above directory ∧ q.text.toList <+: p.text.toList := by
  have hname : IsPlainName name := h.plain name (by simp)
  have hdirectory : IsPlainName directory := h.plain directory (by simp)
  obtain ⟨q, hparent, hgoes, hunder⟩ :=
    h.goesDown.exists_parent? hname.toIsFileName hdirectory.toIsFileName
  have hfront : p.components = (above ++ [directory]).map .name ++ [.name name] := by
    rw [h.components, List.map_append, List.map_singleton]
  obtain ⟨q', hparent', hcomponents⟩ := exists_parent?_eq_some hfront
  rw [hparent] at hparent'
  obtain rfl := Option.some.inj hparent'
  refine ⟨q, ?_, ⟨hcomponents, fun other hother => h.plain other ?_, hgoes⟩, hunder⟩
  · have hne : q.text ≠ "" := hgoes.text_ne_empty hdirectory.toIsFileName
    unfold directory?
    rw [hparent, Option.filter_some, if_pos (by simpa using hne)]
  · exact List.mem_append_left _ hother

end Names

/-- The directory of the migrations is written by two names. -/
theorem names_migrations : Names ({} : Paths).migrations ["database"] "migrations" where
  components := by decide
  plain := by decide
  goesDown := ⟨["database".toList], by decide, rfl⟩

/-! ## Operations on the tree -/

section perform

variable {path : Path} {operation : Tree → Except Fault Tree}

/-- An operation at a path comes to what it comes to on the tree, with faults that name the path. -/
theorem perform_atPath {α : Type} {action : ExceptT Fault (StateM Tree) α}
    {result : Except Fault α} (path : Path) (h : action.run.run tree = (result, after)) :
    perform (Storage.atPath path action) tree = (result.mapError (Error.io path), after) := by
  unfold perform Storage.atPath
  change StateT.run (action.run >>= fun found => pure (found.mapError (Error.io path))) tree = _
  rw [run_bind h]
  rfl

/-- A change that goes through leaves the changed tree. -/
theorem run_changing (h : operation tree = .ok after) :
    (changing operation).run.run tree = (.ok (), after) := by
  unfold changing
  simp only [ExceptT.run_mk, StateT.run, h]

/-- The same at a path. -/
theorem perform_changing (path : Path) (h : operation tree = .ok after) :
    perform (Storage.atPath path (changing operation)) tree = (.ok (), after) :=
  perform_atPath path (run_changing h)

/-- Making directories through the storage is making them on the tree. -/
theorem perform_makeDirectories {result : Except Fault Unit}
    (h : tree.makePath path = (after, result)) :
    perform (Storage.atPath path (fileSystem.makeDirectories path)) tree =
      (result.mapError (Error.io path), after) := by
  refine perform_atPath path ?_
  change ((tree.makePath path).2, (tree.makePath path).1) = _
  rw [h]

/-- A directory that is found is listed with what is in it. -/
theorem perform_listDirectory (h : tree.find path = .ok place) :
    perform (Storage.atPath path (fileSystem.listDirectory path)) tree =
      (.ok (tree.children place), tree) := by
  refine perform_atPath path (?_ : _ = ((.ok _ : Except Fault (List String)), _))
  change ((tree.find path).map tree.children, tree) = _
  rw [h]
  rfl

/-- Reading gives the content of the file, or nothing where nothing is found. -/
theorem perform_readIfThere {current : Option String} (h : tree.read path =
      match current with
      | some content => .ok content
      | none => .error .notFound) :
    perform (Storage.readIfThere fileSystem path) tree = (.ok current, tree) := by
  have hread : (fileSystem.readText path).run.run tree = (tree.read path, tree) := rfl
  unfold perform Storage.readIfThere
  rw [ExceptT.run_mk, run_bind hread, h]
  cases current <;> rfl

/-- Seen from a root in which there is no room for it, a directory can neither be made nor is it
there. -/
theorem perform_ensureParent_of_long {path : Path} (hdirectory : path.directory? = some p)
    (hnames : Names p above name) (hroot : refused? root = none)
    (hlong : maxPathBytes ≤ (root.join p).text.utf8ByteSize) :
    perform ((Storage.inFiles fileSystem root config).ensureParent path) tree =
      (.error (.io (root.join p) .nameTooLong), tree) := by
  have hrefused := hnames.refused?_join_eq_nameTooLong hroot hlong
  have hmake : tree.makeDirectory (root.join p) = .error .nameTooLong := by
    unfold makeDirectory target
    rw [hrefused]
  have hnot : tree.isDirectory (root.join p) = false := by
    unfold isDirectory nodeAt? find
    rw [hrefused]
    rfl
  have hgoes := hnames.goesDown.join (refused?_eq_none_iff.mp hroot).2.1 hnames.isAbsolute_eq_false
  have hname := (hnames.plain name (by simp)).toIsFileName
  unfold Storage.ensureParent
  rw [hdirectory]
  exact perform_makeDirectories (makePath_of_error hgoes hname hmake (by decide) hnot)

end perform

namespace Mirrors

variable (hsuits : Suits root rendered) (h : Mirrors root place config rendered tree memory)

section

include hsuits h

/-- A rendered path is read as in memory. -/
theorem perform_read (hp : p ∈ rendered) :
    perform ((Storage.inFiles fileSystem root config).read p) tree =
      (.ok (memory.file? p), tree) := by
  obtain ⟨above, name, hnames⟩ := hsuits.exists_names hp
  refine perform_readIfThere ((h.approaches hsuits hp hnames).read_eq.trans ?_)
  rw [h.node?_eq hsuits hp hnames]
  cases memory.file? p <;> rfl

/-- The directory of a rendered path can be made. -/
theorem exists_ensureParent (hp : p ∈ rendered) (hnames : Names p above name) :
    ∃ after, perform ((Storage.inFiles fileSystem root config).ensureParent p) tree =
        (.ok (), after) ∧
      Mirrors root place config rendered after (memory.makeParent p) ∧
      after.node? (place ++ above) = some .directory := by
  unfold Storage.ensureParent
  rcases List.eq_nil_or_concat above with rfl | ⟨front, directory, rfl⟩
  · rw [hnames.directory?_eq_none]
    refine ⟨tree, rfl, h.makeParent p, ?_⟩
    rw [List.append_nil]
    exact h.closed.directory
  · rw [List.concat_eq_append] at hnames ⊢
    obtain ⟨q, hdirectory, hq, hunder⟩ := hnames.exists_directory?
    have hclear := h.isClear_above hsuits hp hnames
    have haccepted : refused? (root.join q) = none := by
      exact refused?_of_sublist (hnames.refused?_join hsuits.accepted (hsuits.room p hp))
        (join_sublist hnames.isAbsolute_eq_false hq.isAbsolute_eq_false hunder.sublist)
        (hq.text_join_ne_empty hsuits.accepted)
    obtain ⟨after, hmake, hmakes⟩ :=
      (h.approaches_of_isClear hsuits hq haccepted hclear.dropLast).makePath_eq hclear
    rw [hdirectory]
    refine ⟨after, ?_, (h.of_makes hmakes hp ?_).makeParent p, hmakes.directory⟩
    · exact perform_makeDirectories hmake
    · simp [hnames.dropLast_components]

/-- A file is written where its directory is there. -/
theorem perform_write (hp : p ∈ rendered) (hnames : Names p above name)
    (hparent : tree.node? (place ++ above) = some .directory) (content : String) :
    perform ((Storage.inFiles fileSystem root config).write p content) tree =
      (.ok (), tree.set (place ++ (above ++ [name])) (.file (.text content))) := by
  refine perform_changing (root.join p) ?_
  have hfree := h.node?_ne_directory hsuits hp hnames
  exact (h.approaches hsuits hp hnames).writeWith_eq hparent hfree _

/-- Lines are put at the end of a file where its directory is there. -/
theorem perform_append (hp : p ∈ rendered) (hnames : Names p above name)
    (hparent : tree.node? (place ++ above) = some .directory) (lines : List String) :
    perform ((Storage.inFiles fileSystem root config).append p lines) tree =
      (.ok (), tree.set (place ++ (above ++ [name]))
        (.file (.text ((memory.file? p).getD "" ++ appendBlock lines)))) := by
  refine perform_changing (root.join p) ?_
  have hfree := h.node?_ne_directory hsuits hp hnames
  refine ((h.approaches hsuits hp hnames).writeWith_eq hparent hfree _).trans ?_
  rw [h.node?_eq hsuits hp hnames]
  cases memory.file? p <;> rfl

/-! ## Outputs -/

/-- A whole file can be written, with its directory. -/
theorem exists_place (hp : p ∈ rendered) (hnames : Names p above name) (content : String) :
    ∃ middle after,
      perform ((Storage.inFiles fileSystem root config).ensureParent p) tree = (.ok (), middle) ∧
      perform ((Storage.inFiles fileSystem root config).write p content) middle = (.ok (), after) ∧
      Mirrors root place config rendered after (memory.place p content) ∧
      after.node? (place ++ above) = some .directory := by
  obtain ⟨middle, hensure, hmiddle, hparent⟩ :=
    h.exists_ensureParent hsuits hp hnames
  have hfree := hmiddle.node?_ne_directory hsuits hp hnames
  exact ⟨middle, _, hensure, hmiddle.perform_write hsuits hp hnames hparent content,
    hmiddle.set hsuits hp hnames hparent content,
    (Grows.set (by simp) hfree _).directories _ hparent⟩

/-- A file that is there lies in a directory. -/
theorem parent_of_file? (hp : p ∈ rendered) (hnames : Names p above name) {content : String}
    (hfile : memory.file? p = some content) : tree.node? (place ++ above) = some .directory := by
  apply h.closed.parents above name
  rw [List.append_assoc, h.node?_eq hsuits hp hnames, hfile]
  rfl

/-- A file is in the way of all that would lie below it. -/
theorem perform_ensureParent_of_file? (hp : p ∈ rendered) {content : String}
    (hfile : memory.file? p = some content) {path : Path} (hdirectory : path.directory? = some p) :
    perform ((Storage.inFiles fileSystem root config).ensureParent path) tree =
      (.error (.io (root.join p) .alreadyThere), tree) := by
  obtain ⟨above, name, hnames⟩ := hsuits.exists_names hp
  have happroaches := h.approaches hsuits hp hnames
  have hnode := h.node?_eq hsuits hp hnames
  rw [hfile, Option.map_some] at hnode
  have hmake := happroaches.makeDirectory_eq
  rw [h.parent_of_file? hsuits hp hnames hfile, hnode, Option.isSome_some, if_pos rfl,
    Option.isSome_some, if_pos rfl] at hmake
  have hnot : tree.isDirectory (root.join p) = false := by
    rw [happroaches.isDirectory_eq, hnode]
    rfl
  unfold Storage.ensureParent
  rw [hdirectory]
  obtain ⟨stem, -, hgoes⟩ := happroaches.goesDown
  exact perform_makeDirectories
    (makePath_of_error hgoes happroaches.plain_name.toIsFileName hmake (by decide) hnot)

/-- Adding what is missing to a route file goes through as in memory. -/
theorem exists_merge_append (hp : p ∈ rendered) (hnames : Names p above name)
    (hparent : tree.node? (place ++ above) = some .directory) (wanted : List String)
    (content : String) (inserted : Bool) :
    ∃ after, perform (Route.merge.append (Storage.inFiles fileSystem root config) p wanted content
          inserted) tree = (.ok ⟨inserted, Route.missing content wanted⟩, after) ∧
      Mirrors root place config rendered after
        (if (Route.missing content wanted).isEmpty then memory
        else memory.appendTo p (Route.missing content wanted)) := by
  unfold Route.merge.append
  by_cases hnone : (Route.missing content wanted).isEmpty = true
  · rw [if_pos hnone]
    simp only [hnone]
    exact ⟨tree, rfl, h⟩
  · rw [if_neg hnone]
    simp only [hnone]
    refine ⟨_, ?_, h.set hsuits hp hnames hparent _⟩
    exact perform_bind_ok (h.perform_append hsuits hp hnames hparent _)

/-- Lines can be merged into a route file. -/
theorem exists_merge (hp : p ∈ rendered) (wanted : List String) :
    ∃ after, perform (Route.merge (Storage.inFiles fileSystem root config) p wanted) tree =
        (.ok ⟨(Route.withPreamble (memory.file? p)).isSome,
          Route.missing (Route.opened (memory.file? p)) wanted⟩, after) ∧
      Mirrors root place config rendered after (memory.afterMerge p wanted) := by
  obtain ⟨above, name, hnames⟩ := hsuits.exists_names hp
  unfold Route.merge Memory.afterMerge
  rw [perform_bind_ok (h.perform_read hsuits hp)]
  cases hopening : Route.withPreamble (memory.file? p) with
  | none =>
    rw [Route.opened_of_withPreamble_eq_none hopening,
      Memory.afterOpening_of_withPreamble_eq_none hopening]
    cases hfile : memory.file? p with
    | none => simp [hfile, Route.withPreamble] at hopening
    | some content =>
      have hparent := h.parent_of_file? hsuits hp hnames hfile
      exact h.exists_merge_append hsuits hp hnames hparent wanted content false
  | some content =>
    obtain ⟨middle, after, hensure, hwrite, hafter, hparent⟩ :=
      h.exists_place hsuits hp hnames content
    rw [Route.opened_of_withPreamble_eq_some hopening,
      Memory.afterOpening_of_withPreamble_eq_some hopening]
    dsimp only
    rw [perform_bind_ok hensure, perform_bind_ok hwrite]
    exact hafter.exists_merge_append hsuits hp hnames hparent wanted content true

/-- Every output for a rendered path can be written, and the same becomes of it as in memory. -/
theorem exists_deliver {output : Output} (hp : output.path ∈ rendered) :
    ∃ after, perform (Emission.deliver (Storage.inFiles fileSystem root config) output) tree =
        (.ok (output.outcome (memory.file? output.path)), after) ∧
      Mirrors root place config rendered after (memory.afterOutput output) := by
  obtain ⟨above, name, hnames⟩ := hsuits.exists_names hp
  cases output with
  | file path content =>
    rw [Output.path_file] at hp hnames
    obtain ⟨middle, after, hensure, hwrite, hafter, -⟩ := h.exists_place hsuits hp hnames content
    unfold Emission.deliver
    rw [perform_bind_ok hensure, perform_bind_ok hwrite]
    exact ⟨after, rfl, hafter⟩
  | starter path content =>
    rw [Output.path_starter] at hp hnames
    unfold Emission.deliver Output.outcome Memory.afterOutput Output.path
    rw [perform_bind_ok (h.perform_read hsuits hp)]
    dsimp only
    by_cases hthere : (memory.file? path).isSome = true
    · rw [if_pos hthere, if_pos hthere, if_pos hthere]
      exact ⟨tree, rfl, h⟩
    · rw [if_neg hthere, if_neg hthere, if_neg hthere]
      obtain ⟨middle, after, hensure, hwrite, hafter, -⟩ := h.exists_place hsuits hp hnames content
      rw [perform_bind_ok hensure, perform_bind_ok hwrite]
      exact ⟨after, rfl, hafter⟩
  | lines path wanted =>
    rw [Output.path_lines] at hp
    obtain ⟨after, hmerge, hafter⟩ := h.exists_merge hsuits hp wanted
    unfold Emission.deliver
    rw [perform_bind_ok hmerge]
    exact ⟨after, rfl, hafter⟩

end

/-! ## Migrations -/

section

include hsuits h

/-- The directory of the migrations is approached like those of rendered paths. -/
theorem approaches_migrations (haccepted : refused? (root.join ({} : Paths).migrations) = none) :
    tree.Approaches place ["database"] "migrations" (root.join ({} : Paths).migrations) := by
  refine h.approaches_of_isClear hsuits names_migrations haccepted (h.isClear ?_)
  intro key hkey hunder
  apply hsuits.spares key hkey
  rw [names_migrations.components, List.map_append]
  exact hunder.trans (List.prefix_append _ _)

omit hsuits in
/-- What is found in the directory of the migrations are the files of the project, if no directory
is in it. -/
theorem children_migrations (hflat : IsFlat rendered) :
    tree.children (place ++ ["database", "migrations"]) =
      memory.keys.filterMap (Memory.nameIn? ({} : Paths).migrations) := by
  have hcomponents : ({} : Paths).migrations.components = ["database", "migrations"].map .name :=
    names_migrations.components
  have hnone : ∀ entry ∈ tree.nodes, entry.2 = .directory →
      entry.1.dropLast ≠ place ++ ["database", "migrations"] := by
    rintro ⟨key, node⟩ hentry rfl heq
    obtain ⟨front, last, rfl⟩ : ∃ front last, key = front ++ [last] := by
      rcases List.eq_nil_or_concat key with rfl | ⟨front, last, rfl⟩
      · simp at heq
      · exact ⟨front, last, List.concat_eq_append⟩
    dsimp only at heq
    rw [List.dropLast_concat] at heq
    rw [heq, List.append_assoc] at hentry
    obtain ⟨p, hp, hunder⟩ := h.folders _ hentry (by simp)
    have habove : ({} : Paths).migrations.components <+: p.components := by
      rw [hcomponents]
      rw [List.map_append] at hunder
      exact (List.prefix_append _ _).trans (hunder.trans (List.dropLast_prefix _))
    -- the path would lie in a directory inside that of the migrations
    have hlength := hunder.length_le
    rw [hflat p hp habove, hcomponents] at hlength
    simp at hlength
  have hnames := h.holds.filterMap_eq (List.cons_ne_nil _ _) hnone
  unfold Tree.children Memory.keys
  rw [hnames, List.filterMap_map, ← hcomponents]
  rfl

/-- Where a migration is, its directory is found. -/
theorem of_mem_migrations {key : Path} (hkey : key ∈ memory.keys)
    (hname : Memory.nameIn? ({} : Paths).migrations key = some name) :
    refused? (root.join ({} : Paths).migrations) = none ∧
      tree.node? (place ++ ["database", "migrations"]) = some .directory := by
  have hrendered := h.known key hkey
  have hcomponents := Memory.components_of_nameIn? hname
  rw [names_migrations.components] at hcomponents
  have hnames : Names key ["database", "migrations"] name :=
    hsuits.names_of_components hrendered (hcomponents.trans (by simp))
  constructor
  · have hpart : (({} : Paths).migrations.text.toList).Sublist key.text.toList := by
      refine List.Sublist.trans ?_ hnames.goesDown.intercalate_sublist_text
      have hne : ["database".toList, "migrations".toList] ≠ [] := by simp
      exact (prefix_intercalate_append hne [name.toList]).sublist
    exact refused?_of_sublist (hnames.refused?_join hsuits.accepted (hsuits.room key hrendered))
      (join_sublist hnames.isAbsolute_eq_false names_migrations.isAbsolute_eq_false hpart)
      (names_migrations.text_join_ne_empty hsuits.accepted)
  · have hthere : (memory.file? key).isSome = true :=
      Memory.file?_isSome_iff.mpr ⟨key, hkey, same_refl key⟩
    obtain ⟨content, hcontent⟩ := Option.isSome_iff_exists.mp hthere
    exact h.parent_of_file? hsuits hrendered hnames hcontent

/-- Without the directory of the migrations there are none in memory either. -/
theorem filterMap_nameIn?_eq_nil
    (hnot : tree.isDirectory (root.join ({} : Paths).migrations) = false) :
    memory.keys.filterMap (Memory.nameIn? ({} : Paths).migrations) = [] := by
  rw [List.filterMap_eq_nil_iff]
  intro key hkey
  by_contra hsome
  obtain ⟨name, hname⟩ := Option.ne_none_iff_exists'.mp hsome
  obtain ⟨haccepted, hnode⟩ := h.of_mem_migrations hsuits hkey hname
  have happroaches := h.approaches_migrations hsuits haccepted
  rw [happroaches.isDirectory_eq, beq_eq_false_iff_ne] at hnot
  exact hnot hnode

/-- What is looked for among the migrations is looked for in the directory, if it is there. -/
theorem perform_listArtifacts (hpaths : config.paths = {}) (pattern : String) :
    perform ((Storage.inFiles fileSystem root config).listArtifacts .migration pattern) tree =
      (.ok ((if tree.isDirectory (root.join ({} : Paths).migrations)
          then tree.children (place ++ ["database", "migrations"]) else []).filter
        fun name => Text.contains name pattern).mergeSort, tree) := by
  have hdirectory : config.paths.directoryOf .migration = some ({} : Paths).migrations := by
    rw [hpaths]
    rfl
  unfold Storage.inFiles
  dsimp only
  rw [hdirectory]
  dsimp only
  have hlift :
      perform (ExceptT.lift (fileSystem.isDirectory (root.join ({} : Paths).migrations))) tree =
        (.ok (tree.isDirectory (root.join ({} : Paths).migrations)), tree) := rfl
  rw [perform_bind_ok hlift]
  cases hthere : tree.isDirectory (root.join ({} : Paths).migrations) with
  | true =>
    have happroaches := h.approaches_migrations hsuits (refused?_eq_none_of_isDirectory hthere)
    rw [happroaches.isDirectory_eq, beq_iff_eq] at hthere
    have hfind : tree.find (root.join ({} : Paths).migrations) =
        .ok (place ++ ["database", "migrations"]) := by
      rw [happroaches.find_eq, hthere, Option.isSome_some, if_pos rfl, List.singleton_append]
    rw [if_pos rfl, if_pos rfl, perform_bind_ok (perform_listDirectory hfind)]
    rfl
  | false =>
    rw [if_neg Bool.false_ne_true, if_neg Bool.false_ne_true, List.filter_nil, List.mergeSort_nil]
    rfl

/-- What is in the directory of the migrations has a name that a file can have. -/
theorem isPlainName_of_mem_children
    (hname : name ∈ tree.children (place ++ ["database", "migrations"])) : IsPlainName name := by
  obtain ⟨⟨key, node⟩, hentry, hsome⟩ := List.mem_filterMap.mp hname
  obtain ⟨hdropLast, hlast⟩ : key.dropLast = place ++ ["database", "migrations"] ∧
      key.getLast? = some name := by
    dsimp only at hsome
    split_ifs at hsome with hdropLast
    exact ⟨hdropLast, hsome⟩
  obtain rfl : key = place ++ ["database", "migrations", name] := by
    rw [← List.dropLast_append_getLast? name hlast, hdropLast, List.append_assoc]
    rfl
  obtain ⟨p, hp, hmem⟩ :
      ∃ p ∈ rendered, Component.name name ∈ p.components := by
    cases node with
    | directory =>
      obtain ⟨p, hp, hunder⟩ := h.folders _ hentry (by simp)
      exact ⟨p, hp, (hunder.trans (List.dropLast_prefix _)).subset (by simp)⟩
    | file content =>
      obtain ⟨p, hp, hcomponents⟩ := h.holds.exists_file hentry
      refine ⟨p, h.known p hp, ?_⟩
      rw [hcomponents]
      simp
  exact hsuits.plain p hp _ hmem

/-- A file in a directory among the migrations has that directory listed with them. -/
theorem mem_children_of_file? {directory content : String} (hp : p ∈ rendered)
    (hnames : Names p ["database", "migrations", directory] name)
    (hfile : memory.file? p = some content) :
    directory ∈ tree.children (place ++ ["database", "migrations"]) ∧
      tree.node? (place ++ ["database", "migrations"]) = some .directory := by
  have hnode := h.parent_of_file? hsuits hp hnames hfile
  have hsplit : place ++ ["database", "migrations", directory] =
      place ++ ["database", "migrations"] ++ [directory] := by simp
  constructor
  · refine List.mem_filterMap.mpr ⟨_, mem_nodes (by simp) hnode, ?_⟩
    rw [hsplit]
    simp
  · apply h.closed.parents ["database", "migrations"] directory
    rw [← hsplit]
    exact Option.isSome_iff_exists.mpr ⟨_, hnode⟩

/-- The migrations that are found are those found in memory. -/
theorem perform_listMigrations (hflat : IsFlat rendered) (hpaths : config.paths = {})
    (pattern : String) :
    perform ((Storage.inFiles fileSystem root config).listArtifacts .migration pattern) tree =
      (.ok (memory.artifacts .migration pattern), tree) := by
  have hmemory : memory.paths.directoryOf .migration = some ({} : Paths).migrations := by
    rw [h.paths, hpaths]
    rfl
  rw [h.perform_listArtifacts hsuits hpaths, Memory.artifacts_eq_mergeSort hmemory]
  cases hthere : tree.isDirectory (root.join ({} : Paths).migrations) with
  | true => rw [if_pos rfl, h.children_migrations hflat]
  | false => rw [if_neg Bool.false_ne_true, h.filterMap_nameIn?_eq_nil hsuits hthere]

end

end Mirrors

/-! ## The simulation -/

/-- The guard is told the same by the storage on the tree and by the storage in memory. -/
theorem guardsAlike_inFiles (hsuits : Suits root rendered) (hflat : IsFlat rendered)
    (place : List String) (hpaths : config.paths = {}) :
    GuardsAlike (Mirrors root place config rendered) (Storage.inFiles fileSystem root config)
      Memory.storage where
  tableExists table tree memory h := by
    have hmemory : perform (Memory.storage.tableExists table) memory =
        (.ok (memory.tables.contains table), memory) := rfl
    rw [h.tables] at hmemory
    exact Alike.of_perform (perform_pure _ tree) hmemory h
  listMigrations pattern tree memory h :=
    Alike.of_perform (h.perform_listMigrations hsuits hflat hpaths pattern) rfl h

/-- The same becomes of outputs on the tree and in memory. -/
theorem deliversAlike_inFiles (hsuits : Suits root rendered) (place : List String) :
    DeliversAlike (Mirrors root place config rendered) (· ∈ rendered)
      (Storage.inFiles fileSystem root config) Memory.storage where
  read path hpath tree memory h :=
    Alike.of_perform (h.perform_read hsuits hpath) (memory.exec_read path) h
  deliver output hpath tree memory h := by
    obtain ⟨after, hdeliver, hafter⟩ := h.exists_deliver hsuits hpath
    exact Alike.of_perform hdeliver (memory.exec_deliver output) hafter

/-- The storage on the tree and the storage in memory answer alike for the paths that are rendered,
and the tree mirrors the project at any time. -/
theorem simulates_inFiles (hsuits : Suits root rendered) (hflat : IsFlat rendered)
    (place : List String) (hpaths : config.paths = {}) :
    Simulates (Mirrors root place config rendered) (· ∈ rendered)
      (Storage.inFiles fileSystem root config) Memory.storage where
  toGuardsAlike := guardsAlike_inFiles hsuits hflat place hpaths
  toDeliversAlike := deliversAlike_inFiles hsuits place

end Scaffold
