import Scaffold.Proofs.FileSystem.Holding
import Scaffold.Proofs.FileSystem.Operations
import Scaffold.Proofs.Generation.Delivery
import Scaffold.Proofs.Storage.Listing
import Scaffold.Proofs.Storage.Simulation
import Scaffold.Storage.Files

/-!
# A directory tree and a project in memory

A tree mirrors a project in memory if it has the files of the project below the root, and no
directories but those that these files may need (`Mirrors`). The paths of the files are known
beforehand, and they fit into a directory (`Fits`): no one of them lies below another, so that
nothing is a file and a directory at once.

Main statement: as long as only such paths are used, the storage on the tree and the storage in
memory answer alike, and the tree mirrors the project at any time (`simulates_inFiles`).
-/

namespace Scaffold

open Scaffold.Path Scaffold.Tree

/-! ## Paths that fit into a directory -/

/-- The paths can all be written to one directory, whose path is `root`. -/
structure Fits (root : Path) (rendered : List Path) : Prop where
  /-- Every component is a name that a file can have. -/
  plain : ∀ p ∈ rendered, ∀ component ∈ p.components, component.IsPlain
  /-- No file lies below another one. -/
  apart : ∀ p ∈ rendered, ∀ q ∈ rendered, p.components <+: q.components →
    p.components = q.components
  /-- The directory of the migrations has no directories in it. -/
  flat : ∀ p ∈ rendered, ({} : Paths).migrations.components <+: p.components →
    p.components.dropLast = ({} : Paths).migrations.components
  /-- Seen from the root, no path is too long. -/
  room : ∀ p ∈ rendered, (root.join p).text.utf8ByteSize < maxPathBytes

instance (root : Path) (rendered : List Path) : Decidable (Fits root rendered) :=
  decidable_of_iff
    ((∀ p ∈ rendered, ∀ component ∈ p.components, component.IsPlain) ∧
      (∀ p ∈ rendered, ∀ q ∈ rendered, p.components <+: q.components →
        p.components = q.components) ∧
      (∀ p ∈ rendered, ({} : Paths).migrations.components <+: p.components →
        p.components.dropLast = ({} : Paths).migrations.components) ∧
      ∀ p ∈ rendered, (root.join p).text.utf8ByteSize < maxPathBytes)
    ⟨fun ⟨hplain, hapart, hflat, hroom⟩ => ⟨hplain, hapart, hflat, hroom⟩,
      fun h => ⟨h.plain, h.apart, h.flat, h.room⟩⟩

/-- Fewer paths fit as well. -/
theorem Fits.mono {root : Path} {rendered all : List Path} (h : Fits root all)
    (hsub : rendered ⊆ all) : Fits root rendered where
  plain p hp := h.plain p (hsub hp)
  apart p hp q hq := h.apart p (hsub hp) q (hsub hq)
  flat p hp := h.flat p (hsub hp)
  room p hp := h.room p (hsub hp)

/-- The directory of the migrations has no directories in it when the paths are written. -/
def IsFlat (rendered : List Path) : Prop :=
  ∀ p ∈ rendered, ({} : Paths).migrations.components <+: p.components →
    p.components.dropLast = ({} : Paths).migrations.components

/-- Files of a type can be written to these paths below the root, and there is room for the
directory of the migrations. -/
structure Suits (root : Path) (rendered : List Path) : Prop where
  /-- Every component is a name that a file can have. -/
  plain : ∀ p ∈ rendered, ∀ component ∈ p.components, component.IsPlain
  /-- No file lies below another one. -/
  apart : ∀ p ∈ rendered, ∀ q ∈ rendered, p.components <+: q.components →
    p.components = q.components
  /-- Seen from the root, no path is too long. -/
  room : ∀ p ∈ rendered, (root.join p).text.utf8ByteSize < maxPathBytes
  /-- The path of the directory can be followed. -/
  accepted : refused? root = none
  /-- The paths are those of files of a type. -/
  ends : ∀ p ∈ rendered, ∃ front ending, p.text.toList = front ++ ending ∧ IsOrdinary ending
  /-- No file is where the directory of the migrations is. -/
  spares : ∀ p ∈ rendered, ¬p.components <+: ({} : Paths).migrations.components

variable {root : Path} {place above : List String} {name : String}
  {rendered : List Path} {p q : Path}

/-- A path is written by names. -/
structure Names (p : Path) (above : List String) (name : String) : Prop where
  /-- Its components are the names. -/
  components : p.components = (above ++ [name]).map .name
  /-- Files can have these names. -/
  plain : ∀ other ∈ above ++ [name], IsPlainName other
  /-- It goes down along them. -/
  goesDown : GoesDown [] above name p

/-- Components that are plain names come from names. -/
theorem exists_map_name {components : List Component}
    (h : ∀ component ∈ components, component.IsPlain) :
    ∃ names : List String, components = names.map .name ∧ ∀ other ∈ names, IsPlainName other := by
  induction components with
  | nil => exact ⟨[], rfl, by simp⟩
  | cons component rest ih =>
    rw [List.forall_mem_cons] at h
    obtain ⟨names, rfl, hnames⟩ := ih h.2
    cases component with
    | name name => exact ⟨name :: names, rfl, List.forall_mem_cons.mpr ⟨h.1, hnames⟩⟩
    | _ => exact h.1.elim

/-- Fewer paths suit as well. -/
theorem Suits.mono {all : List Path} (h : Suits root all) (hsub : rendered ⊆ all) :
    Suits root rendered where
  plain p hp := h.plain p (hsub hp)
  apart p hp q hq := h.apart p (hsub hp) q (hsub hq)
  room p hp := h.room p (hsub hp)
  accepted := h.accepted
  ends p hp := h.ends p (hsub hp)
  spares p hp := h.spares p (hsub hp)

/-- If no file is written, the root only has to be right. -/
theorem suits_nil (h : refused? root = none) : Suits root [] where
  plain _ hp := absurd hp List.not_mem_nil
  apart _ hp := absurd hp List.not_mem_nil
  room _ hp := absurd hp List.not_mem_nil
  accepted := h
  ends _ hp := absurd hp List.not_mem_nil
  spares _ hp := absurd hp List.not_mem_nil

/-- If no file is written, no directory is made. -/
theorem isFlat_nil : IsFlat [] :=
  fun _ hp => absurd hp List.not_mem_nil

namespace Suits

variable (h : Suits root rendered)

include h

/-- The root has a text. -/
theorem root_ne_empty : root.text ≠ "" :=
  (refused?_eq_none_iff.mp h.accepted).2.1

/-- Every path that is rendered is written by names. -/
theorem exists_names (hp : p ∈ rendered) : ∃ above name, Names p above name := by
  obtain ⟨names, hcomponents, hplain⟩ := exists_map_name (h.plain p hp)
  obtain ⟨front, ending, htext, hending⟩ := h.ends p hp
  obtain ⟨above, name, rfl, hgoes⟩ := goesDown_of_components hcomponents htext hending
  exact ⟨above, name, hcomponents, hplain, hgoes⟩

/-- The names are those in its components. -/
theorem names_of_components (hp : p ∈ rendered)
    (hcomponents : p.components = (above ++ [name]).map .name) : Names p above name := by
  obtain ⟨above', name', hnames⟩ := h.exists_names hp
  rw [hnames.components] at hcomponents
  obtain ⟨rfl, hname⟩ := List.append_inj' (map_name_injective hcomponents) rfl
  obtain rfl := List.singleton_injective hname
  exact hnames

end Suits

namespace Names

variable (h : Names p above name)

include h

/-- A path that is written by names is relative. -/
theorem isAbsolute_eq_false : p.isAbsolute = false := by
  have hcomponents := h.components
  cases above with
  | nil => exact isAbsolute_of_components hcomponents
  | cons first rest => exact isAbsolute_of_components hcomponents

/-- Seen from the root it has a text. -/
theorem text_join_ne_empty (hroot : refused? root = none) : (root.join p).text ≠ "" := by
  have hgoes := h.goesDown.join (refused?_eq_none_iff.mp hroot).2.1 h.isAbsolute_eq_false
  exact hgoes.text_ne_empty (h.plain name (by simp)).toIsFileName

/-- Seen from the root it has no end of a text in it. -/
theorem nul_not_mem_join (hroot : refused? root = none) :
    '\x00' ∉ (root.join p).text.toList := by
  intro hmem
  rcases mem_join hmem with hmem | heq | hmem
  · exact (refused?_eq_none_iff.mp hroot).1 hmem
  · exact absurd heq (by decide)
  · rcases h.goesDown.mem_cases hmem with heq | heq | ⟨other, hother, hmem⟩
    · exact absurd heq (by decide)
    · exact absurd heq (by decide)
    · exact (h.plain other hother).noNul hmem

/-- Seen from the root nothing is wrong with the path if there is room for it. -/
theorem refused?_join (hroot : refused? root = none)
    (hroom : (root.join p).text.utf8ByteSize < maxPathBytes) : refused? (root.join p) = none :=
  refused?_eq_none_iff.mpr ⟨h.nul_not_mem_join hroot, h.text_join_ne_empty hroot, hroom⟩

/-- Otherwise it is too long. -/
theorem refused?_join_eq_nameTooLong (hroot : refused? root = none)
    (hlong : maxPathBytes ≤ (root.join p).text.utf8ByteSize) :
    refused? (root.join p) = some .nameTooLong :=
  refused?_eq_nameTooLong (h.nul_not_mem_join hroot) (h.text_join_ne_empty hroot) hlong

end Names

/-! ## Trees and projects -/

/-- The tree has the files of the project below the place of the root, and no directories but those
that the rendered paths may need. -/
structure Mirrors (root : Path) (place : List String) (config : Config) (rendered : List Path)
    (tree : Tree) (memory : Memory) : Prop where
  /-- The root leads to the place. -/
  leads : tree.walk [] root.leading = .ok place
  /-- What is below the place lies in directories. -/
  closed : IsClosed tree place
  /-- The files are the same. -/
  holds : Holds place tree.nodes memory.files
  /-- The files are at paths that are rendered. -/
  known : ∀ key ∈ memory.keys, key ∈ rendered
  /-- The directories are above paths that are rendered. -/
  folders : ∀ names, (place ++ names, Node.directory) ∈ tree.nodes → names ≠ [] →
    ∃ p ∈ rendered, names.map .name <+: p.components.dropLast
  /-- The project has the places of the configuration. -/
  paths : memory.paths = config.paths
  /-- The project has the tables of the configuration. -/
  tables : memory.tables = config.existingTables

namespace Mirrors

variable {config : Config} {tree after : Tree} {memory : Memory} (hsuits : Suits root rendered)
  (h : Mirrors root place config rendered tree memory)

/-- What is at a place is in the list of the tree. -/
theorem mem_nodes {tree : Tree} {names : List String} {node : Node} (hne : names ≠ [])
    (hnode : tree.node? (place ++ names) = some node) : (place ++ names, node) ∈ tree.nodes := by
  rw [node?_of_ne_nil (by simp [hne])] at hnode
  obtain ⟨front, back, heq, -⟩ := List.lookup_eq_some_iff.mp hnode
  rw [heq]
  exact List.mem_append_right _ List.mem_cons_self

section

include hsuits h

/-- There is no directory at a path that is rendered. -/
theorem directory_not_mem (hp : p ∈ rendered) (hnames : Names p above name) :
    (place ++ (above ++ [name]), Node.directory) ∉ tree.nodes := by
  intro hmem
  obtain ⟨q, hq, hunder⟩ := h.folders _ hmem (by simp)
  rw [← hnames.components] at hunder
  -- one rendered path would be below the other
  have heq := hsuits.apart p hp q hq (hunder.trans (List.dropLast_prefix _))
  have hlength := hunder.length_le
  have hpos : 0 < p.components.length := by simp [hnames.components]
  rw [List.length_dropLast, heq] at hlength
  rw [heq] at hpos
  omega

/-- What is at a rendered path is the file of the project. -/
theorem node?_eq (hp : p ∈ rendered) (hnames : Names p above name) :
    tree.node? (place ++ (above ++ [name])) =
      (memory.file? p).map fun content => .file (.text content) := by
  rw [node?_of_ne_nil (by simp)]
  exact h.holds.lookup_eq hnames.components (h.directory_not_mem hsuits hp hnames)

/-- What is at a rendered path is no directory. -/
theorem node?_ne_directory (hp : p ∈ rendered) (hnames : Names p above name) :
    tree.node? (place ++ (above ++ [name])) ≠ some .directory := by
  rw [h.node?_eq hsuits hp hnames]
  cases memory.file? p <;> simp

omit hsuits in
/-- No file is on the way along names that are spared by the rendered paths. -/
theorem isClear {names : List String}
    (hspared : ∀ key ∈ rendered, ¬key.components <+: names.map .name) :
    IsClear tree place names := by
  intro front hfront content hnode
  by_cases hne : front = []
  · subst hne
    rw [List.append_nil, h.closed.directory] at hnode
    cases hnode
  · obtain ⟨key, hkey, hcomponents⟩ := h.holds.exists_file (mem_nodes hne hnode)
    refine hspared key (h.known key hkey) ?_
    rw [hcomponents]
    exact hfront.map _

/-- A path is approached if nothing is wrong with its text and no file is on the way. -/
theorem approaches_of_isClear (hnames : Names p above name)
    (haccepted : refused? (root.join p) = none) (hclear : IsClear tree place above) :
    tree.Approaches place above name (root.join p) where
  closed := h.closed
  goesDown := ⟨root.leading, h.leads,
    hnames.goesDown.join hsuits.root_ne_empty hnames.isAbsolute_eq_false⟩
  accepted := haccepted
  plain := hnames.plain
  clear := hclear

/-- No file is on the way to a rendered path. -/
theorem isClear_above (hp : p ∈ rendered) (hnames : Names p above name) :
    IsClear tree place above := by
  refine h.isClear fun key hkey hunder => ?_
  have hlonger : key.components <+: p.components := by
    rw [hnames.components, List.map_append]
    exact hunder.trans (List.prefix_append _ _)
  have heq := hsuits.apart key hkey p hp hlonger
  have hlength := hunder.length_le
  rw [heq, hnames.components] at hlength
  rw [List.length_map, List.length_map, List.length_append, List.length_singleton] at hlength
  omega

/-- Every rendered path is approached. -/
theorem approaches (hp : p ∈ rendered) (hnames : Names p above name) :
    tree.Approaches place above name (root.join p) :=
  h.approaches_of_isClear hsuits hnames (hnames.refused?_join hsuits.accepted (hsuits.room p hp))
    (h.isClear_above hsuits hp hnames)

end

/-! ## Changes -/

include h

/-- It does not matter if more is rendered than was thought. -/
theorem mono {all : List Path} (hsub : rendered ⊆ all) :
    Mirrors root place config all tree memory where
  leads := h.leads
  closed := h.closed
  holds := h.holds
  known key hkey := hsub (h.known key hkey)
  folders names hmem hne := by
    obtain ⟨p, hp, hunder⟩ := h.folders names hmem hne
    exact ⟨p, hsub hp, hunder⟩
  paths := h.paths
  tables := h.tables

/-- A tree with directories added that a rendered path needs mirrors the same project. -/
theorem of_makes {names : List String} (hmakes : Makes tree place names after) (hp : p ∈ rendered)
    (hunder : names.map .name <+: p.components.dropLast) :
    Mirrors root place config rendered after memory where
  leads := hmakes.grows.walk h.leads
  closed := hmakes.closed
  holds := by
    obtain ⟨fresh, hnodes, -⟩ := hmakes.exists_fresh
    rw [hnodes]
    refine h.holds.append_beside fun entry hentry => ?_
    obtain ⟨front, -, rfl⟩ := List.mem_map.mp hentry
    exact isBeside_directory _ _
  known := h.known
  folders others hmem hne := by
    obtain ⟨fresh, hnodes, hfresh⟩ := hmakes.exists_fresh
    rw [hnodes, List.mem_append] at hmem
    rcases hmem with hold | hnew
    · exact h.folders others hold hne
    · obtain ⟨front, hfront, heq⟩ := List.mem_map.mp hnew
      rw [List.append_cancel_left (Prod.mk.inj heq).1] at hfront
      exact ⟨p, hp, ((hfresh others hfront).2.map _).trans hunder⟩
  paths := h.paths
  tables := h.tables

/-- What directories a project was asked for does not matter. -/
theorem makeParent (p : Path) : Mirrors root place config rendered tree (memory.makeParent p) := by
  obtain ⟨directories, heq⟩ := memory.makeParent_eq p
  rw [heq]
  exact ⟨h.leads, h.closed, h.holds, h.known, h.folders, h.paths, h.tables⟩

include hsuits

/-- A file that is written to both is mirrored. -/
theorem set (hp : p ∈ rendered) (hnames : Names p above name)
    (hparent : tree.node? (place ++ above) = some .directory) (content : String) :
    Mirrors root place config rendered
      (tree.set (place ++ (above ++ [name])) (.file (.text content))) (memory.put p content) := by
  have hfree := h.node?_ne_directory hsuits hp hnames
  exact
    { leads := (Grows.set (by simp) hfree _).walk h.leads
      closed := h.closed.set hparent hfree _
      holds := h.holds.insert hnames.components (h.directory_not_mem hsuits hp hnames) content
      known := by
        intro key hkey
        rw [memory.keys_put] at hkey
        split_ifs at hkey
        · exact h.known key hkey
        · rcases List.mem_append.mp hkey with hold | hnew
          · exact h.known key hold
          · rw [List.mem_singleton.mp hnew]
            exact hp
      folders := by
        intro others hmem hne
        rcases mem_insert hmem with heq | hold
        · exact Node.noConfusion (Prod.mk.inj heq).2
        · exact h.folders others hold hne
      paths := h.paths
      tables := h.tables }

end Mirrors

/-! ## Empty projects -/

/-- The root leads to the place, which is a directory with nothing in it. -/
structure IsEmptyAt (tree : Tree) (root : Path) (place : List String) : Prop where
  /-- The root leads there. -/
  found : tree.find root = .ok place
  /-- It is a directory. -/
  directory : tree.node? place = some .directory
  /-- Nothing else is there or below. -/
  empty : ∀ entry ∈ tree.nodes, place <+: entry.1 → entry = (place, .directory)

namespace IsEmptyAt

variable {tree : Tree} (h : IsEmptyAt tree root place)

include h

/-- Nothing is wrong with the path of a directory that was found. -/
theorem refused?_eq_none : refused? root = none := by
  have hfound := h.found
  unfold find at hfound
  cases hrefused : refused? root with
  | none => rfl
  | some fault =>
    rw [hrefused] at hfound
    cases hfound

/-- A slash at the end of the root leads nowhere else. -/
theorem walk_leading : tree.walk [] root.leading = .ok place := by
  have hfound := h.found
  unfold find at hfound
  rw [h.refused?_eq_none] at hfound
  dsimp only at hfound
  unfold leading
  split_ifs with hslash
  · obtain ⟨above, habove⟩ := List.getLast?_eq_some_iff.mp hslash
    rw [segments_of_text habove, List.splitOn_nil] at hfound ⊢
    rw [List.dropLast_concat]
    cases hwalk : tree.walk [] (above.splitOn '/') with
    | error fault =>
      rw [walk_concat_of_error hwalk] at hfound
      cases hfound
    | ok last =>
      rw [walk_concat_of_ok hwalk] at hfound
      rw [eq_of_step_nil hfound]
  · exact hfound

/-- No file is below the place. -/
theorem isBeside {entry : List String × Node} (hentry : entry ∈ tree.nodes) :
    IsBeside place entry := by
  rintro names content rfl
  exact Node.noConfusion (Prod.mk.inj (h.empty _ hentry (List.prefix_append _ _))).2

/-- What is below an empty directory lies in directories. -/
theorem isClosed : IsClosed tree place where
  directory := h.directory
  parents names name hthere := by
    obtain ⟨node, hnode⟩ := Option.isSome_iff_exists.mp hthere
    rw [List.append_assoc] at hnode
    have hentry := h.empty _ (Mirrors.mem_nodes (by simp) hnode) (List.prefix_append _ _)
    exact absurd (Prod.mk.inj hentry).1 (by simp)

/-- The empty project in memory is mirrored. -/
theorem mirrors (config : Config) (rendered : List Path) :
    Mirrors root place config rendered tree
      { paths := config.paths, tables := config.existingTables } where
  leads := h.walk_leading
  closed := h.isClosed
  holds := Holds.nil.append_beside fun _ hentry => h.isBeside hentry
  known _ hkey := absurd hkey List.not_mem_nil
  folders names hmem hne := by
    have hentry := h.empty _ hmem (List.prefix_append _ _)
    exact absurd (Prod.mk.inj hentry).1 (by simpa using hne)
  paths := rfl
  tables := rfl

end IsEmptyAt

end Scaffold
