import Mathlib.Data.List.Basic
import Scaffold.FileSystem.Tree
import Scaffold.Proofs.Path
import Scaffold.Proofs.Storage.Memory

/-!
# The files of a tree and of a project in memory

The nodes of a tree hold the files of a project in memory if they are the same files below a place,
in the order in which they were first written (`Holds`). Then a file is read alike from both
(`Holds.lookup_eq`), they hold the same files after it was written to both (`Holds.insert`), and the
same names are in a directory (`Holds.filterMap_eq`).
-/

namespace Scaffold

open Scaffold.Path

namespace Tree

/-- The files below a place, with the names that lead to them from there. -/
def filesBelow (tree : Tree) (place : List String) : List (List String × FileContent) :=
  tree.files.filterMap fun file => (file.1.dropPrefix? place).map fun names => (names, file.2)

/-- The entry is no file below the place. -/
def IsBeside (place : List String) (entry : List String × Node) : Prop :=
  ∀ names content, entry ≠ (place ++ names, .file content)

/-- The files among the nodes that are below the place are the given ones, in the same order. -/
inductive Holds (place : List String) :
    List (List String × Node) → List (Path × String) → Prop where
  /-- There is nothing. -/
  | nil : Holds place [] []
  /-- A file is where its path leads. -/
  | file {key : Path} {content : String} {names : List String} {nodes : List (List String × Node)}
      {files : List (Path × String)} (hkey : key.components = names.map .name)
      (h : Holds place nodes files) :
      Holds place ((place ++ names, .file (.text content)) :: nodes) ((key, content) :: files)
  /-- Whatever is no file below the place is passed over. -/
  | beside {entry : List String × Node} {nodes : List (List String × Node)}
      {files : List (Path × String)} (hentry : IsBeside place entry) (h : Holds place nodes files) :
      Holds place (entry :: nodes) files

variable {place names directory : List String} {nodes more : List (List String × Node)}
  {files : List (Path × String)} {p : Path}

/-- A directory is beside the files. -/
theorem isBeside_directory (place key : List String) : IsBeside place (key, .directory) := by
  rintro names content heq
  cases heq

/-- An entry at a place where no directory is, which is no file below it, is elsewhere. -/
theorem IsBeside.ne {entry : List String × Node} (h : IsBeside place entry)
    (hfree : (place ++ names, .directory) ≠ entry) : entry.1 ≠ place ++ names := by
  obtain ⟨key, node⟩ := entry
  rintro rfl
  cases node with
  | directory => exact hfree rfl
  | file content => exact h names content rfl

/-- No file below the place is directly in a directory below it, except for the files that are held.
-/
theorem IsBeside.dropLast_ne {entry : List String × Node} (h : IsBeside place entry)
    (hne : directory ≠ [])
    (hflat : entry.2 = .directory → entry.1.dropLast ≠ place ++ directory) :
    entry.1.dropLast ≠ place ++ directory := by
  obtain ⟨key, node⟩ := entry
  cases node with
  | directory => exact hflat rfl
  | file content =>
    intro heq
    rcases List.eq_nil_or_concat key with rfl | ⟨above, name, rfl⟩
    · exact hne (List.append_eq_nil_iff.mp heq.symm).2
    · dsimp only at heq
      rw [List.concat_eq_append, List.dropLast_concat] at heq
      apply h (directory ++ [name]) content
      rw [List.concat_eq_append, heq, List.append_assoc]

/-- Names are told apart by their components. -/
theorem map_name_injective : Function.Injective (List.map Component.name) :=
  List.map_injective_iff.mpr fun _ _ h => Component.name.inj h

/-- A file is at the names of its path, and nowhere else. -/
theorem same_iff_of_components {key : Path} {others : List String}
    (hkey : key.components = others.map .name) (hp : p.components = names.map .name) :
    key.same p = true ↔ others = names := by
  rw [Path.same_iff, hkey, hp]
  exact map_name_injective.eq_iff

namespace Holds

variable (h : Holds place nodes files)

include h

/-- More nodes that are no files below the place make no difference. -/
theorem append_beside (hmore : ∀ entry ∈ more, IsBeside place entry) :
    Holds place (nodes ++ more) files := by
  induction h with
  | nil =>
    induction more with
    | nil => exact .nil
    | cons entry rest ih =>
      rw [List.forall_mem_cons] at hmore
      exact .beside hmore.1 (ih hmore.2)
  | file hkey _ ih => exact .file hkey ih
  | beside hentry _ ih => exact .beside hentry ih

/-- A file that is held is a file of the project. -/
theorem exists_file {content : FileContent} (hmem : (place ++ names, .file content) ∈ nodes) :
    ∃ key ∈ files.map Prod.fst, key.components = names.map .name := by
  induction h with
  | nil => exact absurd hmem List.not_mem_nil
  | @file key text others nodes files hkey _ ih =>
    rw [List.map_cons]
    rcases List.mem_cons.mp hmem with heq | hrest
    · rw [← List.append_cancel_left (Prod.mk.inj heq).1] at hkey
      exact ⟨key, List.mem_cons_self, hkey⟩
    · obtain ⟨other, hother, hcomponents⟩ := ih hrest
      exact ⟨other, List.mem_cons_of_mem _ hother, hcomponents⟩
  | beside hentry _ ih =>
    rcases List.mem_cons.mp hmem with heq | hrest
    · exact absurd heq.symm (hentry names content)
    · exact ih hrest

/-- What is found at the names of a path is the file of the path. -/
theorem lookup_eq (hp : p.components = names.map .name)
    (hfree : (place ++ names, .directory) ∉ nodes) :
    nodes.lookup (place ++ names) =
      (Memory.lookup p files).map fun content => .file (.text content) := by
  induction h with
  | nil => rfl
  | @file key content others nodes files hkey _ ih =>
    have hrest := ih fun hmem => hfree (List.mem_cons_of_mem _ hmem)
    rw [List.lookup_cons, Memory.lookup]
    by_cases hsame : others = names
    · rw [if_pos ((same_iff_of_components hkey hp).mpr hsame), hsame, beq_self_eq_true]
      rfl
    · have hne : (place ++ names == place ++ others) = false := by simpa using Ne.symm hsame
      rw [if_neg (mt (same_iff_of_components hkey hp).mp hsame), hne]
      exact hrest
  | @beside entry nodes files hentry _ ih =>
    rw [List.mem_cons, not_or] at hfree
    have hne : (place ++ names == entry.1) = false := by
      rw [beq_eq_false_iff_ne]
      exact (hentry.ne hfree.1).symm
    rw [List.lookup_cons, hne]
    exact ih hfree.2

/-- The same files are held after one of them was written. -/
theorem insert (hp : p.components = names.map .name)
    (hfree : (place ++ names, .directory) ∉ nodes) (content : String) :
    Holds place (Tree.insert (place ++ names) (.file (.text content)) nodes)
      (Memory.insert p content files) := by
  induction h with
  | nil => exact .file hp .nil
  | @file key old others nodes files hkey hrest ih =>
    have hinsert := ih fun hmem => hfree (List.mem_cons_of_mem _ hmem)
    rw [Tree.insert, Memory.insert]
    by_cases hsame : others = names
    · rw [if_pos ((same_iff_of_components hkey hp).mpr hsame), if_pos (congrArg _ hsame)]
      exact .file hkey hrest
    · rw [if_neg (mt (same_iff_of_components hkey hp).mp hsame),
        if_neg (mt List.append_cancel_left hsame)]
      exact .file hkey hinsert
  | @beside entry nodes files hentry _ ih =>
    rw [List.mem_cons, not_or] at hfree
    obtain ⟨key, node⟩ := entry
    rw [Tree.insert, if_neg (hentry.ne hfree.1)]
    exact .beside hentry (ih hfree.2)

/-- The names in a directory are those of the files that have it as their directory, as long as it
holds no directories. -/
theorem filterMap_eq (hne : directory ≠ [])
    (hflat : ∀ entry ∈ nodes, entry.2 = .directory → entry.1.dropLast ≠ place ++ directory) :
    (nodes.filterMap fun entry =>
        if entry.1.dropLast = place ++ directory then entry.1.getLast? else none) =
      files.filterMap fun file =>
        if file.1.components.dropLast = directory.map .name then file.1.fileName? else none := by
  induction h with
  | nil => rfl
  | @file key content names nodes files hkey _ ih =>
    rw [List.forall_mem_cons] at hflat
    have hfirst : (if (place ++ names).dropLast = place ++ directory then (place ++ names).getLast?
          else none) =
        if key.components.dropLast = directory.map .name then key.fileName? else none := by
      rcases List.eq_nil_or_concat names with rfl | ⟨above, name, rfl⟩
      · -- there are fewer names than the directory has
        have hlength : place.dropLast.length < (place ++ directory).length := by
          have := List.length_pos_iff.mpr hne
          rw [List.length_dropLast, List.length_append]
          omega
        have hshort : place.dropLast ≠ place ++ directory := fun heq =>
          absurd (congrArg List.length heq) hlength.ne
        rw [hkey, List.append_nil, if_neg hshort, if_neg (by simpa using hne.symm)]
      · rw [List.concat_eq_append, List.map_append] at hkey
        rw [List.concat_eq_append, ← List.append_assoc, List.dropLast_concat, List.getLast?_concat,
          Path.fileName?_of_components hkey, hkey, List.map_singleton, List.dropLast_concat]
        by_cases heq : above = directory
        · rw [if_pos (congrArg _ heq), if_pos (congrArg _ heq)]
        · rw [if_neg (mt List.append_cancel_left heq), if_neg (mt map_name_injective.eq_iff.mp heq)]
    rw [List.filterMap_cons, List.filterMap_cons, hfirst, ih hflat.2]
  | @beside entry nodes files hentry _ ih =>
    rw [List.forall_mem_cons] at hflat
    rw [List.filterMap_cons, if_neg (hentry.dropLast_ne hne hflat.1)]
    exact ih hflat.2

end Holds

/-- The tree has the files of the project below the place. -/
theorem Holds.map_filesBelow {tree : Tree} (h : Holds place tree.nodes files) :
    (tree.filesBelow place).map (fun file => (file.1.map Component.name, file.2)) =
      files.map fun file => (file.1.components, .text file.2) := by
  obtain ⟨nodes⟩ := tree
  unfold filesBelow Tree.files
  dsimp only at h ⊢
  induction h with
  | nil => rfl
  | @file key content names nodes files hkey _ ih =>
    have hdrop : (place ++ names).dropPrefix? place = some names :=
      List.dropPrefix?_append_of_beq names (beq_self_eq_true place)
    rw [List.map_cons, ← ih, hkey]
    simp only [List.filterMap_cons, hdrop, Option.map_some, List.map_cons]
  | @beside entry nodes files hentry _ ih =>
    obtain ⟨key, node⟩ := entry
    cases node with
    | directory => exact ih
    | file content =>
      have hdrop : key.dropPrefix? place = none := by
        rw [Option.eq_none_iff_forall_ne_some]
        intro names heq
        obtain ⟨front, rfl, hfront⟩ := List.dropPrefix?_eq_some_iff.mp heq
        rw [eq_of_beq hfront] at hentry
        exact hentry names content rfl
      simp only [List.filterMap_cons, hdrop, Option.map_none]
      exact ih

end Tree

end Scaffold
