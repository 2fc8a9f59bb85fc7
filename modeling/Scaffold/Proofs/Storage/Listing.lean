import Scaffold.Proofs.Path
import Scaffold.Proofs.Path.Order
import Scaffold.Proofs.Storage.Memory

/-!
# Listing a directory of a project in memory

A project in memory sorts the paths of its files and then takes the names of those in a directory.
Main statement: what comes out are the names in the directory, sorted as names
(`artifacts_eq_mergeSort`).
-/

namespace Scaffold.Memory

variable {directory path : Path} {name : String}

/-- The name of a file that lies directly in the directory. -/
def nameIn? (directory path : Path) : Option String :=
  if path.components.dropLast = directory.components then path.fileName? else none

/-- The name of a file is the last component of its path. -/
theorem components_of_fileName? (h : path.fileName? = some name) :
    path.components = path.components.dropLast ++ [.name name] := by
  have hlast : path.components.getLast? = some (.name name) := by
    unfold Path.fileName? at h
    split at h
    · next heq => rw [heq, Option.some.inj h]
    · cases h
  obtain ⟨front, hfront⟩ := List.getLast?_eq_some_iff.mp hlast
  rw [hfront, List.dropLast_concat]

/-- A file in a directory has the components of the directory, and its name. -/
theorem components_of_nameIn? (h : nameIn? directory path = some name) :
    path.components = directory.components ++ [.name name] := by
  unfold nameIn? at h
  split_ifs at h with hdirectory
  rw [← hdirectory]
  exact components_of_fileName? h

/-- Testing for the directory and taking the name afterwards is one look-up. -/
theorem nameIn?_eq (directory path : Path) :
    (if liesIn directory path then path.fileName? else none) = nameIn? directory path := by
  unfold nameIn?
  cases hname : path.fileName? with
  | none => rw [ite_self, ite_self]
  | some name =>
    obtain ⟨parent, hparent, hcomponents⟩ :=
      Path.exists_parent?_eq_some (components_of_fileName? hname)
    have hlies : liesIn directory path = true ↔
        path.components.dropLast = directory.components := by
      unfold liesIn
      rw [hparent, Option.map_some, Option.getD_some, Path.same_iff, hcomponents]
    simp only [hlies]

/-- Paths in order give the names in one directory in order. -/
theorem pairwise_filterMap_nameIn? (directory : Path) (paths : List Path) :
    ((paths.mergeSort Path.notAfter).filterMap (nameIn? directory)).Pairwise (· ≤ ·) := by
  refine List.Pairwise.filterMap _ ?_ (Path.pairwise_mergeSort paths)
  intro p q horder first hfirst second hsecond
  exact (Path.notAfter_iff_of_components (components_of_nameIn? hfirst)
    (components_of_nameIn? hsecond)).mp horder

/-- Sorted names are in order. -/
theorem pairwise_mergeSort_names (names : List String) : names.mergeSort.Pairwise (· ≤ ·) := by
  have htrans : ∀ a b c : String, decide (a ≤ b) = true → decide (b ≤ c) = true →
      decide (a ≤ c) = true := by
    simp only [decide_eq_true_eq]
    exact fun a b c => String.le_trans
  have htotal : ∀ a b : String, (decide (a ≤ b) || decide (b ≤ a)) = true := by
    simp only [Bool.or_eq_true, decide_eq_true_eq]
    exact String.le_total
  exact (List.pairwise_mergeSort htrans htotal names).imp fun h => of_decide_eq_true h

/-- What a project finds are the names in the directory, sorted. -/
theorem artifacts_eq_mergeSort {memory : Memory} {kind : ArtifactKind}
    (h : memory.paths.directoryOf kind = some directory) (pattern : String) :
    memory.artifacts kind pattern =
      ((memory.keys.filterMap (nameIn? directory)).filter
        fun name => Text.contains name pattern).mergeSort := by
  unfold artifacts
  rw [h]
  dsimp only
  rw [List.filterMap_filter]
  simp only [nameIn?_eq]
  -- both lists are sorted, and they have the same names
  refine List.Perm.eq_of_pairwise (fun a b _ _ => String.le_antisymm)
    ((pairwise_filterMap_nameIn? directory memory.keys).filter _) ?_ ?_
  · exact pairwise_mergeSort_names _
  · have hperm := ((List.mergeSort_perm memory.keys Path.notAfter).filterMap
      (nameIn? directory)).filter fun name => Text.contains name pattern
    exact hperm.trans (List.mergeSort_perm _ _).symm

end Scaffold.Memory
