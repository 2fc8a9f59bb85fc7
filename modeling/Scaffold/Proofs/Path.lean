import Scaffold.Path
import Scaffold.Proofs.Text.Split
import Scaffold.Proofs.Text.Strip

/-!
# The components of paths

A path is compared by its components and written as text, so every operation on the text has to be
read back in components. Main statements: a file in a directory has the components of the directory
and then its name (`components_child`); the directory of a path and the name of its file are found
again from any spelling with these components (`exists_parent?_eq_some`, `fileName?_of_components`).
-/

namespace Scaffold

open Text

namespace Path

/-! ## Segments -/

variable {p : Path} {first : List Char} {rest : List (List Char)}

/-- A path has a first segment. -/
theorem exists_segments_eq_cons (p : Path) : ∃ first rest, p.segments = first :: rest :=
  List.exists_cons_of_ne_nil (List.splitOn_ne_nil '/' p.text.toList)

/-- A path is its segments with slashes between them. -/
theorem text_eq_intercalate (p : Path) : p.text.toList = ['/'].intercalate p.segments :=
  (List.intercalate_splitOn '/').symm

/-- There is no slash in a segment. -/
theorem not_mem_of_mem_segments {segment : List Char} (h : segment ∈ p.segments) :
    '/' ∉ segment :=
  not_mem_of_mem_splitOn h

/-- A slash separates the segments before it from those after it. -/
theorem segments_of_text {above more : List Char} (h : p.text.toList = above ++ '/' :: more) :
    p.segments = above.splitOn '/' ++ more.splitOn '/' := by
  unfold segments
  rw [h, List.splitOn_append_cons_self]

/-- A path written from segments has these segments. -/
theorem segments_ofSegments {segments : List (List Char)} (hne : segments ≠ [])
    (hslash : ∀ segment ∈ segments, '/' ∉ segment) :
    (⟨String.ofList (['/'].intercalate segments)⟩ : Path).segments = segments := by
  unfold Path.segments
  rw [String.toList_ofList, List.splitOn_intercalate '/' hslash hne]

/-- The components of two parts are those of the first and those of the second. -/
theorem componentsOf_append (xs ys : List (List Char)) :
    componentsOf (xs ++ ys) = componentsOf xs ++ componentsOf ys := by
  simp [componentsOf]

/-- Segments that count for nothing can be dropped at the end. -/
theorem componentsOf_dropEndWhile (xs : List (List Char)) :
    componentsOf (dropEndWhile isRedundant xs) = componentsOf xs := by
  have hsplit : dropEndWhile isRedundant xs ++ xs.rtakeWhile isRedundant = xs :=
    List.rdropWhile_append_rtakeWhile
  have hnone : componentsOf (xs.rtakeWhile isRedundant) = [] := by
    unfold componentsOf
    rw [List.map_eq_nil_iff, List.filter_eq_nil_iff]
    intro segment hsegment
    simp [List.mem_rtakeWhile_imp hsegment]
  calc componentsOf (dropEndWhile isRedundant xs)
      = componentsOf (dropEndWhile isRedundant xs ++ xs.rtakeWhile isRedundant) := by
        rw [componentsOf_append, hnone, List.append_nil]
    _ = componentsOf xs := by rw [hsplit]

/-- A segment that counts is one component. -/
theorem componentsOf_singleton {segment : List Char} (h : isRedundant segment = false) :
    componentsOf [segment] = [.ofSegment segment] := by
  simp [componentsOf, h]

/-! ## Components -/

/-- The component that the text before the first slash stands for, in a path that is not empty. -/
def Component.ofFirst (first : List Char) : Component :=
  if first.isEmpty then .root else if first == ['.'] then .here else .ofSegment first

/-- An empty path has no components. -/
theorem components_of_text_eq_empty (h : p.text = "") : p.components = [] := by
  unfold components segments
  rw [h]
  rfl

/-- The components of a path that is not empty, from its segments. -/
theorem components_eq (hsegments : p.segments = first :: rest) (hne : p.text ≠ "") :
    p.components = .ofFirst first :: componentsOf rest := by
  unfold components Component.ofFirst
  rw [hsegments]
  by_cases hfirst : first.isEmpty = true
  · have hrest : rest.isEmpty = false := by
      rw [Bool.eq_false_iff]
      intro hrest
      apply hne
      rw [← String.toList_inj, text_eq_intercalate, hsegments, List.isEmpty_iff.mp hfirst,
        List.isEmpty_iff.mp hrest]
      rfl
    simp [hfirst, hrest]
  · by_cases hdot : first = ['.'] <;> simp [hfirst, hdot]

/-- The components of a path written from segments, unless the path is empty. -/
theorem components_ofSegments (hslash : ∀ segment ∈ first :: rest, '/' ∉ segment)
    (hne : ¬(first = [] ∧ rest = [])) :
    (⟨String.ofList (['/'].intercalate (first :: rest))⟩ : Path).components =
      .ofFirst first :: componentsOf rest := by
  have hsegments := segments_ofSegments (List.cons_ne_nil _ _) hslash
  refine components_eq hsegments ?_
  intro hempty
  unfold segments at hsegments
  rw [hempty] at hsegments
  obtain ⟨hfirst, hrest⟩ := List.cons.inj hsegments
  exact hne ⟨hfirst.symm, hrest.symm⟩

/-- A text that can be the name of a file: it is one component and stands for itself. -/
structure IsFileName (name : String) : Prop where
  /-- It is one segment. -/
  noSlash : '/' ∉ name.toList
  /-- It is not passed over. -/
  kept : isRedundant name.toList = false
  /-- It does not stand for the directory above. -/
  notUp : name.toList ≠ ['.', '.']

/-- The name of a file is one component. -/
theorem IsFileName.componentsOf {name : String} (h : IsFileName name) :
    componentsOf [name.toList] = [.name name] := by
  rw [componentsOf_singleton h.kept]
  simp [Component.ofSegment, h.notUp]

/-- A text without slashes and not made of dots alone is the name of a file. -/
theorem isFileName_of_mem {name : String} {c : Char} (hslash : '/' ∉ name.toList)
    (hmem : c ∈ name.toList) (hdot : c ≠ '.') : IsFileName name where
  noSlash := hslash
  kept := by
    unfold isRedundant
    rw [Bool.or_eq_false_iff]
    constructor
    · rw [List.isEmpty_eq_false_iff]
      exact List.ne_nil_of_mem hmem
    · rw [beq_eq_false_iff_ne]
      intro heq
      rw [heq] at hmem
      exact hdot (List.mem_singleton.mp hmem)
  notUp heq := by
    rw [heq] at hmem
    exact hdot (by simpa using hmem)

/-- A file in a directory has the components of the directory and then its name. -/
theorem components_child (p : Path) {name : String} (h : IsFileName name) :
    (p.child name).components = p.components ++ [.name name] := by
  have hne : name ≠ "" := by
    rintro rfl
    exact absurd h.kept (by decide)
  have hrelative : (⟨name⟩ : Path).isAbsolute = false := by
    unfold isAbsolute
    rw [beq_eq_false_iff_ne]
    intro hhead
    exact h.noSlash (List.mem_of_mem_head? hhead)
  have hsplit : name.toList.splitOn '/' = [name.toList] := List.splitOn_eq_singleton h.noSlash
  unfold child join
  rw [hrelative, Bool.false_or]
  split_ifs with hempty hslash
  · -- an empty path adds nothing
    have htext : p.text = "" := by simpa using hempty
    have hfirst : Component.ofFirst name.toList = .name name := by
      have hkept := h.kept
      simp only [isRedundant, Bool.or_eq_false_iff] at hkept
      simp [Component.ofFirst, hkept.1, hkept.2, Component.ofSegment, h.notUp]
    rw [components_of_text_eq_empty htext, components_eq hsplit hne, hfirst]
    rfl
  · -- the slash is there already, and the segment after it is empty
    obtain ⟨above, habove⟩ := List.getLast?_eq_some_iff.mp (by simpa using hslash)
    have hpne : p.text ≠ "" := by simpa using hempty
    obtain ⟨first, rest, hsegments⟩ := List.exists_cons_of_ne_nil (List.splitOn_ne_nil '/' above)
    have hp : p.segments = first :: (rest ++ [[]]) := by
      rw [segments_of_text habove, hsegments]
      rfl
    have htext : (⟨p.text ++ name⟩ : Path).text.toList = above ++ '/' :: name.toList := by
      simp [habove]
    have hq : (⟨p.text ++ name⟩ : Path).segments = first :: (rest ++ [name.toList]) := by
      rw [segments_of_text htext, hsegments, hsplit]
      rfl
    rw [components_eq hp hpne, components_eq hq (by simp [hpne]), componentsOf_append,
      componentsOf_append, h.componentsOf]
    simp [componentsOf, isRedundant]
  · have hpne : p.text ≠ "" := by simpa using hempty
    obtain ⟨first, rest, hsegments⟩ := exists_segments_eq_cons p
    have hp : p.text.toList.splitOn '/' = first :: rest := hsegments
    have htext : (⟨p.text ++ "/" ++ name⟩ : Path).text.toList =
        p.text.toList ++ '/' :: name.toList := by simp
    have hq : (⟨p.text ++ "/" ++ name⟩ : Path).segments = first :: (rest ++ [name.toList]) := by
      rw [segments_of_text htext, hp, hsplit]
      rfl
    rw [components_eq hsegments hpne, components_eq hq (by simp [hpne]), componentsOf_append,
      h.componentsOf]
    rfl

/-- A path starts as the text before any of its slashes does. -/
theorem head?_components_of_text {above more : List Char}
    (h : p.text.toList = above ++ '/' :: more) :
    p.components.head? = (above.splitOn '/').head?.map Component.ofFirst := by
  obtain ⟨first, rest, hsplit⟩ := List.exists_cons_of_ne_nil (List.splitOn_ne_nil '/' above)
  have hne : p.text ≠ "" := by
    intro hempty
    simp [hempty] at h
  have hsegments : p.segments = first :: (rest ++ more.splitOn '/') := by
    rw [segments_of_text h, hsplit, List.cons_append]
  rw [components_eq hsegments hne, hsplit]
  rfl

/-- What is in a directory starts as the directory does, unless its name leads to the root. -/
theorem head?_components_child (hne : p.text ≠ "") (name : String) :
    (p.child name).components.head? = p.components.head? ∨
      (p.child name).components.head? = some .root := by
  have hempty : p.text.isEmpty = false := by simpa using hne
  unfold child join
  rw [hempty, Bool.or_false]
  split_ifs with habsolute hslash
  · -- an absolute name starts with a slash
    refine Or.inr ?_
    obtain ⟨rest, hrest⟩ := List.head?_eq_some_iff.mp (by simpa [isAbsolute] using habsolute)
    have htext : (⟨name⟩ : Path).text.toList = [] ++ '/' :: rest := hrest
    exact head?_components_of_text htext
  · obtain ⟨above, habove⟩ := List.getLast?_eq_some_iff.mp (by simpa using hslash)
    refine Or.inl ?_
    have htext : (⟨p.text ++ name⟩ : Path).text.toList = above ++ '/' :: name.toList := by
      simp [habove]
    rw [head?_components_of_text habove, head?_components_of_text htext]
  · obtain ⟨first, rest, hsegments⟩ := exists_segments_eq_cons p
    have hsplit : p.text.toList.splitOn '/' = first :: rest := hsegments
    have htext : (⟨p.text ++ "/" ++ name⟩ : Path).text.toList =
        p.text.toList ++ '/' :: name.toList := by simp
    refine Or.inl ?_
    rw [components_eq hsegments hne, head?_components_of_text htext, hsplit]
    rfl

/-! ## Directory and name of a file -/

/-- The last component is the name of the file. -/
theorem fileName?_of_components {front : List Component} {name : String}
    (h : p.components = front ++ [.name name]) : p.fileName? = some name := by
  unfold fileName?
  rw [h, List.getLast?_append]
  rfl

/-- What is left of the segments ends in one that counts. -/
theorem exists_dropEndWhile_eq_concat {xs : List (List Char)}
    (h : dropEndWhile isRedundant xs ≠ []) :
    ∃ above last, dropEndWhile isRedundant xs = above ++ [last] ∧ isRedundant last = false := by
  refine ⟨_, _, (List.dropLast_append_getLast h).symm, ?_⟩
  exact Bool.eq_false_iff.mpr (List.rdropWhile_last_not isRedundant xs h)

/-- The directory of a file is found from any spelling of its path. -/
theorem exists_parent?_eq_some {front : List Component} {name : String}
    (h : p.components = front ++ [.name name]) :
    ∃ q, p.parent? = some q ∧ q.components = front := by
  have hne : p.text ≠ "" := by
    intro hempty
    simp [components_of_text_eq_empty hempty] at h
  obtain ⟨first, rest, hsegments⟩ := exists_segments_eq_cons p
  rw [components_eq hsegments hne, ← componentsOf_dropEndWhile] at h
  unfold parent?
  rw [hsegments]
  dsimp only
  by_cases hkept : dropEndWhile isRedundant rest = []
  · -- the name is the first segment
    rw [hkept] at h ⊢
    obtain ⟨rfl, hfirst⟩ : front = [] ∧ Component.ofFirst first = .name name := by
      cases front <;> simp_all [componentsOf]
    have hnot : first.isEmpty = false := by
      rw [Bool.eq_false_iff]
      intro hempty
      simp [Component.ofFirst, hempty] at hfirst
    exact ⟨⟨""⟩, by simp [hnot], rfl⟩
  · -- the name is the last segment that counts, and the rest spells the directory
    obtain ⟨above, last, hconcat, hlast⟩ := exists_dropEndWhile_eq_concat hkept
    rw [hconcat, componentsOf_append, componentsOf_singleton hlast, ← List.cons_append] at h
    obtain ⟨hfront, -⟩ := List.append_inj' h rfl
    obtain ⟨second, more, hcons⟩ := List.exists_cons_of_ne_nil hkept
    rw [hcons]
    dsimp only
    rw [← hcons, hconcat, List.dropLast_concat]
    by_cases hroot : (first.isEmpty && (dropEndWhile isRedundant above).isEmpty) = true
    · rw [if_pos hroot]
      rw [Bool.and_eq_true, List.isEmpty_iff, List.isEmpty_iff] at hroot
      refine ⟨_, rfl, ?_⟩
      rw [← hfront, ← componentsOf_dropEndWhile, hroot.1, hroot.2]
      rfl
    · rw [if_neg hroot]
      rw [Bool.and_eq_true, List.isEmpty_iff, List.isEmpty_iff] at hroot
      have habove : above ⊆ rest := by
        have hkeptrest : dropEndWhile isRedundant rest <+: rest := List.rdropWhile_prefix _ _
        rw [hconcat] at hkeptrest
        exact ((List.prefix_append _ _).trans hkeptrest).subset
      have hslash : ∀ segment ∈ first :: dropEndWhile isRedundant above, '/' ∉ segment := by
        intro segment hsegment
        apply not_mem_of_mem_segments (p := p)
        rw [hsegments]
        rcases List.mem_cons.mp hsegment with rfl | hsegment
        · exact List.mem_cons_self
        · apply List.mem_cons_of_mem
          exact habove ((List.rdropWhile_prefix isRedundant above).subset hsegment)
      refine ⟨_, rfl, ?_⟩
      rw [components_ofSegments hslash hroot, componentsOf_dropEndWhile]
      exact hfront

end Path

end Scaffold
