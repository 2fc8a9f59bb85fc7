import Scaffold.Proofs.Path.Inside

/-!
# Paths that go down

A path goes down from some directory if what follows the segments that lead there are names, with
nothing else between them that counts (`GoesDown`). Such a path is known by these names, however it
is spelled. Main statements: its directory is spelled in the same way (`GoesDown.exists_parent?`),
so is the path as seen from another directory (`GoesDown.join`), and a path goes down if its
components are names and the last of them ends the text (`goesDown_of_components`).
-/

namespace Scaffold

open Text

namespace Path

/-! ## Segments and the names among them -/

/-- The names are what counts among the segments. -/
def Spells (segments : List (List Char)) (names : List String) : Prop :=
  (segments.filter fun segment => !isRedundant segment) = names.map String.toList

section spells

variable {segments front back : List (List Char)} {names above : List String} {name : String}

/-- One more segment that does not count. -/
theorem spells_concat_of_isRedundant {segment : List Char} (h : isRedundant segment = true) :
    Spells (segments ++ [segment]) names ↔ Spells segments names := by
  unfold Spells
  rw [List.filter_append, List.filter_singleton]
  simp [h]

/-- One more name. -/
theorem spells_concat_of_kept {segment : List Char} (h : isRedundant segment = false) :
    Spells (segments ++ [segment]) names ↔
      ∃ above, names = above ++ [String.ofList segment] ∧ Spells segments above := by
  unfold Spells
  rw [List.filter_append, List.filter_singleton]
  simp only [h, Bool.not_false]
  constructor
  · intro heq
    obtain ⟨above, last, rfl, habove, hlast⟩ := List.map_eq_append_iff.mp heq.symm
    obtain ⟨name, rfl, rfl⟩ := List.map_eq_singleton_iff.mp hlast
    exact ⟨above, by simp, habove.symm⟩
  · rintro ⟨above, rfl, habove⟩
    simp [habove]

/-- The last name is found behind segments that spell the names before it, and nothing behind it
counts. -/
theorem Spells.exists_last (h : Spells segments (above ++ [name])) :
    ∃ front back, segments = front ++ [name.toList] ++ back ∧ Spells front above ∧
      ∀ segment ∈ back, isRedundant segment = true := by
  induction segments using List.reverseRecOn with
  | nil => simp [Spells] at h
  | append_singleton segments segment ih =>
    by_cases hsegment : isRedundant segment = true
    · obtain ⟨front, back, rfl, hfront, hback⟩ := ih ((spells_concat_of_isRedundant hsegment).mp h)
      refine ⟨front, back ++ [segment], by simp, hfront, ?_⟩
      rw [List.forall_mem_append, List.forall_mem_singleton]
      exact ⟨hback, hsegment⟩
    · rw [Bool.not_eq_true] at hsegment
      obtain ⟨before, heq, hbefore⟩ := (spells_concat_of_kept hsegment).mp h
      obtain ⟨rfl, hname⟩ := List.append_inj' heq rfl
      rw [List.singleton_inj] at hname
      exact ⟨segments, [], by simp [hname], hbefore, by simp⟩

end spells

/-! ## Going down -/

/-- Behind the segments `stem` the path goes down along the names `above`, and it ends in `name`. -/
def GoesDown (stem : List (List Char)) (above : List String) (name : String) (p : Path) : Prop :=
  ∃ front, p.segments = stem ++ front ++ [name.toList] ∧ Spells front above

variable {p q root : Path} {stem : List (List Char)} {above : List String} {name directory : String}

/-- The first segments of a path, joined, are the start of its text. -/
theorem prefix_intercalate_append {xs : List (List Char)} (hne : xs ≠ []) (ys : List (List Char)) :
    ['/'].intercalate xs <+: ['/'].intercalate (xs ++ ys) := by
  induction xs with
  | nil => exact absurd rfl hne
  | cons x rest ih =>
    cases rest with
    | nil =>
      cases ys with
      | nil => exact List.prefix_rfl
      | cons y ys =>
        rw [List.singleton_append, List.intercalate_singleton, List.intercalate_cons_cons,
          List.append_assoc]
        exact List.prefix_append _ _
    | cons next rest =>
      rw [List.cons_append, List.cons_append, List.intercalate_cons_cons,
        List.intercalate_cons_cons, List.prefix_append_right_inj]
      exact ih (List.cons_ne_nil _ _)

/-- With fewer segments a text is part of the text. -/
theorem intercalate_sublist {xs ys : List (List Char)} (h : xs.Sublist ys) :
    (['/'].intercalate xs).Sublist (['/'].intercalate ys) := by
  induction h with
  | slnil => exact .refl _
  | @cons xs ys y h ih =>
    cases ys with
    | nil =>
      rw [List.sublist_nil.mp h]
      exact List.nil_sublist _
    | cons next rest =>
      rw [List.intercalate_cons_cons]
      exact ih.trans (List.sublist_append_right _ _)
  | @cons_cons xs ys y h ih =>
    cases xs with
    | nil => exact (prefix_intercalate_append (List.cons_ne_nil y []) ys).sublist
    | cons x xs =>
      cases ys with
      | nil => cases h
      | cons next rest =>
        rw [List.intercalate_cons_cons, List.intercalate_cons_cons]
        exact (List.append_sublist_append_left _).mpr ih

/-- The directory of a path whose last segment counts is written from the segments before it. -/
theorem parent?_of_segments {first last : List Char} {middle : List (List Char)}
    (h : p.segments = first :: (middle ++ [last])) (hlast : isRedundant last = false) :
    p.parent? =
      if first.isEmpty && (dropEndWhile isRedundant middle).isEmpty then some ⟨"/"⟩
      else some ⟨String.ofList (['/'].intercalate (first :: dropEndWhile isRedundant middle))⟩ := by
  have hkept : dropEndWhile isRedundant (middle ++ [last]) = middle ++ [last] := by
    rw [dropEndWhile_eq_rdropWhile, List.rdropWhile_concat_neg _ _ _ (by simp [hlast])]
  obtain ⟨second, more, hcons⟩ := List.exists_cons_of_ne_nil (List.concat_ne_nil last middle)
  unfold parent?
  rw [h]
  dsimp only
  rw [hkept, hcons]
  dsimp only
  rw [← hcons, List.dropLast_concat]

/-- The directory of a path that goes down is found by going down to it. -/
theorem GoesDown.exists_parent? (h : GoesDown stem (above ++ [directory]) name p)
    (hname : IsFileName name) (hdirectory : IsFileName directory) :
    ∃ q, p.parent? = some q ∧ GoesDown stem above directory q ∧
      q.text.toList <+: p.text.toList := by
  obtain ⟨segments, hsegments, hspells⟩ := h
  obtain ⟨front, back, rfl, hfront, hback⟩ := hspells.exists_last
  -- the segments of the path are those of its directory, some that do not count, and the name
  have hparts : p.segments = (stem ++ front ++ [directory.toList]) ++ (back ++ [name.toList]) := by
    rw [hsegments]
    simp only [List.append_assoc]
  have hslash : ∀ segment ∈ stem ++ front ++ [directory.toList], '/' ∉ segment := by
    intro segment hsegment
    apply not_mem_of_mem_segments (p := p)
    rw [hparts]
    exact List.mem_append_left _ hsegment
  refine ⟨⟨String.ofList (['/'].intercalate (stem ++ front ++ [directory.toList]))⟩, ?_, ?_, ?_⟩
  · cases hstart : stem ++ front with
    | nil =>
      have hfirst : directory.toList.isEmpty = false := (Bool.or_eq_false_iff.mp hdirectory.kept).1
      have hnone : dropEndWhile isRedundant back = [] := List.rdropWhile_eq_nil_iff.mpr hback
      rw [hstart] at hparts
      rw [parent?_of_segments hparts hname.kept, hfirst, hnone]
      rfl
    | cons first more =>
      have hmiddle : p.segments =
          first :: ((more ++ [directory.toList] ++ back) ++ [name.toList]) := by
        rw [hparts, hstart]
        simp
      have hkept : dropEndWhile isRedundant (more ++ [directory.toList] ++ back) =
          more ++ [directory.toList] := by
        rw [dropEndWhile_append_right hback, dropEndWhile_eq_rdropWhile,
          List.rdropWhile_concat_neg _ _ _ (by simp [hdirectory.kept])]
      rw [parent?_of_segments hmiddle hname.kept, hkept]
      simp
  · refine ⟨front, ?_, hfront⟩
    rw [segments_ofSegments (by simp) hslash]
  · rw [String.toList_ofList, text_eq_intercalate p, hparts]
    exact prefix_intercalate_append (by simp) _

/-- The names of a path that goes down are found in its text. -/
theorem GoesDown.intercalate_sublist_text (h : GoesDown [] above name p) :
    (['/'].intercalate ((above ++ [name]).map String.toList)).Sublist p.text.toList := by
  obtain ⟨front, hsegments, hspells⟩ := h
  have hfront : (above.map String.toList).Sublist front := by
    rw [← hspells]
    exact List.filter_sublist
  rw [text_eq_intercalate p, hsegments, List.map_append, List.map_singleton, List.nil_append]
  exact intercalate_sublist (hfront.append (.refl _))

/-- A text of segments ends in the last one. -/
theorem suffix_intercalate (segments : List (List Char)) (last : List Char) :
    last <:+ ['/'].intercalate (segments ++ [last]) := by
  induction segments with
  | nil =>
    simp
  | cons segment rest ih =>
    cases rest with
    | nil =>
      rw [List.singleton_append, List.intercalate_cons_cons, List.intercalate_singleton]
      exact List.suffix_append _ _
    | cons next rest =>
      rw [List.cons_append, List.cons_append, List.intercalate_cons_cons]
      exact ih.trans (List.suffix_append _ _)

/-- The text of a path that goes down ends in its last name. -/
theorem GoesDown.suffix_text (h : GoesDown stem above name p) : name.toList <:+ p.text.toList := by
  obtain ⟨front, hsegments, -⟩ := h
  rw [text_eq_intercalate p, hsegments]
  exact suffix_intercalate _ _

/-- A character of such a text is a slash or is in one of the segments. -/
theorem mem_intercalate {c : Char} {segments : List (List Char)}
    (h : c ∈ ['/'].intercalate segments) : c = '/' ∨ ∃ segment ∈ segments, c ∈ segment := by
  induction segments with
  | nil => cases h
  | cons segment rest ih =>
    cases rest with
    | nil =>
      rw [List.intercalate_singleton] at h
      exact Or.inr ⟨segment, List.mem_cons_self, h⟩
    | cons next rest =>
      rw [List.intercalate_cons_cons, List.mem_append, List.mem_append, List.mem_singleton] at h
      rcases h with (hfirst | hslash) | hrest
      · exact Or.inr ⟨segment, List.mem_cons_self, hfirst⟩
      · exact Or.inl hslash
      · obtain hslash | ⟨other, hother, hmem⟩ := ih hrest
        · exact Or.inl hslash
        · exact Or.inr ⟨other, List.mem_cons_of_mem _ hother, hmem⟩

/-- The text of a path that goes down has the characters of its names, slashes and dots. -/
theorem GoesDown.mem_cases (h : GoesDown [] above name p) {c : Char} (hc : c ∈ p.text.toList) :
    c = '/' ∨ c = '.' ∨ ∃ other ∈ above ++ [name], c ∈ other.toList := by
  obtain ⟨front, hsegments, hspells⟩ := h
  rw [text_eq_intercalate p, hsegments, List.nil_append] at hc
  obtain hslash | ⟨segment, hsegment, hmem⟩ := mem_intercalate hc
  · exact Or.inl hslash
  · right
    rcases List.mem_append.mp hsegment with hfront | hlast
    · by_cases hredundant : isRedundant segment = true
      · -- only a dot is redundant and has a character
        unfold isRedundant at hredundant
        rw [Bool.or_eq_true, List.isEmpty_iff, beq_iff_eq] at hredundant
        rcases hredundant with rfl | rfl
        · cases hmem
        · exact Or.inl (List.mem_singleton.mp hmem)
      · have hkept : segment ∈ above.map String.toList := by
          rw [← hspells]
          exact List.mem_filter.mpr ⟨hfront, by simpa using hredundant⟩
        obtain ⟨other, hother, rfl⟩ := List.mem_map.mp hkept
        exact Or.inr ⟨other, List.mem_append_left _ hother, hmem⟩
    · rw [List.mem_singleton.mp hlast] at hmem
      exact Or.inr ⟨name, List.mem_append_right _ List.mem_cons_self, hmem⟩

/-- A path that goes down has a text. -/
theorem GoesDown.text_ne_empty (h : GoesDown stem above name p) (hname : IsFileName name) :
    p.text ≠ "" := by
  intro hempty
  obtain ⟨front, hsegments, -⟩ := h
  have hkept := hname.kept
  have hmem : name.toList ∈ p.segments := by simp [hsegments]
  unfold segments at hmem
  rw [hempty] at hmem
  rw [List.mem_singleton.mp hmem] at hkept
  cases hkept

/-- There is a directory above every path that goes down. -/
theorem GoesDown.exists_parent?_eq_some (h : GoesDown stem above name p) (hname : IsFileName name) :
    ∃ q, p.parent? = some q := by
  obtain ⟨front, hsegments, -⟩ := h
  cases hstart : stem ++ front with
  | nil =>
    have hfirst : name.toList.isEmpty = false := (Bool.or_eq_false_iff.mp hname.kept).1
    unfold parent?
    rw [hsegments, hstart]
    simp [hfirst]
  | cons first more =>
    rw [hstart] at hsegments
    rw [parent?_of_segments hsegments hname.kept]
    split_ifs <;> exact ⟨_, rfl⟩

/-- Each segment that counts is a component. -/
theorem length_filter_segments_le (hne : p.text ≠ "") :
    (p.segments.filter fun segment => !isRedundant segment).length ≤ p.components.length := by
  obtain ⟨first, rest, hsegments⟩ := exists_segments_eq_cons p
  rw [components_eq hsegments hne, hsegments, List.filter_cons, List.length_cons, componentsOf,
    List.length_map]
  split_ifs
  · exact le_rfl
  · exact Nat.le_succ _

/-- Each name along which a path goes down is a component. -/
theorem GoesDown.length_lt (h : GoesDown stem above name p) (hname : IsFileName name) :
    above.length < p.components.length := by
  have hle := length_filter_segments_le (h.text_ne_empty hname)
  obtain ⟨front, hsegments, hspells⟩ := h
  have habove : (front.filter fun segment => !isRedundant segment).length = above.length := by
    rw [hspells, List.length_map]
  have hlast : ([name.toList].filter fun segment => !isRedundant segment) = [name.toList] := by
    simp [hname.kept]
  rw [hsegments, List.filter_append, List.filter_append, hlast, List.length_append,
    List.length_append, List.length_singleton] at hle
  omega

/-! ## Going down from another directory -/

/-- The segments that lead to a directory, as a path seen from it starts. -/
def leading (root : Path) : List (List Char) :=
  if root.text.toList.getLast? = some '/' then root.segments.dropLast else root.segments

/-- A relative path as seen from a directory has the segments of both. -/
theorem segments_join (hroot : root.text ≠ "") (hq : q.isAbsolute = false) :
    (root.join q).segments = root.leading ++ q.segments := by
  have hempty : root.text.isEmpty = false := by simpa using hroot
  unfold join leading
  rw [hq, hempty, Bool.or_false, if_neg Bool.false_ne_true]
  by_cases hslash : root.text.toList.getLast? = some '/'
  · obtain ⟨above, habove⟩ := List.getLast?_eq_some_iff.mp hslash
    have htext : (⟨root.text ++ q.text⟩ : Path).text.toList = above ++ '/' :: q.text.toList := by
      simp [habove]
    rw [if_pos (by simp [hslash]), if_pos hslash, segments_of_text htext, segments_of_text habove,
      List.splitOn_nil, List.dropLast_concat]
    rfl
  · have htext : (⟨root.text ++ "/" ++ q.text⟩ : Path).text.toList =
        root.text.toList ++ '/' :: q.text.toList := by simp
    rw [if_neg (by simp [hslash]), if_neg hslash, segments_of_text htext]
    rfl

/-- A path that goes down does so as seen from another directory. -/
theorem GoesDown.join (h : GoesDown [] above name q) (hroot : root.text ≠ "")
    (hq : q.isAbsolute = false) : GoesDown root.leading above name (root.join q) := by
  obtain ⟨front, hsegments, hfront⟩ := h
  refine ⟨front, ?_, hfront⟩
  rw [segments_join hroot hq, hsegments]
  simp

/-- Part of a path is part of it as seen from a directory. -/
theorem join_sublist (hp : p.isAbsolute = false) (hq : q.isAbsolute = false)
    (h : q.text.toList.Sublist p.text.toList) :
    (root.join q).text.toList.Sublist (root.join p).text.toList := by
  unfold join
  rw [hp, hq, Bool.false_or]
  split_ifs
  · exact h
  · simpa using h
  · simpa using h

/-- A character of a joined path is in one of the two, or is the slash between them. -/
theorem mem_join {c : Char} (h : c ∈ (root.join q).text.toList) :
    c ∈ root.text.toList ∨ c = '/' ∨ c ∈ q.text.toList := by
  unfold join at h
  split_ifs at h
  · exact Or.inr (Or.inr h)
  · simp only [String.toList_append, List.mem_append] at h
    exact h.imp_right Or.inr
  · simpa [or_assoc] using h

/-! ## Paths by their components -/

/-- A path that starts with a name is relative. -/
theorem isAbsolute_of_components {rest : List Component}
    (h : p.components = .name name :: rest) : p.isAbsolute = false := by
  unfold isAbsolute
  rw [beq_eq_false_iff_ne]
  intro hhead
  obtain ⟨more, hmore⟩ := List.head?_eq_some_iff.mp hhead
  rw [← List.nil_append ('/' :: more)] at hmore
  have hroot : p.components.head? = some .root := head?_components_of_text hmore
  rw [h] at hroot
  cases hroot

/-- Segments whose components are names spell the names. -/
theorem spells_of_componentsOf {segments : List (List Char)} {names : List String}
    (h : componentsOf segments = names.map .name) : Spells segments names := by
  have hsegment : ∀ segment : List Char, ∀ name, Component.ofSegment segment = .name name →
      segment = name.toList := by
    intro segment name heq
    unfold Component.ofSegment at heq
    split_ifs at heq
    rw [← Component.name.inj heq, String.toList_ofList]
  unfold componentsOf at h
  unfold Spells
  generalize (segments.filter fun segment => !isRedundant segment) = kept at h ⊢
  induction kept generalizing names with
  | nil =>
    rw [List.map_nil] at h
    rw [List.map_eq_nil_iff.mp h.symm]
    rfl
  | cons segment kept ih =>
    cases names with
    | nil => cases h
    | cons name names =>
      obtain ⟨hfirst, hrest⟩ := List.cons.inj h
      rw [List.map_cons, hsegment segment name hfirst, ih hrest]

/-- The segments of a path spell its components, if these are names. -/
theorem spells_of_components (hne : p.text ≠ "") {names : List String}
    (h : p.components = names.map .name) : Spells p.segments names := by
  obtain ⟨first, rest, hsegments⟩ := exists_segments_eq_cons p
  rw [components_eq hsegments hne] at h
  obtain ⟨name, more, rfl⟩ : ∃ name more, names = name :: more := by
    cases names with
    | nil => cases h
    | cons name more => exact ⟨name, more, rfl⟩
  rw [List.map_cons] at h
  obtain ⟨hfirst, hrest⟩ := List.cons.inj h
  unfold Component.ofFirst at hfirst
  split_ifs at hfirst with hempty hdot
  have hkept : isRedundant first = false := by
    unfold isRedundant
    rw [Bool.or_eq_false_iff]
    exact ⟨Bool.eq_false_iff.mpr hempty, Bool.eq_false_iff.mpr hdot⟩
  rw [hsegments]
  apply spells_of_componentsOf
  rw [← List.singleton_append, componentsOf_append, componentsOf_singleton hkept, hfirst, hrest]
  rfl

/-- A path with an ordinary ending has a last segment that counts. -/
theorem exists_segments_eq_concat {front ending : List Char}
    (htext : p.text.toList = front ++ ending) (hending : IsOrdinary ending) :
    ∃ before last, p.segments = before ++ [last] ∧ isRedundant last = false := by
  have hkept : ∀ last, IsOrdinary last → isRedundant last = false := by
    intro last hlast
    obtain ⟨c, hc, hdot⟩ := hlast.exists_ne_dot
    have hname : IsFileName (String.ofList last) :=
      isFileName_of_mem (by simpa using hlast.noSlash) (by simpa using hc) hdot
    simpa using hname.kept
  by_cases hslash : '/' ∈ front
  · obtain ⟨before, back, rfl, hback⟩ := exists_last_slash hslash
    have hlast : '/' ∉ back ++ ending := by simp [hback, hending.noSlash]
    have hparts : p.text.toList = before ++ '/' :: (back ++ ending) := by simp [htext]
    refine ⟨before.splitOn '/', back ++ ending, ?_, hkept _ (hending.append_right hback)⟩
    rw [segments_of_text hparts, List.splitOn_eq_singleton hlast]
  · refine ⟨[], front ++ ending, ?_, hkept _ (hending.append_right hslash)⟩
    unfold segments
    rw [htext, List.splitOn_eq_singleton (hending.append_right hslash).noSlash]
    rfl

/-- A path whose components are names goes down along them, if it has an ordinary ending. -/
theorem goesDown_of_components {names : List String} (h : p.components = names.map .name)
    {front ending : List Char} (htext : p.text.toList = front ++ ending)
    (hending : IsOrdinary ending) :
    ∃ above name, names = above ++ [name] ∧ GoesDown [] above name p := by
  obtain ⟨before, last, hsegments, hlast⟩ := exists_segments_eq_concat htext hending
  have hne : p.text ≠ "" := by
    intro hempty
    obtain ⟨c, hc, -⟩ := hending.exists_ne_dot
    have hmem : c ∈ p.text.toList := by simp [htext, hc]
    simp [hempty] at hmem
  have hspells := spells_of_components hne h
  rw [hsegments, spells_concat_of_kept hlast] at hspells
  obtain ⟨above, rfl, habove⟩ := hspells
  refine ⟨above, _, rfl, before, ?_, habove⟩
  rw [hsegments, String.toList_ofList]
  rfl

end Path

end Scaffold
