import Mathlib.Data.List.Basic
import Scaffold.Proofs.Path

/-!
# Paths that stay inside

A path stays inside the directory from which it is seen if it is relative and none of its components
leads to the directory above (`IsInside`). What a name adds to a path it adds between slashes, so
that this can be said of the parts of a text: main statements are that a path in a directory stays
inside exactly if the directory does and the name does (`isInside_child_iff`), and that the
directory of a path that stays inside stays inside (`IsInside.directory?`).
-/

namespace Scaffold

open Text

namespace Path

/-- The path is relative, and none of its components leads to the directory above. -/
def IsInside (p : Path) : Prop :=
  p.isAbsolute = false ∧ .up ∉ p.components

instance (p : Path) : Decidable p.IsInside :=
  inferInstanceAs (Decidable (_ ∧ _))

/-! ## Texts between slashes -/

/-- No text between slashes stands for the directory above. -/
def StaysBelow (cs : List Char) : Prop :=
  ['.', '.'] ∉ cs.splitOn '/'

/-- A text that is one component of a path whatever is written before and after it: it has no slash,
and it is not made of dots alone. -/
structure IsOrdinary (cs : List Char) : Prop where
  /-- It has no slash. -/
  noSlash : '/' ∉ cs
  /-- It is not made of dots alone. -/
  exists_ne_dot : ∃ c ∈ cs, c ≠ '.'

section staysBelow

variable {cs front back ending ending' : List Char}

/-- An ordinary text stays ordinary with something behind it. -/
theorem IsOrdinary.append_left (h : IsOrdinary cs) (hslash : '/' ∉ back) :
    IsOrdinary (cs ++ back) where
  noSlash := by simp [h.noSlash, hslash]
  exists_ne_dot := by
    obtain ⟨c, hc, hdot⟩ := h.exists_ne_dot
    exact ⟨c, List.mem_append_left _ hc, hdot⟩

/-- An ordinary text stays ordinary with something in front of it. -/
theorem IsOrdinary.append_right (h : IsOrdinary cs) (hslash : '/' ∉ front) :
    IsOrdinary (front ++ cs) where
  noSlash := by simp [h.noSlash, hslash]
  exists_ne_dot := by
    obtain ⟨c, hc, hdot⟩ := h.exists_ne_dot
    exact ⟨c, List.mem_append_right _ hc, hdot⟩

/-- An ordinary text leads to no directory above. -/
theorem IsOrdinary.staysBelow (h : IsOrdinary cs) : StaysBelow cs := by
  unfold StaysBelow
  rw [List.splitOn_eq_singleton h.noSlash, List.mem_singleton]
  rintro rfl
  obtain ⟨c, hc, hdot⟩ := h.exists_ne_dot
  exact hdot (by simpa using hc)

/-- Two parts around a slash stay below exactly if each does. -/
theorem staysBelow_append_iff : StaysBelow (front ++ '/' :: back) ↔
    StaysBelow front ∧ StaysBelow back := by
  unfold StaysBelow
  rw [List.splitOn_append_cons_self, List.mem_append, not_or]

/-- A text that stays below does so behind an ordinary one. -/
theorem StaysBelow.prepend (h : StaysBelow cs) (hfront : IsOrdinary front) :
    StaysBelow (front ++ cs) := by
  by_cases hcs : '/' ∈ cs
  · obtain ⟨first, rest, rfl, hfirst⟩ := List.eq_append_cons_of_mem hcs
    rw [← List.append_assoc, staysBelow_append_iff]
    exact ⟨(hfront.append_left hfirst).staysBelow, (staysBelow_append_iff.mp h).2⟩
  · exact (hfront.append_left hcs).staysBelow

/-- A text with a slash has a last one. -/
theorem exists_last_slash (h : '/' ∈ cs) :
    ∃ front back, cs = front ++ '/' :: back ∧ '/' ∉ back := by
  obtain ⟨before, after, heq, hbefore⟩ := List.eq_append_cons_of_mem (List.mem_reverse.mpr h)
  refine ⟨after.reverse, before.reverse, ?_, by simpa using hbefore⟩
  rw [← List.reverse_reverse cs, heq]
  simp

/-- With an ordinary ending only what precedes the last slash matters. -/
theorem staysBelow_append_ending_iff (hback : '/' ∉ back) (hending : IsOrdinary ending) :
    StaysBelow (front ++ '/' :: back ++ ending) ↔ StaysBelow front := by
  rw [List.append_assoc, List.cons_append, staysBelow_append_iff]
  exact and_iff_left (hending.append_right hback).staysBelow

/-- It does so in front of an ordinary one. -/
theorem StaysBelow.append (h : StaysBelow cs) (hending : IsOrdinary ending) :
    StaysBelow (cs ++ ending) := by
  by_cases hcs : '/' ∈ cs
  · obtain ⟨front, back, rfl, hback⟩ := exists_last_slash hcs
    exact (staysBelow_append_ending_iff hback hending).mpr (staysBelow_append_iff.mp h).1
  · exact (hending.append_right hcs).staysBelow

/-- Which ordinary ending a text is given does not matter. -/
theorem StaysBelow.change_ending (h : StaysBelow (cs ++ ending)) (hending : IsOrdinary ending)
    (hending' : IsOrdinary ending') : StaysBelow (cs ++ ending') := by
  by_cases hcs : '/' ∈ cs
  · obtain ⟨front, back, rfl, hback⟩ := exists_last_slash hcs
    rw [staysBelow_append_ending_iff hback hending] at h
    exact (staysBelow_append_ending_iff hback hending').mpr h
  · exact (hending'.append_right hcs).staysBelow

end staysBelow

/-! ## Paths and their texts -/

variable {p q : Path} {name : String}

/-- Two dots stand for the directory above, and nothing else does. -/
theorem Component.ofSegment_eq_up_iff {segment : List Char} :
    Component.ofSegment segment = .up ↔ segment = ['.', '.'] := by
  unfold Component.ofSegment
  by_cases hup : segment = ['.', '.'] <;> simp [hup]

/-- The same at the start of a path. -/
theorem Component.ofFirst_eq_up_iff {first : List Char} :
    Component.ofFirst first = .up ↔ first = ['.', '.'] := by
  unfold Component.ofFirst
  split_ifs with hempty hdot
  · rw [List.isEmpty_iff.mp hempty]
    simp
  · rw [eq_of_beq hdot]
    simp
  · exact Component.ofSegment_eq_up_iff

/-- Segments lead up exactly if one of them is two dots. -/
theorem up_mem_componentsOf_iff {segments : List (List Char)} :
    .up ∈ componentsOf segments ↔ ['.', '.'] ∈ segments := by
  unfold componentsOf
  rw [List.mem_map]
  constructor
  · rintro ⟨segment, hsegment, hup⟩
    rw [Component.ofSegment_eq_up_iff.mp hup] at hsegment
    exact List.mem_of_mem_filter hsegment
  · intro hmem
    exact ⟨_, List.mem_filter.mpr ⟨hmem, rfl⟩, rfl⟩

/-- A path leads up exactly if one of its segments is two dots. -/
theorem up_mem_components_iff : .up ∈ p.components ↔ ['.', '.'] ∈ p.segments := by
  by_cases hempty : p.text = ""
  · unfold components segments
    rw [hempty]
    decide
  · obtain ⟨first, rest, hsegments⟩ := exists_segments_eq_cons p
    rw [components_eq hsegments hempty, hsegments, List.mem_cons, List.mem_cons,
      up_mem_componentsOf_iff]
    exact or_congr_left (eq_comm.trans (Component.ofFirst_eq_up_iff.trans eq_comm))

/-- A path stays inside if it is relative and no segment is two dots. -/
theorem isInside_iff_segments :
    p.IsInside ↔ p.text.toList.head? ≠ some '/' ∧ ['.', '.'] ∉ p.segments := by
  unfold IsInside isAbsolute
  rw [up_mem_components_iff, beq_eq_false_iff_ne]

/-- The same, said of the text of the path. -/
theorem isInside_iff :
    p.IsInside ↔ p.text.toList.head? ≠ some '/' ∧ StaysBelow p.text.toList :=
  isInside_iff_segments

section endings

variable {front stem ending ending' : String}

/-- Whether a file stays inside does not depend on the ending of its name. -/
theorem IsInside.change_ending (h : (⟨stem ++ ending⟩ : Path).IsInside)
    (hending : IsOrdinary ending.toList) (hending' : IsOrdinary ending'.toList) :
    (⟨stem ++ ending'⟩ : Path).IsInside := by
  rw [isInside_iff, String.toList_append] at h ⊢
  refine ⟨?_, h.2.change_ending hending hending'⟩
  cases hstem : stem.toList with
  | nil => exact fun hhead => hending'.noSlash (List.mem_of_mem_head? hhead)
  | cons c rest =>
    rw [hstem] at h
    exact h.1

/-- A name that is surrounded by ordinary texts stays inside where it does on its own. -/
theorem IsInside.surround (h : (⟨stem⟩ : Path).IsInside) (hfront : IsOrdinary front.toList)
    (hending : IsOrdinary ending.toList) : (⟨front ++ stem ++ ending⟩ : Path).IsInside := by
  rw [isInside_iff, String.toList_append, String.toList_append]
  refine ⟨?_, ((isInside_iff.mp h).2.prepend hfront).append hending⟩
  obtain ⟨c, hc, -⟩ := hfront.exists_ne_dot
  obtain ⟨first, rest, heq⟩ := List.exists_cons_of_ne_nil (List.ne_nil_of_mem hc)
  intro hhead
  apply hfront.noSlash
  rw [heq] at hhead ⊢
  exact List.mem_of_mem_head? hhead

end endings

/-! ## What is in a directory -/

/-- What is in a directory stays inside if the directory stays inside and the name does. -/
theorem isInside_child_iff : (p.child name).IsInside ↔ p.IsInside ∧ (⟨name⟩ : Path).IsInside := by
  unfold child join
  by_cases habsolute : (⟨name⟩ : Path).isAbsolute = true
  · -- an absolute name leads away at once
    have hout : ¬(⟨name⟩ : Path).IsInside := by
      intro hinside
      rw [hinside.1] at habsolute
      cases habsolute
    rw [habsolute, Bool.true_or, if_pos rfl]
    exact iff_of_false hout fun hboth => hout hboth.2
  rw [Bool.not_eq_true] at habsolute
  have hrelative : name.toList.head? ≠ some '/' := by
    simpa [isAbsolute] using habsolute
  have hname : (⟨name⟩ : Path).IsInside ↔ StaysBelow name.toList :=
    isInside_iff.trans (and_iff_right hrelative)
  rw [habsolute, Bool.false_or, hname]
  split_ifs with hempty hslash
  · have htext : p.text = "" := by simpa using hempty
    have hp : p.IsInside := by
      rw [isInside_iff, htext]
      exact ⟨by decide, by unfold StaysBelow; decide⟩
    rw [hname]
    exact (and_iff_right hp).symm
  · obtain ⟨above, habove⟩ := List.getLast?_eq_some_iff.mp (by simpa using hslash)
    have hnil : StaysBelow [] := by
      unfold StaysBelow
      decide
    have hhead : (above ++ '/' :: name.toList).head? = (above ++ ['/']).head? := by
      cases above <;> rfl
    rw [isInside_iff, isInside_iff, String.toList_append, habove, List.append_assoc,
      List.singleton_append, staysBelow_append_iff, staysBelow_append_iff, hhead]
    simp only [hnil, and_true, and_assoc]
  · have hne : p.text.toList ≠ [] := by simpa using hempty
    have hhead : (p.text.toList ++ '/' :: name.toList).head? = p.text.toList.head? := by
      obtain ⟨first, rest, heq⟩ := List.exists_cons_of_ne_nil hne
      rw [heq]
      rfl
    have htext : (p.text ++ "/" ++ name).toList = p.text.toList ++ '/' :: name.toList := by simp
    rw [isInside_iff, isInside_iff, htext, staysBelow_append_iff, hhead, and_assoc]

/-- A path starts as its first segment does, unless that is empty. -/
theorem head?_text_ofSegments {first : List Char} (hfirst : first ≠ []) (rest : List (List Char)) :
    (['/'].intercalate (first :: rest)).head? = first.head? := by
  obtain ⟨c, more, rfl⟩ := List.exists_cons_of_ne_nil hfirst
  cases rest <;> simp [List.intercalate]

/-- The directory of a path that stays inside stays inside. -/
theorem IsInside.directory? (h : p.IsInside) (hdirectory : p.directory? = some q) : q.IsInside := by
  have hparent : p.parent? = some q := (Option.filter_eq_some_iff.mp hdirectory).1
  obtain ⟨first, rest, hsegments⟩ := exists_segments_eq_cons p
  obtain ⟨hrelative, hup⟩ := isInside_iff_segments.mp h
  rw [hsegments] at hup
  unfold parent? at hparent
  rw [hsegments] at hparent
  dsimp only at hparent
  by_cases hfirst : first = []
  · -- a relative path whose first segment is empty is empty itself
    have hrest : rest = [] := by
      by_contra hne
      obtain ⟨second, more, rfl⟩ := List.exists_cons_of_ne_nil hne
      apply hrelative
      rw [text_eq_intercalate, hsegments, hfirst]
      simp [List.intercalate]
    rw [hfirst, hrest] at hparent
    cases hparent
  · have hempty : first.isEmpty = false := by simpa using hfirst
    rw [hempty] at hparent
    split at hparent
    · obtain rfl := Option.some.inj hparent
      decide
    · rw [Bool.false_and, if_neg Bool.false_ne_true] at hparent
      obtain rfl := Option.some.inj hparent
      -- the segments of the directory are among those of the path
      have hkept : ∀ segments, dropEndWhile isRedundant segments ⊆ segments :=
        fun segments => (List.rdropWhile_prefix isRedundant segments).subset
      have hsub : first :: dropEndWhile isRedundant (dropEndWhile isRedundant rest).dropLast ⊆
          first :: rest := by
        apply List.cons_subset_cons
        intro segment hsegment
        exact hkept rest (List.dropLast_subset _ (hkept _ hsegment))
      have hslash : ∀ segment ∈ first :: rest, '/' ∉ segment := by
        rw [← hsegments]
        exact fun segment => not_mem_of_mem_segments
      have hdirsegments := segments_ofSegments (List.cons_ne_nil _ _) fun segment hsegment =>
        hslash segment (hsub hsegment)
      rw [isInside_iff_segments, hdirsegments]
      refine ⟨?_, fun hmem => hup (hsub hmem)⟩
      rw [String.toList_ofList, head?_text_ofSegments hfirst]
      intro hhead
      exact hslash first List.mem_cons_self (List.mem_of_mem_head? hhead)

end Path

end Scaffold
