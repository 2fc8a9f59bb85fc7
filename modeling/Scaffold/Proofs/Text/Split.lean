import Mathlib.Data.List.Basic
import Mathlib.Tactic.SplitIfs
import Scaffold.Text.Split

/-!
# Cutting and joining text

What is cut at a character does not have it (`not_mem_of_mem_splitOn`), and what is joined with one
is made of that character and of all the parts (`mem_intercalate`, `subset_intercalate`), and starts
and ends with one of them (`exists_mem_of_head?_intercalate`, `exists_mem_of_getLast?_intercalate`).
-/

namespace Scaffold.Text

/-- No segment has the separator in it. -/
theorem not_mem_of_mem_splitOn {a : Char} {xs segment : List Char} (h : segment ∈ xs.splitOn a) :
    a ∉ segment := by
  induction xs generalizing segment with
  | nil => simp_all
  | cons x rest ih =>
    rw [List.splitOn_cons_eq_if_modifyHead] at h
    split_ifs at h with hx
    · rcases List.mem_cons.mp h with rfl | h
      · exact List.not_mem_nil
      · exact ih h
    · obtain ⟨first, more, hsplit⟩ := List.exists_cons_of_ne_nil (List.splitOn_ne_nil a rest)
      rw [hsplit, List.modifyHead_cons] at h
      rcases List.mem_cons.mp h with rfl | h
      · have hfirst : a ∉ first := ih (hsplit ▸ List.mem_cons_self)
        simp only [beq_iff_eq] at hx
        intro hmem
        exact (List.mem_cons.mp hmem).elim (fun heq => hx heq.symm) hfirst
      · exact ih (hsplit ▸ List.mem_cons_of_mem _ h)

/-- What is in joined parts is the separator or is in a part. -/
theorem mem_intercalate {d sep : Char} {parts : List (List Char)}
    (h : d ∈ [sep].intercalate parts) : d = sep ∨ ∃ part ∈ parts, d ∈ part := by
  induction parts with
  | nil => exact absurd h List.not_mem_nil
  | cons part rest ih =>
    cases rest with
    | nil => exact Or.inr ⟨part, by simp, by simpa using h⟩
    | cons next rest =>
      rw [List.intercalate_cons_cons, List.append_assoc, List.mem_append, List.mem_append,
        List.mem_singleton] at h
      rcases h with hpart | hsep | hrest
      · exact Or.inr ⟨part, List.mem_cons_self, hpart⟩
      · exact Or.inl hsep
      · exact (ih hrest).imp_right fun ⟨other, hother, hmem⟩ =>
          ⟨other, List.mem_cons_of_mem _ hother, hmem⟩

/-- Each part is in the joined text. -/
theorem subset_intercalate {sep : List Char} {parts : List (List Char)} {part : List Char}
    (h : part ∈ parts) : part ⊆ sep.intercalate parts := by
  induction parts with
  | nil => exact absurd h List.not_mem_nil
  | cons first rest ih =>
    cases rest with
    | nil =>
      rw [List.mem_singleton.mp h, List.intercalate_singleton]
      exact List.Subset.refl first
    | cons next rest =>
      rw [List.intercalate_cons_cons, List.append_assoc]
      rcases List.mem_cons.mp h with rfl | hrest
      · exact List.subset_append_left _ _
      · apply List.subset_append_of_subset_right
        apply List.subset_append_of_subset_right
        exact ih hrest

section ends

variable {d : Char} {sep : List Char} {parts : List (List Char)}

/-- Parts that are not empty join to a text that is not. -/
theorem intercalate_ne_nil (hne : parts ≠ []) (h : ∀ part ∈ parts, part ≠ []) :
    sep.intercalate parts ≠ [] := by
  obtain ⟨part, hpart⟩ := List.exists_mem_of_ne_nil parts hne
  obtain ⟨d, hd⟩ := List.exists_mem_of_ne_nil part (h part hpart)
  exact List.ne_nil_of_mem (subset_intercalate hpart hd)

/-- What is joined starts with one of the parts. -/
theorem exists_mem_of_head?_intercalate (h : ∀ part ∈ parts, part ≠ [])
    (hd : (sep.intercalate parts).head? = some d) : ∃ part ∈ parts, d ∈ part := by
  cases parts with
  | nil => cases hd
  | cons first rest =>
    refine ⟨first, List.mem_cons_self, List.mem_of_head? ?_⟩
    cases rest with
    | nil => rwa [List.intercalate_singleton] at hd
    | cons next rest =>
      rwa [List.intercalate_cons_cons, List.append_assoc,
        List.head?_append_of_ne_nil _ (h first List.mem_cons_self)] at hd

/-- What is joined ends with one of the parts. -/
theorem exists_mem_of_getLast?_intercalate (h : ∀ part ∈ parts, part ≠ [])
    (hd : (sep.intercalate parts).getLast? = some d) : ∃ part ∈ parts, d ∈ part := by
  induction parts with
  | nil => cases hd
  | cons first rest ih =>
    rw [List.forall_mem_cons] at h
    cases rest with
    | nil =>
      rw [List.intercalate_singleton] at hd
      exact ⟨first, List.mem_cons_self, List.mem_of_getLast? hd⟩
    | cons next rest =>
      rw [List.intercalate_cons_cons,
        List.getLast?_append_of_ne_nil _ (intercalate_ne_nil (List.cons_ne_nil _ _) h.2)] at hd
      obtain ⟨part, hpart, hmem⟩ := ih h.2 hd
      exact ⟨part, List.mem_cons_of_mem _ hpart, hmem⟩

end ends

/-- A prefix is taken off exactly if it stands in front of the rest. -/
theorem isPrefixOf?_eq_some_iff {α : Type} [BEq α] [LawfulBEq α] {xs ys rest : List α} :
    xs.isPrefixOf? ys = some rest ↔ xs ++ rest = ys := by
  induction xs generalizing ys with
  | nil =>
    change some ys = some rest ↔ rest = ys
    rw [Option.some.injEq, eq_comm]
  | cons x xs ih =>
    cases ys with
    | nil =>
      constructor
      · intro h
        cases h
      · intro h
        cases h
    | cons y ys =>
      change (if x == y then xs.isPrefixOf? ys else none) = some rest ↔ _
      rw [List.cons_append, List.cons.injEq]
      split_ifs with heq
      · simp [ih, eq_of_beq heq]
      · constructor
        · intro h
          cases h
        · intro h
          exact absurd (beq_iff_eq.mpr h.1) heq

end Scaffold.Text
