import Mathlib.Data.List.Perm.Subperm
import Mathlib.Tactic.SplitIfs

/-!
# Lists without repetitions

Several scans in this library keep the entries that have not been met before, each where it comes
first. What such a scan finds is `(xs.filter (· ∉ met)).eraseDups`, where `met` are the entries met
before it; `eraseDups_filter_notMem_cons` is one of its steps. Nothing is lost by it: what was found
and what was dropped make up the list (`eraseDups_append_diff_perm`).
-/

namespace Scaffold

variable {α : Type} [DecidableEq α]

/-- The first entry is found if it is new, and is no longer new behind its place. -/
theorem eraseDups_filter_notMem_cons (met xs : List α) (x : α) :
    ((x :: xs).filter (· ∉ met)).eraseDups =
      if x ∈ met then (xs.filter (· ∉ met)).eraseDups
      else x :: (xs.filter (· ∉ x :: met)).eraseDups := by
  split_ifs with hmet
  · simp [hmet]
  · have hfilter : (xs.filter (· ∉ met)).filter (fun y => !y == x) = xs.filter (· ∉ x :: met) := by
      rw [List.filter_filter]
      apply List.filter_congr
      intro y _
      by_cases hsame : y = x <;> simp [hsame]
    have hkeep : (x :: xs).filter (· ∉ met) = x :: xs.filter (· ∉ met) := by simp [hmet]
    rw [hkeep, List.eraseDups_cons, hfilter]

/-- What a scan finds stands in the list in the same order. -/
theorem eraseDups_filter_notMem_sublist (met xs : List α) :
    (xs.filter (· ∉ met)).eraseDups.Sublist xs := by
  induction xs generalizing met with
  | nil => exact List.Sublist.refl []
  | cons x xs ih =>
    rw [eraseDups_filter_notMem_cons]
    split_ifs
    · exact (ih met).cons x
    · exact (ih (x :: met)).cons_cons x

/-- Without its repetitions a list is a sublist of itself. -/
theorem eraseDups_sublist (xs : List α) : xs.eraseDups.Sublist xs := by
  have h := eraseDups_filter_notMem_sublist [] xs
  simpa using h

/-- A scan finds nothing twice. -/
theorem nodup_eraseDups_filter_notMem (met xs : List α) :
    (xs.filter (· ∉ met)).eraseDups.Nodup := by
  induction xs generalizing met with
  | nil => exact List.nodup_nil
  | cons x xs ih =>
    rw [eraseDups_filter_notMem_cons]
    split_ifs
    · exact ih met
    · refine List.nodup_cons.mpr ⟨fun hx => ?_, ih (x :: met)⟩
      have hnew := List.of_mem_filter ((eraseDups_sublist _).mem hx)
      simp at hnew

/-- It repeats nothing. -/
theorem nodup_eraseDups (xs : List α) : xs.eraseDups.Nodup := by
  have h := nodup_eraseDups_filter_notMem [] xs
  simpa using h

/-- The entries that come first and those that come again are all entries. -/
theorem eraseDups_append_diff_perm (xs : List α) :
    (xs.eraseDups ++ xs.diff xs.eraseDups).Perm xs :=
  List.subperm_append_diff_self_of_count_le fun x _ => (eraseDups_sublist xs).count_le x

end Scaffold
