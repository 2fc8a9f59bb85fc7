import Mathlib.Data.List.Basic
import Scaffold.Path

/-!
# The order of paths

Paths are compared component by component, and of two paths one does not come after the other
(`notAfter_total`, `notAfter_trans`), so that sorting puts them in order (`pairwise_mergeSort`).
Files of one directory are in the order of their names (`notAfter_iff_of_components`).
-/

namespace Scaffold.Path

namespace Component

variable {a b c : Component}

/-- Names are in the order of their texts. -/
theorem notAfter_name {a b : String} : (name a).notAfter (name b) = true ↔ a ≤ b := by
  unfold notAfter
  rw [Bool.not_eq_true', decide_eq_false_iff_not, String.not_lt]

/-- Of two components one is not after the other. -/
theorem notAfter_total (a b : Component) : a.notAfter b = true ∨ b.notAfter a = true := by
  cases a with
  | name first =>
    cases b with
    | name second => simpa only [notAfter_name] using String.le_total first second
    | _ => exact Or.inr rfl
  | _ => cases b <;> simp [notAfter, rank]

/-- The order of components is transitive. -/
theorem notAfter_trans (hab : a.notAfter b = true) (hbc : b.notAfter c = true) :
    a.notAfter c = true := by
  cases a <;> cases b <;> cases c <;> first
    | exact notAfter_name.mpr (String.le_trans (notAfter_name.mp hab) (notAfter_name.mp hbc))
    | simp_all [notAfter, rank]

/-- Two components that are not after each other are the same. -/
theorem notAfter_antisymm (hab : a.notAfter b = true) (hba : b.notAfter a = true) : a = b := by
  cases a <;> cases b <;> first
    | exact congrArg name (String.le_antisymm (notAfter_name.mp hab) (notAfter_name.mp hba))
    | simp_all [notAfter, rank]

end Component

/-- Of two lists of components one is not after the other. -/
theorem notAfterComponents_total (as bs : List Component) :
    notAfterComponents as bs = true ∨ notAfterComponents bs as = true := by
  induction as generalizing bs with
  | nil => exact Or.inl rfl
  | cons a as ih =>
    cases bs with
    | nil => exact Or.inr rfl
    | cons b bs =>
      unfold notAfterComponents
      by_cases heq : a = b
      · rw [if_pos heq, if_pos heq.symm]
        exact ih bs
      · rw [if_neg heq, if_neg (Ne.symm heq)]
        exact Component.notAfter_total a b

/-- Their order is transitive. -/
theorem notAfterComponents_trans {as bs cs : List Component}
    (hab : notAfterComponents as bs = true) (hbc : notAfterComponents bs cs = true) :
    notAfterComponents as cs = true := by
  induction as generalizing bs cs with
  | nil => rfl
  | cons a as ih =>
    cases bs with
    | nil => cases hab
    | cons b bs =>
      cases cs with
      | nil => cases hbc
      | cons c cs =>
        unfold notAfterComponents at hab hbc ⊢
        by_cases hfirst : a = b
        · subst hfirst
          rw [if_pos rfl] at hab
          split_ifs at hbc ⊢ with heq
          · exact ih hab hbc
          · exact hbc
        · rw [if_neg hfirst] at hab
          by_cases hsecond : b = c
          · subst hsecond
            rw [if_neg hfirst]
            exact hab
          · -- the first components decide, since they cannot come before and after one another
            rw [if_neg hsecond] at hbc
            have hne : a ≠ c := by
              rintro rfl
              exact hfirst (Component.notAfter_antisymm hab hbc)
            rw [if_neg hne]
            exact Component.notAfter_trans hab hbc

variable {p q r : Path}

/-- Of two paths one is not after the other. -/
theorem notAfter_total (p q : Path) : p.notAfter q = true ∨ q.notAfter p = true :=
  notAfterComponents_total p.components q.components

/-- The order of paths is transitive. -/
theorem notAfter_trans (hpq : p.notAfter q = true) (hqr : q.notAfter r = true) :
    p.notAfter r = true :=
  notAfterComponents_trans hpq hqr

/-- Sorting puts paths in order. -/
theorem pairwise_mergeSort (paths : List Path) :
    (paths.mergeSort notAfter).Pairwise fun p q => p.notAfter q = true := by
  apply List.pairwise_mergeSort
  · intro p q r hpq hqr
    exact notAfter_trans hpq hqr
  · intro p q
    rw [Bool.or_eq_true]
    exact notAfter_total p q

/-- What is the same at the start does not matter for the order. -/
theorem notAfterComponents_append (front as bs : List Component) :
    notAfterComponents (front ++ as) (front ++ bs) = notAfterComponents as bs := by
  induction front with
  | nil => rfl
  | cons a front ih =>
    rw [List.cons_append, List.cons_append, notAfterComponents, if_pos rfl, ih]

/-- In one directory files come in the order of their names. -/
theorem notAfter_iff_of_components {front : List Component} {first second : String}
    (hp : p.components = front ++ [.name first]) (hq : q.components = front ++ [.name second]) :
    p.notAfter q = true ↔ first ≤ second := by
  unfold notAfter
  rw [hp, hq, notAfterComponents_append, notAfterComponents]
  split_ifs with heq
  · rw [Component.name.inj heq]
    simp [notAfterComponents]
  · exact Component.notAfter_name

end Scaffold.Path
