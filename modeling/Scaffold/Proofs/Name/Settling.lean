import Mathlib.Logic.Function.Iterate
import Scaffold.Proofs.Name.Exchange

/-!
# How soon the singular settles

A word can be put into the singular again and again. Main statement: from the second time on nothing
changes, and the second time changes something exactly if the word is one of ten plurals with one
more `s` behind it (`singularizeWord_settles`).

A singular that is not settled is the plural of an irregular word, and the table leads it to a word
that is settled (`isFixedPt_singularizeWord`). The rules give such a plural only by taking an `s`
off, for no irregular plural has an ending that another rule leaves behind; and they take an `s` off
only if no other one stands before it (`singularizeWord_mem_plurals_iff`).
-/

namespace Scaffold.Name

variable {word : List Char}

/-- The irregular plurals that do not look like plurals: they do not end in `s`. -/
def barePlurals : List (List Char) :=
  (irregular.map Prod.snd).filter fun plural => !endsIn "s" plural

/-- The bare plurals are the irregular ones that do not end in an s. -/
theorem mem_barePlurals_iff {plural : List Char} :
    plural ∈ barePlurals ↔ plural ∈ irregular.map Prod.snd ∧ ¬"s".toList <:+ plural := by
  rw [barePlurals, List.mem_filter, Bool.not_eq_true', ← Bool.not_eq_true, endsIn_iff]

/-- The singular of a word is an irregular plural exactly if the word is such a plural with an `s`
behind it, and the plural has none of its own. -/
theorem singularizeWord_mem_plurals_iff :
    singularizeWord word ∈ irregular.map Prod.snd ↔
      ∃ plural ∈ barePlurals, word = plural ++ "s".toList := by
  have hendings : ∀ plural ∈ irregular.map Prod.snd,
      ¬endsInAny ["y", "ss", "x", "zz", "ch", "sh", "us"] plural = true := by
    decide +kernel
  have htaken : ∀ plural ∈ barePlurals, singularizeWord (plural ++ "s".toList) = plural := by
    decide +kernel
  constructor
  · intro hmem
    -- a plural that a word already is would be led to its singular, which is no plural
    have hchanged : singularizeWord word ≠ word := by
      intro heq
      have hsingular := singularizeWord_mem_singulars (heq ▸ hmem)
      exact notMem_plurals _ (List.mem_append_right _ hsingular) hmem
    rcases singularizeWord_cases word with ⟨-, heq⟩ | hpair | ⟨-, heq⟩
    · exact absurd heq hchanged
    · have hsingular := List.mem_map_of_mem (f := Prod.fst) hpair
      exact absurd hmem (notMem_plurals _ (List.mem_append_right _ hsingular))
    rw [heq] at hmem hchanged
    rcases singularBySuffix_cases word with hsame | hends | ⟨hword, hs⟩
    · exact absurd hsame hchanged
    · exact absurd (endsInAny_iff.mpr hends) (hendings _ hmem)
    · exact ⟨_, mem_barePlurals_iff.mpr ⟨hmem, hs⟩, hword⟩
  · rintro ⟨plural, hbare, rfl⟩
    rw [htaken plural hbare]
    exact (mem_barePlurals_iff.mp hbare).1

/-- What a word comes to in two steps is settled. -/
theorem isFixedPt_singularizeWord (word : List Char) :
    Function.IsFixedPt singularizeWord (singularizeWord^[2] word) := by
  change singularizeWord (singularizeWord (singularizeWord word)) =
    singularizeWord (singularizeWord word)
  by_cases hplural : singularizeWord word ∈ irregular.map Prod.snd
  · exact singularizeWord_of_mem (List.mem_append_right _ (singularizeWord_mem_singulars hplural))
  · have hsettled := (singularizeWord_singularizeWord_iff word).mpr hplural
    rw [hsettled, hsettled]

/-- The singular of a word settles after two steps, and after one unless the word is an irregular
plural without an `s` (these are ten) and one more `s` behind it. -/
theorem singularizeWord_settles (word : List Char) :
    (∀ n, singularizeWord^[n + 2] word = singularizeWord^[2] word) ∧
      (singularizeWord (singularizeWord word) ≠ singularizeWord word ↔
        ∃ plural ∈ barePlurals, word = plural ++ "s".toList) ∧
      barePlurals = ["children", "criteria", "feet", "geese", "men", "mice", "oxen", "people",
        "teeth", "women"].map String.toList := by
  refine ⟨fun n => ?_, ?_, by decide +kernel⟩
  · rw [Function.iterate_add_apply]
    exact Function.iterate_fixed (isFixedPt_singularizeWord word) n
  · rw [Ne, singularizeWord_singularizeWord_iff, not_not, singularizeWord_mem_plurals_iff]

/-- From `mens` it takes two steps to `man`. -/
example : singularizeWord "mens".toList = "men".toList ∧
    singularizeWord (singularizeWord "mens".toList) = "man".toList := by
  decide +kernel

end Scaffold.Name
