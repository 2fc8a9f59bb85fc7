import Mathlib.Tactic.SplitIfs
import Scaffold.Registry

/-!
# The registry and its file

The file of a registry reads as the registry that was written to it, whatever is in the names
(`ofContent_toContent`). Names that are recorded one after another are there once each, in the order
in which they were first recorded (`record_eraseDups`).
-/

namespace Scaffold

namespace Json

/-- A line feed behind a text changes nothing about how it is read: between tokens it does not
count, and in a string it is refused as the end of the text is. -/
theorem tokensFrom_concat_newline (state : LexState) (cs : List Char) :
    tokensFrom state (cs ++ ['\n']) = tokensFrom state cs := by
  induction cs generalizing state with
  | nil =>
    cases state with
    | between => simp [tokensFrom]
    | inString state content =>
      have hstep : stringStep content state '\n' = none := by
        cases state <;> simp [stringStep, unescape?, hexValue?]
      simp [tokensFrom, hstep]
  | cons c rest ih =>
    cases state with
    | between => simp only [List.cons_append, tokensFrom, ih]
    | inString state content => simp only [List.cons_append, tokensFrom, ih]

/-- The line feed at the end of the file does not keep it from being read back. -/
theorem decode_encode_newline (texts : List String) :
    decode (encode texts ++ "\n") = some texts := by
  have hdecode := decode_encode texts
  unfold decode at hdecode ⊢
  rw [String.toList_append]
  change (tokensFrom .between ((encode texts).toList ++ ['\n'])).bind arrayOf = _
  rw [tokensFrom_concat_newline, hdecode]

end Json

namespace Registry

/-- The file of a registry starts with a bracket, so it is not blank. -/
theorem isBlankText_toContent (registry : Registry) :
    Text.isBlankText registry.toContent = false := by
  have hbracket : Text.isBlank '[' = false := by decide
  unfold Text.isBlankText toContent Json.encode
  rw [String.toList_append, String.toList_ofList]
  simp [hbracket]

/-- What was written to the file of a registry is read from it. -/
theorem ofContent_toContent (registry : Registry) :
    ofContent (some registry.toContent) = .ok registry := by
  unfold ofContent
  dsimp only
  rw [isBlankText_toContent]
  unfold toContent
  rw [Json.decode_encode_newline]
  rfl

/-- A registry contains the names it lists. -/
theorem contains_iff {registry : Registry} {name : String} :
    registry.contains name = true ↔ name ∈ registry.names :=
  List.contains_iff_mem

/-- Recording a name after others keeps the order of first occurrence. -/
theorem record_eraseDups (names : List String) (name : String) :
    (⟨names.eraseDups⟩ : Registry).record name = ⟨(names ++ [name]).eraseDups⟩ := by
  rw [List.eraseDups_append]
  unfold record
  split_ifs with hthere
  · have hmem : name ∈ names := by simpa [contains_iff] using hthere
    simp [List.removeAll, hmem]
  · have hmem : name ∉ names := by simpa [contains_iff] using hthere
    simp [List.removeAll, hmem, List.eraseDups_cons]

end Registry

end Scaffold
