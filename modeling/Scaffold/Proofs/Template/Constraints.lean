import Scaffold.Plan.Step
import Scaffold.Proofs.Field.RoundTrip
import Scaffold.Template.Classes

/-!
# Constraints in the text of a rule

A form request gives the constraints of a rule in one text, with bars between them, and the values
of a choice among them, with commas. Nothing is escaped. Main statement: the text of a field that
was read is cut at its bars into the constraints exactly if no value has a bar, and what follows
`in:` is cut at its commas into the values whatever they are (`cutAt_and_allowed_ruleText`).

Cutting undoes joining exactly if no part has the separator (`cutAt_intercalate_iff`). Commas
separate the values already where a choice is described, so no value that was read has one; a bar is
a character like others there (`cutAt_ruleText_bar`).
-/

namespace Scaffold

open Text Description

variable {raw : String} {fields : List Field} {field : Field}

/-! ## Choices and their rules -/

/-- The values among which a field has to be, if it is a choice. -/
def FieldKind.values : FieldKind → List String
  | .choice values => values
  | _ => []

/-- The rules of fields that are no choices. -/
def plainRules : List Rule :=
  [.requiredString stringMaxLength, .nullableString, .requiredInteger,
    .requiredBoolean, .requiredText]

/-- What the rule of a field can be. -/
theorem Field.rule_cases (field : Field) :
    (field.rule ∈ plainRules ∧ field.kind.values = []) ∨
      ∃ values, field.kind = .choice values ∧ field.rule = .requiredIn values := by
  obtain ⟨name, kind⟩ := field
  cases kind with
  | choice values => exact Or.inr ⟨values, rfl, rfl⟩
  | string | text | integer | boolean | custom _ =>
    exact Or.inl ⟨by simp [Field.rule, plainRules], rfl⟩

/-- A choice that was read has values, and each of them is one that a choice can be read to. -/
theorem isChoiceValue_of_readFields (h : readFields raw = .ok fields) (hfield : field ∈ fields)
    {values : List String} (hkind : field.kind = .choice values) :
    values ≠ [] ∧ ∀ value ∈ values, IsChoiceValue value.toList := by
  obtain ⟨tokens, -, htokens⟩ := bind_eq_ok_iff.mp h
  obtain ⟨token, -, hread⟩ := exists_of_mem_readTokens htokens hfield
  obtain ⟨definition, -, -, hread⟩ := readField_eq_ok_iff.mp hread
  rw [hkind] at hread
  rcases readKind_cases hread with ⟨_, found, -, -, -, hfound, hvalues⟩ | ⟨-, hname⟩
  · cases hfound
    exact hvalues
  · rcases ofTypeName_cases definition with hcustom | ⟨-, hplain⟩
    · rw [hcustom] at hname
      cases hname
    · rw [← hname] at hplain
      simp [plainKinds] at hplain

namespace Template

/-! ## Cutting -/

/-- The pieces of a text between the occurrences of `sep`. -/
def cutAt (sep : Char) (text : String) : List String :=
  (text.toList.splitOn sep).map String.ofList

/-- What follows the first occurrence of `mark` in a text. -/
def behind (mark : List Char) : List Char → Option (List Char)
  | [] => mark.isPrefixOf? []
  | c :: rest =>
    match mark.isPrefixOf? (c :: rest) with
    | some after => some after
    | none => behind mark rest

/-- The values that the text of a rule lists behind `in:`, none if it has no such list. -/
def allowed (text : String) : List String :=
  match behind "in:".toList text.toList with
  | some list => cutAt ',' (String.ofList list)
  | none => []

section cutting

variable {c sep : Char} {mark : String} {parts : List String}

/-- Cutting gives back the parts that were joined exactly if none of them has the separator. -/
theorem cutAt_intercalate_iff (hmark : mark.toList = [sep]) :
    cutAt sep (mark.intercalate parts) = parts ↔ parts ≠ [] ∧
      ∀ part ∈ parts, sep ∉ part.toList := by
  rw [cutAt, String.toList_intercalate, hmark]
  constructor
  · intro h
    rw [← h]
    refine ⟨by simp, ?_⟩
    rw [List.forall_mem_map]
    intro piece hpiece
    rw [String.toList_ofList]
    exact not_mem_of_mem_splitOn hpiece
  · rintro ⟨hne, hparts⟩
    rw [List.splitOn_intercalate sep (by simpa using hparts) (by simpa using hne), List.map_map]
    simp [Function.comp_def]

/-- What is joined has a character besides the separators exactly if one of the parts has it. -/
theorem mem_toList_intercalate_iff (hmark : mark.toList = [sep]) (hc : c ≠ sep) :
    c ∈ (mark.intercalate parts).toList ↔ ∃ part ∈ parts, c ∈ part.toList := by
  rw [String.toList_intercalate, hmark]
  constructor
  · intro hmem
    rcases mem_intercalate hmem with hsep | ⟨part, hpart, hmem⟩
    · exact absurd hsep hc
    · obtain ⟨text, htext, rfl⟩ := List.mem_map.mp hpart
      exact ⟨text, htext, hmem⟩
  · rintro ⟨part, hpart, hmem⟩
    exact subset_intercalate (List.mem_map_of_mem hpart) hmem

end cutting

/-! ## The text of a rule -/

/-- Plain rules are read back, and they list no values. -/
theorem cutAt_and_allowed_of_mem : ∀ rule ∈ plainRules,
    cutAt '|' (ruleText rule) = rule.constraints ∧ allowed (ruleText rule) = [] := by
  decide +kernel

/-- A list of values is cut into its constraints exactly if no value has a bar. -/
theorem cutAt_requiredIn_iff (values : List String) :
    cutAt '|' (ruleText (.requiredIn values)) = (Rule.requiredIn values).constraints ↔
      ∀ value ∈ values, '|' ∉ value.toList := by
  have hrequired : '|' ∉ "required".toList := by decide
  have hin : '|' ∉ "in:".toList := by decide
  have hlist : '|' ∉ ("in:" ++ ",".intercalate values).toList ↔
      ∀ value ∈ values, '|' ∉ value.toList := by
    rw [String.toList_append, List.mem_append, or_iff_right hin,
      mem_toList_intercalate_iff rfl (by decide)]
    simp only [not_exists, not_and]
  rw [ruleText, cutAt_intercalate_iff rfl, ← hlist]
  simp only [Rule.constraints, List.forall_mem_cons, List.not_mem_nil, ne_eq, reduceCtorEq,
    not_false_eq_true, hrequired, false_implies, implies_true, true_and, and_true]

/-- The allowed values are read back by cutting at the commas. -/
theorem allowed_requiredIn (values : List String) :
    allowed (ruleText (.requiredIn values)) = cutAt ',' (",".intercalate values) := by
  have htext : (ruleText (.requiredIn values)).toList =
      "required|in:".toList ++ (",".intercalate values).toList := by
    simp [ruleText, Rule.constraints]
  have hbehind : behind "in:".toList (ruleText (.requiredIn values)).toList =
      some (",".intercalate values).toList := by
    rw [htext]
    rfl
  rw [allowed, hbehind]
  dsimp only
  rw [String.ofList_toList]

/-- The text of the rule of a field that was read is cut at its bars into the constraints of the
rule exactly if none of the field's values has a bar, and what follows `in:` in it is cut at its
commas into the values. -/
theorem cutAt_and_allowed_ruleText (h : readFields raw = .ok fields) (hfield : field ∈ fields) :
    (cutAt '|' (ruleText field.rule) = field.rule.constraints ↔
        ∀ value ∈ field.kind.values, '|' ∉ value.toList) ∧
      allowed (ruleText field.rule) = field.kind.values := by
  rcases field.rule_cases with ⟨hrule, hvalues⟩ | ⟨values, hkind, hrule⟩
  · obtain ⟨hcut, hallowed⟩ := cutAt_and_allowed_of_mem _ hrule
    rw [hvalues]
    exact ⟨iff_of_true hcut (List.forall_mem_nil _), hallowed⟩
  · obtain ⟨hne, hvalues⟩ := isChoiceValue_of_readFields h hfield hkind
    rw [hrule, hkind]
    refine ⟨cutAt_requiredIn_iff values, ?_⟩
    rw [allowed_requiredIn]
    exact (cutAt_intercalate_iff rfl).mpr ⟨hne, fun value hvalue => (hvalues value hvalue).noComma⟩

/-- Colons and `in:` inside of values do no harm. -/
theorem cutAt_and_allowed_ruleText_colon :
    readFields "k:enum(in:a, 'b c',x:y),t:text" =
        .ok [⟨"k", .choice ["in:a", "b c", "x:y"]⟩, ⟨"t", .text⟩] ∧
      ⟨"k", .choice ["in:a", "b c", "x:y"]⟩ ∈
        [Field.mk "k" (.choice ["in:a", "b c", "x:y"]), Field.mk "t" .text] ∧
      cutAt '|' (ruleText (.requiredIn ["in:a", "b c", "x:y"])) = ["required", "in:in:a,b c,x:y"] ∧
      allowed (ruleText (.requiredIn ["in:a", "b c", "x:y"])) = ["in:a", "b c", "x:y"] := by
  have hread : readFields "k:enum(in:a, 'b c',x:y),t:text" =
      .ok [⟨"k", .choice ["in:a", "b c", "x:y"]⟩, ⟨"t", .text⟩] := by decide +kernel
  have hmem : Field.mk "k" (.choice ["in:a", "b c", "x:y"]) ∈
      [Field.mk "k" (.choice ["in:a", "b c", "x:y"]), Field.mk "t" .text] := List.mem_cons_self
  obtain ⟨hcut, hallowed⟩ := cutAt_and_allowed_ruleText hread hmem
  have hbars : ∀ value ∈ ["in:a", "b c", "x:y"], '|' ∉ value.toList := by decide
  exact ⟨hread, hmem, hcut.mpr hbars, hallowed⟩

/-- A bar in a value cuts the list of values in two. -/
theorem cutAt_ruleText_bar :
    readFields "status:enum(a|b,c)" = .ok [⟨"status", .choice ["a|b", "c"]⟩] ∧
      (Rule.requiredIn ["a|b", "c"]).constraints = ["required", "in:a|b,c"] ∧
      cutAt '|' (ruleText (.requiredIn ["a|b", "c"])) = ["required", "in:a", "b,c"] ∧
      ¬∀ (raw : String) (fields : List Field), readFields raw = .ok fields → ∀ field ∈ fields,
        cutAt '|' (ruleText field.rule) = field.rule.constraints ∧
          allowed (ruleText field.rule) = field.kind.values := by
  have hread : readFields "status:enum(a|b,c)" = .ok [⟨"status", .choice ["a|b", "c"]⟩] := by
    decide +kernel
  have hcut : cutAt '|' (ruleText (.requiredIn ["a|b", "c"])) = ["required", "in:a", "b,c"] := by
    decide +kernel
  refine ⟨hread, by decide +kernel, hcut, fun hall => ?_⟩
  have hback := (hall _ _ hread ⟨"status", .choice ["a|b", "c"]⟩ List.mem_cons_self).1
  have hconstraints : cutAt '|' (ruleText (.requiredIn ["a|b", "c"])) = ["required", "in:a|b,c"] :=
    hback
  rw [hcut] at hconstraints
  exact absurd hconstraints (by decide)

end Template

end Scaffold
