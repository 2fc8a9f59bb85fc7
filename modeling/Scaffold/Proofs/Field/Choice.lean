import Scaffold.Field.Parse
import Scaffold.Proofs.Except
import Scaffold.Proofs.Text.Split
import Scaffold.Proofs.Text.Strip

/-!
# What choices are read to

The type `enum(…)` is read to its values: not empty, without commas and brackets, and without blanks
or quotes at their ends (`IsChoiceValue`). Values of this sort, written between brackets with
commas, are read to themselves (`readChoice_intercalate`). What is dropped at the ends of a value
are the blanks and both quote characters (`isValueEdge_iff`).
-/

namespace Scaffold

open Text

/-! ## The ends of values -/

/-- What is dropped at the ends of a value: the characters of White_Space, the single quote and the
double quote. -/
theorem isValueEdge_iff {c : Char} :
    isValueEdge c = true ↔ c ∈ whiteSpace ∨ c = '\x27' ∨ c = '"' := by
  rw [← isBlank_iff]
  simp only [isValueEdge, Bool.or_eq_true, beq_iff_eq, or_assoc]

/-! ## The brackets -/

/-- What is read as a choice is `enum`, blanks, and the body between brackets. -/
theorem choiceBody_eq_some {definition body : List Char} (h : choiceBody definition = some body) :
    ∃ blanks, (∀ c ∈ blanks, isBlank c = true) ∧
      definition = "enum".toList ++ blanks ++ '(' :: body ++ [')'] := by
  unfold choiceBody at h
  split at h
  · cases h
  · next rest hrest =>
    split at h
    · next inner hinner =>
      split_ifs at h with hlast
      obtain ⟨above, rfl⟩ := List.getLast?_eq_some_iff.mp hlast
      rw [List.dropLast_concat] at h
      refine ⟨rest.takeWhile isBlank, fun c hc => List.mem_takeWhile_imp hc, ?_⟩
      rw [← isPrefixOf?_eq_some_iff.mp hrest, ← Option.some.inj h]
      conv_lhs => rw [← List.takeWhile_append_dropWhile (p := isBlank) (l := rest), hinner]
      simp
    · cases h

/-- The body of a written choice is what is between its brackets. -/
theorem choiceBody_enum (body : List Char) :
    choiceBody ("enum(".toList ++ body ++ [')']) = some body := by
  have hstarts : "enum".toList.isPrefixOf? ("enum(".toList ++ body ++ [')']) =
      some ('(' :: (body ++ [')'])) := isPrefixOf?_eq_some_iff.mpr (by simp)
  unfold choiceBody
  rw [hstarts]
  simp [show isBlank '(' = false by decide]

/-! ## The values -/

/-- A text that is a value of a choice. -/
structure IsChoiceValue (value : List Char) : Prop where
  /-- It is not empty. -/
  nonempty : value ≠ []
  /-- It has no comma. -/
  noComma : ',' ∉ value
  /-- It has no opening bracket. -/
  noOpen : '(' ∉ value
  /-- It has no closing bracket. -/
  noClose : ')' ∉ value
  /-- It neither starts nor ends in a blank or a quote. -/
  stripped : stripWhile isValueEdge value = value

section values

variable {field : String} {items : List (List Char)} {values : List String}

/-- The items of a choice have no brackets, and its values are what is in them. -/
theorem choiceValues_eq_ok (h : choiceValues field items = .ok values) :
    (∀ item ∈ items, '(' ∉ item ∧ ')' ∉ item) ∧
      ∀ value ∈ values, value.toList ≠ [] ∧
        ∃ item ∈ items, value.toList = stripWhile isValueEdge item := by
  induction items generalizing values with
  | nil =>
    rw [← Except.ok.inj h]
    exact ⟨fun item hitem => absurd hitem List.not_mem_nil,
      fun value hvalue => absurd hvalue List.not_mem_nil⟩
  | cons item rest ih =>
    unfold choiceValues at h
    dsimp only at h
    split at h
    · cases h
    · next hbracket =>
      obtain ⟨others, hrest, rfl⟩ := map_eq_ok_iff.mp h
      obtain ⟨hitems, hothers⟩ := ih hrest
      have hitem : '(' ∉ item ∧ ')' ∉ item := by
        rw [Bool.or_eq_true, not_or, List.contains_iff_mem, List.contains_iff_mem,
          mem_stripWhile_iff (by decide), mem_stripWhile_iff (by decide)] at hbracket
        exact hbracket
      refine ⟨List.forall_mem_cons.mpr ⟨hitem, hitems⟩, ?_⟩
      intro value hvalue
      have hothers' : value ∈ others → value.toList ≠ [] ∧
          ∃ other ∈ item :: rest, value.toList = stripWhile isValueEdge other := by
        intro hmem
        obtain ⟨hne, other, hother, heq⟩ := hothers value hmem
        exact ⟨hne, other, List.mem_cons_of_mem _ hother, heq⟩
      split_ifs at hvalue with hempty
      · exact hothers' hvalue
      · rcases List.mem_cons.mp hvalue with rfl | hvalue
        · rw [String.toList_ofList]
          exact ⟨fun hnil => hempty (List.isEmpty_iff.mpr hnil), item, List.mem_cons_self, rfl⟩
        · exact hothers' hvalue

/-- Items that are values are read to themselves. -/
theorem choiceValues_map_toList (h : ∀ value ∈ values, IsChoiceValue value.toList) :
    choiceValues field (values.map String.toList) = .ok values := by
  induction values with
  | nil => rfl
  | cons value rest ih =>
    rw [List.forall_mem_cons] at h
    rw [List.map_cons, choiceValues, ih h.2]
    simp [h.1.stripped, h.1.noOpen, h.1.noClose, h.1.nonempty, Except.map]

/-- What a choice is read to are values, at least one, and its items have no brackets. -/
theorem readChoice_eq_ok {body : List Char} {kind : FieldKind}
    (h : readChoice field body = .ok kind) :
    '(' ∉ body ∧ ')' ∉ body ∧ ∃ values, kind = .choice values ∧ values ≠ [] ∧
      ∀ value ∈ values, IsChoiceValue value.toList := by
  unfold readChoice at h
  split at h
  · cases h
  · cases h
  · next values hne hvalues =>
    obtain ⟨hitems, hread⟩ := choiceValues_eq_ok hvalues
    have hbody : ∀ c, c ≠ ',' → (∀ item ∈ body.splitOn ',', c ∉ item) → c ∉ body := by
      intro c hc hitems hmem
      have hjoin : [','].intercalate (body.splitOn ',') = body := List.intercalate_splitOn ','
      rw [← hjoin] at hmem
      rcases mem_intercalate hmem with rfl | ⟨item, hitem, hmem⟩
      · exact hc rfl
      · exact hitems item hitem hmem
    refine ⟨hbody '(' (by decide) fun item hitem => (hitems item hitem).1,
      hbody ')' (by decide) fun item hitem => (hitems item hitem).2, values,
      (Except.ok.inj h).symm, hne, fun value hvalue => ?_⟩
    obtain ⟨hnonempty, item, hitem, heq⟩ := hread value hvalue
    rw [heq] at hnonempty ⊢
    have hcomma := not_mem_of_mem_splitOn hitem
    refine ⟨hnonempty, ?_, ?_, ?_, stripWhile_idem _ _⟩
    · intro hmem
      exact hcomma (mem_of_mem_stripWhile hmem)
    · intro hmem
      exact (hitems item hitem).1 (mem_of_mem_stripWhile hmem)
    · intro hmem
      exact (hitems item hitem).2 (mem_of_mem_stripWhile hmem)

/-- Values between commas are read to themselves. -/
theorem readChoice_intercalate (hne : values ≠ [])
    (h : ∀ value ∈ values, IsChoiceValue value.toList) :
    readChoice field ([','].intercalate (values.map String.toList)) = .ok (.choice values) := by
  have hsplit : ([','].intercalate (values.map String.toList)).splitOn ',' =
      values.map String.toList := by
    apply List.splitOn_intercalate
    · intro item hitem
      obtain ⟨value, hvalue, rfl⟩ := List.mem_map.mp hitem
      exact (h value hvalue).noComma
    · simpa using hne
  unfold readChoice
  rw [hsplit, choiceValues_map_toList h]
  cases values with
  | nil => exact absurd rfl hne
  | cons value rest => rfl

end values

end Scaffold
