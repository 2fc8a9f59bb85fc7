import Scaffold.Proofs.Description.Tokens
import Scaffold.Proofs.Field.Choice

/-!
# Fields are read back from their display

A field that was read is displayed as a definition, and reading the display gives the field again;
the displays of all fields of a description, joined by commas, are a description of the same fields
(`readFields_display`).

The display is not the definition that was read: aliases, blanks, quotes and empty values are gone.
What it keeps is where brackets open and close (`depthAfter_typeName`). A name may open brackets
that only its type closes, so the depth is followed across the colon.
-/

namespace Scaffold

open Text Description

/-! ## Kinds -/

section kinds

variable {field definition : String} {kind : FieldKind} {d : Nat}

/-- A choice is displayed with its values between brackets. -/
theorem typeName_choice (values : List String) :
    (FieldKind.choice values).typeName.toList =
      "enum(".toList ++ [','].intercalate (values.map String.toList) ++ [')'] := by
  unfold FieldKind.typeName
  rw [String.toList_append, String.toList_append, String.toList_intercalate]
  rfl

/-- The kinds whose name is a word. -/
def plainKinds : List FieldKind :=
  [.string, .text, .integer, .boolean]

/-- What a type name stands for: a plain kind, whose name is a word, or the name itself. -/
theorem ofTypeName_cases (name : String) :
    FieldKind.ofTypeName name = .custom name ∨
      (name ∈ ["string", "text", "longText", "integer", "int", "boolean", "bool"] ∧
        FieldKind.ofTypeName name ∈ plainKinds) := by
  unfold FieldKind.ofTypeName
  split_ifs with hstring htext hinteger hboolean
  · exact Or.inr ⟨by simp [hstring], by decide⟩
  · exact Or.inr ⟨by rcases htext with rfl | rfl <;> decide, by decide⟩
  · exact Or.inr ⟨by rcases hinteger with rfl | rfl <;> decide, by decide⟩
  · exact Or.inr ⟨by rcases hboolean with rfl | rfl <;> decide, by decide⟩
  · exact Or.inl rfl

/-- What a kind can be that was read. -/
theorem readKind_cases (h : readKind field definition = .ok kind) :
    (∃ body values, choiceBody definition.toList = some body ∧ '(' ∉ body ∧ ')' ∉ body ∧
        kind = .choice values ∧ values ≠ [] ∧ ∀ value ∈ values, IsChoiceValue value.toList) ∨
      (choiceBody definition.toList = none ∧ kind = .ofTypeName definition) := by
  unfold readKind at h
  split at h
  · next body hbody =>
    obtain ⟨hopen, hclose, values, hvalues⟩ := readChoice_eq_ok h
    exact Or.inl ⟨body, values, hbody, hopen, hclose, hvalues⟩
  · next hnone =>
    exact Or.inr ⟨hnone, (Except.ok.inj h).symm⟩

/-- A kind is read back from its name. -/
theorem readKind_typeName (h : readKind field definition = .ok kind) :
    readKind field kind.typeName = .ok kind := by
  rcases readKind_cases h with ⟨body, values, -, -, -, rfl, hne, hvalues⟩ | ⟨hnone, rfl⟩
  · unfold readKind
    rw [typeName_choice, choiceBody_enum]
    exact readChoice_intercalate hne hvalues
  · rcases ofTypeName_cases definition with hcustom | ⟨-, hplain⟩
    · rw [hcustom]
      unfold readKind FieldKind.typeName
      rw [hnone, hcustom]
    · have hkinds : ∀ kind ∈ plainKinds, choiceBody kind.typeName.toList = none ∧
          FieldKind.ofTypeName kind.typeName = kind := by decide
      obtain ⟨hbody, hname⟩ := hkinds _ hplain
      unfold readKind
      rw [hbody, hname]

/-! ## Depth -/

/-- A word with brackets behind it leaves the depth alone if there are no brackets in the body. -/
theorem depthAfter_group {word body : List Char} (hword : ∀ c ∈ word, isNeutral c = true)
    (hopen : '(' ∉ body) (hclose : ')' ∉ body) (depth : Nat) :
    depthAfter depth (word ++ '(' :: body ++ [')']) = some depth := by
  have hbody : depthAfter (depth + 1) body = some (depth + 1) := by
    induction body with
    | nil => rfl
    | cons c rest ih =>
      rw [List.mem_cons, not_or] at hopen hclose
      rw [depthAfter_cons]
      simp [Ne.symm hopen.1, Ne.symm hclose.1, ih hopen.2 hclose.2]
  rw [List.append_assoc, depthAfter_append, depthAfter_of_isNeutral hword, Option.bind_some,
    List.cons_append, depthAfter_cons]
  simp [depthAfter_append, hbody, depthAfter]

/-- Reading a kind keeps the depth after its type. -/
theorem depthAfter_typeName (h : readKind field definition = .ok kind) (depth : Nat) :
    depthAfter depth kind.typeName.toList = depthAfter depth definition.toList := by
  rcases readKind_cases h with ⟨body, values, hbody, hopen, hclose, rfl, -, hvalues⟩ | ⟨-, rfl⟩
  · obtain ⟨blanks, hblanks, heq⟩ := choiceBody_eq_some hbody
    have hitems : ∀ c, c ≠ ',' → (∀ value ∈ values, c ∉ value.toList) →
        c ∉ [','].intercalate (values.map String.toList) := by
      intro c hc hnot hmem
      rcases mem_intercalate hmem with rfl | ⟨item, hitem, hmem⟩
      · exact hc rfl
      · obtain ⟨value, hvalue, rfl⟩ := List.mem_map.mp hitem
        exact hnot value hvalue hmem
    have henum : ∀ c ∈ "enum".toList, isNeutral c = true := List.all_eq_true.mp (by decide)
    have hword : ∀ c ∈ "enum".toList ++ blanks, isNeutral c = true := by
      intro c hc
      rcases List.mem_append.mp hc with hc | hc
      · exact henum c hc
      · exact isNeutral_of_isBlank (hblanks c hc)
    have hdisplay := depthAfter_group henum
      (hitems '(' (by decide) fun value hvalue => (hvalues value hvalue).noOpen)
      (hitems ')' (by decide) fun value hvalue => (hvalues value hvalue).noClose) depth
    rw [heq, depthAfter_group hword hopen hclose depth, typeName_choice]
    exact hdisplay
  · rcases ofTypeName_cases definition with hcustom | ⟨hname, hplain⟩
    · rw [hcustom]
      rfl
    · have hnames : ∀ name ∈ ["string", "text", "longText", "integer", "int", "boolean", "bool"],
          name.toList.all isNeutral = true := by decide
      have hkinds : ∀ kind ∈ plainKinds, kind.typeName.toList.all isNeutral = true := by decide
      rw [depthAfter_of_isNeutral (List.all_eq_true.mp (hnames _ hname)),
        depthAfter_of_isNeutral (List.all_eq_true.mp (hkinds _ hplain))]

/-- The name of a kind has no blanks around it if its type had none. -/
theorem strip_typeName (h : readKind field definition = .ok kind)
    (hstrip : strip definition.toList = definition.toList) :
    strip kind.typeName.toList = kind.typeName.toList := by
  rcases readKind_cases h with ⟨body, values, -, -, -, rfl, -, -⟩ | ⟨-, rfl⟩
  · rw [typeName_choice]
    apply stripWhile_eq_self
    · intro c hc
      obtain rfl : 'e' = c := by simpa using hc
      decide
    · intro c hc
      rw [List.getLast?_concat] at hc
      obtain rfl : ')' = c := Option.some.inj hc
      decide
  · rcases ofTypeName_cases definition with hcustom | ⟨-, hplain⟩
    · rw [hcustom]
      exact hstrip
    · have hkinds : ∀ kind ∈ plainKinds,
          strip kind.typeName.toList = kind.typeName.toList := by decide
      exact hkinds _ hplain

/-- A type that was read from something is displayed as something. -/
theorem typeName_ne_nil (h : readKind field definition = .ok kind)
    (hne : definition.toList ≠ []) : kind.typeName.toList ≠ [] := by
  rcases readKind_cases h with ⟨body, values, -, -, -, rfl, -, -⟩ | ⟨-, rfl⟩
  · rw [typeName_choice]
    simp
  · rcases ofTypeName_cases definition with hcustom | ⟨-, hplain⟩
    · rw [hcustom]
      exact hne
    · have hkinds : ∀ kind ∈ plainKinds,
          kind.typeName.toList ≠ [] := by decide
      exact hkinds _ hplain

end kinds

/-! ## One field -/

section field

variable {token : String} {field : Field}

/-- A field is displayed as its name, a colon and its type. -/
theorem toList_display (field : Field) :
    field.display.toList = field.name.toList ++ ':' :: field.kind.typeName.toList := by
  simp [Field.display]

/-- A field is read from a definition that has a type, and its kind from the type. -/
theorem readField_eq_ok_iff :
    readField token = .ok field ↔
      ∃ definition, splitDefinition token = .ok (field.name, definition) ∧
        definition.toList ≠ [] ∧ readKind field.name definition = .ok field.kind := by
  unfold readField
  rw [bind_eq_ok_iff]
  constructor
  · rintro ⟨⟨name, definition⟩, hsplit, h⟩
    dsimp only at h
    split_ifs at h with hempty
    · cases h
    · obtain ⟨kind, hkind, h⟩ := bind_eq_ok_iff.mp h
      rw [← Except.ok.inj h]
      exact ⟨definition, hsplit, by simpa using hempty, hkind⟩
  · rintro ⟨definition, hsplit, hne, hkind⟩
    have hempty : ¬definition.isEmpty = true := by simpa using hne
    refine ⟨(field.name, definition), hsplit, ?_⟩
    dsimp only
    rw [if_neg hempty, hkind]
    rfl

/-- A field that was read is read again from its display. -/
theorem readField_display (h : readField token = .ok field) :
    readField field.display = .ok field := by
  obtain ⟨definition, hsplit, hne, hkind⟩ := readField_eq_ok_iff.mp h
  obtain ⟨front, back, -, hcolon, hname, hnonempty, hdefinition⟩ := splitDefinition_eq_ok hsplit
  refine readField_eq_ok_iff.mpr
    ⟨field.kind.typeName, ?_, typeName_ne_nil hkind hne, readKind_typeName hkind⟩
  refine splitDefinition_of_eq (toList_display field) ?_ hnonempty ?_ ?_
  · rw [hname]
    intro hmem
    exact hcolon (mem_of_mem_strip hmem)
  · rw [hname, strip_strip]
  · exact strip_typeName hkind (by rw [hdefinition, strip_strip])

/-- The display of a field that was read from a token is a token. -/
theorem isToken_display (htoken : IsToken token.toList) (h : readField token = .ok field) :
    IsToken field.display.toList := by
  obtain ⟨definition, hsplit, hne, hkind⟩ := readField_eq_ok_iff.mp h
  obtain ⟨front, back, htext, -, hname, hnonempty, hdefinition⟩ := splitDefinition_eq_ok hsplit
  have hstrip : strip field.kind.typeName.toList = field.kind.typeName.toList :=
    strip_typeName hkind (by rw [hdefinition, strip_strip])
  have htype := typeName_ne_nil hkind hne
  rw [toList_display]
  have hfirst : ∀ c, (field.name.toList ++ ':' :: field.kind.typeName.toList).head? = some c →
      isBlank c = false := by
    intro c hc
    rw [List.head?_append_of_ne_nil _ hnonempty, hname] at hc
    exact head?_stripWhile hc
  have hlast : ∀ c, (field.name.toList ++ ':' :: field.kind.typeName.toList).getLast? = some c →
      isBlank c = false := by
    intro c hc
    rw [List.getLast?_append_of_ne_nil _ (List.cons_ne_nil _ _), List.getLast?_cons,
      List.getLast?_eq_some_getLast htype, Option.getD_some,
      ← List.getLast?_eq_some_getLast htype, ← hstrip] at hc
    exact getLast?_stripWhile hc
  refine ⟨?_, stripWhile_eq_self hfirst hlast, by simp⟩
  · -- the depth after the name is the one that the type starts with
    have hsegment := htoken.segment
    unfold IsSegment at hsegment ⊢
    rw [htext, depthAfter_append] at hsegment
    rw [depthAfter_append, hname, depthAfter_strip]
    rw [← hsegment]
    congr 1
    funext depth
    have hcolon : ∀ rest, depthAfter depth (':' :: rest) = depthAfter depth rest := by
      intro rest
      simp [depthAfter_cons]
    rw [hcolon, hcolon, depthAfter_typeName hkind, hdefinition, depthAfter_strip]

end field

/-! ## All fields -/

section fields

variable {tokens taken : List String} {fields : List Field}

/-- Fields are read one after another, each from its token, and no name comes twice. -/
theorem readTokens_cons_eq_ok_iff {token : String} :
    readTokens taken (token :: tokens) = .ok fields ↔
      ∃ field rest, readField token = .ok field ∧ field.name ∉ taken ∧
        readTokens (field.name :: taken) tokens = .ok rest ∧ fields = field :: rest := by
  rw [readTokens, bind_eq_ok_iff]
  constructor
  · rintro ⟨field, hfield, h⟩
    dsimp only at h
    split_ifs at h with htaken
    · cases h
    · obtain ⟨rest, hrest, h⟩ := bind_eq_ok_iff.mp h
      exact ⟨field, rest, hfield, htaken, hrest, (Except.ok.inj h).symm⟩
  · rintro ⟨field, rest, hfield, hnew, hrest, rfl⟩
    refine ⟨field, hfield, ?_⟩
    rw [if_neg hnew, hrest]
    rfl

/-- Every field was read from one of the tokens. -/
theorem exists_of_mem_readTokens (h : readTokens taken tokens = .ok fields) {field : Field}
    (hmem : field ∈ fields) : ∃ token ∈ tokens, readField token = .ok field := by
  induction tokens generalizing taken fields with
  | nil =>
    rw [← Except.ok.inj h] at hmem
    exact absurd hmem List.not_mem_nil
  | cons token rest ih =>
    obtain ⟨first, others, hfirst, -, hothers, rfl⟩ := readTokens_cons_eq_ok_iff.mp h
    rcases List.mem_cons.mp hmem with rfl | hmem
    · exact ⟨token, List.mem_cons_self, hfirst⟩
    · obtain ⟨other, hother, hread⟩ := ih hothers hmem
      exact ⟨other, List.mem_cons_of_mem _ hother, hread⟩

/-- Fields that were read are read again from how they are displayed. -/
theorem readTokens_map_display (h : readTokens taken tokens = .ok fields) :
    readTokens taken (fields.map Field.display) = .ok fields := by
  induction tokens generalizing taken fields with
  | nil =>
    rw [← Except.ok.inj h]
    rfl
  | cons token rest ih =>
    obtain ⟨first, others, hfirst, hnew, hothers, rfl⟩ := readTokens_cons_eq_ok_iff.mp h
    rw [List.map_cons]
    exact readTokens_cons_eq_ok_iff.mpr
      ⟨first, others, readField_display hfirst, hnew, ih hothers, rfl⟩

/-- The displays of the fields that were read, joined by commas, are read to the same fields, and
each display alone is read to its field. -/
theorem readFields_display {raw : String} (h : readFields raw = .ok fields) :
    readFields (",".intercalate (fields.map Field.display)) = .ok fields ∧
      ∀ field ∈ fields, readField field.display = .ok field := by
  unfold readFields at h ⊢
  obtain ⟨found, hsplit, htokens⟩ := bind_eq_ok_iff.mp h
  have hdisplays : ∀ text ∈ fields.map Field.display, IsToken text.toList := by
    intro text htext
    obtain ⟨field, hfield, rfl⟩ := List.mem_map.mp htext
    obtain ⟨token, htoken, hread⟩ := exists_of_mem_readTokens htokens hfield
    exact isToken_display (isToken_of_mem_splitTopLevel hsplit htoken) hread
  rw [splitTopLevel_intercalate hdisplays]
  refine ⟨readTokens_map_display htokens, ?_⟩
  intro field hfield
  obtain ⟨token, -, hread⟩ := exists_of_mem_readTokens htokens hfield
  exact readField_display hread

/-- Brackets that lie across a colon, a choice with quotes and an empty item, and an alias. -/
theorem readFields_display_mixed :
    readFields "a(b,c:d),k : enum ( 'x' , ,y z),t:longText" =
        .ok [⟨"a(b,c", .custom "d)"⟩, ⟨"k", .choice ["x", "y z"]⟩, ⟨"t", .text⟩] ∧
      readFields "a(b,c:d),k:enum(x,y z),t:text" =
        .ok [⟨"a(b,c", .custom "d)"⟩, ⟨"k", .choice ["x", "y z"]⟩, ⟨"t", .text⟩] := by
  have hread : readFields "a(b,c:d),k : enum ( 'x' , ,y z),t:longText" =
      .ok [⟨"a(b,c", .custom "d)"⟩, ⟨"k", .choice ["x", "y z"]⟩, ⟨"t", .text⟩] := by
    decide +kernel
  exact ⟨hread, (readFields_display hread).1⟩

end fields

end Scaffold
