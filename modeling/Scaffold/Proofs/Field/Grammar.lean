import Scaffold.Proofs.Description.Brackets
import Scaffold.Proofs.Field.RoundTrip

/-!
# The grammar of fields

What a list of fields is, said without the reader, and that the reader accepts exactly this
(`readFields_accepts_iff`).

* A type `enum(…)` is a choice, and every other type is looked up in a table (`IsKind`,
  `describedBy_readKind`).
* A definition is a name and a type around its first colon (`IsDefinition`,
  `describedBy_readField`).
* A list of definitions describes fields if their names are distinct (`AreFields`); otherwise there
  is a leftmost definition with a fault (`FirstFault`, `describedBy_readTokens`).
* The brackets of the whole description come before all of this (`BracketFault`).
-/

namespace Scaffold

open Text Description

/-! ## Choices -/

/-- The text has a bracket in it. -/
def HasBracket (cs : List Char) : Prop :=
  '(' ∈ cs ∨ ')' ∈ cs

/-- The type is `enum`, blanks, and the body between brackets. -/
def IsChoice (definition body : List Char) : Prop :=
  ∃ blanks, (∀ c ∈ blanks, isBlank c = true) ∧
    definition = "enum".toList ++ blanks ++ '(' :: body ++ [')']

/-- The values of a choice: its items between commas, without blanks and quotes around them (which
characters these are is said in `isValueEdge_iff`); what is nothing but these is no value. -/
def valuesOf (body : List Char) : List String :=
  (((body.splitOn ',').map (stripWhile isValueEdge)).filter fun value => !value.isEmpty).map
    String.ofList

/-- What is wrong with a type, for the field `field`. -/
inductive KindFault (field : String) (definition : List Char) : ParseError → Prop where
  /-- An item of a choice has a bracket in it, and no item before it has. -/
  | invalidEnumValue {body item : List Char} {before after : List (List Char)}
      (hchoice : IsChoice definition body) (hitems : body.splitOn ',' = before ++ item :: after)
      (hbefore : ∀ other ∈ before, ¬HasBracket other) (hitem : HasBracket item) :
      KindFault field definition (.invalidEnumValue field (String.ofList (strip item)))
  /-- A choice has no values, and no brackets either. -/
  | emptyEnum {body : List Char} (hchoice : IsChoice definition body) (hbody : ¬HasBracket body)
      (hvalues : valuesOf body = []) : KindFault field definition (.emptyEnum field)

section choices

variable {definition body : List Char} {field : String} {kind : FieldKind} {e : ParseError}

/-- A definition has a body exactly if it is a choice with that body. -/
theorem choiceBody_eq_some_iff : choiceBody definition = some body ↔ IsChoice definition body := by
  constructor
  · exact choiceBody_eq_some
  · rintro ⟨blanks, hblanks, rfl⟩
    have hstarts : "enum".toList.isPrefixOf? ("enum".toList ++ blanks ++ '(' :: body ++ [')']) =
        some (blanks ++ '(' :: (body ++ [')'])) := isPrefixOf?_eq_some_iff.mpr (by simp)
    unfold choiceBody
    rw [hstarts]
    dsimp only
    rw [List.dropWhile_append_of_pos hblanks]
    simp [show isBlank '(' = false by decide]

/-- A type is a choice in one way only. -/
theorem IsChoice.unique {body' : List Char} (h : IsChoice definition body)
    (h' : IsChoice definition body') : body = body' := by
  rw [← choiceBody_eq_some_iff] at h h'
  exact Option.some.inj (h.symm.trans h')

/-- Brackets are neither blanks nor quotes, so trimming an item keeps them. -/
theorem contains_bracket_iff (item : List Char) :
    ((stripWhile isValueEdge item).contains '(' ||
      (stripWhile isValueEdge item).contains ')') = true ↔ HasBracket item := by
  rw [Bool.or_eq_true, List.contains_iff_mem, List.contains_iff_mem,
    mem_stripWhile_iff (by decide), mem_stripWhile_iff (by decide)]
  rfl

/-- Every character but a comma is found in one of the items. -/
theorem mem_iff_exists_item {c : Char} (hc : c ≠ ',') :
    c ∈ body ↔ ∃ item ∈ body.splitOn ',', c ∈ item := by
  have hjoin : [','].intercalate (body.splitOn ',') = body := List.intercalate_splitOn ','
  constructor
  · intro h
    rw [← hjoin] at h
    exact (mem_intercalate h).resolve_left hc
  · rintro ⟨item, hitem, hmem⟩
    rw [← hjoin]
    exact subset_intercalate hitem hmem

/-- A body has a bracket exactly if one of its items has one. -/
theorem hasBracket_iff_exists_item :
    HasBracket body ↔ ∃ item ∈ body.splitOn ',', HasBracket item := by
  have hopen : '(' ≠ ',' := by decide
  have hclose : ')' ≠ ',' := by decide
  unfold HasBracket
  rw [mem_iff_exists_item hopen, mem_iff_exists_item hclose]
  simp only [and_or_left, exists_or]

/-- What the first item adds to the values, or why it is refused. -/
theorem choiceValues_cons (field : String) (item : List Char) (rest : List (List Char)) :
    choiceValues field (item :: rest) =
      if (stripWhile isValueEdge item).contains '(' ||
          (stripWhile isValueEdge item).contains ')' then
        .error (.invalidEnumValue field (String.ofList (strip item)))
      else
        (choiceValues field rest).map fun values =>
          if (stripWhile isValueEdge item).isEmpty then values
          else String.ofList (stripWhile isValueEdge item) :: values := rfl

section values

variable {items : List (List Char)} {values : List String}

/-- Items without brackets are read to what remains of them. -/
theorem choiceValues_of_not_hasBracket (h : ∀ item ∈ items, ¬HasBracket item) :
    choiceValues field items = .ok
      (((items.map (stripWhile isValueEdge)).filter fun value => !value.isEmpty).map
        String.ofList) := by
  induction items with
  | nil => rfl
  | cons item rest ih =>
    rw [List.forall_mem_cons, ← contains_bracket_iff] at h
    rw [choiceValues_cons, if_neg h.1, ih h.2, List.map_cons, List.filter_cons]
    cases (stripWhile isValueEdge item).isEmpty <;> rfl

/-- The first item with a bracket is the one that is refused. -/
theorem choiceValues_of_hasBracket {item : List Char} (before after : List (List Char))
    (hbefore : ∀ other ∈ before, ¬HasBracket other) (hitem : HasBracket item) :
    choiceValues field (before ++ item :: after) =
      .error (.invalidEnumValue field (String.ofList (strip item))) := by
  induction before with
  | nil =>
    rw [← contains_bracket_iff] at hitem
    rw [List.nil_append, choiceValues_cons, if_pos hitem]
  | cons other rest ih =>
    rw [List.forall_mem_cons, ← contains_bracket_iff] at hbefore
    rw [List.cons_append, choiceValues_cons, if_neg hbefore.1, ih hbefore.2]
    rfl

/-- Either no item has a bracket, or there is a first one that has. -/
theorem exists_first_hasBracket (items : List (List Char)) :
    (∀ item ∈ items, ¬HasBracket item) ∨ ∃ before item after, items = before ++ item :: after ∧
      (∀ other ∈ before, ¬HasBracket other) ∧ HasBracket item := by
  induction items with
  | nil => exact Or.inl fun item hitem => absurd hitem List.not_mem_nil
  | cons first rest ih =>
    by_cases hfirst : HasBracket first
    · exact Or.inr ⟨[], first, rest, rfl, by simp, hfirst⟩
    · rcases ih with hnone | ⟨before, item, after, rfl, hbefore, hitem⟩
      · exact Or.inl (List.forall_mem_cons.mpr ⟨hfirst, hnone⟩)
      · exact Or.inr ⟨first :: before, item, after, rfl,
          List.forall_mem_cons.mpr ⟨hfirst, hbefore⟩, hitem⟩

end values

/-- A choice without brackets is read to its values, if it has any. -/
theorem readChoice_of_not_hasBracket (hbody : ¬HasBracket body) :
    readChoice field body =
      if valuesOf body = [] then .error (.emptyEnum field) else .ok (.choice (valuesOf body)) := by
  have hitems : ∀ item ∈ body.splitOn ',', ¬HasBracket item := by
    intro item hitem hbracket
    exact hbody (hasBracket_iff_exists_item.mpr ⟨item, hitem, hbracket⟩)
  have hread : choiceValues field (body.splitOn ',') = .ok (valuesOf body) :=
    choiceValues_of_not_hasBracket hitems
  unfold readChoice
  rw [hread]
  cases valuesOf body <;> rfl

/-- A body has values exactly if one of its items is more than blanks and quotes. -/
theorem valuesOf_ne_nil_iff :
    valuesOf body ≠ [] ↔ ∃ item ∈ body.splitOn ',', stripWhile isValueEdge item ≠ [] := by
  simp [valuesOf]

end choices

/-! ## Kinds -/

/-- The type names that have a rule of their own, and what they stand for. -/
def typeTable : List (String × FieldKind) :=
  [("string", .string), ("text", .text), ("longText", .text), ("integer", .integer),
    ("int", .integer), ("boolean", .boolean), ("bool", .boolean)]

/-- What a type stands for. -/
inductive IsKind (definition : String) : FieldKind → Prop where
  /-- A choice stands for its values. -/
  | choice {body : List Char} (hchoice : IsChoice definition.toList body) :
      IsKind definition (.choice (valuesOf body))
  /-- A name in the table stands for what the table says. -/
  | known {kind : FieldKind} (htable : (definition, kind) ∈ typeTable) : IsKind definition kind
  /-- Every other type stands for itself. -/
  | custom (hchoice : ∀ body, ¬IsChoice definition.toList body)
      (htable : ∀ kind, (definition, kind) ∉ typeTable) : IsKind definition (.custom definition)

/-- A type that is a choice has no brackets in its body and has values. -/
def HasValues (definition : String) : Prop :=
  ∀ body, IsChoice definition.toList body →
    ¬HasBracket body ∧ ∃ item ∈ body.splitOn ',', stripWhile isValueEdge item ≠ []

section kinds

variable {field definition : String} {kind : FieldKind} {e : ParseError}

/-- No type of the table is a choice. -/
theorem not_isChoice_of_mem_typeTable (h : (definition, kind) ∈ typeTable) (body : List Char) :
    ¬IsChoice definition.toList body := by
  have hnone : ∀ entry ∈ typeTable, choiceBody entry.1.toList = none := by decide
  intro hchoice
  rw [← choiceBody_eq_some_iff, hnone _ h] at hchoice
  cases hchoice

/-- A name in the table is read as its type. -/
theorem ofTypeName_of_mem_typeTable (h : (definition, kind) ∈ typeTable) :
    FieldKind.ofTypeName definition = kind := by
  have hkind : ∀ entry ∈ typeTable, FieldKind.ofTypeName entry.1 = entry.2 := by decide
  exact hkind _ h

/-- Any other name is read as a type of its own. -/
theorem ofTypeName_of_notMem_typeTable (h : ∀ kind, (definition, kind) ∉ typeTable) :
    FieldKind.ofTypeName definition = .custom definition := by
  rcases ofTypeName_cases definition with hcustom | ⟨hname, -⟩
  · exact hcustom
  · have htable : ∀ name ∈ ["string", "text", "longText", "integer", "int", "boolean", "bool"],
        (name, FieldKind.ofTypeName name) ∈ typeTable := by decide
    exact absurd (htable _ hname) (h _)

/-- A type that is no choice stands for one kind. -/
theorem isKind_iff_of_not_isChoice (h : ∀ body, ¬IsChoice definition.toList body) :
    IsKind definition kind ↔ kind = .ofTypeName definition := by
  constructor
  · intro hkind
    cases hkind with
    | choice hchoice => exact absurd hchoice (h _)
    | known htable => exact (ofTypeName_of_mem_typeTable htable).symm
    | custom _ htable => exact (ofTypeName_of_notMem_typeTable htable).symm
  · rintro rfl
    by_cases htable : ∃ kind, (definition, kind) ∈ typeTable
    · obtain ⟨kind, htable⟩ := htable
      rw [ofTypeName_of_mem_typeTable htable]
      exact .known htable
    · rw [not_exists] at htable
      rw [ofTypeName_of_notMem_typeTable htable]
      exact .custom h htable

/-- A choice stands for its values and for nothing else. -/
theorem isKind_iff_of_isChoice {body : List Char} (h : IsChoice definition.toList body) :
    IsKind definition kind ↔ kind = .choice (valuesOf body) := by
  constructor
  · intro hkind
    cases hkind with
    | choice hchoice => rw [hchoice.unique h]
    | known htable => exact absurd h (not_isChoice_of_mem_typeTable htable body)
    | custom hchoice _ => exact absurd h (hchoice body)
  · rintro rfl
    exact .choice h

/-- A choice is read by its body. -/
theorem readKind_of_isChoice {body : List Char} (h : IsChoice definition.toList body) :
    readKind field definition = readChoice field body := by
  unfold readKind
  rw [choiceBody_eq_some_iff.mpr h]

/-- What is no choice is read by the table. -/
theorem readKind_of_not_isChoice (h : ∀ body, ¬IsChoice definition.toList body) :
    readKind field definition = .ok (.ofTypeName definition) := by
  have hnone : choiceBody definition.toList = none := by
    rw [Option.eq_none_iff_forall_ne_some]
    intro body hbody
    exact h body (choiceBody_eq_some_iff.mp hbody)
  unfold readKind
  rw [hnone]

/-- Every definition is one of a kind. -/
theorem exists_isKind (definition : String) : ∃ kind, IsKind definition kind := by
  by_cases h : ∃ body, IsChoice definition.toList body
  · obtain ⟨body, hchoice⟩ := h
    exact ⟨_, .choice hchoice⟩
  · exact ⟨_, (isKind_iff_of_not_isChoice (not_exists.mp h)).mpr rfl⟩

/-- A type without a fault is read to the kind it stands for, and one with a fault is refused. -/
theorem describedBy_readKind (field definition : String) :
    DescribedBy (readKind field definition)
      (fun kind => HasValues definition ∧ IsKind definition kind)
      (KindFault field definition.toList) where
  accepted := by
    rintro kind ⟨hvalues, hkind⟩
    by_cases h : ∃ body, IsChoice definition.toList body
    · obtain ⟨body, hchoice⟩ := h
      obtain ⟨hbody, hitem⟩ := hvalues body hchoice
      rw [readKind_of_isChoice hchoice, readChoice_of_not_hasBracket hbody,
        if_neg (valuesOf_ne_nil_iff.mpr hitem), (isKind_iff_of_isChoice hchoice).mp hkind]
    · rw [not_exists] at h
      rw [readKind_of_not_isChoice h, (isKind_iff_of_not_isChoice h).mp hkind]
  refused := by
    intro e hfault
    cases hfault with
    | invalidEnumValue hchoice hitems hbefore hitem =>
      rw [readKind_of_isChoice hchoice]
      unfold readChoice
      rw [hitems, choiceValues_of_hasBracket _ _ hbefore hitem]
    | emptyEnum hchoice hbody hvalues =>
      rw [readKind_of_isChoice hchoice, readChoice_of_not_hasBracket hbody, if_pos hvalues]
  total := by
    obtain ⟨kind, hkind⟩ := exists_isKind definition
    by_cases h : ∃ body, IsChoice definition.toList body
    · obtain ⟨body, hchoice⟩ := h
      rcases exists_first_hasBracket (body.splitOn ',') with
        hnone | ⟨before, item, after, hitems, hfirst⟩
      · have hbody : ¬HasBracket body := by
          rw [hasBracket_iff_exists_item]
          rintro ⟨item, hitem, hbracket⟩
          exact hnone item hitem hbracket
        by_cases hvalues : valuesOf body = []
        · exact Or.inr ⟨_, .emptyEnum hchoice hbody hvalues⟩
        · refine Or.inl ⟨kind, ?_, hkind⟩
          intro body' hchoice'
          rw [← hchoice.unique hchoice']
          exact ⟨hbody, valuesOf_ne_nil_iff.mp hvalues⟩
      · exact Or.inr ⟨_, .invalidEnumValue hchoice hitems hfirst.1 hfirst.2⟩
    · refine Or.inl ⟨kind, ?_, hkind⟩
      intro body hchoice
      exact absurd ⟨body, hchoice⟩ h

end kinds

/-! ## Definitions -/

/-- What precedes the first colon of a definition, without blanks around it. -/
def nameOf (token : String) : String :=
  String.ofList (strip (token.toList.takeWhile (· != ':')))

/-- What follows the first colon of a definition, without blanks around it. -/
def typeOf (token : String) : String :=
  String.ofList (strip (token.toList.dropWhile (· != ':')).tail)

/-- The text is the definition of a field. -/
structure IsDefinition (token : String) : Prop where
  /-- It has a colon. -/
  colon : ':' ∈ token.toList
  /-- There is a name before the first colon. -/
  name : nameOf token ≠ ""
  /-- There is a type behind it. -/
  type : typeOf token ≠ ""
  /-- If the type is a choice, it has values and no brackets in them. -/
  values : HasValues (typeOf token)

/-- The field that a definition describes. -/
structure IsField (token : String) (field : Field) : Prop where
  /-- It has the name of the definition. -/
  name : field.name = nameOf token
  /-- Its kind is what the type of the definition stands for. -/
  kind : IsKind (typeOf token) field.kind

/-- What is wrong with a definition. -/
inductive DefinitionFault (token : String) : ParseError → Prop where
  /-- It has no colon. -/
  | missingSeparator (hcolon : ':' ∉ token.toList) : DefinitionFault token (.missingSeparator token)
  /-- It has no name. -/
  | emptyName (hcolon : ':' ∈ token.toList) (hname : nameOf token = "") :
      DefinitionFault token (.emptyName token)
  /-- It has a name and no type. -/
  | emptyType (hcolon : ':' ∈ token.toList) (hname : nameOf token ≠ "")
      (htype : typeOf token = "") : DefinitionFault token (.emptyType (nameOf token))
  /-- It has both, and there is something wrong with the type. -/
  | kind {e : ParseError} (hcolon : ':' ∈ token.toList) (hname : nameOf token ≠ "")
      (htype : typeOf token ≠ "") (hkind : KindFault (nameOf token) (typeOf token).toList e) :
      DefinitionFault token e

section definitions

variable {token : String} {field : Field} {e : ParseError}

/-- A token without a colon is refused for it. -/
theorem splitDefinition_of_notMem (h : ':' ∉ token.toList) :
    splitDefinition token = .error (.missingSeparator token) := by
  unfold splitDefinition
  rw [splitFirst_eq_none_iff.mpr h]

/-- A text is split at the first separator in it. -/
theorem splitFirst_of_mem {sep : Char} {cs : List Char} (h : sep ∈ cs) :
    splitFirst sep cs = some (cs.takeWhile (· != sep), (cs.dropWhile (· != sep)).tail) := by
  induction cs with
  | nil => exact absurd h List.not_mem_nil
  | cons c rest ih =>
    rw [splitFirst]
    by_cases hc : c = sep
    · simp [hc]
    · rw [ih ((List.mem_cons.mp h).resolve_left (Ne.symm hc))]
      simp [hc]

/-- A token with a colon is split there, unless its name is empty. -/
theorem splitDefinition_of_mem (h : ':' ∈ token.toList) :
    splitDefinition token =
      if nameOf token = "" then .error (.emptyName token)
      else .ok (nameOf token, typeOf token) := by
  have hname : nameOf token = "" ↔ (strip (token.toList.takeWhile (· != ':'))).isEmpty = true := by
    rw [List.isEmpty_iff]
    simp [nameOf]
  unfold splitDefinition
  rw [splitFirst_of_mem h]
  simp only [hname]
  rfl

/-- No field is read without a colon. -/
theorem readField_of_notMem (h : ':' ∉ token.toList) :
    readField token = .error (.missingSeparator token) := by
  unfold readField
  rw [splitDefinition_of_notMem h]
  rfl

/-- With a name and a definition a field is read, unless the definition is empty. -/
theorem readField_of_splitDefinition {name definition : String}
    (h : splitDefinition token = .ok (name, definition)) :
    readField token =
      if definition = "" then .error (.emptyType name)
      else (readKind name definition).map (Field.mk name) := by
  have hempty : definition.isEmpty = true ↔ definition = "" := by simp
  unfold readField
  rw [h]
  by_cases hdefinition : definition = ""
  · rw [if_pos hdefinition, hdefinition]
    rfl
  · rw [if_neg hdefinition]
    change (if definition.isEmpty = true then _ else _) = _
    rw [if_neg (mt hempty.mp hdefinition)]
    cases readKind name definition <;> rfl

/-- How a token with a colon is read: first its name is looked at, then its type. -/
theorem readField_of_mem (h : ':' ∈ token.toList) :
    readField token =
      if nameOf token = "" then .error (.emptyName token)
      else if typeOf token = "" then .error (.emptyType (nameOf token))
      else (readKind (nameOf token) (typeOf token)).map (Field.mk (nameOf token)) := by
  have hsplit := splitDefinition_of_mem h
  by_cases hname : nameOf token = ""
  · rw [if_pos hname] at hsplit ⊢
    unfold readField
    rw [hsplit]
    rfl
  · rw [if_neg hname] at hsplit ⊢
    exact readField_of_splitDefinition hsplit

/-- A definition without a fault is read to its field, and one with a fault is refused for it. -/
theorem describedBy_readField (token : String) :
    DescribedBy (readField token) (fun field => IsDefinition token ∧ IsField token field)
      (DefinitionFault token) where
  accepted := by
    rintro field ⟨hdefinition, hfield⟩
    have hkind := (describedBy_readKind (nameOf token) (typeOf token)).accepted field.kind
      ⟨hdefinition.values, hfield.kind⟩
    rw [readField_of_mem hdefinition.colon, if_neg hdefinition.name, if_neg hdefinition.type, hkind,
      ← hfield.name]
    rfl
  refused := by
    intro e hfault
    cases hfault with
    | missingSeparator hcolon => exact readField_of_notMem hcolon
    | emptyName hcolon hname => rw [readField_of_mem hcolon, if_pos hname]
    | emptyType hcolon hname htype => rw [readField_of_mem hcolon, if_neg hname, if_pos htype]
    | kind hcolon hname htype hkind =>
      rw [readField_of_mem hcolon, if_neg hname, if_neg htype,
        (describedBy_readKind (nameOf token) (typeOf token)).refused e hkind]
      rfl
  total := by
    by_cases hcolon : ':' ∈ token.toList
    · by_cases hname : nameOf token = ""
      · exact Or.inr ⟨_, .emptyName hcolon hname⟩
      by_cases htype : typeOf token = ""
      · exact Or.inr ⟨_, .emptyType hcolon hname htype⟩
      rcases (describedBy_readKind (nameOf token) (typeOf token)).total with
        ⟨kind, hvalues, hkind⟩ | ⟨e, hfault⟩
      · exact Or.inl ⟨⟨nameOf token, kind⟩, ⟨hcolon, hname, htype, hvalues⟩, rfl, hkind⟩
      · exact Or.inr ⟨e, .kind hcolon hname htype hfault⟩
    · exact Or.inr ⟨_, .missingSeparator hcolon⟩

end definitions

/-! ## All definitions -/

/-- The tokens are the definitions of fields, each with a name of its own. -/
structure AreFields (tokens : List String) : Prop where
  /-- Every token is the definition of a field. -/
  definitions : ∀ token ∈ tokens, IsDefinition token
  /-- No name comes twice. -/
  distinct : (tokens.map nameOf).Nodup

/-- What is wrong with the leftmost token that has a fault: its own fault, or, if it has none, a
name that a token before it has. -/
def FirstFault (tokens : List String) (e : ParseError) : Prop :=
  ∃ before token after, tokens = before ++ token :: after ∧ AreFields before ∧
    (DefinitionFault token e ∨
      IsDefinition token ∧ nameOf token ∈ before.map nameOf ∧ e = .duplicateField (nameOf token))

section fields

variable {tokens before taken : List String} {fields : List Field} {e : ParseError}

/-- For all tokens there are fields that they could stand for. -/
theorem exists_forall₂_isField (tokens : List String) :
    ∃ fields, List.Forall₂ IsField tokens fields := by
  induction tokens with
  | nil => exact ⟨[], .nil⟩
  | cons token rest ih =>
    obtain ⟨kind, hkind⟩ := exists_isKind (typeOf token)
    obtain ⟨fields, hfields⟩ := ih
    exact ⟨⟨nameOf token, kind⟩ :: fields, .cons ⟨rfl, hkind⟩ hfields⟩

/-- The first token that cannot be read ends the reading. -/
theorem readTokens_cons_of_error {token : String} (h : readField token = .error e)
    (taken rest : List String) : readTokens taken (token :: rest) = .error e := by
  rw [readTokens, h]
  rfl

/-- A token that can be read gives a field, unless its name was taken before. -/
theorem readTokens_cons_of_ok {token : String} {field : Field} (h : readField token = .ok field)
    (taken rest : List String) :
    readTokens taken (token :: rest) =
      if field.name ∈ taken then .error (.duplicateField field.name)
      else (readTokens (field.name :: taken) rest).map (field :: ·) := by
  rw [readTokens, h]
  by_cases hname : field.name ∈ taken
  · rw [if_pos hname]
    change (if field.name ∈ taken then _ else _) = _
    rw [if_pos hname]
    rfl
  · rw [if_neg hname]
    change (if field.name ∈ taken then _ else _) = _
    rw [if_neg hname]
    cases readTokens (field.name :: taken) rest <;> rfl

/-- Definitions without a fault are read to their fields, and the reading goes on behind them. -/
theorem readTokens_append (hfields : List.Forall₂ IsField before fields)
    (hbefore : AreFields before) (htaken : ∀ token ∈ before, nameOf token ∉ taken)
    (rest : List String) :
    readTokens taken (before ++ rest) =
      (readTokens ((before.map nameOf).reverse ++ taken) rest).map (fields ++ ·) := by
  induction hfields generalizing taken with
  | nil =>
    rw [List.nil_append, List.map_nil, List.reverse_nil, List.nil_append]
    cases readTokens taken rest <;> rfl
  | @cons token field more moreFields hfield hmore ih =>
    obtain ⟨hdefinitions, hdistinct⟩ := hbefore
    rw [List.forall_mem_cons] at hdefinitions htaken
    rw [List.map_cons, List.nodup_cons] at hdistinct
    have hread := (describedBy_readField token).accepted field ⟨hdefinitions.1, hfield⟩
    have hmoreTaken : ∀ other ∈ more, nameOf other ∉ nameOf token :: taken := by
      intro other hother hmem
      rcases List.mem_cons.mp hmem with heq | hmem
      · exact hdistinct.1 (heq ▸ List.mem_map_of_mem hother)
      · exact htaken.2 other hother hmem
    rw [List.cons_append, readTokens_cons_of_ok hread, hfield.name, if_neg htaken.1,
      ih ⟨hdefinitions.2, hdistinct.2⟩ hmoreTaken, List.map_cons, List.reverse_cons,
      List.append_assoc, List.singleton_append]
    cases readTokens ((more.map nameOf).reverse ++ nameOf token :: taken) rest <;> rfl

/-- Definitions without a fault at the start of a description. -/
theorem readTokens_append_nil (hfields : List.Forall₂ IsField before fields)
    (hbefore : AreFields before) (rest : List String) :
    readTokens [] (before ++ rest) =
      (readTokens (before.map nameOf).reverse rest).map (fields ++ ·) := by
  have hread := readTokens_append hfields hbefore (fun token _ => List.not_mem_nil) rest
  rwa [List.append_nil] at hread

/-- No tokens are no fields. -/
theorem areFields_nil : AreFields [] :=
  ⟨by simp, List.nodup_nil⟩

/-- Tokens are the definitions of fields, or there is a leftmost one with a fault. -/
theorem areFields_or_firstFault (tokens : List String) :
    AreFields tokens ∨ ∃ e, FirstFault tokens e := by
  induction tokens using List.reverseRecOn with
  | nil => exact Or.inl areFields_nil
  | append_singleton tokens token ih =>
    rcases ih with hfields | ⟨e, before, first, after, rfl, hbefore, hfault⟩
    · rcases (describedBy_readField token).total with ⟨field, hdefinition, -⟩ | ⟨e, hfault⟩
      · by_cases hname : nameOf token ∈ tokens.map nameOf
        · exact Or.inr ⟨_, tokens, token, [], rfl, hfields, Or.inr ⟨hdefinition, hname, rfl⟩⟩
        · refine Or.inl ⟨?_, ?_⟩
          · rw [List.forall_mem_append, List.forall_mem_singleton]
            exact ⟨hfields.definitions, hdefinition⟩
          · rw [List.map_append, List.map_singleton, List.nodup_append]
            refine ⟨hfields.distinct, by simp, ?_⟩
            rintro name hmem other hother rfl
            rw [List.mem_singleton] at hother
            exact hname (hother ▸ hmem)
      · exact Or.inr ⟨e, tokens, token, [], rfl, hfields, Or.inl hfault⟩
    · exact Or.inr ⟨e, before, first, after ++ [token], by simp, hbefore, hfault⟩

/-- Tokens are read to their fields, or refused for the leftmost fault. -/
theorem describedBy_readTokens (tokens : List String) :
    DescribedBy (readTokens [] tokens)
      (fun fields => AreFields tokens ∧ List.Forall₂ IsField tokens fields)
      (FirstFault tokens) where
  accepted := by
    rintro fields ⟨htokens, hfields⟩
    have hread := readTokens_append_nil hfields htokens []
    rw [List.append_nil] at hread
    rw [hread, readTokens]
    simp [Except.map]
  refused := by
    rintro e ⟨before, token, after, rfl, hbefore, hfault⟩
    obtain ⟨fields, hfields⟩ := exists_forall₂_isField before
    rw [readTokens_append_nil hfields hbefore]
    rcases hfault with hfault | ⟨hdefinition, hname, rfl⟩
    · rw [readTokens_cons_of_error ((describedBy_readField token).refused e hfault)]
      rfl
    · obtain ⟨kind, hkind⟩ := exists_isKind (typeOf token)
      have hread := (describedBy_readField token).accepted ⟨nameOf token, kind⟩
        ⟨hdefinition, rfl, hkind⟩
      rw [readTokens_cons_of_ok hread, if_pos (List.mem_reverse.mpr hname)]
      rfl
  total := by
    rcases areFields_or_firstFault tokens with htokens | hfault
    · obtain ⟨fields, hfields⟩ := exists_forall₂_isField tokens
      exact Or.inl ⟨fields, htokens, hfields⟩
    · exact Or.inr hfault

/-! ## The whole description -/

/-- A description is accepted exactly if its brackets are balanced and its tokens are the
definitions of fields with distinct names; its fields are then those that the tokens describe, in
their order. Otherwise it is refused for its brackets, or else for the leftmost token with a
fault. -/
theorem readFields_accepts_iff (raw : String) :
    ((∃ fields, readFields raw = .ok fields) ↔
        IsBalanced raw.toList ∧ ∀ tokens, IsCut raw tokens → AreFields tokens) ∧
      (∀ fields, readFields raw = .ok fields ↔
        ∃ tokens, IsCut raw tokens ∧ AreFields tokens ∧ List.Forall₂ IsField tokens fields) ∧
      ∀ e, readFields raw = .error e ↔
        BracketFault raw.toList e ∨ ∃ tokens, IsCut raw tokens ∧ FirstFault tokens e := by
  have hok : ∀ fields, readFields raw = .ok fields ↔
      ∃ tokens, IsCut raw tokens ∧ AreFields tokens ∧ List.Forall₂ IsField tokens fields := by
    intro fields
    unfold readFields
    rw [bind_eq_ok_iff]
    simp only [splitTopLevel_eq_ok_iff, (describedBy_readTokens _).eq_ok_iff]
  refine ⟨⟨?_, ?_⟩, hok, ?_⟩
  · rintro ⟨fields, hread⟩
    obtain ⟨tokens, hcut, htokens, -⟩ := (hok fields).mp hread
    refine ⟨hcut.isBalanced, fun tokens' hcut' => ?_⟩
    rw [hcut'.unique hcut]
    exact htokens
  · rintro ⟨hbalanced, htokens⟩
    obtain ⟨tokens, hcut⟩ := exists_isCut hbalanced
    obtain ⟨fields, hfields⟩ := exists_forall₂_isField tokens
    exact ⟨fields, (hok fields).mpr ⟨tokens, hcut, htokens tokens hcut, hfields⟩⟩
  · intro e
    unfold readFields
    rw [bind_eq_error_iff]
    simp only [splitTopLevel_eq_ok_iff, splitTopLevel_eq_error_iff,
      (describedBy_readTokens _).eq_error_iff]

/-- The last bracket is the one that closes the choice, so there are brackets in its item. -/
example : readFields "a(b:c):string,k:enum(a) x (b)" =
    .error (.invalidEnumValue "k" "a) x (b") := by
  decide +kernel

end fields

end Scaffold
