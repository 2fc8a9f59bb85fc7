import Scaffold.Proofs.Field.Grammar
import Scaffold.Proofs.Repetitions
import Scaffold.Relation.Parse

/-!
# The grammar of relations

What a list of relations is, said without the reader, and that the reader loses and invents nothing
(`readRelations_eq_ok_iff_accounts`).

* A definition is a name and a kind around its first colon. A kind that is unknown makes it no
  fault; a name that stands for nothing does, if the kind is known (`IsDefinition`,
  `DefinitionFault`, `describedBy_readRelation`).
* A list of definitions stands for the relations of known kind, each where it comes first, and for
  what is rejected, in its order (`Describes`); otherwise there is a leftmost definition with a
  fault, and nothing before it matters (`FirstFault`, `describedBy_readRelationTokens`).
* The brackets of the whole description come before all of this (`BracketFault`).
-/

namespace Scaffold.Relation

open Text Description

/-! ## Definitions -/

/-- The words that stand for a kind. -/
def kindTable : List (String × RelationKind) :=
  [("hasMany", .hasMany), ("belongsTo", .belongsTo)]

/-- The kind of a definition, if it is known. -/
def kindOf? (token : String) : Option RelationKind :=
  kindTable.lookup (typeOf token)

/-- The relation that a definition of known kind describes. -/
def of? (token : String) : Option Relation :=
  (kindOf? token).map fun kind => ⟨Name.canonical (nameOf token), kind⟩

/-- What is rejected of a definition of unknown kind: its name and the word for its kind. -/
def unknownOf? (token : String) : Option UnknownRelation :=
  if kindOf? token = none then some ⟨nameOf token, typeOf token⟩ else none

/-- The text is a definition, of a relation or of something that is rejected. -/
structure IsDefinition (token : String) : Prop where
  /-- It has a colon. -/
  colon : ':' ∈ token.toList
  /-- There is a name before the first colon. -/
  name : nameOf token ≠ ""
  /-- If its kind is known, the name stands for something. -/
  canonical : kindOf? token ≠ none → Name.canonical (nameOf token) ≠ ""

/-- A definition is either rejected or describes a relation. -/
theorem of?_cases (token : String) :
    (kindOf? token = none ∧ of? token = none ∧
        unknownOf? token = some ⟨nameOf token, typeOf token⟩) ∨
      ∃ kind, kindOf? token = some kind ∧
        of? token = some ⟨Name.canonical (nameOf token), kind⟩ ∧ unknownOf? token = none := by
  cases hkind : kindOf? token with
  | none => exact Or.inl ⟨rfl, by simp [of?, hkind], by simp [unknownOf?, hkind]⟩
  | some kind => exact Or.inr ⟨kind, rfl, by simp [of?, hkind], by simp [unknownOf?, hkind]⟩

/-- What is wrong with a definition. -/
inductive DefinitionFault (token : String) : ParseError → Prop where
  /-- It has no colon. -/
  | missingSeparator (hcolon : ':' ∉ token.toList) : DefinitionFault token (.missingSeparator token)
  /-- It has no name. -/
  | emptyName (hcolon : ':' ∈ token.toList) (hname : nameOf token = "") :
      DefinitionFault token (.emptyName token)
  /-- Its kind is known and its name stands for nothing. -/
  | nothing (hcolon : ':' ∈ token.toList) (hname : nameOf token ≠ "") (hkind : kindOf? token ≠ none)
      (hcanonical : Name.canonical (nameOf token) = "") :
      DefinitionFault token (.emptyName (trim token))

section definitions

variable {token : String} {kind : RelationKind}

/-- The keywords are those of the table of kinds. -/
theorem ofKeyword?_eq_lookup (keyword : String) :
    RelationKind.ofKeyword? keyword = kindTable.lookup keyword := by
  unfold RelationKind.ofKeyword? kindTable
  by_cases hmany : keyword = "hasMany"
  · rw [hmany]
    rfl
  · by_cases hone : keyword = "belongsTo"
    · rw [hone]
      rfl
    · simp [List.lookup_cons, hmany, hone, beq_eq_false_iff_ne.mpr]

/-- A token without a colon lacks its separator. -/
theorem readRelation_of_notMem (h : ':' ∉ token.toList) :
    readRelation token = .error (.missingSeparator token) := by
  unfold readRelation
  rw [splitDefinition_of_notMem h]
  rfl

/-- Once a token is split, the keyword decides whether it is a relation. -/
theorem readRelation_of_splitDefinition {name keyword : String}
    (h : splitDefinition token = .ok (name, keyword)) :
    readRelation token =
      match kindTable.lookup keyword with
      | none => .ok (.error ⟨name, keyword⟩)
      | some kind =>
        if Name.canonical name = "" then .error (.emptyName (trim token))
        else .ok (.ok ⟨Name.canonical name, kind⟩) := by
  have hempty : (Name.canonical name).isEmpty = true ↔ Name.canonical name = "" := by simp
  unfold readRelation
  rw [h, ← ofKeyword?_eq_lookup]
  cases hkind : RelationKind.ofKeyword? keyword with
  | none =>
    simp only [bind, Except.bind, hkind]
    rfl
  | some kind =>
    simp only [bind, Except.bind, hkind, hempty]
    split_ifs <;> rfl

/-- A token with a colon fails if it names nothing, and is rejected if its type is unknown. -/
theorem readRelation_of_mem (h : ':' ∈ token.toList) :
    readRelation token =
      if nameOf token = "" then .error (.emptyName token)
      else
        match kindOf? token with
        | none => .ok (.error ⟨nameOf token, typeOf token⟩)
        | some kind =>
          if Name.canonical (nameOf token) = "" then .error (.emptyName (trim token))
          else .ok (.ok ⟨Name.canonical (nameOf token), kind⟩) := by
  have hsplit := splitDefinition_of_mem h
  by_cases hname : nameOf token = ""
  · rw [if_pos hname] at hsplit ⊢
    unfold readRelation
    rw [hsplit]
    rfl
  · rw [if_neg hname] at hsplit ⊢
    unfold kindOf?
    exact readRelation_of_splitDefinition hsplit

/-- A definition is read to what it describes or what is rejected of it, and one with a fault is
refused for it. -/
theorem describedBy_readRelation (token : String) :
    DescribedBy (readRelation token)
      (fun read => IsDefinition token ∧ match kindOf? token with
        | none => read = .error ⟨nameOf token, typeOf token⟩
        | some kind => read = .ok ⟨Name.canonical (nameOf token), kind⟩)
      (DefinitionFault token) where
  accepted := by
    rintro read ⟨hdefinition, hread⟩
    have hcanonical := hdefinition.canonical
    rw [readRelation_of_mem hdefinition.colon, if_neg hdefinition.name]
    cases hkind : kindOf? token with
    | none =>
      rw [hkind] at hread
      rw [hread]
    | some kind =>
      rw [hkind] at hread hcanonical
      dsimp only at hread ⊢
      rw [if_neg (hcanonical (Option.some_ne_none kind)), hread]
  refused := by
    intro e hfault
    cases hfault with
    | missingSeparator hcolon => exact readRelation_of_notMem hcolon
    | emptyName hcolon hname => rw [readRelation_of_mem hcolon, if_pos hname]
    | nothing hcolon hname hkind hcanonical =>
      obtain ⟨kind, hkind⟩ := Option.ne_none_iff_exists'.mp hkind
      rw [readRelation_of_mem hcolon, if_neg hname, hkind]
      dsimp only
      rw [if_pos hcanonical]
  total := by
    by_cases hcolon : ':' ∈ token.toList
    · by_cases hname : nameOf token = ""
      · exact Or.inr ⟨_, .emptyName hcolon hname⟩
      by_cases hnothing : kindOf? token ≠ none ∧ Name.canonical (nameOf token) = ""
      · exact Or.inr ⟨_, .nothing hcolon hname hnothing.1 hnothing.2⟩
      · have hdefinition : IsDefinition token :=
          ⟨hcolon, hname, fun hkind hcanonical => hnothing ⟨hkind, hcanonical⟩⟩
        cases kindOf? token with
        | none => exact Or.inl ⟨_, hdefinition, rfl⟩
        | some kind => exact Or.inl ⟨_, hdefinition, rfl⟩
    · exact Or.inr ⟨_, .missingSeparator hcolon⟩

/-- A definition of no known kind is rejected with both of its halves. -/
theorem readRelation_of_kindOf?_eq_none (h : IsDefinition token) (hkind : kindOf? token = none) :
    readRelation token = .ok (.error ⟨nameOf token, typeOf token⟩) := by
  apply (describedBy_readRelation token).accepted
  rw [hkind]
  exact ⟨h, rfl⟩

/-- A definition of a known kind is a relation to the canonical name. -/
theorem readRelation_of_kindOf?_eq_some (h : IsDefinition token)
    (hkind : kindOf? token = some kind) :
    readRelation token = .ok (.ok ⟨Name.canonical (nameOf token), kind⟩) := by
  apply (describedBy_readRelation token).accepted
  rw [hkind]
  exact ⟨h, rfl⟩

end definitions

/-! ## All definitions -/

/-- What the tokens stand for. -/
structure Describes (tokens : List String) (found : ReadRelations) : Prop where
  /-- Every token is a definition. -/
  definitions : ∀ token ∈ tokens, IsDefinition token
  /-- The relations are those of known kind, each where it comes first. -/
  relations : found.relations = (tokens.filterMap of?).eraseDups
  /-- The others are rejected. -/
  rejected : found.rejected = tokens.filterMap unknownOf?

/-- The relations that are dropped because they come again, each as often as it does. -/
def repeated (tokens : List String) : List Relation :=
  (tokens.filterMap of?).diff (tokens.filterMap of?).eraseDups

/-- What is wrong with the leftmost token that is no definition. -/
def FirstFault (tokens : List String) (e : ParseError) : Prop :=
  ∃ before token after, tokens = before ++ token :: after ∧
    (∀ other ∈ before, IsDefinition other) ∧ DefinitionFault token e

section tokens

variable {tokens before taken : List String} {token : String}
  {found : ReadRelations} {e : ParseError}

/-- The first token that fails ends the reading. -/
theorem readRelationTokens_cons_of_error (h : readRelation token = .error e) (taken : List Relation)
    (rest : List String) : readRelationTokens taken (token :: rest) = .error e := by
  rw [readRelationTokens, h]
  rfl

/-- A rejected token comes first among the rejected ones. -/
theorem readRelationTokens_cons_of_unknown {unknown : UnknownRelation}
    (h : readRelation token = .ok (.error unknown)) (taken : List Relation) (rest : List String) :
    readRelationTokens taken (token :: rest) =
      (readRelationTokens taken rest).map fun found =>
        { found with rejected := unknown :: found.rejected } := by
  rw [readRelationTokens, h]
  change (readRelationTokens taken rest >>= _) = _
  cases readRelationTokens taken rest <;> rfl

/-- A relation is taken unless the same one was taken before. -/
theorem readRelationTokens_cons_of_relation {relation : Relation}
    (h : readRelation token = .ok (.ok relation)) (taken : List Relation) (rest : List String) :
    readRelationTokens taken (token :: rest) =
      if relation ∈ taken then readRelationTokens taken rest
      else
        (readRelationTokens (relation :: taken) rest).map fun found =>
          { found with relations := relation :: found.relations } := by
  rw [readRelationTokens, h]
  change (if relation ∈ taken then _ else _) = _
  split_ifs
  · rfl
  · cases readRelationTokens (relation :: taken) rest <;> rfl

/-- Definitions are read to what they stand for. -/
theorem readRelationTokens_of_isDefinition (h : ∀ token ∈ tokens, IsDefinition token)
    (taken : List Relation) :
    readRelationTokens taken tokens =
      .ok ⟨((tokens.filterMap of?).filter (· ∉ taken)).eraseDups, tokens.filterMap unknownOf?⟩ := by
  -- a relation that is found counts as taken for what follows, so `taken` varies
  induction tokens generalizing taken with
  | nil => rfl
  | cons token rest ih =>
    rw [List.forall_mem_cons] at h
    rcases of?_cases token with ⟨hkind, hof, hunknown⟩ | ⟨kind, hkind, hof, hunknown⟩
    · rw [readRelationTokens_cons_of_unknown (readRelation_of_kindOf?_eq_none h.1 hkind), ih h.2,
        List.filterMap_cons_none hof, List.filterMap_cons_some hunknown]
      rfl
    · rw [readRelationTokens_cons_of_relation (readRelation_of_kindOf?_eq_some h.1 hkind),
        List.filterMap_cons_some hof, List.filterMap_cons_none hunknown,
        eraseDups_filter_notMem_cons]
      split_ifs
      · exact ih h.2 taken
      · rw [ih h.2]
        rfl

/-- The leftmost fault is the one that is reported, whatever was read before it. -/
theorem readRelationTokens_of_firstFault (h : FirstFault tokens e) (taken : List Relation) :
    readRelationTokens taken tokens = .error e := by
  obtain ⟨before, token, after, rfl, hbefore, hfault⟩ := h
  induction before generalizing taken with
  | nil =>
    exact readRelationTokens_cons_of_error ((describedBy_readRelation token).refused e hfault) taken
      after
  | cons first before ih =>
    rw [List.forall_mem_cons] at hbefore
    rw [List.cons_append]
    cases hkind : kindOf? first with
    | none =>
      rw [readRelationTokens_cons_of_unknown (readRelation_of_kindOf?_eq_none hbefore.1 hkind),
        ih _ hbefore.2]
      rfl
    | some kind =>
      rw [readRelationTokens_cons_of_relation (readRelation_of_kindOf?_eq_some hbefore.1 hkind)]
      split_ifs
      · exact ih taken hbefore.2
      · rw [ih _ hbefore.2]
        rfl

/-- All tokens are definitions, or there is a leftmost one with a fault. -/
theorem isDefinition_or_firstFault (tokens : List String) :
    (∀ token ∈ tokens, IsDefinition token) ∨ ∃ e, FirstFault tokens e := by
  induction tokens with
  | nil => exact Or.inl fun token htoken => absurd htoken List.not_mem_nil
  | cons first rest ih =>
    rcases (describedBy_readRelation first).total with ⟨read, hfirst, -⟩ | ⟨e, hfault⟩
    · rcases ih with hrest | ⟨e, before, token, after, rfl, hbefore, hfault⟩
      · exact Or.inl (List.forall_mem_cons.mpr ⟨hfirst, hrest⟩)
      · exact Or.inr ⟨e, first :: before, token, after, rfl,
          List.forall_mem_cons.mpr ⟨hfirst, hbefore⟩, hfault⟩
    · exact Or.inr ⟨e, [], first, rest, rfl, by simp, hfault⟩

/-- Tokens are read to what they stand for, or refused for the leftmost fault. -/
theorem describedBy_readRelationTokens (tokens : List String) :
    DescribedBy (readRelationTokens [] tokens) (Describes tokens) (FirstFault tokens) where
  accepted := by
    rintro found ⟨hdefinitions, hrelations, hrejected⟩
    have hall : (tokens.filterMap of?).filter (· ∉ []) = tokens.filterMap of? := by simp
    rw [readRelationTokens_of_isDefinition hdefinitions, hall, ← hrelations, ← hrejected]
  refused := fun e hfault => readRelationTokens_of_firstFault hfault []
  total := by
    rcases isDefinition_or_firstFault tokens with hdefinitions | hfault
    · exact Or.inl ⟨⟨_, _⟩, hdefinitions, rfl, rfl⟩
    · exact Or.inr hfault

/-- Every token has a known kind or is rejected. -/
theorem length_filterMap_add (tokens : List String) :
    (tokens.filterMap of?).length + (tokens.filterMap unknownOf?).length = tokens.length := by
  induction tokens with
  | nil => rfl
  | cons token rest ih =>
    rcases of?_cases token with ⟨-, hof, hunknown⟩ | ⟨kind, -, hof, hunknown⟩
    · rw [List.filterMap_cons_none hof, List.filterMap_cons_some hunknown, List.length_cons,
        List.length_cons]
      omega
    · rw [List.filterMap_cons_some hof, List.filterMap_cons_none hunknown, List.length_cons,
        List.length_cons]
      omega

/-- Every token is counted once. -/
theorem Describes.length_eq (h : Describes tokens found) :
    tokens.length = found.relations.length + found.rejected.length + (repeated tokens).length := by
  have hkinds := length_filterMap_add tokens
  have hrepeated := (eraseDups_append_diff_perm (tokens.filterMap of?)).length_eq
  rw [List.length_append] at hrepeated
  unfold repeated
  rw [h.relations, h.rejected]
  omega

end tokens

/-! ## The whole description -/

/-- A description is accepted exactly if its brackets are balanced and its tokens are definitions.
What is found is then what the tokens stand for, and each token is an accepted relation, a rejected
one or a repetition. Otherwise the description is refused for its brackets, or else for the leftmost
token with a fault. -/
theorem readRelations_eq_ok_iff_accounts (raw : String) :
    ((∃ found, readRelations raw = .ok found) ↔
        IsBalanced raw.toList ∧
          ∀ tokens, IsCut raw tokens → ∀ token ∈ tokens, IsDefinition token) ∧
      (∀ found, readRelations raw = .ok found ↔
        ∃ tokens, IsCut raw tokens ∧ Describes tokens found ∧
          tokens.length =
            found.relations.length + found.rejected.length + (repeated tokens).length) ∧
      ∀ e, readRelations raw = .error e ↔
        BracketFault raw.toList e ∨ ∃ tokens, IsCut raw tokens ∧ FirstFault tokens e := by
  have hok : ∀ found, readRelations raw = .ok found ↔
      ∃ tokens, IsCut raw tokens ∧ Describes tokens found := by
    intro found
    unfold readRelations
    rw [bind_eq_ok_iff]
    simp only [splitTopLevel_eq_ok_iff, (describedBy_readRelationTokens _).eq_ok_iff]
  refine ⟨⟨?_, ?_⟩, ?_, ?_⟩
  · rintro ⟨found, hread⟩
    obtain ⟨tokens, hcut, htokens⟩ := (hok found).mp hread
    refine ⟨hcut.isBalanced, fun tokens' hcut' => ?_⟩
    rw [hcut'.unique hcut]
    exact htokens.definitions
  · rintro ⟨hbalanced, htokens⟩
    obtain ⟨tokens, hcut⟩ := exists_isCut hbalanced
    exact ⟨⟨_, _⟩, (hok _).mpr ⟨tokens, hcut, htokens tokens hcut, rfl, rfl⟩⟩
  · intro found
    rw [hok]
    constructor
    · rintro ⟨tokens, hcut, htokens⟩
      exact ⟨tokens, hcut, htokens, htokens.length_eq⟩
    · rintro ⟨tokens, hcut, htokens, -⟩
      exact ⟨tokens, hcut, htokens⟩
  · intro e
    unfold readRelations
    rw [bind_eq_error_iff]
    simp only [splitTopLevel_eq_ok_iff, splitTopLevel_eq_error_iff,
      (describedBy_readRelationTokens _).eq_error_iff]

/-- An unknown kind is only rejected, even where the name stands for nothing. -/
example : readRelations "tasks:hasMany,_:ownsMany,task:hasMany,task:belongsTo" =
    .ok ⟨[⟨"Task", .hasMany⟩, ⟨"Task", .belongsTo⟩], [⟨"_", "ownsMany"⟩]⟩ := by
  decide +kernel

end Scaffold.Relation
