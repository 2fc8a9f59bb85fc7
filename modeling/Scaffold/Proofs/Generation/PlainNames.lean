import Scaffold.Plan.Step
import Scaffold.Proofs.Description.Tokens
import Scaffold.Proofs.Entity.Expansion
import Scaffold.Proofs.Generation.Reading
import Scaffold.Proofs.Name.Signs
import Scaffold.Proofs.Template.Routes

/-!
# Requests with plain names

A request is read to names, and these go into the names of files and into route lines. Where they
have neither slashes nor line feeds (`Request.HasPlainNames`), the table of every entity of the
request is one component of a path and its route lines are single lines (`Entity.HasPlainNames`).
Reading adds no sign, so that a request that is written without slashes and line feeds is one of
these (`Request.hasPlainNames`).
-/

namespace Scaffold

/-! ## Of a request -/

/-- The names in a description have neither slashes nor line feeds. -/
structure Description.HasPlainNames (description : Description) : Prop where
  /-- The name of the entity has none. -/
  name : Name.IsPlain description.name
  /-- The names of the related entities have none. -/
  related : ∀ relation ∈ description.relations, Name.IsPlain relation.related

/-- The names that the request is read to have neither slashes nor line feeds. -/
def Request.HasPlainNames (request : Request) : Prop :=
  ∀ description, request.describe = .ok description → description.HasPlainNames

section reading

open Description

variable {tokens : List String} {token raw : String} {taken : List Relation} {relation : Relation}
  {found : ReadRelations}

/-- The name in a relation is a spelling of a part of its definition. -/
theorem exists_related_of_readRelation (h : readRelation token = .ok (.ok relation)) :
    ∃ written : String, written.toList ⊆ token.toList ∧
      relation.related = Name.canonical written := by
  unfold readRelation at h
  obtain ⟨⟨written, keyword⟩, hsplit, h⟩ := bind_eq_ok_iff.mp h
  refine ⟨written, subset_of_splitDefinition hsplit, ?_⟩
  dsimp only at h
  cases hkind : RelationKind.ofKeyword? keyword with
  | none =>
    rw [hkind] at h
    cases h
  | some kind =>
    rw [hkind] at h
    dsimp only at h
    split_ifs at h with hempty
    · cases h
    · rw [← Except.ok.inj (Except.ok.inj h)]

/-- Every relation was read from one of the tokens. -/
theorem exists_token_of_readRelationTokens (h : readRelationTokens taken tokens = .ok found)
    (hmem : relation ∈ found.relations) :
    ∃ token ∈ tokens, readRelation token = .ok (.ok relation) := by
  induction tokens generalizing taken found with
  | nil =>
    rw [← Except.ok.inj h] at hmem
    exact absurd hmem List.not_mem_nil
  | cons token rest ih =>
    have hlater : (∃ token ∈ rest, readRelation token = .ok (.ok relation)) →
        ∃ later ∈ token :: rest, readRelation later = .ok (.ok relation) := by
      rintro ⟨later, hlater, hread⟩
      exact ⟨later, List.mem_cons_of_mem _ hlater, hread⟩
    rw [readRelationTokens] at h
    obtain ⟨read, hread, h⟩ := bind_eq_ok_iff.mp h
    cases read with
    | error unknown =>
      obtain ⟨others, hothers, h⟩ := bind_eq_ok_iff.mp h
      rw [← Except.ok.inj h] at hmem
      exact hlater (ih hothers hmem)
    | ok first =>
      dsimp only at h
      split_ifs at h with htaken
      · exact hlater (ih h hmem)
      · obtain ⟨others, hothers, h⟩ := bind_eq_ok_iff.mp h
        rw [← Except.ok.inj h] at hmem
        rcases List.mem_cons.mp hmem with rfl | hmem
        · exact ⟨token, List.mem_cons_self, hread⟩
        · exact hlater (ih hothers hmem)

/-- The names in the relations that a text lists are spellings of parts of the text. -/
theorem exists_related_of_readRelations (h : readRelations raw = .ok found)
    (hmem : relation ∈ found.relations) :
    ∃ written : String, written.toList ⊆ raw.toList ∧
      relation.related = Name.canonical written := by
  unfold readRelations at h
  obtain ⟨tokens, hsplit, h⟩ := bind_eq_ok_iff.mp h
  obtain ⟨token, htoken, hread⟩ := exists_token_of_readRelationTokens h hmem
  obtain ⟨written, hwritten, heq⟩ := exists_related_of_readRelation hread
  exact ⟨written, List.Subset.trans hwritten (subset_of_mem_splitTopLevel hsplit htoken), heq⟩

/-- A request that is written without slashes and line feeds has plain names. -/
theorem Request.hasPlainNames {request : Request} (hentity : Name.IsPlain request.entity)
    (hrelations : Name.IsPlain (request.relations.getD "")) : request.HasPlainNames := by
  intro description h
  obtain ⟨fields, found, -, hfound, rfl⟩ := exists_of_describe h
  refine ⟨hentity.canonical, ?_⟩
  intro relation hrelation
  obtain ⟨written, hwritten, heq⟩ := exists_related_of_readRelations hfound hrelation
  have hplain : Name.IsPlain written :=
    ⟨fun hmem => hrelations.noSlash (hwritten hmem), fun hmem => hrelations.noFeed (hwritten hmem)⟩
  rw [heq]
  exact hplain.canonical

end reading

/-! ## Of an entity -/

/-- The names of an entity, and of the entities that it owns, have neither slashes nor line feeds.
-/
structure Entity.HasPlainNames (entity : Entity) : Prop where
  /-- Its names are the spellings of a name that has none. -/
  names : ∃ raw, Name.IsPlain raw ∧ entity.names = .of raw
  /-- The names of the entities that it owns have none. -/
  owned : ∀ related ∈ entity.owned, Name.IsPlain related

section plain

variable {description : Description} {entity : Entity}

/-- The root of a description with plain names has plain names. -/
theorem Description.HasPlainNames.root (h : description.HasPlainNames) :
    description.root.HasPlainNames where
  names := ⟨description.name, h.name, rfl⟩
  owned related hmem := by
    unfold Entity.owned Entity.relationsOf at hmem
    obtain ⟨relation, hrelation, rfl⟩ := List.mem_map.mp hmem
    exact h.related relation (List.mem_of_mem_filter hrelation)

/-- So has every entity that its expansion adds. -/
theorem Description.HasPlainNames.of_mem_expand (h : description.HasPlainNames)
    (hmem : entity ∈ description.root.expand) : entity.HasPlainNames := by
  rcases Entity.mem_expand hmem with rfl | ⟨name, hname, rfl⟩
  · exact h.root
  · refine ⟨⟨name, h.root.owned name hname, rfl⟩, ?_⟩
    intro related hrelated
    rw [Entity.owned_synthesized] at hrelated
    exact absurd hrelated List.not_mem_nil

namespace Entity.HasPlainNames

/-- The table of such an entity is plain. -/
theorem table (h : entity.HasPlainNames) : Name.IsPlain entity.table := by
  obtain ⟨raw, hraw, hnames⟩ := h.names
  unfold Entity.table
  rw [hnames]
  exact hraw.snakePlural

/-- Its routes are in groups of single lines. -/
theorem routeSet (h : entity.HasPlainNames) : Template.HasSingleLineGroups entity.routeSet := by
  obtain ⟨raw, hraw, hnames⟩ := h.names
  have hclass : ∀ name, Name.IsPlain name → '\n' ∉ (controllerClass (.of name)).toList := by
    intro name hname
    simp [controllerClass, hname.canonical.noFeed]
  intro group hgroup
  unfold Entity.routeSet at hgroup
  rw [hnames] at hgroup
  rcases List.mem_cons.mp hgroup with rfl | hgroup
  · exact ⟨hraw.snakePlural.noFeed, hclass raw hraw⟩
  · obtain ⟨related, hrelated, rfl⟩ := List.mem_map.mp hgroup
    have hplain := h.owned related hrelated
    refine ⟨?_, hclass related hplain⟩
    simp [nestedPath, hraw.snakePlural.noFeed, hraw.snake.noFeed, hplain.snakePlural.noFeed]

end Entity.HasPlainNames

end plain

end Scaffold
