import Mathlib.Tactic.SplitIfs
import Scaffold.Generation.Request
import Scaffold.Proofs.Except

/-!
# Reading requests

A request that can be read has a name, fields and relations that can be read
(`Request.exists_of_describe`). The relations of unknown kind among its tokens are rejected: these,
all of them, and in their order (`Request.rejected_of_describe`).
-/

namespace Scaffold

open Description

/-! ## Relations of unknown kind -/

/-- The relation that a token names, if its kind is unknown. -/
def rejected? (token : String) : Option UnknownRelation :=
  match splitDefinition token with
  | .error _ => none
  | .ok (related, keyword) =>
    if (RelationKind.ofKeyword? keyword).isNone then some { related, keyword } else none

section rejected

variable {token : String} {tokens : List String} {taken : List Relation} {found : ReadRelations}

/-- A token that is read without fault is rejected or gives a relation. -/
theorem rejected_or_read {read : Except UnknownRelation Relation}
    (h : readRelation token = .ok read) :
    (∃ unknown, read = .error unknown ∧ rejected? token = some unknown) ∨
      ∃ relation, read = .ok relation ∧ rejected? token = none := by
  unfold readRelation at h
  obtain ⟨⟨related, keyword⟩, hsplit, h⟩ := bind_eq_ok_iff.mp h
  unfold rejected?
  rw [hsplit]
  dsimp only at h ⊢
  cases hkind : RelationKind.ofKeyword? keyword with
  | none =>
    rw [hkind] at h
    exact Or.inl ⟨_, (Except.ok.inj h).symm, rfl⟩
  | some kind =>
    rw [hkind] at h
    dsimp only at h
    split_ifs at h with hempty
    · cases h
    · exact Or.inr ⟨_, (Except.ok.inj h).symm, rfl⟩

/-- What is rejected is what is rejected of the single tokens. -/
theorem rejected_of_readRelationTokens (h : readRelationTokens taken tokens = .ok found) :
    found.rejected = tokens.filterMap rejected? := by
  induction tokens generalizing taken found with
  | nil =>
    rw [← Except.ok.inj h]
    rfl
  | cons token rest ih =>
    rw [readRelationTokens] at h
    obtain ⟨read, hread, h⟩ := bind_eq_ok_iff.mp h
    rcases rejected_or_read hread with ⟨unknown, rfl, hrejected⟩ | ⟨relation, rfl, hrejected⟩
    · obtain ⟨others, hothers, h⟩ := bind_eq_ok_iff.mp h
      rw [← Except.ok.inj h, List.filterMap_cons_some hrejected, ← ih hothers]
    · rw [List.filterMap_cons_none hrejected]
      dsimp only at h
      split_ifs at h with htaken
      · exact ih h
      · obtain ⟨others, hothers, h⟩ := bind_eq_ok_iff.mp h
        rw [← Except.ok.inj h, ← ih hothers]

example : ["owner:hasOne", "tasks:hasMany"].filterMap rejected? = [⟨"owner", "hasOne"⟩] := by
  decide +kernel

end rejected

/-! ## Requests -/

namespace Request

variable {request : Request} {description : Description}

/-- A request that can be read is described by its fields and relations. -/
theorem exists_of_describe (h : request.describe = .ok description) :
    ∃ fields found, readFields request.fields = .ok fields ∧
      readRelations (request.relations.getD "") = .ok found ∧
      description = ⟨Name.canonical request.entity, fields, found.relations, found.rejected⟩ := by
  unfold Request.describe at h
  dsimp only at h
  split_ifs at h with hempty
  · cases h
  · obtain ⟨fields, hfields, h⟩ := bind_eq_ok_iff.mp h
    obtain ⟨found, hfound, h⟩ := bind_eq_ok_iff.mp h
    exact ⟨fields, found, hfields, hfound, (Except.ok.inj h).symm⟩

/-- The relations that are rejected are those of unknown kind, in the order of their tokens. -/
theorem rejected_of_describe (h : request.describe = .ok description) :
    ∃ tokens, splitTopLevel (request.relations.getD "") = .ok tokens ∧
      description.rejected = tokens.filterMap rejected? := by
  obtain ⟨fields, found, -, hfound, rfl⟩ := exists_of_describe h
  unfold readRelations at hfound
  obtain ⟨tokens, htokens, hfound⟩ := bind_eq_ok_iff.mp hfound
  exact ⟨tokens, htokens, rejected_of_readRelationTokens hfound⟩

end Request

end Scaffold
