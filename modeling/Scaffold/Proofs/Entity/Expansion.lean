import Scaffold.Entity.Expansion
import Scaffold.Proofs.Repetitions

/-!
# The entities of an expansion

An added entity owns nothing, so the queue is worked off after one round: the expansion of a root is
the root and an entity for each new name among those it owns (`expand_eq`, `mem_expand`). Said
without the queue and the set of names that were met, these are the names that the root owns, each
where it comes first, except for its own (`expand_eq_cons_map`). Only the first entity is a root
(`pairwise_isRoot_expand`).

Names are met as they are written, and entities are called by canonical names. Where the owned names
are canonical the two agree: no two entities have the same name (`nodup_map_name_expand`), and every
owned name has its entity (`exists_mem_expand`).
-/

namespace Scaffold

namespace Entity

variable {entity root : Entity} {owner : String} {met names : List String} {queue : List Entity}

/-- An entity owns the names that it has many of. -/
theorem mem_owned {name : String} :
    name ∈ entity.owned ↔ ∃ relation ∈ entity.relations,
      relation.kind = .hasMany ∧ relation.related = name := by
  simp [owned, relationsOf, and_assoc]

/-- An entity that is discovered is added for one of the names. -/
theorem mem_discover (h : entity ∈ (discover owner met names).1) :
    ∃ name ∈ names, entity = synthesized name owner := by
  induction names generalizing met with
  | nil => exact absurd h List.not_mem_nil
  | cons name rest ih =>
    have hrest : ∀ met', entity ∈ (discover owner met' rest).1 →
        ∃ other ∈ name :: rest, entity = synthesized other owner := by
      intro met' hmem
      obtain ⟨other, hother, heq⟩ := ih hmem
      exact ⟨other, List.mem_cons_of_mem _ hother, heq⟩
    rw [discover] at h
    split at h
    · exact hrest _ h
    · rcases List.mem_cons.mp h with rfl | h
      · exact ⟨name, List.mem_cons_self, rfl⟩
      · exact hrest _ h

/-- Every name that an entity owns has been met, or an entity is added for it. -/
theorem mem_met_or_mem_discover {name : String} (h : name ∈ names) :
    name ∈ met ∨ synthesized name owner ∈ (discover owner met names).1 := by
  induction names generalizing met with
  | nil => exact absurd h List.not_mem_nil
  | cons first rest ih =>
    rw [discover]
    split
    · next hmet =>
      rcases List.mem_cons.mp h with rfl | h
      · exact Or.inl hmet
      · exact ih h
    · rcases List.mem_cons.mp h with rfl | h
      · exact Or.inr List.mem_cons_self
      · have hrest : name ∈ first :: met ∨
            synthesized name owner ∈ (discover owner (first :: met) rest).1 := ih h
        rcases hrest with hmet | hmem
        · rcases List.mem_cons.mp hmet with rfl | hmet
          · exact Or.inr List.mem_cons_self
          · exact Or.inl hmet
        · exact Or.inr (List.mem_cons_of_mem _ hmem)

/-- For canonical names, an added entity has a name that was not met before. -/
theorem name_notMem_of_mem_discover (hcanonical : ∀ name ∈ names, Name.canonical name = name)
    (h : entity ∈ (discover owner met names).1) : entity.name ∉ met := by
  induction names generalizing met with
  | nil => exact absurd h List.not_mem_nil
  | cons first rest ih =>
    rw [List.forall_mem_cons] at hcanonical
    rw [discover] at h
    split at h
    · exact ih hcanonical.2 h
    · next hnew =>
      rcases List.mem_cons.mp h with rfl | h
      · rwa [name_synthesized, hcanonical.1]
      · exact fun hmet => ih hcanonical.2 h (List.mem_cons_of_mem _ hmet)

/-- The visited names are compared as they are written; canonical names are the names of their
entities, so that no two of these have the same. -/
theorem nodup_map_name_discover (hcanonical : ∀ name ∈ names, Name.canonical name = name) :
    ((discover owner met names).1.map name).Nodup := by
  induction names generalizing met with
  | nil => exact List.nodup_nil
  | cons first rest ih =>
    rw [List.forall_mem_cons] at hcanonical
    rw [discover]
    split
    · exact ih hcanonical.2
    · rw [List.map_cons, List.nodup_cons, name_synthesized, hcanonical.1]
      refine ⟨?_, ih hcanonical.2⟩
      intro hfirst
      obtain ⟨other, hother, hname⟩ := List.mem_map.mp hfirst
      exact name_notMem_of_mem_discover hcanonical.2 hother (hname ▸ List.mem_cons_self)

/-- An entity is added for each name that has not been met, where it comes first. -/
theorem discover_fst (owner : String) (met names : List String) :
    (discover owner met names).1 =
      (names.filter (· ∉ met)).eraseDups.map fun name => synthesized name owner := by
  induction names generalizing met with
  | nil => rfl
  | cons name rest ih =>
    rw [discover, eraseDups_filter_notMem_cons]
    split_ifs
    · exact ih met
    · dsimp only
      rw [ih (name :: met), List.map_cons]

/-- Entities that own nothing add nothing. -/
theorem expandFrom_eq_self (h : ∀ entity ∈ queue, entity.owned = []) :
    expandFrom met queue = queue := by
  induction queue generalizing met with
  | nil => rw [expandFrom]
  | cons entity rest ih =>
    rw [List.forall_mem_cons] at h
    rw [expandFrom, h.1, discover]
    dsimp only
    rw [List.append_nil, ih h.2]

/-- The root, and an entity for each new name among those it owns. -/
theorem expand_eq (root : Entity) :
    root.expand = root :: (discover root.name [root.name] root.owned).1 := by
  have howned : ∀ entity ∈ (discover root.name [root.name] root.owned).1, entity.owned = [] := by
    intro entity hentity
    obtain ⟨name, -, rfl⟩ := mem_discover hentity
    exact owned_synthesized name root.name
  unfold expand
  rw [expandFrom, List.nil_append, expandFrom_eq_self howned]

/-- The expansion of a root is the root, and then one entity for each of the names in its relations
of the kind `hasMany`, in the order in which the names first occur, without its own name. Relations
of the other kind add nothing, and however the names repeat or lead back to the root, the queue runs
empty. -/
theorem expand_eq_cons_map (root : Entity) :
    root.expand = root ::
      (((root.relations.filter fun relation => relation.kind = .hasMany).map
        Relation.related).filter
        (· ≠ root.name)).eraseDups.map fun name => synthesized name root.name := by
  have howned : (root.relations.filter fun relation => relation.kind = .hasMany).map
      Relation.related = root.owned := by
    unfold owned relationsOf
    congr 2
  have hnew : root.owned.filter (· ∉ [root.name]) = root.owned.filter (· ≠ root.name) := by
    simp only [List.mem_singleton]
  rw [expand_eq, discover_fst, howned, hnew]

/-- A name that comes again, one that leads back to the root, and one of another kind. -/
example : (Entity.root "post" [] [⟨"Tag", .hasMany⟩, ⟨"User", .belongsTo⟩, ⟨"Post", .hasMany⟩,
    ⟨"Note", .hasMany⟩, ⟨"Tag", .hasMany⟩]).expand.map name = ["Post", "Tag", "Note"] := by
  rw [expand_eq]
  decide +kernel

/-- An entity of an expansion is the root, or is added for a name that the root owns. -/
theorem mem_expand (h : entity ∈ root.expand) :
    entity = root ∨ ∃ name ∈ root.owned, entity = synthesized name root.name := by
  rw [expand_eq] at h
  exact (List.mem_cons.mp h).imp_right mem_discover

/-- The entities of an expansion have different names, if the owned names are canonical. -/
theorem nodup_map_name_expand (hcanonical : ∀ name ∈ root.owned, Name.canonical name = name) :
    (root.expand.map name).Nodup := by
  rw [expand_eq, List.map_cons, List.nodup_cons]
  refine ⟨?_, nodup_map_name_discover hcanonical⟩
  intro hroot
  obtain ⟨other, hother, hname⟩ := List.mem_map.mp hroot
  exact name_notMem_of_mem_discover hcanonical hother (hname ▸ List.mem_cons_self)

/-- An expansion has an entity for every name that its root owns, if the name is canonical. -/
theorem exists_mem_expand {name : String} (h : name ∈ root.owned)
    (hcanonical : Name.canonical name = name) : ∃ entity ∈ root.expand, entity.name = name := by
  rw [expand_eq]
  rcases mem_met_or_mem_discover h with hmet | hadded
  · exact ⟨root, List.mem_cons_self, (List.mem_singleton.mp hmet).symm⟩
  · exact ⟨_, List.mem_cons_of_mem _ hadded, hcanonical⟩

/-- A root that owns one name stays alone exactly if the name is its own. -/
theorem expand_root_eq_singleton_iff (name related : String) (fields : List Field) :
    (Entity.root name fields [⟨related, .hasMany⟩]).expand =
        [Entity.root name fields [⟨related, .hasMany⟩]] ↔
      related = Name.canonical name := by
  have howned : (Entity.root name fields [⟨related, .hasMany⟩]).owned = [related] := rfl
  rw [expand_eq, howned, name_root, List.cons.injEq, and_iff_right rfl, discover]
  by_cases hmet : related ∈ [Name.canonical name]
  · rw [if_pos hmet]
    exact iff_of_true rfl (List.mem_singleton.mp hmet)
  · rw [if_neg hmet]
    exact iff_of_false (List.cons_ne_nil _ _) (mt List.mem_singleton.mpr hmet)

/-- No two entities of an expansion are both roots. -/
theorem pairwise_isRoot_expand (root : Entity) :
    root.expand.Pairwise fun _ later => later.isRoot = false := by
  have hadded : ∀ entity ∈ (discover root.name [root.name] root.owned).1,
      entity.isRoot = false := by
    intro entity hentity
    obtain ⟨name, -, rfl⟩ := mem_discover hentity
    rfl
  rw [expand_eq, List.pairwise_cons]
  exact ⟨hadded, List.pairwise_of_forall_mem_list fun _ _ later hlater => hadded later hlater⟩

end Entity

end Scaffold
