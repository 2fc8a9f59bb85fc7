import Mathlib.Data.List.Nodup
import Scaffold.Plan.Step
import Scaffold.Proofs.Name.Reversal
import Scaffold.Proofs.Relation.Nameless
import Scaffold.Proofs.Text.Signs

/-!
# The accessors of a model

A model has an accessor for every relation. It is called by the class that it leads to, in the
plural if there are many of it (`noun`), with a small letter in front. Relations that are read are
different, and their accessors may yet be called the same: a word like `fish` has no plural of its
own (`methods_fish`).

Main statement: `nodup_methods_of_readRelations`, for lists in plain text. The accessors have
different names exactly if their nouns are different in capitals, because the small letter in front
hides nothing there (`camel_eq_camel_iff`; elsewhere it can, `methods_theta`). Two accessors to one
class share a name exactly if they are of one kind or the class has no plural of its own. And where
every related name is found again from itself and from its plural (`IsStable`), nothing else makes
two accessors share a name.
-/

namespace Scaffold

/-! ## A small letter in front -/

namespace Text

variable {c d : Char} {cs ds : List Char}

/-- The first word begins with what was read before. -/
theorem exists_wordsFrom_eq (word cs : List Char) :
    ∃ run others, wordsFrom word (cs.map ([·])) = (word.reverse ++ run) :: others := by
  induction cs generalizing word with
  | nil => exact ⟨[], [], by rw [List.append_nil]; rfl⟩
  | cons c rest ih =>
    by_cases hc : isSeparator [c] = true
    · exact ⟨[], _, by rw [wordsFrom_separator hc, List.append_nil]⟩
    · rw [wordsFrom_cons (Bool.eq_false_iff.mpr hc), List.reverse_cons]
      split_ifs
      · exact ⟨[c], _, rfl⟩
      · obtain ⟨run, others, heq⟩ := ih (c :: word)
        exact ⟨c :: run, others, by rw [heq, List.reverse_cons, List.append_assoc]; rfl⟩

/-- A letter in capitals is, in small letters again, the letter in small letters. -/
theorem toLower_toUpper (hc : isWordChar c = true) : c.toUpper.toLower = c.toLower :=
  forall_isWordChar (p := fun c => c.toUpper.toLower = c.toLower) (by decide) hc

/-- Text without separators differs in its first character only from what it is in capitals. -/
theorem camel_eq (h : ∀ c ∈ cs, isWordChar c = true) :
    camel cs = (pascal cs).modifyHead Char.toLower := by
  cases cs with
  | nil => rfl
  | cons c rest =>
    have hplain : ∀ d ∈ c :: rest, isPlain d = true := fun d hd => isPlain_of_isWordChar (h d hd)
    obtain ⟨run, others, hwords⟩ : ∃ run others, words (c :: rest) = (c :: run) :: others := by
      have hc := (isWordChar_iff.mp (h c List.mem_cons_self)).2
      rw [words_of_isPlain (List.cons_ne_nil c rest) hplain, wordsFrom_cons hc]
      split_ifs
      · exact ⟨[], _, rfl⟩
      · exact exists_wordsFrom_eq [c] rest
    have hfirst : ∀ d ∈ c :: run, isPlain d = true := fun d hd =>
      hplain d (mem_of_mem_words (hwords ▸ List.mem_cons_self) hd)
    have hcapital :=
      capitalWord_cons (hfirst c List.mem_cons_self) (List.forall_mem_cons.mp hfirst).2
    unfold camel pascal
    rw [hwords]
    dsimp only
    rw [List.flatMap_cons, hcapital, lower_of_isPlain hfirst, List.cons_append,
      List.modifyHead_cons, toLower_toUpper (h c List.mem_cons_self)]
    rfl

/-- Characters that are no small letters are told apart by their small letters. -/
theorem eq_of_toLower_eq (hc : isWordChar c = true ∧ c.isLower = false)
    (hd : isWordChar d = true ∧ d.isLower = false) (h : c.toLower = d.toLower) : c = d := by
  have hback : ∀ {c : Char}, isWordChar c = true → c.isLower = false → recase true c.toLower = c :=
    fun hc => forall_isWordChar (p := fun c => c.isLower = false → recase true c.toLower = c)
      (by decide) hc
  rw [← hback hc.1 hc.2, h, hback hd.1 hd.2]

/-- Text in capitals is told apart by what it is with a small letter in front. -/
theorem modifyHead_toLower_inj (hcs : IsStudly cs) (hds : IsStudly ds) :
    cs.modifyHead Char.toLower = ds.modifyHead Char.toLower ↔ cs = ds := by
  refine ⟨fun h => ?_, congrArg _⟩
  cases cs with
  | nil =>
    cases ds with
    | nil => rfl
    | cons d more => cases h
  | cons c rest =>
    cases ds with
    | nil => cases h
    | cons d more =>
      obtain ⟨hheads, hrest⟩ := List.cons.inj h
      have hsame := eq_of_toLower_eq ⟨hcs.isWordChar c List.mem_cons_self, hcs.head c rfl⟩
        ⟨hds.isWordChar d List.mem_cons_self, hds.head d rfl⟩ hheads
      rw [hsame, hrest]

/-- Texts without separators are the same with a small letter in front exactly if they are in
capitals. -/
theorem camel_eq_camel_iff (hcs : ∀ c ∈ cs, isWordChar c = true)
    (hds : ∀ c ∈ ds, isWordChar c = true) : camel cs = camel ds ↔ pascal cs = pascal ds := by
  have hstudly : ∀ {cs : List Char}, (∀ c ∈ cs, isWordChar c = true) → IsStudly (pascal cs) :=
    fun h => isStudly_pascal fun c hc => isPlain_of_isWordChar (h c hc)
  rw [camel_eq hcs, camel_eq hds, modifyHead_toLower_inj (hstudly hcs) (hstudly hds)]

/-- Capitals do not matter in small letters. -/
theorem map_toLower_pascalFrom (start : Bool) (h : ∀ c ∈ cs, isWordChar c = true) :
    (pascalFrom start cs).map Char.toLower = cs.map Char.toLower := by
  induction cs generalizing start with
  | nil => rfl
  | cons c rest ih =>
    rw [List.forall_mem_cons] at h
    have hsame : (recase start c).toLower = c.toLower :=
      forall_isWordChar (p := fun c => ∀ start, (recase start c).toLower = c.toLower) (by decide)
        h.1 start
    rw [pascalFrom, if_neg (Bool.eq_false_iff.mp (isWordChar_iff.mp h.1).2), List.map_cons, hsame,
      ih _ h.2, List.map_cons]

/-- Writing a text in capitals keeps its letters. -/
theorem map_toLower_pascal (h : ∀ c ∈ cs, isWordChar c = true) :
    (pascal cs).map Char.toLower = cs.map Char.toLower := by
  rw [pascal_eq fun c hc => isPlain_of_isWordChar (h c hc), map_toLower_pascalFrom true h]

end Text

/-! ## Names and their plurals -/

namespace Name

open Text

variable {name : List Char} {raw : String}

/-- A name in capitals stands for something. -/
theorem canonical_ne_empty (h : IsStudly raw.toList) (hne : raw ≠ "") : canonical raw ≠ "" := by
  rw [Ne, canonical_eq_empty_iff, strip_of_isWordChar h.isWordChar]
  intro hseparators
  obtain ⟨c, rest, heq⟩ := List.exists_cons_of_ne_nil (mt String.toList_eq_nil_iff.mp hne)
  have hc : c ∈ raw.toList := heq ▸ List.mem_cons_self
  have hword := (isWordChar_iff.mp (h.isWordChar c hc)).2
  rw [hseparators c hc] at hword
  cases hword

/-- A name is in capitals like its plural exactly if its last word has no plural of its own. -/
theorem pascal_pluralize_eq_pascal_iff (h : IsStudly name) (hne : name ≠ []) :
    pascal (pluralize name) = pascal name ↔ lower (splitLastWord name).2 ∈ uncountable := by
  obtain ⟨front, last, rfl, hword⟩ := exists_isLastWord hne
  have hlast : ∀ c ∈ last, isWordChar c = true := fun c hc =>
    h.isWordChar c (List.mem_append_right _ hc)
  rw [hword.splitLastWord_eq, ← pluralizeWord_eq_self_iff]
  constructor
  · intro heq
    have hspells := spells_inflectWord hword.ne_nil hlast
      (exchanges_pluralizeWord (lower_ne_nil hword.ne_nil hlast))
    have hletters := isWordChar_of_mem_inflect (fun _ => exchanges_pluralizeWord) h
    have hsmall := congrArg (List.map Char.toLower) heq
    rw [pluralize, map_toLower_pascal hletters, map_toLower_pascal h.isWordChar, hword.inflect_eq,
      List.map_append, List.map_append, List.append_cancel_left_eq,
      ← lower_of_isWordChar (hspells.isWordChar_of_mem hlast), hspells.lower_eq hlast,
      ← lower_of_isWordChar hlast] at hsmall
    exact hsmall
  · intro hplural
    have hsame : pluralize (front ++ last) = front ++ last :=
      (inflect_eq_self_iff (fun _ => exchanges_pluralizeWord) hword hlast).mpr hplural
    rw [hsame]

/-- A name that is found again from itself and from its plural. -/
structure IsStable (name : String) : Prop where
  /-- It is its own canonical form. -/
  canonical : Name.canonical name = name
  /-- It is the canonical form of its plural. -/
  plural : Name.canonical (Spellings.of name).studlyPlural = name

end Name

/-! ## Relations and their accessors -/

namespace Relation

open Text

variable {raw : String} {found : ReadRelations} {relation r s : Relation} {entity : Entity}

/-- Relations that are read are different. -/
theorem nodup_of_readRelations (h : readRelations raw = .ok found) : found.relations.Nodup := by
  unfold readRelations at h
  obtain ⟨tokens, -, htokens⟩ := bind_eq_ok_iff.mp h
  rw [((describedBy_readRelationTokens tokens).eq_ok_iff.mp htokens).relations]
  exact nodup_eraseDups _

/-- Different relations to one entity relate it in both ways. -/
theorem both_ways_of_ne (hrelated : r.related = s.related) (hne : r ≠ s) :
    ∃ name, r = ⟨name, .hasMany⟩ ∧ s = ⟨name, .belongsTo⟩ ∨
      r = ⟨name, .belongsTo⟩ ∧ s = ⟨name, .hasMany⟩ := by
  obtain ⟨name, kind⟩ := r
  obtain ⟨other, kind'⟩ := s
  obtain rfl : name = other := hrelated
  refine ⟨name, ?_⟩
  cases kind with
  | hasMany =>
    cases kind' with
    | hasMany => exact absurd rfl hne
    | belongsTo => exact Or.inl ⟨rfl, rfl⟩
  | belongsTo =>
    cases kind' with
    | hasMany => exact Or.inr ⟨rfl, rfl⟩
    | belongsTo => exact absurd rfl hne

/-- The relation names an entity in capitals. -/
structure IsNamed (relation : Relation) : Prop where
  /-- The name is in capitals. -/
  isStudly : IsStudly relation.related.toList
  /-- The name stands for something. -/
  nonempty : relation.related ≠ ""

/-- In plain text every relation names an entity in capitals. -/
theorem isNamed_of_readRelations (hplain : ∀ c ∈ raw.toList, isPlain c = true)
    (h : readRelations raw = .ok found) (hmem : relation ∈ found.relations) :
    relation.IsNamed := by
  unfold readRelations at h
  obtain ⟨tokens, hsplit, htokens⟩ := bind_eq_ok_iff.mp h
  have hdescribes := (describedBy_readRelationTokens tokens).eq_ok_iff.mp htokens
  rw [hdescribes.relations, List.mem_eraseDups, List.mem_filterMap] at hmem
  obtain ⟨token, htoken, hof⟩ := hmem
  obtain ⟨kind, hkind, rfl⟩ := Option.map_eq_some_iff.mp hof
  have hname : (nameOf token).toList ⊆ raw.toList := by
    intro c hc
    rw [nameOf, String.toList_ofList] at hc
    exact Description.subset_of_mem_splitTopLevel hsplit htoken
      (List.takeWhile_subset _ (mem_of_mem_strip hc))
  refine ⟨Name.isStudly_canonical fun c hc => hplain c (hname (mem_of_mem_strip hc)), ?_⟩
  exact (hdescribes.definitions token htoken).canonical (hkind ▸ Option.some_ne_none kind)

/-- What the accessor of a relation is called by: the class that it leads to, in the plural if there
are many of it. -/
def noun (relation : Relation) : List Char :=
  match relation.kind with
  | .hasMany => Name.pluralize (Entity.accessor relation).related.toList
  | .belongsTo => (Entity.accessor relation).related.toList

/-- The noun of a relation to many is the plural of the class. -/
theorem noun_of_hasMany (h : relation.kind = .hasMany) :
    relation.noun = Name.pluralize (Entity.accessor relation).related.toList := by
  rw [noun, h]

/-- The noun of a relation to one is the class. -/
theorem noun_of_belongsTo (h : relation.kind = .belongsTo) :
    relation.noun = (Entity.accessor relation).related.toList := by
  rw [noun, h]

/-- The name of an accessor is its noun with a small letter in front. -/
theorem method_accessor (relation : Relation) :
    (Entity.accessor relation).method = String.ofList (camel relation.noun) := by
  obtain ⟨related, kind⟩ := relation
  cases kind <;> rfl

namespace IsNamed

/-- The class that the accessor leads to is in capitals as well. -/
theorem isStudly_class (h : relation.IsNamed) :
    IsStudly (Entity.accessor relation).related.toList := by
  have hplain : ∀ c ∈ strip relation.related.toList, isPlain c = true := fun c hc =>
    isPlain_of_isWordChar (h.isStudly.isWordChar c (mem_of_mem_strip hc))
  exact Name.isStudly_canonical hplain

/-- The class of a relation with a name has a name. -/
theorem class_ne_nil (h : relation.IsNamed) : (Entity.accessor relation).related.toList ≠ [] :=
  mt String.toList_eq_nil_iff.mp (Name.canonical_ne_empty h.isStudly h.nonempty)

/-- The noun of such a relation is made of letters and digits. -/
theorem isWordChar_of_mem_noun (h : relation.IsNamed) :
    ∀ c ∈ relation.noun, isWordChar c = true := by
  cases hkind : relation.kind with
  | hasMany =>
    rw [noun_of_hasMany hkind]
    exact Name.isWordChar_of_mem_inflect (fun _ => Name.exchanges_pluralizeWord) h.isStudly_class
  | belongsTo =>
    rw [noun_of_belongsTo hkind]
    exact h.isStudly_class.isWordChar

/-- Accessors share a name exactly if their nouns are the same in capitals. -/
theorem method_eq_iff (hr : r.IsNamed) (hs : s.IsNamed) :
    (Entity.accessor r).method = (Entity.accessor s).method ↔ pascal r.noun = pascal s.noun := by
  rw [method_accessor, method_accessor, String.ofList_inj,
    camel_eq_camel_iff hr.isWordChar_of_mem_noun hs.isWordChar_of_mem_noun]

/-- Accessors to one class share a name exactly if they are of one kind or the class has no plural
of its own. -/
theorem method_eq_iff_of_related_eq (hr : r.IsNamed) (hs : s.IsNamed)
    (hclass : (Entity.accessor r).related = (Entity.accessor s).related) :
    (Entity.accessor r).method = (Entity.accessor s).method ↔
      r.kind = s.kind ∨
        lower (Name.splitLastWord (Entity.accessor r).related.toList).2 ∈ Name.uncountable := by
  have hplural := Name.pascal_pluralize_eq_pascal_iff hr.isStudly_class hr.class_ne_nil
  rw [method_eq_iff hr hs]
  cases hrkind : r.kind with
  | hasMany =>
    rw [noun_of_hasMany hrkind]
    cases hskind : s.kind with
    | hasMany =>
      rw [noun_of_hasMany hskind, ← hclass]
      exact iff_of_true rfl (Or.inl rfl)
    | belongsTo =>
      rw [noun_of_belongsTo hskind, ← hclass, or_iff_right RelationKind.noConfusion]
      exact hplural
  | belongsTo =>
    rw [noun_of_belongsTo hrkind]
    cases hskind : s.kind with
    | hasMany =>
      rw [noun_of_hasMany hskind, ← hclass, or_iff_right RelationKind.noConfusion, eq_comm]
      exact hplural
    | belongsTo =>
      rw [noun_of_belongsTo hskind, ← hclass]
      exact iff_of_true rfl (Or.inl rfl)

/-- A stable name is found again from the noun of its accessor, whatever its kind. -/
theorem singularize_pascal_noun (h : relation.IsNamed) (hstable : Name.IsStable relation.related) :
    Name.singularize (pascal relation.noun) = relation.related.toList := by
  have hback : Name.canonical (String.ofList relation.noun) = relation.related := by
    cases hkind : relation.kind with
    | hasMany =>
      rw [noun_of_hasMany hkind]
      exact hstable.plural
    | belongsTo =>
      rw [noun_of_belongsTo hkind, String.ofList_toList]
      exact (congrArg Name.canonical hstable.canonical).trans hstable.canonical
  have hlist := congrArg String.toList hback
  rwa [Name.toList_canonical, String.toList_ofList,
    Name.strip_of_isWordChar h.isWordChar_of_mem_noun] at hlist

end IsNamed

/-- Accessors have different names exactly if their nouns are different in capitals. -/
theorem nodup_methods_iff (hdistinct : entity.relations.Nodup)
    (hnamed : ∀ relation ∈ entity.relations, relation.IsNamed) :
    (entity.model.accessors.map Accessor.method).Nodup ↔
      (entity.relations.map fun relation => pascal relation.noun).Nodup := by
  have hmethods : entity.model.accessors.map Accessor.method =
      entity.relations.map fun relation => (Entity.accessor relation).method := List.map_map
  rw [hmethods, List.nodup_map_iff_inj_on hdistinct, List.nodup_map_iff_inj_on hdistinct]
  refine forall₂_congr fun r hr => forall₂_congr fun s hs => ?_
  rw [(hnamed r hr).method_eq_iff (hnamed s hs)]

/-- Stable names give accessors different names unless an entity is related in both ways whose last
word has no plural of its own. -/
theorem nodup_methods_iff_of_isStable (hdistinct : entity.relations.Nodup)
    (hnamed : ∀ relation ∈ entity.relations, relation.IsNamed)
    (hstable : ∀ relation ∈ entity.relations, Name.IsStable relation.related) :
    (entity.model.accessors.map Accessor.method).Nodup ↔
      ∀ name, ⟨name, .hasMany⟩ ∈ entity.relations → ⟨name, .belongsTo⟩ ∈ entity.relations →
        lower (Name.splitLastWord name.toList).2 ∉ Name.uncountable := by
  have hboth : ∀ name, ⟨name, .hasMany⟩ ∈ entity.relations → ⟨name, .belongsTo⟩ ∈ entity.relations →
      ((Entity.accessor ⟨name, .hasMany⟩).method = (Entity.accessor ⟨name, .belongsTo⟩).method ↔
        lower (Name.splitLastWord name.toList).2 ∈ Name.uncountable) := by
    intro name hmany hone
    have hclass : (Entity.accessor ⟨name, .hasMany⟩).related = name := (hstable _ hmany).canonical
    have hshared := (hnamed _ hmany).method_eq_iff_of_related_eq (hnamed _ hone) rfl
    rwa [hclass, or_iff_right RelationKind.noConfusion] at hshared
  have hmethods : entity.model.accessors.map Accessor.method =
      entity.relations.map fun relation => (Entity.accessor relation).method := List.map_map
  rw [hmethods, List.nodup_map_iff_inj_on hdistinct]
  constructor
  · intro hinj name hmany hone hmem
    cases hinj _ hmany _ hone ((hboth name hmany hone).mpr hmem)
  · intro hapart r hr s hs hshared
    have hnouns := ((hnamed r hr).method_eq_iff (hnamed s hs)).mp hshared
    have hrelated : r.related = s.related := by
      rw [← String.toList_inj, ← (hnamed r hr).singularize_pascal_noun (hstable r hr), hnouns,
        (hnamed s hs).singularize_pascal_noun (hstable s hs)]
    by_contra hne
    obtain ⟨name, ⟨rfl, rfl⟩ | ⟨rfl, rfl⟩⟩ := both_ways_of_ne hrelated hne
    · exact hapart name hr hs ((hboth name hr hs).mp hshared)
    · exact hapart name hs hr ((hboth name hs hr).mp hshared.symm)

/-- Of an entity that carries the relations that a plain text lists, the accessors have different
names exactly if their nouns are different in capitals. Two accessors to one class share a name
exactly if they are of one kind or the last word of the class has no plural of its own. If all
related names are stable, exactly such a word in a name that is related in both ways takes away that
the names are different. -/
theorem nodup_methods_of_readRelations (hplain : ∀ c ∈ raw.toList, isPlain c = true)
    (hread : readRelations raw = .ok found) (hentity : entity.relations = found.relations) :
    ((entity.model.accessors.map Accessor.method).Nodup ↔
        (entity.relations.map fun relation => pascal relation.noun).Nodup) ∧
      (∀ r ∈ entity.relations, ∀ s ∈ entity.relations,
        (Entity.accessor r).related = (Entity.accessor s).related →
          ((Entity.accessor r).method = (Entity.accessor s).method ↔
            r.kind = s.kind ∨
              lower (Name.splitLastWord (Entity.accessor r).related.toList).2 ∈ Name.uncountable)) ∧
      ((∀ relation ∈ entity.relations, Name.IsStable relation.related) →
        ((entity.model.accessors.map Accessor.method).Nodup ↔
          ∀ name, ⟨name, .hasMany⟩ ∈ entity.relations → ⟨name, .belongsTo⟩ ∈ entity.relations →
            lower (Name.splitLastWord name.toList).2 ∉ Name.uncountable)) := by
  have hdistinct : entity.relations.Nodup := hentity ▸ nodup_of_readRelations hread
  have hnamed : ∀ relation ∈ entity.relations, relation.IsNamed := fun _ hmem =>
    isNamed_of_readRelations hplain hread (hentity ▸ hmem)
  refine ⟨nodup_methods_iff hdistinct hnamed, ?_, fun hstable => ?_⟩
  · intro r hr s hs hclass
    exact (hnamed r hr).method_eq_iff_of_related_eq (hnamed s hs) hclass
  · exact nodup_methods_iff_of_isStable hdistinct hnamed hstable

/-- `tasks` and `owner` are called differently, and so are `items` and `item`. A `cache` and a
`cach`, which `caches` is read to, share their plural. -/
theorem nodup_methods_tasks_caches :
    readRelations "tasks:hasMany,owner:belongsTo,item:hasMany,items:belongsTo" =
        .ok ⟨[⟨"Task", .hasMany⟩, ⟨"Owner", .belongsTo⟩, ⟨"Item", .hasMany⟩,
          ⟨"Item", .belongsTo⟩], []⟩ ∧
      ((Entity.root "project" [] [⟨"Task", .hasMany⟩, ⟨"Owner", .belongsTo⟩, ⟨"Item", .hasMany⟩,
        ⟨"Item", .belongsTo⟩]).model.accessors.map Accessor.method).Nodup ∧
      readRelations "cache:hasMany,caches:hasMany" =
        .ok ⟨[⟨"Cache", .hasMany⟩, ⟨"Cach", .hasMany⟩], []⟩ ∧
      ¬((Entity.root "project" [] [⟨"Cache", .hasMany⟩,
        ⟨"Cach", .hasMany⟩]).model.accessors.map Accessor.method).Nodup := by
  have hread : readRelations "tasks:hasMany,owner:belongsTo,item:hasMany,items:belongsTo" =
      .ok ⟨[⟨"Task", .hasMany⟩, ⟨"Owner", .belongsTo⟩, ⟨"Item", .hasMany⟩,
        ⟨"Item", .belongsTo⟩], []⟩ := by decide +kernel
  have hcaches : readRelations "cache:hasMany,caches:hasMany" =
      .ok ⟨[⟨"Cache", .hasMany⟩, ⟨"Cach", .hasMany⟩], []⟩ := by decide +kernel
  refine ⟨hread, ?_, hcaches, ?_⟩
  · have hplain : ∀ c ∈ "tasks:hasMany,owner:belongsTo,item:hasMany,items:belongsTo".toList,
        isPlain c = true := List.all_eq_true.mp (by decide)
    have hmethods := @nodup_methods_of_readRelations _ _ (.root "project" [] _) hplain hread rfl
    have htask : Name.IsStable "Task" := ⟨by decide +kernel, by decide +kernel⟩
    have howner : Name.IsStable "Owner" := ⟨by decide +kernel, by decide +kernel⟩
    have hitem : Name.IsStable "Item" := ⟨by decide +kernel, by decide +kernel⟩
    refine (hmethods.2.2 ?_).mpr ?_
    · simp only [Entity.root, List.forall_mem_cons]
      exact ⟨htask, howner, hitem, hitem, fun _ hmem => absurd hmem List.not_mem_nil⟩
    · intro name hmany hone
      simp only [Entity.root, List.mem_cons, Relation.mk.injEq, reduceCtorEq, and_true, and_false,
        List.not_mem_nil, or_false, false_or] at hmany hone
      rcases hmany with rfl | rfl
      · exact absurd hone (by decide)
      · decide +kernel
  · have hplain : ∀ c ∈ "cache:hasMany,caches:hasMany".toList, isPlain c = true :=
      List.all_eq_true.mp (by decide)
    rw [(@nodup_methods_of_readRelations _ _ (.root "project" [] _) hplain hcaches rfl).1]
    decide +kernel

/-- A lake has many `fish` and belongs to a `fish`. -/
theorem methods_fish :
    readRelations "fish:hasMany,fish:belongsTo" =
        .ok ⟨[⟨"Fish", .hasMany⟩, ⟨"Fish", .belongsTo⟩], []⟩ ∧
      (Entity.root "lake" [] [⟨"Fish", .hasMany⟩, ⟨"Fish", .belongsTo⟩]).model.accessors.map
        Accessor.method = ["fish", "fish"] ∧
      ¬∀ (raw : String) (found : ReadRelations) (entity : Entity), readRelations raw = .ok found →
        entity.relations = found.relations →
          (entity.model.accessors.map Accessor.method).Nodup := by
  have hread : readRelations "fish:hasMany,fish:belongsTo" =
      .ok ⟨[⟨"Fish", .hasMany⟩, ⟨"Fish", .belongsTo⟩], []⟩ := by decide +kernel
  have hmethods : (Entity.root "lake" []
      [⟨"Fish", .hasMany⟩, ⟨"Fish", .belongsTo⟩]).model.accessors.map Accessor.method =
        ["fish", "fish"] := by decide +kernel
  refine ⟨hread, hmethods, fun hall => ?_⟩
  have hnodup := hall _ _ (Entity.root "lake" [] _) hread rfl
  rw [hmethods] at hnodup
  exact absurd hnodup (by decide)

/-- Outside of plain text the small letter in front can hide a difference: the theta and the theta
symbol are two capitals of one small letter. -/
theorem methods_theta :
    readRelations "\u0398eta:hasMany,\u03F4eta:hasMany" =
        .ok ⟨[⟨"\u0398eta", .hasMany⟩, ⟨"\u03F4eta", .hasMany⟩], []⟩ ∧
      pascal (noun ⟨"\u0398eta", .hasMany⟩) ≠ pascal (noun ⟨"\u03F4eta", .hasMany⟩) ∧
      (Entity.root "letter" [] [⟨"\u0398eta", .hasMany⟩,
        ⟨"\u03F4eta", .hasMany⟩]).model.accessors.map Accessor.method =
          ["\u03B8etas", "\u03B8etas"] :=
  ⟨by decide +kernel, by decide +kernel, by decide +kernel⟩

end Relation

end Scaffold
