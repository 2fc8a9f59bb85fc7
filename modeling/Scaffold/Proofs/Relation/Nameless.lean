import Scaffold.Proofs.Name.Canonical
import Scaffold.Proofs.Name.Conventions
import Scaffold.Proofs.Relation.Grammar

/-!
# Names that stand for nothing

A relation of known kind is refused if the canonical form of its name is empty. Main statement: that
is so exactly if the name is made of the three characters that separate words
(`readRelation_eq_error_iff_separators`); every other name is read, also one without a letter or a
digit (`readRelation_exclamation`).

Nothing else makes a text disappear: cutting into words drops only separators
(`forall_mem_wordsFrom_eq_nil_iff`), no case mapping drops a character (`upperChar_ne_nil`,
`lower_eq_nil_iff`), and no inflection drops a whole word (`inflect_eq_nil_iff`).
-/

namespace Scaffold

/-! ## What separators leave -/

namespace Text

variable {c : Char} {cs word cluster found : List Char} {parts : List (List Char)}

/-- A mapping of case leaves something of each character if all of its expansions do. -/
theorem mapCase_ne_nil {expansions : List (Nat × List Nat)} {runs : List CaseRun}
    (h : ∀ pair ∈ expansions, pair.2 ≠ []) (c : Char) : mapCase expansions runs c ≠ [] := by
  unfold mapCase
  split
  · next expansion hlookup =>
    obtain ⟨before, after, heq, -⟩ := List.lookup_eq_some_iff.mp hlookup
    have hmem : (c.toNat, expansion) ∈ expansions := by simp [heq]
    rw [Ne, List.map_eq_nil_iff]
    exact h _ hmem
  · exact List.cons_ne_nil _ _

/-- Upper case leaves something of each character. -/
theorem upperChar_ne_nil (c : Char) : upperChar c ≠ [] := by
  unfold upperChar
  split_ifs
  · exact List.cons_ne_nil _ _
  · exact mapCase_ne_nil (by decide +kernel) c

/-- So does lower case. -/
theorem lowerChar_ne_nil (c : Char) : lowerChar c ≠ [] := by
  unfold lowerChar
  split_ifs
  · exact List.cons_ne_nil _ _
  · exact mapCase_ne_nil (by decide +kernel) c

/-- Only the empty text is empty in lower case. -/
theorem lower_eq_nil_iff : lower cs = [] ↔ cs = [] := by
  cases cs with
  | nil => exact iff_of_true rfl rfl
  | cons c rest =>
    refine iff_of_false ?_ (List.cons_ne_nil _ _)
    rw [lower, lowerAfter]
    refine List.append_ne_nil_of_left_ne_nil ?_ _
    split_ifs
    · exact List.cons_ne_nil _ _
    · exact List.cons_ne_nil _ _
    · exact lowerChar_ne_nil c

/-- Only the empty word is empty with a capital. -/
theorem capitalWord_eq_nil_iff : capitalWord word = [] ↔ word = [] := by
  cases word with
  | nil => exact iff_of_true rfl rfl
  | cons c rest =>
    exact iff_of_false (List.append_ne_nil_of_left_ne_nil (upperChar_ne_nil c) _)
      (List.cons_ne_nil _ _)

/-- A capital in front does not empty a word. -/
theorem capitalizeFirst_ne_nil (hne : word ≠ []) : capitalizeFirst word ≠ [] := by
  obtain ⟨c, rest, rfl⟩ := List.exists_cons_of_ne_nil hne
  exact List.append_ne_nil_of_left_ne_nil (upperChar_ne_nil c) _

/-- Clusters are not empty, if the one that is open is not. -/
theorem ne_nil_of_mem_clustersFrom {s : ClusterState} (hne : cluster ≠ [])
    (h : found ∈ clustersFrom s cluster cs) : found ≠ [] := by
  induction cs generalizing s cluster with
  | nil =>
    rw [List.mem_singleton.mp h]
    simpa using hne
  | cons c rest ih =>
    rw [clustersFrom] at h
    split_ifs at h
    · exact ih (List.cons_ne_nil _ _) h
    · rcases List.mem_cons.mp h with rfl | hrest
      · simpa using hne
      · exact ih (List.cons_ne_nil _ _) hrest

/-- No cluster of a text is empty. -/
theorem ne_nil_of_mem_clusters (h : found ∈ clusters cs) : found ≠ [] := by
  cases cs with
  | nil => exact absurd h List.not_mem_nil
  | cons c rest => exact ne_nil_of_mem_clustersFrom (List.cons_ne_nil _ _) h

/-- Separators never join other characters, so they can be seen one by one. -/
theorem forall_mem_clusters_isSeparator_iff :
    (∀ cluster ∈ clusters cs, isSeparator cluster = true) ↔ ∀ c ∈ cs, isSeparator [c] = true := by
  constructor
  · intro h c hc
    rw [← flatten_clusters cs] at hc
    obtain ⟨cluster, hcluster, hmem⟩ := List.mem_flatten.mp hc
    have hseparator := h cluster hcluster
    simp only [isSeparator, Bool.or_eq_true, beq_iff_eq] at hseparator
    rcases hseparator with (rfl | rfl) | rfl <;> rw [List.mem_singleton.mp hmem] <;> rfl
  · intro h
    have hplain : ∀ c ∈ cs, isPlain c = true := by
      intro c hc
      rcases eq_of_isSeparator (h c hc) with rfl | rfl | rfl <;> decide
    rw [clusters_of_isPlain hplain, List.forall_mem_map]
    exact h

/-- All words are empty only where there is nothing but separators. -/
theorem forall_mem_wordsFrom_eq_nil_iff (hparts : ∀ cluster ∈ parts, cluster ≠ []) :
    (∀ found ∈ wordsFrom word parts, found = []) ↔
      word = [] ∧ ∀ cluster ∈ parts, isSeparator cluster = true := by
  induction parts generalizing word with
  | nil => simp [wordsFrom]
  | cons cluster rest ih =>
    rw [List.forall_mem_cons] at hparts
    have hrest : ∀ word, (∀ found ∈ wordsFrom word rest, found = []) ↔
        word = [] ∧ ∀ cluster ∈ rest, isSeparator cluster = true := fun word => ih hparts.2
    rw [wordsFrom.eq_def, List.forall_mem_cons]
    dsimp only
    split_ifs with hseparator
    · rw [List.forall_mem_cons, hrest, List.reverse_eq_nil_iff]
      simp [hseparator]
    · have hlonger : cluster.reverse ++ word ≠ [] :=
        List.append_ne_nil_of_left_ne_nil (by simpa using hparts.1) _
      refine iff_of_false (fun hall => hlonger ?_) fun hall => hseparator hall.2.1
      split at hall
      · split_ifs at hall
        · exact List.reverse_eq_nil_iff.mp (List.forall_mem_cons.mp hall).1
        · exact ((hrest _).mp hall).1
      · exact ((hrest _).mp hall).1

/-- Nothing is left in capitals exactly of a text that is made of separators. -/
theorem pascal_eq_nil_iff : pascal cs = [] ↔ ∀ c ∈ cs, isSeparator [c] = true := by
  have hwords : (∀ word ∈ words cs, word = []) ↔
      ∀ cluster ∈ clusters cs, isSeparator cluster = true := by
    unfold words
    split
    · next hnone => simp [hnone]
    · next first rest hclusters =>
      rw [← hclusters, forall_mem_wordsFrom_eq_nil_iff fun _ => ne_nil_of_mem_clusters]
      exact and_iff_right rfl
  unfold pascal
  rw [List.flatMap_eq_nil_iff, ← forall_mem_clusters_isSeparator_iff, ← hwords]
  simp only [capitalWord_eq_nil_iff]

end Text

/-! ## Canonical names -/

namespace Name

open Text

variable {name last : List Char} {rule : List Char → List Char} {raw : String}

/-- Inflection leaves something of a word if the rule does. -/
theorem inflectWord_ne_nil (hrule : ∀ word, word ≠ [] → rule word ≠ []) (hne : last ≠ []) :
    inflectWord rule last ≠ [] := by
  have hinflected : rule (lower last) ≠ [] := hrule _ (mt lower_eq_nil_iff.mp hne)
  unfold inflectWord
  dsimp only
  split_ifs
  · exact List.append_ne_nil_of_left_ne_nil hne _
  · exact capitalizeFirst_ne_nil hinflected
  · exact hinflected

/-- Only the empty name is inflected to the empty name. -/
theorem inflect_eq_nil_iff (hrule : ∀ word, word ≠ [] → rule word ≠ []) :
    inflect rule name = [] ↔ name = [] := by
  constructor
  · intro hnil
    by_contra hne
    obtain ⟨front, last, rfl, hword⟩ := exists_isLastWord hne
    rw [hword.inflect_eq] at hnil
    exact inflectWord_ne_nil hrule hword.ne_nil (List.append_eq_nil_iff.mp hnil).2
  · rintro rfl
    rfl

/-- A name stands for nothing exactly if it is made of separators. -/
theorem canonical_eq_empty_iff :
    canonical raw = "" ↔ ∀ c ∈ strip raw.toList, isSeparator [c] = true := by
  rw [← String.toList_inj, toList_canonical, String.toList_empty, singularize,
    inflect_eq_nil_iff fun _ => singularizeWord_ne_nil, pascal_eq_nil_iff]

end Name

/-! ## Relations -/

namespace Relation

open Text

variable {token : String} {kind : RelationKind}

/-- The name in a token has no blanks around it. -/
theorem strip_nameOf (token : String) : strip (nameOf token).toList = (nameOf token).toList := by
  unfold nameOf
  rw [String.toList_ofList, strip_strip]

/-- A relation of known kind with a name is refused for its name exactly if that is made of
separators; with any other name it is read. -/
theorem readRelation_eq_error_iff_separators (hcolon : ':' ∈ token.toList)
    (hname : nameOf token ≠ "") (hkind : kindOf? token = some kind) :
    (readRelation token = .error (.emptyName (trim token)) ↔
        ∀ c ∈ (nameOf token).toList, c = '_' ∨ c = '-' ∨ c = ' ') ∧
      ((∃ c ∈ (nameOf token).toList, c ≠ '_' ∧ c ≠ '-' ∧ c ≠ ' ') →
        readRelation token = .ok (.ok ⟨Name.canonical (nameOf token), kind⟩)) := by
  have hempty : Name.canonical (nameOf token) = "" ↔
      ∀ c ∈ (nameOf token).toList, c = '_' ∨ c = '-' ∨ c = ' ' := by
    rw [Name.canonical_eq_empty_iff, strip_nameOf]
    refine forall₂_congr fun c _ => ⟨eq_of_isSeparator, ?_⟩
    rintro (rfl | rfl | rfl) <;> rfl
  have hread := readRelation_of_mem hcolon
  rw [if_neg hname, hkind] at hread
  dsimp only at hread
  rw [hread, ← hempty]
  constructor
  · split_ifs with hnothing
    · exact iff_of_true rfl hnothing
    · exact iff_of_false (fun h => by cases h) hnothing
  · rintro ⟨c, hc, hunderscore, hhyphen, hspace⟩
    have hsomething : Name.canonical (nameOf token) ≠ "" := by
      intro hnothing
      rcases hempty.mp hnothing c hc with heq | heq | heq
      · exact hunderscore heq
      · exact hhyphen heq
      · exact hspace heq
    rw [if_neg hsomething]

/-- `__` stands for nothing, and `?` stands for itself. -/
theorem readRelation_underscores_mark :
    (nameOf " __ :hasMany" ≠ "" ∧ kindOf? " __ :hasMany" = some .hasMany ∧
        readRelation " __ :hasMany" = .error (.emptyName "__ :hasMany")) ∧
      nameOf "?:belongsTo" ≠ "" ∧ kindOf? "?:belongsTo" = some .belongsTo ∧
        readRelation "?:belongsTo" = .ok (.ok ⟨"?", .belongsTo⟩) := by
  have hunderscores : nameOf " __ :hasMany" = "__" := by decide +kernel
  have hmark : nameOf "?:belongsTo" = "?" := by decide +kernel
  have hmany : kindOf? " __ :hasMany" = some .hasMany := by decide +kernel
  have hone : kindOf? "?:belongsTo" = some .belongsTo := by decide +kernel
  have hcanonical : Name.canonical "?" = "?" := by decide +kernel
  have htrim : trim " __ :hasMany" = "__ :hasMany" := by decide +kernel
  refine ⟨⟨by rw [hunderscores]; decide, hmany, ?_⟩, by rw [hmark]; decide, hone, ?_⟩
  · rw [← htrim]
    refine (readRelation_eq_error_iff_separators (by decide) ?_ hmany).1.mpr ?_
    · rw [hunderscores]
      decide
    · rw [hunderscores]
      exact List.forall_mem_cons.mpr ⟨.inl rfl, List.forall_mem_singleton.mpr (.inl rfl)⟩
  · have hread := (readRelation_eq_error_iff_separators (by decide) (by rw [hmark]; decide) hone).2
      ⟨'?', by rw [hmark]; decide, by decide⟩
    rwa [hmark, hcanonical] at hread

/-- An exclamation mark has no letter and no digit, and yet it is the name of a relation. -/
theorem readRelation_exclamation :
    (∀ c ∈ (nameOf "!:hasMany").toList, c.isAlphanum = false) ∧
      readRelation "!:hasMany" = .ok (.ok ⟨"!", .hasMany⟩) ∧
      ¬∀ (token : String) (kind : RelationKind), ':' ∈ token.toList → nameOf token ≠ "" →
        kindOf? token = some kind → (∀ c ∈ (nameOf token).toList, isPlain c = true) →
        (readRelation token = .error (.emptyName (trim token)) ↔
          ∀ c ∈ (nameOf token).toList, c.isAlphanum = false) := by
  have hname : nameOf "!:hasMany" = "!" := by decide +kernel
  have hkind : kindOf? "!:hasMany" = some .hasMany := by decide +kernel
  have hcanonical : Name.canonical "!" = "!" := by decide +kernel
  have hsigns : ∀ c ∈ (nameOf "!:hasMany").toList, c.isAlphanum = false := by
    rw [hname]
    exact List.forall_mem_singleton.mpr (by decide)
  have hread : readRelation "!:hasMany" = .ok (.ok ⟨"!", .hasMany⟩) := by
    have hdefinition : IsDefinition "!:hasMany" := by
      refine ⟨by decide, by rw [hname]; decide, fun _ => ?_⟩
      rw [hname, hcanonical]
      decide
    rw [readRelation_of_kindOf?_eq_some hdefinition hkind, hname, hcanonical]
  refine ⟨hsigns, hread, fun hall => ?_⟩
  have hplain : ∀ c ∈ (nameOf "!:hasMany").toList, isPlain c = true := by
    rw [hname]
    exact List.forall_mem_singleton.mpr (by decide)
  have hclaim := hall "!:hasMany" .hasMany (by decide) (by rw [hname]; decide) hkind hplain
  rw [hread] at hclaim
  cases hclaim.mpr hsigns

end Relation

end Scaffold
