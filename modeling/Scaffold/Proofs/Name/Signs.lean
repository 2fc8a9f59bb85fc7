import Scaffold.Name.Spellings
import Scaffold.Proofs.Text.Signs
import Scaffold.Proofs.Text.Strip

/-!
# Signs in spellings

Inflection adds small letters only (`mem_pluralizeWord`, `mem_singularizeWord`), so a sign in any
spelling of a name was in the name as it was written (`mem_canonical`, `mem_spellings_snakePlural`).
A name without slashes and line feeds therefore has no spelling with one, which is what paths and
route lines need of it (`IsPlain`).
-/

namespace Scaffold.Name

open Text

variable {d : Char} {word name : List Char}

/-! ## One word -/

/-- Dropping an end adds nothing. -/
theorem mem_of_mem_dropEnd {n : Nat} (h : d ∈ dropEnd n word) : d ∈ word :=
  List.mem_of_mem_take h

/-- An ending of small letters adds nothing else. -/
theorem mem_of_mem_append {ending : List Char} (hletters : ending.all Char.isLower = true)
    (hd : d.isLower = false) (h : d ∈ word ++ ending) : d ∈ word := by
  apply (List.mem_append.mp h).resolve_right
  intro hending
  exact Bool.eq_false_iff.mp hd (List.all_eq_true.mp hletters d hending)

/-- The rules for plurals add small letters only. -/
theorem mem_pluralBySuffix (hd : d.isLower = false) (h : d ∈ pluralBySuffix word) : d ∈ word := by
  unfold pluralBySuffix at h
  split_ifs at h with hies hes
  · exact mem_of_mem_dropEnd (mem_of_mem_append (by decide) hd h)
  · exact mem_of_mem_append (by decide) hd h
  · exact mem_of_mem_append (by decide) hd h

/-- So do the rules for singulars. -/
theorem mem_singularBySuffix (hd : d.isLower = false) (h : d ∈ singularBySuffix word) :
    d ∈ word := by
  unfold singularBySuffix at h
  split_ifs at h
  · exact mem_of_mem_dropEnd (mem_of_mem_append (by decide) hd h)
  · exact mem_of_mem_dropEnd h
  · exact mem_of_mem_dropEnd (mem_of_mem_append (by decide) hd h)
  · exact h
  · exact mem_of_mem_dropEnd h
  · exact h

/-- The irregular words are made of small letters. -/
theorem isLower_of_mem_irregular :
    ∀ pair ∈ irregular, (pair.1 ++ pair.2).all Char.isLower = true := by decide +kernel

/-- The plural adds small letters only. -/
theorem mem_pluralizeWord (hd : d.isLower = false) (h : d ∈ pluralizeWord word) : d ∈ word := by
  unfold pluralizeWord at h
  split_ifs at h
  · exact h
  · split at h
    · next plural hlookup =>
      obtain ⟨before, after, heq, -⟩ := List.lookup_eq_some_iff.mp hlookup
      have hpair : (word, plural) ∈ irregular := by simp [heq]
      have hletters := List.all_eq_true.mp (isLower_of_mem_irregular _ hpair)
      exact absurd (hletters d (List.mem_append_right _ h)) (Bool.eq_false_iff.mp hd)
    · exact mem_pluralBySuffix hd h

/-- The singular adds small letters only. -/
theorem mem_singularizeWord (hd : d.isLower = false) (h : d ∈ singularizeWord word) : d ∈ word := by
  unfold singularizeWord at h
  split at h
  · exact h
  split at h
  · next pair hfind =>
    have hpair := List.mem_of_find?_eq_some hfind
    have hletters := List.all_eq_true.mp (isLower_of_mem_irregular _ hpair)
    exact absurd (hletters d (List.mem_append_left _ h)) (Bool.eq_false_iff.mp hd)
  split at h
  · exact h
  · exact mem_singularBySuffix hd h

/-! ## Compound names -/

section inflect

variable {rule : List Char → List Char}

/-- A rule that adds no sign to small letters adds none to a word. -/
theorem mem_inflectWord (hrule : ∀ cs, d ∈ rule cs → d ∈ cs) (hd : isSign d = true)
    (h : d ∈ inflectWord rule word) : d ∈ word := by
  have hsmall : d ∈ rule (lower word) → d ∈ word := fun hmem => mem_lower hd (hrule _ hmem)
  unfold inflectWord at h
  dsimp only at h
  split_ifs at h with hkept hcapital
  · rcases List.mem_append.mp h with hlast | hadded
    · exact hlast
    · exact hsmall (List.mem_of_mem_drop hadded)
  · exact hsmall (mem_capitalizeFirst hd h)
  · exact hsmall h

/-- It adds none to a name. -/
theorem mem_inflect (hrule : ∀ cs, d ∈ rule cs → d ∈ cs) (hd : isSign d = true)
    (h : d ∈ inflect rule name) : d ∈ name := by
  unfold inflect at h
  split at h
  · exact h
  · rw [← splitLastWord_append name, List.mem_append]
    rcases List.mem_append.mp h with hfront | hlast
    · exact Or.inl hfront
    · exact Or.inr (mem_inflectWord hrule hd hlast)

end inflect

/-- The plural of a name has no new sign. -/
theorem mem_pluralize (hd : isSign d = true) (h : d ∈ pluralize name) : d ∈ name :=
  mem_inflect (fun _ => mem_pluralizeWord (not_isLower_of_isSign hd)) hd h

/-- The singular of a name has no new sign. -/
theorem mem_singularize (hd : isSign d = true) (h : d ∈ singularize name) : d ∈ name :=
  mem_inflect (fun _ => mem_singularizeWord (not_isLower_of_isSign hd)) hd h

/-! ## Spellings -/

/-- The canonical form of a name has no new sign. -/
theorem mem_canonical {raw : String} (hd : isSign d = true) (h : d ∈ (canonical raw).toList) :
    d ∈ raw.toList := by
  unfold canonical at h
  rw [String.toList_ofList] at h
  exact mem_of_mem_strip (mem_pascal hd (mem_singularize hd h))

/-- The table of a name has no new sign. -/
theorem mem_spellings_snakePlural {raw : String} (hd : isSign d = true)
    (h : d ∈ (Spellings.of raw).snakePlural.toList) : d ∈ raw.toList := by
  unfold Spellings.of Spellings.ofCanonical at h
  rw [String.toList_ofList] at h
  exact mem_canonical hd (mem_pluralize hd (mem_snake hd h))

/-- Neither has the name with underscores. -/
theorem mem_spellings_snake {raw : String} (hd : isSign d = true)
    (h : d ∈ (Spellings.of raw).snake.toList) : d ∈ raw.toList := by
  unfold Spellings.of Spellings.ofCanonical at h
  rw [String.toList_ofList] at h
  exact mem_canonical hd (mem_snake hd h)

/-- A name that is one component of a path and stands on one line. -/
structure IsPlain (name : String) : Prop where
  /-- It has no slash. -/
  noSlash : '/' ∉ name.toList
  /-- It has no line feed. -/
  noFeed : '\n' ∉ name.toList

namespace IsPlain

variable {raw : String}

/-- The canonical form of a plain name is plain. -/
theorem canonical (h : IsPlain raw) : IsPlain (Name.canonical raw) where
  noSlash hmem := h.noSlash (mem_canonical (by decide) hmem)
  noFeed hmem := h.noFeed (mem_canonical (by decide) hmem)

/-- Its table is plain. -/
theorem snakePlural (h : IsPlain raw) : IsPlain (Spellings.of raw).snakePlural where
  noSlash hmem := h.noSlash (mem_spellings_snakePlural (by decide) hmem)
  noFeed hmem := h.noFeed (mem_spellings_snakePlural (by decide) hmem)

/-- With underscores it is plain. -/
theorem snake (h : IsPlain raw) : IsPlain (Spellings.of raw).snake where
  noSlash hmem := h.noSlash (mem_spellings_snake (by decide) hmem)
  noFeed hmem := h.noFeed (mem_spellings_snake (by decide) hmem)

end IsPlain

end Scaffold.Name
