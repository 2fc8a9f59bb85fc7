import Scaffold.Proofs.Name.Inflection
import Scaffold.Proofs.Name.Signs

/-!
# What inflection changes in a word

Both rules exchange the end of a word: small letters go and others come, and the word starts as
before (`Exchanges`, `exchanges_pluralizeWord`, `exchanges_singularizeWord`). The plural changes
every word that has one (`pluralizeWord_eq_self_iff`). The singular never only adds
(`singularizeWord_of_isPrefix`), and it is settled unless it happens to be the plural of an
irregular word (`singularizeWord_singularizeWord_iff`).
-/

namespace Scaffold.Name

open Text

variable {word result stem : List Char}

/-- `result` is `word` with letters at its end exchanged. -/
structure Exchanges (word result : List Char) : Prop where
  /-- Small letters are exchanged for small letters. -/
  endings : ∃ stem cut added, word = stem ++ cut ∧ result = stem ++ added ∧
    (∀ c ∈ cut, c.isLower = true) ∧ ∀ c ∈ added, c.isLower = true
  /-- The first character stays. -/
  head? : result.head? = word.head?

namespace Exchanges

/-- Nothing is exchanged for nothing. -/
theorem refl (word : List Char) : Exchanges word word where
  endings := ⟨word, [], [], by simp⟩
  head? := rfl

/-- What is exchanged can be exchanged back. -/
theorem symm (h : Exchanges word result) : Exchanges result word where
  endings := by
    obtain ⟨stem, cut, added, hword, hresult, hcut, hadded⟩ := h.endings
    exact ⟨stem, added, cut, hresult, hword, hadded, hcut⟩
  head? := h.head?.symm

/-- Small letters behind a stem are exchanged for others. -/
theorem append {cut added : List Char} (hne : stem ≠ []) (hcut : cut.all Char.isLower = true)
    (hadded : added.all Char.isLower = true) : Exchanges (stem ++ cut) (stem ++ added) where
  endings := ⟨stem, cut, added, rfl, rfl, List.all_eq_true.mp hcut, List.all_eq_true.mp hadded⟩
  head? := by rw [List.head?_append_of_ne_nil _ hne, List.head?_append_of_ne_nil _ hne]

/-- All but small letters was there before. -/
theorem mem {d : Char} (h : Exchanges word result) (hd : d.isLower = false) (hmem : d ∈ result) :
    d ∈ word := by
  obtain ⟨stem, cut, added, rfl, rfl, -, hadded⟩ := h.endings
  rcases List.mem_append.mp hmem with hstem | hmem
  · exact List.mem_append_left _ hstem
  · exact absurd (hadded d hmem) (Bool.eq_false_iff.mp hd)

/-- A result that goes on behind the word has small letters there. -/
theorem eq_append (h : Exchanges word result) (hbegins : word <+: result) :
    ∃ added, result = word ++ added ∧ ∀ c ∈ added, c.isLower = true := by
  obtain ⟨stem, cut, ending, rfl, rfl, -, hending⟩ := h.endings
  obtain ⟨added, rfl⟩ := (List.prefix_append_right_inj stem).mp hbegins
  exact ⟨added, by simp, fun c hc => hending c (List.mem_append_right _ hc)⟩

/-- A word that does not end in a small letter is not cut. -/
theorem isPrefix_of_getLast? (h : Exchanges word result)
    (hlast : ∀ c ∈ word.getLast?, c.isLower = false) : word <+: result := by
  obtain ⟨stem, cut, added, rfl, rfl, hcut, -⟩ := h.endings
  rcases List.eq_nil_or_concat cut with rfl | ⟨front, last, rfl⟩
  · simp
  · have hsmall := hcut last (by simp)
    have hnot := hlast last (by simp)
    rw [hsmall] at hnot
    cases hnot

end Exchanges

/-! ## The rules -/

/-- Where the plural of a word comes from. -/
theorem pluralizeWord_cases (word : List Char) :
    (word ∈ uncountable ∧ pluralizeWord word = word) ∨
      (word ∉ uncountable ∧ (word, pluralizeWord word) ∈ irregular) ∨
        word ∉ uncountable ∧ pluralizeWord word = pluralBySuffix word := by
  unfold pluralizeWord
  split_ifs with huncountable
  · exact Or.inl ⟨List.contains_iff_mem.mp huncountable, rfl⟩
  · have hnot := mt List.contains_iff_mem.mpr huncountable
    split
    · next plural hlookup =>
      obtain ⟨before, after, heq, -⟩ := List.lookup_eq_some_iff.mp hlookup
      exact Or.inr (Or.inl ⟨hnot, by simp [heq]⟩)
    · exact Or.inr (Or.inr ⟨hnot, rfl⟩)

/-- Where the singular of a word comes from. -/
theorem singularizeWord_cases (word : List Char) :
    (word ∈ uncountable ++ irregular.map Prod.fst ∧ singularizeWord word = word) ∨
      (singularizeWord word, word) ∈ irregular ∨
        word ∉ listed ∧ singularizeWord word = singularBySuffix word := by
  unfold singularizeWord
  split
  · next huncountable =>
    exact Or.inl ⟨List.mem_append_left _ (List.contains_iff_mem.mp huncountable), rfl⟩
  next huncountable =>
  split
  · next pair hfind =>
    have hplural : pair.2 = word :=
      eq_of_beq (List.find?_some (p := fun pair : List Char × List Char => pair.2 == word) hfind)
    exact Or.inr (Or.inl (hplural ▸ List.mem_of_find?_eq_some hfind))
  split
  · next hsingular =>
    obtain ⟨pair, hpair, heq⟩ := List.any_eq_true.mp hsingular
    have hmem : word ∈ irregular.map Prod.fst := List.mem_map.mpr ⟨pair, hpair, eq_of_beq heq⟩
    exact Or.inl ⟨List.mem_append_right _ hmem, rfl⟩
  · next hfind hsingular =>
    refine Or.inr (Or.inr ⟨?_, rfl⟩)
    simp only [listed, List.mem_append, not_or]
    refine ⟨⟨mt List.contains_iff_mem.mpr huncountable, fun hmem => hsingular ?_⟩, fun hmem => ?_⟩
    · obtain ⟨pair, hpair, rfl⟩ := List.mem_map.mp hmem
      exact List.any_eq_true.mpr ⟨pair, hpair, beq_self_eq_true _⟩
    · obtain ⟨pair, hpair, rfl⟩ := List.mem_map.mp hmem
      exact List.find?_eq_none.mp hfind pair hpair (beq_self_eq_true _)

/-- No word is in the tables both as a singular and as an irregular plural. -/
theorem notMem_plurals : ∀ word ∈ uncountable ++ irregular.map Prod.fst,
    word ∉ irregular.map Prod.snd := by
  decide +kernel

/-- Words without plural and irregular singulars are their own singular. -/
theorem singularizeWord_of_mem (h : word ∈ uncountable ++ irregular.map Prod.fst) :
    singularizeWord word = word := by
  rcases singularizeWord_cases word with ⟨-, heq⟩ | hpair | ⟨hnot, -⟩
  · exact heq
  · exact absurd (List.mem_map_of_mem (f := Prod.snd) hpair) (notMem_plurals word h)
  · exact absurd (List.mem_append_left _ h) hnot

/-- The singular of an irregular plural stands in the table. -/
theorem singularizeWord_mem_singulars (h : word ∈ irregular.map Prod.snd) :
    singularizeWord word ∈ irregular.map Prod.fst := by
  rcases singularizeWord_cases word with ⟨hsingular, -⟩ | hpair | ⟨hnot, -⟩
  · exact absurd h (notMem_plurals word hsingular)
  · exact List.mem_map_of_mem (f := Prod.fst) hpair
  · exact absurd (List.mem_append_right _ h) hnot

/-- Irregular words exchange small letters at their ends. -/
theorem exchanges_of_mem_irregular : ∀ pair ∈ irregular, Exchanges pair.1 pair.2 := by
  have hletters := isLower_of_mem_irregular
  have hheads : ∀ pair ∈ irregular, pair.2.head? = pair.1.head? := by decide +kernel
  intro pair hpair
  have hall := List.all_eq_true.mp (hletters pair hpair)
  refine ⟨⟨[], pair.1, pair.2, rfl, rfl, ?_, ?_⟩, hheads pair hpair⟩
  · exact fun c hc => hall c (List.mem_append_left _ hc)
  · exact fun c hc => hall c (List.mem_append_right _ hc)

/-- Taking an ending off a longer word. -/
theorem exists_eq_append_of_isSuffix {ending : List Char} (hends : ending <:+ word)
    (hlong : ending.length < word.length) :
    ∃ stem, stem ≠ [] ∧ word = stem ++ ending ∧ dropEnd ending.length word = stem := by
  obtain ⟨stem, rfl⟩ := hends
  refine ⟨stem, ?_, rfl, dropEnd_append stem ending⟩
  rintro rfl
  simp at hlong

/-- The rules for plurals exchange endings. -/
theorem exchanges_pluralBySuffix (hne : word ≠ []) : Exchanges word (pluralBySuffix word) := by
  rw [pluralBySuffix_eq]
  split_ifs with hy hes
  · obtain ⟨stem, hstem, rfl⟩ := hy.exists_eq_append
    have hdrop : dropEnd 1 (stem ++ "y".toList) = stem := dropEnd_append stem _
    rw [hdrop]
    exact .append hstem (by decide) (by decide)
  · have hadds : Exchanges (word ++ []) (word ++ "es".toList) := .append hne (by decide) (by decide)
    rwa [List.append_nil] at hadds
  · have hadds : Exchanges (word ++ []) (word ++ "s".toList) := .append hne (by decide) (by decide)
    rwa [List.append_nil] at hadds

/-- The plural exchanges the ending of a word. -/
theorem exchanges_pluralizeWord (hne : word ≠ []) : Exchanges word (pluralizeWord word) := by
  rcases pluralizeWord_cases word with ⟨-, h⟩ | ⟨-, h⟩ | ⟨-, h⟩
  · rw [h]
    exact .refl word
  · exact exchanges_of_mem_irregular _ h
  · rw [h]
    exact exchanges_pluralBySuffix hne

/-- The rules for singulars exchange endings. -/
theorem exchanges_singularBySuffix (word : List Char) : Exchanges word (singularBySuffix word) := by
  rw [singularBySuffix_eq]
  split_ifs with hies hsibilant huses hss hs
  · obtain ⟨stem, hstem, rfl, hdrop⟩ := exists_eq_append_of_isSuffix hies.1 (by simpa using hies.2)
    have hdrop : dropEnd 3 (stem ++ "ies".toList) = stem := hdrop
    rw [hdrop]
    exact .append hstem (by decide) (by decide)
  · obtain ⟨ending, hmem, stem, rfl⟩ := endsInAny_iff.mp hsibilant
    have hes : ∀ ending ∈ ["sses", "xes", "zzes", "ches", "shes"],
        ending.toList = dropEnd 2 ending.toList ++ "es".toList ∧ dropEnd 2 ending.toList ≠ [] := by
      decide
    obtain ⟨hsplit, hne⟩ := hes ending hmem
    rw [hsplit, ← List.append_assoc]
    have hdrop : dropEnd 2 ((stem ++ dropEnd 2 ending.toList) ++ "es".toList) =
        stem ++ dropEnd 2 ending.toList := dropEnd_append _ "es".toList
    have hcuts : Exchanges ((stem ++ dropEnd 2 ending.toList) ++ "es".toList)
        ((stem ++ dropEnd 2 ending.toList) ++ []) :=
      .append (List.append_ne_nil_of_right_ne_nil stem hne) (by decide) (by decide)
    rw [List.append_nil] at hcuts
    rwa [hdrop]
  · obtain ⟨stem, hstem, rfl⟩ := huses.exists_eq_append
    have hdrop : dropEnd 4 (stem ++ "uses".toList) = stem := dropEnd_append stem _
    rw [hdrop]
    exact .append hstem (by decide) (by decide)
  · exact .refl word
  · obtain ⟨stem, hstem, rfl, hdrop⟩ := exists_eq_append_of_isSuffix hs.1 (by simpa using hs.2)
    have hdrop : dropEnd 1 (stem ++ "s".toList) = stem := hdrop
    have hcuts : Exchanges (stem ++ "s".toList) (stem ++ []) :=
      .append hstem (by decide) (by decide)
    rw [List.append_nil] at hcuts
    rwa [hdrop]
  · exact .refl word

/-- The singular exchanges the ending of a word. -/
theorem exchanges_singularizeWord (word : List Char) : Exchanges word (singularizeWord word) := by
  rcases singularizeWord_cases word with ⟨-, h⟩ | h | ⟨-, h⟩
  · rw [h]
    exact .refl word
  · exact (exchanges_of_mem_irregular _ h).symm
  · rw [h]
    exact exchanges_singularBySuffix word

/-! ## Words that stay as they are -/

/-- The rules for plurals change every word. -/
theorem pluralBySuffix_ne_self (word : List Char) : pluralBySuffix word ≠ word := by
  rw [pluralBySuffix_eq]
  split_ifs with hy
  · obtain ⟨stem, -, rfl⟩ := hy.exists_eq_append
    have hdrop : dropEnd 1 (stem ++ "y".toList) = stem := dropEnd_append stem _
    rw [hdrop, Ne, List.append_cancel_left_eq]
    decide
  · simp
  · simp

/-- The plural changes all words but those that have none. -/
theorem pluralizeWord_eq_self_iff : pluralizeWord word = word ↔ word ∈ uncountable := by
  have hdistinct : ∀ pair ∈ irregular, pair.2 ≠ pair.1 := by decide +kernel
  rcases pluralizeWord_cases word with ⟨hmem, h⟩ | ⟨hnot, h⟩ | ⟨hnot, h⟩
  · exact iff_of_true h hmem
  · exact iff_of_false (hdistinct _ h) hnot
  · rw [h]
    exact iff_of_false (pluralBySuffix_ne_self word) hnot

/-- The rules for singulars make no word longer. -/
theorem length_singularBySuffix_le (word : List Char) :
    (singularBySuffix word).length ≤ word.length := by
  have hdrop : ∀ n, (dropEnd n word).length ≤ word.length - n := by simp [dropEnd]
  rw [singularBySuffix_eq]
  split_ifs with hies hsibilant huses
  · have hlength := hdrop 3
    rw [List.length_append]
    have hy : "y".toList.length = 1 := rfl
    omega
  · exact (hdrop 2).trans (Nat.sub_le _ _)
  · have hlength := hdrop 4
    have hlong := huses.isSuffix.length_le
    rw [List.length_append]
    have hus : "us".toList.length = 2 := rfl
    have huses : "uses".toList.length = 4 := rfl
    omega
  · exact le_rfl
  · exact (hdrop 1).trans (Nat.sub_le _ _)
  · exact le_rfl

/-- The singular never only adds to a word. -/
theorem singularizeWord_of_isPrefix (h : word <+: singularizeWord word) :
    singularizeWord word = word := by
  have hirregular : ∀ pair ∈ irregular, ¬pair.2 <+: pair.1 := by decide +kernel
  rcases singularizeWord_cases word with ⟨-, heq⟩ | hpair | ⟨-, heq⟩
  · exact heq
  · exact absurd h (hirregular _ hpair)
  · rw [heq] at h ⊢
    exact (h.eq_of_length_le (length_singularBySuffix_le word)).symm

/-! ## Settled singulars -/

/-- The rules of the singular look for an `s` at the end. -/
theorem singularBySuffix_of_not_s (h : ¬"s".toList <:+ word) : singularBySuffix word = word := by
  have hend : ∀ ending : String, "s".toList <:+ ending.toList → ¬ending.toList <:+ word :=
    fun ending hs hends => h (hs.trans hends)
  have hany : ∀ endings : List String, (∀ ending ∈ endings, "s".toList <:+ ending.toList) →
      ¬endsInAny endings word = true := by
    intro endings hs hends
    obtain ⟨ending, hmem, hends⟩ := endsInAny_iff.mp hends
    exact hend ending (hs ending hmem) hends
  rw [singularBySuffix_eq, if_neg fun hies => hend "ies" (by decide) hies.1,
    if_neg (hany _ (by decide)), if_neg fun huses => hend "uses" (by decide) huses.isSuffix,
    if_neg (hany _ (by decide)), if_neg fun hs => h hs.1]

/-- Two endings of the same length are the same. -/
theorem not_isSuffix_of_length_eq {ending other : List Char} (hends : ending <:+ word)
    (hlength : ending.length = other.length) (hne : ending ≠ other) : ¬other <:+ word := by
  intro hother
  exact hne ((List.suffix_of_suffix_length_le hends hother hlength.le).eq_of_length hlength)

/-- A word in `ss` or `us` is a singular. -/
theorem singularBySuffix_of_isSuffix {ending : String} (hmem : ending ∈ ["ss", "us"])
    (hends : ending.toList <:+ word) : singularBySuffix word = word := by
  have hes : ¬"es".toList <:+ word := by
    have hclash : ∀ ending ∈ ["ss", "us"],
        ending.toList.length = "es".toList.length ∧ ending.toList ≠ "es".toList := by decide
    exact not_isSuffix_of_length_eq hends (hclash ending hmem).1 (hclash ending hmem).2
  have hlonger : ∀ other : String, "es".toList <:+ other.toList → ¬other.toList <:+ word :=
    fun other hlast hother => hes (hlast.trans hother)
  have hsibilant : ¬endsInAny ["sses", "xes", "zzes", "ches", "shes"] word = true := by
    rw [endsInAny_iff]
    rintro ⟨other, hother, hsuffix⟩
    have hlast : ∀ other ∈ ["sses", "xes", "zzes", "ches", "shes"],
        "es".toList <:+ other.toList := by decide
    exact hlonger other (hlast other hother) hsuffix
  have hany : endsInAny ["ss", "us", "is"] word = true := by
    have hsub : ∀ ending ∈ ["ss", "us"], ending ∈ ["ss", "us", "is"] := by decide
    exact endsInAny_iff.mpr ⟨ending, hsub ending hmem, hends⟩
  rw [singularBySuffix_eq, if_neg fun hies => hlonger "ies" (by decide) hies.1, if_neg hsibilant,
    if_neg fun huses => hlonger "uses" (by decide) huses.isSuffix, if_pos hany]

/-- The rules of the singular leave the word, or give one with an ending of their choice, or take
the `s` of a word that ends in no other one. -/
theorem singularBySuffix_cases (word : List Char) :
    singularBySuffix word = word ∨
      (∃ ending ∈ ["y", "ss", "x", "zz", "ch", "sh", "us"],
        ending.toList <:+ singularBySuffix word) ∨
        (word = singularBySuffix word ++ "s".toList ∧ ¬"s".toList <:+ singularBySuffix word) := by
  have hword := singularBySuffix_eq word
  split_ifs at hword with hies hsibilant huses hss hs
  · rw [hword]
    exact Or.inr (Or.inl ⟨"y", by simp, List.suffix_append _ _⟩)
  · obtain ⟨ending, hmem, stem, rfl⟩ := endsInAny_iff.mp hsibilant
    have hcut : ∀ ending ∈ ["sses", "xes", "zzes", "ches", "shes"],
        ∃ short ∈ ["y", "ss", "x", "zz", "ch", "sh", "us"],
          ending.toList = short.toList ++ "es".toList := by decide
    obtain ⟨short, hshort, heq⟩ := hcut ending hmem
    have hdrop : dropEnd 2 ((stem ++ short.toList) ++ "es".toList) = stem ++ short.toList :=
      dropEnd_append _ "es".toList
    rw [hword, heq, ← List.append_assoc, hdrop]
    exact Or.inr (Or.inl ⟨short, hshort, List.suffix_append _ _⟩)
  · rw [hword]
    exact Or.inr (Or.inl ⟨"us", by simp, List.suffix_append _ _⟩)
  · exact Or.inl hword
  · obtain ⟨stem, -, rfl, hdrop⟩ := exists_eq_append_of_isSuffix hs.1 (by simpa using hs.2)
    have hdrop : dropEnd 1 (stem ++ "s".toList) = stem := hdrop
    rw [hword, hdrop]
    refine Or.inr (Or.inr ⟨rfl, fun hends => hss (endsInAny_iff.mpr ⟨"ss", by simp, ?_⟩)⟩)
    have hsplit : "ss".toList = "s".toList ++ "s".toList := rfl
    rwa [hsplit, List.suffix_append_self_iff]
  · exact Or.inl hword

/-- The rules leave a singular of theirs as it is. -/
theorem singularBySuffix_idem (word : List Char) :
    singularBySuffix (singularBySuffix word) = singularBySuffix word := by
  have hendings : ∀ ending ∈ ["y", "ss", "x", "zz", "ch", "sh", "us"], ending ∈ ["ss", "us"] ∨
      ending.toList.getLast? ≠ "s".toList.getLast? ∧ ending ≠ "" ∧ "s" ≠ "" := by decide
  rcases singularBySuffix_cases word with hsame | ⟨ending, hmem, hends⟩ | ⟨-, hs⟩
  · rw [hsame, hsame]
  · rcases hendings ending hmem with hsingular | hclash
    · exact singularBySuffix_of_isSuffix hsingular hends
    · exact singularBySuffix_of_not_s (not_isSuffix_of_isSuffix hends hclash)
  · exact singularBySuffix_of_not_s hs

/-- A singular is its own singular, unless it is the plural of an irregular word. -/
theorem singularizeWord_singularizeWord_iff (word : List Char) :
    singularizeWord (singularizeWord word) = singularizeWord word ↔
      singularizeWord word ∉ irregular.map Prod.snd := by
  constructor
  · intro heq hmem
    have hsingular := singularizeWord_mem_singulars hmem
    rw [heq] at hsingular
    exact notMem_plurals _ (List.mem_append_right _ hsingular) hmem
  · intro hnot
    rcases singularizeWord_cases word with ⟨-, heq⟩ | hpair | ⟨-, heq⟩
    · rw [heq, heq]
    · exact singularizeWord_of_mem
        (List.mem_append_right _ (List.mem_map_of_mem (f := Prod.fst) hpair))
    rcases singularizeWord_cases (singularizeWord word) with ⟨-, h⟩ | hpair | ⟨-, h⟩
    · exact h
    · exact absurd (List.mem_map_of_mem (f := Prod.snd) hpair) hnot
    · rw [h, heq, singularBySuffix_idem]

end Scaffold.Name
