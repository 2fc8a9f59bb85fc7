import Mathlib.Data.List.Basic
import Mathlib.Data.List.Induction
import Mathlib.Tactic.SplitIfs
import Scaffold.Name.Inflection

/-!
# What the singular undoes

The singular of a plural is the word itself except for certain words, and which they are is said
here exactly (`singularizeWord_pluralizeWord_eq_self_iff`).

The words in the tables come back. For all others the plural adds an ending, and there are two ways
to miss the word: the plural happens to be a word of a table (`strays`, found by going through the
tables backwards: `mem_origins`), or it has an ending that the singular takes for a different one
(`HasDriftingEnd`). What the rules of the singular see behind an added ending are endings of the
word itself (`singularBySuffix_append_es`, `singularBySuffix_append_s`), so the second way is a
matter of the word's last letters alone (`singularBySuffix_pluralBySuffix_eq_self_iff`).
-/

namespace Scaffold.Name

variable {word : List Char}

/-! ## Endings -/

/-- What was put at the end can be dropped. -/
theorem dropEnd_append (front back : List Char) : dropEnd back.length (front ++ back) = front := by
  simp [dropEnd]

/-- A word ends in what is a suffix of it. -/
theorem endsIn_iff {ending : String} : endsIn ending word = true ↔ ending.toList <:+ word :=
  List.isSuffixOf_iff_suffix

/-- A word ends in one of several endings. -/
theorem endsInAny_iff {endings : List String} :
    endsInAny endings word = true ↔ ∃ ending ∈ endings, ending.toList <:+ word := by
  simp [endsInAny, endsIn_iff]

/-- A word ends in a consonant if its last letter is no vowel. -/
theorem endsInConsonant_iff :
    endsInConsonant word = true ↔ ∃ stem c, isVowel c = false ∧ word = stem ++ [c] := by
  cases word using List.reverseRecOn with
  | nil => simp [endsInConsonant]
  | append_singleton stem c => simp [endsInConsonant]

/-- The word ends in `ending`, behind a character that is no vowel. -/
def EndsAfterConsonant (ending : String) (word : List Char) : Prop :=
  ∃ stem c, isVowel c = false ∧ word = stem ++ c :: ending.toList

/-- A word ends so behind a consonant if what is in front of the ending ends in one. -/
theorem endsAfterConsonant_iff {ending : String} :
    EndsAfterConsonant ending word ↔
      endsIn ending word = true ∧ endsInConsonant (dropEnd ending.toList.length word) = true := by
  rw [endsIn_iff, endsInConsonant_iff]
  constructor
  · rintro ⟨stem, c, hc, rfl⟩
    have hsplit : stem ++ c :: ending.toList = (stem ++ [c]) ++ ending.toList := by simp
    rw [hsplit, dropEnd_append]
    exact ⟨List.suffix_append _ _, stem, c, hc, rfl⟩
  · rintro ⟨⟨front, rfl⟩, stem, c, hc, hdrop⟩
    rw [dropEnd_append] at hdrop
    exact ⟨stem, c, hc, by simp [hdrop]⟩

/-- There is something in front of an ending behind a consonant. -/
theorem EndsAfterConsonant.exists_eq_append {ending : String} (h : EndsAfterConsonant ending word) :
    ∃ stem, stem ≠ [] ∧ word = stem ++ ending.toList := by
  obtain ⟨stem, c, -, rfl⟩ := h
  exact ⟨stem ++ [c], by simp, by simp⟩

/-- An ending behind a consonant is an ending. -/
theorem EndsAfterConsonant.isSuffix {ending : String} (h : EndsAfterConsonant ending word) :
    ending.toList <:+ word :=
  endsIn_iff.mp (endsAfterConsonant_iff.mp h).1

/-- An ending behind a consonant that reaches into what was added. -/
theorem endsAfterConsonant_append {ending front : String} {back : List Char}
    (h : ending.toList = front.toList ++ back) :
    EndsAfterConsonant ending (word ++ back) ↔ EndsAfterConsonant front word := by
  unfold EndsAfterConsonant
  have hsame : ∀ stem c, word ++ back = stem ++ c :: ending.toList ↔
      word = stem ++ c :: front.toList := by
    intro stem c
    rw [h, ← List.cons_append, ← List.append_assoc, List.append_cancel_right_eq]
  simp only [hsame]

/-- Endings that reach beyond what was added are found where the rest of them is. -/
theorem endsInAny_append {endings fronts : List String} {back : List Char}
    (h : endings.map String.toList = fronts.map fun front => front.toList ++ back)
    (word : List Char) : endsInAny endings (word ++ back) = endsInAny fronts word := by
  have hany : ∀ names : List String, ∀ cs,
      endsInAny names cs = (names.map String.toList).any fun ending => ending.isSuffixOf cs := by
    intro names cs
    rw [List.any_map]
    rfl
  have hone : ∀ front : String, (front.toList ++ back).isSuffixOf (word ++ back) =
      front.toList.isSuffixOf word := by
    intro front
    rw [Bool.eq_iff_iff, List.isSuffixOf_iff_suffix, List.isSuffixOf_iff_suffix,
      List.suffix_append_self_iff]
  rw [hany, h, List.any_map, hany, List.any_map]
  congr 1
  funext front
  exact hone front

instance (ending : String) (word : List Char) : Decidable (EndsAfterConsonant ending word) :=
  decidable_of_iff _ endsAfterConsonant_iff.symm

/-- A word has one last letter. -/
theorem not_isSuffix_of_isSuffix {ending other : String} (hends : ending.toList <:+ word)
    (h : ending.toList.getLast? ≠ other.toList.getLast? ∧ ending ≠ "" ∧ other ≠ "") :
    ¬other.toList <:+ word := by
  obtain ⟨hlast, hending, hother⟩ := h
  rintro ⟨front, rfl⟩
  obtain ⟨front', heq⟩ := hends
  have hboth := congrArg List.getLast? heq
  rw [List.getLast?_append_of_ne_nil _ (by simpa using hending),
    List.getLast?_append_of_ne_nil _ (by simpa using hother)] at hboth
  exact hlast hboth

/-- If the last letter excludes all of the endings but one, that one decides. -/
theorem exists_isSuffix_iff {endings : List String} {last own : String}
    (hlast : last.toList <:+ word) (hown : own ∈ endings)
    (hothers : ∀ ending ∈ endings, ending = own ∨
      last.toList.getLast? ≠ ending.toList.getLast? ∧ last ≠ "" ∧ ending ≠ "") :
    (∃ ending ∈ endings, ending.toList <:+ word) ↔ own.toList <:+ word := by
  constructor
  · rintro ⟨ending, hmem, hends⟩
    rcases hothers ending hmem with rfl | hclash
    · exact hends
    · exact absurd hends (not_isSuffix_of_isSuffix hlast hclash)
  · intro hends
    exact ⟨own, hown, hends⟩

/-! ## The rules behind an added ending -/

/-- The rules of the singular, with their conditions as statements. -/
theorem singularBySuffix_eq (word : List Char) :
    singularBySuffix word =
      if "ies".toList <:+ word ∧ 3 < word.length then dropEnd 3 word ++ "y".toList
      else if endsInAny ["sses", "xes", "zzes", "ches", "shes"] word = true then dropEnd 2 word
      else if EndsAfterConsonant "uses" word then dropEnd 4 word ++ "us".toList
      else if endsInAny ["ss", "us", "is"] word = true then word
      else if "s".toList <:+ word ∧ 1 < word.length then dropEnd 1 word
      else word := by
  unfold singularBySuffix
  simp only [endsAfterConsonant_iff, ← endsIn_iff, Bool.and_eq_true, decide_eq_true_eq]
  rfl

/-- The singular of a word with `es` behind it. -/
theorem singularBySuffix_append_es (hi : ¬"i".toList <:+ word) :
    singularBySuffix (word ++ "es".toList) =
      if endsInAny ["ss", "x", "zz", "ch", "sh"] word = true ∨
        EndsAfterConsonant "us" word then word
      else word ++ "e".toList := by
  have hies : ¬"ies".toList <:+ word ++ "es".toList := by
    have hsplit : "ies".toList = "i".toList ++ "es".toList := rfl
    rwa [hsplit, List.suffix_append_self_iff]
  have hsibilant : endsInAny ["sses", "xes", "zzes", "ches", "shes"] (word ++ "es".toList) =
      endsInAny ["ss", "x", "zz", "ch", "sh"] word := endsInAny_append rfl word
  have huses : EndsAfterConsonant "uses" (word ++ "es".toList) ↔ EndsAfterConsonant "us" word :=
    endsAfterConsonant_append rfl
  rw [singularBySuffix_eq, if_neg fun h => hies h.1, hsibilant]
  simp only [huses]
  by_cases hany : endsInAny ["ss", "x", "zz", "ch", "sh"] word = true
  · rw [if_pos hany, if_pos (Or.inl hany)]
    exact dropEnd_append word "es".toList
  rw [if_neg hany]
  by_cases hus : EndsAfterConsonant "us" word
  · rw [if_pos hus, if_pos (Or.inr hus)]
    obtain ⟨stem, -, rfl⟩ := hus.exists_eq_append
    rw [List.append_assoc]
    exact congrArg (· ++ "us".toList) (dropEnd_append stem "uses".toList)
  · have hss : ¬endsInAny ["ss", "us", "is"] (word ++ "es".toList) = true := by
      simp [endsInAny, endsIn, List.isSuffixOf, List.isPrefixOf]
    have hsplit : word ++ "es".toList = (word ++ "e".toList) ++ "s".toList := by simp
    have hs : "s".toList <:+ word ++ "es".toList := hsplit ▸ List.suffix_append _ _
    rw [if_neg hus, if_neg (not_or_intro hany hus), if_neg hss, if_pos ⟨hs, by simp⟩, hsplit]
    exact dropEnd_append _ "s".toList

/-- The singular of a word with `s` behind it. -/
theorem singularBySuffix_append_s (hne : word ≠ []) :
    singularBySuffix (word ++ "s".toList) =
      if "ie".toList <:+ word ∧ word ≠ "ie".toList then dropEnd 2 word ++ "y".toList
      else if endsInAny ["sse", "xe", "zze", "che", "she"] word = true then dropEnd 1 word
      else if EndsAfterConsonant "use" word then dropEnd 3 word ++ "us".toList
      else if endsInAny ["s", "u", "i"] word = true then word ++ "s".toList
      else word := by
  have hsibilant : endsInAny ["sses", "xes", "zzes", "ches", "shes"] (word ++ "s".toList) =
      endsInAny ["sse", "xe", "zze", "che", "she"] word := endsInAny_append rfl word
  have huses : EndsAfterConsonant "uses" (word ++ "s".toList) ↔ EndsAfterConsonant "use" word :=
    endsAfterConsonant_append rfl
  have hss : endsInAny ["ss", "us", "is"] (word ++ "s".toList) = endsInAny ["s", "u", "i"] word :=
    endsInAny_append rfl word
  have hies : ("ies".toList <:+ word ++ "s".toList ∧ 3 < (word ++ "s".toList).length) ↔
      ("ie".toList <:+ word ∧ word ≠ "ie".toList) := by
    have hsplit : "ies".toList = "ie".toList ++ "s".toList := rfl
    rw [hsplit, List.suffix_append_self_iff]
    refine and_congr_right ?_
    rintro ⟨stem, rfl⟩
    have hstem : stem ++ "ie".toList = "ie".toList ↔ stem = [] := by simp
    rw [ne_eq, hstem, ← List.length_eq_zero_iff, List.length_append, List.length_append]
    have hie : "ie".toList.length = 2 := rfl
    have hs : "s".toList.length = 1 := rfl
    omega
  have hs : "s".toList <:+ word ++ "s".toList ∧ 1 < (word ++ "s".toList).length := by
    have hpos : 0 < word.length := List.length_pos_iff.mpr hne
    exact ⟨List.suffix_append _ _, by simpa using hpos⟩
  have hdrop : ∀ n, dropEnd (n + 1) (word ++ "s".toList) = dropEnd n word := by
    intro n
    have hlength : (word ++ "s".toList).length = word.length + 1 := by simp
    unfold dropEnd
    rw [hlength, Nat.add_sub_add_right, List.take_append_of_le_length (Nat.sub_le _ _)]
  have hstem : dropEnd 1 (word ++ "s".toList) = word := dropEnd_append word "s".toList
  rw [singularBySuffix_eq]
  simp only [hies, hsibilant, huses, hss, hs, hstem, hdrop, and_self, if_true]

/-! ## Words outside the tables -/

/-- The word has an ending whose plural the singular takes for that of another ending. -/
inductive HasDriftingEnd (word : List Char) : Prop where
  /-- `gas`, `gases`, `gase`. -/
  | s (hs : "s".toList <:+ word) (hss : ¬"ss".toList <:+ word) (hus : ¬EndsAfterConsonant "us" word)
  /-- `waltz`, `waltzes`, `waltze`. -/
  | z (hz : "z".toList <:+ word) (hzz : ¬"zz".toList <:+ word)
  /-- `movie`, `movies`, `movy`. -/
  | ie (hie : "ie".toList <:+ word) (hne : word ≠ "ie".toList)
  /-- `cache`, `caches`, `cach`. -/
  | sibilant {ending : String} (hending : ending ∈ ["sse", "xe", "zze", "che", "she"])
      (hends : ending.toList <:+ word)
  /-- `muse`, `muses`, `mus`. -/
  | use (huse : EndsAfterConsonant "use" word)
  /-- `menu`, `menus`, `menus`. -/
  | vowel {ending : String} (hending : ending ∈ ["u", "i"]) (hends : ending.toList <:+ word)

namespace HasDriftingEnd

/-- The last letter tells which of the endings it can be. -/
theorem cases_last (h : HasDriftingEnd word) :
    ("s".toList <:+ word ∧ ¬("ss".toList <:+ word ∨ EndsAfterConsonant "us" word)) ∨
      ("z".toList <:+ word ∧ ¬"zz".toList <:+ word) ∨
        ∃ last ∈ ["e", "u", "i"], last.toList <:+ word := by
  have he : ∀ ending : String, "e".toList <:+ ending.toList → ending.toList <:+ word →
      ∃ last ∈ ["e", "u", "i"], last.toList <:+ word :=
    fun ending hlast hends => ⟨"e", by simp, hlast.trans hends⟩
  cases h with
  | s hs hss hus => exact Or.inl ⟨hs, not_or_intro hss hus⟩
  | z hz hzz => exact Or.inr (Or.inl ⟨hz, hzz⟩)
  | ie hie _ => exact Or.inr (Or.inr (he "ie" (by decide) hie))
  | @sibilant ending hending hends =>
    have hlast : ∀ ending ∈ ["sse", "xe", "zze", "che", "she"],
        "e".toList <:+ ending.toList := by decide
    exact Or.inr (Or.inr (he ending (hlast ending hending) hends))
  | use huse => exact Or.inr (Or.inr (he "use" (by decide) huse.isSuffix))
  | @vowel ending hending hends =>
    exact Or.inr (Or.inr ⟨ending, List.mem_cons_of_mem _ hending, hends⟩)

/-- A word whose last letter is another one has no drifting end. -/
theorem not_of_isSuffix {ending : String} (hends : ending.toList <:+ word)
    (h : ∀ last ∈ ["s", "z", "e", "u", "i"],
      ending.toList.getLast? ≠ last.toList.getLast? ∧ ending ≠ "" ∧ last ≠ "") :
    ¬HasDriftingEnd word := by
  intro hdrift
  rcases hdrift.cases_last with ⟨hs, -⟩ | ⟨hz, -⟩ | ⟨last, hmem, hlast⟩
  · exact not_isSuffix_of_isSuffix hends (h "s" (by simp)) hs
  · exact not_isSuffix_of_isSuffix hends (h "z" (by simp)) hz
  · exact not_isSuffix_of_isSuffix hends (h last (by simp_all)) hlast

/-- Of a word that ends in `s` the letters before it decide. -/
theorem iff_of_s (hs : "s".toList <:+ word) :
    HasDriftingEnd word ↔ ¬("ss".toList <:+ word ∨ EndsAfterConsonant "us" word) := by
  constructor
  · intro hdrift
    rcases hdrift.cases_last with ⟨-, h⟩ | ⟨hz, -⟩ | ⟨last, hmem, hlast⟩
    · exact h
    · exact absurd hz (not_isSuffix_of_isSuffix hs (by decide))
    · have hclash : ∀ last ∈ ["e", "u", "i"],
          "s".toList.getLast? ≠ last.toList.getLast? ∧ "s" ≠ "" ∧ last ≠ "" := by decide
      exact absurd hlast (not_isSuffix_of_isSuffix hs (hclash last hmem))
  · intro h
    exact .s hs (fun hss => h (Or.inl hss)) fun hus => h (Or.inr hus)

/-- A word that ends in a z drifts unless it ends in two. -/
theorem iff_of_z (hz : "z".toList <:+ word) : HasDriftingEnd word ↔ ¬"zz".toList <:+ word := by
  constructor
  · intro hdrift
    rcases hdrift.cases_last with ⟨hs, -⟩ | ⟨-, h⟩ | ⟨last, hmem, hlast⟩
    · exact absurd hs (not_isSuffix_of_isSuffix hz (by decide))
    · exact h
    · have hclash : ∀ last ∈ ["e", "u", "i"],
          "z".toList.getLast? ≠ last.toList.getLast? ∧ "z" ≠ "" ∧ last ≠ "" := by decide
      exact absurd hlast (not_isSuffix_of_isSuffix hz (hclash last hmem))
  · exact .z hz

end HasDriftingEnd

/-- The rules of the plural, with their conditions as statements. -/
theorem pluralBySuffix_eq (word : List Char) :
    pluralBySuffix word =
      if EndsAfterConsonant "y" word then dropEnd 1 word ++ "ies".toList
      else if endsInAny ["s", "x", "z", "ch", "sh"] word = true then word ++ "es".toList
      else word ++ "s".toList := by
  unfold pluralBySuffix
  simp only [endsAfterConsonant_iff, Bool.and_eq_true]
  rfl

/-- A `y` behind a consonant comes back. -/
theorem singularBySuffix_of_y (h : EndsAfterConsonant "y" word) :
    singularBySuffix (dropEnd 1 word ++ "ies".toList) = word := by
  obtain ⟨stem, hne, rfl⟩ := h.exists_eq_append
  have hstem : dropEnd 1 (stem ++ "y".toList) = stem := dropEnd_append stem _
  have hback : dropEnd 3 (stem ++ "ies".toList) = stem := dropEnd_append stem _
  have hpos : 0 < stem.length := List.length_pos_iff.mpr hne
  rw [hstem, singularBySuffix_eq, if_pos ⟨List.suffix_append _ _, by simpa using hpos⟩, hback]

/-- Where the plural adds `es`, it is taken away again from all words but those that drift. -/
theorem singularBySuffix_append_es_eq_self_iff
    (h : endsInAny ["s", "x", "z", "ch", "sh"] word = true) :
    singularBySuffix (word ++ "es".toList) = word ↔ ¬HasDriftingEnd word := by
  obtain ⟨ending, hmem, hends⟩ := endsInAny_iff.mp h
  have hlonger : word ++ "e".toList ≠ word := by simp
  have hi : ¬"i".toList <:+ word := by
    have hclash : ∀ ending ∈ ["s", "x", "z", "ch", "sh"],
        ending.toList.getLast? ≠ "i".toList.getLast? ∧ ending ≠ "" ∧ "i" ≠ "" := by decide
    exact not_isSuffix_of_isSuffix hends (hclash ending hmem)
  have hcases : endsInAny ["ss", "x", "zz", "ch", "sh"] word = true ∨
      EndsAfterConsonant "us" word ↔ ¬HasDriftingEnd word := by
    rw [endsInAny_iff]
    simp only [List.mem_cons, List.not_mem_nil, or_false] at hmem
    rcases hmem with rfl | rfl | rfl | rfl | rfl
    · have hss : "ss" ∈ ["ss", "x", "zz", "ch", "sh"] := by simp
      rw [HasDriftingEnd.iff_of_s hends, not_not, exists_isSuffix_iff hends hss (by decide)]
    · exact iff_of_true (Or.inl ⟨"x", by simp, hends⟩)
        (HasDriftingEnd.not_of_isSuffix hends (by decide))
    · have hzz : "zz" ∈ ["ss", "x", "zz", "ch", "sh"] := by simp
      rw [HasDriftingEnd.iff_of_z hends, not_not, exists_isSuffix_iff hends hzz (by decide)]
      exact or_iff_left fun hus => not_isSuffix_of_isSuffix hends (by decide) hus.isSuffix
    · exact iff_of_true (Or.inl ⟨"ch", by simp, hends⟩)
        (HasDriftingEnd.not_of_isSuffix hends (by decide))
    · exact iff_of_true (Or.inl ⟨"sh", by simp, hends⟩)
        (HasDriftingEnd.not_of_isSuffix hends (by decide))
  rw [singularBySuffix_append_es hi]
  split_ifs with hcondition
  · exact iff_of_true rfl (hcases.mp hcondition)
  · exact iff_of_false hlonger (mt hcases.mpr hcondition)

/-- Dropping something from a word changes it. -/
theorem dropEnd_ne_self (hne : word ≠ []) (n : Nat) : dropEnd (n + 1) word ≠ word := by
  intro heq
  have hlength := congrArg List.length heq
  have hpos : 0 < word.length := List.length_pos_iff.mpr hne
  unfold dropEnd at hlength
  rw [List.length_take] at hlength
  omega

/-- Where the plural adds `s`, it is taken away again from all words but those that drift. -/
theorem singularBySuffix_append_s_eq_self_iff (hne : word ≠ [])
    (h : ¬endsInAny ["s", "x", "z", "ch", "sh"] word = true) :
    singularBySuffix (word ++ "s".toList) = word ↔ ¬HasDriftingEnd word := by
  rw [singularBySuffix_append_s hne]
  split_ifs with hie hsibilant huse hvowel
  · refine iff_of_false ?_ (not_not_intro (.ie hie.1 hie.2))
    intro heq
    have hy : "y".toList <:+ word := heq ▸ List.suffix_append _ _
    exact not_isSuffix_of_isSuffix hy (by decide) hie.1
  · obtain ⟨ending, hmem, hends⟩ := endsInAny_iff.mp hsibilant
    exact iff_of_false (dropEnd_ne_self hne 0) (not_not_intro (.sibilant hmem hends))
  · refine iff_of_false ?_ (not_not_intro (.use huse))
    intro heq
    have hus : "us".toList <:+ word := heq ▸ List.suffix_append _ _
    exact not_isSuffix_of_isSuffix hus (by decide) huse.isSuffix
  · obtain ⟨ending, hmem, hends⟩ := endsInAny_iff.mp hvowel
    refine iff_of_false (by simp) (not_not_intro ?_)
    rcases List.mem_cons.mp hmem with rfl | hmem
    · exact absurd (endsInAny_iff.mpr ⟨"s", by simp, hends⟩) h
    · exact .vowel hmem hends
  · refine iff_of_true rfl ?_
    intro hdrift
    cases hdrift with
    | s hs _ _ => exact h (endsInAny_iff.mpr ⟨"s", by simp, hs⟩)
    | z hz _ => exact h (endsInAny_iff.mpr ⟨"z", by simp, hz⟩)
    | ie hie' hne' => exact hie ⟨hie', hne'⟩
    | sibilant hmem hends => exact hsibilant (endsInAny_iff.mpr ⟨_, hmem, hends⟩)
    | use huse' => exact huse huse'
    | vowel hmem hends =>
      exact hvowel (endsInAny_iff.mpr ⟨_, List.mem_cons_of_mem _ hmem, hends⟩)

/-- By the rules alone, the singular undoes the plural of all words but those that drift. -/
theorem singularBySuffix_pluralBySuffix_eq_self_iff (hne : word ≠ []) :
    singularBySuffix (pluralBySuffix word) = word ↔ ¬HasDriftingEnd word := by
  rw [pluralBySuffix_eq]
  split_ifs with hy hes
  · exact iff_of_true (singularBySuffix_of_y hy)
      (HasDriftingEnd.not_of_isSuffix hy.isSuffix (by decide))
  · exact singularBySuffix_append_es_eq_self_iff hes
  · exact singularBySuffix_append_s_eq_self_iff hne hes

/-! ## The tables -/

/-- The words that stand in a table, in either column. -/
def listed : List (List Char) :=
  uncountable ++ irregular.map Prod.fst ++ irregular.map Prod.snd

/-- Words that stand in no table and whose plural is a word of a table. -/
def strays : List (List Char) :=
  ["sery", "specy", "quizz", "new", "analyse", "halve", "indice", "knive", "leave", "live",
    "matrice", "vertice", "wive"].map String.toList

/-- The words that a plural can be of by one of the three rules. -/
def origins (plural : List Char) : List (List Char) :=
  [dropEnd 3 plural ++ "y".toList, dropEnd 2 plural, dropEnd 1 plural]

/-- Every word is among the origins of its plural. -/
theorem mem_origins (word : List Char) : word ∈ origins (pluralBySuffix word) := by
  have hes : dropEnd 2 (word ++ "es".toList) = word := dropEnd_append word _
  have hs : dropEnd 1 (word ++ "s".toList) = word := dropEnd_append word _
  unfold origins
  rw [pluralBySuffix_eq]
  split_ifs with hy
  · obtain ⟨stem, -, rfl⟩ := hy.exists_eq_append
    have hstem : dropEnd 1 (stem ++ "y".toList) = stem := dropEnd_append stem _
    have hback : dropEnd 3 (stem ++ "ies".toList) = stem := dropEnd_append stem _
    rw [hstem, hback]
    exact List.mem_cons_self
  · rw [hes]
    simp
  · rw [hs]
    simp

/-- Going through the tables backwards: a word whose plural stands there stands there itself, or is
one of a few that do not come back. -/
theorem of_pluralBySuffix_mem_listed : ∀ plural ∈ listed, ∀ word ∈ origins plural,
    pluralBySuffix word = plural →
      word ∈ uncountable ∨ word ∈ irregular.map Prod.fst ∨
        singularizeWord plural ≠ word ∧
          word ∈ strays ++
            ["analys", "serie", "specie", "quizze", "analysi"].map String.toList := by
  decide +kernel

/-- The plurals of the strays are in the tables. -/
theorem pluralBySuffix_mem_listed_of_mem_strays :
    ∀ word ∈ strays, pluralBySuffix word ∈ listed := by
  decide +kernel

/-- The words of the tables come back. -/
theorem singularizeWord_pluralizeWord_of_mem : ∀ word ∈ uncountable ++ irregular.map Prod.fst,
    singularizeWord (pluralizeWord word) = word := by
  decide +kernel

/-- A word that is in no table has the plural of the rules. -/
theorem pluralizeWord_of_notMem (huncountable : word ∉ uncountable)
    (hirregular : word ∉ irregular.map Prod.fst) : pluralizeWord word = pluralBySuffix word := by
  have hnone : irregular.lookup word = none := by
    rw [List.lookup_eq_none_iff]
    intro pair hpair
    rw [bne_iff_ne]
    rintro rfl
    exact hirregular (List.mem_map_of_mem hpair)
  unfold pluralizeWord
  rw [if_neg (mt List.contains_iff_mem.mp huncountable), hnone]

/-- A word that is in no table has the singular of the rules. -/
theorem singularizeWord_of_notMem (h : word ∉ listed) :
    singularizeWord word = singularBySuffix word := by
  unfold listed at h
  rw [List.mem_append, List.mem_append, not_or, not_or] at h
  obtain ⟨⟨huncountable, hsingular⟩, hplural⟩ := h
  have hnone : (irregular.find? fun pair => pair.2 == word) = none := by
    rw [List.find?_eq_none]
    intro pair hpair heq
    exact hplural (List.mem_map.mpr ⟨pair, hpair, eq_of_beq heq⟩)
  have hany : ¬(irregular.any fun pair => pair.1 == word) = true := by
    rw [List.any_eq_true]
    rintro ⟨pair, hpair, heq⟩
    exact hsingular (List.mem_map.mpr ⟨pair, hpair, eq_of_beq heq⟩)
  unfold singularizeWord
  rw [if_neg (mt List.contains_iff_mem.mp huncountable), hnone]
  exact if_neg hany

/-! ## All words -/

/-- The word stands in no table and its plural leads elsewhere. -/
inductive Drifts (word : List Char) : Prop where
  /-- It is one of the words whose plural stands in a table. -/
  | stray (h : word ∈ strays)
  /-- It has a drifting ending. -/
  | ending (h : HasDriftingEnd word)

/-- These words drift. -/
theorem drifts_of_mem (h : word ∈ strays ++
    ["analys", "serie", "specie", "quizze", "analysi"].map String.toList) : Drifts word := by
  rcases List.mem_append.mp h with hstray | h
  · exact .stray hstray
  · simp only [List.map_cons, List.map_nil, List.mem_cons, List.not_mem_nil, or_false] at h
    rcases h with rfl | rfl | rfl | rfl | rfl
    · exact .ending (.s (by decide) (by decide) (by decide))
    · exact .ending (.ie (by decide) (by decide))
    · exact .ending (.ie (by decide) (by decide))
    · have hzze : "zze" ∈ ["sse", "xe", "zze", "che", "she"] := by simp
      exact .ending (.sibilant hzze (by decide))
    · have hi : "i" ∈ ["u", "i"] := by simp
      exact .ending (.vowel hi (by decide))

/-- The singular undoes the plural of exactly these words: those without a plural of their own,
those with an irregular one, and all others that neither have a plural that stands in a table nor an
ending whose plural is taken for that of another. -/
theorem singularizeWord_pluralizeWord_eq_self_iff (hne : word ≠ []) :
    singularizeWord (pluralizeWord word) = word ↔
      word ∈ uncountable ∨ word ∈ irregular.map Prod.fst ∨ ¬Drifts word := by
  by_cases huncountable : word ∈ uncountable
  · exact iff_of_true (singularizeWord_pluralizeWord_of_mem word
      (List.mem_append_left _ huncountable)) (Or.inl huncountable)
  by_cases hirregular : word ∈ irregular.map Prod.fst
  · exact iff_of_true (singularizeWord_pluralizeWord_of_mem word
      (List.mem_append_right _ hirregular)) (Or.inr (Or.inl hirregular))
  rw [pluralizeWord_of_notMem huncountable hirregular, or_iff_right huncountable,
    or_iff_right hirregular]
  -- a plural that stands in a table is looked up there, and the rules decide about all others
  by_cases hlisted : pluralBySuffix word ∈ listed
  · have hback := of_pluralBySuffix_mem_listed _ hlisted word (mem_origins word) rfl
    obtain ⟨hother, hmem⟩ := (hback.resolve_left huncountable).resolve_left hirregular
    exact iff_of_false hother (not_not_intro (drifts_of_mem hmem))
  · rw [singularizeWord_of_notMem hlisted, singularBySuffix_pluralBySuffix_eq_self_iff hne]
    refine not_congr ⟨.ending, ?_⟩
    intro hdrifts
    cases hdrifts with
    | stray hstray => exact absurd (pluralBySuffix_mem_listed_of_mem_strays word hstray) hlisted
    | ending hending => exact hending

/-- `status` comes back, and `cache` does not: `caches` is taken for the plural of a word in `ch`.
-/
theorem singularizeWord_pluralizeWord_status_cache :
    "status".toList ≠ [] ∧ singularizeWord (pluralizeWord "status".toList) = "status".toList ∧
      "cache".toList ≠ [] ∧ singularizeWord (pluralizeWord "cache".toList) ≠ "cache".toList := by
  refine ⟨by decide, ?_, by decide, ?_⟩
  · have hend : ¬HasDriftingEnd "status".toList := by
      rw [HasDriftingEnd.iff_of_s (by decide)]
      decide
    have hdrifts : ¬Drifts "status".toList := by
      rintro (hstray | hending)
      · exact absurd hstray (by decide)
      · exact hend hending
    exact (singularizeWord_pluralizeWord_eq_self_iff (by decide)).mpr (Or.inr (Or.inr hdrifts))
  · have hche : "che" ∈ ["sse", "xe", "zze", "che", "she"] := by simp
    rw [Ne, singularizeWord_pluralizeWord_eq_self_iff (by decide)]
    rintro (huncountable | hirregular | hdrifts)
    · exact absurd huncountable (by decide)
    · exact absurd hirregular (by decide)
    · exact hdrifts (.ending (.sibilant hche (by decide)))

end Scaffold.Name
