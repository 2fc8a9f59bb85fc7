import Scaffold.Proofs.Name.LastWord

/-!
# Canonical names

The canonical form of a plain name is in capitals (`isStudly_canonical`). Main statement: it is its
own canonical form exactly if every capital in it starts a word and its last word is not the plural
of an irregular word (`canonical_canonical_eq_iff`). All capitals but those of single letters do
(`a_b` becomes `AB`, and `AB` becomes `Ab`), and so do all singulars but the few that are a plural
as well (`mens` becomes `Men`, and `Men` becomes `Man`).

A name can come back from capitals and singular only if neither changes it: the capitals that one of
them takes are not given back by the other (`singularize_pascal_eq_iff`).
-/

namespace Scaffold.Name

open Text

variable {raw : String} {front last name other : List Char} {rule : List Char → List Char}

/-! ## The last word of a name in capitals -/

/-- The canonical form is the singular of the capitals of what is between the blanks. -/
theorem toList_canonical (raw : String) :
    (canonical raw).toList = singularize (pascal (strip raw.toList)) :=
  String.toList_ofList

/-- Letters and digits are no blanks. -/
theorem isBlank_of_isWordChar {c : Char} (hc : isWordChar c = true) : isBlank c = false :=
  forall_isWordChar (p := fun c => isBlank c = false) (by decide) hc

/-- Letters and digits have no blanks around them. -/
theorem strip_of_isWordChar (h : ∀ c ∈ name, isWordChar c = true) : strip name = name :=
  stripWhile_eq_self (fun c hc => isBlank_of_isWordChar (h c (List.mem_of_head? hc)))
    fun c hc => isBlank_of_isWordChar (h c (List.mem_of_getLast? hc))

/-- A word has its letters also in small letters. -/
theorem lower_ne_nil (hne : last ≠ []) (h : ∀ c ∈ last, isWordChar c = true) : lower last ≠ [] := by
  rw [lower_of_isWordChar h]
  simpa using hne

/-- In small letters a word ends in its last character as a small letter. -/
theorem getLast?_lower (h : ∀ c ∈ last, isWordChar c = true) :
    (lower last).getLast? = last.getLast?.map Char.toLower := by
  rw [lower_of_isWordChar h, List.getLast?_map]

/-- What the inflection of a name in capitals does, with the name cut before its last word. -/
theorem exists_spells_inflect (hrule : ∀ word, word ≠ [] → Exchanges word (rule word))
    (h : IsStudly name) (hne : name ≠ []) :
    ∃ front last spelled, name = front ++ last ∧ IsLastWord front last ∧
      (∀ c ∈ last, isWordChar c = true) ∧ Spells last (rule (lower last)) spelled ∧
      inflect rule name = front ++ spelled := by
  obtain ⟨front, last, rfl, hword⟩ := exists_isLastWord hne
  have hlast : ∀ c ∈ last, isWordChar c = true := fun c hc =>
    h.isWordChar c (List.mem_append_right _ hc)
  have hspells := spells_inflectWord hword.ne_nil hlast
    (hrule _ (lower_ne_nil hword.ne_nil hlast))
  exact ⟨front, last, _, rfl, hword, hlast, hspells, hword.inflect_eq rule⟩

/-- The spelling is the word itself only if the letters are. -/
theorem Spells.eq_self_iff {result spelled : List Char} (hspells : Spells last result spelled)
    (h : ∀ c ∈ last, isWordChar c = true) : spelled = last ↔ result = lower last := by
  constructor
  · rintro rfl
    exact (hspells.lower_eq h).symm
  · intro heq
    cases hspells with
    | longer _ hresult =>
      rw [heq, eq_comm, List.append_right_eq_self] at hresult
      rw [hresult, List.append_nil]
    | other _ hnot _ _ => exact absurd (heq ▸ List.prefix_rfl) hnot

/-- Inflection takes capitals and gives none. -/
theorem capitals_inflect_le (hrule : ∀ word, word ≠ [] → Exchanges word (rule word))
    (h : IsStudly name) : capitals (inflect rule name) ≤ capitals name := by
  by_cases hne : name = []
  · rw [hne]
    exact le_rfl
  · obtain ⟨front, last, spelled, rfl, -, -, hspells, hinflect⟩ := exists_spells_inflect hrule h hne
    rw [hinflect, capitals_append, capitals_append]
    exact Nat.add_le_add_left hspells.capitals_le _

/-- A rule that exchanges endings makes letters and digits of letters and digits. -/
theorem isWordChar_of_mem_inflect (hrule : ∀ word, word ≠ [] → Exchanges word (rule word))
    (h : IsStudly name) : ∀ c ∈ inflect rule name, isWordChar c = true := by
  by_cases hne : name = []
  · rw [hne]
    exact fun c hc => absurd hc List.not_mem_nil
  · obtain ⟨front, last, spelled, rfl, -, hlast, hspells, hinflect⟩ :=
      exists_spells_inflect hrule h hne
    rw [hinflect, List.forall_mem_append]
    exact ⟨(List.forall_mem_append.mp h.isWordChar).1, hspells.isWordChar_of_mem hlast⟩

/-- A name in capitals stays one when it is inflected, unless small letters are added behind a
digit. -/
theorem isStudly_inflect (hrule : ∀ word, word ≠ [] → Exchanges word (rule word))
    (h : IsStudly name)
    (hdigit : ∀ c ∈ name.getLast?, c.isDigit = true →
      ∀ word : List Char, word.getLast? = some c → rule word = word) :
    IsStudly (inflect rule name) := by
  by_cases hne : name = []
  · rwa [hne, inflect, ← hne]
  · obtain ⟨front, last, spelled, rfl, hword, hlast, hspells, hinflect⟩ :=
      exists_spells_inflect hrule h hne
    have hchain := (List.isChain_append.mp h.chain).2.1
    rw [← isChain_map_toLower_iff hlast (hword.isChain_staysLow hlast),
      ← lower_of_isWordChar hlast] at hchain
    have hresult : (rule (lower last)).IsChain StandsHigh := by
      refine (hrule _ (lower_ne_nil hword.ne_nil hlast)).isChain hchain fun c hc hcdigit => ?_
      rw [getLast?_lower hlast] at hc
      obtain ⟨d, hd, rfl⟩ := Option.map_eq_some_iff.mp hc
      have hdlast : d ∈ (front ++ last).getLast? := by
        rwa [List.getLast?_append_of_ne_nil _ hword.ne_nil]
      have hdword : isWordChar d = true := hlast d (List.mem_of_getLast? hd)
      have hddigit : d.isDigit = true := isDigit_toLower hdword ▸ hcdigit
      have hsame : d.toLower = d :=
        forall_isWordChar (p := fun c => c.isDigit = true → c.toLower = c)
          (by decide) hdword hddigit
      exact hdigit d hdlast hddigit _ (by rw [getLast?_lower hlast, hd, Option.map_some, hsame])
    rw [hinflect]
    exact isStudly_of_spells h hword hspells hresult

/-- The singular exchanges the ending of every word. -/
theorem exchanges_of_ne_nil (word : List Char) (_ : word ≠ []) :
    Exchanges word (singularizeWord word) :=
  exchanges_singularizeWord word

/-- Digits are no small letters. -/
theorem isLower_of_isDigit {c : Char} (hc : c.isDigit = true) : c.isLower = false := by
  by_contra hlower
  rw [isDigit_of_isLetter (isLetter_of_isLower (by simpa using hlower))] at hc
  cases hc

/-- A last word that ends in a digit is not cut. -/
theorem Exchanges.isPrefix_of_isDigit {result : List Char} {c : Char}
    (h : Exchanges (lower last) result) (hlast : ∀ d ∈ last, isWordChar d = true)
    (hc : c ∈ last.getLast?) (hdigit : c.isDigit = true) : lower last <+: result := by
  refine h.isPrefix_of_getLast? ?_
  rw [getLast?_lower hlast, Option.mem_def.mp hc]
  rintro _ ⟨⟩
  exact isLower_of_isDigit ((isDigit_toLower (hlast c (List.mem_of_getLast? hc))).trans hdigit)

/-- A word that ends in a digit is a singular. -/
theorem singularizeWord_of_isDigit {word : List Char} {c : Char} (hlast : word.getLast? = some c)
    (hc : c.isDigit = true) : singularizeWord word = word := by
  refine singularizeWord_of_isPrefix
    ((exchanges_singularizeWord word).isPrefix_of_getLast? fun d hd => ?_)
  rw [Option.mem_unique hd hlast]
  exact isLower_of_isDigit hc

/-- The singular of a name in capitals is in capitals. -/
theorem isStudly_singularize (h : IsStudly name) : IsStudly (singularize name) :=
  isStudly_inflect exchanges_of_ne_nil h fun _ _ hdigit _ hlast =>
    singularizeWord_of_isDigit hlast hdigit

/-- The canonical form of a plain name is in capitals. -/
theorem isStudly_canonical (h : ∀ c ∈ strip raw.toList, isPlain c = true) :
    IsStudly (canonical raw).toList := by
  rw [toList_canonical]
  exact isStudly_singularize (isStudly_pascal h)

/-! ## What stays as it is -/

/-- Inflection leaves a name as it is exactly if the rule leaves the letters of its last word. -/
theorem inflect_eq_self_iff (hrule : ∀ word, word ≠ [] → Exchanges word (rule word))
    (hword : IsLastWord front last) (h : ∀ c ∈ last, isWordChar c = true) :
    inflect rule (front ++ last) = front ++ last ↔ rule (lower last) = lower last := by
  have hspells := spells_inflectWord hword.ne_nil h (hrule _ (lower_ne_nil hword.ne_nil h))
  rw [hword.inflect_eq, List.append_cancel_left_eq, hspells.eq_self_iff h]

/-- A name in the singular is its own singular, unless it ends in the plural of an irregular word.
-/
theorem singularize_singularize_iff (h : IsStudly name) :
    singularize (singularize name) = singularize name ↔
      lower (splitLastWord (singularize name)).2 ∉ irregular.map Prod.snd := by
  by_cases hne : name = []
  · rw [hne]
    exact iff_of_true rfl (by decide)
  · obtain ⟨front, last, spelled, rfl, hword, hlast, hspells, hinflect⟩ :=
      exists_spells_inflect exchanges_of_ne_nil h hne
    have hsingular : singularize (front ++ last) = front ++ spelled := hinflect
    have hspelled := hword.of_spells hspells hlast
    rw [hsingular, hspelled.splitLastWord_eq, singularize,
      inflect_eq_self_iff exchanges_of_ne_nil hspelled (hspells.isWordChar_of_mem hlast),
      hspells.lower_eq hlast, singularizeWord_singularizeWord_iff]

/-- A name in capitals comes back from capitals and singular only if neither of them changes it. -/
theorem singularize_pascal_eq_iff (h : IsStudly name) (hle : capitals name ≤ capitals other) :
    singularize (pascal name) = other ↔ pascal name = name ∧ singularize name = other := by
  constructor
  · rintro rfl
    have hplain : ∀ c ∈ name, isPlain c = true := fun c hc =>
      isPlain_of_isWordChar (h.isWordChar c hc)
    have hback : capitals name ≤ capitals (pascal name) :=
      hle.trans (capitals_inflect_le exchanges_of_ne_nil (isStudly_pascal hplain))
    have hsame := pascal_eq_self_of_capitals_le h hback
    exact ⟨hsame, by rw [hsame]⟩
  · rintro ⟨hsame, hsingular⟩
    rw [hsame, hsingular]

/-- A name that stays as it is when it is written in capitals and in the singular. -/
structure IsSettled (name : List Char) : Prop where
  /-- Every capital behind the first character starts a word. -/
  leads : CapitalsLead name
  /-- The last word is not the plural of an irregular word. -/
  singular : lower (splitLastWord name).2 ∉ irregular.map Prod.snd

/-- The canonical form of a plain name is its own canonical form exactly if it has no capitals
inside of its words and does not end in an irregular plural. -/
theorem canonical_canonical_eq_iff (h : ∀ c ∈ strip raw.toList, isPlain c = true) :
    canonical (canonical raw) = canonical raw ↔ IsSettled (canonical raw).toList := by
  have hstudly := isStudly_canonical h
  have hsettled : IsSettled (canonical raw).toList ↔
      pascal (canonical raw).toList = (canonical raw).toList ∧
        singularize (canonical raw).toList = (canonical raw).toList := by
    rw [pascal_eq_self_iff hstudly, toList_canonical,
      singularize_singularize_iff (isStudly_pascal h)]
    exact ⟨fun hsettled => ⟨hsettled.leads, hsettled.singular⟩,
      fun hsettled => ⟨hsettled.1, hsettled.2⟩⟩
  rw [hsettled, ← singularize_pascal_eq_iff hstudly le_rfl, ← String.toList_inj, toList_canonical,
    strip_of_isWordChar hstudly.isWordChar]

/-- `TestItem` stays as it is, and `AB` does not: written in capitals again, its letters are one
word. -/
theorem canonical_canonical_test_items_a_b :
    (∀ c ∈ strip "test_items".toList, isPlain c = true) ∧
      canonical (canonical "test_items") = canonical "test_items" ∧
      (∀ c ∈ strip "a_b".toList, isPlain c = true) ∧
      canonical (canonical "a_b") ≠ canonical "a_b" := by
  have hitems : ∀ c ∈ strip "test_items".toList, isPlain c = true := List.all_eq_true.mp (by decide)
  have hletters : ∀ c ∈ strip "a_b".toList, isPlain c = true := List.all_eq_true.mp (by decide)
  refine ⟨hitems, ?_, hletters, ?_⟩
  · exact (canonical_canonical_eq_iff hitems).mpr ⟨by decide +kernel, by decide +kernel⟩
  · intro hsame
    have hsettled := (canonical_canonical_eq_iff hletters).mp hsame
    exact absurd hsettled.leads (by decide +kernel)

/-- The canonical form of `mens` is `Men`, and that of `Men` is `Man`. -/
theorem canonical_canonical_mens :
    canonical "mens" = "Men" ∧ canonical "Men" = "Man" ∧
      ¬∀ raw : String, canonical (canonical raw) = canonical raw := by
  have hmens : canonical "mens" = "Men" := by decide +kernel
  have hmen : canonical "Men" = "Man" := by decide +kernel
  refine ⟨hmens, hmen, fun hall => ?_⟩
  have hsame := hall "mens"
  rw [hmens, hmen] at hsame
  exact absurd hsame (by decide)

end Scaffold.Name
