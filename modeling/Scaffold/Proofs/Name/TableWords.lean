import Scaffold.Proofs.Name.Canonical
import Scaffold.Proofs.Text.Underscored

/-!
# The words of a table

The table of an entity is called by the words of its name, and the last of them is in the plural.
Main statement: the table has as many words as the name, with all but the last the same, exactly if
the plural does not cut the name in another way (`sameButLast_snakePlural_iff`). It does so in three
cases (`IsResplit`), since words are told apart after letters have been exchanged at the end: the
added letters are a word of their own behind a digit; they leave the last capital of an acronym to
the last word; and an acronym at the start of a last word that is spelled anew is no longer one.

Each of the three changes the number of underscores; otherwise the name and the table go on
differently behind the same beginning, with small letters only.
-/

namespace Scaffold.Name

open Text

variable {first : Char} {front last name added result rest run : List Char} {raw : String}

/-- A name with small letters behind it keeps its words unless they make another word of their own
or of the last capital. -/
theorem sameButLast_append_iff (h : ∀ c ∈ name, isWordChar c = true)
    (hadded : ∀ c ∈ added, c.isLower = true) (hne : added ≠ []) :
    SameButLast ((underscored name).splitOn '_') ((underscored (name ++ added)).splitOn '_') ↔
      ¬(endsInCapitals name = true ∨ ∃ c ∈ name.getLast?, c.isDigit = true) := by
  constructor
  · intro hsame hends
    have hcount := hsame.count_eq
    rw [count_underscored_append h hadded hne] at hcount
    rcases hends with hcapitals | ⟨c, hc, hdigit⟩
    · rw [hcapitals, Bool.toNat_true] at hcount
      omega
    · rw [Option.mem_def.mp hc, Option.map_some, Option.getD_some, hdigit,
        Bool.toNat_true] at hcount
      omega
  · intro hnot
    push Not at hnot
    rw [underscored_append h hadded (Bool.eq_false_iff.mpr hnot.1) fun c hc =>
      Bool.eq_false_iff.mpr (hnot.2 c hc)]
    have hnil : '_' ∉ ([] : List Char) := List.not_mem_nil
    have hsame := sameButLast_append hnil (notMem_of_isLower hadded) (underscored name)
    rwa [List.append_nil] at hsame

/-- Two words in small letters that an exchange leads to each other by are written alike but for the
letters exchanged. -/
theorem exists_underscored_of_exchanges {word : List Char} (h : Exchanges word result)
    (hword : ∀ c ∈ word, isWordChar c = true ∧ c.isUpper = false) (hchain : word.IsChain StandsHigh)
    (hnot : ¬word <+: result) :
    ∃ common cut ending, underscored word = common ++ cut ∧ underscored result = common ++ ending ∧
      '_' ∉ cut ∧ '_' ∉ ending := by
  obtain ⟨stem, cut, ending, rfl, rfl, hcut, hending⟩ := h.endings
  have hstem : ∀ c ∈ stem, isWordChar c = true := fun c hc =>
    (hword c (List.mem_append_left _ hc)).1
  have hcapitals : endsInCapitals stem = false := by
    rcases eq_nil_or_eq_singleton_or_eq_append stem with rfl | ⟨c, rfl⟩ | ⟨init, b, c, rfl⟩
    · rfl
    · rfl
    · rw [endsInCapitals_append, (hword b (by simp)).2, Bool.false_and]
  have hdigit : ∀ c ∈ stem.getLast?, c.isDigit = false := by
    intro c hc
    cases cut with
    | nil => exact absurd (by simp) hnot
    | cons e more =>
      have hhigh := (List.isChain_append.mp hchain).2.2 c hc e rfl
      by_contra hcdigit
      have hsmall := hhigh (by simpa using hcdigit)
      rw [hcut e List.mem_cons_self] at hsmall
      cases hsmall
  exact ⟨underscored stem, cut, ending, underscored_append hstem hcut hcapitals hdigit,
    underscored_append hstem hending hcapitals hdigit, notMem_of_isLower hcut,
    notMem_of_isLower hending⟩

/-- A name whose last word is spelled anew keeps its words unless that word starts with an acronym.
-/
theorem sameButLast_iff_of_exchanges (hword : IsLastWord front (first :: run))
    (h : IsStudly (front ++ first :: run)) (hexchanges : Exchanges (lower (first :: run)) result)
    (hnot : ¬lower (first :: run) <+: result) (hresult : result = first.toLower :: rest)
    (hrest : ∀ c ∈ rest, isWordChar c = true ∧ c.isUpper = false) :
    SameButLast ((underscored (front ++ first :: run)).splitOn '_')
        ((underscored (front ++ first :: rest)).splitOn '_') ↔ acronyms (first :: run) = 0 := by
  obtain ⟨hfront, hlast⟩ := List.forall_mem_append.mp h.isWordChar
  have hspells : Spells (first :: run) result (first :: rest) := .other rfl hnot hresult hrest
  have hletters := hspells.isWordChar_of_mem hlast
  have hlow := hword.isChain_staysLow hlast
  have hlower := lower_of_isWordChar hlast
  have hhigh : (lower (first :: run)).IsChain StandsHigh := by
    rw [hlower, isChain_map_toLower_iff hlast hlow]
    exact (List.isChain_append.mp h.chain).2.1
  obtain ⟨before, hbefore⟩ := exists_underscored_append_word
    (List.forall_mem_append.mpr ⟨hfront,
      List.forall_mem_singleton.mpr (hlast first List.mem_cons_self)⟩)
    (hword.isUpper_of_starts h.isWordChar)
  obtain ⟨common, cut, ending, hold, hnew, hcut, hending⟩ :=
    exists_underscored_of_exchanges hexchanges (forall_mem_lower hlast) hhigh hnot
  have hsmall : (first :: rest).map Char.toLower = result := by
    rw [List.map_cons, map_toLower_eq_self hrest, hresult]
  have hspelled : underscored (first :: rest) = common ++ ending := by
    rw [← underscored_map_toLower hletters
      ((hword.of_spells hspells hlast).isChain_staysLow hletters)
      (acronyms_eq_zero fun d hd => (hrest d hd).2), hsmall, hnew]
  rw [hbefore run (List.forall_mem_cons.mp hlast).2, hbefore rest fun c hc => (hrest c hc).1,
    hspelled]
  constructor
  · intro hsame
    have hcount := hsame.count_eq
    rw [List.count_append, List.count_append, count_underscored_eq hlast hlow, ← hlower, hold,
      List.count_append, List.count_append, List.count_eq_zero.mpr hcut,
      List.count_eq_zero.mpr hending] at hcount
    omega
  · intro hnone
    rw [← underscored_map_toLower hlast hlow hnone, ← hlower, hold, ← List.append_assoc,
      ← List.append_assoc]
    exact sameButLast_append hcut hending _

/-! ## Names and their tables -/

/-- The plural cuts the name into other words. -/
inductive IsResplit (name : List Char) : Prop where
  /-- The added letters are a word of their own: `item_2` and `item_2_s`. -/
  | digit {c : Char} (hmem : lower (splitLastWord name).2 ∉ uncountable) (hlast : c ∈ name.getLast?)
      (hdigit : c.isDigit = true)
  /-- The added letters leave the last capital to the last word: `ab` and `a_bs`. -/
  | capitals (hmem : lower (splitLastWord name).2 ∉ uncountable)
      (hbegins : lower (splitLastWord name).2 <+: pluralizeWord (lower (splitLastWord name).2))
      (hcapitals : endsInCapitals name = true)
  /-- An acronym at the start of the last word is lost: `a_city` and `acities`. -/
  | acronym (hnot : ¬lower (splitLastWord name).2 <+: pluralizeWord (lower (splitLastWord name).2))
      (hacronym : acronyms (splitLastWord name).2 ≠ 0)

section isResplit

variable (hword : IsLastWord front last)
include hword

/-- A word without plural is not split anew. -/
theorem not_isResplit_of_mem (hmem : lower last ∈ uncountable) : ¬IsResplit (front ++ last) := by
  have hsplit : (splitLastWord (front ++ last)).2 = last := congrArg Prod.snd hword.splitLastWord_eq
  intro hresplit
  cases hresplit with
  | digit hnot _ _ => exact hnot (hsplit.symm ▸ hmem)
  | capitals hnot _ _ => exact hnot (hsplit.symm ▸ hmem)
  | acronym hnot _ => exact hnot (by simp [hsplit, pluralizeWord_eq_self_iff.mpr hmem])

/-- Where the plural only adds letters, the end of the name decides. -/
theorem isResplit_iff_of_isPrefix (hmem : lower last ∉ uncountable)
    (hbegins : lower last <+: pluralizeWord (lower last)) :
    IsResplit (front ++ last) ↔
      endsInCapitals (front ++ last) = true ∨ ∃ c ∈ (front ++ last).getLast?, c.isDigit = true := by
  have hsplit : (splitLastWord (front ++ last)).2 = last := congrArg Prod.snd hword.splitLastWord_eq
  constructor
  · intro hresplit
    cases hresplit with
    | digit _ hc hdigit => exact Or.inr ⟨_, hc, hdigit⟩
    | capitals _ _ hcapitals => exact Or.inl hcapitals
    | acronym hnot _ => exact absurd (hsplit.symm ▸ hbegins) hnot
  · rw [← hsplit] at hmem hbegins
    rintro (hcapitals | ⟨c, hc, hdigit⟩)
    · exact .capitals hmem hbegins hcapitals
    · exact .digit hmem hc hdigit

/-- Where the plural exchanges letters, the start of the last word decides. -/
theorem isResplit_iff_of_not_isPrefix (h : ∀ c ∈ last, isWordChar c = true)
    (hnot : ¬lower last <+: pluralizeWord (lower last)) :
    IsResplit (front ++ last) ↔ acronyms last ≠ 0 := by
  have hsplit : (splitLastWord (front ++ last)).2 = last := congrArg Prod.snd hword.splitLastWord_eq
  constructor
  · intro hresplit
    cases hresplit with
    | digit _ hc hdigit =>
      rw [List.getLast?_append_of_ne_nil _ hword.ne_nil] at hc
      have hrule := exchanges_pluralizeWord (lower_ne_nil hword.ne_nil h)
      exact absurd (hrule.isPrefix_of_isDigit h hc hdigit) hnot
    | capitals _ hbegins _ => exact absurd (hsplit ▸ hbegins) hnot
    | acronym _ hacronym => exact hsplit ▸ hacronym
  · intro hacronym
    exact .acronym (hsplit.symm ▸ hnot) (hsplit.symm ▸ hacronym)

end isResplit

/-- Which names in capitals keep their words in the plural. -/
theorem sameButLast_pluralize_iff (h : IsStudly name) (hne : name ≠ []) :
    SameButLast ((underscored name).splitOn '_') ((underscored (pluralize name)).splitOn '_') ↔
      ¬IsResplit name := by
  obtain ⟨front, last, rfl, hword⟩ := exists_isLastWord hne
  have hlast := (List.forall_mem_append.mp h.isWordChar).2
  have hrule := exchanges_pluralizeWord (lower_ne_nil hword.ne_nil hlast)
  have hspells := spells_inflectWord hword.ne_nil hlast hrule
  rw [pluralize, hword.inflect_eq]
  generalize inflectWord pluralizeWord last = spelled at hspells ⊢
  cases hspells with
  | @longer added hadded hresult =>
    by_cases hnil : added = []
    · -- the last word has no plural of its own, and the name is its plural
      rw [hnil, List.append_nil] at hresult
      rw [hnil, List.append_nil]
      exact iff_of_true (.refl _)
        (not_isResplit_of_mem hword (pluralizeWord_eq_self_iff.mp hresult))
    · have hmem : lower last ∉ uncountable := by
        rw [← pluralizeWord_eq_self_iff, hresult]
        simpa using hnil
      rw [← List.append_assoc, sameButLast_append_iff h.isWordChar hadded hnil,
        isResplit_iff_of_isPrefix hword hmem (hresult ▸ List.prefix_append _ _)]
  | @other first run rest hfirst hnot hresult hrest =>
    subst hfirst
    rw [sameButLast_iff_of_exchanges hword h hrule hnot hresult hrest,
      isResplit_iff_of_not_isPrefix hword hlast hnot, not_not]

/-- The table of a plain name has as many words as the name, and all but the last are those of the
name, exactly if the plural does not cut the name into other words. -/
theorem sameButLast_snakePlural_iff (h : ∀ c ∈ strip raw.toList, isPlain c = true) :
    SameButLast ((Spellings.of raw).snake.toList.splitOn '_')
        ((Spellings.of raw).snakePlural.toList.splitOn '_') ↔
      ¬IsResplit (canonical raw).toList := by
  have hstudly := isStudly_canonical h
  have hletters := isWordChar_of_mem_inflect (fun _ => exchanges_pluralizeWord) hstudly
  have hsnake : (Spellings.of raw).snake.toList = underscored (canonical raw).toList :=
    String.toList_ofList.trans (snake_eq hstudly.isWordChar)
  have hplural : (Spellings.of raw).snakePlural.toList =
      underscored (pluralize (canonical raw).toList) :=
    String.toList_ofList.trans (snake_eq hletters)
  rw [hsnake, hplural]
  by_cases hne : (canonical raw).toList = []
  · rw [hne]
    refine iff_of_true (.refl _) fun hresplit => ?_
    cases hresplit with
    | digit _ hlast _ => cases hlast
    | capitals _ _ hcapitals => cases hcapitals
    | acronym hnot _ => exact hnot List.nil_prefix
  · exact sameButLast_pluralize_iff hstudly hne

/-- `sales_person` and `sales_people` agree but for the last word, and `item_2` and `item_2_s` do
not. -/
theorem sameButLast_snakePlural_sales_person_item2 :
    (∀ c ∈ strip "sales person".toList, isPlain c = true) ∧
      SameButLast ((Spellings.of "sales person").snake.toList.splitOn '_')
        ((Spellings.of "sales person").snakePlural.toList.splitOn '_') ∧
      (∀ c ∈ strip "item2".toList, isPlain c = true) ∧
      ¬SameButLast ((Spellings.of "item2").snake.toList.splitOn '_')
        ((Spellings.of "item2").snakePlural.toList.splitOn '_') := by
  have hperson : ∀ c ∈ strip "sales person".toList, isPlain c = true :=
    List.all_eq_true.mp (by decide)
  have hitem : ∀ c ∈ strip "item2".toList, isPlain c = true := List.all_eq_true.mp (by decide)
  refine ⟨hperson, ?_, hitem, ?_⟩
  · refine (sameButLast_snakePlural_iff hperson).mpr fun hresplit => ?_
    cases hresplit with
    | digit _ hlast hdigit =>
      have hn : (canonical "sales person").toList.getLast? = some 'n' := by decide +kernel
      rw [hn, Option.mem_some_iff] at hlast
      subst hlast
      exact absurd hdigit (by decide)
    | capitals _ _ hcapitals => exact absurd hcapitals (by decide +kernel)
    | acronym _ hacronym => exact absurd hacronym (by decide +kernel)
  · rw [sameButLast_snakePlural_iff hitem, not_not]
    have hlast : '2' ∈ (canonical "item2").toList.getLast? := by decide +kernel
    exact .digit (by decide +kernel) hlast rfl

/-- The entity `ACity` has the table `acities`: its first word is gone. -/
theorem snakePlural_a_city :
    (Spellings.of "a_city").snake = "a_city" ∧ (Spellings.of "a_city").snakePlural = "acities" ∧
      ¬∀ raw : String, SameButLast ((Spellings.of raw).snake.toList.splitOn '_')
        ((Spellings.of raw).snakePlural.toList.splitOn '_') := by
  have hsnake : (Spellings.of "a_city").snake = "a_city" := by decide +kernel
  have hplural : (Spellings.of "a_city").snakePlural = "acities" := by decide +kernel
  refine ⟨hsnake, hplural, fun hall => ?_⟩
  have hlength := (hall "a_city").length_eq
  rw [hsnake, hplural] at hlength
  exact absurd hlength (by decide)

end Scaffold.Name
