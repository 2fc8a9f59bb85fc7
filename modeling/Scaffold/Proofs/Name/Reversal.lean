import Scaffold.Proofs.Entity.Expansion
import Scaffold.Proofs.Name.Canonical

/-!
# Back from the plural

A name is found again from its plural in capitals under conditions on its capitals and its last
word, which are said here exactly (`spellings_of_studlyPlural_iff`). A last word without a plural of
its own is no obstacle. Any other must have at most one capital, since a word that is changed keeps
only its first; it must not end in a digit, behind which the added letters would be a word of their
own (`singularize_pascal_pluralize_ne`); and the singular must undo its plural. What is in front of
the last word has no part in it, but all capitals must start words.
-/

namespace Scaffold.Name

open Text

variable {c first : Char} {front last name result rest spelled back : List Char} {raw : String}

/-! ## A plural behind a digit -/

/-- Behind a digit the added letters are written as a word. -/
theorem exists_pascalFrom_append (start : Bool) (hfront : ∀ d ∈ front, isWordChar d = true)
    (hc : isWordChar c = true) (hdigit : c.isDigit = true)
    (hrest : ∀ d ∈ first :: rest, d.isLower = true) :
    ∃ before : List Char, before.length = front.length ∧
      pascalFrom start (front ++ c :: first :: rest) = before ++ c :: first.toUpper :: rest := by
  induction front generalizing start with
  | nil =>
    have hplain : ∀ d ∈ first :: rest, isPlain d = true :=
      fun d hd => isPlain_of_isLower (hrest d hd)
    rw [List.forall_mem_cons] at hrest
    have hletter := isLetter_of_isLower hrest.1
    have hsame : recase start c = c :=
      forall_isWordChar (p := fun c => c.isDigit = true → ∀ start, recase start c = c) (by decide)
        hc hdigit start
    have hends : endsWord c (first :: rest) = true :=
      (endsWord_of_isLower (isPlain_of_isWordChar hc) hplain hrest.1).trans hdigit
    refine ⟨[], rfl, ?_⟩
    rw [List.nil_append, List.nil_append, pascalFrom,
      if_neg (Bool.eq_false_iff.mp (isWordChar_iff.mp hc).2), hsame, hends, pascalFrom,
      if_neg (Bool.eq_false_iff.mp (isSeparator_of_isLetter hletter)),
      endsWord_of_forall_isLower hletter hrest.2, pascalFrom_of_isLower hrest.2]
    rfl
  | cons d more ih =>
    rw [List.forall_mem_cons] at hfront
    obtain ⟨before, hlength, heq⟩ := ih (endsWord d (more ++ c :: first :: rest)) hfront.2
    refine ⟨recase start d :: before, congrArg (· + 1) hlength, ?_⟩
    have hseparator : isSeparator [d] = false := (isWordChar_iff.mp hfront.1).2
    rw [List.cons_append, pascalFrom, if_neg (Bool.eq_false_iff.mp hseparator),
      heq, List.cons_append]

/-- A name with small letters behind a digit is longer in the singular than without them. -/
theorem length_lt_singularize_pascal (hfront : ∀ d ∈ front, isWordChar d = true)
    (hc : isWordChar c = true) (hdigit : c.isDigit = true)
    (hrest : ∀ d ∈ first :: rest, d.isLower = true) :
    (front ++ [c]).length < (singularize (pascal (front ++ c :: first :: rest))).length := by
  have hplain : ∀ d ∈ front ++ c :: first :: rest, isPlain d = true := by
    rw [List.forall_mem_append, List.forall_mem_cons]
    exact ⟨fun d hd => isPlain_of_isWordChar (hfront d hd), isPlain_of_isWordChar hc,
      fun d hd => isPlain_of_isLower (hrest d hd)⟩
  obtain ⟨before, hlength, heq⟩ := exists_pascalFrom_append true hfront hc hdigit hrest
  rw [List.forall_mem_cons] at hrest
  have hfirst : isWordChar first.toUpper = true ∧ first.toUpper.isUpper = true :=
    forall_isLower (p := fun c => isWordChar c.toUpper = true ∧ c.toUpper.isUpper = true)
      (by decide) hrest.1
  have hsmall : ∀ d ∈ rest, isWordChar d = true ∧ d.isUpper = false := fun d hd =>
    isWordChar_and_isUpper_of_isLower (hrest.2 d hd)
  have hupper : c.isUpper = false :=
    forall_isWordChar (p := fun c => c.isDigit = true → c.isUpper = false) (by decide) hc hdigit
  have hword : IsLastWord (before ++ [c]) (first.toUpper :: rest) := by
    refine ⟨List.cons_ne_nil _ _, ?_, ?_⟩
    · exact isChain_append_small (List.forall_mem_singleton.mpr hfirst.1) (.singleton _) hsmall
    · have hstarts : startsWord c first.toUpper = true := by
        rw [startsWord_eq hc hfirst.1, hfirst.2, hupper]
        rfl
      simpa using hstarts
  have hspells := spells_inflectWord hword.ne_nil
    (List.forall_mem_cons.mpr ⟨hfirst.1, fun d hd => (hsmall d hd).1⟩)
    (exchanges_singularizeWord (lower (first.toUpper :: rest)))
  have hpos := List.length_pos_iff.mpr (hspells.ne_nil hword.ne_nil)
  rw [pascal_eq hplain, heq, List.append_cons before, singularize, hword.inflect_eq]
  simp only [List.length_append, hlength, List.length_singleton]
  omega

/-- The capitals of a name start words exactly if they do after its last word has been exchanged,
where it has one capital at most. -/
theorem capitalsLead_iff_of_spells (hword : IsLastWord front last)
    (h : ∀ d ∈ front ++ last, isWordChar d = true) (hspells : Spells last result spelled)
    (hle : capitals last ≤ 1) : CapitalsLead (front ++ spelled) ↔ CapitalsLead (front ++ last) := by
  obtain ⟨hfront, hlast⟩ := List.forall_mem_append.mp h
  have hspelled := hword.of_spells hspells hlast
  have hletters := hspells.isWordChar_of_mem hlast
  have hhead := hspells.head?_eq hword.ne_nil
  obtain ⟨first, run, rfl⟩ := List.exists_cons_of_ne_nil hword.ne_nil
  obtain ⟨rest, rfl⟩ := List.head?_eq_some_iff.mp hhead
  have hstarts := hword.isUpper_of_starts h
  have hone : capitals (first :: rest) ≤ 1 := hspells.capitals_le.trans hle
  rw [capitalsLead_append_cons (List.forall_mem_append.mpr ⟨hfront, hletters⟩) hstarts
      (forall_isUpper_eq_false_of_capitals_le (hspelled.isChain_staysLow hletters) hone),
    capitalsLead_append_cons h hstarts
      (forall_isUpper_eq_false_of_capitals_le (hword.isChain_staysLow hlast) hle)]

/-! ## The last word -/

/-- The last word of a name is found again from its plural. -/
structure Returns (last : List Char) : Prop where
  /-- It has one capital at most. -/
  capitals : capitals last ≤ 1
  /-- It does not end in a digit. -/
  digit : ∀ c ∈ last.getLast?, c.isDigit = false
  /-- The singular undoes its plural. -/
  singular : singularizeWord (pluralizeWord (lower last)) = lower last

/-- A word that has been exchanged once comes back from another exchange exactly if its letters do
and it has no capital that was lost. -/
theorem Spells.eq_last_iff {other : List Char} (hne : last ≠ [])
    (h : ∀ d ∈ last, isWordChar d = true) (hchain : last.IsChain StaysLow)
    (hspells : Spells last result spelled) (hback : Spells spelled other back)
    (hadds : lower spelled <+: other → other ≠ lower last) :
    back = last ↔ other = lower last ∧ Text.capitals last ≤ 1 := by
  have hletters := hspells.isWordChar_of_mem h
  have hlower := hback.lower_eq hletters
  cases hback with
  | longer _ hother =>
    have hdiffers := hadds (hother ▸ List.prefix_append _ _)
    refine iff_of_false (fun heq => hdiffers ?_) fun hsame => hdiffers hsame.1
    rw [← hlower, heq]
  | @other first run rest hspelled _ hother hrest =>
    have hsmall : Text.capitals rest = 0 := capitals_eq_zero fun c hc => (hrest c hc).2
    constructor
    · intro heq
      refine ⟨by rw [← hlower, heq], ?_⟩
      rw [← heq, capitals_cons, hsmall]
      split_ifs <;> omega
    · rintro ⟨hsame, hle⟩
      obtain ⟨head, more, rfl⟩ := List.exists_cons_of_ne_nil hne
      have hhead : first = head := by
        simpa [hspelled] using hspells.head?_eq (List.cons_ne_nil head more)
      have hmore : more.map Char.toLower = more :=
        map_toLower_eq_self fun c hc => ⟨h c (List.mem_cons_of_mem _ hc),
          forall_isUpper_eq_false_of_capitals_le hchain hle c hc⟩
      rw [hother, lower_of_isWordChar h, List.map_cons, hmore] at hsame
      rw [hhead, (List.cons.inj hsame).2]

section name

variable (hword : IsLastWord front last) (h : IsStudly (front ++ last))
include hword h

/-- A name without a plural of its own comes back if capitals leave it as it is. -/
theorem singularize_pascal_pluralize_iff_of_mem (hmem : lower last ∈ uncountable) :
    singularize (pascal (pluralize (front ++ last))) = front ++ last ↔
      CapitalsLead (front ++ last) := by
  have hlast : ∀ c ∈ last, isWordChar c = true := (List.forall_mem_append.mp h.isWordChar).2
  have hplural : pluralize (front ++ last) = front ++ last :=
    (inflect_eq_self_iff (fun _ => exchanges_pluralizeWord) hword hlast).mpr
      (pluralizeWord_eq_self_iff.mpr hmem)
  have hsingular : singularize (front ++ last) = front ++ last :=
    (inflect_eq_self_iff exchanges_of_ne_nil hword hlast).mpr
      (singularizeWord_of_mem (List.mem_append_left _ hmem))
  rw [hplural, singularize_pascal_eq_iff h le_rfl, pascal_eq_self_iff h]
  exact and_iff_left hsingular

/-- A name that ends in a digit and has a plural of its own does not come back. -/
theorem singularize_pascal_pluralize_ne (hmem : lower last ∉ uncountable)
    (hc : c ∈ last.getLast?) (hdigit : c.isDigit = true) :
    singularize (pascal (pluralize (front ++ last))) ≠ front ++ last := by
  obtain ⟨hfront, hlast⟩ := List.forall_mem_append.mp h.isWordChar
  have hrule := exchanges_pluralizeWord (lower_ne_nil hword.ne_nil hlast)
  obtain ⟨stem, hstem⟩ := List.getLast?_eq_some_iff.mp hc
  have hcword : isWordChar c = true := hlast c (List.mem_of_getLast? hc)
  have hspells := spells_inflectWord hword.ne_nil hlast hrule
  rw [pluralize, hword.inflect_eq]
  generalize inflectWord pluralizeWord last = spelled at hspells ⊢
  cases hspells with
  | @longer added hadded hresult =>
    cases added with
    | nil =>
      rw [List.append_nil] at hresult
      exact absurd (pluralizeWord_eq_self_iff.mp hresult) hmem
    | cons first rest =>
      have hstemword : ∀ d ∈ front ++ stem, isWordChar d = true :=
        List.forall_mem_append.mpr ⟨hfront, fun d hd => hlast d (hstem ▸ List.mem_append_left _ hd)⟩
      have hlonger := length_lt_singularize_pascal hstemword hcword hdigit hadded
      intro heq
      rw [hstem] at heq
      simp only [List.append_assoc, List.singleton_append] at heq hlonger
      rw [heq] at hlonger
      exact lt_irrefl _ hlonger
  | other _ hnot _ _ => exact absurd (hrule.isPrefix_of_isDigit hlast hc hdigit) hnot

/-- A name with a plural of its own comes back if capitals leave it as it is and its last word
returns. -/
theorem singularize_pascal_pluralize_iff_of_notMem (hmem : lower last ∉ uncountable)
    (hdigit : ∀ c ∈ last.getLast?, c.isDigit = false) :
    singularize (pascal (pluralize (front ++ last))) = front ++ last ↔
      CapitalsLead (front ++ last) ∧ Returns last := by
  obtain ⟨hfront, hlast⟩ := List.forall_mem_append.mp h.isWordChar
  have hrule := exchanges_pluralizeWord (lower_ne_nil hword.ne_nil hlast)
  have hspells := spells_inflectWord hword.ne_nil hlast hrule
  have hspelled := hword.of_spells hspells hlast
  have hletters := hspells.isWordChar_of_mem hlast
  have hlower := hspells.lower_eq hlast
  have hstudly : IsStudly (pluralize (front ++ last)) := by
    refine isStudly_inflect (fun _ => exchanges_pluralizeWord) h fun c hc hcdigit => ?_
    rw [List.getLast?_append_of_ne_nil _ hword.ne_nil] at hc
    rw [hdigit c hc] at hcdigit
    cases hcdigit
  have hadds : lower (inflectWord pluralizeWord last) <+:
      singularizeWord (lower (inflectWord pluralizeWord last)) →
      singularizeWord (lower (inflectWord pluralizeWord last)) ≠ lower last := by
    intro hbegins
    rw [singularizeWord_of_isPrefix hbegins, hlower]
    exact mt pluralizeWord_eq_self_iff.mp hmem
  have hback := hspells.eq_last_iff hword.ne_nil hlast (hword.isChain_staysLow hlast)
    (spells_inflectWord hspelled.ne_nil hletters (exchanges_singularizeWord _)) hadds
  rw [singularize_pascal_eq_iff hstudly (capitals_inflect_le (fun _ => exchanges_pluralizeWord) h),
    pascal_eq_self_iff hstudly, pluralize, hword.inflect_eq, singularize, hspelled.inflect_eq,
    List.append_cancel_left_eq, hback, hlower]
  constructor
  · rintro ⟨hleads, hsingular, hle⟩
    exact ⟨(capitalsLead_iff_of_spells hword h.isWordChar hspells hle).mp hleads,
      hle, hdigit, hsingular⟩
  · rintro ⟨hleads, hreturns⟩
    exact ⟨(capitalsLead_iff_of_spells hword h.isWordChar hspells hreturns.capitals).mpr hleads,
      hreturns.singular, hreturns.capitals⟩

/-- Which names come back from their plural. -/
theorem singularize_pascal_pluralize_iff :
    singularize (pascal (pluralize (front ++ last))) = front ++ last ↔
      CapitalsLead (front ++ last) ∧ (lower last ∈ uncountable ∨ Returns last) := by
  by_cases hmem : lower last ∈ uncountable
  · rw [singularize_pascal_pluralize_iff_of_mem hword h hmem]
    exact (and_iff_left (Or.inl hmem)).symm
  rw [or_iff_right hmem]
  by_cases hdigit : ∀ c ∈ last.getLast?, c.isDigit = false
  · exact singularize_pascal_pluralize_iff_of_notMem hword h hmem hdigit
  · have hnot : ¬(CapitalsLead (front ++ last) ∧ Returns last) := fun hboth => hdigit hboth.2.digit
    push Not at hdigit
    obtain ⟨c, hc, hcdigit⟩ := hdigit
    exact iff_of_false
      (singularize_pascal_pluralize_ne hword h hmem hc (Bool.ne_false_iff.mp hcdigit)) hnot

end name

/-! ## Entities and their plurals -/

/-- Two names have the same spellings exactly if they have the same canonical form. -/
theorem spellings_of_eq_iff {other : String} :
    Spellings.of other = Spellings.of raw ↔ canonical other = canonical raw := by
  constructor
  · exact fun heq => congrArg Spellings.studly heq
  · exact fun heq => congrArg Spellings.ofCanonical heq

/-- A name that is found again from its plural in capitals. -/
inductive IsReversible (name : List Char) : Prop where
  /-- There is nothing to find. -/
  | nil (hnil : name = [])
  /-- The last word has no plural of its own. -/
  | uncountable (hleads : CapitalsLead name) (hmem : lower (splitLastWord name).2 ∈ uncountable)
  /-- The last word is found again from its plural. -/
  | returns (hleads : CapitalsLead name) (hreturns : Returns (splitLastWord name).2)

/-- A name comes back exactly if its capitals start words and its last word comes back. -/
theorem isReversible_iff (hword : IsLastWord front last) :
    IsReversible (front ++ last) ↔
      CapitalsLead (front ++ last) ∧ (lower last ∈ Name.uncountable ∨ Returns last) := by
  have hsplit : (splitLastWord (front ++ last)).2 = last := congrArg Prod.snd hword.splitLastWord_eq
  constructor
  · intro h
    cases h with
    | nil hnil => exact absurd (List.append_eq_nil_iff.mp hnil).2 hword.ne_nil
    | uncountable hleads hmem => exact ⟨hleads, Or.inl (hsplit ▸ hmem)⟩
    | returns hleads hreturns => exact ⟨hleads, Or.inr (hsplit ▸ hreturns)⟩
  · rintro ⟨hleads, hmem | hreturns⟩
    · exact .uncountable hleads (hsplit.symm ▸ hmem)
    · exact .returns hleads (hsplit.symm ▸ hreturns)

/-- Which canonical names are the canonical form of their plural. -/
theorem canonical_studlyPlural_iff (h : ∀ c ∈ strip raw.toList, isPlain c = true) :
    canonical (Spellings.of raw).studlyPlural = canonical raw ↔
      IsReversible (canonical raw).toList := by
  have hstudly := isStudly_canonical h
  have hplural : (Spellings.of raw).studlyPlural.toList = pluralize (canonical raw).toList :=
    String.toList_ofList
  rw [← String.toList_inj, toList_canonical (Spellings.of raw).studlyPlural, hplural, pluralize,
    strip_of_isWordChar (isWordChar_of_mem_inflect (fun _ => exchanges_pluralizeWord) hstudly)]
  by_cases hne : (canonical raw).toList = []
  · rw [hne]
    exact iff_of_true rfl (.nil rfl)
  · obtain ⟨front, last, hname, hword⟩ := exists_isLastWord hne
    rw [hname] at hstudly ⊢
    rw [isReversible_iff hword]
    exact singularize_pascal_pluralize_iff hword hstudly

/-- The plural of a plain name has the spellings of the name exactly if the name is reversible, and
exactly then an entity that owns its plural needs no second one. -/
theorem spellings_of_studlyPlural_iff (h : ∀ c ∈ strip raw.toList, isPlain c = true)
    (fields : List Field) :
    let plural : Relation := ⟨canonical (Spellings.of raw).studlyPlural, .hasMany⟩
    (Spellings.of (Spellings.of raw).studlyPlural = Spellings.of raw ↔
        IsReversible (canonical raw).toList) ∧
      ((Entity.root raw fields [plural]).expand = [Entity.root raw fields [plural]] ↔
        IsReversible (canonical raw).toList) := by
  intro plural
  rw [spellings_of_eq_iff, Entity.expand_root_eq_singleton_iff, canonical_studlyPlural_iff h]
  exact ⟨Iff.rfl, Iff.rfl⟩

/-- `SalesPerson` is found again from `SalesPeople`, and `Item2` is not from `Item2s`: the singular
of that is `Item2S`. -/
theorem spellings_of_studlyPlural_sales_person_item2 :
    (∀ c ∈ strip "sales person".toList, isPlain c = true) ∧
      Spellings.of (Spellings.of "sales person").studlyPlural = Spellings.of "sales person" ∧
      (∀ c ∈ strip "item2".toList, isPlain c = true) ∧
      Spellings.of (Spellings.of "item2").studlyPlural ≠ Spellings.of "item2" := by
  have hperson : ∀ c ∈ strip "sales person".toList, isPlain c = true :=
    List.all_eq_true.mp (by decide)
  have hitem : ∀ c ∈ strip "item2".toList, isPlain c = true := List.all_eq_true.mp (by decide)
  refine ⟨hperson, ?_, hitem, ?_⟩
  · have hname : canonical "sales person" = "SalesPerson" := by decide +kernel
    have hword : (splitLastWord "SalesPerson".toList).2 = "Person".toList := by decide +kernel
    rw [(spellings_of_studlyPlural_iff hperson []).1, hname]
    refine .returns (by decide +kernel) ?_
    rw [hword]
    exact ⟨by decide, by simp, by decide +kernel⟩
  · have hname : canonical "item2" = "Item2" := by decide +kernel
    have hword : (splitLastWord "Item2".toList).2 = "Item2".toList := by decide +kernel
    rw [Ne, (spellings_of_studlyPlural_iff hitem []).1, hname]
    intro hreversible
    cases hreversible with
    | nil hnil => cases hnil
    | uncountable _ hmem => exact absurd hmem (by decide +kernel)
    | returns _ hreturns =>
      have hdigit := hword ▸ hreturns.digit
      exact absurd (hdigit '2' rfl) (by decide)

/-- The plural of `cache` is `Caches`, whose canonical form is `Cach`; an entity `Cache` that owns
many `Caches` is planned together with an entity `Cach`. -/
theorem spellings_of_caches :
    (Spellings.of "cache").studlyPlural = "Caches" ∧ canonical "Caches" = "Cach" ∧
      (Entity.root "cache" [] [⟨canonical "Caches", .hasMany⟩]).expand.map Entity.name =
        ["Cache", "Cach"] ∧
      ¬∀ raw : String, Spellings.of (Spellings.of raw).studlyPlural = Spellings.of raw := by
  have hplural : (Spellings.of "cache").studlyPlural = "Caches" := by decide +kernel
  have hback : canonical "Caches" = "Cach" := by decide +kernel
  have hcache : canonical "cache" = "Cache" := by decide +kernel
  refine ⟨hplural, hback, ?_, fun hall => ?_⟩
  · rw [hback, Entity.expand_eq]
    decide +kernel
  · have hsame := spellings_of_eq_iff.mp (hall "cache")
    rw [hplural, hback, hcache] at hsame
    exact absurd hsame (by decide)

end Scaffold.Name
