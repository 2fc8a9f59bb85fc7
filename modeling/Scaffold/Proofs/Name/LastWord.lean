import Scaffold.Proofs.Name.Exchange
import Scaffold.Proofs.Text.Studly

/-!
# The last word of a name

A name is its last word and what is in front of it: no word starts inside of the last word, and one
starts where it begins (`IsLastWord`, `isLastWord_splitLastWord`, `IsLastWord.splitLastWord_eq`).

An exchange of letters at the end of the last word is carried over to its spelling in one of two
ways (`Spells`, `spells_inflectWord`), and what comes out is the last word of the new name
(`IsLastWord.of_spells`). A name in capitals stays one, unless small letters are added behind a
digit (`isStudly_of_spells`).
-/

namespace Scaffold.Name

open Text

variable {c d : Char} {front last name result spelled : List Char}

/-! ## Splitting off the last word -/

/-- `last` is the last word of the name that has `front` in front of it. -/
structure IsLastWord (front last : List Char) : Prop where
  /-- There is a word. -/
  ne_nil : last ≠ []
  /-- No word starts inside of it. -/
  chain : last.IsChain fun c d => startsWord c d = false
  /-- It starts where it begins. -/
  starts : ∀ c ∈ front.getLast?, ∀ d ∈ last.head?, startsWord c d = true

/-- Where no word starts, there is nothing to split. -/
theorem splitLastStart_of_isChain {before : Char} {cs : List Char}
    (h : (before :: cs).IsChain fun c d => startsWord c d = false) :
    splitLastStart before cs = none := by
  induction cs generalizing before with
  | nil => rfl
  | cons c rest ih => rw [splitLastStart, ih h.tail, if_neg (Bool.eq_false_iff.mp h.rel)]

/-- Where there is nothing to split, no word starts. -/
theorem isChain_of_splitLastStart {before : Char} {cs : List Char}
    (h : splitLastStart before cs = none) :
    (before :: cs).IsChain fun c d => startsWord c d = false := by
  induction cs generalizing before with
  | nil => exact .singleton before
  | cons c rest ih =>
    rw [splitLastStart] at h
    split at h
    · cases h
    · next hnone =>
      split_ifs at h with hstarts
      exact .cons_cons (Bool.eq_false_iff.mpr hstarts) (ih hnone)

/-- What is split off is the last word. -/
theorem isLastWord_of_splitLastStart {before : Char} {cs : List Char}
    (h : splitLastStart before cs = some (front, last)) : IsLastWord (before :: front) last := by
  induction cs generalizing before front with
  | nil => cases h
  | cons c rest ih =>
    rw [splitLastStart] at h
    split at h
    · next found word hsome =>
      obtain ⟨rfl, rfl⟩ := Prod.mk.inj (Option.some.inj h)
      have hfound := ih hsome
      exact ⟨hfound.ne_nil, hfound.chain, by simpa using hfound.starts⟩
    · next hnone =>
      split_ifs at h with hstarts
      obtain ⟨rfl, rfl⟩ := Prod.mk.inj (Option.some.inj h)
      exact ⟨List.cons_ne_nil _ _, isChain_of_splitLastStart hnone, by simpa using hstarts⟩

/-- Every name has a last word. -/
theorem isLastWord_splitLastWord (hne : name ≠ []) :
    IsLastWord (splitLastWord name).1 (splitLastWord name).2 := by
  obtain ⟨c, rest, rfl⟩ := List.exists_cons_of_ne_nil hne
  rw [splitLastWord]
  split
  · next hsome => exact isLastWord_of_splitLastStart hsome
  · next hnone => exact ⟨List.cons_ne_nil _ _, isChain_of_splitLastStart hnone, by simp⟩

namespace IsLastWord

/-- The last word is what is split off. -/
theorem splitLastStart_eq {before : Char} (h : IsLastWord (before :: front) last) :
    splitLastStart before (front ++ last) = some (front, last) := by
  induction front generalizing before with
  | nil =>
    obtain ⟨c, rest, rfl⟩ := List.exists_cons_of_ne_nil h.ne_nil
    have hstarts : startsWord before c = true := h.starts before rfl c rfl
    rw [List.nil_append, splitLastStart, splitLastStart_of_isChain h.chain, if_pos hstarts]
  | cons c more ih =>
    have hinner : IsLastWord (c :: more) last :=
      ⟨h.ne_nil, h.chain, by simpa using h.starts⟩
    rw [List.cons_append, splitLastStart, ih hinner]

/-- A name has one last word. -/
theorem splitLastWord_eq (h : IsLastWord front last) :
    splitLastWord (front ++ last) = (front, last) := by
  cases front with
  | nil =>
    obtain ⟨c, rest, rfl⟩ := List.exists_cons_of_ne_nil h.ne_nil
    rw [List.nil_append, splitLastWord, splitLastStart_of_isChain h.chain]
  | cons c more => rw [List.cons_append, splitLastWord, h.splitLastStart_eq]

/-- A name is inflected in its last word. -/
theorem inflect_eq (h : IsLastWord front last) (rule : List Char → List Char) :
    inflect rule (front ++ last) = front ++ inflectWord rule last := by
  unfold inflect
  split
  · next hnil => exact absurd (List.append_eq_nil_iff.mp hnil).2 h.ne_nil
  · rw [h.splitLastWord_eq]

end IsLastWord

/-- Every name that is not empty ends in a last word. -/
theorem exists_isLastWord (hne : name ≠ []) :
    ∃ front last, name = front ++ last ∧ IsLastWord front last :=
  ⟨_, _, (splitLastWord_append name).symm, isLastWord_splitLastWord hne⟩

/-! ## Characters of words -/

/-- A word starts at a capital that does not follow another. -/
theorem startsWord_eq (hc : isWordChar c = true) (hd : isWordChar d = true) :
    startsWord c d = (d.isUpper && !c.isUpper) := by
  have hseparator : (c == '_' || c == ' ' || c == '-') = false :=
    forall_isWordChar (p := fun c => (c == '_' || c == ' ' || c == '-') = false) (by decide) hc
  rw [startsWord, hseparator, isUpper_of_isPlain (isPlain_of_isWordChar hc),
    isUpper_of_isPlain (isPlain_of_isWordChar hd), Bool.false_or]

/-- No word starts between two characters unless the second alone is a capital. -/
theorem startsWord_eq_false_iff (hc : isWordChar c = true) (hd : isWordChar d = true) :
    startsWord c d = false ↔ (d.isUpper = true → c.isUpper = true) := by
  rw [startsWord_eq hc hd]
  cases d.isUpper <;> simp

/-- No word starts inside of small letters, nor where they are added. -/
theorem isChain_append_small {rest : List Char} (h : ∀ c ∈ last, isWordChar c = true)
    (hchain : last.IsChain fun c d => startsWord c d = false)
    (hrest : ∀ c ∈ rest, isWordChar c = true ∧ c.isUpper = false) :
    (last ++ rest).IsChain fun c d => startsWord c d = false := by
  induction rest generalizing last with
  | nil => rwa [List.append_nil]
  | cons d more ih =>
    rw [List.forall_mem_cons] at hrest
    have hgrown : ∀ c ∈ last ++ [d], isWordChar c = true := by
      simpa [or_imp, forall_and] using ⟨h, hrest.1.1⟩
    have hnext : (last ++ [d]).IsChain fun c d => startsWord c d = false := by
      rw [List.isChain_append]
      refine ⟨hchain, .singleton d, fun c hc e he => ?_⟩
      obtain rfl := Option.some.inj he
      rw [startsWord_eq (h c (List.mem_of_getLast? hc)) hrest.1.1, hrest.1.2, Bool.false_and]
    rw [List.append_cons]
    exact ih hgrown hnext hrest.2

/-- Letters and digits are taken to small letters one by one. -/
theorem lower_of_isWordChar (h : ∀ c ∈ last, isWordChar c = true) :
    lower last = last.map Char.toLower :=
  lower_of_isPlain fun c hc => isPlain_of_isWordChar (h c hc)

/-- Letters and digits have a byte each. -/
theorem byteCount_of_isWordChar (h : ∀ c ∈ last, isWordChar c = true) :
    byteCount last = last.length := by
  induction last with
  | nil => rfl
  | cons c rest ih =>
    rw [List.forall_mem_cons] at h
    have hone : c.utf8Size = 1 :=
      forall_isWordChar (p := fun c => c.utf8Size = 1) (by decide) h.1
    rw [byteCount, ih h.2, hone, List.length_cons, Nat.add_comm]

namespace IsLastWord

/-- Within a last word the capitals come first. -/
theorem isChain_staysLow (hword : IsLastWord front last) (h : ∀ c ∈ last, isWordChar c = true) :
    last.IsChain StaysLow :=
  hword.chain.imp_of_mem_imp fun c d hc hd => (startsWord_eq_false_iff (h c hc) (h d hd)).mp

/-- The last word starts at a capital that does not follow another. -/
theorem isUpper_of_starts (hword : IsLastWord front (c :: last))
    (h : ∀ d ∈ front ++ c :: last, isWordChar d = true) :
    ∀ b ∈ front.getLast?, c.isUpper = true ∧ b.isUpper = false := by
  intro b hb
  have hstarts := hword.starts b hb c rfl
  have hbword := h b (List.mem_append_left _ (List.mem_of_getLast? hb))
  have hcword := h c (List.mem_append_right _ List.mem_cons_self)
  rwa [startsWord_eq hbword hcword, Bool.and_eq_true, Bool.not_eq_true'] at hstarts

end IsLastWord

/-! ## The spelling of an inflected word -/

/-- `spelled` is the last word `last` after letters at its end have been exchanged, with `result` in
small letters. -/
inductive Spells (last result : List Char) : List Char → Prop where
  /-- The word is still there, with small letters behind it. -/
  | longer {added : List Char} (hadded : ∀ c ∈ added, c.isLower = true)
      (hresult : result = lower last ++ added) : Spells last result (last ++ added)
  /-- The first character is still there, and all others are small. -/
  | other {first : Char} {run rest : List Char} (hlast : last = first :: run)
      (hnot : ¬lower last <+: result) (hresult : result = first.toLower :: rest)
      (hrest : ∀ c ∈ rest, isWordChar c = true ∧ c.isUpper = false) :
      Spells last result (first :: rest)

/-- In small letters there are letters and digits, and no capitals. -/
theorem forall_mem_lower (h : ∀ c ∈ last, isWordChar c = true) :
    ∀ c ∈ lower last, isWordChar c = true ∧ c.isUpper = false := by
  rw [lower_of_isWordChar h, List.forall_mem_map]
  intro c hc
  exact ⟨isWordChar_toLower (h c hc), isUpper_toLower (h c hc)⟩

/-- What has no capitals is in small letters already. -/
theorem map_toLower_eq_self (h : ∀ c ∈ last, isWordChar c = true ∧ c.isUpper = false) :
    last.map Char.toLower = last :=
  (List.map_congr_left fun c hc => (toLower_eq_self_iff (h c hc).1).mpr (h c hc).2).trans
    (List.map_id last)

/-- Small letters are letters and no capitals. -/
theorem isWordChar_and_isUpper_of_isLower (hc : c.isLower = true) :
    isWordChar c = true ∧ c.isUpper = false :=
  forall_isLower (p := fun c => isWordChar c = true ∧ c.isUpper = false) (by decide) hc

/-- An exchange leaves no capitals where there were none. -/
theorem Exchanges.forall_mem {word : List Char} (h : Exchanges word result)
    (hword : ∀ c ∈ word, isWordChar c = true ∧ c.isUpper = false) :
    ∀ c ∈ result, isWordChar c = true ∧ c.isUpper = false := by
  intro c hc
  cases hlower : c.isLower with
  | true => exact isWordChar_and_isUpper_of_isLower hlower
  | false => exact hword c (h.mem hlower hc)

/-- A capital comes back. -/
theorem toUpper_toLower (hc : isWordChar c = true) (hupper : c.isUpper = true) :
    c.toLower.toUpper = c :=
  forall_isWordChar (p := fun c => c.isUpper = true → c.toLower.toUpper = c) (by decide) hc hupper

/-- Inflecting the last word spells the exchange that the rule makes in small letters. -/
theorem spells_inflectWord {rule : List Char → List Char} (hne : last ≠ [])
    (h : ∀ c ∈ last, isWordChar c = true) (hrule : Exchanges (lower last) (rule (lower last))) :
    Spells last (rule (lower last)) (inflectWord rule last) := by
  have hlower := lower_of_isWordChar h
  have hsmall := forall_mem_lower h
  have hbytes : byteCount (lower last) = byteCount last := by
    rw [byteCount_of_isWordChar h, byteCount_of_isWordChar fun c hc => (hsmall c hc).1, hlower,
      List.length_map]
  unfold inflectWord
  dsimp only
  rw [hbytes, beq_self_eq_true, Bool.true_and]
  by_cases hbegins : lower last <+: rule (lower last)
  · obtain ⟨added, hresult, hadded⟩ := hrule.eq_append hbegins
    rw [if_pos (List.isPrefixOf_iff_prefix.mpr hbegins), hresult, List.drop_left]
    exact .longer hadded rfl
  · rw [if_neg (mt List.isPrefixOf_iff_prefix.mp hbegins)]
    obtain ⟨first, run, rfl⟩ := List.exists_cons_of_ne_nil hne
    have hfirst : isWordChar first = true := h first List.mem_cons_self
    have hhead : (rule (lower (first :: run))).head? = some first.toLower := by
      rw [hrule.head?, hlower]
      rfl
    obtain ⟨rest, hresult⟩ := List.head?_eq_some_iff.mp hhead
    have hrest : ∀ c ∈ rest, isWordChar c = true ∧ c.isUpper = false := fun c hc =>
      hrule.forall_mem hsmall c (hresult ▸ List.mem_cons_of_mem _ hc)
    have hspelled : Spells (first :: run) (rule (lower (first :: run))) (first :: rest) :=
      .other rfl hbegins hresult hrest
    have hcapital : ((first :: run).head?.map isUpper).getD false = first.isUpper :=
      isUpper_of_isPlain (isPlain_of_isWordChar hfirst)
    rw [hcapital]
    split_ifs with hupper
    · have hplain := isPlain_of_isWordChar (isWordChar_toLower hfirst)
      have hgrown : capitalizeFirst (rule (lower (first :: run))) = first :: rest := by
        rw [hresult, capitalizeFirst, upperChar_of_isPlain hplain, toUpper_toLower hfirst hupper]
        rfl
      rwa [hgrown]
    · have hsame : first.toLower = first := (toLower_eq_self_iff hfirst).mpr (by simpa using hupper)
      have hkept : rule (lower (first :: run)) = first :: rest := by rw [hresult, hsame]
      rw [hkept] at hspelled ⊢
      exact hspelled

namespace Spells

variable (hspells : Spells last result spelled)
include hspells

/-- A word keeps its first character. -/
theorem head?_eq (hne : last ≠ []) : spelled.head? = last.head? := by
  cases hspells with
  | longer _ _ => exact List.head?_append_of_ne_nil _ hne
  | other hlast _ _ _ => rw [hlast]; rfl

/-- It is not empty if the word is not. -/
theorem ne_nil (hne : last ≠ []) : spelled ≠ [] := by
  intro hnil
  have hhead := hspells.head?_eq hne
  rw [hnil, List.head?_nil, eq_comm, List.head?_eq_none_iff] at hhead
  exact hne hhead

/-- It has no more capitals than the word. -/
theorem capitals_le : capitals spelled ≤ capitals last := by
  cases hspells with
  | @longer added hadded _ =>
    have hnone : capitals added = 0 := capitals_eq_zero fun c hc =>
      (isWordChar_and_isUpper_of_isLower (hadded c hc)).2
    rw [capitals_append, hnone, Nat.add_zero]
  | @other first run rest hlast _ _ hrest =>
    have hnone : capitals rest = 0 := capitals_eq_zero fun c hc => (hrest c hc).2
    rw [hlast, capitals_cons, capitals_cons, hnone]
    omega

variable (h : ∀ c ∈ last, isWordChar c = true)
include h

/-- It is made of letters and digits. -/
theorem isWordChar_of_mem : ∀ c ∈ spelled, isWordChar c = true := by
  cases hspells with
  | longer hadded _ =>
    rw [List.forall_mem_append]
    exact ⟨h, fun c hc => isWordChar_of_isLower (hadded c hc)⟩
  | other hlast _ _ hrest =>
    rw [List.forall_mem_cons]
    exact ⟨h _ (hlast ▸ List.mem_cons_self), fun c hc => (hrest c hc).1⟩

/-- In small letters the spelling is the result of the exchange. -/
theorem lower_eq : lower spelled = result := by
  rw [lower_of_isWordChar (hspells.isWordChar_of_mem h)]
  cases hspells with
  | longer hadded hresult =>
    have hsmall := fun c hc => isWordChar_and_isUpper_of_isLower (hadded c hc)
    rw [List.map_append, map_toLower_eq_self hsmall, hresult, lower_of_isWordChar h]
  | other hlast hnot hresult hrest => rw [List.map_cons, map_toLower_eq_self hrest, hresult]

/-- No word starts inside of the spelling. -/
theorem isChain (hchain : last.IsChain fun c d => startsWord c d = false) :
    spelled.IsChain fun c d => startsWord c d = false := by
  cases hspells with
  | longer hadded _ =>
    exact isChain_append_small h hchain fun c hc => isWordChar_and_isUpper_of_isLower (hadded c hc)
  | @other first run rest hlast _ _ hrest =>
    have hfirst : ∀ c ∈ [first], isWordChar c = true :=
      List.forall_mem_singleton.mpr (h first (hlast ▸ List.mem_cons_self))
    exact isChain_append_small hfirst (.singleton first) hrest

end Spells

/-- An inflected last word is the last word of its name. -/
theorem IsLastWord.of_spells (hword : IsLastWord front last) (hspells : Spells last result spelled)
    (h : ∀ c ∈ last, isWordChar c = true) : IsLastWord front spelled where
  ne_nil := hspells.ne_nil hword.ne_nil
  chain := hspells.isChain h hword.chain
  starts := by
    rw [hspells.head?_eq hword.ne_nil]
    exact hword.starts

/-! ## Names in capitals -/

/-- An exchange puts no small letter behind a digit, unless the word ends in one. -/
theorem Exchanges.isChain {word : List Char} (h : Exchanges word result)
    (hchain : word.IsChain StandsHigh)
    (hdigit : ∀ c ∈ word.getLast?, c.isDigit = true → result = word) :
    result.IsChain StandsHigh := by
  obtain ⟨stem, cut, added, rfl, rfl, hcut, hadded⟩ := h.endings
  obtain ⟨hstem, -, hbetween⟩ := List.isChain_append.mp hchain
  have hsmall : added.IsChain StandsHigh := by
    refine (List.pairwise_of_forall_mem_list fun c hc d _ hdigit => ?_).isChain
    rw [isDigit_of_isLetter (isLetter_of_isLower (hadded c hc))] at hdigit
    cases hdigit
  cases cut with
  | nil =>
    by_cases hlast : ∃ c ∈ stem.getLast?, c.isDigit = true
    · obtain ⟨c, hc, hcdigit⟩ := hlast
      rw [hdigit c (by simpa using hc) hcdigit]
      exact hchain
    · refine List.isChain_append.mpr ⟨hstem, hsmall, fun c hc d hd hcdigit => ?_⟩
      exact absurd ⟨c, hc, hcdigit⟩ hlast
  | cons e more =>
    refine List.isChain_append.mpr ⟨hstem, hsmall, fun c hc d hd hcdigit => ?_⟩
    have hhigh := hbetween c hc e rfl hcdigit
    rw [hcut e List.mem_cons_self] at hhigh
    cases hhigh

/-- A name in capitals stays one when its last word is inflected, if the result has no small letter
behind a digit. -/
theorem isStudly_of_spells (h : IsStudly (front ++ last)) (hword : IsLastWord front last)
    (hspells : Spells last result spelled) (hresult : result.IsChain StandsHigh) :
    IsStudly (front ++ spelled) := by
  obtain ⟨hfront, hlast⟩ := List.forall_mem_append.mp h.isWordChar
  obtain ⟨hchain, -, hbetween⟩ := List.isChain_append.mp h.chain
  have hhead := hspells.head?_eq hword.ne_nil
  refine ⟨?_, ?_, ?_⟩
  · exact List.forall_mem_append.mpr ⟨hfront, hspells.isWordChar_of_mem hlast⟩
  · cases front with
    | nil => simpa [hhead] using h.head
    | cons c more => exact h.head
  · have hspelled := hspells.isWordChar_of_mem hlast
    have hlow := (hword.of_spells hspells hlast).isChain_staysLow hspelled
    have hinner : spelled.IsChain StandsHigh := by
      rwa [← isChain_map_toLower_iff hspelled hlow, ← lower_of_isWordChar hspelled,
        hspells.lower_eq hlast]
    exact List.isChain_append.mpr ⟨hchain, hinner, hhead ▸ hbetween⟩

end Scaffold.Name
