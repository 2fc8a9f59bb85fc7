import Scaffold.Proofs.Text.Recasing

/-!
# Text in capitals

Writing plain text in capitals joins words of which none starts with a small letter (`IsStudly`,
`isStudly_pascal`). It is not always a text that stays as it is when it is written in capitals
again: words of a single letter run together, and their capitals are lost in the word that they
make. What stays is exactly the text in which every capital starts a word (`CapitalsLead`,
`pascal_eq_self_iff`).

In a text that has its capitals already no capital is gained, so a text with as many capitals as
before has not changed (`pascal_eq_self_of_capitals_le`).

Within one word the capitals come first (`StaysLow`), and what is said of its case does not depend
on the small letters behind them (`capitalsLead_append_cons`, `isChain_map_toLower_iff`).
-/

namespace Scaffold.Text

variable {c d : Char} {cs rest : List Char} {start : Bool}

/-- `d` does not start a word as a small letter behind the digit `c`. -/
def StandsHigh (c d : Char) : Prop :=
  c.isDigit = true → d.isLower = false

/-- `d` is a capital behind `c` only if `c` is one as well. -/
def StaysLow (c d : Char) : Prop :=
  d.isUpper = true → c.isUpper = true

/-- The text is made of words none of which starts with a small letter. -/
structure IsStudly (cs : List Char) : Prop where
  /-- No word is separated from the next. -/
  isWordChar : ∀ c ∈ cs, isWordChar c = true
  /-- The first word does not start with a small letter. -/
  head : ∀ c ∈ cs.head?, c.isLower = false
  /-- No other word does. -/
  chain : cs.IsChain StandsHigh

/-- Every capital behind the first character starts a word. -/
def CapitalsLead : List Char → Prop
  | c :: d :: rest => (d.isUpper = true → endsWord c (d :: rest) = true) ∧ CapitalsLead (d :: rest)
  | _ => True

/-- Capitals lead words in a text if the second character does and the rest goes on so. -/
theorem capitalsLead_cons_cons :
    CapitalsLead (c :: d :: rest) ↔
      (d.isUpper = true → endsWord c (d :: rest) = true) ∧ CapitalsLead (d :: rest) :=
  Iff.rfl

instance decidableCapitalsLead : (cs : List Char) → Decidable (CapitalsLead cs)
  | [] => inferInstanceAs (Decidable True)
  | [_] => inferInstanceAs (Decidable True)
  | c :: d :: rest =>
    have : Decidable (CapitalsLead (d :: rest)) := decidableCapitalsLead (d :: rest)
    inferInstanceAs (Decidable ((d.isUpper = true → endsWord c (d :: rest) = true) ∧ _))

/-- The number of capitals in a text. -/
def capitals (cs : List Char) : Nat :=
  cs.countP Char.isUpper

/-- The capitals of two texts add up. -/
theorem capitals_append (cs rest : List Char) :
    capitals (cs ++ rest) = capitals cs + capitals rest :=
  List.countP_append

/-- The first character counts if it is a capital. -/
theorem capitals_cons (c : Char) (rest : List Char) :
    capitals (c :: rest) = capitals rest + if c.isUpper = true then 1 else 0 :=
  List.countP_cons

/-- A text without capitals has none to count. -/
theorem capitals_eq_zero (h : ∀ c ∈ cs, c.isUpper = false) : capitals cs = 0 := by
  rw [capitals, List.countP_eq_zero]
  intro c hc
  rw [h c hc]
  exact Bool.false_ne_true

/-! ## What writing in capitals leads to -/

/-- A studly text has no separators. -/
theorem isWordChar_of_mem_pascalFrom (h : ∀ c ∈ cs, isPlain c = true)
    (hd : d ∈ pascalFrom start cs) : isWordChar d = true := by
  induction cs generalizing start with
  | nil => exact absurd hd List.not_mem_nil
  | cons c rest ih =>
    rw [List.forall_mem_cons] at h
    rw [pascalFrom] at hd
    split_ifs at hd with hseparator
    · exact ih h.2 hd
    · have hc : isWordChar c = true := isWordChar_iff.mpr ⟨h.1, Bool.eq_false_iff.mpr hseparator⟩
      rcases List.mem_cons.mp hd with rfl | hrest
      · exact (isWordChar_recase start hc).1
      · exact ih h.2 hrest

/-- Where a word starts there is no small letter afterwards. -/
theorem head?_pascalFrom_true (h : ∀ c ∈ cs, isPlain c = true) :
    ∀ d ∈ (pascalFrom true cs).head?, d.isLower = false := by
  induction cs with
  | nil => simp [pascalFrom]
  | cons c rest ih =>
    rw [List.forall_mem_cons] at h
    by_cases hseparator : isSeparator [c] = true
    · rw [pascalFrom, if_pos hseparator]
      exact ih h.2
    · have hc : isWordChar c = true := isWordChar_iff.mpr ⟨h.1, Bool.eq_false_iff.mpr hseparator⟩
      rw [pascalFrom, if_neg hseparator]
      intro d hd
      rw [← Option.some.inj hd]
      exact isLower_toUpper hc

/-- Behind a digit every letter starts a word. -/
theorem head?_pascalFrom_of_isDigit (hc : isPlain c = true) (hdigit : c.isDigit = true)
    (h : ∀ d ∈ rest, isPlain d = true) :
    ∀ d ∈ (pascalFrom (endsWord c rest) rest).head?, d.isLower = false := by
  by_cases hends : endsWord c rest = true
  · rw [hends]
    exact head?_pascalFrom_true h
  cases rest with
  | nil => simp [pascalFrom]
  | cons d after =>
    have hd : isPlain d = true := h d List.mem_cons_self
    have hlower : d.isLower = false := by
      by_contra hlower
      rw [endsWord_of_isLower hc h (by simpa using hlower)] at hends
      exact hends hdigit
    have hupper : d.isUpper = false := by
      by_contra hupper
      rw [endsWord_of_capital hc h (by simpa using hupper), hdigit] at hends
      simp at hends
    by_cases hseparator : isSeparator [d] = true
    · rw [pascalFrom, if_pos hseparator]
      exact head?_pascalFrom_true (List.forall_mem_cons.mp h).2
    · have hword : isWordChar d = true := isWordChar_iff.mpr ⟨hd, Bool.eq_false_iff.mpr hseparator⟩
      have hsame : d.toLower = d := (toLower_eq_self_iff hword).mpr hupper
      simpa [pascalFrom, hseparator, recase, hends, hsame] using hlower

/-- In a studly text no small letter follows a digit. -/
theorem isChain_pascalFrom (h : ∀ c ∈ cs, isPlain c = true) :
    (pascalFrom start cs).IsChain StandsHigh := by
  induction cs generalizing start with
  | nil => simp [pascalFrom]
  | cons c rest ih =>
    rw [List.forall_mem_cons] at h
    rw [pascalFrom]
    split_ifs with hseparator
    · exact ih h.2
    · have hc : isWordChar c = true := isWordChar_iff.mpr ⟨h.1, Bool.eq_false_iff.mpr hseparator⟩
      refine List.isChain_cons.mpr ⟨fun d hd hdigit => ?_, ih h.2⟩
      rw [(isWordChar_recase start hc).2.1] at hdigit
      exact head?_pascalFrom_of_isDigit h.1 hdigit h.2 d hd

/-- In capitals no word starts with a small letter. -/
theorem isStudly_pascal (h : ∀ c ∈ cs, isPlain c = true) : IsStudly (pascal cs) := by
  rw [pascal_eq h]
  exact ⟨fun c hc => isWordChar_of_mem_pascalFrom h hc, head?_pascalFrom_true h,
    isChain_pascalFrom h⟩

/-! ## What stays as it is -/

/-- Where a word starts in a text that has its capitals there is no small letter. -/
theorem isLower_of_endsWord (h : ∀ d ∈ c :: rest, isWordChar d = true)
    (hchain : (c :: rest).IsChain StandsHigh) (hends : endsWord c rest = true) :
    ∀ d ∈ rest.head?, d.isLower = false := by
  intro d hd
  obtain ⟨after, rfl⟩ := List.head?_eq_some_iff.mp hd
  by_contra hlower
  rw [List.forall_mem_cons] at h
  have hplain : ∀ e ∈ d :: after, isPlain e = true := fun e he => isPlain_of_isWordChar (h.2 e he)
  rw [endsWord_of_isLower (isPlain_of_isWordChar h.1) hplain (by simpa using hlower)] at hends
  exact hlower (hchain.rel hends)

section stays

variable (h : ∀ c ∈ cs, isWordChar c = true) (hchain : cs.IsChain StandsHigh)
  (hstart : start = true → ∀ c ∈ cs.head?, c.isLower = false)
include h hchain hstart

/-- Such a text gains no capitals, and if it loses none it stays as it is. -/
theorem capitals_pascalFrom :
    capitals (pascalFrom start cs) ≤ capitals cs ∧
      (capitals cs ≤ capitals (pascalFrom start cs) → pascalFrom start cs = cs) := by
  induction cs generalizing start with
  | nil => simp [pascalFrom]
  | cons c rest ih =>
    have hrest := isLower_of_endsWord h hchain
    rw [List.forall_mem_cons] at h
    obtain ⟨hle, heq⟩ := ih h.2 hchain.tail hrest
    have hseparator : isSeparator [c] = false := (isWordChar_iff.mp h.1).2
    rw [pascalFrom, if_neg (Bool.eq_false_iff.mp hseparator), capitals_cons, capitals_cons,
      List.cons.injEq]
    cases start with
    | true =>
      have hsame : recase true c = c := (toUpper_eq_self_iff h.1).mpr (hstart rfl c rfl)
      rw [hsame]
      exact ⟨by omega, fun hcount => ⟨rfl, heq (by omega)⟩⟩
    | false =>
      have hsmall : (recase false c).isUpper = false := isUpper_toLower h.1
      cases hupper : c.isUpper with
      | true =>
        -- the capital is lost, and no other makes up for it
        simp only [hsmall, Bool.false_eq_true, if_false, if_true]
        exact ⟨by omega, fun hcount => absurd hcount (by omega)⟩
      | false =>
        have hsame : recase false c = c := (toLower_eq_self_iff h.1).mpr hupper
        simp only [hsame, hupper, Bool.false_eq_true, if_false]
        exact ⟨by omega, fun hcount => ⟨trivial, heq (by omega)⟩⟩

/-- A text is its own studly form exactly if its capitals lead words. -/
theorem pascalFrom_eq_self_iff :
    pascalFrom start cs = cs ↔
      (start = false → ∀ c ∈ cs.head?, c.isUpper = false) ∧ CapitalsLead cs := by
  induction cs generalizing start with
  | nil => simp [pascalFrom, CapitalsLead]
  | cons c rest ih =>
    have hrest := isLower_of_endsWord h hchain
    rw [List.forall_mem_cons] at h
    have hseparator : isSeparator [c] = false := (isWordChar_iff.mp h.1).2
    have hfirst : recase start c = c ↔ (start = false → c.isUpper = false) := by
      cases start with
      | true => simp [recase, (toUpper_eq_self_iff h.1).mpr (hstart rfl c rfl)]
      | false => simp [recase, toLower_eq_self_iff h.1]
    have hlead : CapitalsLead (c :: rest) ↔
        (endsWord c rest = false → ∀ d ∈ rest.head?, d.isUpper = false) ∧ CapitalsLead rest := by
      cases rest with
      | nil => simp [CapitalsLead]
      | cons d after => cases hends : endsWord c (d :: after) <;> simp [CapitalsLead, hends]
    rw [pascalFrom, if_neg (Bool.eq_false_iff.mp hseparator), List.cons.injEq,
      ih h.2 hchain.tail hrest, hfirst, hlead]
    simp

end stays

/-- What stays as it is in capitals. -/
theorem pascal_eq_self_iff (h : IsStudly cs) : pascal cs = cs ↔ CapitalsLead cs := by
  have hplain : ∀ c ∈ cs, isPlain c = true := fun c hc => isPlain_of_isWordChar (h.isWordChar c hc)
  rw [pascal_eq hplain, pascalFrom_eq_self_iff h.isWordChar h.chain fun _ => h.head]
  simp

/-- A text that loses no capital stays as it is. -/
theorem pascal_eq_self_of_capitals_le (h : IsStudly cs) (hle : capitals cs ≤ capitals (pascal cs)) :
    pascal cs = cs := by
  have hplain : ∀ c ∈ cs, isPlain c = true := fun c hc => isPlain_of_isWordChar (h.isWordChar c hc)
  rw [pascal_eq hplain] at hle ⊢
  exact (capitals_pascalFrom h.isWordChar h.chain fun _ => h.head).2 hle

/-! ## One word -/

/-- Behind a character that is no capital a word has none. -/
theorem forall_isUpper_eq_false (hchain : (c :: rest).IsChain StaysLow) (hc : c.isUpper = false) :
    ∀ d ∈ rest, d.isUpper = false := by
  induction rest generalizing c with
  | nil => exact fun d hd => absurd hd List.not_mem_nil
  | cons e more ih =>
    have hsmall : e.isUpper = false := by
      by_contra hupper
      rw [hchain.rel (by simpa using hupper)] at hc
      cases hc
    rw [List.forall_mem_cons]
    exact ⟨hsmall, ih hchain.tail hsmall⟩

/-- A word with one capital at most has none behind its first character. -/
theorem forall_isUpper_eq_false_of_capitals_le (hchain : (c :: rest).IsChain StaysLow)
    (hle : capitals (c :: rest) ≤ 1) : ∀ d ∈ rest, d.isUpper = false := by
  cases hc : c.isUpper with
  | false => exact forall_isUpper_eq_false hchain hc
  | true =>
    rw [capitals_cons, if_pos hc] at hle
    have hnone : capitals rest = 0 := by omega
    rw [capitals, List.countP_eq_zero] at hnone
    exact fun d hd => Bool.eq_false_iff.mpr (hnone d hd)

/-- Without capitals after the first character they lead words. -/
theorem capitalsLead_of_forall (h : ∀ d ∈ rest, d.isUpper = false) : CapitalsLead (c :: rest) := by
  induction rest generalizing c with
  | nil => trivial
  | cons d more ih =>
    rw [List.forall_mem_cons] at h
    refine ⟨fun hupper => ?_, ih h.2⟩
    rw [h.1] at hupper
    cases hupper

/-- At a capital that does not follow another a word starts, whatever is behind it. -/
theorem endsWord_of_not_isUpper {b : Char} (hb : isPlain b = true) (hbupper : b.isUpper = false)
    (hc : c.isUpper = true) (h : ∀ d ∈ c :: rest, isPlain d = true) :
    endsWord b (c :: rest) = (b.isLower || b.isDigit) := by
  rw [endsWord_of_capital hb h hc, hbupper, Bool.false_and, Bool.or_false]

/-- Whether all capitals start words does not depend on the small letters inside of the last word.
-/
theorem capitalsLead_append_cons {front : List Char}
    (h : ∀ d ∈ front ++ c :: rest, isWordChar d = true)
    (hstarts : ∀ b ∈ front.getLast?, c.isUpper = true ∧ b.isUpper = false)
    (hrest : ∀ d ∈ rest, d.isUpper = false) :
    CapitalsLead (front ++ c :: rest) ↔ CapitalsLead (front ++ [c]) := by
  induction front with
  | nil => exact iff_of_true (capitalsLead_of_forall hrest) trivial
  | cons b more ih =>
    have hmore : ∀ d ∈ more ++ c :: rest, isWordChar d = true := (List.forall_mem_cons.mp h).2
    cases more with
    | nil =>
      have hb := isPlain_of_isWordChar (h b List.mem_cons_self)
      have hplain : ∀ d ∈ c :: rest, isPlain d = true :=
        fun d hd => isPlain_of_isWordChar (hmore d hd)
      have hone : ∀ d ∈ [c], isPlain d = true :=
        List.forall_mem_singleton.mpr (hplain c List.mem_cons_self)
      obtain ⟨hc, hbupper⟩ := hstarts b rfl
      rw [List.singleton_append, List.singleton_append, capitalsLead_cons_cons,
        capitalsLead_cons_cons, endsWord_of_not_isUpper hb hbupper hc hplain,
        endsWord_of_not_isUpper hb hbupper hc hone]
      exact and_congr_right fun _ => iff_of_true (capitalsLead_of_forall hrest) trivial
    | cons d between =>
      have hends := endsWord_append_cons (List.cons_ne_nil d between) b c rest
      have hinner := ih hmore (by simpa using hstarts)
      rw [List.cons_append, List.cons_append] at hinner hends ⊢
      rw [List.cons_append, List.cons_append, capitalsLead_cons_cons, capitalsLead_cons_cons, hends,
        hinner]

/-- In one word it can be seen in small letters whether all letters behind digits stand high. -/
theorem isChain_map_toLower_iff (h : ∀ c ∈ cs, isWordChar c = true) (hchain : cs.IsChain StaysLow) :
    (cs.map Char.toLower).IsChain StandsHigh ↔ cs.IsChain StandsHigh := by
  induction cs with
  | nil => simp
  | cons c rest ih =>
    cases rest with
    | nil => simp
    | cons d more =>
      rw [List.forall_mem_cons, List.forall_mem_cons] at h
      have hboth : StandsHigh c.toLower d.toLower ↔ StandsHigh c d := by
        unfold StandsHigh
        rw [isDigit_toLower h.1]
        refine imp_congr_right fun hdigit => ?_
        have hupper : d.isUpper = false := by
          by_contra hupper
          have hc := hchain.rel (by simpa using hupper)
          rw [isDigit_of_isLetter (isLetter_of_isUpper hc)] at hdigit
          cases hdigit
        rw [(toLower_eq_self_iff h.2.1).mpr hupper]
      have hrest := ih (List.forall_mem_cons.mpr h.2) hchain.tail
      rw [List.map_cons] at hrest
      rw [List.map_cons, List.map_cons, List.isChain_cons_cons, List.isChain_cons_cons, hboth,
        hrest]

end Scaffold.Text
