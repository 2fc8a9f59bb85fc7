import Scaffold.Proofs.Text.Studly

/-!
# The words between underscores

Two texts that go on differently behind the same beginning have the same words between their
underscores but for the last, if there are no underscores in what is different
(`sameButLast_append`); and such texts have the same number of underscores (`SameButLast.count_eq`).

In a text with underscores between its words, what is added at the end can show in front of it: a
capital that was the last of an acronym starts a word when a small letter follows, and behind a
digit a small letter starts one. Otherwise the additions stand as they are (`underscored_append`),
and if so there is an underscore more (`count_underscored_append`). In small letters acronyms are
lost, and with them the underscore before their last capital (`count_underscored_eq`).
-/

namespace Scaffold.Text

variable {α : Type} {a b c d : Char} {cs front added rest xs ys : List Char}

/-! ## Lists that agree but for the last entry -/

/-- The lists are of the same length and differ in the last entry only. -/
structure SameButLast (xs ys : List α) : Prop where
  /-- They have the same length. -/
  length_eq : xs.length = ys.length
  /-- All entries but the last are the same. -/
  dropLast_eq : xs.dropLast = ys.dropLast

namespace SameButLast

/-- A list is the same as itself but for the last entry. -/
theorem refl (xs : List α) : SameButLast xs xs :=
  ⟨rfl, rfl⟩

/-- Lists stay the same but for the last if an entry is put in front of both. -/
theorem cons {xs ys : List α} (h : SameButLast xs ys) (hne : xs ≠ []) (x : α) :
    SameButLast (x :: xs) (x :: ys) := by
  have hne' : ys ≠ [] := by
    rw [← List.length_pos_iff, ← h.length_eq]
    exact List.length_pos_iff.mpr hne
  refine ⟨congrArg (· + 1) h.length_eq, ?_⟩
  rw [List.dropLast_cons_of_ne_nil hne, List.dropLast_cons_of_ne_nil hne', h.dropLast_eq]

/-- They stay so if their first entries are changed alike. -/
theorem modifyHead {xs ys : List α} (h : SameButLast xs ys) (f : α → α) :
    SameButLast (xs.modifyHead f) (ys.modifyHead f) := by
  refine ⟨by rw [List.length_modifyHead, List.length_modifyHead, h.length_eq], ?_⟩
  have hlength := h.length_eq
  have hinit := h.dropLast_eq
  match xs, ys with
  | [], [] => rfl
  | [_], [_] => rfl
  | x :: x' :: xs, y :: y' :: ys =>
    rw [List.dropLast_cons_cons, List.dropLast_cons_cons, List.cons.injEq] at hinit
    rw [List.modifyHead_cons, List.modifyHead_cons, List.dropLast_cons_cons,
      List.dropLast_cons_cons, hinit.1, hinit.2]

end SameButLast

/-- Texts that differ behind their last separator have the same parts but for the last. -/
theorem sameButLast_append (hxs : a ∉ xs) (hys : a ∉ ys) (front : List Char) :
    SameButLast ((front ++ xs).splitOn a) ((front ++ ys).splitOn a) := by
  induction front with
  | nil =>
    rw [List.nil_append, List.nil_append, List.splitOn_eq_singleton hxs,
      List.splitOn_eq_singleton hys]
    exact ⟨rfl, rfl⟩
  | cons c rest ih =>
    rw [List.cons_append, List.cons_append, List.splitOn_cons_eq_if_modifyHead,
      List.splitOn_cons_eq_if_modifyHead]
    split_ifs
    · exact ih.cons (List.splitOn_ne_nil _ _) []
    · exact ih.modifyHead _

/-- There is one piece more than there are separators. -/
theorem length_splitOn (a : Char) (cs : List Char) : (cs.splitOn a).length = cs.count a + 1 := by
  induction cs with
  | nil => rfl
  | cons c rest ih =>
    rw [List.splitOn_cons_eq_if_modifyHead, List.count_cons]
    split_ifs
    · rw [List.length_cons, ih]
    · rw [List.length_modifyHead, ih, Nat.add_zero]

/-- Texts with as many parts have as many separators. -/
theorem SameButLast.count_eq (h : SameButLast (xs.splitOn a) (ys.splitOn a)) :
    xs.count a = ys.count a := by
  have hlength := h.length_eq
  rw [length_splitOn, length_splitOn] at hlength
  omega

/-! ## What is added at the end -/

/-- What a text ends in has no part in how its beginning is written. -/
theorem exists_underscored_append (front : List Char) (b c : Char) :
    ∃ before, ∀ rest,
      underscored (front ++ b :: c :: rest) = before ++ underscored (b :: c :: rest) := by
  induction front with
  | nil => exact ⟨[], fun _ => rfl⟩
  | cons d more ih =>
    obtain ⟨before, hbefore⟩ := ih
    refine ⟨d.toLower :: ((if endsWord d (more ++ [b, c]) then ['_'] else []) ++ before),
      fun rest => ?_⟩
    have hends : endsWord d (more ++ b :: c :: rest) = endsWord d (more ++ [b, c]) := by
      have hsplit : ∀ rest, more ++ b :: c :: rest = (more ++ [b]) ++ c :: rest := by simp
      rw [hsplit, hsplit, endsWord_append_cons (by simp)]
    rw [List.cons_append, underscored, hends, hbefore]
    simp

/-- In front of a word that starts at a capital a text is written as it is, whatever the word is. -/
theorem exists_underscored_append_word (h : ∀ d ∈ front ++ [c], isWordChar d = true)
    (hstarts : ∀ b ∈ front.getLast?, c.isUpper = true ∧ b.isUpper = false) :
    ∃ before, ∀ rest, (∀ d ∈ rest, isWordChar d = true) →
      underscored (front ++ c :: rest) = before ++ underscored (c :: rest) := by
  rcases List.eq_nil_or_concat front with rfl | ⟨stem, b, rfl⟩
  · exact ⟨[], fun _ _ => rfl⟩
  · rw [List.concat_eq_append, List.forall_mem_append, List.forall_mem_append,
      List.forall_mem_singleton, List.forall_mem_singleton] at h
    obtain ⟨hc, hb⟩ := hstarts b (by simp)
    obtain ⟨before, hbefore⟩ := exists_underscored_append stem b c
    refine ⟨before ++ b.toLower :: (if b.isLower || b.isDigit then ['_'] else []),
      fun rest hrest => ?_⟩
    have hplain : ∀ d ∈ c :: rest, isPlain d = true :=
      List.forall_mem_cons.mpr ⟨isPlain_of_isWordChar h.2,
        fun d hd => isPlain_of_isWordChar (hrest d hd)⟩
    have hsplit : stem.concat b ++ c :: rest = stem ++ b :: c :: rest := by simp
    rw [hsplit, hbefore, underscored,
      endsWord_of_not_isUpper (isPlain_of_isWordChar h.1.2) hb hc hplain]
    simp

/-- Small letters have no underscore among them. -/
theorem notMem_of_isLower (h : ∀ c ∈ cs, c.isLower = true) : '_' ∉ cs := by
  intro hmem
  have hlower := h '_' hmem
  simp at hlower

/-- A word of small letters gets no underscore. -/
theorem underscored_of_isLower (h : ∀ c ∈ cs, c.isLower = true) : underscored cs = cs := by
  induction cs with
  | nil => rfl
  | cons c rest ih =>
    rw [List.forall_mem_cons] at h
    have hsame : c.toLower = c := forall_isLower (p := fun c => c.toLower = c) (by decide) h.1
    rw [underscored, endsWord_of_forall_isLower (isLetter_of_isLower h.1) h.2, hsame, ih h.2]
    rfl

/-- The text ends in two capitals. -/
def endsInCapitals (cs : List Char) : Bool :=
  match cs.reverse with
  | c :: b :: _ => b.isUpper && c.isUpper
  | _ => false

/-- The last two characters decide whether a text ends in capitals. -/
theorem endsInCapitals_append (front : List Char) (b c : Char) :
    endsInCapitals (front ++ [b, c]) = (b.isUpper && c.isUpper) := by
  simp [endsInCapitals]

/-- A text is empty, a single character, or it ends in two. -/
theorem eq_nil_or_eq_singleton_or_eq_append (cs : List Char) :
    cs = [] ∨ (∃ c, cs = [c]) ∨ ∃ front b c, cs = front ++ [b, c] := by
  rcases List.eq_nil_or_concat cs with rfl | ⟨init, c, rfl⟩
  · exact Or.inl rfl
  rcases List.eq_nil_or_concat init with rfl | ⟨front, b, rfl⟩
  · exact Or.inr (Or.inl ⟨c, rfl⟩)
  · exact Or.inr (Or.inr ⟨front, b, c, by simp⟩)

/-- What follows the character behind a boundary matters for acronyms only. -/
theorem endsWord_cons_eq (hc : isPlain c = true) (hrest : ∀ e ∈ d :: rest, isPlain e = true) :
    endsWord c (d :: rest) = (endsWord c [d] || (c.isUpper && d.isUpper && startsSmall rest)) := by
  have hone : ∀ e ∈ [d], isPlain e = true :=
    List.forall_mem_singleton.mpr (hrest d List.mem_cons_self)
  rw [endsWord_cons hc hrest, endsWord_cons hc hone]
  simp [startsSmall]

/-- A boundary in front of the last capital of an acronym is there only when a small letter follows.
-/
theorem toNat_endsWord_cons (hc : isPlain c = true) (hrest : ∀ e ∈ d :: rest, isPlain e = true) :
    (endsWord c (d :: rest)).toNat =
      (endsWord c [d]).toNat + (c.isUpper && d.isUpper && startsSmall rest).toNat := by
  have hd := hrest d List.mem_cons_self
  rw [endsWord_cons_eq hc hrest]
  cases hboth : c.isUpper && d.isUpper with
  | false => simp
  | true =>
    rw [Bool.and_eq_true] at hboth
    have hone : ∀ e ∈ [d], isPlain e = true := List.forall_mem_singleton.mpr hd
    have hnone : endsWord c [d] = false := by
      rw [endsWord_of_capital hc hone hboth.2]
      rcases sort_cases hc with hsort | hsort | hsort | hsort <;> simp_all [startsSmall]
    simp [hnone]

/-- The number of underscores is the number of places at which a word starts. -/
theorem count_underscored_cons (hc : isWordChar c = true) (rest : List Char) :
    (underscored (c :: rest)).count '_' =
      (endsWord c rest).toNat + (underscored rest).count '_' := by
  have hne : c.toLower ≠ '_' := forall_isWordChar (p := fun c => c.toLower ≠ '_') (by decide) hc
  rw [underscored, List.count_cons_of_ne hne, List.count_append]
  cases endsWord c rest <;> simp

section added

variable (h : ∀ c ∈ cs, isWordChar c = true) (hadded : ∀ c ∈ added, c.isLower = true)
include h hadded

/-- Small letters behind a text stand as they are, unless they end an acronym or follow a digit. -/
theorem underscored_append (hcapitals : endsInCapitals cs = false)
    (hdigit : ∀ c ∈ cs.getLast?, c.isDigit = false) :
    underscored (cs ++ added) = underscored cs ++ added := by
  have hadded' := underscored_of_isLower hadded
  have hplain : ∀ e ∈ added, isPlain e = true := fun e he => isPlain_of_isLower (hadded e he)
  -- behind the last character no word starts
  have hlast : ∀ c ∈ cs.getLast?, endsWord c added = false := by
    intro c hc
    cases added with
    | nil => rfl
    | cons e more =>
      have hcword := h c (List.mem_of_getLast? hc)
      rw [endsWord_of_isLower (isPlain_of_isWordChar hcword) hplain (hadded e List.mem_cons_self),
        hdigit c hc]
  rcases eq_nil_or_eq_singleton_or_eq_append cs with rfl | ⟨c, rfl⟩ | ⟨front, b, c, rfl⟩
  · exact hadded'
  · rw [List.singleton_append, underscored, hlast c rfl, hadded']
    rfl
  · rw [endsInCapitals_append] at hcapitals
    rw [List.forall_mem_append, List.forall_mem_cons, List.forall_mem_singleton] at h
    obtain ⟨before, hbefore⟩ := exists_underscored_append front b c
    have hcadded : ∀ e ∈ c :: added, isPlain e = true :=
      List.forall_mem_cons.mpr ⟨isPlain_of_isWordChar h.2.2, hplain⟩
    have hfirst : endsWord b (c :: added) = endsWord b [c] := by
      rw [endsWord_cons_eq (isPlain_of_isWordChar h.2.1) hcadded, hcapitals, Bool.false_and,
        Bool.or_false]
    have hsplit : front ++ [b, c] ++ added = front ++ b :: c :: added := by simp
    rw [hsplit, hbefore, hbefore, underscored, underscored, hfirst, hlast c (by simp), hadded']
    simp [underscored, endsWord]

/-- Small letters bring another underscore if they end an acronym or follow a digit. -/
theorem count_underscored_append (hne : added ≠ []) :
    (underscored (cs ++ added)).count '_' =
      (underscored cs).count '_' + (endsInCapitals cs).toNat +
        ((cs.getLast?.map Char.isDigit).getD false).toNat := by
  have hplain : ∀ e ∈ added, isPlain e = true := fun e he => isPlain_of_isLower (hadded e he)
  have hsmall : (underscored added).count '_' = 0 := by
    rw [underscored_of_isLower hadded, List.count_eq_zero]
    exact notMem_of_isLower hadded
  obtain ⟨first, more, rfl⟩ := List.exists_cons_of_ne_nil hne
  have hlast : ∀ c, isWordChar c = true → endsWord c (first :: more) = c.isDigit := fun c hc =>
    endsWord_of_isLower (isPlain_of_isWordChar hc) hplain (hadded first List.mem_cons_self)
  have hempty : ∀ c, (endsWord c []).toNat + (underscored []).count '_' = 0 := fun _ => rfl
  rcases eq_nil_or_eq_singleton_or_eq_append cs with rfl | ⟨c, rfl⟩ | ⟨front, b, c, rfl⟩
  · exact hsmall
  · have hc : isWordChar c = true := h c List.mem_cons_self
    have hacronym : (endsInCapitals [c]).toNat = 0 := rfl
    rw [List.singleton_append, count_underscored_cons hc, count_underscored_cons hc, hlast c hc,
      hsmall, hempty, hacronym, List.getLast?_singleton]
    exact Nat.add_comm _ _
  · rw [List.forall_mem_append, List.forall_mem_cons, List.forall_mem_singleton] at h
    obtain ⟨before, hbefore⟩ := exists_underscored_append front b c
    have hcadded : ∀ e ∈ c :: first :: more, isPlain e = true :=
      List.forall_mem_cons.mpr ⟨isPlain_of_isWordChar h.2.2, hplain⟩
    have hstarts : startsSmall (first :: more) = true := hadded first List.mem_cons_self
    have hsplit : front ++ [b, c] ++ first :: more = front ++ b :: c :: first :: more := by simp
    have hdigit : ((front ++ [b, c]).getLast?.map Char.isDigit).getD false = c.isDigit := by simp
    rw [hsplit, hbefore, hbefore, List.count_append, List.count_append,
      count_underscored_cons h.2.1, count_underscored_cons h.2.1, count_underscored_cons h.2.2,
      count_underscored_cons h.2.2, toNat_endsWord_cons (isPlain_of_isWordChar h.2.1) hcadded,
      hlast c h.2.2, hstarts, Bool.and_true, endsInCapitals_append, hdigit, hsmall, hempty]
    omega

end added

/-! ## Acronyms -/

/-- The number of places at which two capitals are followed by a small letter. -/
def acronyms : List Char → Nat
  | c :: d :: rest => (c.isUpper && d.isUpper && startsSmall rest).toNat + acronyms (d :: rest)
  | _ => 0

/-- Inside of a word, small letters keep all boundaries but the last of an acronym. -/
theorem toNat_endsWord (h : ∀ e ∈ c :: d :: rest, isWordChar e = true)
    (hlow : StaysLow c d) :
    (endsWord c (d :: rest)).toNat =
      (endsWord c.toLower ((d :: rest).map Char.toLower)).toNat +
        (c.isUpper && d.isUpper && startsSmall rest).toNat := by
  have hc := h c List.mem_cons_self
  have hrest : ∀ e ∈ d :: rest, isPlain e = true := fun e he =>
    isPlain_of_isWordChar (h e (List.mem_cons_of_mem _ he))
  have hsmall : ∀ e ∈ (d :: rest).map Char.toLower, isPlain e = true := by
    rw [List.forall_mem_map]
    exact fun e he => isPlain_of_isWordChar (isWordChar_toLower (h e (List.mem_cons_of_mem _ he)))
  have hd := h d (List.mem_cons_of_mem _ List.mem_cons_self)
  rw [endsWord_cons (isPlain_of_isWordChar hc) hrest, List.map_cons,
    endsWord_cons (isPlain_of_isWordChar (isWordChar_toLower hc)) hsmall, isLower_toLower hc,
    isUpper_toLower hc, isDigit_toLower hc, isLower_toLower hd, isUpper_toLower hd,
    isDigit_toLower hd, isLetter, isLetter]
  unfold StaysLow at hlow
  rcases sort_cases (isPlain_of_isWordChar hc) with hcsort | hcsort | hcsort | hcsort <;>
    rcases sort_cases (isPlain_of_isWordChar hd) with hdsort | hdsort | hdsort | hdsort <;>
      simp_all

/-- Without capitals after the first character there are no acronyms. -/
theorem acronyms_eq_zero (h : ∀ d ∈ rest, d.isUpper = false) : acronyms (c :: rest) = 0 := by
  induction rest generalizing c with
  | nil => rfl
  | cons d more ih =>
    rw [List.forall_mem_cons] at h
    rw [acronyms, ih h.2, h.1, Bool.and_false, Bool.false_and]
    rfl

section acronyms

variable (h : ∀ c ∈ cs, isWordChar c = true)
  (hchain : cs.IsChain StaysLow)
include h hchain

/-- A word has as many underscores in small letters as before, and one more for each acronym. -/
theorem count_underscored_eq :
    (underscored cs).count '_' = (underscored (cs.map Char.toLower)).count '_' + acronyms cs := by
  induction cs with
  | nil => rfl
  | cons c rest ih =>
    have hc := h c List.mem_cons_self
    have hrest := ih (List.forall_mem_cons.mp h).2 hchain.tail
    rw [List.map_cons, count_underscored_cons hc, count_underscored_cons (isWordChar_toLower hc),
      hrest]
    cases rest with
    | nil => rfl
    | cons d more =>
      rw [toNat_endsWord h hchain.rel, acronyms]
      omega

/-- A word without acronyms is written as in small letters. -/
theorem underscored_map_toLower (hnone : acronyms cs = 0) :
    underscored (cs.map Char.toLower) = underscored cs := by
  induction cs with
  | nil => rfl
  | cons c rest ih =>
    have hc := h c List.mem_cons_self
    cases rest with
    | nil => simp [underscored, endsWord, toLower_toLower hc]
    | cons d more =>
      rw [acronyms, Nat.add_eq_zero_iff] at hnone
      have hends := toNat_endsWord h hchain.rel
      rw [hnone.1, Nat.add_zero] at hends
      have hsame : endsWord c.toLower ((d :: more).map Char.toLower) = endsWord c (d :: more) := by
        cases hleft : endsWord c.toLower ((d :: more).map Char.toLower) <;>
          cases hright : endsWord c (d :: more) <;> simp_all
      rw [List.map_cons, underscored, underscored, hsame, toLower_toLower hc,
        ih (List.forall_mem_cons.mp h).2 hchain.tail hnone.2]

end acronyms

end Scaffold.Text
