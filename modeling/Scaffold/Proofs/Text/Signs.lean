import Scaffold.Proofs.Text.Plain
import Scaffold.Proofs.Text.Split

/-!
# Signs

The slash, the line feed and the other ASCII characters before the letters are here called signs. No
letter is ever mapped to a sign and words are cut out of the text itself, so a sign that turns up in
a rewritten text was in the text before: `mem_lower`, `mem_pascal`, `mem_snake`.
-/

namespace Scaffold.Text

/-- `c` stands before the letters. -/
def isSign (c : Char) : Bool :=
  0 < c.toNat && c.toNat < 0x41

variable {c d : Char} {cs : List Char}

/-! ## One character -/

/-- A character made from a number has it as its code, or is the null character. -/
theorem toNat_ofNat_eq_or (n : Nat) : (Char.ofNat n).toNat = n ∨ (Char.ofNat n).toNat = 0 := by
  by_cases hvalid : n.isValidChar
  · have heq : Char.ofNat n = Char.ofNatAux n hvalid := dif_pos hvalid
    rw [heq]
    exact Or.inl rfl
  · have heq : Char.ofNat n = Char.ofNat 0 := dif_neg hvalid
    rw [heq]
    exact Or.inr rfl

/-- A number from that of the first letter on is that of no sign. -/
theorem not_isSign_ofNat {n : Nat} (h : 0x41 ≤ n) : isSign (Char.ofNat n) = false := by
  unfold isSign
  rcases toNat_ofNat_eq_or n with heq | heq <;> rw [heq]
  · simp [h]
  · rfl

/-- A sign is no small letter. -/
theorem not_isLower_of_isSign (h : isSign c = true) : c.isLower = false := by
  simp only [isSign, Bool.and_eq_true, decide_eq_true_eq] at h
  rw [Bool.eq_false_iff, Ne, isLower_iff]
  omega

/-- That a function makes no new signs from ASCII is checked on its table. -/
theorem eq_of_isSign_ofAscii {f : Char → Char} (hc : isAscii c = true)
    (htable : ∀ n < 0x80, isSign (f (Char.ofNat n)) = true → f (Char.ofNat n) = Char.ofNat n)
    (h : isSign (f c) = true) : f c = c := by
  have hlt : c.toNat < 0x80 := by simpa [isAscii] using hc
  have hrow := htable c.toNat hlt
  rw [Char.ofNat_toNat] at hrow
  exact hrow h

/-- Along runs that lead to letters a character beyond ASCII reaches no sign. -/
theorem not_isSign_of_mem_mapCase {expansions : List (Nat × List Nat)} {runs : List CaseRun}
    (hexpansions : ∀ pair ∈ expansions, ∀ n ∈ pair.2, 0x41 ≤ n)
    (hruns : ∀ run ∈ runs, 0x41 ≤ (run.first : Int) + run.shift) (hc : isAscii c = false)
    (h : d ∈ mapCase expansions runs c) : isSign d = false := by
  have hwide : 0x80 ≤ c.toNat := by simpa [isAscii] using hc
  unfold mapCase at h
  split at h
  · next expansion hlookup =>
    obtain ⟨n, hn, rfl⟩ := List.mem_map.mp h
    obtain ⟨before, after, heq, -⟩ := List.lookup_eq_some_iff.mp hlookup
    have hmem : (c.toNat, expansion) ∈ expansions := by simp [heq]
    exact not_isSign_ofNat (hexpansions _ hmem n hn)
  · rw [List.mem_singleton.mp h]
    apply not_isSign_ofNat
    unfold shiftAlong
    split
    · next run hfind =>
      have hrun := hruns run (List.mem_of_find?_eq_some hfind)
      have hon := List.find?_some hfind
      simp only [onRun, Bool.and_eq_true, decide_eq_true_eq] at hon
      omega
    · omega

/-- A sign in upper case was there before. -/
theorem eq_of_mem_upperChar (hd : isSign d = true) (h : d ∈ upperChar c) : d = c := by
  unfold upperChar at h
  split_ifs at h with hc
  · rw [List.mem_singleton] at h
    rw [h] at hd ⊢
    exact eq_of_isSign_ofAscii hc (by decide) hd
  · have hnot := not_isSign_of_mem_mapCase (by decide +kernel) (by decide +kernel)
      (Bool.eq_false_iff.mpr hc) h
    exact absurd hd (Bool.eq_false_iff.mp hnot)

/-- A sign in lower case was there before. -/
theorem eq_of_mem_lowerChar (hd : isSign d = true) (h : d ∈ lowerChar c) : d = c := by
  unfold lowerChar at h
  split_ifs at h with hc
  · rw [List.mem_singleton] at h
    rw [h] at hd ⊢
    exact eq_of_isSign_ofAscii hc (by decide) hd
  · have hnot := not_isSign_of_mem_mapCase (by decide +kernel) (by decide +kernel)
      (Bool.eq_false_iff.mpr hc) h
    exact absurd hd (Bool.eq_false_iff.mp hnot)

/-! ## Text -/

/-- Lower case after other text adds no sign. -/
theorem mem_lowerAfter {before : List Char} (hd : isSign d = true) (h : d ∈ lowerAfter before cs) :
    d ∈ cs := by
  induction cs generalizing before with
  | nil => exact absurd h List.not_mem_nil
  | cons c rest ih =>
    unfold lowerAfter at h
    rcases List.mem_append.mp h with hhere | hrest
    · split_ifs at hhere with hc hfinal
      · rw [List.mem_singleton.mp hhere] at hd
        exact absurd hd (by decide)
      · rw [List.mem_singleton.mp hhere] at hd
        exact absurd hd (by decide)
      · rw [eq_of_mem_lowerChar hd hhere]
        exact List.mem_cons_self
    · exact List.mem_cons_of_mem _ (ih hrest)

/-- Lower case adds no sign. -/
theorem mem_lower (hd : isSign d = true) (h : d ∈ lower cs) : d ∈ cs :=
  mem_lowerAfter hd h

/-- A capital in front adds no sign. -/
theorem mem_capitalizeFirst (hd : isSign d = true) (h : d ∈ capitalizeFirst cs) : d ∈ cs := by
  cases cs with
  | nil => exact h
  | cons c rest =>
    rcases List.mem_append.mp h with hfirst | hrest
    · rw [eq_of_mem_upperChar hd hfirst]
      exact List.mem_cons_self
    · exact List.mem_cons_of_mem _ hrest

/-- The capital of a word adds no sign. -/
theorem mem_capitalWord (hd : isSign d = true) (h : d ∈ capitalWord cs) : d ∈ cs := by
  cases cs with
  | nil => exact h
  | cons c rest =>
    rcases List.mem_append.mp h with hfirst | hrest
    · rw [eq_of_mem_upperChar hd hfirst]
      exact List.mem_cons_self
    · exact List.mem_cons_of_mem _ (mem_lower hd hrest)

/-! ## Words -/

/-- The words are made of the characters read so far and those still to read. -/
theorem mem_of_mem_wordsFrom {word found : List Char} {clusters : List (List Char)}
    (hfound : found ∈ wordsFrom word clusters) (hc : c ∈ found) :
    c ∈ word ∨ c ∈ clusters.flatten := by
  induction clusters generalizing word with
  | nil =>
    rw [wordsFrom, List.mem_singleton] at hfound
    rw [hfound, List.mem_reverse] at hc
    exact Or.inl hc
  | cons a rest ih =>
    have hword : ∀ w, found ∈ wordsFrom w rest → c ∈ w ∨ c ∈ rest.flatten := fun w h => ih h
    rw [wordsFrom.eq_def] at hfound
    dsimp only at hfound
    rw [List.flatten_cons, List.mem_append]
    split_ifs at hfound with hsep
    · rcases List.mem_cons.mp hfound with rfl | hfound
      · exact Or.inl (List.mem_reverse.mp hc)
      · exact Or.inr (Or.inr ((hword _ hfound).resolve_left List.not_mem_nil))
    · have hlonger : c ∈ a.reverse ++ word ∨ c ∈ rest.flatten := by
        split at hfound
        · next b after hrest =>
          split_ifs at hfound with hboundary
          · rcases List.mem_cons.mp hfound with rfl | hfound
            · exact Or.inl (List.mem_reverse.mp hc)
            · exact Or.inr ((hword _ hfound).resolve_left List.not_mem_nil)
          · exact hword _ hfound
        · exact hword _ hfound
      rcases hlonger with hlonger | hrest
      · rcases List.mem_append.mp hlonger with ha | hw
        · exact Or.inr (Or.inl (List.mem_reverse.mp ha))
        · exact Or.inl hw
      · exact Or.inr (Or.inr hrest)

/-- The words of a text are made of its characters. -/
theorem mem_of_mem_words {word : List Char} (hword : word ∈ words cs) (hc : c ∈ word) : c ∈ cs := by
  unfold words at hword
  split at hword
  · exact absurd hword List.not_mem_nil
  · next first rest hclusters =>
    have hflat := (mem_of_mem_wordsFrom hword hc).resolve_left List.not_mem_nil
    rwa [← hclusters, flatten_clusters] at hflat

/-- The signs in the studly form of a text are in the text. -/
theorem mem_pascal (hd : isSign d = true) (h : d ∈ pascal cs) : d ∈ cs := by
  obtain ⟨word, hword, hmem⟩ := List.mem_flatMap.mp h
  exact mem_of_mem_words hword (mem_capitalWord hd hmem)

/-- So are those in its snake form, since the underscore is no sign. -/
theorem mem_snake (hd : isSign d = true) (h : d ∈ snake cs) : d ∈ cs := by
  rcases mem_intercalate h with rfl | ⟨part, hpart, hmem⟩
  · exact absurd hd (by decide)
  · obtain ⟨word, hword, rfl⟩ := List.mem_map.mp hpart
    exact mem_of_mem_words hword (mem_lower hd hmem)

end Scaffold.Text
