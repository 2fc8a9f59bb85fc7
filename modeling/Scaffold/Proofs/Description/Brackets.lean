import Scaffold.Proofs.Description.Tokens

/-!
# Balanced brackets

The brackets of a text are balanced if no prefix of it closes more than it opens and the whole
closes as many as it opens. This is said by counting, without the scan that cuts a description.

* A description that is not balanced has exactly one fault (`BracketFault.unique`): the first
  bracket that closes nothing, or else the first bracket that nothing closes.
* The scan fails with that fault and for no other reason (`pieces_eq_error_iff`). The invariant of
  the scan is `IsOpen`: what its list of open brackets says about the text read so far.
* Otherwise the description is cut at its commas outside brackets (`splitTopLevel_eq_ok_iff`).
-/

namespace Scaffold.Description

open Text

variable {cs front back rest done : List Char} {e : ParseError}

/-! ## Balance -/

/-- No prefix of the text closes more brackets than it opens. -/
def NeverOvercloses (cs : List Char) : Prop :=
  ∀ front, front <+: cs → front.count ')' ≤ front.count '('

/-- The empty text closes nothing. -/
theorem neverOvercloses_nil : NeverOvercloses [] := by
  intro front hfront
  rw [List.prefix_nil.mp hfront]
  simp

/-- A text closes no bracket too many if its front does not, and neither do all its brackets. -/
theorem neverOvercloses_concat {c : Char} :
    NeverOvercloses (cs ++ [c]) ↔
      NeverOvercloses cs ∧ (cs ++ [c]).count ')' ≤ (cs ++ [c]).count '(' := by
  unfold NeverOvercloses
  constructor
  · intro h
    refine ⟨fun front hfront => h front ?_, h _ List.prefix_rfl⟩
    exact hfront.trans (List.prefix_append cs [c])
  · rintro ⟨h, hlast⟩ front hfront
    rcases List.prefix_concat_iff.mp hfront with rfl | hfront
    · exact hlast
    · exact h front hfront

/-- Two such texts in a row close no bracket too many. -/
theorem NeverOvercloses.append (hfront : NeverOvercloses front) (hback : NeverOvercloses back) :
    NeverOvercloses (front ++ back) := by
  intro start hstart
  rcases List.prefix_or_prefix_of_prefix hstart (List.prefix_append front back) with h | ⟨more, rfl⟩
  · exact hfront start h
  · have hmore := hback more ((List.prefix_append_right_inj front).mp hstart)
    have hwhole := hfront front List.prefix_rfl
    simp only [List.count_append]
    omega

/-- Every bracket that is opened is closed later, and every one that is closed was opened before. -/
structure IsBalanced (cs : List Char) : Prop where
  /-- No prefix closes more than it opens. -/
  neverOvercloses : NeverOvercloses cs
  /-- The whole closes as many as it opens. -/
  closes : cs.count ')' = cs.count '('

namespace IsBalanced

/-- The empty text is balanced. -/
theorem nil : IsBalanced [] :=
  ⟨neverOvercloses_nil, rfl⟩

/-- Two balanced texts in a row are balanced. -/
theorem append (hfront : IsBalanced front) (hback : IsBalanced back) :
    IsBalanced (front ++ back) where
  neverOvercloses := hfront.neverOvercloses.append hback.neverOvercloses
  closes := by
    have h := hfront.closes
    have h' := hback.closes
    simp only [List.count_append]
    omega

/-- A comma alone is balanced. -/
theorem comma : IsBalanced [','] where
  neverOvercloses := by
    intro front hfront
    rcases List.prefix_cons_iff.mp hfront with rfl | ⟨more, rfl, hmore⟩
    · simp
    · rw [List.prefix_nil.mp hmore]
      decide
  closes := by decide

/-- Balanced texts joined by commas are balanced. -/
theorem intercalate {segments : List (List Char)} (h : ∀ segment ∈ segments, IsBalanced segment) :
    IsBalanced ([','].intercalate segments) := by
  induction segments with
  | nil => exact nil
  | cons first more ih =>
    rw [List.forall_mem_cons] at h
    cases more with
    | nil =>
      rw [List.intercalate_singleton]
      exact h.1
    | cons next more =>
      rw [List.intercalate_cons_cons]
      exact (h.1.append comma).append (ih h.2)

/-- After a balanced text there is nothing to close. -/
theorem not_neverOvercloses (h : IsBalanced front) (back : List Char) :
    ¬NeverOvercloses (front ++ ')' :: back) := by
  intro hnever
  have hclose := hnever (front ++ [')']) (by simp)
  have hcount := h.closes
  simp at hclose
  omega

end IsBalanced

/-! ## Faults -/

/-- The number of bytes of a text. -/
def byteLength (cs : List Char) : Nat :=
  (String.ofList cs).utf8ByteSize

/-- One more character adds its bytes. -/
theorem byteLength_concat (cs : List Char) (c : Char) :
    byteLength (cs ++ [c]) = byteLength cs + c.utf8Size := by
  simp [byteLength]

/-- What is wrong with the brackets of a text. -/
inductive BracketFault (cs : List Char) : ParseError → Prop where
  /-- A bracket closes nothing; what is before it is balanced. -/
  | unexpectedClose {front back : List Char} (heq : cs = front ++ ')' :: back)
      (hfront : IsBalanced front) : BracketFault cs (.unexpectedClose (byteLength front))
  /-- A bracket outside all others is never closed; so many more are opened than closed. -/
  | unbalanced {front back : List Char} (heq : cs = front ++ '(' :: back)
      (hfront : IsBalanced front) (hback : NeverOvercloses back) :
      BracketFault cs (.unbalanced (byteLength front) (cs.count '(' - cs.count ')'))

namespace BracketFault

/-- A bracket that is opened before a text gives it no more to close. -/
theorem neverOvercloses_of_open (hfront : IsBalanced front) (hback : NeverOvercloses back) :
    NeverOvercloses (front ++ '(' :: back) := by
  have hopen : NeverOvercloses ['('] := by
    rw [← List.nil_append ['('], neverOvercloses_concat]
    exact ⟨neverOvercloses_nil, by decide⟩
  exact hfront.neverOvercloses.append (hopen.append hback)

/-- A text with a fault in its brackets is not balanced. -/
theorem not_isBalanced (h : BracketFault cs e) : ¬IsBalanced cs := by
  intro hbalanced
  cases h with
  | unexpectedClose heq hfront =>
    rw [heq] at hbalanced
    exact hfront.not_neverOvercloses _ hbalanced.neverOvercloses
  | unbalanced heq hfront hback =>
    have hcs := hbalanced.closes
    have hcount := hfront.closes
    have hnever := hback _ List.prefix_rfl
    rw [heq] at hcs
    simp at hcs
    omega

/-- Two places in one text are the same, or one of them is before the other. -/
theorem place_cases {front' back' : List Char} {c c' : Char}
    (h : front ++ c :: back = front' ++ c' :: back') :
    front = front' ∨ (∃ between, front' = front ++ c :: between ∧ back = between ++ c' :: back') ∨
      ∃ between, front = front' ++ c' :: between ∧ back' = between ++ c :: back := by
  rcases List.append_eq_append_iff.mp h with ⟨between, hfront, hback⟩ | ⟨between, hfront, hback⟩
  · cases between with
    | nil => exact Or.inl (by simpa using hfront.symm)
    | cons first between =>
      obtain ⟨rfl, hrest⟩ := List.cons.inj hback
      exact Or.inr (Or.inl ⟨between, hfront, hrest⟩)
  · cases between with
    | nil => exact Or.inl (by simpa using hfront)
    | cons first between =>
      obtain ⟨rfl, hrest⟩ := List.cons.inj hback
      exact Or.inr (Or.inr ⟨between, hfront, hrest⟩)

/-- Between two balanced prefixes, nothing that follows the first one stays open. -/
theorem not_isBalanced_of_open {between : List Char} (hfront : IsBalanced front)
    (hback : NeverOvercloses (between ++ rest)) : ¬IsBalanced (front ++ '(' :: between) := by
  intro hbalanced
  have hcs := hbalanced.closes
  have hcount := hfront.closes
  have hnever := hback between (List.prefix_append between rest)
  simp at hcs
  omega

/-- A text has at most one fault. -/
theorem unique {e' : ParseError} (h : BracketFault cs e) (h' : BracketFault cs e') : e = e' := by
  cases h with
  | @unexpectedClose front back heq hfront =>
    cases h' with
    | @unexpectedClose front' back' heq' hfront' =>
      rcases place_cases (heq.symm.trans heq') with rfl | ⟨between, rfl, -⟩ | ⟨between, rfl, -⟩
      · rfl
      · exact absurd hfront'.neverOvercloses (hfront.not_neverOvercloses between)
      · exact absurd hfront.neverOvercloses (hfront'.not_neverOvercloses between)
    | unbalanced heq' hfront' hback' =>
      have hnever := neverOvercloses_of_open hfront' hback'
      rw [← heq', heq] at hnever
      exact absurd hnever (hfront.not_neverOvercloses back)
  | @unbalanced front back heq hfront hback =>
    cases h' with
    | @unexpectedClose front' back' heq' hfront' =>
      have hnever := neverOvercloses_of_open hfront hback
      rw [← heq, heq'] at hnever
      exact absurd hnever (hfront'.not_neverOvercloses back')
    | @unbalanced front' back' heq' hfront' hback' =>
      rcases place_cases (heq.symm.trans heq') with rfl | ⟨between, rfl, rfl⟩ | ⟨between, rfl, rfl⟩
      · rfl
      · exact absurd hfront' (not_isBalanced_of_open hfront hback)
      · exact absurd hfront (not_isBalanced_of_open hfront' hback')

end BracketFault

/-! ## The scan -/

/-- The places `opened`, innermost first, are those of the brackets that are open after `done`. -/
structure IsOpen (done : List Char) (opened : List Nat) : Prop where
  /-- Nothing was closed that was not open. -/
  neverOvercloses : NeverOvercloses done
  /-- As many are open as were opened and not closed. -/
  length : done.count '(' = done.count ')' + opened.length
  /-- The outermost of them follows a balanced text, and has not been closed since. -/
  outermost : ∀ position, opened.getLast? = some position → ∃ front back,
    done = front ++ '(' :: back ∧ IsBalanced front ∧ NeverOvercloses back ∧
      byteLength front = position

namespace IsOpen

variable {opened outer : List Nat} {inner : Nat}

/-- At the start no bracket is open. -/
theorem nil : IsOpen [] [] where
  neverOvercloses := neverOvercloses_nil
  length := rfl
  outermost position h := by cases h

/-- What is read with no bracket open is balanced. -/
theorem isBalanced (h : IsOpen done []) : IsBalanced done :=
  ⟨h.neverOvercloses, by simpa using h.length.symm⟩

/-- An opening bracket is open at its place. -/
theorem afterOpening (h : IsOpen done opened) :
    IsOpen (done ++ ['(']) (byteLength done :: opened) where
  neverOvercloses := by
    have hnever := h.neverOvercloses done List.prefix_rfl
    rw [neverOvercloses_concat]
    refine ⟨h.neverOvercloses, ?_⟩
    simp
    omega
  length := by
    have hlength := h.length
    simp
    omega
  outermost position hposition := by
    cases opened with
    | nil =>
      obtain rfl : byteLength done = position := by simpa using hposition
      exact ⟨done, [], rfl, h.isBalanced, neverOvercloses_nil, rfl⟩
    | cons inner outer =>
      rw [List.getLast?_cons_cons] at hposition
      obtain ⟨front, back, rfl, hfront, hback, hbytes⟩ := h.outermost position hposition
      refine ⟨front, back ++ ['('], by simp, hfront, ?_, hbytes⟩
      have hnever := hback back List.prefix_rfl
      rw [neverOvercloses_concat]
      refine ⟨hback, ?_⟩
      simp
      omega

/-- A closing bracket closes the innermost one. -/
theorem afterClosing (h : IsOpen done (inner :: outer)) : IsOpen (done ++ [')']) outer where
  neverOvercloses := by
    have hlength := h.length
    rw [neverOvercloses_concat]
    refine ⟨h.neverOvercloses, ?_⟩
    simp at hlength ⊢
    omega
  length := by
    have hlength := h.length
    simp at hlength ⊢
    omega
  outermost position hposition := by
    -- the bracket that is closed is inside the outermost one, as more than one is open
    cases outer with
    | nil => cases hposition
    | cons next outer =>
      obtain ⟨front, back, rfl, hfront, hback, hbytes⟩ :=
        h.outermost position (by simpa using hposition)
      refine ⟨front, back ++ [')'], by simp, hfront, ?_, hbytes⟩
      have hlength := h.length
      have hcount := hfront.closes
      rw [neverOvercloses_concat]
      refine ⟨hback, ?_⟩
      simp at hlength ⊢
      omega

/-- Any other character leaves the open brackets as they are. -/
theorem afterOther {c : Char} (hopen : c ≠ '(') (hclose : c ≠ ')') (h : IsOpen done opened) :
    IsOpen (done ++ [c]) opened where
  neverOvercloses := by
    have hnever := h.neverOvercloses done List.prefix_rfl
    rw [neverOvercloses_concat]
    refine ⟨h.neverOvercloses, ?_⟩
    simpa [hopen, hclose] using hnever
  length := by
    have hlength := h.length
    simpa [hopen, hclose] using hlength
  outermost position hposition := by
    obtain ⟨front, back, rfl, hfront, hback, hbytes⟩ := h.outermost position hposition
    refine ⟨front, back ++ [c], by simp, hfront, ?_, hbytes⟩
    have hnever := hback back List.prefix_rfl
    rw [neverOvercloses_concat]
    refine ⟨hback, ?_⟩
    simpa [hopen, hclose] using hnever

end IsOpen

/-- The scan fails with the fault of the whole text. -/
theorem bracketFault_of_piecesFrom {opened : List Nat} {piece : List Char}
    (hopen : IsOpen done opened) (h : piecesFrom (byteLength done) opened piece rest = .error e) :
    BracketFault (done ++ rest) e := by
  induction rest generalizing done opened piece with
  | nil =>
    rw [piecesFrom] at h
    split at h
    · next outermost hlast =>
      obtain ⟨front, back, heq, hfront, hback, rfl⟩ := hopen.outermost outermost hlast
      have hdepth : opened.length = done.count '(' - done.count ')' := by
        have hlength := hopen.length
        omega
      rw [← Except.error.inj h, hdepth, List.append_nil]
      exact .unbalanced heq hfront hback
    · cases h
  | cons c rest ih =>
    rw [List.append_cons]
    rw [piecesFrom_cons, ← byteLength_concat] at h
    split_ifs at h with hcomma hopening hclosing
    · simp only [Bool.and_eq_true, beq_iff_eq, List.isEmpty_iff] at hcomma
      obtain ⟨rfl, rfl⟩ := hcomma
      exact ih (hopen.afterOther (by decide) (by decide)) (map_eq_error_iff.mp h)
    · rw [beq_iff_eq] at hopening
      subst hopening
      exact ih hopen.afterOpening h
    · rw [beq_iff_eq] at hclosing
      subst hclosing
      cases opened with
      | nil =>
        rw [← Except.error.inj h, List.append_assoc]
        exact .unexpectedClose rfl hopen.isBalanced
      | cons inner outer => exact ih hopen.afterClosing h
    · rw [beq_iff_eq] at hopening hclosing
      exact ih (hopen.afterOther hopening hclosing) h

/-! ## Segments -/

/-- Every comma of the text is inside brackets. -/
def GuardsCommas (cs : List Char) : Prop :=
  ∀ front, front ++ [','] <+: cs → front.count ')' < front.count '('

/-- The empty text has no comma. -/
theorem guardsCommas_nil : GuardsCommas [] := by
  intro front hfront
  simp at hfront

/-- All commas of a text are inside brackets if those of its front are, and the last character is no
comma outside. -/
theorem guardsCommas_concat {c : Char} :
    GuardsCommas (cs ++ [c]) ↔ GuardsCommas cs ∧ (c = ',' → cs.count ')' < cs.count '(') := by
  unfold GuardsCommas
  constructor
  · intro h
    constructor
    · intro front hfront
      exact h front (hfront.trans (List.prefix_append cs [c]))
    · rintro rfl
      exact h cs List.prefix_rfl
  · rintro ⟨h, hlast⟩ front hfront
    rcases List.prefix_concat_iff.mp hfront with heq | hfront
    · obtain ⟨rfl, hc⟩ := List.append_inj' heq rfl
      exact hlast (by simpa using hc.symm)
    · exact h front hfront

/-- How one character changes the depth. -/
theorem depthAfter_singleton {depth d : Nat} {c : Char} :
    depthAfter depth [c] = some d ↔
      (c = ',' → 0 < depth) ∧ [c].count '(' + depth = [c].count ')' + d := by
  by_cases hcomma : c = ','
  · subst hcomma
    cases depth <;> simp [depthAfter, eq_comm]
  by_cases hopen : c = '('
  · subst hopen
    simp [depthAfter, Nat.add_comm]
  by_cases hclose : c = ')'
  · subst hclose
    cases depth <;> simp [depthAfter, Nat.add_comm 1]
  · simp [depthAfter, hcomma, hopen, hclose]

/-- The depth after a text is what it leaves open; there is one if nothing is closed too often and
every comma is inside brackets. -/
theorem depthAfter_eq_some_iff {d : Nat} :
    depthAfter 0 cs = some d ↔
      NeverOvercloses cs ∧ GuardsCommas cs ∧ cs.count '(' = cs.count ')' + d := by
  induction cs using List.reverseRecOn generalizing d with
  | nil => simp [depthAfter.eq_1, neverOvercloses_nil, guardsCommas_nil, eq_comm]
  | append_singleton cs c ih =>
    rw [depthAfter_append, Option.bind_eq_some_iff, neverOvercloses_concat, guardsCommas_concat,
      List.count_append, List.count_append]
    simp only [ih, depthAfter_singleton]
    constructor
    · rintro ⟨depth, ⟨hnever, hcommas, hdepth⟩, hcomma, hlast⟩
      refine ⟨⟨hnever, ?_⟩, ⟨hcommas, fun hc => ?_⟩, ?_⟩
      · omega
      · have hpositive := hcomma hc
        omega
      · omega
    · rintro ⟨⟨hnever, hlast⟩, ⟨hcommas, hcomma⟩, hdepth⟩
      have hwhole := hnever cs List.prefix_rfl
      refine ⟨cs.count '(' - cs.count ')', ⟨hnever, hcommas, ?_⟩, fun hc => ?_, ?_⟩
      · omega
      · have hpositive := hcomma hc
        omega
      · omega

/-- A segment is balanced, and every comma in it is inside brackets. -/
theorem isSegment_iff : IsSegment cs ↔ IsBalanced cs ∧ GuardsCommas cs := by
  unfold IsSegment
  rw [depthAfter_eq_some_iff, Nat.add_zero]
  constructor
  · rintro ⟨hnever, hcommas, hcount⟩
    exact ⟨⟨hnever, hcount.symm⟩, hcommas⟩
  · rintro ⟨⟨hnever, hcount⟩, hcommas⟩
    exact ⟨hnever, hcommas, hcount.symm⟩

/-! ## Tokens -/

/-- What is read into pieces is balanced. -/
theorem isBalanced_of_pieces {found : List (List Char)} (h : pieces cs = .ok found) :
    IsBalanced cs := by
  obtain ⟨-, hsegments, rfl⟩ := pieces_eq_ok_iff.mp h
  exact IsBalanced.intercalate fun segment hsegment =>
    (isSegment_iff.mp (hsegments segment hsegment)).1

/-- A text with a fault in its brackets is refused for it, and no other text is refused. -/
theorem pieces_eq_error_iff : pieces cs = .error e ↔ BracketFault cs e := by
  have hfault : ∀ {e'}, pieces cs = .error e' → BracketFault cs e' := by
    intro e' h
    exact bracketFault_of_piecesFrom IsOpen.nil h
  constructor
  · exact hfault
  · intro h
    cases hpieces : pieces cs with
    | ok found => exact absurd (isBalanced_of_pieces hpieces) h.not_isBalanced
    | error e' => rw [h.unique (hfault hpieces)]

/-- A text that is not balanced has a fault. -/
theorem exists_bracketFault (h : ¬IsBalanced cs) : ∃ e, BracketFault cs e := by
  cases hpieces : pieces cs with
  | ok found => exact absurd (isBalanced_of_pieces hpieces) h
  | error e => exact ⟨e, pieces_eq_error_iff.mp hpieces⟩

/-- The tokens are what stands between the commas outside brackets, without the blanks around it;
what is blank altogether is no token. -/
def IsCut (raw : String) (tokens : List String) : Prop :=
  ∃ segments, segments ≠ [] ∧ (∀ segment ∈ segments, IsBalanced segment ∧ GuardsCommas segment) ∧
    raw.toList = [','].intercalate segments ∧
      tokens = ((segments.map strip).filter fun token => !token.isEmpty).map String.ofList

variable {raw : String} {tokens : List String}

/-- A description is read to tokens exactly if it is cut into them. -/
theorem splitTopLevel_eq_ok_iff : splitTopLevel raw = .ok tokens ↔ IsCut raw tokens := by
  unfold splitTopLevel IsCut
  rw [map_eq_ok_iff]
  constructor
  · rintro ⟨segments, hpieces, rfl⟩
    obtain ⟨hne, hsegments, hraw⟩ := pieces_eq_ok_iff.mp hpieces
    exact ⟨segments, hne, fun segment hsegment => isSegment_iff.mp (hsegments segment hsegment),
      hraw, rfl⟩
  · rintro ⟨segments, hne, hsegments, hraw, rfl⟩
    refine ⟨segments, pieces_eq_ok_iff.mpr ⟨hne, fun segment hsegment => ?_, hraw⟩, rfl⟩
    exact isSegment_iff.mpr (hsegments segment hsegment)

/-- A description is refused exactly for the fault in its brackets. -/
theorem splitTopLevel_eq_error_iff : splitTopLevel raw = .error e ↔ BracketFault raw.toList e := by
  unfold splitTopLevel
  rw [map_eq_error_iff, pieces_eq_error_iff]

/-- A text that can be cut is balanced. -/
theorem IsCut.isBalanced (h : IsCut raw tokens) : IsBalanced raw.toList := by
  obtain ⟨segments, -, hsegments, hraw, -⟩ := h
  rw [hraw]
  exact IsBalanced.intercalate fun segment hsegment => (hsegments segment hsegment).1

/-- A balanced text can be cut. -/
theorem exists_isCut (h : IsBalanced raw.toList) : ∃ tokens, IsCut raw tokens := by
  cases hsplit : splitTopLevel raw with
  | error e => exact absurd h (splitTopLevel_eq_error_iff.mp hsplit).not_isBalanced
  | ok tokens => exact ⟨tokens, splitTopLevel_eq_ok_iff.mp hsplit⟩

/-- A text can be cut in one way only. -/
theorem IsCut.unique {tokens' : List String} (h : IsCut raw tokens) (h' : IsCut raw tokens') :
    tokens = tokens' := by
  rw [← splitTopLevel_eq_ok_iff] at h h'
  exact Except.ok.inj (h.symm.trans h')

end Scaffold.Description
