import Scaffold.Proofs.Description.Brackets

/-!
# Brackets and their partners

A closing bracket is the partner of an opening one if what is between them is balanced. This module
says what a refused description is refused for in terms of partners (`splitTopLevel_exact`): for the
first closing bracket that is one too many, with its place in bytes; or else for the leftmost
opening bracket without a partner, with its place and with the number of all that have none.

What carries it is one number, `overclosed`: how many more brackets a text closes than it opens, at
the worst of its prefixes. An opening bracket has a partner in what follows exactly if that number
is positive there (`hasPartner_iff_pos`), and the brackets without a partner make up the difference
between what is opened and what is closed (`unmatched_add_count`).
-/

namespace Scaffold.Description

variable {cs front back rest : List Char} {e : ParseError}

/-! ## Brackets that are closed too often -/

/-- The number of brackets that have to be opened before the text, for all that it closes to have
been opened. -/
def overclosed : List Char → Nat
  | [] => 0
  | c :: rest =>
    if c = '(' then overclosed rest - 1
    else if c = ')' then overclosed rest + 1
    else overclosed rest

/-- It is by so many that some prefix closes more than it opens. -/
theorem overclosed_le_iff {n : Nat} :
    overclosed cs ≤ n ↔ ∀ front, front <+: cs → front.count ')' ≤ front.count '(' + n := by
  induction cs generalizing n with
  | nil =>
    refine ⟨fun _ front hfront => ?_, fun _ => Nat.zero_le n⟩
    rw [List.prefix_nil.mp hfront]
    simp
  | cons c rest ih =>
    have hcons : (∀ front, front <+: c :: rest → front.count ')' ≤ front.count '(' + n) ↔
        ∀ front, front <+: rest → (c :: front).count ')' ≤ (c :: front).count '(' + n := by
      constructor
      · intro h front hfront
        exact h (c :: front) (List.cons_prefix_cons.mpr ⟨rfl, hfront⟩)
      · intro h front hfront
        rcases List.prefix_cons_iff.mp hfront with rfl | ⟨more, rfl, hmore⟩
        · simp
        · exact h more hmore
    rw [hcons, overclosed]
    split_ifs with hopen hclose
    · subst hopen
      rw [Nat.sub_le_iff_le_add, ih]
      simp [Nat.add_right_comm _ 1 n, Nat.add_assoc]
    · subst hclose
      cases n with
      | zero =>
        refine ⟨fun h => absurd h (Nat.not_succ_le_zero _), fun h => ?_⟩
        simpa using h [] List.nil_prefix
      | succ m =>
        rw [Nat.add_le_add_iff_right, ih]
        simp [← Nat.add_assoc]
    · rw [ih]
      simp [hopen, hclose]

/-- No closing bracket is one too many exactly if the text never closes too many. -/
theorem overclosed_eq_zero_iff : overclosed cs = 0 ↔ NeverOvercloses cs := by
  rw [← Nat.le_zero, overclosed_le_iff]
  rfl

instance (cs : List Char) : Decidable (NeverOvercloses cs) :=
  decidable_of_iff _ overclosed_eq_zero_iff

/-- A text that closes too much has a first bracket that is one too many. -/
theorem exists_first_of_not_neverOvercloses (h : ¬NeverOvercloses cs) :
    ∃ front back, cs = front ++ ')' :: back ∧ IsBalanced front := by
  induction cs using List.reverseRecOn with
  | nil => exact absurd neverOvercloses_nil h
  | append_singleton cs c ih =>
    by_cases hnever : NeverOvercloses cs
    · have hwhole := hnever cs List.prefix_rfl
      rw [neverOvercloses_concat, not_and] at h
      have hlast := h hnever
      obtain rfl : c = ')' := by
        by_contra hc
        simp [hc] at hlast
        omega
      refine ⟨cs, [], rfl, hnever, ?_⟩
      simp at hlast
      omega
    · obtain ⟨front, back, rfl, hfront⟩ := ih hnever
      exact ⟨front, back ++ [c], by simp, hfront⟩

/-! ## Partners -/

/-- What follows an opening bracket holds the bracket that closes it: the text up to there is
balanced. -/
def HasPartner (back : List Char) : Prop :=
  ∃ inner rest, back = inner ++ ')' :: rest ∧ IsBalanced inner

/-- An opening bracket has a partner behind it exactly if what follows closes one too many. -/
theorem hasPartner_iff : HasPartner back ↔ ¬NeverOvercloses back := by
  constructor
  · rintro ⟨inner, rest, rfl, hinner⟩
    exact hinner.not_neverOvercloses rest
  · exact exists_first_of_not_neverOvercloses

/-- The same, said with the number of brackets that are closed too many. -/
theorem hasPartner_iff_pos : HasPartner back ↔ 0 < overclosed back := by
  rw [hasPartner_iff, ← overclosed_eq_zero_iff, Nat.pos_iff_ne_zero]

instance (back : List Char) : Decidable (HasPartner back) :=
  decidable_of_iff _ hasPartner_iff.symm

/-- The number of opening brackets without a partner. -/
def unmatched : List Char → Nat
  | [] => 0
  | c :: rest => if c = '(' ∧ ¬HasPartner rest then unmatched rest + 1 else unmatched rest

/-- What is opened and has no partner, and what is closed too often, make up the difference between
the brackets of the two kinds. -/
theorem unmatched_add_count (cs : List Char) :
    unmatched cs + cs.count ')' = cs.count '(' + overclosed cs := by
  induction cs with
  | nil => rfl
  | cons c rest ih =>
    simp only [unmatched, overclosed, hasPartner_iff_pos]
    by_cases hopen : c = '('
    · subst hopen
      simp
      split_ifs <;> omega
    · by_cases hclose : c = ')'
      · subst hclose
        simp
        omega
      · simpa [hopen, hclose] using ih

/-- Where nothing is closed too often, the brackets without a partner are those that are opened more
than closed. -/
theorem unmatched_of_neverOvercloses (h : NeverOvercloses cs) :
    unmatched cs = cs.count '(' - cs.count ')' := by
  have hcount := unmatched_add_count cs
  rw [overclosed_eq_zero_iff.mpr h] at hcount
  omega

/-- In a balanced text every bracket has its partner, whatever follows the text. -/
theorem IsBalanced.hasPartner {inner : List Char} (h : IsBalanced (front ++ '(' :: inner))
    (rest : List Char) : HasPartner (inner ++ rest) := by
  rw [hasPartner_iff]
  intro hnever
  have hfront := h.neverOvercloses front (List.prefix_append _ _)
  have hinner := hnever inner (List.prefix_append inner rest)
  have hcloses := h.closes
  simp at hcloses
  omega

/-! ## The places of the faults -/

/-- The first closing bracket at which more are closed than opened is at this byte. -/
def OverclosesAt (cs : List Char) (position : Nat) : Prop :=
  ∃ front back, cs = front ++ ')' :: back ∧ NeverOvercloses front ∧
    (front ++ [')']).count '(' < (front ++ [')']).count ')' ∧ byteLength front = position

/-- The leftmost opening bracket without a partner is at this byte. -/
def OpensAt (cs : List Char) (position : Nat) : Prop :=
  ∃ front back, cs = front ++ '(' :: back ∧ ¬HasPartner back ∧
    (∀ start inner, front = start ++ '(' :: inner → HasPartner (inner ++ '(' :: back)) ∧
      byteLength front = position

/-- A text with a closing bracket that is one too many closes too many. -/
theorem OverclosesAt.not_neverOvercloses {position : Nat} (h : OverclosesAt cs position) :
    ¬NeverOvercloses cs := by
  obtain ⟨front, back, rfl, -, hclose, -⟩ := h
  intro hnever
  have hcount := hnever (front ++ [')']) (by simp)
  omega

/-- There is one leftmost bracket without a partner. -/
theorem OpensAt.unique {position position' : Nat} (h : OpensAt cs position)
    (h' : OpensAt cs position') : position = position' := by
  obtain ⟨front, back, heq, hback, hleft, rfl⟩ := h
  obtain ⟨front', back', heq', hback', hleft', rfl⟩ := h'
  rcases BracketFault.place_cases (heq.symm.trans heq') with
    rfl | ⟨between, rfl, rfl⟩ | ⟨between, rfl, rfl⟩
  · rfl
  · exact absurd (hleft' front between rfl) hback
  · exact absurd (hleft front' between rfl) hback'

/-- The first bracket that is one too many is the fault of the text. -/
theorem bracketFault_unexpectedClose_iff {position : Nat} :
    BracketFault cs (.unexpectedClose position) ↔ OverclosesAt cs position := by
  constructor
  · intro h
    cases h with
    | unexpectedClose heq hfront =>
      have hcloses := hfront.closes
      refine ⟨_, _, heq, hfront.neverOvercloses, ?_, rfl⟩
      simp
      omega
  · rintro ⟨front, back, heq, hnever, hclose, rfl⟩
    have hwhole := hnever front List.prefix_rfl
    refine .unexpectedClose heq ⟨hnever, ?_⟩
    simp at hclose
    omega

/-- Where nothing is closed too often, a text is at fault only for a bracket that nothing closes. -/
theorem exists_unbalanced (hnever : NeverOvercloses cs) (h : ¬IsBalanced cs) :
    ∃ position depth, BracketFault cs (.unbalanced position depth) := by
  obtain ⟨e, he⟩ := exists_bracketFault h
  cases he with
  | unexpectedClose heq hfront =>
    rw [heq] at hnever
    exact absurd hnever (hfront.not_neverOvercloses _)
  | unbalanced heq hfront hback => exact ⟨_, _, .unbalanced heq hfront hback⟩

/-- A balanced text has no opening bracket without a partner. -/
theorem OpensAt.not_isBalanced {position : Nat} (h : OpensAt cs position) : ¬IsBalanced cs := by
  obtain ⟨front, back, rfl, hback, -, -⟩ := h
  intro hbalanced
  exact hback (by simpa using hbalanced.hasPartner [])

/-- Where nothing is closed too often, the leftmost bracket without a partner is the fault of the
text. -/
theorem bracketFault_unbalanced_iff {position depth : Nat} :
    BracketFault cs (.unbalanced position depth) ↔
      NeverOvercloses cs ∧ OpensAt cs position ∧ depth = unmatched cs := by
  have hfault : ∀ {position depth}, BracketFault cs (.unbalanced position depth) →
      NeverOvercloses cs ∧ OpensAt cs position ∧ depth = unmatched cs := by
    intro position depth h
    cases h with
    | @unbalanced front back heq hfront hback =>
      have hnever : NeverOvercloses cs := heq ▸ BracketFault.neverOvercloses_of_open hfront hback
      refine ⟨hnever, ⟨front, back, heq, ?_, ?_, rfl⟩, (unmatched_of_neverOvercloses hnever).symm⟩
      · exact fun hpartner => hasPartner_iff.mp hpartner hback
      · rintro start inner rfl
        exact hfront.hasPartner _
  constructor
  · exact hfault
  · rintro ⟨hnever, hopens, rfl⟩
    obtain ⟨position', depth, hother⟩ := exists_unbalanced hnever hopens.not_isBalanced
    obtain ⟨-, hopens', hdepth⟩ := hfault hother
    rwa [hopens'.unique hopens, hdepth] at hother

/-! ## What a description is refused for -/

/-- A description is refused for the first bracket that is one too many if some prefix closes more
than it opens, else for the leftmost bracket without a partner if more is opened than closed, and
else it is cut into tokens. -/
theorem splitTopLevel_exact (raw : String) :
    (∀ position, splitTopLevel raw = .error (.unexpectedClose position) ↔
      OverclosesAt raw.toList position) ∧
    ((∃ position, splitTopLevel raw = .error (.unexpectedClose position)) ↔
      ¬NeverOvercloses raw.toList) ∧
    (∀ position depth, splitTopLevel raw = .error (.unbalanced position depth) ↔
      NeverOvercloses raw.toList ∧ OpensAt raw.toList position ∧ depth = unmatched raw.toList) ∧
    ((∃ position depth, splitTopLevel raw = .error (.unbalanced position depth)) ↔
      NeverOvercloses raw.toList ∧ raw.toList.count ')' < raw.toList.count '(') ∧
    ((∃ tokens, splitTopLevel raw = .ok tokens) ↔
      NeverOvercloses raw.toList ∧ raw.toList.count '(' ≤ raw.toList.count ')') := by
  simp only [splitTopLevel_eq_error_iff, splitTopLevel_eq_ok_iff]
  refine ⟨fun position => bracketFault_unexpectedClose_iff, ⟨?_, fun hnever => ?_⟩,
    fun position depth => bracketFault_unbalanced_iff, ⟨?_, ?_⟩, ⟨?_, ?_⟩⟩
  · rintro ⟨position, h⟩
    exact (bracketFault_unexpectedClose_iff.mp h).not_neverOvercloses
  · obtain ⟨front, back, heq, hfront⟩ := exists_first_of_not_neverOvercloses hnever
    exact ⟨_, .unexpectedClose heq hfront⟩
  · rintro ⟨position, depth, h⟩
    have hnever := (bracketFault_unbalanced_iff.mp h).1
    have hwhole := hnever _ List.prefix_rfl
    refine ⟨hnever, Nat.lt_of_le_of_ne hwhole fun hcloses => ?_⟩
    exact h.not_isBalanced ⟨hnever, hcloses⟩
  · rintro ⟨hnever, hcount⟩
    exact exists_unbalanced hnever fun hbalanced => hcount.ne hbalanced.closes
  · rintro ⟨tokens, h⟩
    exact ⟨h.isBalanced.neverOvercloses, h.isBalanced.closes.ge⟩
  · rintro ⟨hnever, hcount⟩
    exact exists_isCut ⟨hnever, Nat.le_antisymm (hnever _ List.prefix_rfl) hcount⟩

example : splitTopLevel "é:enum(a),b:enum(c,(d" = .error (.unbalanced 17 2) := by decide

end Scaffold.Description
