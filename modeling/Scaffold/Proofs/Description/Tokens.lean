import Mathlib.Tactic.SplitIfs
import Scaffold.Description.Tokens
import Scaffold.Proofs.Except
import Scaffold.Proofs.Text.Split
import Scaffold.Proofs.Text.Strip

/-!
# Segments and tokens

A segment is what can stand between two separating commas: its brackets are balanced, and every
comma in it is inside brackets. A description is read into pieces exactly if it is the pieces joined
by commas and all of them are segments (`pieces_eq_ok_iff`). The tokens of a description are its
segments without blanks around them, and joining tokens by commas gives a description with these
tokens (`splitTopLevel_intercalate`).
-/

namespace Scaffold.Description

open Text

variable {d : Nat} {cs front rest : List Char}

/-! ## Depth -/

/-- The number of brackets that are open after a text, where `depth` were open before; `none` if the
text closes more or has a comma outside brackets. -/
def depthAfter (depth : Nat) : List Char → Option Nat
  | [] => some depth
  | c :: rest =>
    if c == ',' && depth == 0 then none
    else if c == '(' then depthAfter (depth + 1) rest
    else if c == ')' then
      match depth with
      | 0 => none
      | outer + 1 => depthAfter outer rest
    else depthAfter depth rest

/-- How the depth changes at one character, and where following it ends. -/
theorem depthAfter_cons (depth : Nat) (c : Char) (rest : List Char) :
    depthAfter depth (c :: rest) =
      if c == ',' && depth == 0 then none
      else if c == '(' then depthAfter (depth + 1) rest
      else if c == ')' then
        match depth with
        | 0 => none
        | outer + 1 => depthAfter outer rest
      else depthAfter depth rest := by
  cases depth <;> rfl

/-- The depth is followed through two texts one after the other. -/
theorem depthAfter_append (depth : Nat) (front rest : List Char) :
    depthAfter depth (front ++ rest) =
      (depthAfter depth front).bind fun middle => depthAfter middle rest := by
  induction front generalizing depth with
  | nil => rfl
  | cons c front ih =>
    rw [List.cons_append, depthAfter_cons, depthAfter_cons]
    split_ifs with hcomma hopen hclose
    · rfl
    · exact ih (depth + 1)
    · cases depth with
      | zero => rfl
      | succ outer => exact ih outer
    · exact ih depth

/-- The character neither separates nor is a bracket. -/
def isNeutral (c : Char) : Bool :=
  c != ',' && c != '(' && c != ')'

/-- Neither brackets nor commas: the depth stays. -/
theorem depthAfter_of_isNeutral (h : ∀ c ∈ cs, isNeutral c = true) (depth : Nat) :
    depthAfter depth cs = some depth := by
  induction cs with
  | nil => rfl
  | cons c rest ih =>
    rw [List.forall_mem_cons] at h
    have hc := h.1
    simp only [isNeutral, Bool.and_eq_true, bne_iff_ne] at hc
    simp [depthAfter, hc, ih h.2]

/-- Blanks are neither brackets nor commas. -/
theorem isNeutral_of_isBlank {c : Char} (h : isBlank c = true) : isNeutral c = true := by
  unfold isNeutral
  simp only [Bool.and_eq_true, bne_iff_ne]
  refine ⟨⟨?_, ?_⟩, ?_⟩ <;>
    · rintro rfl
      exact absurd h (by decide)

/-- Blanks at the ends of a text leave its depth alone. -/
theorem depthAfter_strip (depth : Nat) (cs : List Char) :
    depthAfter depth (strip cs) = depthAfter depth cs := by
  obtain ⟨front, back, hfront, hback, heq⟩ := exists_eq_append_stripWhile isBlank cs
  have hneutral : ∀ blanks : List Char, (∀ c ∈ blanks, isBlank c = true) → ∀ depth,
      depthAfter depth blanks = some depth := fun blanks hblanks =>
    depthAfter_of_isNeutral fun c hc => isNeutral_of_isBlank (hblanks c hc)
  unfold strip
  conv_rhs => rw [heq]
  rw [depthAfter_append, depthAfter_append, hneutral front hfront, Option.bind_some]
  cases depthAfter depth (stripWhile isBlank cs) with
  | none => rfl
  | some after => exact (hneutral back hback after).symm

/-- The text can stand between two separating commas. -/
def IsSegment (cs : List Char) : Prop :=
  depthAfter 0 cs = some 0

instance (cs : List Char) : Decidable (IsSegment cs) :=
  inferInstanceAs (Decidable (depthAfter 0 cs = some 0))

/-- A segment without the blanks around it is a segment. -/
theorem IsSegment.strip (h : IsSegment cs) : IsSegment (strip cs) :=
  (depthAfter_strip 0 cs).trans h

/-! ## Pieces -/

section pieces

variable {position : Nat} {opened : List Nat} {piece : List Char} {found : List (List Char)}

/-- What one character does to the piece that is being read. -/
theorem piecesFrom_cons (position : Nat) (opened : List Nat) (piece : List Char) (c : Char)
    (rest : List Char) :
    piecesFrom position opened piece (c :: rest) =
      if c == ',' && opened.isEmpty then
        (piecesFrom (position + c.utf8Size) [] [] rest).map (piece.reverse :: ·)
      else if c == '(' then
        piecesFrom (position + c.utf8Size) (position :: opened) (c :: piece) rest
      else if c == ')' then
        match opened with
        | [] => .error (.unexpectedClose position)
        | _ :: outer => piecesFrom (position + c.utf8Size) outer (c :: piece) rest
      else piecesFrom (position + c.utf8Size) opened (c :: piece) rest := by
  cases opened <;> rfl

/-- A text without separating commas becomes part of the piece that is being read. -/
theorem piecesFrom_append (h : depthAfter opened.length front = some d) (position : Nat)
    (piece rest : List Char) :
    ∃ position' opened', opened'.length = d ∧
      piecesFrom position opened piece (front ++ rest) =
        piecesFrom position' opened' (front.reverse ++ piece) rest := by
  induction front generalizing position opened piece with
  | nil =>
    exact ⟨position, opened, Option.some.inj h, rfl⟩
  | cons c front ih =>
    have hopened : (opened.length == 0) = opened.isEmpty := by cases opened <;> rfl
    rw [depthAfter_cons, hopened] at h
    rw [List.cons_append, piecesFrom_cons, List.reverse_cons, List.append_assoc,
      List.singleton_append]
    split_ifs at h ⊢ with hcomma hopen hclose
    · have hdeeper : depthAfter (position :: opened).length front = some d := h
      exact ih hdeeper _ _
    · cases opened with
      | nil => cases h
      | cons inner outer => exact ih h _ _
    · exact ih h _ _

/-- What is read is the text cut at its separating commas. -/
theorem exists_of_piecesFrom (h : piecesFrom position opened piece cs = .ok found) :
    ∃ first more, found = (piece.reverse ++ first) :: more ∧
      depthAfter opened.length first = some 0 ∧ (∀ segment ∈ more, IsSegment segment) ∧
        cs = [','].intercalate (first :: more) := by
  induction cs generalizing position opened piece found with
  | nil =>
    rw [piecesFrom] at h
    cases hlast : opened.getLast? with
    | some outermost =>
      rw [hlast] at h
      cases h
    | none =>
      rw [hlast] at h
      rw [List.getLast?_eq_none_iff.mp hlast, ← Except.ok.inj h]
      exact ⟨[], [], by simp, rfl, fun segment hsegment => absurd hsegment List.not_mem_nil, rfl⟩
  | cons c rest ih =>
    have hopened : (opened.length == 0) = opened.isEmpty := by cases opened <;> rfl
    have hlonger : ∀ {opened' : List Nat} {position' : Nat},
        piecesFrom position' opened' (c :: piece) rest = .ok found →
        (∀ first, depthAfter opened'.length first = some 0 →
          depthAfter opened.length (c :: first) = some 0) →
        ∃ first more, found = (piece.reverse ++ first) :: more ∧
          depthAfter opened.length first = some 0 ∧ (∀ segment ∈ more, IsSegment segment) ∧
            c :: rest = [','].intercalate (first :: more) := by
      intro opened' position' hrest hdepth
      obtain ⟨first, more, hfound, hfirst, hmore, heq⟩ := ih hrest
      refine ⟨c :: first, more, by simp [hfound], hdepth first hfirst, hmore, ?_⟩
      rw [heq]
      cases more <;> simp
    rw [piecesFrom_cons] at h
    split_ifs at h with hcomma hopen hclose
    · -- a separating comma ends the piece
      obtain ⟨others, hrest, rfl⟩ := map_eq_ok_iff.mp h
      obtain ⟨first, more, rfl, hfirst, hmore, heq⟩ := ih hrest
      rw [Bool.and_eq_true, beq_iff_eq, List.isEmpty_iff] at hcomma
      obtain ⟨rfl, rfl⟩ := hcomma
      refine ⟨[], first :: more, by simp, rfl, ?_, by simp [heq]⟩
      rw [List.forall_mem_cons]
      exact ⟨hfirst, hmore⟩
    · apply hlonger h
      intro first hfirst
      rw [depthAfter_cons, hopened, if_neg hcomma, if_pos hopen]
      exact hfirst
    · cases opened with
      | nil => cases h
      | cons inner outer =>
        apply hlonger h
        intro first hfirst
        rw [depthAfter_cons, hopened, if_neg hcomma, if_neg hopen, if_pos hclose]
        exact hfirst
    · apply hlonger h
      intro first hfirst
      rw [depthAfter_cons, hopened, if_neg hcomma, if_neg hopen, if_neg hclose]
      exact hfirst

/-- Segments that are joined with commas are the pieces of the text. -/
theorem pieces_intercalate (hne : found ≠ []) (h : ∀ segment ∈ found, IsSegment segment) :
    pieces ([','].intercalate found) = .ok found := by
  have hfrom : ∀ position, piecesFrom position [] [] ([','].intercalate found) = .ok found := by
    induction found with
    | nil => exact absurd rfl hne
    | cons segment rest ih =>
      rw [List.forall_mem_cons] at h
      have hsegment : depthAfter ([] : List Nat).length segment = some 0 := h.1
      intro position
      cases rest with
      | nil =>
        obtain ⟨position', opened', hlength, heq⟩ := piecesFrom_append hsegment position [] []
        rw [List.intercalate_singleton, ← List.append_nil segment, heq,
          List.eq_nil_of_length_eq_zero hlength]
        simp [piecesFrom]
      | cons next rest =>
        obtain ⟨position', opened', hlength, heq⟩ := piecesFrom_append hsegment position []
          (',' :: [','].intercalate (next :: rest))
        rw [List.intercalate_cons_cons, List.append_assoc, List.singleton_append, heq,
          List.eq_nil_of_length_eq_zero hlength, piecesFrom_cons]
        simp [ih (List.cons_ne_nil _ _) h.2, Except.map]
  exact hfrom 0

/-- A text is read into pieces exactly if it is segments joined by commas. -/
theorem pieces_eq_ok_iff :
    pieces cs = .ok found ↔
      found ≠ [] ∧ (∀ segment ∈ found, IsSegment segment) ∧ cs = [','].intercalate found := by
  constructor
  · intro h
    obtain ⟨first, more, rfl, hfirst, hmore, heq⟩ := exists_of_piecesFrom h
    refine ⟨List.cons_ne_nil _ _, ?_, heq⟩
    rw [List.forall_mem_cons]
    exact ⟨hfirst, hmore⟩
  · rintro ⟨hne, hsegments, rfl⟩
    exact pieces_intercalate hne hsegments

end pieces

/-! ## Tokens -/

/-- A text that is a token of a description. -/
structure IsToken (token : List Char) : Prop where
  /-- It can stand between two separating commas. -/
  segment : IsSegment token
  /-- There are no blanks around it. -/
  stripped : strip token = token
  /-- It is not empty. -/
  nonempty : token ≠ []

/-- The tokens are the pieces without blanks around them, if something is left. -/
theorem mem_tokensOf {pieces : List (List Char)} {token : List Char} :
    token ∈ tokensOf pieces ↔ token ≠ [] ∧ ∃ piece ∈ pieces, strip piece = token := by
  simp [tokensOf, and_comm]

/-- A token is one of the segments of the description, without the blanks around it. -/
theorem exists_of_mem_splitTopLevel {raw token : String} {tokens : List String}
    (h : splitTopLevel raw = .ok tokens) (hmem : token ∈ tokens) :
    token.toList ≠ [] ∧ ∃ segments, raw.toList = [','].intercalate segments ∧
      ∃ segment ∈ segments, IsSegment segment ∧ token.toList = strip segment := by
  unfold splitTopLevel at h
  obtain ⟨segments, hsegments, rfl⟩ := map_eq_ok_iff.mp h
  obtain ⟨-, hall, hraw⟩ := pieces_eq_ok_iff.mp hsegments
  obtain ⟨chars, hchars, rfl⟩ := List.mem_map.mp hmem
  obtain ⟨hne, segment, hsegment, rfl⟩ := mem_tokensOf.mp hchars
  rw [String.toList_ofList]
  exact ⟨hne, segments, hraw, segment, hsegment, hall segment hsegment, rfl⟩

/-- The tokens of a description are tokens. -/
theorem isToken_of_mem_splitTopLevel {raw token : String} {tokens : List String}
    (h : splitTopLevel raw = .ok tokens) (hmem : token ∈ tokens) : IsToken token.toList := by
  obtain ⟨hne, segments, -, segment, -, hsegment, htoken⟩ := exists_of_mem_splitTopLevel h hmem
  refine ⟨?_, ?_, hne⟩
  · rw [htoken]
    exact hsegment.strip
  · rw [htoken, strip_strip]

/-- The characters of a token are characters of the description. -/
theorem subset_of_mem_splitTopLevel {raw token : String} {tokens : List String}
    (h : splitTopLevel raw = .ok tokens) (hmem : token ∈ tokens) : token.toList ⊆ raw.toList := by
  obtain ⟨-, segments, hraw, segment, hsegment, -, htoken⟩ := exists_of_mem_splitTopLevel h hmem
  rw [hraw, htoken]
  intro c hc
  exact subset_intercalate hsegment (mem_of_mem_strip hc)

/-- Tokens as pieces are the tokens again. -/
theorem tokensOf_eq_self {tokens : List (List Char)} (h : ∀ token ∈ tokens, IsToken token) :
    tokensOf tokens = tokens := by
  have hstrip : tokens.map strip = tokens := by
    rw [List.map_congr_left fun token htoken => (h token htoken).stripped, List.map_id']
  unfold tokensOf
  rw [hstrip, List.filter_eq_self]
  intro token htoken
  simp [(h token htoken).nonempty]

/-- Tokens joined by commas are the tokens of the description that results. -/
theorem splitTopLevel_intercalate {tokens : List String}
    (h : ∀ token ∈ tokens, IsToken token.toList) :
    splitTopLevel (",".intercalate tokens) = .ok tokens := by
  have hback : (tokens.map String.toList).map String.ofList = tokens := by simp
  have htokens : ∀ token ∈ tokens.map String.toList, IsToken token := by
    intro token htoken
    obtain ⟨text, htext, rfl⟩ := List.mem_map.mp htoken
    exact h text htext
  have hread : (tokensOf (tokens.map String.toList)).map String.ofList = tokens := by
    rw [tokensOf_eq_self htokens, hback]
  unfold splitTopLevel
  rw [String.toList_intercalate]
  cases tokens with
  | nil => rfl
  | cons first rest =>
    change (pieces ([','].intercalate _)).map _ = _
    rw [pieces_intercalate (by simp) fun token htoken => (htokens token htoken).segment]
    exact congrArg Except.ok hread

/-! ## Definitions -/

section splitDefinition

variable {token name definition : String}

/-- The two parts of a definition are what is around its first colon, without blanks. -/
theorem splitDefinition_eq_ok (h : splitDefinition token = .ok (name, definition)) :
    ∃ front back, token.toList = front ++ ':' :: back ∧ ':' ∉ front ∧ name.toList = strip front ∧
      name.toList ≠ [] ∧ definition.toList = strip back := by
  unfold splitDefinition at h
  split at h
  · cases h
  · next front back hsplit =>
    obtain ⟨heq, hcolon⟩ := splitFirst_eq_some hsplit
    dsimp only at h
    split_ifs at h with hempty
    obtain ⟨rfl, rfl⟩ := Prod.mk.inj (Except.ok.inj h)
    refine ⟨front, back, heq, hcolon, String.toList_ofList, ?_, String.toList_ofList⟩
    rw [String.toList_ofList]
    intro hnil
    exact hempty (List.isEmpty_iff.mpr hnil)

/-- The characters of a name are characters of its definition. -/
theorem subset_of_splitDefinition (h : splitDefinition token = .ok (name, definition)) :
    name.toList ⊆ token.toList := by
  obtain ⟨front, back, htext, -, hname, -, -⟩ := splitDefinition_eq_ok h
  rw [htext, hname]
  intro c hc
  exact List.mem_append_left _ (mem_of_mem_strip hc)

/-- Two parts without blanks around them are found again when a colon is put between them. -/
theorem splitDefinition_of_eq (htoken : token.toList = name.toList ++ ':' :: definition.toList)
    (hcolon : ':' ∉ name.toList) (hne : name.toList ≠ []) (hname : strip name.toList = name.toList)
    (hdefinition : strip definition.toList = definition.toList) :
    splitDefinition token = .ok (name, definition) := by
  unfold splitDefinition
  rw [htoken, splitFirst_append hcolon]
  simp [hname, hdefinition, hne]

end splitDefinition

end Scaffold.Description
