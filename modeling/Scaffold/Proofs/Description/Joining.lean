import Scaffold.Proofs.Description.Brackets

/-!
# Tokens joined by commas

A list of tokens can be written in many ways: with blanks around a token, and with segments between
two commas that hold nothing but blanks. `Writes` says which segments write which tokens. Reading a
description is the inverse of writing one (`splitTopLevel_eq_ok_iff_writes`): it finds exactly those
tokens that the text is a way of writing, so there is never more than one list of them, and the list
is found again when its tokens are joined.
-/

namespace Scaffold.Description

open Text

variable {raw : String} {tokens : List String}

/-- The segments write the tokens in their order, with blanks around each; a segment of blanks
writes none. -/
inductive Writes : List (List Char) → List (List Char) → Prop where
  | nil : Writes [] []
  | blank {segment : List Char} {segments tokens : List (List Char)}
      (hsegment : ∀ c ∈ segment, isBlank c = true) (hrest : Writes segments tokens) :
      Writes (segment :: segments) tokens
  | token {front token back : List Char} {segments tokens : List (List Char)}
      (hfront : ∀ c ∈ front, isBlank c = true) (hback : ∀ c ∈ back, isBlank c = true)
      (hrest : Writes segments tokens) :
      Writes ((front ++ token ++ back) :: segments) (token :: tokens)

/-- The first segment gives a token unless it is blank. -/
theorem tokensOf_cons (segment : List Char) (segments : List (List Char)) :
    tokensOf (segment :: segments) =
      if strip segment = [] then tokensOf segments else strip segment :: tokensOf segments := by
  by_cases hnil : strip segment = [] <;> simp [tokensOf, hnil]

namespace Writes

variable {segments tokens : List (List Char)}

/-- A description that writes tokens is cut at its commas into these. -/
theorem tokensOf_eq (h : Writes segments tokens) (htokens : ∀ token ∈ tokens, IsToken token) :
    tokensOf segments = tokens := by
  induction h with
  | nil => rfl
  | @blank segment segments tokens hsegment hrest ih =>
    have hstrip : strip segment = [] := strip_append_right hsegment []
    rw [tokensOf_cons, if_pos hstrip, ih htokens]
  | token hfront hback hrest ih =>
    rw [List.forall_mem_cons] at htokens
    rw [tokensOf_cons, strip_append_append hfront hback, htokens.1.stripped,
      if_neg htokens.1.nonempty, ih htokens.2]

/-- Tokens with blanks around them can stand between commas. -/
theorem isSegment (h : Writes segments tokens) (htokens : ∀ token ∈ tokens, IsToken token) :
    ∀ segment ∈ segments, IsSegment segment := by
  induction h with
  | nil => exact fun segment hsegment => absurd hsegment List.not_mem_nil
  | blank hsegment hrest ih =>
    rw [List.forall_mem_cons]
    refine ⟨?_, ih htokens⟩
    exact depthAfter_of_isNeutral (fun c hc => isNeutral_of_isBlank (hsegment c hc)) 0
  | token hfront hback hrest ih =>
    rw [List.forall_mem_cons] at htokens ⊢
    refine ⟨?_, ih htokens.2⟩
    unfold IsSegment
    rw [← depthAfter_strip, strip_append_append hfront hback, depthAfter_strip]
    exact htokens.1.segment

/-- Every list of segments writes the tokens it is cut into. -/
theorem of_segments (segments : List (List Char)) : Writes segments (tokensOf segments) := by
  induction segments with
  | nil => exact .nil
  | cons segment segments ih =>
    obtain ⟨front, back, hfront, hback, heq⟩ := exists_eq_append_stripWhile isBlank segment
    rw [tokensOf_cons]
    split_ifs with hnil
    · refine .blank (fun c hc => ?_) ih
      have hstrip : stripWhile isBlank segment = [] := hnil
      rw [heq, hstrip, List.append_nil, List.mem_append] at hc
      exact hc.elim (hfront c) (hback c)
    · have htoken : Writes ((front ++ strip segment ++ back) :: segments) _ :=
        .token hfront hback ih
      unfold strip at htoken ⊢
      rwa [← heq] at htoken

end Writes

/-- A token is not empty, has no blanks around it, is balanced and has no comma outside its
brackets. -/
theorem isToken_iff {token : List Char} :
    IsToken token ↔
      token ≠ [] ∧ strip token = token ∧ IsBalanced token ∧ GuardsCommas token := by
  constructor
  · intro h
    exact ⟨h.nonempty, h.stripped, isSegment_iff.mp h.segment⟩
  · rintro ⟨hne, hstrip, hsegment⟩
    exact ⟨isSegment_iff.mpr hsegment, hstrip, hne⟩

/-- A text is read as tokens if it is a way of writing them. -/
theorem splitTopLevel_of_writes {segments : List (List Char)}
    (hraw : raw.toList = [','].intercalate segments)
    (hwrites : Writes segments (tokens.map String.toList))
    (htokens : ∀ token ∈ tokens, IsToken token.toList) : splitTopLevel raw = .ok tokens := by
  have hmap : ∀ token ∈ tokens.map String.toList, IsToken token := by simpa using htokens
  have hread : (tokensOf segments).map String.ofList = tokens := by
    rw [hwrites.tokensOf_eq hmap]
    simp
  unfold splitTopLevel
  rw [hraw]
  cases segments with
  | nil => exact congrArg Except.ok hread
  | cons first more =>
    rw [pieces_intercalate (List.cons_ne_nil _ _) (hwrites.isSegment hmap)]
    exact congrArg Except.ok hread

/-- A description is read as a list of tokens exactly if each of them is one and the text writes
them: by commas between segments that hold a token and blanks around it, or blanks only. Joining
what was read and reading it again changes nothing. -/
theorem splitTopLevel_eq_ok_iff_writes (raw : String) (tokens : List String) :
    (splitTopLevel raw = .ok tokens ↔
      (∀ token ∈ tokens, token ≠ "" ∧ trim token = token ∧ IsBalanced token.toList ∧
        GuardsCommas token.toList) ∧
      ∃ segments, raw.toList = [','].intercalate segments ∧
        Writes segments (tokens.map String.toList)) ∧
    (do
      let found ← splitTopLevel raw
      splitTopLevel (",".intercalate found)) = splitTopLevel raw := by
  have htoken : ∀ token : String, (token ≠ "" ∧ trim token = token ∧ IsBalanced token.toList ∧
      GuardsCommas token.toList) ↔ IsToken token.toList := by
    intro token
    rw [isToken_iff, ← toList_trim, String.toList_inj]
    simp
  constructor
  · simp only [htoken]
    constructor
    · intro h
      refine ⟨fun token hmem => isToken_of_mem_splitTopLevel h hmem, ?_⟩
      unfold splitTopLevel at h
      obtain ⟨segments, hsegments, rfl⟩ := map_eq_ok_iff.mp h
      refine ⟨segments, (pieces_eq_ok_iff.mp hsegments).2.2, ?_⟩
      simpa using Writes.of_segments segments
    · rintro ⟨htokens, segments, hraw, hwrites⟩
      exact splitTopLevel_of_writes hraw hwrites htokens
  · cases hsplit : splitTopLevel raw with
    | error e => rfl
    | ok found =>
      exact splitTopLevel_intercalate fun token hmem => isToken_of_mem_splitTopLevel hsplit hmem

example : splitTopLevel " a(b, c),\t, \u3000, d\u00a0," = .ok ["a(b, c)", "d"] := by decide

end Scaffold.Description
