import Scaffold.Proofs.Generation.Delivery

/-!
# Route files over many merges

Lines are merged into route files one time after another, and every merge reads the file anew. This
module follows a file from its first content through all of them.

* What one merge does to the text: the opening in front, if the file needs it, and a block of the
  missing lines at the end; its lines are those from before and the candidates (`Grew`).
* What was merged into a file stays there through all later merges, into this file and others
  (`HoldsAt.afterMerges`).
* So only the first merge writes the opening, and candidates that were merged before change nothing
  (`exec_mergeAll_merge`).
-/

namespace Scaffold

namespace Route

open Text

variable {m : Type → Type} [Monad m]

/-- Merges lines into route files, one call after another. -/
def mergeAll (storage : Storage m) : List (Path × List String) → ExceptT Error m (List Merged)
  | [] => return []
  | (path, lines) :: rest => do
    let merged ← merge storage path lines
    let others ← mergeAll storage rest
    return merged :: others

/-! ## One merge -/

/-- The text `content` is what a merge of `lines` makes of a file with the content `current`. -/
structure Grew (current : Option String) (lines : List String) (result : Merged)
    (content : String) : Prop where
  /-- The file keeps its text, with the opening in front and a block of lines behind it. -/
  text : content = (if result.preambleInserted then opening else "") ++ current.getD "" ++
    if result.appended = [] then "" else appendBlock result.appended
  /-- The added lines are those candidates that were no lines of the file, each once. -/
  appended : result.appended = ((lines.map trim).filter fun line => line ≠ "" ∧
    line ∉ contentLines ((if result.preambleInserted then opening else "") ++
      current.getD "")).eraseDups
  /-- The lines are those from before, the candidates, and the opening if it was written. -/
  lines : ∀ line, line ∈ contentLines content ↔
    line ∈ contentLines (current.getD "") ∨ (line ≠ "" ∧ ∃ raw ∈ lines, trim raw = line) ∨
      result.preambleInserted = true ∧ line = preamble

/-- One merge makes a route file grow by the lines it lacks. -/
theorem grew_merged {lines : List String} (hlines : ∀ raw ∈ lines, '\n' ∉ raw.toList)
    (current : Option String) :
    Grew current lines ⟨(withPreamble current).isSome, missing (opened current) lines⟩
      (merged current lines) where
  text := by
    rw [← opened_eq]
    unfold merged grown
    by_cases hnone : missing (opened current) lines = [] <;> simp [hnone]
  appended := by
    rw [← opened_eq]
    exact unseen_eq_eraseDups _ lines
  lines := by
    intro line
    rw [mem_contentLines_merged hlines, mem_contentLines_opened, or_assoc, or_comm (a := _ ∧ _)]

end Route

/-! ## Many merges -/

namespace Memory

open Text

variable {memory : Memory} {path other : Path} {lines more : List String}
  {calls : List (Path × List String)}

/-- The project after lines were merged into route files, one call after another. -/
def afterMerges (memory : Memory) (calls : List (Path × List String)) : Memory :=
  calls.foldl (fun project call => project.afterMerge call.1 call.2) memory

/-- Merges in a memory succeed one after the other, and leave the file that merging the texts gives.
-/
theorem exec_mergeAll (memory : Memory) (calls : List (Path × List String)) :
    ∃ results, memory.exec (Route.mergeAll storage calls) =
      (.ok results, memory.afterMerges calls) := by
  induction calls generalizing memory with
  | nil => exact ⟨[], rfl⟩
  | cons call rest ih =>
    obtain ⟨path, lines⟩ := call
    obtain ⟨results, hrest⟩ := ih (memory.afterMerge path lines)
    exact ⟨_, (exec_bind_ok (memory.exec_merge path lines)).trans (exec_bind_ok hrest)⟩

/-- The file starts as a script and has all of the lines. -/
def HoldsAt (memory : Memory) (path : Path) (lines : List String) : Prop :=
  ∃ content, memory.file? path = some content ∧ Route.Holds content lines

namespace HoldsAt

/-- Two spellings of a path hold the same lines. -/
theorem of_same (h : HoldsAt memory path lines) (hsame : path.same other = true) :
    HoldsAt memory other lines := by
  obtain ⟨content, hcontent, hholds⟩ := h
  exact ⟨content, (file?_congr hsame memory) ▸ hcontent, hholds⟩

/-- A merge keeps what any file holds. -/
theorem afterMerge (h : HoldsAt memory path lines) (other : Path) (more : List String) :
    HoldsAt (memory.afterMerge other more) path lines := by
  obtain ⟨content, hcontent, hholds⟩ := h
  unfold HoldsAt
  rw [(Wrote.afterMerge memory other more).file?]
  by_cases hsame : other.same path = true
  · refine ⟨_, if_pos hsame, ?_⟩
    rw [file?_congr hsame memory, hcontent]
    exact hholds.merged more
  · exact ⟨content, by rw [if_neg hsame, hcontent], hholds⟩

/-- Lines stay in a file whatever is merged later. -/
theorem afterMerges (h : HoldsAt memory path lines) (calls : List (Path × List String)) :
    HoldsAt (memory.afterMerges calls) path lines := by
  induction calls generalizing memory with
  | nil => exact h
  | cons call rest ih => exact ih (h.afterMerge call.1 call.2)

end HoldsAt

/-- After a merge the file holds the merged lines. -/
theorem holdsAt_afterMerge (hlines : ∀ raw ∈ lines, '\n' ∉ raw.toList) (memory : Memory)
    (path : Path) : HoldsAt (memory.afterMerge path lines) path lines := by
  refine ⟨_, ?_, Route.holds_merged hlines (memory.file? path)⟩
  rw [(Wrote.afterMerge memory path lines).file?, if_pos (Path.same_refl path)]

/-- The files hold what was merged into them, whatever was merged later. -/
theorem holdsAt_afterMerges (hcalls : ∀ call ∈ calls, ∀ raw ∈ call.2, '\n' ∉ raw.toList)
    {call : Path × List String} (hcall : call ∈ calls) :
    HoldsAt (memory.afterMerges calls) call.1 call.2 := by
  induction calls generalizing memory with
  | nil => exact absurd hcall List.not_mem_nil
  | cons first rest ih =>
    rw [List.forall_mem_cons] at hcalls
    rcases List.mem_cons.mp hcall with rfl | hcall
    · exact (holdsAt_afterMerge hcalls.1 memory call.1).afterMerges rest
    · exact ih hcalls.2 hcall

/-- Merging what a file holds changes nothing in the whole project. -/
theorem HoldsAt.afterMerge_eq (h : HoldsAt memory path lines) :
    memory.afterMerge path lines = memory := by
  obtain ⟨content, hcontent, hholds⟩ := h
  have hopening : Route.withPreamble (some content) = none := by
    simp [Route.withPreamble, hholds.script]
  unfold Memory.afterMerge afterOpening
  rw [hcontent, Route.opened_of_startsAsScript hholds.script, hholds.missing_eq, hopening]
  rfl

end Memory

namespace Route

open Text

/-- Every merge puts the opening in front of the file, if it needs it, and the missing lines behind
it; once lines were merged into the file it needs no opening, and lines that were merged into it
before change nothing. -/
theorem exec_mergeAll_merge (memory : Memory) (earlier : List (Path × List String)) (path : Path)
    (lines : List String) (hearlier : ∀ call ∈ earlier, ∀ raw ∈ call.2, '\n' ∉ raw.toList)
    (hlines : ∀ raw ∈ lines, '\n' ∉ raw.toList) :
    ∃ results before result after content,
      memory.exec (mergeAll Memory.storage earlier) = (.ok results, before) ∧
      before.exec (merge Memory.storage path lines) = (.ok result, after) ∧
      after.file? path = some content ∧ Grew (before.file? path) lines result content ∧
      ((∃ call ∈ earlier, call.1.same path = true) →
        result.preambleInserted = false ∧
        ((∀ raw ∈ lines, ∃ call ∈ earlier, call.1.same path = true ∧
            ∃ other ∈ call.2, trim other = trim raw) →
          after = before ∧ result = ⟨false, []⟩)) := by
  obtain ⟨results, hresults⟩ := memory.exec_mergeAll earlier
  have hcontent := (Memory.Wrote.afterMerge (memory.afterMerges earlier) path lines).file? path
  rw [if_pos (Path.same_refl path)] at hcontent
  refine ⟨results, _, _, _, _, hresults, Memory.exec_merge _ path lines, hcontent,
    grew_merged hlines _, ?_⟩
  rintro ⟨call, hcall, hsame⟩
  obtain ⟨content, hthere, hholds⟩ := (Memory.holdsAt_afterMerges hearlier hcall).of_same hsame
  have hopening : (withPreamble ((memory.afterMerges earlier).file? path)).isSome = false := by
    rw [hthere]
    simp [withPreamble, hholds.script]
  refine ⟨hopening, fun hknown => ?_⟩
  -- the file holds the candidates, each of them since it was first merged
  have hnew : Holds content lines := by
    refine ⟨hholds.script, fun raw hraw => ?_⟩
    obtain ⟨other, hother, hsame', candidate, hcandidate, htrim⟩ := hknown raw hraw
    obtain ⟨content', hthere', hholds'⟩ :=
      (Memory.holdsAt_afterMerges hearlier hother).of_same hsame'
    obtain rfl : content' = content := Option.some.inj (hthere'.symm.trans hthere)
    rw [← htrim]
    exact hholds'.present candidate hcandidate
  refine ⟨Memory.HoldsAt.afterMerge_eq ⟨content, hthere, hnew⟩, ?_⟩
  rw [hopening, hthere, opened_of_startsAsScript hholds.script, hnew.missing_eq]

/-- A line that was merged is known under another spelling of the path and with other blanks. -/
theorem exec_mergeAll_merge_known :
    ∃ results before,
      Memory.exec {} (mergeAll Memory.storage [(⟨"routes/web.php"⟩, ["use A;", "Route::a();"])]) =
        (.ok results, before) ∧
      before.exec (merge Memory.storage ⟨"routes//web.php"⟩ [" Route::a();"]) =
        (.ok ⟨false, []⟩, before) := by
  have hsame : Path.same ⟨"routes/web.php"⟩ ⟨"routes//web.php"⟩ = true := by decide +kernel
  obtain ⟨results, before, result, after, content, hearlier, hmerge, -, -, hlater⟩ :=
    exec_mergeAll_merge {} [(⟨"routes/web.php"⟩, ["use A;", "Route::a();"])] ⟨"routes//web.php"⟩
      [" Route::a();"] (by decide +kernel) (by decide +kernel)
  obtain ⟨-, hknown⟩ := hlater ⟨_, List.mem_cons_self, hsame⟩
  obtain ⟨rfl, rfl⟩ := hknown fun raw hraw =>
    ⟨_, List.mem_cons_self, hsame, "Route::a();", by simp, by
      rw [List.mem_singleton.mp hraw]
      decide +kernel⟩
  exact ⟨results, _, hearlier, hmerge⟩

end Route

end Scaffold
