import Scaffold.Proofs.Generation.Failure
import Scaffold.Proofs.Storage.Refusing

/-!
# Runs that are interrupted

On a storage that acts like a project in memory but may refuse any call, a run can be interrupted at
any output. It then stops at a clean prefix of its outputs (`run_interrupted`):

* all outputs before are written as if nothing had been refused (`emitted_of_ok`);
* the one that failed has left a directory at most, or the opening of a route file;
* nothing was called after the call that failed, so no later output was touched.
-/

namespace Scaffold

variable {σ : Type} {view : σ → Memory}

/-! ## Lines of the report -/

/-- No output comes to a failure. -/
theorem status_outcome_ne_failed (output : Output) (current : Option String) :
    (output.outcome current).status ≠ .failed := by
  cases output with
  | file path content => exact Status.noConfusion
  | starter path content =>
    unfold Output.outcome
    split_ifs <;> exact Status.noConfusion
  | lines path wanted =>
    change (Outcome.ofLines .updated (Route.missing (Route.opened current) wanted)).status ≠ .failed
    unfold Outcome.ofLines
    split_ifs <;> exact Status.noConfusion

namespace Emission

/-- Every output has one line, with its kind and its path. -/
theorem map_emittedLines (memory : Memory) (outputs : List (ArtifactKind × Output)) :
    (emittedLines memory outputs).map (fun line => (line.kind, line.subject)) =
      outputs.map fun entry => (some entry.1, entry.2.path.text) := by
  induction outputs generalizing memory with
  | nil => rfl
  | cons entry rest ih =>
    obtain ⟨kind, output⟩ := entry
    rw [emittedLines, List.map_cons, List.map_cons, ih]
    rfl

/-- The lines for outputs that were written are no failures. -/
theorem status_ne_failed_of_mem_emittedLines {memory : Memory}
    {outputs : List (ArtifactKind × Output)} {line : ReportLine}
    (h : line ∈ emittedLines memory outputs) : line.status ≠ .failed := by
  induction outputs generalizing memory with
  | nil => exact absurd h List.not_mem_nil
  | cons entry rest ih =>
    obtain ⟨kind, output⟩ := entry
    rcases List.mem_cons.mp h with rfl | h
    · exact status_outcome_ne_failed output (memory.file? output.path)
    · exact ih h

/-! ## Emission that goes on -/

section emitAll

variable {storage : Storage (StateM σ)} {state middle after : σ} {expected : Expected}
  {outputs rest : List (ArtifactKind × Output)} {lines more : List ReportLine}

/-- Outputs that can all be written are written one after another. -/
theorem exists_of_emitAll_cons {kind : ArtifactKind} {output : Output}
    (h : (emitAll storage false expected ((kind, output) :: rest)).run state =
      ((lines, .ok ()), after)) :
    ∃ outcome middle others, perform (deliver storage output) state = (.ok outcome, middle) ∧
      (emitAll storage false expected rest).run middle = ((others, .ok ()), after) ∧
      lines = outcome.line kind output.path :: others := by
  rcases hdeliver : perform (deliver storage output) state with ⟨result, middle⟩
  cases result with
  | error e =>
    rw [run_emitAll_cons_of_error hdeliver] at h
    cases h
  | ok outcome =>
    rcases hrest : (emitAll storage false expected rest).run middle with ⟨⟨others, ended⟩, final⟩
    rw [run_emitAll_cons_of_ok hdeliver hrest] at h
    cases h
    exact ⟨outcome, middle, others, rfl, hrest, rfl⟩

/-- After outputs that were written, the emission goes on with the rest. -/
theorem run_emitAll_append {result : Except Error Unit}
    (hfirst : (emitAll storage false expected outputs).run state = ((lines, .ok ()), middle))
    (hrest : (emitAll storage false expected rest).run middle = ((more, result), after)) :
    (emitAll storage false expected (outputs ++ rest)).run state =
      ((lines ++ more, result), after) := by
  induction outputs generalizing state lines with
  | nil =>
    cases hfirst
    exact hrest
  | cons entry others ih =>
    obtain ⟨kind, output⟩ := entry
    obtain ⟨outcome, next, moreLines, hdeliver, hothers, rfl⟩ := exists_of_emitAll_cons hfirst
    exact run_emitAll_cons_of_ok hdeliver (ih hothers)

/-- Outputs that were not refused are written as to a project in memory. -/
theorem emitted_of_ok (hstorage : storage.ActsLikeMemory view)
    (h : (emitAll storage false expected outputs).run state = ((lines, .ok ()), after)) :
    lines = emittedLines (view state) outputs ∧
      view after = (view state).afterOutputs (outputs.map Prod.snd) := by
  induction outputs generalizing state lines with
  | nil =>
    cases h
    exact ⟨rfl, rfl⟩
  | cons entry others ih =>
    obtain ⟨kind, output⟩ := entry
    obtain ⟨outcome, middle, moreLines, hdeliver, hothers, rfl⟩ := exists_of_emitAll_cons h
    rcases attempts_deliver hstorage state output with
      ⟨e, failed, hfailed, -⟩ | ⟨next, hnext, hview⟩
    · rw [hfailed] at hdeliver
      cases hdeliver
    · rw [hnext] at hdeliver
      cases hdeliver
      obtain ⟨rfl, hafter⟩ := ih hothers
      rw [hview] at hafter ⊢
      exact ⟨rfl, hafter⟩

/-- An output that failed has left little. -/
theorem partlyWritten_of_error (hstorage : storage.ActsLikeMemory view) {output : Output}
    {e : Error} (h : perform (deliver storage output) state = (.error e, after)) :
    (view state).PartlyWritten output (view after) := by
  rcases attempts_deliver hstorage state output with
    ⟨e', failed, hfailed, hleft⟩ | ⟨next, hnext, -⟩
  · rw [hfailed] at h
    cases h
    exact hleft
  · rw [hnext] at h
    cases h

end emitAll

end Emission

/-! ## The interrupted run -/

namespace Generator

/-- Neither are the warnings. -/
theorem status_ne_failed_of_mem_warningLines {description : Description} {line : ReportLine}
    (h : line ∈ warningLines description) : line.status ≠ .failed := by
  obtain ⟨relation, -, rfl⟩ := List.mem_map.mp h
  exact Status.noConfusion

/-- Nor are the lines for what was left out. -/
theorem status_ne_failed_of_mem_skippedLines {plan : Plan} {line : ReportLine}
    (h : line ∈ skippedLines plan) : line.status ≠ .failed := by
  obtain ⟨skipped, -, rfl⟩ := List.mem_map.mp h
  exact Status.noConfusion

/-- A report in which nothing else failed has one line on a failure. -/
theorem count_failed_append_failedLine {request : Request} {e : Error} {lines : List ReportLine}
    (h : ∀ line ∈ lines, line.status ≠ .failed) :
    Report.count { lines := lines ++ [failedLine request e] } .failed = 1 := by
  have hbefore : lines.countP (fun line => line.status == .failed) = 0 :=
    List.countP_eq_zero.mpr fun line hline => by simpa using h line hline
  have hlast : [failedLine request e].countP (fun line => line.status == .failed) = 1 := rfl
  unfold Report.count
  rw [List.countP_append, hbefore, hlast]

section interrupted

variable {storage : Storage (StateM σ)} {planner : Planner (StateM (σ × List Call))}
  {renderer : Renderer} {timestamp : Timestamp} {request : Request}
  {description : Description} {plan : Plan} {done rest : List (ArtifactKind × Output)}
  {kind : ArtifactKind} {output : Output} {start planned before after : σ × List Call}
  {lines : List ReportLine} {e : Error}

/-- A run whose output `output` is the first that fails has written the outputs before it and
nothing after it; of that one there is a directory at most, or the opening of a route file. The
error is that of the last call. The report has the warnings, what was left out, a line for each
output before, and then its one line on a failure, with the text of the error. -/
theorem run_interrupted (registry : Registry) (hstorage : storage.ActsLikeMemory view)
    (hreaches : (logging storage planner renderer timestamp).Reaches request start description plan
      (done ++ (kind, output) :: rest) planned)
    (hdone : (Emission.emitAll storage.recording false [] done).run planned =
      ((lines, .ok ()), before))
    (hfails : perform (Emission.deliver storage.recording output) before = (.error e, after)) :
    (∃ report : Report,
      ((logging storage planner renderer timestamp).run false request registry).run start =
        ((report, .error e), after) ∧
      report.lines =
        description.rejected.map (fun relation =>
          ⟨.warning, none, description.name, some (Error.unknownRelation relation).message⟩) ++
        plan.skipped.map (fun skipped =>
          ⟨.skipped, some skipped.kind, skipped.entity, some skipped.reason⟩) ++ lines ++
        [⟨.failed, none, Text.trim request.entity, some e.message⟩] ∧
      report.count .failed = 1) ∧
      view before.1 = (view planned.1).afterOutputs (done.map Prod.snd) ∧
      (view before.1).PartlyWritten output (view after.1) ∧
      (∃ calls last, after.2 = before.2 ++ (calls ++ [last]) ∧
        (∀ call ∈ calls, call.fault? = none) ∧ last.fault? = some e) ∧
      lines.map (fun line => (line.kind, line.subject)) =
        done.map (fun entry => (some entry.1, entry.2.path.text)) ∧
      (∀ line ∈ lines, line.status ≠ .failed) ∧
      (planner.OnlyReads view storage → view planned.1 = view start.1) := by
  obtain ⟨rfl, hview⟩ := Emission.emitted_of_ok hstorage.recording hdone
  have hrest : (Emission.emitAll storage.recording false [] ((kind, output) :: rest)).run before =
      (([], .error e), after) := Emission.run_emitAll_cons_of_error hfails
  have hstopped := Emission.run_emitAll_append hdone hrest
  rw [List.append_nil] at hstopped
  obtain ⟨calls, hlog, hcalls⟩ := explained_deliver storage output before
  rw [hfails] at hlog hcalls
  obtain ⟨earlier, last, rfl, hearlier, hlast⟩ := hcalls.exists_last
  have hemitted : ∀ line ∈ Emission.emittedLines (view planned.1) done, line.status ≠ .failed :=
    fun _ hline => Emission.status_ne_failed_of_mem_emittedLines hline
  refine ⟨⟨_, run_of_reaches_error hreaches hstopped registry, rfl, ?_⟩, hview,
    Emission.partlyWritten_of_error hstorage.recording hfails,
    ⟨earlier, last, hlog, hearlier, hlast⟩, Emission.map_emittedLines _ done, hemitted, ?_⟩
  · refine count_failed_append_failedLine fun line hline => ?_
    rcases List.mem_append.mp hline with hbefore | hline
    · rcases List.mem_append.mp hbefore with hwarning | hskipped
      · exact status_ne_failed_of_mem_warningLines hwarning
      · exact status_ne_failed_of_mem_skippedLines hskipped
    · exact hemitted line hline
  · intro hplanner
    exact (spares_of_reaches hplanner hreaches).view

end interrupted

/-- A project in memory to whose files nothing can be appended. -/
def refusingAppends : Storage (StateM Memory) :=
  Memory.storage.denying (fun operation _ => operation == .append) "denied"

/-- A generator for models, each of which becomes two files and a route line between them. -/
def routeBetweenFiles : Generator (StateM (Memory × List Call)) :=
  logging refusingAppends (Planner.empty.register (.standard .model))
    (fun _ => .ok [.file ⟨"a"⟩ "x", .lines ⟨"b/c"⟩ ["y"], .file ⟨"d"⟩ "z"]) default

/-- The first file is there, the route file has its opening and no more, and the second file was not
touched. -/
theorem run_interrupted_at_append :
    (routeBetweenFiles.run false ⟨"post", "title:string", none⟩ {}).run ({}, []) =
      (({ lines := [⟨.created, some .model, "a", none⟩,
          ⟨.failed, none, "post", some "I/O error on b/c: denied"⟩] },
        .error (.io ⟨"b/c"⟩ (.other "denied"))),
      ({ files := [(⟨"a"⟩, "x"), (⟨"b/c"⟩, "<?php\n\n")], directories := [⟨"b"⟩] },
        [⟨.write, "a", none⟩, ⟨.read, "b/c", none⟩, ⟨.ensureDirectory, "b", none⟩,
          ⟨.write, "b/c", none⟩, ⟨.append, "b/c", some (.io ⟨"b/c"⟩ (.other "denied"))⟩])) := by
  have hdescribe : (⟨"post", "title:string", none⟩ : Request).describe =
      .ok ⟨"Post", [⟨"title", .string⟩], [], []⟩ := by decide +kernel
  have hplan : perform (routeBetweenFiles.planner.plan routeBetweenFiles.storage default
      (Description.root ⟨"Post", [⟨"title", .string⟩], [], []⟩).expand) ({}, []) =
      (.ok ⟨[.root "Post" [⟨"title", .string⟩] []], [⟨.root "Post" [⟨"title", .string⟩] [],
        .model (Entity.root "Post" [⟨"title", .string⟩] []).model⟩], []⟩, ({}, [])) := by
    decide +kernel
  have hreaches : routeBetweenFiles.Reaches ⟨"post", "title:string", none⟩ ({}, [])
      ⟨"Post", [⟨"title", .string⟩], [], []⟩ _ ([(.model, .file ⟨"a"⟩ "x")] ++
        (.model, .lines ⟨"b/c"⟩ ["y"]) :: [(.model, .file ⟨"d"⟩ "z")]) ({}, []) :=
    ⟨hdescribe, hplan, rfl⟩
  have hfirst : perform (Emission.deliver refusingAppends.recording (.file ⟨"a"⟩ "x")) ({}, []) =
      (.ok ⟨.created, none⟩, ({ files := [(⟨"a"⟩, "x")] }, [⟨.write, "a", none⟩])) := by
    decide +kernel
  have hfails : perform (Emission.deliver refusingAppends.recording (.lines ⟨"b/c"⟩ ["y"]))
      ({ files := [(⟨"a"⟩, "x")] }, [⟨.write, "a", none⟩]) =
      (.error (.io ⟨"b/c"⟩ (.other "denied")),
        ({ files := [(⟨"a"⟩, "x"), (⟨"b/c"⟩, "<?php\n\n")], directories := [⟨"b"⟩] },
          [⟨.write, "a", none⟩, ⟨.read, "b/c", none⟩, ⟨.ensureDirectory, "b", none⟩,
            ⟨.write, "b/c", none⟩,
            ⟨.append, "b/c", some (.io ⟨"b/c"⟩ (.other "denied"))⟩])) := by decide +kernel
  obtain ⟨⟨⟨reported⟩, hrun, hlines, -⟩, -⟩ := run_interrupted {}
    (Storage.actsLikeMemory_denying _ _) hreaches
    (Emission.run_emitAll_cons_of_ok hfirst rfl) hfails
  -- the texts of the lines are those of the request and of the error
  have hreported : reported = [⟨.created, some .model, "a", none⟩,
      ⟨.failed, none, "post", some "I/O error on b/c: denied"⟩] :=
    hlines.trans (by decide +kernel)
  rw [← hreported]
  exact hrun

end Generator

end Scaffold
