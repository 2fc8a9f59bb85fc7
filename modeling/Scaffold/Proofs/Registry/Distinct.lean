import Mathlib.Data.List.Nodup
import Scaffold.Proofs.Registry.Saving

/-!
# Names that are in a registry twice

Recording a name keeps what was recorded before and never repeats it, and the answer tells whether
the name was new (`fst_add_iff`, `isPrefix_add`, `nodup_add_iff`). A file may list a name twice,
though, and it is loaded as it is (`exec_load_posts`). Main statement: a registry that comes from a
file, or from nothing, by recording has a name twice exactly if it had one twice at the start
(`nodup_iff_of_obtained`).
-/

namespace Scaffold.Registry

variable {registry : Registry} {name : String} {start : List String}

/-! ## Recording a name -/

/-- A name is new exactly if it was not recorded. -/
theorem fst_add_iff : (registry.add name).1 = true ↔ name ∉ registry.names := by
  rw [add_eq, Bool.not_eq_true', ← Bool.not_eq_true, contains_iff]

/-- A new name goes to the end, and a known one changes nothing. -/
theorem names_add (registry : Registry) (name : String) :
    (registry.add name).2.names =
      if name ∈ registry.names then registry.names else registry.names ++ [name] := by
  unfold add
  simp only [contains_iff]
  split_ifs <;> rfl

/-- The names from before stay where they are. -/
theorem isPrefix_add (registry : Registry) (name : String) :
    registry.names <+: (registry.add name).2.names := by
  rw [names_add]
  split_ifs
  · exact List.prefix_rfl
  · exact List.prefix_append _ _

/-- Recording repeats no name and takes no repetition back. -/
theorem nodup_add_iff : (registry.add name).2.names.Nodup ↔ registry.names.Nodup := by
  rw [names_add]
  split_ifs with hthere
  · exact Iff.rfl
  · rw [(List.perm_append_singleton name registry.names).nodup_iff, List.nodup_cons]
    exact and_iff_right hthere

/-! ## Histories -/

/-- The registry was made or loaded with the names `start`, and what was recorded since is behind
them. -/
inductive Obtained : List String → Registry → Prop where
  /-- It is a new one. -/
  | new : Obtained [] {}
  /-- It was loaded from a file of a project in memory. -/
  | load {registry : Registry} {memory : Memory} {path : Path}
      (h : (memory.exec (load Memory.storage path)).1 = .ok registry) :
      Obtained registry.names registry
  /-- A name was recorded. -/
  | add {start : List String} {registry : Registry} (h : Obtained start registry) (name : String) :
      Obtained start (registry.add name).2

namespace Obtained

/-- The names a registry started with stay at its front. -/
theorem isPrefix (h : Obtained start registry) : start <+: registry.names := by
  induction h with
  | new => exact List.prefix_rfl
  | load => exact List.prefix_rfl
  | add _ name ih => exact ih.trans (isPrefix_add _ name)

/-- Recording neither makes nor removes repetitions. -/
theorem nodup_iff (h : Obtained start registry) : registry.names.Nodup ↔ start.Nodup := by
  induction h with
  | new => exact Iff.rfl
  | load => exact Iff.rfl
  | add _ name ih => exact nodup_add_iff.trans ih

end Obtained

/-- A registry that was made or loaded, and to which names were recorded since, is free of
repetitions exactly if it was so at the start. Whatever it holds, recording one more name keeps its
names in front, and the answer is that the name is new exactly if the registry does not hold it. -/
theorem nodup_iff_of_obtained (h : Obtained start registry) :
    (registry.names.Nodup ↔ start.Nodup) ∧ start <+: registry.names ∧
      ∀ name, registry.names <+: (registry.add name).2.names ∧
        ((registry.add name).1 = true ↔ name ∉ registry.names) :=
  ⟨h.nodup_iff, h.isPrefix, fun name => ⟨isPrefix_add registry name, fst_add_iff⟩⟩

/-- From a file with two names, two more records, one of them of a known name, make three. -/
theorem nodup_iff_of_obtained_posts :
    ∃ registry, Obtained ["Post", "Tag"] registry ∧ registry.names = ["Post", "Tag", "Blog"] ∧
      registry.names.Nodup ∧ ["Post", "Tag"] <+: registry.names ∧
      (registry.add "Tag").1 = false := by
  have hload : (Memory.exec
      { files := [(⟨"storage/crud_models.json"⟩, "[\"Post\", \"Tag\"]")] }
      (load Memory.storage ⟨"storage/crud_models.json"⟩)).1 = .ok ⟨["Post", "Tag"]⟩ := by
    rw [exec_load]
    decide +kernel
  have hobtained := ((Obtained.load hload).add "Tag").add "Blog"
  obtain ⟨hnodup, hprefix, hanswer⟩ := nodup_iff_of_obtained hobtained
  refine ⟨_, hobtained, by decide, hnodup.mpr (by decide), hprefix, ?_⟩
  rw [← Bool.not_eq_true, (hanswer "Tag").2]
  decide

/-- A file that lists a name twice is loaded with the name twice. -/
theorem exec_load_posts :
    let memory : Memory :=
      { files := [(⟨"storage/crud_models.json"⟩, "[\"Post\", \"Post\"]")] }
    memory.exec (load Memory.storage ⟨"storage/crud_models.json"⟩) =
        (.ok ⟨["Post", "Post"]⟩, memory) ∧
      ¬["Post", "Post"].Nodup := by
  intro memory
  refine ⟨?_, by decide⟩
  rw [exec_load]
  decide +kernel

end Scaffold.Registry
