import Scaffold.Proofs.Generation.Delivery
import Scaffold.Proofs.Registry

/-!
# Saving and loading a registry

On a project in memory a registry can always be saved, and its file is the one that changes
(`exec_save`). Main statement: what was saved is loaded again, name by name in the same order,
whatever the names are and whatever the project was like before (`load_save`). That the text of the
file reads as the names is `Json.decode_encode`; here it meets the rest of the way, the line feed
behind the text and the files that are taken for empty because they are blank.
-/

namespace Scaffold.Registry

/-- Loading reads the file and changes nothing. -/
theorem exec_load (memory : Memory) (path : Path) :
    memory.exec (load Memory.storage path) = (ofContent (memory.file? path), memory) := by
  unfold load
  rw [Memory.exec_bind_ok (Memory.exec_read memory path)]
  rfl

/-- Saving places the text of the registry at its path. -/
theorem exec_save (registry : Registry) (memory : Memory) (path : Path) :
    memory.exec (registry.save Memory.storage path) =
      (.ok (), memory.place path registry.toContent) := by
  unfold save
  rw [Memory.exec_bind_ok (Memory.exec_ensureParent memory path), Memory.exec_write]
  rfl

/-- A registry can be saved anywhere on any project in memory. The file is a JSON array of its
names, no other file changes, and loading it gives the registry again. -/
theorem load_save (registry : Registry) (memory : Memory) (path : Path) :
    ∃ after, memory.exec (registry.save Memory.storage path) = (.ok (), after) ∧
      memory.Wrote path registry.toContent after ∧
      Json.decode registry.toContent = some registry.names ∧
      after.exec (load Memory.storage path) = (.ok registry, after) := by
  have hwrote := Memory.Wrote.place memory path registry.toContent
  refine ⟨_, exec_save registry memory path, hwrote, Json.decode_encode_newline registry.names, ?_⟩
  have hcontent : (memory.place path registry.toContent).file? path = some registry.toContent := by
    rw [hwrote.file?, if_pos (Path.same_refl path)]
  rw [exec_load, hcontent, ofContent_toContent]

/-- Names of any characters are loaded as they were saved. -/
example : ofContent (some (toContent ⟨["", "a\"b\\", "é\n\x00\x1f\x7f"]⟩)) =
    .ok ⟨["", "a\"b\\", "é\n\x00\x1f\x7f"]⟩ := by decide +kernel

end Scaffold.Registry
