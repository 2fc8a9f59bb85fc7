import Scaffold.Proofs.Generation.MigrationFile
import Scaffold.Proofs.Generation.Repetition
import Scaffold.Proofs.Template.Routes

/-!
# Where the outputs go

Route files and the layout are shared, every other file is written as a whole. A configuration could
make the two meet; `KeepsApart` says that it does not, for given artifacts. Under the default
configuration nothing ever meets (`keepsApart_default`), and migrations have their directory to
themselves (`same_migration_eq_false`).
-/

namespace Scaffold

namespace Template

variable {config : Config} {data : ArtifactData} {output : Output} {artifacts : List Artifact}

/-! ## The places of one artifact -/

/-- An output that is no whole file belongs to a route file or to the layout. -/
theorem mem_outputs_of_isFile_eq_false (h : output ∈ outputs config data)
    (hfile : output.isFile = false) :
    (∃ routes, data = .routes routes ∧
        (output = .lines config.paths.webRoutes (webRouteLines routes) ∨
          output = .lines config.paths.apiRoutes (apiRouteLines config.apiMiddleware routes))) ∨
      ∃ layout, data = .layout layout ∧
        output = .starter config.paths.layout (layoutText layout) := by
  cases data with
  | routes routes => exact Or.inl ⟨routes, rfl, List.mem_pair.mp h⟩
  | layout layout => exact Or.inr ⟨layout, rfl, List.mem_singleton.mp h⟩
  | views views =>
    obtain ⟨page, -, rfl⟩ := List.mem_map.mp h
    exact Bool.noConfusion hfile
  | _ =>
    rw [List.mem_singleton.mp h] at hfile
    exact Bool.noConfusion hfile

/-- A whole file is a class, a migration or a page. -/
theorem mem_outputs_file {path : Path} {content : String}
    (h : .file path content ∈ outputs config data) :
    (∃ directory ∈ [config.paths.models, config.paths.requests, config.paths.apiControllers,
        config.paths.webControllers], ∃ name, path = directory.child name) ∨
      (∃ migration, data = .migration migration ∧
        path = config.paths.migrations.child (migration.fileStem ++ ".php")) ∨
      ∃ directory : Path, ∃ page : ViewPage,
        path = directory.child (page.fileName ++ ".blade.php") := by
  cases data with
  | model model =>
    obtain ⟨rfl, -⟩ := Output.file.inj (List.mem_singleton.mp h)
    exact Or.inl ⟨_, by simp, _, rfl⟩
  | formRequest request =>
    obtain ⟨rfl, -⟩ := Output.file.inj (List.mem_singleton.mp h)
    exact Or.inl ⟨_, by simp, _, rfl⟩
  | apiController controller =>
    obtain ⟨rfl, -⟩ := Output.file.inj (List.mem_singleton.mp h)
    exact Or.inl ⟨_, by simp, _, rfl⟩
  | webController controller =>
    obtain ⟨rfl, -⟩ := Output.file.inj (List.mem_singleton.mp h)
    exact Or.inl ⟨_, by simp, _, rfl⟩
  | migration migration =>
    obtain ⟨rfl, -⟩ := Output.file.inj (List.mem_singleton.mp h)
    exact Or.inr (Or.inl ⟨migration, rfl, rfl⟩)
  | views views =>
    obtain ⟨page, -, heq⟩ := List.mem_map.mp h
    obtain ⟨rfl, -⟩ := Output.file.inj heq
    exact Or.inr (Or.inr ⟨_, page, rfl⟩)
  | routes routes =>
    rcases List.mem_pair.mp h with heq | heq
    · cases heq
    · cases heq
  | layout layout =>
    cases List.mem_singleton.mp h

/-! ## Shared files and whole files -/

/-- No file that is written as a whole is the layout or a route file. -/
def KeepsApart (config : Config) (artifacts : List Artifact) : Prop :=
  ∀ artifact ∈ artifacts, ∀ path content, .file path content ∈ outputs config artifact.data →
    path.same config.paths.layout = false ∧ path.same config.paths.webRoutes = false ∧
      path.same config.paths.apiRoutes = false

/-- A whole file and a shared file are different files. -/
theorem KeepsApart.same_eq_false (h : KeepsApart config artifacts) {other : Output}
    (houtput : output ∈ allOutputs config artifacts) (hother : other ∈ allOutputs config artifacts)
    (hfile : output.isFile = true) (hshared : other.isFile = false) :
    output.path.same other.path = false := by
  obtain ⟨artifact, hartifact, hout⟩ := List.mem_flatMap.mp houtput
  obtain ⟨source, -, hmem⟩ := List.mem_flatMap.mp hother
  obtain ⟨path, content, rfl⟩ := Output.exists_eq_file hfile
  obtain ⟨hlayout, hweb, hapi⟩ := h artifact hartifact path content hout
  rcases mem_outputs_of_isFile_eq_false hmem hshared with ⟨routes, -, rfl | rfl⟩ | ⟨layout, -, rfl⟩
  · exact hweb
  · exact hapi
  · exact hlayout

/-- Where classes keep clear of the route files and the layout, so do the outputs of all sorts. -/
theorem KeepsApart.sortsApart (h : KeepsApart config artifacts) :
    SortsApart (allOutputs config artifacts) := by
  intro output houtput other hother hsame
  cases hfile : output.isFile <;> cases hshared : other.isFile
  · rfl
  · have hapart := h.same_eq_false hother houtput hshared hfile
    rw [Path.same_comm, hsame] at hapart
    exact Bool.noConfusion hapart
  · have hapart := h.same_eq_false houtput hother hfile hshared
    rw [hsame] at hapart
    exact Bool.noConfusion hapart
  · rfl

/-! ## The default configuration -/

/-- The name of a page is that of a file. -/
theorem isFileName_page (page : ViewPage) : Path.IsFileName (page.fileName ++ ".blade.php") := by
  cases page <;> exact ⟨by decide, by decide, by decide⟩

/-- Two paths that start differently are different. -/
theorem same_eq_false_of_head? {p q : Path} (h : p.components.head? ≠ q.components.head?) :
    p.same q = false := by
  rw [Bool.eq_false_iff]
  intro hsame
  exact h (congrArg List.head? (Path.same_iff.mp hsame))

/-- Two paths that end differently are different. -/
theorem same_eq_false_of_getLast? {p q : Path} (h : p.components.getLast? ≠ q.components.getLast?) :
    p.same q = false := by
  rw [Bool.eq_false_iff]
  intro hsame
  exact h (congrArg List.getLast? (Path.same_iff.mp hsame))

/-- It is the last component of the path of the page. -/
theorem getLast?_components_page (directory : Path) (page : ViewPage) :
    (directory.child (page.fileName ++ ".blade.php")).components.getLast? =
      some (.name (page.fileName ++ ".blade.php")) := by
  rw [Path.components_child directory (isFileName_page page), List.getLast?_append]
  rfl

/-- A class is below `app`, unless its name leads to the root. -/
theorem head?_components_class {directory : Path}
    (h : directory ∈ [({} : Paths).models, ({} : Paths).requests, ({} : Paths).apiControllers,
      ({} : Paths).webControllers]) (name : String) :
    (directory.child name).components.head? ∈ [some (.name "app"), some .root] := by
  have hclasses : ∀ directory ∈ [({} : Paths).models, ({} : Paths).requests,
      ({} : Paths).apiControllers, ({} : Paths).webControllers],
      directory.text ≠ "" ∧ directory.components.head? = some (.name "app") := by decide
  obtain ⟨hne, happ⟩ := hclasses directory h
  rw [← happ]
  rcases Path.head?_components_child hne name with hhead | hhead
  · rw [hhead]
    exact List.mem_cons_self
  · rw [hhead]
    exact List.mem_cons_of_mem _ (List.mem_singleton_self _)

/-- A migration is below `database`, unless its name leads to the root. -/
theorem head?_components_migration (name : String) :
    (({} : Paths).migrations.child name).components.head? ∈
      [some (.name "database"), some .root] := by
  rcases Path.head?_components_child (p := ({} : Paths).migrations) (by decide) name
    with hhead | hhead
  · rw [hhead]
    decide
  · rw [hhead]
    decide

/-- Under the default configuration whole files never meet shared ones. -/
theorem keepsApart_default (artifacts : List Artifact) : KeepsApart {} artifacts := by
  have hhead : ∀ path : Path,
      path.components.head? ∈ [some (.name "app"), some (.name "database"), some .root] →
      path.same ({} : Paths).layout = false ∧ path.same ({} : Paths).webRoutes = false ∧
        path.same ({} : Paths).apiRoutes = false := by
    intro path hmem
    refine ⟨same_eq_false_of_head? ?_, same_eq_false_of_head? ?_, same_eq_false_of_head? ?_⟩ <;>
      · intro heq
        rw [heq] at hmem
        exact absurd hmem (by decide)
  intro artifact _ path content h
  rcases mem_outputs_file h with ⟨directory, hdirectory, name, rfl⟩ | ⟨migration, -, rfl⟩ |
    ⟨directory, page, rfl⟩
  · have happ : [some (.name "app"), some .root] ⊆
        [some (.name "app"), some (.name "database"), some Path.Component.root] := by decide
    exact hhead _ (happ (head?_components_class hdirectory name))
  · have hdatabase : [some (.name "database"), some .root] ⊆
        [some (.name "app"), some (.name "database"), some Path.Component.root] := by decide
    exact hhead _ (hdatabase (head?_components_migration (migration.fileStem ++ ".php")))
  · have hlast := getLast?_components_page directory page
    refine ⟨same_eq_false_of_getLast? ?_, same_eq_false_of_getLast? ?_,
        same_eq_false_of_getLast? ?_⟩ <;>
      · rw [hlast]
        cases page <;> decide

/-- Under the default configuration only migrations are files of their directory with an underscore
in their names. -/
theorem same_child_migrations_eq_false {name : String} (hname : Path.IsFileName name)
    (hunderscore : '_' ∈ name.toList) (h : output ∈ outputs {} data)
    (hnone : Plan.tableOf? data = none) :
    output.path.same (({} : Paths).migrations.child name) = false := by
  have hcomponents := Path.components_child ({} : Paths).migrations hname
  have hhead : ∀ path : Path, path.components.head? ≠ some (.name "database") →
      path.same (({} : Paths).migrations.child name) = false := by
    intro path hne
    apply same_eq_false_of_head?
    rw [hcomponents]
    exact hne
  cases hfile : output.isFile with
  | false =>
    rcases mem_outputs_of_isFile_eq_false h hfile with ⟨routes, -, rfl | rfl⟩ | ⟨layout, -, rfl⟩
    · rw [Output.path_lines]
      exact hhead _ (by decide)
    · rw [Output.path_lines]
      exact hhead _ (by decide)
    · rw [Output.path_starter]
      exact hhead _ (by decide)
  | true =>
    obtain ⟨path, content, rfl⟩ := Output.exists_eq_file hfile
    rcases mem_outputs_file h with ⟨directory, hdirectory, class_, rfl⟩ | ⟨migration, rfl, -⟩ |
      ⟨directory, page, rfl⟩
    · apply hhead
      intro heq
      have hclass := head?_components_class hdirectory class_
      rw [Output.path_file] at heq
      rw [heq] at hclass
      exact absurd hclass (by decide)
    · cases hnone
    · -- the name of a page has no underscore in it
      apply same_eq_false_of_getLast?
      rw [Output.path_file, getLast?_components_page, hcomponents, List.getLast?_append]
      intro heq
      have hpage : page.fileName ++ ".blade.php" = name := by simpa using heq
      rw [← hpage] at hunderscore
      cases page <;> exact absurd hunderscore (by decide)

/-- Under the default configuration nothing but a migration goes to the file of a migration. -/
theorem same_migration_eq_false {entity : Entity} (timestamp : Timestamp)
    (hslash : '/' ∉ entity.table.toList) (h : output ∈ outputs {} data)
    (hnone : Plan.tableOf? data = none) :
    output.path.same (({} : Paths).migrations.child (entity.migrationFile timestamp)) = false := by
  rw [entity.migrationFile_eq]
  exact same_child_migrations_eq_false (isFileName_migrationName timestamp hslash)
    (underscore_mem_migrationName timestamp) h hnone

end Template

end Scaffold
