import Scaffold.Proofs.Generation.Fitting

/-!
# A project in memory stands for one in files

The same runs are made on the files below a directory that is empty at first, and on an empty
project in memory. Main statement: as long as what is rendered fits into a directory, all runs come
to the same, and in the end there are the same files (`runTurns_inFiles`).

It is not enough that files can have all the names in the paths; each other condition on what is
rendered is needed as well. Where an output lies below a file that the same run has written, the run
fails on a file system (`exists_run_below`), but not in memory (`runTurns_inFiles_nested`). A
directory among the migrations is taken for a migration there (`exists_run_of_directory`), but not
in memory (`runTurns_inFiles_directory`). And where the path of the directory leaves no room for
the first output, nothing can be written (`exists_run_of_long`, `runTurns_inFiles_long`).
-/

namespace Scaffold

open Scaffold.Path Scaffold.Tree

namespace Generator

/-! ## Runs on a directory tree -/

section files

variable {config : Config} {tree : Tree} {root : Path} {place : List String}
  {outcomes : List (Report × Except Error Generated)} {memory memory' : Memory}
  {rendered : List Path} {names : List String} {turn : Turn} {description : Description}

/-- A project in memory stands for one in files: on a directory that is empty at first all runs come
to what they come to on an empty project in memory, with the same reports, plans, registries and
errors, and in the end there are the same files with the same contents, as long as everything that
is rendered fits into the directory. -/
theorem runTurns_inFiles (hpaths : config.paths = {}) (hempty : IsEmptyAt tree root place)
    (turns : List Turn) (registry : Registry)
    (h : (runTurns config Memory.storage turns registry).run
      { paths := config.paths, tables := config.existingTables } = (outcomes, memory'))
    (hfits : Fits root (renderedByAll config outcomes)) :
    ∃ tree', (runTurns config (Storage.inFiles fileSystem root config) turns registry).run tree =
        (outcomes, tree') ∧
      (tree'.filesBelow place).map (fun file => (file.1.map Component.name, file.2)) =
        memory'.files.map fun file => (file.1.components, .text file.2) := by
  have hsuits : Suits root (renderedByAll config outcomes) :=
    hfits.suits hempty.refused?_eq_none fun p hp =>
      php_suffix_of_mem_paths hpaths (renderedByAll_subset h hp)
  obtain ⟨tree', hrun, hmirrors⟩ := exists_runTurns_of_simulates
    (simulates_inFiles hsuits hfits.flat place hpaths) (hempty.mirrors config _) turns registry h
    fun _ hpath => hpath
  exact ⟨tree', hrun, hmirrors.holds.map_filesBelow⟩

/-- The item can be generated twice, in the working directory or in memory. -/
theorem runTurns_inFiles_item :
    ∃ outcomes memory',
      (runTurns {} Memory.storage [itemTurn, itemTurn] {}).run {} = (outcomes, memory') ∧
      IsEmptyAt {} ⟨"."⟩ [] ∧ Fits ⟨"."⟩ (renderedByAll {} outcomes) ∧
      ∃ tree', (runTurns {} (Storage.inFiles fileSystem ⟨"."⟩ {}) [itemTurn, itemTurn] {}).run {} =
          (outcomes, tree') ∧
        (tree'.filesBelow []).map (fun file => (file.1.map Component.name, file.2)) =
          memory'.files.map fun file => (file.1.components, .text file.2) := by
  rcases h : (runTurns {} Memory.storage [itemTurn, itemTurn] {}).run {} with ⟨outcomes, memory'⟩
  have hempty : IsEmptyAt {} ⟨"."⟩ [] := ⟨by decide, rfl, by simp⟩
  have hfits : Fits ⟨"."⟩ (renderedByAll {} outcomes) := by
    refine fits_item.mono fun path hpath => ?_
    simpa using renderedByAll_subset h hpath
  exact ⟨outcomes, memory', rfl, hempty, hfits, runTurns_inFiles rfl hempty _ {} h hfits⟩

/-! ## A file below another one -/

/-- An output below a file that was written ends the emission. -/
theorem exists_run_emitAll_below (hsuits : Suits root rendered)
    (hmirrors : Mirrors root place config rendered tree memory)
    {front : List (ArtifactKind × Output)}
    (hfront : ∀ entry ∈ front, entry.2.path ∈ rendered) {written : ArtifactKind × Output}
    (hwritten : written ∈ front) {path : Path} (hbelow : path.directory? = some written.2.path)
    (kind : ArtifactKind) (content : String) (rest : List (ArtifactKind × Output)) :
    ∃ lines tree', (Emission.emitAll (Storage.inFiles fileSystem root config) false []
        (front ++ (kind, .file path content) :: rest)).run tree =
      ((lines, .error (.io (root.join written.2.path) .alreadyThere)), tree') := by
  obtain ⟨lines, result, tree', memory', hemit, hmemory, hmirrors'⟩ :=
    (deliversAlike_inFiles hsuits place).emitAll false [] hfront hmirrors
  rw [Emission.run_emitAll] at hmemory
  cases hmemory
  obtain ⟨found, hfound⟩ := Option.isSome_iff_exists.mp
    (memory.file?_isSome_afterOutputs (List.mem_map_of_mem (f := Prod.snd) hwritten))
  have hensure := hmirrors'.perform_ensureParent_of_file? hsuits (hfront written hwritten) hfound
    hbelow
  have hdeliver : perform (Emission.deliver (Storage.inFiles fileSystem root config)
      (.file path content)) tree' =
        (.error (.io (root.join written.2.path) .alreadyThere), tree') :=
    perform_bind_error hensure
  exact ⟨_, tree', Emission.run_emitAll_append hemit (Emission.run_emitAll_cons_of_error hdeliver)⟩

/-- Where an output of a run lies below a file that the run has written before, the run fails. -/
theorem exists_run_below {plan : Plan} (hsuits : Suits root rendered) (hflat : IsFlat rendered)
    (hmirrors : Mirrors root place config rendered tree memory) (hpaths : config.paths = {})
    (hreal : turn.dryRun = false)
    (hreaches : (onStorage config Memory.storage turn.timestamp).Reaches turn.request memory
      description plan (Template.entries config plan.artifacts) memory)
    {front rest : List (ArtifactKind × Output)} {kind : ArtifactKind} {path : Path}
    {content : String}
    (hsplit : Template.entries config plan.artifacts = front ++ (kind, .file path content) :: rest)
    (hfront : ∀ entry ∈ front, entry.2.path ∈ rendered) {written : ArtifactKind × Output}
    (hwritten : written ∈ front) (hbelow : path.directory? = some written.2.path)
    (registry : Registry) :
    ∃ report tree', ((onStorage config (Storage.inFiles fileSystem root config) turn.timestamp).run
      turn.dryRun turn.request registry).run tree =
        ((report, .error (.io (root.join written.2.path) .alreadyThere)), tree') := by
  obtain ⟨planned, hreaches', hplanned⟩ :=
    exists_reaches_of_alike (guardsAlike_inFiles hsuits hflat place hpaths) hmirrors hreaches
  obtain ⟨lines, tree', hemit⟩ := exists_run_emitAll_below hsuits hplanned hfront hwritten
    hbelow kind content rest
  rw [← hsplit, ← hreal] at hemit
  exact ⟨_, tree', run_of_reaches_error hreaches' hemit registry⟩

/-- An item has many of what is named like a file in the directory `Item.php`. -/
def nestedTurn : Turn where
  request := ⟨"item", "name:string", some "Item.php/x:hasMany"⟩

/-- What is read from the request for such an item. -/
def nestedDescription : Description :=
  ⟨"Item", [⟨"name", .string⟩], [⟨"Item.php/x", .hasMany⟩], []⟩

/-- The outputs for the item itself: their paths, and which of them are whole files. -/
def itemOutputs : List (Path × Bool) :=
  [(⟨"app/Models/Item.php"⟩, true),
    (⟨"database/migrations/0000_00_00_000000_create_items_table.php"⟩, true),
    (⟨"app/Http/Requests/ItemRequest.php"⟩, true),
    (⟨"app/Http/Controllers/Api/ItemController.php"⟩, true),
    (⟨"app/Http/Controllers/ItemController.php"⟩, true),
    (⟨"routes/web.php"⟩, false), (⟨"routes/api.php"⟩, false),
    (⟨"resources/views/items/index.blade.php"⟩, true),
    (⟨"resources/views/items/create.blade.php"⟩, true),
    (⟨"resources/views/items/edit.blade.php"⟩, true),
    (⟨"resources/views/items/show.blade.php"⟩, true),
    (⟨"resources/views/layouts/app.blade.php"⟩, false)]

/-- What is computed of the first outputs says where they end and a whole file follows. -/
theorem exists_split_of_take {entries : List (ArtifactKind × Output)} {before : List (Path × Bool)}
    {path : Path} {n : Nat}
    (h : (entries.map fun entry => (entry.2.path, entry.2.isFile)).take n =
      before ++ [(path, true)]) :
    ∃ front kind content rest, entries = front ++ (kind, .file path content) :: rest ∧
      front.map (fun entry => (entry.2.path, entry.2.isFile)) = before := by
  rw [← List.map_take] at h
  obtain ⟨front, last, hsplit, hfront, hlast⟩ := List.map_eq_append_iff.mp h
  obtain ⟨⟨kind, output⟩, rfl, hentry⟩ := List.map_eq_singleton_iff.mp hlast
  obtain ⟨path, content, rfl⟩ := Output.exists_eq_file (Prod.mk.inj hentry).2
  obtain rfl := (Prod.mk.inj hentry).1
  refine ⟨front, kind, content, entries.drop n, ?_, hfront⟩
  have hall := List.take_append_drop n entries
  rw [hsplit, List.append_assoc, List.singleton_append] at hall
  exact hall.symm

/-- The outputs for the item come first, and then a model below its model. -/
theorem exists_entries_nested {plan : Plan}
    (h : Memory.exec {} (Planner.standard.plan Memory.storage nestedTurn.timestamp
      nestedDescription.root.expand) = (.ok plan, {})) :
    ∃ front kind content rest, Template.entries {} plan.artifacts =
        front ++ (kind, .file ⟨"app/Models/Item.php/x.php"⟩ content) :: rest ∧
      (∀ entry ∈ front, entry.2.path ∈ itemTurn.paths {}) ∧
      ∃ written ∈ front, written.2.path = ⟨"app/Models/Item.php"⟩ := by
  have hcomputed : ((Memory.exec {} (Planner.standard.plan Memory.storage nestedTurn.timestamp
      nestedDescription.root.expand)).1.toOption.map fun plan =>
        ((Template.entries {} plan.artifacts).map fun entry =>
          (entry.2.path, entry.2.isFile)).take 13) =
      some (itemOutputs ++ [(⟨"app/Models/Item.php/x.php"⟩, true)]) := by decide +kernel
  rw [h] at hcomputed
  obtain ⟨front, kind, content, rest, hsplit, hfront⟩ :=
    exists_split_of_take (Option.some.inj hcomputed)
  refine ⟨front, kind, content, rest, hsplit, ?_, ?_⟩
  · have hpaths : itemOutputs.map Prod.fst = itemTurn.paths {} := paths_item.symm
    intro entry hentry
    rw [← hpaths, ← hfront, List.map_map]
    exact List.mem_map_of_mem hentry
  · have hmem : (⟨"app/Models/Item.php"⟩, true) ∈ itemOutputs := List.mem_cons_self
    rw [← hfront] at hmem
    obtain ⟨written, hwritten, hpath⟩ := List.mem_map.mp hmem
    exact ⟨written, hwritten, (Prod.mk.inj hpath).1⟩

/-- In memory the item can have such a model; in files the model `Item.php` is in its way. -/
theorem runTurns_inFiles_nested :
    ∃ outcomes memory' outcomes' tree',
      (runTurns {} Memory.storage [nestedTurn] {}).run {} = (outcomes, memory') ∧
      (runTurns {} (Storage.inFiles fileSystem ⟨"."⟩ {}) [nestedTurn] {}).run {} =
        (outcomes', tree') ∧
      IsEmptyAt {} ⟨"."⟩ [] ∧
      (∀ path ∈ renderedByAll {} outcomes, ∀ component ∈ path.components, component.IsPlain) ∧
      outcomes' ≠ outcomes := by
  have hempty : IsEmptyAt {} ⟨"."⟩ [] := ⟨by decide, rfl, by simp⟩
  have hsuits : Suits ⟨"."⟩ (itemTurn.paths {}) := by
    refine fits_item.suits (by decide) fun path hpath => ?_
    rw [← List.flatMap_singleton (Turn.paths {}) itemTurn] at hpath
    exact php_suffix_of_mem_paths rfl hpath
  have hdescribe : nestedTurn.request.describe = .ok nestedDescription := by decide +kernel
  obtain ⟨plan, lines, after, -, hreaches, hemit⟩ := exists_reaches {} {} nestedTurn hdescribe
  obtain ⟨front, kind, content, rest, hsplit, hfront, written, hwritten, hpath⟩ :=
    exists_entries_nested hreaches.plans
  have hbelow : (⟨"app/Models/Item.php/x.php"⟩ : Path).directory? = some written.2.path := by
    rw [hpath]
    decide
  obtain ⟨report, tree', hfails⟩ := exists_run_below hsuits fits_item.flat (hempty.mirrors {} _) rfl
    rfl hreaches hsplit hfront hwritten hbelow {}
  have hrun := run_runTurns_singleton (run_of_reaches_ok hreaches hemit {})
  refine ⟨_, _, _, _, hrun, run_runTurns_singleton hfails, hempty, ?_, ?_⟩
  · have hplain : ∀ path ∈ [nestedTurn].flatMap (Turn.paths {}),
        ∀ segment ∈ path.segments, IsPlainSegment segment := by decide +kernel
    exact fun path hpath => isPlain_of_segments (hplain path (renderedByAll_subset hrun hpath))
  · intro heq
    cases heq

/-! ## A directory among the migrations -/

/-- The project in memory that has a migration of every name. -/
def withMigrations (config : Config) (names : List String) : Memory where
  files := names.map fun name => (({} : Paths).migrations.child name, "")
  paths := config.paths
  tables := config.existingTables

/-- What such a project finds are the names, sorted. -/
theorem artifacts_withMigrations (hpaths : config.paths = {})
    (hnames : ∀ name ∈ names, IsPlainName name) (pattern : String) :
    (withMigrations config names).artifacts .migration pattern =
      (names.filter fun name => Text.contains name pattern).mergeSort := by
  have hdirectory : (withMigrations config names).paths.directoryOf .migration =
      some ({} : Paths).migrations := by
    change config.paths.directoryOf .migration = _
    rw [hpaths]
    rfl
  have hkeys : (withMigrations config names).keys = names.map ({} : Paths).migrations.child := by
    unfold Memory.keys withMigrations
    rw [List.map_map]
    rfl
  have hlisted : (names.map ({} : Paths).migrations.child).filterMap
      (Memory.nameIn? ({} : Paths).migrations) = names := by
    rw [List.filterMap_map, List.filterMap_congr (g := some), List.filterMap_some]
    intro name hname
    have hcomponents := components_child ({} : Paths).migrations (hnames name hname).toIsFileName
    simp [Memory.nameIn?, fileName?, hcomponents]
  rw [Memory.artifacts_eq_mergeSort hdirectory, hkeys, hlisted]

/-- The guard takes what is listed among the migrations for migrations, directories included. -/
theorem guardsAlike_withMigrations (hsuits : Suits root rendered)
    (hmirrors : Mirrors root place config rendered tree memory) (hpaths : config.paths = {})
    (hthere : tree.isDirectory (root.join ({} : Paths).migrations) = true) :
    GuardsAlike
      (fun tree' memory' => tree = tree' ∧
        withMigrations config (tree.children (place ++ ["database", "migrations"])) = memory')
      (Storage.inFiles fileSystem root config) Memory.storage where
  tableExists table := Alike.of_unchanged (perform_pure _ tree) (perform_pure _ _)
  listMigrations pattern := by
    have hlist := hmirrors.perform_listArtifacts hsuits hpaths pattern
    have hplain : ∀ name ∈ tree.children (place ++ ["database", "migrations"]),
        IsPlainName name := fun name hname => hmirrors.isPlainName_of_mem_children hsuits hname
    rw [hthere, if_pos rfl, ← artifacts_withMigrations hpaths hplain pattern] at hlist
    exact Alike.of_unchanged hlist rfl

/-- A directory among the migrations that is called like the migration for a table is in the way of
that migration. -/
theorem exists_run_of_directory (hsuits : Suits root rendered)
    (hmirrors : Mirrors root place config rendered tree memory) (hpaths : config.paths = {})
    (haccepted : refused? (root.join ({} : Paths).migrations) = none) {p : Path}
    {directory name content table : String} (hp : p ∈ rendered)
    (hnames : Names p ["database", "migrations", directory] name)
    (hfile : memory.file? p = some content)
    (hcalled : Text.contains directory (Schema.logicalName table) = true)
    (hdescribe : turn.request.describe = .ok description) (registry : Registry) :
    ∃ outcome tree', ((onStorage config (Storage.inFiles fileSystem root config)
        turn.timestamp).run turn.dryRun turn.request registry).run tree = (outcome, tree') ∧
      ∀ generated, outcome.2 = .ok generated → generated.plan.plansTable table = false := by
  obtain ⟨hlisted, hnode⟩ := hmirrors.mem_children_of_file? hsuits hp hnames hfile
  have hthere : tree.isDirectory (root.join ({} : Paths).migrations) = true := by
    rw [(hmirrors.approaches_migrations hsuits haccepted).isDirectory_eq, beq_iff_eq]
    exact hnode
  obtain ⟨plan, -, -, hplans, hreaches, -⟩ := exists_reaches config (withMigrations config
    (tree.children (place ++ ["database", "migrations"]))) turn hdescribe
  obtain ⟨planned, hreaches', rfl, -⟩ := exists_reaches_of_alike
    (guardsAlike_withMigrations hsuits hmirrors hpaths hthere) ⟨rfl, rfl⟩ hreaches
  have hskipped : plan.plansTable table = false := by
    by_contra hplanned
    rw [Bool.not_eq_false] at hplanned
    obtain ⟨hfree, -⟩ := hplans.exists_of_plansTable hplanned
    refine (Memory.obstacle?_eq_none_iff.mp hfree).2 directory ?_
    rw [artifacts_withMigrations hpaths fun name hname =>
      hmirrors.isPlainName_of_mem_children hsuits hname]
    rw [List.mem_mergeSort, List.mem_filter]
    exact ⟨hlisted, hcalled⟩
  rcases hemit : (Emission.emitAll (Storage.inFiles fileSystem root config) turn.dryRun []
    (Template.entries config plan.artifacts)).run tree with ⟨⟨lines, result⟩, tree'⟩
  cases result with
  | ok done =>
    refine ⟨_, tree', run_of_reaches_ok hreaches' hemit registry, fun generated hgenerated => ?_⟩
    rw [← Except.ok.inj hgenerated]
    exact hskipped
  | error e =>
    refine ⟨_, tree', run_of_reaches_error hreaches' hemit registry, fun generated hgenerated => ?_⟩
    cases hgenerated

/-- A name that leads to a directory which is called like the migration for posts. -/
def directoryTurn : Turn where
  request := ⟨"posts_table/x", "name:string", none⟩

/-- What is read from the request for that name. -/
def directoryDescription : Description :=
  ⟨"PostsTable/x", [⟨"name", .string⟩], [], []⟩

/-- Where the migration for the name is written. -/
def directoryMigration : Path :=
  ⟨"database/migrations/0000_00_00_000000_create_posts_table/xes_table.php"⟩

/-- A post. -/
def postTurn : Turn where
  request := ⟨"post", "name:string", none⟩

/-- What is read from the request for the post. -/
def postDescription : Description :=
  ⟨"Post", [⟨"name", .string⟩], [], []⟩

/-- The paths of what is rendered for the name. They are computed here once. -/
theorem paths_directory : directoryTurn.paths {} =
    ["app/Models/PostsTable/x.php",
      "database/migrations/0000_00_00_000000_create_posts_table/xes_table.php",
      "app/Http/Requests/PostsTable/xRequest.php",
      "app/Http/Controllers/Api/PostsTable/xController.php",
      "app/Http/Controllers/PostsTable/xController.php", "routes/web.php", "routes/api.php",
      "resources/views/posts_table/xes/index.blade.php",
      "resources/views/posts_table/xes/create.blade.php",
      "resources/views/posts_table/xes/edit.blade.php",
      "resources/views/posts_table/xes/show.blade.php",
      "resources/views/layouts/app.blade.php"].map Path.mk := by decide +kernel

/-- The paths of what is rendered for the post, computed here once as well. -/
theorem paths_post : postTurn.paths {} =
    ["app/Models/Post.php", "database/migrations/0000_00_00_000000_create_posts_table.php",
      "app/Http/Requests/PostRequest.php", "app/Http/Controllers/Api/PostController.php",
      "app/Http/Controllers/PostController.php", "routes/web.php", "routes/api.php",
      "resources/views/posts/index.blade.php", "resources/views/posts/create.blade.php",
      "resources/views/posts/edit.blade.php", "resources/views/posts/show.blade.php",
      "resources/views/layouts/app.blade.php"].map Path.mk := by decide +kernel

/-- Both can be written below the working directory, one after the other. -/
theorem suits_directory : Suits ⟨"."⟩ ([directoryTurn, postTurn].flatMap (Turn.paths {})) := by
  have hpaths : [directoryTurn, postTurn].flatMap (Turn.paths {}) =
      directoryTurn.paths {} ++ postTurn.paths {} := by simp
  refine suits_of_isScriptPath ?_ ?_ (by decide) fun p hp => php_suffix_of_mem_paths rfl hp
  · rw [hpaths, paths_directory, paths_post]
    decide +kernel
  · rw [hpaths, paths_directory, paths_post]
    decide +kernel

/-- What is written for the name is in no way of a migration for posts in memory. -/
theorem obstacle?_posts_eq_none
    (h : Mirrors root place {} (directoryTurn.paths {}) tree memory) :
    memory.obstacle? "posts" = none := by
  rw [Memory.obstacle?_eq_none_iff, h.tables]
  refine ⟨List.not_mem_nil, fun name hname => ?_⟩
  obtain ⟨directory, hdirectory, key, hkey, hlies, -⟩ := Memory.mem_artifacts.mp hname
  rw [h.paths] at hdirectory
  obtain rfl : ({} : Paths).migrations = directory := Option.some.inj hdirectory
  have hnone : ∀ path ∈ directoryTurn.paths {},
      Memory.liesIn ({} : Paths).migrations path = false := by
    rw [paths_directory]
    decide +kernel
  exact Bool.false_ne_true ((hnone key (h.known key hkey)).symm.trans hlies)

/-- The migration for the name is written to the directory. -/
theorem file?_directory {plan : Plan}
    (h : ({} : Memory).Plans directoryTurn.timestamp directoryDescription.root.expand
      ArtifactKind.all plan) :
    ∃ content, (({} : Memory).afterOutputs (Template.allOutputs {} plan.artifacts)).file?
      directoryMigration = some content := by
  have hexpand : directoryDescription.root.expand = [directoryDescription.root] := by
    decide +kernel
  have hmem : directoryDescription.root ∈ directoryDescription.root.expand := by simp [hexpand]
  obtain ⟨-, entity, hentity, -, hartifact⟩ := h.exists_of_plansTable
    (h.plansTable_of_mem (by decide) hmem (Memory.obstacle?_empty _))
  rw [hexpand, List.mem_singleton] at hentity
  have houtputs : (Template.outputs {} (.migration (entity.migration directoryTurn.timestamp))).map
      Output.path = [directoryMigration] := by
    rw [hentity]
    decide +kernel
  obtain ⟨output, houtput, hpath⟩ := List.map_eq_singleton_iff.mp houtputs
  rw [← hpath]
  refine Option.isSome_iff_exists.mp (Memory.file?_isSome_afterOutputs {} ?_)
  refine List.mem_flatMap.mpr ⟨_, hartifact, ?_⟩
  rw [houtput]
  exact List.mem_singleton_self _

/-- In memory the post gets its migration; in files the directory is taken for it. -/
theorem runTurns_inFiles_directory :
    ∃ outcomes memory' outcomes' tree',
      (runTurns {} Memory.storage [directoryTurn, postTurn] {}).run {} = (outcomes, memory') ∧
      (runTurns {} (Storage.inFiles fileSystem ⟨"."⟩ {}) [directoryTurn, postTurn] {}).run {} =
        (outcomes', tree') ∧
      IsEmptyAt {} ⟨"."⟩ [] ∧ Suits ⟨"."⟩ (renderedByAll {} outcomes) ∧ outcomes' ≠ outcomes := by
  have hempty : IsEmptyAt {} ⟨"."⟩ [] := ⟨by decide, rfl, by simp⟩
  have hdescribe : directoryTurn.request.describe = .ok directoryDescription := by decide +kernel
  have hdescribe' : postTurn.request.describe = .ok postDescription := by decide +kernel
  -- the first run comes to the same
  obtain ⟨plan, -, -, hplans, hreaches, -⟩ := exists_reaches {} {} directoryTurn hdescribe
  have hemit := Emission.run_emitAll ({} : Memory) [] (Template.entries {} plan.artifacts)
  rw [Template.map_snd_entries] at hemit
  have hfirst := run_of_reaches_ok hreaches hemit {}
  have hsub : directoryTurn.paths {} ⊆ [directoryTurn, postTurn].flatMap (Turn.paths {}) := by
    intro path hpath
    exact List.mem_flatMap.mpr ⟨directoryTurn, by simp, hpath⟩
  have hsuits := suits_directory.mono hsub
  obtain ⟨tree, hfirst', hmirrors⟩ := exists_run_of_alike
    (guardsAlike_inFiles (suits_nil hempty.refused?_eq_none) isFlat_nil [] rfl)
    (deliversAlike_inFiles hsuits []) (fun _ _ h => h.mono (List.nil_subset _))
    (hempty.mirrors {} []) directoryTurn {} hfirst
    fun path hpath => renderedBy_subset hfirst hpath
  -- the second one has its migration in memory only
  obtain ⟨plan', lines', memory', hplans', hreaches', hemit'⟩ := exists_reaches {}
    (({} : Memory).afterOutputs (Template.allOutputs {} plan.artifacts)) postTurn hdescribe'
  have hsecond := run_of_reaches_ok hreaches' hemit' (Registry.record {} directoryDescription.name)
  have hplanned : plan'.plansTable "posts" = true := by
    have htable : postDescription.root.table = "posts" ∧
        postDescription.root ∈ postDescription.root.expand := by decide +kernel
    rw [← htable.1]
    refine hplans'.plansTable_of_mem (by decide) htable.2 ?_
    rw [htable.1]
    exact obstacle?_posts_eq_none hmirrors
  obtain ⟨content, hfile⟩ := file?_directory hplans
  have hp : directoryMigration ∈ directoryTurn.paths {} := by
    rw [paths_directory]
    decide +kernel
  have hnames : Names directoryMigration
      ["database", "migrations", "0000_00_00_000000_create_posts_table"] "xes_table.php" :=
    hsuits.names_of_components hp (by decide +kernel)
  have hcalled : Text.contains "0000_00_00_000000_create_posts_table"
      (Schema.logicalName "posts") = true := by decide +kernel
  obtain ⟨outcome, tree', hsecond', hskips⟩ := exists_run_of_directory hsuits hmirrors rfl
    (by decide) hp hnames hfile hcalled hdescribe' (Registry.record {} directoryDescription.name)
  have hruns := run_runTurns_cons hfirst (run_runTurns_singleton hsecond)
  refine ⟨_, _, _, _, hruns, run_runTurns_cons hfirst' (run_runTurns_singleton hsecond'), hempty,
    suits_directory.mono (renderedByAll_subset hruns), fun heq => ?_⟩
  obtain rfl : outcome = _ := List.singleton_injective (List.cons.inj heq).2
  rw [hskips _ rfl] at hplanned
  exact Bool.false_ne_true hplanned

/-! ## A path that is too long -/

/-- Where there is no room for the directory of the first output, a run fails. -/
theorem exists_run_of_long {plan : Plan} (hempty : IsEmptyAt tree root place)
    (hpaths : config.paths = {}) (hreal : turn.dryRun = false)
    (hreaches : (onStorage config Memory.storage turn.timestamp).Reaches turn.request
      { paths := config.paths, tables := config.existingTables } description plan
      (Template.entries config plan.artifacts)
      { paths := config.paths, tables := config.existingTables })
    {kind : ArtifactKind} {path directory : Path} {content : String}
    {rest : List (ArtifactKind × Output)}
    (hentries : Template.entries config plan.artifacts = (kind, .file path content) :: rest)
    (hdirectory : path.directory? = some directory) {above : List String} {name : String}
    (hnames : Names directory above name)
    (hlong : maxPathBytes ≤ (root.join directory).text.utf8ByteSize) (registry : Registry) :
    ∃ report tree', ((onStorage config (Storage.inFiles fileSystem root config) turn.timestamp).run
      turn.dryRun turn.request registry).run tree =
        ((report, .error (.io (root.join directory) .nameTooLong)), tree') := by
  have hroot := hempty.refused?_eq_none
  obtain ⟨planned, hreaches', -⟩ := exists_reaches_of_alike
    (guardsAlike_inFiles (suits_nil hroot) isFlat_nil place hpaths) (hempty.mirrors config [])
    hreaches
  have hdeliver : perform (Emission.deliver (Storage.inFiles fileSystem root config)
      (.file path content)) planned =
        (.error (.io (root.join directory) .nameTooLong), planned) :=
    perform_bind_error (perform_ensureParent_of_long hdirectory hnames hroot hlong)
  have hemit : (Emission.emitAll (Storage.inFiles fileSystem root config) turn.dryRun []
      (Template.entries config plan.artifacts)).run planned =
        (([], .error (.io (root.join directory) .nameTooLong)), planned) := by
    rw [hentries, hreal]
    exact Emission.run_emitAll_cons_of_error hdeliver
  exact ⟨_, _, run_of_reaches_error hreaches' hemit registry⟩

/-- Seen from a directory, a relative path is at least as long as both together. -/
theorem le_utf8ByteSize_join (p : Path) {q : Path} (hq : q.isAbsolute = false) :
    p.text.utf8ByteSize + q.text.utf8ByteSize ≤ (p.join q).text.utf8ByteSize := by
  unfold Path.join
  rw [hq, Bool.false_or]
  split_ifs with hempty hslash
  · simp [String.isEmpty_iff.mp hempty]
  · rw [String.utf8ByteSize_append]
  · rw [String.utf8ByteSize_append, String.utf8ByteSize_append]
    omega

/-- The root directory, written with that many slashes. -/
def slashes (n : Nat) : Path :=
  ⟨String.ofList (List.replicate n '/')⟩

/-- Every slash is one byte. -/
theorem utf8ByteSize_slashes (n : Nat) : (slashes n).text.utf8ByteSize = n := by
  unfold slashes
  rw [String.utf8ByteSize_ofList]
  induction n with
  | zero => rfl
  | succ n ih =>
    rw [List.replicate_succ, String.utf8Len_cons, ih]
    rfl

/-- Around slashes alone all segments are empty. -/
theorem segments_slashes (n : Nat) : (slashes n).segments = List.replicate (n + 1) [] := by
  have hintercalate : ['/'].intercalate (List.replicate (n + 1) []) = List.replicate n '/' := by
    induction n with
    | zero => rfl
    | succ n ih =>
      rw [List.replicate_succ] at ih
      rw [List.replicate_succ, List.replicate_succ, List.intercalate_cons_cons, ih,
        List.replicate_succ]
      rfl
  unfold slashes
  rw [← hintercalate]
  exact segments_ofSegments (by simp) (by simp)

/-- Empty segments lead nowhere from the root. -/
theorem walk_replicate_nil (n : Nat) : ({} : Tree).walk [] (List.replicate n []) = .ok [] := by
  induction n with
  | zero => rfl
  | succ n ih => exact ih

/-- It is the root directory if the path is not too long. -/
theorem isEmptyAt_slashes {n : Nat} (hpos : 0 < n) (hshort : n < maxPathBytes) :
    IsEmptyAt {} (slashes n) [] where
  found := by
    have hrefused : refused? (slashes n) = none := by
      rw [refused?_eq_none_iff, utf8ByteSize_slashes]
      refine ⟨?_, ?_, hshort⟩
      · simp [slashes]
      · intro hnone
        have hsize := utf8ByteSize_slashes n
        rw [hnone] at hsize
        exact Nat.ne_of_lt hpos hsize
    unfold find
    rw [hrefused, segments_slashes]
    exact walk_replicate_nil (n + 1)
  directory := rfl
  empty _ hentry := absurd hentry List.not_mem_nil

/-- The model comes first for the item. -/
theorem exists_entries_item {plan : Plan}
    (h : Memory.exec {} (Planner.standard.plan Memory.storage itemTurn.timestamp
      (Description.root ⟨"Item", [⟨"name", .string⟩], [], []⟩).expand) = (.ok plan, {})) :
    ∃ kind content rest, Template.entries {} plan.artifacts =
      (kind, .file ⟨"app/Models/Item.php"⟩ content) :: rest := by
  have hcomputed : ((Memory.exec {} (Planner.standard.plan Memory.storage itemTurn.timestamp
      (Description.root ⟨"Item", [⟨"name", .string⟩], [], []⟩).expand)).1.toOption.map fun plan =>
        ((Template.entries {} plan.artifacts).map fun entry =>
          (entry.2.path, entry.2.isFile)).take 1) =
      some ([] ++ [(⟨"app/Models/Item.php"⟩, true)]) := by decide +kernel
  rw [h] at hcomputed
  obtain ⟨front, kind, content, rest, hsplit, hfront⟩ :=
    exists_split_of_take (Option.some.inj hcomputed)
  obtain rfl := List.map_eq_nil_iff.mp hfront
  exact ⟨kind, content, rest, hsplit⟩

/-- The item fits into the working directory. Where the path of the directory leaves no room for the
directories in it, the item can be generated in memory only. -/
theorem runTurns_inFiles_long :
    ∃ root outcomes memory' outcomes' tree',
      (runTurns {} Memory.storage [itemTurn] {}).run {} = (outcomes, memory') ∧
      (runTurns {} (Storage.inFiles fileSystem root {}) [itemTurn] {}).run {} = (outcomes', tree') ∧
      IsEmptyAt {} root [] ∧ Fits ⟨"."⟩ (renderedByAll {} outcomes) ∧ outcomes' ≠ outcomes := by
  have hempty : IsEmptyAt {} (slashes 4090) [] := isEmptyAt_slashes (by decide) (by decide)
  have hdescribe : itemTurn.request.describe = .ok ⟨"Item", [⟨"name", .string⟩], [], []⟩ := by
    decide +kernel
  have hnames : Names ⟨"app/Models"⟩ ["app"] "Models" :=
    ⟨by decide, by decide, ["app".toList], by decide, rfl⟩
  have hlong : maxPathBytes ≤ ((slashes 4090).join ⟨"app/Models"⟩).text.utf8ByteSize := by
    refine le_trans ?_ (le_utf8ByteSize_join (slashes 4090) hnames.isAbsolute_eq_false)
    rw [utf8ByteSize_slashes]
    decide
  obtain ⟨plan, lines, after, -, hreaches, hemit⟩ := exists_reaches {} {} itemTurn hdescribe
  obtain ⟨kind, content, rest, hentries⟩ := exists_entries_item hreaches.plans
  obtain ⟨report, tree', hfails⟩ := exists_run_of_long hempty rfl rfl hreaches hentries (by decide)
    hnames hlong {}
  have hrun := run_runTurns_singleton (run_of_reaches_ok hreaches hemit {})
  refine ⟨slashes 4090, _, _, _, _, hrun, run_runTurns_singleton hfails, hempty, ?_, ?_⟩
  · refine fits_item.mono fun path hpath => ?_
    simpa using renderedByAll_subset hrun hpath
  · intro heq
    cases heq

end files

end Generator

end Scaffold
