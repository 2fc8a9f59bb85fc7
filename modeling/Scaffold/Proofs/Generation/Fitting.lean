import Scaffold.Proofs.FileSystem.Storing
import Scaffold.Proofs.Generation.Containment
import Scaffold.Proofs.Generation.Overwriting
import Scaffold.Proofs.Generation.Turns

/-!
# What fits into a directory

Under the default configuration everything that is rendered is a script (`php_suffix_path`), so that
paths that fit into a directory can be used there (`Fits.suits`).

Only where a name has a slash in it may one file lie below another. Where the names of entities can
be those of files and directories, all scripts are directly in one of a few directories or are pages
(`isPlaced_of_mem_paths`). Main statement: such scripts fit into a directory in which there is room
for them (`fits_of_namesFiles`).
-/

namespace Scaffold

open Scaffold.Path Scaffold.Tree

/-! ## The paths of outputs -/

/-- A text ends in what was put at its end. -/
theorem suffix_toList_append (front back : String) : back.toList <:+ (front ++ back).toList := by
  rw [String.toList_append]
  exact List.suffix_append _ _

/-- The path of a file ends in its name. -/
theorem suffix_text_child (directory : Path) (name : String) :
    name.toList <:+ (directory.child name).text.toList := by
  unfold Path.child Path.join
  split_ifs
  · exact List.suffix_rfl
  · exact suffix_toList_append _ _
  · exact suffix_toList_append _ _

namespace Template

variable {config : Config} {data : ArtifactData} {output : Output}

/-- Under the default places everything is a script. -/
theorem php_suffix_path (hpaths : config.paths = {}) (h : output ∈ outputs config data) :
    ".php".toList <:+ output.path.text.toList := by
  have hchild : ∀ (directory : Path) (name : String),
      ".php".toList <:+ (directory.child (name ++ ".php")).text.toList := by
    intro directory name
    exact (suffix_toList_append name ".php").trans (suffix_text_child directory (name ++ ".php"))
  cases data with
  | routes routes =>
    rcases List.mem_pair.mp h with rfl | rfl
    · rw [Output.path_lines, hpaths]
      decide
    · rw [Output.path_lines, hpaths]
      decide
  | layout layout =>
    rw [List.mem_singleton.mp h, Output.path_starter, hpaths]
    decide
  | views views =>
    obtain ⟨page, -, rfl⟩ := List.mem_map.mp h
    have hpage := hchild (config.paths.views.child views.resource) (page.fileName ++ ".blade")
    rw [String.append_assoc] at hpage
    exact hpage
  | _ =>
    rw [List.mem_singleton.mp h]
    exact hchild _ _

end Template

/-- Paths of scripts can be used in a directory if files can have their names, if none lies below
another, and if there is room for them. -/
theorem suits_of_php {root : Path} {rendered : List Path}
    (hplain : ∀ p ∈ rendered, ∀ component ∈ p.components, component.IsPlain)
    (hapart : ∀ p ∈ rendered, ∀ q ∈ rendered, p.components <+: q.components →
      p.components = q.components)
    (hroom : ∀ p ∈ rendered, (root.join p).text.utf8ByteSize < maxPathBytes)
    (hroot : refused? root = none) (hends : ∀ p ∈ rendered, ".php".toList <:+ p.text.toList) :
    Suits root rendered where
  plain := hplain
  apart := hapart
  room := hroom
  accepted := hroot
  ends p hp := by
    obtain ⟨front, htext⟩ := hends p hp
    exact ⟨front, ".php".toList, htext.symm, Template.isOrdinary_php⟩
  spares p hp hunder := by
    obtain ⟨names, hcomponents, -⟩ := exists_map_name (hplain p hp)
    obtain ⟨front, htext⟩ := hends p hp
    obtain ⟨above, name, rfl, hgoes⟩ :=
      goesDown_of_components hcomponents htext.symm Template.isOrdinary_php
    have hname : name ∈ ["database", "migrations"] := by
      have hmem : Component.name name ∈ ({} : Paths).migrations.components :=
        hunder.subset (by simp [hcomponents])
      rw [names_migrations.components] at hmem
      obtain ⟨other, hother, heq⟩ := List.mem_map.mp hmem
      rwa [← Component.name.inj heq]
    -- a script has another ending than these
    obtain ⟨before, hbefore⟩ := hgoes.suffix_text
    rw [← htext] at hbefore
    have hlast := congrArg List.getLast? hbefore
    rw [List.getLast?_append, List.getLast?_append] at hlast
    rcases List.mem_pair.mp hname with rfl | rfl
    · simp at hlast
    · simp at hlast

/-- Paths of scripts that fit into a directory can be used there. -/
theorem Fits.suits {root : Path} {rendered : List Path} (h : Fits root rendered)
    (hroot : refused? root = none) (hends : ∀ p ∈ rendered, ".php".toList <:+ p.text.toList) :
    Suits root rendered :=
  suits_of_php h.plain h.apart h.room hroot hends

/-- The path is that of a script in directories that are not called like scripts. -/
structure IsScriptPath (p : Path) : Prop where
  /-- Every segment is a name that a file can have. -/
  plain : ∀ segment ∈ p.segments, IsPlainSegment segment
  /-- The last one is called like a script. -/
  last : p.segments.getLast?.any (".php".toList.isSuffixOf ·) = true
  /-- The others are not. -/
  above : p.segments.dropLast.any (".php".toList.isSuffixOf ·) = false

instance : DecidablePred IsScriptPath := fun p =>
  decidable_of_iff
    ((∀ segment ∈ p.segments, IsPlainSegment segment) ∧
      p.segments.getLast?.any (".php".toList.isSuffixOf ·) = true ∧
      p.segments.dropLast.any (".php".toList.isSuffixOf ·) = false)
    ⟨fun ⟨hplain, hlast, habove⟩ => ⟨hplain, hlast, habove⟩,
      fun h => ⟨h.plain, h.last, h.above⟩⟩

/-- No script lies below another one then. -/
theorem IsScriptPath.eq_of_isPrefix {p q : Path} (hp : IsScriptPath p) (hq : IsScriptPath q)
    (h : p.components <+: q.components) : p.components = q.components := by
  rw [components_of_segments hp.plain, components_of_segments hq.plain] at h ⊢
  have hinjective : Function.Injective fun segment : List Char =>
      Component.name (String.ofList segment) := by
    intro first second heq
    exact String.ofList_injective (Component.name.inj heq)
  rw [List.prefix_map_iff_of_injective hinjective] at h
  obtain ⟨script, hscript⟩ := Option.isSome_iff_exists.mp (Option.isSome_of_any hp.last)
  obtain ⟨other, hother⟩ := Option.isSome_iff_exists.mp (Option.isSome_of_any hq.last)
  have hlast := hp.last
  have habove := hq.above
  rw [hscript, Option.any_some] at hlast
  rw [List.any_eq_false] at habove
  rw [← List.dropLast_append_getLast? other hother, List.prefix_concat_iff] at h
  rcases h with h | h
  · rw [h, List.dropLast_append_getLast? other hother]
  · -- the script would be one of the directories
    exact absurd hlast (habove script (h.subset (List.mem_of_getLast? hscript)))

/-- Such scripts can be used in a directory in which there is room for them. -/
theorem suits_of_isScriptPath {root : Path} {rendered : List Path}
    (h : ∀ p ∈ rendered, IsScriptPath p)
    (hroom : ∀ p ∈ rendered, (root.join p).text.utf8ByteSize < maxPathBytes)
    (hroot : refused? root = none) (hends : ∀ p ∈ rendered, ".php".toList <:+ p.text.toList) :
    Suits root rendered :=
  suits_of_php (fun p hp => isPlain_of_segments (h p hp).plain)
    (fun p hp q hq => (h p hp).eq_of_isPrefix (h q hq)) hroom hroot hends

/-! ## Places -/

/-- The directories that hold scripts directly. -/
def scriptDirectories : List Path :=
  [({} : Paths).models, ({} : Paths).migrations, ({} : Paths).requests, ({} : Paths).webControllers,
    ({} : Paths).apiControllers, ⟨"routes"⟩]

/-- The component is called like a script. -/
def Path.Component.isScript : Component → Bool
  | .name text => ".php".toList.isSuffixOf text.toList
  | .root | .here | .up => false

/-- What has the ending is called like a script. -/
theorem isScript_append_php (stem : String) :
    (Component.name (stem ++ ".php")).isScript = true := by
  unfold Component.isScript
  rw [List.isSuffixOf_iff_suffix]
  exact suffix_toList_append stem ".php"

/-- These are the components of a script that is directly in one of the directories, or in one of
pages. -/
inductive IsPlaced : List Component → Prop
  /-- A script in one of the directories. -/
  | inDirectory {directory : Path} {last : Component} (hdirectory : directory ∈ scriptDirectories)
      (hlast : last.isScript = true) : IsPlaced (directory.components ++ [last])
  /-- A page of a resource. -/
  | page {resource last : Component} (hlast : last.isScript = true) :
      IsPlaced (({} : Paths).views.components ++ [resource, last])

/-- The directories are not called like scripts. -/
theorem isScript_eq_false {directory : Path} {component : Component}
    (hdirectory : directory ∈ ({} : Paths).views :: scriptDirectories)
    (hmem : component ∈ directory.components) : component.isScript = false := by
  have hall : ∀ directory ∈ ({} : Paths).views :: scriptDirectories,
      ∀ component ∈ directory.components, component.isScript = false := by decide
  exact hall directory hdirectory component hmem

/-- No such script lies below another one. -/
theorem IsPlaced.eq_of_isPrefix {first second : List Component} (hfirst : IsPlaced first)
    (hsecond : IsPlaced second) (h : first <+: second) : first = second := by
  cases hfirst with
  | @inDirectory directory last hdirectory hlast =>
    -- the script is none of the directories above the other one
    have hnone : ∀ other ∈ ({} : Paths).views :: scriptDirectories,
        ¬directory.components ++ [last] <+: other.components := by
      intro other hother hunder
      rw [isScript_eq_false hother (hunder.subset (by simp))] at hlast
      cases hlast
    cases hsecond with
    | inDirectory hother _ =>
      exact (List.prefix_concat_iff.mp h).resolve_right (hnone _ (List.mem_cons_of_mem _ hother))
    | @page resource other _ =>
      have hpage : ({} : Paths).views.components ++ [resource, other] =
          ({} : Paths).views.components ++ [resource] ++ [other] := by simp
      rw [hpage] at h ⊢
      refine (List.prefix_concat_iff.mp h).resolve_right fun habove => ?_
      rcases List.prefix_concat_iff.mp habove with heq | hunder
      · have hviews : ({} : Paths).views.components ∉ scriptDirectories.map Path.components := by
          decide
        exact hviews (List.mem_map.mpr ⟨directory, hdirectory, (List.append_inj' heq rfl).1⟩)
      · exact hnone _ List.mem_cons_self hunder
  | @page resource last hlast =>
    cases hsecond with
    | inDirectory hother _ =>
      refine (List.prefix_concat_iff.mp h).resolve_right fun hunder => ?_
      rw [isScript_eq_false (List.mem_cons_of_mem _ hother) (hunder.subset (by simp))] at hlast
      cases hlast
    | page _ => exact h.eq_of_length rfl

/-- Such a script is in no directory in the directory of the migrations. -/
theorem IsPlaced.dropLast_eq {components : List Component} (h : IsPlaced components)
    (hunder : ({} : Paths).migrations.components <+: components) :
    components.dropLast = ({} : Paths).migrations.components := by
  cases h with
  | @inDirectory directory last hdirectory hlast =>
    have hheads : ∀ directory ∈ scriptDirectories, directory.components ≠ [] ∧
        (directory.components.head? = ({} : Paths).migrations.components.head? →
          directory.components = ({} : Paths).migrations.components) := by decide
    obtain ⟨hne, hhead⟩ := hheads directory hdirectory
    rw [List.dropLast_concat]
    apply hhead
    obtain ⟨rest, hrest⟩ := hunder
    have heq := congrArg List.head? hrest
    rw [List.head?_append_of_ne_nil _ hne, List.head?_append_of_ne_nil _ (by decide)] at heq
    exact heq.symm
  | page hlast =>
    obtain ⟨rest, hrest⟩ := hunder
    have heq := congrArg List.head? hrest
    rw [List.head?_append_of_ne_nil _ (by decide), List.head?_append_of_ne_nil _ (by decide)] at heq
    exact absurd heq (by decide)

/-- Such scripts fit into a directory if files can have their names and their paths are short. -/
theorem fits_of_isPlaced {root : Path} {rendered : List Path}
    (h : ∀ p ∈ rendered, IsPlaced p.components)
    (hplain : ∀ p ∈ rendered, ∀ component ∈ p.components, component.IsPlain)
    (hroom : ∀ p ∈ rendered, (root.join p).text.utf8ByteSize < maxPathBytes) :
    Fits root rendered where
  plain := hplain
  apart p hp q hq hunder := (h p hp).eq_of_isPrefix (h q hq) hunder
  flat p hp hunder := (h p hp).dropLast_eq hunder
  room := hroom

namespace Template

variable {timestamp : Timestamp} {entities : List Entity} {entity : Entity} {kind : ArtifactKind}
  {config : Config} {data : ArtifactData} {output : Output}

/-- The paths of outputs depend on the places alone. -/
theorem map_path_outputs (hpaths : config.paths = {}) (data : ArtifactData) :
    (outputs config data).map Output.path = (outputs {} data).map Output.path := by
  cases data <;> simp [outputs, hpaths, classFile, pageFile, Function.comp_def]

/-- What is rendered for an entity is placed so if its names are those of files. -/
theorem isPlaced_of_mem_outputs (hnames : entity.NamesFiles)
    (hplanned : entity.planned? timestamp entities kind = some data)
    (hmem : output ∈ outputs {} data) : IsPlaced output.path.components := by
  have hchild : ∀ (directory : Path) (stem : String), directory ∈ scriptDirectories →
      '/' ∉ stem.toList → IsPlaced (directory.child (stem ++ ".php")).components := by
    intro directory stem hdirectory hstem
    rw [components_child directory (isFileName_append_php hstem)]
    exact .inDirectory hdirectory (isScript_append_php stem)
  have hclass : ∀ ending : String, '/' ∉ ending.toList → '/' ∉ (entity.name ++ ending).toList := by
    intro ending hending
    simp [hnames.name, hending]
  cases kind with
  | model =>
    obtain rfl := Option.some.inj hplanned
    rw [List.mem_singleton.mp hmem]
    exact hchild _ _ (by decide) hnames.name
  | migration =>
    obtain rfl := Option.some.inj hplanned
    have hfile := (isFileName_migrationFile timestamp hnames.table.noSlash).noSlash
    rw [Entity.migrationFile, String.toList_append, List.mem_append, not_or] at hfile
    rw [List.mem_singleton.mp hmem, Output.path_file]
    exact hchild _ _ (by decide) hfile.1
  | formRequest =>
    obtain rfl := Option.some.inj hplanned
    rw [List.mem_singleton.mp hmem]
    exact hchild _ _ (by decide) (hclass "Request" (by decide))
  | apiController =>
    obtain rfl := Option.some.inj hplanned
    rw [List.mem_singleton.mp hmem]
    exact hchild _ _ (by decide) (hclass "Controller" (by decide))
  | webController =>
    obtain rfl := Option.some.inj hplanned
    rw [List.mem_singleton.mp hmem]
    exact hchild _ _ (by decide) (hclass "Controller" (by decide))
  | routes =>
    obtain rfl := Option.some.inj hplanned
    rcases List.mem_pair.mp hmem with rfl | rfl
    · exact hchild ⟨"routes"⟩ "web" (by decide) (by decide)
    · exact hchild ⟨"routes"⟩ "api" (by decide) (by decide)
  | views =>
    obtain rfl := Option.some.inj hplanned
    obtain ⟨page, -, rfl⟩ := List.mem_map.mp hmem
    have hresource : (({} : Paths).views.child entity.viewSet.resource).components =
        ({} : Paths).views.components ++ [.name entity.table] := components_child _ hnames.table
    rw [pageFile, Output.path_file, components_child _ (isFileName_page page), hresource,
      List.append_assoc]
    refine .page ?_
    cases page <;> decide
  | layout =>
    unfold Entity.planned? at hplanned
    split_ifs at hplanned
    obtain rfl := Option.some.inj hplanned
    have hlayout : ({} : Paths).layout.components =
        ({} : Paths).views.components ++ [.name "layouts", .name "app.blade.php"] := by decide
    rw [List.mem_singleton.mp hmem, Output.path_starter, hlayout]
    exact .page (by decide)

end Template

/-! ## What runs render -/

namespace Generator

section rendered

variable {config : Config} {turns : List Turn} {turn : Turn} {path : Path}

/-- The entities of a request have names that files can have. -/
def Turn.NamesFiles (turn : Turn) : Prop :=
  ∀ description, turn.request.describe = .ok description →
    ∀ entity ∈ description.root.expand, entity.NamesFiles

/-- A path of a run is that of an output for something planned for an entity of its request. -/
theorem Turn.exists_output_of_mem_paths (h : path ∈ turn.paths config) :
    ∃ description, turn.request.describe = .ok description ∧
      ∃ entity ∈ description.root.expand, ∃ kind data,
        entity.planned? turn.timestamp description.root.expand kind = some data ∧
        ∃ output ∈ Template.outputs config data, output.path = path := by
  unfold Turn.paths at h
  split at h
  · cases h
  · rename_i description hdescribe
    obtain ⟨⟨entity, kind⟩, htask, hpath⟩ := List.mem_flatMap.mp h
    obtain ⟨output, houtput, rfl⟩ := List.mem_map.mp hpath
    obtain ⟨data, hdata, hmem⟩ := List.mem_flatMap.mp houtput
    exact ⟨description, hdescribe, entity, (List.mem_product.mp htask).1, kind, data,
      Option.mem_toList.mp hdata, output, hmem, rfl⟩

/-- Runs render scripts. -/
theorem php_suffix_of_mem_paths (hpaths : config.paths = {})
    (h : path ∈ turns.flatMap (Turn.paths config)) : ".php".toList <:+ path.text.toList := by
  obtain ⟨turn, -, hpath⟩ := List.mem_flatMap.mp h
  obtain ⟨_, -, _, -, _, _, -, output, houtput, rfl⟩ := turn.exists_output_of_mem_paths hpath
  exact Template.php_suffix_path hpaths houtput

/-- Where entities have names that files can have, what is rendered for them is placed so. -/
theorem isPlaced_of_mem_paths (hpaths : config.paths = {})
    (hnames : ∀ turn ∈ turns, turn.NamesFiles)
    (h : path ∈ turns.flatMap (Turn.paths config)) : IsPlaced path.components := by
  obtain ⟨turn, hturn, hpath⟩ := List.mem_flatMap.mp h
  obtain ⟨description, hdescribe, entity, hentity, kind, data, hplanned, output, houtput, rfl⟩ :=
    turn.exists_output_of_mem_paths hpath
  have hmem := List.mem_map_of_mem (f := Output.path) houtput
  rw [Template.map_path_outputs hpaths] at hmem
  obtain ⟨other, hother, hsame⟩ := List.mem_map.mp hmem
  rw [← hsame]
  exact Template.isPlaced_of_mem_outputs (hnames turn hturn description hdescribe entity hentity)
    hplanned hother

/-- Where entities have names that files can have, all that runs render fits into a directory in
which there is room for it. -/
theorem fits_of_namesFiles {root : Path} (hpaths : config.paths = {})
    (hnames : ∀ turn ∈ turns, turn.NamesFiles)
    (hplain : ∀ p ∈ turns.flatMap (Turn.paths config),
      ∀ component ∈ p.components, component.IsPlain)
    (hroom : ∀ p ∈ turns.flatMap (Turn.paths config),
      (root.join p).text.utf8ByteSize < maxPathBytes) :
    Fits root (turns.flatMap (Turn.paths config)) :=
  fits_of_isPlaced (fun _ hp => isPlaced_of_mem_paths hpaths hnames hp) hplain hroom

/-- An item with a name. -/
def itemTurn : Turn where
  request := ⟨"item", "name:string", none⟩

/-- The item has names that files can have. -/
theorem namesFiles_item : itemTurn.NamesFiles := by
  have hdescribe : itemTurn.request.describe = .ok ⟨"Item", [⟨"name", .string⟩], [], []⟩ := by
    decide +kernel
  have hnames : ∀ entity ∈ (Description.root ⟨"Item", [⟨"name", .string⟩], [], []⟩).expand,
      '/' ∉ entity.name.toList ∧ IsPlainName entity.table := by decide +kernel
  intro description h entity hentity
  obtain rfl := Except.ok.inj (hdescribe.symm.trans h)
  exact ⟨(hnames entity hentity).1, (hnames entity hentity).2.toIsFileName⟩

/-- The paths of what is rendered for the item. They are computed here once, so that what is asked
of them is read off short texts. -/
theorem paths_item : itemTurn.paths {} =
    ["app/Models/Item.php", "database/migrations/0000_00_00_000000_create_items_table.php",
      "app/Http/Requests/ItemRequest.php", "app/Http/Controllers/Api/ItemController.php",
      "app/Http/Controllers/ItemController.php", "routes/web.php", "routes/api.php",
      "resources/views/items/index.blade.php", "resources/views/items/create.blade.php",
      "resources/views/items/edit.blade.php", "resources/views/items/show.blade.php",
      "resources/views/layouts/app.blade.php"].map Path.mk := by decide +kernel

/-- What is rendered for the item fits into the working directory. -/
theorem fits_item : Fits ⟨"."⟩ (itemTurn.paths {}) := by
  have hfits : Fits ⟨"."⟩ ([itemTurn].flatMap (Turn.paths {})) := by
    refine fits_of_namesFiles rfl ?_ ?_ ?_
    · rw [List.forall_mem_singleton]
      exact namesFiles_item
    · have hsegments : ∀ p ∈ itemTurn.paths {}, ∀ segment ∈ p.segments, IsPlainSegment segment := by
        rw [paths_item]
        decide +kernel
      rw [List.flatMap_singleton]
      exact fun p hp => isPlain_of_segments (hsegments p hp)
    · rw [List.flatMap_singleton, paths_item]
      decide +kernel
  rwa [List.flatMap_singleton] at hfits

end rendered

end Generator

end Scaffold
