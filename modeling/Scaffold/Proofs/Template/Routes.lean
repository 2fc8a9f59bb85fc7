import Scaffold.Proofs.Text.Strip
import Scaffold.Route.Merge
import Scaffold.Template.Routes

/-!
# What route lines look like

The lines for the route files start with a word, so none of them is taken for the opening of a
script (`trim_ne_preamble_of_mem_webRouteLines`, `trim_ne_preamble_of_mem_apiRouteLines`). They stay
on one line if the names in them do (`feed_not_mem_webRouteLines`, `feed_not_mem_apiRouteLines`).
-/

namespace Scaffold.Template

open Text

variable {routes : RouteSet} {middleware line : String}

/-- A text is its own string. -/
@[simp] theorem toString_text (text : String) : toString text = text := rfl

/-! ## How they start -/

/-- A line that starts with a word is not the opening of a script. -/
theorem trim_ne_preamble (word : String) (hline : word.toList <+: line.toList)
    (hword : word.toList.head? = some 'u' ∨ word.toList.head? = some 'R') :
    trim line ≠ Route.preamble := by
  intro heq
  obtain ⟨c, hhead, hblank, hne⟩ : ∃ c, word.toList.head? = some c ∧
      isBlank c = false ∧ c ≠ '<' := by
    rcases hword with hu | hr
    · exact ⟨'u', hu, by decide, by decide⟩
    · exact ⟨'R', hr, by decide, by decide⟩
  obtain ⟨more, hmore⟩ := hline
  obtain ⟨rest, hrest⟩ : ∃ rest, line.toList = c :: rest := by
    obtain ⟨rest, hrest⟩ := List.head?_eq_some_iff.mp hhead
    exact ⟨rest ++ more, by rw [← hmore, hrest, List.cons_append]⟩
  have hstrip := head?_stripWhile_cons hblank rest
  have hpreamble : strip (c :: rest) = Route.preamble.toList := by
    rw [← hrest, ← toList_trim, heq]
  unfold strip at hpreamble
  rw [hpreamble] at hstrip
  exact hne (Option.some.inj hstrip).symm

/-- No line of the web routes is the preamble. -/
theorem trim_ne_preamble_of_mem_webRouteLines (h : line ∈ webRouteLines routes) :
    trim line ≠ Route.preamble := by
  obtain ⟨group, -, hgroup⟩ := List.mem_flatMap.mp h
  rcases List.mem_pair.mp hgroup with rfl | rfl
  · refine trim_ne_preamble "use App\\Http\\Controllers\\" ?_ (by decide)
    simp only [toString_text, String.toList_append, List.append_assoc, List.prefix_append]
  · refine trim_ne_preamble "Route::resource('" ?_ (by decide)
    simp only [toString_text, String.toList_append, List.append_assoc, List.prefix_append]

/-- No line of the API routes is the preamble. -/
theorem trim_ne_preamble_of_mem_apiRouteLines (h : line ∈ apiRouteLines middleware routes) :
    trim line ≠ Route.preamble := by
  obtain ⟨group, -, hgroup⟩ := List.mem_flatMap.mp h
  rcases List.mem_pair.mp hgroup with rfl | rfl
  · refine trim_ne_preamble "use App\\Http\\Controllers\\Api\\" ?_ (by decide)
    simp only [toString_text, String.toList_append, List.append_assoc, List.prefix_append]
  · unfold apiRouteStart
    split_ifs
    · refine trim_ne_preamble "Route::" ?_ (by decide)
      simp only [toString_text, String.toList_append, List.append_assoc, List.prefix_append]
    · refine trim_ne_preamble "Route::middleware('" ?_ (by decide)
      simp only [toString_text, String.toList_append, List.append_assoc, List.prefix_append]

/-! ## That they are single lines -/

/-- The texts in the groups stand on one line. -/
def HasSingleLineGroups (routes : RouteSet) : Prop :=
  ∀ group ∈ routes.groups, '\n' ∉ group.path.toList ∧ '\n' ∉ group.controller.toList

/-- The lines of the web routes are single lines if the groups are. -/
theorem feed_not_mem_webRouteLines (hroutes : HasSingleLineGroups routes)
    (h : line ∈ webRouteLines routes) : '\n' ∉ line.toList := by
  obtain ⟨group, hmem, hgroup⟩ := List.mem_flatMap.mp h
  obtain ⟨hpath, hcontroller⟩ := hroutes group hmem
  rcases List.mem_pair.mp hgroup with rfl | rfl
  · simp [hcontroller]
  · simp [hpath, hcontroller]

/-- So are those of the API routes, if the middleware is one line too. -/
theorem feed_not_mem_apiRouteLines (hroutes : HasSingleLineGroups routes)
    (hmiddleware : '\n' ∉ middleware.toList) (h : line ∈ apiRouteLines middleware routes) :
    '\n' ∉ line.toList := by
  obtain ⟨group, hmem, hgroup⟩ := List.mem_flatMap.mp h
  obtain ⟨hpath, hcontroller⟩ := hroutes group hmem
  have hstart : '\n' ∉ (apiRouteStart middleware).toList := by
    unfold apiRouteStart
    split_ifs <;> simp [hmiddleware]
  rcases List.mem_pair.mp hgroup with rfl | rfl
  · simp [hcontroller]
  · simp [hpath, hcontroller, hstart]

end Scaffold.Template
