import Mathlib.Data.List.Chain
import Scaffold.Field.Parse
import Scaffold.Plan.Step
import Scaffold.Template.Classes

/-!
# Literals in generated code

The templates put names, values and rules between single quotes as they are. `literals` reads them
back by the rules of PHP: such a literal ends at the first quote in it without a backslash before
it, and a backslash in front of a quote or of another backslash is left out.

Main statement: what is read in the lines that are made from fields is what these were made from
exactly if every text in them is its own literal (`literals_lines_iff`), which is a matter of quotes
and backslashes (`IsVerbatim`). Nothing of this is demanded of fields that are read
(`literals_columnStatement_apostrophe`).

What a literal stands for and how it is written agree in the number of quotes
(`exists_of_literalsFrom_inside`). So if a text is read back, then its literal ends where the
template ended it (`literalsFrom_of_count_eq`), and nothing in it was escaped.
-/

namespace Scaffold

/-! ## Texts in columns -/

namespace Column

/-- The texts that stand in quotes in the declaration of a column. -/
def texts : Column → List String
  | .id | .softDeletes | .timestamps => []
  | .string name | .text name | .integer name | .boolean name | .custom name _ => [name]
  | .choice name values => name :: values

/-- The text that is taken over as code into the declaration of a column. -/
def code : Column → String
  | .custom _ columnType => columnType
  | _ => ""

end Column

namespace Template

/-! ## Reading literals -/

/-- Where a reader of code stands. -/
inductive Place where
  /-- Outside of literals. -/
  | code
  /-- In a literal, in which it has read the characters, the last one first. -/
  | inside (read : List Char)

/-- What the literals in single quotes stand for, one after the other, none if one of them is not
closed. All other code is passed over. -/
def literalsFrom : Place → List Char → Option (List String)
  | .code, [] => some []
  | .code, c :: rest => literalsFrom (if c = '\x27' then .inside [] else .code) rest
  | .inside _, [] => none
  | .inside read, '\\' :: '\x27' :: rest => literalsFrom (.inside ('\x27' :: read)) rest
  | .inside read, '\\' :: '\\' :: rest => literalsFrom (.inside ('\\' :: read)) rest
  | .inside read, c :: rest =>
    if c = '\x27' then (literalsFrom .code rest).map (String.ofList read.reverse :: ·)
    else literalsFrom (.inside (c :: read)) rest

/-- What the literals in a piece of code stand for. -/
def literals (code : String) : Option (List String) :=
  literalsFrom .code code.toList

/-- A text that stands for itself between single quotes. -/
structure IsVerbatim (text : List Char) : Prop where
  /-- No quote ends the literal early. -/
  noQuote : '\x27' ∉ text
  /-- No backslash is left out in front of another. -/
  noPair : text.IsChain fun c d => c = '\\' → d ≠ '\\'
  /-- No backslash is left out in front of the quote that ends the literal. -/
  last : text.getLast? ≠ some '\\'

variable {read cs text first rest lead : List Char} {c : Char} {others : List String}

/-- The empty text is verbatim. -/
theorem isVerbatim_nil : IsVerbatim [] :=
  ⟨List.not_mem_nil, .nil, nofun⟩

/-- Character by character, a backslash needs another character behind it. -/
theorem isVerbatim_cons_iff :
    IsVerbatim (c :: text) ↔
      c ≠ '\x27' ∧ (c = '\\' → ∃ d more, text = d :: more ∧ d ≠ '\\') ∧ IsVerbatim text := by
  cases text with
  | nil =>
    constructor
    · rintro ⟨hquote, -, hlast⟩
      rw [List.mem_singleton] at hquote
      refine ⟨Ne.symm hquote, fun heq => absurd ?_ hlast, isVerbatim_nil⟩
      rw [heq, List.getLast?_singleton]
    · rintro ⟨hquote, hescape, -⟩
      refine ⟨mt List.mem_singleton.mp hquote.symm, .singleton c, fun hlast => ?_⟩
      rw [List.getLast?_singleton] at hlast
      obtain ⟨d, more, hnil, -⟩ := hescape (Option.some.inj hlast)
      cases hnil
  | cons d more =>
    constructor
    · rintro ⟨hquote, hpair, hlast⟩
      rw [List.mem_cons, not_or] at hquote
      rw [List.isChain_cons_cons] at hpair
      rw [List.getLast?_cons_cons] at hlast
      exact ⟨Ne.symm hquote.1, fun heq => ⟨d, more, rfl, hpair.1 heq⟩, hquote.2, hpair.2, hlast⟩
    · rintro ⟨hquote, hescape, htext⟩
      refine ⟨?_, List.isChain_cons_cons.mpr ⟨fun heq => ?_, htext.noPair⟩, ?_⟩
      · rw [List.mem_cons, not_or]
        exact ⟨hquote.symm, htext.noQuote⟩
      · obtain ⟨_, _, hcons, hne⟩ := hescape heq
        cases hcons
        exact hne
      · rw [List.getLast?_cons_cons]
        exact htext.last

/-! ## Steps of the reader -/

/-- Code without a quote has no literals. -/
theorem literalsFrom_code_append (hlead : '\x27' ∉ lead) (cs : List Char) :
    literalsFrom .code (lead ++ cs) = literalsFrom .code cs := by
  induction lead with
  | nil => rfl
  | cons c lead ih =>
    rw [List.mem_cons, not_or] at hlead
    rw [List.cons_append, literalsFrom, if_neg (Ne.symm hlead.1), ih hlead.2]

/-- A quote ends the literal that is open. -/
theorem literalsFrom_quote (read cs : List Char) :
    literalsFrom (.inside read) ('\x27' :: cs) =
      (literalsFrom .code cs).map (String.ofList read.reverse :: ·) := by
  rw [literalsFrom.eq_6, if_pos rfl]
  · intro _ heq
    exact absurd heq (by decide)
  · intro _ heq
    exact absurd heq (by decide)

/-- A backslash keeps a quote or a backslash from being read. -/
theorem literalsFrom_escape (hc : c = '\x27' ∨ c = '\\') (read cs : List Char) :
    literalsFrom (.inside read) ('\\' :: c :: cs) = literalsFrom (.inside (c :: read)) cs := by
  rcases hc with rfl | rfl
  · exact literalsFrom.eq_4 read cs
  · exact literalsFrom.eq_5 read cs

/-- A character that is not a quote stands for itself, and so does a backslash that escapes nothing.
-/
theorem literalsFrom_inside_cons (hc : c ≠ '\x27')
    (hescape : c = '\\' → ∃ d more, cs = d :: more ∧ d ≠ '\x27' ∧ d ≠ '\\') :
    literalsFrom (.inside read) (c :: cs) = literalsFrom (.inside (c :: read)) cs := by
  rw [literalsFrom.eq_6, if_neg hc]
  · rintro more heq rfl
    obtain ⟨_, _, hcons, hne, -⟩ := hescape heq
    exact hne (List.cons.inj hcons).1.symm
  · rintro more heq rfl
    obtain ⟨_, _, hcons, -, hne⟩ := hescape heq
    exact hne (List.cons.inj hcons).1.symm

/-! ## One literal -/

/-- An open literal is read as one at least. -/
theorem literalsFrom_inside_ne_nil (read cs : List Char) :
    literalsFrom (.inside read) cs ≠ some [] := by
  generalize hplace : Place.inside read = place
  fun_induction literalsFrom place cs generalizing read with
  | case1 => cases hplace
  | case2 => cases hplace
  | case3 => exact nofun
  | case4 _ _ ih => exact ih _ rfl
  | case5 _ _ ih => exact ih _ rfl
  | case6 =>
    intro h
    obtain ⟨_, -, hcons⟩ := Option.map_eq_some_iff.mp h
    exact List.cons_ne_nil _ _ hcons
  | case7 _ _ _ _ _ _ ih => exact ih _ rfl

/-- Code has no literals exactly if it has no quote. -/
theorem literalsFrom_code_eq_nil_iff : literalsFrom .code cs = some [] ↔ '\x27' ∉ cs := by
  constructor
  · intro h hmem
    obtain ⟨lead, rest, rfl, hlead⟩ := List.eq_append_cons_of_mem hmem
    rw [literalsFrom_code_append hlead, literalsFrom, if_pos rfl] at h
    exact literalsFrom_inside_ne_nil _ _ h
  · intro h
    rw [← List.append_nil cs, literalsFrom_code_append h, literalsFrom]

/-- A literal is written with as many quotes as it stands for, and at least as long. -/
theorem exists_of_literalsFrom_inside
    (h : literalsFrom (.inside read) cs = some (String.ofList first :: others)) :
    ∃ raw after, cs = raw ++ '\x27' :: after ∧ literalsFrom .code after = some others ∧
      first.count '\x27' = read.count '\x27' + raw.count '\x27' ∧
      first.length ≤ read.length + raw.length := by
  generalize hplace : Place.inside read = place at h
  -- outside of literals nothing is to be shown; then come the end of the text, the two escapes, the
  -- quote that ends the literal, and all other characters
  fun_induction literalsFrom place cs generalizing read with
  | case1 => cases hplace
  | case2 => cases hplace
  | case3 => cases h
  | case4 _ rest ih =>
    cases hplace
    obtain ⟨raw, after, rfl, hafter, hcount, hlength⟩ := ih rfl h
    refine ⟨'\\' :: '\x27' :: raw, after, rfl, hafter, ?_, ?_⟩
    · rw [List.count_cons_self] at hcount
      rw [List.count_cons_of_ne (by decide), List.count_cons_self]
      omega
    · simp only [List.length_cons] at hlength ⊢
      omega
  | case5 _ rest ih =>
    cases hplace
    obtain ⟨raw, after, rfl, hafter, hcount, hlength⟩ := ih rfl h
    refine ⟨'\\' :: '\\' :: raw, after, rfl, hafter, ?_, ?_⟩
    · rw [List.count_cons_of_ne (by decide)] at hcount
      rwa [List.count_cons_of_ne (by decide), List.count_cons_of_ne (by decide)]
    · simp only [List.length_cons] at hlength ⊢
      omega
  | case6 _ rest =>
    cases hplace
    obtain ⟨_, hothers, hcons⟩ := Option.map_eq_some_iff.mp h
    obtain ⟨hfirst, rfl⟩ := List.cons.inj hcons
    obtain rfl := String.ofList_injective hfirst
    exact ⟨[], rest, rfl, hothers, List.count_reverse,
      by rw [List.length_reverse, List.length_nil]; rfl⟩
  | case7 _ c rest _ _ hc ih =>
    cases hplace
    obtain ⟨raw, after, rfl, hafter, hcount, hlength⟩ := ih rfl h
    refine ⟨c :: raw, after, rfl, hafter, ?_, ?_⟩
    · rw [List.count_cons_of_ne hc] at hcount
      rwa [List.count_cons_of_ne hc]
    · simp only [List.length_cons] at hlength ⊢
      omega

/-- Two ways to cut a list at an entry are the same if as many such entries stand in front of both.
-/
theorem append_cons_inj_of_count {x : Char} {front front' back back' : List Char}
    (hcount : front.count x = front'.count x) (h : front ++ x :: back = front' ++ x :: back') :
    front = front' ∧ back = back' := by
  rcases List.append_eq_append_iff.mp h with ⟨between, rfl, hbetween⟩ | ⟨between, rfl, hbetween⟩
  all_goals
    rw [List.count_append] at hcount
    cases between with
    | nil => simp_all
    | cons y ys =>
      obtain ⟨rfl, -⟩ := List.cons.inj hbetween
      rw [List.count_cons_self] at hcount
      omega

/-- A literal that stands for as many quotes as the template put into it ends where the template
ended it. -/
theorem literalsFrom_of_count_eq
    (h : literalsFrom (.inside read) (text ++ '\x27' :: rest) =
      some (String.ofList first :: others))
    (hcount : first.count '\x27' = read.count '\x27' + text.count '\x27') :
    first.length ≤ read.length + text.length ∧ literalsFrom .code rest = some others := by
  obtain ⟨raw, after, hcut, hafter, hraw, hlength⟩ := exists_of_literalsFrom_inside h
  obtain ⟨rfl, rfl⟩ := append_cons_inj_of_count (by omega) hcut
  exact ⟨hlength, hafter⟩

/-! ## Texts that are read back -/

/-- A verbatim text is read back up to the quote that follows it. -/
theorem IsVerbatim.literalsFrom_inside (h : IsVerbatim text) (read rest : List Char) :
    literalsFrom (.inside read) (text ++ '\x27' :: rest) =
      (literalsFrom .code rest).map (String.ofList (read.reverse ++ text) :: ·) := by
  induction text generalizing read with
  | nil => rw [List.nil_append, literalsFrom_quote, List.append_nil]
  | cons c text ih =>
    obtain ⟨hquote, hescape, htext⟩ := isVerbatim_cons_iff.mp h
    have hnext : c = '\\' → ∃ d more, text ++ '\x27' :: rest = d :: more ∧
        d ≠ '\x27' ∧ d ≠ '\\' := by
      intro heq
      obtain ⟨d, more, rfl, hd⟩ := hescape heq
      exact ⟨d, more ++ '\x27' :: rest, rfl, (isVerbatim_cons_iff.mp htext).1, hd⟩
    rw [List.cons_append, literalsFrom_inside_cons hquote hnext, ih htext, List.reverse_cons,
      List.append_assoc, List.singleton_append]

/-- A text in which something is escaped is longer than what is read of it. -/
theorem literalsFrom_escape_ne (hc : c = '\x27' ∨ c = '\\') :
    literalsFrom (.inside read) ('\\' :: c :: (text ++ '\x27' :: rest)) ≠
      some (String.ofList (read.reverse ++ '\\' :: c :: text) :: others) := by
  intro h
  rw [literalsFrom_escape hc] at h
  have hcount : (read.reverse ++ '\\' :: c :: text).count '\x27' =
      (c :: read).count '\x27' + text.count '\x27' := by
    rw [List.count_append, List.count_reverse, List.count_cons_of_ne (by decide), List.count_cons,
      List.count_cons]
    omega
  obtain ⟨hlength, -⟩ := literalsFrom_of_count_eq h hcount
  simp only [List.length_append, List.length_reverse, List.length_cons] at hlength
  omega

/-- A backslash at the end of a text takes away the end of its literal. -/
theorem literalsFrom_last_ne :
    literalsFrom (.inside read) ('\\' :: '\x27' :: rest) ≠
      some (String.ofList (read.reverse ++ ['\\']) :: others) := by
  intro h
  rw [literalsFrom_escape (.inl rfl)] at h
  obtain ⟨raw, -, -, -, hcount, -⟩ := exists_of_literalsFrom_inside h
  have hnone : ['\\'].count '\x27' = 0 := by decide
  rw [List.count_append, List.count_reverse, List.count_cons_self, hnone] at hcount
  omega

/-- Only a verbatim text is read back. -/
theorem isVerbatim_of_literalsFrom_inside
    (h : literalsFrom (.inside read) (text ++ '\x27' :: rest) =
      some (String.ofList (read.reverse ++ text) :: others)) :
    IsVerbatim text := by
  induction text generalizing read with
  | nil => exact isVerbatim_nil
  | cons c text ih =>
    have hquote : c ≠ '\x27' := by
      rintro rfl
      rw [List.cons_append, literalsFrom_quote] at h
      obtain ⟨_, -, hcons⟩ := Option.map_eq_some_iff.mp h
      have hlonger := String.ofList_injective (List.cons.inj hcons).1
      exact List.cons_ne_nil _ _ (List.self_eq_append_right.mp hlonger)
    have hescape : c = '\\' → ∃ d more, text = d :: more ∧ d ≠ '\x27' ∧ d ≠ '\\' := by
      rintro rfl
      cases text with
      | nil => exact absurd h literalsFrom_last_ne
      | cons d more =>
        exact ⟨d, more, rfl, fun hd => literalsFrom_escape_ne (.inl hd) h,
          fun hd => literalsFrom_escape_ne (.inr hd) h⟩
    have hnext : c = '\\' → ∃ d more, text ++ '\x27' :: rest = d :: more ∧
        d ≠ '\x27' ∧ d ≠ '\\' := by
      intro heq
      obtain ⟨d, more, rfl, hd⟩ := hescape heq
      exact ⟨d, more ++ '\x27' :: rest, rfl, hd⟩
    rw [List.cons_append, literalsFrom_inside_cons hquote hnext] at h
    have hread : read.reverse ++ c :: text = (c :: read).reverse ++ text := by
      rw [List.reverse_cons, List.append_assoc, List.singleton_append]
    rw [hread] at h
    refine isVerbatim_cons_iff.mpr ⟨hquote, fun heq => ?_, ih h⟩
    obtain ⟨d, more, htext, -, hd⟩ := hescape heq
    exact ⟨d, more, htext, hd⟩

/-- A literal stands for the text between its quotes exactly if that is its own literal. -/
theorem literalsFrom_inside_eq_some_iff :
    literalsFrom (.inside []) (text ++ '\x27' :: rest) = some (String.ofList text :: others) ↔
      IsVerbatim text ∧ literalsFrom .code rest = some others := by
  constructor
  · intro h
    exact ⟨isVerbatim_of_literalsFrom_inside h, (literalsFrom_of_count_eq h (by simp)).2⟩
  · rintro ⟨htext, hrest⟩
    rw [htext.literalsFrom_inside, hrest]
    rfl

/-! ## Literals in lines -/

section lines

variable {start value finish : String} {values : List String}

/-- A line has no literals exactly if it has no quote. -/
theorem literals_eq_nil_iff : literals start = some [] ↔ '\x27' ∉ start.toList :=
  literalsFrom_code_eq_nil_iff

/-- A quoted value is read back exactly if it is verbatim and what follows reads as the others. -/
theorem literals_quoted_iff (hstart : '\x27' ∉ start.toList) :
    literals (start ++ quoted value ++ finish) = some (value :: others) ↔
      IsVerbatim value.toList ∧ literals finish = some others := by
  have hcode : (start ++ quoted value ++ finish).toList =
      start.toList ++ '\x27' :: (value.toList ++ '\x27' :: finish.toList) := by
    simp [quoted, List.append_assoc]
  have hvalue : value = String.ofList value.toList := String.ofList_toList.symm
  rw [literals, hcode, literalsFrom_code_append hstart, literalsFrom, if_pos rfl]
  nth_rewrite 2 [hvalue]
  exact literalsFrom_inside_eq_some_iff

/-- Between code without quotes it is the verbatim value that is read back. -/
theorem literals_quoted_iff_of_notMem (hstart : '\x27' ∉ start.toList)
    (hfinish : '\x27' ∉ finish.toList) :
    literals (start ++ quoted value ++ finish) = some [value] ↔ IsVerbatim value.toList := by
  rw [literals_quoted_iff hstart, and_iff_left (literals_eq_nil_iff.mpr hfinish)]

/-- A list of quoted values is read back exactly if all of them are verbatim. -/
theorem literals_quotedList_iff (hstart : '\x27' ∉ start.toList)
    (hfinish : '\x27' ∉ finish.toList) :
    literals (start ++ quotedList values ++ finish) = some values ↔
      ∀ value ∈ values, IsVerbatim value.toList := by
  induction values generalizing start with
  | nil =>
    refine iff_of_true (literals_eq_nil_iff.mpr ?_) fun _ h => absurd h List.not_mem_nil
    simpa [quotedList] using ⟨hstart, hfinish⟩
  | cons value more ih =>
    rw [List.forall_mem_cons]
    cases more with
    | nil =>
      have hsingle : quotedList [value] = quoted value := by simp [quotedList]
      rw [hsingle, literals_quoted_iff_of_notMem hstart hfinish]
      exact (and_iff_left fun _ h => absurd h List.not_mem_nil).symm
    | cons next more =>
      have hcons : start ++ quotedList (value :: next :: more) ++ finish =
          start ++ quoted value ++ (", " ++ quotedList (next :: more) ++ finish) := by
        simp [quotedList, String.append_assoc]
      rw [hcons, literals_quoted_iff hstart, ih (by decide)]

/-- A quote in the code in front of a literal makes another literal of it. -/
theorem literals_quoted_ne (hstart : '\x27' ∈ start.toList) :
    literals (start ++ quoted value ++ finish) ≠ some [value] := by
  obtain ⟨lead, rest, hcut, hlead⟩ := List.eq_append_cons_of_mem hstart
  have hcode : (start ++ quoted value ++ finish).toList =
      lead ++ '\x27' :: (rest ++ '\x27' :: (value.toList ++ '\x27' :: finish.toList)) := by
    simp [quoted, hcut, List.append_assoc]
  intro h
  rw [literals, hcode, literalsFrom_code_append hlead, literalsFrom, if_pos rfl,
    ← String.ofList_toList (s := value)] at h
  obtain ⟨raw, after, hraw, hafter, hcount, -⟩ := exists_of_literalsFrom_inside h
  have hall := congrArg (List.count '\x27') hraw
  have hnone := List.count_eq_zero.mpr (literalsFrom_code_eq_nil_iff.mp hafter)
  simp only [List.count_append, List.count_cons_self, List.count_nil,
    String.toList_ofList] at hall hcount
  omega

end lines

/-! ## The lines that are made from fields -/

/-- The declaration of a column is read back exactly if its texts are, and its code has no quote. -/
theorem literals_columnStatement_iff (column : Column) :
    literals (columnStatement column) = some column.texts ↔
      '\x27' ∉ column.code.toList ∧ ∀ text ∈ column.texts, IsVerbatim text.toList := by
  have hempty : '\x27' ∉ "".toList := List.not_mem_nil
  have hsingle : ∀ name : String, IsVerbatim name.toList ↔
      ∀ text ∈ [name], IsVerbatim text.toList :=
    fun name => by rw [List.forall_mem_singleton]
  cases column with
  | id | softDeletes | timestamps =>
    refine iff_of_true (literals_eq_nil_iff.mpr (by decide))
      ⟨hempty, fun _ h => absurd h List.not_mem_nil⟩
  | string name | text name | integer name | boolean name =>
    refine (literals_quoted_iff_of_notMem (by decide) (by decide)).trans ?_
    exact (hsingle name).trans (and_iff_right hempty).symm
  | choice name values =>
    have hline : columnStatement (.choice name values) =
        "$table->enum(" ++ quoted name ++ (", [" ++ quotedList values ++ "]);") := by
      rw [← String.append_assoc, ← String.append_assoc]
      rfl
    rw [hline]
    refine (literals_quoted_iff (by decide)).trans ?_
    rw [literals_quotedList_iff (by decide) (by decide)]
    have hcons : (∀ text ∈ name :: values, IsVerbatim text.toList) ↔
        IsVerbatim name.toList ∧ ∀ value ∈ values, IsVerbatim value.toList := List.forall_mem_cons
    exact hcons.symm.trans (and_iff_right hempty).symm
  | custom name columnType =>
    have hline : columnStatement (.custom name columnType) =
        ("$table->" ++ columnType ++ "(") ++ quoted name ++ ");" := rfl
    have hstart : '\x27' ∈ ("$table->" ++ columnType ++ "(").toList ↔
        '\x27' ∈ columnType.toList := by
      have hcall : '\x27' ∉ "$table->".toList := by decide
      have hopening : '\x27' ∉ "(".toList := by decide
      simp only [String.toList_append, List.mem_append, hcall, hopening, false_or, or_false]
    rw [hline]
    by_cases hquote : '\x27' ∈ columnType.toList
    · exact iff_of_false (literals_quoted_ne (hstart.mpr hquote)) fun h => h.1 hquote
    · refine (literals_quoted_iff_of_notMem (mt hstart.mp hquote) (by decide)).trans ?_
      exact (hsingle name).trans (and_iff_right hquote).symm

/-- The line of fillable names is read back exactly if the names are verbatim. -/
theorem literals_fillableLine_iff (fillable : List String) :
    literals (fillableLine fillable) = some fillable ↔ ∀ name ∈ fillable, IsVerbatim name.toList :=
  literals_quotedList_iff (by decide) (by decide)

/-- The line of a rule is read back exactly if the field and the rule are verbatim. -/
theorem literals_ruleLine_iff (rule : FieldRule) :
    literals (ruleLine rule) = some [rule.field, ruleText rule.rule] ↔
      IsVerbatim rule.field.toList ∧ IsVerbatim (ruleText rule.rule).toList := by
  have hline : ruleLine rule =
      "            " ++ quoted rule.field ++ (" => " ++ quoted (ruleText rule.rule) ++ ",") := by
    rw [← String.append_assoc, ← String.append_assoc]
    rfl
  rw [hline, literals_quoted_iff (by decide), literals_quoted_iff_of_notMem (by decide) (by decide)]

/-- In the lines that are made from the fields of an entity, the literals stand for the names,
values and constraints that the lines were made from exactly if each of these stands for itself
between quotes, and no type that is taken over as code has a quote. -/
theorem literals_lines_iff (entity : Entity) (timestamp : Timestamp) :
    (∀ column ∈ (entity.migration timestamp).columns,
        (literals (columnStatement column) = some column.texts ↔
          '\x27' ∉ column.code.toList ∧ ∀ text ∈ column.texts, IsVerbatim text.toList)) ∧
      (literals (fillableLine entity.model.fillable) = some (entity.fields.map Field.name) ↔
        ∀ field ∈ entity.fields, IsVerbatim field.name.toList) ∧
      ∀ rule ∈ entity.formRequest.rules,
        (literals (ruleLine rule) = some [rule.field, ruleText rule.rule] ↔
          IsVerbatim rule.field.toList ∧ IsVerbatim (ruleText rule.rule).toList) := by
  refine ⟨fun column _ => literals_columnStatement_iff column, ?_,
    fun rule _ => literals_ruleLine_iff rule⟩
  refine (literals_fillableLine_iff (entity.fields.map Field.name)).trans ?_
  rw [List.forall_mem_map]

/-- The literal of a name with an apostrophe ends at the apostrophe, and another one is left open.
-/
theorem literals_columnStatement_apostrophe :
    readFields "it\x27s:string" = .ok [⟨"it\x27s", .string⟩] ∧
      columnStatement (.string "it\x27s") = "$table->string(\x27it\x27s\x27);" ∧
      literals (columnStatement (.string "it\x27s")) = none ∧
      ¬∀ (raw : String) (entity : Entity) (timestamp : Timestamp),
        readFields raw = .ok entity.fields → (∀ column ∈ (entity.migration timestamp).columns,
            literals (columnStatement column) = some column.texts) ∧
          literals (fillableLine entity.model.fillable) = some (entity.fields.map Field.name) ∧
          ∀ rule ∈ entity.formRequest.rules,
            literals (ruleLine rule) = some [rule.field, ruleText rule.rule] := by
  have hread : readFields "it\x27s:string" = .ok [⟨"it\x27s", .string⟩] := by decide +kernel
  have hnone : literals (columnStatement (.string "it\x27s")) = none := by decide +kernel
  refine ⟨hread, by decide +kernel, hnone, fun hall => ?_⟩
  obtain ⟨hcolumns, -⟩ :=
    hall "it\x27s:string" (Entity.root "item" [⟨"it\x27s", .string⟩] []) default hread
  have hcolumn := hcolumns (.string "it\x27s") (.tail _ (.head _))
  rw [hnone] at hcolumn
  cases hcolumn

end Template

end Scaffold
