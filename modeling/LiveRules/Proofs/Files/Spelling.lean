import LiveRules.Files.Path
import LiveRules.Proofs.Text.Lines

/-!
# How locations are spelled

The text of a location is an absolute path. Its components are the root and the names of
the location, walking it takes one step for each name, and the path of the directory that
holds it is the text of the location without its last name.
-/
namespace LiveRules.Files

/-- What an entry of a directory can be called. -/
structure IsName (name : String) : Prop where
  named : name ≠ ""
  here : name ≠ "."
  up : name ≠ ".."
  single : '/' ∉ name.toList

/-- A location of names as they stand in directories. -/
def Location.Plain (loc : Location) : Prop := ∀ name ∈ loc, IsName name

variable {loc : Location} {name path : String}

theorem segments_append (a b : String) : segments (a ++ "/" ++ b) = segments a ++ segments b := by
  have slash : (a ++ "/" ++ b).toList = a.toList ++ '/' :: b.toList := by simp
  rw [segments, slash, Text.pieces_append_sep, List.map_append]
  rfl

theorem segments_single (single : '/' ∉ name.toList) : segments name = [name] := by
  rw [segments, Text.pieces_eq_singleton single, List.map_singleton, String.ofList_toList]

theorem segments_intercalate (single : ∀ name ∈ loc, '/' ∉ name.toList) (some : loc ≠ []) :
    segments ("/".intercalate loc) = loc := by
  induction loc with
  | nil => exact absurd rfl some
  | cons name loc ih =>
      have first := segments_single (single name List.mem_cons_self)
      cases loc with
      | nil => rw [String.intercalate_singleton, first]
      | cons next loc =>
          have rest := ih (fun n member => single n (List.mem_cons_of_mem _ member)) (by simp)
          rw [String.intercalate_cons_cons, segments_append, first, rest]
          rfl

theorem segments_text (single : ∀ name ∈ loc, '/' ∉ name.toList) (some : loc ≠ []) :
    segments loc.text = "" :: loc := by
  have text : loc.text = "" ++ "/" ++ "/".intercalate loc := by simp [Location.text]
  rw [text, segments_append, segments_single (by simp), segments_intercalate single some]
  rfl

theorem isAbsolute_text (loc : Location) : isAbsolute loc.text = true := by
  simp [isAbsolute, Location.text]

theorem laterComponents_append (segs segs' : List String) :
    laterComponents (segs ++ segs') = laterComponents segs ++ laterComponents segs' :=
  List.filterMap_append

theorem laterComponents_plain (plain : loc.Plain) : laterComponents loc = loc.map .name := by
  induction loc with
  | nil => rfl
  | cons name loc ih =>
      have first := plain name List.mem_cons_self
      have rest := ih fun n member => plain n (List.mem_cons_of_mem _ member)
      rw [laterComponents, List.filterMap_cons, if_neg (by simp [first.named, first.here]),
        if_neg first.up]
      simpa [laterComponents] using rest

theorem segments_ne_nil (path : String) : segments path ≠ [] := by
  rw [segments, ne_eq, List.map_eq_nil_iff]
  exact Text.pieces_ne_nil _ _

theorem components_absolute (absolute : isAbsolute path = true) :
    components path = .root :: laterComponents (segments path).tail := by
  unfold components
  cases segs : segments path with
  | nil => exact absurd segs (segments_ne_nil path)
  | cons first rest => simp only [absolute, if_true, List.tail_cons]

theorem isAbsolute_of_root {rest : List Component} (root : components path = .root :: rest) :
    isAbsolute path = true := by
  have later (segs : List String) : .root ∉ laterComponents segs := by
    intro member
    obtain ⟨name, -, becomes⟩ := List.mem_filterMap.mp member
    split at becomes
    · cases becomes
    · split at becomes <;> cases becomes
  by_contra relative
  unfold components at root
  split at root
  · cases root
  · rw [if_neg relative] at root
    split at root
    · cases root
    · rename_i first rest _ _
      exact later (first :: rest) (root ▸ List.mem_cons_self)

theorem components_text (plain : loc.Plain) : components loc.text = .root :: loc.map .name := by
  cases loc with
  | nil => decide +kernel
  | cons name rest =>
      have segs := segments_text (fun n member => (plain n member).single) (by simp)
      rw [components_absolute (isAbsolute_text _), segs, List.tail_cons,
        laterComponents_plain plain]

theorem endsWith_iff {text suffix : String} :
    text.endsWith suffix = true ↔ suffix.toList <:+ text.toList := by
  rw [String.endsWith_eq_endsWith_toSlice, String.Slice.endsWith_string_iff, String.copy_toSlice]

/-- What follows the last slash makes the last component, if any. -/
theorem components_last {before : String} (absolute : isAbsolute (before ++ "/" ++ name) = true)
    (single : '/' ∉ name.toList) : components (before ++ "/" ++ name) =
      .root :: (laterComponents (segments before).tail ++ laterComponents [name]) := by
  rw [components_absolute absolute, segments_append, segments_single single,
    List.tail_append_of_ne_nil (segments_ne_nil before), laterComponents_append]

/-- An entry of a directory, under the path of the directory. -/
theorem components_entry {dir : String} (absolute : isAbsolute dir = true)
    (isName : IsName name) :
    components (if dir.endsWith "/" then dir ++ name else dir ++ "/" ++ name) =
      components dir ++ [.name name] := by
  have plain : Location.Plain [name] := fun n member => List.mem_singleton.mp member ▸ isName
  have last : laterComponents [name] = [.name name] := laterComponents_plain plain
  have extended (more : String) : isAbsolute (dir ++ more) = true := by
    have first : dir.toList.head? = some '/' := by simpa [isAbsolute] using absolute
    simp [isAbsolute, List.head?_append, first]
  split
  · rename_i slash
    obtain ⟨start, ends⟩ := endsWith_iff.mp slash
    obtain rfl : dir = String.ofList start ++ "/" ++ "" := by
      rw [← String.toList_inj, ← ends]
      simp
    have entry : String.ofList start ++ "/" ++ "" ++ name = String.ofList start ++ "/" ++ name := by
      simp
    rw [components_last absolute (by simp), entry, components_last (entry ▸ extended name)
      isName.single, last]
    simp [laterComponents]
  · rw [components_last (String.append_assoc ▸ extended ("/" ++ name)) isName.single, last,
      components_absolute absolute]
    rfl

theorem dropIdle_plain (plain : loc.Plain) : dropIdle loc.reverse = loc.reverse := by
  have kept : ∀ name ∈ loc.reverse, ¬ (name = "" || name = ".") = true := by
    intro name member
    have isName := plain name (List.mem_reverse.mp member)
    simp [isName.named, isName.here]
  unfold dropIdle
  cases listed : loc.reverse with
  | nil => rfl
  | cons name rest =>
      rw [List.dropWhile_cons_of_neg]
      exact kept name (by rw [listed]; exact List.mem_cons_self)

/-- The path of the directory that holds a place is the text of that directory. -/
theorem parentPath?_text (plain : loc.Plain) (some : loc ≠ []) :
    parentPath? loc.text = .some (Location.text loc.dropLast) := by
  have segs := segments_text (fun n member => (plain n member).single) some
  have plain' : Location.Plain loc.dropLast := fun n member =>
    plain n (List.dropLast_subset loc member)
  have body : dropIdle ((dropIdle loc.reverse).drop 1) = loc.dropLast.reverse := by
    rw [dropIdle_plain plain, List.drop_one, List.tail_reverse, dropIdle_plain plain']
  have comps := components_text plain
  unfold parentPath?
  rw [comps]
  obtain ⟨name, rest, rfl⟩ := List.exists_cons_of_ne_nil some
  have named : ¬ ("/" = "") := by simp
  have rooted : ¬ ("/" = "./") := by simp
  simp only [List.map_cons, segs, List.head?_cons, if_true, if_neg named, if_neg rooted,
    List.drop_one, List.tail_cons] at body ⊢
  rw [body, List.reverse_reverse, List.isEmpty_reverse]
  split
  · rename_i root
    rw [List.isEmpty_iff.mp root]
    rfl
  · rfl

/-- Walking the text of a location takes its names one after the other. -/
theorem steps_text (plain : loc.Plain) (some : loc ≠ []) : steps loc.text = loc := by
  have single : ∀ name ∈ loc, '/' ∉ name.toList := fun n member => (plain n member).single
  have segs := segments_text single some
  have names : (segments loc.text).filter (· ≠ "") = loc := by
    rw [segs, List.filter_cons_of_neg (by simp)]
    exact List.filter_eq_self.mpr fun n member => by simpa using (plain n member).named
  have unclosed : ¬ loc.text.endsWith "/" = true := by
    intro slash
    obtain ⟨start, ends⟩ := endsWith_iff.mp slash
    have text : loc.text = String.ofList start ++ "/" ++ "" := by
      rw [← String.toList_inj, ← ends]
      simp
    -- The piece after a closing slash is empty, but the last name is not.
    have empty : segments "" = [""] := segments_single (by simp)
    rw [text, segments_append, empty] at segs
    have last := congrArg List.getLast? segs
    rw [List.getLast?_concat, List.getLast?_cons, List.getLast?_eq_some_getLast some,
      Option.getD_some, Option.some.injEq] at last
    exact (plain _ (List.getLast_mem some)).named last.symm
  rw [steps, names, if_neg unclosed]

theorem cleanFrom_names (here names : Location) :
    cleanFrom here (names.map .name) = here ++ names := by
  induction names generalizing here with
  | nil => simp [cleanFrom]
  | cons name names ih => rw [List.map_cons, cleanFrom, ih, List.append_assoc]; rfl

/-- The text of a location spells that location. -/
theorem cleanPath_text (plain : loc.Plain) (cwd : Location) : cleanPath cwd loc.text = loc := by
  rw [cleanPath, components_text plain, cleanFrom, cleanFrom_names, List.nil_append]

theorem isName_of_later {segs : List String} (single : ∀ s ∈ segs, '/' ∉ s.toList)
    (member : .name name ∈ laterComponents segs) : IsName name := by
  obtain ⟨s, listed, becomes⟩ := List.mem_filterMap.mp member
  split at becomes
  · cases becomes
  · rename_i proper
    rw [Bool.or_eq_true, decide_eq_true_eq, decide_eq_true_eq, not_or] at proper
    split at becomes
    · cases becomes
    · rename_i up
      cases becomes
      exact ⟨proper.1, proper.2, up, single _ listed⟩

theorem isName_of_component (member : .name name ∈ components path) : IsName name := by
  have single : ∀ s ∈ segments path, '/' ∉ s.toList := by
    intro s listed
    obtain ⟨piece, cut, rfl⟩ := List.mem_map.mp listed
    rw [String.toList_ofList]
    exact Text.sep_not_mem_piece cut
  unfold components at member
  split at member
  · cases member
  · rename_i first rest segs
    rw [segs] at single
    have later : ∀ s ∈ rest, '/' ∉ s.toList := fun s listed =>
      single s (List.mem_cons_of_mem _ listed)
    split at member
    · exact isName_of_later later (by simpa using member)
    · split at member
      · exact isName_of_later later (by simpa using member)
      · exact isName_of_later single member

theorem plain_cleanFrom (plain : loc.Plain) {cs : List Component}
    (names : ∀ name, .name name ∈ cs → IsName name) : (cleanFrom loc cs).Plain := by
  induction cs generalizing loc with
  | nil => exact plain
  | cons c cs ih =>
      have rest : ∀ name, .name name ∈ cs → IsName name := fun name member =>
        names name (List.mem_cons_of_mem _ member)
      cases c with
      | root => exact ih nofun rest
      | here => exact ih plain rest
      | up => exact ih (fun n member => plain n (List.dropLast_subset loc member)) rest
      | name s =>
          refine ih (fun n member => ?_) rest
          rcases List.mem_append.mp member with old | new
          · exact plain n old
          · rw [List.mem_singleton.mp new]
            exact names s List.mem_cons_self

/-- A path that is cleaned up has no dots. -/
theorem plain_cleanPath {cwd : Location} (plain : cwd.Plain) (path : String) :
    (cleanPath cwd path).Plain :=
  plain_cleanFrom plain fun _ => isName_of_component

/-- The text of a location has the characters of its names, and slashes. -/
theorem mem_text {c : Char} (other : c ≠ '/') :
    c ∈ loc.text.toList ↔ ∃ name ∈ loc, c ∈ name.toList := by
  have inside : c ∈ ("/".intercalate loc).toList ↔ ∃ name ∈ loc, c ∈ name.toList := by
    induction loc with
    | nil => simp
    | cons name loc ih =>
        cases loc with
        | nil => simp
        | cons next loc =>
            rw [String.intercalate_cons_cons, String.toList_append, String.toList_append,
              List.mem_append, List.mem_append, ih]
            simp [other]
  rw [Location.text, String.toList_append, List.mem_append, inside]
  simp [other]

end LiveRules.Files
