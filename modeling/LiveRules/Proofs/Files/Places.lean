import LiveRules.Proofs.Files.Walk

/-!
# Places that stay

A write makes a file where nothing is, or puts a file in the place of a file or a pipe.
All walks lead where they led before, but for those that ended at the missing place.
So the canonical place of a path stays, unless a walk that goes into it ends at another
place that is missing.
-/
namespace LiveRules.Files

/-- What becomes of the end of a walk when a file is written at a place. -/
inductive Reached.Kept (loc : Location) (content : Content) : Reached → Reached → Prop
  | same {r : Reached} (other : r ≠ .missing loc) : Kept loc content r r
  | made : Kept loc content (.missing loc) (.found loc (.file content))
  | written {node : Node} (final : ∀ target, node ≠ .link target) :
      Kept loc content (.found loc node) (.found loc (.file content))
  | failed {before after : ReadError} : Kept loc content (.failed before) (.failed after)

namespace Tree
variable {t t' : Tree} {loc : Location} {content : Content}

/-- A file can be written at the place. -/
def Free (t : Tree) (loc : Location) : Prop :=
  ∀ node, t.get? loc = some node → node ≠ .directory ∧ ∀ target, node ≠ .link target

theorem Free.ne_nil (free : t.Free loc) : loc ≠ [] := by
  rintro rfl
  exact (free .directory rfl).1 rfl

/-- A directory stays where it is. -/
theorem Free.directory (free : t.Free loc) {other : Location}
    (directory : t.get? other = some .directory) :
    (t.set loc (.file content)).get? other = some .directory := by
  have apart : other ≠ loc := by
    rintro rfl
    exact (free _ directory).1 rfl
  rw [get?_set_other apart, directory]

theorem Free.link (free : t.Free loc) {other : Location} {target : String}
    (link : t.get? other = some (.link target)) :
    (t.set loc (.file content)).get? other = some (.link target) := by
  have apart : other ≠ loc := by
    rintro rfl
    exact (free _ link).2 target rfl
  rw [get?_set_other apart, link]

theorem walk_kept (free : t.Free loc) (follow : Bool) (budget : Nat) (here : Location)
    (todo : List String) :
    Reached.Kept loc content (t.walk follow budget here todo)
      ((t.set loc (.file content)).walk follow budget here todo) := by
  have here? : (t.set loc (.file content)).get? loc = some (.file content) :=
    get?_set_same free.ne_nil
  fun_induction walk t follow budget here todo with
  | case1 =>
      rw [walk]
      exact .same (by simp)
  | case2 budget here rest ih =>
      rw [walk]
      exact ih
  | case3 budget here rest ih =>
      rw [walk]
      exact ih
  | case4 budget here name rest dot dots loc' none atEnd =>
      by_cases same : loc' = loc
      · obtain rfl := same
        rw [walk_leaf dot dots here? (by simp) (by simp), if_pos atEnd]
        exact .made
      · rw [walk_none dot dots (by rw [get?_set_other same, none]), if_pos atEnd]
        exact .same (by simpa [loc'] using same)
  | case5 budget here name rest dot dots loc' none more =>
      by_cases same : loc' = loc
      · obtain rfl := same
        rw [walk_leaf dot dots here? (by simp) (by simp), if_neg more]
        exact .failed
      · rw [walk_none dot dots (by rw [get?_set_other same, none]), if_neg more]
        exact .failed
  | case6 budget here name rest dot dots loc' directory ih =>
      rw [walk_directory dot dots (free.directory directory)]
      exact ih
  | case7 budget here name rest dot dots loc' target link atEnd =>
      rw [walk_link dot dots (free.link link), if_pos atEnd]
      exact .same (by simp)
  | case8 here name rest dot dots loc' target link on =>
      rw [walk_link dot dots (free.link link), if_neg on]
      exact .failed
  | case9 here name rest dot dots loc' target link on budget none =>
      rw [walk_link dot dots (free.link link), if_neg on]
      simp only [none, if_true]
      exact .failed
  | case10 here name rest dot dots loc' target link on budget named start ih =>
      rw [walk_link dot dots (free.link link), if_neg on]
      simp only [named]
      exact ih
  | case11 budget here name rest dot dots loc' node plain final leaf atEnd =>
      by_cases same : loc' = loc
      · obtain rfl := same
        rw [walk_leaf dot dots here? (by simp) (by simp), if_pos atEnd]
        exact .written fun target link => final target link
      · rw [walk_leaf dot dots (by rw [get?_set_other same, leaf]) plain final, if_pos atEnd]
        exact .same (by simp)
  | case12 budget here name rest dot dots loc' node plain final leaf more =>
      by_cases same : loc' = loc
      · obtain rfl := same
        rw [walk_leaf dot dots here? (by simp) (by simp), if_neg more]
        exact .failed
      · rw [walk_leaf dot dots (by rw [get?_set_other same, leaf]) plain final, if_neg more]
        exact .failed

theorem reach_kept (free : t.Free loc) (follow : Bool) (path : String) :
    Reached.Kept loc content (t.reach follow path)
      ((t.set loc (.file content)).reach follow path) := by
  unfold reach
  split
  · exact .failed
  · split
    · exact .failed
    · exact walk_kept free follow linkLimit _ (steps path)

theorem free_of_missing {follow : Bool} {path : String}
    (ends : t.reach follow path = .missing loc) : t.Free loc := by
  have fine : ∀ cause, t.reach follow path ≠ .failed cause := by simp [ends]
  rw [reach_eq_walk fine t rfl] at ends
  have none := get?_of_walk t follow linkLimit (if isAbsolute path then [] else t.cwd) (steps path)
  rw [ends] at none
  intro node there
  rw [none] at there
  cases there

theorem free_of_found {follow : Bool} {path : String} {node : Node}
    (ends : t.reach follow path = .found loc node) (plain : node ≠ .directory)
    (final : ∀ target, node ≠ .link target) : t.Free loc := by
  have fine : ∀ cause, t.reach follow path ≠ .failed cause := by simp [ends]
  rw [reach_eq_walk fine t rfl] at ends
  have some := get?_of_walk t follow linkLimit (if isAbsolute path then [] else t.cwd) (steps path)
  rw [ends] at some
  intro node' there
  obtain rfl := Option.some.inj ((some.resolve_left plain).symm.trans there)
  exact ⟨plain, final⟩

theorem walk_congr (same : ∀ loc, t'.get? loc = t.get? loc) (follow : Bool) (budget : Nat)
    (here : Location) (todo : List String) :
    t'.walk follow budget here todo = t.walk follow budget here todo := by
  fun_induction walk t follow budget here todo with
  | case1 => rw [walk]
  | case2 budget here rest ih => rw [walk, ih]
  | case3 budget here rest ih => rw [walk, ih]
  | case4 _ _ _ _ dot dots loc' none more | case5 _ _ _ _ dot dots loc' none more =>
      rw [walk_none dot dots ((same _).trans none)]
      simp [more, loc']
  | case6 _ _ _ _ dot dots _ directory ih =>
      rw [walk_directory dot dots ((same _).trans directory)]
      exact ih
  | case7 _ _ _ _ dot dots loc' _ link on =>
      rw [walk_link dot dots ((same _).trans link)]
      simp [on, loc']
  | case8 _ _ _ dot dots loc' _ link on =>
      rw [walk_link dot dots ((same _).trans link)]
      simp [on]
  | case9 _ _ _ dot dots loc' _ link on _ none =>
      rw [walk_link dot dots ((same _).trans link)]
      simp [on, none]
  | case10 _ _ _ dot dots loc' _ link on _ named start ih =>
      rw [walk_link dot dots ((same _).trans link), if_neg on]
      simp only [named]
      exact ih
  | case11 _ _ _ _ dot dots loc' _ plain final leaf more
  | case12 _ _ _ _ dot dots loc' _ plain final leaf more =>
      rw [walk_leaf dot dots ((same _).trans leaf) plain final]
      simp [more, loc']

/-- Pipes lead nowhere. -/
theorem reach_pipes (pipes : List Pipe) (follow : Bool) (path : String) :
    { t with pipes }.reach follow path = t.reach follow path := by
  have same := @walk_congr t { t with pipes } fun _ => rfl
  simp only [reach, same]

/-- What a store's writing does to the tree: a file is written, or text goes through a
pipe. -/
inductive Written (t : Tree) : Tree → Prop
  | file {loc : Location} (free : t.Free loc) (content : Content) :
      Written t (t.set loc (.file content))
  | pipes (pipes : List Pipe) : Written t { t with pipes }

theorem append_written {path text : String} {changes : List Change}
    (done : t.append path text = .ok (t', changes)) : t.Written t' := by
  unfold append at done
  split at done
  · cases done
  · rename_i loc content ends
    cases done
    exact .file (free_of_found ends (by simp) (by simp)) _
  · cases done
    exact .pipes _
  · cases done
    exact .pipes t.pipes
  · rename_i loc ends
    cases done
    exact .file (free_of_missing ends) _
  · cases done

/-- The path ends at no link itself. -/
def Plain (t : Tree) (path : String) : Prop :=
  ∀ loc target, t.reach false path ≠ .found loc (.link target)

theorem replace_written {path text : String} {changes : List Change} (plain : t.Plain path)
    (done : t.replace path text = .ok (t', changes)) : t.Written t' := by
  unfold replace at done
  split at done
  · cases done
  · rename_i loc node other ends
    cases done
    refine .file (free_of_found ends ?_ ?_) _
    · rintro rfl
      exact other rfl
    · rintro target rfl
      exact plain loc target ends
  · rename_i loc ends
    cases done
    exact .file (free_of_missing ends) _
  · cases done

theorem plain_written (written : t.Written t') {path : String} (plain : t.Plain path) :
    t'.Plain path := by
  intro loc' target ends
  cases written with
  | @file loc free content =>
      have kept := @reach_kept t loc content free false path
      rw [ends] at kept
      generalize before : t.reach false path = r at kept
      cases kept
      exact plain loc' target before
  | pipes =>
      rw [reach_pipes] at ends
      exact plain loc' target ends

/-- The directory that holds a path, by the text of the path alone. -/
def holder (t : Tree) (path : String) : Location := (cleanPath t.cwd path).dropLast

/-- The place that a path without a file has. -/
def placeless (t : Tree) (path : String) : Except ReadError Location :=
  if path.isEmpty then .error .emptyPath
  else match (cleanPath t.cwd path).getLast? with
    | none => .ok (cleanPath t.cwd path)
    | some name =>
        match t.resolve (t.holder path).text with
        | .ok dir => .ok (dir ++ [name])
        | .error _ => .ok (cleanPath t.cwd path)

theorem canonical_eq (t : Tree) (path : String) : t.canonical path =
    match t.resolve path with
    | .ok loc => .ok loc
    | .error _ => t.placeless path := rfl

/-- The canonical place of the path is `place`. If a walk that goes into it ends at a
missing place, then that is the place itself, or the directory in the text of the path. -/
structure Steady (t : Tree) (path : String) (place : Location) : Prop where
  placed : t.canonical path = .ok place
  missing : ∀ loc, t.reach true path = .missing loc → loc = place
  above : ∀ cause, t.resolve path = .error cause →
    ∀ loc, t.reach true (t.holder path).text = .missing loc → loc = t.holder path

theorem placeless_set (free : t.Free loc) {path : String}
    (above : ∀ dir, t.reach true (t.holder path).text = .missing dir → dir = t.holder path) :
    (t.set loc (.file content)).placeless path = t.placeless path := by
  have kept := @reach_kept t loc content free true (t.holder path).text
  unfold placeless
  split
  · rfl
  · change (match (cleanPath t.cwd path).getLast? with
      | none => Except.ok (cleanPath t.cwd path)
      | some name =>
          match (t.set loc (.file content)).resolve (t.holder path).text with
          | .ok dir => .ok (dir ++ [name])
          | .error _ => .ok (cleanPath t.cwd path)) = _
    cases last : (cleanPath t.cwd path).getLast? with
    | none => rfl
    | some name =>
        unfold resolve
        generalize before : t.reach true (t.holder path).text = r at kept
        generalize (t.set loc (.file content)).reach true (t.holder path).text = r' at kept
        cases kept with
        | same | failed | written => rfl
        | made =>
            -- The file has the name of the directory in the text of the path.
            obtain rfl := above loc before
            obtain ⟨front, clean⟩ := List.getLast?_eq_some_iff.mp last
            simp only [holder, clean, List.dropLast_concat]

theorem Steady.set (steady : t.Steady path place) (free : t.Free loc) (content : Content) :
    (t.set loc (.file content)).Steady path place := by
  have kept := @reach_kept t loc content free true path
  have keptAbove := @reach_kept t loc content free true (t.holder path).text
  have placed := steady.placed
  rw [canonical_eq] at placed
  have fallsBack (cause : ReadError) (error : t.resolve path = .error cause) :
      (t.set loc (.file content)).placeless path = .ok place := by
    rw [placeless_set free (steady.above cause error)]
    simpa only [error] using placed
  have above : ∀ cause, t.resolve path = .error cause → ∀ dir,
      (t.set loc (.file content)).reach true (t.holder path).text = .missing dir →
        dir = t.holder path := by
    intro cause error dir missing
    rw [missing] at keptAbove
    generalize before : t.reach true (t.holder path).text = r at keptAbove
    cases keptAbove
    exact steady.above cause error dir before
  have after : (t.set loc (.file content)).canonical path =
      match (t.set loc (.file content)).resolve path with
      | .ok loc => .ok loc
      | .error _ => (t.set loc (.file content)).placeless path := canonical_eq _ path
  unfold resolve at fallsBack above placed after
  generalize before : t.reach true path = r at kept fallsBack above placed
  generalize now : (t.set loc (.file content)).reach true path = r' at kept after
  cases kept with
  | same other =>
      cases r with
      | found place' node =>
          obtain rfl : place' = place := Except.ok.inj placed
          exact ⟨after, by simp [now], fun cause error => by simp [resolve, now] at error⟩
      | missing place' =>
          obtain rfl := steady.missing place' before
          refine ⟨after.trans (fallsBack _ rfl), ?_, fun _ _ => above _ rfl⟩
          rintro dir missing
          exact (Reached.missing.inj (now.symm.trans missing)).symm
      | failed cause =>
          refine ⟨after.trans (fallsBack _ rfl), by simp [now], fun _ _ => above _ rfl⟩
  | made =>
      obtain rfl := steady.missing loc before
      exact ⟨after, by simp [now], fun cause error => by simp [resolve, now] at error⟩
  | written final =>
      obtain rfl : loc = place := Except.ok.inj placed
      exact ⟨after, by simp [now], fun cause error => by simp [resolve, now] at error⟩
  | failed => exact ⟨after.trans (fallsBack _ rfl), by simp [now], fun _ _ => above _ rfl⟩

theorem Steady.written (steady : t.Steady path place) (written : t.Written t') :
    t'.Steady path place := by
  cases written with
  | file free content => exact steady.set free content
  | pipes pipes =>
      obtain ⟨placed, missing, above⟩ := steady
      constructor
      · simpa only [canonical, resolve, reach_pipes] using placed
      · simpa only [reach_pipes] using missing
      · simpa only [resolve, reach_pipes, holder] using above

/-- The path of a file that exists is steady. -/
theorem steady_of_resolve (found : t.resolve path = .ok place) : t.Steady path place where
  placed := by rw [canonical_eq, found]
  missing := by
    intro loc missing
    rw [resolve, missing] at found
    cases found
  above := by
    intro cause error
    rw [found] at error
    cases error

/-- So is that of a missing file whose directory exists, if the path leads to its place. -/
theorem steady_of_missing (placed : t.canonical path = .ok place)
    (missing : t.reach true path = .missing place) {dir : Location}
    (directory : t.resolve (t.holder path).text = .ok dir) : t.Steady path place where
  placed := placed
  missing := by
    intro loc ends
    exact Reached.missing.inj (ends.symm.trans missing)
  above := by
    intro cause _ loc ends
    rw [resolve, ends] at directory
    cases directory

/-- A file that is made where a path ends becomes the place of the path. -/
theorem canonical_made {path : String} (missing : t.reach true path = .missing loc)
    (content : Content) : (t.set loc (.file content)).canonical path = .ok loc := by
  have found := reach_set content (.inl missing)
  rw [canonical_eq, resolve, found]

end Tree
end LiveRules.Files
